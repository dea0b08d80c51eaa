import SchemaGraph.Number.Integer
import SchemaGraph.Text.Digit

namespace SchemaGraph.Yaml

inductive Error
  | unacceptableCharacter (code : Nat)
  -- The text cannot be cut into tokens.
  | badTokenStart
  | misplacedEntry
  | misplacedKey
  | misplacedValue
  | keyWithoutValue
  | openQuote
  | badEscape
  | badCode
  | hugeCode
  | badAnchor
  | unsupported
  -- The tokens do not make a document.
  | badNode (inBlock : Bool)
  | badBlockSequence
  | badBlockMapping
  | badFlowSequence
  | badFlowMapping
  | textAfterDocument (token : String)
  -- The document stands for no value.
  | severalDocuments
  | unknownAlias (name : String)
  | tooDeep
  | compoundKey
  | tooManyDigits (count : Nat)
  | noDigits (base : Nat)
  deriving DecidableEq, Repr

namespace Error

inductive Kind
  | reading
  | scanning
  | parsing
  | composing
  | constructing
  | evaluating
  | overflowing
  | nesting
  deriving DecidableEq, Repr

def kind : Error → Kind
  | unacceptableCharacter _ => .reading
  | badTokenStart           => .scanning
  | misplacedEntry          => .scanning
  | misplacedKey            => .scanning
  | misplacedValue          => .scanning
  | keyWithoutValue         => .scanning
  | openQuote               => .scanning
  | badEscape               => .scanning
  | badCode                 => .evaluating
  | hugeCode                => .overflowing
  | badAnchor               => .scanning
  | unsupported             => .scanning
  | badNode _               => .parsing
  | badBlockSequence        => .parsing
  | badBlockMapping         => .parsing
  | badFlowSequence         => .parsing
  | badFlowMapping          => .parsing
  | textAfterDocument _     => .parsing
  | severalDocuments        => .composing
  | unknownAlias _          => .composing
  | tooDeep                 => .nesting
  | compoundKey             => .constructing
  | tooManyDigits _         => .evaluating
  | noDigits _              => .evaluating

def headline : Error → String
  | unacceptableCharacter n =>
    s!"unacceptable character #x{String.ofList (Text.hex 4 n)}: special characters are not allowed"
  | badTokenStart           => "while scanning for the next token"
  | misplacedEntry          => "sequence entries are not allowed here"
  | misplacedKey            => "mapping keys are not allowed here"
  | misplacedValue          => "mapping values are not allowed here"
  | keyWithoutValue         => "while scanning a simple key"
  | openQuote               => "while scanning a quoted scalar"
  | badEscape               => "while scanning a double-quoted scalar"
  | badCode                 => "chr() arg not in range(0x110000)"
  | hugeCode                => "Python int too large to convert to C int"
  | badAnchor               => "while scanning an alias"
  | unsupported             => "unsupported construct"
  | badNode inBlock         =>
    if inBlock then "while parsing a block node" else "while parsing a flow node"
  | badBlockSequence        => "while parsing a block collection"
  | badBlockMapping         => "while parsing a block mapping"
  | badFlowSequence         => "while parsing a flow sequence"
  | badFlowMapping          => "while parsing a flow mapping"
  | textAfterDocument token => s!"expected '<document start>', but found '{token}'"
  | severalDocuments        => "expected a single document in the stream"
  | unknownAlias name       => s!"found undefined alias '{name}'"
  | tooDeep                 => "maximum recursion depth exceeded"
  | compoundKey             => "while constructing a mapping"
  | tooManyDigits count     => Number.tooManyDigitsMessage count
  | noDigits base           => s!"invalid literal for int() with base {base}: ''"

end Error
end SchemaGraph.Yaml
