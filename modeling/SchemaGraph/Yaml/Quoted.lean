import SchemaGraph.Text.Digit
import SchemaGraph.Text.Surrogate
import SchemaGraph.Yaml.Error
import SchemaGraph.Yaml.Position

namespace SchemaGraph.Yaml

open Text (CodePoint)

def escapes : List (Char × Char) :=
  [('0', '\x00'), ('a', '\x07'), ('b', '\x08'), ('t', '\t'), ('\t', '\t'), ('n', '\n'),
    ('v', '\x0b'), ('f', '\x0c'), ('r', '\r'), ('e', '\x1b'), (' ', ' '), ('"', '"'),
    ('\\', '\\'), ('/', '/'), ('N', '\u0085'), ('_', '\u00A0'), ('L', '\u2028'), ('P', '\u2029')]

def codeLength? : Char → Option Nat
  | 'x' => some 2
  | 'u' => some 4
  | 'U' => some 8
  | _   => none

def coded (n : Nat) (digits : List Char) : Except Error CodePoint :=
  match digits.mapM Text.hexValue? with
  | none        => .error .badEscape
  | some values =>
    let code := values.foldl (16 * · + ·) 0
    if values.length != n then .error .badEscape
    else if 0x80000000 ≤ code then .error .hugeCode
    else if 0x110000 ≤ code then .error .badCode
    else .ok (.ofNat code)

def onto (cs : List Char) (done : List CodePoint) : List CodePoint :=
  (cs.map .char).reverse ++ done

def quotedText (quote : Char) : (fuel : Nat) → (done : List CodePoint) → Position →
    Except Error (List CodePoint × Position)
  | 0,        _,    _ => .error .openQuote
  | fuel + 1, done, p =>
    match p.rest with
    | []      => .error .openQuote
    | c :: cs =>
      if c = quote then
        if quote = '\'' ∧ cs.head? = some '\'' then
          quotedText quote fuel (.char '\'' :: done) (p.skip 2)
        else .ok (done.reverse, p.next)
      else if c = '\\' ∧ quote = '"' then
        match cs with
        | []     => .error .badEscape
        | e :: _ =>
          match codeLength? e with
          | some n =>
            match coded n (cs.tail.take n) with
            | .ok d    => quotedText quote fuel (d :: done) (p.skip (n + 2))
            | .error e => .error e
          | none   =>
            match escapes.lookup e, p.next.break? with
            | some d, _           => quotedText quote fuel (.char d :: done) (p.skip 2)
            | none,   some (_, p) =>
              match breaks isSpace fuel [] p with
              | some (more, p) => quotedText quote fuel (onto more done) p
              | none           => .error .openQuote
            | none,   none        => .error .badEscape
      else if isSpace c then
        let blanks := p.rest.takeWhile isSpace
        let p := p.skip blanks.length
        match p.break? with
        | some _ => quotedText quote fuel done p
        | none   => quotedText quote fuel (onto blanks done) p
      else if isBreak c then
        match p.break? with
        | some (c, p) =>
          match breaks isSpace fuel [] p with
          | some (more, p) => quotedText quote fuel (onto (folded c more) done) p
          | none           => .error .openQuote
        | none        => .error .openQuote
      else quotedText quote fuel (.char c :: done) p.next

end SchemaGraph.Yaml
