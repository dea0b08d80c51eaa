import SchemaGraph.Proofs.Identifier.Written
import SchemaGraph.Schema.Table

namespace SchemaGraph

namespace Declaration

structure Quoted where
  name : Identifier.Plain
  noComment : ¬ ['-', '-'] <:+: name.chars
  style : Identifier.Style

structure Name where
  first : Quoted
  others : List Quoted

structure TypeName where
  chars : List Char
  ne : chars ≠ []
  word : ∀ c ∈ chars, c.isAlphanum || c == '_'

structure Digits where
  chars : List Char
  ne : chars ≠ []
  digit : ∀ c ∈ chars, c.isDigit

structure TypeArguments where
  first : Digits
  second? : Option Digits

-- What a clause of a table declares. A list of columns is never empty, but for the
-- referenced ones of a foreign key.
inductive Item
  | column (name : Quoted) (type : TypeName) (args? : Option TypeArguments)
      (isPrimaryKey : Bool) (reference? : Option (Name × Option Quoted))
  | primaryKey (constraint? : Option Quoted) (first : Quoted) (others : List Quoted)
  | foreignKey (constraint? : Option Quoted) (first : Quoted) (others : List Quoted)
      (table : Name) (refColumns? : Option (List Quoted))

end Declaration

structure Declaration where
  name : Declaration.Name
  items : List Declaration.Item

namespace Declaration

-- How a declaration is written.

def Quoted.text (q : Quoted) : List Char :=
  q.style.quote q.name.chars

def Name.text (name : Name) : List Char :=
  name.first.text ++ name.others.flatMap fun q => '.' :: q.text

def innerText (qs : List Quoted) : List Char :=
  [',', ' '].intercalate (qs.map (·.text))

def listText (qs : List Quoted) : List Char :=
  '(' :: innerText qs ++ [')']

def TypeArguments.inner (args : TypeArguments) : List Char :=
  match args.second? with
  | none        => args.first.chars
  | some second => args.first.chars ++ ',' :: second.chars

def TypeArguments.text (args : TypeArguments) : List Char :=
  '(' :: args.inner ++ [')']

def argumentsText (args? : Option TypeArguments) : List Char :=
  (args?.map (·.text)).getD []

def columnsText (columns? : Option (List Quoted)) : List Char :=
  match columns? with
  | none    => []
  | some qs => [' '] ++ listText qs

def referencesText (table : Name) (columns? : Option (List Quoted)) : List Char :=
  "REFERENCES".toList ++ [' '] ++ table.text ++ columnsText columns?

def constraintText (constraint? : Option Quoted) : List Char :=
  match constraint? with
  | none   => []
  | some q => "CONSTRAINT".toList ++ [' '] ++ q.text ++ [' ']

def keyText (isPrimaryKey : Bool) : List Char :=
  if isPrimaryKey then " PRIMARY KEY".toList else []

def referenceText (reference? : Option (Name × Option Quoted)) : List Char :=
  match reference? with
  | none                  => []
  | some (table, column?) => [' '] ++ referencesText table (column?.map ([·]))

def Item.text : Item → List Char
  | column name type args? isPrimaryKey reference? =>
    name.text ++ [' '] ++ type.chars ++ argumentsText args?
      ++ (keyText isPrimaryKey ++ referenceText reference?)
  | primaryKey constraint? first others =>
    constraintText constraint? ++ "PRIMARY".toList ++ [' '] ++ "KEY".toList ++ [' ']
      ++ listText (first :: others)
  | foreignKey constraint? first others table refColumns? =>
    constraintText constraint? ++ "FOREIGN".toList ++ [' '] ++ "KEY".toList ++ [' ']
      ++ listText (first :: others) ++ [' '] ++ referencesText table refColumns?

def body (d : Declaration) : List Char :=
  [',', ' '].intercalate (d.items.map (·.text))

def text (d : Declaration) : List Char :=
  "CREATE TABLE ".toList ++ d.name.text ++ " (".toList ++ d.body ++ ");".toList

def script (ds : List Declaration) : List Char :=
  ds.flatMap fun d => d.text ++ ['\n']

-- What a declaration means.

def Quoted.string (q : Quoted) : String :=
  String.ofList q.name.chars

def Name.string (name : Name) : String :=
  String.ofList <| ['.'].intercalate ((name.first :: name.others).map (·.name.chars))

def Item.keyColumns : Item → List String
  | column name _ _ true _      => [name.string]
  | primaryKey _ first others   => (first :: others).map (·.string)
  | _                           => []

def defaultColumn : String :=
  "id"

-- The foreign keys that an item declares; columns are paired with the referenced ones by their
-- places.
def Item.foreignKeys : Item → List ForeignKey
  | column name _ _ _ (some (table, column?)) =>
    [⟨name.string, table.string, (column?.map (·.string)).getD defaultColumn⟩]
  | foreignKey _ first others table refColumns? =>
    (first :: others).mapIdx fun i q =>
      ⟨q.string, table.string, (((refColumns?.getD [])[i]?).map (·.string)).getD defaultColumn⟩
  | _ => []

def keyColumns (d : Declaration) : List String :=
  d.items.flatMap (·.keyColumns)

def foreignKeys (d : Declaration) : List ForeignKey :=
  d.items.flatMap (·.foreignKeys)

-- The column that an item declares: its own reference comes before the first of the table.
def column? (d : Declaration) : Item → Option Column
  | item@(.column name type _ _ _) => some {
    name := name.string
    declaredType := String.ofList type.chars
    isPrimaryKey := d.keyColumns.contains name.string
    reference := (item.foreignKeys ++ d.foreignKeys.filter (·.column = name.string)).head?.map
      fun key => ⟨some key.refTable, some key.refColumn⟩ }
  | _ => none

def table (d : Declaration) : Table where
  name := d.name.string
  columns := d.items.filterMap d.column?
  primaryKeys := d.keyColumns.eraseDups
  foreignKeys := d.foreignKeys

end Declaration
end SchemaGraph
