import SchemaGraph.Pattern.Basic
import SchemaGraph.Schema.Basic
import SchemaGraph.Text.Letter

namespace SchemaGraph.Convention

open Pattern

def columnPattern : Pattern Unit :=
  group () (many (· != '\n')) ++ keyword "_id" ++ textEnd

def stem? (column : String) : Option String :=
  (columnPattern.matchText? column.toList).map fun found => String.ofList (found.group ())

def candidates (stem : String) : List String :=
  let plurals := [stem, stem ++ "s", stem ++ "es"]
  match stem.toList.reverse with
  | 'y' :: cs => plurals ++ [String.ofList cs.reverse ++ "ies"]
  | _         => plurals

def targetColumn : String :=
  "id"

abbrev Names := List (String × String)

def namesOf (keys : List String) : Names :=
  keys.map fun key => (Text.lower key, key)

-- The table that is a candidate, or else the last one that is so but for the case of letters.
def tableFor? (names : Names) (candidate : String) : Option String :=
  if names.any (·.2 == candidate) then some candidate
  else names.reverse.lookup (Text.lower candidate)

def target? (names : Names) (stem : String) : Option String :=
  (candidates stem).findSome? (tableFor? names)

def link? (names : Names) (table : Table) (col : Column) : Option Link :=
  if col.isForeignKey then none
  else
    match (stem? col.name).bind (target? names) with
    | none        => none
    | some target =>
      if target = table.name then none
      else some ⟨table.name, col.name, target, targetColumn⟩

end SchemaGraph.Convention
