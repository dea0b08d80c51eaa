import SchemaGraph.Clause.Basic
import SchemaGraph.Clause.Grammar

namespace SchemaGraph.Clause

def defaultRefColumn : String :=
  "id"

abbrev Found := Pattern.Progress Part

namespace Found

def names (found : Found) (label : Part) : List String :=
  (Identifier.splitList (found.group label)).map String.ofList

def refTable (found : Found) : String :=
  String.ofList (Identifier.unquoteQualified (found.group .refTable))

end Found

def ofPrimaryKey (text : List Char) (found : Found) : Clause :=
  match found.names .columns with
  | []      => unrecognized (String.ofList text) .primaryKeyWithoutColumns
  | columns => primaryKey columns

def pairColumns (refTable : String) : (columns refColumns : List String) → List ForeignKey
  | [],      _       => []
  | c :: cs, []      => ⟨c, refTable, defaultRefColumn⟩ :: pairColumns refTable cs []
  | c :: cs, r :: rs => ⟨c, refTable, r⟩ :: pairColumns refTable cs rs

def ofForeignKey (text : List Char) (found : Found) : Clause :=
  match found.names .columns with
  | []      => unrecognized (String.ofList text) .foreignKeyWithoutColumns
  | columns => foreignKey (pairColumns found.refTable columns (found.names .refColumns))

def ofColumn (text : List Char) (found : Found) : Clause :=
  let name := String.ofList (Identifier.unquote (found.group .name))
  let declaredType := String.ofList (Identifier.unquote (found.group .declaredType))
  if name.isEmpty || declaredType.isEmpty then
    unrecognized (String.ofList text) .emptyNameOrType
  else
    let tail := found.group .tail
    let reference := (inlineReferencePattern.find? tail).map fun (ref : Found) =>
      { column := name
        refTable := ref.refTable
        refColumn := (ref.names .refColumns).headD defaultRefColumn : ForeignKey }
    column name declaredType (inlinePrimaryKeyPattern.find? tail).isSome reference

def classify (raw : List Char) : Clause :=
  let text := Text.collapse raw
  if text.isEmpty then unrecognized (String.ofList raw) .blank
  else match primaryKeyPattern.matchText? text with
  | some found => ofPrimaryKey text found
  | none       =>
    match foreignKeyPattern.matchText? text with
    | some found => ofForeignKey text found
    | none       =>
      if (otherConstraintPattern.matchText? text).isSome then
        unrecognized (String.ofList text) .unsupportedConstraint
      else match columnPattern.matchText? text with
      | some found => ofColumn text found
      | none       => unrecognized (String.ofList text) .notNameAndType

end SchemaGraph.Clause
