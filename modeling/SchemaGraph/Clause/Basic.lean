import SchemaGraph.Schema.Basic

namespace SchemaGraph

inductive Clause.Fault
  | blank
  | primaryKeyWithoutColumns
  | foreignKeyWithoutColumns
  | unsupportedConstraint
  | notNameAndType
  | emptyNameOrType
  deriving DecidableEq, Repr

def Clause.Fault.message : Clause.Fault → String
  | blank                    => "empty clause"
  | primaryKeyWithoutColumns => "PRIMARY KEY without columns"
  | foreignKeyWithoutColumns => "FOREIGN KEY without columns"
  | unsupportedConstraint    => "unsupported table constraint"
  | notNameAndType           => "expected \x60name type\x60"
  | emptyNameOrType          => "empty column name or type"

inductive Clause
  | primaryKey (columns : List String)
  | foreignKey (keys : List ForeignKey)
  | column (name declaredType : String) (isPrimaryKey : Bool) (reference : Option ForeignKey)
  | unrecognized (text : String) (fault : Clause.Fault)
  deriving DecidableEq, Repr

end SchemaGraph
