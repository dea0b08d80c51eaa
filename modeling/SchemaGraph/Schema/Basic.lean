namespace SchemaGraph

structure ForeignKey where
  column : String
  refTable : String
  refColumn : String
  deriving DecidableEq, Repr

-- What a column refers to. Either name may be unknown.
structure Reference where
  table : Option String
  column : Option String
  deriving DecidableEq, Repr

structure Column where
  name : String
  declaredType : String
  isPrimaryKey : Bool
  reference : Option Reference
  deriving DecidableEq, Repr

def Column.isForeignKey (col : Column) : Bool :=
  col.reference.isSome

def ForeignKey.reference (fk : ForeignKey) : Reference where
  table := fk.refTable
  column := fk.refColumn

structure Table where
  name : String
  columns : List Column
  primaryKeys : List String
  foreignKeys : List ForeignKey
  deriving DecidableEq, Repr

def Table.column? (table : Table) (name : String) : Option Column :=
  table.columns.find? (·.name = name)

structure Link where
  sourceTable : String
  sourceColumn : String
  targetTable : String
  targetColumn : String
  deriving DecidableEq, Repr

structure Relationship extends Link where
  id : String
  kind : String
  deriving DecidableEq, Repr

def Relationship.oneToMany : String :=
  "one-to-many"

structure Schema where
  tables : List Table
  relationships : List Relationship
  deriving DecidableEq, Repr

namespace Schema

def empty : Schema where
  tables := []
  relationships := []

-- The last table of that name.
def table? (schema : Schema) (name : String) : Option Table :=
  schema.tables.reverse.find? (·.name = name)

end Schema
end SchemaGraph
