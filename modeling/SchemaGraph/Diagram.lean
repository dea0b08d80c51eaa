import SchemaGraph.Log.Event

namespace SchemaGraph.Diagram

def header : String :=
  "erDiagram\n"

def columnText (col : Column) : String :=
  (if col.isPrimaryKey then "PK " else "") ++ (if col.isForeignKey then "FK " else "")
    ++ col.declaredType ++ " " ++ col.name

def columnLine (col : Column) : String :=
  "        " ++ columnText col ++ "\n"

def tableLines (table : Table) : List String :=
  ["    " ++ table.name ++ " \x7b\n"] ++ table.columns.map columnLine ++ ["    \x7d\n"]

def relationshipLine (rel : Relationship) : String :=
  "    " ++ rel.sourceTable ++ " ||--o\x7b " ++ rel.targetTable ++ " : \""
    ++ rel.sourceColumn ++ " -> " ++ rel.targetColumn ++ "\"\n"

-- An endpoint that is not among the tables, the source before the target.
def missing? (tables : List Table) (rel : Relationship) : Option String :=
  [rel.sourceTable, rel.targetTable].find? fun name => !tables.any (·.name == name)

def lines (tables : List Table) (rels : List Relationship) : List String :=
  [header] ++ tables.flatMap tableLines
    ++ (rels.filter fun rel => (missing? tables rel).isNone).map relationshipLine

-- An entity-relationship diagram. Relationships with an unknown endpoint are left out.
def render (tables : List Table) (rels : List Relationship) : String :=
  String.join (lines tables rels)

def events (tables : List Table) (rels : List Relationship) : List Event :=
  rels.filterMap fun rel => (missing? tables rel).map (.unknownEndpoint rel.id)

end SchemaGraph.Diagram
