import SchemaGraph.Clause.Classify
import SchemaGraph.Scan.Split
import SchemaGraph.Schema.Catalog
import SchemaGraph.Statement

namespace SchemaGraph

namespace Clause

def ofBody (body : List Char) : List Clause :=
  ((Scan.split (· == ',') body).filter fun part => !part.all Text.isBlank).map classify

def primaryKeys : Clause → List String
  | primaryKey columns   => columns
  | column name _ true _ => [name]
  | _                    => []

def foreignKeys : Clause → List ForeignKey
  | foreignKey keys         => keys
  | column _ _ _ (some key) => [key]
  | _                       => []

-- The column of a clause. Keys declared elsewhere in the table count for it too; its own reference
-- comes before the first one declared elsewhere.
def column? (primaryKeys : List String) (foreignKeys : List ForeignKey) : Clause → Option Column
  | column name declaredType _ own => some {
    name
    declaredType
    isPrimaryKey := primaryKeys.contains name
    reference := (own <|> foreignKeys.find? (·.column = name)).map (·.reference) }
  | _                              => none

def event? (table : String) : Clause → Option Event
  | unrecognized text fault => some (.droppedClause table fault text)
  | _                       => none

end Clause

namespace Table

def ofClauses (name : String) (clauses : List Clause) : Table :=
  let primaryKeys := (clauses.flatMap (·.primaryKeys)).eraseDups
  let foreignKeys := clauses.flatMap (·.foreignKeys)
  { name
    columns := clauses.filterMap (·.column? primaryKeys foreignKeys)
    primaryKeys
    foreignKeys }

def ofBody (name : String) (body : List Char) : Table :=
  ofClauses name (Clause.ofBody body)

def bodyEvents (name : String) (body : List Char) : List Event :=
  (Clause.ofBody body).filterMap (·.event? name)

end Table

namespace Statement

def table (s : Statement) : Table :=
  Table.ofBody s.name s.body

def readingEvents (known : List String) : List Statement → List Event
  | []      => []
  | s :: ss =>
    (if known.contains s.name then [Event.redefinedTable s.name] else [])
      ++ Table.bodyEvents s.name s.body ++ readingEvents (s.name :: known) ss

end Statement

-- The last table of each name, in the order in which the names first came up.
def Catalog.ofStatements (statements : List Statement) : Catalog :=
  Catalog.ofList (statements.map fun s => (s.name, s.table))

end SchemaGraph
