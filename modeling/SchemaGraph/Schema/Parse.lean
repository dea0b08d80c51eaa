import SchemaGraph.Diagram
import SchemaGraph.Schema.Table
import SchemaGraph.Schema.Relationships
import SchemaGraph.Source

namespace SchemaGraph.Schema

def ofCatalog (cat : Catalog) : Schema where
  tables := cat.tables
  relationships := cat.relationships

def diagram (schema : Schema) : String :=
  Diagram.render schema.tables schema.relationships

def parse (text : List Char) : Schema :=
  ofCatalog (.ofStatements (Statement.extract (Source.normalize text)))

def tableEvents (source : List Char) : List Event :=
  Statement.events source ++ Statement.readingEvents [] (Statement.extract source)

def events (text : List Char) : List Event :=
  let source := Source.normalize text
  if source.isEmpty then [.emptySource]
  else
    let cat := Catalog.ofStatements (Statement.extract source)
    let schema := ofCatalog cat
    tableEvents source ++ cat.relationshipEvents
      ++ Diagram.events schema.tables schema.relationships
      ++ [.parsed schema.tables.length schema.relationships.length]

end SchemaGraph.Schema
