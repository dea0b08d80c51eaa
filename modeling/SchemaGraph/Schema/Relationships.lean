import SchemaGraph.Log.Event
import SchemaGraph.Schema.Catalog
import SchemaGraph.Schema.Convention
import SchemaGraph.Schema.Link

namespace SchemaGraph.Catalog

def linkOf (table : Table) (key : ForeignKey) : Link where
  sourceTable := table.name
  sourceColumn := key.column
  targetTable := key.refTable
  targetColumn := key.refColumn

def resolves (cat : Catalog) (key : ForeignKey) : Bool :=
  cat.keys.contains key.refTable

def explicitLinks (cat : Catalog) : List Link :=
  cat.tables.flatMap fun table =>
    (table.foreignKeys.filter cat.resolves).map (linkOf table)

def explicitRelationships (cat : Catalog) : List Relationship :=
  Relationship.ofLinks cat.explicitLinks

def danglingEvents (cat : Catalog) : List Event :=
  cat.tables.flatMap fun table =>
    (table.foreignKeys.filter (!cat.resolves ·)).map (.danglingForeignKey table.name)

def conventionLinks (cat : Catalog) : List Link :=
  let names := Convention.namesOf cat.keys
  cat.tables.flatMap fun table => table.columns.filterMap (Convention.link? names table)

def conventionRelationships (cat : Catalog) : List Relationship :=
  Relationship.ofLinks cat.conventionLinks

def conventionEvents (cat : Catalog) : List Event :=
  cat.conventionLinks.eraseDups.map .inferredLink

-- Names decide only when there are several tables and no foreign key leads to any of them.
def needsConvention (cat : Catalog) : Bool :=
  cat.explicitLinks.isEmpty && 1 < cat.entries.length

def relationships (cat : Catalog) : List Relationship :=
  if cat.needsConvention then cat.conventionRelationships else cat.explicitRelationships

def relationshipEvents (cat : Catalog) : List Event :=
  cat.danglingEvents ++
    if cat.needsConvention then .noExplicitRelationship cat.entries.length :: cat.conventionEvents
    else []

end SchemaGraph.Catalog
