import SchemaGraph.Flow
import SchemaGraph.Json.Basic
import SchemaGraph.Number.Decimal
import SchemaGraph.Schema.Parse

namespace SchemaGraph

namespace Column

def referenceFields : Option Reference → List (String × Json)
  | none     => []
  | some ref => [("refTable", .ofOption .str ref.table), ("refColumn", .ofOption .str ref.column)]

def toJson (col : Column) : Json :=
  .obj ([
    ("name", .str col.name),
    ("type", .str col.declaredType),
    ("primaryKey", .bool col.isPrimaryKey),
    ("foreignKey", .bool col.isForeignKey)] ++ referenceFields col.reference)

end Column

def columnsToJson (columns : List Column) : Json :=
  .arr (columns.map Column.toJson)

def Table.toJson (table : Table) : Json :=
  .obj [("name", .str table.name), ("columns", columnsToJson table.columns)]

def Relationship.toJson (rel : Relationship) : Json :=
  .obj [
    ("id", .str rel.id),
    ("sourceTable", .str rel.sourceTable),
    ("sourceColumn", .str rel.sourceColumn),
    ("targetTable", .str rel.targetTable),
    ("targetColumn", .str rel.targetColumn),
    ("kind", .str rel.kind)]

def Schema.fields (schema : Schema) : List (String × Json) :=
  [("tables", .arr (schema.tables.map Table.toJson)),
    ("relationships", .arr (schema.relationships.map Relationship.toJson)),
    ("diagramText", .str schema.diagram)]

namespace Schema

def toJson (schema : Schema) : Json :=
  .obj schema.fields

def isNothing : Json → Bool
  | .null        => true
  | .bool b      => !b
  | .int n       => n == 0
  | .decimal m e => Number.Double.ofDecimal m e == .integer 0
  | .str s       => s.isEmpty
  | .arr items   => items.isEmpty
  | .obj fields  => fields.isEmpty
  | _            => false

def parseValue : Json → Schema
  | .str s => parse s.toList
  | _      => empty

def valueEvents : Json → List Event
  | .str s => events s.toList
  | value  => [if isNothing value then .emptySource else .unreadableSource]

end Schema

namespace Flow

def Node.toJson (node : Node) : Json :=
  .obj [
    ("id", .str node.id),
    ("type", .str "table"),
    ("data", .obj [("label", .str node.id), ("columns", columnsToJson node.columns)]),
    ("position", .obj [("x", .int node.position.x), ("y", .int node.position.y)])]

def Edge.toJson (edge : Edge) : Json :=
  .obj [
    ("id", .str edge.id),
    ("source", .str edge.source),
    ("target", .str edge.target),
    ("sourceHandle", .str "right"),
    ("targetHandle", .str "left"),
    ("label", .str edge.label),
    ("animated", .bool true)]

def toJson (flow : Flow) : Json :=
  .obj [
    ("nodes", .arr (flow.nodes.map Node.toJson)),
    ("edges", .arr (flow.edges.map Edge.toJson))]

end Flow
end SchemaGraph
