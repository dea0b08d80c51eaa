import SchemaGraph.Log.Event
import SchemaGraph.Layout

namespace SchemaGraph

namespace Flow

structure Node where
  id : String
  position : Layout.Position
  columns : List Column
  deriving DecidableEq, Repr

structure Edge where
  id : String
  source : String
  target : String
  label : String
  deriving DecidableEq, Repr

end Flow

structure Flow where
  nodes : List Flow.Node
  edges : List Flow.Edge
  deriving DecidableEq, Repr

namespace Flow

def node (layout : Layout) (table : Table) (index : Nat) : Node where
  id := table.name
  position := layout.position index
  columns := table.columns

-- The edge of the relationship at place `index`, all relationships being counted.
def edge (rel : Relationship) (index : Nat) : Edge where
  id := s!"edge-{index}"
  source := rel.sourceTable
  target := rel.targetTable
  label := s!"{rel.sourceColumn} -> {rel.targetColumn}"

def joins (nodes : List Node) (rel : Relationship) : Bool :=
  nodes.any (·.id == rel.sourceTable) && nodes.any (·.id == rel.targetTable)

def nodesOf (schema : Schema) (layout : Layout) : List Node :=
  schema.tables.zipIdx.map fun (table, index) => node layout table index

def ofSchema (schema : Schema) (layout : Layout) : Flow where
  nodes := nodesOf schema layout
  edges := (schema.relationships.zipIdx.filter fun (rel, _) =>
    joins (nodesOf schema layout) rel).map fun (rel, index) => edge rel index

def events (schema : Schema) (layout : Layout) : List Event :=
  (schema.relationships.filter (!joins (nodesOf schema layout) ·)).map (.unplacedEdge ·.id)

end Flow
end SchemaGraph
