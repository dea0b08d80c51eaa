import Mathlib.Data.List.Nodup
import SchemaGraph.Flow
import SchemaGraph.Proofs.Diagram.Shown
import SchemaGraph.Proofs.Schema.Ids

-- That a diagram and a flow show one graph.
namespace SchemaGraph.Flow

variable {schema : Schema} {layout : Layout} {rel : Relationship} {e : Edge}

structure Arrow where
  source : String
  target : String
  label : String
  deriving DecidableEq, Repr

def Edge.arrow (e : Edge) : Arrow where
  source := e.source
  target := e.target
  label := e.label

def Arrow.ofRelationship (rel : Relationship) : Arrow where
  source := rel.sourceTable
  target := rel.targetTable
  label := rel.sourceColumn ++ " -> " ++ rel.targetColumn

def Arrow.line (a : Arrow) : String :=
  "    " ++ a.source ++ " ||--o\x7b " ++ a.target ++ " : \"" ++ a.label ++ "\"\n"

theorem Arrow.line_ofRelationship (rel : Relationship) :
    (ofRelationship rel).line = Diagram.relationshipLine rel := by
  simp only [line, ofRelationship, Diagram.relationshipLine, String.append_assoc]

theorem arrow_edge (rel : Relationship) (index : Nat) :
    (edge rel index).arrow = .ofRelationship rel := by
  simp [edge, Edge.arrow, Arrow.ofRelationship, toString]

theorem eq_of_id_edge_eq {rel' : Relationship} {i j : Nat}
    (h : (edge rel i).id = (edge rel' j).id) :
    i = j := by
  refine toString_injective ?_
  simpa [edge] using h

theorem map_id_nodesOf (schema : Schema) (layout : Layout) :
    (nodesOf schema layout).map (·.id) = schema.names := by
  have hn : schema.names = (schema.tables.zipIdx.map Prod.fst).map (·.name) := by
    rw [List.zipIdx_map_fst, Schema.names]
  rw [hn, nodesOf, List.map_map, List.map_map]
  rfl

theorem joins_nodesOf (schema : Schema) (layout : Layout) (rel : Relationship) :
    joins (nodesOf schema layout) rel = decide (schema.Joins rel.toLink) := by
  have key (name : String) : (nodesOf schema layout).any (·.id == name) =
      decide (name ∈ schema.names) := by
    rw [Bool.eq_iff_iff, decide_eq_true_iff, ←map_id_nodesOf schema layout]
    simp
  rw [joins, key, key, ←Bool.decide_and]
  rfl

theorem edges_eq (schema : Schema) (layout : Layout) : (ofSchema schema layout).edges =
    (schema.relationships.zipIdx.filter fun (rel, _) => schema.Joins rel.toLink).map
      fun (rel, index) => edge rel index := by
  rw [ofSchema]
  simp only [joins_nodesOf]

theorem arrows_eq (schema : Schema) (layout : Layout) :
    (ofSchema schema layout).edges.map (·.arrow) = schema.shown.map .ofRelationship := by
  have hs : schema.shown = (schema.relationships.zipIdx.filter fun (rel, _) =>
      schema.Joins rel.toLink).map Prod.fst := by
    rw [Schema.shown]
    nth_rewrite 1 [←List.zipIdx_map_fst 0 schema.relationships]
    exact List.filter_map
  rw [edges_eq, hs, List.map_map, List.map_map]
  exact List.map_congr_left fun place _ => arrow_edge place.1 place.2

theorem lines_edges (schema : Schema) (layout : Layout) :
    (ofSchema schema layout).edges.map (·.arrow.line) =
      schema.shown.map Diagram.relationshipLine := by
  have hl : (fun e : Edge => e.arrow.line) = Arrow.line ∘ Edge.arrow := rfl
  rw [hl, ←List.map_map, arrows_eq, List.map_map]
  exact List.map_congr_left fun rel _ => Arrow.line_ofRelationship rel

theorem map_id_arrow_edges (schema : Schema) (layout : Layout) :
    ((ofSchema schema layout).edges.map fun e => (e.id, e.arrow)) =
      (schema.relationships.zipIdx.filter fun (rel, _) => schema.Joins rel.toLink).map
        fun (rel, index) => (s!"edge-{index}", .ofRelationship rel) := by
  rw [edges_eq, List.map_map]
  exact List.map_congr_left fun (rel, index) _ => congrArg (Prod.mk _) (arrow_edge rel index)

-- Places that were left out are counted, so that no two edges have one number.
theorem nodup_id_edges (schema : Schema) (layout : Layout) :
    ((ofSchema schema layout).edges.map (·.id)).Nodup := by
  have hi : (schema.relationships.zipIdx.map Prod.snd).Nodup := by
    rw [List.zipIdx_map_snd]
    exact List.nodup_range'
  rw [edges_eq, List.map_map]
  refine List.Nodup.map_on (fun (rel, i) hm (rel', j) hm' he => ?_) (hi.of_map.filter _)
  have hij : i = j := eq_of_id_edge_eq he
  exact List.inj_on_of_nodup_map hi (List.mem_filter.mp hm).left (List.mem_filter.mp hm').left hij

theorem ends_mem_of_mem_edges (h : e ∈ (ofSchema schema layout).edges) :
    e.source ∈ schema.names ∧ e.target ∈ schema.names := by
  rw [edges_eq] at h
  have ⟨(rel, index), hm, he⟩ := List.mem_map.mp h
  have hj : schema.Joins rel.toLink := of_decide_eq_true (List.mem_filter.mp hm).right
  cases he
  exact hj

theorem diagram_eq (schema : Schema) (layout : Layout) : schema.diagram =
    Diagram.header ++ String.join (schema.tables.flatMap Diagram.tableLines) ++
      String.join ((ofSchema schema layout).edges.map (·.arrow.line)) := by
  rw [Schema.diagram, Diagram.render, schema.lines_eq, lines_edges, String.join_append,
    String.join_append, String.join_cons, String.join_nil, String.append_empty]

-- A flow has an arrow for each relationship that the diagram of the schema shows, in the same
-- order, between nodes. Its edges are numbered by the places of all relationships.
structure MirrorsDiagram (schema : Schema) (layout : Layout) : Prop where
  diagram    : schema.diagram =
    Diagram.header ++ String.join (schema.tables.flatMap Diagram.tableLines) ++
      String.join ((ofSchema schema layout).edges.map (·.arrow.line))
  arrows     : (ofSchema schema layout).edges.map (·.arrow) = schema.shown.map .ofRelationship
  numbered   : ((ofSchema schema layout).edges.map fun e => (e.id, e.arrow)) =
    (schema.relationships.zipIdx.filter fun (rel, _) => schema.Joins rel.toLink).map
      fun (rel, index) => (s!"edge-{index}", .ofRelationship rel)
  nodup_ids  : ((ofSchema schema layout).edges.map (·.id)).Nodup
  ends_mem   : ∀ e ∈ (ofSchema schema layout).edges,
    e.source ∈ (ofSchema schema layout).nodes.map (·.id) ∧
      e.target ∈ (ofSchema schema layout).nodes.map (·.id)

theorem mirrorsDiagram (schema : Schema) (layout : Layout) : MirrorsDiagram schema layout where
  diagram    := diagram_eq schema layout
  arrows     := arrows_eq schema layout
  numbered   := map_id_arrow_edges schema layout
  nodup_ids  := nodup_id_edges schema layout
  ends_mem _ h := map_id_nodesOf schema layout ▸ ends_mem_of_mem_edges h

structure ShowsAll (schema : Schema) (layout : Layout) : Prop where
  shown         : schema.shown = schema.relationships
  diagram_skips : Diagram.events schema.tables schema.relationships = []
  flow_skips    : events schema layout = []
  numbered      : ((ofSchema schema layout).edges.map fun e => (e.id, e.arrow)) =
    schema.relationships.zipIdx.map fun (rel, index) => (s!"edge-{index}", .ofRelationship rel)
  nodup_nodes   : ((ofSchema schema layout).nodes.map (·.id)).Nodup

theorem showsAll_of_joins (hn : schema.names.Nodup)
    (hj : ∀ rel ∈ schema.relationships, schema.Joins rel.toLink) (layout : Layout) :
    ShowsAll schema layout := by
  have places : (schema.relationships.zipIdx.filter fun (rel, _) => schema.Joins rel.toLink) =
      schema.relationships.zipIdx := by
    refine List.filter_eq_self.mpr fun (rel, index) hm => decide_eq_true (hj rel ?_)
    exact List.fst_mem_of_mem_zipIdx hm
  exact {
    shown         := List.filter_eq_self.mpr fun rel hm => decide_eq_true (hj rel hm)
    diagram_skips := by
      refine List.filterMap_eq_nil_iff.mpr fun rel hm => ?_
      rw [Schema.missing?_eq_none_iff.mpr (hj rel hm)]
      rfl
    flow_skips    := by
      refine List.map_eq_nil_iff.mpr (List.filter_eq_nil_iff.mpr fun rel hm => ?_)
      rw [joins_nodesOf, decide_eq_true (hj rel hm)]
      exact Bool.false_ne_true
    numbered      := by rw [map_id_arrow_edges, places]
    nodup_nodes   := (map_id_nodesOf schema layout).symm ▸ hn }

theorem showsAll_ofCatalog {cat : Catalog} (hk : cat.Keyed) (layout : Layout) :
    ShowsAll (.ofCatalog cat) layout := by
  have hn : (Schema.ofCatalog cat).names = cat.keys := hk.map_name_tables
  refine showsAll_of_joins (hn ▸ cat.nodup) (fun rel hm => ?_) layout
  have ⟨hs, ht⟩ := hk.joins_of_mem_relationships hm
  exact ⟨hn ▸ hs, hn ▸ ht⟩

theorem shows_same_graph (layout : Layout) : (∀ schema, MirrorsDiagram schema layout) ∧
    ∀ text, ShowsAll (Schema.parse text) layout :=
  ⟨fun schema => mirrorsDiagram schema layout,
    fun _ => showsAll_ofCatalog (Catalog.ofStatements_keyed _) layout⟩

end SchemaGraph.Flow
