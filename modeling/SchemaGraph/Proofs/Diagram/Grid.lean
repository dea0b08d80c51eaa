import SchemaGraph.Proofs.Diagram.Graph

-- Where the nodes of a flow stand.
namespace SchemaGraph

namespace Layout

variable {layout : Layout} {i j : Int}

def Position.Before (p q : Position) : Prop :=
  p.y < q.y ∨ p.y = q.y ∧ p.x < q.x

theorem Position.Before.ne {p q : Position} (h : p.Before q) : p ≠ q := by
  rintro rfl
  cases h
  case inl h => exact Int.lt_irrefl _ h
  case inr h => exact Int.lt_irrefl _ h.right

theorem coordinate_eq_iff {spacing offset : Int} :
    i * spacing + offset = j * spacing + offset ↔ spacing = 0 ∨ i = j := by
  rw [Int.add_left_inj]
  constructor
  case mp  => exact fun h => or_iff_not_imp_left.mpr fun hs => Int.eq_of_mul_eq_mul_right hs h
  case mpr =>
    rintro (rfl | rfl)
    case inl => rw [Int.mul_zero, Int.mul_zero]
    case inr => rfl

theorem position_eq_iff (layout : Layout) (i j : Int) : layout.position i = layout.position j ↔
    (layout.xSpacing = 0 ∨ i.fmod layout.columns = j.fmod layout.columns) ∧
      (layout.ySpacing = 0 ∨ i.fdiv layout.columns = j.fdiv layout.columns) := by
  rw [position, position, Position.mk.injEq, coordinate_eq_iff, coordinate_eq_iff]

theorem row_lt_or_column_lt {columns : Int} (hc : 1 ≤ columns) (h : i < j) :
    i.fdiv columns < j.fdiv columns ∨
      i.fdiv columns = j.fdiv columns ∧ i.fmod columns < j.fmod columns := by
  have hi := Int.fmod_add_mul_fdiv i columns
  have hj := Int.fmod_add_mul_fdiv j columns
  have hle : i.fdiv columns ≤ j.fdiv columns := by
    rw [Int.fdiv_eq_ediv_of_nonneg _ (by omega), Int.fdiv_eq_ediv_of_nonneg _ (by omega)]
    exact Int.ediv_le_ediv (by omega) (Int.le_of_lt h)
  cases Int.lt_or_eq_of_le hle
  case inl hlt => exact .inl hlt
  case inr heq =>
    rw [heq] at hi
    exact .inr ⟨heq, by omega⟩

theorem position_before (hc : 1 ≤ layout.columns) (hx : 0 < layout.xSpacing)
    (hy : 0 < layout.ySpacing) (h : i < j) : (layout.position i).Before (layout.position j) := by
  cases row_lt_or_column_lt hc h
  case inl hrow => exact .inl (Int.add_lt_add_right (Int.mul_lt_mul_of_pos_right hrow hy) _)
  case inr hcol =>
    refine .inr ⟨?_, Int.add_lt_add_right (Int.mul_lt_mul_of_pos_right hcol.right hx) _⟩
    rw [position, position, hcol.left]

end Layout

namespace Flow

variable {layout : Layout}

structure RowByRow (schema : Schema) (layout : Layout) : Prop where
  placed  : ((ofSchema schema layout).nodes.map fun n => (n.id, n.position)) =
    schema.tables.zipIdx.map fun (table, index) => (table.name, layout.position index)
  nodup   : ((ofSchema schema layout).nodes.map (·.position)).Nodup
  ordered : ((ofSchema schema layout).nodes.map (·.position)).Pairwise (·.Before ·)

theorem map_position_nodesOf (schema : Schema) (layout : Layout) :
    (nodesOf schema layout).map (·.position) =
      (List.range schema.tables.length).map fun index : Nat => layout.position index := by
  rw [nodesOf, List.map_map, List.range_eq_range', ←List.zipIdx_map_snd, List.map_map]
  rfl

theorem pairwise_position (hc : 1 ≤ layout.columns) (hx : 0 < layout.xSpacing)
    (hy : 0 < layout.ySpacing) (schema : Schema) :
    ((nodesOf schema layout).map (·.position)).Pairwise (·.Before ·) := by
  rw [map_position_nodesOf]
  exact List.pairwise_lt_range.map _ fun _ _ h =>
    Layout.position_before hc hx hy (Int.ofNat_lt.mpr h)

-- Places share a position only where a spacing is zero. With two positive spacings no nodes do.
theorem placed_rowByRow (h : 1 ≤ layout.columns) :
    (∀ i j, layout.position i = layout.position j ↔
      (layout.xSpacing = 0 ∨ i.fmod layout.columns = j.fmod layout.columns) ∧
        (layout.ySpacing = 0 ∨ i.fdiv layout.columns = j.fdiv layout.columns)) ∧
    (0 < layout.xSpacing → 0 < layout.ySpacing → ∀ schema, RowByRow schema layout) := by
  refine ⟨layout.position_eq_iff, fun hx hy schema => ?_⟩
  have ordered := pairwise_position h hx hy schema
  exact {
    placed  := List.map_map
    nodup   := ordered.imp Layout.Position.Before.ne
    ordered := ordered }

theorem placed_rowByRow_narrow :
    1 ≤ Layout.columns ⟨2, 10, 20, -5, 0⟩ ∧
      RowByRow ⟨[⟨"a", [], [], []⟩, ⟨"b", [], [], []⟩, ⟨"c", [], [], []⟩], []⟩ ⟨2, 10, 20, -5, 0⟩ ∧
    1 ≤ Layout.columns ⟨2, 10, 0, -5, 0⟩ ∧
      Layout.position ⟨2, 10, 0, -5, 0⟩ (-1) = Layout.position ⟨2, 10, 0, -5, 0⟩ 3 :=
  ⟨by decide, (placed_rowByRow (by decide)).right (by decide) (by decide) _, by decide,
    ((placed_rowByRow (by decide)).left (-1) 3).mpr (by decide)⟩

end Flow
end SchemaGraph
