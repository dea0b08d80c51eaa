import SchemaGraph.Diagram
import SchemaGraph.Proofs.Schema.Clean

-- The lines of a diagram in which the columns of a table are shown.
namespace SchemaGraph.Diagram

open Text

variable {table : Table} {col : Column}

def textLines (text : String) : List (List Char) :=
  cut (· == '\n') text.toList

def columnRow (col : Column) : List Char :=
  ("        " ++ columnText col).toList

def above (tables : List Table) (name : String) : String :=
  String.join ([header] ++ tables.flatMap tableLines) ++ "    " ++ name ++ " \x7b"

def below (tables : List Table) (rels : List Relationship) : String :=
  "    \x7d\n" ++ String.join (tables.flatMap tableLines ++ rels.map relationshipLine)

-- Wherever a table is among those of a diagram, each of its columns is shown in exactly one line,
-- in order and between the lines that open and close the table.
structure ShowsColumns (table : Table) : Prop where
  lines  : ∀ ts us rels, textLines (render (ts ++ table :: us) rels) =
    textLines (above ts table.name) ++ table.columns.map columnRow ++
      textLines (below us (rels.filter fun rel => (missing? (ts ++ table :: us) rel).isNone))
  spaces : ∀ col ∈ table.columns, ∀ c ∈ columnRow col, isBlank c → c = ' '

theorem toList_columnLine (col : Column) : (columnLine col).toList = columnRow col ++ ['\n'] := by
  simp [columnLine, columnRow]

theorem toList_render (ts us : List Table) (table : Table) (rels : List Relationship) :
    (render (ts ++ table :: us) rels).toList = (above ts table.name).toList ++ '\n' ::
      ((table.columns.map columnRow).flatMap (· ++ ['\n']) ++
        (below us (rels.filter fun rel => (missing? (ts ++ table :: us) rel).isNone)).toList) := by
  have hcols : (table.columns.map columnLine).flatMap (·.toList) =
      (table.columns.map columnRow).flatMap (· ++ ['\n']) := by
    simp only [List.flatMap_map, toList_columnLine]
  simp [render, lines, above, below, tableLines, String.toList_join, hcols]

theorem eq_space_of_mem_columnRow {c : Char} (hn : Clean col.name.toList)
    (ht : IsTypeWord col.declaredType) (hc : c ∈ columnRow col) (hb : isBlank c) : c = ' ' := by
  have hmark : ∀ text ∈ ["        ", "PK ", "FK ", "", " "], ∀ c ∈ text.toList, isBlank c →
      c = ' ' := by decide
  rw [columnRow, columnText] at hc
  simp only [String.toList_append, List.mem_append] at hc
  rcases hc with hc | (((hc | hc) | hc) | hc) | hc
  · exact hmark _ (by decide) c hc hb
  · exact hmark _ (by cases col.isPrimaryKey <;> decide) c hc hb
  · exact hmark _ (by cases col.isForeignKey <;> decide) c hc hb
  · exact absurd hb (ht.chars c hc).left
  · exact hmark _ (by decide) c hc hb
  · exact hn.spaces c hc hb

theorem showsColumns (h : table.Clean) : ShowsColumns table := by
  have hs : ∀ col ∈ table.columns, ∀ c ∈ columnRow col, isBlank c → c = ' ' := fun col hm _ =>
    eq_space_of_mem_columnRow (h.column_name col hm) (h.column_type col hm)
  refine ⟨fun ts us rels => ?_, hs⟩
  rw [textLines, toList_render, cut_append_cons rfl, cut_flatMap_append rfl, List.append_assoc]
  case h =>
    intro row hr c hc hl
    obtain ⟨col, hm, rfl⟩ := List.mem_map.mp hr
    obtain rfl : c = '\n' := eq_of_beq hl
    exact absurd (hs col hm '\n' hc (by decide)) (by decide)
  rfl

theorem clean_and_shown (name : String) (body : List Char) :
    (Table.ofBody name body).Clean ∧ ShowsColumns (Table.ofBody name body) :=
  have h := Table.clean_ofBody name body
  ⟨h, showsColumns h⟩

end SchemaGraph.Diagram
