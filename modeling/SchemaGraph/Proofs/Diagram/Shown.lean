import SchemaGraph.Proofs.Schema.WellFormed

-- Which relationships a diagram shows.
namespace SchemaGraph.Schema

variable {schema : Schema} {rel : Relationship}

def Joins (schema : Schema) (link : Link) : Prop :=
  link.sourceTable ∈ schema.names ∧ link.targetTable ∈ schema.names

instance (schema : Schema) (link : Link) : Decidable (schema.Joins link) :=
  inferInstanceAs (Decidable (_ ∧ _))

def shown (schema : Schema) : List Relationship :=
  schema.relationships.filter fun rel => schema.Joins rel.toLink

theorem missing?_eq_none_iff :
    Diagram.missing? schema.tables rel = none ↔ schema.Joins rel.toLink where
  mp h := by simpa [Diagram.missing?, Joins, names] using h
  mpr h := missing?_eq_none h.left h.right

theorem isNone_missing? (schema : Schema) (rel : Relationship) :
    (Diagram.missing? schema.tables rel).isNone = decide (schema.Joins rel.toLink) := by
  rw [Bool.eq_iff_iff, Option.isNone_iff_eq_none, missing?_eq_none_iff, decide_eq_true_iff]

theorem lines_eq (schema : Schema) : Diagram.lines schema.tables schema.relationships =
    [Diagram.header] ++ schema.tables.flatMap Diagram.tableLines ++
      schema.shown.map Diagram.relationshipLine := by
  rw [Diagram.lines, shown]
  simp only [isNone_missing?]

end SchemaGraph.Schema
