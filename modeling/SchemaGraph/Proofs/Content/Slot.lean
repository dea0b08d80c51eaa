import SchemaGraph.Proofs.Content.Clause
import SchemaGraph.Proofs.Schema.Clauses
import SchemaGraph.Proofs.Source
import SchemaGraph.Proofs.Statement.Visits
import SchemaGraph.Schema.Parse

namespace SchemaGraph

open Scan

-- A place for the content of a literal: a clause of a body in parentheses, with all that stands
-- around it. An empty content leaves every clause of the body in one piece.
structure Slot where
  lead          : List Char
  earlier       : List (List Char)
  front         : List Char
  back          : List Char
  later         : List (List Char)
  rest          : List Char
  exposes_open  : (Mode.outside.after lead).exposes '('
  begins        : (Mode.outside.after front).Begins
  passes        : Passes 0 (front ++ (inQuotes [] ++ back)) 0
  passes_others : ∀ part ∈ earlier ++ later, Passes 0 part 0

namespace Slot

def clause (slot : Slot) (content : List Char) : List Char :=
  slot.front ++ (inQuotes content ++ slot.back)

def body (slot : Slot) (content : List Char) : List Char :=
  [','].intercalate (slot.earlier ++ slot.clause content :: slot.later)

def text (slot : Slot) (content : List Char) : List Char :=
  slot.lead ++ '(' :: (slot.body content ++ ')' :: slot.rest)

def before (slot : Slot) : List Char :=
  slot.lead ++ '(' :: [','].intercalate (slot.earlier ++ [slot.front])

def after (slot : Slot) : List Char :=
  [','].intercalate (slot.back :: slot.later) ++ ')' :: slot.rest

-- The contents that neither comments nor searches tell apart from others: the body is one that the
-- search for statements comes to, and the literal stands in the tail of a column.
structure Admits (slot : Slot) (content : List Char) : Prop where
  plain    : Plain content
  unbroken : Source.Unbroken content
  undashed : Text.Undashed content
  visited  : ∃ visit ∈ Statement.visits (slot.text content), visit.opening = slot.lead.length
  inTail   : Clause.InTail slot.front slot.back content

variable {slot : Slot} {u v x y : List Char}

theorem text_eq (slot : Slot) (x : List Char) :
    slot.text x = slot.before ++ (inQuotes x ++ slot.after) := by
  rw [text, body, clause, Text.intercalate_append_cons, before, after]
  simp

theorem passes_parts (hx : Plain x) :
    ∀ part ∈ slot.earlier ++ slot.clause x :: slot.later, Passes 0 part 0 :=
  forall_mem_middle (slot.passes.swap slot.begins (by simp [Plain]) hx) slot.passes_others

theorem enclosed (hx : Plain x) : Enclosed (slot.text x) slot.lead (slot.body x) slot.rest := by
  have ⟨ho, hb⟩ : (Mode.outside.after (slot.body x)).isOutside ∧
      Balanced (shown .outside (slot.body x)) :=
    settled_intercalate (by decide) (by decide) (by decide) fun part hp =>
      have hp := passes_parts hx part hp
      ⟨hp.isOutside, hp.balanced⟩
  exact ⟨rfl, slot.exposes_open, Mode.exposes_of_isOutside (Mode.after_outside_valid _) ho
    (by decide), hb⟩

namespace Admits

theorem table_eq (hx : slot.Admits x) (hy : slot.Admits y) (name : String) :
    Table.ofBody name (slot.body x) = Table.ofBody name (slot.body y) := by
  have hb (z) : (slot.clause z).all Text.isBlank = false :=
    List.all_eq_false.mpr ⟨'\'', by simp [clause, inQuotes], by decide⟩
  have hclosed {z} (hz : slot.Admits z) : ∀ part ∈ slot.earlier ++ slot.clause z :: slot.later,
      Closed (· == ',') part :=
    fun part hp => (passes_parts hz.plain part hp).closed
  rw [Table.ofBody, Table.ofBody, body, body, Clause.ofBody_intercalate (hclosed hx),
    Clause.ofBody_intercalate (hclosed hy), Clause.ofParts_middle (hb x),
    Clause.ofParts_middle (hb y), clause, clause, hx.inTail.classify_eq hy.inTail]

theorem ofStatements_eq (hx : slot.Admits x) (hy : slot.Admits y) :
    Catalog.ofStatements (Statement.extract (slot.text x)) =
      Catalog.ofStatements (Statement.extract (slot.text y)) := by
  have hl : slot.lead.length < slot.before.length := by simp [before]
  have hbody {z} (hz : slot.Admits z) := text_eq slot z ▸ enclosed hz.plain
  have hvisited {z} (hz : slot.Admits z) := text_eq slot z ▸ hz.visited
  have ⟨earlier, name, later, he, he'⟩ :=
    Statement.extract_swap (Clause.alike_inQuotes x y slot.after)
    (hbody hx) (hbody hy) hl (hvisited hx) (hvisited hy)
  have hstatement : (Statement.statementOf? name (slot.body x)).toList.map
        (fun s => (s.name, s.table)) =
      (Statement.statementOf? name (slot.body y)).toList.map fun s => (s.name, s.table) := by
    rw [Statement.statementOf?, Statement.statementOf?]
    split
    case isTrue  => rfl
    case isFalse => exact congrArg (fun table => [(name, table)]) (table_eq hx hy name)
  rw [text_eq, text_eq, he, he', Catalog.ofStatements, Catalog.ofStatements]
  simp only [List.map_append, hstatement]

end Admits

theorem seamless_inQuotes (hb : Source.Unbroken x) (hd : Text.Undashed x) :
    Source.Seamless (inQuotes x) where
  ne := inQuotes_ne x
  unbroken := by simpa [Source.Unbroken, inQuotes, or_imp, forall_and] using hb
  undashed := by
    have hq : Text.Undashed (x ++ ['\'']) :=
      List.isChain_append.mpr ⟨hd, by simp, fun _ _ d hd => .inr (Option.some.inj hd ▸ by decide)⟩
    exact List.isChain_cons.mpr ⟨fun _ _ => .inl (by decide), hq⟩
  head c hc := Option.some.inj hc ▸ by decide
  last c hc := Option.some.inj ((getLast?_inQuotes x).symm.trans hc) ▸ by decide

-- What a literal in a column holds does not matter to the schema, if no comment begins in front of
-- it in its line or in it, if the search for statements comes to its table, and if no search for
-- keys finds any part of it.
theorem parse_inQuotes (hu : Source.codeBefore u = slot.before)
    (hv : Source.codeAfter v = slot.after)
    (hl : ∀ line ∈ (Source.lines u).getLast?, Text.Undashed line) (hx : slot.Admits x)
    (hy : slot.Admits y) :
    Schema.parse (u ++ (inQuotes x ++ v)) = Schema.parse (u ++ (inQuotes y ++ v)) := by
  have normalize_eq {z} (hz : slot.Admits z) :
      Source.normalize (u ++ (inQuotes z ++ v)) = slot.text z := by
    rw [Source.normalize_append (seamless_inQuotes hz.unbroken hz.undashed) hl, hu, hv, text_eq]
  rw [Schema.parse, Schema.parse, normalize_eq hx, normalize_eq hy, hx.ofStatements_eq hy]

def orders : Slot where
  lead := "CREATE TABLE orders ".toList
  earlier := ["id INT".toList]
  front := " note TEXT DEFAULT ".toList
  back := []
  later := [" buyer INT".toList]
  rest := ";".toList
  exposes_open := by decide
  begins := by decide
  passes := by decide
  passes_others := by decide

theorem orders_admits_word : orders.Admits "none".toList where
  plain := by decide
  unbroken := by decide
  undashed := by decide
  visited := by decide +kernel
  inTail := ⟨⟨"note", "TEXT", false, none, by decide +kernel⟩,
    " DEFAULT ".toList, by decide +kernel⟩

theorem orders_admits_header : orders.Admits "),(CREATE TABLE t(".toList where
  plain := by decide
  unbroken := by decide
  undashed := by decide
  visited := by decide +kernel
  inTail := ⟨⟨"note", "TEXT", false, none, by decide +kernel⟩,
    " DEFAULT ".toList, by decide +kernel⟩

theorem parse_inQuotes_orders :
    Source.codeBefore ("-- all\n".toList ++ orders.before) = orders.before ∧
      Source.codeAfter (orders.after ++ " -- done\n".toList) = orders.after ∧
      orders.Admits "none".toList ∧ orders.Admits "),(CREATE TABLE t(".toList ∧
      Schema.parse ("-- all\n".toList ++ orders.before ++
        (inQuotes "none".toList ++ (orders.after ++ " -- done\n".toList))) =
      Schema.parse ("-- all\n".toList ++ orders.before ++
        (inQuotes "),(CREATE TABLE t(".toList ++ (orders.after ++ " -- done\n".toList))) := by
  have hu : Source.codeBefore ("-- all\n".toList ++ orders.before) = orders.before := by
    decide +kernel
  have hv : Source.codeAfter (orders.after ++ " -- done\n".toList) = orders.after := by
    decide +kernel
  exact ⟨hu, hv, orders_admits_word, orders_admits_header,
    parse_inQuotes hu hv (by decide +kernel) orders_admits_word orders_admits_header⟩

-- The searches for keys find what they look for in a literal too, and a comment begins in one.
theorem parse_ne_orders :
    Plain "REFERENCES users".toList ∧ Source.Unbroken "REFERENCES users".toList ∧
      Schema.parse (orders.text "REFERENCES users".toList) ≠
        Schema.parse (orders.text "none".toList) ∧
      Schema.parse (orders.text "PRIMARY KEY".toList) ≠ Schema.parse (orders.text "none".toList) ∧
      Schema.parse (orders.text "--".toList) ≠ Schema.parse (orders.text "none".toList) :=
  ⟨by decide, by decide, by decide +kernel, by decide +kernel, by decide +kernel⟩

end Slot
end SchemaGraph
