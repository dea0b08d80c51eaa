import Mathlib.Data.List.Infix
import SchemaGraph.Log.Event

-- What kinds of records there are about what is left out of a schema.
namespace SchemaGraph.Event

variable {e : Event} {es : List Event} {level : Level} {origin told a b : String}

def tells (level : Level) (origin told : String) (e : Event) : Bool :=
  e.level = level && e.origin = origin && decide (told.toList <:+: e.message.toList)

def isSkipping : Event → Bool :=
  tells .warning "ddl_flowchart.extractor" "Skipping"

def isRedefinition : Event → Bool :=
  tells .warning "ddl_flowchart.parser" "defined more than once"

def isDropped : Event → Bool :=
  tells .debug "ddl_flowchart.clauses" "Dropped clause"

def isDangling : Event → Bool :=
  tells .warning "ddl_flowchart.relationships" "not found"

theorem tells_eq_false_of_origin (h : e.origin ≠ origin) : e.tells level origin told = false := by
  simp [tells, h]

theorem isInfix_append_left (h : told.toList <:+: a.toList) : told.toList <:+: (a ++ b).toList := by
  rw [String.toList_append]
  exact h.trans (List.prefix_append _ _).isInfix

theorem isInfix_append_right (h : told.toList <:+: b.toList) :
    told.toList <:+: (a ++ b).toList := by
  rw [String.toList_append]
  exact h.trans (List.suffix_append _ _).isInfix

theorem tells_of_isInfix (h : told.toList <:+: e.message.toList) :
    e.tells e.level e.origin told = true := by
  simp [tells, h]

theorem isSkipping_unterminated (name : String) (offset : Nat) :
    (unterminatedStatement name offset).isSkipping :=
  tells_of_isInfix <| isInfix_append_left <| isInfix_append_left <| isInfix_append_left (by decide)

theorem isSkipping_unnamed (offset : Nat) : (unnamedStatement offset).isSkipping :=
  tells_of_isInfix <| isInfix_append_left (by decide)

theorem isRedefinition_redefinedTable (name : String) : (redefinedTable name).isRedefinition :=
  tells_of_isInfix <| isInfix_append_right (by decide)

theorem isDropped_droppedClause (table : String) (fault : Clause.Fault) (text : String) :
    (droppedClause table fault text).isDropped :=
  tells_of_isInfix <| isInfix_append_left <| isInfix_append_left <| isInfix_append_left <|
    isInfix_append_left <| isInfix_append_left (by decide)

theorem isDangling_danglingForeignKey (table : String) (key : ForeignKey) :
    (danglingForeignKey table key).isDangling :=
  tells_of_isInfix <| isInfix_append_left <| isInfix_append_left <| isInfix_append_left <|
    isInfix_append_right (by decide)

theorem filter_tells_eq_nil (h : ∀ e ∈ es, e.origin ≠ origin) :
    es.filter (tells level origin told) = [] :=
  List.filter_eq_nil_iff.mpr fun e he => by simp [tells_eq_false_of_origin (h e he)]

end SchemaGraph.Event
