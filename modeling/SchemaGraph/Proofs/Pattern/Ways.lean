import SchemaGraph.Pattern.Basic

namespace SchemaGraph.Pattern

variable {β γ : Type}

def rounds (step : Progress γ → List (Progress γ)) : Nat → Progress γ → List (Progress γ)
  | 0,     s => [s]
  | n + 1, s => (step s).flatMap (fun t => if s.pos < t.pos then rounds step n t else []) ++ [s]

def ways : Pattern γ → Progress γ → List (Progress γ)
  | empty,            s => [s]
  | char p,           s =>
    match s.rest with
    | []      => []
    | c :: cs => if p c then [s.moveTo ⟨some c, cs, s.pos + 1⟩] else []
  | run p,            s => (s.runs p).map s.moveTo
  | seq a b,          s => (a.ways s).flatMap b.ways
  | alt a b,          s => a.ways s ++ b.ways s
  | repeated a,       s => rounds a.ways s.rest.length s
  | group label body, s => (body.ways s).map (·.keep label s.toCursor)
  | wordEdge,         s => if s.atWordEdge then [s] else []
  | textEnd,          s => if s.atTextEnd then [s] else []
  | notAhead a,       s => if (a.ways s).isEmpty then [s] else []

theorem mem_ways_append {a b : Pattern γ} {s t : Progress γ} :
    t ∈ (a ++ b).ways s ↔ ∃ m ∈ a.ways s, t ∈ b.ways m :=
  List.mem_flatMap

theorem findSome?_flatMap {α δ : Type} (f : α → Option β) (g : δ → List α) (xs : List δ) :
    (xs.flatMap g).findSome? f = xs.findSome? fun x => (g x).findSome? f := by
  induction xs
  case nil          => rfl
  case cons x xs hi =>
    rw [List.flatMap_cons, List.findSome?_append, List.findSome?_cons, hi]
    cases (g x).findSome? f <;> rfl

theorem iterate_eq_findSome? {step : Progress γ → (Progress γ → Option β) → Option β}
    {next : Progress γ → List (Progress γ)} (h : ∀ s k, step s k = (next s).findSome? k) (n : Nat)
    (s : Progress γ) (k : Progress γ → Option β) :
    iterate step n s k = (rounds next n s).findSome? k := by
  induction n generalizing s
  case zero => simp [iterate, rounds]
  case succ n hi =>
    have hf : (fun t => if s.pos < t.pos then iterate step n t k else none) =
        fun t => (if s.pos < t.pos then rounds next n t else []).findSome? k := by
      funext t
      split
      case isTrue  => exact hi t
      case isFalse => rfl
    simp only [iterate, rounds, h, hf, List.findSome?_append, findSome?_flatMap]
    cases (next s).findSome? _ <;> simp

theorem attempt_eq_findSome? (a : Pattern γ) {β : Type} (s : Progress γ)
    (k : Progress γ → Option β) : a.attempt s k = (a.ways s).findSome? k := by
  induction a generalizing β s
  case empty => simp [attempt, ways]
  case char p =>
    unfold attempt ways
    cases s.rest
    case nil       => rfl
    case cons c cs => by_cases hp : p c <;> simp [hp]
  case run p => simp [attempt, ways, List.findSome?_map, Function.comp_def]
  case seq a b ha hb => simp [attempt, ways, ha, hb, findSome?_flatMap]
  case alt a b ha hb =>
    simp only [attempt, ways, ha, hb, List.findSome?_append]
    cases (a.ways s).findSome? k <;> simp
  case repeated a ha => exact iterate_eq_findSome? (fun s k => ha s k) ..
  case group label a ha => simp [attempt, ways, ha, List.findSome?_map, Function.comp_def]
  case wordEdge => unfold attempt ways; split <;> simp
  case textEnd => unfold attempt ways; split <;> simp
  case notAhead a ha =>
    have he : ((a.ways s).findSome? some).isNone = (a.ways s).isEmpty := by
      cases a.ways s <;> simp
    unfold attempt ways
    rw [ha, he]
    split <;> simp

theorem match?_eq_head? (a : Pattern γ) (cur : Cursor) :
    a.match? cur = (a.ways (.ofCursor cur)).head? := by
  rw [match?, attempt_eq_findSome?]
  cases a.ways (.ofCursor cur) <;> simp

theorem mem_ways_of_match? {a : Pattern γ} {cur : Cursor} {t : Progress γ}
    (h : a.match? cur = some t) :
    t ∈ a.ways (.ofCursor cur) :=
  List.mem_of_mem_head? (match?_eq_head? a cur ▸ h)

end SchemaGraph.Pattern
