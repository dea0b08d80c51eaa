import SchemaGraph.Proofs.Identifier.Unquote
import SchemaGraph.Proofs.Statement.Scan

namespace SchemaGraph

open Scan

variable {before : Option Char} {c d l : Char} {u v w cs : List Char}

def Mentions (word : String) (text : List Char) : Prop :=
  word.toList.map Char.toLower <:+: text.map Char.toLower

theorem Text.toLower_eq_of_folded (h : folded c = l) (hl : l ∉ ['k', 's', 'i']) :
    c.toLower = l := by
  simp at hl
  unfold folded at h
  split at h
  case isTrue => exact absurd h.symm hl.1
  split at h
  case isTrue => exact absurd h.symm hl.2.1
  split at h
  case isTrue  => exact absurd h.symm hl.2.2
  case isFalse => exact h

theorem prefix_of_prefix_append_cons {p : List Char} (h : p <+: u ++ d :: v) (hd : d ∉ p) :
    p <+: u := by
  cases List.prefix_or_prefix_of_prefix h (List.prefix_append u (d :: v))
  case inl h => exact h
  case inr hu =>
    have ⟨w, hw⟩ := hu
    subst hw
    cases w
    case nil       => exact ⟨[], by simp⟩
    case cons x xs =>
      have hx := (List.prefix_append_right_inj u).mp h
      exact absurd ((List.cons_prefix_cons.mp hx).left ▸ by simp) hd

namespace Statement

open Pattern

theorem header_fails (h : (keyword "CREATE" : Pattern Unit).Fails before cs) :
    header.Fails before cs := by
  have hc : (wordEdge ++ keyword "CREATE" : Pattern Unit).Fails before cs := h.wordEdge_seq
  exact hc.seq_left.seq_left.seq_left.seq_left.seq_left.seq_left.seq_left.seq_left.seq_left.seq_left

theorem header_fails_of_not_prefix
    (h : ¬ "CREATE".toList.map Char.toLower <+: cs.map Char.toLower) : header.Fails before cs := by
  refine header_fails fun u rest ht hu => h ?_
  have hs := (keyword_matches_iff (by decide)).mp hu
  have hl : u.map Char.toLower = "CREATE".toList.map Char.toLower := by
    rw [←hs]
    apply List.map_congr_left
    intro c hc
    apply Text.toLower_eq_of_folded rfl
    have hm : Text.folded c ∈ "CREATE".toList.map Char.toLower := hs ▸ List.mem_map_of_mem hc
    exact (by decide : ∀ l ∈ "CREATE".toList.map Char.toLower, l ∉ ['k', 's', 'i']) _ hm
  exact ⟨rest.map Char.toLower, by rw [←hl, ht, List.map_append]⟩

-- A piece of a text in which statements are looked for: a statement, a header whose body never
-- closes, or something else.
inductive Segment
  | statement (header : Header) (body : List Char)
      (isOutside : (Mode.outside.after body).isOutside) (balanced : Balanced (shown .outside body))
  | unterminated (header : Header) (text : List Char)
      (plain : ∀ c ∈ text, c ∉ ['(', ')', '\'', '"']) (silent : ¬ Mentions "CREATE" text)
  | other (text : List Char) (silent : ¬ Mentions "CREATE" text)
      (isOutside : (Mode.outside.after text).isOutside) (balanced : Balanced (shown .outside text))

namespace Segment

def text : Segment → List Char
  | statement header body _ _    => header.text ++ body ++ [')']
  | unterminated header text _ _ => header.text ++ text
  | other text _ _ _             => text

def statement? : Segment → Option Statement
  | statement header body _ _ => some ⟨String.ofList header.name.name, body⟩
  | _                         => none

end Segment

def compose (segments : List (Segment × Blanks)) : List Char :=
  segments.flatMap fun (segment, trailer) => segment.text ++ ';' :: trailer.chars

theorem mem_of_mem_shown {m : Mode} (h : c ∈ shown m cs) : c ∈ cs := by
  have ⟨⟨p, d⟩, hm, hd⟩ := List.mem_map.mp h
  subst hd
  have ⟨u, v, hu, _⟩ := exists_of_mem_exposedFrom hm
  simp [hu]

theorem after_eq_outside (h : ∀ c ∈ cs, Mode.opens c = false) :
    Mode.outside.after cs = .outside := by
  induction cs
  case nil          => rfl
  case cons c cs hi =>
    have ⟨hc, hcs⟩ := List.forall_mem_cons.mp h
    rw [Mode.after_cons, Mode.next_of_exposes (by simp [Mode.exposes, hc]), hi hcs]

structure Settles (text : List Char) : Prop where
  isOutside  : (Mode.outside.after text).isOutside
  neverBelow : NeverBelow (shown .outside text)

namespace Header

theorem exposes_paren (h : Header) : (Mode.outside.after h.lead).exposes '(' :=
  Mode.exposes_of_isOutside (Mode.after_outside_valid _) h.passes_lead.isOutside (by decide)

theorem after_text (h : Header) : Mode.outside.after h.text = .outside := by
  rw [text, Mode.after_append]
  exact Mode.next_of_exposes h.exposes_paren

theorem shown_text (h : Header) : shown .outside h.text = shown .outside h.lead ++ ['('] := by
  rw [text, shown_append, shown_cons, if_pos h.exposes_paren, shown_nil, List.append_nil]

end Header

theorem plain_settles (h : ∀ c ∈ cs, c ∉ ['(', ')', '\'', '"']) :
    Mode.outside.after cs = .outside ∧ NeverBelow (shown .outside cs) := by
  refine ⟨after_eq_outside fun c hc => ?_, .of_not_mem fun hm => ?_⟩
  · have := h c hc
    simp at this
    simp [Mode.opens, this]
  · have := h _ (mem_of_mem_shown hm)
    simp at this

namespace Segment

theorem settles : (segment : Segment) → Settles segment.text
  | statement header body ho hb => by
    have hc : (Mode.outside.after body).exposes ')' :=
      Mode.exposes_of_isOutside (Mode.after_outside_valid _) ho (by decide)
    have hs : shown .outside (header.text ++ body ++ [')']) =
        shown .outside header.lead ++ ('(' :: shown .outside body ++ [')']) := by
      rw [shown_append, shown_append, Mode.after_append, header.after_text, header.shown_text,
        shown_cons, if_pos hc, shown_nil]
      simp
    refine ⟨?_, ?_⟩
    · rw [text, Mode.after_append, Mode.after_append, header.after_text, Mode.after_cons,
        Mode.next_of_exposes hc]
      rfl
    · rw [text, hs]
      exact header.passes_lead.balanced.neverBelow.append hb.wrap.neverBelow
  | unterminated header rest hp _ => by
    have ⟨ha, hn⟩ := plain_settles hp
    refine ⟨?_, ?_⟩
    · rw [text, Mode.after_append, header.after_text, ha]
      rfl
    · have hopen : NeverBelow ['('] := .of_not_mem (by simp)
      rw [text, shown_append, header.after_text, header.shown_text]
      exact (header.passes_lead.balanced.neverBelow.append hopen).append hn
  | other _ _ ho hb => ⟨ho, hb.neverBelow⟩

end Segment

variable {segments : List (Segment × Blanks)}

theorem trailer_settles (trailer : Blanks) {m : Mode} (hv : m.Valid) (hm : m.isOutside) :
    m.after (';' :: trailer.chars) = .outside ∧ NeverBelow (shown m (';' :: trailer.chars)) := by
  have hx := Mode.exposes_of_isOutside hv hm (show Mode.opens ';' = false by decide)
  have hq : ∀ c ∈ trailer.chars, Mode.opens c = false := fun c hc => by
    have := trailer.idle c hc
    simp [isIdle] at this
    exact this.left
  refine ⟨by rw [Mode.after_cons, Mode.next_of_exposes hx, after_eq_outside hq], ?_⟩
  refine .of_not_mem fun hc => ?_
  cases List.mem_cons.mp (mem_of_mem_shown hc)
  case inl hc => exact absurd hc (by decide)
  case inr hc => exact absurd (trailer.idle _ hc) (by decide)

theorem compose_cons (segment : Segment) (trailer : Blanks) (segments : List (Segment × Blanks)) :
    compose ((segment, trailer) :: segments) =
      segment.text ++ (';' :: trailer.chars ++ compose segments) := by
  simp [compose]

theorem compose_settles (segments : List (Segment × Blanks)) :
    Mode.outside.after (compose segments) = .outside ∧
      NeverBelow (shown .outside (compose segments)) := by
  induction segments
  case nil => exact ⟨rfl, .nil⟩
  case cons x segments hi =>
    obtain ⟨segment, trailer⟩ := x
    have hs := segment.settles
    have ⟨ha, hn⟩ := trailer_settles trailer (Mode.after_outside_valid _) hs.isOutside
    rw [compose_cons]
    refine ⟨?_, ?_⟩
    · rw [Mode.after_append, Mode.after_append, ha, hi.left]
    · rw [shown_append, shown_append, ha]
      exact hs.neverBelow.append (hn.append hi.right)

end Statement
end SchemaGraph
