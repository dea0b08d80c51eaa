import SchemaGraph.Proofs.Identifier.Written
import SchemaGraph.Proofs.Scan.Join

namespace SchemaGraph

open Scan

variable {c : Char} {v : List Char} {d e : Nat}

theorem isIdle_of_isBlank (h : Text.isBlank c) : isIdle c := by
  have hne {q} (hq : Text.isBlank q = false) : c ≠ q := fun he => by simp [he, hq] at h
  simp [isIdle, Mode.opens, hne (q := '\'') (by decide), hne (q := '"') (by decide),
    hne (q := '(') (by decide), hne (q := ')') (by decide), hne (q := ',') (by decide)]

theorem isIdle_of_isLetter (h : Text.isLetter c) : isIdle c := by
  have hne {q} (hq : Text.isLetter q = false) : c ≠ q := Text.ne_of_isLetter h hq
  simp [isIdle, Mode.opens, hne (q := '\'') (by decide), hne (q := '"') (by decide),
    hne (q := '(') (by decide), hne (q := ')') (by decide), hne (q := ',') (by decide)]

namespace Identifier

theorem isIdle_of_isPlain (h : isPlain c) : isIdle c := by
  simp [isPlain] at h
  simp [isIdle, Mode.opens, h]

theorem Style.passes (style : Style) (name : Plain) (h : Passes d v e)
    (hv : ∀ c ∈ v.head?, Mode.opens c = false) : Passes d (style.quote name.chars ++ v) e := by
  have hq {q} (hp : isPlain q = false) : ∀ c ∈ name.chars, c ≠ q :=
    fun c hc he => by simp [←he, name.plain c hc] at hp
  have idle : ∀ c ∈ name.chars, isIdle c := fun c hc => isIdle_of_isPlain (name.plain c hc)
  rw [quote, List.append_assoc, List.singleton_append]
  cases style
  case backtick => exact .cons (by decide) (.idle idle (.cons (by decide) h))
  case bracket  => exact .cons (by decide) (.idle idle (.cons (by decide) h))
  case double   =>
    exact .literal (by decide) (fun c hc => ⟨hq (by decide) c hc, hq (by decide) c hc⟩) h hv
  case single   =>
    exact .literal (by decide) (fun c hc => ⟨hq (by decide) c hc, hq (by decide) c hc⟩) h hv

theorem Part.passes (p : Part) (h : Passes d v e) (hv : ∀ c ∈ v.head?, Mode.opens c = false) :
    Passes d (p.text ++ v) e := by
  unfold text
  split
  case h_1         => exact .idle (fun c hc => isIdle_of_isPlain (p.name.plain c hc)) h
  case h_2 style _ => exact style.passes p.name h hv

theorem passes_joints (joints : List Joint) (h : Passes d v e)
    (hv : ∀ c ∈ v.head?, Mode.opens c = false) :
    Passes d (joints.flatMap (·.text) ++ v) e ∧
      ∀ c ∈ (joints.flatMap (·.text) ++ v).head?, Mode.opens c = false := by
  induction joints
  case nil                  => exact ⟨h, hv⟩
  case cons joint joints hi =>
    have ⟨hp, ho⟩ := hi
    have idle (b : Blanks) : ∀ c ∈ b.chars, isIdle c := fun c hc => isIdle_of_isBlank (b.blank c hc)
    rw [List.flatMap_cons, Joint.text]
    simp only [List.append_assoc, List.singleton_append]
    refine ⟨.idle (idle _) (.cons (by decide) (.idle (idle _) (joint.part.passes hp ho))), ?_⟩
    intro c hc
    have hi : isIdle c := by
      cases hb : joint.blanksBeforeDot.chars <;> simp [hb] at hc
      case nil  => exact hc ▸ by decide
      case cons => exact idle joint.blanksBeforeDot c (by simp [hb, hc])
    simp [isIdle] at hi
    exact hi.left

theorem Dotted.passes (dotted : Dotted) (h : Passes d v e)
    (hv : ∀ c ∈ v.head?, Mode.opens c = false) : Passes d (dotted.text ++ v) e := by
  have ⟨hp, ho⟩ := passes_joints dotted.joints h hv
  rw [text, List.append_assoc]
  exact dotted.first.passes hp ho

end Identifier
end SchemaGraph
