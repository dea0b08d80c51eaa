import SchemaGraph.Proofs.Identifier.Scan
import SchemaGraph.Proofs.Statement.Header

namespace SchemaGraph

open Scan

variable {word : String} {v : List Char}

theorem Spelling.idle (s : Spelling word) (hk : isKeyword word) : ∀ c ∈ s.chars, isIdle c :=
  fun c hc => isIdle_of_isLetter (s.spells.isLetter hk c hc)

theorem Blanks.idle (b : Blanks) : ∀ c ∈ b.chars, isIdle c :=
  fun c hc => isIdle_of_isBlank (b.blank c hc)

namespace Statement.Header

theorem orReplace_idle (h : Header) : ∀ c ∈ h.orReplace, isIdle c := by
  unfold orReplace
  split
  case h_1 => simp
  case h_2 o g replace g' _ =>
    simpa [or_imp, forall_and, and_assoc] using
      ⟨o.idle (by decide), g.idle, replace.idle (by decide), g'.idle⟩

theorem scope_idle (h : Header) : ∀ c ∈ h.scope, isIdle c := by
  unfold scope
  split
  case h_1            => simp
  case h_2 global g _ => simpa [or_imp, forall_and] using ⟨global.idle (by decide), g.idle⟩
  case h_3 loc g _    => simpa [or_imp, forall_and] using ⟨loc.idle (by decide), g.idle⟩

theorem temporary_idle (h : Header) : ∀ c ∈ h.temporary, isIdle c := by
  unfold temporary
  split
  case h_1 => simp
  case h_2 temp g _ => simpa [or_imp, forall_and] using ⟨temp.idle (by decide), g.idle⟩
  case h_3 temp orary g _ =>
    simpa [or_imp, forall_and, and_assoc] using ⟨temp.idle (by decide),
      orary.idle (by decide), g.idle⟩

theorem ifNotExists_idle (h : Header) : ∀ c ∈ h.ifNotExists, isIdle c := by
  unfold ifNotExists
  split
  case h_1 => simp
  case h_2 i g n g' e g'' _ =>
    simpa [or_imp, forall_and, and_assoc] using ⟨i.idle (by decide), g.idle,
      n.idle (by decide), g'.idle,
      e.idle (by decide), g''.idle⟩

theorem passes_lead (h : Header) : Passes 0 h.lead 0 := by
  have hwords : ∀ c ∈ h.words, isIdle c := by
    simpa [words, or_imp, forall_and, and_assoc] using ⟨h.create.idle (by decide), h.createGap.idle,
      h.orReplace_idle, h.scope_idle, h.temporary_idle, h.table.idle (by decide), h.tableGap.idle,
      h.ifNotExists_idle⟩
  have hblanks : Passes 0 (h.blanks.chars ++ []) 0 := .idle h.blanks.idle .nil
  have hhead : ∀ c ∈ (h.blanks.chars ++ []).head?, Mode.opens c = false := by
    intro c hc
    rw [List.append_nil] at hc
    have := h.blanks.idle c (List.mem_of_mem_head? hc)
    simp [isIdle] at this
    exact this.left
  have hp := Passes.idle hwords (h.name.passes hblanks hhead)
  simpa [lead, words] using hp

end Statement.Header
end SchemaGraph
