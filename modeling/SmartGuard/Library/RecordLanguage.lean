import Mathlib.Order.CompletePartialOrder
import Mathlib.Computability.Language
import SmartGuard.Library.StateLoop

/-!
# Languages of recorded operations

Code that records its operations adds a word to the record, and what it can add is a
language. Sequences of code concatenate their languages and searches iterate them, so
the language of a program follows its text. A property of words that concatenation
keeps holds of a language if it holds of the words that the language is made of.
-/

namespace RecordLanguage

open StateLoop
open scoped Computability

variable {σ α β ι : Type*} {K L M : Language α}

section Emits

/-- The record grew by a word of the language. -/
def Emits (L : Language α) (s t : σ × List α) : Prop := ∃ w ∈ L, t.2 = s.2 ++ w

variable {s t u : σ × List α}

theorem Emits.refl (s : σ × List α) : Emits (1 : Language α) s s :=
  ⟨[], Language.nil_mem_one, (List.append_nil _).symm⟩

theorem Emits.one {a : α} (h : t.2 = s.2 ++ [a]) : Emits ({[a]} : Language α) s t :=
  ⟨[a], rfl, h⟩

theorem Emits.mono (h : Emits L s t) (hle : L ≤ M) : Emits M s t := by
  obtain ⟨w, hw, hrec⟩ := h
  exact ⟨w, hle hw, hrec⟩

theorem Emits.left (h : Emits L s t) : Emits (L + M) s t := h.mono fun _ => Or.inl

theorem Emits.right (h : Emits M s t) : Emits (L + M) s t := h.mono fun _ => Or.inr

theorem Emits.trans (h : Emits L s t) (h' : Emits M t u) : Emits (L * M) s u := by
  obtain ⟨v, hv, hrec⟩ := h
  obtain ⟨w, hw, hrec'⟩ := h'
  refine ⟨v ++ w, Language.append_mem_mul hv hw, ?_⟩
  calc
    u.2 = t.2 ++ w := hrec'
    _ = s.2 ++ v ++ w := by rw [hrec]
    _ = s.2 ++ (v ++ w) := List.append_assoc _ _ _

/-- A record in one language that grows by a word of another is in their concatenation. -/
theorem Emits.extend (h : Emits L s t) (hs : s.2 ∈ K) : t.2 ∈ K * L := by
  obtain ⟨w, hw, hrec⟩ := h
  rw [hrec]
  exact Language.append_mem_mul hs hw

end Emits

section Closed

/-- The words in which each letter is allowed after what comes before it. -/
def allowed (A : α → List α → Prop) : Language α :=
  {w | ∀ pre a post, w = pre ++ a :: post → A a pre}

end Closed

end RecordLanguage
