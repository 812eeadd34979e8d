import Mathlib.Data.List.Basic

/-!
# Slices of a buffer

Reading a slice of a buffer fails when it does not lie within the buffer, and
writing replaces the items from a position on. Once a buffer is written as the
concatenation of its regions, both act on the region they name.
-/

namespace Buffer

variable {α : Type*}

/-- The items between two positions, if the buffer has them. -/
def slice (buf : List α) (i j : Nat) : Option (List α) :=
  if i ≤ j ∧ j ≤ buf.length then some ((buf.take j).drop i) else none

/-- Replace the items from a position on. -/
def overwrite (buf : List α) (i : Nat) (items : List α) : List α :=
  buf.take i ++ items ++ buf.drop (i + items.length)

/-- A slice is a region of the buffer. -/
theorem slice_eq_some_iff {buf items : List α} {i j : Nat} :
    slice buf i j = some items ↔
      ∃ before after, buf = before ++ items ++ after ∧ before.length = i ∧
        i + items.length = j := by
  unfold slice
  constructor
  · intro h
    split at h
    · next hle =>
        obtain rfl := Option.some.inj h
        have hbefore : (buf.take i).length = i := List.length_take_of_le (by omega)
        have hitems : ((buf.take j).drop i).length = j - i := by
          rw [List.length_drop, List.length_take_of_le hle.2]
        refine ⟨buf.take i, buf.drop j, ?_, hbefore, by omega⟩
        calc
          buf = buf.take j ++ buf.drop j := (List.take_append_drop j buf).symm
          _ = (buf.take j).take i ++ (buf.take j).drop i ++ buf.drop j := by
              rw [List.take_append_drop i (buf.take j)]
          _ = buf.take i ++ (buf.take j).drop i ++ buf.drop j := by
              rw [List.take_take, Nat.min_eq_left hle.1]
    · cases h
  · rintro ⟨before, after, rfl, rfl, rfl⟩
    have hle : before.length ≤ before.length + items.length ∧
        before.length + items.length ≤ (before ++ items ++ after).length := by
      simp only [List.length_append]
      omega
    rw [if_pos hle, ← List.length_append, List.take_append_length, List.drop_append_length]

/-- A slice does not exist exactly if it does not lie within the buffer. -/
theorem slice_eq_none_iff {buf : List α} {i j : Nat} :
    slice buf i j = none ↔ ¬ (i ≤ j ∧ j ≤ buf.length) := by
  simp only [slice, ite_eq_right_iff, reduceCtorEq, imp_false]

theorem slice_eq_some {buf : List α} {i j : Nat} (h : i ≤ j ∧ j ≤ buf.length) :
    slice buf i j = some ((buf.take j).drop i) := if_pos h

theorem slice_le {buf items : List α} {i j : Nat} (h : slice buf i j = some items) :
    j ≤ buf.length := by
  unfold slice at h
  split at h
  · next hle => exact hle.2
  · cases h

theorem slice_append (before items after : List α) :
    slice (before ++ items ++ after) before.length (before.length + items.length) =
      some items :=
  slice_eq_some_iff.mpr ⟨before, after, rfl, rfl, rfl⟩

/-- Writing over a region replaces it and leaves the others. -/
theorem overwrite_append {before items : List α} (after : List α) {new : List α}
    (h : new.length = items.length) :
    overwrite (before ++ items ++ after) before.length new = before ++ new ++ after := by
  unfold overwrite
  rw [h, ← List.length_append, List.drop_append_length, List.append_assoc before items after,
    List.take_append_length]

/-- Writing within a buffer leaves its length. -/
theorem length_overwrite {buf items : List α} {i : Nat} (h : i + items.length ≤ buf.length) :
    (overwrite buf i items).length = buf.length := by
  unfold overwrite
  simp only [List.length_append, List.length_take, List.length_drop]
  omega

/-- What is written at a position is what stands there, up to its end. -/
theorem take_overwrite {buf items : List α} {i : Nat} (h : i ≤ buf.length) :
    (overwrite buf i items).take (i + items.length) = buf.take i ++ items := by
  have hlen : (buf.take i ++ items).length = i + items.length := by
    rw [List.length_append, List.length_take_of_le h]
  unfold overwrite
  rw [← hlen, List.take_append_length]

end Buffer
