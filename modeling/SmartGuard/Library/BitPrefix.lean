import Mathlib.Data.Nat.Basic
import SmartGuard.Library.LongestMatch

/-!
# Bit prefixes

The network prefixes of `w`-bit addresses, kept with their host bits cleared,
and the longest-match space they form.
-/

namespace LongestMatch

variable {w : Nat}

/-- Clear every bit of an address after the first `n`. -/
def mask (a : BitVec w) (n : Nat) : BitVec w := a &&& (BitVec.allOnes w <<< (w - n))

theorem getLsbD_mask (a : BitVec w) (n i : Nat) :
    (mask a n).getLsbD i = (a.getLsbD i && decide (w - n ≤ i)) := by
  unfold mask
  by_cases hi : i < w
  · simp only [BitVec.getLsbD_and, BitVec.getLsbD_shiftLeft, BitVec.getLsbD_allOnes, hi,
      decide_true, Bool.true_and]
    by_cases hn : w - n ≤ i
    · have hlt : ¬ i < w - n := by omega
      have hsub : i - (w - n) < w := by omega
      simp [hn, hlt, hsub]
    · have hlt : i < w - n := by omega
      simp [hn, hlt]
  · simp [BitVec.getLsbD_of_ge _ _ (by omega : w ≤ i)]

theorem mask_width (a : BitVec w) : mask a w = a := by
  apply BitVec.eq_of_getLsbD_eq
  intro i _
  simp [getLsbD_mask]

theorem mask_zero (a : BitVec w) : mask a 0 = 0 := by
  apply BitVec.eq_of_getLsbD_eq
  intro i hi
  have hle : ¬ w ≤ i := by omega
  simp [getLsbD_mask, hle]

/-- Masking twice keeps the shorter prefix. -/
theorem mask_mask {m n : Nat} (a : BitVec w) (h : m ≤ n) : mask (mask a n) m = mask a m := by
  apply BitVec.eq_of_getLsbD_eq
  intro i _
  simp only [getLsbD_mask, Bool.and_assoc]
  by_cases hm : w - m ≤ i
  · have hn : w - n ≤ i := by omega
    simp [hm, hn]
  · simp [hm]

/-- A network prefix: a length and an address whose later bits are clear. -/
structure Prefix (w : Nat) where
  bits : BitVec w
  len : Nat
  len_le : len ≤ w
  masked : mask bits len = bits
  deriving DecidableEq

/-- The prefix of length `n` of an address, or the whole address if `n` is too long. -/
def Prefix.of (a : BitVec w) (n : Nat) : Prefix w where
  bits := mask a (min n w)
  len := min n w
  len_le := min_le_right n w
  masked := mask_mask a le_rfl

theorem Prefix.of_eq_of_le {a b : BitVec w} {m n : Nat} (h : m ≤ n)
    (heq : Prefix.of a n = Prefix.of b n) : Prefix.of a m = Prefix.of b m := by
  have hbits : mask a (min n w) = mask b (min n w) := congrArg Prefix.bits heq
  have hle : min m w ≤ min n w := min_le_min_right w h
  have hmask : mask a (min m w) = mask b (min m w) := by
    rw [← mask_mask a hle, hbits, mask_mask b hle]
  simp only [Prefix.of, hmask]

/-- There is one prefix of length zero. -/
theorem Prefix.of_zero (a b : BitVec w) : Prefix.of a 0 = Prefix.of b 0 := by
  simp only [Prefix.of, Nat.zero_min, mask_zero]

theorem Prefix.of_width_injective {a b : BitVec w}
    (h : Prefix.of a w = Prefix.of b w) : a = b := by
  have hbits : mask a (min w w) = mask b (min w w) := congrArg Prefix.bits h
  rwa [min_self, mask_width, mask_width] at hbits

/-- Cutting the bits of a prefix at its own length gives the prefix back. -/
theorem Prefix.of_bits (p : Prefix w) : Prefix.of p.bits p.len = p := by
  obtain ⟨bits, len, hle, hmask⟩ := p
  simp only [Prefix.of, min_eq_left hle, hmask]

/-- Two addresses share their prefix of length one when they share their first bit. -/
theorem Prefix.of_one_eq {a b : BitVec w} (h : a.msb = b.msb) : Prefix.of a 1 = Prefix.of b 1 := by
  have hmask : mask a (min 1 w) = mask b (min 1 w) := by
    apply BitVec.eq_of_getLsbD_eq
    intro i hi
    rw [getLsbD_mask, getLsbD_mask]
    by_cases hfirst : w - min 1 w ≤ i
    · have hlast : i = w - 1 := by omega
      rw [BitVec.msb_eq_getLsbD_last, BitVec.msb_eq_getLsbD_last] at h
      rw [hlast, h]
    · simp [hfirst]
  simp only [Prefix.of, hmask]

instance : Space (BitVec w) (Prefix w) where
  width _ := w
  cut := Prefix.of
  len := Prefix.len
  len_cut _ _ := rfl
  width_eq_of_cut _ := rfl
  cut_eq_of_le := Prefix.of_eq_of_le
  eq_of_cut_width := Prefix.of_width_injective

end LongestMatch
