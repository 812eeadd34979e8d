import Mathlib.Algebra.Group.Nat.Defs
import Mathlib.Data.List.Basic
import Mathlib.Data.List.Induction
import Mathlib.Data.Nat.Basic

/-!
# Numerals in front of a text

A number is written with the fewest digits of a radix up to sixteen, and read back from
the front of a text up to the first character that is no digit. The reader may limit the
number of digits and refuse a zero in front of other digits.
-/

namespace Numeral

variable {radix : Nat}

/-- The digit that a character stands for, in upper or lower case. -/
def toDigit (radix : Nat) (c : Char) : Option Nat :=
  let n := c.toNat
  let digit :=
    if 48 ≤ n ∧ n ≤ 57 then some (n - 48)
    else if 97 ≤ n ∧ n ≤ 122 then some (n - 87)
    else if 65 ≤ n ∧ n ≤ 90 then some (n - 55)
    else none
  digit.filter (· < radix)

def isDigit (radix : Nat) (c : Char) : Bool := (toDigit radix c).isSome

/-- The number that a text of digits denotes. -/
def value (radix : Nat) (digits : List Char) : Nat :=
  digits.foldl (fun n c => n * radix + (toDigit radix c).getD 0) 0

/-- Read the digits in front of a text, at most as many as allowed, as a number below a
bound. -/
def readNumber (radix : Nat) (maxDigits : Option Nat) (allowZeroPrefix : Bool) (bound : Nat)
    (text : List Char) : Option (Nat × List Char) :=
  let digits := text.takeWhile (isDigit radix)
  if digits = [] ∨ (∃ m ∈ maxDigits, m < digits.length) then none
  else if allowZeroPrefix = false ∧ digits.head? = some '0' ∧ 1 < digits.length then none
  else if value radix digits < bound then
    some (value radix digits, text.dropWhile (isDigit radix))
  else none

section Digits

theorem toDigit_digitChar_all : ∀ d < 16, toDigit 16 (Nat.digitChar d) = some d := by
  decide

theorem toDigit_digitChar (hradix : radix ≤ 16) {d : Nat} (hd : d < radix) :
    toDigit radix (Nat.digitChar d) = some d := by
  have hsixteen := toDigit_digitChar_all d (Nat.lt_of_lt_of_le hd hradix)
  unfold toDigit at hsixteen ⊢
  obtain ⟨hdigit, -⟩ := Option.filter_eq_some_iff.mp hsixteen
  exact Option.filter_eq_some_iff.mpr ⟨hdigit, decide_eq_true hd⟩

theorem value_append_singleton (digits : List Char) (c : Char) :
    value radix (digits ++ [c]) = value radix digits * radix + (toDigit radix c).getD 0 := by
  simp [value]

/-- Every character of a numeral is a digit. -/
theorem isDigit_of_mem_toDigits (hone : 1 < radix) (hradix : radix ≤ 16) (n : Nat) :
    ∀ c ∈ Nat.toDigits radix n, isDigit radix c = true := by
  induction n using Nat.strong_induction_on with
  | _ n ih =>
      have hlast : ∀ d < radix, isDigit radix (Nat.digitChar d) = true := by
        intro d hd
        rw [isDigit, toDigit_digitChar hradix hd]
        rfl
      intro c hc
      rw [Nat.toDigits_eq_if hone] at hc
      split at hc
      · next hlt =>
          obtain rfl := List.mem_singleton.mp hc
          exact hlast n hlt
      · next hle =>
          rcases List.mem_append.mp hc with hinit | hc
          · exact ih (n / radix) (Nat.div_lt_self (by omega) hone) c hinit
          · obtain rfl := List.mem_singleton.mp hc
            exact hlast _ (Nat.mod_lt n (by omega))

/-- A numeral denotes the number that it was written for. -/
theorem value_toDigits (hone : 1 < radix) (hradix : radix ≤ 16) (n : Nat) :
    value radix (Nat.toDigits radix n) = n := by
  induction n using Nat.strong_induction_on with
  | _ n ih =>
      rw [Nat.toDigits_eq_if hone]
      split
      · next hlt => simp [value, toDigit_digitChar hradix hlt]
      · next hle =>
          have hdiv : n / radix < n := Nat.div_lt_self (by omega) hone
          have hmod : n % radix < radix := Nat.mod_lt n (by omega)
          rw [value_append_singleton, ih _ hdiv, toDigit_digitChar hradix hmod]
          calc
            n / radix * radix + n % radix = radix * (n / radix) + n % radix := by
              rw [Nat.mul_comm]
            _ = n := Nat.div_add_mod n radix

/-- A numeral that begins with a zero is the zero. -/
theorem eq_zero_of_head (hone : 1 < radix) (n : Nat)
    (h : (Nat.toDigits radix n).head? = some '0') : n = 0 := by
  induction n using Nat.strong_induction_on with
  | _ n ih =>
      rw [Nat.toDigits_eq_if hone] at h
      split at h
      · simpa using h
      · next hle =>
          rw [List.head?_append_of_ne_nil _ Nat.toDigits_ne_nil] at h
          have hdiv : n / radix = 0 := ih _ (Nat.div_lt_self (by omega) hone) h
          have hpos : 0 < n / radix := Nat.div_pos (by omega) (by omega)
          omega

end Digits

section Reading

/-- The text does not go on with a digit. -/
def Ends (radix : Nat) (rest : List Char) : Prop := ∀ c ∈ rest.head?, isDigit radix c = false

theorem takeWhile_append {digits rest : List Char} (hdigits : ∀ c ∈ digits, isDigit radix c = true)
    (hrest : Ends radix rest) : (digits ++ rest).takeWhile (isDigit radix) = digits := by
  rw [List.takeWhile_append_of_pos hdigits]
  cases rest with
  | nil => simp
  | cons c rest => simp [hrest c rfl]

theorem dropWhile_append {digits rest : List Char} (hdigits : ∀ c ∈ digits, isDigit radix c = true)
    (hrest : Ends radix rest) : (digits ++ rest).dropWhile (isDigit radix) = rest := by
  rw [List.dropWhile_append_of_pos hdigits]
  cases rest with
  | nil => rfl
  | cons c rest => simp [hrest c rfl]

/-- A numeral is read back as the number that it was written for. -/
theorem readNumber_toDigits (hone : 1 < radix) (hradix : radix ≤ 16) {maxDigits : Option Nat}
    {allowZeroPrefix : Bool} {bound n : Nat} {rest : List Char} (hbound : n < bound)
    (hlength : ∀ m ∈ maxDigits, (Nat.toDigits radix n).length ≤ m) (hrest : Ends radix rest) :
    readNumber radix maxDigits allowZeroPrefix bound (Nat.toDigits radix n ++ rest) =
      some (n, rest) := by
  have hdigits := isDigit_of_mem_toDigits hone hradix n
  unfold readNumber
  simp only [takeWhile_append hdigits hrest, dropWhile_append hdigits hrest,
    value_toDigits hone hradix]
  rw [if_neg, if_neg, if_pos hbound]
  · rintro ⟨-, hzero, hlong⟩
    obtain rfl := eq_zero_of_head hone n hzero
    simp at hlong
  · rintro (hnil | ⟨m, hm, hlong⟩)
    · exact Nat.toDigits_ne_nil hnil
    · exact absurd hlong (Nat.not_lt.mpr (hlength m hm))

/-- What is read is below the bound, and the rest of the text does not go on with a digit. -/
theorem readNumber_spec {maxDigits : Option Nat} {allowZeroPrefix : Bool} {bound n : Nat}
    {text rest : List Char}
    (h : readNumber radix maxDigits allowZeroPrefix bound text = some (n, rest)) :
    n < bound ∧ text.takeWhile (isDigit radix) ≠ [] ∧ rest = text.dropWhile (isDigit radix) := by
  simp only [readNumber] at h
  split at h
  · cases h
  · next hsome =>
      split at h
      · cases h
      · split at h
        · next hlt =>
            cases h
            exact ⟨hlt, fun hnil => hsome (.inl hnil), rfl⟩
        · cases h

end Reading

section Words

/-- The last digits of a number, the most significant first. -/
def word (base : Nat) : Nat → Nat → List Nat
  | 0, _ => []
  | k + 1, n => word base k (n / base) ++ [n % base]

/-- The number with given digits, the most significant first. -/
def unword (base : Nat) (digits : List Nat) : Nat := digits.foldl (fun n d => n * base + d) 0

@[simp] theorem length_word (base k n : Nat) : (word base k n).length = k := by
  induction k generalizing n with
  | zero => rfl
  | succ k ih => rw [word, List.length_append, ih, List.length_singleton]

theorem lt_of_mem_word {base : Nat} (hbase : 0 < base) (k n : Nat) :
    ∀ d ∈ word base k n, d < base := by
  induction k generalizing n with
  | zero => exact fun d hd => absurd hd List.not_mem_nil
  | succ k ih =>
      exact List.forall_mem_append.mpr
        ⟨ih (n / base), List.forall_mem_singleton.mpr (Nat.mod_lt n hbase)⟩

theorem unword_append_singleton (base : Nat) (digits : List Nat) (d : Nat) :
    unword base (digits ++ [d]) = unword base digits * base + d := by
  simp [unword]

/-- A number with few enough digits is that of its last digits. -/
theorem unword_word {base k n : Nat} (h : n < base ^ k) : unword base (word base k n) = n := by
  induction k generalizing n with
  | zero =>
      rw [Nat.pow_zero, Nat.lt_one_iff] at h
      rw [h]
      rfl
  | succ k ih =>
      have hdiv : n / base < base ^ k := by
        apply Nat.div_lt_of_lt_mul
        rwa [Nat.mul_comm, ← Nat.pow_succ]
      rw [word, unword_append_singleton, ih hdiv]
      exact Nat.div_add_mod' n base

end Words

end Numeral
