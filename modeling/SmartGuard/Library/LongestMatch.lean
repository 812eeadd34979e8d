import Mathlib.Data.List.Basic
import Mathlib.Data.List.MinMax
import Mathlib.Data.Set.Defs
import Mathlib.Order.MinMax
import Mathlib.Logic.Function.Basic

/-!
# Longest-match tables

An address is covered by one key of each length up to its width, and a table
assigns values to some keys. The longest match of an address is the entry of
the longest key in the table that covers it. The width may depend on the
address, so one space can hold several address families.

## Implementation notes

A table is a partial function of its keys. The search descends through the
lengths of one address and never enumerates the table, so it is computable
for every table.
-/

namespace LongestMatch

/-- Addresses `A` with their covering keys `K`: `cut a n` is the key made of
the first `n` positions of `a`. -/
class Space (A : Type*) (K : outParam Type*) where
  width : A → Nat
  cut : A → Nat → K
  len : K → Nat
  len_cut : ∀ a n, len (cut a n) = min n (width a)
  width_eq_of_cut : ∀ {a b m n}, cut a m = cut b n → width a = width b
  cut_eq_of_le : ∀ {a b m n}, m ≤ n → cut a n = cut b n → cut a m = cut b m
  eq_of_cut_width : ∀ {a b}, cut a (width a) = cut b (width b) → a = b

/-- A table assigns a value to some of the keys. -/
abbrev Table (K V : Type*) := K → Option V

variable {A K V : Type*} [Space A K]

open Space

/-- A key covers an address when cutting the address at its length gives it back. -/
def Covers (k : K) (a : A) : Prop := cut a (len A k) = k

instance [DecidableEq K] (k : K) (a : A) : Decidable (Covers k a) :=
  inferInstanceAs (Decidable (_ = _))

theorem len_cut_of_le {a : A} {n : Nat} (h : n ≤ width a) : len A (cut a n) = n := by
  rw [len_cut, min_eq_left h]

theorem covers_cut {a : A} {n : Nat} (h : n ≤ width a) : Covers (cut a n) a := by
  unfold Covers
  rw [len_cut_of_le h]

theorem Covers.len_le {k : K} {a : A} (h : Covers k a) : len A k ≤ width a := by
  have hlen := len_cut a (len A k)
  rw [h] at hlen
  omega

/-- Two keys of one length that cover the same address are the same key. -/
theorem Covers.eq_of_len {k l : K} {a : A} (hk : Covers k a) (hl : Covers l a)
    (h : len A k = len A l) : k = l := by
  unfold Covers at hk hl
  rw [← hk, ← hl, h]

/-- The key that singles out one address. -/
def full (a : A) : K := cut a (width a)

theorem len_full (a : A) : len A (full a) = width a := len_cut_of_le le_rfl

theorem covers_full (a : A) : Covers (full a) a := covers_cut le_rfl

/-- The full key of an address covers no other address. -/
theorem covers_full_iff {a b : A} : Covers (full a) b ↔ b = a := by
  constructor
  · intro h
    have hcut : cut b (width a) = cut a (width a) := by
      unfold Covers at h
      rwa [len_full] at h
    have hwidth : width b = width a := width_eq_of_cut hcut
    exact eq_of_cut_width (hwidth ▸ hcut)
  · rintro rfl
    exact covers_full b

/-- Of two keys that cover one address, the shorter covers all that the longer does. -/
theorem Covers.of_len_le {k l : K} {a b : A} (hk : Covers k a) (hl : Covers l a)
    (h : len A k ≤ len A l) (hb : Covers l b) : Covers k b := by
  unfold Covers at hk hl hb ⊢
  have hcut : cut b (len A l) = cut a (len A l) := hb.trans hl.symm
  rw [cut_eq_of_le h hcut]
  exact hk

section Search

/-- Search the keys of `a` from length `n` down to the empty key. -/
def scan (T : Table K V) (a : A) : Nat → Option (K × V)
  | 0 => (T (cut a 0)).map (cut a 0, ·)
  | n + 1 =>
      match T (cut a (n + 1)) with
      | some v => some (cut a (n + 1), v)
      | none => scan T a n

/-- The entry of the longest key of the table that covers `a`. -/
def longest (T : Table K V) (a : A) : Option (K × V) := scan T a (width a)

/-- The value that the longest match of `a` carries. -/
def lookup (T : Table K V) (a : A) : Option V := (longest T a).map Prod.snd

private theorem scan_eq_some {T : Table K V} {a : A} {n : Nat} {p : K × V}
    (h : scan T a n = some p) (hn : n ≤ width a) :
    Covers p.1 a ∧ T p.1 = some p.2 ∧
      ∀ m, len A p.1 < m → m ≤ n → T (cut a m) = none := by
  induction n with
  | zero =>
      simp only [scan, Option.map_eq_some_iff] at h
      obtain ⟨v, hv, rfl⟩ := h
      exact ⟨covers_cut hn, hv, by omega⟩
  | succ n ih =>
      simp only [scan] at h
      cases hc : T (cut a (n + 1)) with
      | some v =>
          simp only [hc, Option.some.injEq] at h
          subst h
          refine ⟨covers_cut hn, hc, fun m hlt hle => ?_⟩
          rw [len_cut_of_le hn] at hlt
          omega
      | none =>
          simp only [hc] at h
          obtain ⟨hcov, hval, hnone⟩ := ih h (by omega)
          refine ⟨hcov, hval, fun m hlt hle => ?_⟩
          rcases Nat.lt_or_eq_of_le hle with hm | rfl
          · exact hnone m hlt (by omega)
          · exact hc

private theorem scan_eq_none_iff {T : Table K V} {a : A} {n : Nat} :
    scan T a n = none ↔ ∀ m ≤ n, T (cut a m) = none := by
  induction n with
  | zero => simp [scan]
  | succ n ih =>
      simp only [scan]
      cases hc : T (cut a (n + 1)) with
      | some v =>
          simp only [reduceCtorEq, false_iff, not_forall]
          exact ⟨n + 1, le_rfl, by simp [hc]⟩
      | none =>
          rw [ih]
          constructor
          · intro h m hm
            rcases Nat.lt_or_eq_of_le hm with hlt | rfl
            · exact h m (by omega)
            · exact hc
          · exact fun h m hm => h m (by omega)

theorem longest_eq_none_iff {T : Table K V} {a : A} :
    longest T a = none ↔ ∀ k, Covers k a → T k = none := by
  unfold longest
  rw [scan_eq_none_iff]
  constructor
  · intro h k hk
    rw [← hk]
    exact h _ hk.len_le
  · exact fun h m hm => h _ (covers_cut hm)

/-- The longest match is exactly the entry of a covering key with no longer
covering key in the table. -/
theorem longest_eq_some_iff {T : Table K V} {a : A} {k : K} {v : V} :
    longest T a = some (k, v) ↔
      Covers k a ∧ T k = some v ∧
        ∀ l, Covers l a → len A k < len A l → T l = none := by
  constructor
  · intro h
    obtain ⟨hcov, hval, hnone⟩ := scan_eq_some h le_rfl
    refine ⟨hcov, hval, fun l hl hlt => ?_⟩
    rw [← hl]
    exact hnone _ hlt hl.len_le
  · rintro ⟨hcov, hval, hnone⟩
    cases hs : longest T a with
    | none =>
        rw [longest_eq_none_iff.mp hs k hcov] at hval
        cases hval
    | some p =>
        obtain ⟨pcov, pval, pnone⟩ := scan_eq_some hs le_rfl
        have hge : len A k ≤ len A p.1 := by
          by_contra hlt
          have hk := pnone (len A k) (by omega) hcov.len_le
          rw [hcov, hval] at hk
          cases hk
        have hle : len A p.1 ≤ len A k := by
          by_contra hlt
          rw [hnone p.1 pcov (by omega)] at pval
          cases pval
        have hkey : p.1 = k := pcov.eq_of_len hcov (by omega)
        have hv : p.2 = v := by
          rw [hkey, hval] at pval
          exact (Option.some.inj pval).symm
        rw [← hkey, ← hv]

theorem lookup_eq_some_iff {T : Table K V} {a : A} {v : V} :
    lookup T a = some v ↔ ∃ k, Covers k a ∧ T k = some v ∧
      ∀ l, Covers l a → len A k < len A l → T l = none := by
  simp only [lookup, Option.map_eq_some_iff, Prod.exists, exists_eq_right,
    longest_eq_some_iff]

theorem lookup_eq_none_iff {T : Table K V} {a : A} :
    lookup T a = none ↔ ∀ k, Covers k a → T k = none := by
  rw [lookup, Option.map_eq_none_iff, longest_eq_none_iff]

/-- Only the keys that cover an address decide its longest match. -/
theorem lookup_congr {T U : Table K V} {a : A} (h : ∀ k, Covers k a → T k = U k) :
    lookup T a = lookup U a := by
  ext v
  rw [lookup_eq_some_iff, lookup_eq_some_iff]
  constructor
  · rintro ⟨k, hk, hv, hn⟩
    exact ⟨k, hk, h k hk ▸ hv, fun l hl hlt => h l hl ▸ hn l hl hlt⟩
  · rintro ⟨k, hk, hv, hn⟩
    exact ⟨k, hk, (h k hk).trans hv, fun l hl hlt => (h l hl).trans (hn l hl hlt)⟩

/-- An entry at the full key of an address is its longest match. -/
theorem lookup_of_full {T : Table K V} {a : A} {v : V} (h : T (full a) = some v) :
    lookup T a = some v := by
  refine lookup_eq_some_iff.mpr ⟨full a, covers_full a, h, fun l hl hlt => ?_⟩
  rw [len_full] at hlt
  exact absurd hl.len_le (by omega)

/-- A table read through a map of keys has the matches of the other space, if the
map sends the cuts of one address to those of the other. -/
theorem lookup_comp {B L : Type*} [Space B L] (T : Table K V) (g : L → K) {a : A} {b : B}
    (hwidth : width b = width a) (hcut : ∀ n, g (cut b n) = cut a n) :
    lookup (fun l => T (g l)) b = lookup T a := by
  have hscan : ∀ n, (scan (fun l => T (g l)) b n).map Prod.snd = (scan T a n).map Prod.snd := by
    intro n
    induction n with
    | zero => simp [scan, hcut]
    | succ n ih =>
        simp only [scan, hcut]
        cases T (cut a (n + 1)) with
        | some v => rfl
        | none => exact ih
  unfold lookup longest
  rw [hwidth]
  exact hscan _

end Search

section Fill

/-- Filling keys of a table with one value: keys that were absent may come to carry it,
and nothing else changes. -/
structure Fills (v : V) (keys : Set K) (T U : Table K V) : Prop where
  frame : ∀ k, k ∉ keys → U k = T k
  value : ∀ k, U k = T k ∨ T k = none ∧ U k = some v

namespace Fills

variable {v : V} {keys : Set K} {T U W : Table K V}

theorem refl (v : V) (keys : Set K) (T : Table K V) : Fills v keys T T :=
  ⟨fun _ _ => rfl, fun _ => .inl rfl⟩

theorem trans (h₁ : Fills v keys T U) (h₂ : Fills v keys U W) : Fills v keys T W where
  frame k hk := (h₂.frame k hk).trans (h₁.frame k hk)
  value k := by
    rcases h₁.value k with same | ⟨absent, filled⟩
    · rw [← same]
      exact h₂.value k
    · rcases h₂.value k with same' | ⟨absent', filled'⟩
      · exact .inr ⟨absent, same'.trans filled⟩
      · exact .inr ⟨absent, filled'⟩

theorem of_update [DecidableEq K] {k : K} (hk : k ∈ keys) (absent : T k = none) :
    Fills v keys T (Function.update T k (some v)) where
  frame l hl := by
    have hne : l ≠ k := by
      rintro rfl
      exact hl hk
    exact Function.update_of_ne hne _ _
  value l := by
    by_cases heq : l = k
    · subst heq
      exact .inr ⟨absent, Function.update_self _ _ _⟩
    · exact .inl (Function.update_of_ne heq _ _)

theorem grows (h : Fills v keys T U) {k : K} {w : V} (hk : T k = some w) : U k = some w := by
  rcases h.value k with same | ⟨absent, -⟩
  · exact same.trans hk
  · rw [absent] at hk
    cases hk

/-- Filling leaves an address alone if the table already holds a match at least as long as
every filled key that covers it. -/
theorem lookup_eq (h : Fills v keys T U) {a : A} {w : V} (hroute : lookup T a = some w)
    (hcover : ∀ k ∈ keys, Covers k a → ∃ l, Covers l a ∧ T l ≠ none ∧ len A k ≤ len A l) :
    lookup U a = some w := by
  obtain ⟨k, hk, hval, hlonger⟩ := lookup_eq_some_iff.mp hroute
  refine lookup_eq_some_iff.mpr ⟨k, hk, h.grows hval, fun l hl hlt => ?_⟩
  have hnot : l ∉ keys := by
    intro hmem
    obtain ⟨d, hd, hpresent, hle⟩ := hcover l hmem hl
    exact hpresent (hlonger d hd (lt_of_lt_of_le hlt hle))
  rw [h.frame l hnot]
  exact hlonger l hl hlt

/-- Filling captures an address whose matches before it are all shorter than a key that is
present after it. -/
theorem captures (h : Fills v keys T U) {a : A} {k : K} (hcov : Covers k a)
    (hpresent : U k ≠ none) (hshort : ∀ l, Covers l a → len A k ≤ len A l → T l = none) :
    lookup U a = some v := by
  have hfound : lookup U a ≠ none := by
    intro hnone
    exact hpresent (lookup_eq_none_iff.mp hnone k hcov)
  obtain ⟨w, hlookup⟩ := Option.ne_none_iff_exists'.mp hfound
  obtain ⟨l, hl, hval, hlonger⟩ := lookup_eq_some_iff.mp hlookup
  have hle : len A k ≤ len A l := by
    by_contra hlt
    exact hpresent (hlonger k hcov (not_le.mp hlt))
  rcases h.value l with same | ⟨-, filled⟩
  · rw [same, hshort l hl hle] at hval
    cases hval
  · rw [hlookup, ← hval]
    exact filled

end Fills

end Fill

section Update

variable [DecidableEq K]

/-- A new entry is invisible to the addresses its key does not cover. -/
theorem lookup_update_of_not_covers {T : Table K V} {k : K} {a : A} (o : Option V)
    (h : ¬ Covers k a) : lookup (Function.update T k o) a = lookup T a := by
  apply lookup_congr
  intro l hl
  have hne : l ≠ k := by
    rintro rfl
    exact h hl
  exact Function.update_of_ne hne o T

/-- Pinning an address to the value it already has changes no lookup at all. -/
theorem lookup_update_full {T : Table K V} {e : A} {v : V} (h : lookup T e = some v)
    (a : A) : lookup (Function.update T (full e) (some v)) a = lookup T a := by
  by_cases ha : a = e
  · subst ha
    rw [h]
    exact lookup_of_full (Function.update_self _ _ _)
  · exact lookup_update_of_not_covers _ (fun hc => ha (covers_full_iff.mp hc))

/-- The longest match of an address is its full key or, without that, the longest match
among the others. -/
theorem lookup_eq_full_or (T : Table K V) (a : A) :
    lookup T a = (T (full a)).or (lookup (Function.update T (full a) none) a) := by
  cases h : T (full a) with
  | some v => exact lookup_of_full h
  | none => rw [← h, Function.update_eq_self, h, Option.none_or]

end Update

section Inserts

variable [DecidableEq K]

/-- Insert entries in order, a later one overwriting an earlier one of the same key. -/
def insertAll (T : Table K V) (items : List (K × V)) : Table K V :=
  items.foldl (fun T p => Function.update T p.1 (some p.2)) T

@[simp] theorem insertAll_nil (T : Table K V) : insertAll T [] = T := rfl

@[simp] theorem insertAll_cons (T : Table K V) (p : K × V) (items : List (K × V)) :
    insertAll T (p :: items) = insertAll (Function.update T p.1 (some p.2)) items := rfl

theorem insertAll_append (T : Table K V) (xs ys : List (K × V)) :
    insertAll T (xs ++ ys) = insertAll (insertAll T xs) ys := List.foldl_append

/-- After the inserts a key holds the last value inserted at it. -/
theorem insertAll_apply (T : Table K V) (items : List (K × V)) (k : K) :
    insertAll T items k =
      (((items.filter (·.1 = k)).getLast?).map Prod.snd).or (T k) := by
  induction items generalizing T with
  | nil => simp
  | cons p rest ih =>
      rw [insertAll_cons, ih]
      by_cases hp : p.1 = k
      · subst hp
        cases hr : rest.filter (·.1 = p.1) with
        | nil => simp [hr]
        | cons q qs =>
            have hq : (p :: q :: qs).getLast? = (q :: qs).getLast? :=
              List.getLast?_cons_cons
            simp [hr, hq, List.getLast?_eq_some_getLast]
      · simp [hp, Function.update_of_ne (Ne.symm hp)]

/-- The last of the entries whose key is the longest that covers `a`. -/
def lastLongest (items : List (K × V)) (a : A) : Option V :=
  let hits := items.filter (fun p => Covers p.1 a)
  ((hits.filter fun p => hits.all fun q => len A q.1 ≤ len A p.1).getLast?).map Prod.snd

/-- When `p` is one of the longest covering entries, the longest entries are
those that share its key. -/
theorem lastLongest_eq_of_longest {items : List (K × V)} {a : A} {p : K × V}
    (hp : p ∈ items) (hcov : Covers p.1 a)
    (hmax : ∀ q ∈ items, Covers q.1 a → len A q.1 ≤ len A p.1) :
    lastLongest items a = ((items.filter (·.1 = p.1)).getLast?).map Prod.snd := by
  unfold lastLongest
  have hsame : (items.filter fun q => decide (Covers q.1 a)).filter
      (fun q => (items.filter fun r => decide (Covers r.1 a)).all
        fun r => decide (len A r.1 ≤ len A q.1)) =
      items.filter (·.1 = p.1) := by
    rw [List.filter_filter]
    apply List.filter_congr
    intro q hq
    rw [Bool.eq_iff_iff]
    simp only [Bool.and_eq_true, List.all_eq_true, List.mem_filter, decide_eq_true_eq,
      and_imp]
    constructor
    · rintro ⟨hall, hqcov⟩
      exact hqcov.eq_of_len hcov (le_antisymm (hmax q hq hqcov) (hall p hp hcov))
    · intro hkey
      rw [hkey]
      exact ⟨hmax, hcov⟩
  simp only [hsame]

/-- Filling an empty table in order makes the longest match of an address the
last listed of the longest entries that cover it. -/
theorem lookup_insertAll (items : List (K × V)) (a : A) :
    lookup (insertAll (fun _ => none) items) a = lastLongest items a := by
  cases hbest : (items.filter fun p => decide (Covers p.1 a)).argmax
      (fun p => len A p.1) with
  | none =>
      have hnil := List.argmax_eq_none.mp hbest
      have hnone : ∀ k, Covers k a → insertAll (fun _ => none) items k = none := by
        intro k hk
        have hk' : items.filter (·.1 = k) = [] := by
          apply List.filter_eq_nil_iff.mpr
          rintro p hp hpk
          have hpk' : p.1 = k := by simpa using hpk
          exact List.filter_eq_nil_iff.mp hnil p hp (by simpa [hpk'] using hk)
        simp [insertAll_apply, hk']
      rw [lookup_eq_none_iff.mpr hnone]
      simp [lastLongest, hnil]
  | some p =>
      have hmem := List.argmax_mem hbest
      obtain ⟨hp, hcov⟩ : p ∈ items ∧ Covers p.1 a := by simpa using hmem
      have hmax : ∀ q ∈ items, Covers q.1 a → len A q.1 ≤ len A p.1 := by
        intro q hq hqcov
        exact List.le_of_mem_argmax (f := fun p : K × V => len A p.1)
          (List.mem_filter.mpr ⟨hq, by simpa using hqcov⟩) hbest
      rw [lastLongest_eq_of_longest hp hcov hmax]
      have hval := insertAll_apply (fun _ => none) items p.1
      rw [Option.or_none] at hval
      rw [← hval]
      cases hv : insertAll (fun _ => none) items p.1 with
      | none =>
          rw [hval, Option.map_eq_none_iff, List.getLast?_eq_none_iff] at hv
          exact absurd (List.mem_filter.mpr ⟨hp, by simp⟩) (hv ▸ List.not_mem_nil)
      | some v =>
          refine lookup_eq_some_iff.mpr ⟨p.1, hcov, hv, fun l hl hlt => ?_⟩
          have hl' : items.filter (·.1 = l) = [] := by
            apply List.filter_eq_nil_iff.mpr
            intro q hq hql
            have hql' : q.1 = l := by simpa using hql
            have := hmax q hq (hql' ▸ hl)
            rw [hql'] at this
            omega
          simp [insertAll_apply, hl']

end Inserts

end LongestMatch
