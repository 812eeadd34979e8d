import Mathlib.Data.List.TakeWhile
import SmartGuard.Library.Numeral

/-!
# The text of internet addresses

An address is a list of octets or of groups of sixteen bits. The texts are the usual ones:
octets in decimal between dots, groups in hexadecimal between colons with the longest run
of zeros left out, and an address of the older kind mapped into the newer one with its last
two groups as octets. The readers read an address in front of a text, and what is written
is read back.

## Implementation notes

The groups in front of the gap and those behind it are read by the same loop, which tries
four octets before each group that has another one to follow.
-/

namespace IpText

open Numeral

section Show

/-- Numerals, each behind a separator. -/
def showBehind (sep : Char) (radix : Nat) (items : List Nat) : List Char :=
  items.flatMap fun n => sep :: Nat.toDigits radix n

/-- Numerals with a separator between them. -/
def showItems (sep : Char) (radix : Nat) : List Nat → List Char
  | [] => []
  | n :: rest => Nat.toDigits radix n ++ showBehind sep radix rest

def showV4 (octets : List Nat) : List Char := showItems '.' 10 octets

/-- A run of zeros: where it starts and how long it is. -/
structure Span where
  start : Nat
  len : Nat
  deriving DecidableEq

/-- The run that a zero at a position ends. -/
def Span.extend (span : Span) (i : Nat) : Span :=
  if span.len = 0 then ⟨i, 1⟩ else ⟨span.start, span.len + 1⟩

/-- The body of the loop over the groups: the run that the group ends, and the longest one
so far. -/
def scanGroup (scan : Span × Span) (group : Nat × Nat) : Span × Span :=
  if group.1 = 0 then
    let current := scan.1.extend group.2
    (current, if scan.2.len < current.len then current else scan.2)
  else (⟨0, 0⟩, scan.2)

/-- The first longest run of zeros. -/
def zeroes (groups : List Nat) : Span := (groups.zipIdx.foldl scanGroup (⟨0, 0⟩, ⟨0, 0⟩)).2

/-- The octets of two groups. -/
def octets (a b : Nat) : List Nat := [a / 256, a % 256, b / 256, b % 256]

def showV6 (groups : List Nat) : List Char :=
  match groups with
  | [0, 0, 0, 0, 0, 0xffff, a, b] => "::ffff:".toList ++ showV4 (octets a b)
  | _ =>
      let gap := zeroes groups
      if 1 < gap.len then
        showItems ':' 16 (groups.take gap.start) ++ "::".toList ++
          showItems ':' 16 (groups.drop (gap.start + gap.len))
      else showItems ':' 16 groups

end Show

section Read

def readOctet : List Char → Option (Nat × List Char) := readNumber 10 (some 3) false 256

def readGroup : List Char → Option (Nat × List Char) := readNumber 16 (some 4) true 65536

/-- Read a number of items, each behind a separator. -/
def readItems (sep : Char) (read : List Char → Option (Nat × List Char)) :
    Nat → List Char → Option (List Nat × List Char)
  | 0, text => some ([], text)
  | _ + 1, [] => none
  | n + 1, c :: text =>
      if c = sep then
        match read text with
        | none => none
        | some (item, text) =>
            (readItems sep read n text).map fun out => (item :: out.1, out.2)
      else none

def readV4 (text : List Char) : Option (List Nat × List Char) :=
  match readOctet text with
  | none => none
  | some (octet, text) =>
      (readItems '.' readOctet 3 text).map fun out => (octet :: out.1, out.2)

/-- Read behind a colon, or at once if it is the first group. -/
def separated {α : Type*} (first : Bool) (read : List Char → Option α) (text : List Char) :
    Option α :=
  if first then read text
  else
    match text with
    | ':' :: text => read text
    | _ => none

/-- Read groups up to a limit, and whether they ended with four octets. -/
def readGroups (first : Bool) : Nat → List Char → List Nat × Bool × List Char
  | 0, text => ([], false, text)
  | left + 1, text =>
      match (if 0 < left then separated first readV4 text else none) with
      | some ([a, b, c, d], text) => ([a * 256 + b, c * 256 + d], true, text)
      | _ =>
          match separated first readGroup text with
          | none => ([], false, text)
          | some (group, text) =>
              let more := readGroups false left text
              (group :: more.1, more.2)

def readV6 (text : List Char) : Option (List Nat × List Char) :=
  match readGroups true 8 text with
  | (head, v4, text) =>
      if head.length = 8 then some (head, text)
      else if v4 then none
      else
        match text with
        | ':' :: ':' :: text =>
            match readGroups true (8 - (head.length + 1)) text with
            | (tail, _, text) =>
                some (head ++ List.replicate (8 - head.length - tail.length) 0 ++ tail, text)
        | _ => none

end Read

section Runs

/-- The span lies in the list and holds zeros only. -/
def IsRun (groups : List Nat) (span : Span) : Prop :=
  span.start + span.len ≤ groups.length ∧
    ∀ i, span.start ≤ i → i < span.start + span.len → groups[i]? = some 0

theorem isRun_empty (groups : List Nat) : IsRun groups ⟨0, 0⟩ :=
  ⟨Nat.zero_le _, fun i _ hi => absurd hi (Nat.not_lt_zero i)⟩

/-- The span is empty or ends in front of a position. -/
def Span.EndsAt (span : Span) (i : Nat) : Prop := span.len = 0 ∨ span.start + span.len = i

/-- A zero extends the run in front of it. -/
theorem IsRun.extend {groups : List Nat} {span : Span} {i : Nat} (h : IsRun groups span)
    (hends : span.EndsAt i) (hget : groups[i]? = some 0) :
    IsRun groups (span.extend i) ∧ (span.extend i).EndsAt (i + 1) := by
  obtain ⟨hi, -⟩ := List.getElem?_eq_some_iff.mp hget
  unfold Span.extend
  split
  · refine ⟨⟨hi, fun j hij hj => ?_⟩, .inr rfl⟩
    obtain rfl : j = i := Nat.le_antisymm (Nat.le_of_lt_succ hj) hij
    exact hget
  · next hlen =>
      have hat : span.start + span.len = i := hends.resolve_left hlen
      refine ⟨⟨?_, fun j hij hj => ?_⟩, .inr ?_⟩
      · calc
          span.start + (span.len + 1) = i + 1 := by rw [← Nat.add_assoc, hat]
          _ ≤ groups.length := hi
      · have hbefore : j < i + 1 := by
          calc
            j < span.start + (span.len + 1) := hj
            _ = i + 1 := by rw [← Nat.add_assoc, hat]
        rcases Nat.lt_succ_iff_lt_or_eq.mp hbefore with hlt | rfl
        · exact h.2 j hij (hat ▸ hlt)
        · exact hget
      · rw [← Nat.add_assoc, hat]

/-- A group extends the run that ends with it, and the longest run stays a run. -/
theorem scanGroup_isRun {groups : List Nat} {scan : Span × Span} {i group : Nat}
    (hget : groups[i]? = some group) (hcurrent : IsRun groups scan.1)
    (hends : scan.1.EndsAt i) (hlongest : IsRun groups scan.2) :
    IsRun groups (scanGroup scan (group, i)).1 ∧
      (scanGroup scan (group, i)).1.EndsAt (i + 1) ∧
      IsRun groups (scanGroup scan (group, i)).2 := by
  unfold scanGroup
  by_cases hzero : group = 0
  · subst hzero
    obtain ⟨hrun, hat⟩ := hcurrent.extend hends hget
    rw [if_pos rfl]
    refine ⟨hrun, hat, ?_⟩
    dsimp only
    split
    · exact hrun
    · exact hlongest
  · rw [if_neg hzero]
    exact ⟨isRun_empty groups, .inl rfl, hlongest⟩

/-- The longest run that is found is a run. -/
theorem zeroes_isRun (groups : List Nat) : IsRun groups (zeroes groups) := by
  have hscan : ∀ (rest pre : List Nat) (scan : Span × Span), groups = pre ++ rest →
      IsRun groups scan.1 → scan.1.EndsAt pre.length →
      IsRun groups scan.2 →
        IsRun groups ((rest.zipIdx pre.length).foldl scanGroup scan).2 := by
    intro rest
    induction rest with
    | nil => exact fun pre scan _ _ _ hlongest => hlongest
    | cons group rest ih =>
        intro pre scan hsplit hcurrent hends hlongest
        have hget : groups[pre.length]? = some group := by
          rw [hsplit]
          simp
        obtain ⟨hcurrent', hends', hlongest'⟩ := scanGroup_isRun hget hcurrent hends hlongest
        have hmore := ih (pre ++ [group]) (scanGroup scan (group, pre.length))
          (by rw [hsplit, List.append_assoc]; rfl) hcurrent'
          (by rwa [List.length_append, List.length_singleton]) hlongest'
        rwa [List.length_append, List.length_singleton] at hmore
  exact hscan groups [] _ rfl (isRun_empty groups) (.inl rfl) (isRun_empty groups)

/-- A list is what comes before a run, as many zeros, and what comes after it. -/
theorem IsRun.split {groups : List Nat} {span : Span} (h : IsRun groups span) :
    groups.take span.start ++ List.replicate span.len 0 ++
      groups.drop (span.start + span.len) = groups := by
  have hmid : (groups.drop span.start).take span.len = List.replicate span.len 0 := by
    apply List.ext_getElem?
    intro i
    rw [List.getElem?_take, List.getElem?_replicate, List.getElem?_drop]
    split
    · next hi => exact h.2 _ (Nat.le_add_right _ _) (Nat.add_lt_add_left hi _)
    · rfl
  rw [← hmid, List.append_assoc, ← List.drop_drop, List.take_append_drop, List.take_append_drop]

end Runs

section RoundTrip

/-- The text goes on with neither a digit, a colon nor a dot. -/
def Closes (rest : List Char) : Prop :=
  ∀ c ∈ rest.head?, isDigit 16 c = false ∧ c ≠ ':' ∧ c ≠ '.'

/-- No more groups follow: neither a digit nor a dot, nor a digit behind a colon. -/
structure Stops (rest : List Char) : Prop where
  ends : Ends 16 rest
  dot : rest.head? ≠ some '.'
  behind : ∀ more, rest = ':' :: more → Ends 16 more

theorem Closes.stops {rest : List Char} (h : Closes rest) : Stops rest where
  ends c hc := (h c hc).1
  dot hdot := (h '.' hdot).2.2 rfl
  behind := by
    rintro more rfl
    exact absurd rfl (h ':' rfl).2.1

/-- A gap stops the groups. -/
theorem stops_gap (rest : List Char) : Stops ("::".toList ++ rest) where
  ends c hc := by
    obtain rfl : c = ':' := (Option.some.inj hc).symm
    decide
  dot := by simp
  behind := by
    intro more hmore c hc
    obtain rfl : ':' :: rest = more := (List.cons.inj hmore).2
    obtain rfl : c = ':' := (Option.some.inj hc).symm
    decide

theorem isDigit_of_decimal {c : Char} (h : isDigit 10 c = true) : isDigit 16 c = true := by
  obtain ⟨d, hd⟩ := Option.isSome_iff_exists.mp h
  obtain ⟨hdigit, hlt⟩ := Option.filter_eq_some_iff.mp hd
  apply Option.isSome_iff_exists.mpr
  exact ⟨d, Option.filter_eq_some_iff.mpr
    ⟨hdigit, decide_eq_true ((of_decide_eq_true hlt).trans (by decide))⟩⟩

theorem ends_decimal {rest : List Char} (h : Ends 16 rest) : Ends 10 rest := by
  intro c hc
  apply Bool.eq_false_iff.mpr
  intro hdigit
  have hhex := isDigit_of_decimal hdigit
  rw [h c hc] at hhex
  cases hhex

theorem readNumber_none {radix bound : Nat} {maxDigits : Option Nat} {zero : Bool}
    {text : List Char} (h : Ends radix text) :
    readNumber radix maxDigits zero bound text = none := by
  have hnone : text.takeWhile (isDigit radix) = [] := by
    cases text with
    | nil => rfl
    | cons c rest => simp [h c rfl]
  unfold readNumber
  simp [hnone]

theorem isDigit_dot : isDigit 10 '.' = false := by decide

theorem isDigit_colon : isDigit 16 ':' = false := by decide

theorem ends_separator {sep : Char} {radix : Nat} (hsep : isDigit radix sep = false)
    (items : List Nat) {rest : List Char} (hrest : Ends radix rest) :
    Ends radix (showBehind sep radix items ++ rest) := by
  cases items with
  | nil => exact hrest
  | cons n items =>
      intro c hc
      obtain rfl : c = sep := (Option.some.inj hc).symm
      exact hsep

theorem length_le {radix n k : Nat} (hone : 1 < radix) (hk : 0 < k) (h : n < radix ^ k) :
    ∀ m ∈ some k, (Nat.toDigits radix n).length ≤ m := by
  rintro m hm
  obtain rfl := Option.some.inj hm
  exact (Nat.length_toDigits_le_iff hone hk).mpr h

theorem readOctet_show {n : Nat} {rest : List Char} (hn : n < 256) (hrest : Ends 10 rest) :
    readOctet (Nat.toDigits 10 n ++ rest) = some (n, rest) :=
  readNumber_toDigits (by decide) (by decide) hn
    (length_le (by decide) (by decide) (hn.trans (by decide))) hrest

theorem readGroup_show {n : Nat} {rest : List Char} (hn : n < 65536) (hrest : Ends 16 rest) :
    readGroup (Nat.toDigits 16 n ++ rest) = some (n, rest) :=
  readNumber_toDigits (by decide) (by decide) hn (length_le (by decide) (by decide) hn) hrest

theorem readItems_show {octets : List Nat} {rest : List Char} (hoctets : ∀ n ∈ octets, n < 256)
    (hrest : Ends 10 rest) :
    readItems '.' readOctet octets.length (showBehind '.' 10 octets ++ rest) =
      some (octets, rest) := by
  induction octets with
  | nil => rfl
  | cons n octets ih =>
      have hmore := ih fun m hm => hoctets m (List.mem_cons_of_mem n hm)
      have hn : n < 256 := hoctets n List.mem_cons_self
      have hread := readOctet_show hn (ends_separator isDigit_dot octets hrest)
      have htext : showBehind '.' 10 (n :: octets) ++ rest =
          '.' :: (Nat.toDigits 10 n ++ (showBehind '.' 10 octets ++ rest)) := by
        simp [showBehind]
      rw [htext, List.length_cons, readItems, if_pos rfl, hread]
      simp only [hmore, Option.map_some]

/-- Four octets are read back. -/
theorem readV4_show {a b c d : Nat} {rest : List Char} (hoctets : ∀ n ∈ [a, b, c, d], n < 256)
    (hrest : Ends 10 rest) : readV4 (showV4 [a, b, c, d] ++ rest) = some ([a, b, c, d], rest) := by
  have hbehind : ∀ n ∈ [b, c, d], n < 256 := fun n hn => hoctets n (List.mem_cons_of_mem a hn)
  have hread := readOctet_show (hoctets a List.mem_cons_self)
    (ends_separator isDigit_dot [b, c, d] hrest)
  have hmore : readItems '.' readOctet 3 (showBehind '.' 10 [b, c, d] ++ rest) =
      some ([b, c, d], rest) := readItems_show hbehind hrest
  rw [showV4, showItems, List.append_assoc, readV4, hread]
  simp only [hmore, Option.map_some]

/-- Without a dot behind its first number a text is no address of four octets. -/
theorem readV4_none {text : List Char}
    (h : (text.dropWhile (isDigit 10)).head? ≠ some '.') : readV4 text = none := by
  unfold readV4
  split
  · rfl
  · next octet rest hread =>
      obtain ⟨-, -, rfl⟩ := readNumber_spec hread
      rw [Option.map_eq_none_iff]
      cases hrest : text.dropWhile (isDigit 10) with
      | nil => rfl
      | cons c rest =>
          rw [hrest] at h
          have hdot : c ≠ '.' := fun heq => h (congrArg some heq)
          rw [readItems, if_neg hdot]

theorem dropWhile_ends {radix : Nat} {rest : List Char} (h : Ends radix rest) :
    rest.dropWhile (isDigit radix) = rest :=
  dropWhile_append (fun _ hc => absurd hc List.not_mem_nil) h

/-- A group in hexadecimal is no address of four octets. -/
theorem readV4_group (n : Nat) {rest : List Char} (hrest : Ends 16 rest)
    (hdot : rest.head? ≠ some '.') : readV4 (Nat.toDigits 16 n ++ rest) = none := by
  apply readV4_none
  rw [List.dropWhile_append]
  split
  · rwa [dropWhile_ends (ends_decimal hrest)]
  · next hleft =>
      have hne : (Nat.toDigits 16 n).dropWhile (isDigit 10) ≠ [] := by simpa using hleft
      rw [List.head?_append_of_ne_nil _ hne]
      intro hhead
      have hmem := (List.dropWhile_sublist _).subset (List.mem_of_mem_head? hhead)
      have hdigit := isDigit_of_mem_toDigits (by decide) (by decide) n '.' hmem
      exact absurd hdigit (by decide)

theorem readGroups_done {first : Bool} {text : List Char}
    (hv4 : separated first readV4 text = none) (hgroup : separated first readGroup text = none)
    (left : Nat) : readGroups first left text = ([], false, text) := by
  cases left with
  | zero => rfl
  | succ left => simp [readGroups, hv4, hgroup]

theorem readGroups_more {first : Bool} {text rest : List Char} {group : Nat}
    (hv4 : separated first readV4 text = none)
    (hgroup : separated first readGroup text = some (group, rest)) (left : Nat) :
    readGroups first (left + 1) text =
      (group :: (readGroups false left rest).1, (readGroups false left rest).2) := by
  simp [readGroups, hv4, hgroup]

theorem readV4_ends {rest : List Char} (h : Ends 16 rest) : readV4 rest = none := by
  rw [readV4, readOctet, readNumber_none (ends_decimal h)]

/-- Where the groups stop, no further one is read. -/
theorem readGroups_stops {rest : List Char} (h : Stops rest) (left : Nat) :
    readGroups false left rest = ([], false, rest) := by
  have hnone : ∀ {α : Type} {read : List Char → Option α},
      (∀ more, Ends 16 more → read more = none) → separated false read rest = none := by
    intro α read hread
    unfold separated
    rw [if_neg (by decide)]
    split
    · next more => exact hread more (h.behind more rfl)
    · rfl
  exact readGroups_done (hnone fun _ => readV4_ends) (hnone fun _ => readNumber_none) left

theorem head_separator (groups : List Nat) {rest : List Char} (hrest : rest.head? ≠ some '.') :
    (showBehind ':' 16 groups ++ rest).head? ≠ some '.' := by
  cases groups with
  | nil => exact hrest
  | cons n groups => simp [showBehind]

/-- Groups behind colons are read back. -/
theorem readGroups_behind {groups : List Nat} (hgroups : ∀ n ∈ groups, n < 65536)
    {rest : List Char} (hrest : Stops rest) {left : Nat} (hle : groups.length ≤ left) :
    readGroups false left (showBehind ':' 16 groups ++ rest) = (groups, false, rest) := by
  induction groups generalizing left with
  | nil => exact readGroups_stops hrest left
  | cons n groups ih =>
      obtain ⟨left, rfl⟩ : ∃ k, left = k + 1 := Nat.exists_eq_add_one_of_ne_zero (by
        rintro rfl
        exact absurd hle (by simp))
      have hmore := ih (fun m hm => hgroups m (List.mem_cons_of_mem n hm))
        (Nat.le_of_succ_le_succ hle)
      have hends := ends_separator isDigit_colon groups hrest.ends
      have hdot := head_separator groups hrest.dot
      have hv4 : separated false readV4
          (':' :: (Nat.toDigits 16 n ++ (showBehind ':' 16 groups ++ rest))) = none :=
        readV4_group n hends hdot
      have hgroup : separated false readGroup
          (':' :: (Nat.toDigits 16 n ++ (showBehind ':' 16 groups ++ rest))) =
            some (n, showBehind ':' 16 groups ++ rest) :=
        readGroup_show (hgroups n List.mem_cons_self) hends
      have htext : showBehind ':' 16 (n :: groups) ++ rest =
          ':' :: (Nat.toDigits 16 n ++ (showBehind ':' 16 groups ++ rest)) := by
        simp [showBehind]
      rw [htext, readGroups_more hv4 hgroup, hmore]

/-- Groups with colons between them are read back. -/
theorem readGroups_show {groups : List Nat} (hgroups : ∀ n ∈ groups, n < 65536)
    {rest : List Char} (hrest : Stops rest) {left : Nat} (hle : groups.length ≤ left) :
    readGroups true left (showItems ':' 16 groups ++ rest) = (groups, false, rest) := by
  cases groups with
  | nil =>
      have hv4 : separated true readV4 rest = none := readV4_ends hrest.ends
      have hgroup : separated true readGroup rest = none := readNumber_none hrest.ends
      exact readGroups_done hv4 hgroup left
  | cons n groups =>
      obtain ⟨left, rfl⟩ : ∃ k, left = k + 1 := Nat.exists_eq_add_one_of_ne_zero (by
        rintro rfl
        exact absurd hle (by simp))
      have hmore := readGroups_behind (fun m hm => hgroups m (List.mem_cons_of_mem n hm)) hrest
        (Nat.le_of_succ_le_succ hle)
      have hends := ends_separator isDigit_colon groups hrest.ends
      have hdot := head_separator groups hrest.dot
      have hv4 : separated true readV4
          (Nat.toDigits 16 n ++ (showBehind ':' 16 groups ++ rest)) = none :=
        readV4_group n hends hdot
      have hgroup : separated true readGroup
          (Nat.toDigits 16 n ++ (showBehind ':' 16 groups ++ rest)) =
            some (n, showBehind ':' 16 groups ++ rest) :=
        readGroup_show (hgroups n List.mem_cons_self) hends
      rw [showItems, List.append_assoc, readGroups_more hv4 hgroup, hmore]

/-- Groups with a gap between them fill the gap with zeros. -/
theorem readV6_gap {text more rest : List Char} {head tail : List Nat} {v4 : Bool}
    (hhead : readGroups true 8 text = (head, false, "::".toList ++ more)) (hlt : head.length < 8)
    (htail : readGroups true (8 - (head.length + 1)) more = (tail, v4, rest)) :
    readV6 text =
      some (head ++ List.replicate (8 - head.length - tail.length) 0 ++ tail, rest) := by
  have hmatch : "::".toList ++ more = ':' :: ':' :: more := rfl
  simp only [readV6, hhead, hmatch, if_neg hlt.ne, htail, Bool.false_eq_true, if_false]

theorem octet_lt {a b : Nat} (ha : a < 65536) (hb : b < 65536) : ∀ n ∈ octets a b, n < 256 := by
  intro n hn
  simp only [octets, List.mem_cons, List.not_mem_nil, or_false] at hn
  omega

/-- An address of four octets in the last two groups is read back. -/
theorem readGroups_mapped {a b : Nat} (ha : a < 65536) (hb : b < 65536) {rest : List Char}
    (hrest : Ends 10 rest) :
    readGroups true 7 ("ffff:".toList ++ showV4 (octets a b) ++ rest) =
      ([0xffff, a, b], true, rest) := by
  have hfour : readV4 (showV4 (octets a b) ++ rest) = some (octets a b, rest) :=
    readV4_show (octet_lt ha hb) hrest
  have hlast : readGroups false 6 (':' :: (showV4 (octets a b) ++ rest)) =
      ([a, b], true, rest) := by
    have hv4 : separated false readV4 (':' :: (showV4 (octets a b) ++ rest)) =
        some ([a / 256, a % 256, b / 256, b % 256], rest) := hfour
    simp only [readGroups, hv4, Nat.zero_lt_succ, if_true, Nat.div_add_mod']
  have hffff : 0xffff < 65536 := by decide
  have hdigits : Nat.toDigits 16 0xffff = "ffff".toList := by decide
  have htext : "ffff:".toList ++ showV4 (octets a b) ++ rest =
      Nat.toDigits 16 0xffff ++ (':' :: (showV4 (octets a b) ++ rest)) := by
    rw [hdigits]
    simp
  have hends : Ends 16 (':' :: (showV4 (octets a b) ++ rest)) := by
    intro c hc
    obtain rfl : c = ':' := (Option.some.inj hc).symm
    exact isDigit_colon
  have hv4 : separated true readV4
      (Nat.toDigits 16 0xffff ++ (':' :: (showV4 (octets a b) ++ rest))) = none :=
    readV4_group 0xffff hends (by simp)
  have hgroup : separated true readGroup
      (Nat.toDigits 16 0xffff ++ (':' :: (showV4 (octets a b) ++ rest))) =
        some (0xffff, ':' :: (showV4 (octets a b) ++ rest)) :=
    readGroup_show hffff hends
  rw [htext, readGroups_more hv4 hgroup, hlast]

/-- Groups with a run of zeros left out are read back. -/
theorem readV6_run {head tail : List Nat} {len : Nat} {rest : List Char}
    (hlength : head.length + len + tail.length = 8) (hlong : 1 < len)
    (hhead : ∀ n ∈ head, n < 65536) (htail : ∀ n ∈ tail, n < 65536) (hrest : Closes rest) :
    readV6 (showItems ':' 16 head ++ "::".toList ++ showItems ':' 16 tail ++ rest) =
      some (head ++ List.replicate len 0 ++ tail, rest) := by
  have hlen : 8 - head.length - tail.length = len := by omega
  have hread := readGroups_show hhead (stops_gap (showItems ':' 16 tail ++ rest))
    (show head.length ≤ 8 by omega)
  have hmore := readGroups_show htail hrest.stops
    (show tail.length ≤ 8 - (head.length + 1) by omega)
  rw [← List.append_assoc, ← List.append_assoc] at hread
  rw [readV6_gap hread (by omega) hmore, hlen]

/-- Eight groups are read back, whatever run of zeros was left out. -/
theorem readV6_show {groups : List Nat} (hlength : groups.length = 8)
    (hgroups : ∀ n ∈ groups, n < 65536) {rest : List Char} (hrest : Closes rest) :
    readV6 (showV6 groups ++ rest) = some (groups, rest) := by
  unfold showV6
  split
  · next a b =>
      have htext : "::ffff:".toList ++ showV4 (octets a b) ++ rest =
          "::".toList ++ ("ffff:".toList ++ showV4 (octets a b) ++ rest) := rfl
      have hstops := stops_gap ("ffff:".toList ++ showV4 (octets a b) ++ rest)
      have hv4 : separated true readV4 _ = none := readV4_ends hstops.ends
      have hgroup : separated true readGroup _ = none := readNumber_none hstops.ends
      have htail := readGroups_mapped (hgroups a (by simp)) (hgroups b (by simp))
        (ends_decimal hrest.stops.ends)
      rw [htext]
      exact readV6_gap (readGroups_done hv4 hgroup 8) (by decide) htail
  · have hrun := zeroes_isRun groups
    have hbound : (zeroes groups).start + (zeroes groups).len ≤ 8 := hlength ▸ hrun.1
    dsimp only
    split
    · next hlong =>
        have hlen : (groups.take (zeroes groups).start).length + (zeroes groups).len +
            (groups.drop ((zeroes groups).start + (zeroes groups).len)).length = 8 := by
          rw [List.length_take, List.length_drop, hlength]
          omega
        rw [readV6_run hlen hlong (fun n hn => hgroups n (List.mem_of_mem_take hn))
          (fun n hn => hgroups n (List.mem_of_mem_drop hn)) hrest, hrun.split]
    · next hshort =>
        have hall := readGroups_show hgroups hrest.stops (Nat.le_of_eq hlength)
        simp only [readV6, hall, hlength, if_true]

/-- Groups are no address of four octets. -/
theorem readV4_items {groups : List Nat} {rest : List Char} (hrest : Ends 16 rest)
    (hdot : rest.head? ≠ some '.') : readV4 (showItems ':' 16 groups ++ rest) = none := by
  cases groups with
  | nil => exact readV4_ends hrest
  | cons n groups =>
      rw [showItems, List.append_assoc]
      exact readV4_group n (ends_separator isDigit_colon groups hrest)
        (head_separator groups hdot)

theorem readV4_showV6 (groups : List Nat) {rest : List Char} (hrest : Closes rest) :
    readV4 (showV6 groups ++ rest) = none := by
  unfold showV6
  split
  · exact readV4_ends (stops_gap _).ends
  · dsimp only
    split
    · rw [List.append_assoc, List.append_assoc]
      exact readV4_items (stops_gap _).ends (stops_gap _).dot
    · exact readV4_items hrest.stops.ends hrest.stops.dot

end RoundTrip

end IpText
