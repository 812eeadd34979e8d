import Mathlib.Data.List.Basic

/-!
# Keys

Public keys and shared secrets are 32 bytes. A card may return more or fewer;
the source takes the first 32 and rejects what is too short or all zero.
-/

namespace SmartGuard

/-- A key of 32 bytes. -/
structure Key where
  bytes : List UInt8
  length_bytes : bytes.length = 32
  deriving DecidableEq

/-- The key of 32 equal bytes. -/
def Key.replicate (byte : UInt8) : Key := ⟨List.replicate 32 byte, List.length_replicate⟩

/-- The first 32 bytes, if there are that many. -/
def firstChunk (bytes : List UInt8) : Option Key :=
  if h : 32 ≤ bytes.length then some ⟨bytes.take 32, List.length_take_of_le h⟩ else none

/-- The zero test of the source: fold the bytes with `or` and compare. -/
def Key.isZero (k : Key) : Bool := k.bytes.foldl (· ||| ·) 0 == 0

theorem isSome_firstChunk_iff {bytes : List UInt8} :
    (firstChunk bytes).isSome ↔ 32 ≤ bytes.length := by
  unfold firstChunk
  split
  · next h => exact iff_of_true rfl h
  · next h => exact iff_of_false nofun h

theorem firstChunk_key (pk : Key) : firstChunk pk.bytes = some pk := by
  obtain ⟨bytes, hlength⟩ := pk
  have htake : bytes.take 32 = bytes := List.take_of_length_le (Nat.le_of_eq hlength)
  simp only [firstChunk, hlength, Nat.le_refl, dite_true, htake]

end SmartGuard
