import Mathlib.Tactic.NormNum
import SmartGuard.Library.IpText
import SmartGuard.Net.Address

/-!
# Addresses as texts

The program hands addresses to the system's tools as texts, as the standard library prints
them. What it writes is read back as the same address, so a text stands for what it was
written for. What the tools print is split into lines as the standard library does it.
-/

namespace SmartGuard

open IpText Numeral

abbrev Text := List Char

section Lines

/-- Remove the carriage return at the end of a line. -/
def stripReturn (line : Text) : Text :=
  if line.getLast? = some '\r' then line.dropLast else line

/-- The lines of a text, of which the last one need not end. -/
def lines (text : Text) : List Text :=
  let pieces := text.splitOn '\n'
  pieces.dropLast.map stripReturn ++ (pieces.getLast?.filter fun last => last ≠ []).toList

/-- Write the lines, each with its end. -/
def unlines (ls : List Text) : Text := ls.flatMap fun l => l ++ ['\n']

end Lines

section Show

/-- The parts that an address is written in: four octets or eight groups. -/
def Family.parts : Family → Nat
  | .V4 => 4
  | .V6 => 8

def Family.partBase : Family → Nat
  | .V4 => 256
  | .V6 => 65536

def IpAddr.parts (ip : IpAddr) : List Nat :=
  word ip.family.partBase ip.family.parts ip.bits.toNat

def IpAddr.show (ip : IpAddr) : Text :=
  match ip.family with
  | .V4 => showV4 ip.parts
  | .V6 => showV6 ip.parts

end Show

section Read

/-- Read an address in front of a text. -/
def IpAddr.read (text : Text) : Option (IpAddr × Text) :=
  match readV4 text with
  | some (octets, rest) => some (⟨.V4, BitVec.ofNat 32 (unword 256 octets)⟩, rest)
  | none =>
      (readV6 text).map fun out => (⟨.V6, BitVec.ofNat 128 (unword 65536 out.1)⟩, out.2)

/-- The whole text is an address. -/
def IpAddr.parse (text : Text) : Option IpAddr :=
  match IpAddr.read text with
  | some (ip, []) => some ip
  | _ => none

end Read

section RoundTrip

theorem Family.partBase_pow (f : Family) : f.partBase ^ f.parts = 2 ^ f.width := by
  cases f with
  | V4 => norm_num [Family.partBase, Family.parts]
  | V6 => norm_num [Family.partBase, Family.parts]

theorem IpAddr.bits_of_parts (ip : IpAddr) :
    BitVec.ofNat ip.family.width (unword ip.family.partBase ip.parts) = ip.bits := by
  have hsize : ip.bits.toNat < ip.family.partBase ^ ip.family.parts := by
    rw [ip.family.partBase_pow]
    exact ip.bits.isLt
  rw [IpAddr.parts, unword_word hsize, BitVec.ofNat_toNat, BitVec.setWidth_eq]

theorem IpAddr.part_lt (ip : IpAddr) : ∀ n ∈ ip.parts, n < ip.family.partBase :=
  lt_of_mem_word (by cases ip.family <;> decide) _ _

theorem IpAddr.readV4_show (bits : BitVec 32) {rest : List Char} (hrest : Ends 10 rest) :
    readV4 (IpAddr.show ⟨.V4, bits⟩ ++ rest) = some (IpAddr.parts ⟨.V4, bits⟩, rest) := by
  obtain ⟨a, b, c, d, hfour⟩ : ∃ a b c d, IpAddr.parts ⟨.V4, bits⟩ = [a, b, c, d] :=
    ⟨_, _, _, _, rfl⟩
  have hparts := IpAddr.part_lt ⟨.V4, bits⟩
  rw [IpAddr.show, hfour]
  rw [hfour] at hparts
  exact IpText.readV4_show hparts hrest

theorem IpAddr.readV6_show (bits : BitVec 128) {rest : List Char} (hrest : Closes rest) :
    readV6 (IpAddr.show ⟨.V6, bits⟩ ++ rest) = some (IpAddr.parts ⟨.V6, bits⟩, rest) :=
  IpText.readV6_show (length_word _ _ _) (IpAddr.part_lt ⟨.V6, bits⟩) hrest

/-- An address is read back from its text. -/
theorem IpAddr.read_show (ip : IpAddr) {rest : List Char} (hrest : Closes rest) :
    IpAddr.read (ip.show ++ rest) = some (ip, rest) := by
  have hbits := ip.bits_of_parts
  obtain ⟨family, bits⟩ := ip
  cases family with
  | V4 =>
      rw [IpAddr.read, IpAddr.readV4_show bits (ends_decimal hrest.stops.ends)]
      exact congrArg (fun b => some (IpAddr.mk .V4 b, rest)) hbits
  | V6 =>
      have hnot : readV4 (IpAddr.show ⟨.V6, bits⟩ ++ rest) = none :=
        readV4_showV6 _ hrest
      rw [IpAddr.read, hnot, IpAddr.readV6_show bits hrest]
      exact congrArg (fun b => some (IpAddr.mk .V6 b, rest)) hbits

theorem closes_nil : Closes [] := fun _ hc => nomatch hc

theorem closes_slash (rest : List Char) : Closes ('/' :: rest) := by
  intro c hc
  obtain rfl : c = '/' := (Option.some.inj hc).symm
  decide

/-- The text of an address is that address and no other. -/
theorem IpAddr.parse_show (ip : IpAddr) : IpAddr.parse ip.show = some ip := by
  have hread := ip.read_show closes_nil
  rw [List.append_nil] at hread
  rw [IpAddr.parse, hread]

end RoundTrip

end SmartGuard
