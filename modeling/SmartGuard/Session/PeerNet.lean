import SmartGuard.Net.Address

/-!
# The peer table of cryptokey routing

`PeerNetBuilder` fills one radix trie for each family and `build` compresses
both into a `PeerNet`. The tries come from the `iptrie` crate, which is not part
of the source: they appear as an `Iptrie` with the behaviour its documentation
promises. The session layer that hands out the peer ids is likewise outside.

## Implementation notes

The source hands a prefix to the trie by printing and parsing it. Both crates
read the same notation and the parsed prefix has its host bits cleared, so the
model passes `Prefix.of` the address and the length.
-/

namespace SmartGuard

open LongestMatch

/-- The radix tries of the `iptrie` crate, which always hold an entry at the
root, and the compressed tries made of them. -/
structure Iptrie (V : Type) where
  RTrieMap : Family → Type
  LCTrieMap : Family → Type
  withRoot : (f : Family) → V → RTrieMap f
  insert : {f : Family} → RTrieMap f → Prefix f.width → V → RTrieMap f
  compress : {f : Family} → RTrieMap f → LCTrieMap f
  lookup : {f : Family} → LCTrieMap f → BitVec f.width → Prefix f.width × V
  entries : {f : Family} → RTrieMap f → Table (Prefix f.width) V
  entries_withRoot : ∀ f v,
    entries (withRoot f v) = Function.update (fun _ => none) (Prefix.of 0 0) (some v)
  entries_insert : ∀ {f} (t : RTrieMap f) p v,
    entries (insert t p v) = Function.update (entries t) p (some v)
  lookup_compress : ∀ {f} (t : RTrieMap f) (a : BitVec f.width),
    some (lookup (compress t) a) = longest (entries t) a

/-- Tables with a root entry behave as the tries do. -/
def Iptrie.table (V : Type) : Iptrie V where
  RTrieMap f := {T : Table (Prefix f.width) V // T (Prefix.of 0 0) ≠ none}
  LCTrieMap f := {T : Table (Prefix f.width) V // T (Prefix.of 0 0) ≠ none}
  withRoot f v := ⟨Function.update (fun _ => none) (Prefix.of 0 0) (some v), by simp⟩
  insert t p v := ⟨Function.update t.1 p (some v), by
    rw [Function.update_apply]
    split
    · exact Option.some_ne_none v
    · exact t.2⟩
  compress t := t
  lookup t a := (longest t.1 a).get (by
    rw [Option.isSome_iff_ne_none]
    intro h
    refine t.2 (longest_eq_none_iff.mp h _ ?_)
    exact Prefix.of_zero _ _)
  entries t := t.1
  entries_withRoot _ _ := rfl
  entries_insert _ _ _ := rfl
  lookup_compress _ _ := Option.some_get _

variable {PeerId : Type} {I : Iptrie PeerId}

structure PeerNet (I : Iptrie PeerId) where
  v4 : I.LCTrieMap .V4
  v6 : I.LCTrieMap .V6

/-- The peer that owns an address, or the sentinel at the root. -/
def PeerNet.lookup (net : PeerNet I) : IpAddr → PeerId
  | ⟨.V4, bits⟩ => (I.lookup net.v4 bits).2
  | ⟨.V6, bits⟩ => (I.lookup net.v6 bits).2

structure PeerNetBuilder (I : Iptrie PeerId) where
  v4 : I.RTrieMap .V4
  v6 : I.RTrieMap .V6

namespace PeerNetBuilder

def new (sentinel : PeerId) : PeerNetBuilder I where
  v4 := I.withRoot .V4 sentinel
  v6 := I.withRoot .V6 sentinel

def insert (b : PeerNetBuilder I) (pfx : IpNet) (id : PeerId) : PeerNetBuilder I :=
  match pfx with
  | ⟨.V4, addr, len, _⟩ => { b with v4 := I.insert b.v4 (Prefix.of addr len) id }
  | ⟨.V6, addr, len, _⟩ => { b with v6 := I.insert b.v6 (Prefix.of addr len) id }

def build (b : PeerNetBuilder I) : PeerNet I where
  v4 := I.compress b.v4
  v6 := I.compress b.v6

/-- The entries of both tries as one table of destinations. -/
def entries (b : PeerNetBuilder I) : Table Dest PeerId
  | ⟨.V4, p⟩ => I.entries b.v4 p
  | ⟨.V6, p⟩ => I.entries b.v6 p

theorem entries_insert (b : PeerNetBuilder I) (pfx : IpNet) (id : PeerId) :
    (b.insert pfx id).entries = Function.update b.entries pfx.dest (some id) := by
  ext d : 1
  obtain ⟨f, p⟩ := d
  obtain ⟨g, addr, len, hlen⟩ := pfx
  cases f <;> cases g <;>
    simp [insert, entries, I.entries_insert, IpNet.dest, Function.update_apply]

/-- The roots of the two tries. -/
def roots (sentinel : PeerId) : List (Dest × PeerId) :=
  [(Family.V4.defaultDest, sentinel), (Family.V6.defaultDest, sentinel)]

theorem entries_new (sentinel : PeerId) :
    (new sentinel : PeerNetBuilder I).entries =
      insertAll (fun _ => none) (roots sentinel) := by
  ext d : 1
  obtain ⟨f, p⟩ := d
  cases f <;>
    simp [new, entries, I.entries_withRoot, roots, Family.defaultDest, Function.update_apply]

/-- Building a table compresses it and changes no match. -/
theorem lookup_build (b : PeerNetBuilder I) (a : IpAddr) :
    some (b.build.lookup a) = LongestMatch.lookup b.entries a := by
  have htrie : ∀ {f : Family} (t : I.RTrieMap f) (bits : BitVec f.width),
      some (I.lookup (I.compress t) bits).2 = LongestMatch.lookup (I.entries t) bits := by
    intro f t bits
    unfold LongestMatch.lookup
    rw [← I.lookup_compress]
    rfl
  obtain ⟨f, bits⟩ := a
  cases f with
  | V4 =>
      exact (htrie b.v4 bits).trans
        (lookup_comp b.entries (Dest.mk .V4) rfl fun _ => rfl)
  | V6 =>
      exact (htrie b.v6 bits).trans
        (lookup_comp b.entries (Dest.mk .V6) rfl fun _ => rfl)

end PeerNetBuilder

end SmartGuard
