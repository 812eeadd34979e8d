import Mathlib.Logic.Equiv.Basic
import SmartGuard.Session.Build

/-!
# The order of the configuration

The peer table is filled by inserts that overwrite, one peer after another. The
order of the peers and of their prefixes shows only at the prefixes that several
peers list, and so only at the addresses of which such a prefix is the longest.
-/

namespace SmartGuard

open LongestMatch

variable {peers peers' : List PeerConfig}

/-- The peer at a position lists a prefix, its host bits masked. -/
def ListedAt (peers : List PeerConfig) (d : Dest) (i : Fin peers.length) : Prop :=
  ∃ n ∈ peers[i].allowedIps, n.dest = d

/-- Two different peers list the prefix. -/
def Shared (peers : List PeerConfig) (d : Dest) : Prop :=
  ∃ i j, i ≠ j ∧ ListedAt peers d i ∧ ListedAt peers d j

/-- The longest prefix of an address that some peer lists. -/
structure LongestListed (peers : List PeerConfig) (a : IpAddr) (d : Dest) : Prop where
  covers : Covers d a
  listed : ∃ i, ListedAt peers d i
  longest : ∀ e i, Covers e a → ListedAt peers e i → e.len ≤ d.len

/-- The second list has the peers of the first at the positions that `e` gives them, each
with the same prefixes in any order and number. -/
def Reorders (e : Fin peers.length ≃ Fin peers'.length) : Prop :=
  ∀ i d, ListedAt peers' d (e i) ↔ ListedAt peers d i

section Reorders

variable {e : Fin peers.length ≃ Fin peers'.length}

theorem reorders_of_mem_iff
    (h : ∀ i n, n ∈ peers'[e i].allowedIps ↔ n ∈ peers[i].allowedIps) : Reorders e := by
  intro i d
  simp only [ListedAt, h]

theorem Reorders.exists_iff (h : Reorders e) {d : Dest} :
    (∃ j, ListedAt peers' d j) ↔ ∃ i, ListedAt peers d i := by
  constructor
  · rintro ⟨j, hj⟩
    refine ⟨e.symm j, (h _ d).mp ?_⟩
    rwa [Equiv.apply_symm_apply]
  · rintro ⟨i, hi⟩
    exact ⟨e i, (h i d).mpr hi⟩

theorem Reorders.longestListed (h : Reorders e) {a : IpAddr} {d : Dest}
    (hd : LongestListed peers a d) : LongestListed peers' a d where
  covers := hd.covers
  listed := h.exists_iff.mpr hd.listed
  longest k j hk hj := by
    obtain ⟨i, hi⟩ := h.exists_iff.mp ⟨j, hj⟩
    exact hd.longest k i hk hi

end Reorders

section Owner

variable {PeerId : Type} {ids : List PeerId}

theorem exists_index {p : PeerConfig × PeerId} (hp : p ∈ peers.zip ids) :
    ∃ i : Fin peers.length, peers[i] = p.1 ∧ ids[(i : Nat)]? = some p.2 := by
  obtain ⟨i, hi, hget⟩ := List.getElem_of_mem hp
  rw [List.getElem_zip] at hget
  have hlen : i < peers.length ∧ i < ids.length := by
    rw [List.length_zip] at hi
    omega
  refine ⟨⟨i, hlen.1⟩, congrArg Prod.fst hget, ?_⟩
  rw [List.getElem?_eq_getElem hlen.2]
  exact congrArg some (congrArg Prod.snd hget)

theorem exists_mem_zip (hlen : ids.length = peers.length) (i : Fin peers.length) :
    ∃ id, (peers[i], id) ∈ peers.zip ids := by
  have hi : (i : Nat) < ids.length := by
    rw [hlen]
    exact i.isLt
  have hzip : (i : Nat) < (peers.zip ids).length := by
    rw [List.length_zip]
    exact lt_min i.isLt hi
  have hget : (peers.zip ids)[(i : Nat)] = (peers[i], ids[(i : Nat)]) := List.getElem_zip
  exact ⟨ids[(i : Nat)], hget ▸ List.getElem_mem hzip⟩

/-- A length listed for an address is that of a prefix of it that the peer lists. -/
theorem listedAt_of_lists {p : PeerConfig × PeerId} {a : IpAddr} {m : Nat} (h : Lists p a m)
    {i : Fin peers.length} (hi : peers[i] = p.1) :
    ∃ d, ListedAt peers d i ∧ Covers d a ∧ d.len = m := by
  obtain ⟨n, hn, hcov, hlen⟩ := h
  exact ⟨n.dest, ⟨n, hi ▸ hn, rfl⟩, hcov, n.len_dest.trans hlen⟩

theorem lists_of_listedAt {d : Dest} {a : IpAddr} (hcov : Covers d a) {i : Fin peers.length}
    (h : ListedAt peers d i) (id : PeerId) : Lists (peers[i], id) a d.len := by
  obtain ⟨n, hn, rfl⟩ := h
  exact ⟨n, hn, hcov, n.len_dest.symm⟩

/-- Where no peer lists a prefix of an address, the sentinel owns it. -/
theorem owner_of_unlisted {sentinel : PeerId} {a : IpAddr}
    (h : ∀ d, Covers d a → ∀ i, ¬ ListedAt peers d i) :
    owner sentinel (peers.zip ids) a = sentinel := by
  apply owner_eq_sentinel
  intro p hp n hn hcov
  obtain ⟨i, hi, -⟩ := exists_index hp
  exact h n.dest hcov i ⟨n, hi ▸ hn, rfl⟩

/-- Otherwise the owner is one of the peers that list the longest prefix of the address. -/
theorem owner_of_longestListed (hlen : ids.length = peers.length) (sentinel : PeerId)
    {a : IpAddr} {d : Dest} (h : LongestListed peers a d) :
    ∃ i : Fin peers.length, ListedAt peers d i ∧
      ids[(i : Nat)]? = some (owner sentinel (peers.zip ids) a) := by
  have hmax : (allowedLengths (peers.zip ids) a).max? = some d.len := by
    apply List.max?_eq_some_iff.mpr
    constructor
    · obtain ⟨i, hi⟩ := h.listed
      obtain ⟨id, hid⟩ := exists_mem_zip hlen i
      exact mem_allowedLengths.mpr ⟨_, hid, lists_of_listedAt h.covers hi id⟩
    · intro k hk
      obtain ⟨p, hp, hlists⟩ := mem_allowedLengths.mp hk
      obtain ⟨i, hi, -⟩ := exists_index hp
      obtain ⟨l, hl, hcov, rfl⟩ := listedAt_of_lists hlists hi
      exact h.longest l i hcov hl
  obtain ⟨p, hp, hlists⟩ := mem_allowedLengths.mp (List.max?_eq_some_iff.mp hmax).1
  obtain ⟨q, hq, hlists', hlast⟩ := exists_last (p := fun p => decide (Lists p a d.len)) hp
    (decide_eq_true hlists)
  obtain ⟨i, hi, hid⟩ := exists_index hq
  obtain ⟨l, hl, hcov, hlen'⟩ := listedAt_of_lists (of_decide_eq_true hlists') hi
  obtain rfl : l = d := hcov.eq_of_len h.covers hlen'
  refine ⟨i, hl, ?_⟩
  rw [hid, owner, hmax]
  simp only [hlast, Option.map_some, Option.getD_some]

/-- The prefixes listed for an address have a longest, if there are any. -/
theorem unlisted_or_longestListed (hlen : ids.length = peers.length) (a : IpAddr) :
    (∀ d, Covers d a → ∀ i, ¬ ListedAt peers d i) ∨ ∃ d, LongestListed peers a d := by
  have hmem : ∀ d i, Covers d a → ListedAt peers d i →
      d.len ∈ allowedLengths (peers.zip ids) a := by
    intro d i hcov hi
    obtain ⟨id, hid⟩ := exists_mem_zip hlen i
    exact mem_allowedLengths.mpr ⟨_, hid, lists_of_listedAt hcov hi id⟩
  cases hmax : (allowedLengths (peers.zip ids) a).max? with
  | none =>
      left
      intro d hcov i hi
      have hin := hmem d i hcov hi
      rw [List.max?_eq_none_iff.mp hmax] at hin
      cases hin
  | some m =>
      right
      obtain ⟨hm, hle⟩ := List.max?_eq_some_iff.mp hmax
      obtain ⟨p, hp, hlists⟩ := mem_allowedLengths.mp hm
      obtain ⟨i, hi, -⟩ := exists_index hp
      obtain ⟨d, hd, hcov, rfl⟩ := listedAt_of_lists hlists hi
      exact ⟨d, hcov, ⟨i, hd⟩, fun k j hk hj => hle _ (hmem k j hk hj)⟩

end Owner

section SamePeer

variable {PeerId κ τ : Type} {R : Registry PeerId κ τ} {I : Iptrie PeerId}
  {e : Fin peers.length ≃ Fin peers'.length} {config config' : κ}

/-- The id is that of the peer at a position, and of no other. -/
def NamesPeer (ids : List PeerId) (id : PeerId) (i : Nat) : Prop :=
  ∀ j, ids[j]? = some id ↔ j = i

/-- Two lookups name the same peer, at its positions in the two lists, or the sentinel. -/
def SamePeer (e : Fin peers.length ≃ Fin peers'.length) (sentinel : PeerId)
    (ids ids' : List PeerId) (id id' : PeerId) : Prop :=
  id = sentinel ∧ id' = sentinel ∨
    ∃ i : Fin peers.length, NamesPeer ids id i ∧ NamesPeer ids' id' (e i)

theorem namesPeer_of_nodup {ids : List PeerId} (hids : ids.Nodup) {id : PeerId} {i : Nat}
    (h : ids[i]? = some id) : NamesPeer ids id i := by
  intro j
  constructor
  · intro hj
    have hlt : j < ids.length := (List.getElem?_eq_some_iff.mp hj).1
    exact (List.getElem?_inj hlt hids).mp (hj.trans h.symm)
  · rintro rfl
    exact h

/-- Where the longest prefix of an address is not shared, its lookup does not depend on the
order. -/
theorem samePeer_of_not_shared (hreorder : Reorders e)
    (hids : (buildSessions R I config peers).2.2.Nodup)
    (hids' : (buildSessions R I config' peers').2.2.Nodup) {a : IpAddr}
    (h : ∀ d, LongestListed peers a d → ¬ Shared peers d) :
    SamePeer e R.sentinal (buildSessions R I config peers).2.2
      (buildSessions R I config' peers').2.2
      ((buildSessions R I config peers).2.1.lookup a)
      ((buildSessions R I config' peers').2.1.lookup a) := by
  have hlen : (buildSessions R I config peers).2.2.length = peers.length :=
    addPeers_length peers config _
  have hlen' : (buildSessions R I config' peers').2.2.length = peers'.length :=
    addPeers_length peers' config' _
  rw [buildSessions_lookup, buildSessions_lookup]
  rcases unlisted_or_longestListed hlen a with hnone | ⟨d, hd⟩
  · left
    refine ⟨owner_of_unlisted hnone, owner_of_unlisted fun d hcov j hj => ?_⟩
    obtain ⟨i, hi⟩ := hreorder.exists_iff.mp ⟨j, hj⟩
    exact hnone d hcov i hi
  · right
    obtain ⟨i, hi, hid⟩ := owner_of_longestListed hlen R.sentinal hd
    obtain ⟨j, hj, hid'⟩ :=
      owner_of_longestListed hlen' R.sentinal (hreorder.longestListed hd)
    -- the two owners list one prefix, so they are one peer
    have hji : j = e i := by
      by_contra hne
      have hback : e.symm j ≠ i := fun heq => hne (heq ▸ (e.apply_symm_apply j).symm)
      refine h d hd ⟨e.symm j, i, hback, (hreorder _ d).mp ?_, hi⟩
      rwa [Equiv.apply_symm_apply]
    subst hji
    exact ⟨i, namesPeer_of_nodup hids hid, namesPeer_of_nodup hids' hid'⟩

end SamePeer

variable {PeerId κ τ : Type} {R : Registry PeerId κ τ} {I : Iptrie PeerId}
  {e : Fin peers.length ≃ Fin peers'.length} {config config' : κ}

/-- If no prefix is shared, the peer table names the same peer for every address in whatever
order peers and prefixes are listed; otherwise the order decides only the addresses whose
longest listed prefix is shared. -/
theorem buildSessions_order (hreorder : Reorders e)
    (hids : (buildSessions R I config peers).2.2.Nodup)
    (hids' : (buildSessions R I config' peers').2.2.Nodup) :
    ((∀ d, ¬ Shared peers d) → ∀ a,
      SamePeer e R.sentinal (buildSessions R I config peers).2.2
        (buildSessions R I config' peers').2.2
        ((buildSessions R I config peers).2.1.lookup a)
        ((buildSessions R I config' peers').2.1.lookup a)) ∧
    ∀ a, ¬ SamePeer e R.sentinal (buildSessions R I config peers).2.2
        (buildSessions R I config' peers').2.2
        ((buildSessions R I config peers).2.1.lookup a)
        ((buildSessions R I config' peers').2.1.lookup a) →
      ∃ d, LongestListed peers a d ∧ Shared peers d := by
  constructor
  · intro hnone a
    exact samePeer_of_not_shared hreorder hids hids' fun d _ => hnone d
  · intro a hdiffer
    by_contra hnone
    apply hdiffer
    apply samePeer_of_not_shared hreorder hids hids'
    intro d hd hshared
    exact hnone ⟨d, hd, hshared⟩

section Sample

/-- A second peer, for one private network. -/
def officePeer : PeerConfig where
  publicKey := .replicate 8
  presharedKey := none
  endpoint := none
  allowedIps := [.ofOctets .V4 [10, 0, 0, 0] 8]
  persistentKeepalive := none

/-- The two peers, and the two swapped. -/
def serverFirst : List PeerConfig := [serverPeer, officePeer]
def officeFirst : List PeerConfig := [officePeer, serverPeer]

def swapPeers : Fin serverFirst.length ≃ Fin officeFirst.length :=
  Equiv.swap (0 : Fin 2) (1 : Fin 2)

theorem swapPeers_reorders : Reorders swapPeers := by
  apply reorders_of_mem_iff
  intro i n
  match i with
  | ⟨0, _⟩ => exact Iff.rfl
  | ⟨1, _⟩ => exact Iff.rfl

theorem serverFirst_not_shared (d : Dest) : ¬ Shared serverFirst d := by
  rintro ⟨i, j, hne, ⟨n, hn, rfl⟩, m, hm, hsame⟩
  revert hsame
  match i, j with
  | ⟨0, _⟩, ⟨0, _⟩ => exact absurd rfl hne
  | ⟨1, _⟩, ⟨1, _⟩ => exact absurd rfl hne
  | ⟨0, _⟩, ⟨1, _⟩ =>
      obtain rfl := List.mem_singleton.mp hn
      obtain rfl := List.mem_singleton.mp hm
      decide +kernel
  | ⟨1, _⟩, ⟨0, _⟩ =>
      obtain rfl := List.mem_singleton.mp hn
      obtain rfl := List.mem_singleton.mp hm
      decide +kernel

/-- Whichever of the two comes first, an address of the office is the office's. -/
theorem buildSessions_order_office :
    SamePeer swapPeers none
      (buildSessions Registry.numbering (Iptrie.table _) 0 serverFirst).2.2
      (buildSessions Registry.numbering (Iptrie.table _) 0 officeFirst).2.2
      ((buildSessions Registry.numbering (Iptrie.table _) 0 serverFirst).2.1.lookup
        (.ofOctets .V4 [10, 1, 2, 3]))
      ((buildSessions Registry.numbering (Iptrie.table _) 0 officeFirst).2.1.lookup
        (.ofOctets .V4 [10, 1, 2, 3])) :=
  (buildSessions_order (R := Registry.numbering) (I := Iptrie.table _) swapPeers_reorders
    (by decide) (by decide)).1 serverFirst_not_shared _

end Sample

end SmartGuard
