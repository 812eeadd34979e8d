import SmartGuard.Crypto.Key
import SmartGuard.Session.PeerNet

/-!
# Building the sessions and the peer table

`buildSessions` registers the peers one after another and inserts the
AllowedIPs of each under the id it got. The resulting table answers with the
owner of an address: the last peer that lists the longest prefix of it.
-/

namespace SmartGuard

open LongestMatch

structure PeerConfig where
  publicKey : Key
  presharedKey : Option Key
  endpoint : Option SocketAddr
  allowedIps : List IpNet
  persistentKeepalive : Option Nat
  deriving DecidableEq

/-- The AllowedIPs that `run_tunnel` collects for the routes. -/
def allowedIps (peers : List PeerConfig) : List IpNet := peers.flatMap PeerConfig.allowedIps

/-- The endpoints that `run_tunnel` collects for the routes. -/
def peerEndpoints (peers : List PeerConfig) : List SocketAddr :=
  peers.filterMap PeerConfig.endpoint

structure StaticPeerConfig where
  key : Key
  presharedKey : Option Key
  endpoint : Option SocketAddr

/-- The configuration of `rustyguard_core`, which is not part of the source: it
registers a peer under a fresh id, and the sessions are made of it. -/
structure Registry (PeerId κ τ : Type) where
  sentinal : PeerId
  insertPeer : StaticPeerConfig → κ → PeerId × κ
  newWith : κ → τ

variable {PeerId κ τ : Type} (R : Registry PeerId κ τ) (I : Iptrie PeerId)

def PeerConfig.static (peer : PeerConfig) : StaticPeerConfig where
  key := peer.publicKey
  presharedKey := peer.presharedKey
  endpoint := peer.endpoint

/-- The loop over the peers: the configuration, the builder and the ids in order. -/
def addPeers : List PeerConfig → κ → PeerNetBuilder I → κ × PeerNetBuilder I × List PeerId
  | [], config, builder => (config, builder, [])
  | peer :: rest, config, builder =>
      let added := R.insertPeer peer.static config
      let filled := peer.allowedIps.foldl (fun b pfx => b.insert pfx added.1) builder
      let out := addPeers rest added.2 filled
      (out.1, out.2.1, added.1 :: out.2.2)

def buildSessions (config : κ) (peers : List PeerConfig) : τ × PeerNet I × List PeerId :=
  let out := addPeers R I peers config (.new R.sentinal)
  (R.newWith out.1, out.2.1.build, out.2.2)

section Owner

variable {R I}

/-- The lengths of the prefixes that contain an address. -/
def allowedLengths (peers : List (PeerConfig × PeerId)) (a : IpAddr) : List Nat :=
  ((peers.flatMap fun p => p.1.allowedIps).filter fun n => Covers n.dest a).map IpNet.prefixLen

/-- The peer lists a prefix of the given length that contains the address. -/
def Lists (p : PeerConfig × PeerId) (a : IpAddr) (m : Nat) : Prop :=
  ∃ n ∈ p.1.allowedIps, Covers n.dest a ∧ n.prefixLen = m

instance (p : PeerConfig × PeerId) (a : IpAddr) (m : Nat) : Decidable (Lists p a m) :=
  inferInstanceAs (Decidable (∃ n ∈ p.1.allowedIps, _))

/-- The last peer that lists the longest prefix of an address, or the sentinel if
no peer lists any. -/
def owner (sentinel : PeerId) (peers : List (PeerConfig × PeerId)) (a : IpAddr) : PeerId :=
  match (allowedLengths peers a).max? with
  | none => sentinel
  | some m => (((peers.filter fun p => Lists p a m).getLast?).map Prod.snd).getD sentinel

/-- The prefixes in the order the source inserts them. -/
def listings (peers : List (PeerConfig × PeerId)) : List (Dest × PeerId) :=
  peers.flatMap fun p => p.1.allowedIps.map fun n => (n.dest, p.2)

theorem mem_listings {peers : List (PeerConfig × PeerId)} {d : Dest} {id : PeerId} :
    (d, id) ∈ listings peers ↔ ∃ p ∈ peers, p.2 = id ∧ ∃ n ∈ p.1.allowedIps, n.dest = d := by
  simp only [listings, List.mem_flatMap, List.mem_map, Prod.mk.injEq]
  constructor
  · rintro ⟨p, hp, n, hn, hd, hid⟩
    exact ⟨p, hp, hid, n, hn, hd⟩
  · rintro ⟨p, hp, hid, n, hn, hd⟩
    exact ⟨p, hp, n, hn, hd, hid⟩

theorem mem_allowedLengths {peers : List (PeerConfig × PeerId)} {a : IpAddr} {m : Nat} :
    m ∈ allowedLengths peers a ↔ ∃ p ∈ peers, Lists p a m := by
  simp only [allowedLengths, List.mem_map, List.mem_filter, List.mem_flatMap,
    decide_eq_true_eq, Lists]
  constructor
  · rintro ⟨n, ⟨⟨p, hp, hn⟩, hcov⟩, hlen⟩
    exact ⟨p, hp, n, hn, hcov, hlen⟩
  · rintro ⟨p, hp, n, hn, hcov, hlen⟩
    exact ⟨n, ⟨⟨p, hp, hn⟩, hcov⟩, hlen⟩

/-- A network is the cut of an address at a length exactly when it contains the
address and has that length. -/
theorem IpNet.dest_eq_of_iff {n : IpNet} {a : IpAddr} {m : Nat} (hm : m ≤ a.family.width) :
    n.dest = Dest.of a m ↔ Covers n.dest a ∧ n.prefixLen = m := by
  have hcut : Covers (Dest.of a m) a := covers_cut (A := IpAddr) hm
  have hlen : (Dest.of a m).len = m := len_cut_of_le (A := IpAddr) hm
  constructor
  · intro h
    exact ⟨h ▸ hcut, n.len_dest.symm.trans (h ▸ hlen)⟩
  · rintro ⟨hcov, rfl⟩
    exact hcov.eq_of_len hcut (n.len_dest.trans hlen.symm)

/-- What one peer inserts at a key ends with its own id, if it lists the key at all. -/
theorem last_of_peer (p : PeerConfig × PeerId) {a : IpAddr} {m : Nat}
    (hm : m ≤ a.family.width) :
    (((p.1.allowedIps.map fun n => (n.dest, p.2)).filter
      fun q => q.1 = Dest.of a m).getLast?).map Prod.snd =
        if Lists p a m then some p.2 else none := by
  cases hlast : ((p.1.allowedIps.map fun n => (n.dest, p.2)).filter
      fun q => q.1 = Dest.of a m).getLast? with
  | none =>
      have hnot : ¬ Lists p a m := by
        rintro ⟨n, hn, hcov⟩
        have hmem : (n.dest, p.2) ∈ (p.1.allowedIps.map fun n => (n.dest, p.2)).filter
            fun q => q.1 = Dest.of a m :=
          List.mem_filter.mpr ⟨List.mem_map_of_mem hn,
            decide_eq_true ((IpNet.dest_eq_of_iff hm).mpr hcov)⟩
        rw [List.getLast?_eq_none_iff.mp hlast] at hmem
        exact List.not_mem_nil hmem
      rw [if_neg hnot, Option.map_none]
  | some q =>
      obtain ⟨hmem, hkey⟩ := List.mem_filter.mp (List.mem_of_getLast? hlast)
      obtain ⟨n, hn, rfl⟩ := List.mem_map.mp hmem
      have hlists : Lists p a m :=
        ⟨n, hn, (IpNet.dest_eq_of_iff hm).mp (of_decide_eq_true hkey)⟩
      rw [if_pos hlists, Option.map_some]

/-- If a list has an element with a property, it has a last one. -/
theorem exists_last {α : Type*} {l : List α} {p : α → Bool} {x : α} (hx : x ∈ l)
    (hp : p x = true) : ∃ y ∈ l, p y = true ∧ (l.filter p).getLast? = some y := by
  cases hlast : (l.filter p).getLast? with
  | none =>
      have hmem := List.mem_filter.mpr ⟨hx, hp⟩
      rw [List.getLast?_eq_none_iff.mp hlast] at hmem
      cases hmem
  | some y =>
      obtain ⟨hy, hpy⟩ := List.mem_filter.mp (List.mem_of_getLast? hlast)
      exact ⟨y, hy, hpy, rfl⟩

/-- The entries of one key end with the last peer that lists it. -/
theorem last_listing (peers : List (PeerConfig × PeerId)) {a : IpAddr} {m : Nat}
    (hm : m ≤ a.family.width) :
    (((listings peers).filter fun q => q.1 = Dest.of a m).getLast?).map Prod.snd =
      ((peers.filter fun p => Lists p a m).getLast?).map Prod.snd := by
  induction peers with
  | nil => rfl
  | cons p rest ih =>
      have hsplit : listings (p :: rest) =
          p.1.allowedIps.map (fun n => (n.dest, p.2)) ++ listings rest := rfl
      rw [hsplit, List.filter_append, List.getLast?_append, Option.map_or, ih, last_of_peer p hm,
        List.filter_cons]
      by_cases hp : Lists p a m
      · rw [if_pos hp, if_pos (decide_eq_true hp), List.getLast?_cons]
        cases (rest.filter fun p => Lists p a m).getLast? with
        | none => rfl
        | some q => rfl
      · rw [if_neg hp, if_neg (by simpa using hp), Option.or_none]

theorem root_mem (sentinel : PeerId) (f : Family) :
    (f.defaultDest, sentinel) ∈ PeerNetBuilder.roots sentinel := by
  cases f <;> simp [PeerNetBuilder.roots]

theorem len_of_mem_roots {sentinel : PeerId} {q : Dest × PeerId}
    (h : q ∈ PeerNetBuilder.roots sentinel) : q.1.len = 0 ∧ q.2 = sentinel := by
  revert q
  simp [PeerNetBuilder.roots]

/-- An entry that covers an address is a root or a prefix of the lengths listed for it. -/
theorem len_of_covers {sentinel : PeerId} {peers : List (PeerConfig × PeerId)} {a : IpAddr}
    {q : Dest × PeerId} (hq : q ∈ PeerNetBuilder.roots sentinel ++ listings peers)
    (hcov : Covers q.1 a) : q.1.len = 0 ∧ q.2 = sentinel ∨ q.1.len ∈ allowedLengths peers a := by
  rcases List.mem_append.mp hq with hroot | hlist
  · exact .inl (len_of_mem_roots hroot)
  · obtain ⟨p, hp, -, n, hn, hdest⟩ := mem_listings.mp hlist
    rw [← hdest] at hcov ⊢
    exact .inr (mem_allowedLengths.mpr ⟨p, hp, n, hn, hcov, n.len_dest.symm⟩)

/-- Where no listing covers an address, its longest match is the root of its family. -/
theorem lastLongest_of_unlisted {sentinel : PeerId} {peers : List (PeerConfig × PeerId)}
    {a : IpAddr} (hempty : allowedLengths peers a = []) :
    lastLongest (PeerNetBuilder.roots sentinel ++ listings peers) a = some sentinel := by
  have hroot := List.mem_append_left (listings peers) (root_mem sentinel a.family)
  have hlast : lastLongest (PeerNetBuilder.roots sentinel ++ listings peers) a = _ :=
    lastLongest_eq_of_longest hroot (Family.covers_defaultDest_iff.mpr rfl) fun q hq hcov => by
      rcases len_of_covers hq hcov with ⟨hlen, -⟩ | hmem
      · exact hlen.trans_le (Nat.zero_le _)
      · rw [hempty] at hmem
        cases hmem
  rw [hlast]
  obtain ⟨q, hq, hkey, hq'⟩ := exists_last
    (p := fun q : Dest × PeerId => decide (q.1 = a.family.defaultDest)) hroot (decide_eq_true rfl)
  have hcov : Covers q.1 a := by
    rw [of_decide_eq_true hkey]
    exact Family.covers_defaultDest_iff.mpr rfl
  rw [hq']
  rcases len_of_covers hq hcov with ⟨-, hid⟩ | hlen
  · exact congrArg some hid
  · rw [hempty] at hlen
    cases hlen

/-- Where prefixes of at most `m` bits are listed for an address, its longest match is the last
peer that lists one of `m` bits. -/
theorem lastLongest_of_listed {sentinel : PeerId} {peers : List (PeerConfig × PeerId)}
    {a : IpAddr} {m : Nat} (hmem : m ∈ allowedLengths peers a)
    (hle : ∀ k ∈ allowedLengths peers a, k ≤ m) :
    ∃ q, (peers.filter fun p => Lists p a m).getLast? = some q ∧
      lastLongest (PeerNetBuilder.roots sentinel ++ listings peers) a = some q.2 := by
  obtain ⟨p, hp, n, hn, hcov, hlen⟩ := mem_allowedLengths.mp hmem
  have hwidth : m ≤ a.family.width := by
    rw [← hlen, ← n.len_dest]
    exact hcov.len_le
  have hkey : n.dest = Dest.of a m := (IpNet.dest_eq_of_iff hwidth).mpr ⟨hcov, hlen⟩
  have hlast := lastLongest_eq_of_longest
    (List.mem_append_right (PeerNetBuilder.roots sentinel)
      (mem_listings.mpr ⟨p, hp, rfl, n, hn, rfl⟩)) hcov fun q hq hqcov => by
        rcases len_of_covers hq hqcov with ⟨hlen', -⟩ | hqmem
        · exact hlen'.trans_le (Nat.zero_le _)
        · exact (hle _ hqmem).trans_eq (hlen.symm.trans n.len_dest.symm)
  obtain ⟨q, -, -, hq⟩ := exists_last (p := fun p => decide (Lists p a m)) hp
    (decide_eq_true ⟨n, hn, hcov, hlen⟩)
  refine ⟨q, hq, ?_⟩
  rw [hlast]
  simp only [hkey]
  rw [List.filter_append, List.getLast?_append, Option.map_or, last_listing peers hwidth, hq]
  rfl

/-- Filling a table with the roots and then the listings makes the longest match of
an address its owner. -/
theorem lastLongest_roots_listings (sentinel : PeerId) (peers : List (PeerConfig × PeerId))
    (a : IpAddr) :
    lastLongest (PeerNetBuilder.roots sentinel ++ listings peers) a =
      some (owner sentinel peers a) := by
  unfold owner
  cases hmax : (allowedLengths peers a).max? with
  | none => exact lastLongest_of_unlisted (List.max?_eq_none_iff.mp hmax)
  | some m =>
      obtain ⟨hmem, hle⟩ := List.max?_eq_some_iff.mp hmax
      obtain ⟨q, hq, hlast⟩ := lastLongest_of_listed hmem hle
      rw [hlast]
      simp only [hq]
      rfl

theorem owner_eq_sentinel {sentinel : PeerId} {peers : List (PeerConfig × PeerId)} {a : IpAddr}
    (h : ∀ p ∈ peers, ∀ n ∈ p.1.allowedIps, ¬ Covers n.dest a) :
    owner sentinel peers a = sentinel := by
  have hnone : allowedLengths peers a = [] := by
    apply List.eq_nil_iff_forall_not_mem.mpr
    intro m hm
    obtain ⟨p, hp, n, hn, hcov, -⟩ := mem_allowedLengths.mp hm
    exact h p hp n hn hcov
  unfold owner
  rw [hnone]
  rfl

/-- An address inside some prefix is owned by one of the peers. -/
theorem owner_mem {sentinel : PeerId} {peers : List (PeerConfig × PeerId)} {a : IpAddr}
    {p : PeerConfig × PeerId} (hp : p ∈ peers) {n : IpNet} (hn : n ∈ p.1.allowedIps)
    (hcov : Covers n.dest a) : ∃ q ∈ peers, owner sentinel peers a = q.2 := by
  have hlists := mem_allowedLengths.mpr ⟨p, hp, n, hn, hcov, rfl⟩
  unfold owner
  cases hmax : (allowedLengths peers a).max? with
  | none =>
      rw [List.max?_eq_none_iff.mp hmax] at hlists
      cases hlists
  | some m =>
      obtain ⟨r, hr, hlists'⟩ := mem_allowedLengths.mp (List.max?_eq_some_iff.mp hmax).1
      obtain ⟨q, hq, -, hlast⟩ := exists_last (p := fun p => decide (Lists p a m)) hr
        (decide_eq_true hlists')
      refine ⟨q, hq, ?_⟩
      simp only [hlast, Option.map_some, Option.getD_some]

end Owner

section Builder

variable {R I}

theorem foldl_insert_entries (pfxs : List IpNet) (id : PeerId) (b : PeerNetBuilder I) :
    (pfxs.foldl (fun b pfx => b.insert pfx id) b).entries =
      insertAll b.entries (pfxs.map fun n => (n.dest, id)) := by
  induction pfxs generalizing b with
  | nil => rfl
  | cons n rest ih =>
      rw [List.foldl_cons, ih, PeerNetBuilder.entries_insert]
      rfl

theorem addPeers_length (peers : List PeerConfig) (config : κ) (b : PeerNetBuilder I) :
    (addPeers R I peers config b).2.2.length = peers.length := by
  induction peers generalizing config b with
  | nil => rfl
  | cons peer rest ih => exact congrArg Nat.succ (ih _ _)

theorem addPeers_ids (peers : List PeerConfig) (config : κ) (b : PeerNetBuilder I) :
    ∀ id ∈ (addPeers R I peers config b).2.2, ∃ peer conf, id = (R.insertPeer peer conf).1 := by
  induction peers generalizing config b with
  | nil => exact fun _ h => absurd h List.not_mem_nil
  | cons peer rest ih =>
      intro id hid
      rcases List.mem_cons.mp hid with rfl | hrest
      · exact ⟨_, _, rfl⟩
      · exact ih _ _ id hrest

theorem addPeers_entries (peers : List PeerConfig) (config : κ) (b : PeerNetBuilder I) :
    (addPeers R I peers config b).2.1.entries =
      insertAll b.entries (listings (peers.zip (addPeers R I peers config b).2.2)) := by
  induction peers generalizing config b with
  | nil => rfl
  | cons peer rest ih =>
      simp only [addPeers, List.zip_cons_cons]
      rw [ih, foldl_insert_entries, ← insertAll_append]
      rfl

/-- The peer table answers with the owner of each address. -/
theorem buildSessions_lookup (config : κ) (peers : List PeerConfig) (a : IpAddr) :
    (buildSessions R I config peers).2.1.lookup a =
      owner R.sentinal (peers.zip (buildSessions R I config peers).2.2) a := by
  have htable := addPeers_entries (R := R) peers config (.new R.sentinal : PeerNetBuilder I)
  rw [PeerNetBuilder.entries_new, ← insertAll_append] at htable
  apply Option.some.inj
  calc
    some ((buildSessions R I config peers).2.1.lookup a)
      = LongestMatch.lookup (addPeers R I peers config (.new R.sentinal)).2.1.entries a :=
        PeerNetBuilder.lookup_build _ a
    _ = lastLongest (PeerNetBuilder.roots R.sentinal ++
          listings (peers.zip (addPeers R I peers config (.new R.sentinal)).2.2)) a := by
        rw [htable, lookup_insertAll]
    _ = some (owner R.sentinal (peers.zip (buildSessions R I config peers).2.2) a) :=
        lastLongest_roots_listings _ _ a

/-- Each peer has an id. -/
theorem exists_id (config : κ) {peers : List PeerConfig} {peer : PeerConfig}
    (h : peer ∈ peers) :
    ∃ id, (peer, id) ∈ peers.zip (buildSessions R I config peers).2.2 := by
  have hlen : peers.length ≤ (buildSessions R I config peers).2.2.length :=
    (addPeers_length peers config (.new R.sentinal)).ge
  rw [← List.map_fst_zip hlen, List.mem_map] at h
  obtain ⟨⟨p, id⟩, hmem, rfl⟩ := h
  exact ⟨id, hmem⟩

/-- An address in some AllowedIPs prefix is looked up to the id of a peer. -/
theorem buildSessions_lookup_mem (config : κ) {peers : List PeerConfig} {n : IpNet}
    (hn : n ∈ allowedIps peers) {a : IpAddr} (hcov : Covers n.dest a) :
    (buildSessions R I config peers).2.1.lookup a ∈ (buildSessions R I config peers).2.2 := by
  obtain ⟨peer, hpeer, hlist⟩ := List.mem_flatMap.mp hn
  obtain ⟨id, hid⟩ := exists_id (R := R) (I := I) config hpeer
  obtain ⟨q, hq, howner⟩ := owner_mem hid hlist hcov
  rw [buildSessions_lookup, howner]
  exact (List.of_mem_zip hq).2

end Builder

section Sample

/-- A registry that numbers the peers. -/
def Registry.numbering : Registry (Option Nat) Nat Nat where
  sentinal := none
  insertPeer _ n := (some n, n + 1)
  newWith n := n

/-- The remote peer, through which everything goes. -/
def serverPeer : PeerConfig where
  publicKey := .replicate 7
  presharedKey := none
  endpoint := some serverEndpoint
  allowedIps := [.ofOctets .V4 [0, 0, 0, 0] 0]
  persistentKeepalive := none

end Sample

end SmartGuard
