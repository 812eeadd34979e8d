import SmartGuard.Route.Underlay
import SmartGuard.Session.Build

/-!
# The routes and the peer table agree

`setupRoutes` sends the AllowedIPs of all peers into the tunnel, and the peer
table decides there whose packet it is. Both are made of the same lists, the
routes by first add and the table by last insert, with a catch-all split into
halves on one side and replacing the root on the other.
-/

namespace SmartGuard

open LongestMatch StateLoop

/-- The halves of a family start with either bit. -/
theorem exists_half (f : Family) (first : Bool) :
    ∃ addr hle, (⟨f, addr, 1, hle⟩ : IpNet) ∈ halves f ∧ addr.msb = first := by
  cases f <;> cases first
  · exact ⟨_, _, List.mem_cons_self, by decide +kernel⟩
  · exact ⟨_, _, List.mem_cons_of_mem _ List.mem_cons_self, by decide +kernel⟩
  · exact ⟨_, _, List.mem_cons_self, by decide +kernel⟩
  · exact ⟨_, _, List.mem_cons_of_mem _ List.mem_cons_self, by decide +kernel⟩

/-- One of the two halves of a family contains each address of it. -/
theorem exists_half_covers (a : IpAddr) : ∃ h ∈ halves a.family, Covers h.dest a := by
  obtain ⟨f, bits⟩ := a
  obtain ⟨addr, hle, hmem, hmsb⟩ := exists_half f bits.msb
  refine ⟨_, hmem, Dest.covers_iff.mpr ?_⟩
  rw [IpNet.len_dest]
  exact congrArg (Dest.mk f) (Prefix.of_one_eq hmsb.symm)

/-- The length of the routes made of a prefix: a catch-all becomes two halves. -/
def tunnelLen (n : Nat) : Nat := if n = 0 then 1 else n

theorem prefixLen_of_mem_tunnelNets {n k : IpNet} (hk : k ∈ tunnelNets n) :
    k.prefixLen = tunnelLen n.prefixLen := by
  unfold tunnelNets at hk
  unfold tunnelLen
  split at hk
  · next hzero => rw [if_pos hzero, len_of_mem_halves hk]
  · next hzero => rw [if_neg hzero, List.mem_singleton.mp hk]

/-- Some route made of a prefix contains each address that the prefix contains. -/
theorem exists_tunnelNet {n : IpNet} {a : IpAddr} (hcov : Covers n.dest a) :
    ∃ k ∈ tunnelNets n, Covers k.dest a := by
  unfold tunnelNets
  split
  · have hfamily : n.family = a.family := Dest.family_eq_of_covers hcov
    rw [hfamily]
    exact exists_half_covers a
  · exact ⟨n, List.mem_singleton.mpr rfl, hcov⟩

/-- The routes made of a prefix contain no other address. -/
theorem covers_of_mem_tunnelNets {n k : IpNet} {a : IpAddr} (hk : k ∈ tunnelNets n)
    (hcov : Covers k.dest a) : Covers n.dest a := by
  by_cases hzero : n.prefixLen = 0
  · rw [IpNet.dest_eq_default hzero]
    apply Family.covers_defaultDest_iff.mpr
    exact (Dest.family_eq_of_covers hcov).symm.trans (family_of_mem_tunnelNets hk)
  · rw [tunnelNets, if_neg hzero, List.mem_singleton] at hk
    exact hk ▸ hcov

variable {σ : Type*} {K : Kernel σ}

section Capture

variable {tun : Token} {allowed : List IpNet} {eps : List SocketAddr} {s : σ}

/-- A bypass copies a next hop of the table, so no route leads into the tunnel before
the first tunnel route. -/
theorem beforeTunnel_ne_tunnel (hans : K.Answers)
    (hclean : ∀ d, K.table s d ≠ some (.interface tun)) (d : Dest) :
    K.table (beforeTunnel K allowed eps s) d ≠ some (.interface tun) := by
  intro hd
  by_cases hhost : ∃ ep ∈ eps, d = ep.ip.host
  · obtain ⟨ep, -, rfl⟩ := hhost
    have hlookup := lookup_of_full (a := ep.ip) hd
    rw [beforeTunnel_lookup hans] at hlookup
    obtain ⟨k, -, hk, -⟩ := lookup_eq_some_iff.mp hlookup
    exact hclean k hk
  · rw [beforeTunnel_frame hans allowed eps s fun ep hep heq => hhost ⟨ep, hep, heq⟩] at hd
    exact hclean d hd

/-- An AllowedIPs prefix of an address takes it into the tunnel, unless it is an
endpoint or has a route at least as long already. -/
theorem setupRoutes_captures (hans : K.Answers) (hadd : K.AddsSucceed) {a : IpAddr} {n : IpNet}
    (hn : n ∈ allowed) (hcov : Covers n.dest a) (hep : ∀ ep ∈ eps, ep.ip ≠ a)
    (hshort : ∀ d, Covers d a → K.table s d ≠ none → d.len < tunnelLen n.prefixLen) :
    lookup (K.table (setupRoutes K tun allowed eps s).2) a = some (.interface tun) := by
  obtain ⟨k, hk, hkcov⟩ := exists_tunnelNet hcov
  have hklen : k.dest.len = tunnelLen n.prefixLen :=
    k.len_dest.trans (prefixLen_of_mem_tunnelNets hk)
  have hpresent := addNets_present hadd tun (List.mem_flatMap.mpr ⟨n, hn, hk⟩)
    (beforeTunnel K allowed eps s)
  rw [setupRoutes_state]
  refine (addNets_tunneled tun _ _).captures hkcov hpresent ?_
  intro d hd hle
  have hhost : ∀ ep ∈ eps, d ≠ ep.ip.host := by
    intro ep hmem heq
    rw [heq] at hd
    exact hep ep hmem (IpAddr.covers_host_iff.mp hd).symm
  rw [beforeTunnel_frame hans allowed eps s hhost]
  by_contra hother
  exact absurd (hshort d hd hother) (not_lt.mpr (hklen ▸ hle))

/-- An address that is taken into the tunnel lies in some AllowedIPs prefix. -/
theorem exists_allowed_of_captured (hans : K.Answers)
    (hclean : ∀ d, K.table s d ≠ some (.interface tun)) {a : IpAddr}
    (h : lookup (K.table (setupRoutes K tun allowed eps s).2) a = some (.interface tun)) :
    ∃ n ∈ allowed, Covers n.dest a := by
  obtain ⟨d, hcov, hd, -⟩ := lookup_eq_some_iff.mp h
  rw [setupRoutes_state] at hd
  have hmem : d ∈ (allowed.flatMap tunnelNets).map IpNet.dest := by
    by_contra hnot
    rw [(addNets_tunneled tun _ _).frame d hnot] at hd
    exact beforeTunnel_ne_tunnel hans hclean d hd
  obtain ⟨k, hk, rfl⟩ := List.mem_map.mp hmem
  obtain ⟨n, hn, hkn⟩ := List.mem_flatMap.mp hk
  exact ⟨n, hn, covers_of_mem_tunnelNets hkn hcov⟩

theorem setupRoutes_grows : Grows (K.table s) (K.table (setupRoutes K tun allowed eps s).2) :=
  (beforeTunnel_grows allowed eps s).trans (addNets_tunneled tun _ _).grows

end Capture

variable {PeerId κ τ : Type} {R : Registry PeerId κ τ} {I : Iptrie PeerId}

/-- After `setupRoutes` the kernel sends an address into the tunnel for the prefixes
that the peer table knows, and keeps every route it had. -/
theorem setupRoutes_agrees_with_peerNet (hans : K.Answers) (hadd : K.AddsSucceed) (tun : Token)
    (hfresh : ∀ c conf, (R.insertPeer c conf).1 ≠ R.sentinal) (config : κ)
    (peers : List PeerConfig) (s : σ) (hclean : ∀ d, K.table s d ≠ some (.interface tun)) :
    let up := (setupRoutes K tun (allowedIps peers) (peerEndpoints peers) s).2
    let built := buildSessions R I config peers
    (∀ a, ∀ n ∈ allowedIps peers, Covers n.dest a →
      (∀ m ∈ allowedIps peers, Covers m.dest a → m.prefixLen ≤ n.prefixLen) →
      (∀ ep ∈ peerEndpoints peers, ep.ip ≠ a) →
      (∀ d, Covers d a → K.table s d ≠ none → d.len < tunnelLen n.prefixLen) →
      lookup (K.table up) a = some (.interface tun)) ∧
    (∀ a, lookup (K.table up) a = some (.interface tun) →
      built.2.1.lookup a ∈ built.2.2 ∧ built.2.1.lookup a ≠ R.sentinal) ∧
    (∀ d hop, K.table s d = some hop → K.table up d = some hop) := by
  intro up built
  refine ⟨fun a n hn hcov _ hep hshort => ?_, fun a ha => ?_, setupRoutes_grows⟩
  · exact setupRoutes_captures hans hadd hn hcov hep hshort
  · obtain ⟨n, hn, hcov⟩ := exists_allowed_of_captured hans hclean ha
    have hmem := buildSessions_lookup_mem (R := R) (I := I) config hn hcov
    obtain ⟨peer, conf, hid⟩ := addPeers_ids peers config (.new R.sentinal) _ hmem
    refine ⟨hmem, ?_⟩
    rw [hid]
    exact hfresh peer conf

section Sample

/-- With a catch-all a public address goes into the tunnel, to the peer. -/
theorem catchall_agrees_with_peerNet :
    lookup (setupRoutes Kernel.ideal utun5 (allowedIps [serverPeer]) (peerEndpoints [serverPeer])
      (homeTable, ())).2.1 (probe .V4) = some (.interface utun5) ∧
    (buildSessions .numbering (.table _) 0 [serverPeer]).2.1.lookup (probe .V4) ∈
      (buildSessions .numbering (.table _) 0 [serverPeer]).2.2 := by
  have hclean : ∀ d, homeTable d ≠ some (.interface utun5) := by
    intro d
    unfold homeTable
    split
    · cases d.family <;> nofun
    · nofun
  have hagrees := setupRoutes_agrees_with_peerNet (R := .numbering) (I := .table _)
    Kernel.ideal_answers Kernel.ideal_addsSucceed utun5 (fun _ _ => nofun) 0 [serverPeer]
    (homeTable, ()) hclean
  obtain ⟨hcapture, hpeer, -⟩ := hagrees
  have hup := hcapture (probe .V4) (.ofOctets .V4 [0, 0, 0, 0] 0) (by decide) (by decide +kernel)
    (by decide) (by decide) ?_
  · exact ⟨hup, (hpeer _ hup).1⟩
  · intro d _ hd
    have hlen : d.len = 0 := by
      by_contra hlen
      exact hd (if_neg hlen)
    rw [hlen]
    decide

end Sample

end SmartGuard
