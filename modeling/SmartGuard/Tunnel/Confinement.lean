import SmartGuard.Route.DeadEnd
import SmartGuard.Tunnel.Lifecycle

/-!
# What the tunnel takes, it keeps

Start-up takes addresses into the tunnel, either for an AllowedIPs prefix or because the
device has no address of the family. From then on the program moves host routes of endpoints
only, and the others leave the recorded routes alone. So an address that the tunnel takes over
every route of the host stays in it for as long as the host has no route that is as specific,
and nothing leaks while bypasses are torn down and moved, whether these moves succeed or not.

## Implementation notes

An address is taken by a prefix of the tunnel that is longer than every route that the host has
for the address without the program, and longer than the networks that a family without an
address of the device spares. In such a family the halves of the address space take the
addresses that are in no spared network and have no specific route, and no others.
-/

namespace SmartGuard

open LongestMatch StateLoop

section Taken

/-- The prefixes that lead into the tunnel: those of the AllowedIPs, and the halves of a family
that the device has no address of. -/
def tunnelPrefixes (allowed tunAddrs : List IpNet) (family : Family) : List IpNet :=
  allowed.flatMap tunnelNets ++
    if tunAddrs.any (fun n => n.family = family) then [] else halves family

/-- A prefix takes an address over all routes of a table and over the exempt networks. -/
structure Outranks (T : RouteTable) (tunAddrs : List IpNet) (a : IpAddr) (n : IpNet) : Prop where
  covers : Covers n.dest a
  routes : ∀ d, Covers d a → T d ≠ none → d.len < n.prefixLen
  exemptions : tunAddrs.any (fun m => m.family = a.family) = false →
    ∀ e ∈ blackholeExemptions a.family, Covers e.dest a → e.prefixLen < n.prefixLen

/-- An address that the configuration takes into the tunnel on a host with this table. -/
def Taken (T : RouteTable) (allowed tunAddrs : List IpNet) (a : IpAddr) : Prop :=
  ∃ n ∈ tunnelPrefixes allowed tunAddrs a.family, Outranks T tunAddrs a n

/-- Where the longest prefix is present and everything that is as long leads to one next hop, the
address goes there. -/
theorem lookup_eq_of_longest {T : RouteTable} {a : IpAddr} {k : Dest} {hop : NextHop}
    (hcov : Covers k a) (hpresent : T k ≠ none)
    (hlong : ∀ d, Covers d a → k.len ≤ d.len → T d = none ∨ T d = some hop) :
    lookup T a = some hop := by
  obtain ⟨via, hroute⟩ : ∃ via, lookup T a = some via := by
    apply Option.ne_none_iff_exists'.mp
    intro hnone
    exact hpresent (lookup_eq_none_iff.mp hnone k hcov)
  obtain ⟨d, hd, hval, hlonger⟩ := lookup_eq_some_iff.mp hroute
  have hle : k.len ≤ d.len := by
    by_contra hlt
    exact hpresent (hlonger k hcov (Nat.lt_of_not_le hlt))
  rcases hlong d hd hle with hnone | hhop
  · rw [hnone] at hval
    cases hval
  · rw [hroute, ← hval, hhop]

/-- Of the prefixes that take an address in two tables, the longer one takes it in both. -/
theorem Taken.both {T U : RouteTable} {allowed tunAddrs : List IpNet} {a : IpAddr}
    (hT : Taken T allowed tunAddrs a) (hU : Taken U allowed tunAddrs a) :
    ∃ n ∈ tunnelPrefixes allowed tunAddrs a.family,
      Outranks T tunAddrs a n ∧ Outranks U tunAddrs a n := by
  obtain ⟨n, hn, houtT⟩ := hT
  obtain ⟨m, hm, houtU⟩ := hU
  rcases Nat.le_total n.prefixLen m.prefixLen with hle | hle
  · refine ⟨m, hm, ⟨houtU.covers, ?_, houtU.exemptions⟩, houtU⟩
    exact fun d hd hpresent => (houtT.routes d hd hpresent).trans_le hle
  · refine ⟨n, hn, houtT, ⟨houtT.covers, ?_, houtT.exemptions⟩⟩
    exact fun d hd hpresent => (houtU.routes d hd hpresent).trans_le hle

end Taken

section StartUp

variable {σ : Type*} {K : Kernel σ}

/-- What start-up may record beside the tunnel's own prefixes: host routes of endpoints, and the
networks that a family without an address spares. -/
def Belongs (eps : List SocketAddr) (tunAddrs : List IpNet) : AddedRoute → Prop
  | .net _ _ => True
  | .host ip _ => IsEndpoint eps ip
  | .passthrough n => tunAddrs.any (fun m => m.family = n.family) = false ∧
      n ∈ blackholeExemptions n.family

variable {tun : Token} {allowed tunAddrs : List IpNet} {eps : List SocketAddr}

theorem installEndpointBypass_belongs (family : Family) (s : σ) :
    ∀ r ∈ (installEndpointBypass K eps family s).1, Belongs eps tunAddrs r := by
  refine forall_mem_collect ?_ s
  intro ep hep t r hr
  obtain ⟨hop, -, info, -, rfl, -⟩ := (bypassEndpoint_installs family ep t).pushed hr
  exact ⟨ep, hep, rfl⟩

theorem addNets_belongs (nets : List IpNet) (s : σ) :
    ∀ r ∈ (collect (addNet K tun) nets s).1, Belongs eps tunAddrs r := by
  refine forall_mem_collect ?_ s
  intro n _ t r hr
  obtain ⟨hop, rfl, -⟩ := (addNet_installs tun n t).pushed hr
  exact trivial

theorem installPassthroughs_belongs {family : Family}
    (hfamily : tunAddrs.any (fun m => m.family = family) = false) (s : σ) :
    ∀ r ∈ (installPassthroughs K family s).1, Belongs eps tunAddrs r := by
  unfold installPassthroughs
  simp only
  split
  · exact fun r hr => absurd hr List.not_mem_nil
  · split
    · exact fun r hr => absurd hr List.not_mem_nil
    · next info _ =>
        refine forall_mem_collect ?_ _
        intro n hn t r hr
        obtain ⟨hop, rfl, -⟩ := (passthroughNet_installs info n t).pushed hr
        have hown := family_of_mem_exemptions hn
        exact ⟨hown ▸ hfamily, hown ▸ hn⟩

/-- Start-up makes host entries of endpoints only, and spares networks of the families that the
device has no address of only. -/
theorem startUp_belongs (tun : Token) (allowed : List IpNet) (eps : List SocketAddr)
    (tunAddrs : List IpNet) (s : σ) :
    ∀ r ∈ (startUp K tun allowed eps tunAddrs s).1, Belongs eps tunAddrs r := by
  have hsetup : ∀ r ∈ (setupRoutes K tun allowed eps s).1, Belongs eps tunAddrs r := by
    have hbypass : ∀ family t, ∀ r ∈ (if hasCatchall allowed family then
        installEndpointBypass K eps family t else ([], t)).1, Belongs eps tunAddrs r := by
      intro family t
      split
      · exact installEndpointBypass_belongs family t
      · exact fun r hr => absurd hr List.not_mem_nil
    exact List.forall_mem_append.mpr ⟨List.forall_mem_append.mpr
      ⟨hbypass .V4 s, hbypass .V6 _⟩, addNets_belongs _ _⟩
  have hfamily : ∀ family t,
      ∀ r ∈ (if tunAddrs.any (fun m => m.family = family) then ([], t)
        else setupUnconfiguredFamily K family tun eps t).1, Belongs eps tunAddrs r := by
    intro family t
    split
    · exact fun r hr => absurd hr List.not_mem_nil
    · next hnone =>
        exact List.forall_mem_append.mpr ⟨List.forall_mem_append.mpr
          ⟨installEndpointBypass_belongs family t,
            installPassthroughs_belongs (Bool.eq_false_iff.mpr hnone) _⟩, addNets_belongs _ _⟩
  exact List.forall_mem_append.mpr
    ⟨List.forall_mem_append.mpr ⟨hsetup, hfamily .V4 _⟩, hfamily .V6 _⟩

/-- A record of a prefix of the tunnel is of a route into it. -/
def Tunnels (tun : Token) (r : AddedRoute) (hop : NextHop) : Prop :=
  Proper r hop ∧ ∀ n name, r = .net n name → hop = .interface tun

theorem admits_tunnels (tun : Token) : Admits tun (Tunnels tun) where
  net n hn := ⟨(admits_proper tun).net n hn, fun _ _ _ => rfl⟩
  host ip info hop _ := ⟨proper_host ip info.gateway hop, nofun⟩
  passthrough n hop hn := ⟨(admits_proper tun).passthrough n hop hn, nofun⟩

/-- A recorded destination of an address that is no endpoint leads into the tunnel, unless it is
shorter than an exempt network. -/
theorem startUp_recorded_tunnel {s : σ} {a : IpAddr} (hep : ¬ IsEndpoint eps a) {d : Dest}
    (hcov : Covers d a)
    (hexempt : tunAddrs.any (fun m => m.family = a.family) = false →
      ∀ e ∈ blackholeExemptions a.family, Covers e.dest a → e.prefixLen < d.len)
    (hmem : d ∈ (startUp K tun allowed eps tunAddrs s).1.map AddedRoute.dest) :
    K.table (startUp K tun allowed eps tunAddrs s).2 d = some (.interface tun) ∧
      ∀ ip, some ip ∈ (startUp K tun allowed eps tunAddrs s).1.map AddedRoute.hostIp →
        d ≠ ip.host := by
  have hestablished := startUp_established (K := K) (fun _ _ h => h.1) (admits_tunnels tun)
    allowed eps tunAddrs s
  have hbelongs := startUp_belongs (K := K) tun allowed eps tunAddrs s
  have hhost : ∀ ip, some ip ∈ (startUp K tun allowed eps tunAddrs s).1.map AddedRoute.hostIp →
      d ≠ ip.host := by
    rintro ip hip rfl
    obtain ⟨r, hr, hname⟩ := List.mem_map.mp hip
    cases r with
    | host ip' stored =>
        obtain rfl := Option.some.inj hname
        obtain rfl := IpAddr.covers_host_iff.mp hcov
        exact hep (hbelongs _ hr)
    | net pfx name => cases hname
    | passthrough pfx => cases hname
  refine ⟨?_, hhost⟩
  obtain ⟨r, hr, rfl⟩ := List.mem_map.mp hmem
  cases r with
  | host ip stored => exact absurd rfl (hhost ip (List.mem_map_of_mem hr))
  | net pfx name =>
      obtain ⟨hop, ⟨-, htun⟩, htable⟩ := hestablished.hops _ hr
      rw [htable, htun pfx name rfl]
  | passthrough pfx =>
      obtain ⟨hnone, hspared⟩ := hbelongs _ hr
      have hfamily : pfx.family = a.family := Dest.family_eq_of_covers hcov
      rw [hfamily] at hnone hspared
      have hlt := hexempt hnone pfx hspared hcov
      rw [AddedRoute.dest_passthrough, IpNet.len_dest] at hlt
      exact absurd hlt (Nat.lt_irrefl _)

end StartUp

section Run

/-- A recheck changes the table at the host routes of its host entries only. -/
theorem recheckRoutes_frame_hosts {σ : Type} {K : Kernel σ} {routes : List AddedRoute} {d : Dest}
    (h : ∀ ip, some ip ∈ routes.map AddedRoute.hostIp → d ≠ ip.host) (s : σ) :
    K.table (recheckRoutes K routes s).2 d = K.table s d := by
  have hone : ∀ r ∈ routes, ∀ t, K.table (recheckRoute K (currentGateways K s) r t).2 d =
      K.table t d := by
    intro r hr t
    cases r with
    | host ip stored =>
        have hmem : some ip ∈ routes.map AddedRoute.hostIp := List.mem_map.mpr ⟨_, hr, rfl⟩
        exact recheckRoute_frame _ (h ip hmem) t
    | net pfx tun => rfl
    | passthrough pfx => rfl
  rw [recheckRoutes_eq]
  calc
    K.table (mapState (recheckRoute K (currentGateways K s)) routes (afterQueries K s)).2 d =
        K.table (afterQueries K s) d :=
      mapState_rel (R := fun s t => K.table t d = K.table s d) (fun _ => rfl)
        (fun h₁ h₂ => h₂.trans h₁) hone _
    _ = K.table s d := congrFun (table_afterQueries s) d

/-- A recorded route that is no host route stays as it is. -/
theorem Life.table_eq {σ : Type} {K : Kernel σ} {s t : σ} {routes rs : List AddedRoute}
    {T U : RouteTable} (life : Life K s routes T t rs U) {d : Dest}
    (hmem : d ∈ routes.map AddedRoute.dest) (hlen : d.len ≠ 0)
    (hhost : ∀ ip, some ip ∈ routes.map AddedRoute.hostIp → d ≠ ip.host) :
    K.table t d = K.table s d ∧ rs.map AddedRoute.dest = routes.map AddedRoute.dest ∧
      rs.map AddedRoute.hostIp = routes.map AddedRoute.hostIp := by
  induction life with
  | start => exact ⟨rfl, rfl, rfl⟩
  | environment change run spares table ih =>
      obtain ⟨hbefore, hdests, hhosts⟩ := ih
      refine ⟨?_, hdests, hhosts⟩
      rw [table, changed_of_none (spares d (hdests ▸ hmem) hlen)]
      exact hbefore
  | @recheck t rs U run ih =>
      obtain ⟨hbefore, hdests, hhosts⟩ := ih
      refine ⟨?_, (recheckRoutes_dests _ _).trans hdests,
        (mapState_map (recheckRoute_hostIp _) _ _).trans hhosts⟩
      rw [← hhosts] at hhost
      exact (recheckRoutes_frame_hosts hhost t).trans hbefore

variable {PeerId κ τ σ ω : Type} [DecidableEq PeerId]

/-- In every state that the loop reaches an address leads into the tunnel if the configuration
takes it over the routes that the host had before and over those that it would have now, and
the prefixes of the tunnel for it were added when the tunnel came up. Peer endpoints are the
exception. -/
theorem taken_throughout {g : Setting PeerId κ τ σ ω} {now t : Nat} {routes : σ} {world : ω}
    {a : IpAddr} (hep : ¬ IsEndpoint (peerEndpoints g.peers) a)
    (added : ∀ n ∈ tunnelPrefixes (allowedIps g.peers) g.tunAddrs a.family, Covers n.dest a →
      g.kernel.table (launch g now routes world).2.routes n.dest ≠ none)
    (before : Taken (g.kernel.table routes) (allowedIps g.peers) g.tunAddrs a)
    {U : RouteTable} {st : LoopState PeerId τ σ ω}
    (run : Beside (launch g now routes world).1 now (launch g now routes world).2
      (g.kernel.table routes) t st U)
    (today : Taken U (allowedIps g.peers) g.tunAddrs a) :
    lookup (g.kernel.table st.routes) a = some (.interface g.tunName) := by
  let up := startUp g.kernel g.tunName (allowedIps g.peers) (peerEndpoints g.peers) g.tunAddrs
    routes
  have hlife : Life g.kernel up.2 up.1 (g.kernel.table routes) st.routes st.addedRoutes U :=
    run.life
  have hrecords : Records g.kernel routes up.1 up.2 := startUp_records g.kernel _ _ _ _ routes
  have hnow : Reversible g.kernel st.routes st.addedRoutes U :=
    hlife.reversible hrecords.reversible
  obtain ⟨n, hn, houtT, houtU⟩ := before.both today
  have hpresent : g.kernel.table up.2 n.dest ≠ none := added n hn houtT.covers
  have hrecorded : n.dest ∈ up.1.map AddedRoute.dest := by
    -- the prefix was absent before, so start-up has added it
    by_contra hnot
    rw [hrecords.frame _ hnot] at hpresent
    have hlt := houtT.routes n.dest houtT.covers hpresent
    rw [IpNet.len_dest] at hlt
    exact Nat.lt_irrefl _ hlt
  have htunnel : ∀ d, Covers d a → n.dest.len ≤ d.len → d ∈ up.1.map AddedRoute.dest →
      g.kernel.table st.routes d = some (.interface g.tunName) ∧
        st.addedRoutes.map AddedRoute.dest = up.1.map AddedRoute.dest := by
    intro d hcov hle hmem
    rw [IpNet.len_dest] at hle
    have hexempt := fun hnone e he hcov => (houtT.exemptions hnone e he hcov).trans_le hle
    obtain ⟨htable, hhost⟩ := startUp_recorded_tunnel hep hcov hexempt hmem
    have hproper : d.len ≠ 0 := hrecords.reversible.proper d hmem
    obtain ⟨hsame, hdests, -⟩ := hlife.table_eq hmem hproper hhost
    exact ⟨hsame.trans htable, hdests⟩
  obtain ⟨hin, hdests⟩ := htunnel n.dest houtT.covers (Nat.le_refl _) hrecorded
  refine lookup_eq_of_longest houtT.covers (by rw [hin]; exact Option.some_ne_none _) ?_
  intro d hcov hle
  by_cases hmem : d ∈ up.1.map AddedRoute.dest
  · exact .inr (htunnel d hcov hle hmem).1
  · -- a route that is not recorded is the host's own, which is shorter
    refine .inl ?_
    by_contra hthere
    rw [← hdests] at hmem
    rw [hnow.agree d hmem] at hthere
    have hlt := houtU.routes d hcov hthere
    rw [← IpNet.len_dest] at hlt
    exact absurd hle (Nat.not_le.mpr hlt)

/-- The other network: its router, and a route of its own to `10.20.0.0/16`. -/
def cafeChange : RouteChange := fun d =>
  if d = (IpNet.ofOctets .V4 [10, 20, 0, 0] 16).dest then some (some (.interface en0))
  else defaultChange (routedBy cafeRouter) d

/-- A public address stays in the tunnel when the laptop moves to another network and the
next tick has passed. -/
theorem public_address_throughout :
    let up := launch (behindServer [serverPeer]) 0 (homeTable, ()) ()
    let moved : LoopState (Option Nat) Nat (RouteTable × Unit) Unit :=
      { up.2 with routes := (changed up.2.routes.1 cafeChange, ()) }
    lookup (onTick up.1 1 moved).1.routes.1 (probe .V4) = some (.interface utun5) := by
  intro up moved
  have spares : cafeChange.Spares (up.2.addedRoutes.map AddedRoute.dest) := by
    have hrecorded : up.2.addedRoutes.map AddedRoute.dest = [serverIp.host,
        (IpNet.ofOctets .V4 [0, 0, 0, 0] 1).dest, (IpNet.ofOctets .V4 [128, 0, 0, 0] 1).dest] := by
      decide +kernel
    rw [hrecorded, RouteChange.Spares]
    decide +kernel
  have hmove : Beside up.1 0 up.2 homeTable 0 moved (changed homeTable cafeChange) :=
    .environment cafeChange .start (Nat.le_refl 0) spares rfl rfl
  have hnext : step up.1 1 .tick moved =
      some ((onTick up.1 1 moved).1, (onTick up.1 1 moved).2) := rfl
  have run : Beside up.1 0 up.2 homeTable 1 (onTick up.1 1 moved).1
      (changed homeTable cafeChange) := by
    apply hmove.step (Nat.zero_le 1) ?_ hnext
    intro routes h
    cases h
  have taken : ∀ T : RouteTable, (∀ d, Covers d (probe .V4) → T d ≠ none → d.len = 0) →
      Taken T (allowedIps [serverPeer]) dualStack (probe .V4) := by
    intro T hshort
    refine ⟨.ofOctets .V4 [0, 0, 0, 0] 1, by decide +kernel, by decide +kernel, ?_, by decide⟩
    intro d hcov hpresent
    rw [hshort d hcov hpresent]
    exact Nat.one_pos
  have before : ∀ d, Covers d (probe .V4) → homeTable d ≠ none → d.len = 0 :=
    fun d _ hpresent => homeTable_len hpresent
  have today : ∀ d, Covers d (probe .V4) → changed homeTable cafeChange d ≠ none → d.len = 0 := by
    intro d hcov hpresent
    by_contra hlen
    apply hpresent
    have hne : d ≠ (IpNet.ofOctets .V4 [10, 20, 0, 0] 16).dest := by
      rintro rfl
      exact absurd hcov (by decide +kernel)
    rw [changed_of_none ((if_neg hne).trans (defaultChange_of_ne _ hlen))]
    exact if_neg hlen
  have outside : ¬ IsEndpoint (peerEndpoints [serverPeer]) (probe .V4) := by
    rintro ⟨ep, hmem, heq⟩
    obtain rfl : ep = serverEndpoint := List.mem_singleton.mp hmem
    exact absurd heq (by decide)
  have added : ∀ n ∈ tunnelPrefixes (allowedIps [serverPeer]) dualStack .V4,
      Covers n.dest (probe .V4) → up.2.routes.1 n.dest ≠ none := by
    decide +kernel
  refine taken_throughout (g := behindServer [serverPeer]) outside ?_ ?_ run (taken _ today)
  · exact added
  · exact taken _ before

end Run

end SmartGuard
