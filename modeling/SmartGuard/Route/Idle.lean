import SmartGuard.Route.Interface

/-!
# A recheck while the network stays the same

Start-up asks the kernel for the route of each endpoint, a recheck compares with the
default route. The two agree on an endpoint exactly if its own route and the default one
go through the same gateway, or through none, and only then does the recheck leave the
bypass alone.
-/

namespace SmartGuard

open LongestMatch StateLoop

variable {σ : Type*} {K : Kernel σ}

section Recorded

/-- A record of a host route names the gateway of its next hop, and none is of a default
route. -/
def Sincere (r : AddedRoute) (hop : NextHop) : Prop :=
  Proper r hop ∧ ∀ ip gw, r = .host ip gw → hop.viaGateway = gw

theorem admits_sincere (tun : Token) : Admits tun Sincere where
  net n hn := ⟨(admits_proper tun).net n hn, nofun⟩
  host ip info hop hhop := by
    refine ⟨proper_host ip info.gateway hop, ?_⟩
    intro i gw heq
    obtain ⟨-, rfl⟩ := AddedRoute.host.inj heq
    exact (RouteInfo.gateway_eq hhop).symm
  passthrough n hop hn := ⟨(admits_proper tun).passthrough n hop hn, nofun⟩

/-- After start-up the record of a bypass says through which gateway the kernel sends it. -/
theorem startUp_sincere (tun : Token) (allowed : List IpNet) (eps : List SocketAddr)
    (tunAddrs : List IpNet) (s : σ) {ip : IpAddr} {gw : Option Token}
    (hmem : .host ip gw ∈ (startUp K tun allowed eps tunAddrs s).1) :
    ∃ hop, K.table (startUp K tun allowed eps tunAddrs s).2 ip.host = some hop ∧
      hop.viaGateway = gw := by
  obtain ⟨hop, ⟨-, hvia⟩, htable⟩ := (startUp_established (K := K) (fun _ _ h => h.1)
    (admits_sincere tun) allowed eps tunAddrs s).hops _ hmem
  exact ⟨hop, htable, hvia ip gw rfl⟩

end Recorded

section Source

/-- Every bypass of the list that goes through a gateway copies the route of its address. -/
def Copied (T : RouteTable) (routes : List AddedRoute) : Prop :=
  ∀ ip g, .host ip (some g) ∈ routes → lookup T ip = some (.gateway g)

theorem Copied.append {T : RouteTable} {as bs : List AddedRoute} (ha : Copied T as)
    (hb : Copied T bs) : Copied T (as ++ bs) := by
  intro ip g hmem
  rcases List.mem_append.mp hmem with h | h
  · exact ha ip g h
  · exact hb ip g h

theorem bypassEndpoint_copied (hans : K.Answers) (family : Family) (ep : SocketAddr) (s : σ) :
    Copied (K.table s) (bypassEndpoint K family ep s).1.toList := by
  have hinst := bypassEndpoint_installs (K := K) family ep s
  generalize bypassEndpoint K family ep s = out at hinst ⊢
  cases hinst with
  | unchanged same => exact nofun
  | added hP absent table =>
      obtain ⟨-, info, hinfo, rfl, hhop⟩ := hP
      obtain ⟨hop, hlookup, hhop'⟩ := hans.answer hinfo
      intro ip g hmem
      obtain ⟨rfl, hg⟩ := AddedRoute.host.inj (List.mem_singleton.mp hmem)
      rw [RouteInfo.gateway_eq hhop'] at hg
      cases hop with
      | gateway gw =>
          obtain rfl := Option.some.inj hg
          exact hlookup
      | interface iface => cases hg

/-- From `s` to `t` no lookup changes, and the bypasses that are pushed copy the routes
of `s`. -/
structure Copies (K : Kernel σ) (s : σ) (routes : List AddedRoute) (t : σ) : Prop where
  lookups : ∀ a : IpAddr, lookup (K.table t) a = lookup (K.table s) a
  copied : Copied (K.table s) routes

theorem copies_composes : Composes (Copies K) where
  refl s := ⟨fun _ => rfl, nofun⟩
  trans h₁ h₂ := by
    refine ⟨fun a => (h₂.lookups a).trans (h₁.lookups a), h₁.copied.append ?_⟩
    intro ip g hmem
    exact (h₁.lookups ip).symm.trans (h₂.copied ip g hmem)

/-- A bypass phase copies the routes of the table before it. -/
theorem installEndpointBypass_copies (hans : K.Answers) (eps : List SocketAddr)
    (family : Family) (s : σ) :
    Copies K s (installEndpointBypass K eps family s).1
      (installEndpointBypass K eps family s).2 := by
  apply copies_composes.collect
  intro ep hep t
  exact ⟨(bypassEndpoint_bypassed hans hep t).lookups, bypassEndpoint_copied hans family ep t⟩

/-- A bypass phase pushes bypasses of its own family. -/
theorem installEndpointBypass_family (eps : List SocketAddr) (family : Family) (s : σ) :
    ∀ r ∈ (installEndpointBypass K eps family s).1, ∀ ip gw, r = .host ip gw →
      ip.family = family := by
  apply forall_mem_collect
  intro ep _ t r hr ip gw heq
  obtain ⟨hop, hfamily, info, -, rfl, -⟩ := (bypassEndpoint_installs family ep t).pushed hr
  obtain ⟨rfl, -⟩ := AddedRoute.host.inj heq
  exact hfamily

/-- A list of other records than host routes copies nothing. -/
theorem copied_of_no_host {T : RouteTable} {routes : List AddedRoute}
    (h : ∀ r ∈ routes, ∀ ip gw, r ≠ .host ip gw) : Copied T routes :=
  fun ip g hmem => absurd rfl (h _ hmem ip (some g))

theorem addNets_copied (T : RouteTable) (tun : Token) (nets : List IpNet) (s : σ) :
    Copied T (collect (addNet K tun) nets s).1 := by
  apply copied_of_no_host
  apply forall_mem_collect
  intro n _ t r hr
  obtain ⟨hop, rfl, -⟩ := (addNet_installs tun n t).pushed hr
  exact nofun

theorem installPassthroughs_copied (T : RouteTable) (family : Family) (s : σ) :
    Copied T (installPassthroughs K family s).1 := by
  unfold installPassthroughs
  simp only
  split
  · exact nofun
  · split
    · exact nofun
    · next info _ =>
        apply copied_of_no_host
        apply forall_mem_collect
        intro n _ t r hr
        obtain ⟨hop, rfl, -⟩ := (passthroughNet_installs info n t).pushed hr
        exact nofun

/-- A tunnel phase invents no gateway. -/
theorem Tunneled.lookup_gateway {tun : Token} {nets : List IpNet} {s t : σ}
    (h : Tunneled K tun nets s t) {a : IpAddr} {g : Token}
    (hroute : lookup (K.table t) a = some (.gateway g)) :
    lookup (K.table s) a = some (.gateway g) := by
  obtain ⟨k, hk, hval, hlonger⟩ := lookup_eq_some_iff.mp hroute
  refine lookup_eq_some_iff.mpr ⟨k, hk, ?_, fun l hl hlt => ?_⟩
  · rcases h.hop k with same | ⟨-, hop⟩
    · rw [← same]
      exact hval
    · cases hop.symm.trans hval
  · by_contra hpresent
    exact h.grows.ne_none hpresent (hlonger l hl hlt)

theorem setupRoutes_gateway (hans : K.Answers) {tun : Token} {allowed : List IpNet}
    {eps : List SocketAddr} {s : σ} {a : IpAddr} {g : Token}
    (h : lookup (K.table (setupRoutes K tun allowed eps s).2) a = some (.gateway g)) :
    lookup (K.table s) a = some (.gateway g) := by
  rw [setupRoutes_state] at h
  rw [← beforeTunnel_lookup hans allowed eps s]
  exact (addNets_tunneled tun _ _).lookup_gateway h

theorem bypassPhase_copies (hans : K.Answers) (allowed : List IpNet) (eps : List SocketAddr)
    (family : Family) (s : σ) :
    Copies K s
      (if hasCatchall allowed family then installEndpointBypass K eps family s else ([], s)).1
      (bypassPhase K allowed eps family s) := by
  unfold bypassPhase
  split
  · exact installEndpointBypass_copies hans eps family s
  · exact copies_composes.refl s

theorem setupRoutes_copied (hans : K.Answers) (tun : Token) (allowed : List IpNet)
    (eps : List SocketAddr) (s : σ) : Copied (K.table s) (setupRoutes K tun allowed eps s).1 :=
  (copies_composes.trans (bypassPhase_copies hans allowed eps .V4 s)
    (bypassPhase_copies hans allowed eps .V6 _)).copied.append (addNets_copied _ tun _ _)

/-- The set-up of an unconfigured family copies routes of the first table, if the state it
starts from has no other gateway for the addresses of the family. -/
theorem setupUnconfiguredFamily_copied (hans : K.Answers) {T : RouteTable} {family : Family}
    (tun : Token) (eps : List SocketAddr) {s : σ}
    (hfrom : ∀ (a : IpAddr) g, a.family = family →
      lookup (K.table s) a = some (.gateway g) → lookup T a = some (.gateway g)) :
    Copied T (setupUnconfiguredFamily K family tun eps s).1 := by
  refine Copied.append (Copied.append ?_ (installPassthroughs_copied T family _))
    (addNets_copied T tun _ _)
  intro ip g hmem
  apply hfrom ip g (installEndpointBypass_family eps family s _ hmem ip (some g) rfl)
  exact (installEndpointBypass_copies hans eps family s).copied ip g hmem

/-- Every bypass of start-up that goes through a gateway copies the route that its endpoint
had before. -/
theorem startUp_copied (hans : K.Answers) (tun : Token) (allowed : List IpNet)
    (eps : List SocketAddr) (tunAddrs : List IpNet) (s : σ) :
    Copied (K.table s) (startUp K tun allowed eps tunAddrs s).1 := by
  have hsetup : ∀ (a : IpAddr) g,
      lookup (K.table (setupRoutes K tun allowed eps s).2) a = some (.gateway g) →
        lookup (K.table s) a = some (.gateway g) := fun a g => setupRoutes_gateway hans
  refine Copied.append (Copied.append (setupRoutes_copied hans tun allowed eps s) ?_) ?_
  · split
    · exact nofun
    · exact setupUnconfiguredFamily_copied hans tun eps fun a g _ => hsetup a g
  · split
    · exact nofun
    · refine setupUnconfiguredFamily_copied hans tun eps fun a g hfamily hroute => ?_
      apply hsetup a g
      split at hroute
      · exact hroute
      · rwa [setupUnconfiguredFamily_lookup hans tun eps _ (by rw [hfamily]; decide)] at hroute

end Source

section Idle

/-- The route of an address and the default route of its family go through the same gateway,
or through none. -/
def SameGateway (T : RouteTable) (ip : IpAddr) : Prop :=
  (lookup T ip).bind NextHop.viaGateway = (T ip.family.defaultDest).bind NextHop.viaGateway

/-- The destination of a command. -/
def RouteCmd.target : RouteCmd → RouteTarget
  | .add target _ => target
  | .delete target _ => target

/-- A recheck issues nothing for the bypasses through a gateway, keeps every record, and
leaves every bypassed endpoint where the table `T` sends it. -/
structure RecheckIdle (K : Kernel σ) (T : RouteTable) (routes : List AddedRoute) (s : σ) :
    Prop where
  quiet : ∀ ip g, .host ip (some g) ∈ routes →
    ∀ command ∈ (recheckRoutes K.logged routes (s, [])).2.2, command.1.target ≠ .host ip
  records : (recheckRoutes K routes s).1 = routes
  hops : ∀ ip stored, .host ip stored ∈ routes →
    lookup (K.table (recheckRoutes K routes s).2) ip = lookup T ip

/-- A recheck starts with a delete for an entry that records another gateway. -/
theorem delete_mem_log {routes : List AddedRoute} {s : σ} {ip : IpAddr} {stored : Option Token}
    (hmem : .host ip stored ∈ routes) (moved : stored ≠ currentGateways K s ip.family) :
    ∃ ok, (RouteCmd.delete (.host ip) none, ok) ∈
      (recheckRoutes K.logged routes (s, [])).2.2 := by
  obtain ⟨i, hi⟩ := List.mem_iff_getElem?.mp hmem
  have hlt : i < routes.length := (List.getElem?_eq_some_iff.mp hi).1
  have hentry := entryLog_host (K := K) (s := s) hi
  rw [if_neg moved] at hentry
  refine ⟨(K.cmd (.delete (.host ip) none) (recheckState K routes s i)).1, ?_⟩
  rw [recheckRoutes_logged]
  refine List.mem_flatMap.mpr ⟨i, List.mem_range.mpr hlt, ?_⟩
  rw [hentry]
  exact List.mem_cons_self

/-- So a quiet recheck finds the current gateways in the records. -/
theorem RecheckIdle.current {T : RouteTable} {routes : List AddedRoute} {s : σ}
    (h : RecheckIdle K T routes s) {ip : IpAddr} {g : Token}
    (hmem : .host ip (some g) ∈ routes) : some g = currentGateways K s ip.family := by
  by_contra moved
  obtain ⟨ok, hlog⟩ := delete_mem_log hmem moved
  exact h.quiet ip g hmem _ hlog rfl

/-- A recheck that succeeds and keeps the records finds the current gateways in all of them. -/
theorem Obeyed.current {routes : List AddedRoute} {s : σ} (h : Obeyed K routes s)
    (hrecords : (recheckRoutes K routes s).1 = routes) {ip : IpAddr} {stored : Option Token}
    (hmem : .host ip stored ∈ routes) : stored = currentGateways K s ip.family := by
  obtain ⟨i, hi⟩ := List.mem_iff_getElem?.mp hmem
  have hsettled : routes[i]? = some (.host ip (currentGateways K s ip.family)) := by
    rw [← hrecords, h.settles, List.getElem?_map, hi]
    rfl
  exact (AddedRoute.host.inj (Option.some.inj (hi.symm.trans hsettled))).2

variable {tun : Token} {allowed : List IpNet} {eps : List SocketAddr} {tunAddrs : List IpNet}
  {s t : σ}

/-- As long as the table is the one that start-up left, a recheck finds the gateways of the
original default routes. -/
theorem currentGateways_startUp (hans : K.Answers)
    (same : K.table t = K.table (startUp K tun allowed eps tunAddrs s).2) (family : Family) :
    currentGateways K t family = (K.table s family.defaultDest).bind NextHop.viaGateway := by
  have hrecords := startUp_records K tun allowed eps tunAddrs s
  have hdefault : family.defaultDest ∉
      (startUp K tun allowed eps tunAddrs s).1.map AddedRoute.dest := by
    intro hmem
    obtain ⟨r, hr, hdest⟩ := List.mem_map.mp hmem
    apply hrecords.proper r hr
    rw [hdest]
    exact family.len_defaultDest
  rw [currentGateways_eq hans, same, hrecords.frame _ hdefault]

/-- A bypass through a gateway is of an address with that route, so the address and the
default go through the same gateway exactly if the record is the default gateway. -/
theorem sameGateway_iff (hans : K.Answers)
    (same : K.table t = K.table (startUp K tun allowed eps tunAddrs s).2) {ip : IpAddr} {g : Token}
    (hmem : .host ip (some g) ∈ (startUp K tun allowed eps tunAddrs s).1) :
    SameGateway (K.table s) ip ↔ some g = currentGateways K t ip.family := by
  have hroute := startUp_copied hans tun allowed eps tunAddrs s ip g hmem
  rw [currentGateways_startUp hans same, SameGateway, hroute]
  rfl

/-- Where every record is of the current gateway, a recheck does nothing. -/
theorem recheckRoutes_of_current {routes : List AddedRoute}
    (h : ∀ ip stored, .host ip stored ∈ routes → stored = currentGateways K t ip.family) :
    recheckRoutes K routes t = (routes, afterQueries K t) ∧
      (recheckRoutes K.logged routes (t, [])).2.2 = [] := by
  have hstale : ∀ r ∈ routes, ∀ ip, ¬ Stale (currentGateways K t) ip r := by
    rintro r hr ip ⟨stored, rfl, moved⟩
    exact moved (h ip stored hr)
  have hlogged : recheckRoutes K.logged routes (t, []) =
      (routes, afterQueries K.logged (t, [])) := recheckRoutes_of_not_stale hstale
  refine ⟨recheckRoutes_of_not_stale hstale, ?_⟩
  rw [hlogged]
  rfl

/-- If moreover every endpoint goes where the table sends it, the recheck is idle. -/
theorem recheckIdle_of_current {T : RouteTable} {routes : List AddedRoute}
    (hkept : ∀ ip stored, .host ip stored ∈ routes → stored = currentGateways K t ip.family)
    (hhops : ∀ ip stored, .host ip stored ∈ routes → lookup (K.table t) ip = lookup T ip) :
    RecheckIdle K T routes t := by
  obtain ⟨hidle, hlog⟩ := recheckRoutes_of_current hkept
  refine ⟨?_, by rw [hidle], ?_⟩
  · intro ip g hmem command hcommand
    rw [hlog] at hcommand
    cases hcommand
  · intro ip stored hmem
    rw [hidle, table_afterQueries]
    exact hhops ip stored hmem

/-- After an idle recheck that succeeds the endpoints go where they went before it. -/
theorem RecheckIdle.hop_eq {T : RouteTable} {routes : List AddedRoute}
    (h : RecheckIdle K T routes t) (hobeyed : Obeyed K routes t) {ip : IpAddr}
    {stored : Option Token} (hmem : .host ip stored ∈ routes) :
    lookup (K.table t) ip = lookup T ip := by
  obtain ⟨hnothing, -⟩ := recheckRoutes_of_current fun _ _ => hobeyed.current h.records
  have hhop := h.hops ip stored hmem
  rwa [hnothing, table_afterQueries] at hhop

/-- The family of an endpoint has no default gateway, and its bypass is the route that the
endpoint has in the table. -/
def OnLink (T U : RouteTable) (ip : IpAddr) : Prop :=
  (T ip.family.defaultDest).bind NextHop.viaGateway = none ∧ U ip.host = lookup T ip

end Idle

/-- As long as the table is the one that start-up left, a recheck is idle if the route of every
endpoint bypassed through a gateway goes through the default gateway, and every endpoint
bypassed through an interface has a family without a default gateway and its own route as the
bypass. It is idle in no other case, but for endpoints bypassed through an interface where a
command fails that could have succeeded. -/
theorem recheck_idle_iff (hans : K.Answers) (tun : Token) (allowed : List IpNet)
    (eps : List SocketAddr) (tunAddrs : List IpNet) (s t : σ)
    (same : K.table t = K.table (startUp K tun allowed eps tunAddrs s).2) :
    ((∀ ip g, .host ip (some g) ∈ (startUp K tun allowed eps tunAddrs s).1 →
        SameGateway (K.table s) ip) ∧
      (∀ ip, .host ip none ∈ (startUp K tun allowed eps tunAddrs s).1 →
        OnLink (K.table s) (K.table t) ip) →
      RecheckIdle K (K.table s) (startUp K tun allowed eps tunAddrs s).1 t) ∧
    (RecheckIdle K (K.table s) (startUp K tun allowed eps tunAddrs s).1 t →
      (∀ ip g, .host ip (some g) ∈ (startUp K tun allowed eps tunAddrs s).1 →
        SameGateway (K.table s) ip) ∧
      (Obeyed K (startUp K tun allowed eps tunAddrs s).1 t →
        ∀ ip, .host ip none ∈ (startUp K tun allowed eps tunAddrs s).1 →
          OnLink (K.table s) (K.table t) ip)) := by
  have hcopied := startUp_copied hans tun allowed eps tunAddrs s
  have hsincere : ∀ ip stored, .host ip stored ∈ (startUp K tun allowed eps tunAddrs s).1 →
      ∃ hop, K.table t ip.host = some hop ∧ hop.viaGateway = stored := by
    rw [same]
    exact fun _ _ => startUp_sincere tun allowed eps tunAddrs s
  have hsame : ∀ ip g, .host ip (some g) ∈ (startUp K tun allowed eps tunAddrs s).1 →
      (SameGateway (K.table s) ip ↔ some g = currentGateways K t ip.family) :=
    fun _ _ => sameGateway_iff hans same
  have hcurrent := currentGateways_startUp hans same
  generalize startUp K tun allowed eps tunAddrs s = up at *
  have hroute : ∀ ip stored, .host ip stored ∈ up.1 → ∃ hop, K.table t ip.host = some hop ∧
      lookup (K.table t) ip = some hop ∧ hop.viaGateway = stored := by
    intro ip stored hmem
    obtain ⟨hop, htable, hvia⟩ := hsincere ip stored hmem
    exact ⟨hop, htable, lookup_of_full htable, hvia⟩
  constructor
  · rintro ⟨hgateways, hinterfaces⟩
    apply recheckIdle_of_current
    · intro ip stored hmem
      cases stored with
      | some g => exact (hsame ip g hmem).mp (hgateways ip g hmem)
      | none => exact (hinterfaces ip hmem).1.symm.trans (hcurrent ip.family).symm
    · intro ip stored hmem
      obtain ⟨hop, htable, hlookup, hvia⟩ := hroute ip stored hmem
      cases stored with
      | none => exact (hlookup.trans htable.symm).trans (hinterfaces ip hmem).2
      | some g => rw [hlookup, NextHop.eq_gateway hvia, hcopied ip g hmem]
  · intro hidle
    refine ⟨fun ip g hmem => (hsame ip g hmem).mpr (hidle.current hmem), ?_⟩
    intro hobeyed ip hmem
    obtain ⟨hop, htable, hlookup, -⟩ := hroute ip none hmem
    have hnow : none = currentGateways K t ip.family := hobeyed.current hidle.records hmem
    refine ⟨(hcurrent ip.family).symm.trans hnow.symm, ?_⟩
    rw [htable, ← hidle.hop_eq hobeyed hmem, hlookup]

section Sample

/-- Start-up of a tunnel that takes everything, to the server. -/
def serverStart (T : RouteTable) : List AddedRoute × RouteTable × Unit :=
  startUp Kernel.ideal utun5 [.ofOctets .V4 [0, 0, 0, 0] 0] [serverEndpoint] dualStack (T, ())

theorem serverStart_home : (serverStart homeTable).1 =
    [.host serverIp (some homeRouter), .net (.ofOctets .V4 [0, 0, 0, 0] 1) utun5,
      .net (.ofOctets .V4 [128, 0, 0, 0] 1) utun5] := by
  decide +kernel

/-- At home, where the default route is all there is, a recheck is idle. -/
theorem recheck_idle_at_home :
    RecheckIdle Kernel.ideal homeTable (serverStart homeTable).1 (serverStart homeTable).2 := by
  have hstart : ∀ ip gw, .host ip gw ∈ (serverStart homeTable).1 →
      ip = serverIp ∧ gw = some homeRouter := by
    rw [serverStart_home]
    simp
  refine (recheck_idle_iff Kernel.ideal_answers utun5 _ _ _ (homeTable, ()) _ rfl).1 ⟨?_, ?_⟩
  · intro ip g hmem
    obtain ⟨rfl, -⟩ := hstart ip _ hmem
    have hroute : lookup homeTable serverIp = homeTable Family.V4.defaultDest := by
      decide +kernel
    exact congrArg (fun hop => hop.bind NextHop.viaGateway) hroute
  · intro ip hmem
    obtain ⟨-, hgw⟩ := hstart ip _ hmem
    cases hgw

def detourRouter : Token := ⟨"192.168.1.254".toList, by decide, by decide⟩

/-- The network of the server has a route of its own. -/
def detourTable : RouteTable :=
  Function.update homeTable (IpNet.ofOctets .V4 [203, 0, 113, 0] 24).dest
    (some (.gateway detourRouter))

/-- Where the server has a route of its own, the first recheck takes the bypass away from it. -/
theorem recheck_leaves_detour :
    ¬ ∀ (tun : Token) (allowed : List IpNet) (eps : List SocketAddr) (tunAddrs : List IpNet)
      (s t : RouteTable × Unit),
      t.1 = (startUp Kernel.ideal tun allowed eps tunAddrs s).2.1 →
      RecheckIdle Kernel.ideal s.1 (startUp Kernel.ideal tun allowed eps tunAddrs s).1 t := by
  intro claim
  have hidle := claim utun5 [.ofOctets .V4 [0, 0, 0, 0] 0] [serverEndpoint] dualStack
    (detourTable, ()) (serverStart detourTable).2 rfl
  have hbefore : (serverStart detourTable).1[0]? = some (.host serverIp (some detourRouter)) := by
    decide +kernel
  have hafter : (recheckRoutes Kernel.ideal (serverStart detourTable).1
      (serverStart detourTable).2).1[0]? = some (.host serverIp (some homeRouter)) := by
    decide +kernel
  have hsame : (recheckRoutes Kernel.ideal (serverStart detourTable).1
      (serverStart detourTable).2).1 = (serverStart detourTable).1 := hidle.records
  rw [hsame, hbefore] at hafter
  exact absurd hafter (by decide)

end Sample

end SmartGuard
