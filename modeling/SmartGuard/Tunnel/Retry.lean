import SmartGuard.Route.Bypass
import SmartGuard.Tunnel.Keepalive

/-!
# Retries of a torn bypass

A bypass is torn down when its family loses the default route, and a tick checks
the routes again if the first host entry is torn down. A torn entry behind a first
entry that has its gateway waits for a failing send, also when its family has a
default route again.
-/

namespace SmartGuard

open StateLoop TimedRun

/-- The gateway that a host entry records. -/
def AddedRoute.hostRecord : AddedRoute → Option (Option Token)
  | .host _ stored => some stored
  | _ => none

/-- The address of a host entry. -/
def AddedRoute.hostIp : AddedRoute → Option IpAddr
  | .host ip _ => some ip
  | _ => none

/-- An entry that was installed with a gateway is torn down. -/
def Torn (installed routes : List AddedRoute) : Prop :=
  ∃ (i : Nat) (ip : IpAddr) (g : Token), installed[i]? = some (.host ip (some g)) ∧
    routes[i]? = some (.host ip none)

/-- The first host entry records no gateway. -/
def FirstTorn (routes : List AddedRoute) : Prop :=
  routes.findSome? AddedRoute.hostRecord = some none

section Shape

/-- The first host entry depends on the places of the host entries only. -/
theorem hostRouteIndex_congr {routes routes' : List AddedRoute}
    (h : routes.map AddedRoute.hostIp = routes'.map AddedRoute.hostIp) :
    hostRouteIndex routes = hostRouteIndex routes' := by
  have hview : ∀ rs : List AddedRoute,
      hostRouteIndex rs = (rs.map AddedRoute.hostIp).findIdx? Option.isSome := by
    intro rs
    rw [List.findIdx?_map]
    refine congrArg (List.findIdx? · rs) (funext fun r => ?_)
    cases r <;> rfl
  rw [hview, hview, h]

theorem exists_hostRouteIndex {routes : List AddedRoute} {i : Nat} {ip : IpAddr}
    {stored : Option Token} (h : routes[i]? = some (.host ip stored)) :
    ∃ j, hostRouteIndex routes = some j := by
  apply Option.ne_none_iff_exists'.mp
  intro hnone
  have hall := List.findIdx?_eq_none_iff.mp hnone _ (List.mem_of_getElem? h)
  cases hall

theorem exists_host_of_hostRouteIndex {routes : List AddedRoute} {i : Nat}
    (h : hostRouteIndex routes = some i) :
    ∃ ip stored, routes[i]? = some (.host ip stored) := by
  obtain ⟨hi, hhost, -⟩ := List.findIdx?_eq_some_iff_getElem.mp h
  cases hr : routes[i] with
  | host ip stored => exact ⟨ip, stored, List.getElem?_eq_some_iff.mpr ⟨hi, hr⟩⟩
  | net pfx tun =>
      rw [hr] at hhost
      cases hhost
  | passthrough pfx =>
      rw [hr] at hhost
      cases hhost

/-- The entry at the first place of a host entry is torn down exactly when the first
host entry is. -/
theorem hostRouteIndex_torn (routes : List AddedRoute) :
    (∃ i ip, hostRouteIndex routes = some i ∧ routes[i]? = some (.host ip none)) ↔
      FirstTorn routes := by
  unfold FirstTorn hostRouteIndex
  induction routes with
  | nil => simp
  | cons r rest ih =>
      cases r with
      | host ip stored =>
          simp [AddedRoute.hostRecord, List.findIdx?_cons, List.findSome?_cons]
      | net pfx tun =>
          simp [AddedRoute.hostRecord, List.findIdx?_cons, List.findSome?_cons, ← ih]
      | passthrough pfx =>
          simp [AddedRoute.hostRecord, List.findIdx?_cons, List.findSome?_cons, ← ih]

/-- Two lists with the same places have a host entry of the same address at each. -/
theorem exists_host_getElem {routes routes' : List AddedRoute}
    (h : routes.map AddedRoute.hostIp = routes'.map AddedRoute.hostIp) {i : Nat} {ip : IpAddr}
    {stored' : Option Token} (hentry : routes'[i]? = some (.host ip stored')) :
    ∃ stored, routes[i]? = some (.host ip stored) := by
  have hview := congrArg (·[i]?) h
  simp only [List.getElem?_map, hentry, Option.map_some, AddedRoute.hostIp,
    Option.map_eq_some_iff] at hview
  obtain ⟨r, hr, hip⟩ := hview
  cases r with
  | host ip' stored =>
      obtain rfl := Option.some.inj hip
      exact ⟨stored, hr⟩
  | net pfx tun => cases hip
  | passthrough pfx => cases hip

/-- A recheck of an entry keeps its address. -/
theorem recheckRoute_hostIp {σ : Type} {K : Kernel σ} (current : Family → Option Token)
    (r : AddedRoute) (s : σ) : (recheckRoute K current r s).1.hostIp = r.hostIp := by
  cases r with
  | host ip stored =>
      obtain ⟨stored', h⟩ := recheckRoute_host (K := K) current ip stored s
      rw [h]
      rfl
  | net pfx tun => rfl
  | passthrough pfx => rfl

/-- In a recheck in which no add fails, a host entry ends with the current gateway
of its family. -/
theorem recheckRoutes_current {σ : Type} {K : Kernel σ} {routes : List AddedRoute} {i : Nat}
    {ip : IpAddr} {stored : Option Token} (h : routes[i]? = some (.host ip stored))
    {s : σ × RouteLog} (hclean : AddsOk (issued s.2 (recheckRoutes K.logged routes s).2.2)) :
    (recheckRoutes K.logged routes s).1[i]? =
      some (.host ip (currentGateways K.logged s ip.family)) := by
  obtain ⟨t, hbefore, hget, hafter⟩ := mapState_rel_getElem
    (R := fun s t : σ × RouteLog => s.2 <+: t.2) (fun _ => List.prefix_refl _)
    (fun h₁ h₂ => h₁.trans h₂) (recheckRoute_log (K := K) (currentGateways K.logged s)) h
    (afterQueries K.logged s)
  rw [← recheckRoutes_eq] at hget hafter
  rw [hget]
  have hentry := hclean.of_issued hbefore (recheckRoute_log _ _ t) hafter
  exact congrArg some (recheckRoute_current hentry)

end Shape

section Ticks

variable {PeerId τ σ ω : Type} {T : Tunnel PeerId τ σ ω} {now : Nat}
  {st : LoopState PeerId τ σ ω}

theorem rechecked_mem_onTick : .rechecked now ∈ (onTick T now st).2 ↔ hostTorn T st = true := by
  rw [(onTick_eq now st).2]
  cases hostTorn T st <;> simp [Seen.attempted]

/-- A tick rechecks the routes exactly when it finds the first host entry torn down. -/
theorem onTick_routes (T : Tunnel PeerId τ σ ω) (now : Nat) (st : LoopState PeerId τ σ ω) :
    ((onTick T now st).1.addedRoutes, (onTick T now st).1.routes) =
      if hostTorn T st then recheckRoutes T.kernel st.addedRoutes st.routes
      else (st.addedRoutes, st.routes) := by
  unfold onTick
  cases hostTorn T st <;> rfl

theorem hostTorn_iff (hindex : T.hostRouteIdx = hostRouteIndex st.addedRoutes) :
    hostTorn T st = true ↔ FirstTorn st.addedRoutes := by
  rw [← hostRouteIndex_torn, ← hindex]
  unfold hostTorn
  cases T.hostRouteIdx with
  | none => simp
  | some i =>
      simp only [Option.some.injEq]
      constructor
      · intro h
        split at h
        · next ip hentry => exact ⟨i, ip, rfl, hentry⟩
        · cases h
      · rintro ⟨j, ip, rfl, hentry⟩
        rw [hentry]

/-- What a step does to the added routes and to the kernel. -/
inductive Routed (T : Tunnel PeerId τ σ ω) (st : LoopState PeerId τ σ ω) :
    Event σ → List AddedRoute × σ → Prop
  | kept (event : Event σ) : Routed T st event (st.addedRoutes, st.routes)
  | rechecked (event : Event σ) :
      Routed T st event (recheckRoutes T.kernel st.addedRoutes st.routes)
  | environment (routes : σ) : Routed T st (.environment routes) (st.addedRoutes, routes)

theorem onTick_routed :
    Routed T st .tick ((onTick T now st).1.addedRoutes, (onTick T now st).1.routes) := by
  rw [onTick_routes]
  split
  · exact .rechecked .tick
  · exact .kept .tick

theorem step_routed [DecidableEq PeerId] {event : Event σ} {st' : LoopState PeerId τ σ ω}
    {obs : List (Seen PeerId)} (h : step T now event st = some (st', obs)) :
    Routed T st event (st'.addedRoutes, st'.routes) := by
  cases event with
  | tick =>
      cases h
      exact onTick_routed
  | datagram addr bytes =>
      simp only [step, onDatagram] at h
      split at h
      · cases h
      · split at h <;> cases h
        exact .kept _
      · split at h <;> cases h
        · exact .kept _
        · exact .rechecked _
      · cases h
        exact .kept _
  | packet bytes =>
      simp only [step, onPacket] at h
      split at h
      · cases h
      · split at h <;> cases h
        · exact .kept _
        · exact .rechecked _
      · cases h
        exact .kept _
  | environment routes =>
      cases h
      exact .environment routes
  | interrupted cause => cases h

/-- Every step keeps the places of the host entries. -/
theorem Routed.hostIp {event : Event σ} {out : List AddedRoute × σ} (h : Routed T st event out) :
    out.1.map AddedRoute.hostIp = st.addedRoutes.map AddedRoute.hostIp := by
  cases h with
  | kept event => rfl
  | rechecked event => exact mapState_map (recheckRoute_hostIp _) _ _
  | environment routes => rfl

end Ticks

section Retries

variable {PeerId τ σ ω : Type} {K : Kernel σ} {T : Tunnel PeerId τ (σ × RouteLog) ω}

/-- The next tick retries what is torn down: it runs a recheck if an entry that was
installed with a gateway is torn down, and after it no such entry of a family with a
default gateway is torn down unless an add failed. -/
structure Retries (K : Kernel σ) (T : Tunnel PeerId τ (σ × RouteLog) ω)
    (installed : List AddedRoute) (now : Nat) (st : LoopState PeerId τ (σ × RouteLog) ω) :
    Prop where
  rechecks : Torn installed st.addedRoutes → .rechecked now ∈ (onTick T now st).2
  restores : ∀ (i : Nat) ip g₀ g, installed[i]? = some (.host ip (some g₀)) →
    K.table st.routes.1 ip.family.defaultDest = some (.gateway g) →
    AddsOk (issued st.routes.2 (onTick T now st).1.routes.2) →
    (onTick T now st).1.addedRoutes[i]? ≠ some (.host ip none)

variable {st₀ st : LoopState PeerId τ (σ × RouteLog) ω}

/-- A tick retries the torn bypasses if it checks the first host entry, and that one is
torn down whenever one that was installed with a gateway is. -/
theorem retries_of_firstTorn (hans : K.Answers) (hkernel : T.kernel = K.logged)
    (hshape : st.addedRoutes.map AddedRoute.hostIp = st₀.addedRoutes.map AddedRoute.hostIp)
    (hindex : T.hostRouteIdx = hostRouteIndex st.addedRoutes)
    (hcond : Torn st₀.addedRoutes st.addedRoutes → FirstTorn st.addedRoutes) (now : Nat) :
    Retries K T st₀.addedRoutes now st := by
  have hfirst := hostTorn_iff hindex
  refine ⟨fun htorn => rechecked_mem_onTick.mpr (hfirst.mpr (hcond htorn)), ?_⟩
  intro i ip g₀ g hinstalled hgw hclean htorn
  have hout := onTick_routes T now st
  split at hout
  · have hroutes : (onTick T now st).1.addedRoutes = _ := congrArg Prod.fst hout
    have hkern : (onTick T now st).1.routes = _ := congrArg Prod.snd hout
    rw [hkern, hkernel] at hclean
    rw [hroutes, hkernel] at htorn
    obtain ⟨stored, hentry⟩ := exists_host_getElem hshape hinstalled
    have hcurrent : currentGateways K.logged st.routes ip.family = some g := by
      rw [currentGateways_eq hans.logged, Kernel.table_logged, hgw]
      rfl
    rw [recheckRoutes_current hentry hclean, hcurrent] at htorn
    cases htorn
  · next hquiet =>
      rw [(Prod.mk.inj hout).1] at htorn
      exact hquiet (hfirst.mpr (hcond ⟨i, ip, g₀, hinstalled, htorn⟩))

variable [DecidableEq PeerId] {t₀ t : Nat} {log : List (Seen PeerId)}

/-- A run keeps the places of the host entries. -/
theorem run_hostIp (run : Run (step T) t₀ st₀ t st log) :
    st.addedRoutes.map AddedRoute.hostIp = st₀.addedRoutes.map AddedRoute.hostIp :=
  run.state_invariant (I := fun s => s.addedRoutes.map AddedRoute.hostIp =
    st₀.addedRoutes.map AddedRoute.hostIp) rfl
    fun hI next => (step_routed next).hostIp.trans hI

/-- In every state that the loop reaches, a tick retries the torn bypasses exactly if
the first host entry is torn down whenever one that was installed with a gateway is. -/
theorem tick_retries_iff (hans : K.Answers) (hkernel : T.kernel = K.logged)
    (hindex : T.hostRouteIdx = hostRouteIndex st₀.addedRoutes)
    (run : Run (step T) t₀ st₀ t st log) (now : Nat) :
    Retries K T st₀.addedRoutes now st ↔
      (Torn st₀.addedRoutes st.addedRoutes → FirstTorn st.addedRoutes) := by
  have hshape := run_hostIp run
  have hindex' := hindex.trans (hostRouteIndex_congr hshape.symm)
  constructor
  · intro hretries htorn
    have hchecked := hretries.rechecks htorn
    exact (hostTorn_iff hindex').mp (rechecked_mem_onTick.mp hchecked)
  · exact fun hcond => retries_of_firstTorn hans hkernel hshape hindex' hcond now

/-- With a single host entry every tick of every run retries it. -/
theorem tick_retries_lone (hans : K.Answers) (hkernel : T.kernel = K.logged)
    (hindex : T.hostRouteIdx = hostRouteIndex st₀.addedRoutes)
    (hlone : ∀ (i j : Nat) ip jp a b, st₀.addedRoutes[i]? = some (.host ip a) →
      st₀.addedRoutes[j]? = some (.host jp b) → i = j)
    (run : Run (step T) t₀ st₀ t st log) (now : Nat) : Retries K T st₀.addedRoutes now st := by
  have hshape := run_hostIp run
  refine retries_of_firstTorn hans hkernel hshape
    (hindex.trans (hostRouteIndex_congr hshape.symm)) ?_ now
  rintro ⟨i, ip, g, hinstalled, htorn⟩
  obtain ⟨j, hj⟩ := exists_hostRouteIndex htorn
  obtain ⟨jp, b, hfirst⟩ := exists_host_of_hostRouteIndex hj
  obtain ⟨b₀, hfirst₀⟩ := exists_host_getElem hshape.symm hfirst
  obtain rfl := hlone i j ip jp _ _ hinstalled hfirst₀
  exact (hostRouteIndex_torn _).mp ⟨i, ip, hj, htorn⟩

end Retries

section Sample

/-! A loop in which every send fails, on a network whose default routes change. -/

def Outside.unplugged : Outside Unit where
  sendTo _ _ w := (false, w)
  writeAll _ w := (true, w)

abbrev LoggedTable : Type := (RouteTable × Unit) × RouteLog

/-- Another address of the server: `2001:db8::2`. -/
def server6Ip : IpAddr := .ofOctets .V6 ([0x20, 0x01, 0x0d, 0xb8] ++ List.replicate 11 0 ++ [2])

def homeRouter6 : Token := ⟨"fe80::1".toList, by decide, by decide⟩

/-- The default routes of a network with a router for either family. -/
def dualRouted : Family → Option NextHop
  | .V4 => some (.gateway homeRouter)
  | .V6 => some (.gateway homeRouter6)

/-- One bypass for each family. -/
def dualRoutes : List AddedRoute :=
  [.host serverIp (some homeRouter), .host server6Ip (some homeRouter6)]

/-- The kernel table with the bypasses of both families. -/
def dualTable : RouteTable :=
  Function.update (Function.update (withDefaults homeTable dualRouted) serverIp.host
    (some (.gateway homeRouter))) server6Ip.host (some (.gateway homeRouter6))

/-- The loop at time 0 with the given routes. -/
def unplugged (table : RouteTable) (routes : List AddedRoute) :
    Tunnel (Option Nat) Nat LoggedTable Unit × LoopState (Option Nat) Nat LoggedTable Unit :=
  let up := launch { behindServer [laptop] with
    kernel := Kernel.ideal.logged, outside := .unplugged } 0 ((table, ()), []) ()
  ({ up.1 with hostRouteIdx := hostRouteIndex routes },
    { up.2 with addedRoutes := routes, routes := ((table, ()), []) })

/-- The default routes change, and a packet at time 10 cannot be sent. -/
def failedSend (table : RouteTable) (routes : List AddedRoute)
    (defaults : Family → Option NextHop) :
    Option (LoopState (Option Nat) Nat LoggedTable Unit × List (Seen (Option Nat))) :=
  step (unplugged table routes).1 10 (.packet (packetFor 8))
    { (unplugged table routes).2 with routes := ((withDefaults table defaults, ()), []) }

/-- A change of the default routes, the failed send, and a change back. -/
def restored (table : RouteTable) (routes : List AddedRoute) (defaults : Family → Option NextHop)
    (h : (failedSend table routes defaults).isSome) :
    LoopState (Option Nat) Nat LoggedTable Unit :=
  { ((failedSend table routes defaults).get h).1 with routes := ((table, ()), []) }

theorem run_restored {table : RouteTable} {routes : List AddedRoute}
    {defaults : Family → Option NextHop} (h : (failedSend table routes defaults).isSome) :
    ∃ log, Run (step (unplugged table routes).1) 0 (unplugged table routes).2 20
      (restored table routes defaults h) log := by
  have hchange : ∀ (T : Tunnel (Option Nat) Nat LoggedTable Unit) now kernel st,
      step T now (.environment kernel) st = some ({ st with routes := kernel }, []) :=
    fun _ _ _ _ => rfl
  obtain ⟨out, hout⟩ := Option.isSome_iff_exists.mp h
  have hget : (failedSend table routes defaults).get h = out := Option.get_of_eq_some h hout
  unfold restored
  rw [hget]
  unfold failedSend at hout
  generalize (unplugged table routes).1 = T at hout ⊢
  generalize (unplugged table routes).2 = st at hout ⊢
  have lost := Run.single (Nat.zero_le 5) (hchange T 5 ((withDefaults table defaults, ()), []) st)
  have sent := lost.step (by decide) hout
  exact ⟨_, sent.step (by decide) (hchange T 20 ((table, ()), []) _)⟩

theorem v6_send_failed : (failedSend dualTable dualRoutes (routedBy homeRouter)).isSome := by
  decide +kernel

/-- The bypass of the second family is lost while the first entry keeps its gateway:
when the default route is back, the tick issues nothing. -/
theorem second_bypass_stays_torn :
    ¬ ∀ (T : Tunnel (Option Nat) Nat LoggedTable Unit) (K : Kernel (RouteTable × Unit))
      (st₀ st : LoopState (Option Nat) Nat LoggedTable Unit) (t₀ t now : Nat)
      (log : List (Seen (Option Nat))), K.Answers → T.kernel = K.logged →
      T.hostRouteIdx = hostRouteIndex st₀.addedRoutes → Run (step T) t₀ st₀ t st log →
      Retries K T st₀.addedRoutes now st := by
  intro claim
  have hquiet : (onTick (unplugged dualTable dualRoutes).1 30
      (restored dualTable dualRoutes (routedBy homeRouter) v6_send_failed)).2 =
      [.keepalive 30 0 (some 0)] := by
    decide +kernel
  have hentry : (restored dualTable dualRoutes (routedBy homeRouter)
      v6_send_failed).addedRoutes[1]? = some (.host server6Ip none) := by
    decide +kernel
  obtain ⟨log, run⟩ := run_restored v6_send_failed
  have hretries := claim (unplugged dualTable dualRoutes).1 Kernel.ideal _ _ 0 20 30 log
    (Kernel.simulated_answers _) rfl rfl run
  have hchecked := hretries.rechecks ⟨1, server6Ip, homeRouter6, rfl, hentry⟩
  rw [hquiet, List.mem_singleton] at hchecked
  cases hchecked

theorem v4_send_failed :
    (failedSend pinnedTable pinnedRoutes fun _ => none).isSome := by
  decide +kernel

/-- The only bypass is torn down, and the tick after the return of the default route
brings it back. -/
theorem only_bypass_retried :
    Retries Kernel.ideal (unplugged pinnedTable pinnedRoutes).1 pinnedRoutes 30
      (restored pinnedTable pinnedRoutes (fun _ => none) v4_send_failed) := by
  have htorn : (restored pinnedTable pinnedRoutes (fun _ => none) v4_send_failed).addedRoutes =
      [.host serverIp none] := by
    decide +kernel
  obtain ⟨log, run⟩ := run_restored v4_send_failed
  refine (tick_retries_iff (Kernel.simulated_answers _) rfl rfl run 30).mpr ?_
  intro _
  rw [htorn]
  rfl

end Sample

end SmartGuard
