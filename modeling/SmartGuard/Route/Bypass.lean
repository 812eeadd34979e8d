import Mathlib.Data.List.Nodup
import SmartGuard.Route.Reversal

/-!
# What a recorded bypass gateway says about the kernel

A recheck deletes a stale bypass before it adds the new one, and keeps the old
record when the add fails. From then on the record names a gateway whose host
route is gone, until a later add for the entry succeeds. The log of commands
tells the two cases apart.
-/

namespace SmartGuard

open LongestMatch StateLoop

abbrev RouteLog := List (RouteCmd × Bool)

/-- The outcome of a command, if it adds the host route of `ip`. -/
def addOutcome (ip : IpAddr) : RouteCmd × Bool → Option Bool
  | (.add (.host i) _, ok) => if i = ip then some ok else none
  | _ => none

/-- The outcome of the last add of the host route of `ip`. -/
def lastAdd (log : RouteLog) (ip : IpAddr) : Option Bool :=
  (log.filterMap (addOutcome ip)).getLast?

/-- No add among the commands failed. -/
def AddsOk (log : RouteLog) : Prop := ∀ t via ok, (RouteCmd.add t via, ok) ∈ log → ok = true

section LastAdd

theorem lastAdd_append_of_none {log : RouteLog} {ip : IpAddr} {p : RouteCmd × Bool}
    (h : addOutcome ip p = none) : lastAdd (log ++ [p]) ip = lastAdd log ip := by
  simp [lastAdd, h]

@[simp] theorem lastAdd_append_delete (log : RouteLog) (ip : IpAddr) (t : RouteTarget)
    (iface : Option Token) (ok : Bool) :
    lastAdd (log ++ [(.delete t iface, ok)]) ip = lastAdd log ip :=
  lastAdd_append_of_none rfl

@[simp] theorem lastAdd_append_add (log : RouteLog) (ip : IpAddr) (via : NextHop) (ok : Bool) :
    lastAdd (log ++ [(.add (.host ip) via, ok)]) ip = some ok := by
  simp [lastAdd, addOutcome]

theorem lastAdd_append_add_of_ne {ip i : IpAddr} (log : RouteLog) (via : NextHop) (ok : Bool)
    (h : i ≠ ip) : lastAdd (log ++ [(.add (.host i) via, ok)]) ip = lastAdd log ip := by
  apply lastAdd_append_of_none
  simp [addOutcome, h]

end LastAdd

variable {σ : Type*} (K : Kernel σ)

/-- A run of rechecks and of changes of the default routes, with the commands
issued so far. -/
inductive GatewayRun (s : σ) (routes : List AddedRoute) :
    σ → List AddedRoute → RouteLog → Prop
  | start : GatewayRun s routes s routes []
  | environment {t rs log} (defaults : Family → Option NextHop) {u : σ}
      (run : GatewayRun s routes t rs log)
      (change : K.table u = withDefaults (K.table t) defaults) :
      GatewayRun s routes u rs log
  | recheck {t rs log} (run : GatewayRun s routes t rs log) :
      GatewayRun s routes (recheckRoutes K.logged rs (t, log)).2.1
        (recheckRoutes K.logged rs (t, log)).1 (recheckRoutes K.logged rs (t, log)).2.2

/-- Every host entry that was recorded with a gateway has its host route in the
kernel table. -/
def Installed (s : σ) (routes : List AddedRoute) : Prop :=
  ∀ ip g, .host ip (some g) ∈ routes → K.table s ip.host = some (.gateway g)

/-- Every host entry that was once recorded with a gateway has its host route via
the current default gateway of its family, if there is one. -/
def FollowsGateway (s : σ) (routes : List AddedRoute) : Prop :=
  ∀ ip g₀ g, .host ip (some g₀) ∈ routes →
    K.table s ip.family.defaultDest = some (.gateway g) →
    K.table s ip.host = some (.gateway g)

section Entry

variable {K}

/-- What the record of an entry says about the kernel once the log is known. -/
structure Tracks (K : Kernel σ) (ip : IpAddr) (stored : Option Token) (s : σ × RouteLog) :
    Prop where
  lost : lastAdd s.2 ip = some false → K.table s.1 ip.host = none
  held : lastAdd s.2 ip ≠ some false → ∀ g, stored = some g →
    K.table s.1 ip.host = some (.gateway g)

/-- The part of a logged state that the entry of `ip` depends on. -/
def entryView (K : Kernel σ) (ip : IpAddr) (s : σ × RouteLog) : Option NextHop × Option Bool :=
  (K.table s.1 ip.host, lastAdd s.2 ip)

theorem Tracks.of_view {ip : IpAddr} {stored : Option Token} {s t : σ × RouteLog}
    (h : Tracks K ip stored s) (hview : entryView K ip t = entryView K ip s) :
    Tracks K ip stored t := by
  obtain ⟨htable, hlast⟩ := Prod.mk.inj hview
  constructor
  · rw [htable, hlast]
    exact h.lost
  · rw [htable, hlast]
    exact h.held

/-- A recheck of an entry leaves the view of every other address alone. -/
theorem recheckRoute_entryView (current : Family → Option Token) {r : AddedRoute}
    {ip : IpAddr} (h : r.dest ≠ ip.host) (s : σ × RouteLog) :
    entryView K ip (recheckRoute K.logged current r s).2 = entryView K ip s := by
  have htable := recheckRoute_frame (K := K.logged) current h.symm s
  simp only [Kernel.table_logged] at htable
  have hlast : lastAdd (recheckRoute K.logged current r s).2.2 ip = lastAdd s.2 ip := by
    cases r with
    | host i stored =>
        have hne : i ≠ ip := fun heq => h (congrArg IpAddr.host heq)
        have hcases := recheckRoute_rechecked (K := K.logged) current i stored s
        generalize recheckRoute K.logged current (.host i stored) s = out at hcases ⊢
        cases hcases with
        | kept same => rfl
        | torn moved gone => exact lastAdd_append_delete _ _ _ _ _
        | installed moved now ok =>
            exact (lastAdd_append_add_of_ne _ _ _ hne).trans (lastAdd_append_delete _ _ _ _ _)
        | failed moved now bad =>
            exact (lastAdd_append_add_of_ne _ _ _ hne).trans (lastAdd_append_delete _ _ _ _ _)
    | net pfx tun => rfl
    | passthrough pfx => rfl
  exact Prod.ext htable hlast

theorem table_host_of_delete (hdel : K.DeletesSucceed) (ip : IpAddr) (s : σ) :
    K.table (K.cmd (.delete (.host ip) none) s).2 ip.host = none := by
  rw [Kernel.table_delete_of_succeed hdel]
  exact Function.update_self _ _ _

/-- A recheck of an entry keeps what its record says. -/
theorem Tracks.rechecked (hdel : K.DeletesSucceed) (current : Family → Option Token)
    {ip : IpAddr} {stored : Option Token} {s : σ × RouteLog} (h : Tracks K ip stored s) :
    ∃ stored', (recheckRoute K.logged current (.host ip stored) s).1 = .host ip stored' ∧
      Tracks K ip stored' (recheckRoute K.logged current (.host ip stored) s).2 := by
  have hgone := table_host_of_delete hdel ip s.1
  have hcases := recheckRoute_rechecked (K := K.logged) current ip stored s
  generalize recheckRoute K.logged current (.host ip stored) s = out at hcases ⊢
  cases hcases with
  | kept same => exact ⟨stored, rfl, h⟩
  | torn moved gone =>
      exact ⟨none, rfl, fun _ => hgone, fun _ g hg => by cases hg⟩
  | @installed gw moved now ok =>
      refine ⟨some gw, rfl, ?_, ?_⟩
      · intro hlast
        simp only [Kernel.logged, lastAdd_append_add] at hlast ok
        rw [ok] at hlast
        cases hlast
      · rintro - g hg
        obtain rfl := Option.some.inj hg
        have htable := K.table_add (.host ip) (.gateway gw)
          (K.cmd (.delete (.host ip) none) s.1).2
        have hok : (K.cmd (.add (.host ip) (.gateway gw))
          (K.cmd (.delete (.host ip) none) s.1).2).1 = true := ok
        rw [if_pos hok] at htable
        exact (congrFun htable ip.host).trans (Function.update_self _ _ _)
  | @failed gw moved now bad =>
      have hbad : (K.cmd (.add (.host ip) (.gateway gw))
        (K.cmd (.delete (.host ip) none) s.1).2).1 = false := bad
      have htable := K.table_add (.host ip) (.gateway gw)
        (K.cmd (.delete (.host ip) none) s.1).2
      rw [hbad] at htable
      refine ⟨stored, rfl, fun _ => (congrFun htable ip.host).trans hgone, ?_⟩
      intro hlast
      simp only [Kernel.logged, lastAdd_append_add, hbad, ne_eq, not_true_eq_false] at hlast

/-- A recheck of an entry only appends to the log. -/
theorem recheckRoute_log (current : Family → Option Token) (r : AddedRoute)
    (s : σ × RouteLog) : s.2 <+: (recheckRoute K.logged current r s).2.2 := by
  cases r with
  | host ip stored =>
      have hcases := recheckRoute_rechecked (K := K.logged) current ip stored s
      generalize recheckRoute K.logged current (.host ip stored) s = out at hcases ⊢
      cases hcases with
      | kept same => exact List.prefix_refl _
      | torn moved gone => exact List.prefix_append _ _
      | installed moved now ok =>
          exact (List.prefix_append _ _).trans (List.prefix_append _ _)
      | failed moved now bad =>
          exact (List.prefix_append _ _).trans (List.prefix_append _ _)
  | net pfx tun => exact List.prefix_refl _
  | passthrough pfx => exact List.prefix_refl _

theorem mapState_recheckRoute_log (current : Family → Option Token)
    (routes : List AddedRoute) (s : σ × RouteLog) :
    s.2 <+: (mapState (recheckRoute K.logged current) routes s).2.2 :=
  mapState_rel (R := fun s t : σ × RouteLog => s.2 <+: t.2) (fun _ => List.prefix_refl _)
    (fun h₁ h₂ => h₁.trans h₂) (fun r _ t => recheckRoute_log current r t) s

end Entry

section Loop

variable {K}

/-- The commands that were appended to a log. -/
def issued (before after : RouteLog) : RouteLog := after.drop before.length

theorem entryView_afterQueries (ip : IpAddr) (s : σ × RouteLog) :
    entryView K ip (afterQueries K.logged s) = entryView K ip s :=
  Prod.ext (congrFun (table_afterQueries (K := K.logged) s) ip.host) rfl

/-- In a list of distinct destinations a recheck treats an entry as if it were
alone: it runs in a state that looks the same to the entry. -/
theorem recheckRoutes_entry {routes : List AddedRoute} {ip : IpAddr} {stored : Option Token}
    (hnodup : (routes.map AddedRoute.dest).Nodup) (hmem : .host ip stored ∈ routes)
    (s : σ × RouteLog) :
    ∃ t : σ × RouteLog, entryView K ip t = entryView K ip s ∧ s.2 <+: t.2 ∧
      (recheckRoute K.logged (currentGateways K.logged s) (.host ip stored) t).1 ∈
        (recheckRoutes K.logged routes s).1 ∧
      entryView K ip (recheckRoutes K.logged routes s).2 =
        entryView K ip
          (recheckRoute K.logged (currentGateways K.logged s) (.host ip stored) t).2 ∧
      (recheckRoute K.logged (currentGateways K.logged s) (.host ip stored) t).2.2 <+:
        (recheckRoutes K.logged routes s).2.2 := by
  obtain ⟨pre, post, rfl⟩ := List.append_of_mem hmem
  rw [List.map_append, List.map_cons, List.nodup_append, List.nodup_cons] at hnodup
  obtain ⟨-, ⟨hpost, -⟩, hpre⟩ := hnodup
  have keepPre : ∀ b ∈ pre, ∀ t, entryView K ip
      (recheckRoute K.logged (currentGateways K.logged s) b t).2 = entryView K ip t := by
    intro b hb t
    apply recheckRoute_entryView
    exact hpre _ (List.mem_map_of_mem hb) _ List.mem_cons_self
  have keepPost : ∀ b ∈ post, ∀ t, entryView K ip
      (recheckRoute K.logged (currentGateways K.logged s) b t).2 = entryView K ip t := by
    intro b hb t
    apply recheckRoute_entryView
    exact fun heq => hpost (List.mem_map.mpr ⟨b, hb, heq⟩)
  obtain ⟨hbefore, hget, hlast, hafter⟩ := mapState_focus (entryView K ip)
    (.host ip stored) keepPre keepPost (afterQueries K.logged s)
  have hlog := mapState_recheckRoute_log (K := K) (currentGateways K.logged s) pre
    (afterQueries K.logged s)
  rw [recheckRoutes_eq]
  refine ⟨_, hbefore.trans (entryView_afterQueries ip s), hlog, List.mem_of_getElem? hget,
    hafter, ?_⟩
  rw [hlast]
  exact mapState_recheckRoute_log _ post _

/-- A run keeps the destinations of the entries, in order. -/
theorem GatewayRun.dests {s t : σ} {routes rs : List AddedRoute} {log : RouteLog}
    (run : GatewayRun K s routes t rs log) :
    rs.map AddedRoute.dest = routes.map AddedRoute.dest := by
  induction run with
  | start => rfl
  | environment defaults run change ih => exact ih
  | recheck run ih => exact (recheckRoutes_dests _ _).trans ih

/-- Throughout a run each entry that was installed with a gateway tracks the
kernel up to its last failed add. -/
theorem GatewayRun.tracks (hdel : K.DeletesSucceed) {s t : σ} {routes rs : List AddedRoute}
    {log : RouteLog} (hnodup : (routes.map AddedRoute.dest).Nodup)
    (hinst : Installed K s routes) (run : GatewayRun K s routes t rs log) {ip : IpAddr}
    {g : Token} (hmem : .host ip (some g) ∈ routes) :
    ∃ stored, .host ip stored ∈ rs ∧ Tracks K ip stored (t, log) := by
  induction run with
  | start =>
      refine ⟨some g, hmem, ?_, ?_⟩
      · intro hlast
        cases hlast
      · rintro - g' hg'
        obtain rfl := Option.some.inj hg'
        exact hinst ip _ hmem
  | environment defaults run change ih =>
      obtain ⟨stored, hstored, htracks⟩ := ih
      refine ⟨stored, hstored, htracks.of_view ?_⟩
      have hproper : ip.host.len ≠ 0 := by
        rw [IpAddr.len_host]
        exact ip.family.width_pos.ne'
      simp only [entryView, change, withDefaults_of_ne hproper]
  | @recheck t rs log run ih =>
      obtain ⟨stored, hstored, htracks⟩ := ih
      have hnd : (rs.map AddedRoute.dest).Nodup := run.dests ▸ hnodup
      obtain ⟨u, hview, -, hout, hafter, -⟩ := recheckRoutes_entry hnd hstored (t, log)
      obtain ⟨stored', heq, htracks'⟩ := (htracks.of_view hview).rechecked hdel
        (currentGateways K.logged (t, log))
      exact ⟨stored', heq ▸ hout, htracks'.of_view hafter⟩

theorem issued_append (before after : RouteLog) : issued before (before ++ after) = after :=
  List.drop_left

/-- What was appended by a part of a recheck was appended by the whole. -/
theorem AddsOk.of_issued {a b c d : RouteLog} (h : AddsOk (issued a d)) (hab : a <+: b)
    (hbc : b <+: c) (hcd : c <+: d) : AddsOk (issued b c) := by
  obtain ⟨x, rfl⟩ := hab
  obtain ⟨y, rfl⟩ := hbc
  obtain ⟨z, rfl⟩ := hcd
  rw [List.append_assoc (a ++ x), List.append_assoc a, issued_append] at h
  rw [issued_append]
  intro t via ok hmem
  exact h t via ok (List.mem_append_right x (List.mem_append_left z hmem))

/-- In a recheck in which no add fails, an entry ends with the current gateway. -/
theorem recheckRoute_current {current : Family → Option Token} {ip : IpAddr}
    {stored : Option Token} {u : σ × RouteLog}
    (hclean : AddsOk (issued u.2 (recheckRoute K.logged current (.host ip stored) u).2.2)) :
    (recheckRoute K.logged current (.host ip stored) u).1 = .host ip (current ip.family) := by
  have hcases := recheckRoute_rechecked (K := K.logged) current ip stored u
  generalize recheckRoute K.logged current (.host ip stored) u = out at hcases hclean ⊢
  cases hcases with
  | kept same => rw [same]
  | torn moved gone => rw [gone]
  | installed moved now ok => rw [now]
  | @failed gw moved now bad =>
      simp only [Kernel.logged, List.append_assoc, issued_append] at hclean bad
      have hok := hclean (.host ip) (.gateway gw) _
        (List.mem_append_right _ (List.mem_singleton.mpr rfl))
      cases bad.symm.trans hok

/-- After a recheck in which no add fails, an entry is routed through the current gateway,
unless its record says so already and its route is lost. -/
theorem Tracks.follows (hdel : K.DeletesSucceed) {current : Family → Option Token} {ip : IpAddr}
    {stored : Option Token} {g : Token} {u : σ × RouteLog} (h : Tracks K ip stored u)
    (hcurrent : current ip.family = some g)
    (hfresh : stored = some g → lastAdd u.2 ip ≠ some false)
    (hclean : AddsOk (issued u.2 (recheckRoute K.logged current (.host ip stored) u).2.2)) :
    K.table (recheckRoute K.logged current (.host ip stored) u).2.1 ip.host =
      some (.gateway g) := by
  have hrecord := recheckRoute_current hclean
  obtain ⟨stored', heq, hend⟩ := h.rechecked hdel current
  obtain rfl := (AddedRoute.host.inj (heq.symm.trans hrecord)).2
  have hcases := recheckRoute_rechecked (K := K.logged) current ip stored u
  generalize recheckRoute K.logged current (.host ip stored) u = out at hcases hend hrecord ⊢
  cases hcases with
  | kept same =>
      have hstored : stored = some g := same.trans hcurrent
      exact h.held (hfresh hstored) g hstored
  | torn moved gone =>
      rw [hcurrent] at gone
      cases gone
  | installed moved now ok =>
      refine hend.held ?_ g hcurrent
      intro hlast
      simp only [Kernel.logged, lastAdd_append_add] at hlast ok
      rw [ok] at hlast
      cases hlast
  | failed moved now bad => exact absurd (AddedRoute.host.inj hrecord).2 moved

theorem stored_unique {routes : List AddedRoute} {ip : IpAddr} {a b : Option Token}
    (hnodup : (routes.map AddedRoute.dest).Nodup) (ha : .host ip a ∈ routes)
    (hb : .host ip b ∈ routes) : a = b := by
  have heq := List.inj_on_of_nodup_map hnodup ha hb rfl
  exact (AddedRoute.host.inj heq).2

/-- No entry that was installed with a gateway records the current default gateway
while the last add of its host route failed. -/
def NoLostRecord (K : Kernel σ) (s : σ) (routes rs : List AddedRoute) (log : RouteLog) :
    Prop :=
  ∀ ip g₀ g, .host ip (some g₀) ∈ routes → .host ip (some g) ∈ rs →
    K.table s ip.family.defaultDest = some (.gateway g) → lastAdd log ip ≠ some false

/-- After a recheck in which no add fails, the bypasses follow the default
gateway exactly when no record was of a lost route before it. -/
theorem recheck_follows_iff (hans : K.Answers) (hdel : K.DeletesSucceed) {s t : σ}
    {routes rs : List AddedRoute} {log : RouteLog}
    (hnodup : (routes.map AddedRoute.dest).Nodup) (hinst : Installed K s routes)
    (run : GatewayRun K s routes t rs log)
    (hclean : AddsOk (issued log (recheckRoutes K.logged rs (t, log)).2.2)) :
    FollowsGateway K (recheckRoutes K.logged rs (t, log)).2.1 routes ↔
      NoLostRecord K t routes rs log := by
  have hnd : (rs.map AddedRoute.dest).Nodup := run.dests ▸ hnodup
  have hdefault : ∀ family : Family,
      K.table (recheckRoutes K.logged rs (t, log)).2.1 family.defaultDest =
        K.table t family.defaultDest :=
    fun family => recheckRoutes_default (K := K.logged) rs family (t, log)
  have hcurrent : ∀ (family : Family) g, K.table t family.defaultDest = some (.gateway g) →
      currentGateways K.logged (t, log) family = some g := by
    intro family g hg
    rw [currentGateways_eq hans.logged, Kernel.table_logged, hg]
    rfl
  constructor
  · intro hfollows ip g₀ g hmem hrecord hgw hlast
    obtain ⟨stored, hstored, htracks⟩ := run.tracks hdel hnodup hinst hmem
    obtain rfl := stored_unique hnd hstored hrecord
    obtain ⟨u, hview, -, -, hafter, -⟩ := recheckRoutes_entry hnd hstored (t, log)
    have hkept : recheckRoute K.logged (currentGateways K.logged (t, log))
        (.host ip (some g)) u = (.host ip (some g), u) :=
      if_pos (hcurrent _ _ hgw).symm
    rw [hkept] at hafter
    have hgone : K.table (recheckRoutes K.logged rs (t, log)).2.1 ip.host = none :=
      (congrArg Prod.fst (hafter.trans hview)).trans (htracks.lost hlast)
    rw [hfollows ip g₀ g hmem ((hdefault _).trans hgw)] at hgone
    cases hgone
  · intro hfresh ip g₀ g hmem hgw
    rw [hdefault] at hgw
    obtain ⟨stored, hstored, htracks⟩ := run.tracks hdel hnodup hinst hmem
    obtain ⟨u, hview, hlog, -, hafter, hlog'⟩ := recheckRoutes_entry hnd hstored (t, log)
    have hlast : lastAdd u.2 ip = lastAdd log ip := congrArg Prod.snd hview
    have hhost : K.table (recheckRoutes K.logged rs (t, log)).2.1 ip.host = _ :=
      congrArg Prod.fst hafter
    rw [hhost]
    apply (htracks.of_view hview).follows hdel (hcurrent _ _ hgw)
    · intro hrecord
      rw [hlast]
      exact hfresh ip g₀ g hmem (hrecord ▸ hstored) hgw
    · exact hclean.of_issued hlog (recheckRoute_log _ _ u) hlog'

end Loop

section Sample

/-- The home table once the bypass of the server is installed. -/
def pinnedTable : RouteTable :=
  Function.update homeTable serverIp.host (some (.gateway homeRouter))

def pinnedRoutes : List AddedRoute := [.host serverIp (some homeRouter)]

/-- The laptop has moved to the other network, and the next adds follow a script. -/
def movedState (script : List Bool) : RouteTable × List Bool :=
  (withDefaults pinnedTable (routedBy cafeRouter), script)

theorem pinned_installed (script : List Bool) :
    Installed Kernel.scripted (pinnedTable, script) pinnedRoutes := by
  intro ip g hmem
  obtain ⟨rfl, hg⟩ := AddedRoute.host.inj (List.mem_singleton.mp hmem)
  obtain rfl := Option.some.inj hg
  have hroute : pinnedTable serverIp.host = some (.gateway homeRouter) := by decide
  exact hroute

theorem moved_run (script : List Bool) :
    GatewayRun Kernel.scripted (pinnedTable, script) pinnedRoutes (movedState script)
      pinnedRoutes [] :=
  .environment (routedBy cafeRouter) .start rfl

/-- After a move to another network one recheck brings the bypass along. -/
theorem recheck_follows_after_move :
    FollowsGateway Kernel.scripted
      (recheckRoutes Kernel.scripted.logged pinnedRoutes (movedState [], [])).2.1
      pinnedRoutes := by
  refine (recheck_follows_iff Kernel.scripted_answers Kernel.scripted_deletesSucceed
    (by decide) (pinned_installed []) (moved_run []) ?_).mpr ?_
  · intro t via ok hmem
    have hlog : issued [] (recheckRoutes Kernel.scripted.logged pinnedRoutes
        (movedState [], [])).2.2 =
        [(.delete (.host serverIp) none, true),
          (.add (.host serverIp) (.gateway cafeRouter), true)] := by decide
    simp only [hlog, List.mem_cons, Prod.mk.injEq, reduceCtorEq, false_and, false_or,
      List.not_mem_nil, or_false] at hmem
    exact hmem.2
  · intro ip g₀ g _ _ _ hlast
    cases hlast

/-- The add fails after the move, and the laptop comes back home. -/
def lostState : (RouteTable × List Bool) × RouteLog :=
  let out := (recheckRoutes Kernel.scripted.logged pinnedRoutes (movedState [false], [])).2
  ((withDefaults out.1.1 (routedBy homeRouter), out.1.2), out.2)

/-- Once an add has failed, a return to the recorded gateway leaves the endpoint
without its host route: the next recheck issues nothing. -/
theorem recheck_leaves_lost_bypass :
    ¬ ∀ (s t : RouteTable × List Bool) (routes rs : List AddedRoute) (log : RouteLog),
      (routes.map AddedRoute.dest).Nodup → Installed Kernel.scripted s routes →
      GatewayRun Kernel.scripted s routes t rs log →
      AddsOk (issued log (recheckRoutes Kernel.scripted.logged rs (t, log)).2.2) →
      FollowsGateway Kernel.scripted (recheckRoutes Kernel.scripted.logged rs (t, log)).2.1
        routes := by
  intro claim
  have hrun : GatewayRun Kernel.scripted (pinnedTable, [false]) pinnedRoutes lostState.1
      (recheckRoutes Kernel.scripted.logged pinnedRoutes (movedState [false], [])).1
      lostState.2 :=
    .environment (routedBy homeRouter) (.recheck (moved_run [false])) rfl
  have hfollows := claim _ _ _ _ _ (by decide) (pinned_installed [false]) hrun ?_
  · have hroute := hfollows serverIp homeRouter homeRouter (by decide) (by decide)
    exact absurd hroute (by decide)
  · intro t via ok hmem
    have hlog : issued lostState.2 (recheckRoutes Kernel.scripted.logged
        (recheckRoutes Kernel.scripted.logged pinnedRoutes (movedState [false], [])).1
        lostState).2.2 = [] := by decide
    exact absurd (hlog ▸ hmem) List.not_mem_nil

end Sample

end SmartGuard
