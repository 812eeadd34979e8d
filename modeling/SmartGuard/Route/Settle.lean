import SmartGuard.Route.Bypass

/-!
# A recheck that succeeds settles the bypasses

Where the commands that a recheck issues do what they can, every host entry comes to
record the current gateway of its family. Only the entries that recorded another one
cost commands, so nothing else changes, and a second recheck has nothing to do.
-/

namespace SmartGuard

open LongestMatch StateLoop

/-- The record that a recheck aims at. -/
def AddedRoute.settled (current : Family → Option Token) : AddedRoute → AddedRoute
  | .host ip _ => .host ip (current ip.family)
  | r => r

/-- The entry is the host route of `ip`, recorded with another gateway than the current one. -/
def Stale (current : Family → Option Token) (ip : IpAddr) (r : AddedRoute) : Prop :=
  ∃ stored, r = .host ip stored ∧ stored ≠ current ip.family

theorem IpAddr.host_inj {a b : IpAddr} (h : a.host = b.host) : a = b := by
  apply IpAddr.covers_host_iff.mp
  rw [← h]
  exact IpAddr.covers_host_iff.mpr rfl

variable {σ : Type*} (K : Kernel σ)

/-- The state in which a recheck comes to its `i`-th entry. -/
def recheckState (routes : List AddedRoute) (s : σ) (i : Nat) : σ :=
  stateAt (recheckRoute K (currentGateways K s)) routes i (afterQueries K s)

theorem recheckState_succ {routes : List AddedRoute} {s : σ} {i : Nat} {r : AddedRoute}
    (hi : routes[i]? = some r) :
    recheckState K routes s (i + 1) =
      (recheckRoute K (currentGateways K s) r (recheckState K routes s i)).2 := stateAt_succ hi

/-- Every delete of a present route and every add of an absent one that a recheck of the
list issues succeeds. -/
structure Obeyed (routes : List AddedRoute) (s : σ) : Prop where
  deletes : ∀ i ip r, routes[i]? = some r → Stale (currentGateways K s) ip r →
    K.table (recheckState K routes s i) ip.host ≠ none →
      (K.cmd (.delete (.host ip) none) (recheckState K routes s i)).1 = true
  adds : ∀ i ip r gw, routes[i]? = some r → Stale (currentGateways K s) ip r →
    currentGateways K s ip.family = some gw →
      K.table (K.cmd (.delete (.host ip) none) (recheckState K routes s i)).2 ip.host = none →
        (K.cmd (.add (.host ip) (.gateway gw))
          (K.cmd (.delete (.host ip) none) (recheckState K routes s i)).2).1 = true

/-- Where adds and deletes succeed whenever they can, each recheck is obeyed. -/
theorem Obeyed.of_succeed {K : Kernel σ} (hadd : K.AddsSucceed) (hdel : K.DeletesSucceed)
    (routes : List AddedRoute) (s : σ) : Obeyed K routes s where
  deletes _ _ _ _ _ hpresent := hdel _ _ _ hpresent
  adds _ _ _ _ _ _ _ habsent := hadd _ _ _ habsent

section Entry

variable {K}

/-- A delete that succeeds on a present route leaves the route absent. -/
theorem table_host_of_delete_of {ip : IpAddr} {s : σ}
    (h : K.table s ip.host ≠ none → (K.cmd (.delete (.host ip) none) s).1 = true) :
    K.table (K.cmd (.delete (.host ip) none) s).2 ip.host = none := by
  rw [K.table_delete]
  by_cases hpresent : K.table s ip.host = none
  · split
    · exact Function.update_self _ _ _
    · exact hpresent
  · rw [if_pos (h hpresent)]
    exact Function.update_self _ _ _

/-- A recheck of a host entry whose commands succeed records the current gateway, and
moves the host route to it if the record was another. -/
theorem recheckRoute_settles {current : Family → Option Token} {ip : IpAddr}
    {stored : Option Token} {s : σ}
    (hdel : stored ≠ current ip.family → K.table s ip.host ≠ none →
      (K.cmd (.delete (.host ip) none) s).1 = true)
    (hadd : ∀ gw, stored ≠ current ip.family → current ip.family = some gw →
      K.table (K.cmd (.delete (.host ip) none) s).2 ip.host = none →
        (K.cmd (.add (.host ip) (.gateway gw)) (K.cmd (.delete (.host ip) none) s).2).1 = true) :
    (recheckRoute K current (.host ip stored) s).1 = .host ip (current ip.family) ∧
      (stored ≠ current ip.family →
        K.table (recheckRoute K current (.host ip stored) s).2 ip.host =
          (current ip.family).map .gateway) := by
  have hcases := recheckRoute_rechecked (K := K) current ip stored s
  generalize recheckRoute K current (.host ip stored) s = out at hcases ⊢
  cases hcases with
  | kept same => exact ⟨congrArg _ same, fun moved => absurd same moved⟩
  | torn moved gone =>
      rw [gone]
      exact ⟨rfl, fun _ => table_host_of_delete_of (hdel moved)⟩
  | @installed gw moved now ok =>
      rw [now]
      refine ⟨rfl, fun _ => ?_⟩
      rw [K.table_add, if_pos ok]
      exact Function.update_self _ _ _
  | @failed gw moved now bad =>
      have hgone := table_host_of_delete_of (hdel moved)
      rw [hadd gw moved now hgone] at bad
      cases bad

/-- An entry that is not stale costs no command. -/
theorem recheckRoute_kept {current : Family → Option Token} {r : AddedRoute}
    (h : ∀ ip, ¬ Stale current ip r) (s : σ) : recheckRoute K current r s = (r, s) := by
  cases r with
  | host ip stored =>
      by_cases hstored : stored = current ip.family
      · exact if_pos hstored
      · exact absurd ⟨stored, rfl, hstored⟩ (h ip)
  | net pfx tun => rfl
  | passthrough pfx => rfl

theorem not_stale_settled (current : Family → Option Token) (r : AddedRoute) (ip : IpAddr) :
    ¬ Stale current ip (r.settled current) := by
  rintro ⟨stored, heq, hne⟩
  cases r with
  | host i g =>
      obtain ⟨rfl, rfl⟩ := AddedRoute.host.inj heq
      exact hne rfl
  | net pfx tun => cases heq
  | passthrough pfx => cases heq

end Entry

section Loop

variable {K} {routes : List AddedRoute} {s : σ}

theorem Obeyed.entry (h : Obeyed K routes s) {i : Nat} {ip : IpAddr} {stored : Option Token}
    (hi : routes[i]? = some (.host ip stored)) :
    (recheckRoute K (currentGateways K s) (.host ip stored) (recheckState K routes s i)).1 =
        .host ip (currentGateways K s ip.family) ∧
      (stored ≠ currentGateways K s ip.family →
        K.table (recheckRoute K (currentGateways K s) (.host ip stored)
          (recheckState K routes s i)).2 ip.host =
            (currentGateways K s ip.family).map .gateway) := by
  apply recheckRoute_settles
  · exact fun hne => h.deletes i ip _ hi ⟨stored, rfl, hne⟩
  · exact fun gw hne => h.adds i ip _ gw hi ⟨stored, rfl, hne⟩

/-- Every entry comes to be settled. -/
theorem Obeyed.settles (h : Obeyed K routes s) :
    (recheckRoutes K routes s).1 = routes.map (AddedRoute.settled (currentGateways K s)) := by
  apply List.ext_getElem?
  intro i
  rw [recheckRoutes_eq, mapState_getElem?, List.getElem?_map]
  cases hi : routes[i]? with
  | none => rfl
  | some r =>
      cases r with
      | host ip stored => exact congrArg some (h.entry hi).1
      | net pfx tun => rfl
      | passthrough pfx => rfl

/-- The host route of a stale entry comes to follow the current gateway, whatever the
entries after it do. -/
theorem Obeyed.moves (h : Obeyed K routes s) {ip : IpAddr} {r : AddedRoute} (hr : r ∈ routes)
    (hstale : Stale (currentGateways K s) ip r) :
    K.table (recheckRoutes K routes s).2 ip.host =
      (currentGateways K s ip.family).map .gateway := by
  rw [recheckRoutes_eq]
  refine mapState_establishes (f := recheckRoute K (currentGateways K s))
    (E := fun r t => ∀ ip, Stale (currentGateways K s) ip r →
      K.table t ip.host = (currentGateways K s ip.family).map .gateway) ?_ ?_ r hr ip hstale
  · rintro i r hi ip ⟨stored, rfl, hne⟩
    exact (h.entry hi).2 hne
  · intro i r b hi hr ip hstale
    by_cases hb : ∃ ip', Stale (currentGateways K s) ip' b
    · obtain ⟨ip', stored, rfl, hne⟩ := hb
      by_cases hsame : ip.host = ip'.host
      · obtain rfl := IpAddr.host_inj hsame
        exact (h.entry hi).2 hne
      · rw [recheckRoute_frame _ hsame]
        exact hr ip hstale
    · rw [recheckRoute_kept (not_exists.mp hb)]
      exact hr ip hstale

/-- Only the host routes of stale entries change. -/
theorem recheckRoutes_frame_stale {d : Dest}
    (hd : ∀ ip, ∀ r ∈ routes, Stale (currentGateways K s) ip r → d ≠ ip.host) :
    K.table (recheckRoutes K routes s).2 d = K.table s d := by
  have hentry : ∀ r ∈ routes, ∀ t,
      K.table (recheckRoute K (currentGateways K s) r t).2 d = K.table t d := by
    intro r hr t
    by_cases hstale : ∃ ip, Stale (currentGateways K s) ip r
    · obtain ⟨ip, hip⟩ := hstale
      have hne := hd ip r hr hip
      obtain ⟨stored, rfl, -⟩ := hip
      exact recheckRoute_frame _ hne t
    · rw [recheckRoute_kept (not_exists.mp hstale)]
  calc
    K.table (recheckRoutes K routes s).2 d = K.table (afterQueries K s) d :=
      mapState_rel (R := fun t u => K.table u d = K.table t d) (fun _ => rfl)
        (fun h₁ h₂ => h₂.trans h₁) hentry (afterQueries K s)
    _ = K.table s d := congrFun (table_afterQueries s) d

/-- A list without stale entries costs no command. -/
theorem recheckRoutes_of_not_stale
    (h : ∀ r ∈ routes, ∀ ip, ¬ Stale (currentGateways K s) ip r) :
    recheckRoutes K routes s = (routes, afterQueries K s) := by
  rw [recheckRoutes_eq]
  exact mapState_fixed (fun r hr t => recheckRoute_kept (h r hr) t) _

end Loop

variable {K}

/-- One recheck whose commands succeed settles every host entry and moves the host routes
of the stale ones, it changes no other entry and no other route, and a second one under
the same gateways issues no command. -/
theorem recheck_converges {routes : List AddedRoute} {s : σ} (h : Obeyed K routes s) :
    (recheckRoutes K routes s).1 = routes.map (AddedRoute.settled (currentGateways K s)) ∧
    (∀ ip stored, .host ip stored ∈ routes → stored ≠ currentGateways K s ip.family →
      K.table (recheckRoutes K routes s).2 ip.host =
        (currentGateways K s ip.family).map .gateway) ∧
    (∀ d, (∀ ip stored, .host ip stored ∈ routes → stored ≠ currentGateways K s ip.family →
      d ≠ ip.host) → K.table (recheckRoutes K routes s).2 d = K.table s d) ∧
    ∀ t, currentGateways K t = currentGateways K s →
      (recheckRoutes K.logged (recheckRoutes K routes s).1 (t, [])).1 =
          (recheckRoutes K routes s).1 ∧
        (recheckRoutes K.logged (recheckRoutes K routes s).1 (t, [])).2.2 = [] := by
  refine ⟨h.settles, ?_, ?_, ?_⟩
  · intro ip stored hmem hne
    exact h.moves hmem ⟨stored, rfl, hne⟩
  · intro d hd
    apply recheckRoutes_frame_stale
    rintro ip r hr ⟨stored, rfl, hne⟩
    exact hd ip stored hr hne
  · intro t ht
    have hnone : ∀ r ∈ (recheckRoutes K routes s).1, ∀ ip,
        ¬ Stale (currentGateways K.logged (t, [])) ip r := by
      intro r hr ip
      rw [h.settles] at hr
      obtain ⟨r, -, rfl⟩ := List.mem_map.mp hr
      have hsame : currentGateways K.logged (t, []) = currentGateways K s := ht
      rw [hsame]
      exact not_stale_settled _ r ip
    rw [recheckRoutes_of_not_stale hnone]
    exact ⟨rfl, rfl⟩

/-- After a move to another network one recheck records and installs its router. -/
theorem recheck_converges_after_move :
    (recheckRoutes Kernel.ideal pinnedRoutes
        (withDefaults pinnedTable (routedBy cafeRouter), ())).1 =
      [.host serverIp (some cafeRouter)] ∧
    (recheckRoutes Kernel.ideal pinnedRoutes
        (withDefaults pinnedTable (routedBy cafeRouter), ())).2.1 serverIp.host =
      some (.gateway cafeRouter) := by
  have hcurrent : currentGateways Kernel.ideal
      (withDefaults pinnedTable (routedBy cafeRouter), ()) serverIp.family = some cafeRouter := by
    rw [currentGateways_eq Kernel.ideal_answers]
    rfl
  obtain ⟨hrecords, hmoves, -, -⟩ := recheck_converges (Obeyed.of_succeed
    Kernel.ideal_addsSucceed (Kernel.simulated_deletesSucceed _) pinnedRoutes
    (withDefaults pinnedTable (routedBy cafeRouter), ()))
  constructor
  · rw [hrecords]
    exact congrArg (fun gw => [AddedRoute.host serverIp gw]) hcurrent
  · have hstale : some homeRouter ≠ currentGateways Kernel.ideal
        (withDefaults pinnedTable (routedBy cafeRouter), ()) serverIp.family := by
      rw [hcurrent]
      decide
    have hroute := hmoves serverIp (some homeRouter) List.mem_cons_self hstale
    rw [hcurrent] at hroute
    exact hroute

end SmartGuard
