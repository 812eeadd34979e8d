import SmartGuard.Route.Settle
import SmartGuard.Route.Underlay

/-!
# The bypasses that were installed through an interface

A bypass without a gateway is recorded like one that was torn down. So a recheck leaves
it alone only while its family has no default gateway, and brings the torn-down one back
as soon as there is one.

## Implementation notes

What a recheck issues is told apart by entry: the commands for an entry are those that are
logged while the loop rewrites it. Between two rechecks the environment may leave the
kernel in any state.
-/

namespace SmartGuard

open LongestMatch StateLoop

variable {σ : Type*} (K : Kernel σ)

/-- The commands that a recheck of the list issues for its `i`-th entry. -/
def entryLog (routes : List AddedRoute) (s : σ) (i : Nat) : RouteLog :=
  match routes[i]? with
  | none => []
  | some r =>
      (recheckRoute K.logged (currentGateways K s) r (recheckState K routes s i, [])).2.2

/-- Rechecks in any states of the kernel. The past holds the list and the state that each
of them started from. -/
inductive Rechecks (routes : List AddedRoute) :
    List AddedRoute → List (List AddedRoute × σ) → Prop
  | start : Rechecks routes routes []
  | recheck {rs past} (run : Rechecks routes rs past) (s : σ) :
      Rechecks routes (recheckRoutes K rs s).1 (past ++ [(rs, s)])

section Log

variable {K}

/-- The log does not take part in a recheck, which only appends to it. -/
theorem recheckRoute_logged (current : Family → Option Token) (r : AddedRoute) (s : σ)
    (log : RouteLog) :
    recheckRoute K.logged current r (s, log) =
      ((recheckRoute K current r s).1, (recheckRoute K current r s).2,
        log ++ (recheckRoute K.logged current r (s, [])).2.2) := by
  cases r with
  | host ip stored =>
      simp only [recheckRoute]
      split
      · rw [List.append_nil]
      · cases current ip.family with
        | none => rfl
        | some gw => simp only [Kernel.logged, List.nil_append, List.append_assoc]
  | net pfx tun => exact congrArg (fun l => (AddedRoute.net pfx tun, s, l)) (List.append_nil _).symm
  | passthrough pfx =>
      exact congrArg (fun l => (AddedRoute.passthrough pfx, s, l)) (List.append_nil _).symm

theorem stateAt_logged (routes : List AddedRoute) (s : σ) (log : RouteLog) :
    ∀ i ≤ routes.length,
      stateAt (recheckRoute K.logged (currentGateways K s)) routes i (afterQueries K s, log) =
        (recheckState K routes s i, log ++ (List.range i).flatMap (entryLog K routes s)) := by
  refine stateAt_induct (I := fun i t => t = (recheckState K routes s i,
    log ++ (List.range i).flatMap (entryLog K routes s))) ?_ ?_
  · rw [List.range_zero, List.flatMap_nil, List.append_nil]
    rfl
  · intro i r hi ih
    have hentry : entryLog K routes s i =
        (recheckRoute K.logged (currentGateways K s) r (recheckState K routes s i, [])).2.2 := by
      rw [entryLog, hi]
    rw [ih, recheckRoute_logged, recheckState_succ K hi, List.range_succ, List.flatMap_append,
      List.flatMap_singleton, hentry, List.append_assoc]

/-- A recheck issues the commands of its entries, in order. -/
theorem recheckRoutes_logged (routes : List AddedRoute) (s : σ) (log : RouteLog) :
    recheckRoutes K.logged routes (s, log) =
      ((recheckRoutes K routes s).1, (recheckRoutes K routes s).2,
        log ++ (List.range routes.length).flatMap (entryLog K routes s)) := by
  have hstate := stateAt_logged (K := K) routes s log routes.length (Nat.le_refl _)
  have hlast : recheckState K routes s routes.length = (recheckRoutes K routes s).2 :=
    stateAt_length
  rw [stateAt_length, hlast] at hstate
  refine Prod.ext ?_ hstate
  apply List.ext_getElem?
  intro i
  rw [recheckRoutes_eq, recheckRoutes_eq, mapState_getElem?, mapState_getElem?]
  cases hi : routes[i]? with
  | none => rfl
  | some r =>
      have hle : i ≤ routes.length := (List.getElem?_eq_some_iff.mp hi).1.le
      have hat := stateAt_logged (K := K) routes s log i hle
      have hqueries : afterQueries K.logged (s, log) = (afterQueries K s, log) := rfl
      have hcurrent : currentGateways K.logged (s, log) = currentGateways K s := rfl
      rw [hqueries, hcurrent, Option.map_some, Option.map_some, hat, recheckRoute_logged]
      rfl

/-- What a recheck issues for a host entry: nothing, or a delete and, if there is a gateway,
an add. -/
theorem entryLog_host {routes : List AddedRoute} {s : σ} {i : Nat} {ip : IpAddr}
    {stored : Option Token} (hi : routes[i]? = some (.host ip stored)) :
    entryLog K routes s i =
      if stored = currentGateways K s ip.family then []
      else
        let deleted := K.cmd (.delete (.host ip) none) (recheckState K routes s i)
        (.delete (.host ip) none, deleted.1) ::
          match currentGateways K s ip.family with
          | none => []
          | some gw =>
              [(.add (.host ip) (.gateway gw), (K.cmd (.add (.host ip) (.gateway gw)) deleted.2).1)]
    := by
  simp only [entryLog, hi, recheckRoute]
  split
  · rfl
  · cases currentGateways K s ip.family with
    | none => rfl
    | some gw => rfl

/-- A host entry costs no command exactly if it records the current gateway. -/
theorem entryLog_eq_nil_iff {routes : List AddedRoute} {s : σ} {i : Nat} {ip : IpAddr}
    {stored : Option Token} (hi : routes[i]? = some (.host ip stored)) :
    entryLog K routes s i = [] ↔ stored = currentGateways K s ip.family := by
  rw [entryLog_host hi]
  split
  · next same => exact ⟨fun _ => same, fun _ => rfl⟩
  · next moved => exact ⟨fun h => absurd h (List.cons_ne_nil _ _), fun h => absurd h moved⟩

/-- A host entry without commands keeps its record. -/
theorem recheckRoutes_getElem?_kept {routes : List AddedRoute} {s : σ} {i : Nat} {ip : IpAddr}
    {stored : Option Token} (hi : routes[i]? = some (.host ip stored))
    (same : stored = currentGateways K s ip.family) :
    (recheckRoutes K routes s).1[i]? = some (.host ip stored) := by
  rw [recheckRoutes_eq, mapState_getElem?, hi, Option.map_some, recheckRoute, if_pos same]

end Log

section Runs

variable {K}

/-- A torn-down entry is deleted and added again once there is a gateway. If the add
succeeds it is recorded and installed, else the record stays torn down. -/
theorem recheck_reinstalls {routes : List AddedRoute} {s : σ} {i : Nat} {ip : IpAddr} {gw : Token}
    (hi : routes[i]? = some (.host ip none)) (now : currentGateways K s ip.family = some gw) :
    ∃ deleted added, entryLog K routes s i =
        [(.delete (.host ip) none, deleted), (.add (.host ip) (.gateway gw), added)] ∧
      (recheckRoutes K routes s).1[i]? = some (.host ip (if added then some gw else none)) ∧
      (added = true →
        K.table (recheckState K routes s (i + 1)) ip.host = some (.gateway gw)) := by
  have moved : none ≠ currentGateways K s ip.family := by
    rw [now]
    exact nofun
  have hout : recheckRoute K (currentGateways K s) (.host ip none) (recheckState K routes s i) =
      (if (K.cmd (.add (.host ip) (.gateway gw))
          (K.cmd (.delete (.host ip) none) (recheckState K routes s i)).2).1
        then .host ip (some gw) else .host ip none,
        (K.cmd (.add (.host ip) (.gateway gw))
          (K.cmd (.delete (.host ip) none) (recheckState K routes s i)).2).2) := by
    simp only [recheckRoute, now, reduceCtorEq, if_false]
  refine ⟨(K.cmd (.delete (.host ip) none) (recheckState K routes s i)).1,
    (K.cmd (.add (.host ip) (.gateway gw))
      (K.cmd (.delete (.host ip) none) (recheckState K routes s i)).2).1, ?_, ?_, ?_⟩
  · rw [entryLog_host hi, if_neg moved, now]
  · rw [recheckRoutes_eq, mapState_getElem?, hi, Option.map_some]
    refine congrArg some ((congrArg Prod.fst hout).trans ?_)
    split
    · rfl
    · rfl
  · intro ok
    rw [recheckState_succ K hi, hout, K.table_add, if_pos ok]
    exact Function.update_self _ _ _

/-- An entry without a gateway is left alone in a run exactly if no recheck of it finds a
default gateway, and it then keeps its record. -/
theorem Rechecks.untouched {routes rs : List AddedRoute} {past : List (List AddedRoute × σ)}
    (run : Rechecks K routes rs past) {i : Nat} {ip : IpAddr}
    (hi : routes[i]? = some (.host ip none)) :
    ((∀ visit ∈ past, entryLog K visit.1 visit.2 i = []) ↔
        ∀ visit ∈ past, currentGateways K visit.2 ip.family = none) ∧
      ((∀ visit ∈ past, entryLog K visit.1 visit.2 i = []) → rs[i]? = some (.host ip none)) := by
  induction run with
  | start => exact ⟨⟨nofun, nofun⟩, fun _ => hi⟩
  | @recheck rs past run s ih =>
      obtain ⟨hiff, hkept⟩ := ih
      simp only [List.forall_mem_append, List.forall_mem_singleton]
      constructor
      · constructor
        · rintro ⟨hpast, hlast⟩
          exact ⟨hiff.mp hpast, ((entryLog_eq_nil_iff (hkept hpast)).mp hlast).symm⟩
        · rintro ⟨hpast, hlast⟩
          have hquiet := hiff.mpr hpast
          exact ⟨hquiet, (entryLog_eq_nil_iff (hkept hquiet)).mpr hlast.symm⟩
      · rintro ⟨hpast, hlast⟩
        have hrecord := hkept hpast
        exact recheckRoutes_getElem?_kept hrecord ((entryLog_eq_nil_iff hrecord).mp hlast)

end Runs

variable {K}

/-- In every run of rechecks a bypass that was installed through an interface is left alone
exactly if none of them finds a default gateway of its family, and an entry that was torn
down comes back with the first gateway whose add succeeds. What a recheck issues is what it
issues for its entries. -/
theorem interface_bypass_untouched_iff {routes rs : List AddedRoute}
    {past : List (List AddedRoute × σ)} (run : Rechecks K routes rs past) :
    (∀ i ip, routes[i]? = some (.host ip none) →
      ((∀ visit ∈ past, entryLog K visit.1 visit.2 i = []) ∧ rs[i]? = some (.host ip none) ↔
        ∀ visit ∈ past, currentGateways K visit.2 ip.family = none)) ∧
    (∀ visit ∈ past, ∀ i ip gw, visit.1[i]? = some (.host ip none) →
      currentGateways K visit.2 ip.family = some gw →
      ∃ deleted added, entryLog K visit.1 visit.2 i =
          [(.delete (.host ip) none, deleted), (.add (.host ip) (.gateway gw), added)] ∧
        (recheckRoutes K visit.1 visit.2).1[i]? =
          some (.host ip (if added then some gw else none)) ∧
        (added = true →
          K.table (recheckState K visit.1 visit.2 (i + 1)) ip.host = some (.gateway gw))) ∧
    ∀ visit ∈ past, ∀ log, recheckRoutes K.logged visit.1 (visit.2, log) =
      ((recheckRoutes K visit.1 visit.2).1, (recheckRoutes K visit.1 visit.2).2,
        log ++ (List.range visit.1.length).flatMap (entryLog K visit.1 visit.2)) := by
  refine ⟨?_, ?_, fun visit _ log => recheckRoutes_logged visit.1 visit.2 log⟩
  · intro i ip hi
    obtain ⟨hiff, hkept⟩ := run.untouched hi
    exact ⟨fun h => hiff.mp h.1, fun h => ⟨hiff.mpr h, hkept (hiff.mpr h)⟩⟩
  · intro visit _ i ip gw hi now
    exact recheck_reinstalls hi now

section Sample

/-- A peer on the home network itself: `192.168.1.50`. -/
def neighbourIp : IpAddr := .ofOctets .V4 [192, 168, 1, 50]

/-- The home network is reached through its interface, the rest through the router. -/
def lanTable : RouteTable :=
  Function.update homeTable (IpNet.ofOctets .V4 [192, 168, 1, 0] 24).dest (some (.interface en0))

/-- Start-up with everything routed into the tunnel, and the neighbour as the peer. -/
def lanStart : List AddedRoute × RouteTable × Unit :=
  startUp Kernel.ideal utun5 [.ofOctets .V4 [0, 0, 0, 0] 0] [.V4 neighbourIp.bits 51820] dualStack
    (lanTable, ())

theorem lanStart_neighbour : lanStart.1[0]? = some (.host neighbourIp none) := by
  decide +kernel

/-- On a network without a default gateway a recheck leaves the neighbour alone. -/
theorem offline_recheck_keeps_neighbour :
    (recheckRoutes Kernel.ideal lanStart.1 (withDefaults lanStart.2.1 fun _ => none, ())).1[0]? =
      some (.host neighbourIp none) := by
  have run : Rechecks Kernel.ideal lanStart.1 _ _ :=
    .recheck .start (withDefaults lanStart.2.1 fun _ => none, ())
  obtain ⟨huntouched, -⟩ := interface_bypass_untouched_iff run
  refine ((huntouched 0 neighbourIp lanStart_neighbour).mpr ?_).2
  intro visit hvisit
  obtain rfl := List.mem_singleton.mp hvisit
  rw [currentGateways_eq Kernel.ideal_answers]
  rfl

/-- On the network where it started the first recheck moves the neighbour to the router. -/
theorem first_recheck_moves_neighbour :
    ¬ ∀ (routes rs : List AddedRoute) (past : List (List AddedRoute × (RouteTable × Unit))),
      Rechecks Kernel.ideal routes rs past → ∀ i ip, routes[i]? = some (.host ip none) →
        (∀ visit ∈ past, entryLog Kernel.ideal visit.1 visit.2 i = []) ∧
          rs[i]? = some (.host ip none) := by
  intro claim
  have hkept := (claim _ _ _ (.recheck .start lanStart.2) 0 neighbourIp lanStart_neighbour).2
  have hmoved : (recheckRoutes Kernel.ideal lanStart.1 lanStart.2).1[0]? =
      some (.host neighbourIp (some homeRouter)) := by
    decide +kernel
  rw [hmoved] at hkept
  cases hkept

end Sample

end SmartGuard
