import SmartGuard.Route.Setup

/-!
# Rechecking the endpoint bypasses

A recheck reads the current default gateway of each family and moves every
host route whose recorded gateway differs from it. Nothing else is touched.
-/

namespace SmartGuard

open LongestMatch StateLoop

variable {σ : Type*} (K : Kernel σ)

def currentDefaultGateway (family : Family) (s : σ) : Option Token × σ :=
  let answer := getRouteInfo K (.default family) s
  (answer.1.bind RouteInfo.gateway, answer.2)

/-- The body of the loop over the added routes, under the current gateways. -/
def recheckRoute (current : Family → Option Token) (r : AddedRoute) (s : σ) : AddedRoute × σ :=
  match r with
  | .host ip stored =>
      if stored = current ip.family then (r, s)
      else
        let deleted := K.cmd (.delete (.host ip) none) s
        match current ip.family with
        | some gw =>
            let installed := K.cmd (.add (.host ip) (.gateway gw)) deleted.2
            (if installed.1 then .host ip (some gw) else r, installed.2)
        | none => (.host ip none, deleted.2)
  | _ => (r, s)

/-- The gateway of each family, as the two queries of a recheck found it. -/
def gateways (v4 v6 : Option Token) : Family → Option Token
  | .V4 => v4
  | .V6 => v6

def recheckRoutes (addedRoutes : List AddedRoute) (s : σ) : List AddedRoute × σ :=
  let v4 := currentDefaultGateway K .V4 s
  let v6 := currentDefaultGateway K .V6 v4.2
  mapState (recheckRoute K (gateways v4.1 v6.1)) addedRoutes v6.2

section Queries

/-- The state after the two queries of a recheck. -/
def afterQueries (s : σ) : σ :=
  (currentDefaultGateway K .V6 (currentDefaultGateway K .V4 s).2).2

/-- The gateways that the two queries of a recheck find. -/
def currentGateways (s : σ) : Family → Option Token :=
  gateways (currentDefaultGateway K .V4 s).1
    (currentDefaultGateway K .V6 (currentDefaultGateway K .V4 s).2).1

theorem recheckRoutes_eq (routes : List AddedRoute) (s : σ) :
    recheckRoutes K routes s =
      mapState (recheckRoute K (currentGateways K s)) routes (afterQueries K s) := rfl

def NextHop.viaGateway : NextHop → Option Token
  | .gateway gw => some gw
  | .interface _ => none

theorem NextHop.eq_gateway {hop : NextHop} {g : Token} (h : hop.viaGateway = some g) :
    hop = .gateway g := by
  cases hop with
  | gateway gw => exact congrArg NextHop.gateway (Option.some.inj h)
  | interface iface => cases h

theorem RouteInfo.gateway_eq {info : RouteInfo} {hop : NextHop} (h : info.hop = some hop) :
    info.gateway = hop.viaGateway := by
  unfold RouteInfo.hop at h
  cases hgw : info.gateway with
  | some gw =>
      simp only [hgw, Option.some.injEq] at h
      rw [← h]
      rfl
  | none =>
      simp only [hgw, Option.map_eq_some_iff] at h
      obtain ⟨iface, -, rfl⟩ := h
      rfl

variable {K}

@[simp] theorem table_currentDefaultGateway (family : Family) (s : σ) :
    K.table (currentDefaultGateway K family s).2 = K.table s := K.table_getRouteInfo _ _

@[simp] theorem table_afterQueries (s : σ) : K.table (afterQueries K s) = K.table s :=
  (table_currentDefaultGateway _ _).trans (table_currentDefaultGateway _ _)

theorem currentDefaultGateway_eq (hans : K.Answers) (family : Family) (s : σ) :
    (currentDefaultGateway K family s).1 =
      (K.table s family.defaultDest).bind NextHop.viaGateway := by
  change (getRouteInfo K (.default family) s).1.bind RouteInfo.gateway = _
  cases hq : (getRouteInfo K (.default family) s).1 with
  | none =>
      have hroute : K.table s family.defaultDest = none := hans.no_answer hq
      rw [hroute]
      rfl
  | some info =>
      obtain ⟨hop, hroute, hhop⟩ := hans.answer hq
      have hroute' : K.table s family.defaultDest = some hop := hroute
      rw [hroute']
      exact RouteInfo.gateway_eq hhop

/-- The queries of a recheck find the gateways of the default routes. -/
theorem currentGateways_eq (hans : K.Answers) (s : σ) (family : Family) :
    currentGateways K s family =
      (K.table s family.defaultDest).bind NextHop.viaGateway := by
  cases family with
  | V4 => exact currentDefaultGateway_eq hans .V4 s
  | V6 =>
      have h := currentDefaultGateway_eq hans .V6 (currentDefaultGateway K .V4 s).2
      rwa [table_currentDefaultGateway] at h

end Queries

section Frame

variable {K}

/-- What a recheck does with a host entry: it keeps it, tears it down, moves it to
the current gateway, or fails to add it again after the delete. -/
inductive Rechecked (K : Kernel σ) (current : Family → Option Token) (ip : IpAddr)
    (stored : Option Token) (s : σ) : AddedRoute × σ → Prop
  | kept (same : stored = current ip.family) :
      Rechecked K current ip stored s (.host ip stored, s)
  | torn (moved : stored ≠ current ip.family) (gone : current ip.family = none) :
      Rechecked K current ip stored s
        (.host ip none, (K.cmd (.delete (.host ip) none) s).2)
  | installed {gw} (moved : stored ≠ current ip.family) (now : current ip.family = some gw)
      (ok : (K.cmd (.add (.host ip) (.gateway gw))
        (K.cmd (.delete (.host ip) none) s).2).1 = true) :
      Rechecked K current ip stored s
        (.host ip (some gw), (K.cmd (.add (.host ip) (.gateway gw))
          (K.cmd (.delete (.host ip) none) s).2).2)
  | failed {gw} (moved : stored ≠ current ip.family) (now : current ip.family = some gw)
      (bad : (K.cmd (.add (.host ip) (.gateway gw))
        (K.cmd (.delete (.host ip) none) s).2).1 = false) :
      Rechecked K current ip stored s
        (.host ip stored, (K.cmd (.add (.host ip) (.gateway gw))
          (K.cmd (.delete (.host ip) none) s).2).2)

theorem recheckRoute_rechecked (current : Family → Option Token) (ip : IpAddr)
    (stored : Option Token) (s : σ) :
    Rechecked K current ip stored s (recheckRoute K current (.host ip stored) s) := by
  simp only [recheckRoute]
  split
  · next same => exact .kept same
  · next moved =>
      cases hcur : current ip.family with
      | none => exact .torn moved hcur
      | some gw =>
          cases hok : (K.cmd (.add (.host ip) (.gateway gw))
              (K.cmd (.delete (.host ip) none) s).2).1 with
          | true => simpa only [hok, if_true] using Rechecked.installed moved hcur hok
          | false =>
              simpa only [hok, Bool.false_eq_true, if_false] using
                Rechecked.failed moved hcur hok

/-- A recheck of a host entry changes its record only. -/
theorem recheckRoute_host (current : Family → Option Token) (ip : IpAddr)
    (stored : Option Token) (s : σ) :
    ∃ stored', (recheckRoute K current (.host ip stored) s).1 = .host ip stored' := by
  have h := recheckRoute_rechecked (K := K) current ip stored s
  generalize recheckRoute K current (.host ip stored) s = out at h ⊢
  cases h <;> exact ⟨_, rfl⟩

/-- A recheck of an entry keeps its destination. -/
theorem recheckRoute_dest (current : Family → Option Token) (r : AddedRoute) (s : σ) :
    (recheckRoute K current r s).1.dest = r.dest := by
  cases r with
  | host ip stored =>
      obtain ⟨stored', h⟩ := recheckRoute_host (K := K) current ip stored s
      rw [h]
      rfl
  | net pfx tun => rfl
  | passthrough pfx => rfl

/-- A recheck of an entry changes the table at its own destination only. -/
theorem recheckRoute_frame (current : Family → Option Token) {r : AddedRoute} {d : Dest}
    (h : d ≠ r.dest) (s : σ) :
    K.table (recheckRoute K current r s).2 d = K.table s d := by
  cases r with
  | host ip stored =>
      have hdel := K.table_delete_of_ne (t := .host ip) none s h
      have hcases := recheckRoute_rechecked (K := K) current ip stored s
      generalize recheckRoute K current (.host ip stored) s = out at hcases ⊢
      cases hcases with
      | kept same => rfl
      | torn moved gone => exact hdel
      | installed moved now ok => exact (K.table_add_of_ne (t := .host ip) _ _ h).trans hdel
      | failed moved now bad => exact (K.table_add_of_ne (t := .host ip) _ _ h).trans hdel
  | net pfx tun => rfl
  | passthrough pfx => rfl

theorem mapState_recheckRoute_frame (current : Family → Option Token)
    {routes : List AddedRoute} {d : Dest} (h : d ∉ routes.map AddedRoute.dest) (s : σ) :
    K.table (mapState (recheckRoute K current) routes s).2 d = K.table s d := by
  refine mapState_rel (R := fun s t => K.table t d = K.table s d) (fun _ => rfl)
    (fun h₁ h₂ => h₂.trans h₁) (fun r hr t => recheckRoute_frame current ?_ t) s
  rintro rfl
  exact h (List.mem_map_of_mem hr)

/-- A recheck keeps the destinations of the list, in order. -/
theorem recheckRoutes_dests (routes : List AddedRoute) (s : σ) :
    (recheckRoutes K routes s).1.map AddedRoute.dest = routes.map AddedRoute.dest :=
  mapState_map (recheckRoute_dest _) routes _

/-- A recheck changes the table at recorded destinations only. -/
theorem recheckRoutes_frame {routes : List AddedRoute} {d : Dest}
    (h : d ∉ routes.map AddedRoute.dest) (s : σ) :
    K.table (recheckRoutes K routes s).2 d = K.table s d := by
  calc
    K.table (recheckRoutes K routes s).2 d = K.table (afterQueries K s) d :=
      mapState_recheckRoute_frame _ h _
    _ = K.table s d := congrFun (table_afterQueries s) d

/-- A recheck never touches a default route. -/
theorem recheckRoutes_default (routes : List AddedRoute) (family : Family) (s : σ) :
    K.table (recheckRoutes K routes s).2 family.defaultDest =
      K.table s family.defaultDest := by
  have hone : ∀ r ∈ routes, ∀ t, K.table (recheckRoute K (currentGateways K s) r t).2
      family.defaultDest = K.table t family.defaultDest := by
    intro r _ t
    cases r with
    | host ip stored =>
        refine recheckRoute_frame _ ?_ t
        intro heq
        have hlen := congrArg Dest.len heq
        rw [Family.len_defaultDest, AddedRoute.dest_host, IpAddr.len_host] at hlen
        exact ip.family.width_pos.ne hlen
    | net pfx tun => rfl
    | passthrough pfx => rfl
  rw [recheckRoutes_eq]
  refine (mapState_rel (R := fun s t => K.table t family.defaultDest =
    K.table s family.defaultDest) (fun _ => rfl) (fun h₁ h₂ => h₂.trans h₁) hone _).trans ?_
  exact congrFun (table_afterQueries s) _

end Frame

end SmartGuard
