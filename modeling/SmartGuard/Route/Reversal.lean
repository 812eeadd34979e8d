import SmartGuard.Route.Recheck

/-!
# Every route change is reversed on exit

The life of the tunnel is start-up, then rechecks and changes of other routes in
any order, then the clean-up. Beside it runs the table that the host would have
had without the program: the original one with only the changes that others made.
The invariant ties the two to the recorded destinations, which are the only ones
that others have to leave alone.
-/

namespace SmartGuard

open LongestMatch

/-- Replace the default route of every family. -/
def withDefaults (T : RouteTable) (defaults : Family → Option NextHop) : RouteTable :=
  fun d => if d.len = 0 then defaults d.family else T d

theorem withDefaults_of_ne {T : RouteTable} {defaults : Family → Option NextHop} {d : Dest}
    (h : d.len ≠ 0) : withDefaults T defaults d = T d := if_neg h

/-- A change of routes: at each destination that it names, the route afterwards. -/
abbrev RouteChange := Dest → Option (Option NextHop)

def changed (T : RouteTable) (change : RouteChange) : RouteTable :=
  fun d => (change d).getD (T d)

theorem changed_of_none {T : RouteTable} {change : RouteChange} {d : Dest}
    (h : change d = none) : changed T change d = T d := by
  rw [changed, h, Option.getD_none]

/-- The change of the default route of every family. -/
def defaultChange (defaults : Family → Option NextHop) : RouteChange :=
  fun d => if d.len = 0 then some (defaults d.family) else none

theorem defaultChange_of_ne (defaults : Family → Option NextHop) {d : Dest} (h : d.len ≠ 0) :
    defaultChange defaults d = none := if_neg h

theorem changed_default (T : RouteTable) (defaults : Family → Option NextHop) :
    changed T (defaultChange defaults) = withDefaults T defaults := by
  ext1 d
  unfold changed defaultChange withDefaults
  split <;> rfl

/-- A change that leaves the recorded routes alone, but for default routes. -/
def RouteChange.Spares (change : RouteChange) (dests : List Dest) : Prop :=
  ∀ d ∈ dests, d.len ≠ 0 → change d = none

theorem spares_defaultChange (defaults : Family → Option NextHop) (dests : List Dest) :
    (defaultChange defaults).Spares dests := fun _ _ h => defaultChange_of_ne defaults h

variable {σ : Type*} (K : Kernel σ)

/-- The run of the program after start-up, from a kernel state, the recorded
routes and the table without the program. -/
inductive Life (s : σ) (routes : List AddedRoute) (T : RouteTable) :
    σ → List AddedRoute → RouteTable → Prop
  | start : Life s routes T s routes T
  | environment {t rs U} (change : RouteChange) {u : σ} (run : Life s routes T t rs U)
      (spares : change.Spares (rs.map AddedRoute.dest))
      (table : K.table u = changed (K.table t) change) :
      Life s routes T u rs (changed U change)
  | recheck {t rs U} (run : Life s routes T t rs U) :
      Life s routes T (recheckRoutes K rs t).2 (recheckRoutes K rs t).1 U

section Invariant

variable {K}

/-- The recorded destinations are proper, absent without the program, and cover
every difference between the two tables. -/
structure Reversible (K : Kernel σ) (s : σ) (routes : List AddedRoute) (T : RouteTable) :
    Prop where
  agree : ∀ d, d ∉ routes.map AddedRoute.dest → K.table s d = T d
  absent : ∀ d ∈ routes.map AddedRoute.dest, T d = none
  proper : ∀ d ∈ routes.map AddedRoute.dest, d.len ≠ 0

theorem Records.reversible {s t : σ} {routes : List AddedRoute} (h : Records K s routes t) :
    Reversible K t routes (K.table s) where
  agree := h.frame
  absent d hd := by
    obtain ⟨r, hr, rfl⟩ := List.mem_map.mp hd
    exact h.absent r hr
  proper d hd := by
    obtain ⟨r, hr, rfl⟩ := List.mem_map.mp hd
    exact h.proper r hr

theorem Reversible.environment {s t : σ} {routes : List AddedRoute} {T : RouteTable}
    {change : RouteChange} (h : Reversible K s routes T)
    (spares : change.Spares (routes.map AddedRoute.dest))
    (table : K.table t = changed (K.table s) change) :
    Reversible K t routes (changed T change) where
  agree d hd := by
    rw [table]
    unfold changed
    rw [h.agree d hd]
  absent d hd := (changed_of_none (spares d hd (h.proper d hd))).trans (h.absent d hd)
  proper := h.proper

theorem Reversible.recheck {s : σ} {routes : List AddedRoute} {T : RouteTable}
    (h : Reversible K s routes T) :
    Reversible K (recheckRoutes K routes s).2 (recheckRoutes K routes s).1 T where
  agree d hd := by
    rw [recheckRoutes_dests] at hd
    exact (recheckRoutes_frame hd s).trans (h.agree d hd)
  absent := by
    rw [recheckRoutes_dests]
    exact h.absent
  proper := by
    rw [recheckRoutes_dests]
    exact h.proper

/-- The invariant holds throughout the life of the program. -/
theorem Life.reversible {s t : σ} {routes rs : List AddedRoute} {T U : RouteTable}
    (life : Life K s routes T t rs U) (h : Reversible K s routes T) : Reversible K t rs U := by
  induction life with
  | start => exact h
  | environment change run spares table ih => exact ih.environment spares table
  | recheck run ih => exact ih.recheck

end Invariant

section Cleanup

variable {K}

theorem cleanupRoute_eq (r : AddedRoute) (s : σ) :
    ∃ iface, cleanupRoute K r s = (K.cmd (.delete r.target iface) s).2 := by
  cases r with
  | net pfx tun => exact ⟨some tun, rfl⟩
  | host ip gw => exact ⟨none, rfl⟩
  | passthrough pfx => exact ⟨none, rfl⟩

/-- Cleaning up one record removes its destination and nothing else. -/
theorem table_cleanupRoute (hdel : K.DeletesSucceed) (r : AddedRoute) (s : σ) :
    K.table (cleanupRoute K r s) = Function.update (K.table s) r.dest none := by
  obtain ⟨iface, heq⟩ := cleanupRoute_eq (K := K) r s
  rw [heq]
  exact Kernel.table_delete_of_succeed hdel _ _ _

/-- The clean-up removes the recorded destinations and nothing else. -/
theorem table_cleanupRoutes (hdel : K.DeletesSucceed) (routes : List AddedRoute) (s : σ)
    (d : Dest) :
    K.table (cleanupRoutes K routes s) d =
      if d ∈ routes.map AddedRoute.dest then none else K.table s d := by
  induction routes generalizing s with
  | nil => rfl
  | cons r rest ih =>
      have hstep : cleanupRoutes K (r :: rest) s = cleanupRoutes K rest (cleanupRoute K r s) := rfl
      rw [hstep, ih, table_cleanupRoute hdel]
      simp only [List.map_cons, List.mem_cons]
      by_cases hrest : d ∈ rest.map AddedRoute.dest
      · simp [hrest]
      · by_cases hd : d = r.dest
        · simp [hd]
        · simp [hrest, hd]

/-- Deleting every record gives back the table of the host without the program. -/
theorem Reversible.cleanup {s : σ} {routes : List AddedRoute} {T : RouteTable}
    (h : Reversible K s routes T) (hdel : K.DeletesSucceed) :
    K.table (cleanupRoutes K routes s) = T := by
  ext d : 1
  rw [table_cleanupRoutes hdel]
  split
  · next hd => exact (h.absent d hd).symm
  · next hd => exact h.agree d hd

end Cleanup

/-- Whatever the kernel answers during start-up and the rechecks, a clean-up
whose deletes succeed leaves the original table with only the changes that the
environment made. -/
theorem cleanup_reverses_life (tun : Token) (allowed : List IpNet) (eps : List SocketAddr)
    (tunAddrs : List IpNet) {s t : σ} {routes : List AddedRoute} {T : RouteTable}
    (life : Life K (startUp K tun allowed eps tunAddrs s).2
      (startUp K tun allowed eps tunAddrs s).1 (K.table s) t routes T)
    (K' : Kernel σ) (same : K'.table = K.table) (hdel : K'.DeletesSucceed) :
    K'.table (cleanupRoutes K' routes t) = T := by
  have hstart := (startUp_records K tun allowed eps tunAddrs s).reversible
  have hend : Reversible K' t routes T := by
    obtain ⟨agree, absent, proper⟩ := life.reversible hstart
    exact ⟨same ▸ agree, absent, proper⟩
  exact hend.cleanup hdel

/-- A laptop that routes everything through the tunnel moves to another network,
and after the clean-up only the move remains. -/
theorem cleanup_reverses_move :
    let up := startUp Kernel.scripted utun5 [⟨.V4, 0, 0, Nat.zero_le _⟩] [serverEndpoint] []
      (homeTable, [true, true, false])
    let moved := (withDefaults up.2.1 (routedBy cafeRouter), [false])
    let checked := recheckRoutes Kernel.scripted up.1 moved
    (cleanupRoutes Kernel.scripted checked.1 checked.2).1 =
      withDefaults homeTable (routedBy cafeRouter) := by
  intro up moved checked
  have life : Life Kernel.scripted up.2 up.1 homeTable checked.2 checked.1
      (withDefaults homeTable (routedBy cafeRouter)) := by
    rw [← changed_default]
    exact .recheck (.environment _ .start (spares_defaultChange _ _) (changed_default _ _).symm)
  exact cleanup_reverses_life Kernel.scripted utun5 _ _ _ life Kernel.scripted rfl
    Kernel.scripted_deletesSucceed

end SmartGuard
