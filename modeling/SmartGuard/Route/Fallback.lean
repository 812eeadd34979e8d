import SmartGuard.Route.Interface

/-!
# Where an endpoint falls when its bypass is torn down

A recheck deletes a stale host route before it adds the new one, through the current gateway
if there is one. So an endpoint can come to resolve to the TUN in one way only: its host route
was deleted and not added again, and without it the longest match is the TUN.

## Implementation notes

A list may hold an endpoint several times. What its host route is after the recheck is then
decided by all of its entries, in order.
-/

namespace SmartGuard

open LongestMatch StateLoop

variable {σ : Type*} (K : Kernel σ)

section Torn

variable (routes : List AddedRoute) (s : σ) (ip : IpAddr)

/-- The `i`-th entry is of the endpoint and records another gateway than the current one. -/
def StaleAt (i : Nat) : Prop :=
  ∃ r, routes[i]? = some r ∧ Stale (currentGateways K s) ip r

/-- The kernel deletes the host route when the recheck comes to the `i`-th entry. -/
def Deletes (i : Nat) : Prop :=
  (K.cmd (.delete (.host ip) none) (recheckState K routes s i)).1 = true

/-- There is a current gateway, and after the delete the kernel adds the host route through
it. -/
def Readds (i : Nat) : Prop :=
  ∃ gw, currentGateways K s ip.family = some gw ∧
    (K.cmd (.add (.host ip) (.gateway gw))
      (K.cmd (.delete (.host ip) none) (recheckState K routes s i)).2).1 = true

/-- Among the first `n` entries the host route is deleted for a stale one, and neither for that
one nor for a later one is it added again. -/
def LeftTorn (n : Nat) : Prop :=
  ∃ i < n, StaleAt K routes s ip i ∧ Deletes K routes s ip i ∧
    ∀ j < n, i ≤ j → StaleAt K routes s ip j → ¬ Readds K routes s ip j

variable {K routes s ip}

/-- One entry more decides anew only if it is stale. -/
theorem leftTorn_succ {n : Nat} :
    LeftTorn K routes s ip (n + 1) ↔
      (LeftTorn K routes s ip n ∨ StaleAt K routes s ip n ∧ Deletes K routes s ip n) ∧
        (StaleAt K routes s ip n → ¬ Readds K routes s ip n) := by
  constructor
  · rintro ⟨i, hi, hstale, hdeleted, hlater⟩
    refine ⟨?_, hlater n (Nat.lt_succ_self n) (Nat.le_of_lt_succ hi)⟩
    rcases Nat.lt_or_eq_of_le (Nat.le_of_lt_succ hi) with hlt | rfl
    · exact .inl ⟨i, hlt, hstale, hdeleted, fun j hj => hlater j (Nat.lt_succ_of_lt hj)⟩
    · exact .inr ⟨hstale, hdeleted⟩
  · rintro ⟨⟨i, hi, hstale, hdeleted, hlater⟩ | ⟨hstale, hdeleted⟩, hlast⟩
    · refine ⟨i, Nat.lt_succ_of_lt hi, hstale, hdeleted, fun j hj hle => ?_⟩
      rcases Nat.lt_or_eq_of_le (Nat.le_of_lt_succ hj) with hlt | rfl
      · exact hlater j hlt hle
      · exact hlast
    · refine ⟨n, Nat.lt_succ_self n, hstale, hdeleted, fun j hj hle => ?_⟩
      obtain rfl := Nat.le_antisymm hle (Nat.le_of_lt_succ hj)
      exact hlast

/-- An entry that is not stale leaves the host route of the endpoint alone. -/
theorem host_route_of_fresh {i : Nat} {r : AddedRoute} (hi : routes[i]? = some r)
    (hfresh : ¬ StaleAt K routes s ip i) :
    K.table (recheckState K routes s (i + 1)) ip.host =
      K.table (recheckState K routes s i) ip.host := by
  rw [recheckState_succ K hi]
  by_cases hstale : ∃ ip', Stale (currentGateways K s) ip' r
  · obtain ⟨ip', stored, rfl, hmoved⟩ := hstale
    refine recheckRoute_frame _ ?_ _
    intro heq
    obtain rfl := IpAddr.host_inj heq
    exact hfresh ⟨_, hi, stored, rfl, hmoved⟩
  · rw [recheckRoute_kept (not_exists.mp hstale)]

/-- A state with the table after the delete has the host route no more, if the kernel deletes
it. -/
theorem host_route_of_delete {i : Nat} {t : σ}
    (ht : K.table t = K.table (K.cmd (.delete (.host ip) none) (recheckState K routes s i)).2) :
    (Deletes K routes s ip i → K.table t ip.host = none) ∧
      (¬ Deletes K routes s ip i →
        K.table t ip.host = K.table (recheckState K routes s i) ip.host) := by
  rw [ht, K.table_delete]
  constructor
  · intro (hdel : (K.cmd _ _).1 = true)
    rw [if_pos hdel]
    exact Function.update_self _ _ _
  · intro (hdel : ¬ (K.cmd _ _).1 = true)
    rw [if_neg hdel]

/-- A stale entry adds the host route again, or takes it away if the kernel deletes it. -/
theorem host_route_of_stale {i : Nat} (hstale : StaleAt K routes s ip i) :
    (Readds K routes s ip i →
      ∃ gw, K.table (recheckState K routes s (i + 1)) ip.host = some (.gateway gw)) ∧
    (¬ Readds K routes s ip i →
      (Deletes K routes s ip i → K.table (recheckState K routes s (i + 1)) ip.host = none) ∧
      (¬ Deletes K routes s ip i → K.table (recheckState K routes s (i + 1)) ip.host =
        K.table (recheckState K routes s i) ip.host)) := by
  obtain ⟨r, hi, stored, rfl, moved⟩ := hstale
  rw [recheckState_succ K hi]
  have hcases := recheckRoute_rechecked (K := K) (currentGateways K s) ip stored
    (recheckState K routes s i)
  generalize recheckRoute K (currentGateways K s) (.host ip stored)
    (recheckState K routes s i) = out at hcases ⊢
  cases hcases with
  | kept same => exact absurd same moved
  | torn _ gone =>
      refine ⟨?_, fun _ => host_route_of_delete rfl⟩
      rintro ⟨gw, now, -⟩
      cases gone.symm.trans now
  | @installed gw _ now ok =>
      refine ⟨fun _ => ⟨gw, ?_⟩, fun hnot => absurd ⟨gw, now, ok⟩ hnot⟩
      rw [K.table_add, if_pos ok]
      exact Function.update_self _ _ _
  | @failed gw _ now bad =>
      have hsame := K.table_add (.host ip) (.gateway gw)
        (K.cmd (.delete (.host ip) none) (recheckState K routes s i)).2
      rw [bad] at hsame
      refine ⟨?_, fun _ => host_route_of_delete hsame⟩
      rintro ⟨gw', now', ok⟩
      obtain rfl := Option.some.inj (now.symm.trans now')
      cases bad.symm.trans ok

/-- After `n` entries the host route is gone if it is left torn down. Else it is the one that was
there before, or leads to a gateway. -/
theorem recheckState_host_route (s : σ) (ip : IpAddr) :
    ∀ n ≤ routes.length,
      (LeftTorn K routes s ip n → K.table (recheckState K routes s n) ip.host = none) ∧
      (¬ LeftTorn K routes s ip n →
        K.table (recheckState K routes s n) ip.host = K.table s ip.host ∨
          ∃ gw, K.table (recheckState K routes s n) ip.host = some (.gateway gw)) := by
  intro n hn
  induction n with
  | zero =>
      refine ⟨fun ⟨i, hi, _⟩ => absurd hi (Nat.not_lt_zero i), fun _ => .inl ?_⟩
      exact congrFun (table_afterQueries s) ip.host
  | succ n ih =>
      have hn' : n < routes.length := hn
      obtain ⟨hgone, hkept⟩ := ih (Nat.le_of_lt hn')
      rw [leftTorn_succ]
      by_cases hstale : StaleAt K routes s ip n
      · obtain ⟨hadded, htorn⟩ := host_route_of_stale hstale
        by_cases hre : Readds K routes s ip n
        · exact ⟨fun h => absurd hre (h.2 hstale), fun _ => .inr (hadded hre)⟩
        · obtain ⟨hnone, hsame⟩ := htorn hre
          by_cases hdel : Deletes K routes s ip n
          · exact ⟨fun _ => hnone hdel,
              fun h => absurd ⟨.inr ⟨hstale, hdel⟩, fun _ => hre⟩ h⟩
          · rw [hsame hdel]
            exact ⟨fun h => hgone (h.1.resolve_right fun h => hdel h.2),
              fun h => hkept fun hleft => h ⟨.inl hleft, fun _ => hre⟩⟩
      · rw [host_route_of_fresh (List.getElem?_eq_getElem hn') hstale]
        exact ⟨fun h => hgone (h.1.resolve_right fun h => hstale h.1),
          fun h => hkept fun hleft => h ⟨.inl hleft, fun hs => absurd hs hstale⟩⟩

end Torn

variable {K}

/-- Without its own host route an endpoint resolves after a recheck as it did before. -/
theorem lookup_without_host (routes : List AddedRoute) (ip : IpAddr) (s : σ) :
    lookup (Function.update (K.table (recheckRoutes K routes s).2) ip.host none) ip =
      lookup (Function.update (K.table s) ip.host none) ip := by
  apply lookup_congr
  intro d hd
  by_cases hhost : d = ip.host
  · rw [hhost, Function.update_self, Function.update_self]
  · rw [Function.update_of_ne hhost, Function.update_of_ne hhost]
    apply recheckRoutes_frame_stale
    rintro ip' r - - rfl
    exact hhost (congrArg IpAddr.host (IpAddr.covers_host_iff.mp hd)).symm

/-- An endpoint that does not resolve to the TUN before a recheck resolves to it after the
recheck exactly if its host route was deleted for a stale entry and added again neither for that
one nor for a later one, since there is no current gateway or since the adds failed, and without
the host route its longest match is the TUN. -/
theorem recheck_opens_loop_iff (routes : List AddedRoute) (s : σ) (ip : IpAddr) (tun : Token)
    (hbefore : lookup (K.table s) ip ≠ some (.interface tun)) :
    lookup (K.table (recheckRoutes K routes s).2) ip = some (.interface tun) ↔
      LeftTorn K routes s ip routes.length ∧
        lookup (Function.update (K.table s) ip.host none) ip = some (.interface tun) := by
  obtain ⟨hgone, hkept⟩ :=
    recheckState_host_route (K := K) s ip routes.length (Nat.le_refl _)
  have hlast : recheckState K routes s routes.length = (recheckRoutes K routes s).2 :=
    stateAt_length
  rw [hlast] at hgone hkept
  have hafter := lookup_eq_full_or (K.table (recheckRoutes K routes s).2) ip
  have hrest := lookup_without_host (K := K) routes ip s
  by_cases hleft : LeftTorn K routes s ip routes.length
  · have hnone : K.table (recheckRoutes K routes s).2 (full ip) = none := hgone hleft
    rw [hafter, hnone, Option.none_or]
    exact ⟨fun h => ⟨hleft, hrest ▸ h⟩, fun h => hrest.trans h.2⟩
  · refine ⟨fun hloop => ?_, fun h => absurd h.1 hleft⟩
    rcases hkept hleft with hsame | ⟨gw, hroute⟩
    · have hunmoved : lookup (K.table (recheckRoutes K routes s).2) ip =
          lookup (K.table s) ip := by
        calc
          _ = (K.table (recheckRoutes K routes s).2 ip.host).or _ := hafter
          _ = (K.table s ip.host).or _ := congrArg₂ _ hsame hrest
          _ = lookup (K.table s) ip := (lookup_eq_full_or (K.table s) ip).symm
      exact absurd (hunmoved ▸ hloop) hbefore
    · rw [lookup_of_full hroute] at hloop
      cases hloop

section Sample

/-- Everything goes through the tunnel. -/
def roamedRoutes : List AddedRoute :=
  (startUp Kernel.scripted utun5 [.ofOctets .V4 [0, 0, 0, 0] 0] [serverEndpoint] dualStack
    (homeTable, [])).1

/-- The laptop has then moved to the other network, where the next adds follow a script. -/
def roamedState (script : List Bool) : RouteTable × List Bool :=
  let up := (startUp Kernel.scripted utun5 [.ofOctets .V4 [0, 0, 0, 0] 0] [serverEndpoint]
    dualStack (homeTable, [])).2
  (withDefaults up.1 (routedBy cafeRouter), script)

theorem roamed_outside (script : List Bool) :
    lookup (roamedState script).1 serverIp ≠ some (.interface utun5) := by
  have hpinned : (roamedState []).1 serverIp.host = some (.gateway homeRouter) := by
    decide +kernel
  have hroute : lookup (roamedState script).1 serverIp = some (.gateway homeRouter) :=
    lookup_of_full hpinned
  rw [hroute]
  exact nofun

/-- Where the new bypass can be installed, the server stays outside the tunnel. -/
theorem recheck_opens_no_loop_after_move :
    lookup (recheckRoutes Kernel.scripted roamedRoutes (roamedState [])).2.1 serverIp ≠
      some (.interface utun5) := by
  intro hloop
  obtain ⟨⟨i, hi, ⟨r, hr, stored, rfl, moved⟩, -, hlater⟩, -⟩ :=
    (recheck_opens_loop_iff (K := Kernel.scripted) roamedRoutes (roamedState []) serverIp utun5
      (roamed_outside [])).mp hloop
  have hcurrent : currentGateways Kernel.scripted (roamedState []) .V4 = some cafeRouter := by
    decide +kernel
  have hfirst : i = 0 := by
    have hnodup : (roamedRoutes.map AddedRoute.dest).Nodup := by
      decide +kernel
    have hzero : (roamedRoutes.map AddedRoute.dest)[0]? = some serverIp.host := by
      decide +kernel
    have hat : (roamedRoutes.map AddedRoute.dest)[i]? = some serverIp.host := by
      rw [List.getElem?_map, hr]
      rfl
    exact (List.getElem?_inj (List.getElem?_eq_some_iff.mp hat).1 hnodup).mp (hat.trans hzero.symm)
  subst hfirst
  refine hlater 0 hi (Nat.le_refl 0) ⟨_, hr, stored, rfl, moved⟩ ⟨cafeRouter, hcurrent, ?_⟩
  decide +kernel

/-- Where it cannot, the server is left to the two halves that point into the tunnel. -/
theorem failed_add_opens_loop :
    ¬ ∀ (s : RouteTable × List Bool) (routes : List AddedRoute) (ip : IpAddr)
      (stored : Option Token) (tun : Token), .host ip stored ∈ routes →
      lookup s.1 ip ≠ some (.interface tun) →
      lookup (recheckRoutes Kernel.scripted routes s).2.1 ip ≠ some (.interface tun) := by
  intro claim
  have hhost : .host serverIp (some homeRouter) ∈ roamedRoutes := by
    decide +kernel
  refine claim (roamedState [false]) roamedRoutes serverIp _ utun5 hhost (roamed_outside _) ?_
  decide +kernel

end Sample

end SmartGuard
