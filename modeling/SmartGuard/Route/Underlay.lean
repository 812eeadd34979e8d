import SmartGuard.Route.Setup

/-!
# The tunnel's own packets stay outside the tunnel

Start-up runs in phases. The bypass phase pins endpoints to the next hop they
already have, so it changes no lookup at all; the tunnel phase only fills absent
destinations with the tunnel interface. What an endpoint resolves to afterwards
follows from the two descriptions.
-/

namespace SmartGuard

open LongestMatch StateLoop

/-- Every route of the first table is in the second. -/
def Grows (T U : RouteTable) : Prop := ∀ d hop, T d = some hop → U d = some hop

namespace Grows

theorem refl (T : RouteTable) : Grows T T := fun _ _ h => h

theorem trans {T U V : RouteTable} (h₁ : Grows T U) (h₂ : Grows U V) : Grows T V :=
  fun d hop h => h₂ d hop (h₁ d hop h)

theorem ne_none {T U : RouteTable} (h : Grows T U) {d : Dest} (hd : T d ≠ none) :
    U d ≠ none := by
  obtain ⟨hop, hhop⟩ := Option.ne_none_iff_exists'.mp hd
  rw [h d hop hhop]
  exact Option.some_ne_none hop

/-- A host route, once there, decides its address in every larger table. -/
theorem lookup_host {T U : RouteTable} (h : Grows T U) {a : IpAddr} {hop : NextHop}
    (hT : T a.host = some hop) : lookup U a = some hop :=
  lookup_of_full (h _ _ hT)

end Grows

variable {σ : Type*} {K : Kernel σ}

theorem Records.grows {s t : σ} {routes : List AddedRoute} (h : Records K s routes t) :
    Grows (K.table s) (K.table t) := by
  intro d hop hd
  have hnot : d ∉ routes.map AddedRoute.dest := by
    intro hmem
    obtain ⟨r, hr, rfl⟩ := List.mem_map.mp hmem
    rw [h.absent r hr] at hd
    cases hd
  rw [h.frame d hnot]
  exact hd

/-- From `s` to `t` the destinations of the pushed records were added, each under a next hop that
the record admits. -/
structure Established (K : Kernel σ) (P : AddedRoute → NextHop → Prop) (s : σ)
    (routes : List AddedRoute) (t : σ) : Prop where
  records : Records K s routes t
  hops : ∀ r ∈ routes, ∃ hop, P r hop ∧ K.table t r.dest = some hop

theorem established_composes (P : AddedRoute → NextHop → Prop) :
    Composes (Established K P) where
  refl s := ⟨(records_composes K).refl s, nofun⟩
  trans h₁ h₂ := by
    refine ⟨h₁.records.append K h₂.records, ?_⟩
    intro r hr
    rcases List.mem_append.mp hr with hold | hnew
    · obtain ⟨hop, hP, htable⟩ := h₁.hops r hold
      exact ⟨hop, hP, h₂.records.grows _ _ htable⟩
    · exact h₂.hops r hnew

theorem Installs.established {P : AddedRoute → NextHop → Prop}
    (hproper : ∀ r hop, P r hop → Proper r hop) {s : σ} {out : Option AddedRoute × σ}
    (h : Installs K P s out) : Established K P s out.1.toList out.2 := by
  refine ⟨h.records K hproper, ?_⟩
  cases h with
  | unchanged same => exact nofun
  | @added r hop t hP absent table =>
      intro r' hr'
      obtain rfl := List.mem_singleton.mp hr'
      refine ⟨hop, hP, ?_⟩
      rw [table]
      exact Function.update_self _ _ _

/-- After start-up every record is of a route whose next hop it admits. -/
theorem startUp_established {P : AddedRoute → NextHop → Prop} {tun : Token}
    (hproper : ∀ r hop, P r hop → Proper r hop) (hP : Admits tun P) (allowed : List IpNet)
    (eps : List SocketAddr) (tunAddrs : List IpNet) (s : σ) :
    Established K P s (startUp K tun allowed eps tunAddrs s).1
      (startUp K tun allowed eps tunAddrs s).2 :=
  startUp_composes (established_composes P) (Installs.established hproper) hP allowed eps
    tunAddrs s

theorem Installs.grows {P : AddedRoute → NextHop → Prop} {s : σ}
    {out : Option AddedRoute × σ} (h : Installs K P s out) :
    Grows (K.table s) (K.table out.2) := by
  cases h with
  | @added r hop t hP absent table =>
      intro d hop' hd
      have hne : d ≠ r.dest := by
        rintro rfl
        rw [absent] at hd
        cases hd
      rw [table, Function.update_of_ne hne]
      exact hd
  | unchanged same =>
      intro d hop hd
      rw [same]
      exact hd

theorem Installs.fills {P : AddedRoute → NextHop → Prop} {hop : NextHop} {keys : Set Dest}
    {s : σ} {out : Option AddedRoute × σ} (h : Installs K P s out)
    (hP : ∀ r via, P r via → via = hop ∧ r.dest ∈ keys) :
    Fills hop keys (K.table s) (K.table out.2) := by
  cases h with
  | unchanged same =>
      rw [same]
      exact .refl _ _ _
  | added hr absent table =>
      obtain ⟨rfl, hkey⟩ := hP _ _ hr
      rw [table]
      exact .of_update hkey absent

/-- A loop of actions that fill keys fills them. -/
theorem collect_fills {hop : NextHop} {keys : Set Dest} {f : IpNet → σ → Option AddedRoute × σ}
    {nets : List IpNet}
    (hf : ∀ n ∈ nets, ∀ s, Fills hop keys (K.table s) (K.table (f n s).2)) (s : σ) :
    Fills hop keys (K.table s) (K.table (collect f nets s).2) :=
  (Composes.of_preorder (R := fun s t => Fills hop keys (K.table s) (K.table t))
    (fun _ => .refl _ _ _) Fills.trans).collect hf s

section Bypass

/-- What a bypass phase does: no lookup changes, and only host routes of the
endpoints of one family appear. -/
structure Bypassed (K : Kernel σ) (eps : List SocketAddr) (family : Family) (s t : σ) : Prop where
  lookups : ∀ a : IpAddr, lookup (K.table t) a = lookup (K.table s) a
  frame : ∀ d, (∀ ep ∈ eps, ep.ip.family = family → d ≠ ep.ip.host) →
    K.table t d = K.table s d

theorem Bypassed.refl (eps : List SocketAddr) (family : Family) (s : σ) :
    Bypassed K eps family s s := ⟨fun _ => rfl, fun _ _ => rfl⟩

theorem Bypassed.trans {eps : List SocketAddr} {family : Family} {s t u : σ}
    (h₁ : Bypassed K eps family s t) (h₂ : Bypassed K eps family t u) :
    Bypassed K eps family s u where
  lookups a := calc
    lookup (K.table u) a = lookup (K.table t) a := h₂.lookups a
    _ = lookup (K.table s) a := h₁.lookups a
  frame d hd := calc
    K.table u d = K.table t d := h₂.frame d hd
    _ = K.table s d := h₁.frame d hd

/-- A bypass points where the endpoint already went. -/
theorem bypassEndpoint_bypassed (hans : K.Answers) {eps : List SocketAddr} {family : Family}
    {ep : SocketAddr} (hep : ep ∈ eps) (s : σ) :
    Bypassed K eps family s (bypassEndpoint K family ep s).2 := by
  have hinst := bypassEndpoint_installs (K := K) family ep s
  generalize bypassEndpoint K family ep s = out at hinst ⊢
  cases hinst with
  | unchanged same =>
      constructor
      · intro a
        rw [same]
      · intro d _
        rw [same]
  | added hP absent table =>
      obtain ⟨hfamily, info, hinfo, rfl, hhop⟩ := hP
      obtain ⟨hop', hlookup, hhop'⟩ := hans.answer hinfo
      obtain rfl := Option.some.inj (hhop'.symm.trans hhop)
      constructor
      · intro a
        rw [table]
        exact lookup_update_full hlookup a
      · intro d hd
        rw [table]
        exact Function.update_of_ne (hd ep hep hfamily) _ _

theorem installEndpointBypass_bypassed (hans : K.Answers) (eps : List SocketAddr)
    (family : Family) (s : σ) :
    Bypassed K eps family s (installEndpointBypass K eps family s).2 :=
  (Composes.of_preorder (R := Bypassed K eps family) (Bypassed.refl eps family)
    Bypassed.trans).collect (fun _ hep t => bypassEndpoint_bypassed hans hep t) s

theorem addVia_present (hadd : K.AddsSucceed) {t : RouteTarget} {r : RouteInfo}
    {hop : NextHop} (hhop : r.hop = some hop) (s : σ) :
    K.table (addVia K t r s).2 t.dest ≠ none := by
  rw [addVia_eq, hhop]
  simp only
  rw [K.table_add]
  by_cases habsent : K.table s t.dest = none
  · rw [if_pos (hadd _ _ _ habsent), Function.update_self]
    exact Option.some_ne_none hop
  · split
    · rw [Function.update_self]
      exact Option.some_ne_none hop
    · exact habsent

theorem bypassEndpoint_present (hans : K.Answers) (hadd : K.AddsSucceed) {ep : SocketAddr}
    {hop : NextHop} {s : σ} (hroute : lookup (K.table s) ep.ip = some hop) :
    K.table (bypassEndpoint K ep.ip.family ep s).2 ep.ip.host ≠ none := by
  obtain ⟨info, hinfo, hhop⟩ := hans.info (q := .address ep.ip) hroute
  simp only [bypassEndpoint, ne_eq, not_true_eq_false, if_false, hinfo]
  exact addVia_present hadd (t := .host ep.ip) hhop _

/-- Where adds succeed, a bypass phase pins every endpoint of the family that has
a route to that route's next hop. -/
theorem installEndpointBypass_pins (hans : K.Answers) (hadd : K.AddsSucceed)
    {eps : List SocketAddr} {ep : SocketAddr} (hep : ep ∈ eps) {hop : NextHop} {s : σ}
    (hroute : lookup (K.table s) ep.ip = some hop) :
    K.table (installEndpointBypass K eps ep.ip.family s).2 ep.ip.host = some hop := by
  have hpresent := collect_establishes (f := bypassEndpoint K ep.ip.family)
    (I := fun t => lookup (K.table t) ep.ip = some hop)
    (E := fun e t => e = ep → K.table t ep.ip.host ≠ none)
    (fun e he t ht => ((bypassEndpoint_bypassed hans he t).lookups _).trans ht)
    (fun e _ t ht heq => heq ▸ bypassEndpoint_present hans hadd (heq.symm ▸ ht))
    (fun e b t ht heq => (bypassEndpoint_installs _ b t).grows.ne_none (ht heq))
    hroute ep hep rfl
  obtain ⟨hop', hhop'⟩ := Option.ne_none_iff_exists'.mp hpresent
  have hsame := (installEndpointBypass_bypassed hans eps ep.ip.family s).lookups ep.ip
  rw [hroute] at hsame
  have hfull : lookup (K.table (installEndpointBypass K eps ep.ip.family s).2) ep.ip =
      some hop' := lookup_of_full hhop'
  rw [hsame] at hfull
  rw [Option.some.inj hfull]
  exact hhop'

end Bypass

section Tunnel

/-- What a tunnel phase does: absent destinations of the given networks may come
to lead into the tunnel, and nothing else changes. -/
structure Tunneled (K : Kernel σ) (tun : Token) (nets : List IpNet) (s t : σ) : Prop where
  frame : ∀ d, d ∉ nets.map IpNet.dest → K.table t d = K.table s d
  hop : ∀ d, K.table t d = K.table s d ∨
    K.table s d = none ∧ K.table t d = some (.interface tun)

/-- A tunnel phase fills its networks with the tunnel interface. -/
theorem tunneled_iff_fills {tun : Token} {nets : List IpNet} {s t : σ} :
    Tunneled K tun nets s t ↔
      Fills (.interface tun) {d | d ∈ nets.map IpNet.dest} (K.table s) (K.table t) :=
  ⟨fun h => ⟨h.frame, h.hop⟩, fun h => ⟨h.frame, h.value⟩⟩

theorem Tunneled.fills {tun : Token} {nets : List IpNet} {s t : σ}
    (h : Tunneled K tun nets s t) :
    Fills (.interface tun) {d | d ∈ nets.map IpNet.dest} (K.table s) (K.table t) :=
  tunneled_iff_fills.mp h

theorem Tunneled.grows {tun : Token} {nets : List IpNet} {s t : σ}
    (h : Tunneled K tun nets s t) : Grows (K.table s) (K.table t) :=
  fun _ _ hd => h.fills.grows hd

theorem addNets_tunneled (tun : Token) (nets : List IpNet) (s : σ) :
    Tunneled K tun nets s (collect (addNet K tun) nets s).2 := by
  refine tunneled_iff_fills.mpr (collect_fills (fun n hn t => ?_) s)
  apply (addNet_installs tun n t).fills
  rintro r hop ⟨rfl, rfl⟩
  have hkey : n.dest ∈ nets.map IpNet.dest := List.mem_map_of_mem hn
  exact ⟨rfl, hkey⟩

/-- Where adds succeed, every destination of a tunnel phase is present after it. -/
theorem addNets_present (hadd : K.AddsSucceed) (tun : Token) {nets : List IpNet} {n : IpNet}
    (hn : n ∈ nets) (s : σ) : K.table (collect (addNet K tun) nets s).2 n.dest ≠ none := by
  have hone : ∀ m t, K.table (addNet K tun m t).2 m.dest ≠ none :=
    fun m t => addVia_present (r := ⟨none, some tun⟩) hadd (t := .net m) rfl t
  exact collect_establishes (f := addNet K tun) (I := fun _ => True)
    (E := fun m t => K.table t m.dest ≠ none)
    (fun _ _ _ _ => trivial) (fun m _ t _ => hone m t)
    (fun m b t ht => (addNet_installs tun b t).grows.ne_none (d := m.dest) ht) trivial n hn

/-- A tunnel phase leaves an address alone if the table already holds a match at
least as long as every network that would capture it. -/
theorem Tunneled.lookup_eq {tun : Token} {nets : List IpNet} {s t : σ}
    (h : Tunneled K tun nets s t) {a : IpAddr} {hop : NextHop}
    (hroute : lookup (K.table s) a = some hop)
    (hcover : ∀ n ∈ nets, Covers n.dest a →
      ∃ d, Covers d a ∧ K.table s d ≠ none ∧ n.dest.len ≤ d.len) :
    lookup (K.table t) a = some hop := by
  apply h.fills.lookup_eq hroute
  rintro k hk hcov
  obtain ⟨n, hn, rfl⟩ := List.mem_map.mp hk
  exact hcover n hn hcov

/-- A tunnel phase captures an address whose matches before it are all shorter than a
destination that is present after it. -/
theorem Tunneled.captures {tun : Token} {nets : List IpNet} {s t : σ}
    (h : Tunneled K tun nets s t) {a : IpAddr} {d : Dest} (hcov : Covers d a)
    (hpresent : K.table t d ≠ none)
    (hshort : ∀ k, Covers k a → d.len ≤ k.len → K.table s k = none) :
    lookup (K.table t) a = some (.interface tun) :=
  h.fills.captures hcov hpresent hshort

end Tunnel

section Passthrough

/-- A passthrough phase adds exempt networks only. -/
theorem installPassthroughs_frame (family : Family) (s : σ) {d : Dest}
    (hd : d ∉ (blackholeExemptions family).map IpNet.dest) :
    K.table (installPassthroughs K family s).2 d = K.table s d := by
  have hone : ∀ info, ∀ n ∈ blackholeExemptions family, ∀ t,
      K.table (passthroughNet K info n t).2 d = K.table t d := by
    intro info n hn t
    have hinst := passthroughNet_installs (K := K) info n t
    generalize passthroughNet K info n t = out at hinst ⊢
    cases hinst with
    | unchanged same => exact congrFun same d
    | added hP absent table =>
        obtain ⟨rfl, -⟩ := hP
        have hne : d ≠ n.dest := fun heq => hd (heq ▸ List.mem_map_of_mem hn)
        rw [table]
        exact Function.update_of_ne hne _ _
  unfold installPassthroughs
  simp only
  split
  · rfl
  · have hquery := congrFun (K.table_getRouteInfo (.address (probe family)) s) d
    split
    · exact hquery
    · next info _ =>
        exact ((Composes.of_preorder (R := fun s t => K.table t d = K.table s d) (fun _ => rfl)
          (fun h₁ h₂ => h₂.trans h₁)).collect (hone info) _).trans hquery

end Passthrough

section StartUp

theorem family_of_mem_halves {family : Family} {n : IpNet} (h : n ∈ halves family) :
    n.family = family := by
  cases family <;>
  · simp only [halves, List.mem_cons, List.not_mem_nil, or_false] at h
    rcases h with rfl | rfl <;> rfl

theorem family_of_mem_exemptions {family : Family} {n : IpNet}
    (h : n ∈ blackholeExemptions family) : n.family = family := by
  cases family
  · revert n
    decide
  · cases h

theorem family_of_mem_tunnelNets {n m : IpNet} (h : m ∈ tunnelNets n) : m.family = n.family := by
  unfold tunnelNets at h
  split at h
  · exact family_of_mem_halves h
  · rw [List.mem_singleton.mp h]

/-- The set-up of one family leaves the other family's routes alone. -/
theorem setupUnconfiguredFamily_frame (hans : K.Answers) (family : Family) (tun : Token)
    (eps : List SocketAddr) (s : σ) {d : Dest} (hd : d.family ≠ family) :
    K.table (setupUnconfiguredFamily K family tun eps s).2 d = K.table s d := by
  have hhosts : ∀ ep ∈ eps, ep.ip.family = family → d ≠ ep.ip.host := by
    rintro ep - hfamily rfl
    exact hd hfamily
  have hexempt : d ∉ (blackholeExemptions family).map IpNet.dest := by
    intro hmem
    obtain ⟨n, hn, rfl⟩ := List.mem_map.mp hmem
    exact hd (family_of_mem_exemptions hn)
  have hhalves : d ∉ (halves family).map IpNet.dest := by
    intro hmem
    obtain ⟨n, hn, rfl⟩ := List.mem_map.mp hmem
    exact hd (family_of_mem_halves hn)
  let bypass := (installEndpointBypass K eps family s).2
  let pass := (installPassthroughs K family bypass).2
  calc
    K.table (setupUnconfiguredFamily K family tun eps s).2 d
      = K.table (collect (addNet K tun) (halves family) pass).2 d := rfl
    _ = K.table pass d := (addNets_tunneled tun _ _).frame d hhalves
    _ = K.table bypass d := installPassthroughs_frame family _ hexempt
    _ = K.table s d := (installEndpointBypass_bypassed hans eps family s).frame d hhosts

theorem setupUnconfiguredFamily_lookup (hans : K.Answers) {family : Family} (tun : Token)
    (eps : List SocketAddr) (s : σ) {a : IpAddr} (ha : a.family ≠ family) :
    lookup (K.table (setupUnconfiguredFamily K family tun eps s).2) a =
      lookup (K.table s) a := by
  apply lookup_congr
  intro d hd
  apply setupUnconfiguredFamily_frame hans
  rw [Dest.family_eq_of_covers hd]
  exact ha

/-- The endpoints that start-up promises to keep outside: those whose family has a
catch-all, and those that no AllowedIPs prefix takes from their own route. -/
def Sheltered (T : RouteTable) (allowed : List IpNet) (a : IpAddr) : Prop :=
  hasCatchall allowed a.family = true ∨
    ∀ n ∈ allowed, Covers n.dest a → ∃ d, Covers d a ∧ T d ≠ none ∧ n.prefixLen ≤ d.len

/-- The bypass phase of `setupRoutes` for one family, if it has a catch-all. -/
def bypassPhase (K : Kernel σ) (allowed : List IpNet) (eps : List SocketAddr)
    (family : Family) (s : σ) : σ :=
  (if hasCatchall allowed family then installEndpointBypass K eps family s else ([], s)).2

/-- The state of `setupRoutes` before the first tunnel route. -/
def beforeTunnel (K : Kernel σ) (allowed : List IpNet) (eps : List SocketAddr) (s : σ) : σ :=
  bypassPhase K allowed eps .V6 (bypassPhase K allowed eps .V4 s)

theorem setupRoutes_state (tun : Token) (allowed : List IpNet) (eps : List SocketAddr)
    (s : σ) :
    (setupRoutes K tun allowed eps s).2 =
      (collect (addNet K tun) (allowed.flatMap tunnelNets)
        (beforeTunnel K allowed eps s)).2 := rfl

theorem bypassPhase_bypassed (hans : K.Answers) (allowed : List IpNet)
    (eps : List SocketAddr) (family : Family) (s : σ) :
    Bypassed K eps family s (bypassPhase K allowed eps family s) := by
  unfold bypassPhase
  split
  · exact installEndpointBypass_bypassed hans eps family s
  · exact Bypassed.refl eps family s

theorem bypassPhase_grows (allowed : List IpNet) (eps : List SocketAddr) (family : Family)
    (s : σ) : Grows (K.table s) (K.table (bypassPhase K allowed eps family s)) := by
  unfold bypassPhase
  split
  · exact (installEndpointBypass_records K eps family s).grows
  · exact Grows.refl _

theorem beforeTunnel_lookup (hans : K.Answers) (allowed : List IpNet)
    (eps : List SocketAddr) (s : σ) (a : IpAddr) :
    lookup (K.table (beforeTunnel K allowed eps s)) a = lookup (K.table s) a :=
  ((bypassPhase_bypassed hans allowed eps .V6 _).lookups a).trans
    ((bypassPhase_bypassed hans allowed eps .V4 s).lookups a)

theorem beforeTunnel_frame (hans : K.Answers) (allowed : List IpNet)
    (eps : List SocketAddr) (s : σ) {d : Dest} (hd : ∀ ep ∈ eps, d ≠ ep.ip.host) :
    K.table (beforeTunnel K allowed eps s) d = K.table s d :=
  ((bypassPhase_bypassed hans allowed eps .V6 _).frame d fun ep hep _ => hd ep hep).trans
    ((bypassPhase_bypassed hans allowed eps .V4 s).frame d fun ep hep _ => hd ep hep)

/-- A family without a catch-all has no bypass phase. -/
theorem beforeTunnel_uncaught (hans : K.Answers) {allowed : List IpNet}
    (eps : List SocketAddr) (s : σ) {d : Dest} (hd : hasCatchall allowed d.family ≠ true) :
    K.table (beforeTunnel K allowed eps s) d = K.table s d := by
  have hphase : ∀ family t,
      K.table (bypassPhase K allowed eps family t) d = K.table t d := by
    intro family t
    unfold bypassPhase
    split
    · next hcatch =>
        refine (installEndpointBypass_bypassed hans eps family t).frame d ?_
        rintro ep - hfamily rfl
        exact hd ((congrArg _ hfamily).trans hcatch)
    · rfl
  exact (hphase .V6 _).trans (hphase .V4 s)

theorem beforeTunnel_grows (allowed : List IpNet) (eps : List SocketAddr) (s : σ) :
    Grows (K.table s) (K.table (beforeTunnel K allowed eps s)) :=
  (bypassPhase_grows allowed eps .V4 s).trans (bypassPhase_grows allowed eps .V6 _)

/-- An endpoint whose family has a catch-all is pinned before the first tunnel route. -/
theorem beforeTunnel_pins (hans : K.Answers) (hadd : K.AddsSucceed) {allowed : List IpNet}
    {eps : List SocketAddr} {ep : SocketAddr} (hep : ep ∈ eps) {hop : NextHop} {s : σ}
    (hroute : lookup (K.table s) ep.ip = some hop)
    (hcatch : hasCatchall allowed ep.ip.family = true) :
    K.table (beforeTunnel K allowed eps s) ep.ip.host = some hop := by
  have hphase : ∀ t, lookup (K.table t) ep.ip = some hop →
      K.table (bypassPhase K allowed eps ep.ip.family t) ep.ip.host = some hop := by
    intro t ht
    unfold bypassPhase
    rw [if_pos hcatch]
    exact installEndpointBypass_pins hans hadd hep ht
  cases hfamily : ep.ip.family with
  | V4 =>
      rw [hfamily] at hphase
      exact bypassPhase_grows allowed eps .V6 _ _ _ (hphase s hroute)
  | V6 =>
      rw [hfamily] at hphase
      apply hphase
      rw [(bypassPhase_bypassed hans allowed eps .V4 s).lookups]
      exact hroute

theorem hasCatchall_of_mem {allowed : List IpNet} {n : IpNet} (hn : n ∈ allowed)
    (h : n.prefixLen = 0) : hasCatchall allowed n.family = true := by
  simp only [hasCatchall, List.any_eq_true, decide_eq_true_eq]
  exact ⟨n, hn, rfl, h⟩

/-- A sheltered endpoint still goes where it went after the AllowedIPs are routed. -/
theorem setupRoutes_lookup (hans : K.Answers) (hadd : K.AddsSucceed) (tun : Token)
    {allowed : List IpNet} {eps : List SocketAddr} {ep : SocketAddr} (hep : ep ∈ eps)
    {hop : NextHop} {s : σ} (hroute : lookup (K.table s) ep.ip = some hop)
    (hshelter : Sheltered (K.table s) allowed ep.ip) :
    lookup (K.table (setupRoutes K tun allowed eps s).2) ep.ip = some hop := by
  have htunnel := addNets_tunneled (K := K) tun (allowed.flatMap tunnelNets)
    (beforeTunnel K allowed eps s)
  rw [setupRoutes_state]
  by_cases hcatch : hasCatchall allowed ep.ip.family = true
  · exact htunnel.grows.lookup_host (beforeTunnel_pins hans hadd hep hroute hcatch)
  · have huncaught := hshelter.resolve_left hcatch
    refine htunnel.lookup_eq ((beforeTunnel_lookup hans allowed eps s _).trans hroute) ?_
    intro m hm hcov
    obtain ⟨n, hn, hmn⟩ := List.mem_flatMap.mp hm
    have hlen : n.prefixLen ≠ 0 := by
      intro hzero
      have hfamily : n.family = ep.ip.family :=
        (family_of_mem_tunnelNets hmn).symm.trans (Dest.family_eq_of_covers hcov)
      exact hcatch (hfamily ▸ hasCatchall_of_mem hn hzero)
    rw [tunnelNets, if_neg hlen, List.mem_singleton] at hmn
    subst hmn
    obtain ⟨d, hd, hpresent, hle⟩ := huncaught m hn hcov
    refine ⟨d, hd, (beforeTunnel_grows allowed eps s).ne_none hpresent, ?_⟩
    rw [IpNet.len_dest]
    exact hle

/-- The set-up of an unconfigured family keeps every endpoint where it is. -/
theorem setupUnconfiguredFamily_endpoint (hans : K.Answers) (hadd : K.AddsSucceed)
    (family : Family) (tun : Token) {eps : List SocketAddr} {ep : SocketAddr} (hep : ep ∈ eps)
    {hop : NextHop} {s : σ} (hroute : lookup (K.table s) ep.ip = some hop) :
    lookup (K.table (setupUnconfiguredFamily K family tun eps s).2) ep.ip = some hop := by
  by_cases hfamily : ep.ip.family = family
  · subst hfamily
    have hpin := installEndpointBypass_pins hans hadd hep hroute
    have hpass := (installPassthroughs_records K ep.ip.family
      (installEndpointBypass K eps ep.ip.family s).2).grows
    have hnets := (addNets_tunneled (K := K) tun (halves ep.ip.family)
      (installPassthroughs K ep.ip.family (installEndpointBypass K eps ep.ip.family s).2).2).grows
    exact (hpass.trans hnets).lookup_host hpin
  · rw [setupUnconfiguredFamily_lookup hans tun eps s hfamily]
    exact hroute

/-- An endpoint that is not sheltered leads into the tunnel once the AllowedIPs are
routed. -/
theorem setupRoutes_unsheltered (hans : K.Answers) (hadd : K.AddsSucceed) (tun : Token)
    {allowed : List IpNet} (eps : List SocketAddr) {a : IpAddr} {s : σ}
    (hbare : ¬ Sheltered (K.table s) allowed a) :
    lookup (K.table (setupRoutes K tun allowed eps s).2) a = some (.interface tun) := by
  simp only [Sheltered, not_or, not_forall, not_exists, not_and] at hbare
  obtain ⟨huncaught, n, hn, hcov, hshort⟩ := hbare
  have hfamily : n.family = a.family := Dest.family_eq_of_covers hcov
  have hlen : n.prefixLen ≠ 0 := by
    intro hzero
    exact huncaught (hfamily ▸ hasCatchall_of_mem hn hzero)
  have hmem : n ∈ allowed.flatMap tunnelNets := by
    refine List.mem_flatMap.mpr ⟨n, hn, ?_⟩
    rw [tunnelNets, if_neg hlen]
    exact List.mem_singleton.mpr rfl
  rw [setupRoutes_state]
  refine (addNets_tunneled tun _ _).captures hcov (addNets_present hadd tun hmem _) ?_
  intro k hk hle
  rw [beforeTunnel_uncaught hans eps s (Dest.family_eq_of_covers hk ▸ huncaught)]
  by_contra hpresent
  rw [IpNet.len_dest] at hle
  exact hshort k hk hpresent hle

/-- The set-up of the unconfigured families keeps every endpoint where `setupRoutes`
left it, inside the tunnel or outside. -/
theorem startUp_endpoint (hans : K.Answers) (hadd : K.AddsSucceed) (tun : Token)
    {allowed : List IpNet} {eps : List SocketAddr} (tunAddrs : List IpNet) {ep : SocketAddr}
    (hep : ep ∈ eps) {hop : NextHop} {s : σ}
    (hroute : lookup (K.table (setupRoutes K tun allowed eps s).2) ep.ip = some hop) :
    lookup (K.table (startUp K tun allowed eps tunAddrs s).2) ep.ip = some hop := by
  have hfamily : ∀ (p : Bool) family t, lookup (K.table t) ep.ip = some hop →
      lookup (K.table (if p then ([], t)
        else setupUnconfiguredFamily K family tun eps t).2) ep.ip = some hop := by
    intro p family t ht
    split
    · exact ht
    · exact setupUnconfiguredFamily_endpoint hans hadd family tun hep ht
  exact hfamily _ .V6 _ (hfamily _ .V4 _ hroute)

end StartUp

/-- Where every endpoint has a route outside the tunnel, the endpoints that stay outside
through start-up are the sheltered ones. -/
theorem startUp_outside_iff_sheltered (hans : K.Answers) (hadd : K.AddsSucceed)
    (tun : Token) (allowed : List IpNet) (eps : List SocketAddr) (tunAddrs : List IpNet) (s : σ)
    (hroutes : ∀ ep ∈ eps, ∃ hop, lookup (K.table s) ep.ip = some hop ∧
      hop ≠ .interface tun) :
    ∀ ep ∈ eps,
      lookup (K.table (startUp K tun allowed eps tunAddrs s).2) ep.ip ≠
        some (.interface tun) ↔
      Sheltered (K.table s) allowed ep.ip := by
  intro ep hep
  constructor
  · intro hout
    by_contra hbare
    exact hout (startUp_endpoint hans hadd tun tunAddrs hep
      (setupRoutes_unsheltered hans hadd tun eps hbare))
  · intro hshelter
    obtain ⟨hop, hroute, hout⟩ := hroutes ep hep
    rw [startUp_endpoint hans hadd tun tunAddrs hep
      (setupRoutes_lookup hans hadd tun hep hroute hshelter)]
    exact fun heq => hout (Option.some.inj heq)

section Sample

/-- The tunnel has an address of either family: `10.8.0.2/32` and `fd00::2/128`. -/
def dualStack : List IpNet :=
  [.ofOctets .V4 [10, 8, 0, 2] 32, .ofOctets .V6 ([0xfd] ++ List.replicate 14 0 ++ [2]) 128]

theorem homeTable_server :
    lookup homeTable serverEndpoint.ip = some (.gateway homeRouter) := by
  decide +kernel

theorem homeTable_outside : ∀ ep ∈ [serverEndpoint], ∃ hop,
    lookup homeTable ep.ip = some hop ∧ hop ≠ .interface utun5 := by
  intro ep hep
  obtain rfl := List.mem_singleton.mp hep
  exact ⟨.gateway homeRouter, homeTable_server, nofun⟩

/-- Where everything goes through the tunnel, the server itself does not. -/
theorem catchall_spares_endpoint :
    lookup (startUp Kernel.ideal utun5 [.ofOctets .V4 [0, 0, 0, 0] 0] [serverEndpoint] dualStack
      (homeTable, ())).2.1 serverIp ≠ some (.interface utun5) := by
  have hshelter : Sheltered homeTable [.ofOctets .V4 [0, 0, 0, 0] 0] serverIp := .inl rfl
  have houtside := startUp_outside_iff_sheltered Kernel.ideal_answers Kernel.ideal_addsSucceed
    utun5 [.ofOctets .V4 [0, 0, 0, 0] 0] [serverEndpoint] dualStack (homeTable, ())
    homeTable_outside
  exact (houtside serverEndpoint (List.mem_singleton.mpr rfl)).mpr hshelter

/-- Two prefixes of length one capture an endpoint as a catch-all would, but a
bypass is installed for a catch-all only. -/
theorem halves_capture_endpoint :
    ¬ ∀ (s : RouteTable × Unit) (tun : Token) (allowed : List IpNet) (eps : List SocketAddr)
      (tunAddrs : List IpNet),
      (∀ ep ∈ eps, ∃ hop, lookup s.1 ep.ip = some hop ∧ hop ≠ .interface tun) →
      ∀ ep ∈ eps, lookup (startUp Kernel.ideal tun allowed eps tunAddrs s).2.1 ep.ip ≠
        some (.interface tun) := by
  intro claim
  refine claim (homeTable, ()) utun5 (halves .V4) [serverEndpoint] dualStack
    homeTable_outside serverEndpoint (List.mem_singleton.mpr rfl) ?_
  decide +kernel

end Sample

end SmartGuard
