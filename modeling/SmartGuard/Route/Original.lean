import SmartGuard.Route.Underlay

/-!
# Where the bypasses and passthroughs of start-up point

Start-up asks the kernel for routes in two passes. The queries of `setupRoutes`
come before its first tunnel route. Those of `setupUnconfiguredFamily` come after
the AllowedIPs lead into the tunnel, and are answered from the changed table.
-/

namespace SmartGuard

open LongestMatch StateLoop

/-- Queries, each with the next hop made of its answer if there was one. -/
abbrev QueryLog := List (RouteQuery × Option (Option NextHop))

/-- What a table answers when it is asked for addresses. -/
def answers (T : RouteTable) (addrs : List IpAddr) : QueryLog :=
  addrs.map fun a => (.address a, (lookup T a).map some)

theorem answers_congr {T U : RouteTable} {addrs : List IpAddr}
    (h : ∀ a ∈ addrs, lookup T a = lookup U a) : answers T addrs = answers U addrs := by
  apply List.map_congr_left
  intro a ha
  rw [h a ha]

theorem answers_append (T : RouteTable) (as bs : List IpAddr) :
    answers T (as ++ bs) = answers T as ++ answers T bs := List.map_append

namespace Kernel

variable {σ : Type*}

/-- The same kernel with a record of every query and what was made of its answer. -/
def queried (K : Kernel σ) : Kernel (σ × QueryLog) where
  table s := K.table s.1
  get q s :=
    let output := K.get q s.1
    (output.1, output.2, s.2 ++ [(q, output.1.map fun lines => (parseRouteInfo lines).hop)])
  cmd c s :=
    let out := K.cmd c s.1
    (out.1, out.2, s.2)
  table_get q s := K.table_get q s.1
  add_absent t via s := K.add_absent t via s.1
  table_add t via s := K.table_add t via s.1
  table_delete t iface s := K.table_delete t iface s.1

variable {K : Kernel σ}

theorem Answers.queried (h : K.Answers) : K.queried.Answers := fun q s => h q s.1

theorem AddsSucceed.queried (h : K.AddsSucceed) : K.queried.AddsSucceed :=
  fun t via s => h t via s.1

/-- A query for an address is recorded with what the table answers. -/
theorem Answers.query_log (h : K.Answers) (a : IpAddr) (s : σ × QueryLog) :
    (getRouteInfo K.queried (.address a) s).2.2 = s.2 ++ answers (K.table s.1) [a] := by
  have hans := h (.address a) s.1
  simp only [getRouteInfo, Option.map_map] at hans
  exact congrArg (fun o => s.2 ++ [(RouteQuery.address a, o)]) hans

end Kernel

/-- The address whose route decides where a recorded route points. -/
def AddedRoute.probed : AddedRoute → Option IpAddr
  | .net _ _ => none
  | .host ip _ => some ip
  | .passthrough pfx => some (probe pfx.family)

/-- Start-up from the table `T` has reached the table `U`: every bypass and passthrough
points where `T` sends the address it was made for, which is not the tunnel, and every
query was answered as `T` answers it. -/
structure Original (tun : Token) (T U : RouteTable) (routes : List AddedRoute)
    (log : QueryLog) : Prop where
  points : ∀ r ∈ routes, ∀ a, r.probed = some a →
    U r.dest = lookup T a ∧ U r.dest ≠ some (.interface tun)
  queries : ∀ e ∈ log, e.2 = (e.1.answer T).map some

section Probes

/-- The endpoints that a bypass phase asks for. -/
def bypassProbes (eps : List SocketAddr) (family : Family) : List IpAddr :=
  (eps.map SocketAddr.ip).filter fun a => a.family = family

/-- The addresses that the set-up of an unconfigured family asks for. -/
def familyProbes (eps : List SocketAddr) (family : Family) : List IpAddr :=
  bypassProbes eps family ++ if (blackholeExemptions family).isEmpty then [] else [probe family]

/-- The addresses that start-up asks for after the AllowedIPs are routed. -/
def laterProbes (eps : List SocketAddr) (tunAddrs : List IpNet) : List IpAddr :=
  (if tunAddrs.any (fun n => n.family = .V4) then [] else familyProbes eps .V4) ++
    if tunAddrs.any (fun n => n.family = .V6) then [] else familyProbes eps .V6

theorem mem_bypassProbes {eps : List SocketAddr} {family : Family} {a : IpAddr} :
    a ∈ bypassProbes eps family ↔ (∃ ep ∈ eps, ep.ip = a) ∧ a.family = family := by
  simp [bypassProbes]

theorem family_of_mem_familyProbes {eps : List SocketAddr} {family : Family} {a : IpAddr}
    (h : a ∈ familyProbes eps family) : a.family = family := by
  rcases List.mem_append.mp h with hbypass | hprobe
  · exact (mem_bypassProbes.mp hbypass).2
  · split at hprobe
    · cases hprobe
    · rw [List.mem_singleton.mp hprobe]
      cases family <;> rfl

end Probes

variable {σ : Type*} {K : Kernel σ}

/-- If IPv4 is set up before IPv6, the addresses asked for IPv6 stay where they were. -/
theorem setupFirstFamily_lookup (hans : K.Answers) (tun : Token) {eps : List SocketAddr}
    (p : Bool) {q : Bool} (s : σ) {a : IpAddr}
    (ha : a ∈ if q then [] else familyProbes eps .V6) :
    lookup (K.table (if p then ([], s) else setupUnconfiguredFamily K .V4 tun eps s).2) a =
      lookup (K.table s) a := by
  have hfamily : a.family = .V6 := by
    split at ha
    · cases ha
    · exact family_of_mem_familyProbes ha
  split
  · rfl
  · apply setupUnconfiguredFamily_lookup hans tun eps s
    rw [hfamily]
    exact nofun

section Queries

theorem addVia_log (t : RouteTarget) (r : RouteInfo) (s : σ × QueryLog) :
    (addVia K.queried t r s).2.2 = s.2 := by
  rw [addVia_eq]
  cases r.hop <;> rfl

theorem addNets_log (tun : Token) (nets : List IpNet) (s : σ × QueryLog) :
    (collect (addNet K.queried tun) nets s).2.2 = s.2 :=
  (Composes.of_preorder (R := fun s t : σ × QueryLog => t.2 = s.2) (fun _ => rfl)
    (fun h₁ h₂ => h₂.trans h₁)).collect (fun _ _ _ => rfl) s

theorem bypassEndpoint_log (hans : K.Answers) (family : Family) (ep : SocketAddr)
    (s : σ × QueryLog) :
    (bypassEndpoint K.queried family ep s).2.2 =
      s.2 ++ answers (K.table s.1) (bypassProbes [ep] family) := by
  by_cases hfamily : ep.ip.family = family
  · have hprobes : bypassProbes [ep] family = [ep.ip] := by simp [bypassProbes, hfamily]
    rw [hprobes, ← hans.query_log]
    unfold bypassEndpoint
    rw [if_neg (not_not.mpr hfamily)]
    simp only
    split
    · rfl
    · exact addVia_log _ _ _
  · have hprobes : bypassProbes [ep] family = [] := by simp [bypassProbes, hfamily]
    rw [hprobes, bypassEndpoint, if_pos hfamily]
    exact (List.append_nil _).symm

/-- A bypass phase asks for the endpoints of its family, and every answer is the one
that the table before the phase gives. -/
theorem installEndpointBypass_log (hans : K.Answers) (eps : List SocketAddr)
    (family : Family) (s : σ × QueryLog) :
    (installEndpointBypass K.queried eps family s).2.2 =
      s.2 ++ answers (K.table s.1) (bypassProbes eps family) := by
  unfold installEndpointBypass
  induction eps generalizing s with
  | nil => exact (List.append_nil _).symm
  | cons ep rest ih =>
      have hhead := bypassEndpoint_log hans family ep s
      have hsame : answers (K.table (bypassEndpoint K.queried family ep s).2.1)
          (bypassProbes rest family) = answers (K.table s.1) (bypassProbes rest family) :=
        answers_congr fun a _ =>
          (bypassEndpoint_bypassed hans.queried (List.mem_singleton.mpr rfl) s).lookups a
      have hprobes : bypassProbes (ep :: rest) family =
          bypassProbes [ep] family ++ bypassProbes rest family := by
        unfold bypassProbes
        rw [← List.filter_append]
        rfl
      simp only [collect]
      rw [ih, hhead, hsame, hprobes, answers_append, List.append_assoc]

theorem installPassthroughs_log (hans : K.Answers) (family : Family) (s : σ × QueryLog) :
    (installPassthroughs K.queried family s).2.2 =
      s.2 ++ answers (K.table s.1)
        (if (blackholeExemptions family).isEmpty then [] else [probe family]) := by
  unfold installPassthroughs
  simp only
  split
  · exact (List.append_nil _).symm
  · rw [← hans.query_log]
    split
    · rfl
    · next info _ =>
        exact (Composes.of_preorder (R := fun s t : σ × QueryLog => t.2 = s.2) (fun _ => rfl)
          (fun h₁ h₂ => h₂.trans h₁)).collect (fun n _ t => addVia_log _ _ t) _

theorem setupUnconfiguredFamily_log (hans : K.Answers) (family : Family) (tun : Token)
    (eps : List SocketAddr) (s : σ × QueryLog) :
    (setupUnconfiguredFamily K.queried family tun eps s).2.2 =
      s.2 ++ answers (K.table s.1) (familyProbes eps family) := by
  have hsame : ∀ addrs, answers (K.table (installEndpointBypass K.queried eps family s).2.1)
      addrs = answers (K.table s.1) addrs := fun addrs => answers_congr fun a _ =>
    (installEndpointBypass_bypassed hans.queried eps family s).lookups a
  simp only [setupUnconfiguredFamily, addNets_log, installPassthroughs_log hans,
    installEndpointBypass_log hans, familyProbes, answers_append, List.append_assoc, hsame]

theorem setupRoutes_log (hans : K.Answers) (tun : Token) (allowed : List IpNet)
    (eps : List SocketAddr) (s : σ × QueryLog) :
    ∃ addrs, (setupRoutes K.queried tun allowed eps s).2.2 =
      s.2 ++ answers (K.table s.1) addrs := by
  have hphase : ∀ family t, ∃ addrs, (bypassPhase K.queried allowed eps family t).2 =
      t.2 ++ answers (K.table t.1) addrs := by
    intro family t
    unfold bypassPhase
    split
    · exact ⟨_, installEndpointBypass_log hans eps family t⟩
    · exact ⟨[], (List.append_nil _).symm⟩
  obtain ⟨as, has⟩ := hphase .V4 s
  obtain ⟨bs, hbs⟩ := hphase .V6 (bypassPhase K.queried allowed eps .V4 s)
  have hsame : answers (K.table (bypassPhase K.queried allowed eps .V4 s).1) bs =
      answers (K.table s.1) bs := answers_congr fun a _ =>
    (bypassPhase_bypassed hans.queried allowed eps .V4 s).lookups a
  refine ⟨as ++ bs, ?_⟩
  rw [setupRoutes_state, addNets_log, beforeTunnel, hbs, has, hsame, answers_append,
    List.append_assoc]

/-- Start-up asks some addresses of the table it starts from, and the later ones of the
table in which the AllowedIPs are routed. -/
theorem startUp_log (hans : K.Answers) (tun : Token) (allowed : List IpNet)
    (eps : List SocketAddr) (tunAddrs : List IpNet) (s : σ × QueryLog) :
    ∃ addrs, (startUp K.queried tun allowed eps tunAddrs s).2.2 =
      s.2 ++ answers (K.table s.1) addrs ++
        answers (K.table (setupRoutes K.queried tun allowed eps s).2.1)
          (laterProbes eps tunAddrs) := by
  obtain ⟨addrs, haddrs⟩ := setupRoutes_log hans tun allowed eps s
  refine ⟨addrs, ?_⟩
  have hfamily : ∀ (p : Bool) family (t : σ × QueryLog),
      (if p then ([], t) else setupUnconfiguredFamily K.queried family tun eps t).2.2 =
        t.2 ++ answers (K.table t.1) (if p then [] else familyProbes eps family) := by
    intro p family t
    split
    · exact (List.append_nil _).symm
    · exact setupUnconfiguredFamily_log hans family tun eps t
  have hother : ∀ (p q : Bool) (t : σ × QueryLog),
      answers (K.table (if p then ([], t)
          else setupUnconfiguredFamily K.queried .V4 tun eps t).2.1)
        (if q then [] else familyProbes eps .V6) =
      answers (K.table t.1) (if q then [] else familyProbes eps .V6) :=
    fun p q t => answers_congr fun a ha => setupFirstFamily_lookup hans.queried tun p t ha
  simp only [startUp, hfamily, hother, haddrs, laterProbes, answers_append, List.append_assoc]

end Queries

section Points

/-- From `s` to `t` no route was lost, and the bypasses and passthroughs recorded on the
way point where `T` sends the addresses they were made for. -/
structure Points (K : Kernel σ) (T : RouteTable) (s : σ) (routes : List AddedRoute)
    (t : σ) : Prop where
  grows : Grows (K.table s) (K.table t)
  hop : ∀ r ∈ routes, ∀ a, r.probed = some a →
    ∃ hop, lookup T a = some hop ∧ K.table t r.dest = some hop

theorem points_composes (T : RouteTable) : Composes (Points K T) where
  refl s := ⟨Grows.refl _, by simp⟩
  trans h₁ h₂ := by
    refine ⟨h₁.grows.trans h₂.grows, ?_⟩
    intro r hr a ha
    rcases List.mem_append.mp hr with hearly | hlate
    · obtain ⟨hop, hlookup, htable⟩ := h₁.hop r hearly a ha
      exact ⟨hop, hlookup, h₂.grows _ _ htable⟩
    · exact h₂.hop r hlate a ha

theorem Installs.points {P : AddedRoute → NextHop → Prop} {T : RouteTable} {s : σ}
    {out : Option AddedRoute × σ} (h : Installs K P s out)
    (hP : ∀ r hop, P r hop → ∀ a, r.probed = some a → lookup T a = some hop) :
    Points K T s out.1.toList out.2 := by
  refine ⟨h.grows, ?_⟩
  cases h with
  | unchanged same => simp
  | @added r hop t hr absent table =>
      intro r' hr' a ha
      obtain rfl := List.mem_singleton.mp hr'
      refine ⟨hop, hP _ hop hr a ha, ?_⟩
      rw [table]
      exact Function.update_self _ _ _

theorem addNets_points (T : RouteTable) (tun : Token) (nets : List IpNet) (s : σ) :
    Points K T s (collect (addNet K tun) nets s).1 (collect (addNet K tun) nets s).2 := by
  apply (points_composes T).collect
  intro n _ t
  apply (addNet_installs tun n t).points
  rintro r hop ⟨rfl, -⟩ a ha
  cases ha

/-- A bypass phase points where the endpoints of its family went before it. -/
theorem installEndpointBypass_points (hans : K.Answers) {T : RouteTable}
    (eps : List SocketAddr) (family : Family) {s : σ}
    (h : ∀ a ∈ bypassProbes eps family, lookup (K.table s) a = lookup T a) :
    Points K T s (installEndpointBypass K eps family s).1
      (installEndpointBypass K eps family s).2 := by
  unfold installEndpointBypass
  induction eps generalizing s with
  | nil => exact (points_composes T).refl s
  | cons ep rest ih =>
      have hsame : ∀ a, lookup (K.table (bypassEndpoint K family ep s).2) a =
          lookup (K.table s) a :=
        (bypassEndpoint_bypassed hans (List.mem_singleton.mpr rfl) s).lookups
      have hrest := ih (s := (bypassEndpoint K family ep s).2) fun a ha => by
        obtain ⟨⟨e, he, hea⟩, hfamily⟩ := mem_bypassProbes.mp ha
        rw [hsame]
        exact h a (mem_bypassProbes.mpr ⟨⟨e, List.mem_cons_of_mem ep he, hea⟩, hfamily⟩)
      refine (points_composes T).trans ?_ hrest
      apply (bypassEndpoint_installs family ep s).points
      rintro r hop ⟨hfamily, info, hinfo, rfl, hhop⟩ a ha
      obtain rfl := Option.some.inj ha
      obtain ⟨hop', hlookup, hhop'⟩ := hans.answer hinfo
      obtain rfl := Option.some.inj (hhop.symm.trans hhop')
      rw [← h ep.ip (mem_bypassProbes.mpr ⟨⟨ep, List.mem_cons_self, rfl⟩, hfamily⟩)]
      exact hlookup

theorem installPassthroughs_points (hans : K.Answers) {T : RouteTable} (family : Family)
    {s : σ} (h : (blackholeExemptions family).isEmpty = false →
      lookup (K.table s) (probe family) = lookup T (probe family)) :
    Points K T s (installPassthroughs K family s).1 (installPassthroughs K family s).2 := by
  have hquery : ∀ q, Points K T s [] (getRouteInfo K q s).2 := fun q =>
    ⟨fun d hop hd => (congrFun (K.table_getRouteInfo q s) d).trans hd, by simp⟩
  unfold installPassthroughs
  simp only
  split
  · exact (points_composes T).refl s
  · next hsome =>
      split
      · exact hquery _
      · next info hinfo =>
          obtain ⟨hop, hlookup, hhop⟩ := hans.answer hinfo
          refine (points_composes T).trans (hquery _) ((points_composes T).collect ?_ _)
          intro n hn t
          apply (passthroughNet_installs info n t).points
          rintro r hop' ⟨rfl, hhop'⟩ a ha
          obtain rfl := Option.some.inj (hhop.symm.trans hhop')
          obtain rfl := Option.some.inj ha
          rw [family_of_mem_exemptions hn, ← h (Bool.eq_false_iff.mpr hsome)]
          exact hlookup

theorem setupUnconfiguredFamily_points (hans : K.Answers) {T : RouteTable}
    (family : Family) (tun : Token) (eps : List SocketAddr) {s : σ}
    (h : ∀ a ∈ familyProbes eps family, lookup (K.table s) a = lookup T a) :
    Points K T s (setupUnconfiguredFamily K family tun eps s).1
      (setupUnconfiguredFamily K family tun eps s).2 := by
  have hsame := (installEndpointBypass_bypassed hans eps family s).lookups
  refine (points_composes T).trans ((points_composes T).trans
    (installEndpointBypass_points hans eps family fun a ha => h a (List.mem_append_left _ ha))
    (installPassthroughs_points hans family fun hsome => ?_)) (addNets_points T tun _ _)
  rw [hsame]
  apply h
  apply List.mem_append_right
  rw [hsome]
  exact List.mem_singleton.mpr rfl

theorem setupRoutes_points (hans : K.Answers) (tun : Token) (allowed : List IpNet)
    (eps : List SocketAddr) (s : σ) :
    Points K (K.table s) s (setupRoutes K tun allowed eps s).1
      (setupRoutes K tun allowed eps s).2 := by
  have hphase : ∀ family t, (∀ a : IpAddr, lookup (K.table t) a = lookup (K.table s) a) →
      Points K (K.table s) t
        (if hasCatchall allowed family then installEndpointBypass K eps family t
          else ([], t)).1
        (bypassPhase K allowed eps family t) := by
    intro family t ht
    unfold bypassPhase
    split
    · exact installEndpointBypass_points hans eps family fun a _ => ht a
    · exact (points_composes _).refl t
  refine (points_composes _).trans ((points_composes _).trans
    (hphase .V4 s fun _ => rfl) (hphase .V6 _ ?_)) (addNets_points _ tun _ _)
  exact (bypassPhase_bypassed hans allowed eps .V4 s).lookups

/-- If the later queries are answered as the first table answers them, everything that
start-up records points where the first table points. -/
theorem startUp_points (hans : K.Answers) (tun : Token) (allowed : List IpNet)
    (eps : List SocketAddr) (tunAddrs : List IpNet) {s : σ}
    (h : ∀ a ∈ laterProbes eps tunAddrs,
      lookup (K.table (setupRoutes K tun allowed eps s).2) a = lookup (K.table s) a) :
    Points K (K.table s) s (startUp K tun allowed eps tunAddrs s).1
      (startUp K tun allowed eps tunAddrs s).2 := by
  have hfamily : ∀ (p : Bool) family t,
      (∀ a : IpAddr, a ∈ (if p then [] else familyProbes eps family) →
        lookup (K.table t) a = lookup (K.table s) a) →
      Points K (K.table s) t
        (if p then ([], t) else setupUnconfiguredFamily K family tun eps t).1
        (if p then ([], t) else setupUnconfiguredFamily K family tun eps t).2 := by
    intro p family t ht
    split
    · exact (points_composes _).refl t
    · next hp =>
        rw [if_neg hp] at ht
        exact setupUnconfiguredFamily_points hans family tun eps ht
  refine (points_composes _).trans ((points_composes _).trans
    (setupRoutes_points hans tun allowed eps s)
    (hfamily _ .V4 _ fun a ha => h a (List.mem_append_left _ ha))) (hfamily _ .V6 _ ?_)
  intro a ha
  rw [← h a (List.mem_append_right _ ha)]
  exact setupFirstFamily_lookup hans tun _ _ ha

end Points

section Undisturbed

/-- No network that is routed into the tunnel takes an address from the routes of a table:
each that covers it is no longer than some route of the table that does. -/
def Unclaimed (T : RouteTable) (allowed : List IpNet) (a : IpAddr) : Prop :=
  ∀ n ∈ allowed.flatMap tunnelNets, Covers n.dest a →
    ∃ d, Covers d a ∧ T d ≠ none ∧ n.prefixLen ≤ d.len

/-- An endpoint with a route whose family has a catch-all, for which `setupRoutes`
installs a bypass. -/
def Pinned (T : RouteTable) (allowed : List IpNet) (eps : List SocketAddr) (a : IpAddr) :
    Prop :=
  hasCatchall allowed a.family = true ∧ (∃ ep ∈ eps, ep.ip = a) ∧ lookup T a ≠ none

/-- An address that no tunnel network claims is where it was, whatever adds fail. -/
theorem setupRoutes_unclaimed (hans : K.Answers) (tun : Token) {allowed : List IpNet}
    (eps : List SocketAddr) {a : IpAddr} {s : σ} (h : Unclaimed (K.table s) allowed a) :
    lookup (K.table (setupRoutes K tun allowed eps s).2) a = lookup (K.table s) a := by
  have htunnel := addNets_tunneled (K := K) tun (allowed.flatMap tunnelNets)
    (beforeTunnel K allowed eps s)
  have hbefore := beforeTunnel_lookup hans allowed eps s a
  have hgrows := beforeTunnel_grows (K := K) allowed eps s
  rw [setupRoutes_state]
  cases hroute : lookup (K.table s) a with
  | some hop =>
      refine htunnel.lookup_eq (hbefore.trans hroute) ?_
      intro n hn hcov
      obtain ⟨d, hd, hpresent, hle⟩ := h n hn hcov
      refine ⟨d, hd, hgrows.ne_none hpresent, ?_⟩
      rw [IpNet.len_dest]
      exact hle
  | none =>
      rw [hroute] at hbefore
      refine lookup_eq_none_iff.mpr fun k hk => ?_
      have hnot : k ∉ (allowed.flatMap tunnelNets).map IpNet.dest := by
        intro hmem
        obtain ⟨n, hn, rfl⟩ := List.mem_map.mp hmem
        obtain ⟨d, hd, hpresent, -⟩ := h n hn hk
        exact hpresent (lookup_eq_none_iff.mp hroute d hd)
      rw [htunnel.frame k hnot]
      exact lookup_eq_none_iff.mp hbefore k hk

/-- A pinned endpoint is where it was, if adds succeed. -/
theorem setupRoutes_pinned (hans : K.Answers) (hadd : K.AddsSucceed) (tun : Token)
    {allowed : List IpNet} {eps : List SocketAddr} {a : IpAddr} {s : σ}
    (h : Pinned (K.table s) allowed eps a) :
    lookup (K.table (setupRoutes K tun allowed eps s).2) a = lookup (K.table s) a := by
  obtain ⟨hcatch, ⟨ep, hep, rfl⟩, hroute⟩ := h
  obtain ⟨hop, hhop⟩ := Option.ne_none_iff_exists'.mp hroute
  rw [hhop]
  exact setupRoutes_lookup hans hadd tun hep hhop (.inl hcatch)

/-- Before the first tunnel route, what is not in the first table is a bypass of an
endpoint whose family has a catch-all. -/
theorem beforeTunnel_new (hans : K.Answers) {allowed : List IpNet} {eps : List SocketAddr}
    {s : σ} {d : Dest} (hpresent : K.table (beforeTunnel K allowed eps s) d ≠ none)
    (habsent : K.table s d = none) :
    hasCatchall allowed d.family = true ∧ ∃ ep ∈ eps, d = ep.ip.host := by
  constructor
  · by_contra hcatch
    rw [beforeTunnel_uncaught hans eps s hcatch] at hpresent
    exact hpresent habsent
  · by_contra hnone
    rw [beforeTunnel_frame hans allowed eps s fun ep hep heq => hnone ⟨ep, hep, heq⟩] at hpresent
    exact hpresent habsent

/-- Where adds succeed, an address stays where it was while the AllowedIPs are routed
exactly if no tunnel network claims it or it is a pinned endpoint. -/
theorem setupRoutes_lookup_iff (hans : K.Answers) (hadd : K.AddsSucceed) {tun : Token}
    {allowed : List IpNet} {eps : List SocketAddr} {a : IpAddr} {s : σ}
    (hfree : ∀ d, K.table s d ≠ some (.interface tun)) :
    lookup (K.table (setupRoutes K tun allowed eps s).2) a = lookup (K.table s) a ↔
      Unclaimed (K.table s) allowed a ∨ Pinned (K.table s) allowed eps a := by
  constructor
  · intro hsame
    by_cases hunclaimed : Unclaimed (K.table s) allowed a
    · exact .inl hunclaimed
    right
    simp only [Unclaimed, not_forall, not_exists, not_and] at hunclaimed
    obtain ⟨n, hn, hcov, hshort⟩ := hunclaimed
    have hpresent := addNets_present hadd tun hn (beforeTunnel K allowed eps s)
    rw [setupRoutes_state] at hsame
    have hroute : lookup (K.table s) a ≠ none := by
      intro hnone
      rw [hnone] at hsame
      exact hpresent (lookup_eq_none_iff.mp hsame n.dest hcov)
    -- the tunnel did not capture the address, so a bypass as long as `n` was there before it
    have hbypass : ∃ k, Covers k a ∧ n.dest.len ≤ k.len ∧
        K.table (beforeTunnel K allowed eps s) k ≠ none := by
      by_contra hnone
      have hcapture := (addNets_tunneled tun _ _).captures hcov hpresent fun k hk hle => by
        by_contra hk'
        exact hnone ⟨k, hk, hle, hk'⟩
      obtain ⟨k, -, hval, -⟩ := lookup_eq_some_iff.mp (hsame.symm.trans hcapture)
      exact hfree k hval
    obtain ⟨k, hk, hle, hthere⟩ := hbypass
    have habsent : K.table s k = none := by
      by_contra hk'
      rw [IpNet.len_dest] at hle
      exact hshort k hk hk' hle
    obtain ⟨hcatch, ep, hep, rfl⟩ := beforeTunnel_new hans hthere habsent
    obtain rfl := IpAddr.covers_host_iff.mp hk
    exact ⟨hcatch, ⟨ep, hep, rfl⟩, hroute⟩
  · rintro (hunclaimed | hpinned)
    · exact setupRoutes_unclaimed hans tun eps hunclaimed
    · exact setupRoutes_pinned hans hadd tun hpinned

end Undisturbed

section Main

/-- The run of start-up that records its queries. -/
def watchedStartUp (K : Kernel σ) (tun : Token) (allowed : List IpNet) (eps : List SocketAddr)
    (tunAddrs : List IpNet) (s : σ) : List AddedRoute × (σ × QueryLog) :=
  startUp K.queried tun allowed eps tunAddrs (s, [])

/-- Start-up is original with respect to the table that it starts from. -/
def StartsOriginal (K : Kernel σ) (tun : Token) (allowed : List IpNet) (eps : List SocketAddr)
    (tunAddrs : List IpNet) (s : σ) : Prop :=
  Original tun (K.table s) (K.table (watchedStartUp K tun allowed eps tunAddrs s).2.1)
    (watchedStartUp K tun allowed eps tunAddrs s).1
    (watchedStartUp K tun allowed eps tunAddrs s).2.2

variable {tun : Token} {allowed : List IpNet} {eps : List SocketAddr} {tunAddrs : List IpNet}
  {s : σ}

/-- If the later queries are answered as the first table answers them, start-up is
original. -/
theorem startsOriginal_of_lookups (hans : K.Answers)
    (hfree : ∀ d, K.table s d ≠ some (.interface tun))
    (h : ∀ a ∈ laterProbes eps tunAddrs,
      lookup (K.table (setupRoutes K.queried tun allowed eps (s, [])).2.1) a =
        lookup (K.table s) a) : StartsOriginal K tun allowed eps tunAddrs s where
  points := by
    intro r hr a ha
    obtain ⟨hop, hlookup, htable⟩ :=
      (startUp_points hans.queried tun allowed eps tunAddrs h).hop r hr a ha
    refine ⟨htable.trans hlookup.symm, ?_⟩
    intro htun
    obtain ⟨k, -, hval, -⟩ := lookup_eq_some_iff.mp hlookup
    have hhop : hop = .interface tun := Option.some.inj (htable.symm.trans htun)
    exact hfree k (hhop ▸ hval)
  queries := by
    intro e he
    obtain ⟨addrs, hlog⟩ := startUp_log hans tun allowed eps tunAddrs (s, [])
    rw [watchedStartUp, hlog, answers_congr h, List.nil_append, ← answers_append] at he
    obtain ⟨a, -, rfl⟩ := List.mem_map.mp he
    rfl

/-- In an original start-up the later queries were answered as the first table answers. -/
theorem StartsOriginal.lookups (hans : K.Answers)
    (h : StartsOriginal K tun allowed eps tunAddrs s) :
    ∀ a ∈ laterProbes eps tunAddrs,
      lookup (K.table (setupRoutes K.queried tun allowed eps (s, [])).2.1) a =
        lookup (K.table s) a := by
  intro a ha
  obtain ⟨addrs, hlog⟩ := startUp_log hans tun allowed eps tunAddrs (s, [])
  have hentry := h.queries (.address a, (lookup (K.table
    (setupRoutes K.queried tun allowed eps (s, [])).2.1) a).map some)
    (hlog ▸ List.mem_append_right _ (List.mem_map.mpr ⟨a, ha, rfl⟩))
  exact Option.map_injective (Option.some_injective _) hentry

end Main

/-- Start-up is original if no address that it asks for after the AllowedIPs are routed is
claimed by a tunnel network; where adds succeed it is original exactly if each such
address is unclaimed or a pinned endpoint. -/
theorem startsOriginal_iff (hans : K.Answers) (tun : Token) (allowed : List IpNet)
    (eps : List SocketAddr) (tunAddrs : List IpNet) (s : σ)
    (hfree : ∀ d, K.table s d ≠ some (.interface tun)) :
    ((∀ a ∈ laterProbes eps tunAddrs, Unclaimed (K.table s) allowed a) →
      StartsOriginal K tun allowed eps tunAddrs s) ∧
    (K.AddsSucceed →
      (StartsOriginal K tun allowed eps tunAddrs s ↔
        ∀ a ∈ laterProbes eps tunAddrs,
          Unclaimed (K.table s) allowed a ∨ Pinned (K.table s) allowed eps a)) := by
  constructor
  · intro hunclaimed
    apply startsOriginal_of_lookups hans hfree
    intro a ha
    exact setupRoutes_unclaimed hans.queried tun eps (hunclaimed a ha)
  · intro hadd
    have hiff : ∀ a, lookup (K.table
          (setupRoutes K.queried tun allowed eps (s, [])).2.1) a = lookup (K.table s) a ↔
        Unclaimed (K.table s) allowed a ∨ Pinned (K.table s) allowed eps a :=
      fun a => setupRoutes_lookup_iff hans.queried hadd.queried hfree
    constructor
    · intro horiginal a ha
      exact (hiff a).mp (horiginal.lookups hans a ha)
    · intro hcond
      apply startsOriginal_of_lookups hans hfree
      intro a ha
      exact (hiff a).mpr (hcond a ha)

section Sample

/-- The tunnel has an IPv6 address only: `fd00::2/128`. -/
def v6Only : List IpNet := [.ofOctets .V6 ([0xfd] ++ List.replicate 14 0 ++ [2]) 128]

theorem homeTable_free : ∀ d, homeTable d ≠ some (.interface utun5) := by
  intro d hd
  unfold homeTable at hd
  split at hd
  · cases hfamily : d.family <;> simp [hfamily, routedBy] at hd
  · cases hd

/-- A tunnel for one private network leaves the probes of start-up alone. -/
theorem private_startsOriginal :
    StartsOriginal Kernel.ideal utun5 [.ofOctets .V4 [10, 9, 0, 0] 16] [serverEndpoint] v6Only
      (homeTable, ()) := by
  refine (startsOriginal_iff Kernel.ideal_answers utun5 _ _ _ (homeTable, ())
    homeTable_free).1 ?_
  have huncovered : ∀ a ∈ laterProbes [serverEndpoint] v6Only,
      ¬ Covers (IpNet.ofOctets .V4 [10, 9, 0, 0] 16).dest a := by
    decide +kernel
  intro a ha n hn hcov
  obtain rfl : n = .ofOctets .V4 [10, 9, 0, 0] 16 := List.mem_singleton.mp hn
  exact absurd hcov (huncovered a ha)

/-- With a catch-all and no IPv4 address on the tunnel, the private networks that should
escape are routed into the tunnel. -/
theorem catchall_captures_passthroughs :
    ¬ ∀ (s : RouteTable × Unit) (tun : Token) (allowed : List IpNet) (eps : List SocketAddr)
      (tunAddrs : List IpNet), (∀ d, s.1 d ≠ some (.interface tun)) →
      StartsOriginal Kernel.ideal tun allowed eps tunAddrs s := by
  intro claim
  have horiginal := claim (homeTable, ()) utun5 [.ofOctets .V4 [0, 0, 0, 0] 0]
    [serverEndpoint] v6Only homeTable_free
  have hpoints := horiginal.points (.passthrough (.ofOctets .V4 [10, 0, 0, 0] 8))
    (by decide +kernel) (probe .V4) rfl
  revert hpoints
  decide +kernel

end Sample

end SmartGuard
