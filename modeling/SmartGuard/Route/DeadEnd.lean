import SmartGuard.Route.Agreement
import SmartGuard.Route.Original

/-!
# What the set-up of an unconfigured family captures

Three layers lie over the table: the host routes of the endpoints, the passthroughs
and the two halves that lead into the tunnel. Each fills absent destinations only,
so an address is decided by the longest layer that has it and by the routes that
were there before.
-/

namespace SmartGuard

open LongestMatch StateLoop

/-- The address has a route other than the default one. -/
def Specific (T : RouteTable) (a : IpAddr) : Prop := ∃ d, Covers d a ∧ T d ≠ none ∧ 1 ≤ d.len

/-- The address is in a network that passthroughs are installed for. -/
def Exempt (a : IpAddr) : Prop := ∃ n ∈ blackholeExemptions a.family, Covers n.dest a

def IsEndpoint (eps : List SocketAddr) (a : IpAddr) : Prop := ∃ ep ∈ eps, ep.ip = a

/-- A destination that contains all addresses of another one, and more. -/
def StrictlyContains (d e : Dest) : Prop := d.len < e.len ∧ ∀ a : IpAddr, Covers e a → Covers d a

theorem strictlyContains_of_lt {d e : Dest} {a : IpAddr} (hd : Covers d a) (he : Covers e a)
    (hlt : d.len < e.len) : StrictlyContains d e :=
  ⟨hlt, fun _ hb => hd.of_len_le he (Nat.le_of_lt hlt) hb⟩

/-- An address without a specific route has no match but the default one. -/
theorem absent_of_not_specific {T : RouteTable} {a : IpAddr} (h : ¬ Specific T a) {d : Dest}
    (hcov : Covers d a) (hlen : 1 ≤ d.len) : T d = none := by
  by_contra hpresent
  exact h ⟨d, hcov, hpresent, hlen⟩

theorem lookup_eq_default_of_not_specific {T : RouteTable} {a : IpAddr} {hop : NextHop}
    (h : ¬ Specific T a) (hdefault : T a.family.defaultDest = some hop) :
    lookup T a = some hop := by
  refine lookup_eq_some_iff.mpr
    ⟨a.family.defaultDest, Family.covers_defaultDest_iff.mpr rfl, hdefault, ?_⟩
  intro d hd hlt
  exact absent_of_not_specific h hd (Nat.lt_of_le_of_lt (Nat.zero_le _) hlt)

variable {σ : Type*} {K : Kernel σ}

section Layers

/-- The passthroughs fill the exempt networks with the next hop of the probe, if it has
one. -/
theorem installPassthroughs_fills (hans : K.Answers) {family : Family} {s : σ} {hop : NextHop}
    (hprobe : ∀ via, lookup (K.table s) (probe family) = some via → via = hop) :
    Fills hop {d | d ∈ (blackholeExemptions family).map IpNet.dest} (K.table s)
      (K.table (installPassthroughs K family s).2) := by
  have hquery := K.table_getRouteInfo (.address (probe family)) s
  unfold installPassthroughs
  simp only
  split
  · exact .refl _ _ _
  · rw [← hquery]
    split
    · exact .refl _ _ _
    · next info hinfo =>
        obtain ⟨via, hlookup, hvia⟩ := hans.answer hinfo
        obtain rfl := hprobe via hlookup
        refine collect_fills (fun n hn t => ?_) _
        apply (passthroughNet_installs info n t).fills
        rintro r via' ⟨rfl, hvia'⟩
        have hkey : n.dest ∈ (blackholeExemptions family).map IpNet.dest :=
          List.mem_map_of_mem hn
        exact ⟨Option.some.inj (hvia'.symm.trans hvia), hkey⟩

/-- Where adds succeed, every exempt network has a route after the passthroughs. -/
theorem installPassthroughs_present (hans : K.Answers) (hadd : K.AddsSucceed) {family : Family}
    {s : σ} {hop : NextHop} (hprobe : lookup (K.table s) (probe family) = some hop) {n : IpNet}
    (hn : n ∈ blackholeExemptions family) :
    K.table (installPassthroughs K family s).2 n.dest ≠ none := by
  obtain ⟨info, hinfo, hhop⟩ := hans.info (q := .address (probe family)) hprobe
  have hsome : (blackholeExemptions family).isEmpty = false :=
    Bool.eq_false_iff.mpr fun h => List.ne_nil_of_mem hn (List.isEmpty_iff.mp h)
  simp only [installPassthroughs, hsome, Bool.false_eq_true, if_false, hinfo]
  have hone : ∀ m t, K.table (passthroughNet K info m t).2 m.dest ≠ none :=
    fun m t => addVia_present hadd (t := .net m) hhop t
  exact collect_establishes (f := passthroughNet K info) (I := fun _ => True)
    (E := fun m t => K.table t m.dest ≠ none) (fun _ _ _ _ => trivial) (fun m _ t _ => hone m t)
    (fun m b t ht => (passthroughNet_installs info b t).grows.ne_none (d := m.dest) ht)
    trivial n hn

/-- The two halves leave an address alone that has a route as long as they are. -/
theorem halves_spare (tun : Token) {family : Family} {s : σ} {a : IpAddr} {hop : NextHop}
    (hroute : lookup (K.table s) a = some hop) (hspecific : Specific (K.table s) a) :
    lookup (K.table (collect (addNet K tun) (halves family) s).2) a = some hop := by
  obtain ⟨d, hd, hpresent, hlen⟩ := hspecific
  apply (addNets_tunneled tun (halves family) s).lookup_eq hroute
  intro n hn _
  refine ⟨d, hd, hpresent, ?_⟩
  rw [IpNet.len_dest, len_of_mem_halves hn]
  exact hlen

/-- An address with a specific route keeps its next hop, if no exempt network that covers
it is longer than that route. -/
theorem setupUnconfiguredFamily_specific (hans : K.Answers) (family : Family) (tun : Token)
    (eps : List SocketAddr) {s : σ} {a : IpAddr} (hspecific : Specific (K.table s) a)
    (hexempt : ∀ n ∈ blackholeExemptions family, Covers n.dest a →
      ∃ d, Covers d a ∧ K.table s d ≠ none ∧ n.prefixLen ≤ d.len) :
    lookup (K.table (setupUnconfiguredFamily K family tun eps s).2) a =
      lookup (K.table s) a := by
  let bypass := (installEndpointBypass K eps family s).2
  let pass := (installPassthroughs K family bypass).2
  have hbypass : lookup (K.table bypass) a = lookup (K.table s) a :=
    (installEndpointBypass_bypassed hans eps family s).lookups a
  have hgrows : Grows (K.table s) (K.table bypass) :=
    (installEndpointBypass_records K eps family s).grows
  have hgrows' : Grows (K.table bypass) (K.table pass) :=
    (installPassthroughs_records K family bypass).grows
  obtain ⟨d, hd, hpresent, hlen⟩ := hspecific
  obtain ⟨hop, hroute⟩ : ∃ hop, lookup (K.table s) a = some hop :=
    Option.ne_none_iff_exists'.mp fun hnone => hpresent (lookup_eq_none_iff.mp hnone d hd)
  let via := (lookup (K.table bypass) (probe family)).getD (.interface tun)
  have hfill : Fills via {d | d ∈ (blackholeExemptions family).map IpNet.dest} (K.table bypass)
      (K.table pass) := by
    apply installPassthroughs_fills hans
    intro via' hvia'
    simp only [via, hvia', Option.getD_some]
  have hpass : lookup (K.table pass) a = some hop := by
    apply hfill.lookup_eq (hbypass.trans hroute)
    rintro k hk hcov
    obtain ⟨n, hn, rfl⟩ := List.mem_map.mp hk
    obtain ⟨e, he, hthere, hle⟩ := hexempt n hn hcov
    exact ⟨e, he, hgrows.ne_none hthere, n.len_dest.trans_le hle⟩
  rw [hroute]
  exact halves_spare tun hpass ⟨d, hd, (hgrows.trans hgrows').ne_none hpresent, hlen⟩

/-- The bypasses add no route to an address that is no endpoint or has no route at all. -/
theorem installEndpointBypass_absent (hans : K.Answers) {eps : List SocketAddr}
    {family : Family} {s : σ} {a : IpAddr} (hbare : ¬ Specific (K.table s) a)
    (hunpinned : ¬ IsEndpoint eps a ∨ lookup (K.table s) a = none) {d : Dest} (hd : Covers d a)
    (hlen : 1 ≤ d.len) : K.table (installEndpointBypass K eps family s).2 d = none := by
  have hbypass := installEndpointBypass_bypassed hans eps family s
  rcases hunpinned with hnot | hnone
  · rw [hbypass.frame d]
    · exact absent_of_not_specific hbare hd hlen
    · rintro ep hep - rfl
      exact hnot ⟨ep, hep, (IpAddr.covers_host_iff.mp hd).symm⟩
  · exact lookup_eq_none_iff.mp ((hbypass.lookups a).trans hnone) d hd

/-- An exempt address without a route of its own takes the next hop of the probe. -/
theorem setupUnconfiguredFamily_exempt (hans : K.Answers) (hadd : K.AddsSucceed)
    (family : Family) (tun : Token) {eps : List SocketAddr} {s : σ} {a : IpAddr} {hop : NextHop}
    (hprobe : lookup (K.table s) (probe family) = some hop) {n : IpNet}
    (hn : n ∈ blackholeExemptions family) (hcov : Covers n.dest a)
    (hbare : ¬ Specific (K.table s) a) (hnot : ¬ IsEndpoint eps a) :
    lookup (K.table (setupUnconfiguredFamily K family tun eps s).2) a = some hop := by
  let bypass := (installEndpointBypass K eps family s).2
  let pass := (installPassthroughs K family bypass).2
  have hlen : 1 ≤ n.dest.len := by
    rw [IpNet.len_dest]
    exact Nat.one_le_iff_ne_zero.mpr (exemption_len_ne_zero hn)
  have hprobe' : lookup (K.table bypass) (probe family) = some hop :=
    ((installEndpointBypass_bypassed hans eps family s).lookups _).trans hprobe
  have hpresent : K.table pass n.dest ≠ none :=
    installPassthroughs_present hans hadd hprobe' hn
  have hfill : Fills hop {d | d ∈ (blackholeExemptions family).map IpNet.dest} (K.table bypass)
      (K.table pass) := by
    apply installPassthroughs_fills hans
    intro via hvia
    exact Option.some.inj (hvia.symm.trans hprobe')
  have hpass : lookup (K.table pass) a = some hop :=
    hfill.captures hcov hpresent fun l hl hle =>
      installEndpointBypass_absent hans hbare (.inl hnot) hl (hlen.trans hle)
  exact halves_spare tun hpass ⟨n.dest, hcov, hpresent, hlen⟩

/-- An address that no layer spares leads into the tunnel. -/
theorem setupUnconfiguredFamily_captures (hans : K.Answers) (hadd : K.AddsSucceed)
    (tun : Token) {eps : List SocketAddr} {s : σ} {a : IpAddr}
    (hbare : ¬ Specific (K.table s) a) (hexempt : ¬ Exempt a)
    (hunpinned : ¬ IsEndpoint eps a ∨ lookup (K.table s) a = none) :
    lookup (K.table (setupUnconfiguredFamily K a.family tun eps s).2) a =
      some (.interface tun) := by
  obtain ⟨half, hhalf, hcov⟩ := exists_half_covers a
  have hlen : half.dest.len = 1 := half.len_dest.trans (len_of_mem_halves hhalf)
  refine (addNets_tunneled tun (halves a.family) _).captures hcov
    (addNets_present hadd tun hhalf _) ?_
  intro d hd hle
  rw [hlen] at hle
  rw [installPassthroughs_frame]
  · exact installEndpointBypass_absent hans hbare hunpinned hd hle
  · intro hmem
    obtain ⟨n, hn, rfl⟩ := List.mem_map.mp hmem
    exact hexempt ⟨n, hn, hd⟩

end Layers

/-- Where the probe takes the default route and no other route of the table strictly contains
an exempt network, the IPv4 dead end spares exactly the exempt networks, the endpoints and
the addresses with a specific route: these keep their next hop and all others lead into
the tunnel. -/
theorem v4_deadEnd_splits (hans : K.Answers) (hadd : K.AddsSucceed) (tun : Token)
    (eps : List SocketAddr) {s : σ} {hop : NextHop}
    (hprobe : longest (K.table s) (probe .V4) = some (Family.V4.defaultDest, hop))
    (hexempt : ∀ n ∈ v4BlackholeExemptions, ∀ d, K.table s d ≠ none → 1 ≤ d.len →
      ¬ StrictlyContains d n.dest)
    {a : IpAddr} (ha : a.family = .V4) :
    (Exempt a ∨ IsEndpoint eps a ∨ Specific (K.table s) a →
      lookup (K.table (setupUnconfiguredFamily K .V4 tun eps s).2) a = lookup (K.table s) a) ∧
    (¬ (Exempt a ∨ IsEndpoint eps a ∨ Specific (K.table s) a) →
      lookup (K.table (setupUnconfiguredFamily K .V4 tun eps s).2) a =
        some (.interface tun)) := by
  have hroute : lookup (K.table s) (probe .V4) = some hop := by
    rw [lookup, hprobe]
    rfl
  have hdefault : K.table s a.family.defaultDest = some hop := by
    rw [ha]
    exact (longest_eq_some_iff.mp hprobe).2.1
  constructor
  · intro hspared
    by_cases hspecific : Specific (K.table s) a
    · apply setupUnconfiguredFamily_specific hans .V4 tun eps hspecific
      intro n hn hcov
      obtain ⟨d, hd, hpresent, hlen⟩ := hspecific
      refine ⟨d, hd, hpresent, ?_⟩
      -- a shorter specific route would strictly contain the exempt network
      by_contra hshort
      refine hexempt n hn d hpresent hlen (strictlyContains_of_lt hd hcov ?_)
      rw [IpNet.len_dest]
      exact not_le.mp hshort
    · have hlookup := lookup_eq_default_of_not_specific hspecific hdefault
      by_cases hep : IsEndpoint eps a
      · obtain ⟨ep, hep, rfl⟩ := hep
        rw [hlookup]
        exact setupUnconfiguredFamily_endpoint hans hadd .V4 tun hep hlookup
      · obtain ⟨n, hn, hcov⟩ :=
          hspared.resolve_right fun h => h.elim hep hspecific
        rw [hlookup]
        rw [ha] at hn
        exact setupUnconfiguredFamily_exempt hans hadd .V4 tun hroute hn hcov hspecific hep
  · intro hcaught
    simp only [not_or] at hcaught
    obtain ⟨hnot, hep, hspecific⟩ := hcaught
    rw [← ha]
    exact setupUnconfiguredFamily_captures hans hadd tun hspecific hnot (.inl hep)

/-- The IPv6 dead end leaves an address alone if the address has a specific route. Where adds
succeed it leaves no others alone but the endpoints that have a route. -/
theorem v6_deadEnd_frame_iff (hans : K.Answers) (tun : Token) (eps : List SocketAddr) {s : σ}
    (hfree : ∀ d, K.table s d ≠ some (.interface tun)) {a : IpAddr} (ha : a.family = .V6) :
    (Specific (K.table s) a →
      lookup (K.table (setupUnconfiguredFamily K .V6 tun eps s).2) a = lookup (K.table s) a) ∧
    (K.AddsSucceed →
      (lookup (K.table (setupUnconfiguredFamily K .V6 tun eps s).2) a = lookup (K.table s) a ↔
        Specific (K.table s) a ∨ IsEndpoint eps a ∧ lookup (K.table s) a ≠ none)) := by
  have hkeep : Specific (K.table s) a →
      lookup (K.table (setupUnconfiguredFamily K .V6 tun eps s).2) a = lookup (K.table s) a :=
    fun h => setupUnconfiguredFamily_specific hans .V6 tun eps h nofun
  refine ⟨hkeep, fun hadd => ⟨fun hsame => ?_, ?_⟩⟩
  · by_contra hnot
    rw [not_or, not_and_not_right] at hnot
    have hcaught : lookup (K.table (setupUnconfiguredFamily K a.family tun eps s).2) a =
        some (.interface tun) := by
      refine setupUnconfiguredFamily_captures hans hadd tun hnot.1 ?_ (imp_iff_not_or.mp hnot.2)
      rintro ⟨n, hn, -⟩
      rw [ha] at hn
      cases hn
    rw [ha, hsame] at hcaught
    obtain ⟨d, -, hval, -⟩ := lookup_eq_some_iff.mp hcaught
    exact hfree d hval
  · rintro (hspecific | ⟨⟨ep, hep, rfl⟩, hroute⟩)
    · exact hkeep hspecific
    · obtain ⟨hop, hhop⟩ := Option.ne_none_iff_exists'.mp hroute
      rw [hhop]
      exact setupUnconfiguredFamily_endpoint hans hadd .V6 tun hep hhop

section Sample

/-- The table at home has default routes only. -/
theorem homeTable_len {d : Dest} (h : homeTable d ≠ none) : d.len = 0 := by
  by_contra hlen
  exact h (if_neg hlen)

/-- The network of the office, and a range of addresses with a route of its own. -/
def officeNet : IpNet := .ofOctets .V4 [192, 168, 1, 0] 24

def branchNet : IpNet := .ofOctets .V4 [198, 0, 0, 0] 8

/-- A router for all but the two networks, which are reached through the interface. -/
def officeTable : RouteTable := fun d =>
  if d = officeNet.dest ∨ d = branchNet.dest then some (.interface en0) else homeTable d

/-- A route of the office other than the default one is to one of the two networks. -/
theorem officeTable_specific {d : Dest} (hpresent : officeTable d ≠ none) (hlen : 1 ≤ d.len) :
    d = officeNet.dest ∨ d = branchNet.dest := by
  by_contra hother
  rw [officeTable, if_neg hother] at hpresent
  rw [homeTable_len hpresent] at hlen
  exact absurd hlen (Nat.not_succ_le_zero 0)

/-- Neither network strictly contains an exempt one. -/
theorem officeTable_exempt : ∀ n ∈ v4BlackholeExemptions, ∀ d, officeTable d ≠ none →
    1 ≤ d.len → ¬ StrictlyContains d n.dest := by
  intro n hn d hpresent hlen hcontains
  have haway : ∀ n ∈ v4BlackholeExemptions, n.dest.len ≤ officeNet.dest.len ∧
      Covers n.dest (⟨n.family, n.addr⟩ : IpAddr) ∧
        ¬ Covers branchNet.dest (⟨n.family, n.addr⟩ : IpAddr) := by
    decide +kernel
  obtain ⟨hshort, hcov, hnot⟩ := haway n hn
  rcases officeTable_specific hpresent hlen with rfl | rfl
  · exact absurd hcontains.1 (Nat.not_lt.mpr hshort)
  · exact hnot (hcontains.2 _ hcov)

/-- At the office the dead end spares a private address, the server and an address with a route
of its own, and takes the others. -/
theorem v4_deadEnd_at_office :
    let after :=
      (setupUnconfiguredFamily Kernel.ideal .V4 utun5 [serverEndpoint] (officeTable, ())).2.1
    lookup after (IpAddr.ofOctets .V4 [10, 0, 0, 7]) = some (.gateway homeRouter) ∧
      lookup after serverIp = some (.gateway homeRouter) ∧
      lookup after (IpAddr.ofOctets .V4 [198, 51, 100, 7]) = some (.interface en0) ∧
      lookup after (IpAddr.ofOctets .V4 [93, 184, 216, 34]) = some (.interface utun5) := by
  intro after
  have hprobe : longest officeTable (probe .V4) =
      some (Family.V4.defaultDest, .gateway homeRouter) := by
    decide +kernel
  have hsplit : ∀ {a : IpAddr}, a.family = .V4 → _ :=
    v4_deadEnd_splits Kernel.ideal_answers Kernel.ideal_addsSucceed utun5 [serverEndpoint]
      (s := (officeTable, ())) hprobe officeTable_exempt
  refine ⟨?_, ?_, ?_, ?_⟩
  · refine ((hsplit rfl).1 (.inl ?_)).trans (by decide +kernel)
    exact ⟨.ofOctets .V4 [10, 0, 0, 0] 8, by decide, by decide +kernel⟩
  · refine ((hsplit rfl).1 (.inr (.inl ?_))).trans (by decide +kernel)
    exact ⟨serverEndpoint, List.mem_cons_self, rfl⟩
  · refine ((hsplit rfl).1 (.inr (.inr ?_))).trans (by decide +kernel)
    exact ⟨branchNet.dest, by decide +kernel, by decide +kernel, by decide⟩
  · refine (hsplit rfl).2 ?_
    rintro (⟨n, hn, hcov⟩ | ⟨ep, hep, hip⟩ | ⟨d, hcov, hpresent, hlen⟩)
    · revert n
      decide +kernel
    · obtain rfl := List.mem_singleton.mp hep
      exact absurd hip (by decide)
    · rcases officeTable_specific hpresent hlen with rfl | rfl
      · exact absurd hcov (by decide +kernel)
      · exact absurd hcov (by decide +kernel)

def globalUnicast : IpNet := .ofOctets .V6 (0x20 :: List.replicate 15 0) 3

def linkLocal : IpNet := .ofOctets .V6 (0xfe :: 0x80 :: List.replicate 14 0) 10

/-- A network with a router for both families, and the link-local addresses of its link. -/
def linkTable : RouteTable := fun d =>
  if d = linkLocal.dest then some (.interface en0)
  else if d.len = 0 then some (.gateway homeRouter) else none

theorem linkTable_free : ∀ d, linkTable d ≠ some (.interface utun5) := by
  intro d hd
  unfold linkTable at hd
  split at hd
  · exact absurd hd (by decide)
  · split at hd <;> cases hd

/-- A neighbour on the link stays on the link. -/
theorem v6_deadEnd_spares_neighbour :
    lookup (setupUnconfiguredFamily Kernel.ideal .V6 utun5 [] (linkTable, ())).2.1
        (IpAddr.ofOctets .V6 (0xfe :: 0x80 :: List.replicate 13 0 ++ [1])) =
      lookup linkTable (IpAddr.ofOctets .V6 (0xfe :: 0x80 :: List.replicate 13 0 ++ [1])) := by
  have hpresent : linkTable linkLocal.dest ≠ none := by
    rw [linkTable, if_pos rfl]
    exact nofun
  exact (v6_deadEnd_frame_iff Kernel.ideal_answers utun5 [] (s := (linkTable, ()))
    linkTable_free rfl).1 ⟨linkLocal.dest, by decide +kernel, hpresent, by decide⟩

/-- A unique local address that the router reaches, `fd00::1`, is captured although it is no
global unicast address. -/
theorem v6_deadEnd_captures_local :
    ¬ ∀ (s : RouteTable × Unit) (tun : Token) (eps : List SocketAddr),
      (∀ d, s.1 d ≠ some (.interface tun)) →
      ∀ a : IpAddr, a.family = .V6 → ¬ Covers globalUnicast.dest a →
        lookup (setupUnconfiguredFamily Kernel.ideal .V6 tun eps s).2.1 a = lookup s.1 a := by
  intro claim
  have hsame := claim (linkTable, ()) utun5 [] linkTable_free
    (IpAddr.ofOctets .V6 (0xfd :: List.replicate 14 0 ++ [1])) rfl (by decide +kernel)
  revert hsame
  decide +kernel

end Sample

end SmartGuard
