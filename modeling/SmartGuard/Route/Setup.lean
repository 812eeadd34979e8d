import SmartGuard.Route.Kernel

/-!
# Installing and removing the tunnel's routes

The set-up functions run a list of route commands and push a record of every
add that succeeded; `cleanupRoutes` deletes what the records name. The source
writes a family beside each record and each prefix; here the prefix or the
address carries its family.
-/

namespace SmartGuard

open LongestMatch StateLoop

/-- A route the program added and will delete on exit. -/
inductive AddedRoute
  | net (pfx : IpNet) (tunName : Token)
  | host (ip : IpAddr) (gateway : Option Token)
  | passthrough (pfx : IpNet)
  deriving DecidableEq

namespace AddedRoute

def target : AddedRoute → RouteTarget
  | net pfx _ => .net pfx
  | host ip _ => .host ip
  | passthrough pfx => .net pfx

def dest (r : AddedRoute) : Dest := r.target.dest

@[simp] theorem dest_net (pfx : IpNet) (tun : Token) : (net pfx tun).dest = pfx.dest := rfl
@[simp] theorem dest_host (ip : IpAddr) (gw : Option Token) : (host ip gw).dest = ip.host := rfl
@[simp] theorem dest_passthrough (pfx : IpNet) : (passthrough pfx).dest = pfx.dest := rfl

end AddedRoute

section Constants

def v4BlackholeExemptions : List IpNet :=
  [.ofOctets .V4 [10, 0, 0, 0] 8, .ofOctets .V4 [100, 64, 0, 0] 10,
    .ofOctets .V4 [172, 16, 0, 0] 12, .ofOctets .V4 [192, 168, 0, 0] 16]

def v6BlackholeExemptions : List IpNet := []

def blackholeExemptions : Family → List IpNet
  | .V4 => v4BlackholeExemptions
  | .V6 => v6BlackholeExemptions

/-- The public address whose route shows the default gateway: `1.1.1.1` or
`2606:4700:4700::1111`. -/
def probe : Family → IpAddr
  | .V4 => .ofOctets .V4 [1, 1, 1, 1]
  | .V6 => .ofOctets .V6
      [0x26, 0x06, 0x47, 0x00, 0x47, 0x00, 0, 0, 0, 0, 0, 0, 0, 0, 0x11, 0x11]

/-- The two networks of length one: `0.0.0.0/1` and `128.0.0.0/1`, or `::/1`
and `8000::/1`. -/
def halves : Family → List IpNet
  | .V4 => [.ofOctets .V4 [0, 0, 0, 0] 1, .ofOctets .V4 [128, 0, 0, 0] 1]
  | .V6 => [.ofOctets .V6 (0 :: List.replicate 15 0) 1,
      .ofOctets .V6 (0x80 :: List.replicate 15 0) 1]

end Constants

variable {σ : Type*} (K : Kernel σ)

def addNet (tunName : Token) (pfx : IpNet) (s : σ) : Option AddedRoute × σ :=
  let added := K.cmd (.add (.net pfx) (.interface tunName)) s
  (if added.1 then some (.net pfx tunName) else none, added.2)

/-- Add a route through the gateway of a query, else through its interface. -/
def addVia (target : RouteTarget) (info : RouteInfo) (s : σ) : Bool × σ :=
  match info.gateway with
  | some gw => K.cmd (.add target (.gateway gw)) s
  | none =>
      match info.interface with
      | some iface => K.cmd (.add target (.interface iface)) s
      | none => (false, s)

def passthroughNet (info : RouteInfo) (pfx : IpNet) (s : σ) : Option AddedRoute × σ :=
  let added := addVia K (.net pfx) info s
  (if added.1 then some (.passthrough pfx) else none, added.2)

def installPassthroughs (family : Family) (s : σ) : List AddedRoute × σ :=
  let exemptions := blackholeExemptions family
  if exemptions.isEmpty then ([], s)
  else
    let answer := getRouteInfo K (.address (probe family)) s
    match answer.1 with
    | none => ([], answer.2)
    | some info => collect (passthroughNet K info) exemptions answer.2

/-- The body of the loop over the peer endpoints. -/
def bypassEndpoint (family : Family) (ep : SocketAddr) (s : σ) : Option AddedRoute × σ :=
  if ep.ip.family ≠ family then (none, s)
  else
    let answer := getRouteInfo K (.address ep.ip) s
    match answer.1 with
    | none => (none, answer.2)
    | some info =>
        let added := addVia K (.host ep.ip) info answer.2
        (if added.1 then some (.host ep.ip info.gateway) else none, added.2)

def installEndpointBypass (peerEndpoints : List SocketAddr) (family : Family) (s : σ) :
    List AddedRoute × σ :=
  collect (bypassEndpoint K family) peerEndpoints s

def hasCatchall (allowedIps : List IpNet) (family : Family) : Bool :=
  allowedIps.any fun n => decide (n.family = family ∧ n.prefixLen = 0)

/-- The networks routed into the tunnel for one AllowedIPs prefix: a catch-all
is split into its halves. -/
def tunnelNets (n : IpNet) : List IpNet := if n.prefixLen = 0 then halves n.family else [n]

def setupRoutes (tunName : Token) (allowedIps : List IpNet) (peerEndpoints : List SocketAddr)
    (s : σ) : List AddedRoute × σ :=
  let v4 := if hasCatchall allowedIps .V4 then installEndpointBypass K peerEndpoints .V4 s
    else ([], s)
  let v6 := if hasCatchall allowedIps .V6 then installEndpointBypass K peerEndpoints .V6 v4.2
    else ([], v4.2)
  let nets := collect (addNet K tunName) (allowedIps.flatMap tunnelNets) v6.2
  (v4.1 ++ v6.1 ++ nets.1, nets.2)

def setupUnconfiguredFamily (family : Family) (tunName : Token)
    (peerEndpoints : List SocketAddr) (s : σ) : List AddedRoute × σ :=
  let bypass := installEndpointBypass K peerEndpoints family s
  let pass := installPassthroughs K family bypass.2
  let nets := collect (addNet K tunName) (halves family) pass.2
  (bypass.1 ++ pass.1 ++ nets.1, nets.2)

/-- The route set-up of `run_tunnel`: the AllowedIPs, then each family the
tunnel interface has no address of. -/
def startUp (tunName : Token) (allowedIps : List IpNet) (peerEndpoints : List SocketAddr)
    (tunAddrs : List IpNet) (s : σ) : List AddedRoute × σ :=
  let setup := setupRoutes K tunName allowedIps peerEndpoints s
  let v4 := if tunAddrs.any (fun n => n.family = .V4) then ([], setup.2)
    else setupUnconfiguredFamily K .V4 tunName peerEndpoints setup.2
  let v6 := if tunAddrs.any (fun n => n.family = .V6) then ([], v4.2)
    else setupUnconfiguredFamily K .V6 tunName peerEndpoints v4.2
  (setup.1 ++ v4.1 ++ v6.1, v6.2)

def cleanupRoute (r : AddedRoute) (s : σ) : σ :=
  match r with
  | .net pfx tunName => (K.cmd (.delete (.net pfx) (some tunName)) s).2
  | .host ip _ => (K.cmd (.delete (.host ip) none) s).2
  | .passthrough pfx => (K.cmd (.delete (.net pfx) none) s).2

def cleanupRoutes (routes : List AddedRoute) (s : σ) : σ :=
  routes.foldl (fun s r => cleanupRoute K r s) s

section Installs

variable {K}

/-- What one installing action does: it adds one absent destination and pushes
its record, or it changes nothing and pushes nothing. -/
inductive Installs (K : Kernel σ) (P : AddedRoute → NextHop → Prop) (s : σ) :
    Option AddedRoute × σ → Prop
  | added {r hop t} (hP : P r hop) (absent : K.table s r.dest = none)
      (table : K.table t = Function.update (K.table s) r.dest (some hop)) :
      Installs K P s (some r, t)
  | unchanged {t} (same : K.table t = K.table s) : Installs K P s (none, t)

theorem Installs.of_table_eq {P : AddedRoute → NextHop → Prop} {s s' : σ}
    {out : Option AddedRoute × σ} (h : Installs K P s' out) (htable : K.table s' = K.table s) :
    Installs K P s out := by
  cases h with
  | added hP absent table => exact .added hP (htable ▸ absent) (htable ▸ table)
  | unchanged same => exact .unchanged (same.trans htable)

theorem Installs.mono {P Q : AddedRoute → NextHop → Prop} {s : σ}
    {out : Option AddedRoute × σ} (h : Installs K P s out) (hPQ : ∀ r hop, P r hop → Q r hop) :
    Installs K Q s out := by
  cases h with
  | added hP absent table => exact .added (hPQ _ _ hP) absent table
  | unchanged same => exact .unchanged same

theorem Installs.pushed {P : AddedRoute → NextHop → Prop} {s : σ} {out : Option AddedRoute × σ}
    {r : AddedRoute} (h : Installs K P s out) (hr : out.1 = some r) : ∃ hop, P r hop := by
  cases h with
  | added hP absent table =>
      obtain rfl := Option.some.inj hr
      exact ⟨_, hP⟩
  | unchanged same => cases hr

/-- An add whose success pushes a record is an installing action. -/
theorem installs_of_add {P : AddedRoute → NextHop → Prop} {r : AddedRoute} {hop : NextHop}
    (hP : P r hop) (s : σ) :
    Installs K P s
      (if (K.cmd (.add r.target hop) s).1 then some r else none,
        (K.cmd (.add r.target hop) s).2) := by
  have htable := K.table_add r.target hop s
  cases hok : (K.cmd (.add r.target hop) s).1 with
  | true =>
      rw [hok] at htable
      exact .added hP (K.add_absent _ _ _ hok) htable
  | false =>
      rw [hok] at htable
      exact .unchanged htable

theorem addVia_eq (target : RouteTarget) (info : RouteInfo) (s : σ) :
    addVia K target info s =
      match info.hop with
      | some hop => K.cmd (.add target hop) s
      | none => (false, s) := by
  unfold addVia RouteInfo.hop
  cases info.gateway with
  | some gw => rfl
  | none => cases info.interface <;> rfl

theorem installs_of_addVia {P : AddedRoute → NextHop → Prop} {r : AddedRoute}
    {info : RouteInfo} (hP : ∀ hop, info.hop = some hop → P r hop) (s : σ) :
    Installs K P s
      (if (addVia K r.target info s).1 then some r else none, (addVia K r.target info s).2) := by
  rw [addVia_eq]
  cases hhop : info.hop with
  | some hop => exact installs_of_add (hP hop hhop) s
  | none => exact .unchanged rfl

theorem addNet_installs (tun : Token) (pfx : IpNet) (s : σ) :
    Installs K (fun r hop => r = .net pfx tun ∧ hop = .interface tun) s
      (addNet K tun pfx s) :=
  installs_of_add (r := .net pfx tun) ⟨rfl, rfl⟩ s

theorem passthroughNet_installs (info : RouteInfo) (pfx : IpNet) (s : σ) :
    Installs K (fun r hop => r = .passthrough pfx ∧ info.hop = some hop) s
      (passthroughNet K info pfx s) :=
  installs_of_addVia (r := .passthrough pfx) (fun _ h => ⟨rfl, h⟩) s

/-- A bypass records the gateway of the answer and points where the answer says. -/
theorem bypassEndpoint_installs (family : Family) (ep : SocketAddr) (s : σ) :
    Installs K (fun r hop => ep.ip.family = family ∧ ∃ info,
        (getRouteInfo K (.address ep.ip) s).1 = some info ∧
        r = .host ep.ip info.gateway ∧ info.hop = some hop) s
      (bypassEndpoint K family ep s) := by
  unfold bypassEndpoint
  by_cases hf : ep.ip.family = family
  · simp only [hf, ne_eq, not_true_eq_false, if_false]
    cases hq : (getRouteInfo K (.address ep.ip) s).1 with
    | none => exact .unchanged (K.table_getRouteInfo _ _)
    | some info =>
        exact (installs_of_addVia (r := .host ep.ip info.gateway)
          (fun hop h => ⟨trivial, info, rfl, rfl, h⟩) _).of_table_eq (K.table_getRouteInfo _ _)
  · simp only [hf, ne_eq, not_false_eq_true, if_true]
    exact .unchanged rfl

end Installs

section Phases

variable {K}

theorem exemption_len_ne_zero {family : Family} {n : IpNet}
    (h : n ∈ blackholeExemptions family) : n.prefixLen ≠ 0 := by
  cases family
  · revert n
    decide
  · cases h

theorem len_of_mem_halves {family : Family} {n : IpNet} (h : n ∈ halves family) :
    n.prefixLen = 1 := by
  cases family <;>
  · simp only [halves, List.mem_cons, List.not_mem_nil, or_false] at h
    rcases h with rfl | rfl <;> rfl

/-- No catch-all is routed into the tunnel as such. -/
theorem tunnelNets_len_ne_zero {n m : IpNet} (h : m ∈ tunnelNets n) : m.prefixLen ≠ 0 := by
  unfold tunnelNets at h
  by_cases hn : n.prefixLen = 0
  · rw [if_pos hn] at h
    rw [len_of_mem_halves h]
    exact Nat.one_ne_zero
  · rw [if_neg hn, List.mem_singleton] at h
    rwa [h]

/-- The records that start-up can push, each with the next hop that it adds. -/
structure Admits (tun : Token) (P : AddedRoute → NextHop → Prop) : Prop where
  net : ∀ n, n.prefixLen ≠ 0 → P (.net n tun) (.interface tun)
  host : ∀ ip info hop, RouteInfo.hop info = some hop → P (.host ip info.gateway) hop
  passthrough : ∀ n hop, n.prefixLen ≠ 0 → P (.passthrough n) hop

variable {P : AddedRoute → NextHop → Prop} {R : σ → List AddedRoute → σ → Prop} {tun : Token}
  (hR : Composes R) (hone : ∀ {s out}, Installs K P s out → R s out.1.toList out.2)

include hR hone

theorem addNets_composes {nets : List IpNet}
    (hnets : ∀ n ∈ nets, P (.net n tun) (.interface tun)) (s : σ) :
    R s (collect (addNet K tun) nets s).1 (collect (addNet K tun) nets s).2 := by
  apply hR.collect
  intro n hn t
  apply hone
  refine (addNet_installs tun n t).mono ?_
  rintro r hop ⟨rfl, rfl⟩
  exact hnets n hn

theorem installEndpointBypass_composes
    (hhost : ∀ ip info hop, RouteInfo.hop info = some hop → P (.host ip info.gateway) hop)
    (eps : List SocketAddr) (family : Family) (s : σ) :
    R s (installEndpointBypass K eps family s).1 (installEndpointBypass K eps family s).2 := by
  apply hR.collect
  intro ep _ t
  apply hone
  refine (bypassEndpoint_installs family ep t).mono ?_
  rintro r hop ⟨-, info, -, rfl, hhop⟩
  exact hhost ep.ip info hop hhop

theorem installPassthroughs_composes
    (hpass : ∀ n hop, n.prefixLen ≠ 0 → P (.passthrough n) hop) (family : Family) (s : σ) :
    R s (installPassthroughs K family s).1 (installPassthroughs K family s).2 := by
  have hquery : ∀ q, R s [] (getRouteInfo K q s).2 :=
    fun q => hone (.unchanged (K.table_getRouteInfo q s))
  unfold installPassthroughs
  simp only
  split
  · exact hR.refl s
  · split
    · exact hquery _
    · next info _ =>
        refine hR.trans (hquery _) (hR.collect ?_ _)
        intro n hn t
        apply hone
        refine (passthroughNet_installs info n t).mono ?_
        rintro r hop ⟨rfl, -⟩
        exact hpass n hop (exemption_len_ne_zero hn)

theorem setupRoutes_composes (hP : Admits tun P) (allowed : List IpNet) (eps : List SocketAddr)
    (s : σ) : R s (setupRoutes K tun allowed eps s).1 (setupRoutes K tun allowed eps s).2 := by
  have hbypass : ∀ family t, R t
      (if hasCatchall allowed family then installEndpointBypass K eps family t else ([], t)).1
      (if hasCatchall allowed family then installEndpointBypass K eps family t
        else ([], t)).2 := by
    intro family t
    split
    · exact installEndpointBypass_composes hR hone hP.host eps family t
    · exact hR.refl t
  refine hR.trans (hR.trans (hbypass .V4 s) (hbypass .V6 _)) ?_
  apply addNets_composes hR hone
  intro n hn
  obtain ⟨m, -, hm⟩ := List.mem_flatMap.mp hn
  exact hP.net n (tunnelNets_len_ne_zero hm)

theorem setupUnconfiguredFamily_composes (hP : Admits tun P) (family : Family)
    (eps : List SocketAddr) (s : σ) :
    R s (setupUnconfiguredFamily K family tun eps s).1
      (setupUnconfiguredFamily K family tun eps s).2 := by
  refine hR.trans (hR.trans (installEndpointBypass_composes hR hone hP.host eps family s)
    (installPassthroughs_composes hR hone hP.passthrough family _)) ?_
  apply addNets_composes hR hone
  intro n hn
  apply hP.net n
  rw [len_of_mem_halves hn]
  exact Nat.one_ne_zero

/-- What composes, and holds of every installing action of start-up, holds of start-up. -/
theorem startUp_composes (hP : Admits tun P) (allowed : List IpNet) (eps : List SocketAddr)
    (tunAddrs : List IpNet) (s : σ) :
    R s (startUp K tun allowed eps tunAddrs s).1 (startUp K tun allowed eps tunAddrs s).2 := by
  have hfamily : ∀ (p : Bool) family t, R t
      (if p then ([], t) else setupUnconfiguredFamily K family tun eps t).1
      (if p then ([], t) else setupUnconfiguredFamily K family tun eps t).2 := by
    intro p family t
    split
    · exact hR.refl t
    · exact setupUnconfiguredFamily_composes hR hone hP family eps t
  exact hR.trans (hR.trans (setupRoutes_composes hR hone hP allowed eps s)
    (hfamily _ .V4 _)) (hfamily _ .V6 _)

end Phases

section Records

/-- From `s` to `t` the destinations of the pushed records, and no others, were
added to the table. -/
structure Records (K : Kernel σ) (s : σ) (routes : List AddedRoute) (t : σ) : Prop where
  nodup : (routes.map AddedRoute.dest).Nodup
  absent : ∀ r ∈ routes, K.table s r.dest = none
  present : ∀ r ∈ routes, K.table t r.dest ≠ none
  frame : ∀ d, d ∉ routes.map AddedRoute.dest → K.table t d = K.table s d
  proper : ∀ r ∈ routes, r.dest.len ≠ 0

theorem Records.nil {s t : σ} (h : K.table t = K.table s) : Records K s [] t where
  nodup := List.nodup_nil
  absent := by simp
  present := by simp
  frame d _ := congrFun h d
  proper := by simp

/-- Records made later are of destinations that the earlier ones left absent. -/
theorem Records.append {s t u : σ} {as bs : List AddedRoute} (h₁ : Records K s as t)
    (h₂ : Records K t bs u) : Records K s (as ++ bs) u := by
  have hdisj : ∀ a ∈ as, ∀ b ∈ bs, a.dest ≠ b.dest := by
    intro a ha b hb heq
    exact h₁.present a ha (heq ▸ h₂.absent b hb)
  have hkeep : ∀ a ∈ as, a.dest ∉ bs.map AddedRoute.dest := by
    intro a ha hmem
    obtain ⟨b, hb, hba⟩ := List.mem_map.mp hmem
    exact hdisj a ha b hb hba.symm
  have hfresh : ∀ b ∈ bs, b.dest ∉ as.map AddedRoute.dest := by
    intro b hb hmem
    obtain ⟨a, ha, hab⟩ := List.mem_map.mp hmem
    exact hdisj a ha b hb hab
  constructor
  · rw [List.map_append, List.nodup_append]
    refine ⟨h₁.nodup, h₂.nodup, ?_⟩
    intro d hd e he
    obtain ⟨a, ha, rfl⟩ := List.mem_map.mp hd
    obtain ⟨b, hb, rfl⟩ := List.mem_map.mp he
    exact hdisj a ha b hb
  · intro r hr
    rcases List.mem_append.mp hr with ha | hb
    · exact h₁.absent r ha
    · calc
        K.table s r.dest = K.table t r.dest := (h₁.frame _ (hfresh r hb)).symm
        _ = none := h₂.absent r hb
  · intro r hr
    rcases List.mem_append.mp hr with ha | hb
    · rw [h₂.frame _ (hkeep r ha)]
      exact h₁.present r ha
    · exact h₂.present r hb
  · intro d hd
    rw [List.map_append, List.mem_append, not_or] at hd
    calc
      K.table u d = K.table t d := h₂.frame d hd.2
      _ = K.table s d := h₁.frame d hd.1
  · intro r hr
    rcases List.mem_append.mp hr with ha | hb
    · exact h₁.proper r ha
    · exact h₂.proper r hb

theorem records_composes : Composes (Records K) where
  refl _ := .nil K rfl
  trans := Records.append K

theorem Installs.records {P : AddedRoute → NextHop → Prop} {s : σ}
    {out : Option AddedRoute × σ} (h : Installs K P s out)
    (hproper : ∀ r hop, P r hop → r.dest.len ≠ 0) : Records K s out.1.toList out.2 := by
  cases h with
  | @added r hop t hP absent table =>
      constructor
      · simp
      · simpa using absent
      · simp [table]
      · intro d hd
        have hne : d ≠ r.dest := by simpa using hd
        rw [table, Function.update_of_ne hne]
      · simpa using hproper r hop hP
  | unchanged same => exact .nil K same

/-- No record is of a default route. -/
def Proper (r : AddedRoute) (_ : NextHop) : Prop := r.dest.len ≠ 0

theorem proper_host (ip : IpAddr) (gw : Option Token) (hop : NextHop) :
    Proper (.host ip gw) hop := by
  rw [Proper, AddedRoute.dest_host, IpAddr.len_host]
  exact ip.family.width_pos.ne'

theorem admits_proper (tun : Token) : Admits tun Proper where
  net n hn := n.len_dest.trans_ne hn
  host ip info hop _ := proper_host ip info.gateway hop
  passthrough n _ hn := n.len_dest.trans_ne hn

theorem installEndpointBypass_records (eps : List SocketAddr) (family : Family) (s : σ) :
    Records K s (installEndpointBypass K eps family s).1
      (installEndpointBypass K eps family s).2 :=
  installEndpointBypass_composes (records_composes K) (fun h => h.records K fun _ _ h => h)
    (fun ip info hop _ => proper_host ip info.gateway hop) eps family s

theorem installPassthroughs_records (family : Family) (s : σ) :
    Records K s (installPassthroughs K family s).1 (installPassthroughs K family s).2 :=
  installPassthroughs_composes (P := Proper) (records_composes K)
    (fun h => h.records K fun _ _ h => h) (fun n _ hn => n.len_dest.trans_ne hn) family s

/-- Start-up adds the destinations it records, each once, and no others. -/
theorem startUp_records (tun : Token) (allowed : List IpNet) (eps : List SocketAddr)
    (tunAddrs : List IpNet) (s : σ) :
    Records K s (startUp K tun allowed eps tunAddrs s).1
      (startUp K tun allowed eps tunAddrs s).2 :=
  startUp_composes (records_composes K) (fun h => h.records K fun _ _ h => h)
    (admits_proper tun) allowed eps tunAddrs s

end Records

section Sample

/-! A laptop on a home network, for the runs on fixed inputs. -/

def utun5 : Token := ⟨"utun5".toList, by decide, by decide⟩
def en0 : Token := ⟨"en0".toList, by decide, by decide⟩
def homeRouter : Token := ⟨"192.168.1.1".toList, by decide, by decide⟩
def cafeRouter : Token := ⟨"10.20.0.1".toList, by decide, by decide⟩

/-- The default routes of a network with one IPv4 router. -/
def routedBy (gw : Token) : Family → Option NextHop
  | .V4 => some (.gateway gw)
  | .V6 => none

/-- The table of the laptop at home, before the tunnel is up. -/
def homeTable : RouteTable := fun d => if d.len = 0 then routedBy homeRouter d.family else none

end Sample

end SmartGuard
