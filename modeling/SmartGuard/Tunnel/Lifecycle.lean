import SmartGuard.Dns.Resolver
import SmartGuard.Route.Reversal
import SmartGuard.Tunnel.Retry

/-!
# From the start of the tunnel to its end

`run_tunnel` binds the socket, creates the device and sets up routes and resolver before it
enters the loop, and each of these may end it. Once the routes are set up a guard holds what
has to be taken back, and it does so whenever and however `run_tunnel` ends. What is left
then is what the host would have without the program, but for the tunnel's entry of the
resolver if the run that was to set it failed, which is not taken back.

## Implementation notes

The set-up of the device is an operation on the state of the outside, as the socket is. The
routes, the resolver and the outside are states apart, so an order between steps on two of
them does not show. A step that fails ends the loop and has changed no route. How an
address is printed with its length is left open, since a crate does it.
-/

namespace SmartGuard

open LongestMatch

/-- What the device is created with. -/
structure TunConfig where
  address : Option IpNet
  mtu : Int32

/-- The set-up of the socket, the device and the signals, any of which may fail, and the text of
an address of the device. -/
structure Provision (ω : Type) where
  display : IpNet → Text
  bind : UInt16 → ω → Bool × ω
  create : TunConfig → ω → Option Token × ω
  asyncDevice : ω → Bool × ω
  run : Text → List Text → ω → Bool × ω
  signals : ω → Bool × ω

/-- The parts of the host that the program changes. -/
structure Host (σ ω δ : Type) where
  routes : σ
  world : ω
  dns : δ

/-- What `run_tunnel` is given beside the setting of the loop. -/
structure Request where
  os : Os
  listenPort : UInt16
  mtu : Int32
  dnsServers : List IpAddr

/-- What has to be taken back when `run_tunnel` ends. -/
structure CleanupGuard where
  addedRoutes : List AddedRoute
  appliedDns : Option AppliedDns

variable {PeerId κ τ σ ω δ ε : Type}

section Start

def applyIpv6Addr (p : Provision ω) (os : Os) (tunName : Text) (net : IpNet) (w : ω) : Bool × ω :=
  let cidr := p.display net
  match os with
  | .macos => p.run "ifconfig".toList [tunName, "inet6".toList, cidr, "alias".toList] w
  | .linux =>
      p.run "ip".toList
        ["-6".toList, "addr".toList, "add".toList, cidr, "dev".toList, tunName] w
  | .other => (false, w)

/-- The loop over the addresses of the device. -/
def applyIpv6Addrs (p : Provision ω) (os : Os) (tunName : Text) (tunAddrs : List IpNet) (w : ω) :
    ω :=
  tunAddrs.foldl (fun w net =>
    if net.family = .V6 then (applyIpv6Addr p os tunName net w).2 else w) w

/-- How the start of `run_tunnel` ends: before any route is changed, or with the guard in
place. -/
inductive Started (PeerId τ σ ω δ : Type)
  | failed (host : Host σ ω δ)
  | guarded (tunName : Token) (tunnel : Tunnel PeerId τ σ ω) (st : LoopState PeerId τ σ ω)
      (appliedDns : Option AppliedDns) (dns : δ) (signals : Bool)

/-- `run_tunnel` up to its loop. -/
def startTunnel (g : Setting PeerId κ τ σ ω) (p : Provision ω) (R : Resolver δ) (req : Request)
    (now : Nat) (host : Host σ ω δ) : Started PeerId τ σ ω δ :=
  let bound := p.bind req.listenPort host.world
  if ¬ bound.1 then .failed { host with world := bound.2 }
  else
    let v4Addr := g.tunAddrs.find? fun n => n.family = .V4
    let created := p.create { address := v4Addr, mtu := req.mtu } bound.2
    match created.1 with
    | none => .failed { host with world := created.2 }
    | some tunName =>
        let opened := p.asyncDevice created.2
        if ¬ opened.1 then .failed { host with world := opened.2 }
        else
          let world := applyIpv6Addrs p req.os tunName.text g.tunAddrs opened.2
          let up := launch { g with tunName := tunName } now host.routes world
          let applied := applyDns R req.os tunName.text req.dnsServers host.dns
          let signals := p.signals up.2.world
          .guarded tunName up.1 { up.2 with world := signals.2 } applied.1 applied.2 signals.1

/-- The guard is dropped: the resolver is restored, then the routes are. -/
def CleanupGuard.drop (K : Kernel σ) (R : Resolver δ) (os : Os) (guard : CleanupGuard)
    (routes : σ) (dns : δ) : σ × δ :=
  let dns := restoreDns R os guard.appliedDns dns
  (cleanupRoutes K guard.addedRoutes routes, dns)

end Start

section Life

variable [DecidableEq PeerId]

/-- The run of the loop beside the table that the host would have without the program. The
environment changes any routes but those that are recorded. -/
inductive Beside (T : Tunnel PeerId τ σ ω) (t₀ : Nat) (st₀ : LoopState PeerId τ σ ω)
    (U₀ : RouteTable) : Nat → LoopState PeerId τ σ ω → RouteTable → Prop
  | start : Beside T t₀ st₀ U₀ t₀ st₀ U₀
  | step {t st U now event st' obs} (run : Beside T t₀ st₀ U₀ t st U) (later : t ≤ now)
      (own : ∀ routes, event ≠ .environment routes)
      (next : step T now event st = some (st', obs)) : Beside T t₀ st₀ U₀ now st' U
  | environment {t st U now routes st' obs} (change : RouteChange)
      (run : Beside T t₀ st₀ U₀ t st U) (later : t ≤ now)
      (spares : change.Spares (st.addedRoutes.map AddedRoute.dest))
      (table : T.kernel.table routes = changed (T.kernel.table st.routes) change)
      (next : step T now (.environment routes) st = some (st', obs)) :
      Beside T t₀ st₀ U₀ now st' (changed U change)

/-- What the loop does to the routes is a life of the route set-up. -/
theorem Beside.life {T : Tunnel PeerId τ σ ω} {t₀ t : Nat} {st₀ st : LoopState PeerId τ σ ω}
    {U₀ U : RouteTable} (run : Beside T t₀ st₀ U₀ t st U) :
    Life T.kernel st₀.routes st₀.addedRoutes U₀ st.routes st.addedRoutes U := by
  induction run with
  | start => exact .start
  | @step t st U now event st' obs run later own next ih =>
      have hrouted := step_routed next
      generalize hout : (st'.addedRoutes, st'.routes) = out at hrouted
      cases hrouted with
      | kept event =>
          obtain ⟨hroutes, hkernel⟩ := Prod.mk.inj hout
          rw [hroutes, hkernel]
          exact ih
      | rechecked event =>
          have hroutes : st'.addedRoutes = _ := congrArg Prod.fst hout
          have hkernel : st'.routes = _ := congrArg Prod.snd hout
          rw [hroutes, hkernel]
          exact .recheck ih
      | environment routes => exact absurd rfl (own routes)
  | environment change run later spares table next ih =>
      cases next
      exact .environment change ih spares table

/-- The key that the tunnel's entry may be left under: the run that was to set it failed. -/
def strayKey (req : Request) (tunName : Text) (applied : Option AppliedDns) : Option Text :=
  if applied.isNone ∧ req.dnsServers ≠ [] then some (dnsKey req.os tunName) else none

/-- The ways in which `run_tunnel` ends: what it leaves of the routes and the resolver, the key
of an entry that it may leave behind, and the table and the entries that the host would have
without it. The loop may end in any state, by a signal or by a step that fails. While it runs
the environment leaves the tunnel's entry of the resolver alone, and does as it likes with the
others. -/
inductive Ends (g : Setting PeerId κ τ σ ω) (p : Provision ω) (R : Resolver δ)
    (entries : δ → Text → Option ε) (req : Request) (K' : Kernel σ) (R' : Resolver δ) (now : Nat)
    (host : Host σ ω δ) : σ × δ → Option Text → RouteTable → (Text → Option ε) → Prop
  | failed {left} (start : startTunnel g p R req now host = .failed left) :
      Ends g p R entries req K' R' now host (left.routes, left.dns) none
        (g.kernel.table host.routes) (entries host.dns)
  | unsignalled {tunName T st applied dns}
      (start : startTunnel g p R req now host = .guarded tunName T st applied dns false) :
      Ends g p R entries req K' R' now host
        (CleanupGuard.drop K' R' req.os ⟨st.addedRoutes, applied⟩ st.routes dns)
        (strayKey req tunName.text applied) (g.kernel.table host.routes) (entries host.dns)
  | looped {tunName T st applied dns t st' U dns' V}
      (start : startTunnel g p R req now host = .guarded tunName T st applied dns true)
      (run : Beside T now st (g.kernel.table host.routes) t st' U)
      (others : SameBut (dnsKey req.os tunName.text) V (entries dns'))
      (own : entries dns' (dnsKey req.os tunName.text) =
        entries dns (dnsKey req.os tunName.text))
      (ownHost : V (dnsKey req.os tunName.text) = entries host.dns (dnsKey req.os tunName.text)) :
      Ends g p R entries req K' R' now host
        (CleanupGuard.drop K' R' req.os ⟨st'.addedRoutes, applied⟩ st'.routes dns')
        (strayKey req tunName.text applied) U V

end Life

section Restored

variable {g : Setting PeerId κ τ σ ω} {p : Provision ω} {R R' : Resolver δ}
  {entries : δ → Text → Option ε} {req : Request}
  {K' : Kernel σ} {now : Nat} {host : Host σ ω δ}

/-- A start that fails has changed neither the routes nor the resolver. -/
theorem startTunnel_failed {left : Host σ ω δ}
    (h : startTunnel g p R req now host = .failed left) :
    left.routes = host.routes ∧ left.dns = host.dns := by
  simp only [startTunnel] at h
  split at h
  · cases h
    exact ⟨rfl, rfl⟩
  · split at h
    · cases h
      exact ⟨rfl, rfl⟩
    · split at h
      · cases h
        exact ⟨rfl, rfl⟩
      · cases h

/-- Any other start has set up both for the device it created. -/
theorem startTunnel_guarded {tunName : Token} {T : Tunnel PeerId τ σ ω}
    {st : LoopState PeerId τ σ ω} {applied : Option AppliedDns} {dns : δ} {signals : Bool}
    (h : startTunnel g p R req now host = .guarded tunName T st applied dns signals) :
    (∃ config w, (p.create config w).1 = some tunName) ∧ T.kernel = g.kernel ∧
      (st.addedRoutes, st.routes) = startUp g.kernel tunName (allowedIps g.peers)
        (peerEndpoints g.peers) g.tunAddrs host.routes ∧
      (applied, dns) = applyDns R req.os tunName.text req.dnsServers host.dns := by
  simp only [startTunnel] at h
  split at h
  · cases h
  · split at h
    · cases h
    · next hcreate =>
        split at h
        · cases h
        · cases h
          exact ⟨⟨_, _, hcreate⟩, rfl, rfl, rfl⟩

/-- The routes after the start differ from the table without it by what is recorded. -/
theorem reversible_of_startUp {st : LoopState PeerId τ σ ω} {tunName : Token}
    (h : (st.addedRoutes, st.routes) = startUp g.kernel tunName (allowedIps g.peers)
      (peerEndpoints g.peers) g.tunAddrs host.routes) :
    Reversible g.kernel st.routes st.addedRoutes (g.kernel.table host.routes) := by
  have hroutes : st.addedRoutes = _ := congrArg Prod.fst h
  have hkernel : st.routes = _ := congrArg Prod.snd h
  rw [hroutes, hkernel]
  exact (startUp_records g.kernel tunName _ _ _ host.routes).reversible

/-- A clean-up by a kernel with the same table. -/
theorem Reversible.cleanup_same {s : σ} {routes : List AddedRoute} {U : RouteTable}
    (h : Reversible g.kernel s routes U) (same : K'.table = g.kernel.table)
    (hdel : K'.DeletesSucceed) : K'.table (cleanupRoutes K' routes s) = U := by
  have hend : Reversible K' s routes U := ⟨same ▸ h.agree, h.absent, h.proper⟩
  exact hend.cleanup hdel

/-- Taking the servers back leaves the entries that the host would have without them, unless
the run that was to set them failed. -/
theorem restoreDns_entries {tunName : Text} {applied : Option AppliedDns} {dns t : δ}
    {V : Text → Option ε} (documented : R'.Documented entries tunName)
    (hok : ∀ s, (R'.remove req.os tunName s).1.ok = true)
    (absent : entries host.dns (dnsKey req.os tunName) = none)
    (hdns : (applied, dns) = applyDns R req.os tunName req.dnsServers host.dns)
    (others : SameBut (dnsKey req.os tunName) V (entries t))
    (own : entries t (dnsKey req.os tunName) = entries dns (dnsKey req.os tunName))
    (ownHost : V (dnsKey req.os tunName) = entries host.dns (dnsKey req.os tunName))
    {key : Text} (hkey : strayKey req tunName applied ≠ some key) :
    entries (restoreDns R' req.os applied t) key = V key := by
  have happlied : applied = (applyDns R req.os tunName req.dnsServers host.dns).1 :=
    congrArg Prod.fst hdns
  have hafter : dns = (applyDns R req.os tunName req.dnsServers host.dns).2 :=
    congrArg Prod.snd hdns
  cases applied with
  | some d =>
      obtain ⟨rfl, hos⟩ := applyDns_eq_some happlied.symm
      rw [restoreDns, cleanupDns_entries documented hos (hok t), Function.update_apply]
      split
      · next hown => rw [hown, ownHost, absent]
      · next hother => exact others key hother
  | none =>
      by_cases hown : key = dnsKey req.os tunName
      · -- the own key is not the stray one only if no run was to set the entry
        have hnil : req.dnsServers = [] := by
          by_contra hne
          exact hkey (by rw [strayKey, if_pos ⟨rfl, hne⟩, hown])
        rw [hnil, applyDns_nil] at hafter
        rw [restoreDns, hown, own, ownHost, hafter]
      · exact others key hown

variable [DecidableEq PeerId]

/-- However `run_tunnel` ends, if its deletes succeed the routes are what the host would have
without it. If taking the servers back succeeds, so are the entries of the resolver, but for
the tunnel's own if the run that was to set it failed. -/
theorem runTunnel_restores
    (documented : ∀ config w tunName, (p.create config w).1 = some tunName →
      R.Documented entries tunName.text ∧ R'.Documented entries tunName.text)
    (absent : ∀ config w tunName, (p.create config w).1 = some tunName →
      entries host.dns (dnsKey req.os tunName.text) = none)
    (sameK : K'.table = g.kernel.table) (hdel : K'.DeletesSucceed) {left : σ × δ}
    {stray : Option Text} {U : RouteTable} {V : Text → Option ε}
    (ends : Ends g p R entries req K' R' now host left stray U V) :
    K'.table left.1 = U ∧
      ((∀ config w tunName, (p.create config w).1 = some tunName →
          ∀ s, (R'.remove req.os tunName.text s).1.ok = true) →
        ∀ key, stray ≠ some key → entries left.2 key = V key) := by
  cases ends with
  | failed start =>
      obtain ⟨hroutes, hdns⟩ := startTunnel_failed start
      dsimp only
      rw [sameK, hroutes, hdns]
      exact ⟨rfl, fun _ _ _ => rfl⟩
  | @unsignalled tunName T st applied dns start =>
      obtain ⟨⟨config, w, hcreate⟩, -, hroutes, hdns⟩ := startTunnel_guarded start
      obtain ⟨hset, hremove⟩ := documented config w tunName hcreate
      refine ⟨(reversible_of_startUp hroutes).cleanup_same sameK hdel, ?_⟩
      intro hok key hkey
      have hothers : SameBut (dnsKey req.os tunName.text) (entries host.dns) (entries dns) := by
        obtain rfl : dns = _ := congrArg Prod.snd hdns
        exact applyDns_sameBut hset
      exact restoreDns_entries hremove (hok config w tunName hcreate)
        (absent config w tunName hcreate) hdns hothers rfl rfl hkey
  | @looped tunName T st applied dns t st' U dns' V start run others own ownHost =>
      obtain ⟨⟨config, w, hcreate⟩, hkernel, hroutes, hdns⟩ := startTunnel_guarded start
      obtain ⟨-, hremove⟩ := documented config w tunName hcreate
      have hlife := run.life
      rw [hkernel] at hlife
      have hend := hlife.reversible (reversible_of_startUp hroutes)
      refine ⟨hend.cleanup_same sameK hdel, ?_⟩
      intro hok key hkey
      exact restoreDns_entries hremove (hok config w tunName hcreate)
        (absent config w tunName hcreate) hdns others own ownHost hkey

end Restored

section Sample

/-! A laptop on which everything works, with the server as its resolver. -/

def Provision.working : Provision Unit where
  display n := IpAddr.show ⟨n.family, n.addr⟩ ++ '/' :: Nat.toDigits 10 n.prefixLen
  bind _ w := (true, w)
  create _ w := (some utun5, w)
  asyncDevice w := (true, w)
  run _ _ w := (true, w)
  signals w := (true, w)

def laptopRequest : Request where
  os := .macos
  listenPort := 51820
  mtu := 1420
  dnsServers := [serverIp]

/-- A `scutil` that knows the two scripts for the tunnel's device, and no other tool. -/
def Resolver.laptop : Resolver (Text → Option Text) where
  run program _ input s :=
    if program ≠ "scutil".toList then (.spawnFailed, s)
    else if input = cleanupScript utun5.text then
      (.exited true, Function.update s (dnsKey .macos utun5.text) none)
    else if input = applyScript utun5.text [serverIp] then
      (.exited true, Function.update s (dnsKey .macos utun5.text) (some serverIp.show))
    else (.exited false, s)

theorem Resolver.laptop_cleanup (s : Text → Option Text) :
    Resolver.laptop.run "scutil".toList [] (cleanupScript utun5.text) s =
      (.exited true, Function.update s (dnsKey .macos utun5.text) none) := by
  simp only [Resolver.laptop, ne_eq, not_true_eq_false, if_false, if_true]

theorem Resolver.laptop_resolvconf (args : List Text) (input : Text) (s : Text → Option Text) :
    Resolver.laptop.run "resolvconf".toList args input s = (.spawnFailed, s) := by
  have hne : "resolvconf".toList ≠ "scutil".toList := by decide
  simp only [Resolver.laptop, if_pos hne]

theorem Resolver.laptop_documented : Resolver.laptop.Documented (fun s => s) utun5.text where
  scutil_set servers s key hkey := by
    simp only [Resolver.laptop]
    split_ifs
    · rfl
    · exact Function.update_of_ne hkey _ _
    · exact Function.update_of_ne hkey _ _
    · rfl
  resolvconf_set input s key hkey := by rw [Resolver.laptop_resolvconf]
  remove os s key hkey := by
    cases os with
    | linux => simp only [Resolver.remove, Resolver.laptop_resolvconf]
    | macos =>
        simp only [Resolver.remove, Resolver.laptop_cleanup]
        exact Function.update_of_ne hkey _ _
    | other =>
        simp only [Resolver.remove, Resolver.laptop_cleanup]
        exact Function.update_of_ne hkey _ _
  removed os s hok := by
    cases os with
    | linux =>
        simp only [Resolver.remove, Resolver.laptop_resolvconf] at hok
        cases hok
    | macos =>
        simp only [Resolver.remove, Resolver.laptop_cleanup]
        exact Function.update_self _ _ _
    | other =>
        simp only [Resolver.remove, Resolver.laptop_cleanup]
        exact Function.update_self _ _ _

def laptopHost : Host (RouteTable × Unit) Unit (Text → Option Text) where
  routes := (homeTable, ())
  world := ()
  dns := fun _ => none

/-- The key of the servers that the network gives. -/
def wifiKey : Text := "State:/Network/Service/wifi/DNS".toList

/-- The laptop moves to another network while the tunnel is up, with another router and another
server of names. After its end only the move remains. -/
theorem laptop_restored :
    ∃ left : (RouteTable × Unit) × (Text → Option Text),
      Ends (behindServer [laptop]) Provision.working Resolver.laptop (fun s => s) laptopRequest
        Kernel.ideal Resolver.laptop 0 laptopHost left none
        (changed homeTable (defaultChange (routedBy cafeRouter)))
        (Function.update (fun _ => none) wifiKey (some cafeRouter.text)) ∧
      left.1.1 = changed homeTable (defaultChange (routedBy cafeRouter)) ∧
      left.2 = Function.update (fun _ => none) wifiKey (some cafeRouter.text) := by
  have hname : ∀ config w tunName, (Provision.working.create config w).1 = some tunName →
      tunName = utun5 := fun _ _ _ hcreate => (Option.some.inj hcreate).symm
  have hkey : dnsKey laptopRequest.os utun5.text ≠ wifiKey := by decide
  have happlied : applyDns Resolver.laptop .macos utun5.text [serverIp] laptopHost.dns =
      (some ⟨utun5.text⟩, Function.update laptopHost.dns (dnsKey .macos utun5.text)
        (some serverIp.show)) := by
    have hne : applyScript utun5.text [serverIp] ≠ cleanupScript utun5.text := by
      decide +kernel
    simp only [applyDns, applyMacos, runScutil, Resolver.laptop, List.isEmpty_cons, ne_eq,
      not_true_eq_false, if_neg hne, if_false, if_true, Ended.ok, Bool.false_eq_true]
  obtain ⟨T, st, applied, dns, start⟩ : ∃ T st applied dns,
      startTunnel (behindServer [laptop]) Provision.working Resolver.laptop laptopRequest 0
        laptopHost = .guarded utun5 T st applied dns true := ⟨_, _, _, _, rfl⟩
  obtain ⟨-, hkernel, -, hdns⟩ := startTunnel_guarded start
  obtain ⟨rfl, rfl⟩ := Prod.mk.inj (hdns.trans happlied)
  have run : Beside T 0 st homeTable 0 { st with routes :=
      (changed st.routes.1 (defaultChange (routedBy cafeRouter)), ()) }
      (changed homeTable (defaultChange (routedBy cafeRouter))) :=
    .environment (defaultChange (routedBy cafeRouter)) .start (Nat.le_refl 0)
      (spares_defaultChange _ _) (hkernel ▸ rfl) rfl
  have others : SameBut (dnsKey .macos utun5.text)
      (Function.update (fun _ => none) wifiKey (some cafeRouter.text))
      (Function.update (Function.update laptopHost.dns (dnsKey .macos utun5.text)
        (some serverIp.show)) wifiKey (some cafeRouter.text)) := by
    intro key hother
    simp only [Function.update_apply, if_neg hother, laptopHost]
  have ends : Ends (behindServer [laptop]) Provision.working Resolver.laptop (fun s => s)
      laptopRequest Kernel.ideal Resolver.laptop 0 laptopHost _ none
      (changed homeTable (defaultChange (routedBy cafeRouter)))
      (Function.update (fun _ => none) wifiKey (some cafeRouter.text)) :=
    .looped start run others (Function.update_of_ne hkey _ _) (Function.update_of_ne hkey _ _)
  obtain ⟨hroutes, hdns⟩ := runTunnel_restores
    (fun config w tunName hcreate => by
      obtain rfl := hname config w tunName hcreate
      exact ⟨Resolver.laptop_documented, Resolver.laptop_documented⟩)
    (fun _ _ _ _ => rfl) rfl (Kernel.simulated_deletesSucceed _) ends
  refine ⟨_, ends, hroutes, ?_⟩
  ext1 key
  refine hdns ?_ key (by rintro ⟨⟩)
  intro config w tunName hcreate s
  obtain rfl := hname config w tunName hcreate
  exact congrArg (fun out => out.1.ok) (Resolver.laptop_cleanup s)

end Sample

end SmartGuard
