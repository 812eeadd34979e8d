import SmartGuard.Card.Thread
import SmartGuard.Tunnel.Loop

/-!
# From the configuration file to the tunnel

`cmd_up` checks the addresses of the interface, turns the peers of the file into those
that the sessions are built of, and starts the tunnel with them. `run_tunnel` then keeps
what belongs to a peer at one position of several lists.

## Implementation notes

The prefixes of the file are texts, which the `ipnet` crate reads. It is not part of the
source, so the reading is a parameter.
-/

namespace SmartGuard

open StateLoop

inductive PrivateKeyConfig
  | software (key : Key)
  | smartcard (ident : Ident)
  | smartcardAuto

structure SmartcardSettings where
  pinEntry : String := "prompt"

structure Interface where
  privateKey : PrivateKeyConfig
  listenPort : Option UInt16
  address : List String
  mtu : Option Int32
  dns : List IpAddr
  smartcard : SmartcardSettings

structure Peer where
  publicKey : Key
  presharedKey : Option Key
  endpoint : Option SocketAddr
  allowedIps : List String
  persistentKeepalive : Option UInt16

structure Config where
  interface : Interface
  peers : List Peer

/-- Who performs the key exchange: the program with a key, or a card behind a PIN. -/
inductive Oracle
  | software (key : Key)
  | smartcard (ident : Ident) (pinEntry : String)

/-- What `run_tunnel` is called with. -/
structure TunnelArgs where
  oracle : Oracle
  peers : List PeerConfig
  listenPort : UInt16
  tunAddrs : List IpNet
  mtu : Int32
  dns : List IpAddr

variable (parse : String → Except String IpNet)

/-- The peer of the sessions for one peer of the file. `none` is a panic: every prefix is
expected to be valid. -/
def Peer.toPeerConfig (p : Peer) : Option PeerConfig :=
  (p.allowedIps.mapM fun s => (parse s).toOption).map fun allowedIps =>
    { publicKey := p.publicKey
      presharedKey := p.presharedKey
      endpoint := p.endpoint
      allowedIps := allowedIps
      persistentKeepalive :=
        match p.persistentKeepalive with
        | none => none
        | some s => if s = 0 then none else some s.toNat }

def PrivateKeyConfig.oracle (smartcard : SmartcardSettings) : PrivateKeyConfig → Oracle
  | software key => .software key
  | .smartcard ident => .smartcard ident smartcard.pinEntry
  | smartcardAuto => .smartcard "auto" smartcard.pinEntry

/-- What `cmd_up` makes of a configuration, up to the start of the tunnel. The outer `none`
is a panic. -/
def cmdUp (config : Config) : Option (Except String TunnelArgs) :=
  if config.interface.address.isEmpty then
    some (.error "interface.address is required for tunnel mode")
  else
    match config.interface.address.mapM parse with
    | .error e => some (.error e)
    | .ok tunAddrs =>
        (config.peers.mapM (Peer.toPeerConfig parse)).map fun peers => .ok
          { oracle := config.interface.privateKey.oracle config.interface.smartcard
            peers := peers
            listenPort := config.interface.listenPort.getD 51820
            tunAddrs := tunAddrs
            mtu := config.interface.mtu.getD 1420
            dns := config.interface.dns }

section Translation

/-- The text is no prefix. -/
def Invalid (s : String) : Prop := ∃ e, parse s = .error e

/-- The peer of the sessions says what the peer of the file says. -/
structure Translates (p : Peer) (q : PeerConfig) : Prop where
  publicKey : q.publicKey = p.publicKey
  presharedKey : q.presharedKey = p.presharedKey
  endpoint : q.endpoint = p.endpoint
  allowedIps : List.Forall₂ (fun s n => parse s = .ok n) p.allowedIps q.allowedIps
  disabled : q.persistentKeepalive = none ↔
    p.persistentKeepalive = none ∨ p.persistentKeepalive = some 0
  enabled : ∀ s, p.persistentKeepalive = some s → s ≠ 0 → q.persistentKeepalive = some s.toNat

variable {parse}

theorem toOption_eq_some_iff {s : String} {n : IpNet} :
    (parse s).toOption = some n ↔ parse s = .ok n := by
  cases parse s with
  | error e => exact iff_of_false nofun nofun
  | ok m => exact ⟨fun h => congrArg _ (Option.some.inj h), fun h => congrArg _ (Except.ok.inj h)⟩

theorem toOption_eq_none_iff {s : String} : (parse s).toOption = none ↔ Invalid parse s := by
  unfold Invalid
  cases parse s with
  | error e => exact iff_of_true rfl ⟨e, rfl⟩
  | ok m => exact iff_of_false nofun fun ⟨_, h⟩ => nomatch h

theorem addresses_error_iff {addresses : List String} :
    (∃ e, addresses.mapM parse = .error e) ↔ ∃ s ∈ addresses, Invalid parse s :=
  mapM_eq_error_iff

theorem toPeerConfig_eq_none_iff {p : Peer} :
    p.toPeerConfig parse = none ↔ ∃ s ∈ p.allowedIps, Invalid parse s := by
  simp only [Peer.toPeerConfig, Option.map_eq_none_iff, mapM_eq_none_iff, toOption_eq_none_iff]

theorem toPeerConfig_translates {p : Peer} {q : PeerConfig}
    (h : p.toPeerConfig parse = some q) : Translates parse p q := by
  obtain ⟨nets, hnets, rfl⟩ := Option.map_eq_some_iff.mp h
  have hallowed := (mapM_eq_some_iff.mp hnets).imp fun _ _ => toOption_eq_some_iff.mp
  refine ⟨rfl, rfl, rfl, hallowed, ?_, ?_⟩
  · cases p.persistentKeepalive with
    | none => exact iff_of_true rfl (.inl rfl)
    | some s =>
        by_cases hs : s = 0
        · simp [hs]
        · simp [hs]
  · intro s hsome hs
    simp only [hsome, if_neg hs]

/-- The translation ends without a panic exactly if no prefix of a peer is invalid, or if
an error about the addresses comes first. -/
theorem cmdUp_eq_none_iff {config : Config} :
    cmdUp parse config = none ↔
      ¬ (config.interface.address = [] ∨
        (∃ s ∈ config.interface.address, Invalid parse s) ∨
        ∀ p ∈ config.peers, ∀ s ∈ p.allowedIps, ¬ Invalid parse s) := by
  have hpeers : config.peers.mapM (Peer.toPeerConfig parse) = none ↔
      ¬ ∀ p ∈ config.peers, ∀ s ∈ p.allowedIps, ¬ Invalid parse s := by
    simp only [mapM_eq_none_iff, toPeerConfig_eq_none_iff, not_forall, not_not, exists_prop]
  unfold cmdUp
  split
  · next hempty =>
      rw [List.isEmpty_iff] at hempty
      exact iff_of_false nofun (not_not.mpr (.inl hempty))
  · next hempty =>
      rw [List.isEmpty_iff] at hempty
      split
      · next e he =>
          exact iff_of_false nofun (not_not.mpr (.inr (.inl (addresses_error_iff.mp ⟨e, he⟩))))
      · next tunAddrs hok =>
          have hvalid : ¬ ∃ s ∈ config.interface.address, Invalid parse s := by
            intro hbad
            obtain ⟨e, he⟩ := addresses_error_iff.mpr hbad
            rw [hok] at he
            cases he
          rw [Option.map_eq_none_iff, hpeers, not_or, not_or]
          exact ⟨fun h => ⟨hempty, hvalid, h⟩, fun h => h.2.2⟩

/-- It ends with an error exactly if there is no address or one of them is invalid. -/
theorem cmdUp_error_iff {config : Config} :
    (∃ e, cmdUp parse config = some (.error e)) ↔
      config.interface.address = [] ∨ ∃ s ∈ config.interface.address, Invalid parse s := by
  rw [← addresses_error_iff]
  unfold cmdUp
  split
  · next hempty =>
      exact iff_of_true ⟨_, rfl⟩ (.inl (List.isEmpty_iff.mp hempty))
  · next hempty =>
      rw [List.isEmpty_iff] at hempty
      split
      · next e he => exact iff_of_true ⟨e, rfl⟩ (.inr ⟨e, he⟩)
      · next tunAddrs hok =>
          rw [hok]
          refine iff_of_false ?_ (not_or.mpr ⟨hempty, fun ⟨_, h⟩ => nomatch h⟩)
          rintro ⟨e, he⟩
          obtain ⟨peers, -, h⟩ := Option.map_eq_some_iff.mp he
          cases h

/-- The peers that the tunnel is started with are the translations, one by one. -/
theorem cmdUp_translates {config : Config} {args : TunnelArgs}
    (h : cmdUp parse config = some (.ok args)) :
    List.Forall₂ (Translates parse) config.peers args.peers := by
  unfold cmdUp at h
  split at h
  · cases h
  · split at h
    · cases h
    · obtain ⟨peers, hpeers, hargs⟩ := Option.map_eq_some_iff.mp h
      obtain rfl := Except.ok.inj hargs
      exact (mapM_eq_some_iff.mp hpeers).imp fun _ _ => toPeerConfig_translates

end Translation

section Slots

variable {PeerId κ τ σ ω : Type}

/-- The configuration in which the peer at a position is registered. -/
def Registry.configAt (R : Registry PeerId κ τ) (config : κ) (peers : List PeerConfig)
    (i : Nat) : κ :=
  (peers.take i).foldl (fun c p => (R.insertPeer p.static c).2) config

/-- Each peer has the id of its own registration at its own position. -/
theorem addPeers_getElem? {R : Registry PeerId κ τ} {I : Iptrie PeerId} (peers : List PeerConfig)
    (config : κ) (b : PeerNetBuilder I) (i : Nat) :
    (addPeers R I peers config b).2.2[i]? =
      peers[i]?.map fun p => (R.insertPeer p.static (R.configAt config peers i)).1 := by
  induction peers generalizing config b i with
  | nil => rfl
  | cons peer rest ih =>
      cases i with
      | zero => rfl
      | succ i => exact ih _ _ i

/-- The peers, the ids of the sessions and the slots of the tunnel loop are lists of one
length, and what is at one position describes one peer. -/
structure SlotsAligned (g : Setting PeerId κ τ σ ω) (ids : List PeerId)
    (peerRt : List (PeerRuntime PeerId)) (now : Nat) : Prop where
  ids : ∀ i : Nat, ids[i]? =
    g.peers[i]?.map fun p => (g.registry.insertPeer p.static
      (g.registry.configAt g.config g.peers i)).1
  slots : ∀ i : Nat, peerRt[i]? =
    g.peers[i]?.map fun p =>
      { id := (g.registry.insertPeer p.static (g.registry.configAt g.config g.peers i)).1
        endpoint := p.endpoint
        keepalive := p.persistentKeepalive
        lastSent := now }

theorem launch_aligned (g : Setting PeerId κ τ σ ω) (now : Nat) (routes : σ) (world : ω) :
    SlotsAligned g (buildSessions g.registry g.trie g.config g.peers).2.2
      (launch g now routes world).2.peerRt now := by
  have hids : ∀ i : Nat, (buildSessions g.registry g.trie g.config g.peers).2.2[i]? =
      g.peers[i]?.map fun p => (g.registry.insertPeer p.static
        (g.registry.configAt g.config g.peers i)).1 :=
    addPeers_getElem? g.peers g.config _
  refine ⟨hids, fun i => ?_⟩
  simp only [launch, runtimes, List.getElem?_map, List.zip, List.getElem?_zipWith, hids]
  cases g.peers[i]? <;> rfl

end Slots

/-- What the start of the tunnel promises of a configuration: it does not panic, an error
means that an address or a prefix is missing or invalid, and otherwise the peers of the
tunnel are those of the file, each with one id and one slot. -/
structure UpFaithful (parse : String → Except String IpNet) (config : Config) : Prop where
  total : cmdUp parse config ≠ none
  error_iff : (∃ e, cmdUp parse config = some (.error e)) ↔
    config.interface.address = [] ∨ (∃ s ∈ config.interface.address, Invalid parse s) ∨
      ∃ p ∈ config.peers, ∃ s ∈ p.allowedIps, Invalid parse s
  translated : ∀ args, cmdUp parse config = some (.ok args) →
    List.Forall₂ (Translates parse) config.peers args.peers
  aligned : ∀ args, cmdUp parse config = some (.ok args) →
    ∀ {PeerId κ τ σ ω : Type} (g : Setting PeerId κ τ σ ω), g.peers = args.peers →
      ∀ now routes world, SlotsAligned g (buildSessions g.registry g.trie g.config g.peers).2.2
        (launch g now routes world).2.peerRt now

/-- The promise is kept exactly if no prefix of a peer is invalid, or if the addresses are
rejected before the peers are read. -/
theorem upFaithful_iff (parse : String → Except String IpNet) (config : Config) :
    UpFaithful parse config ↔
      config.interface.address = [] ∨ (∃ s ∈ config.interface.address, Invalid parse s) ∨
        ∀ p ∈ config.peers, ∀ s ∈ p.allowedIps, ¬ Invalid parse s := by
  constructor
  · intro h
    by_contra hcond
    exact h.total (cmdUp_eq_none_iff.mpr hcond)
  · intro hcond
    refine ⟨fun hnone => cmdUp_eq_none_iff.mp hnone hcond, ?_, fun _ => cmdUp_translates,
      fun _ _ _ _ _ _ _ g _ now routes world => launch_aligned g now routes world⟩
    rw [cmdUp_error_iff]
    constructor
    · rintro (hempty | haddress)
      · exact .inl hempty
      · exact .inr (.inl haddress)
    · rintro (hempty | haddress | ⟨p, hp, s, hs, hbad⟩)
      · exact .inl hempty
      · exact .inr haddress
      · rcases hcond with hempty | haddress | hvalid
        · exact .inl hempty
        · exact .inr haddress
        · exact absurd hbad (hvalid p hp s hs)

section Sample

/-- A reader that knows the one address of the sample. -/
def sampleParse (s : String) : Except String IpNet :=
  if s = "10.0.0.2/24" then .ok (.ofOctets .V4 [10, 0, 0, 2] 24)
  else .error "invalid IP address syntax"

/-- A peer whose prefix is longer than an address. -/
def mistypedConfig : Config where
  interface :=
    { privateKey := .smartcardAuto
      listenPort := none
      address := ["10.0.0.2/24"]
      mtu := none
      dns := []
      smartcard := {} }
  peers := [
    { publicKey := serverPeer.publicKey
      presharedKey := none
      endpoint := some serverEndpoint
      allowedIps := ["10.0.0.0/33"]
      persistentKeepalive := some 25 }]

/-- One mistyped prefix of a peer ends the program in a panic. -/
theorem mistyped_prefix_panics :
    ¬ ∀ (parse : String → Except String IpNet) (config : Config), UpFaithful parse config := by
  intro claim
  apply (claim sampleParse mistypedConfig).total
  decide +kernel

end Sample

end SmartGuard
