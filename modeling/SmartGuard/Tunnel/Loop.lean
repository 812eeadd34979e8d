import SmartGuard.Library.TimedRun
import SmartGuard.Route.Recheck
import SmartGuard.Session.Build
import SmartGuard.Session.Layout

/-!
# The event loop of the tunnel

`run_tunnel` builds the sessions, sets up the routes, and then serves one event
at a time: the tick of every second, a datagram from the network, a packet from
the tunnel device. Beside the effects a step emits observations of what it sent
and whether it checked the routes, each where the effect takes place.

## Implementation notes

The socket and the device fail when they like, so they are operations on a state
of their own. The clock is read once in a step, and the time of an event is what
it shows then. A slice out of bounds and a failing device end the loop, as they
end the program. A signal, a failing receive or read and a lost blocking task end it too,
and each is an event, whose step gives nothing. The DNS settings do not take part in the
loop.
-/

namespace SmartGuard

open Buffer StateLoop

/-- The socket and the tunnel device, which may fail at any time. -/
structure Outside (ω : Type) where
  sendTo : List UInt8 → SocketAddr → ω → Bool × ω
  writeAll : List UInt8 → ω → Bool × ω

structure PeerRuntime (PeerId : Type) where
  id : PeerId
  endpoint : Option SocketAddr
  keepalive : Option Nat
  lastSent : Nat

/-- What `run_tunnel` keeps unchanged while the loop runs. -/
structure Tunnel (PeerId τ σ ω : Type) where
  layer : SessionLayer PeerId τ
  platform : Platform
  kernel : Kernel σ
  outside : Outside ω
  trie : Iptrie PeerId
  peerNet : PeerNet trie
  endpointToIdx : SocketAddr → Option Nat
  hostRouteIdx : Option Nat

/-- What the loop changes. -/
structure LoopState (PeerId τ σ ω : Type) where
  sessions : τ
  peerRt : List (PeerRuntime PeerId)
  addedRoutes : List AddedRoute
  tunBuffer : List UInt8
  routes : σ
  world : ω

/-- What can be seen of a step. -/
inductive Seen (PeerId : Type)
  | sent (now : Nat) (peer : PeerId) (dst : SocketAddr)
  | keepalive (now : Nat) (slot : Nat) (peer : PeerId)
  | rechecked (now : Nat)
  deriving DecidableEq

def Seen.now {PeerId : Type} : Seen PeerId → Nat
  | .sent now _ _ => now
  | .keepalive now _ _ => now
  | .rechecked now => now

/-- What ends the loop from outside. -/
inductive Interrupt
  | signal
  | receiveFailed
  | readFailed
  | taskLost

/-- What can happen next. The environment may change the routes and nothing else. -/
inductive Event (σ : Type)
  | tick
  | datagram (addr : SocketAddr) (bytes : List UInt8)
  | packet (bytes : List UInt8)
  | environment (routes : σ)
  | interrupted (cause : Interrupt)

variable {PeerId κ τ σ ω : Type}

section Keepalive

/-- The filter of the keepalive loop. -/
def PeerRuntime.due (p : PeerRuntime PeerId) (now : Nat) : Bool :=
  match p.keepalive with
  | none => false
  | some interval => interval ≤ now - p.lastSent

variable (T : Tunnel PeerId τ σ ω)

/-- Send a keepalive for the peer of a slot. It is attempted whatever the sessions answer. -/
def sendKeepalive (now slot : Nat) (id : PeerId) (s : τ × ω) : (τ × ω) × List (Seen PeerId) :=
  let out := T.layer.sendMessage id [] s.1
  let seen := [.keepalive now slot id]
  match out.1 with
  | some (.data ep metadata) =>
      let buf := List.replicate (dataHeaderSize + tagFooterSize) 0
      ((out.2.2, (T.outside.sendTo (T.layer.frameInPlace metadata buf) ep s.2).2), seen)
  | some (.maintenance msg) => ((out.2.2, (T.outside.sendTo msg.data msg.dst s.2).2), seen)
  | none => ((out.2.2, s.2), seen)

/-- The body of the keepalive loop, on a slot with its number. -/
def keepAlive (now : Nat) (p : PeerRuntime PeerId × Nat) (s : (τ × ω) × List (Seen PeerId)) :
    PeerRuntime PeerId × ((τ × ω) × List (Seen PeerId)) :=
  if p.1.due now then
    let out := sendKeepalive T now p.2 p.1.id s.1
    ({ p.1 with lastSent := now }, (out.1, s.2 ++ out.2))
  else (p.1, s)

end Keepalive

section Step

variable (T : Tunnel PeerId τ σ ω)

/-- Send messages that may be lost. -/
def sendAll (msgs : List MaintenanceMsg) (w : ω) : ω :=
  msgs.foldl (fun w msg => (T.outside.sendTo msg.data msg.dst w).2) w

def recheck (st : LoopState PeerId τ σ ω) : LoopState PeerId τ σ ω :=
  let out := recheckRoutes T.kernel st.addedRoutes st.routes
  { st with addedRoutes := out.1, routes := out.2 }

/-- The first host entry has been torn down. -/
def hostTorn (st : LoopState PeerId τ σ ω) : Bool :=
  match T.hostRouteIdx with
  | none => false
  | some i =>
      match st.addedRoutes[i]? with
      | some (.host _ none) => true
      | _ => false

def onTick (now : Nat) (st : LoopState PeerId τ σ ω) :
    LoopState PeerId τ σ ω × List (Seen PeerId) :=
  let turned := T.layer.turn st.sessions
  let torn := hostTorn T st
  let st := { st with sessions := turned.2 }
  let st := if torn then recheck T st else st
  let world := sendAll T turned.1 st.world
  let checked := if torn then [.rechecked now] else []
  let kept := mapState (keepAlive T now) st.peerRt.zipIdx ((st.sessions, world), checked)
  ({ st with peerRt := kept.1, sessions := kept.2.1.1, world := kept.2.1.2 }, kept.2.2)

/-- The size of the endpoint buffer. -/
def endpointBufferSize : Nat := 2048

def onDatagram [DecidableEq PeerId] (now : Nat) (addr : SocketAddr) (bytes : List UInt8)
    (st : LoopState PeerId τ σ ω) :
    Option (LoopState PeerId τ σ ω × List (Seen PeerId)) :=
  let out := handleExtern T.layer T.platform T.peerNet addr (bytes.take endpointBufferSize)
    st.sessions
  let st := { st with sessions := out.sessions }
  match out.write with
  | none => none
  | some (.inbound data) =>
      let written := T.outside.writeAll data st.world
      if written.1 then some ({ st with world := written.2 }, []) else none
  | some (.outbound data _) =>
      let sent := T.outside.sendTo data addr st.world
      let st := { st with world := sent.2 }
      if sent.1 then some (st, []) else some (recheck T st, [.rechecked now])
  | some .none => some (st, [])

/-- The peer that the packet in the buffer is for. -/
def packetPeer (tunBuffer : List UInt8) (filled : Nat) : Option PeerId :=
  (ipDst ((tunBuffer.take filled).drop T.platform.ipPacketStart)).map T.peerNet.lookup

/-- Refresh the slot that the reverse index names for an endpoint. -/
def postpone (now : Nat) (dst : SocketAddr) (peerRt : List (PeerRuntime PeerId)) :
    List (PeerRuntime PeerId) :=
  match T.endpointToIdx dst with
  | some i => peerRt.modify i fun p => { p with lastSent := now }
  | none => peerRt

def onPacket (now : Nat) (bytes : List UInt8) (st : LoopState PeerId τ σ ω) :
    Option (LoopState PeerId τ σ ω × List (Seen PeerId)) :=
  let start := T.platform.tunBufStart
  let read := bytes.take (st.tunBuffer.length - start)
  let tunBuffer := overwrite st.tunBuffer start read
  let filled := start + read.length
  let out := handleIntern T.layer T.platform T.peerNet tunBuffer filled st.sessions
  let st := { st with sessions := out.sessions, tunBuffer := out.buf }
  match out.write with
  | none => none
  | some (.outbound data dst) =>
      let sent := T.outside.sendTo data dst st.world
      let st := { st with world := sent.2 }
      if sent.1 then
        some ({ st with peerRt := postpone T now dst st.peerRt },
          ((packetPeer T tunBuffer filled).map (Seen.sent now · dst)).toList)
      else some (recheck T st, [.rechecked now])
  | some _ => some (st, [])

/-- One round of the loop. -/
def step [DecidableEq PeerId] (now : Nat) (event : Event σ) (st : LoopState PeerId τ σ ω) :
    Option (LoopState PeerId τ σ ω × List (Seen PeerId)) :=
  match event with
  | .tick => some (onTick T now st)
  | .datagram addr bytes => onDatagram T now addr bytes st
  | .packet bytes => onPacket T now bytes st
  | .environment routes => some ({ st with routes := routes }, [])
  | .interrupted _ => none

end Step

section Launch

/-- One slot for each peer, created at the same time. -/
def runtimes (ids : List PeerId) (peers : List PeerConfig) (now : Nat) :
    List (PeerRuntime PeerId) :=
  (ids.zip peers).map fun p =>
    { id := p.1, endpoint := p.2.endpoint, keepalive := p.2.persistentKeepalive, lastSent := now }

/-- The slots of the configured endpoints; of two slots the later one stays. -/
def endpointIndex (peerRt : List (PeerRuntime PeerId)) : SocketAddr → Option Nat :=
  LongestMatch.insertAll (fun _ => none)
    (peerRt.zipIdx.filterMap fun p => p.1.endpoint.map fun ep => (ep, p.2))

/-- The first host entry. -/
def hostRouteIndex (routes : List AddedRoute) : Option Nat :=
  routes.findIdx? fun
    | .host _ _ => true
    | _ => false

/-- The handshakes at start-up. -/
def initiateHandshakes (layer : SessionLayer PeerId τ) (outside : Outside ω)
    (peerRt : List (PeerRuntime PeerId)) (s : τ × ω) : τ × ω :=
  peerRt.foldl (fun s p =>
    let out := layer.sendMessage p.id (List.replicate 16 0) s.1
    match out.1 with
    | some (.maintenance msg) => (out.2.2, (outside.sendTo msg.data msg.dst s.2).2)
    | _ => (out.2.2, s.2)) s

/-- The outside parts that `run_tunnel` is given, and its configuration. -/
structure Setting (PeerId κ τ σ ω : Type) where
  registry : Registry PeerId κ τ
  trie : Iptrie PeerId
  layer : SessionLayer PeerId τ
  platform : Platform
  kernel : Kernel σ
  outside : Outside ω
  config : κ
  peers : List PeerConfig
  tunName : Token
  tunAddrs : List IpNet

/-- The tunnel and the state in which `run_tunnel` enters the loop. -/
def launch (g : Setting PeerId κ τ σ ω) (now : Nat) (routes : σ) (world : ω) :
    Tunnel PeerId τ σ ω × LoopState PeerId τ σ ω :=
  let built := buildSessions g.registry g.trie g.config g.peers
  let peerRt := runtimes built.2.2 g.peers now
  let up := startUp g.kernel g.tunName (allowedIps g.peers) (peerEndpoints g.peers) g.tunAddrs
    routes
  let greeted := initiateHandshakes g.layer g.outside peerRt (built.1, world)
  ({ layer := g.layer, platform := g.platform, kernel := g.kernel, outside := g.outside,
     trie := g.trie, peerNet := built.2.1, endpointToIdx := endpointIndex peerRt,
     hostRouteIdx := hostRouteIndex up.1 },
   { sessions := greeted.1, peerRt := peerRt, addedRoutes := up.1,
     tunBuffer := List.replicate 2048 0, routes := up.2, world := greeted.2 })

end Launch

end SmartGuard
