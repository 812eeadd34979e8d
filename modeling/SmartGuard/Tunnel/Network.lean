import SmartGuard.Session.Exchange
import SmartGuard.Tunnel.Progress

/-!
# Tunnels that are connected by a network

Hosts run the tunnel, each with its own configuration. They start when they like, and the
network between them drops, repeats and reorders datagrams and may add its own. If the
sessions are authentic, then whatever the network does, a device is given packets only that
the host which owns their source has read from its own device for it, and none of them more
often than it was read.

## Implementation notes

Beside the state of the loop a host keeps the packets that it has read from its device. The
device keeps what it was given, and the socket the datagrams that it was given, which is what
the network has to choose from.
-/

namespace SmartGuard

open Buffer Function Relation StateLoop

variable {ι PeerId κ τ σ ω : Type}

/-- The peer table of a configuration. -/
def Setting.net (g : Setting PeerId κ τ σ ω) : PeerNet g.trie :=
  (buildSessions g.registry g.trie g.config g.peers).2.1

/-- A host on which the tunnel has been launched. -/
structure Node (PeerId τ σ ω : Type) where
  launchedAt : Nat
  routes : σ
  world : ω
  st : LoopState PeerId τ σ (ω × Given)
  read : List (List UInt8)

/-- What the device was given. -/
def Node.written (n : Node PeerId τ σ ω) : List (List UInt8) := n.st.world.2.written

def Node.tunnel (g : Setting PeerId κ τ σ ω) (n : Node PeerId τ σ ω) :
    Tunnel PeerId τ σ (ω × Given) :=
  (launch g.logged n.launchedAt n.routes (n.world, .nothing)).1

def Node.launched (g : Setting PeerId κ τ σ ω) (now : Nat) (routes : σ) (world : ω) :
    Node PeerId τ σ ω where
  launchedAt := now
  routes := routes
  world := world
  st := (launch g.logged now routes (world, .nothing)).2
  read := []

/-- What the device gives in an event. -/
def readIn (P : Platform) : Event σ → List (List UInt8)
  | .packet bytes => [P.packetOf bytes]
  | _ => []

/-- A host after an event. -/
def Node.after (g : Setting PeerId κ τ σ ω) (n : Node PeerId τ σ ω)
    (event : Event σ) (st : LoopState PeerId τ σ (ω × Given)) : Node PeerId τ σ ω :=
  { n with
    st := st
    read := n.read ++ readIn g.platform event }

section Deliveries

/-- What the device is given for a payload that the sessions have decrypted. -/
def delivered [DecidableEq PeerId] {I : Iptrie PeerId} (P : Platform) (net : PeerNet I)
    (e : PeerId × List UInt8) : Option (List UInt8) :=
  (ipSrc e.2).bind fun src =>
    if net.lookup src = e.1 then some (P.getHeaderFor e.2 ++ e.2) else none

/-- The bytes with zeros up to the next multiple of 16. -/
def paddedBytes (bytes : List UInt8) : List UInt8 :=
  bytes ++ List.replicate (nextMultipleOf bytes.length 16 - bytes.length) 0

/-- What the sessions are asked to encrypt for a packet of the device. -/
def routed {I : Iptrie PeerId} (net : PeerNet I) (bytes : List UInt8) :
    Option (PeerId × List UInt8) :=
  (ipDst bytes).map fun dst => (net.lookup dst, paddedBytes bytes)

/-- The payloads that are packets. -/
def packets (entries : List (PeerId × List UInt8)) : List (PeerId × List UInt8) :=
  entries.filter fun e => (ipSrc e.2).isSome

theorem packets_append (entries more : List (PeerId × List UInt8)) :
    packets (entries ++ more) = packets entries ++ packets more :=
  List.filter_append ..

end Deliveries

theorem mem_encryptedBy {S : SessionLayer PeerId τ} {id : PeerId} {payload : List UInt8}
    {answer : Option (SendMessage S.Metadata)} {e : PeerId × List UInt8}
    (h : e ∈ encryptedBy S id payload answer) :
    e = (id, payload) ∧ ∃ ep metadata, answer = some (.data ep metadata) := by
  match answer, h with
  | some (.data ep metadata), h => exact ⟨List.mem_singleton.mp h, ep, metadata, rfl⟩

theorem append_subset_append {α : Type*} {l m : List α} (h : l ⊆ m) (more : List α) :
    l ++ more ⊆ m ++ more :=
  List.append_subset.mpr ⟨List.Subset.trans h (List.subset_append_left _ _),
    List.subset_append_right _ _⟩

section Quiet

variable {S : SessionLayer PeerId τ} {arrives : List UInt8 → Prop}

/-- A host asks its sessions for nothing that concerns a packet, what it sends meanwhile is on
the wire, and its device is given nothing. -/
def Quietly (S : SessionLayer PeerId τ) (arrives : List UInt8 → Prop)
    (a b : τ × (ω × Given)) : Prop :=
  b.2.2.written = a.2.2.written ∧ ∀ r : Record PeerId, a.2.2.datagrams ⊆ r.wire →
    ∃ r' : Record PeerId, ReflTransGen (Asks S arrives) (a.1, r) (b.1, r') ∧
      b.2.2.datagrams ⊆ r'.wire ∧ r'.decrypted = r.decrypted ∧
        packets r'.encrypted = packets r.encrypted

theorem Quietly.refl (a : τ × (ω × Given)) : Quietly S arrives a a :=
  ⟨rfl, fun r hwire => ⟨r, .refl, hwire, rfl, rfl⟩⟩

theorem Quietly.trans {a b c : τ × (ω × Given)} (h : Quietly S arrives a b)
    (h' : Quietly S arrives b c) : Quietly S arrives a c := by
  obtain ⟨hwritten, h⟩ := h
  obtain ⟨hwritten', h'⟩ := h'
  refine ⟨hwritten'.trans hwritten, ?_⟩
  intro r hwire
  obtain ⟨r₁, hasks₁, hwire₁, hdecrypted₁, hpackets₁⟩ := h r hwire
  obtain ⟨r₂, hasks₂, hwire₂, hdecrypted₂, hpackets₂⟩ := h' r₁ hwire₁
  exact ⟨r₂, hasks₁.trans hasks₂, hwire₂, hdecrypted₂.trans hdecrypted₁,
    hpackets₂.trans hpackets₁⟩

/-- A call for a payload that is no packet. -/
theorem Quietly.send {s : τ} {w w' : ω × Given} {id : PeerId} {payload : List UInt8}
    {out : List (List UInt8)} (hpayload : ipSrc payload = none)
    (allowed : ∀ d ∈ out, SendAllows S (S.sendMessage id payload s) d)
    (hlog : w'.2.datagrams = w.2.datagrams ++ out) (hwritten : w'.2.written = w.2.written) :
    Quietly S arrives (s, w) ((S.sendMessage id payload s).2.2, w') := by
  refine ⟨hwritten, fun r hwire => ?_⟩
  refine ⟨_, .single (.send id payload out allowed), ?_, rfl, ?_⟩
  · rw [hlog]
    exact append_subset_append hwire out
  · have hnone : packets (encryptedBy S id payload (S.sendMessage id payload s).1) = [] := by
      apply List.filter_eq_nil_iff.mpr
      intro e he
      obtain ⟨rfl, -⟩ := mem_encryptedBy he
      simp [hpayload]
    rw [packets_append, hnone, List.append_nil]

variable {T : Tunnel PeerId τ σ (ω × Given)} {O : Outside ω}

theorem sendTo_given (hsocket : T.outside = O.logged) (data : List UInt8) (dst : SocketAddr)
    (w : ω × Given) :
    (T.outside.sendTo data dst w).2.2.datagrams = w.2.datagrams ++ [data] ∧
      (T.outside.sendTo data dst w).2.2.written = w.2.written := by
  rw [hsocket]
  exact ⟨List.map_append, rfl⟩

/-- The messages of a tick go through the socket in their order. -/
theorem sendAll_given (hsocket : T.outside = O.logged) (msgs : List MaintenanceMsg)
    (w : ω × Given) :
    (sendAll T msgs w).2.datagrams = w.2.datagrams ++ msgs.map MaintenanceMsg.data ∧
      (sendAll T msgs w).2.written = w.2.written := by
  unfold sendAll
  induction msgs generalizing w with
  | nil => exact ⟨(List.append_nil _).symm, rfl⟩
  | cons msg rest ih =>
      obtain ⟨hsent, hwritten⟩ := sendTo_given hsocket msg.data msg.dst w
      obtain ⟨hrest, hkept⟩ := ih (T.outside.sendTo msg.data msg.dst w).2
      rw [List.foldl_cons, hrest, hkept, hsent, hwritten, List.append_assoc]
      exact ⟨rfl, rfl⟩

theorem sendKeepalive_quietly (hsocket : T.outside = O.logged) (now slot : Nat) (id : PeerId)
    (a : τ × (ω × Given)) :
    Quietly T.layer arrives a (sendKeepalive T now slot id a).1 := by
  obtain ⟨s, w⟩ := a
  have hnone : ipSrc [] = none := rfl
  have hempty : (T.layer.sendMessage id [] s).2.1 = [] :=
    List.eq_nil_of_length_eq_zero (T.layer.length_send id [] s)
  have hsent := fun data dst => sendTo_given hsocket data dst w
  unfold sendKeepalive
  dsimp only
  split
  · next ep metadata hanswer =>
      refine .send hnone ?_ (hsent _ ep).1 (hsent _ ep).2
      intro d hd
      obtain rfl := List.mem_singleton.mp hd
      have hframed := SendAllows.framed hanswer
        (List.length_replicate (n := dataHeaderSize) (a := (0 : UInt8)))
        (List.length_replicate (n := tagFooterSize) (a := (0 : UInt8)))
      rwa [hempty, List.append_nil, List.replicate_append_replicate] at hframed
  · next msg hanswer =>
      refine .send hnone ?_ (hsent msg.data msg.dst).1 (hsent msg.data msg.dst).2
      intro d hd
      obtain rfl := List.mem_singleton.mp hd
      exact .maintenance hanswer
  · exact .send hnone (fun d hd => absurd hd List.not_mem_nil) (List.append_nil _).symm rfl

/-- The keepalives of a tick. -/
theorem keepAlives_quietly (hsocket : T.outside = O.logged) (now : Nat)
    (slots : List (PeerRuntime PeerId × Nat)) (a : (τ × (ω × Given)) × List (Seen PeerId)) :
    Quietly T.layer arrives a.1 (mapState (keepAlive T now) slots a).2.1 := by
  apply mapState_rel (R := fun a b : (τ × (ω × Given)) × List (Seen PeerId) =>
    Quietly T.layer arrives a.1 b.1) (fun a => .refl a.1) Quietly.trans
  intro p _ a
  unfold keepAlive
  split
  · exact sendKeepalive_quietly hsocket now p.2 p.1.id a.1
  · exact .refl a.1

/-- The handshakes at start-up. -/
theorem initiateHandshakes_quietly (peerRt : List (PeerRuntime PeerId))
    (a : τ × (ω × Given)) :
    Quietly S arrives a (initiateHandshakes S O.logged peerRt a) := by
  have hnone : ipSrc (List.replicate 16 0) = none := rfl
  unfold initiateHandshakes
  induction peerRt generalizing a with
  | nil => exact .refl a
  | cons p rest ih =>
      rw [List.foldl_cons]
      refine Quietly.trans ?_ (ih _)
      dsimp only
      split
      · next msg hanswer =>
          refine .send hnone ?_ List.map_append rfl
          intro d hd
          obtain rfl := List.mem_singleton.mp hd
          exact .maintenance hanswer
      · exact .send hnone (fun d hd => absurd hd List.not_mem_nil) (List.append_nil _).symm rfl

/-- A tick turns the sessions and sends keepalives. -/
theorem onTick_quietly (hsocket : T.outside = O.logged) (now : Nat)
    (st : LoopState PeerId τ σ (ω × Given)) :
    Quietly T.layer arrives (st.sessions, st.world)
      ((onTick T now st).1.sessions, (onTick T now st).1.world) := by
  have hturn : Quietly T.layer arrives (st.sessions, st.world)
      ((T.layer.turn st.sessions).2, sendAll T (T.layer.turn st.sessions).1 st.world) := by
    obtain ⟨hsent, hwritten⟩ := sendAll_given hsocket (T.layer.turn st.sessions).1 st.world
    refine ⟨hwritten, fun r hwire => ?_⟩
    refine ⟨_, .single (.turn ((T.layer.turn st.sessions).1.map MaintenanceMsg.data) ?_), ?_,
      rfl, rfl⟩
    · intro d hd
      obtain ⟨msg, hmsg, rfl⟩ := List.mem_map.mp hd
      exact ⟨msg, hmsg, rfl⟩
    · rw [hsent]
      exact append_subset_append hwire _
  apply hturn.trans
  let turned := ((T.layer.turn st.sessions).2, sendAll T (T.layer.turn st.sessions).1 st.world)
  have hkept : ∀ seen, Quietly T.layer arrives turned
      (mapState (keepAlive T now) st.peerRt.zipIdx (turned, seen)).2.1 :=
    fun seen => keepAlives_quietly hsocket now st.peerRt.zipIdx (turned, seen)
  unfold onTick
  cases hostTorn T st with
  | true => exact hkept [.rechecked now]
  | false => exact hkept []

end Quiet

section Packets

variable {S : SessionLayer PeerId τ}

theorem Padded.afterSend_sessions (l : Padded)
    (out : Option (SendMessage S.Metadata) × List UInt8 × τ) :
    (l.afterSend S out).sessions = out.2.2 := by
  obtain ⟨send, bytes, t⟩ := out
  match send with
  | none => rfl
  | some (.maintenance msg) =>
      simp only [afterSend]
      split <;> rfl
  | some (.data ep metadata) =>
      simp only [afterSend]
      split <;> rfl

/-- What goes to the network after a packet is what the answer of the sessions allows. -/
theorem Padded.afterSend_outbound (l : Padded)
    {out : Option (SendMessage S.Metadata) × List UInt8 × τ}
    (hout : out.2.1.length = l.payload.length) {data : List UInt8} {dst : SocketAddr}
    (h : (l.afterSend S out).write = some (.outbound data dst)) : SendAllows S out data := by
  obtain ⟨send, bytes, t⟩ := out
  match send with
  | none => cases h
  | some (.maintenance msg) =>
      simp only [afterSend] at h
      split at h <;> cases h
      exact .maintenance rfl
  | some (.data ep metadata) =>
      simp only [afterSend] at h
      split at h
      · cases h
      · next frame hslice =>
          cases h
          have hlen : (l.header ++ bytes).length = l.padTo := by
            rw [List.length_append, l.length_header, hout, l.length_payload, Padded.padTo]
          have hroom : l.padTo + tagFooterSize ≤ (l.withPayload bytes).length := slice_le hslice
          rw [slice_eq_some ⟨Nat.zero_le _, hroom⟩, List.drop_zero] at hslice
          obtain rfl := Option.some.inj hslice
          rw [withPayload, List.length_append, hlen] at hroom
          rw [withPayload, ← hlen, List.take_length_add_append]
          exact .framed rfl l.length_header (List.length_take_of_le (by omega))

variable {T : Tunnel PeerId τ σ ω} {st : LoopState PeerId τ σ ω} {bytes : List UInt8}

/-- A packet of the device is padded and handed to the sessions for its destination. -/
theorem handled_packet (hbuf : st.tunBuffer.length = tunnelBufferSize)
    (hheader : T.platform.kernelHeaderLen ≤ bytes.length) {pkt : Packet}
    (hpkt : pkt.bytes = T.platform.packetOf bytes) :
    ∃ l : Padded, l.payload = pkt.padded ∧ handled T st bytes =
      l.afterSend T.layer (T.layer.sendMessage (T.peerNet.lookup pkt.dst) pkt.padded
        st.sessions) := by
  obtain ⟨tunBuf, hlen, hfilled, hpacket, hhandled⟩ := handled_eq (T := T) hbuf bytes
  have hstart := (ipPacketStart_le_iff T.platform bytes).mpr hheader
  have hslice := slice_tunPacket hstart hfilled
  rw [hpacket, ← hpkt, T.platform.ipPacketStart_eq] at hslice
  have hsize : dataHeaderSize + pkt.bytes.length ≤ tunnelBufferSize := by
    obtain ⟨before, after, -, -, hend⟩ := slice_eq_some_iff.mp hslice
    omega
  obtain ⟨l, hl, hlpacket, hlfilled⟩ := Padded.exists_of_slice hslice (hlen ▸ (padded_fits hsize).1)
  have hpayload := Padded.payload_eq hlpacket
  have hdst : ipDst l.packet = some pkt.dst := by
    rw [hlpacket]
    exact pkt.ipDst_bytes
  refine ⟨l, hpayload, ?_⟩
  rw [hhandled, ← hl, ← hlfilled, handleIntern_padded l hdst, hpayload]

/-- What is no packet is dropped. -/
theorem handled_other (hbuf : st.tunBuffer.length = tunnelBufferSize)
    (hheader : T.platform.kernelHeaderLen ≤ bytes.length)
    (hpkt : ¬ ∃ pkt : Packet, pkt.bytes = T.platform.packetOf bytes) :
    (handled T st bytes).write = some .none ∧
      (handled T st bytes).sessions = st.sessions := by
  obtain ⟨tunBuf, hlen, hfilled, hpacket, hhandled⟩ := handled_eq (T := T) hbuf bytes
  have hslice := slice_tunPacket ((ipPacketStart_le_iff T.platform bytes).mpr hheader) hfilled
  rw [hpacket] at hslice
  rw [hhandled, handleIntern_other hslice (Packet.ipField_eq_none hpkt)]
  exact ⟨rfl, rfl⟩

/-- What a packet of the device leaves of the sessions and sends is what the handler says, and
the device is given nothing. -/
theorem onPacket_effect {T : Tunnel PeerId τ σ (ω × Given)} {O : Outside ω}
    (hsocket : T.outside = O.logged) {now : Nat}
    {st st' : LoopState PeerId τ σ (ω × Given)} {obs : List (Seen PeerId)}
    (next : onPacket T now bytes st = some (st', obs)) :
    st'.sessions = (handled T st bytes).sessions ∧
      st'.world.2.written = st.world.2.written ∧
      ∃ out, st'.world.2.datagrams = st.world.2.datagrams ++ out ∧
        ∀ d ∈ out, ∃ dst, (handled T st bytes).write = some (.outbound d dst) := by
  obtain ⟨hsessions, -, hworld⟩ := onPacket_cases next
  rcases hworld with ⟨data, dst, hwrite, hworld, -⟩ | ⟨-, hworld, -⟩
  · obtain ⟨hsent, hwritten⟩ := sendTo_given hsocket data dst st.world
    rw [← hworld] at hsent hwritten
    exact ⟨hsessions, hwritten, [data], hsent, List.forall_mem_singleton.mpr ⟨dst, hwrite⟩⟩
  · rw [hworld]
    exact ⟨hsessions, rfl, [], (List.append_nil _).symm, fun d hd => absurd hd List.not_mem_nil⟩

/-- What the device gives in a packet is routed after what it gave before. -/
theorem Node.routed_after_packet (g : Setting PeerId κ τ σ ω) (n : Node PeerId τ σ ω)
    (bytes : List UInt8) (st : LoopState PeerId τ σ (ω × Given)) :
    (n.after g (.packet bytes) st).read.filterMap (routed g.net) =
      n.read.filterMap (routed g.net) ++ (routed g.net (g.platform.packetOf bytes)).toList := by
  rw [Node.after, List.filterMap_append]
  cases hrouted : routed g.net (g.platform.packetOf bytes) with
  | none => simp [readIn, hrouted]
  | some e => simp [readIn, hrouted]

/-- Asking for one payload encrypts no other packet. -/
theorem packets_encryptedBy_sublist (S : SessionLayer PeerId τ) (id : PeerId)
    (payload : List UInt8) (answer : Option (SendMessage S.Metadata)) :
    (packets (encryptedBy S id payload answer)).Sublist [(id, payload)] := by
  apply List.filter_sublist.trans
  unfold encryptedBy
  split
  · exact List.Sublist.refl _
  · exact List.nil_sublist _

end Packets

section Link

variable [DecidableEq PeerId]

/-- The sessions of a host and their record are those of its loop. What it has written to its
device is what the sessions have decrypted from the owners of its source, and the packets that
they have encrypted are among those read from the device. -/
structure Linked (g : Setting PeerId κ τ σ ω) (n : Node PeerId τ σ ω)
    (x : τ × Record PeerId) : Prop where
  sessions : n.st.sessions = x.1
  wire : n.st.world.2.datagrams ⊆ x.2.wire
  buffer : n.st.tunBuffer.length = tunnelBufferSize
  written : n.written = x.2.decrypted.filterMap (delivered g.platform g.net)
  read : (packets x.2.encrypted).Sublist (n.read.filterMap (routed g.net))

variable {g : Setting PeerId κ τ σ ω} {n : Node PeerId τ σ ω} {x : τ × Record PeerId}
  {arrives : List UInt8 → Prop} {now : Nat}

/-- A quiet part of a run keeps the link. -/
theorem Linked.quietly (h : Linked g n x) {n' : Node PeerId τ σ ω}
    (quiet : Quietly g.layer arrives (n.st.sessions, n.st.world) (n'.st.sessions, n'.st.world))
    (hbuf : n'.st.tunBuffer = n.st.tunBuffer) (hread : n'.read = n.read) :
    ∃ y, ReflTransGen (Asks g.layer arrives) x y ∧ Linked g n' y := by
  obtain ⟨s, r⟩ := x
  have hwritten : n'.written = n.written := quiet.1
  obtain ⟨r', hasks, hwire, hdecrypted, hpackets⟩ := quiet.2 r h.wire
  have hsessions : n.st.sessions = s := h.sessions
  rw [hsessions] at hasks
  refine ⟨_, hasks, rfl, hwire, hbuf ▸ h.buffer, ?_, ?_⟩
  · rw [hwritten, hdecrypted]
    exact h.written
  · rw [hread, hpackets]
    exact h.read

section Datagram

variable {I : Iptrie PeerId} {S : SessionLayer PeerId τ} {P : Platform} {net : PeerNet I}
  {addr : SocketAddr} {epBuf : List UInt8} {s : τ}

/-- What the result of a handler gives to the device. -/
def Write.toDevice : Option Write → List (List UInt8)
  | some (.inbound data) => [data]
  | _ => []

/-- What the handler of datagrams gives to the device are the packets that the sessions have
decrypted from the owners of their sources. -/
theorem handleExtern_toDevice (hplace : S.ReadsInPlace) (hreply : S.RepliesFit) :
    Write.toDevice (handleExtern S P net addr epBuf s).write =
      (decryptedBy (S.recvMessage addr epBuf s).1).filterMap (delivered P net) := by
  by_cases hmessage : ∃ peer payload, (S.recvMessage addr epBuf s).1 = some (.read peer payload)
  · obtain ⟨peer, payload, hmessage⟩ := hmessage
    rw [hmessage, handleExtern_read hplace hmessage]
    cases hsrc : ipSrc payload with
    | none => simp [Write.toDevice, decryptedBy, delivered, hsrc]
    | some src =>
        by_cases howner : net.lookup src = peer
        · simp [Write.toDevice, decryptedBy, delivered, hsrc, howner]
        · simp [Write.toDevice, decryptedBy, delivered, hsrc, howner]
  · push Not at hmessage
    rw [handleExtern_reply hreply hmessage]
    have hnone : decryptedBy (S.recvMessage addr epBuf s).1 = [] := by
      unfold decryptedBy
      split
      · next peer payload hread => exact absurd hread (hmessage peer payload)
      · rfl
    rw [hnone]
    split <;> rfl

/-- What goes back to the network is the reply of the sessions. -/
theorem handleExtern_outbound (hplace : S.ReadsInPlace) (hreply : S.RepliesFit)
    {data : List UInt8} {dst : SocketAddr}
    (h : (handleExtern S P net addr epBuf s).write = some (.outbound data dst)) :
    ReceiveAllows (S.recvMessage addr epBuf s) data := by
  by_cases hmessage : ∃ peer payload, (S.recvMessage addr epBuf s).1 = some (.read peer payload)
  · obtain ⟨peer, payload, hmessage⟩ := hmessage
    rw [handleExtern_read hplace hmessage] at h
    split at h
    · cases h
    · split at h <;> cases h
  · push Not at hmessage
    rw [handleExtern_reply hreply hmessage] at h
    split at h
    · next reply hanswer =>
        cases h
        exact .reply hanswer
    · cases h

end Datagram

/-- A datagram is one call of the sessions, and the device is given what the handler says. -/
theorem onDatagram_asks {T : Tunnel PeerId τ σ (ω × Given)} {O : Outside ω}
    (hsocket : T.outside = O.logged) (hplace : T.layer.ReadsInPlace)
    (hreply : T.layer.RepliesFit) {addr : SocketAddr} {bytes : List UInt8}
    {st st' : LoopState PeerId τ σ (ω × Given)} {obs : List (Seen PeerId)}
    (next : onDatagram T now addr bytes st = some (st', obs)) :
    st'.sessions = (T.layer.recvMessage addr (bytes.take endpointBufferSize) st.sessions).2.2 ∧
      st'.tunBuffer = st.tunBuffer ∧
      st'.world.2.written = st.world.2.written ++
        Write.toDevice (handleExtern T.layer T.platform T.peerNet addr
          (bytes.take endpointBufferSize) st.sessions).write ∧
      ∃ out, st'.world.2.datagrams = st.world.2.datagrams ++ out ∧ ∀ d ∈ out, ReceiveAllows
        (T.layer.recvMessage addr (bytes.take endpointBufferSize) st.sessions) d := by
  have hsessions : (handleExtern T.layer T.platform T.peerNet addr
      (bytes.take endpointBufferSize) st.sessions).sessions = _ := handleExtern_sessions
  have hquiet : ∃ out, st.world.2.datagrams = st.world.2.datagrams ++ out ∧
      ∀ d ∈ out, ReceiveAllows
        (T.layer.recvMessage addr (bytes.take endpointBufferSize) st.sessions) d :=
    ⟨[], (List.append_nil _).symm, fun d hd => absurd hd List.not_mem_nil⟩
  unfold onDatagram at next
  dsimp only at next
  split at next
  · cases next
  · next data hwrite =>
      split at next
      · cases next
        rw [hwrite, hsocket]
        exact ⟨hsessions, rfl, rfl, hquiet⟩
      · cases next
  · next data dst hwrite =>
      have hallowed := handleExtern_outbound hplace hreply hwrite
      obtain ⟨hdatagrams, hwritten⟩ := sendTo_given hsocket data addr st.world
      have hsent : ∃ out, (T.outside.sendTo data addr st.world).2.2.datagrams =
          st.world.2.datagrams ++ out ∧ ∀ d ∈ out, ReceiveAllows
            (T.layer.recvMessage addr (bytes.take endpointBufferSize) st.sessions) d := by
        refine ⟨[data], hdatagrams, ?_⟩
        intro d hd
        obtain rfl := List.mem_singleton.mp hd
        exact hallowed
      rw [hwrite]
      split at next <;> cases next
      · exact ⟨hsessions, rfl, hwritten.trans (List.append_nil _).symm, hsent⟩
      · exact ⟨hsessions, rfl, hwritten.trans (List.append_nil _).symm, hsent⟩
  · next hwrite =>
      cases next
      rw [hwrite]
      exact ⟨hsessions, rfl, (List.append_nil _).symm, hquiet⟩

/-- A datagram keeps the link. -/
theorem Linked.datagram (hplace : g.layer.ReadsInPlace) (hreply : g.layer.RepliesFit)
    (h : Linked g n x) {addr : SocketAddr} {bytes : List UInt8}
    (arrived : arrives (bytes.take endpointBufferSize))
    {st' : LoopState PeerId τ σ (ω × Given)} {obs : List (Seen PeerId)}
    (next : onDatagram (n.tunnel g) now addr bytes n.st = some (st', obs)) :
    ∃ y, ReflTransGen (Asks g.layer arrives) x y ∧
      Linked g (n.after g (.datagram addr bytes) st') y := by
  obtain ⟨hsessions, hbuffer, hdevice, out, hlog, hallowed⟩ :=
    onDatagram_asks (O := g.outside) rfl hplace hreply next
  have hwritten : (n.after g (.datagram addr bytes) st').written = n.written ++ _ :=
    hdevice.trans (congrArg (n.written ++ ·) (handleExtern_toDevice hplace hreply))
  obtain ⟨s, r⟩ := x
  obtain rfl : n.st.sessions = s := h.sessions
  refine ⟨_, .single (.receive addr _ out arrived hallowed), hsessions, ?_, ?_, ?_, ?_⟩
  · rw [Node.after, hlog]
    exact append_subset_append h.wire out
  · exact hbuffer ▸ h.buffer
  · rw [hwritten, h.written, List.filterMap_append]
    rfl
  · have hread : (n.after g (.datagram addr bytes) st').read = n.read := List.append_nil _
    rw [hread]
    exact h.read

/-- A packet of the device keeps the link. -/
theorem Linked.packet (h : Linked g n x) {bytes : List UInt8}
    {st' : LoopState PeerId τ σ (ω × Given)} {obs : List (Seen PeerId)}
    (next : step (n.tunnel g) now (.packet bytes) n.st = some (st', obs)) :
    ∃ y, ReflTransGen (Asks g.layer arrives) x y ∧ Linked g (n.after g (.packet bytes) st') y := by
  have hbuffer := step_tunBuffer h.buffer next
  obtain ⟨hsessions, hdevice, out, hlog, hsent⟩ := onPacket_effect (O := g.outside) rfl next
  have hsome : (handled (n.tunnel g) n.st bytes).write ≠ none := by
    intro hnone
    have hstop : step (n.tunnel g) now (.packet bytes) n.st = none :=
      onPacket_eq_none_iff.mpr hnone
    rw [next] at hstop
    cases hstop
  have hheader := kernelHeaderLen_le h.buffer hsome
  have hwritten : (n.after g (.packet bytes) st').written = n.written := hdevice
  obtain ⟨s, r⟩ := x
  obtain rfl : n.st.sessions = s := h.sessions
  by_cases hpkt : ∃ pkt : Packet, pkt.bytes = g.platform.packetOf bytes
  · obtain ⟨pkt, hpkt⟩ := hpkt
    obtain ⟨l, hpayload, hhandled⟩ := handled_packet h.buffer hheader hpkt
    have hlen : (g.layer.sendMessage (g.net.lookup pkt.dst) pkt.padded
        n.st.sessions).2.1.length = l.payload.length := by
      rw [hpayload]
      exact g.layer.length_send _ _ _
    have hrouted : routed g.net (g.platform.packetOf bytes) =
        some (g.net.lookup pkt.dst, pkt.padded) := by
      rw [← hpkt, routed, pkt.ipDst_bytes]
      rfl
    rw [hhandled] at hsessions hsent
    rw [l.afterSend_sessions] at hsessions
    have hallowed : ∀ d ∈ out, SendAllows g.layer
        (g.layer.sendMessage (g.net.lookup pkt.dst) pkt.padded n.st.sessions) d := by
      intro d hd
      obtain ⟨dst, hwrite⟩ := hsent d hd
      exact l.afterSend_outbound hlen hwrite
    refine ⟨_, .single (.send (g.net.lookup pkt.dst) pkt.padded out hallowed), hsessions, ?_,
      hbuffer, ?_, ?_⟩
    · rw [Node.after, hlog]
      exact append_subset_append h.wire out
    · rw [hwritten]
      exact h.written
    · rw [Node.routed_after_packet, hrouted, packets_append]
      exact h.read.append (packets_encryptedBy_sublist _ _ _ _)
  · obtain ⟨hwrite, hkept⟩ := handled_other h.buffer hheader hpkt
    have hout : out = [] := by
      apply List.eq_nil_iff_forall_not_mem.mpr
      intro d hd
      obtain ⟨dst, hdata⟩ := hsent d hd
      rw [hwrite] at hdata
      cases hdata
    refine ⟨_, .refl, hsessions.trans hkept, ?_, hbuffer, ?_, ?_⟩
    · rw [Node.after, hlog, hout, List.append_nil]
      exact h.wire
    · rw [hwritten]
      exact h.written
    · rw [Node.routed_after_packet]
      exact h.read.trans (List.sublist_append_left _ _)

/-- Every event keeps the link. -/
theorem Linked.step (hplace : g.layer.ReadsInPlace) (hreply : g.layer.RepliesFit)
    (h : Linked g n x) {event : Event σ}
    (arrived : ∀ addr bytes, event = .datagram addr bytes →
      arrives (bytes.take endpointBufferSize))
    {st' : LoopState PeerId τ σ (ω × Given)} {obs : List (Seen PeerId)}
    (next : SmartGuard.step (n.tunnel g) now event n.st = some (st', obs)) :
    ∃ y, ReflTransGen (Asks g.layer arrives) x y ∧ Linked g (n.after g event st') y := by
  cases event with
  | tick =>
      obtain rfl : (onTick (n.tunnel g) now n.st).1 = st' :=
        congrArg Prod.fst (Option.some.inj next)
      have quiet : Quietly (n.tunnel g).layer arrives (n.st.sessions, n.st.world)
          ((onTick (n.tunnel g) now n.st).1.sessions, (onTick (n.tunnel g) now n.st).1.world) :=
        onTick_quietly (O := g.outside) rfl now n.st
      exact h.quietly quiet onTick_tunBuffer (List.append_nil _)
  | datagram addr bytes => exact h.datagram hplace hreply (arrived addr bytes rfl) next
  | packet bytes => exact h.packet next
  | environment routes =>
      cases next
      exact h.quietly (.refl _) rfl (List.append_nil _)
  | interrupted cause => cases next

/-- The sessions that a configuration starts with. -/
def Setting.sessions (g : Setting PeerId κ τ σ ω) : τ :=
  (buildSessions g.registry g.trie g.config g.peers).1

/-- A host that has been launched has asked its sessions for the handshakes. -/
theorem Linked.launched (arrives : List UInt8 → Prop) (g : Setting PeerId κ τ σ ω) (now : Nat)
    (routes : σ) (world : ω) :
    ∃ y, ReflTransGen (Asks g.layer arrives) (g.sessions, .empty) y ∧
      Linked g (.launched g now routes world) y := by
  let n := Node.launched g now routes world
  let before : Node PeerId τ σ ω :=
    { n with st := { n.st with sessions := g.sessions, world := (world, .nothing) } }
  have hstart : Linked g before (g.sessions, .empty) :=
    ⟨rfl, List.Subset.refl _, List.length_replicate, rfl, List.Sublist.refl _⟩
  exact hstart.quietly (initiateHandshakes_quietly _ (g.sessions, (world, .nothing))) rfl rfl

end Link

section Network

variable [DecidableEq PeerId] {G : ι → Setting PeerId κ τ σ ω}
  {N : ι → Option (Node PeerId τ σ ω)} {x : ι → τ × Record PeerId}

/-- The sessions of all hosts are those of an exchange. -/
structure Matches (G : ι → Setting PeerId κ τ σ ω) (N : ι → Option (Node PeerId τ σ ω))
    (x : ι → τ × Record PeerId) : Prop where
  idle : ∀ h, N h = none → x h = ((G h).sessions, .empty)
  up : ∀ h n, N h = some n → Linked (G h) n (x h)

/-- What a device is given tells the packet and the peer it came from. -/
theorem delivered_eq_some {P : Platform} {I : Iptrie PeerId} {net : PeerNet I} {pkt : Packet}
    {e : PeerId × List UInt8}
    (h : delivered P net e = some (P.getHeaderFor pkt.bytes ++ pkt.bytes)) :
    e = (net.lookup pkt.src, pkt.bytes) := by
  obtain ⟨src, hsrc, howned⟩ := Option.bind_eq_some_iff.mp h
  split at howned
  · next howner =>
      have hlen : (P.getHeaderFor e.2).length = (P.getHeaderFor pkt.bytes).length :=
        (P.length_header _).trans (P.length_header _).symm
      obtain ⟨-, hbytes⟩ := List.append_inj (Option.some.inj howned) hlen
      rw [hbytes, pkt.ipSrc_bytes] at hsrc
      obtain rfl := Option.some.inj hsrc
      exact Prod.ext howner.symm hbytes
  · cases howned

/-- A device is given no more packets than the sessions have decrypted. -/
theorem Matches.written_le (h : Matches G N x) {k : ι} {n : Node PeerId τ σ ω} (up : N k = some n)
    (pkt : Packet) :
    n.written.count ((G k).platform.getHeaderFor pkt.bytes ++ pkt.bytes) ≤
      decryptions x k ((G k).net.lookup pkt.src) pkt.bytes := by
  rw [(h.up k n up).written, List.count, List.countP_filterMap]
  apply List.countP_mono_left
  intro e _ he
  cases hdata : delivered (G k).platform (G k).net e with
  | none =>
      rw [hdata] at he
      cases he
  | some data =>
      rw [hdata] at he
      obtain rfl := eq_of_beq he
      obtain rfl := delivered_eq_some hdata
      exact decide_eq_true ⟨rfl, rfl⟩

variable [DecidableEq ι]

/-- How often a host has read a packet for another one from its device that is the payload when
it is padded. -/
def readsFor (G : ι → Setting PeerId κ τ σ ω) (owner : ι → PeerId → ι)
    (N : ι → Option (Node PeerId τ σ ω)) (sender receiver : ι) (payload : List UInt8) : Nat :=
  match N sender with
  | none => 0
  | some n => n.read.countP fun bytes =>
      (routed (G sender).net bytes).any fun e => owner sender e.1 = receiver ∧ e.2 = payload

/-- The sessions have encrypted no more packets than the device has given. -/
theorem Matches.encryptions_le {owner : ι → PeerId → ι} (h : Matches G N x) (sender receiver : ι)
    (pkt : Packet) :
    encryptions owner x sender receiver pkt.bytes ≤
      readsFor G owner N sender receiver pkt.bytes := by
  unfold encryptions readsFor
  cases hN : N sender with
  | none =>
      rw [h.idle sender hN]
      exact Nat.le_refl 0
  | some n =>
      have hpackets : (x sender).2.encrypted.countP
          (fun e => owner sender e.1 = receiver ∧ e.2 = pkt.bytes) =
            (packets (x sender).2.encrypted).countP
              (fun e => owner sender e.1 = receiver ∧ e.2 = pkt.bytes) := by
        rw [packets, List.countP_filter]
        apply List.countP_congr
        intro e _
        simp only [decide_eq_true_eq, Bool.and_eq_true]
        refine ⟨fun he => ⟨he, ?_⟩, fun he => he.1⟩
        rw [he.2, pkt.ipSrc_bytes]
        rfl
      rw [hpackets]
      refine ((h.up sender n hN).read.countP_le).trans_eq ?_
      rw [List.countP_filterMap]
      apply List.countP_congr
      intro bytes _
      cases routed (G sender).net bytes with
      | none => exact Iff.rfl
      | some e => exact Iff.rfl

/-- A datagram that a host has handed to the network. -/
def OnWire (N : ι → Option (Node PeerId τ σ ω)) (d : List UInt8) : Prop :=
  ∃ h n, N h = some n ∧ d ∈ n.st.world.2.datagrams

/-- The states that the hosts reach together. What arrives at a host is any datagram that was
ever handed to the network, or a forged one. -/
inductive Network (G : ι → Setting PeerId κ τ σ ω) (forged : List UInt8 → Prop) :
    (ι → Option (Node PeerId τ σ ω)) → Prop
  | start : Network G forged fun _ => none
  | launch {N : ι → Option (Node PeerId τ σ ω)} (run : Network G forged N) (h : ι) (now : Nat)
      (routes : σ) (world : ω) (idle : N h = none) :
      Network G forged (update N h (some (.launched (G h) now routes world)))
  | step {N : ι → Option (Node PeerId τ σ ω)} {n now event out}
      (run : Network G forged N) (h : ι) (up : N h = some n)
      (arrived : ∀ addr bytes, event = .datagram addr bytes →
        OnWire N (bytes.take endpointBufferSize) ∨ forged (bytes.take endpointBufferSize))
      (next : SmartGuard.step (n.tunnel (G h)) now event n.st = some out) :
      Network G forged (update N h (some (n.after (G h) event out.1)))

variable {forged : List UInt8 → Prop}

theorem Matches.update (hmatches : Matches G N x) {h : ι} {n : Node PeerId τ σ ω}
    {y : τ × Record PeerId} (linked : Linked (G h) n y) :
    Matches G (update N h (some n)) (update x h y) := by
  constructor
  · intro k hk
    by_cases heq : k = h
    · rw [heq, update_self] at hk
      cases hk
    · rw [update_of_ne heq] at hk ⊢
      exact hmatches.idle k hk
  · intro k m hk
    by_cases heq : k = h
    · subst heq
      rw [update_self] at hk ⊢
      obtain rfl := Option.some.inj hk
      exact linked
    · rw [update_of_ne heq] at hk ⊢
      exact hmatches.up k m hk

/-- The sessions of a network of tunnels take part in an exchange. -/
theorem Network.exchange (hplace : ∀ h, (G h).layer.ReadsInPlace)
    (hreply : ∀ h, (G h).layer.RepliesFit) (run : Network G forged N) :
    ∃ x, Exchange (fun h => (G h).layer) forged (fun h => (G h).sessions) x ∧ Matches G N x := by
  induction run with
  | start =>
      refine ⟨_, .start, fun h _ => rfl, ?_⟩
      intro h n hn
      cases hn
  | launch run h now routes world idle ih =>
      obtain ⟨x, hexchange, hmatches⟩ := ih
      obtain ⟨y, hasks, hlinked⟩ := Linked.launched (Arrives forged x) (G h) now routes world
      rw [← hmatches.idle h idle] at hasks
      exact ⟨_, hexchange.asks hasks, hmatches.update hlinked⟩
  | @step N n now event out run h up arrived next ih =>
      obtain ⟨st', obs⟩ := out
      obtain ⟨x, hexchange, hmatches⟩ := ih
      have harrives : ∀ addr bytes, event = .datagram addr bytes →
          Arrives forged x (bytes.take endpointBufferSize) := by
        intro addr bytes hevent
        rcases arrived addr bytes hevent with ⟨k, m, hm, hd⟩ | hforged
        · exact .inl ⟨k, (hmatches.up k m hm).wire hd⟩
        · exact .inr hforged
      obtain ⟨y, hasks, hlinked⟩ := (hmatches.up h n up).step (hplace h) (hreply h) harrives next
      exact ⟨_, hexchange.asks hasks, hmatches.update hlinked⟩

/-- If the sessions are authentic, then whatever the network does a device is given packets
only, and each of them no more often than the owner of its source has read it from its own
device for this host. -/
theorem Network.delivered_once {owner : ι → PeerId → ι}
    (hplace : ∀ h, (G h).layer.ReadsInPlace) (hreply : ∀ h, (G h).layer.RepliesFit)
    (hauthentic : Authentic (fun h => (G h).layer) forged (fun h => (G h).sessions) owner)
    (run : Network G forged N) {h : ι} {n : Node PeerId τ σ ω} (up : N h = some n) :
    (∀ data ∈ n.written, ∃ pkt : Packet,
      data = (G h).platform.getHeaderFor pkt.bytes ++ pkt.bytes) ∧
      ∀ pkt : Packet,
        n.written.count ((G h).platform.getHeaderFor pkt.bytes ++ pkt.bytes) ≤
          readsFor G owner N (owner h ((G h).net.lookup pkt.src)) h pkt.bytes := by
  obtain ⟨x, hexchange, hmatches⟩ := run.exchange hplace hreply
  have hlinked := hmatches.up h n up
  constructor
  · intro data hdata
    rw [hlinked.written] at hdata
    obtain ⟨e, -, he⟩ := List.mem_filterMap.mp hdata
    obtain ⟨src, hsrc, howned⟩ := Option.bind_eq_some_iff.mp he
    obtain ⟨pkt, hpkt⟩ := Packet.exists_of_ipField hsrc
    split at howned
    · refine ⟨pkt, ?_⟩
      rw [hpkt]
      exact (Option.some.inj howned).symm
    · cases howned
  · intro pkt
    calc
      n.written.count ((G h).platform.getHeaderFor pkt.bytes ++ pkt.bytes) ≤
          decryptions x h ((G h).net.lookup pkt.src) pkt.bytes := hmatches.written_le up pkt
      _ ≤ encryptions owner x (owner h ((G h).net.lookup pkt.src)) h pkt.bytes :=
        hauthentic x hexchange h _ pkt.bytes
      _ ≤ readsFor G owner N (owner h ((G h).net.lookup pkt.src)) h pkt.bytes :=
        hmatches.encryptions_le _ h pkt

end Network

section Sample

/-- One of two hosts that take everything to the other one. -/
def sealingSetting (h : Bool) :
    Setting (Option Nat) Nat (Nat × List UInt8) (RouteTable × Unit) Unit where
  registry :=
    { sentinal := none
      insertPeer := fun _ n => (some n, n + 1)
      newWith := fun _ => (0, []) }
  trie := .table _
  layer := sealingHosts h
  platform := .utun
  kernel := .ideal
  outside := .working
  config := 0
  peers := [serverPeer]
  tunName := utun5
  tunAddrs := dualStack

/-- The packet of the server as it arrives. -/
def receivedPacket : Packet :=
  { serverPacket with rest := List.replicate 12 0 }

/-- The packet of the server on the wire, after the handshake of its host. -/
def sealedDatagram : List UInt8 :=
  sealed (hostKey true) 1 (receivedPacket.bytes.map (· + 1))

/-- A host that has just been launched. -/
def sealingNode (h : Bool) : Node (Option Nat) (Nat × List UInt8) (RouteTable × Unit) Unit :=
  .launched (sealingSetting h) 0 (homeTable, ()) ()

/-- What the host does in its first event. -/
def sealingStep (h : Bool) (event : Event (RouteTable × Unit)) :=
  step ((sealingNode h).tunnel (sealingSetting h)) 1 event (sealingNode h).st

theorem sealingStep_sends :
    (sealingStep true (.packet ([0, 0, 0, 2] ++ serverPacket.bytes))).isSome = true := by
  decide +kernel

theorem sealingStep_receives :
    (sealingStep false (.datagram serverEndpoint sealedDatagram)).isSome = true := by
  decide +kernel

/-- The host that has sent the packet, and the one that has received it. -/
def sealingSent : Node (Option Nat) (Nat × List UInt8) (RouteTable × Unit) Unit :=
  (sealingNode true).after (sealingSetting true) (.packet ([0, 0, 0, 2] ++ serverPacket.bytes))
    ((sealingStep true _).get sealingStep_sends).1

def sealingReceived : Node (Option Nat) (Nat × List UInt8) (RouteTable × Unit) Unit :=
  (sealingNode false).after (sealingSetting false) (.datagram serverEndpoint sealedDatagram)
    ((sealingStep false _).get sealingStep_receives).1

/-- The packet goes from one host to the other, and its device is given it once. -/
theorem sealed_packet_once :
    ∃ N : Bool → Option (Node (Option Nat) (Nat × List UInt8) (RouteTable × Unit) Unit),
      Network sealingSetting (fun _ => False) N ∧ N false = some sealingReceived ∧
        sealingReceived.written = [[0, 0, 0, 2] ++ receivedPacket.bytes] ∧
        sealingReceived.written.count ([0, 0, 0, 2] ++ receivedPacket.bytes) ≤
          readsFor sealingSetting (fun h _ => !h) N true false receivedPacket.bytes := by
  let nodes : Bool → Option (Node (Option Nat) (Nat × List UInt8) (RouteTable × Unit) Unit) :=
    update (update (fun _ => none) true (some (sealingNode true))) false
      (some (sealingNode false))
  have launched : Network sealingSetting (fun _ => False) nodes :=
    (Network.start.launch true 0 (homeTable, ()) () rfl).launch false 0 (homeTable, ()) () rfl
  have sent : Network sealingSetting (fun _ => False) (update nodes true (some sealingSent)) := by
    have up : nodes true = some (sealingNode true) := rfl
    have sends : sealingStep true _ = some _ := (Option.some_get sealingStep_sends).symm
    refine launched.step true up ?_ sends
    intro addr bytes h
    cases h
  have received : Network sealingSetting (fun _ => False)
      (update (update nodes true (some sealingSent)) false (some sealingReceived)) := by
    have up : update nodes true (some sealingSent) false = some (sealingNode false) := rfl
    have receives : sealingStep false _ = some _ := (Option.some_get sealingStep_receives).symm
    refine sent.step false up ?_ receives
    intro addr bytes h
    obtain ⟨-, rfl⟩ := Event.datagram.inj h
    exact .inl ⟨true, sealingSent, rfl, by decide +kernel⟩
  have hplace : ∀ h, (sealingSetting h).layer.ReadsInPlace :=
    fun h => SessionLayer.sealing_readsInPlace _ _
  have hreply : ∀ h, (sealingSetting h).layer.RepliesFit :=
    fun h addr buf s reply hreply => absurd hreply (sealing_no_reply s reply)
  have up : update (update nodes true (some sealingSent)) false (some sealingReceived) false =
      some sealingReceived := update_self ..
  obtain ⟨-, honce⟩ := received.delivered_once hplace hreply sealingHosts_authentic up
  exact ⟨_, received, up, by decide +kernel, honce receivedPacket⟩

end Sample

end SmartGuard
