import SmartGuard.Session.Bounds
import SmartGuard.Tunnel.Keepalive

/-!
# What stops the loop

A signal, a failing receive or read and a lost blocking task stop the loop. Nothing that comes
from the network does, whatever it contains: a datagram is at most handed to the device, which
may refuse it. A packet of the device stops it if the read is shorter than the kernel header,
or if the packet is encrypted and leaves no room for its tag.
-/

namespace SmartGuard

open Buffer TimedRun

variable {PeerId κ τ σ ω : Type}

section Handlers

variable {I : Iptrie PeerId} {S : SessionLayer PeerId τ} {P : Platform} {net : PeerNet I}

/-- A reply stands in the buffer of the datagram it answers. -/
def SessionLayer.RepliesFit (S : SessionLayer PeerId τ) : Prop :=
  ∀ addr buf s reply, (S.recvMessage addr buf s).1 = some (.write reply) →
    reply.length ≤ buf.length

theorem Padded.length_afterSend (l : Padded)
    {out : Option (SendMessage S.Metadata) × List UInt8 × τ}
    (hout : out.2.1.length = l.payload.length) :
    (l.afterSend S out).buf.length = l.buf.length := by
  rw [← l.length_withPayload hout]
  obtain ⟨send, bytes, t⟩ := out
  have hfront : ∀ {j} {items part : List UInt8},
      slice (l.withPayload bytes) 0 j = some part → items.length = j →
        (overwrite (l.withPayload bytes) 0 items).length = (l.withPayload bytes).length := by
    rintro j items part hslice rfl
    apply length_overwrite
    rw [Nat.zero_add]
    exact slice_le hslice
  unfold Padded.afterSend
  match send with
  | none => rfl
  | some (.maintenance msg) =>
      cases hslice : slice (l.withPayload bytes) 0 msg.data.length with
      | none =>
          dsimp only
          rw [hslice]
      | some part =>
          dsimp only
          rw [hslice]
          exact hfront hslice rfl
  | some (.data ep metadata) =>
      cases hslice : slice (l.withPayload bytes) 0 (l.padTo + tagFooterSize) with
      | none => rfl
      | some frame =>
          apply hfront hslice
          rw [S.length_frame]
          obtain ⟨before, after, -, hbefore, hframe⟩ := slice_eq_some_iff.mp hslice
          rw [← hframe, Nat.zero_add]

/-- The tunnel buffer comes back from the handler with its own length. -/
theorem length_handleIntern {tunBuf : List UInt8} (hbuf : tunBuf.length = tunnelBufferSize)
    {filled : Nat} (hstart : P.ipPacketStart ≤ filled) (hfilled : filled ≤ tunBuf.length) (s : τ) :
    (handleIntern S P net tunBuf filled s).buf.length = tunnelBufferSize := by
  have hslice := slice_tunPacket hstart hfilled
  by_cases hpkt : ∃ pkt : Packet, pkt.bytes = tunPacket P tunBuf filled
  · obtain ⟨pkt, hpkt⟩ := hpkt
    have hsize : dataHeaderSize + (tunPacket P tunBuf filled).length ≤ tunnelBufferSize := by
      rw [length_tunPacket hfilled, P.ipPacketStart_eq]
      rw [P.ipPacketStart_eq] at hstart
      omega
    rw [P.ipPacketStart_eq] at hslice
    obtain ⟨l, rfl, hpacket, rfl⟩ :=
      Padded.exists_of_slice hslice (hbuf ▸ (padded_fits hsize).1)
    have hdst : ipDst l.packet = some pkt.dst := by
      rw [hpacket, ← hpkt]
      exact pkt.ipDst_bytes
    rw [handleIntern_padded l hdst, l.length_afterSend (S.length_send _ _ _), hbuf]
  · rw [handleIntern_other hslice (Packet.ipField_eq_none hpkt)]
    exact hbuf

/-- The room of the tunnel buffer for a read. -/
def Platform.readSize (P : Platform) : Nat := tunnelBufferSize - P.tunBufStart

/-- The bytes of a read that the handler takes for the packet. -/
def Platform.packetOf (P : Platform) (bytes : List UInt8) : List UInt8 :=
  (bytes.take P.readSize).drop P.kernelHeaderLen

theorem tunPacket_read {tunBuf : List UInt8} (hbuf : tunBuf.length = tunnelBufferSize)
    (bytes : List UInt8) :
    tunPacket P (overwrite tunBuf P.tunBufStart (bytes.take P.readSize))
      (P.tunBufStart + (bytes.take P.readSize).length) = P.packetOf bytes := by
  have hstart : P.tunBufStart + P.kernelHeaderLen = P.ipPacketStart := P.start_add
  have hwithin : P.tunBufStart ≤ tunBuf.length := by
    have hpacket := P.ipPacketStart_eq
    rw [hbuf]
    unfold dataHeaderSize tunnelBufferSize at *
    omega
  have hbefore : (tunBuf.take P.tunBufStart).length = P.tunBufStart :=
    List.length_take_of_le hwithin
  unfold tunPacket Platform.packetOf
  rw [take_overwrite hwithin, ← hstart, ← List.drop_drop, List.drop_left' hbefore]

end Handlers

section Step

variable {T : Tunnel PeerId τ σ ω} {st : LoopState PeerId τ σ ω} {now : Nat}

/-- What makes a step of the loop the last one. -/
inductive Stops (T : Tunnel PeerId τ σ ω) (st : LoopState PeerId τ σ ω) : Event σ → Prop
  | refused {addr bytes} (pkt : Packet)
      (received : (T.layer.recvMessage addr (bytes.take endpointBufferSize) st.sessions).1 =
        some (.read (T.peerNet.lookup pkt.src) pkt.bytes))
      (refused : (T.outside.writeAll (T.platform.getHeaderFor pkt.bytes ++ pkt.bytes)
        st.world).1 = false) : Stops T st (.datagram addr bytes)
  | short {bytes} (short : bytes.length < T.platform.kernelHeaderLen) : Stops T st (.packet bytes)
  | long {bytes} (pkt : Packet) (packet : pkt.bytes = T.platform.packetOf bytes) {ep metadata}
      (sent : (T.layer.sendMessage (T.peerNet.lookup pkt.dst) pkt.padded st.sessions).1 =
        some (.data ep metadata))
      (long : maxPacketSize < pkt.bytes.length) : Stops T st (.packet bytes)
  | interrupted (cause : Interrupt) : Stops T st (.interrupted cause)

theorem Platform.start_add_header (P : Platform) :
    P.tunBufStart + P.kernelHeaderLen = dataHeaderSize :=
  P.start_add.trans P.ipPacketStart_eq

/-- The read of a packet, in the buffer of the loop. -/
theorem handled_eq (hbuf : st.tunBuffer.length = tunnelBufferSize) (bytes : List UInt8) :
    ∃ tunBuf, tunBuf.length = tunnelBufferSize ∧
      T.platform.tunBufStart + (bytes.take T.platform.readSize).length ≤ tunBuf.length ∧
      tunPacket T.platform tunBuf (T.platform.tunBufStart + (bytes.take T.platform.readSize).length)
        = T.platform.packetOf bytes ∧
      handled T st bytes = handleIntern T.layer T.platform T.peerNet tunBuf
        (T.platform.tunBufStart + (bytes.take T.platform.readSize).length) st.sessions := by
  have hstart := T.platform.start_add_header
  have hread : T.platform.tunBufStart + (bytes.take T.platform.readSize).length ≤
      st.tunBuffer.length := by
    rw [List.length_take, hbuf]
    unfold Platform.readSize dataHeaderSize tunnelBufferSize at *
    omega
  have hlen := length_overwrite hread
  refine ⟨_, hlen.trans hbuf, hread.trans hlen.ge, tunPacket_read hbuf bytes, ?_⟩
  unfold handled readInto Platform.readSize
  rw [hbuf]

/-- A read reaches the packet exactly if it is not shorter than the kernel header. -/
theorem ipPacketStart_le_iff (P : Platform) (bytes : List UInt8) :
    P.ipPacketStart ≤ P.tunBufStart + (bytes.take P.readSize).length ↔
      P.kernelHeaderLen ≤ bytes.length := by
  have hstart := P.start_add_header
  rw [P.ipPacketStart_eq, List.length_take]
  unfold Platform.readSize dataHeaderSize tunnelBufferSize at *
  omega

/-- The loop goes on only after reads that reach the packet. -/
theorem kernelHeaderLen_le (hbuf : st.tunBuffer.length = tunnelBufferSize) {bytes : List UInt8}
    (hsome : (handled T st bytes).write ≠ none) :
    T.platform.kernelHeaderLen ≤ bytes.length := by
  obtain ⟨tunBuf, -, -, -, hhandled⟩ := handled_eq (T := T) hbuf bytes
  by_contra hheader
  have hbefore := mt (ipPacketStart_le_iff T.platform bytes).mp hheader
  rw [hhandled] at hsome
  exact hsome (handleIntern_short (Nat.not_le.mp hbefore) _)

/-- A packet ends the loop exactly if its read is shorter than the kernel header, or it is
encrypted without room for its tag. -/
theorem handled_eq_none_iff (hbuf : st.tunBuffer.length = tunnelBufferSize)
    (hshort : T.layer.ShortMaintenance) {bytes : List UInt8} :
    (handled T st bytes).write = none ↔ Stops T st (.packet bytes) := by
  by_cases hheader : T.platform.kernelHeaderLen ≤ bytes.length
  · obtain ⟨tunBuf, hlen, hfilled, hpacket, hhandled⟩ := handled_eq (T := T) hbuf bytes
    rw [hhandled]
    have hstart := (ipPacketStart_le_iff T.platform bytes).mpr hheader
    have hfits : ∀ pkt : Packet, pkt.bytes = T.platform.packetOf bytes →
        ((handleIntern T.layer T.platform T.peerNet tunBuf _ st.sessions).write ≠ none ↔ _) :=
      fun pkt hpkt => handleIntern_packet_fits_iff hshort hlen hstart hfilled
        (hpkt.trans hpacket.symm) st.sessions
    by_cases hpkt : ∃ pkt : Packet, pkt.bytes = T.platform.packetOf bytes
    · obtain ⟨pkt, hpkt⟩ := hpkt
      constructor
      · intro hnone
        have hnot := mt (hfits pkt hpkt).mpr (not_not.mpr hnone)
        push Not at hnot
        obtain ⟨ep, metadata, hsend, hlong⟩ := hnot
        exact .long pkt hpkt hsend hlong
      · intro hstops
        by_contra hsome
        cases hstops with
        | short hless => exact absurd hheader (Nat.not_le.mpr hless)
        | long other hother hsend hlong =>
            have hle := (hfits other hother).mp hsome _ _ hsend
            exact absurd hle (Nat.not_le.mpr hlong)
    · have hslice := slice_tunPacket hstart hfilled
      rw [hpacket] at hslice
      rw [handleIntern_other hslice (Packet.ipField_eq_none hpkt)]
      refine iff_of_false (Option.some_ne_none _) ?_
      intro hstops
      cases hstops with
      | short hless => exact absurd hheader (Nat.not_le.mpr hless)
      | long pkt hbytes => exact hpkt ⟨pkt, hbytes⟩
  · refine iff_of_true ?_ (.short (Nat.not_le.mp hheader))
    by_contra hsome
    exact hheader (kernelHeaderLen_le hbuf hsome)

/-- A packet that the device gives whole and that is no longer than 2016 bytes does not end
the loop. -/
theorem not_stops_packet {bytes : List UInt8}
    (hheader : T.platform.kernelHeaderLen ≤ bytes.length)
    (hsize : bytes.length ≤ T.platform.kernelHeaderLen + maxPacketSize) :
    ¬ Stops T st (.packet bytes) := by
  intro hstops
  cases hstops with
  | short hless => exact absurd hheader (Nat.not_le.mpr hless)
  | long pkt hpkt _ hlong =>
      have hle : pkt.bytes.length ≤ bytes.length - T.platform.kernelHeaderLen := by
        rw [hpkt, Platform.packetOf, List.length_drop, List.length_take]
        omega
      omega

theorem onTick_tunBuffer : (onTick T now st).1.tunBuffer = st.tunBuffer := by
  unfold onTick
  cases hostTorn T st <;> rfl

end Step

section Loop

variable [DecidableEq PeerId]

section Extern

variable {I : Iptrie PeerId} {S : SessionLayer PeerId τ} {P : Platform} {net : PeerNet I}
  {addr : SocketAddr} {epBuf : List UInt8} {s : τ}

/-- A datagram that the sessions read nothing from is answered with their reply, if any. -/
theorem handleExtern_reply (hreply : S.RepliesFit)
    (hmessage : ∀ peer payload, (S.recvMessage addr epBuf s).1 ≠ some (.read peer payload)) :
    (handleExtern S P net addr epBuf s).write =
      some (match (S.recvMessage addr epBuf s).1 with
        | some (.write reply) =>
            .outbound ((S.recvMessage addr epBuf s).2.1.take reply.length) addr
        | _ => .none) := by
  have hfits := hreply addr epBuf s
  have hlen := S.length_recv addr epBuf s
  unfold handleExtern
  generalize S.recvMessage addr epBuf s = out at hmessage hfits hlen
  obtain ⟨message, buf, t⟩ := out
  match message with
  | none => rfl
  | some .noop => rfl
  | some .handshakeComplete => rfl
  | some (.read peer payload) => exact absurd rfl (hmessage peer payload)
  | some (.write reply) =>
      have hle : 0 ≤ reply.length ∧ reply.length ≤ buf.length :=
        ⟨Nat.zero_le _, (hfits reply rfl).trans hlen.ge⟩
      dsimp only
      rw [slice_eq_some hle]
      rfl

/-- The handler of datagrams stays within its buffer. -/
theorem handleExtern_ne_none (hread : S.ReadsInPlace) (hreply : S.RepliesFit) :
    (handleExtern S P net addr epBuf s).write ≠ none := by
  by_cases hmessage : ∃ peer payload, (S.recvMessage addr epBuf s).1 = some (.read peer payload)
  · obtain ⟨peer, payload, hmessage⟩ := hmessage
    rw [handleExtern_read hread hmessage]
    exact Option.some_ne_none _
  · push Not at hmessage
    rw [handleExtern_reply hreply hmessage]
    exact Option.some_ne_none _

/-- What the handler hands to the device is a packet that the sessions have read, from the peer
that owns its source. -/
theorem handleExtern_inbound_iff (hread : S.ReadsInPlace) (hreply : S.RepliesFit)
    {data : List UInt8} :
    (handleExtern S P net addr epBuf s).write = some (.inbound data) ↔
      ∃ pkt : Packet, (S.recvMessage addr epBuf s).1 =
          some (.read (net.lookup pkt.src) pkt.bytes) ∧
        data = P.getHeaderFor pkt.bytes ++ pkt.bytes := by
  constructor
  · intro h
    by_cases hmessage : ∃ peer payload,
        (S.recvMessage addr epBuf s).1 = some (.read peer payload)
    · obtain ⟨peer, payload, hmessage⟩ := hmessage
      rw [handleExtern_read hread hmessage] at h
      cases hsrc : ipSrc payload with
      | none =>
          rw [hsrc] at h
          cases h
      | some src =>
          obtain ⟨pkt, rfl⟩ := Packet.exists_of_ipField hsrc
          obtain rfl : pkt.src = src := Option.some.inj (pkt.ipSrc_bytes.symm.trans hsrc)
          rw [hsrc] at h
          by_cases howner : net.lookup pkt.src = peer
          · simp only [howner, if_true] at h
            cases h
            exact ⟨pkt, howner ▸ hmessage, rfl⟩
          · simp only [if_neg howner] at h
            cases h
    · push Not at hmessage
      rw [handleExtern_reply hreply hmessage] at h
      split at h <;> cases h
  · rintro ⟨pkt, hmessage, rfl⟩
    rw [handleExtern_read hread hmessage, pkt.ipSrc_bytes]
    simp only [if_true]

end Extern

variable {T : Tunnel PeerId τ σ ω} {st : LoopState PeerId τ σ ω} {now : Nat}

/-- A datagram ends the loop exactly if the device refuses the packet in it. -/
theorem onDatagram_eq_none_iff (hread : T.layer.ReadsInPlace) (hreply : T.layer.RepliesFit)
    {addr : SocketAddr} {bytes : List UInt8} :
    onDatagram T now addr bytes st = none ↔ Stops T st (.datagram addr bytes) := by
  have hnone : (handleExtern T.layer T.platform T.peerNet addr (bytes.take endpointBufferSize)
      st.sessions).write ≠ none := handleExtern_ne_none hread hreply
  have hinbound : ∀ data, (handleExtern T.layer T.platform T.peerNet addr
      (bytes.take endpointBufferSize) st.sessions).write = some (.inbound data) ↔ _ :=
    fun data => handleExtern_inbound_iff hread hreply
  have hpass : (∀ data, (handleExtern T.layer T.platform T.peerNet addr
      (bytes.take endpointBufferSize) st.sessions).write ≠ some (.inbound data)) →
        ¬ Stops T st (.datagram addr bytes) := by
    intro hnot hstops
    cases hstops with
    | refused pkt hreceived hrefused => exact hnot _ ((hinbound _).mpr ⟨pkt, hreceived, rfl⟩)
  unfold onDatagram
  generalize handleExtern T.layer T.platform T.peerNet addr (bytes.take endpointBufferSize)
    st.sessions = out at hnone hinbound hpass
  obtain ⟨write, buf, sessions⟩ := out
  match write with
  | none => exact absurd rfl hnone
  | some (.inbound data) =>
      obtain ⟨pkt, hreceived, rfl⟩ := (hinbound data).mp rfl
      dsimp only
      constructor
      · intro hnone
        split at hnone
        · cases hnone
        · next hwritten => exact .refused pkt hreceived (Bool.not_eq_true _ ▸ hwritten)
      · intro hstops
        cases hstops with
        | refused other hother hrefused =>
            obtain ⟨-, hbytes⟩ := Message.read.inj (Option.some.inj (hother.symm.trans hreceived))
            rw [hbytes] at hrefused
            simp only [hrefused, Bool.false_eq_true, if_false]
  | some (.outbound data dst) =>
      dsimp only
      refine iff_of_false ?_ (hpass nofun)
      split
      · exact Option.some_ne_none _
      · exact Option.some_ne_none _
  | some .none => exact iff_of_false (Option.some_ne_none _) (hpass nofun)

theorem step_eq_none_iff (hread : T.layer.ReadsInPlace) (hreply : T.layer.RepliesFit)
    (hshort : T.layer.ShortMaintenance) (hbuf : st.tunBuffer.length = tunnelBufferSize)
    {event : Event σ} : step T now event st = none ↔ Stops T st event := by
  cases event with
  | tick => exact iff_of_false (Option.some_ne_none _) nofun
  | datagram addr bytes => exact onDatagram_eq_none_iff hread hreply
  | packet bytes => exact onPacket_eq_none_iff.trans (handled_eq_none_iff hbuf hshort)
  | environment routes => exact iff_of_false (Option.some_ne_none _) nofun
  | interrupted cause => exact iff_of_true rfl (.interrupted cause)

/-- Every step leaves the tunnel buffer its size. -/
theorem step_tunBuffer {event : Event σ} {st' : LoopState PeerId τ σ ω}
    {obs : List (Seen PeerId)} (hbuf : st.tunBuffer.length = tunnelBufferSize)
    (next : step T now event st = some (st', obs)) :
    st'.tunBuffer.length = tunnelBufferSize := by
  cases event with
  | tick =>
      obtain rfl : (onTick T now st).1 = st' := congrArg Prod.fst (Option.some.inj next)
      rw [onTick_tunBuffer]
      exact hbuf
  | datagram addr bytes =>
      simp only [step, onDatagram] at next
      split at next
      · cases next
      · split at next <;> cases next
        exact hbuf
      · split at next <;> cases next <;> exact hbuf
      · cases next
        exact hbuf
  | packet bytes =>
      have hsome : (handled T st bytes).write ≠ none := by
        intro hnone
        have hstop : step T now (.packet bytes) st = none := onPacket_eq_none_iff.mpr hnone
        rw [next] at hstop
        cases hstop
      have hstart := (ipPacketStart_le_iff T.platform bytes).mpr (kernelHeaderLen_le hbuf hsome)
      obtain ⟨tunBuf, hlen, hfilled, -, hhandled⟩ := handled_eq (T := T) hbuf bytes
      rw [(onPacket_cases next).2.1, hhandled]
      exact length_handleIntern hlen hstart hfilled _
  | environment routes =>
      cases next
      exact hbuf
  | interrupted cause => cases next

/-- In every state that the loop reaches, it is ended by an interrupt, by what the device
refuses and by the packets of the device that do not fit, and by nothing else. -/
theorem loop_ends_iff {g : Setting PeerId κ τ σ ω} (hread : g.layer.ReadsInPlace)
    (hreply : g.layer.RepliesFit) (hshort : g.layer.ShortMaintenance) {t₀ t now : Nat} {routes : σ}
    {world : ω} {st : LoopState PeerId τ σ ω} {log : List (Seen PeerId)}
    (run : Run (step (launch g t₀ routes world).1) t₀ (launch g t₀ routes world).2 t st log)
    (event : Event σ) :
    step (launch g t₀ routes world).1 now event st = none ↔
      Stops (launch g t₀ routes world).1 st event := by
  have hbuf : st.tunBuffer.length = tunnelBufferSize := by
    apply run.state_invariant (I := fun st => st.tunBuffer.length = tunnelBufferSize)
    · exact List.length_replicate
    · intro now event st st' obs hlen next
      exact step_tunBuffer hlen next
  exact step_eq_none_iff hread hreply hshort hbuf

/-- A packet of 2032 bytes ends the loop after its first tick, and the packet of the server
does not. -/
theorem jumbo_ends_loop :
    let up := launch (behindServer [serverPeer]) 0 (homeTable, ()) ()
    step up.1 2 (.packet ([0, 0, 0, 2] ++ jumboPacket.bytes)) (onTick up.1 1 up.2).1 = none ∧
      step up.1 2 (.packet ([0, 0, 0, 2] ++ serverPacket.bytes)) (onTick up.1 1 up.2).1 ≠ none := by
  intro up
  have hreply : SessionLayer.shifting.RepliesFit := by
    intro addr buf s reply h
    simp only [SessionLayer.shifting] at h
    split at h <;> cases h
  have next : step up.1 1 .tick up.2 = some (onTick up.1 1 up.2) := rfl
  have run := Run.single (Nat.zero_le 1) next
  have hends : ∀ event, step up.1 2 event (onTick up.1 1 up.2).1 = none ↔
      Stops up.1 (onTick up.1 1 up.2).1 event :=
    fun event => loop_ends_iff (g := behindServer [serverPeer])
      SessionLayer.shifting_readsInPlace hreply SessionLayer.shifting_shortMaintenance run event
  refine ⟨(hends _).mpr ?_, mt (hends _).mp (not_stops_packet ?_ ?_)⟩
  · refine .long jumboPacket ?_ rfl ?_
    · decide +kernel
    · decide +kernel
  · decide +kernel
  · decide +kernel

end Loop

end SmartGuard
