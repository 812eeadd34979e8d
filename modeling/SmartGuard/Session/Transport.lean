import SmartGuard.Session.Layout

/-!
# A packet from one tunnel to the other

The sender pads the packet in its buffer, has it encrypted in place and frames
it; the receiver has the datagram decrypted in place and puts the kernel header
before the payload. What arrives depends on the packet alone, whatever the two
buffers held before.
-/

namespace SmartGuard

open Buffer

/-- The size of the buffers of `run_tunnel`. -/
def tunnelBufferSize : Nat := 2048

/-- The longest packet that leaves room for its padding and its tag. -/
def maxPacketSize : Nat := 2016

/-- The packet with zero bytes up to the next multiple of 16. -/
def Packet.padded (pkt : Packet) : List UInt8 :=
  pkt.bytes ++ List.replicate (nextMultipleOf pkt.bytes.length 16 - pkt.bytes.length) 0

theorem Packet.length_padded (pkt : Packet) :
    pkt.padded.length = nextMultipleOf pkt.bytes.length 16 := by
  have hle := le_nextMultipleOf pkt.bytes.length
  rw [padded, List.length_append, List.length_replicate]
  omega

/-- Clearing the padding after a packet in a buffer pads the packet. -/
theorem Padded.payload_eq {l : Padded} {pkt : Packet} (h : l.packet = pkt.bytes) :
    l.payload = pkt.padded := by
  have hpad := l.length_pad
  rw [h] at hpad
  rw [payload, h, Packet.padded, ← hpad, Nat.add_sub_cancel_left]

variable {PeerId τ : Type}

/-- Framing writes the header over the first 16 bytes of a slice and the tag over
the last 16. -/
structure SessionLayer.Framing (S : SessionLayer PeerId τ) where
  header : S.Metadata → List UInt8
  tag : S.Metadata → List UInt8
  length_header : ∀ metadata, (header metadata).length = dataHeaderSize
  length_tag : ∀ metadata, (tag metadata).length = tagFooterSize
  frameInPlace_eq : ∀ metadata before bytes after, before.length = dataHeaderSize →
    after.length = tagFooterSize →
      S.frameInPlace metadata (before ++ bytes ++ after) =
        header metadata ++ bytes ++ tag metadata

/-- The datagram of a ciphertext. -/
def SessionLayer.Framing.datagram {S : SessionLayer PeerId τ} (F : S.Framing)
    (metadata : S.Metadata) (ciphertext : List UInt8) : List UInt8 :=
  F.header metadata ++ ciphertext ++ F.tag metadata

section Sender

variable {S : SessionLayer PeerId τ} {P : Platform} {I : Iptrie PeerId} {net : PeerNet I}

/-- A tunnel buffer that holds the packet has a layout with the packet in it. -/
theorem Packet.exists_layout {pkt : Packet} (hsize : pkt.bytes.length ≤ maxPacketSize)
    {tunBuf : List UInt8} (hbuf : tunBuf.length = tunnelBufferSize)
    (hpkt : slice tunBuf P.ipPacketStart (P.ipPacketStart + pkt.bytes.length) =
      some pkt.bytes) :
    ∃ l : Layout, l.buf = tunBuf ∧ l.packet = pkt.bytes ∧ l.payload = pkt.padded ∧
      l.filled = P.ipPacketStart + pkt.bytes.length := by
  rw [P.ipPacketStart_eq] at hpkt ⊢
  have hroom : dataHeaderSize + nextMultipleOf pkt.bytes.length 16 + tagFooterSize ≤
      tunBuf.length := by
    unfold maxPacketSize at hsize
    rw [hbuf]
    unfold dataHeaderSize nextMultipleOf tagFooterSize tunnelBufferSize
    omega
  obtain ⟨l, hl, hpacket, hfilled⟩ := Layout.exists_of_slice hpkt hroom
  have hpayload : l.padded.payload = pkt.padded := Padded.payload_eq hpacket
  exact ⟨l, hl, hpacket, hpayload, hfilled⟩

/-- The sender's datagram frames the ciphertext of the padded packet. -/
theorem handleIntern_outbound (F : S.Framing) {pkt : Packet}
    (hsize : pkt.bytes.length ≤ maxPacketSize) {tunBuf : List UInt8}
    (hbuf : tunBuf.length = tunnelBufferSize)
    (hpkt : slice tunBuf P.ipPacketStart (P.ipPacketStart + pkt.bytes.length) =
      some pkt.bytes) {s : τ} {ep : SocketAddr} {metadata : S.Metadata}
    (hsend : (S.sendMessage (net.lookup pkt.dst) pkt.padded s).1 = some (.data ep metadata)) :
    (handleIntern S P net tunBuf (P.ipPacketStart + pkt.bytes.length) s).write =
      some (.outbound (F.datagram metadata
        (S.sendMessage (net.lookup pkt.dst) pkt.padded s).2.1) ep) := by
  obtain ⟨l, rfl, hpacket, hpayload, hfilled⟩ := pkt.exists_layout hsize hbuf hpkt
  have hdst : ipDst l.packet = some pkt.dst := by
    rw [hpacket]
    exact pkt.ipDst_bytes
  rw [← hfilled, handleIntern_packet l hdst, hpayload]
  unfold Layout.afterSend
  rw [hsend]
  simp only [Layout.frame, F.frameInPlace_eq _ _ _ _ l.length_header l.length_tag,
    SessionLayer.Framing.datagram]

end Sender

section Receiver

variable {S : SessionLayer PeerId τ} {P : Platform} {I : Iptrie PeerId} {net : PeerNet I}
  [DecidableEq PeerId]

/-- The receiver hands the padded packet to its tunnel behind the kernel header. -/
theorem handleExtern_inbound (hread : S.ReadsInPlace) {addr : SocketAddr} {epBuf : List UInt8}
    {s : τ} {peer : PeerId} {pkt : Packet}
    (hrecv : (S.recvMessage addr epBuf s).1 = some (.read peer pkt.padded))
    (howner : net.lookup pkt.src = peer) :
    (handleExtern S P net addr epBuf s).write =
      some (.inbound (P.getHeaderFor pkt.padded ++ pkt.padded)) := by
  have hsrc : ipSrc pkt.padded = some pkt.src := by
    let zeros : List UInt8 :=
      List.replicate (nextMultipleOf pkt.bytes.length 16 - pkt.bytes.length) 0
    let longer : Packet := { pkt with rest := pkt.rest ++ zeros }
    have hbytes : longer.bytes = pkt.padded := (List.append_assoc _ _ _).symm
    rw [← hbytes]
    exact longer.ipSrc_bytes
  rw [handleExtern_read hread hrecv, hsrc]
  simp only [howner, if_true]

end Receiver

/-- A packet of at most 2016 bytes arrives unchanged, behind the kernel header and
before its padding, and neither the datagram nor what arrives depends on what the
two buffers held before. -/
theorem transport_round_trip {PeerId' τ' : Type} [DecidableEq PeerId'] {I : Iptrie PeerId}
    {I' : Iptrie PeerId'} (S : SessionLayer PeerId τ) (F : S.Framing)
    (S' : SessionLayer PeerId' τ') (hread : S'.ReadsInPlace) (P P' : Platform) (net : PeerNet I)
    (net' : PeerNet I') (pkt : Packet) (hsize : pkt.bytes.length ≤ maxPacketSize) (s : τ)
    (ep : SocketAddr) (metadata : S.Metadata)
    (hsend : (S.sendMessage (net.lookup pkt.dst) pkt.padded s).1 = some (.data ep metadata)) :
    let ciphertext := (S.sendMessage (net.lookup pkt.dst) pkt.padded s).2.1
    let datagram := F.header metadata ++ ciphertext ++ F.tag metadata
    let padding := List.replicate (nextMultipleOf pkt.bytes.length 16 - pkt.bytes.length) 0
    (∀ tunBuf, tunBuf.length = tunnelBufferSize →
      slice tunBuf P.ipPacketStart (P.ipPacketStart + pkt.bytes.length) = some pkt.bytes →
      (handleIntern S P net tunBuf (P.ipPacketStart + pkt.bytes.length) s).write =
        some (.outbound datagram ep)) ∧
    datagram.length = 32 + nextMultipleOf pkt.bytes.length 16 ∧
    (∀ addr t peer tail, net'.lookup pkt.src = peer →
      (S'.recvMessage addr (datagram ++ tail) t).1 = some (.read peer (pkt.bytes ++ padding)) →
      (handleExtern S' P' net' addr (datagram ++ tail) t).write =
        some (.inbound (P'.getHeaderFor (pkt.bytes ++ padding) ++ pkt.bytes ++ padding))) := by
  intro ciphertext datagram padding
  refine ⟨?_, ?_, ?_⟩
  · intro tunBuf hbuf hpkt
    exact handleIntern_outbound F hsize hbuf hpkt hsend
  · have hciphertext : ciphertext.length = nextMultipleOf pkt.bytes.length 16 := calc
      ciphertext.length = pkt.padded.length := S.length_send _ _ _
      _ = nextMultipleOf pkt.bytes.length 16 := pkt.length_padded
    simp only [datagram, List.length_append, F.length_header, F.length_tag, hciphertext,
      dataHeaderSize, tagFooterSize]
    omega
  · intro addr t peer tail howner hrecv
    have harrives := handleExtern_inbound (P := P') hread hrecv howner
    rw [Packet.padded, ← List.append_assoc] at harrives
    exact harrives

section Sample

def SessionLayer.shiftingFraming : SessionLayer.shifting.Framing where
  header _ := List.replicate dataHeaderSize 4
  tag _ := List.replicate tagFooterSize 9
  length_header _ := List.length_replicate
  length_tag _ := List.length_replicate
  frameInPlace_eq := by
    intro metadata before bytes after hbefore hafter
    have hsize : (before ++ bytes ++ after).length - dataHeaderSize - tagFooterSize =
        bytes.length := by
      simp only [List.length_append]
      omega
    have hroom : dataHeaderSize + tagFooterSize ≤ (before ++ bytes ++ after).length := by
      simp only [List.length_append]
      omega
    have hbytes : ((before ++ bytes ++ after).drop dataHeaderSize).take bytes.length = bytes := by
      rw [← hbefore, List.append_assoc, List.drop_append_length, List.take_append_length]
    simp only [SessionLayer.shifting, if_pos hroom, hsize, hbytes]

/-- A peer table in which the server owns every IPv4 address. -/
def serverNet : PeerNet (.table (Option Nat)) :=
  ((PeerNetBuilder.new none).insert (.ofOctets .V4 [0, 0, 0, 0] 0) (some 0)).build

/-- A tunnel buffer with the server's packet between old bytes. -/
def staleBuffer : List UInt8 :=
  List.replicate dataHeaderSize 0xaa ++ serverPacket.bytes ++ List.replicate 2012 0xbb

/-- The server's packet makes its way from one tunnel to the other. -/
theorem serverPacket_round_trip :
    let datagram := List.replicate dataHeaderSize 4 ++ serverPacket.padded.map (· + 1) ++
      List.replicate tagFooterSize 9
    (handleIntern .shifting .utun serverNet staleBuffer 36 0).write =
      some (.outbound datagram serverEndpoint) ∧
    (handleExtern .shifting .utun serverNet serverEndpoint datagram 0).write =
      some (.inbound ([0, 0, 0, 2] ++ serverPacket.bytes ++ List.replicate 12 0)) := by
  intro datagram
  obtain ⟨hout, -, hin⟩ := transport_round_trip .shifting SessionLayer.shiftingFraming .shifting
    SessionLayer.shifting_readsInPlace .utun .utun serverNet serverNet serverPacket (by decide) 0
    serverEndpoint () rfl
  constructor
  · apply hout staleBuffer
    · rw [staleBuffer, List.length_append, List.length_append, List.length_replicate,
        List.length_replicate]
      rfl
    · exact slice_append _ _ _
  · have harrives := hin serverEndpoint 0 (some 0) [] (by decide +kernel)
    rw [List.append_nil] at harrives
    exact harrives rfl

end Sample

end SmartGuard
