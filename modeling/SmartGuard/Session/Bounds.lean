import SmartGuard.Session.Cryptokey
import SmartGuard.Session.Transport

/-!
# Packets that do not fit the tunnel buffer

Nothing links the size of the tunnel buffer to the MTU. The padding of a packet fits
whenever the packet does, but the tag after it needs 16 bytes more, which a packet of more
than 2016 bytes does not leave. And a read of less than the kernel header ends before the
position where the packet starts.
-/

namespace SmartGuard

open Buffer

variable {PeerId τ : Type} {I : Iptrie PeerId} {S : SessionLayer PeerId τ} {P : Platform}
  {net : PeerNet I}

/-- The size of the longest handshake message. -/
def maxMaintenanceSize : Nat := 148

/-- No handshake message is longer than the longest one. -/
def SessionLayer.ShortMaintenance (S : SessionLayer PeerId τ) : Prop :=
  ∀ peer payload s msg, (S.sendMessage peer payload s).1 = some (.maintenance msg) →
    msg.data.length ≤ maxMaintenanceSize

/-- What the sessions ask to be sent fits a buffer of the size, after a packet that is
padded up to a position. -/
def SendMessage.Fits {Metadata : Type} (size padTo : Nat) : Option (SendMessage Metadata) → Prop
  | none => True
  | some (.maintenance msg) => msg.data.length ≤ size
  | some (.data _ _) => padTo + tagFooterSize ≤ size

/-- A handshake message always fits, so the question is the tag of a data packet. -/
theorem SendMessage.fits_iff {Metadata : Type} {size padTo : Nat}
    {send : Option (SendMessage Metadata)}
    (hshort : ∀ msg, send = some (.maintenance msg) → msg.data.length ≤ size) :
    Fits size padTo send ↔
      ∀ ep metadata, send = some (.data ep metadata) → padTo + tagFooterSize ≤ size := by
  match send with
  | none => exact iff_of_true trivial nofun
  | some (.maintenance msg) => exact iff_of_true (hshort msg rfl) nofun
  | some (.data ep metadata) => exact ⟨fun h _ _ _ => h, fun h => h ep metadata rfl⟩

section Regions

/-- A read that does not reach the start of the packet is out of bounds. -/
theorem handleIntern_short {tunBuf : List UInt8} {filled : Nat} (h : filled < P.ipPacketStart)
    (s : τ) : (handleIntern S P net tunBuf filled s).write = none := by
  have hslice : slice tunBuf P.ipPacketStart filled = none :=
    slice_eq_none_iff.mpr fun hle => absurd hle.1 (Nat.not_le.mpr h)
  unfold handleIntern
  rw [hslice]

/-- A packet with room for its padding is handled exactly if the answer of the sessions
fits the buffer. -/
theorem handleIntern_fits_iff (l : Padded) {dst : IpAddr} (hdst : ipDst l.packet = some dst)
    (s : τ) :
    (handleIntern S P net l.buf l.filled s).write ≠ none ↔
      SendMessage.Fits l.buf.length l.padTo (S.sendMessage (net.lookup dst) l.payload s).1 := by
  rw [handleIntern_padded l hdst, ← l.length_withPayload (S.length_send (net.lookup dst) _ s)]
  generalize S.sendMessage (net.lookup dst) l.payload s = out
  have hbeyond : ∀ {j}, slice (l.withPayload out.2.1) 0 j = none →
      ¬ j ≤ (l.withPayload out.2.1).length :=
    fun hnone hle => slice_eq_none_iff.mp hnone ⟨Nat.zero_le _, hle⟩
  obtain ⟨send, bytes, t⟩ := out
  unfold Padded.afterSend
  match send with
  | none => exact iff_of_true (Option.some_ne_none _) trivial
  | some (.maintenance msg) =>
      cases hslice : slice (l.withPayload bytes) 0 msg.data.length with
      | none =>
          simp only [hslice]
          exact iff_of_false (absurd rfl) (hbeyond hslice)
      | some data =>
          simp only [hslice]
          exact iff_of_true (Option.some_ne_none _) (slice_le hslice)
  | some (.data ep metadata) =>
      cases hslice : slice (l.withPayload bytes) 0 (l.padTo + tagFooterSize) with
      | none =>
          dsimp only
          exact iff_of_false (absurd rfl) (hbeyond hslice)
      | some frame =>
          dsimp only
          exact iff_of_true (Option.some_ne_none _) (slice_le hslice)

end Regions

/-- In the tunnel buffer there is room for the padding of every packet, and for the tag of
those up to 2016 bytes. -/
theorem padded_fits {n : Nat} (h : dataHeaderSize + n ≤ tunnelBufferSize) :
    dataHeaderSize + nextMultipleOf n 16 ≤ tunnelBufferSize ∧
      (dataHeaderSize + nextMultipleOf n 16 + tagFooterSize ≤ tunnelBufferSize ↔
        n ≤ maxPacketSize) := by
  unfold dataHeaderSize nextMultipleOf tagFooterSize tunnelBufferSize maxPacketSize at *
  omega

/-- A packet in the tunnel buffer is handled exactly if it is not encrypted or has at most
2016 bytes. -/
theorem handleIntern_packet_fits_iff (hshort : S.ShortMaintenance) {tunBuf : List UInt8}
    (hbuf : tunBuf.length = tunnelBufferSize) {filled : Nat} (hstart : P.ipPacketStart ≤ filled)
    (hfilled : filled ≤ tunBuf.length) {pkt : Packet} (hpkt : pkt.bytes = tunPacket P tunBuf filled)
    (s : τ) :
    (handleIntern S P net tunBuf filled s).write ≠ none ↔
      ∀ ep metadata, (S.sendMessage (net.lookup pkt.dst) pkt.padded s).1 =
        some (.data ep metadata) → pkt.bytes.length ≤ maxPacketSize := by
  have hslice : slice tunBuf dataHeaderSize filled = some pkt.bytes := by
    rw [hpkt, ← P.ipPacketStart_eq]
    exact slice_tunPacket hstart hfilled
  have hsize : dataHeaderSize + pkt.bytes.length ≤ tunnelBufferSize := by
    have hlen := length_tunPacket (P := P) hfilled
    rw [← hpkt, P.ipPacketStart_eq] at hlen
    rw [P.ipPacketStart_eq] at hstart
    omega
  obtain ⟨hpadded, htagged⟩ := padded_fits hsize
  obtain ⟨l, rfl, hpacket, rfl⟩ := Padded.exists_of_slice hslice (hbuf ▸ hpadded)
  have hdst : ipDst l.packet = some pkt.dst := by
    rw [hpacket]
    exact pkt.ipDst_bytes
  rw [handleIntern_fits_iff l hdst, Padded.payload_eq hpacket, hbuf, Padded.padTo, hpacket,
    SendMessage.fits_iff fun msg hmsg => (hshort _ _ _ msg hmsg).trans (by decide), htagged]

/-- What a read of `n` bytes leaves in the tunnel buffer is handled within bounds exactly if
the read is not shorter than the kernel header and, where it holds a packet that the
sessions encrypt, the packet has at most 2016 bytes. -/
theorem handleIntern_in_bounds_iff (hshort : S.ShortMaintenance) {tunBuf : List UInt8}
    (hbuf : tunBuf.length = tunnelBufferSize) {n : Nat}
    (hn : n ≤ tunnelBufferSize - P.tunBufStart) (s : τ) :
    (handleIntern S P net tunBuf (P.tunBufStart + n) s).write ≠ none ↔
      P.kernelHeaderLen ≤ n ∧
        ∀ pkt : Packet, pkt.bytes = tunPacket P tunBuf (P.tunBufStart + n) → ∀ ep metadata,
          (S.sendMessage (net.lookup pkt.dst) pkt.padded s).1 = some (.data ep metadata) →
            pkt.bytes.length ≤ maxPacketSize := by
  have hstart : P.tunBufStart + P.kernelHeaderLen = P.ipPacketStart := P.start_add
  have hfilled : P.tunBufStart + n ≤ tunBuf.length := by
    have hpacket := P.ipPacketStart_eq
    have hsize : dataHeaderSize ≤ tunnelBufferSize := by decide
    omega
  by_cases hheader : P.kernelHeaderLen ≤ n
  · have hpacket : P.ipPacketStart ≤ P.tunBufStart + n := by omega
    rw [and_iff_right hheader]
    constructor
    · intro h pkt hpkt
      exact (handleIntern_packet_fits_iff hshort hbuf hpacket hfilled hpkt s).mp h
    · intro h
      by_cases hpkt : ∃ pkt : Packet, pkt.bytes = tunPacket P tunBuf (P.tunBufStart + n)
      · obtain ⟨pkt, hpkt⟩ := hpkt
        exact (handleIntern_packet_fits_iff hshort hbuf hpacket hfilled hpkt s).mpr (h pkt hpkt)
      · have hslice := slice_tunPacket hpacket hfilled
        rw [handleIntern_other hslice (Packet.ipField_eq_none hpkt)]
        exact Option.some_ne_none _
  · rw [handleIntern_short (by omega)]
    exact iff_of_false (absurd rfl) fun h => hheader h.1

section Sample

theorem SessionLayer.shifting_shortMaintenance : SessionLayer.shifting.ShortMaintenance := nofun

/-- A packet from the server whose payload fills the tunnel buffer. -/
def jumboPacket : Packet :=
  { serverPacket with
    head := [0x45, 0, 0x07, 0xf0, 0, 0, 0, 0, 64, 17, 0, 0]
    rest := List.replicate 2012 0
    length_head := rfl
    version := rfl }

/-- The packet of the server is handled within bounds. -/
theorem serverPacket_in_bounds :
    (handleIntern .shifting .utun serverNet staleBuffer (12 + 24) 0).write ≠ none := by
  have hbuf : staleBuffer.length = tunnelBufferSize := by decide +kernel
  apply (handleIntern_in_bounds_iff SessionLayer.shifting_shortMaintenance hbuf (by decide) 0).mpr
  refine ⟨by decide, ?_⟩
  intro pkt hpkt ep metadata _
  rw [hpkt]
  decide +kernel

/-- A packet that fills the tunnel buffer has no room for its tag. -/
theorem jumboPacket_out_of_bounds :
    ¬ ∀ tunBuf n, tunBuf.length = tunnelBufferSize →
      n ≤ tunnelBufferSize - Platform.utun.tunBufStart →
      (handleIntern .shifting .utun serverNet tunBuf (Platform.utun.tunBufStart + n) 0).write ≠
        none := by
  intro claim
  have hbounds := claim (List.replicate dataHeaderSize 0 ++ jumboPacket.bytes) 2036
    (by decide +kernel) (by decide)
  have hpkt : jumboPacket.bytes =
      tunPacket .utun (List.replicate dataHeaderSize 0 ++ jumboPacket.bytes) 2048 := by
    decide +kernel
  have hfits := (handleIntern_packet_fits_iff SessionLayer.shifting_shortMaintenance
    (by decide +kernel) (by decide) (by decide +kernel) hpkt 0).mp hbounds serverEndpoint () rfl
  exact absurd hfits (by decide +kernel)

end Sample

end SmartGuard
