import SmartGuard.Library.Buffer
import SmartGuard.Session.PeerNet

/-!
# Handling the packets of the tunnel

`handleExtern` takes a datagram from the network and `handleIntern` a packet
from the tunnel device. Both read the addresses of an IP packet at the offsets
of its version, ask the peer table, and leave the cryptography to the session
layer, which is not part of the source.

## Implementation notes

A buffer is the list of its bytes, and a slice that does not lie within it
stops the program. The result of a handler keeps the buffer and the sessions
apart from what is to be written, so that they are known even then.
-/

namespace SmartGuard

open Buffer

section Packets

/-- The version nibble of the family's packets. -/
def Family.version : Family → UInt8
  | .V4 => 4
  | .V6 => 6

/-- The number of bytes of an address. -/
def Family.octets : Family → Nat
  | .V4 => 4
  | .V6 => 16

/-- The number of header bytes before the two addresses. -/
def Family.addressStart : Family → Nat
  | .V4 => 12
  | .V6 => 8

/-- An IP packet cut at its two addresses. -/
structure Packet where
  family : Family
  head : List UInt8
  source : List UInt8
  destination : List UInt8
  rest : List UInt8
  length_head : head.length = family.addressStart
  length_source : source.length = family.octets
  length_destination : destination.length = family.octets
  version : head.head?.map (fun first : UInt8 => first >>> 4) = some family.version

namespace Packet

variable (p : Packet)

def bytes : List UInt8 := p.head ++ p.source ++ p.destination ++ p.rest

def src : IpAddr := .ofOctets p.family p.source

def dst : IpAddr := .ofOctets p.family p.destination

end Packet

/-- The address of the packet in `buf` that starts at the given offset of its family. -/
def ipField (offset : Family → Nat) (buf : List UInt8) : Option IpAddr :=
  match buf.head? with
  | none => none
  | some first =>
      if first >>> 4 = 4 ∧ 20 ≤ buf.length then
        some (.ofOctets .V4 ((buf.drop (offset .V4)).take 4))
      else if first >>> 4 = 6 ∧ 40 ≤ buf.length then
        some (.ofOctets .V6 ((buf.drop (offset .V6)).take 16))
      else none

def ipSrc : List UInt8 → Option IpAddr :=
  ipField fun
    | .V4 => 12
    | .V6 => 8

def ipDst : List UInt8 → Option IpAddr :=
  ipField fun
    | .V4 => 16
    | .V6 => 24

namespace Packet

variable (p : Packet)

theorem head?_bytes :
    ∃ first, p.bytes.head? = some first ∧ first >>> 4 = p.family.version := by
  obtain ⟨first, hfirst, hversion⟩ := Option.map_eq_some_iff.mp p.version
  refine ⟨first, ?_, hversion⟩
  unfold bytes
  simp only [List.head?_append, hfirst, Option.some_or]

theorem length_bytes : p.bytes.length =
    p.family.addressStart + p.family.octets + p.family.octets + p.rest.length := by
  simp only [bytes, List.length_append, p.length_head, p.length_source, p.length_destination]

/-- A field of a packet is read at the offset of its own family. -/
theorem ipField_bytes (offset : Family → Nat) :
    ipField offset p.bytes =
      some (.ofOctets p.family ((p.bytes.drop (offset p.family)).take p.family.octets)) := by
  obtain ⟨first, hfirst, hversion⟩ := p.head?_bytes
  have hlen := p.length_bytes
  unfold ipField
  rw [hfirst]
  cases hfamily : p.family with
  | V4 =>
      simp only [hfamily, Family.version, Family.addressStart, Family.octets] at hversion hlen
      simp only [hversion, true_and]
      exact if_pos (by omega)
  | V6 =>
      simp only [hfamily, Family.version, Family.addressStart, Family.octets] at hversion hlen
      have hne : ¬ ((6 : UInt8) = 4 ∧ 20 ≤ p.bytes.length) := fun h => absurd h.1 (by decide)
      simp only [hversion, true_and, if_neg hne]
      exact if_pos (by omega)

/-- The source of a packet is read from it. -/
theorem ipSrc_bytes : ipSrc p.bytes = some p.src := by
  have hoffset : ∀ f : Family, (match f with | .V4 => 12 | .V6 => 8) = f.addressStart := by
    intro f
    cases f <;> rfl
  have hsource : (p.bytes.drop p.family.addressStart).take p.family.octets = p.source := by
    have hbytes : p.bytes = p.head ++ (p.source ++ (p.destination ++ p.rest)) := by
      simp only [bytes, List.append_assoc]
    rw [hbytes, ← p.length_head, List.drop_append_length, ← p.length_source,
      List.take_append_length]
  rw [ipSrc, ipField_bytes, hoffset, hsource]
  rfl

/-- The destination of a packet is read from it. -/
theorem ipDst_bytes : ipDst p.bytes = some p.dst := by
  have hoffset : ∀ f : Family, (match f with | .V4 => 16 | .V6 => 24) =
      f.addressStart + f.octets := by
    intro f
    cases f <;> rfl
  have hdestination :
      (p.bytes.drop (p.family.addressStart + p.family.octets)).take p.family.octets =
        p.destination := by
    have hbytes : p.bytes = (p.head ++ p.source) ++ (p.destination ++ p.rest) := by
      simp only [bytes, List.append_assoc]
    have hlen : (p.head ++ p.source).length = p.family.addressStart + p.family.octets := by
      rw [List.length_append, p.length_head, p.length_source]
    rw [hbytes, ← hlen, List.drop_append_length, ← p.length_destination,
      List.take_append_length]
  rw [ipDst, ipField_bytes, hoffset, hdestination]
  rfl

/-- Bytes of the family's version with room for both addresses are a packet. -/
theorem exists_of_bytes {buf : List UInt8} {first : UInt8} (family : Family)
    (hfirst : buf.head? = some first) (hversion : first >>> 4 = family.version)
    (hlen : family.addressStart + family.octets + family.octets ≤ buf.length) :
    ∃ p : Packet, p.bytes = buf := by
  have hstart : 0 < family.addressStart := by cases family <;> decide
  refine ⟨⟨family, buf.take family.addressStart,
    (buf.drop family.addressStart).take family.octets,
    (buf.drop (family.addressStart + family.octets)).take family.octets,
    buf.drop (family.addressStart + family.octets + family.octets), ?_, ?_, ?_, ?_⟩, ?_⟩
  · exact List.length_take_of_le (by omega)
  · exact List.length_take_of_le (by rw [List.length_drop]; omega)
  · exact List.length_take_of_le (by rw [List.length_drop]; omega)
  · rw [List.head?_take, if_neg hstart.ne', hfirst, Option.map_some, hversion]
  · simp only [bytes, ← List.drop_drop, List.append_assoc, List.take_append_drop]

/-- A field is read from packets only. -/
theorem exists_of_ipField {offset : Family → Nat} {buf : List UInt8} {a : IpAddr}
    (h : ipField offset buf = some a) : ∃ p : Packet, p.bytes = buf := by
  unfold ipField at h
  cases hfirst : buf.head? with
  | none =>
      rw [hfirst] at h
      cases h
  | some first =>
      rw [hfirst] at h
      simp only at h
      split at h
      · next hv => exact exists_of_bytes .V4 hfirst hv.1 hv.2
      · split at h
        · next hv => exact exists_of_bytes .V6 hfirst hv.1 hv.2
        · cases h

/-- Without a packet there is no field to read. -/
theorem ipField_eq_none {offset : Family → Nat} {buf : List UInt8}
    (h : ¬ ∃ p : Packet, p.bytes = buf) : ipField offset buf = none := by
  cases hfield : ipField offset buf with
  | none => rfl
  | some a => exact absurd (exists_of_ipField hfield) h

end Packet

end Packets

section Parameters

/-- The size of the `DataHeader` of `rustyguard_core`. -/
def dataHeaderSize : Nat := 16

/-- The tunnel device of `rustyguard_tun`, which is not part of the source: the
kernel header that goes before each packet, and the position in a buffer from
which a read leaves the packet where the sessions expect it. -/
structure Platform where
  kernelHeaderLen : Nat
  tunBufStart : Nat
  getHeaderFor : List UInt8 → List UInt8
  kernelHeaderLen_le : kernelHeaderLen ≤ dataHeaderSize
  length_header : ∀ packet, (getHeaderFor packet).length = kernelHeaderLen
  start_add : tunBufStart + kernelHeaderLen = max dataHeaderSize kernelHeaderLen

def Platform.ipPacketStart (P : Platform) : Nat := max dataHeaderSize P.kernelHeaderLen

theorem Platform.ipPacketStart_eq (P : Platform) : P.ipPacketStart = dataHeaderSize :=
  max_eq_left P.kernelHeaderLen_le

/-- What the sessions make of a datagram. -/
inductive Message (PeerId : Type)
  | noop
  | handshakeComplete
  | read (peer : PeerId) (buf : List UInt8)
  | write (buf : List UInt8)

structure MaintenanceMsg where
  data : List UInt8
  dst : SocketAddr

/-- What the sessions make of a packet to send. -/
inductive SendMessage (Metadata : Type)
  | maintenance (msg : MaintenanceMsg)
  | data (ep : SocketAddr) (metadata : Metadata)

/-- Where a message goes. -/
def SendMessage.dst {Metadata : Type} : SendMessage Metadata → SocketAddr
  | .maintenance msg => msg.dst
  | .data ep _ => ep

/-- The sessions of `rustyguard_core`, which are not part of the source. An error
is `none`. Messages are decrypted and packets encrypted in place, so the buffer
comes back with its own length. -/
structure SessionLayer (PeerId τ : Type) where
  Metadata : Type
  recvMessage : SocketAddr → List UInt8 → τ → Option (Message PeerId) × List UInt8 × τ
  sendMessage : PeerId → List UInt8 → τ → Option (SendMessage Metadata) × List UInt8 × τ
  turn : τ → List MaintenanceMsg × τ
  frameInPlace : Metadata → List UInt8 → List UInt8
  length_recv : ∀ addr buf s, (recvMessage addr buf s).2.1.length = buf.length
  length_send : ∀ id payload s, (sendMessage id payload s).2.1.length = payload.length
  length_frame : ∀ metadata buf, (frameInPlace metadata buf).length = buf.length

variable {PeerId τ : Type}

/-- A call of `sendMessage`, with the place that its answer goes to. -/
structure Asked (PeerId : Type) where
  peer : PeerId
  payload : List UInt8
  dst : Option SocketAddr
  deriving DecidableEq

namespace SessionLayer

variable (S : SessionLayer PeerId τ)

/-- A decrypted payload stands in the buffer right after the data header. -/
def ReadsInPlace : Prop :=
  ∀ addr buf s peer payload, (S.recvMessage addr buf s).1 = some (.read peer payload) →
    ∃ header rest, (S.recvMessage addr buf s).2.1 = header ++ payload ++ rest ∧
      header.length = dataHeaderSize

/-- The same sessions with a record of the calls of `sendMessage`. -/
def logged : SessionLayer PeerId (τ × List (Asked PeerId)) where
  Metadata := S.Metadata
  recvMessage addr buf s :=
    let out := S.recvMessage addr buf s.1
    (out.1, out.2.1, out.2.2, s.2)
  sendMessage id payload s :=
    let out := S.sendMessage id payload s.1
    (out.1, out.2.1, out.2.2, s.2 ++ [⟨id, payload, out.1.map SendMessage.dst⟩])
  turn s :=
    let out := S.turn s.1
    (out.1, out.2, s.2)
  frameInPlace := S.frameInPlace
  length_recv addr buf s := S.length_recv addr buf s.1
  length_send id payload s := S.length_send id payload s.1
  length_frame := S.length_frame

end SessionLayer

end Parameters

/-- What a handler asks the event loop to write. -/
inductive Write
  | none
  | inbound (data : List UInt8)
  | outbound (data : List UInt8) (addr : SocketAddr)

/-- The result of a handler: what to write, unless a slice was out of bounds, the
buffer and the sessions. -/
structure Handled (τ : Type) where
  write : Option Write
  buf : List UInt8
  sessions : τ

variable {I : Iptrie PeerId} (S : SessionLayer PeerId τ) (P : Platform) (net : PeerNet I)

def handleExtern [DecidableEq PeerId] (addr : SocketAddr) (epBuf : List UInt8) (s : τ) :
    Handled τ :=
  let (message, epBuf, s) := S.recvMessage addr epBuf s
  match message with
  | none => ⟨some .none, epBuf, s⟩
  | some .noop => ⟨some .none, epBuf, s⟩
  | some .handshakeComplete => ⟨some .none, epBuf, s⟩
  | some (.read peerIdx buf) =>
      if buf.isEmpty then ⟨some .none, epBuf, s⟩
      else
        match ipSrc buf with
        | none => ⟨some .none, epBuf, s⟩
        | some src =>
            if net.lookup src ≠ peerIdx then ⟨some .none, epBuf, s⟩
            else
              match slice epBuf P.tunBufStart (P.ipPacketStart + buf.length) with
              | none => ⟨none, epBuf, s⟩
              | some tunBuf =>
                  -- `split_first_chunk_mut` of the kernel header's length
                  if P.kernelHeaderLen ≤ tunBuf.length then
                    let packet := tunBuf.drop P.kernelHeaderLen
                    let tunBuf := P.getHeaderFor packet ++ packet
                    ⟨some (.inbound tunBuf), overwrite epBuf P.tunBufStart tunBuf, s⟩
                  else ⟨none, epBuf, s⟩
  | some (.write buf) =>
      match slice epBuf 0 buf.length with
      | none => ⟨none, epBuf, s⟩
      | some data => ⟨some (.outbound data addr), epBuf, s⟩

/-- Round up to the next multiple. -/
def nextMultipleOf (n m : Nat) : Nat := (n + (m - 1)) / m * m

/-- The size of the tag that follows a data packet. -/
def tagFooterSize : Nat := 16

def handleIntern (replyBuf : List UInt8) (filled : Nat) (s : τ) : Handled τ :=
  match slice replyBuf P.ipPacketStart filled with
  | none => ⟨none, replyBuf, s⟩
  | some packet =>
      match ipDst packet with
      | none => ⟨some .none, replyBuf, s⟩
      | some dst =>
          let peerIdx := net.lookup dst
          let n := filled - P.ipPacketStart
          let padTo := P.ipPacketStart + nextMultipleOf n 16
          match slice replyBuf filled padTo with
          | none => ⟨none, replyBuf, s⟩
          | some _ =>
              let replyBuf := overwrite replyBuf filled (List.replicate (padTo - filled) 0)
              match slice replyBuf P.ipPacketStart padTo with
              | none => ⟨none, replyBuf, s⟩
              | some payload =>
                  let (send, payload, s) := S.sendMessage peerIdx payload s
                  let replyBuf := overwrite replyBuf P.ipPacketStart payload
                  match send with
                  | none => ⟨some .none, replyBuf, s⟩
                  | some (.maintenance msg) =>
                      match slice replyBuf 0 msg.data.length with
                      | none => ⟨none, replyBuf, s⟩
                      | some _ =>
                          ⟨some (.outbound msg.data msg.dst), overwrite replyBuf 0 msg.data, s⟩
                  | some (.data ep metadata) =>
                      let wgPacketStart := P.ipPacketStart - dataHeaderSize
                      match slice replyBuf wgPacketStart (padTo + tagFooterSize) with
                      | none => ⟨none, replyBuf, s⟩
                      | some frame =>
                          let frame := S.frameInPlace metadata frame
                          ⟨some (.outbound frame ep), overwrite replyBuf wgPacketStart frame, s⟩

section Sample

/-- A device that puts the address family before each packet, in four bytes. -/
def Platform.utun : Platform where
  kernelHeaderLen := 4
  tunBufStart := 12
  getHeaderFor packet :=
    [0, 0, 0, if (packet.head?.map fun b : UInt8 => b >>> 4) = some 6 then 30 else 2]
  kernelHeaderLen_le := by decide
  length_header _ := rfl
  start_add := rfl

/-- Sessions with one peer and a cipher that adds one to each byte. -/
def SessionLayer.shifting : SessionLayer (Option Nat) Nat where
  Metadata := Unit
  recvMessage _ buf s :=
    if dataHeaderSize + tagFooterSize ≤ buf.length then
      let size := buf.length - dataHeaderSize - tagFooterSize
      let payload := ((buf.drop dataHeaderSize).take size).map (· - 1)
      (some (.read (some 0) payload),
        buf.take dataHeaderSize ++ payload ++ buf.drop (dataHeaderSize + size), s)
    else (none, buf, s)
  sendMessage _ payload s := (some (.data serverEndpoint ()), payload.map (· + 1), s)
  turn s := ([], s)
  frameInPlace _ buf :=
    if dataHeaderSize + tagFooterSize ≤ buf.length then
      let size := buf.length - dataHeaderSize - tagFooterSize
      List.replicate dataHeaderSize 4 ++ (buf.drop dataHeaderSize).take size ++
        List.replicate tagFooterSize 9
    else buf
  length_recv _ buf s := by
    split
    · simp only [List.length_append, List.length_map, List.length_take, List.length_drop]
      omega
    · rfl
  length_send _ payload s := List.length_map _
  length_frame _ buf := by
    split
    · simp only [List.length_append, List.length_replicate, List.length_take, List.length_drop]
      omega
    · rfl

theorem SessionLayer.shifting_readsInPlace : SessionLayer.shifting.ReadsInPlace := by
  intro addr buf s peer payload h
  simp only [shifting] at h ⊢
  split at h
  · next hlen =>
      rw [if_pos hlen]
      obtain ⟨-, rfl⟩ := Message.read.inj (Option.some.inj h)
      exact ⟨_, _, rfl, List.length_take_of_le (by omega)⟩
  · cases h

/-- An IPv4 packet from the server to `10.8.0.2`, with no payload. -/
def serverPacket : Packet where
  family := .V4
  head := [0x45, 0, 0, 20, 0, 0, 0, 0, 64, 17, 0, 0]
  source := [203, 0, 113, 2]
  destination := [10, 8, 0, 2]
  rest := []
  length_head := rfl
  length_source := rfl
  length_destination := rfl
  version := rfl

end Sample

end SmartGuard
