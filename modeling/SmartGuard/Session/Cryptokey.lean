import SmartGuard.Session.Build
import SmartGuard.Session.Layout

/-!
# Cryptokey routing

A packet leaves through the session of the peer that owns its destination, and a
packet enters only from the peer that owns its source. Both directions ask the
same table, so a reply goes back to the peer whose packet was accepted.
-/

namespace SmartGuard

open LongestMatch Buffer

/-- The addresses of the reply are those of the packet, exchanged. -/
structure Packet.IsReply (reply pkt : Packet) : Prop where
  src : reply.src = pkt.dst
  dst : reply.dst = pkt.src

variable {PeerId κ τ : Type} {I : Iptrie PeerId} {S : SessionLayer PeerId τ} {P : Platform}
  {net : PeerNet I}

/-- A handler that asks the tunnel to take a packet. -/
def Handled.Delivers (out : Handled τ) : Prop := ∃ data, out.write = some (.inbound data)

section Extern

variable [DecidableEq PeerId]

/-- A decrypted payload is delivered exactly if it is a packet from an address of
the peer it came from. -/
theorem handleExtern_delivers_iff (hread : S.ReadsInPlace) {addr : SocketAddr}
    {epBuf : List UInt8} {s : τ} {peer : PeerId} {payload : List UInt8}
    (hrecv : (S.recvMessage addr epBuf s).1 = some (.read peer payload)) :
    (handleExtern S P net addr epBuf s).Delivers ↔
      ∃ pkt : Packet, pkt.bytes = payload ∧ net.lookup pkt.src = peer := by
  unfold Handled.Delivers
  rw [handleExtern_read hread hrecv]
  constructor
  · rintro ⟨data, hdata⟩
    cases hsrc : ipSrc payload with
    | none =>
        rw [hsrc] at hdata
        cases hdata
    | some src =>
        obtain ⟨pkt, rfl⟩ := Packet.exists_of_ipField hsrc
        rw [pkt.ipSrc_bytes] at hdata
        refine ⟨pkt, rfl, ?_⟩
        by_contra hne
        simp only [if_neg hne] at hdata
        cases hdata
  · rintro ⟨pkt, rfl, howner⟩
    refine ⟨P.getHeaderFor pkt.bytes ++ pkt.bytes, ?_⟩
    simp only [pkt.ipSrc_bytes, howner, if_true]

end Extern

section Intern

/-- The bytes that `handleIntern` takes for the packet. -/
def tunPacket (P : Platform) (tunBuf : List UInt8) (filled : Nat) : List UInt8 :=
  (tunBuf.take filled).drop P.ipPacketStart

/-- A tunnel buffer with room for the padding and the tag after its packet. -/
structure HasRoom (P : Platform) (tunBuf : List UInt8) (filled : Nat) : Prop where
  start_le : P.ipPacketStart ≤ filled
  room : P.ipPacketStart + nextMultipleOf (filled - P.ipPacketStart) 16 + tagFooterSize ≤
    tunBuf.length

theorem slice_tunPacket {tunBuf : List UInt8} {filled : Nat} (hstart : P.ipPacketStart ≤ filled)
    (hfilled : filled ≤ tunBuf.length) :
    slice tunBuf P.ipPacketStart filled = some (tunPacket P tunBuf filled) :=
  slice_eq_some ⟨hstart, hfilled⟩

theorem length_tunPacket {tunBuf : List UInt8} {filled : Nat} (hfilled : filled ≤ tunBuf.length) :
    (tunPacket P tunBuf filled).length = filled - P.ipPacketStart := by
  rw [tunPacket, List.length_drop, List.length_take_of_le hfilled]

theorem HasRoom.filled_le {tunBuf : List UInt8} {filled : Nat} (h : HasRoom P tunBuf filled) :
    filled ≤ tunBuf.length := by
  obtain ⟨hstart, hroom⟩ := h
  have hle := le_nextMultipleOf (filled - P.ipPacketStart)
  omega

theorem HasRoom.layout {tunBuf : List UInt8} {filled : Nat} (h : HasRoom P tunBuf filled) :
    ∃ l : Layout, l.buf = tunBuf ∧ l.packet = tunPacket P tunBuf filled ∧ l.filled = filled := by
  have hslice := slice_tunPacket h.start_le h.filled_le
  rw [P.ipPacketStart_eq] at hslice
  apply Layout.exists_of_slice hslice
  rw [length_tunPacket h.filled_le, ← P.ipPacketStart_eq]
  exact h.room

/-- The peers that the sessions are asked for. -/
def Handled.askedFor (out : Handled (τ × List (Asked PeerId))) : List PeerId :=
  out.sessions.2.map Asked.peer

/-- The sessions are asked once, for the owner of the destination. -/
theorem handleIntern_sends {tunBuf : List UInt8} {filled : Nat} (hroom : HasRoom P tunBuf filled)
    {pkt : Packet} (hpkt : pkt.bytes = tunPacket P tunBuf filled) (s : τ) :
    (handleIntern S.logged P net tunBuf filled (s, [])).askedFor = [net.lookup pkt.dst] := by
  obtain ⟨l, rfl, hpacket, rfl⟩ := hroom.layout
  have hdst : ipDst l.packet = some pkt.dst := by
    rw [hpacket, ← hpkt]
    exact pkt.ipDst_bytes
  rw [handleIntern_packet l hdst, Handled.askedFor, Layout.afterSend_sessions]
  rfl

/-- The sessions are not asked for what is not a packet, and nothing is sent. -/
theorem handleIntern_sends_nothing {tunBuf : List UInt8} {filled : Nat}
    (hroom : HasRoom P tunBuf filled)
    (hpkt : ¬ ∃ pkt : Packet, pkt.bytes = tunPacket P tunBuf filled) (s : τ) :
    (handleIntern S.logged P net tunBuf filled (s, [])).askedFor = [] ∧
      (handleIntern S.logged P net tunBuf filled (s, [])).write = some .none := by
  have hslice := slice_tunPacket hroom.start_le hroom.filled_le
  rw [handleIntern_other hslice (Packet.ipField_eq_none hpkt)]
  exact ⟨rfl, rfl⟩

end Intern

/-- Cryptokey routing admits a packet from the owner of its source only, asks the
sessions for the owner of its destination only, and returns a reply to the peer
whose packet was admitted. -/
theorem cryptokey_routing [DecidableEq PeerId] (R : Registry PeerId κ τ) (I : Iptrie PeerId)
    (S : SessionLayer PeerId τ) (P : Platform) (hread : S.ReadsInPlace) (config : κ)
    (peers : List PeerConfig) :
    let built := buildSessions R I config peers
    let own := owner R.sentinal (peers.zip built.2.2)
    (∀ addr epBuf s peer payload,
      (S.recvMessage addr epBuf s).1 = some (.read peer payload) →
      ((handleExtern S P built.2.1 addr epBuf s).Delivers ↔
        ∃ pkt : Packet, pkt.bytes = payload ∧ own pkt.src = peer)) ∧
    (∀ tunBuf filled s, HasRoom P tunBuf filled →
      (∀ pkt : Packet, pkt.bytes = tunPacket P tunBuf filled →
        (handleIntern S.logged P built.2.1 tunBuf filled (s, [])).askedFor = [own pkt.dst]) ∧
      ((¬ ∃ pkt : Packet, pkt.bytes = tunPacket P tunBuf filled) →
        (handleIntern S.logged P built.2.1 tunBuf filled (s, [])).askedFor = [] ∧
          (handleIntern S.logged P built.2.1 tunBuf filled (s, [])).write = some .none)) ∧
    (∀ pkt reply : Packet, reply.IsReply pkt → ∀ addr epBuf s peer tunBuf filled t,
      (S.recvMessage addr epBuf s).1 = some (.read peer pkt.bytes) →
      HasRoom P tunBuf filled → reply.bytes = tunPacket P tunBuf filled →
      ((handleExtern S P built.2.1 addr epBuf s).Delivers ↔
        (handleIntern S.logged P built.2.1 tunBuf filled (t, [])).askedFor = [peer])) := by
  intro built own
  have hown : ∀ a, built.2.1.lookup a = own a := buildSessions_lookup config peers
  refine ⟨?_, ?_, ?_⟩
  · intro addr epBuf s peer payload hrecv
    rw [handleExtern_delivers_iff hread hrecv]
    simp only [hown]
  · intro tunBuf filled s hroom
    constructor
    · intro pkt hpkt
      rw [handleIntern_sends hroom hpkt, hown]
    · exact fun hpkt => handleIntern_sends_nothing hroom hpkt s
  · intro pkt reply hreply addr epBuf s peer tunBuf filled t hrecv hroom hpkt
    rw [handleIntern_sends hroom hpkt, handleExtern_delivers_iff hread hrecv, hreply.dst,
      List.cons.injEq]
    constructor
    · rintro ⟨other, hbytes, howner⟩
      refine ⟨?_, rfl⟩
      have hsrc : other.src = pkt.src := by
        apply Option.some.inj
        rw [← other.ipSrc_bytes, hbytes, pkt.ipSrc_bytes]
      rw [← hsrc, howner]
    · rintro ⟨howner, -⟩
      exact ⟨pkt, rfl, howner⟩

section Sample

/-- The datagram in which the server's packet arrives. -/
def serverDatagram : List UInt8 :=
  List.replicate dataHeaderSize 4 ++ serverPacket.bytes.map (· + 1) ++
    List.replicate tagFooterSize 9

/-- The packet of the server is delivered, since the server owns every address. -/
theorem serverDatagram_delivered :
    (handleExtern .shifting .utun
      (buildSessions .numbering (.table _) 0 [serverPeer]).2.1 serverEndpoint serverDatagram
      0).Delivers := by
  have hrouting := cryptokey_routing .numbering (.table _) .shifting .utun
    SessionLayer.shifting_readsInPlace 0 [serverPeer]
  refine (hrouting.1 serverEndpoint serverDatagram 0 (some 0) serverPacket.bytes rfl).mpr
    ⟨serverPacket, rfl, ?_⟩
  decide +kernel

end Sample

end SmartGuard
