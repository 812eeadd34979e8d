import SmartGuard.Session.Handle

/-!
# What the handlers do on a buffer cut into its regions

A buffer of the tunnel with a packet in it is the concatenation of the room for
the header, the packet, the room for the padding, the room for the tag and the
rest. Each handler is described once, by what it writes on such a buffer.
-/

namespace SmartGuard

open Buffer

theorem le_nextMultipleOf (n : Nat) : n ≤ nextMultipleOf n 16 := by
  unfold nextMultipleOf
  omega

/-- Cut a list at a position. -/
theorem exists_cut {α : Type*} {l : List α} {n : Nat} (h : n ≤ l.length) :
    ∃ first rest, l = first ++ rest ∧ first.length = n :=
  ⟨l.take n, l.drop n, (List.take_append_drop n l).symm, List.length_take_of_le h⟩

/-- The regions of a tunnel buffer that holds a packet with room for its padding. -/
structure Padded where
  header : List UInt8
  packet : List UInt8
  pad : List UInt8
  rest : List UInt8
  length_header : header.length = dataHeaderSize
  length_pad : packet.length + pad.length = nextMultipleOf packet.length 16

namespace Padded

variable (l : Padded)

def buf : List UInt8 := l.header ++ l.packet ++ l.pad ++ l.rest

/-- The end of the packet in the buffer. -/
def filled : Nat := dataHeaderSize + l.packet.length

/-- The end of the padding in the buffer. -/
def padTo : Nat := dataHeaderSize + nextMultipleOf l.packet.length 16

/-- The packet with its padding cleared. -/
def payload : List UInt8 := l.packet ++ List.replicate l.pad.length 0

/-- The buffer with the payload region replaced. -/
def withPayload (bytes : List UInt8) : List UInt8 := l.header ++ bytes ++ l.rest

theorem length_payload : l.payload.length = nextMultipleOf l.packet.length 16 := by
  rw [payload, List.length_append, List.length_replicate, l.length_pad]

theorem length_buf : l.buf.length = l.padTo + l.rest.length := by
  rw [buf, padTo, ← l.length_pad, ← l.length_header]
  simp only [List.length_append, Nat.add_assoc]

theorem length_withPayload {bytes : List UInt8} (h : bytes.length = l.payload.length) :
    (l.withPayload bytes).length = l.buf.length := by
  rw [l.length_buf, withPayload, List.length_append, List.length_append, h, l.length_payload,
    l.length_header, padTo]

/-- A buffer with a packet in it and room after the packet has these regions. -/
theorem exists_of_slice {buf packet : List UInt8} {filled : Nat}
    (hpacket : slice buf dataHeaderSize filled = some packet)
    (hroom : dataHeaderSize + nextMultipleOf packet.length 16 ≤ buf.length) :
    ∃ l : Padded, l.buf = buf ∧ l.packet = packet ∧ l.filled = filled := by
  obtain ⟨header, after, rfl, hheader, hfilled⟩ := slice_eq_some_iff.mp hpacket
  have hle := le_nextMultipleOf packet.length
  rw [List.length_append, List.length_append, hheader] at hroom
  obtain ⟨pad, rest, rfl, hpad⟩ := exists_cut
    (n := nextMultipleOf packet.length 16 - packet.length) (l := after) (by omega)
  refine ⟨⟨header, packet, pad, rest, hheader, by omega⟩, ?_, rfl, hfilled⟩
  simp only [Padded.buf, List.append_assoc]

theorem slice_packet : slice l.buf dataHeaderSize l.filled = some l.packet := by
  have hbuf : l.buf = l.header ++ l.packet ++ (l.pad ++ l.rest) := by
    simp only [buf, List.append_assoc]
  rw [hbuf, filled, ← l.length_header]
  exact slice_append _ _ _

theorem slice_pad : slice l.buf l.filled l.padTo = some l.pad := by
  rw [padTo, ← l.length_pad, ← Nat.add_assoc, buf, filled, ← l.length_header,
    ← List.length_append]
  exact slice_append _ _ _

/-- Clearing the padding leaves the payload after the header. -/
theorem overwrite_pad :
    overwrite l.buf l.filled (List.replicate l.pad.length 0) = l.withPayload l.payload := by
  rw [buf, filled, ← l.length_header, ← List.length_append,
    overwrite_append _ List.length_replicate]
  simp only [withPayload, payload, List.append_assoc]

theorem slice_payload :
    slice (l.withPayload l.payload) dataHeaderSize l.padTo = some l.payload := by
  rw [padTo, ← l.length_payload, ← l.length_header]
  exact slice_append _ _ _

theorem overwrite_payload {bytes : List UInt8} (h : bytes.length = l.payload.length) :
    overwrite (l.withPayload l.payload) dataHeaderSize bytes = l.withPayload bytes := by
  rw [withPayload, ← l.length_header]
  exact overwrite_append _ h

end Padded

/-- The regions of a tunnel buffer that holds a packet with room for its padding
and its tag. -/
structure Layout where
  header : List UInt8
  packet : List UInt8
  pad : List UInt8
  tag : List UInt8
  rest : List UInt8
  length_header : header.length = dataHeaderSize
  length_pad : packet.length + pad.length = nextMultipleOf packet.length 16
  length_tag : tag.length = tagFooterSize

namespace Layout

variable (l : Layout)

def buf : List UInt8 := l.header ++ l.packet ++ l.pad ++ l.tag ++ l.rest

/-- The end of the packet in the buffer. -/
def filled : Nat := dataHeaderSize + l.packet.length

/-- The packet with its padding cleared. -/
def payload : List UInt8 := l.packet ++ List.replicate l.pad.length 0

/-- The buffer with the payload region replaced. -/
def withPayload (bytes : List UInt8) : List UInt8 := l.header ++ bytes ++ l.tag ++ l.rest

/-- The region that a data packet is framed in. -/
def frame (bytes : List UInt8) : List UInt8 := l.header ++ bytes ++ l.tag

/-- The same buffer, without a region for the tag. -/
def padded : Padded where
  header := l.header
  packet := l.packet
  pad := l.pad
  rest := l.tag ++ l.rest
  length_header := l.length_header
  length_pad := l.length_pad

theorem buf_padded : l.padded.buf = l.buf := by
  simp only [Padded.buf, padded, buf, List.append_assoc]

theorem withPayload_padded (bytes : List UInt8) :
    l.padded.withPayload bytes = l.withPayload bytes := by
  simp only [Padded.withPayload, padded, withPayload, List.append_assoc]

theorem slice_frame {bytes : List UInt8} (h : bytes.length = l.payload.length) :
    slice (l.withPayload bytes) 0 (l.padded.padTo + tagFooterSize) = some (l.frame bytes) := by
  have hpayload : l.payload.length = nextMultipleOf l.packet.length 16 := l.padded.length_payload
  refine slice_eq_some_iff.mpr ⟨[], l.rest, rfl, rfl, ?_⟩
  simp only [frame, List.length_append, l.length_header, h, hpayload, l.length_tag,
    Nat.zero_add]
  rfl

/-- A buffer with a packet in it and room after its padding has a layout. -/
theorem exists_of_slice {buf packet : List UInt8} {filled : Nat}
    (hpacket : slice buf dataHeaderSize filled = some packet)
    (hroom : dataHeaderSize + nextMultipleOf packet.length 16 + tagFooterSize ≤ buf.length) :
    ∃ l : Layout, l.buf = buf ∧ l.packet = packet ∧ l.filled = filled := by
  obtain ⟨l, rfl, rfl, rfl⟩ := Padded.exists_of_slice hpacket (by omega)
  rw [l.length_buf, Padded.padTo] at hroom
  obtain ⟨tag, rest, hrest, htag⟩ := exists_cut (n := tagFooterSize) (l := l.rest) (by omega)
  refine ⟨⟨l.header, l.packet, l.pad, tag, rest, l.length_header, l.length_pad, htag⟩,
    ?_, rfl, rfl⟩
  rw [Padded.buf, hrest, ← List.append_assoc]
  rfl

end Layout

variable {PeerId τ : Type} {I : Iptrie PeerId} {S : SessionLayer PeerId τ} {P : Platform}
  {net : PeerNet I}

section Intern

/-- What `handleIntern` does with the answer of the sessions. The region of the frame may
reach beyond the buffer. -/
def Padded.afterSend (l : Padded) (S : SessionLayer PeerId τ)
    (out : Option (SendMessage S.Metadata) × List UInt8 × τ) : Handled τ :=
  match out.1 with
  | none => ⟨some .none, l.withPayload out.2.1, out.2.2⟩
  | some (.maintenance msg) =>
      match slice (l.withPayload out.2.1) 0 msg.data.length with
      | none => ⟨none, l.withPayload out.2.1, out.2.2⟩
      | some _ =>
          ⟨some (.outbound msg.data msg.dst), overwrite (l.withPayload out.2.1) 0 msg.data,
            out.2.2⟩
  | some (.data ep metadata) =>
      match slice (l.withPayload out.2.1) 0 (l.padTo + tagFooterSize) with
      | none => ⟨none, l.withPayload out.2.1, out.2.2⟩
      | some frame =>
          ⟨some (.outbound (S.frameInPlace metadata frame) ep),
            overwrite (l.withPayload out.2.1) 0 (S.frameInPlace metadata frame), out.2.2⟩

/-- A packet is padded and handed to the sessions for its destination. -/
theorem handleIntern_padded (l : Padded) {dst : IpAddr} (hdst : ipDst l.packet = some dst)
    (s : τ) :
    handleIntern S P net l.buf l.filled s =
      l.afterSend S (S.sendMessage (net.lookup dst) l.payload s) := by
  have hlen : l.filled - dataHeaderSize = l.packet.length := Nat.add_sub_cancel_left _ _
  have hpadTo : dataHeaderSize + nextMultipleOf l.packet.length 16 = l.padTo := rfl
  have hpad : l.padTo - l.filled = l.pad.length := by
    rw [Padded.padTo, ← l.length_pad, Padded.filled]
    omega
  have hout := S.length_send (net.lookup dst) l.payload s
  rcases hsend : S.sendMessage (net.lookup dst) l.payload s with ⟨send, bytes, t⟩
  rw [hsend] at hout
  unfold handleIntern
  simp only [P.ipPacketStart_eq, l.slice_packet, hdst, hlen, hpadTo, l.slice_pad, hpad,
    l.overwrite_pad, l.slice_payload, hsend, l.overwrite_payload hout, Nat.sub_self]
  match send with
  | none => rfl
  | some (.maintenance msg) => rfl
  | some (.data ep metadata) => rfl

/-- What is not a packet is dropped, and the sessions are not asked. -/
theorem handleIntern_other {tunBuf packet : List UInt8} {filled : Nat}
    (hslice : slice tunBuf P.ipPacketStart filled = some packet) (hdst : ipDst packet = none)
    (s : τ) : handleIntern S P net tunBuf filled s = ⟨some .none, tunBuf, s⟩ := by
  unfold handleIntern
  simp only [hslice, hdst]

/-- What `handleIntern` does with the answer of the sessions, with room for the tag. -/
def Layout.afterSend (l : Layout) (S : SessionLayer PeerId τ)
    (out : Option (SendMessage S.Metadata) × List UInt8 × τ) : Handled τ :=
  match out.1 with
  | none => ⟨some .none, l.withPayload out.2.1, out.2.2⟩
  | some (.maintenance msg) =>
      match slice (l.withPayload out.2.1) 0 msg.data.length with
      | none => ⟨none, l.withPayload out.2.1, out.2.2⟩
      | some _ =>
          ⟨some (.outbound msg.data msg.dst), overwrite (l.withPayload out.2.1) 0 msg.data,
            out.2.2⟩
  | some (.data ep metadata) =>
      ⟨some (.outbound (S.frameInPlace metadata (l.frame out.2.1)) ep),
        overwrite (l.withPayload out.2.1) 0 (S.frameInPlace metadata (l.frame out.2.1)), out.2.2⟩

@[simp] theorem Layout.afterSend_sessions (l : Layout)
    (out : Option (SendMessage S.Metadata) × List UInt8 × τ) :
    (l.afterSend S out).sessions = out.2.2 := by
  obtain ⟨send, bytes, t⟩ := out
  match send with
  | none => rfl
  | some (.maintenance msg) =>
      simp only [afterSend]
      split <;> rfl
  | some (.data ep metadata) => rfl

/-- The frame of a data packet is its region of the layout. -/
theorem Layout.afterSend_padded (l : Layout)
    {out : Option (SendMessage S.Metadata) × List UInt8 × τ}
    (hout : out.2.1.length = l.payload.length) : l.padded.afterSend S out = l.afterSend S out := by
  obtain ⟨send, bytes, t⟩ := out
  unfold Padded.afterSend Layout.afterSend
  simp only [l.withPayload_padded, l.slice_frame hout]

/-- A packet is padded, handed to the sessions for its destination, and framed. -/
theorem handleIntern_packet (l : Layout) {dst : IpAddr} (hdst : ipDst l.packet = some dst)
    (s : τ) :
    handleIntern S P net l.buf l.filled s =
      l.afterSend S (S.sendMessage (net.lookup dst) l.payload s) := by
  rw [← l.buf_padded]
  exact (handleIntern_padded l.padded hdst s).trans (l.afterSend_padded (S.length_send _ _ _))

/-- The ways in which `handleIntern` goes on: it drops what it was given, or it asks the
sessions once for the owner of the destination and sends to where the answer goes. -/
inductive Intake (S : SessionLayer PeerId τ) (net : PeerNet I) (packet : List UInt8) (s : τ) :
    Option Write → τ → Prop
  | dropped : Intake S net packet s (some .none) s
  | refused {a : IpAddr} {payload bytes : List UInt8} {t : τ} (hdst : ipDst packet = some a)
      (hne : payload ≠ []) (answer : S.sendMessage (net.lookup a) payload s = (none, bytes, t)) :
      Intake S net packet s (some .none) t
  | sent {a : IpAddr} {payload bytes : List UInt8} {send : SendMessage S.Metadata} {t : τ}
      (hdst : ipDst packet = some a) (hne : payload ≠ []) (data : List UInt8)
      (answer : S.sendMessage (net.lookup a) payload s = (some send, bytes, t)) :
      Intake S net packet s (some (.outbound data send.dst)) t

/-- A packet has bytes, and so has it with its padding. -/
theorem padded_ne_nil {buf packet payload : List UInt8} {start : Nat} {a : IpAddr}
    (hdst : ipDst packet = some a)
    (hpayload : slice buf start (start + nextMultipleOf packet.length 16) = some payload) :
    payload ≠ [] := by
  obtain ⟨pkt, rfl⟩ := Packet.exists_of_ipField hdst
  have hbytes : 0 < pkt.bytes.length := by
    obtain ⟨first, hfirst, -⟩ := pkt.head?_bytes
    exact List.length_pos_of_mem (List.mem_of_head? hfirst)
  obtain ⟨before, after, -, hbefore, hend⟩ := slice_eq_some_iff.mp hpayload
  have hle := le_nextMultipleOf pkt.bytes.length
  apply List.ne_nil_of_length_pos
  omega

theorem handleIntern_intake {replyBuf : List UInt8} {filled : Nat} {s : τ}
    (h : (handleIntern S P net replyBuf filled s).write ≠ none) :
    Intake S net ((replyBuf.take filled).drop P.ipPacketStart) s
      (handleIntern S P net replyBuf filled s).write
      (handleIntern S P net replyBuf filled s).sessions := by
  generalize hout : handleIntern S P net replyBuf filled s = out at h ⊢
  unfold handleIntern at hout
  split at hout
  · exact absurd (hout ▸ rfl) h
  · next packet hslice =>
      have hpacket : (replyBuf.take filled).drop P.ipPacketStart = packet := by
        unfold slice at hslice
        split at hslice
        · exact Option.some.inj hslice
        · cases hslice
      have hlen : filled - P.ipPacketStart = packet.length := by
        obtain ⟨before, after, -, hbefore, hend⟩ := slice_eq_some_iff.mp hslice
        omega
      rw [hpacket]
      split at hout
      · subst hout
        exact .dropped
      · next a hdst =>
          simp only [hlen] at hout
          split at hout
          · exact absurd (hout ▸ rfl) h
          · split at hout
            · exact absurd (hout ▸ rfl) h
            · next payload hpayload =>
                have hne := padded_ne_nil hdst hpayload
                rcases hsend : S.sendMessage (net.lookup a) payload s with ⟨send, bytes, t⟩
                simp only [hsend] at hout
                split at hout
                · subst hout
                  exact .refused hdst hne hsend
                · next msg =>
                    split at hout
                    · exact absurd (hout ▸ rfl) h
                    · subst hout
                      exact .sent hdst hne msg.data hsend
                · next ep metadata =>
                    split at hout
                    · exact absurd (hout ▸ rfl) h
                    · next frame hframe =>
                        subst hout
                        exact .sent hdst hne (S.frameInPlace metadata frame) hsend

/-- Only a packet is sent. -/
theorem exists_ipDst_of_outbound {replyBuf : List UInt8} {filled : Nat} {s : τ}
    {data : List UInt8} {dst : SocketAddr}
    (h : (handleIntern S P net replyBuf filled s).write = some (.outbound data dst)) :
    ∃ a, ipDst ((replyBuf.take filled).drop P.ipPacketStart) = some a := by
  have hsome : (handleIntern S P net replyBuf filled s).write ≠ none := by
    rw [h]
    exact Option.some_ne_none _
  have hintake := handleIntern_intake hsome
  generalize (handleIntern S P net replyBuf filled s).sessions = t at hintake
  rw [h] at hintake
  cases hintake with
  | sent hdst hne data answer => exact ⟨_, hdst⟩

end Intern

section Extern

variable [DecidableEq PeerId]

/-- A decrypted payload goes to the tunnel behind its kernel header, if it is a
packet whose source belongs to the peer it came from. -/
theorem handleExtern_read (hread : S.ReadsInPlace) {addr : SocketAddr} {epBuf : List UInt8}
    {s : τ} {peer : PeerId} {payload : List UInt8}
    (hrecv : (S.recvMessage addr epBuf s).1 = some (.read peer payload)) :
    (handleExtern S P net addr epBuf s).write =
      some (match ipSrc payload with
        | none => .none
        | some src =>
            if net.lookup src = peer then .inbound (P.getHeaderFor payload ++ payload)
            else .none) := by
  obtain ⟨header, rest, hbuf, hheader⟩ := hread addr epBuf s peer payload hrecv
  have hstart : P.tunBufStart + P.kernelHeaderLen = dataHeaderSize :=
    P.start_add.trans P.ipPacketStart_eq
  obtain ⟨before, kernel, rfl, hbefore⟩ := exists_cut
    (n := P.tunBufStart) (l := header) (by omega)
  rw [List.length_append, hbefore] at hheader
  have hslice : slice (before ++ kernel ++ payload ++ rest) P.tunBufStart
      (dataHeaderSize + payload.length) = some (kernel ++ payload) := by
    refine slice_eq_some_iff.mpr ⟨before, rest, ?_, hbefore, ?_⟩
    · simp only [List.append_assoc]
    · rw [List.length_append]
      omega
  have hkernel : kernel.length = P.kernelHeaderLen := by omega
  have hfits : P.kernelHeaderLen ≤ (kernel ++ payload).length := by
    rw [List.length_append]
    omega
  have hdrop : (kernel ++ payload).drop P.kernelHeaderLen = payload := by
    rw [← hkernel]
    exact List.drop_append_length
  unfold handleExtern
  rcases hout : S.recvMessage addr epBuf s with ⟨message, buf, t⟩
  rw [hout] at hrecv hbuf
  obtain rfl : message = some (.read peer payload) := hrecv
  obtain rfl : buf = before ++ kernel ++ payload ++ rest := hbuf
  by_cases hempty : payload = []
  · simp [hempty, ipSrc, ipField]
  · have hne : payload.isEmpty = false := List.isEmpty_eq_false_iff.mpr hempty
    simp only [hne, Bool.false_eq_true, if_false, P.ipPacketStart_eq, hslice, if_pos hfits, hdrop]
    cases ipSrc payload with
    | none => rfl
    | some src =>
        by_cases howner : net.lookup src = peer
        · simp only [howner, ne_eq, not_true_eq_false, if_false, if_true]
        · simp only [howner, ne_eq, not_false_eq_true, if_true, if_false]

/-- The handler of datagrams asks the sessions once. -/
theorem handleExtern_sessions {addr : SocketAddr} {epBuf : List UInt8} {s : τ} :
    (handleExtern S P net addr epBuf s).sessions = (S.recvMessage addr epBuf s).2.2 := by
  unfold handleExtern
  generalize S.recvMessage addr epBuf s = out
  obtain ⟨message, buf, t⟩ := out
  match message with
  | none => rfl
  | some .noop => rfl
  | some .handshakeComplete => rfl
  | some (.read peer payload) =>
      dsimp only
      split
      · rfl
      · split
        · rfl
        · split
          · rfl
          · split
            · rfl
            · split <;> rfl
  | some (.write reply) =>
      dsimp only
      split <;> rfl

end Extern

end SmartGuard
