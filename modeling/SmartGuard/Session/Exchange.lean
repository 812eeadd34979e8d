import Mathlib.Data.List.Forall2
import Mathlib.Data.List.Nodup
import Mathlib.Data.List.Perm.Subperm
import Mathlib.Logic.Function.Basic
import Mathlib.Logic.Relation
import SmartGuard.Session.Layout

/-!
# Sessions that exchange datagrams

What the sessions of a host are asked is recorded: the payloads that they encrypt, the
payloads that they decrypt, and the datagrams that the host may hand to the network. Between
the hosts the network drops, repeats and reorders datagrams, takes them to any host, and may
add its own. Sessions are authentic if nothing is decrypted more often than its sender has
encrypted it for the host.

## Implementation notes

This is about the sessions only, which are not part of the source. The network of the tunnels
is an instance of it.
-/

namespace SmartGuard

open Buffer Function Relation

/-- What is known of the sessions of one host. -/
structure Record (PeerId : Type) where
  encrypted : List (PeerId × List UInt8)
  decrypted : List (PeerId × List UInt8)
  wire : List (List UInt8)

def Record.empty {PeerId : Type} : Record PeerId := ⟨[], [], []⟩

variable {ι PeerId τ : Type}

section Calls

variable (S : SessionLayer PeerId τ)

/-- The payload that a call encrypts as data. -/
def encryptedBy (id : PeerId) (payload : List UInt8) :
    Option (SendMessage S.Metadata) → List (PeerId × List UInt8)
  | some (.data _ _) => [(id, payload)]
  | _ => []

/-- The payload that a call decrypts. -/
def decryptedBy : Option (Message PeerId) → List (PeerId × List UInt8)
  | some (.read peer payload) => [(peer, payload)]
  | _ => []

/-- The datagrams that the answer to a packet allows. -/
inductive SendAllows (out : Option (SendMessage S.Metadata) × List UInt8 × τ) :
    List UInt8 → Prop
  | framed {ep metadata before after} (answer : out.1 = some (.data ep metadata))
      (length_before : before.length = dataHeaderSize)
      (length_after : after.length = tagFooterSize) :
      SendAllows out (S.frameInPlace metadata (before ++ out.2.1 ++ after))
  | maintenance {msg} (answer : out.1 = some (.maintenance msg)) : SendAllows out msg.data

/-- The datagrams that the answer to a datagram allows. -/
inductive ReceiveAllows (out : Option (Message PeerId) × List UInt8 × τ) : List UInt8 → Prop
  | reply {reply} (answer : out.1 = some (.write reply)) :
      ReceiveAllows out (out.2.1.take reply.length)

/-- One call of the sessions, and what the host puts on the wire after it. -/
inductive Asks (arrives : List UInt8 → Prop) :
    τ × Record PeerId → τ × Record PeerId → Prop
  | send {s r} (id : PeerId) (payload : List UInt8) (out : List (List UInt8))
      (allowed : ∀ d ∈ out, SendAllows S (S.sendMessage id payload s) d) :
      Asks arrives (s, r) ((S.sendMessage id payload s).2.2,
        { r with
          encrypted := r.encrypted ++ encryptedBy S id payload (S.sendMessage id payload s).1
          wire := r.wire ++ out })
  | receive {s r} (addr : SocketAddr) (d : List UInt8) (out : List (List UInt8))
      (arrived : arrives d) (allowed : ∀ e ∈ out, ReceiveAllows (S.recvMessage addr d s) e) :
      Asks arrives (s, r) ((S.recvMessage addr d s).2.2,
        { r with
          decrypted := r.decrypted ++ decryptedBy (S.recvMessage addr d s).1
          wire := r.wire ++ out })
  | turn {s r} (out : List (List UInt8))
      (allowed : ∀ d ∈ out, ∃ msg ∈ (S.turn s).1, d = msg.data) :
      Asks arrives (s, r) ((S.turn s).2, { r with wire := r.wire ++ out })

variable {S}

theorem Asks.mono {P Q : List UInt8 → Prop} (h : ∀ d, P d → Q d) {x y : τ × Record PeerId}
    (asks : Asks S P x y) : Asks S Q x y := by
  cases asks with
  | send id payload out allowed => exact .send id payload out allowed
  | receive addr d out arrived allowed => exact .receive addr d out (h d arrived) allowed
  | turn out allowed => exact .turn out allowed

/-- Datagrams stay on the wire. -/
theorem Asks.wire_subset {P : List UInt8 → Prop} {x y : τ × Record PeerId}
    (asks : Asks S P x y) : x.2.wire ⊆ y.2.wire := by
  cases asks with
  | send id payload out allowed => exact List.subset_append_left _ _
  | receive addr d out arrived allowed => exact List.subset_append_left _ _
  | turn out allowed => exact List.subset_append_left _ _

end Calls

section Hosts

variable (S : ι → SessionLayer PeerId τ) (forged : List UInt8 → Prop)

/-- A datagram that the network can bring to a host. -/
def Arrives (x : ι → τ × Record PeerId) (d : List UInt8) : Prop :=
  (∃ h, d ∈ (x h).2.wire) ∨ forged d

variable [DecidableEq ι]

/-- The states that the sessions of all hosts reach together. -/
inductive Exchange (s₀ : ι → τ) : (ι → τ × Record PeerId) → Prop
  | start : Exchange s₀ fun h => (s₀ h, .empty)
  | ask {x} (run : Exchange s₀ x) (h : ι) {y} (asks : Asks (S h) (Arrives forged x) (x h) y) :
      Exchange s₀ (update x h y)

variable {S forged} in
/-- What one host asks in a row, while the others rest, is a part of an exchange. -/
theorem Exchange.asks {s₀ : ι → τ} {x : ι → τ × Record PeerId} (run : Exchange S forged s₀ x)
    {h : ι} {y : τ × Record PeerId} (asks : ReflTransGen (Asks (S h) (Arrives forged x)) (x h) y) :
    Exchange S forged s₀ (update x h y) := by
  have hboth : Exchange S forged s₀ (update x h y) ∧ (x h).2.wire ⊆ y.2.wire := by
    induction asks with
    | refl =>
        rw [update_eq_self]
        exact ⟨run, List.Subset.refl _⟩
    | @tail y z _ one ih =>
        obtain ⟨hrun, hsubset⟩ := ih
        refine ⟨?_, List.Subset.trans hsubset one.wire_subset⟩
        have hone : Asks (S h) (Arrives forged (update x h y)) (update x h y h) z := by
          rw [update_self]
          apply one.mono
          rintro d (⟨k, hd⟩ | hd)
          · refine .inl ⟨k, ?_⟩
            by_cases hk : k = h
            · rw [hk, update_self]
              rw [hk] at hd
              exact hsubset hd
            · rwa [update_of_ne hk]
          · exact .inr hd
        have hnext := hrun.ask h hone
        rwa [update_idem] at hnext
  exact hboth.1

variable [DecidableEq PeerId]

/-- How often a host has encrypted the payload for another one. The keys of the peers tell the
hosts behind them. -/
def encryptions (owner : ι → PeerId → ι) (x : ι → τ × Record PeerId) (sender receiver : ι)
    (payload : List UInt8) : Nat :=
  (x sender).2.encrypted.countP fun e => owner sender e.1 = receiver ∧ e.2 = payload

/-- How often a host has decrypted the payload as one of the peer. -/
def decryptions (x : ι → τ × Record PeerId) (h : ι) (peer : PeerId) (payload : List UInt8) :
    Nat :=
  (x h).2.decrypted.countP fun e => e.1 = peer ∧ e.2 = payload

/-- No payload is decrypted more often than the host behind the peer has encrypted it. -/
def Authentic (s₀ : ι → τ) (owner : ι → PeerId → ι) : Prop :=
  ∀ x, Exchange S forged s₀ x → ∀ h peer payload,
    decryptions x h peer payload ≤ encryptions owner x (owner h peer) h payload

end Hosts

section Sample

/-! Two hosts whose sessions mark a datagram with the key of the host and a number. -/

def sealed (key number : UInt8) (ciphertext : List UInt8) : List UInt8 :=
  key :: number :: (List.replicate 14 0 ++ ciphertext ++ List.replicate tagFooterSize 9)

/-- The number and the payload of a datagram that is sealed with the key. -/
def unsealed (key : UInt8) : List UInt8 → Option (UInt8 × List UInt8)
  | first :: number :: rest =>
      if first = key ∧ 30 ≤ rest.length then
        some (number, ((rest.drop 14).take (rest.length - 30)).map (· - 1))
      else none
  | _ => none

theorem unsealed_sealed (key other number : UInt8) (payload : List UInt8) :
    unsealed key (sealed other number (payload.map (· + 1))) =
      if other = key then some (number, payload) else none := by
  have hlen : (List.replicate 14 (0 : UInt8) ++ payload.map (· + 1) ++
      List.replicate tagFooterSize 9).length = 30 + payload.length := by
    simp only [List.length_append, List.length_replicate, List.length_map, tagFooterSize]
    omega
  have hdrop : (List.replicate 14 (0 : UInt8) ++ payload.map (· + 1) ++
      List.replicate tagFooterSize 9).drop 14 = payload.map (· + 1) ++
        List.replicate tagFooterSize 9 := by
    rw [List.append_assoc]
    exact List.drop_left' List.length_replicate
  have htake : (payload.map (· + 1) ++ List.replicate tagFooterSize 9).take payload.length =
      payload.map (· + 1) := List.take_left' (List.length_map _)
  have hback : (payload.map (· + 1)).map (· - 1) = payload := by
    rw [List.map_map]
    exact (List.map_congr_left fun b _ => UInt8.add_sub_cancel b 1).trans (List.map_id payload)
  unfold sealed unsealed
  dsimp only
  rw [hlen, hdrop, Nat.add_sub_cancel_left, htake, hback]
  by_cases hkey : other = key
  · rw [if_pos hkey, if_pos ⟨hkey, Nat.le_add_right _ _⟩]
  · rw [if_neg hkey, if_neg fun h => hkey h.1]

/-- The payload of a datagram stands behind its header. -/
theorem length_unsealed {key : UInt8} {buf : List UInt8} {opened : UInt8 × List UInt8}
    (h : unsealed key buf = some opened) : dataHeaderSize + opened.2.length ≤ buf.length := by
  match buf, h with
  | first :: number :: rest, h =>
      simp only [unsealed] at h
      split at h
      · cases h
        simp only [List.length_map, List.length_take, List.length_drop, List.length_cons]
        unfold dataHeaderSize
        omega
      · cases h

/-- Sessions with one peer. Each datagram is accepted once. -/
def SessionLayer.sealing (own peer : UInt8) :
    SessionLayer (Option Nat) (Nat × List UInt8) where
  Metadata := UInt8
  recvMessage _ buf s :=
    match unsealed peer buf with
    | none => (none, buf, s)
    | some (number, payload) =>
        if number ∈ s.2 then (none, buf, s)
        else (some (.read (some 0) payload), overwrite buf dataHeaderSize payload,
          (s.1, s.2 ++ [number]))
  sendMessage id payload s :=
    if id = some 0 ∧ s.1 < 256 then
      (some (.data serverEndpoint (UInt8.ofNat s.1)), payload.map (· + 1), (s.1 + 1, s.2))
    else (none, payload, s)
  turn s := ([], s)
  frameInPlace number buf :=
    if dataHeaderSize + tagFooterSize ≤ buf.length then
      sealed own number ((buf.drop dataHeaderSize).take
        (buf.length - dataHeaderSize - tagFooterSize))
    else buf
  length_recv _ buf s := by
    cases hopened : unsealed peer buf with
    | none => rfl
    | some opened =>
        dsimp only
        split
        · rfl
        · exact length_overwrite (length_unsealed hopened)
  length_send id payload s := by
    split
    · exact List.length_map _
    · rfl
  length_frame number buf := by
    split
    · next hroom =>
        have hcut : ((buf.drop dataHeaderSize).take
            (buf.length - dataHeaderSize - tagFooterSize)).length =
              buf.length - dataHeaderSize - tagFooterSize :=
          List.length_take_of_le (by rw [List.length_drop]; omega)
        simp only [sealed, List.length_cons, List.length_append, List.length_replicate, hcut]
        unfold dataHeaderSize tagFooterSize at *
        omega
    · rfl

theorem SessionLayer.sealing_readsInPlace (own peer : UInt8) :
    (SessionLayer.sealing own peer).ReadsInPlace := by
  intro addr buf s id payload h
  simp only [SessionLayer.sealing] at h ⊢
  cases hopened : unsealed peer buf with
  | none =>
      rw [hopened] at h
      cases h
  | some opened =>
      have hlen := length_unsealed hopened
      rw [hopened] at h
      dsimp only at h ⊢
      split at h
      · cases h
      · next hnew =>
          cases h
          rw [if_neg hnew]
          exact ⟨_, _, rfl, List.length_take_of_le (by omega)⟩

/-- A datagram in which the payload of a call is framed. -/
theorem sealing_frame {own peer number : UInt8} {before ciphertext after : List UInt8}
    (length_before : before.length = dataHeaderSize)
    (length_after : after.length = tagFooterSize) :
    (SessionLayer.sealing own peer).frameInPlace number (before ++ ciphertext ++ after) =
      sealed own number ciphertext := by
  have hlen : (before ++ ciphertext ++ after).length - dataHeaderSize - tagFooterSize =
      ciphertext.length := by
    simp only [List.length_append]
    omega
  have hroom : dataHeaderSize + tagFooterSize ≤ (before ++ ciphertext ++ after).length := by
    simp only [List.length_append]
    omega
  have hcut : ((before ++ ciphertext ++ after).drop dataHeaderSize).take ciphertext.length =
      ciphertext := by
    rw [← length_before, List.append_assoc, List.drop_append_length, List.take_append_length]
  simp only [SessionLayer.sealing, if_pos hroom, hlen, hcut]

theorem sealing_no_reply {own peer : UInt8} {addr : SocketAddr} {d : List UInt8}
    (s : Nat × List UInt8) (reply : List UInt8) :
    ((SessionLayer.sealing own peer).recvMessage addr d s).1 ≠ some (.write reply) := by
  intro h
  simp only [SessionLayer.sealing] at h
  cases hopened : unsealed peer d with
  | none =>
      rw [hopened] at h
      cases h
  | some opened =>
      rw [hopened] at h
      dsimp only at h
      split at h <;> cases h

/-- The key of a host. -/
def hostKey (h : Bool) : UInt8 := if h then 1 else 2

/-- The sessions of the two hosts. -/
def sealingHosts (h : Bool) : SessionLayer (Option Nat) (Nat × List UInt8) :=
  .sealing (hostKey h) (hostKey !h)

/-- A datagram of a host is one of the payloads that it has encrypted, under its number. -/
def SealedBy (h : Bool) (encrypted : List (Option Nat × List UInt8)) (d : List UInt8) : Prop :=
  ∃ i e, encrypted[i]? = some e ∧ i < 256 ∧
    d = sealed (hostKey h) (UInt8.ofNat i) (e.2.map (· + 1))

/-- What a host keeps of its own: the next number, and the datagrams behind the numbers. -/
structure SealsOwn (h : Bool) (y : (Nat × List UInt8) × Record (Option Nat)) : Prop where
  next : y.1.1 = y.2.encrypted.length
  wire : ∀ d ∈ y.2.wire, SealedBy h y.2.encrypted d

/-- What a host has accepted of the other one, each number once. -/
structure AcceptsOnce (encrypted : List (Option Nat × List UInt8))
    (y : (Nat × List UInt8) × Record (Option Nat)) : Prop where
  nodup : y.1.2.Nodup
  accepted : List.Forall₂ (fun number e => ∃ sent, encrypted[number.toNat]? = some sent ∧
    e = (some 0, sent.2)) y.1.2 y.2.decrypted

theorem getElem?_append_of_some {α : Type*} {l : List α} {i : Nat} {a : α} (h : l[i]? = some a)
    (m : List α) : (l ++ m)[i]? = some a := by
  rw [List.getElem?_append_left (List.getElem?_eq_some_iff.mp h).1]
  exact h

theorem SealedBy.append {h : Bool} {encrypted : List (Option Nat × List UInt8)}
    {d : List UInt8} (hd : SealedBy h encrypted d) (more : List (Option Nat × List UInt8)) :
    SealedBy h (encrypted ++ more) d := by
  obtain ⟨i, e, hi, hlt, rfl⟩ := hd
  exact ⟨i, e, getElem?_append_of_some hi more, hlt, rfl⟩

theorem AcceptsOnce.append {encrypted : List (Option Nat × List UInt8)}
    {y : (Nat × List UInt8) × Record (Option Nat)} (hy : AcceptsOnce encrypted y)
    (more : List (Option Nat × List UInt8)) : AcceptsOnce (encrypted ++ more) y := by
  refine ⟨hy.nodup, hy.accepted.imp ?_⟩
  rintro number e ⟨sent, hsent, rfl⟩
  exact ⟨sent, getElem?_append_of_some hsent more, rfl⟩

section Sealing

variable {h : Bool} {encrypted : List (Option Nat × List UInt8)} {s : Nat × List UInt8}
  {r : Record (Option Nat)} {id : Option Nat} {payload d : List UInt8} {addr : SocketAddr}

/-- A host seals a payload for the other one, under the next number, while there is one. -/
theorem sealingHosts_send (hok : id = some 0 ∧ s.1 < 256) :
    (sealingHosts h).sendMessage id payload s =
      (some (.data serverEndpoint (UInt8.ofNat s.1)), payload.map (· + 1), (s.1 + 1, s.2)) :=
  if_pos hok

theorem sealingHosts_refuse (hno : ¬ (id = some 0 ∧ s.1 < 256)) :
    (sealingHosts h).sendMessage id payload s = (none, payload, s) :=
  if_neg hno

/-- What a host puts on the wire after it has sealed a payload is the payload under its number. -/
theorem sealedBy_of_allowed (hown : SealsOwn h (s, r)) (hok : id = some 0 ∧ s.1 < 256)
    (allowed : SendAllows (sealingHosts h) ((sealingHosts h).sendMessage id payload s) d) :
    SealedBy h (r.encrypted ++ [(id, payload)]) d := by
  rw [sealingHosts_send hok] at allowed
  have hnumber : (r.encrypted ++ [(id, payload)])[s.1]? = some (id, payload) := by
    rw [List.getElem?_append_right hown.next.ge, ← hown.next, Nat.sub_self]
    rfl
  refine ⟨s.1, (id, payload), hnumber, hok.2, ?_⟩
  cases allowed with
  | framed answer length_before length_after =>
      cases answer
      exact sealing_frame length_before length_after
  | maintenance answer => cases answer

/-- After a payload that it has refused a host puts nothing on the wire. -/
theorem not_allowed_of_refused (hno : ¬ (id = some 0 ∧ s.1 < 256)) :
    ¬ SendAllows (sealingHosts h) ((sealingHosts h).sendMessage id payload s) d := by
  rw [sealingHosts_refuse hno]
  intro allowed
  cases allowed with
  | framed answer => cases answer
  | maintenance answer => cases answer

/-- A host does not accept its own datagrams. -/
theorem sealingHosts_own (hd : SealedBy h encrypted d) :
    (sealingHosts h).recvMessage addr d s = (none, d, s) := by
  obtain ⟨i, e, -, -, rfl⟩ := hd
  have hopened := unsealed_sealed (hostKey !h) (hostKey h) (UInt8.ofNat i) e.2
  rw [if_neg (by cases h <;> decide)] at hopened
  simp only [sealingHosts, SessionLayer.sealing, hopened]

/-- A datagram of the other host is dropped, or accepted under a number that is new. -/
theorem sealingHosts_other (hd : SealedBy (!h) encrypted d) :
    (sealingHosts h).recvMessage addr d s = (none, d, s) ∨
      ∃ (number : UInt8) (e : Option Nat × List UInt8) (buf : List UInt8),
        encrypted[number.toNat]? = some e ∧ number ∉ s.2 ∧
          (sealingHosts h).recvMessage addr d s =
            (some (.read (some 0) e.2), buf, (s.1, s.2 ++ [number])) := by
  obtain ⟨i, e, hi, hlt, rfl⟩ := hd
  have hopened := unsealed_sealed (hostKey !h) (hostKey !h) (UInt8.ofNat i) e.2
  rw [if_pos rfl] at hopened
  by_cases hseen : UInt8.ofNat i ∈ s.2
  · left
    simp only [sealingHosts, SessionLayer.sealing, hopened, if_pos hseen]
  · have hnumber : (UInt8.ofNat i).toNat = i :=
      UInt8.toNat_ofNat'.trans (Nat.mod_eq_of_lt hlt)
    refine .inr ⟨UInt8.ofNat i, e, overwrite (sealed (hostKey !h) (UInt8.ofNat i)
      (e.2.map (· + 1))) dataHeaderSize e.2, hnumber.symm ▸ hi, hseen, ?_⟩
    simp only [sealingHosts, SessionLayer.sealing, hopened, if_neg hseen]

/-- Accepting a new number keeps the numbers apart. -/
theorem AcceptsOnce.accept (hr : AcceptsOnce encrypted (s, r)) {number : UInt8}
    {e : Option Nat × List UInt8} (hi : encrypted[number.toNat]? = some e)
    (hnew : number ∉ s.2) (wire : List (List UInt8)) :
    AcceptsOnce encrypted ((s.1, s.2 ++ [number]),
      { r with decrypted := r.decrypted ++ [(some 0, e.2)], wire := wire }) := by
  refine ⟨?_, ?_⟩
  · refine List.nodup_append.mpr ⟨hr.nodup, List.pairwise_singleton _ _, ?_⟩
    rintro a ha b hb rfl
    obtain rfl := List.mem_singleton.mp hb
    exact hnew ha
  · exact List.rel_append hr.accepted (.cons ⟨e, hi, rfl⟩ .nil)

end Sealing

/-- A call keeps both, and only adds to what was encrypted. -/
theorem sealing_asks {h : Bool} {arrives : List UInt8 → Prop}
    {encrypted : List (Option Nat × List UInt8)} {x y : (Nat × List UInt8) × Record (Option Nat)}
    (arrived : ∀ d, arrives d → SealedBy h x.2.encrypted d ∨ SealedBy (!h) encrypted d)
    (hown : SealsOwn h x) (haccepts : AcceptsOnce encrypted x)
    (asks : Asks (sealingHosts h) arrives x y) :
    SealsOwn h y ∧ AcceptsOnce encrypted y ∧ ∃ more, y.2.encrypted = x.2.encrypted ++ more := by
  cases asks with
  | @send s r id payload out allowed =>
      by_cases hok : id = some 0 ∧ s.1 < 256
      · have hsealed : ∀ d ∈ out, SealedBy h (r.encrypted ++ [(id, payload)]) d :=
          fun d hd => sealedBy_of_allowed hown hok (allowed d hd)
        rw [sealingHosts_send hok]
        refine ⟨⟨?_, ?_⟩, ⟨haccepts.nodup, haccepts.accepted⟩, _, rfl⟩
        · dsimp only [encryptedBy]
          rw [List.length_append, ← hown.next]
          rfl
        · intro d hd
          rcases List.mem_append.mp hd with hold | hnew
          · exact (hown.wire d hold).append _
          · exact hsealed d hnew
      · have hout : out = [] := List.eq_nil_iff_forall_not_mem.mpr fun d hd =>
          not_allowed_of_refused hok (allowed d hd)
        subst hout
        rw [sealingHosts_refuse hok]
        dsimp only [encryptedBy]
        rw [List.append_nil, List.append_nil]
        exact ⟨hown, haccepts, [], (List.append_nil _).symm⟩
  | @receive s r addr d out hd allowed =>
      have hout : out = [] := by
        apply List.eq_nil_iff_forall_not_mem.mpr
        intro e he
        cases allowed e he with
        | reply answer => exact absurd answer (sealing_no_reply _ _)
      subst hout
      have hanswer : (sealingHosts h).recvMessage addr d s = (none, d, s) ∨ _ :=
        (arrived d hd).elim (fun hmine => .inl (sealingHosts_own hmine)) sealingHosts_other
      rcases hanswer with hnone | ⟨number, e, buf, hi, hnew, hread⟩
      · rw [hnone]
        dsimp only [decryptedBy]
        rw [List.append_nil, List.append_nil]
        exact ⟨hown, haccepts, [], (List.append_nil _).symm⟩
      · rw [hread, List.append_nil]
        exact ⟨⟨hown.next, hown.wire⟩, haccepts.accept hi hnew _, [],
          (List.append_nil _).symm⟩
  | @turn s r out allowed =>
      have hout : out = [] := by
        apply List.eq_nil_iff_forall_not_mem.mpr
        intro d hd
        obtain ⟨msg, hmsg, -⟩ := allowed d hd
        exact List.not_mem_nil hmsg
      subst hout
      rw [List.append_nil]
      exact ⟨hown, haccepts, [], (List.append_nil _).symm⟩

/-- Both hosts keep what they have sealed and accepted. -/
theorem sealing_exchange {x : Bool → (Nat × List UInt8) × Record (Option Nat)}
    (run : Exchange sealingHosts (fun _ => False) (fun _ => (0, [])) x) (h : Bool) :
    SealsOwn h (x h) ∧ AcceptsOnce (x !h).2.encrypted (x h) := by
  induction run generalizing h with
  | start =>
      refine ⟨⟨rfl, ?_⟩, ⟨List.nodup_nil, .nil⟩⟩
      exact fun d hd => absurd hd List.not_mem_nil
  | @ask x run k y asks ih =>
      obtain ⟨hown, haccepts⟩ := ih k
      have harrived : ∀ d, Arrives (fun _ => False) x d →
          SealedBy k (x k).2.encrypted d ∨ SealedBy (!k) (x !k).2.encrypted d := by
        rintro d (⟨j, hd⟩ | hd)
        · have hsealed := (ih j).1.wire d hd
          by_cases hj : j = k
          · exact .inl (hj ▸ hsealed)
          · obtain rfl := Bool.eq_not_of_ne hj
            exact .inr hsealed
        · exact hd.elim
      obtain ⟨hown', haccepts', more, hmore⟩ := sealing_asks harrived hown haccepts asks
      by_cases hh : h = k
      · subst hh
        rw [update_self, update_of_ne (Bool.not_ne_self h)]
        exact ⟨hown', haccepts'⟩
      · obtain rfl := Bool.eq_not_of_ne hh
        rw [update_of_ne (Bool.not_ne_self k), Bool.not_not, update_self, hmore]
        obtain ⟨hother, hothers⟩ := ih !k
        rw [Bool.not_not] at hothers
        exact ⟨hother, hothers.append more⟩

/-- Different positions of a list hold no more items of a kind than the list has. -/
theorem countP_positions_le {α : Type*} {l : List α} {positions : List Nat}
    (hnodup : positions.Nodup) (p : α → Bool) :
    (positions.countP fun i => l[i]?.any p) ≤ l.countP p := by
  have hsubset : positions.filter (fun i => l[i]?.any p) ⊆
      (l.zipIdx.filter fun q => p q.1).map Prod.snd := by
    intro i hi
    have hany := (List.mem_filter.mp hi).2
    cases hitem : l[i]? with
    | none =>
        rw [hitem] at hany
        cases hany
    | some a =>
        rw [hitem] at hany
        exact List.mem_map.mpr ⟨(a, i),
          List.mem_filter.mpr ⟨List.mk_mem_zipIdx_iff_getElem?.mpr hitem, hany⟩, rfl⟩
  calc
    (positions.countP fun i => l[i]?.any p) =
        (positions.filter fun i => l[i]?.any p).length := List.countP_eq_length_filter
    _ ≤ ((l.zipIdx.filter fun q => p q.1).map Prod.snd).length :=
        (List.Nodup.subperm (List.Nodup.filter _ hnodup) hsubset).length_le
    _ = l.zipIdx.countP (fun q => p q.1) := by
        rw [List.length_map, List.countP_eq_length_filter]
    _ = l.countP p := by
        have hfirst : (l.zipIdx.map Prod.fst).countP p = l.zipIdx.countP (fun q => p q.1) :=
          List.countP_map
        rw [← hfirst, List.zipIdx_map_fst]

/-- What is accepted under numbers is what stands at these positions. -/
theorem countP_accepted {encrypted decrypted : List (Option Nat × List UInt8)}
    {numbers : List UInt8} (peer : Option Nat) (payload : List UInt8)
    (h : List.Forall₂ (fun number e => ∃ sent, encrypted[number.toNat]? = some sent ∧
      e = (some 0, sent.2)) numbers decrypted) :
    (decrypted.countP fun e => e.1 = peer ∧ e.2 = payload) ≤
      (numbers.map UInt8.toNat).countP fun i => encrypted[i]?.any fun e => e.2 = payload := by
  induction h with
  | nil => exact Nat.le_refl 0
  | @cons number e numbers decrypted head _ ih =>
      obtain ⟨sent, hsent, rfl⟩ := head
      rw [List.map_cons, List.countP_cons, List.countP_cons, hsent]
      apply Nat.add_le_add ih
      by_cases hpayload : sent.2 = payload
      · simp only [Option.any_some, hpayload, decide_true, if_true]
        split <;> decide
      · simp only [hpayload, and_false, decide_false, Bool.false_eq_true, if_false, Nat.zero_le]

theorem sealingHosts_authentic :
    Authentic sealingHosts (fun _ => False) (fun _ => (0, [])) fun h _ => !h := by
  intro x run h peer payload
  obtain ⟨-, haccepts⟩ := sealing_exchange run h
  have hnumbers : ((x h).1.2.map UInt8.toNat).Nodup :=
    List.Nodup.map (fun a b heq => UInt8.toNat_inj.mp heq) haccepts.nodup
  unfold decryptions encryptions
  simp only [Bool.not_not, true_and]
  exact (countP_accepted peer payload haccepts.accepted).trans (countP_positions_le hnumbers _)

end Sample

end SmartGuard
