import SmartGuard.Tunnel.Loop

/-!
# What the sessions are asked and the socket is given

The observations of the loop are its own account of what it did. Here the sessions and the
socket keep records of their own, and the account is compared with them: a keepalive is
observed exactly when the sessions are asked for an empty payload, a packet is observed
only if they were asked to encrypt one, and whatever they answer is handed to the socket.
-/

namespace SmartGuard

open Buffer StateLoop TimedRun

variable {PeerId κ τ σ ω : Type}

section Packet

variable (T : Tunnel PeerId τ σ ω) (st : LoopState PeerId τ σ ω) (bytes : List UInt8)

/-- The tunnel buffer after a read, and where the read ends. -/
def readInto : List UInt8 × Nat :=
  let read := bytes.take (st.tunBuffer.length - T.platform.tunBufStart)
  (overwrite st.tunBuffer T.platform.tunBufStart read, T.platform.tunBufStart + read.length)

/-- The handler's result for a packet of the device. -/
def handled : Handled τ :=
  handleIntern T.layer T.platform T.peerNet (readInto T st bytes).1 (readInto T st bytes).2
    st.sessions

variable {T st bytes} {now : Nat}

/-- A packet ends the loop exactly if the handler leaves its buffer. -/
theorem onPacket_eq_none_iff :
    onPacket T now bytes st = none ↔ (handled T st bytes).write = none := by
  unfold onPacket handled readInto
  dsimp only
  split
  · next h => simp only [h]
  · next h =>
      rw [h]
      split <;> simp only [reduceCtorEq]
  · next h => simp only [h, reduceCtorEq]

/-- A packet leaves the sessions and the buffer as the handler does, and the socket is given
what the handler asks for. -/
theorem onPacket_cases {st' : LoopState PeerId τ σ ω} {obs : List (Seen PeerId)}
    (h : onPacket T now bytes st = some (st', obs)) :
    st'.sessions = (handled T st bytes).sessions ∧ st'.tunBuffer = (handled T st bytes).buf ∧
      ((∃ data dst, (handled T st bytes).write = some (.outbound data dst) ∧
          st'.world = (T.outside.sendTo data dst st.world).2 ∧
          (obs = ((packetPeer T (readInto T st bytes).1 (readInto T st bytes).2).map
              (Seen.sent now · dst)).toList ∨ obs = [.rechecked now])) ∨
        ((∀ data dst, (handled T st bytes).write ≠ some (.outbound data dst)) ∧
          st'.world = st.world ∧ obs = [])) := by
  simp only [onPacket] at h
  split at h
  · cases h
  · next data dst hwrite =>
      split at h <;> cases h
      · exact ⟨rfl, rfl, .inl ⟨data, dst, hwrite, rfl, .inl rfl⟩⟩
      · exact ⟨rfl, rfl, .inl ⟨data, dst, hwrite, rfl, .inr rfl⟩⟩
  · next write hnot hwrite =>
      cases h
      refine ⟨rfl, rfl, .inr ⟨?_, rfl, rfl⟩⟩
      intro data dst hsent
      exact hnot data dst (Option.some.inj (hwrite.symm.trans hsent))

end Packet

section Records

/-- What the socket and the device were given. -/
structure Given where
  sent : List (List UInt8 × SocketAddr)
  written : List (List UInt8)

def Given.nothing : Given := ⟨[], []⟩

/-- The datagrams that the socket was given. -/
def Given.datagrams (given : Given) : List (List UInt8) := given.sent.map Prod.fst

/-- A socket and a device that keep what they are given. -/
def Outside.logged (O : Outside ω) : Outside (ω × Given) where
  sendTo data addr w :=
    let out := O.sendTo data addr w.1
    (out.1, out.2, { w.2 with sent := w.2.sent ++ [(data, addr)] })
  writeAll data w :=
    let out := O.writeAll data w.1
    (out.1, out.2, { w.2 with written := w.2.written ++ [data] })

def Setting.logged (g : Setting PeerId κ τ σ ω) : Setting PeerId κ τ σ (ω × Given) :=
  { g with outside := g.outside.logged }

/-- Sessions that start with an empty record. -/
def Registry.logged (R : Registry PeerId κ τ) : Registry PeerId κ (τ × List (Asked PeerId)) where
  sentinal := R.sentinal
  insertPeer := R.insertPeer
  newWith config := (R.newWith config, [])

/-- The same configuration with records of the sessions, the socket and the device. -/
def Setting.recorded (g : Setting PeerId κ τ σ ω) :
    Setting PeerId κ (τ × List (Asked PeerId)) σ (ω × Given) :=
  { g with
    registry := g.registry.logged
    layer := g.layer.logged
    outside := g.outside.logged }

end Records

section Accounts

def Asked.isKeepalive (a : Asked PeerId) : Bool := a.payload.isEmpty

/-- The peer that a keepalive is attempted for. -/
def Seen.keptAlive? : Seen PeerId → Option PeerId
  | .keepalive _ _ peer => some peer
  | _ => none

/-- The peer of a packet that is sent, and where it goes. -/
def Seen.packet? : Seen PeerId → Option (PeerId × SocketAddr)
  | .sent _ peer dst => some (peer, dst)
  | _ => none

/-- A log accounts for what the sessions were asked and what the socket was given. -/
structure Accounts (asked : List (Asked PeerId)) (sent : List (List UInt8 × SocketAddr))
    (log : List (Seen PeerId)) : Prop where
  keepalives : (asked.filter Asked.isKeepalive).map Asked.peer = log.filterMap Seen.keptAlive?
  packets : (log.filterMap Seen.packet?).Sublist
    ((asked.filter fun a => ¬ a.isKeepalive).filterMap fun a => a.dst.map (a.peer, ·))
  socket : (asked.filterMap Asked.dst).Sublist (sent.map Prod.snd)

theorem Accounts.nil : Accounts ([] : List (Asked PeerId)) [] [] :=
  ⟨rfl, .refl _, .refl _⟩

theorem Accounts.append {asked asked' : List (Asked PeerId)}
    {sent sent' : List (List UInt8 × SocketAddr)} {log log' : List (Seen PeerId)}
    (h : Accounts asked sent log) (h' : Accounts asked' sent' log') :
    Accounts (asked ++ asked') (sent ++ sent') (log ++ log') where
  keepalives := by
    rw [List.filter_append, List.map_append, List.filterMap_append, h.keepalives, h'.keepalives]
  packets := by
    rw [List.filterMap_append, List.filter_append, List.filterMap_append]
    exact h.packets.append h'.packets
  socket := by
    rw [List.filterMap_append, List.map_append]
    exact h.socket.append h'.socket

/-- What is observed is neither a keepalive nor a packet. -/
theorem Accounts.of_rechecked {now : Nat} {log : List (Seen PeerId)}
    (h : ∀ o ∈ log, o = .rechecked now) (sent : List (List UInt8 × SocketAddr)) :
    Accounts [] sent log := by
  have hkept : log.filterMap Seen.keptAlive? = [] := by
    rw [List.filterMap_eq_nil_iff]
    intro o ho
    rw [h o ho]
    rfl
  have hpacket : log.filterMap Seen.packet? = [] := by
    rw [List.filterMap_eq_nil_iff]
    intro o ho
    rw [h o ho]
    rfl
  exact ⟨hkept.symm, hpacket ▸ List.nil_sublist _, List.nil_sublist _⟩

/-- The records and the log of a tunnel. -/
abbrev Ledger (PeerId τ ω : Type) : Type :=
  ((τ × List (Asked PeerId)) × (ω × Given)) × List (Seen PeerId)

/-- From one state of the records and the log to another, what was added to the log accounts
for what was added to the records. -/
def Accounted (a b : Ledger PeerId τ ω) : Prop :=
  ∃ asked sent obs, b.1.1.2 = a.1.1.2 ++ asked ∧ b.1.2.2.sent = a.1.2.2.sent ++ sent ∧
    b.2 = a.2 ++ obs ∧ Accounts asked sent obs

theorem Accounted.refl (a : Ledger PeerId τ ω) : Accounted a a :=
  ⟨[], [], [], (List.append_nil _).symm, (List.append_nil _).symm, (List.append_nil _).symm, .nil⟩

theorem Accounted.trans {a b c : Ledger PeerId τ ω} (h : Accounted a b) (h' : Accounted b c) :
    Accounted a c := by
  obtain ⟨asked, sent, obs, hasked, hsent, hobs, haccounts⟩ := h
  obtain ⟨asked', sent', obs', hasked', hsent', hobs', haccounts'⟩ := h'
  refine ⟨asked ++ asked', sent ++ sent', obs ++ obs', ?_, ?_, ?_, haccounts.append haccounts'⟩
  · rw [hasked', hasked, List.append_assoc]
  · rw [hsent', hsent, List.append_assoc]
  · rw [hobs', hobs, List.append_assoc]

end Accounts

section Steps

variable (T : Tunnel PeerId τ σ ω)

/-- The same tunnel with records of the sessions, the socket and the device. -/
def Tunnel.recorded : Tunnel PeerId (τ × List (Asked PeerId)) σ (ω × Given) where
  layer := T.layer.logged
  platform := T.platform
  kernel := T.kernel
  outside := T.outside.logged
  trie := T.trie
  peerNet := T.peerNet
  endpointToIdx := T.endpointToIdx
  hostRouteIdx := T.hostRouteIdx

/-- The records and the log in a state. -/
def LoopState.ledger (st : LoopState PeerId (τ × List (Asked PeerId)) σ (ω × Given))
    (log : List (Seen PeerId)) : Ledger PeerId τ ω := ((st.sessions, st.world), log)

variable {T}

/-- A keepalive is observed, asked for and handed to the socket. -/
theorem sendKeepalive_accounted (now slot : Nat) (id : PeerId)
    (a : (τ × List (Asked PeerId)) × (ω × Given)) (log : List (Seen PeerId)) :
    Accounted (a, log) ((sendKeepalive T.recorded now slot id a).1,
      log ++ (sendKeepalive T.recorded now slot id a).2) := by
  obtain ⟨⟨s, asked⟩, world, given⟩ := a
  rcases hsend : T.layer.sendMessage id [] s with ⟨answer, bytes, t⟩
  have hkept : ∀ dst : Option SocketAddr, ∀ sent : List (List UInt8 × SocketAddr),
      dst.toList.Sublist (sent.map Prod.snd) →
      Accounts [⟨id, [], dst⟩] sent [.keepalive now slot id] := by
    intro dst sent hsent
    refine ⟨rfl, List.nil_sublist _, ?_⟩
    cases dst with
    | none => exact hsent
    | some dst => exact hsent
  match answer, hsend with
  | none, hsend =>
      refine ⟨_, [], _, ?_, ?_, ?_, hkept none [] (.refl _)⟩ <;>
        simp [sendKeepalive, Tunnel.recorded, SessionLayer.logged, hsend]
  | some (.maintenance msg), hsend =>
      refine ⟨_, _, _, ?_, ?_, ?_, hkept (some msg.dst) [(msg.data, msg.dst)] (.refl _)⟩ <;>
        simp [sendKeepalive, Tunnel.recorded, SessionLayer.logged, Outside.logged, hsend,
          SendMessage.dst]
  | some (.data ep metadata), hsend =>
      refine ⟨_, _, _, ?_, ?_, ?_, hkept (some ep) [(T.layer.frameInPlace metadata
        (List.replicate (dataHeaderSize + tagFooterSize) 0), ep)] (.refl _)⟩ <;>
        simp [sendKeepalive, Tunnel.recorded, SessionLayer.logged, Outside.logged, hsend,
          SendMessage.dst]

/-- The loop over the slots asks for the keepalives that it observes, and for no others. -/
theorem keepAlives_accounted (now : Nat) (slots : List (PeerRuntime PeerId × Nat))
    (a : Ledger PeerId τ ω) :
    Accounted a (mapState (keepAlive T.recorded now) slots a).2 := by
  apply mapState_rel Accounted.refl Accounted.trans
  intro p _ a
  unfold keepAlive
  split
  · exact sendKeepalive_accounted now p.2 p.1.id a.1 a.2
  · exact .refl a

/-- What is sent without asking the sessions needs no account. -/
theorem Accounted.of_sent {a b : Ledger PeerId τ ω} (now : Nat) {obs : List (Seen PeerId)}
    (sent : List (List UInt8 × SocketAddr)) (hasked : b.1.1.2 = a.1.1.2)
    (hsent : b.1.2.2.sent = a.1.2.2.sent ++ sent) (hlog : b.2 = a.2 ++ obs)
    (hobs : ∀ o ∈ obs, o = .rechecked now) : Accounted a b :=
  ⟨[], sent, obs, hasked.trans (List.append_nil _).symm, hsent, hlog, .of_rechecked hobs sent⟩

theorem sendAll_sent (msgs : List MaintenanceMsg) (w : ω × Given) :
    (sendAll T.recorded msgs w).2.sent = w.2.sent ++ msgs.map fun msg => (msg.data, msg.dst) := by
  unfold sendAll
  induction msgs generalizing w with
  | nil => exact (List.append_nil _).symm
  | cons msg rest ih =>
      rw [List.foldl_cons, ih]
      simp [Tunnel.recorded, Outside.logged]

theorem onTick_accounted (now : Nat)
    (st : LoopState PeerId (τ × List (Asked PeerId)) σ (ω × Given)) :
    Accounted (st.ledger [])
      ((onTick T.recorded now st).1.ledger (onTick T.recorded now st).2) := by
  have hloop : ∀ checked : List (Seen PeerId), (∀ o ∈ checked, o = .rechecked now) →
      Accounted (st.ledger []) (mapState (keepAlive T.recorded now) st.peerRt.zipIdx
        (((T.recorded.layer.turn st.sessions).2,
          sendAll T.recorded (T.recorded.layer.turn st.sessions).1 st.world), checked)).2 := by
    intro checked hchecked
    refine Accounted.trans ?_ (keepAlives_accounted now st.peerRt.zipIdx _)
    exact .of_sent now _ rfl (sendAll_sent _ _) rfl hchecked
  unfold onTick
  cases hostTorn T.recorded st with
  | true => exact hloop [.rechecked now] fun o ho => List.mem_singleton.mp ho
  | false => exact hloop [] fun o ho => absurd ho List.not_mem_nil

variable {now : Nat} {st st' : LoopState PeerId (τ × List (Asked PeerId)) σ (ω × Given)}
  {obs : List (Seen PeerId)}

theorem onDatagram_accounted [DecidableEq PeerId] {addr : SocketAddr} {bytes : List UInt8}
    (next : onDatagram T.recorded now addr bytes st = some (st', obs)) :
    Accounted (st.ledger []) (st'.ledger obs) := by
  have hasked : (handleExtern T.recorded.layer T.recorded.platform T.recorded.peerNet addr
      (bytes.take endpointBufferSize) st.sessions).sessions.2 = st.sessions.2 := by
    rw [handleExtern_sessions]
    rfl
  unfold onDatagram at next
  dsimp only at next
  split at next
  · cases next
  · split at next
    · cases next
      exact .of_sent now [] hasked (List.append_nil _).symm rfl
        fun o ho => absurd ho List.not_mem_nil
    · cases next
  · next data dst hwrite =>
      split at next
      · cases next
        exact .of_sent now [(data, addr)] hasked rfl rfl
          fun o ho => absurd ho List.not_mem_nil
      · cases next
        exact .of_sent now [(data, addr)] hasked rfl rfl fun o ho => List.mem_singleton.mp ho
  · cases next
    exact .of_sent now [] hasked (List.append_nil _).symm rfl
      fun o ho => absurd ho List.not_mem_nil

theorem SessionLayer.asked_of_send (S : SessionLayer PeerId τ) {id : PeerId}
    {payload bytes : List UInt8} {s t : τ × List (Asked PeerId)}
    {send : Option (SendMessage S.Metadata)}
    (h : S.logged.sendMessage id payload s = (send, bytes, t)) :
    t.2 = s.2 ++ [⟨id, payload, send.map SendMessage.dst⟩] := by
  obtain rfl : (S.logged.sendMessage id payload s).2.2 = t := by rw [h]
  obtain rfl : (S.logged.sendMessage id payload s).1 = send := by rw [h]
  rfl

/-- What the sessions are asked to encrypt goes where they say. -/
theorem accounts_packet (now : Nat) {peer : PeerId} {payload data : List UInt8} {dst : SocketAddr}
    (hne : payload ≠ []) (hobs : obs = [.sent now peer dst] ∨ obs = [.rechecked now]) :
    Accounts [⟨peer, payload, some dst⟩] [(data, dst)] obs := by
  have hkind : Asked.isKeepalive ⟨peer, payload, some dst⟩ = false :=
    List.isEmpty_eq_false_iff.mpr hne
  refine ⟨?_, ?_, .refl _⟩
  · rcases hobs with rfl | rfl <;> simp [hkind, Seen.keptAlive?]
  · rcases hobs with rfl | rfl
    · simp [hkind, Seen.packet?]
    · exact List.nil_sublist _

theorem accounts_refused {peer : PeerId} {payload : List UInt8} (hne : payload ≠ []) :
    Accounts [⟨peer, payload, none⟩] [] [] := by
  have hkind : Asked.isKeepalive ⟨peer, payload, none⟩ = false :=
    List.isEmpty_eq_false_iff.mpr hne
  exact ⟨by simp [hkind], List.nil_sublist _, List.nil_sublist _⟩

/-- A packet that is sent is one that the sessions were asked for. -/
theorem onPacket_accounted {bytes : List UInt8}
    (next : onPacket T.recorded now bytes st = some (st', obs)) :
    Accounted (st.ledger []) (st'.ledger obs) := by
  have hsome : (handled T.recorded st bytes).write ≠ none := by
    intro hnone
    rw [onPacket_eq_none_iff.mpr hnone] at next
    cases next
  obtain ⟨hsessions, -, hworld⟩ := onPacket_cases next
  have hintake := handleIntern_intake hsome
  rw [← handled, ← hsessions] at hintake
  generalize (handled T.recorded st bytes).write = write at hworld hintake
  generalize hasked : st'.sessions = sessions at hintake
  cases hintake with
  | dropped =>
      rcases hworld with ⟨data, dst, hwrite, -⟩ | ⟨-, hworld, rfl⟩
      · cases hwrite
      · refine .of_sent now [] (congrArg Prod.snd hasked) ?_ rfl ?_
        · rw [LoopState.ledger, hworld]
          exact (List.append_nil _).symm
        · exact fun o ho => absurd ho List.not_mem_nil
  | refused hdst hne answer =>
      rcases hworld with ⟨data, dst, hwrite, -⟩ | ⟨-, hworld, rfl⟩
      · cases hwrite
      · have hcall := T.layer.asked_of_send answer
        refine ⟨_, [], [], (congrArg Prod.snd hasked).trans hcall, ?_, rfl, accounts_refused hne⟩
        rw [LoopState.ledger, hworld]
        exact (List.append_nil _).symm
  | sent hdst hne data answer =>
      rcases hworld with ⟨data', dst', hwrite, hworld, hobs⟩ | ⟨hnot, -⟩
      · obtain ⟨rfl, rfl⟩ := Write.outbound.inj (Option.some.inj hwrite)
        have hcall := T.layer.asked_of_send answer
        refine ⟨_, [(data, _)], obs, (congrArg Prod.snd hasked).trans hcall, ?_, rfl,
          accounts_packet now hne ?_⟩
        · rw [LoopState.ledger, hworld]
          rfl
        · refine hobs.imp_left fun hsent => ?_
          rw [hsent, packetPeer, hdst]
          rfl
      · exact absurd rfl (hnot data _)

/-- Every step accounts for what it asks and sends. -/
theorem step_accounted [DecidableEq PeerId] {event : Event σ}
    (next : step T.recorded now event st = some (st', obs)) :
    Accounted (st.ledger []) (st'.ledger obs) := by
  cases event with
  | tick =>
      cases next
      exact onTick_accounted now st
  | datagram addr bytes => exact onDatagram_accounted next
  | packet bytes => exact onPacket_accounted next
  | environment routes =>
      cases next
      exact .refl _
  | interrupted cause => cases next

/-- What was observed before changes nothing. -/
theorem Accounted.after {a b : (τ × List (Asked PeerId)) × (ω × Given)}
    {obs : List (Seen PeerId)} (h : Accounted (a, []) (b, obs)) (log : List (Seen PeerId)) :
    Accounted (a, log) (b, log ++ obs) := by
  obtain ⟨asked, sent, obs', hasked, hsent, hobs, haccounts⟩ := h
  exact ⟨asked, sent, obs', hasked, hsent, congrArg (log ++ ·) hobs, haccounts⟩

/-- In every run with records the log accounts for what the sessions were asked and the socket
was given. -/
theorem run_accounted [DecidableEq PeerId] {g : Setting PeerId κ τ σ ω} {t₀ t : Nat} {routes : σ}
    {world : ω} {st : LoopState PeerId (τ × List (Asked PeerId)) σ (ω × Given)}
    {log : List (Seen PeerId)}
    (run : Run (step (launch g.recorded t₀ routes (world, .nothing)).1) t₀
      (launch g.recorded t₀ routes (world, .nothing)).2 t st log) :
    Accounted ((launch g.recorded t₀ routes (world, .nothing)).2.ledger []) (st.ledger log) := by
  let up := launch g.recorded t₀ routes (world, .nothing)
  let T : Tunnel PeerId τ σ ω :=
    { layer := g.layer, platform := g.platform, kernel := g.kernel, outside := g.outside,
      trie := g.trie, peerNet := up.1.peerNet, endpointToIdx := up.1.endpointToIdx,
      hostRouteIdx := up.1.hostRouteIdx }
  have run : Run (step T.recorded) t₀ up.2 t st log := run
  refine run.invariant (I := fun _ st log => Accounted (up.2.ledger []) (st.ledger log))
    (.refl _) ?_
  intro t st log now event st' obs haccounted _ next
  exact haccounted.trans ((step_accounted next).after log)

end Steps

end SmartGuard
