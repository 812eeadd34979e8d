import SmartGuard.Card.Handle

/-!
# What a step of the handle and its thread does

Every step of the system is one of a few acts, and each of them says all that its event
requires. What the cache, the channel and the thread make of a step is read off the act.
-/

namespace SmartGuard

open RequestChannel

/-- The one-shot a call waits for, and what it asked. -/
def Caller.awaits : Caller → Option (Nat × CardRequest)
  | .primeSs peerPk reply => some (reply, .dh peerPk)
  | .x25519 peerPk reply => some (reply, .dh peerPk)
  | .pubkey reply => some (reply, .pubKey)
  | _ => none

/-- What an observation does to the entry of a key: a successful prime sets it, and
forgetting the key removes it. -/
def CardSeen.touch (peerPk : Key) : CardSeen → Option Bool
  | .primed pk (.ok _) => if pk = peerPk then some true else none
  | .forgotten pk => if pk = peerPk then some false else none
  | _ => none

/-- The secret that an observation answers. -/
def CardSeen.secret : CardSeen → Option (Key × Key)
  | .answered peerPk (.ok ss) => some (peerPk, ss)
  | _ => none

/-- The observation neither touches the cache nor answers a secret. -/
def CardSeen.Quiet (o : CardSeen) : Prop := (∀ pk, o.touch pk = none) ∧ o.secret = none

/-- The observation is of what happens in the channel. -/
def CardSeen.InChannel : CardSeen → Prop
  | .accepted _ _ => True
  | .served _ _ _ => True
  | .died => True
  | _ => False

/-- The event is neither the serving of a request nor a change of the reader. -/
def CardEvent.Idle {π : Type} : CardEvent π → Prop
  | .serve => False
  | .reader _ => False
  | _ => True

/-- A handle that was opened has no secrets yet and an empty queue. -/
theorem openHandle_ok {Backend Card π : Type} {P : Pcsc Backend Card π} {requestedIdent : Ident}
    {pin : Pin} {s : π} {sys : CardSystem Card π}
    (h : openHandle P requestedIdent pin s = .ok sys) :
    ∃ card ident t, openAndVerify P requestedIdent pin s = (some (.ok (card, ident)), t) ∧
      sys =
        { handle := { ssCache := fun _ => none, ident := ident }
          channel := .new
          caller := .ready
          thread := { card := card, ident := ident, pin := pin }
          reader := t } := by
  unfold openHandle at h
  split at h
  · next card ident t hopen =>
      cases h
      exact ⟨card, ident, t, hopen, rfl⟩
  · cases h
  · cases h

section Halves

theorem sendDh_cases (peerPk : Key) (c : CardChannel) :
    c.alive = true ∧ c.queue.length < maxHandshakeRequest ∧
        sendDh peerPk c = (.ok c.next, c.push (.dh peerPk)) ∨
      ∃ e, sendDh peerPk c = (.error e, c) ∧
        (e = .queueFull ↔ c.alive = true ∧ maxHandshakeRequest ≤ c.queue.length) := by
  unfold sendDh
  rcases Channel.trySend_cases maxHandshakeRequest (.dh peerPk) c with
    ⟨alive, room, h⟩ | ⟨alive, full, h⟩ | ⟨dead, h⟩
  · rw [h]
    exact .inl ⟨alive, room, rfl⟩
  · rw [h]
    exact .inr ⟨_, rfl, fun _ => ⟨alive, full⟩, fun _ => rfl⟩
  · rw [h]
    refine .inr ⟨_, rfl, nofun, fun hfull => ?_⟩
    cases dead.symm.trans hfull.1

theorem received_ok {o : Oneshot (Except SmartcardError Key)} {ss : Key}
    (h : received o = some (.ok ss)) : o = .sent (.ok ss) := by
  cases o with
  | empty => cases h
  | sent result => exact congrArg Oneshot.sent (Option.some.inj h)
  | closed => cases h

theorem received_ne_empty {o : Oneshot (Except SmartcardError Key)}
    {result : Except SmartcardError Key} (h : received o = some result) : o ≠ .empty := by
  rintro rfl
  cases h

end Halves

section Acts

variable {Backend Card π : Type} {P : Pcsc Backend Card π}

/-- What a step does. -/
inductive Acts (P : Pcsc Backend Card π) (sys : CardSystem Card π) :
    CardEvent π → CardSystem Card π → List CardSeen → Prop
  | asked {event : CardEvent π} (hevent : event.Idle) (request : CardRequest) (caller : Caller)
      (hfree : sys.caller.awaits = none) (alive : sys.channel.alive = true)
      (room : sys.channel.queue.length < maxHandshakeRequest)
      (hcaller : caller.awaits = some (sys.channel.next, request)) :
      Acts P sys event { sys with channel := sys.channel.push request, caller := caller }
        [.accepted sys.channel.next request]
  | hit {peerPk ss : Key} (hfree : sys.caller.awaits = none)
      (hcached : sys.handle.ssCache peerPk = some ss) :
      Acts P sys (.x25519 peerPk) sys [.answered peerPk (.ok ss)]
  | forgotten (peerPk : Key) (hfree : sys.caller.awaits = none) :
      Acts P sys (.forgetPeer peerPk) { sys with handle := sys.handle.remove peerPk }
        [.forgotten peerPk]
  | primed {peerPk ss : Key} {reply : Nat} (hcaller : sys.caller = .primeSs peerPk reply)
      (hreply : sys.channel.replies reply = .sent (.ok ss)) :
      Acts P sys .resume { sys with handle := sys.handle.insert peerPk ss, caller := .ready }
        [.primed peerPk (.ok ())]
  | exchanged {peerPk ss : Key} {reply : Nat} (hcaller : sys.caller = .x25519 peerPk reply)
      (hreply : sys.channel.replies reply = .sent (.ok ss)) :
      Acts P sys .resume { sys with caller := .ready } [.answered peerPk (.ok ss)]
  | ended {event : CardEvent π} (hevent : event.Idle) {caller : Caller} {obs : List CardSeen}
      (hended : ∀ t request, sys.caller.awaits = some (t, request) →
        event = .cancel ∨ sys.channel.replies t ≠ .empty)
      (hcaller : caller.awaits = none) (hquiet : ∀ o ∈ obs, o.Quiet)
      (houter : ∀ o ∈ obs, ¬ o.InChannel) :
      Acts P sys event { sys with caller := caller } obs
  | dequeued {c : CardChannel} {obs : List CardSeen} (htake : sys.channel.take = some c)
      (hquiet : ∀ o ∈ obs, o.Quiet) (houter : ∀ o ∈ obs, ¬ o.InChannel) :
      Acts P sys .dequeue { sys with channel := c } obs
  | served {r : Request CardRequest} (htaken : sys.channel.taken = some r) :
      Acts P sys .serve
        { sys with
          channel := sys.channel.answer r htaken (process P sys.thread r.body sys.reader).1
          thread := { sys.thread with card := (process P sys.thread r.body sys.reader).2.1 }
          reader := (process P sys.thread r.body sys.reader).2.2 }
        [.served r.reply r.body (process P sys.thread r.body sys.reader).1]
  | died : Acts P sys .die { sys with channel := sys.channel.close } [.died]
  | reader (s : π) : Acts P sys (.reader s) { sys with reader := s } []

variable {sys sys' : CardSystem Card π} {obs : List CardSeen}

/-- A call that is not waiting can end. -/
theorem ended_of_free {event : CardEvent π} (hfree : sys.caller.awaits = none) (t : Nat)
    (request : CardRequest) (hawaits : sys.caller.awaits = some (t, request)) :
    event = .cancel ∨ sys.channel.replies t ≠ .empty := by
  cases hfree.symm.trans hawaits

/-- A call that has its reply can end. -/
theorem ended_of_filled {event : CardEvent π} {reply : Nat} {asked : CardRequest}
    (hcaller : sys.caller.awaits = some (reply, asked))
    (hreply : sys.channel.replies reply ≠ .empty) (t : Nat) (request : CardRequest)
    (hawaits : sys.caller.awaits = some (t, request)) :
    event = .cancel ∨ sys.channel.replies t ≠ .empty := by
  obtain ⟨rfl, -⟩ := Prod.mk.inj (Option.some.inj (hcaller.symm.trans hawaits))
  exact .inr hreply

theorem primeSs_acts (hfree : sys.caller.awaits = none) (peerPk : Key) :
    Acts P sys (.primeSs peerPk) (primeSs peerPk sys).1 (primeSs peerPk sys).2 := by
  unfold primeSs
  rcases sendDh_cases peerPk sys.channel with ⟨alive, room, h⟩ | ⟨e, h, -⟩
  · rw [h]
    exact .asked (by trivial) (.dh peerPk) (.primeSs peerPk sys.channel.next) hfree alive room rfl
  · rw [h]
    exact .ended (by trivial) (ended_of_free hfree) hfree
      (by simp [CardSeen.Quiet, CardSeen.touch, CardSeen.secret]) (by simp [CardSeen.InChannel])

theorem asyncX25519_acts (hfree : sys.caller.awaits = none) (peerPk : Key) :
    Acts P sys (.x25519 peerPk) (asyncX25519 peerPk sys).1 (asyncX25519 peerPk sys).2 := by
  unfold asyncX25519
  split
  · next ss hcached => exact .hit hfree hcached
  · rcases sendDh_cases peerPk sys.channel with ⟨alive, room, h⟩ | ⟨e, h, -⟩
    · rw [h]
      exact .asked (by trivial) (.dh peerPk) (.x25519 peerPk sys.channel.next) hfree alive room rfl
    · rw [h]
      exact .ended (by trivial) (ended_of_free hfree) hfree
        (by simp [CardSeen.Quiet, CardSeen.touch, CardSeen.secret]) (by simp [CardSeen.InChannel])

theorem asyncX25519Pubkey_acts (hfree : sys.caller.awaits = none) :
    Acts P sys .pubkey (asyncX25519Pubkey sys).1 (asyncX25519Pubkey sys).2 := by
  have hrefused : Acts P sys .pubkey { sys with caller := .panicked }
      [.refused .pubKey, .panicked] :=
    .ended (by trivial) (ended_of_free hfree) rfl
      (by simp [CardSeen.Quiet, CardSeen.touch, CardSeen.secret]) (by simp [CardSeen.InChannel])
  unfold asyncX25519Pubkey
  rcases Channel.trySend_cases maxHandshakeRequest CardRequest.pubKey sys.channel with
    ⟨alive, room, h⟩ | ⟨-, -, h⟩ | ⟨-, h⟩
  · rw [h]
    exact .asked (by trivial) .pubKey (.pubkey sys.channel.next) hfree alive room rfl
  · rw [h]
    exact hrefused
  · rw [h]
    exact hrefused

/-- A call whose one-shot is filled or closed may end with what is no secret. -/
theorem resume_ended {reply : Nat} {asked : CardRequest} {caller : Caller}
    (hawaits : sys.caller.awaits = some (reply, asked))
    (hreply : sys.channel.replies reply ≠ .empty) (hcaller : caller.awaits = none) {o : CardSeen}
    (hquiet : o.Quiet) (houter : ¬ o.InChannel) :
    Acts P sys .resume { sys with caller := caller } [o] :=
  .ended (by trivial) (ended_of_filled hawaits hreply) hcaller
    (List.forall_mem_singleton.mpr hquiet) (List.forall_mem_singleton.mpr houter)

theorem resume_acts (h : resume sys = some (sys', obs)) : Acts P sys .resume sys' obs := by
  unfold resume at h
  split at h
  · next peerPk reply hcaller =>
      have hawaits : sys.caller.awaits = some (reply, .dh peerPk) := by rw [hcaller]; rfl
      split at h
      · cases h
      · next ss hreply =>
          cases h
          exact .primed hcaller (received_ok hreply)
      · next e hreply =>
          cases h
          exact resume_ended hawaits (received_ne_empty hreply) rfl
            ⟨fun _ => rfl, rfl⟩ id
  · next peerPk reply hcaller =>
      have hawaits : sys.caller.awaits = some (reply, .dh peerPk) := by rw [hcaller]; rfl
      split at h
      · cases h
      · next ss hreply =>
          cases h
          exact .exchanged hcaller (received_ok hreply)
      · next e hreply =>
          cases h
          exact resume_ended hawaits (received_ne_empty hreply) rfl
            ⟨fun _ => rfl, rfl⟩ id
  · next reply hcaller =>
      have hawaits : sys.caller.awaits = some (reply, .pubKey) := by rw [hcaller]; rfl
      split at h
      · cases h
      · next key hreply =>
          cases h
          exact resume_ended hawaits (by rw [hreply]; exact nofun) rfl ⟨fun _ => rfl, rfl⟩ id
      · next hempty hreply =>
          cases h
          exact resume_ended hawaits hempty rfl ⟨fun _ => rfl, rfl⟩ id
  · cases h

theorem cancel_acts (h : cancel sys = some (sys', obs)) : Acts P sys .cancel sys' obs := by
  unfold cancel at h
  split at h
  · cases h
  · cases h
  · cases h
    exact .ended (by trivial) (fun _ _ _ => .inl rfl) rfl nofun nofun

theorem dequeue_acts (h : dequeue sys = some (sys', obs)) : Acts P sys .dequeue sys' obs := by
  obtain ⟨c, htake, hout⟩ := Option.map_eq_some_iff.mp h
  cases hout
  apply Acts.dequeued htake
  · intro o ho
    obtain ⟨r, -, rfl⟩ := Option.map_eq_some_iff.mp (Option.mem_toList.mp ho)
    exact ⟨fun _ => rfl, rfl⟩
  · intro o ho
    obtain ⟨r, -, rfl⟩ := Option.map_eq_some_iff.mp (Option.mem_toList.mp ho)
    exact id

theorem serve_acts (h : serve P sys = some (sys', obs)) : Acts P sys .serve sys' obs := by
  unfold serve at h
  split at h
  · cases h
  · next r htaken =>
      cases h
      exact .served htaken

theorem serve_eq {r : Request CardRequest} (htaken : sys.channel.taken = some r) :
    serve P sys = some
      ({ sys with
          channel := sys.channel.answer r htaken (process P sys.thread r.body sys.reader).1
          thread := { sys.thread with card := (process P sys.thread r.body sys.reader).2.1 }
          reader := (process P sys.thread r.body sys.reader).2.2 },
        [.served r.reply r.body (process P sys.thread r.body sys.reader).1]) := by
  unfold serve
  split
  · next hnone => cases hnone.symm.trans htaken
  · next r' htaken' =>
      obtain rfl := Option.some.inj (htaken'.symm.trans htaken)
      rfl

/-- Every step is one of the acts. -/
theorem cardStep_acts {event : CardEvent π} (h : cardStep P event sys = some (sys', obs)) :
    Acts P sys event sys' obs := by
  have hfree : sys.caller = .ready → sys.caller.awaits = none := fun hready => by rw [hready]; rfl
  unfold cardStep at h
  split at h
  · next peerPk hready =>
      obtain ⟨rfl, rfl⟩ := Prod.ext_iff.mp (Option.some.inj h)
      exact primeSs_acts (hfree hready) peerPk
  · next peerPk hready =>
      cases h
      exact .forgotten peerPk (hfree hready)
  · next peerPk hready =>
      obtain ⟨rfl, rfl⟩ := Prod.ext_iff.mp (Option.some.inj h)
      exact asyncX25519_acts (hfree hready) peerPk
  · next hready =>
      obtain ⟨rfl, rfl⟩ := Prod.ext_iff.mp (Option.some.inj h)
      exact asyncX25519Pubkey_acts (hfree hready)
  · exact resume_acts h
  · exact cancel_acts h
  · exact dequeue_acts h
  · exact serve_acts h
  · cases h
    exact .died
  · cases h
    exact .reader _
  · cases h

end Acts

end SmartGuard
