import SmartGuard.Card.Cache

/-!
# The protocol between the callers and the thread

Requests wait in the queue in the order of their acceptance, and the thread serves them
in that order. Callers that go away change nothing of it: the books of the channel, what
was accepted and what was served, are read off the log of every run.
-/

namespace SmartGuard

open EventRun RequestChannel

/-- The request that an observation accepts. -/
def CardSeen.accepts : CardSeen → Option (Request CardRequest)
  | .accepted reply request => some ⟨request, reply⟩
  | _ => none

/-- The request that an observation serves, with the reply. -/
def CardSeen.serves : CardSeen → Option (Request CardRequest × Option (Except SmartcardError Key))
  | .served reply request result => some (⟨request, reply⟩, result)
  | _ => none

section Traffic

variable {Backend Card π : Type} {P : Pcsc Backend Card π}

/-- What a step does to the channel, the thread and the reader. -/
inductive Traffic (P : Pcsc Backend Card π) (sys : CardSystem Card π) :
    CardEvent π → CardSystem Card π → List CardSeen → Prop
  | asked {event : CardEvent π} (hevent : event.Idle) (request : CardRequest) (caller : Caller)
      (hfree : sys.caller.awaits = none) (alive : sys.channel.alive = true)
      (room : sys.channel.queue.length < maxHandshakeRequest)
      (hcaller : caller.awaits = some (sys.channel.next, request)) :
      Traffic P sys event { sys with channel := sys.channel.push request, caller := caller }
        [.accepted sys.channel.next request]
  | idle {event : CardEvent π} (hevent : event.Idle) {handle : CardHandle} {caller : Caller}
      {obs : List CardSeen}
      (hended : ∀ t request, sys.caller.awaits = some (t, request) →
        event = .cancel ∨ sys.channel.replies t ≠ .empty)
      (hcaller : caller.awaits = none)
      (hquiet : ∀ o ∈ obs, ¬ o.InChannel) :
      Traffic P sys event { sys with handle := handle, caller := caller } obs
  | dequeued {c : CardChannel} {obs : List CardSeen} (htake : sys.channel.take = some c)
      (hquiet : ∀ o ∈ obs, ¬ o.InChannel) :
      Traffic P sys .dequeue { sys with channel := c } obs
  | served {r : Request CardRequest} (htaken : sys.channel.taken = some r) :
      Traffic P sys .serve
        { sys with
          channel := sys.channel.answer r htaken (process P sys.thread r.body sys.reader).1
          thread := { sys.thread with card := (process P sys.thread r.body sys.reader).2.1 }
          reader := (process P sys.thread r.body sys.reader).2.2 }
        [.served r.reply r.body (process P sys.thread r.body sys.reader).1]
  | died : Traffic P sys .die { sys with channel := sys.channel.close } [.died]
  | reader (s : π) : Traffic P sys (.reader s) { sys with reader := s } []

theorem cardStep_traffic {event : CardEvent π} {sys sys' : CardSystem Card π}
    {obs : List CardSeen} (h : cardStep P event sys = some (sys', obs)) :
    Traffic P sys event sys' obs := by
  cases cardStep_acts h with
  | asked hevent request caller hfree alive room hcaller =>
      exact .asked hevent request caller hfree alive room hcaller
  | hit hfree hcached =>
      exact .idle (by trivial) (ended_of_free hfree) hfree (List.forall_mem_singleton.mpr id)
  | forgotten peerPk hfree =>
      exact .idle (by trivial) (ended_of_free hfree) hfree (List.forall_mem_singleton.mpr id)
  | @primed peerPk ss reply hcaller hreply =>
      have hawaits : sys.caller.awaits = some (reply, .dh peerPk) := by rw [hcaller]; rfl
      have hfilled : sys.channel.replies reply ≠ .empty := by rw [hreply]; exact nofun
      exact .idle (by trivial) (ended_of_filled hawaits hfilled) rfl
        (List.forall_mem_singleton.mpr id)
  | @exchanged peerPk ss reply hcaller hreply =>
      have hawaits : sys.caller.awaits = some (reply, .dh peerPk) := by rw [hcaller]; rfl
      have hfilled : sys.channel.replies reply ≠ .empty := by rw [hreply]; exact nofun
      exact .idle (by trivial) (ended_of_filled hawaits hfilled) rfl
        (List.forall_mem_singleton.mpr id)
  | ended hevent hended hcaller hquiet houter => exact .idle hevent hended hcaller houter
  | dequeued htake hquiet houter => exact .dequeued htake houter
  | served htaken => exact .served htaken
  | died => exact .died
  | reader s => exact .reader s

/-- What is not in the channel serves nothing. -/
theorem serves_of_not_inChannel {o : CardSeen} (h : ¬ o.InChannel) : o.serves = none := by
  cases o with
  | served reply request result => exact absurd trivial h
  | _ => rfl

/-- An idle event leaves the thread and the reader alone. -/
theorem Traffic.rested {event : CardEvent π} {sys sys' : CardSystem Card π}
    {obs : List CardSeen} (h : Traffic P sys event sys' obs) (hevent : event.Idle) :
    sys'.thread = sys.thread ∧ sys'.reader = sys.reader ∧ ∀ o ∈ obs, o.serves = none := by
  cases h with
  | asked => exact ⟨rfl, rfl, List.forall_mem_singleton.mpr rfl⟩
  | idle _ _ _ hquiet =>
      exact ⟨rfl, rfl, fun o ho => serves_of_not_inChannel (hquiet o ho)⟩
  | dequeued htake hquiet =>
      exact ⟨rfl, rfl, fun o ho => serves_of_not_inChannel (hquiet o ho)⟩
  | served htaken => exact hevent.elim
  | died => exact ⟨rfl, rfl, List.forall_mem_singleton.mpr rfl⟩
  | reader s => exact hevent.elim

end Traffic

section Books

/-- The requests that a log accepts. -/
def accepted (log : List CardSeen) : List (Request CardRequest) := log.filterMap CardSeen.accepts

/-- The requests that a log serves. -/
def served (log : List CardSeen) : List (Request CardRequest) :=
  (log.filterMap CardSeen.serves).map Prod.fst

variable {Backend Card π : Type} {P : Pcsc Backend Card π}

/-- The log keeps the books of the channel, and the call that waits is in them. -/
structure Books (sys : CardSystem Card π) (log : List CardSeen) : Prop where
  ledger : Ledger sys.channel (accepted log) (log.filterMap CardSeen.serves)
  bounded : sys.channel.queue.length ≤ maxHandshakeRequest
  awaited : ∀ t request, sys.caller.awaits = some (t, request) → ⟨request, t⟩ ∈ accepted log
  alive : .died ∉ log → sys.channel.alive = true

theorem accepted_append (log obs : List CardSeen) :
    accepted (log ++ obs) = accepted log ++ accepted obs := List.filterMap_append

/-- What is not in the channel is not in the books. -/
theorem books_of_quiet {obs : List CardSeen} (h : ∀ o ∈ obs, ¬ o.InChannel) :
    accepted obs = [] ∧ obs.filterMap CardSeen.serves = [] := by
  constructor
  · apply List.filterMap_eq_nil_iff.mpr
    intro o ho
    cases o with
    | accepted reply request => exact absurd trivial (h _ ho)
    | _ => rfl
  · apply List.filterMap_eq_nil_iff.mpr
    exact fun o ho => serves_of_not_inChannel (h o ho)

theorem Books.quiet {sys : CardSystem Card π} {log obs : List CardSeen} (h : Books sys log)
    (hobs : ∀ o ∈ obs, ¬ o.InChannel) : Books sys (log ++ obs) := by
  obtain ⟨hno, hserves⟩ := books_of_quiet hobs
  refine ⟨?_, h.bounded, ?_, fun hlog => h.alive ?_⟩
  · rw [accepted_append, List.filterMap_append, hno, hserves, List.append_nil, List.append_nil]
    exact h.ledger
  · rw [accepted_append, hno, List.append_nil]
    exact h.awaited
  · exact fun hmem => hlog (List.mem_append_left obs hmem)

theorem Books.step {sys sys' : CardSystem Card π} {log obs : List CardSeen} (h : Books sys log)
    {event : CardEvent π} (next : Traffic P sys event sys' obs) : Books sys' (log ++ obs) := by
  cases next with
  | asked hevent request caller hfree alive room hcaller =>
      refine ⟨?_, ?_, ?_, fun _ => alive⟩
      · rw [accepted_append, List.filterMap_append]
        simpa [accepted, CardSeen.accepts, CardSeen.serves, List.filterMap_cons] using
          h.ledger.push alive request
      · have hlength : (sys.channel.push request).queue.length = sys.channel.queue.length + 1 :=
          List.length_append
        rw [hlength]
        exact room
      · intro t request' hawaits
        obtain ⟨rfl, rfl⟩ := Prod.mk.inj (Option.some.inj (hcaller.symm.trans hawaits))
        rw [accepted_append]
        exact List.mem_append_right _ List.mem_cons_self
  | @idle _ _ handle caller obs hended hcaller hquiet =>
      have hidle : Books { sys with handle := handle, caller := caller } log := by
        refine ⟨h.ledger, h.bounded, fun t request hawaits => ?_, h.alive⟩
        cases hcaller.symm.trans hawaits
      exact hidle.quiet hquiet
  | @dequeued c obs htake hquiet =>
      have htaken : Books { sys with channel := c } log := by
        refine ⟨h.ledger.take htake, ?_, h.awaited, ?_⟩
        · exact (Channel.length_take htake).trans h.bounded
        · exact fun hlog => (Channel.alive_take htake).trans (h.alive hlog)
      exact htaken.quiet hquiet
  | @served r htaken =>
      refine ⟨?_, h.bounded, ?_, fun _ => h.ledger.alive_of_taken htaken⟩
      · rw [accepted_append, List.filterMap_append]
        simpa [accepted, CardSeen.accepts, CardSeen.serves, List.filterMap_cons] using
          h.ledger.answer htaken _
      · rw [accepted_append]
        simpa [accepted, CardSeen.accepts, List.filterMap_cons] using h.awaited
  | died =>
      refine ⟨?_, Nat.zero_le _, ?_, ?_⟩
      · rw [accepted_append, List.filterMap_append]
        simpa [accepted, CardSeen.accepts, CardSeen.serves, List.filterMap_cons]
          using h.ledger.close
      · rw [accepted_append]
        simpa [accepted, CardSeen.accepts, List.filterMap_cons] using h.awaited
      · exact fun hlog => absurd (List.mem_append_right log List.mem_cons_self) hlog
  | reader s =>
      rw [List.append_nil]
      exact ⟨h.ledger, h.bounded, h.awaited, h.alive⟩

theorem Books.opened {requestedIdent : Ident} {pin : Pin} {s : π} {sys : CardSystem Card π}
    (h : openHandle P requestedIdent pin s = .ok sys) : Books sys [] := by
  obtain ⟨card, ident, t, hopen, rfl⟩ := openHandle_ok h
  exact ⟨.new, Nat.zero_le _, nofun, fun _ => rfl⟩

theorem Books.run {sys₀ sys : CardSystem Card π} {log : List CardSeen} (h : Books sys₀ [])
    (run : Run (cardStep P) sys₀ sys log) : Books sys log := by
  induction run with
  | start => exact h
  | step run next ih => exact ih.step (cardStep_traffic next)

end Books

section Protocol

variable {Backend Card π : Type} {P : Pcsc Backend Card π} {requestedIdent : Ident} {pin : Pin}
  {s₀ : π} {sys₀ sys : CardSystem Card π} {log : List CardSeen}

end Protocol

section Sample

end Sample

end SmartGuard
