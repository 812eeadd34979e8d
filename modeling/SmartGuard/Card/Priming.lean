import SmartGuard.Card.Cache
import SmartGuard.Session.Build

/-!
# From the PIN to primed peers

`run_smartcard` gets the PIN, opens the card, asks for its public key and primes every
peer, one call after the other, while the thread of the card serves. Then the tunnel
starts. A prime that fails is a warning.

## Implementation notes

No future of the start is dropped, and no other call is made, but the thread may die and
the reader may change its state at any time. The texts that are printed are left out.
-/

namespace SmartGuard

open EventRun RequestChannel

section Program

/-- Where a PIN comes from: the terminal and the variables of the environment. -/
structure PinSource where
  prompt : Except String Pin
  var : String → Except String Pin

def obtainPin (source : PinSource) (pinEntry : String) : Except String Pin :=
  if pinEntry = "prompt" then source.prompt
  else
    match pinEntry.toList.dropPrefix? "env:".toList with
    | some varName => source.var (String.ofList varName)
    | none => .error ("unsupported pin_entry method: " ++ pinEntry)

/-- The calls that are made of the card before the tunnel starts. -/
inductive PrimingCall
  | pubkey
  | primeSs (peerPk : Key)

def PrimingCall.event {π : Type} : PrimingCall → CardEvent π
  | pubkey => .pubkey
  | .primeSs peerPk => .primeSs peerPk

/-- The start between the opening of the card and the tunnel: the calls yet to be made. -/
structure Priming (Card π : Type) where
  sys : CardSystem Card π
  calls : List PrimingCall

/-- The next call is made, or something else happens to the card, its thread or the call
that waits. -/
inductive PrimingEvent (π : Type)
  | call
  | resume
  | dequeue
  | serve
  | die
  | reader (s : π)

/-- The event of the card that an event of the start is, if it is none of its calls. -/
def PrimingEvent.card {π : Type} : PrimingEvent π → Option (CardEvent π)
  | call => none
  | resume => some .resume
  | dequeue => some .dequeue
  | serve => some .serve
  | die => some .die
  | reader s => some (.reader s)

inductive StartError
  | pin (message : String)
  | card (e : SmartcardError)

variable {Backend Card π : Type} (P : Pcsc Backend Card π)

def primingStep (event : PrimingEvent π) (st : Priming Card π) :
    Option (Priming Card π × List CardSeen) :=
  match event.card, st.calls with
  | some cardEvent, calls =>
      (cardStep P cardEvent st.sys).map fun out => (⟨out.1, calls⟩, out.2)
  | none, call :: rest =>
      (cardStep P call.event st.sys).map fun out => (⟨out.1, rest⟩, out.2)
  | none, [] => none

/-- The start up to the first call: the PIN is got and the card is open. -/
def runSmartcard (source : PinSource) (ident : Ident) (pinEntry : String)
    (peers : List PeerConfig) (s : π) : Except StartError (Priming Card π) :=
  match obtainPin source pinEntry with
  | .error message => .error (.pin message)
  | .ok pin =>
      match openHandle P ident pin s with
      | .error e => .error (.card e)
      | .ok sys => .ok ⟨sys, .pubkey :: peers.map fun p => .primeSs p.publicKey⟩

end Program

section Steps

variable {Backend Card π : Type} {P : Pcsc Backend Card π}

/-- A step makes the next call, or is a step of the card beside the calls. -/
theorem primingStep_cases {event : PrimingEvent π} {st st' : Priming Card π}
    {obs : List CardSeen} (next : primingStep P event st = some (st', obs)) :
    (∃ call, event.card = none ∧ st.calls = call :: st'.calls ∧
      cardStep P call.event st.sys = some (st'.sys, obs)) ∨
    ∃ cardEvent, event.card = some cardEvent ∧ st'.calls = st.calls ∧
      cardStep P cardEvent st.sys = some (st'.sys, obs) := by
  rw [primingStep] at next
  cases hcard : event.card with
  | some cardEvent =>
      rw [hcard] at next
      obtain ⟨out, hout, heq⟩ := Option.map_eq_some_iff.mp next
      obtain ⟨rfl, rfl⟩ := Prod.mk.inj heq
      exact .inr ⟨cardEvent, rfl, rfl, hout⟩
  | none =>
      cases hcalls : st.calls with
      | nil =>
          rw [hcard, hcalls] at next
          cases next
      | cons call rest =>
          rw [hcard, hcalls] at next
          obtain ⟨out, hout, heq⟩ := Option.map_eq_some_iff.mp next
          obtain ⟨rfl, rfl⟩ := Prod.mk.inj heq
          exact .inl ⟨call, rfl, rfl, hout⟩

/-- The start is a run of the card and its thread. -/
theorem priming_run {st st' : Priming Card π} {log : List CardSeen}
    (run : Run (primingStep P) st st' log) : Run (cardStep P) st.sys st'.sys log := by
  induction run with
  | start => exact .start
  | step run next ih =>
      rcases primingStep_cases next with ⟨call, -, -, hcall⟩ | ⟨cardEvent, -, -, hcard⟩
      · exact ih.step hcall
      · exact ih.step hcard

/-- No request is left behind: a call that waits has the only request without an answer, or
has its answer, and otherwise there is no such request. -/
structure Tidy (sys : CardSystem Card π) : Prop where
  free : sys.caller.awaits = none → sys.channel.pending = []
  waits : ∀ t request, sys.caller.awaits = some (t, request) →
    sys.channel.pending = [⟨request, t⟩] ∧ sys.channel.replies t = .empty ∨
      sys.channel.pending = [] ∧ sys.channel.replies t ≠ .empty

theorem Tidy.opened {requestedIdent : Ident} {pin : Pin} {s : π} {sys : CardSystem Card π}
    (h : openHandle P requestedIdent pin s = .ok sys) : Tidy sys := by
  obtain ⟨card, ident, t, -, rfl⟩ := openHandle_ok h
  exact ⟨fun _ => rfl, fun _ _ hawaits => by cases hawaits⟩

/-- The call that waits has its answer, so nothing is pending. -/
theorem Tidy.answered {sys : CardSystem Card π} (h : Tidy sys) {t : Nat} {request : CardRequest}
    (hawaits : sys.caller.awaits = some (t, request)) (hreply : sys.channel.replies t ≠ .empty) :
    sys.channel.pending = [] := by
  rcases h.waits t request hawaits with ⟨-, hempty⟩ | ⟨hpending, -⟩
  · exact absurd hempty hreply
  · exact hpending

/-- Serving leaves no request behind. -/
theorem Tidy.served {sys : CardSystem Card π} (h : Tidy sys) {r : Request CardRequest}
    (htaken : sys.channel.taken = some r) {t : Nat} {request : CardRequest}
    (hawaits : sys.caller.awaits = some (t, request)) (out : Option (Except SmartcardError Key)) :
    (sys.channel.answer r htaken out).pending = [] ∧
      (sys.channel.answer r htaken out).replies t ≠ .empty := by
  have hmem := Channel.taken_mem_pending htaken
  rcases h.waits t request hawaits with ⟨hpending, -⟩ | ⟨hpending, -⟩
  · rw [hpending] at hmem
    obtain rfl := List.mem_singleton.mp hmem
    have hqueue : sys.channel.queue = [] := by
      rw [Channel.pending, htaken] at hpending
      exact (List.cons.inj hpending).2
    refine ⟨hqueue, ?_⟩
    rw [Channel.replies_answer, Function.update_self]
    intro hreply
    cases out <;> cases hreply
  · rw [hpending] at hmem
    exact absurd hmem List.not_mem_nil

/-- Every act but dropping the call that waits leaves no request behind. -/
theorem Tidy.acts {sys sys' : CardSystem Card π} {event : CardEvent π} {obs : List CardSeen}
    (h : Tidy sys) (hevent : event ≠ .cancel) (hacts : Acts P sys event sys' obs) : Tidy sys' := by
  cases hacts with
  | asked _ request caller hfree alive room hcaller =>
      refine ⟨fun hnone => (by cases hcaller.symm.trans hnone), fun t request' hawaits => ?_⟩
      obtain ⟨rfl, rfl⟩ := Prod.mk.inj (Option.some.inj (hcaller.symm.trans hawaits))
      left
      constructor
      · rw [Channel.pending_push, h.free hfree]
        rfl
      · by_contra hreply
        exact Nat.lt_irrefl _ (sys.channel.unanswered _ hreply).1
  | hit => exact h
  | forgotten => exact ⟨h.free, h.waits⟩
  | @primed peerPk ss reply hcaller hreply =>
      have hawaits : sys.caller.awaits = some (reply, .dh peerPk) := by rw [hcaller]; rfl
      refine ⟨fun _ => h.answered hawaits ?_, fun _ _ hready => by cases hready⟩
      intro hempty
      cases hreply.symm.trans hempty
  | @exchanged peerPk ss reply hcaller hreply =>
      have hawaits : sys.caller.awaits = some (reply, .dh peerPk) := by rw [hcaller]; rfl
      refine ⟨fun _ => h.answered hawaits ?_, fun _ _ hready => by cases hready⟩
      intro hempty
      cases hreply.symm.trans hempty
  | ended _ hended hcaller hquiet houter =>
      refine ⟨fun _ => ?_, fun t request hawaits => by cases hcaller.symm.trans hawaits⟩
      cases hawaits : sys.caller.awaits with
      | none => exact h.free hawaits
      | some asked =>
          rcases hended asked.1 asked.2 hawaits with hcancel | hreply
          · exact absurd hcancel hevent
          · exact h.answered hawaits hreply
  | dequeued htake hquiet houter =>
      refine ⟨fun hnone => ?_, fun t request hawaits => ?_⟩
      · rw [Channel.pending_take htake]
        exact h.free hnone
      · rw [Channel.pending_take htake, Channel.replies_take htake]
        exact h.waits t request hawaits
  | @served r htaken =>
      refine ⟨fun hnone => ?_, fun t request hawaits => .inr (h.served htaken hawaits _)⟩
      have hmem := Channel.taken_mem_pending htaken
      rw [h.free hnone] at hmem
      exact absurd hmem List.not_mem_nil
  | died =>
      refine ⟨fun _ => rfl, fun t request hawaits => .inr ⟨rfl, ?_⟩⟩
      rw [Channel.replies_close]
      rcases h.waits t request hawaits with ⟨hpending, -⟩ | ⟨hpending, hreply⟩
      · rw [hpending, List.map_singleton, if_pos (List.mem_singleton.mpr rfl)]
        intro hempty
        cases hempty
      · rw [hpending, List.map_nil, if_neg List.not_mem_nil]
        exact hreply
  | reader s => exact ⟨h.free, h.waits⟩

theorem PrimingEvent.card_ne_cancel {event : PrimingEvent π} {cardEvent : CardEvent π}
    (h : event.card = some cardEvent) : cardEvent ≠ .cancel := by
  rintro rfl
  cases event with
  | call | resume | dequeue | serve | die | reader => cases h

theorem PrimingCall.event_ne_cancel (call : PrimingCall) :
    (call.event : CardEvent π) ≠ .cancel := by
  intro h
  cases call <;> cases h

theorem Tidy.step {event : PrimingEvent π} {st st' : Priming Card π} {obs : List CardSeen}
    (h : Tidy st.sys) (next : primingStep P event st = some (st', obs)) : Tidy st'.sys := by
  rcases primingStep_cases next with ⟨call, -, -, hcall⟩ | ⟨cardEvent, hevent, -, hcard⟩
  · exact h.acts call.event_ne_cancel (cardStep_acts hcall)
  · exact h.acts (PrimingEvent.card_ne_cancel hevent) (cardStep_acts hcard)

end Steps

section Calls

variable {Backend Card π : Type} {P : Pcsc Backend Card π} {sys sys' : CardSystem Card π}
  {obs : List CardSeen}

def PrimingCall.request : PrimingCall → CardRequest
  | pubkey => .pubKey
  | .primeSs peerPk => .dh peerPk

/-- The call that waits once the request is accepted. -/
def PrimingCall.waiting (reply : Nat) : PrimingCall → Caller
  | pubkey => .pubkey reply
  | .primeSs peerPk => .primeSs peerPk reply

/-- What the program does after the request is refused. -/
def PrimingCall.refused : PrimingCall → Caller
  | pubkey => .panicked
  | .primeSs _ => .ready

/-- The peer that a call primes. -/
def PrimingCall.key : PrimingCall → Option Key
  | pubkey => none
  | .primeSs peerPk => some peerPk

/-- The peer that was primed, whatever came of it. -/
def CardSeen.primedKey : CardSeen → Option Key
  | .primed peerPk _ => some peerPk
  | _ => none

/-- How a call begins: its request is accepted, or refused at once. -/
inductive Called (call : PrimingCall) (sys : CardSystem Card π) :
    CardSystem Card π → List CardSeen → Prop
  | accepted (room : sys.channel.queue.length < maxHandshakeRequest) :
      Called call sys
        { sys with
          channel := sys.channel.push call.request
          caller := call.waiting sys.channel.next }
        [.accepted sys.channel.next call.request]
  | refused {obs : List CardSeen}
      (hfull : sys.channel.alive = true → maxHandshakeRequest ≤ sys.channel.queue.length)
      (hprimed : obs.filterMap CardSeen.primedKey = call.key.toList) :
      Called call sys { sys with caller := call.refused } obs

theorem call_called {call : PrimingCall} (h : cardStep P call.event sys = some (sys', obs)) :
    sys.caller = .ready ∧ Called call sys sys' obs := by
  obtain ⟨handle, channel, caller, thread, reader⟩ := sys
  cases call with
  | pubkey =>
      cases caller with
      | ready =>
          obtain hcall := Option.some.inj h
          refine ⟨rfl, ?_⟩
          unfold asyncX25519Pubkey at hcall
          rcases Channel.trySend_cases maxHandshakeRequest CardRequest.pubKey channel with
            ⟨-, room, hsend⟩ | ⟨-, full, hsend⟩ | ⟨dead, hsend⟩
          · simp only [hsend] at hcall
            obtain ⟨rfl, rfl⟩ := Prod.mk.inj hcall
            exact .accepted room
          · simp only [hsend] at hcall
            obtain ⟨rfl, rfl⟩ := Prod.mk.inj hcall
            exact .refused (fun _ => full) rfl
          · simp only [hsend] at hcall
            obtain ⟨rfl, rfl⟩ := Prod.mk.inj hcall
            exact .refused (fun alive => by cases dead.symm.trans alive) rfl
      | primeSs | x25519 | pubkey | panicked => cases h
  | primeSs peerPk =>
      cases caller with
      | ready =>
          obtain hcall := Option.some.inj h
          refine ⟨rfl, ?_⟩
          unfold primeSs sendDh at hcall
          rcases Channel.trySend_cases maxHandshakeRequest (.dh peerPk) channel with
            ⟨-, room, hsend⟩ | ⟨-, full, hsend⟩ | ⟨dead, hsend⟩
          · simp only [hsend] at hcall
            obtain ⟨rfl, rfl⟩ := Prod.mk.inj hcall
            exact .accepted room
          · simp only [hsend] at hcall
            obtain ⟨rfl, rfl⟩ := Prod.mk.inj hcall
            exact .refused (fun _ => full) rfl
          · simp only [hsend] at hcall
            obtain ⟨rfl, rfl⟩ := Prod.mk.inj hcall
            exact .refused (fun alive => by cases dead.symm.trans alive) rfl
      | primeSs | x25519 | pubkey | panicked => cases h

end Calls

section Progress

variable {Backend Card π : Type} {P : Pcsc Backend Card π} {sys sys' : CardSystem Card π}
  {obs : List CardSeen}

/-- The event is work of the program or the thread. -/
def PrimingEvent.works : PrimingEvent π → Bool
  | die => false
  | reader _ => false
  | _ => true

/-- The work on requests and replies that is left. -/
def CardSystem.work (sys : CardSystem Card π) : Nat :=
  2 * sys.channel.queue.length + sys.channel.taken.toList.length +
    sys.caller.awaits.toList.length

/-- What is left of the start: a call is made, taken, served and resumed. -/
def Priming.left (st : Priming Card π) : Nat := 4 * st.calls.length + st.sys.work

theorem dequeue_work (h : dequeue sys = some (sys', obs)) : sys'.work + 1 = sys.work := by
  obtain ⟨c, htake, hout⟩ := Option.map_eq_some_iff.mp h
  obtain ⟨rfl, -⟩ := Prod.mk.inj hout
  obtain ⟨r, rest, htaken, hqueue, htaken', hqueue', -⟩ := Channel.take_spec htake
  simp only [CardSystem.work, htaken, hqueue, htaken', hqueue', List.length_cons,
    Option.toList_none, Option.toList_some, List.length_nil]
  omega

theorem serve_work (h : serve P sys = some (sys', obs)) : sys'.work + 1 = sys.work := by
  cases serve_acts h with
  | asked hevent => exact absurd hevent id
  | ended hevent => exact absurd hevent id
  | served htaken =>
      simp only [CardSystem.work, Channel.answer, htaken, Option.toList_none, Option.toList_some,
        List.length_singleton, List.length_nil]
      omega

/-- The peer that the call that waits is priming. -/
def Caller.priming : Caller → Option Key
  | .primeSs peerPk _ => some peerPk
  | _ => none

/-- What a call does that goes on: it waited and does no more, leaves the channel alone, and
is reported if it primed a peer. -/
structure Resumed (sys sys' : CardSystem Card π) (obs : List CardSeen) : Prop where
  waited : sys.caller.awaits.isSome
  free : sys'.caller = .ready ∨ sys'.caller = .panicked
  channel : sys'.channel = sys.channel
  primed : obs.filterMap CardSeen.primedKey = sys.caller.priming.toList
  taken : ∀ request, .refused request ∉ obs

theorem resume_resumed (h : resume sys = some (sys', obs)) : Resumed sys sys' obs := by
  obtain ⟨handle, channel, caller, thread, reader⟩ := sys
  cases caller with
  | ready | panicked => cases h
  | primeSs peerPk reply =>
      simp only [resume] at h
      split at h
      · cases h
      · cases h
        exact ⟨rfl, .inl rfl, rfl, rfl, by simp⟩
      · cases h
        exact ⟨rfl, .inl rfl, rfl, rfl, by simp⟩
  | x25519 peerPk reply =>
      simp only [resume] at h
      split at h
      · cases h
      · cases h
        exact ⟨rfl, .inl rfl, rfl, rfl, by simp⟩
      · cases h
        exact ⟨rfl, .inl rfl, rfl, rfl, by simp⟩
  | pubkey reply =>
      simp only [resume] at h
      split at h
      · cases h
      · cases h
        exact ⟨rfl, .inl rfl, rfl, rfl, by simp⟩
      · cases h
        exact ⟨rfl, .inr rfl, rfl, rfl, by simp⟩

theorem resume_work (h : resume sys = some (sys', obs)) : sys'.work + 1 = sys.work := by
  have hresumed := resume_resumed h
  obtain ⟨asked, hasked⟩ := Option.isSome_iff_exists.mp hresumed.waited
  have hfree : sys'.caller.awaits = none := by
    rcases hresumed.free with hready | hpanicked
    · rw [hready]
      rfl
    · rw [hpanicked]
      rfl
  simp only [CardSystem.work, hasked, hfree, hresumed.channel, Option.toList_none,
    Option.toList_some, List.length_singleton, List.length_nil]

theorem close_work (sys : CardSystem Card π) :
    ({ sys with channel := sys.channel.close } : CardSystem Card π).work ≤ sys.work := by
  simp only [CardSystem.work, Channel.close, Option.toList_none, List.length_nil]
  omega

theorem call_work {call : PrimingCall} (h : cardStep P call.event sys = some (sys', obs)) :
    sys'.work ≤ sys.work + 3 := by
  obtain ⟨hready, hcalled⟩ := call_called h
  cases hcalled with
  | accepted room =>
      have hwaits : (call.waiting sys.channel.next).awaits.toList.length ≤ 1 :=
        Option.length_toList_le
      simp only [CardSystem.work, Channel.push, List.length_append, List.length_singleton]
      omega
  | refused hfull hprimed =>
      have hfree : call.refused.awaits = none := by cases call <;> rfl
      simp only [CardSystem.work, hfree, Option.toList_none, List.length_nil]
      omega

/-- Work leaves less to do, and nothing else leaves more. -/
theorem left_step {event : PrimingEvent π} {st st' : Priming Card π}
    (next : primingStep P event st = some (st', obs)) :
    st'.left + (if event.works then 1 else 0) ≤ st.left := by
  rcases primingStep_cases next with
    ⟨call, hevent, hcalls, hcall⟩ | ⟨cardEvent, hevent, hcalls, hcard⟩
  · have hwork := call_work hcall
    have hone : (if event.works then 1 else 0) ≤ 1 := by split <;> omega
    rw [Priming.left, Priming.left, hcalls, List.length_cons]
    omega
  · rw [Priming.left, Priming.left, hcalls]
    cases event with
    | call => cases hevent
    | resume =>
        obtain rfl := Option.some.inj hevent
        have hwork := resume_work hcard
        simp only [PrimingEvent.works, if_true]
        omega
    | dequeue =>
        obtain rfl := Option.some.inj hevent
        have hwork := dequeue_work hcard
        simp only [PrimingEvent.works, if_true]
        omega
    | serve =>
        obtain rfl := Option.some.inj hevent
        have hwork := serve_work hcard
        simp only [PrimingEvent.works, if_true]
        omega
    | die =>
        obtain rfl := Option.some.inj hevent
        have hsys : _ = st'.sys := congrArg Prod.fst (Option.some.inj hcard)
        rw [← hsys]
        exact Nat.add_le_add_left (close_work st.sys) _
    | reader s =>
        obtain rfl := Option.some.inj hevent
        have hsys : _ = st'.sys := congrArg Prod.fst (Option.some.inj hcard)
        rw [← hsys]
        exact Nat.le_refl _

/-- In any schedule the work that is done is bounded by the work there was. -/
theorem works_bounded {events : List (PrimingEvent π)} {st st' : Priming Card π}
    {log : List CardSeen} (h : exec (primingStep P) events st = some (st', log)) :
    events.countP PrimingEvent.works + st'.left ≤ st.left := by
  induction events generalizing st log with
  | nil =>
      obtain ⟨rfl, -⟩ := Prod.mk.inj (Option.some.inj h)
      exact Nat.le_of_eq (Nat.zero_add _)
  | cons event rest ih =>
      rw [exec] at h
      split at h
      · cases h
      · next mid obs next =>
          obtain ⟨out, hout, heq⟩ := Option.map_eq_some_iff.mp h
          obtain ⟨rfl, -⟩ := Prod.mk.inj heq
          have hstep := left_step next
          have hrest := ih hout
          rw [List.countP_cons]
          omega

/-- The calls are over, and the tunnel starts. -/
def Priming.Finished (st : Priming Card π) : Prop := st.calls = [] ∧ st.sys.caller = .ready

theorem isSome_of_cardStep {event : PrimingEvent π} {cardEvent : CardEvent π}
    {st : Priming Card π} (hevent : event.card = some cardEvent)
    (h : (cardStep P cardEvent st.sys).isSome) : (primingStep P event st).isSome := by
  rw [primingStep, hevent]
  exact (Option.isSome_map).trans h

/-- A call whose one-shot is no longer empty goes on. -/
theorem resume_isSome {t : Nat} {request : CardRequest}
    (hawaits : sys.caller.awaits = some (t, request)) (hreply : sys.channel.replies t ≠ .empty) :
    (resume sys).isSome := by
  obtain ⟨handle, channel, caller, thread, reader⟩ := sys
  have hreceived : (received (channel.replies t)).isSome := by
    cases hone : channel.replies t with
    | empty => exact absurd hone hreply
    | sent result => rfl
    | closed => rfl
  obtain ⟨result, hresult⟩ := Option.isSome_iff_exists.mp hreceived
  cases caller with
  | ready | panicked => cases hawaits
  | primeSs peerPk reply =>
      obtain ⟨rfl, -⟩ := Prod.mk.inj (Option.some.inj hawaits)
      simp only [resume, hresult]
      cases result <;> rfl
  | x25519 peerPk reply =>
      obtain ⟨rfl, -⟩ := Prod.mk.inj (Option.some.inj hawaits)
      simp only [resume, hresult]
      cases result <;> rfl
  | pubkey reply =>
      obtain ⟨rfl, -⟩ := Prod.mk.inj (Option.some.inj hawaits)
      simp only [resume]
      split
      · next hempty => exact absurd hempty hreply
      · rfl
      · rfl

/-- A start that is not over, and did not panic, can go on with its work. -/
theorem can_work {st : Priming Card π} (h : Tidy st.sys) (hfinished : ¬ st.Finished)
    (hpanicked : st.sys.caller ≠ .panicked) :
    ∃ event : PrimingEvent π, event.works = true ∧ (primingStep P event st).isSome := by
  cases hawaits : st.sys.caller.awaits with
  | none =>
      have hready : st.sys.caller = .ready := by
        cases hcaller : st.sys.caller with
        | ready => rfl
        | panicked => exact absurd hcaller hpanicked
        | primeSs | x25519 | pubkey =>
            rw [hcaller] at hawaits
            cases hawaits
      cases hcalls : st.calls with
      | nil => exact absurd ⟨hcalls, hready⟩ hfinished
      | cons call rest =>
          refine ⟨.call, rfl, ?_⟩
          have hcall : (cardStep P call.event st.sys).isSome := by
            cases call <;> simp only [PrimingCall.event, cardStep, hready, Option.isSome_some]
          rw [primingStep, hcalls]
          exact (Option.isSome_map).trans hcall
  | some asked =>
      obtain ⟨t, request⟩ := asked
      rcases h.waits t request hawaits with ⟨hpending, -⟩ | ⟨-, hreply⟩
      · cases htaken : st.sys.channel.taken with
        | none =>
            have hqueue : st.sys.channel.queue = [⟨request, t⟩] := by
              rw [Channel.pending, htaken] at hpending
              exact hpending
            obtain ⟨c, htake, -⟩ := Channel.take_of_queue htaken hqueue
            refine ⟨.dequeue, rfl, isSome_of_cardStep rfl ?_⟩
            simp only [cardStep, dequeue, htake, Option.map_some, Option.isSome_some]
        | some r =>
            refine ⟨.serve, rfl, isSome_of_cardStep rfl ?_⟩
            exact (congrArg Option.isSome (serve_eq htaken)).trans rfl
      · exact ⟨.resume, rfl, isSome_of_cardStep rfl (resume_isSome hawaits hreply)⟩

end Progress

section Primed

variable {Backend Card π : Type} {P : Pcsc Backend Card π}

/-- The peers of a start, in order: those that were primed, the one that is being primed,
and those whose turn comes. -/
def Priming.keys (st : Priming Card π) (log : List CardSeen) : List Key :=
  log.filterMap CardSeen.primedKey ++ st.sys.caller.priming.toList ++
    st.calls.filterMap PrimingCall.key

/-- Beside the calls, a peer is reported when the call that primes it goes on, and no request
is refused. -/
theorem beside_calls {event : PrimingEvent π} {cardEvent : CardEvent π}
    {sys sys' : CardSystem Card π} {obs : List CardSeen} (hevent : event.card = some cardEvent)
    (h : cardStep P cardEvent sys = some (sys', obs)) :
    obs.filterMap CardSeen.primedKey ++ sys'.caller.priming.toList =
        sys.caller.priming.toList ∧
      ∀ request, .refused request ∉ obs := by
  cases event with
  | call => cases hevent
  | resume =>
      obtain rfl := Option.some.inj hevent
      have hresumed := resume_resumed h
      refine ⟨?_, hresumed.taken⟩
      rw [hresumed.primed]
      rcases hresumed.free with hready | hpanicked
      · rw [hready]
        exact List.append_nil _
      · rw [hpanicked]
        exact List.append_nil _
  | dequeue =>
      obtain rfl := Option.some.inj hevent
      obtain ⟨c, -, hout⟩ := Option.map_eq_some_iff.mp h
      obtain ⟨rfl, rfl⟩ := Prod.mk.inj hout
      cases c.taken with
      | none => exact ⟨rfl, by simp⟩
      | some r => exact ⟨rfl, by simp⟩
  | serve =>
      obtain rfl := Option.some.inj hevent
      cases serve_acts h with
      | asked hidle => exact absurd hidle id
      | ended hidle => exact absurd hidle id
      | served htaken => exact ⟨rfl, by simp⟩
  | die =>
      obtain rfl := Option.some.inj hevent
      obtain ⟨rfl, rfl⟩ := Prod.mk.inj (Option.some.inj h)
      exact ⟨rfl, by simp⟩
  | reader s =>
      obtain rfl := Option.some.inj hevent
      obtain ⟨rfl, rfl⟩ := Prod.mk.inj (Option.some.inj h)
      exact ⟨rfl, by simp⟩

/-- No step changes the peers of a start or their order. -/
theorem keys_step {event : PrimingEvent π} {st st' : Priming Card π} {log obs : List CardSeen}
    (next : primingStep P event st = some (st', obs)) : st'.keys (log ++ obs) = st.keys log := by
  rw [Priming.keys, Priming.keys, List.filterMap_append]
  rcases primingStep_cases next with ⟨call, -, hcalls, hcall⟩ | ⟨cardEvent, hevent, hcalls, hcard⟩
  · obtain ⟨hready, hcalled⟩ := call_called hcall
    have hkey : st.calls.filterMap PrimingCall.key =
        call.key.toList ++ st'.calls.filterMap PrimingCall.key := by
      rw [hcalls]
      cases call <;> rfl
    rw [hready, hkey]
    generalize st'.sys = sys' at hcalled
    cases hcalled with
    | accepted room =>
        cases call <;>
          simp [PrimingCall.waiting, Caller.priming, CardSeen.primedKey, PrimingCall.key]
    | refused hfull hprimed =>
        rw [hprimed]
        cases call <;> simp [PrimingCall.refused, Caller.priming, PrimingCall.key]
  · rw [hcalls]
    rw [List.append_assoc (log.filterMap _), (beside_calls hevent hcard).1]

/-- The thread lives until it dies. -/
theorem alive_acts {event : CardEvent π} {sys sys' : CardSystem Card π} {obs : List CardSeen}
    (h : Acts P sys event sys' obs) :
    sys'.channel.alive = sys.channel.alive ∨ CardSeen.died ∈ obs := by
  cases h with
  | dequeued htake => exact .inl (Channel.alive_take htake)
  | died => exact .inr List.mem_cons_self
  | asked | hit | forgotten | primed | exchanged | ended | served | reader => exact .inl rfl

/-- A key is forgotten in no act but that of forgetting it. -/
theorem forgotten_acts {event : CardEvent π} {sys sys' : CardSystem Card π} {obs : List CardSeen}
    (h : Acts P sys event sys' obs) {pk : Key} (hmem : .forgotten pk ∈ obs) :
    event = .forgetPeer pk := by
  cases h with
  | forgotten peerPk =>
      cases List.mem_singleton.mp hmem
      rfl
  | ended hidle hended hcaller hquiet =>
      have htouch := (hquiet _ hmem).1 pk
      rw [CardSeen.touch, if_pos rfl] at htouch
      cases htouch
  | dequeued htake hquiet =>
      have htouch := (hquiet _ hmem).1 pk
      rw [CardSeen.touch, if_pos rfl] at htouch
      cases htouch
  | asked | hit | primed | exchanged | served | died => cases List.mem_singleton.mp hmem
  | reader => exact absurd hmem List.not_mem_nil

/-- What is known of a start at any time. -/
structure Orderly (peers : List PeerConfig) (st : Priming Card π) (log : List CardSeen) : Prop where
  tidy : Tidy st.sys
  keys : st.keys log = peers.map PeerConfig.publicKey
  alive : .died ∉ log → st.sys.channel.alive = true
  refused : ∀ request, .refused request ∈ log → .died ∈ log
  unforgotten : ∀ pk, .forgotten pk ∉ log

/-- A request that is not accepted finds the thread dead. -/
theorem Orderly.dead {peers : List PeerConfig} {st : Priming Card π} {log : List CardSeen}
    (h : Orderly peers st log) (hready : st.sys.caller = .ready)
    (hfull : st.sys.channel.alive = true → maxHandshakeRequest ≤ st.sys.channel.queue.length) :
    .died ∈ log := by
  by_contra hlives
  have hlength := hfull (h.alive hlives)
  have hpending := h.tidy.free (by rw [hready]; rfl)
  rw [(List.append_eq_nil_iff.mp hpending).2] at hlength
  exact absurd hlength (by decide)

theorem Orderly.step {peers : List PeerConfig} {event : PrimingEvent π} {st st' : Priming Card π}
    {log obs : List CardSeen} (h : Orderly peers st log)
    (next : primingStep P event st = some (st', obs)) : Orderly peers st' (log ++ obs) := by
  have hnext := primingStep_cases next
  refine ⟨h.tidy.step next, (keys_step next).trans h.keys, fun hdied => ?_, fun request hmem => ?_,
    fun pk hmem => ?_⟩
  · rw [List.mem_append, not_or] at hdied
    obtain ⟨cardEvent, hstep⟩ : ∃ cardEvent, cardStep P cardEvent st.sys = some (st'.sys, obs) := by
      rcases hnext with ⟨call, -, -, hcall⟩ | ⟨cardEvent, -, -, hcard⟩
      · exact ⟨_, hcall⟩
      · exact ⟨_, hcard⟩
    exact ((alive_acts (cardStep_acts hstep)).resolve_right hdied.2).trans (h.alive hdied.1)
  · apply List.mem_append_left
    rcases List.mem_append.mp hmem with hold | hnew
    · exact h.refused request hold
    · rcases hnext with ⟨call, -, -, hcall⟩ | ⟨cardEvent, hevent, -, hcard⟩
      · obtain ⟨hready, hcalled⟩ := call_called hcall
        generalize st'.sys = sys' at hcalled
        cases hcalled with
        | accepted room => cases List.mem_singleton.mp hnew
        | refused hfull hprimed => exact h.dead hready hfull
      · exact absurd hnew ((beside_calls hevent hcard).2 request)
  · rcases List.mem_append.mp hmem with hold | hnew
    · exact h.unforgotten pk hold
    · rcases hnext with ⟨call, -, -, hcall⟩ | ⟨cardEvent, hevent, -, hcard⟩
      · have hforget := forgotten_acts (cardStep_acts hcall) hnew
        cases call <;> cases hforget
      · obtain rfl := forgotten_acts (cardStep_acts hcard) hnew
        cases event <;> cases hevent

end Primed

section Panics

variable {Backend Card π : Type} {P : Pcsc Backend Card π}

/-- The public key could not be had: the thread died, or the card gave none. -/
def Lost (log : List CardSeen) : Prop := .died ∈ log ∨ ∃ t, .served t .pubKey none ∈ log

theorem Lost.append {log : List CardSeen} (h : Lost log) (obs : List CardSeen) :
    Lost (log ++ obs) := by
  rcases h with hdied | ⟨t, hserved⟩
  · exact .inl (List.mem_append_left _ hdied)
  · exact .inr ⟨t, List.mem_append_left _ hserved⟩

/-- The start panics for want of the public key only. -/
structure Blamed (sys : CardSystem Card π) (log : List CardSeen) : Prop where
  replied : ∀ t, sys.caller = .pubkey t → sys.channel.replies t ≠ .empty →
    (∃ key, sys.channel.replies t = .sent (.ok key)) ∨ Lost log
  panicked : sys.caller = .panicked → Lost log

theorem resume_panicked {sys sys' : CardSystem Card π} {obs : List CardSeen}
    (h : resume sys = some (sys', obs)) (hpanicked : sys'.caller = .panicked) :
    ∃ t, sys.caller = .pubkey t ∧ sys.channel.replies t ≠ .empty ∧
      ∀ key, sys.channel.replies t ≠ .sent (.ok key) := by
  obtain ⟨handle, channel, caller, thread, reader⟩ := sys
  cases caller with
  | ready | panicked => cases h
  | primeSs peerPk reply =>
      simp only [resume] at h
      split at h
      · cases h
      · cases h
        cases hpanicked
      · cases h
        cases hpanicked
  | x25519 peerPk reply =>
      simp only [resume] at h
      split at h
      · cases h
      · cases h
        cases hpanicked
      · cases h
        cases hpanicked
  | pubkey reply =>
      simp only [resume] at h
      split at h
      · cases h
      · cases h
        cases hpanicked
      · next hempty hok => exact ⟨reply, rfl, hempty, hok⟩

theorem Blamed.beside {event : PrimingEvent π} {cardEvent : CardEvent π}
    {sys sys' : CardSystem Card π} {log obs : List CardSeen} (h : Blamed sys log)
    (htidy : Tidy sys) (hevent : event.card = some cardEvent)
    (hcard : cardStep P cardEvent sys = some (sys', obs)) : Blamed sys' (log ++ obs) := by
  cases event with
  | call => cases hevent
  | resume =>
      obtain rfl := Option.some.inj hevent
      refine ⟨fun t hcaller => ?_, fun hpanicked => ?_⟩
      · rcases (resume_resumed hcard).free with hready | hpanicked
        · cases hready.symm.trans hcaller
        · cases hpanicked.symm.trans hcaller
      · obtain ⟨t, hcaller, hempty, hok⟩ := resume_panicked hcard hpanicked
        rcases h.replied t hcaller hempty with ⟨key, hkey⟩ | hlost
        · exact absurd hkey (hok key)
        · exact hlost.append obs
  | dequeue =>
      obtain rfl := Option.some.inj hevent
      obtain ⟨c, htake, hout⟩ := Option.map_eq_some_iff.mp hcard
      obtain ⟨rfl, rfl⟩ := Prod.mk.inj hout
      refine ⟨fun t hcaller hempty => ?_, fun hpanicked => (h.panicked hpanicked).append _⟩
      have hreplies : c.replies = sys.channel.replies := Channel.replies_take htake
      rw [hreplies] at hempty ⊢
      exact (h.replied t hcaller hempty).imp_right fun hlost => hlost.append _
  | serve =>
      obtain rfl := Option.some.inj hevent
      cases serve_acts hcard with
      | asked hidle => exact absurd hidle id
      | ended hidle => exact absurd hidle id
      | @served r htaken =>
          refine ⟨fun t hcaller hempty => ?_, fun hpanicked => (h.panicked hpanicked).append _⟩
          have hcaller : sys.caller = .pubkey t := hcaller
          have hmem := Channel.taken_mem_pending htaken
          rcases htidy.waits t .pubKey (by rw [hcaller]; rfl) with ⟨hpending, -⟩ | ⟨hpending, -⟩
          · rw [hpending] at hmem
            obtain rfl := List.mem_singleton.mp hmem
            rw [Channel.replies_answer, Function.update_self]
            cases hkey : (readPublicKey P sys.thread.card sys.reader).1 with
            | none =>
                refine .inr (.inr ⟨t, List.mem_append_right _ ?_⟩)
                simp [process, hkey]
            | some key => exact .inl ⟨key, by simp [process, hkey]⟩
          · rw [hpending] at hmem
            exact absurd hmem List.not_mem_nil
  | die =>
      obtain rfl := Option.some.inj hevent
      obtain ⟨rfl, rfl⟩ := Prod.mk.inj (Option.some.inj hcard)
      have hdied : Lost (log ++ [.died]) := .inl (List.mem_append_right _ List.mem_cons_self)
      exact ⟨fun _ _ _ => .inr hdied, fun _ => hdied⟩
  | reader s =>
      obtain rfl := Option.some.inj hevent
      obtain ⟨rfl, rfl⟩ := Prod.mk.inj (Option.some.inj hcard)
      rw [List.append_nil]
      exact ⟨h.replied, h.panicked⟩

theorem Blamed.step {peers : List PeerConfig} {event : PrimingEvent π} {st st' : Priming Card π}
    {log obs : List CardSeen} (h : Blamed st.sys log) (horderly : Orderly peers st log)
    (next : primingStep P event st = some (st', obs)) : Blamed st'.sys (log ++ obs) := by
  rcases primingStep_cases next with ⟨call, -, -, hcall⟩ | ⟨cardEvent, hevent, -, hcard⟩
  · obtain ⟨hready, hcalled⟩ := call_called hcall
    generalize st'.sys = sys' at hcalled
    cases hcalled with
    | accepted room =>
        refine ⟨fun t hcaller hempty => ?_, fun hpanicked => ?_⟩
        · have hlt := (st.sys.channel.unanswered t hempty).1
          have hnew : t = st.sys.channel.next := by
            cases call <;> cases hcaller
            rfl
          exact absurd hlt (hnew ▸ Nat.lt_irrefl _)
        · cases call <;> cases hpanicked
    | refused hfull hprimed =>
        refine ⟨fun t hcaller => ?_, fun _ => (Lost.append (.inl (horderly.dead hready hfull)) _)⟩
        cases call <;> cases hcaller
  · exact h.beside horderly.tidy hevent hcard

end Panics

section Start

variable {Backend Card π : Type} {P : Pcsc Backend Card π} {source : PinSource} {ident : Ident}
  {pinEntry : String} {peers : List PeerConfig} {s₀ : π} {st₀ : Priming Card π}

theorem runSmartcard_ok (h : runSmartcard P source ident pinEntry peers s₀ = .ok st₀) :
    ∃ pin, openHandle P ident pin s₀ = .ok st₀.sys ∧
      st₀.calls = .pubkey :: peers.map fun p => .primeSs p.publicKey := by
  rw [runSmartcard] at h
  split at h
  · cases h
  · next pin hpin =>
      split at h
      · cases h
      · next sys hopen =>
          obtain rfl := Except.ok.inj h
          exact ⟨pin, hopen, rfl⟩

theorem Orderly.start (h : runSmartcard P source ident pinEntry peers s₀ = .ok st₀) :
    Orderly peers st₀ [] := by
  obtain ⟨pin, hopen, hcalls⟩ := runSmartcard_ok h
  refine ⟨Tidy.opened hopen, ?_, fun _ => ?_, fun _ hmem => absurd hmem List.not_mem_nil,
    fun _ hmem => absurd hmem List.not_mem_nil⟩
  · obtain ⟨card, cardIdent, t, -, hsys⟩ := openHandle_ok hopen
    rw [Priming.keys, hcalls, hsys]
    have hkeys : (peers.map fun p => PrimingCall.primeSs p.publicKey).filterMap PrimingCall.key =
        peers.map PeerConfig.publicKey := by
      rw [List.filterMap_map, ← List.filterMap_eq_map]
      rfl
    exact hkeys
  · obtain ⟨card, cardIdent, t, -, hsys⟩ := openHandle_ok hopen
    rw [hsys]
    rfl

theorem Orderly.run (h : runSmartcard P source ident pinEntry peers s₀ = .ok st₀)
    {st : Priming Card π} {log : List CardSeen} (run : Run (primingStep P) st₀ st log) :
    Orderly peers st log := by
  induction run with
  | start => exact .start h
  | step run next ih => exact ih.step next

theorem Blamed.run (h : runSmartcard P source ident pinEntry peers s₀ = .ok st₀)
    {st : Priming Card π} {log : List CardSeen} (run : Run (primingStep P) st₀ st log) :
    Blamed st.sys log := by
  induction run with
  | start =>
      obtain ⟨pin, hopen, -⟩ := runSmartcard_ok h
      obtain ⟨card, cardIdent, t, -, hsys⟩ := openHandle_ok hopen
      rw [hsys]
      exact ⟨fun _ hcaller => (by cases hcaller), fun hpanicked => (by cases hpanicked)⟩
  | step run next ih => exact ih.step (.run h run) next

theorem left_start (h : runSmartcard P source ident pinEntry peers s₀ = .ok st₀) :
    st₀.left = 4 * (peers.length + 1) := by
  obtain ⟨pin, hopen, hcalls⟩ := runSmartcard_ok h
  obtain ⟨card, cardIdent, t, -, hsys⟩ := openHandle_ok hopen
  rw [Priming.left, hcalls, hsys, List.length_cons, List.length_map]
  rfl

/-- A key that was primed and not forgotten is in the cache, and no other. -/
theorem cached_iff_primed {sys₀ sys : CardSystem Card π} {log : List CardSeen} {pk : Key}
    (run : Run (cardStep P) sys₀ sys log) (hempty : sys₀.handle.ssCache pk = none)
    (hforgotten : .forgotten pk ∉ log) :
    (sys.handle.ssCache pk).isSome ↔ .primed pk (.ok ()) ∈ log := by
  have hwrites := run_writes run pk
  have htouch : ∀ o ∈ log, ∀ b, o.touch pk = some b → b = true ∧ o = .primed pk (.ok ()) := by
    intro o ho b hb
    cases o with
    | primed peerPk result =>
        cases result with
        | error e => cases hb
        | ok done =>
            obtain ⟨rfl, heq⟩ := Option.ite_none_right_eq_some.mp hb
            exact ⟨(Option.some.inj heq).symm, rfl⟩
    | forgotten peerPk =>
        obtain ⟨rfl, -⟩ := Option.ite_none_right_eq_some.mp hb
        exact absurd ho hforgotten
    | accepted | refused | dequeued | served | died | answered | gavePubkey | panicked => cases hb
  cases hlast : latest (CardSeen.touch pk) log with
  | none =>
      rw [hwrites.kept hlast, hempty]
      refine iff_of_false (by simp) fun hmem => ?_
      rw [latest, List.getLast?_eq_none_iff, List.filterMap_eq_nil_iff] at hlast
      have hnone := hlast _ hmem
      rw [CardSeen.touch, if_pos rfl] at hnone
      cases hnone
  | some b =>
      obtain ⟨o, ho, hb⟩ := List.mem_filterMap.mp (List.mem_of_getLast? hlast)
      obtain ⟨rfl, rfl⟩ := htouch o ho b hb
      exact iff_of_true (hwrites.written true hlast) ho

theorem Faithful.run {F : Key → List UInt8} {cardIdent : Ident} {sys₀ sys : CardSystem Card π}
    {log : List CardSeen} (hF : DeciphersAs P cardIdent F) (h : Faithful P F cardIdent sys₀)
    (run : Run (cardStep P) sys₀ sys log) : Faithful P F cardIdent sys := by
  induction run with
  | start => exact h
  | step run next ih => exact (ih.moves hF (cardStep_moves next)).1

/-- The start with a card ends: of every schedule four steps for each call are its work at
most, and until it is over or panics, some work can be done. It panics only if the thread
died or the card gave no public key, and no request is refused while the thread lives. Once
the calls are over, every peer was primed in turn, and in any run of the tunnel the shared
secret of a peer whose prime succeeded is answered at once, by the cache and without the
card, unless the peer is forgotten. -/
theorem primed_start {F : Key → List UInt8}
    (hstart : runSmartcard P source ident pinEntry peers s₀ = .ok st₀)
    (hF : DeciphersAs P st₀.sys.handle.ident F) {events : List (PrimingEvent π)}
    {st : Priming Card π} {log : List CardSeen}
    (hexec : exec (primingStep P) events st₀ = some (st, log)) :
    events.countP PrimingEvent.works ≤ 4 * (peers.length + 1) ∧
    (¬ st.Finished → st.sys.caller ≠ .panicked →
      ∃ event : PrimingEvent π, event.works = true ∧ (primingStep P event st).isSome) ∧
    (st.sys.caller = .panicked → .died ∈ log ∨ ∃ t, .served t .pubKey none ∈ log) ∧
    (∀ request, .refused request ∈ log → .died ∈ log) ∧
    (st.Finished → log.filterMap CardSeen.primedKey = peers.map PeerConfig.publicKey) ∧
    ∀ pk, .primed pk (.ok ()) ∈ log → ∀ sys log', Run (cardStep P) st.sys sys log' →
      .forgotten pk ∉ log' → sys.caller = .ready →
        ∃ ss, cardStep P (.x25519 pk) sys = some (sys, [.answered pk (.ok ss)]) ∧
          sharedSecret (F pk) = some ss := by
  have run := run_of_exec hexec
  have horderly := Orderly.run hstart run
  obtain ⟨pin, hopen, -⟩ := runSmartcard_ok hstart
  refine ⟨?_, can_work horderly.tidy, (Blamed.run hstart run).panicked, horderly.refused,
    fun hfinished => ?_, ?_⟩
  · have hbounded := works_bounded hexec
    rw [left_start hstart] at hbounded
    omega
  · have hkeys := horderly.keys
    rw [Priming.keys, hfinished.1, hfinished.2] at hkeys
    simpa [Caller.priming] using hkeys
  · intro pk hprimed sys log' run' hforgotten hready
    have hwhole := (priming_run run).append run'
    have hcached : (sys.handle.ssCache pk).isSome := by
      apply (cached_iff_primed hwhole (openHandle_ssCache hopen pk) ?_).mpr
      · exact List.mem_append_left _ hprimed
      · rw [List.mem_append, not_or]
        exact ⟨horderly.unforgotten pk, hforgotten⟩
    obtain ⟨ss, hss⟩ := Option.isSome_iff_exists.mp hcached
    refine ⟨ss, ?_, (Faithful.run hF (Faithful.opened hopen) hwhole).cached pk ss hss⟩
    simp only [cardStep, hready, asyncX25519, hss]

end Start

section Sample

def typedPin : PinSource where
  prompt := .ok "123456"
  var _ := .error "environment variable not found"

def singleStart : Priming Unit Unit where
  sys := singleHandle
  calls := [.pubkey, .primeSs serverKey]

/-- The calls are made and served one after the other. -/
def startedRun : Option (Priming Unit Unit × List CardSeen) :=
  exec (primingStep Pcsc.single)
    [.call, .dequeue, .serve, .resume, .call, .dequeue, .serve, .resume] singleStart

theorem startedRun_isSome : startedRun.isSome := by
  decide +kernel

def startedHandle : CardSystem Unit Unit := (startedRun.get startedRun_isSome).1.sys

/-- The thread dies as soon as the tunnel is up, and the server is still answered. -/
theorem started_tunnel_answers :
    ∃ sys obs ss, cardStep Pcsc.single .die startedHandle = some (sys, obs) ∧
      cardStep Pcsc.single (.x25519 serverKey) sys =
        some (sys, [.answered serverKey (.ok ss)]) ∧
      sharedSecret (serverKey.bytes.map (· + 1)) = some ss := by
  have hstart : runSmartcard Pcsc.single typedPin "auto" "prompt" [serverPeer] () =
      .ok singleStart := rfl
  have hF : DeciphersAs Pcsc.single singleStart.sys.handle.ident
      fun pk => pk.bytes.map (· + 1) := by
    intro card pk s ss t _ h
    exact (Except.ok.inj (Prod.mk.inj h).1).symm
  obtain ⟨-, -, -, -, -, hanswered⟩ :=
    primed_start hstart hF (Option.some_get startedRun_isSome).symm
  have hprimed : .primed serverKey (.ok ()) ∈ (startedRun.get startedRun_isSome).2 := by
    decide +kernel
  have hdie : cardStep Pcsc.single .die startedHandle =
      some ({ startedHandle with channel := startedHandle.channel.close }, [.died]) := rfl
  have hready : startedHandle.caller = .ready := rfl
  obtain ⟨ss, hss, hsecret⟩ :=
    hanswered serverKey hprimed _ _ (Run.step .start hdie) (by decide) hready
  exact ⟨_, _, ss, hdie, hss, hsecret⟩

end Sample

end SmartGuard
