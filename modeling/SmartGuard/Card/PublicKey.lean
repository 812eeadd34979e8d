import SmartGuard.Card.Identity

/-!
# The request for the public key

The public key is read when the card is opened, but it is not kept: a request for it reads
the card again, once. If that fails the thread drops the reply, and the call panics.
-/

namespace SmartGuard

open EventRun RequestChannel StateLoop

variable {Backend Card π : Type} {P : Pcsc Backend Card π}

section Read

/-- The transaction opens, and the card offers a key that starts with the 32 bytes. -/
def ReadsKey (P : Pcsc Backend Card π) (card : Card) (s : π) (key : Key) : Prop :=
  ∃ u data t, P.transaction card s = (.ok (), u) ∧
    P.publicKeyMaterial card u = (some (.E data), t) ∧ firstChunk data = some key

theorem readPublicKey_eq_some_iff (card : Card) (s : π) (key : Key) :
    (readPublicKey P card s).1 = some key ↔ ReadsKey P card s key := by
  constructor
  · intro h
    unfold readPublicKey at h
    split at h
    · cases h
    · next begun =>
        split at h
        · next hmaterial => exact ⟨_, _, _, begun, hmaterial, h⟩
        · cases h
  · rintro ⟨u, data, t, begun, hmaterial, hkey⟩
    simp only [readPublicKey, begun, hmaterial, hkey]

/-- The key that an operation reads. -/
def CardOp.publicKey : CardOp Card → Option Key
  | .publicKeyMaterial _ (some (.E data)) => firstChunk data
  | _ => none

theorem traced_publicKeyMaterial {card : Card} {s t : π × List (CardOp Card)}
    {answer : Option PublicKeyMaterial} (h : P.traced.publicKeyMaterial card s = (answer, t)) :
    t.2 = s.2 ++ [.publicKeyMaterial card answer] := by
  obtain ⟨rfl, rfl⟩ := Prod.mk.inj h
  rfl

/-- A card that could be opened had its public key read. -/
theorem openAndVerify_publicKey {requestedIdent ident : Ident} {pin : Pin} {card : Card}
    {s t : π × List (CardOp Card)}
    (h : openAndVerify P.traced requestedIdent pin s = (some (.ok (card, ident)), t)) :
    ∃ key, latest CardOp.publicKey t.2 = some key := by
  have hopened := openAndVerify_opened P.traced requestedIdent pin s
  rw [h] at hopened
  cases hopened with
  | opened listed found hverified =>
      obtain ⟨backend, -, u, hprobe⟩ := exists_of_findMap found
      obtain ⟨-, -, data, v, hmaterial, hlength⟩ := openCard_found hprobe
      obtain ⟨key, hkey⟩ := Option.isSome_iff_exists.mp (isSome_firstChunk_iff.mpr hlength)
      obtain ⟨w, begun, hverify⟩ := hverified
      have hread := traced_publicKeyMaterial hmaterial
      have hbegun : w.2 = _ ++ [CardOp.transaction card] := (congrArg (·.2.2) begun).symm
      have hpin : t.2 = _ ++ [CardOp.verifyUserPin card _] := (congrArg (·.2.2) hverify).symm
      refine ⟨key, ?_⟩
      rw [hpin, hbegun, hread, latest_append, latest_append, latest_append]
      simp [CardOp.publicKey, hkey]

end Read

section Quiescent

/-- The thread is there, and only the request of the call that waits is pending. -/
structure Quiescent (sys : CardSystem Card π) : Prop where
  alive : sys.channel.alive = true
  free : sys.caller.awaits = none → sys.channel.pending = []
  waits : ∀ t request, sys.caller.awaits = some (t, request) →
    ∀ r ∈ sys.channel.pending, sys.channel.pending = [r] ∧ r.reply = t

/-- The calls are those for shared secrets, none is given up, and the thread lives. -/
def CardEvent.completes : CardEvent π → CardSystem Card π → Bool
  | .pubkey, _ => false
  | .cancel, _ => false
  | .die, _ => false
  | _, _ => true

/-- Nothing waits behind the request that the thread took. -/
theorem Quiescent.queue_of_taken {sys : CardSystem Card π} (h : Quiescent sys)
    {r : Request CardRequest} (htaken : sys.channel.taken = some r) : sys.channel.queue = [] := by
  have hpending : sys.channel.pending = r :: sys.channel.queue := by
    rw [Channel.pending, htaken]
    rfl
  cases hawaits : sys.caller.awaits with
  | none => cases hpending.symm.trans (h.free hawaits)
  | some awaited =>
      obtain ⟨t, request⟩ := awaited
      obtain ⟨hone, -⟩ := h.waits t request hawaits r (Channel.taken_mem_pending htaken)
      exact (List.cons.inj (hpending.symm.trans hone)).2

/-- Nothing is pending once the call that waits has its answer: it would be its request. -/
theorem Quiescent.pending_of_filled {sys : CardSystem Card π} (h : Quiescent sys)
    (hfilled : ∀ t request, sys.caller.awaits = some (t, request) →
      sys.channel.replies t ≠ .empty) : sys.channel.pending = [] := by
  cases hawaits : sys.caller.awaits with
  | none => exact h.free hawaits
  | some awaited =>
      obtain ⟨t, request⟩ := awaited
      apply List.eq_nil_iff_forall_not_mem.mpr
      intro r hr
      obtain ⟨-, hreply⟩ := h.waits t request hawaits r hr
      exact (sys.channel.unanswered t (hfilled t request hawaits)).2 r hr hreply

theorem Quiescent.step {event : CardEvent π} {sys sys' : CardSystem Card π}
    {obs : List CardSeen} (h : Quiescent sys) (hok : event.completes sys = true)
    (next : Traffic P sys event sys' obs) : Quiescent sys' := by
  cases next with
  | asked hevent request caller hfree alive room hcaller =>
      have hpending : (sys.channel.push request).pending = [⟨request, sys.channel.next⟩] := by
        rw [Channel.pending_push, h.free hfree]
        rfl
      refine ⟨h.alive, fun hnone => ?_, fun t request' hawaits r hr => ?_⟩
      · cases hcaller.symm.trans hnone
      · obtain ⟨rfl, rfl⟩ := Prod.mk.inj (Option.some.inj (hcaller.symm.trans hawaits))
        rw [hpending] at hr ⊢
        obtain rfl := List.mem_singleton.mp hr
        exact ⟨rfl, rfl⟩
  | idle hevent hended hcaller hquiet =>
      have hfilled : ∀ t request, sys.caller.awaits = some (t, request) →
          sys.channel.replies t ≠ .empty := by
        intro t request hawaits
        rcases hended t request hawaits with rfl | hfilled
        · cases hok
        · exact hfilled
      refine ⟨h.alive, fun _ => h.pending_of_filled hfilled, fun t request hawaits => ?_⟩
      cases hcaller.symm.trans hawaits
  | dequeued htake hquiet =>
      refine ⟨(Channel.alive_take htake).trans h.alive, ?_, ?_⟩
      · rw [Channel.pending_take htake]
        exact h.free
      · rw [Channel.pending_take htake]
        exact h.waits
  | served htaken =>
      have hqueue := h.queue_of_taken htaken
      refine ⟨h.alive, fun _ => hqueue, fun t request _ r hr => ?_⟩
      have hnone : r ∈ sys.channel.queue := hr
      rw [hqueue] at hnone
      cases hnone
  | died => cases hok
  | reader s => exact ⟨h.alive, h.free, h.waits⟩

theorem Quiescent.opened {requestedIdent : Ident} {pin : Pin} {s : π} {sys : CardSystem Card π}
    (h : openHandle P requestedIdent pin s = .ok sys) : Quiescent sys := by
  obtain ⟨card, ident, t, hopen, rfl⟩ := openHandle_ok h
  exact ⟨rfl, fun _ => rfl, nofun⟩

theorem Quiescent.run {sys₀ sys : CardSystem Card π} {log : List CardSeen}
    (h : Quiescent sys₀) (run : Run (guarded CardEvent.completes (cardStep P)) sys₀ sys log) :
    Quiescent sys := by
  induction run with
  | start => exact h
  | step run next ih =>
      obtain ⟨hok, hstep⟩ := guarded_eq_some.mp next
      exact ih.step hok (cardStep_traffic hstep)

end Quiescent

section Call

/-- A call for the public key that is not given up, with what the reader does meanwhile. -/
def pubkeyCall (s₁ s₂ s₃ : π) : List (CardEvent π) :=
  [.pubkey, .reader s₁, .dequeue, .reader s₂, .serve, .reader s₃, .resume]

/-- How the call ends, by what the thread read. -/
def pubkeyEnd (read : Option Key) : CardSeen := read.elim .panicked .gavePubkey

/-- The call that waits for the public key ends as its one-shot does. -/
theorem resume_pubkey {sys : CardSystem Card π} {t : Nat} {read : Option Key}
    (hcaller : sys.caller = .pubkey t)
    (hreply : sys.channel.replies t = (read.map .ok).elim .closed .sent) :
    ∃ sys', resume sys = some (sys', [pubkeyEnd read]) := by
  simp only [resume, hcaller, hreply]
  cases read with
  | none => exact ⟨_, rfl⟩
  | some key => exact ⟨_, rfl⟩

/-- Where only the call itself is pending, it ends by what the thread reads for it. -/
theorem Quiescent.pubkey {sys : CardSystem Card π} (h : Quiescent sys)
    (hready : sys.caller = .ready) (s₁ s₂ s₃ : π) :
    ∃ sys' log, exec (cardStep P) (pubkeyCall s₁ s₂ s₃) sys = some (sys', log) ∧
      ∀ o, o = .panicked ∨ (∃ key, o = .gavePubkey key) →
        (o ∈ log ↔ o = pubkeyEnd (readPublicKey P sys.thread.card s₂).1) := by
  have hpending : sys.channel.pending = [] := h.free (by rw [hready]; rfl)
  obtain ⟨hnone, hempty⟩ := List.append_eq_nil_iff.mp hpending
  have htaken : (sys.channel.push .pubKey).taken = none := Option.toList_eq_nil_iff.mp hnone
  have hqueue : (sys.channel.push .pubKey).queue = [⟨.pubKey, sys.channel.next⟩] := by
    change sys.channel.queue ++ _ = _
    rw [hempty]
    rfl
  obtain ⟨c, htake, htaken', -⟩ := Channel.take_of_queue htaken hqueue
  have hsent : sys.channel.trySend maxHandshakeRequest .pubKey =
      (.ok sys.channel.next, sys.channel.push .pubKey) := by
    rw [Channel.trySend, h.alive, hempty]
    rfl
  let asked : CardSystem Card π :=
    { sys with channel := sys.channel.push .pubKey, caller := .pubkey sys.channel.next }
  let taken : CardSystem Card π := { asked with channel := c, reader := s₂ }
  have hask : cardStep P .pubkey sys =
      some (asked, [.accepted sys.channel.next .pubKey]) := by
    simp only [cardStep, hready, asyncX25519Pubkey, hsent]
    rfl
  have hdequeue : cardStep P .dequeue { asked with reader := s₁ } =
      some ({ asked with channel := c, reader := s₁ }, [.dequeued sys.channel.next]) := by
    simp only [cardStep, dequeue, asked, htake, Option.map_some, htaken']
    rfl
  have htaken₂ : taken.channel.taken = some ⟨.pubKey, sys.channel.next⟩ := htaken'
  let served : CardSystem Card π :=
    { taken with
      channel := taken.channel.answer _ htaken₂ (process P taken.thread .pubKey s₂).1
      thread := { taken.thread with card := (process P taken.thread .pubKey s₂).2.1 }
      reader := (process P taken.thread .pubKey s₂).2.2 }
  have hserve : cardStep P .serve taken = some (served,
      [.served sys.channel.next .pubKey (process P taken.thread .pubKey s₂).1]) :=
    serve_eq htaken₂
  let ending : CardSystem Card π := { served with reader := s₃ }
  have hcaller : ending.caller = .pubkey sys.channel.next := rfl
  have hreply : ending.channel.replies sys.channel.next =
      ((readPublicKey P sys.thread.card s₂).1.map .ok).elim .closed .sent :=
    Function.update_self _ _ _
  obtain ⟨sys', hend⟩ := resume_pubkey hcaller hreply
  have hresume : cardStep P .resume ending = _ := hend
  refine ⟨sys', _, exec_cons hask (exec_cons rfl (exec_cons hdequeue (exec_cons rfl
    (exec_cons hserve (exec_cons rfl (exec_cons hresume rfl)))))), ?_⟩
  rintro o (rfl | ⟨key, rfl⟩)
  · simp
  · simp

end Call

/-- After calls for shared secrets that all completed, a call for the public key gives the key
that was read when the card was opened exactly if the thread reads that key from the card
once more, and it panics exactly if the thread reads none. -/
theorem pubkey_given_iff {requestedIdent : Ident} {pin : Pin} {s₀ : π}
    {sys₀ : CardSystem Card π} (hopen : openHandle P requestedIdent pin s₀ = .ok sys₀) :
    ∃ key₀, latest CardOp.publicKey (openAndVerify P.traced requestedIdent pin (s₀, [])).2.2 =
        some key₀ ∧
      ∀ sys log, Run (guarded CardEvent.completes (cardStep P)) sys₀ sys log →
        sys.caller = .ready → ∀ s₁ s₂ s₃, ∃ sys' log',
          exec (cardStep P) (pubkeyCall s₁ s₂ s₃) sys = some (sys', log') ∧
            (.gavePubkey key₀ ∈ log' ∧ .panicked ∉ log' ↔
              ReadsKey P sys.thread.card s₂ key₀) ∧
            (.panicked ∈ log' ↔ ∀ key, ¬ ReadsKey P sys.thread.card s₂ key) := by
  have hquiescent := Quiescent.opened hopen
  have huntraced := openAndVerify_untraced (P := P) requestedIdent pin (s₀, [])
  have hread : ∃ key₀, latest CardOp.publicKey
      (openAndVerify P.traced requestedIdent pin (s₀, [])).2.2 = some key₀ := by
    obtain ⟨card, ident, t, hopened, -⟩ := openHandle_ok hopen
    rw [hopened] at huntraced
    have hok : (openAndVerify P.traced requestedIdent pin (s₀, [])).1 =
        some (.ok (card, ident)) := congrArg Prod.fst huntraced
    exact openAndVerify_publicKey (Prod.ext hok rfl)
  obtain ⟨key₀, hkey₀⟩ := hread
  refine ⟨key₀, hkey₀, ?_⟩
  intro sys log run hready s₁ s₂ s₃
  obtain ⟨sys', log', hexec, hends⟩ := (hquiescent.run run).pubkey (P := P) hready s₁ s₂ s₃
  have hgave := hends (.gavePubkey key₀) (.inr ⟨key₀, rfl⟩)
  have hpanicked := hends .panicked (.inl rfl)
  refine ⟨sys', log', hexec, ?_, ?_⟩
  · rw [hgave, hpanicked, ← readPublicKey_eq_some_iff]
    cases (readPublicKey P sys.thread.card s₂).1 with
    | none => simp [pubkeyEnd]
    | some key => simp [pubkeyEnd, eq_comm]
  · simp only [hpanicked, ← readPublicKey_eq_some_iff]
    cases (readPublicKey P sys.thread.card s₂).1 with
    | none => simp [pubkeyEnd]
    | some key => simp [pubkeyEnd]

section Sample

/-- The key that every card on the desk has. -/
def deskKey : Key := ⟨List.replicate 32 9, List.length_replicate⟩

/-- The desk with the chosen card, which another program may hold. -/
def desk (busy : Bool) : Desk := ⟨[chosenIdent], busy, "123456", 3⟩

def deskStart : Except SmartcardError (CardSystem Ident Desk) :=
  openHandle Pcsc.desk chosenIdent "123456" (desk false)

theorem deskStart_isSome : deskStart.toOption.isSome := by
  decide +kernel

/-- While no other program holds the card, the call gives its key. -/
theorem free_card_gives_pubkey :
    ∃ sys' log', exec (cardStep Pcsc.desk) (pubkeyCall (desk true) (desk false) (desk false))
        (deskStart.toOption.get deskStart_isSome) = some (sys', log') ∧ .panicked ∉ log' := by
  obtain ⟨key₀, -, hcall⟩ := pubkey_given_iff (eq_ok_get deskStart_isSome)
  obtain ⟨sys', log', hexec, -, hpanicked⟩ :=
    hcall _ _ .start rfl (desk true) (desk false) (desk false)
  refine ⟨sys', log', hexec, fun hmem => ?_⟩
  exact hpanicked.mp hmem deskKey ⟨_, _, _, rfl, rfl, rfl⟩

/-- While another program holds the card, the call panics. -/
theorem busy_card_panics :
    ¬ ∀ (requestedIdent : Ident) (pin : Pin) (s₀ : Desk) (sys₀ sys : CardSystem Ident Desk)
      (log : List CardSeen), openHandle Pcsc.desk requestedIdent pin s₀ = .ok sys₀ →
      Run (guarded CardEvent.completes (cardStep Pcsc.desk)) sys₀ sys log →
      sys.caller = .ready → ∀ s₁ s₂ s₃ sys' log',
        exec (cardStep Pcsc.desk) (pubkeyCall s₁ s₂ s₃) sys = some (sys', log') →
          .panicked ∉ log' := by
  intro claim
  have hquiet := claim _ _ _ _ _ _ (eq_ok_get deskStart_isSome) .start rfl (desk true) (desk true)
    (desk false)
  have hend : ((exec (cardStep Pcsc.desk) (pubkeyCall (desk true) (desk true) (desk false))
      (deskStart.toOption.get deskStart_isSome)).map Prod.snd) =
        some [.accepted 0 .pubKey, .dequeued 0, .served 0 .pubKey none, .panicked] := by
    decide +kernel
  obtain ⟨out, hexec, hlog⟩ := Option.map_eq_some_iff.mp hend
  exact hquiet out.1 out.2 hexec (hlog ▸ by simp)

end Sample

end SmartGuard
