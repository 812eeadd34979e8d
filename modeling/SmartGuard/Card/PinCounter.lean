import SmartGuard.Card.Identity

/-!
# The try counter of the card

A card counts its tries down with every VERIFY it rejects. Each attempt of the thread
verifies the stored PIN, and nothing remembers that it was rejected. So once the PIN of
the card is another one, the counter goes down with every VERIFY that the thread issues:
at most twice for a request, and to zero in the course of three at the latest.
-/

namespace SmartGuard

open EventRun RequestChannel StateLoop

variable {Backend Card π : Type}

/-- The PIN of the cards of an identity and their try counter, which a rejected VERIFY
decrements and an accepted one resets. At zero the PIN is blocked. -/
structure Meter (P : Pcsc Backend Card π) (ident : Ident) where
  cardPin : π → Pin
  tries : π → Nat
  probes : P.Probes fun s t => cardPin t = cardPin s ∧ tries t = tries s
  decipher : ∀ {card peerPk s out t}, P.decipher card peerPk s = (out, t) →
    cardPin t = cardPin s ∧ tries t = tries s
  accepted : ∀ {card pin s t}, P.identity card = ident →
    P.verifyUserPin card pin s = (.ok (), t) →
      pin = cardPin s ∧ 0 < tries s ∧ cardPin t = cardPin s ∧ tries t = 3
  rejected : ∀ {card pin s e t}, P.identity card = ident →
    P.verifyUserPin card pin s = (.error e, t) →
      cardPin t = cardPin s ∧ tries t = tries s - 1

def CardOp.isVerify : CardOp Card → Bool
  | .verifyUserPin _ _ => true
  | _ => false

/-- How many VERIFYs a record holds. -/
def verifies (ops : List (CardOp Card)) : Nat := ops.countP CardOp.isVerify

def CardSeen.isDhServed : CardSeen → Bool
  | .served _ (.dh _) _ => true
  | _ => false

/-- How many requests for a shared secret a log serves. -/
def dhServed (log : List CardSeen) : Nat := log.countP CardSeen.isDhServed

variable {P : Pcsc Backend Card π} {ident : Ident}

section Spent

variable (M : Meter P ident)

/-- With a stored PIN that the card does not have, at most `k` VERIFYs were issued, and each
of them took a try. -/
def Meter.Spent (pin : Pin) (k : Nat) (s t : π × List (CardOp Card)) : Prop :=
  pin ≠ M.cardPin s.1 → ∃ ops, t.2 = s.2 ++ ops ∧ M.cardPin t.1 = M.cardPin s.1 ∧
    M.tries t.1 = M.tries s.1 - verifies ops ∧ verifies ops ≤ k

variable {M} {pin : Pin} {k l : Nat} {s t u : π × List (CardOp Card)}

theorem Meter.Spent.trans (h : M.Spent pin k s t) (h' : M.Spent pin l t u) :
    M.Spent pin (k + l) s u := by
  intro hpin
  obtain ⟨ops, hops, hsame, htries, hk⟩ := h hpin
  obtain ⟨ops', hops', hsame', htries', hl⟩ := h' (hsame ▸ hpin)
  have hcount : verifies (ops ++ ops') = verifies ops + verifies ops' := List.countP_append
  refine ⟨ops ++ ops', ?_, hsame'.trans hsame, ?_, hcount ▸ Nat.add_le_add hk hl⟩
  · rw [hops', hops, List.append_assoc]
  · rw [htries', htries, hcount, Nat.sub_sub]

theorem Meter.Spent.mono (h : M.Spent pin k s t) (hle : k ≤ l) : M.Spent pin l s t := by
  intro hpin
  obtain ⟨ops, hops, hsame, htries, hk⟩ := h hpin
  exact ⟨ops, hops, hsame, htries, hk.trans hle⟩

/-- What probes does takes no try. -/
theorem Meter.spent_of_adds (hadds : Adds CardOp.IsProbe s t)
    (hsame : M.cardPin t.1 = M.cardPin s.1 ∧ M.tries t.1 = M.tries s.1) : M.Spent pin 0 s t := by
  intro _
  obtain ⟨ops, hops, hprobes⟩ := hadds
  have hnone : verifies ops = 0 := by
    apply List.countP_eq_zero.mpr
    intro op hop hverify
    cases op with
    | verifyUserPin card accepted => exact (hprobes _ hop).elim
    | _ => cases hverify
  refine ⟨ops, hops, hsame.1, ?_, hnone.le⟩
  rw [hnone, hsame.2]
  rfl

/-- A VERIFY of another PIN than that of the card is rejected and takes a try. -/
theorem Meter.spent_verify {card : Card} {out : Except String Unit}
    (hcard : P.identity card = ident) (h : P.traced.verifyUserPin card pin s = (out, t)) :
    M.Spent pin 1 s t := by
  intro hpin
  have hrecord : t.2 = s.2 ++ [.verifyUserPin card (P.verifyUserPin card pin s.1).1.isOk] :=
    (congrArg (·.2.2) h).symm
  have hverify := eq_of_traced h
  cases out with
  | ok u => exact absurd (M.accepted hcard hverify).1 hpin
  | error e =>
      obtain ⟨hsame, htries⟩ := M.rejected hcard hverify
      exact ⟨_, hrecord, hsame, htries, Nat.le_refl _⟩

theorem Meter.keeps_transaction {card : Card} {out : Except String Unit}
    (h : P.traced.transaction card s = (out, t)) :
    M.cardPin t.1 = M.cardPin s.1 ∧ M.tries t.1 = M.tries s.1 :=
  M.probes.transaction (eq_of_traced h)

/-- A card does not accept another PIN than its own. -/
theorem Meter.not_verified {card : Card} (hcard : P.identity card = ident)
    (hpin : pin ≠ M.cardPin s.1) : ¬ Verified P.traced card pin s t := by
  rintro ⟨u, begun, hverify⟩
  have hright := (M.accepted hcard (eq_of_traced hverify)).1
  exact hpin (hright.trans (keeps_transaction begun).1)

/-- An attempt takes one try at most. -/
theorem Meter.spent_tryDecipher {card : Card} (hcard : P.identity card = ident) (peerPk : Key)
    (s : π × List (CardOp Card)) :
    M.Spent pin 1 s (tryDecipher P.traced card pin peerPk s).2 := by
  have hbegin : ∀ {out t}, P.traced.transaction card s = (out, t) → M.Spent pin 0 s t :=
    fun h => spent_of_adds (.one (congrArg (·.2.2) h).symm (by trivial)) (keeps_transaction h)
  have hattempt := tryDecipher_attempt P.traced card pin peerPk s
  generalize tryDecipher P.traced card pin peerPk s = out at hattempt ⊢
  cases hattempt with
  | busy h => exact (hbegin h).mono (Nat.zero_le 1)
  | rejected begun h => exact (hbegin begun).trans (spent_verify hcard h)
  | failed verified h => exact fun hpin => absurd verified (not_verified hcard hpin)
  | short h hshort =>
      obtain ⟨u, verified, -⟩ := h
      exact fun hpin => absurd verified (not_verified hcard hpin)
  | zero h hkey hzero =>
      obtain ⟨u, verified, -⟩ := h
      exact fun hpin => absurd verified (not_verified hcard hpin)
  | answered h hkey hvalid =>
      obtain ⟨u, verified, -⟩ := h
      exact fun hpin => absurd verified (not_verified hcard hpin)

/-- The probes of the recording reader take no try. -/
theorem Meter.probes_traced (M : Meter P ident) : P.traced.Probes fun s t =>
    (M.cardPin t.1 = M.cardPin s.1 ∧ M.tries t.1 = M.tries s.1) ∧ Adds CardOp.IsProbe s t :=
  M.probes.traced.and (probes_adds fun _ h => h)

/-- A request takes two tries at most, with its retry. -/
theorem Meter.spent_decipherWithRetry {card : Card} (hcard : P.identity card = ident)
    (peerPk : Key) (s : π × List (CardOp Card)) :
    M.Spent pin 2 s (decipherWithRetry P.traced card ident pin peerPk s).2.2 := by
  have hfirst : M.Spent pin 1 s (tryDecipher P.traced card pin peerPk s).2 :=
    spent_tryDecipher hcard peerPk s
  have hsleep : ∀ t, M.Spent pin 0 t (P.traced.sleep 5 t) := fun t =>
    spent_of_adds (M.probes_traced.sleep 5 t).2 (M.probes_traced.sleep 5 t).1
  have hreconnect : ∀ {t out}, reconnect P.traced card ident t = out →
      M.Spent pin 0 t out.2.2 := by
    rintro t out rfl
    obtain ⟨hsame, hadds⟩ := M.probes_traced.reconnect card ident t
    exact spent_of_adds hadds hsame
  have hretried := decipherWithRetry_retried P.traced card ident pin peerPk s
  generalize decipherWithRetry P.traced card ident pin peerPk s = out at hretried ⊢
  cases hretried with
  | first h =>
      rw [h] at hfirst
      exact hfirst.mono (Nat.le_succ 1)
  | @lost e t e' card' u failed h =>
      rw [failed] at hfirst
      exact (hfirst.trans ((hsleep t).trans (hreconnect h))).mono (Nat.le_succ 1)
  | @again e t card' u failed h =>
      rw [failed] at hfirst
      have hfound := reconnect_identity (P := P.traced) hcard (P.traced.sleep 5 t)
      rw [h] at hfound
      have hcard' : P.identity card' = ident := hfound
      exact (hfirst.trans ((hsleep t).trans (hreconnect h))).trans
        (spent_tryDecipher hcard' peerPk u)

theorem Meter.spent_process {thread : CardThread Card} (hcard : P.identity thread.card = ident)
    (hident : thread.ident = ident) (r : Request CardRequest) (s : π × List (CardOp Card)) :
    M.Spent thread.pin
      (2 * dhServed [.served r.reply r.body (process P.traced thread r.body s).1]) s
      (process P.traced thread r.body s).2.2 := by
  obtain ⟨body, reply⟩ := r
  cases body with
  | dh peerPk =>
      subst hident
      exact spent_decipherWithRetry hcard peerPk s
  | pubKey =>
      obtain ⟨hsame, hadds⟩ := M.probes_traced.readPublicKey thread.card s
      exact spent_of_adds hadds hsame

end Spent

section Run

variable (M : Meter P ident)

/-- What happens at the reader leaves the PIN of the card and its counter alone. -/
def Meter.leaves (event : CardEvent π) (sys : CardSystem Card (π × List (CardOp Card))) : Bool :=
  match event with
  | .reader s => M.cardPin s = M.cardPin sys.reader.1 ∧ M.tries s = M.tries sys.reader.1
  | _ => true

/-- A step in which only the thread issues VERIFYs. -/
def Meter.step : CardEvent π → CardSystem Card (π × List (CardOp Card)) →
    Option (CardSystem Card (π × List (CardOp Card)) × List CardSeen) :=
  guarded M.leaves (tracedStep P)

variable {M}

/-- Each try that a run takes is a VERIFY of the thread, and no request takes more than two. -/
theorem Meter.run_spent {sys₁ sys : CardSystem Card (π × List (CardOp Card))}
    {log : List CardSeen} (hchosen : Chosen P ident sys₁) (run : Run M.step sys₁ sys log) :
    Chosen P ident sys ∧ sys.thread.pin = sys₁.thread.pin ∧
      M.Spent sys₁.thread.pin (2 * dhServed log) sys₁.reader sys.reader := by
  induction run with
  | start => exact ⟨hchosen, rfl, spent_of_adds (.refl _) ⟨rfl, rfl⟩⟩
  | @step sys log event sys' obs run next ih =>
      obtain ⟨hnow, hpin, hspent⟩ := ih
      obtain ⟨hleaves, hstep⟩ := guarded_eq_some.mp next
      have hworks := tracedStep_works hstep
      have hcount : dhServed (log ++ obs) = dhServed log + dhServed obs := List.countP_append
      have hmore : M.Spent sys₁.thread.pin (2 * dhServed obs) sys.reader sys'.reader ∧
          sys'.thread.pin = sys.thread.pin := by
        cases hworks with
        | @served r htaken _ hthread hreader =>
            rw [hreader, hthread, ← hpin]
            exact ⟨spent_process hnow.card hnow.thread r sys.reader, rfl⟩
        | moved s hthread hreader =>
            rw [hreader, hthread]
            have hsame : M.cardPin s = M.cardPin sys.reader.1 ∧ M.tries s = M.tries sys.reader.1 :=
              of_decide_eq_true hleaves
            exact ⟨spent_of_adds ⟨[], (List.append_nil _).symm, nofun⟩ hsame, rfl⟩
        | rested hthread hreader hobs =>
            rw [hreader, hthread]
            exact ⟨(spent_of_adds (.refl _) ⟨rfl, rfl⟩).mono (Nat.zero_le _), rfl⟩
      refine ⟨hnow.step hworks, hmore.2.trans hpin, ?_⟩
      rw [hcount, Nat.mul_add]
      exact hspent.trans hmore.1

end Run

/-- From the moment on at which the PIN of the card is not the stored one, the try counter is
what it was less the VERIFYs that the thread issued. So it comes to zero exactly if these are
as many as there were tries, and one request does not issue more than two. -/
theorem pin_counter_spent {requestedIdent : Ident} {pin : Pin} {s₀ : π}
    {sys₀ sys₁ sys : CardSystem Card (π × List (CardOp Card))} {log₁ log : List CardSeen}
    (hopen : openHandle P.traced requestedIdent pin (s₀, []) = .ok sys₀)
    (run₁ : Run (tracedStep P) sys₀ sys₁ log₁) (M : Meter P sys₀.handle.ident)
    (hchanged : sys₁.thread.pin ≠ M.cardPin sys₁.reader.1) (run : Run M.step sys₁ sys log) :
    ∃ ops, sys.reader.2 = sys₁.reader.2 ++ ops ∧
      M.tries sys.reader.1 = M.tries sys₁.reader.1 - verifies ops ∧
      (M.tries sys.reader.1 = 0 ↔ M.tries sys₁.reader.1 ≤ verifies ops) ∧
      verifies ops ≤ 2 * dhServed log := by
  obtain ⟨-, hopened⟩ := Chosen.opened hopen
  obtain ⟨-, -, hspent⟩ := Meter.run_spent (hopened.run run₁) run
  obtain ⟨ops, hops, -, htries, hbound⟩ := hspent hchanged
  refine ⟨ops, hops, htries, ?_, hbound⟩
  rw [htries]
  exact Nat.sub_eq_zero_iff_le

section Sample

/-- The PIN and the counter of the cards on the desk. -/
def deskMeter (ident : Ident) : Meter Pcsc.desk ident where
  cardPin := Desk.cardPin
  tries := Desk.tries
  probes :=
    { refl := fun _ => ⟨rfl, rfl⟩
      trans := fun h h' => ⟨h'.1.trans h.1, h'.2.trans h.2⟩
      cards := by
        rintro s out t h
        cases h
        exact ⟨rfl, rfl⟩
      newCard := by
        rintro card s out t h
        cases h
        exact ⟨rfl, rfl⟩
      transaction := by
        rintro card s out t h
        cases h
        exact ⟨rfl, rfl⟩
      applicationIdentifier := by
        rintro card s out t h
        cases h
        exact ⟨rfl, rfl⟩
      publicKeyMaterial := by
        rintro card s out t h
        cases h
        exact ⟨rfl, rfl⟩
      sleep := fun _ _ => ⟨rfl, rfl⟩ }
  decipher := by
    rintro card peerPk s out t h
    cases h
    exact ⟨rfl, rfl⟩
  accepted := by
    rintro card pin s t - h
    simp only [Pcsc.desk] at h
    split at h
    · next hpin =>
        cases h
        exact ⟨hpin.1, hpin.2, rfl, rfl⟩
    · cases h
  rejected := by
    rintro card pin s e t - h
    simp only [Pcsc.desk] at h
    split at h
    · cases h
    · cases h
      exact ⟨rfl, rfl⟩

/-- Another program has changed the PIN of the cards. -/
def changedDesk : CardSystem Ident (Desk × List (CardOp Ident)) :=
  { deskSystem with reader := (⟨[chosenIdent], false, "654321", 3⟩, deskSystem.reader.2) }

theorem changedDesk_run : Run (tracedStep Pcsc.desk) deskSystem changedDesk ([] ++ []) := by
  have hchange : tracedStep Pcsc.desk (.reader ⟨[chosenIdent], false, "654321", 3⟩) deskSystem =
      some (changedDesk, []) := rfl
  exact .step .start hchange

/-- The handshake asks for secrets, one after the other. -/
def changedRun (events : List (CardEvent Desk)) :
    Option (CardSystem Ident (Desk × List (CardOp Ident)) × List CardSeen) :=
  exec (deskMeter deskSystem.handle.ident).step events changedDesk

theorem oneRequest_isSome : (changedRun [.primeSs serverKey, .dequeue, .serve]).isSome := by
  decide +kernel

theorem threeRequests_isSome : (changedRun
    [.primeSs serverKey, .dequeue, .serve, .resume, .primeSs serverKey, .dequeue, .serve, .resume,
      .primeSs serverKey, .dequeue, .serve]).isSome := by
  decide +kernel

/-- One request leaves a try. -/
theorem one_request_leaves_try :
    ((changedRun [.primeSs serverKey, .dequeue, .serve]).get
      oneRequest_isSome).1.reader.1.tries ≠ 0 := by
  have run : Run (deskMeter deskSystem.handle.ident).step changedDesk
      ((changedRun [.primeSs serverKey, .dequeue, .serve]).get oneRequest_isSome).1
      ((changedRun [.primeSs serverKey, .dequeue, .serve]).get oneRequest_isSome).2 :=
    run_of_exec (Option.some_get oneRequest_isSome).symm
  have hchanged : changedDesk.thread.pin ≠
      (deskMeter deskSystem.handle.ident).cardPin changedDesk.reader.1 := by
    decide +kernel
  obtain ⟨ops, -, -, hblocked, hbound⟩ := pin_counter_spent deskSystem_opened changedDesk_run
    (deskMeter deskSystem.handle.ident) hchanged run
  have hserved : dhServed ((changedRun [.primeSs serverKey, .dequeue, .serve]).get
      oneRequest_isSome).2 = 1 := by
    decide +kernel
  intro hzero
  have hthree : 3 ≤ verifies ops := hblocked.mp hzero
  rw [hserved] at hbound
  exact absurd (hthree.trans hbound) (by decide)

/-- Three requests block the PIN, each by its first attempt alone. -/
theorem three_requests_block_pin :
    ¬ ∀ (requestedIdent : Ident) (pin : Pin) (s₀ : Desk)
      (sys₀ sys₁ sys : CardSystem Ident (Desk × List (CardOp Ident))) (log₁ log : List CardSeen),
      openHandle Pcsc.desk.traced requestedIdent pin (s₀, []) = .ok sys₀ →
      Run (tracedStep Pcsc.desk) sys₀ sys₁ log₁ → sys₁.thread.pin ≠ sys₁.reader.1.cardPin →
      sys₁.reader.1.tries = 3 → Run (deskMeter sys₀.handle.ident).step sys₁ sys log →
      sys.reader.1.tries ≠ 0 := by
  intro claim
  have run : Run (deskMeter deskSystem.handle.ident).step changedDesk _ _ :=
    run_of_exec (Option.some_get threeRequests_isSome).symm
  refine claim _ _ _ _ _ _ _ _ deskSystem_opened changedDesk_run (by decide +kernel) rfl run ?_
  decide +kernel

end Sample

end SmartGuard
