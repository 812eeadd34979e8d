import SmartGuard.Card.Protocol
import SmartGuard.Card.Trace

/-!
# The card that was chosen

The PIN and the peer keys go to cards of one identity only, from the opening of the card
over any number of reconnects. A reconnect that finds no card of the identity leaves the
one in use, and what that card answers later is replied.
-/

namespace SmartGuard

open EventRun RequestChannel StateLoop

variable {Backend Card π : Type} {P : Pcsc Backend Card π}

/-- A VERIFY or a DECIPHER goes to a card of the identity. -/
def CardOp.On (P : Pcsc Backend Card π) (ident : Ident) : CardOp Card → Prop
  | .verifyUserPin card _ => P.identity card = ident
  | .decipher card _ => P.identity card = ident
  | _ => True

theorem CardOp.IsProbe.on {op : CardOp Card} (h : op.IsProbe) (P : Pcsc Backend Card π)
    (ident : Ident) : op.On P ident := by
  cases op with
  | verifyUserPin card accepted => exact h.elim
  | decipher card peerPk => exact h.elim
  | _ => trivial

/-- An attempt on a card of the identity keeps to it. -/
theorem tryDecipher_on {ident : Ident} {card : Card} (hcard : P.identity card = ident)
    (pin : Pin) (peerPk : Key) (s : π × List (CardOp Card)) :
    Adds (CardOp.On P ident) s (tryDecipher P.traced card pin peerPk s).2 :=
  tryDecipher_adds (fun _ h => h.on P ident) (fun _ => hcard) (fun _ => hcard) pin peerPk s

section Reconnect

/-- The operation reports the identity. -/
def CardOp.Reports (ident : Ident) : CardOp Card → Prop
  | .applicationIdentifier _ answer => answer = some ident
  | _ => False

theorem traced_applicationIdentifier {card : Card} {s t : π × List (CardOp Card)}
    {answer : Option Ident} (h : P.traced.applicationIdentifier card s = (answer, t)) :
    t.2 = s.2 ++ [.applicationIdentifier card answer] := by
  obtain ⟨rfl, rfl⟩ := Prod.mk.inj h
  rfl

/-- A probe of a reconnect that finds nothing gets no report of the identity. -/
theorem reconnectTo_none {ident : Ident} {backend : Option Backend}
    {s t : π × List (CardOp Card)} (h : reconnectTo P.traced ident backend s = (none, t)) :
    Adds (fun op => ¬ op.Reports ident) s t := by
  unfold reconnectTo at h
  split at h
  · obtain rfl := (Prod.mk.inj h).2
    exact .refl _
  · split at h
    · next hnew =>
        obtain rfl := (Prod.mk.inj h).2
        exact .one (congrArg (·.2.2) hnew).symm id
    · next hnew =>
        have hopen : Adds (fun op => ¬ op.Reports ident) s _ :=
          .one (congrArg (·.2.2) hnew).symm id
        split at h
        · next htx =>
            obtain rfl := (Prod.mk.inj h).2
            exact hopen.trans (.one (congrArg (·.2.2) htx).symm id)
        · next htx =>
            have hbegun := hopen.trans (.one (congrArg (·.2.2) htx).symm id)
            split at h
            · next hai =>
                obtain rfl := (Prod.mk.inj h).2
                exact hbegun.trans (.one (traced_applicationIdentifier hai) nofun)
            · next hai =>
                split at h
                · cases h
                · next hne =>
                    obtain rfl := (Prod.mk.inj h).2
                    refine hbegun.trans (.one (traced_applicationIdentifier hai) ?_)
                    exact fun heq => hne (Option.some.inj heq)

/-- A probe of a reconnect that finds a card got the report of the identity from it. -/
theorem reconnectTo_some {ident : Ident} {backend : Option Backend} {card : Card}
    {s t : π × List (CardOp Card)} (h : reconnectTo P.traced ident backend s = (some card, t)) :
    ∃ op ∈ t.2, op.Reports ident := by
  unfold reconnectTo at h
  split at h
  · cases h
  · split at h
    · cases h
    · split at h
      · cases h
      · split at h
        · cases h
        · next hai =>
            split at h
            · next heq =>
                obtain rfl := (Prod.mk.inj h).2
                rw [traced_applicationIdentifier hai]
                exact ⟨_, List.mem_append_right _ List.mem_cons_self, congrArg some heq⟩
            · cases h

/-- A reconnect succeeds exactly if some card reports the identity, and otherwise it returns
an error and leaves the card in use. -/
theorem reconnect_finds_iff (card : Card) (ident : Ident) (s : π) :
    ((reconnect P.traced card ident (s, [])).1 = .ok () ↔
        ∃ op ∈ (reconnect P.traced card ident (s, [])).2.2.2, op.Reports ident) ∧
      ∀ e, (reconnect P.traced card ident (s, [])).1 = .error e →
        (reconnect P.traced card ident (s, [])).2.1 = card := by
  have hreconnected := reconnect_reconnected P.traced card ident (s, [])
  generalize reconnect P.traced card ident (s, []) = out at hreconnected ⊢
  have hquiet : ∀ {t : π × List (CardOp Card)},
      Adds (fun op => ¬ op.Reports ident) (s, []) t → ¬ ∃ op ∈ t.2, op.Reports ident :=
    fun hadds ⟨op, hop, hreports⟩ => hadds.all nofun op hop hreports
  cases hreconnected with
  | unlisted h =>
      have hnone := hquiet (.one (congrArg (·.2.2) h).symm id)
      exact ⟨⟨nofun, fun hsome => absurd hsome hnone⟩, fun _ _ => rfl⟩
  | missing listed h =>
      have hlisted : Adds (fun op => ¬ op.Reports ident) (s, []) _ :=
        .one (congrArg (·.2.2) listed).symm id
      have hsearch := findMap_none_rel Adds.refl Adds.trans
        (fun backend u v hprobe => reconnectTo_none hprobe) h
      have hnone := hquiet (hlisted.trans hsearch)
      exact ⟨⟨nofun, fun hsome => absurd hsome hnone⟩, fun _ _ => rfl⟩
  | found listed h =>
      obtain ⟨backend, -, u, hprobe⟩ := exists_of_findMap h
      exact ⟨⟨fun _ => reconnectTo_some hprobe, fun _ => rfl⟩, nofun⟩

end Reconnect

section Run

/-- The thread keeps to the identity: its card has it, and so has every card that a VERIFY
or a DECIPHER went to. -/
structure Chosen (P : Pcsc Backend Card π) (ident : Ident)
    (sys : CardSystem Card (π × List (CardOp Card))) : Prop where
  card : P.identity sys.thread.card = ident
  thread : sys.thread.ident = ident
  record : ∀ op ∈ sys.reader.2, op.On P ident

theorem process_on {ident : Ident} {thread : CardThread Card}
    (hcard : P.identity thread.card = ident) (hident : thread.ident = ident)
    (request : CardRequest) (s : π × List (CardOp Card)) :
    P.identity (process P.traced thread request s).2.1 = ident ∧
      Adds (CardOp.On P ident) s (process P.traced thread request s).2.2 := by
  have hR : P.traced.Probes (Adds (CardOp.On P ident)) := probes_adds fun _ h => h.on P ident
  cases request with
  | dh peerPk =>
      subst hident
      constructor
      · exact decipherWithRetry_identity (P := P.traced) hcard thread.pin peerPk s
      · exact hR.decipherWithRetry (fun card hon => tryDecipher_on (P := P) hon _ _) hcard s
  | pubKey => exact ⟨hcard, hR.readPublicKey thread.card s⟩

theorem Chosen.step {ident : Ident} {event : CardEvent π}
    {sys sys' : CardSystem Card (π × List (CardOp Card))} {obs : List CardSeen}
    (h : Chosen P ident sys) (next : Works P sys event sys' obs) : Chosen P ident sys' := by
  cases next with
  | @served r htaken _ hthread hreader =>
      obtain ⟨hcard, hadds⟩ := process_on h.card h.thread r.body sys.reader
      refine ⟨?_, ?_, ?_⟩
      · rw [hthread]
        exact hcard
      · rw [hthread]
        exact h.thread
      · rw [hreader]
        exact hadds.all h.record
  | moved s hthread hreader =>
      refine ⟨hthread ▸ h.card, hthread ▸ h.thread, ?_⟩
      rw [hreader]
      exact h.record
  | rested hthread hreader hobs =>
      exact ⟨hthread ▸ h.card, hthread ▸ h.thread, hreader ▸ h.record⟩

/-- Whether or not the card can be opened, the PIN goes to cards of one identity only: the
requested one if there is one, and the one that is reported. -/
theorem openAndVerify_on (requestedIdent : Ident) (pin : Pin) (s : π) :
    ∃ ident, (requestedIdent ≠ "auto" → ident = requestedIdent) ∧
      (∀ op ∈ (openAndVerify P.traced requestedIdent pin (s, [])).2.2, op.On P ident) ∧
      ∀ card i, (openAndVerify P.traced requestedIdent pin (s, [])).1 = some (.ok (card, i)) →
        i = ident := by
  have hR : ∀ ident, P.traced.Probes (Adds (CardOp.On P ident)) :=
    fun ident => probes_adds fun _ h => h.on P ident
  have hopened := openAndVerify_opened P.traced requestedIdent pin (s, [])
  generalize openAndVerify P.traced requestedIdent pin (s, []) = out at hopened ⊢
  have hsearch : ∀ ident {backends t found u}, P.traced.cards (s, []) = (.ok backends, t) →
      findMap (openCard P.traced requestedIdent) backends t = (found, u) →
        Adds (CardOp.On P ident) (s, []) u := by
    intro ident backends t found u listed h
    have hloop := findMap_rel (hR ident).refl (hR ident).trans
      ((hR ident).openCard requestedIdent) backends t
    rw [h] at hloop
    exact ((hR ident).cards listed).trans hloop
  have hpin : ∀ {ident card u out v}, P.identity card = ident →
      P.traced.verifyUserPin card pin u = (out, v) → Adds (CardOp.On P ident) u v := by
    intro ident card u out v hcard h
    have hon : CardOp.On P ident (.verifyUserPin card (P.verifyUserPin card pin u.1).1.isOk) :=
      hcard
    exact .one (congrArg (·.2.2) h).symm hon
  cases hopened with
  | unlisted h =>
      exact ⟨requestedIdent, fun _ => rfl, ((hR requestedIdent).cards h).all nofun, nofun⟩
  | missing listed h =>
      exact ⟨requestedIdent, fun _ => rfl, (hsearch requestedIdent listed h).all nofun, nofun⟩
  | unfit listed h =>
      exact ⟨requestedIdent, fun _ => rfl, (hsearch requestedIdent listed h).all nofun, nofun⟩
  | busy listed found h =>
      refine ⟨requestedIdent, fun _ => rfl, ?_, nofun⟩
      exact ((hsearch requestedIdent listed found).trans
        ((hR requestedIdent).transaction h)).all nofun
  | @rejected backends t card ident u v e w listed found begun h =>
      obtain ⟨backend, -, x, hprobe⟩ := exists_of_findMap found
      obtain ⟨hcard, hrequested, -⟩ := openCard_found hprobe
      refine ⟨ident, hrequested, ?_, nofun⟩
      exact ((hsearch ident listed found).trans
        (((hR ident).transaction begun).trans (hpin hcard h))).all nofun
  | @opened backends t card ident u w listed found h =>
      obtain ⟨backend, -, x, hprobe⟩ := exists_of_findMap found
      obtain ⟨hcard, hrequested, -⟩ := openCard_found hprobe
      obtain ⟨v, begun, hverify⟩ := h
      refine ⟨ident, hrequested, ?_, ?_⟩
      · exact ((hsearch ident listed found).trans
          (((hR ident).transaction begun).trans (hpin hcard hverify))).all nofun
      · intro card' i heq
        cases heq
        rfl

theorem Chosen.opened {requestedIdent : Ident} {pin : Pin} {s : π}
    {sys : CardSystem Card (π × List (CardOp Card))}
    (h : openHandle P.traced requestedIdent pin (s, []) = .ok sys) :
    (requestedIdent ≠ "auto" → sys.handle.ident = requestedIdent) ∧
      Chosen P sys.handle.ident sys := by
  obtain ⟨ident, hrequested, hon, hreported⟩ := openAndVerify_on (P := P) requestedIdent pin s
  obtain ⟨card, i, t, hopen, rfl⟩ := openHandle_ok h
  have hcard := openAndVerify_identity hopen
  rw [hopen] at hon hreported
  obtain rfl := hreported card i rfl
  exact ⟨hrequested, hcard, rfl, hon⟩

theorem Chosen.run {ident : Ident} {sys₀ sys : CardSystem Card (π × List (CardOp Card))}
    {log : List CardSeen} (h : Chosen P ident sys₀) (run : Run (tracedStep P) sys₀ sys log) :
    Chosen P ident sys := by
  induction run with
  | start => exact h
  | step run next ih => exact ih.step (tracedStep_works next)

/-- A request whose attempt succeeds is answered with its secret, and one whose reconnect
fails with the error of that. Either way the thread keeps its card. -/
theorem tracedStep_serve_dh {sys : CardSystem Card (π × List (CardOp Card))}
    {r : Request CardRequest} {peerPk : Key} {result : Except SmartcardError Key}
    {t : π × List (CardOp Card)} (htaken : sys.channel.taken = some r)
    (hbody : r.body = .dh peerPk)
    (hout : decipherWithRetry P.traced sys.thread.card sys.thread.ident sys.thread.pin peerPk
      sys.reader = (result, sys.thread.card, t)) :
    ∃ sys', tracedStep P .serve sys =
        some (sys', [.served r.reply (.dh peerPk) (some result)]) ∧ sys'.thread = sys.thread := by
  have hprocess : process P.traced sys.thread r.body sys.reader =
      (some result, sys.thread.card, t) := by
    rw [hbody, process, hout]
  have hserve : tracedStep P .serve sys = _ := serve_eq (P := P.traced) htaken
  rw [hprocess, hbody] at hserve
  exact ⟨_, hserve, rfl⟩

end Run

/-- Every VERIFY and every DECIPHER goes to a card of the identity that is reported, which
is the requested one if there is one. A reconnect succeeds exactly if some card reports
that identity. If it fails, the request gets its error and the card in use stays, and a
later request that this card answers gets its secret. -/
theorem card_ops_on_chosen_card (P : Pcsc Backend Card π) (requestedIdent : Ident) (pin : Pin)
    (s₀ : π) :
    (∃ ident, (requestedIdent ≠ "auto" → ident = requestedIdent) ∧
      (∀ op ∈ (openAndVerify P.traced requestedIdent pin (s₀, [])).2.2, op.On P ident) ∧
      ∀ card i, (openAndVerify P.traced requestedIdent pin (s₀, [])).1 = some (.ok (card, i)) →
        i = ident) ∧
    ∀ sys₀ sys log, openHandle P.traced requestedIdent pin (s₀, []) = .ok sys₀ →
      Run (tracedStep P) sys₀ sys log →
      (requestedIdent ≠ "auto" → sys₀.handle.ident = requestedIdent) ∧
      (∀ op ∈ sys.reader.2, op.On P sys₀.handle.ident) ∧
      (∀ s,
        ((reconnect P.traced sys.thread.card sys.thread.ident (s, [])).1 = .ok () ↔
          ∃ op ∈ (reconnect P.traced sys.thread.card sys.thread.ident (s, [])).2.2.2,
            op.Reports sys₀.handle.ident) ∧
        ∀ e, (reconnect P.traced sys.thread.card sys.thread.ident (s, [])).1 = .error e →
          (reconnect P.traced sys.thread.card sys.thread.ident (s, [])).2.1 = sys.thread.card) ∧
      ∀ r peerPk, sys.channel.taken = some r → r.body = .dh peerPk →
        (∀ key t, tryDecipher P.traced sys.thread.card sys.thread.pin peerPk sys.reader =
            (.ok key, t) →
          ∃ sys', tracedStep P .serve sys =
            some (sys', [.served r.reply (.dh peerPk) (some (.ok key))]) ∧
              sys'.thread = sys.thread) ∧
        ∀ e t e' card u,
          tryDecipher P.traced sys.thread.card sys.thread.pin peerPk sys.reader = (.error e, t) →
          reconnect P.traced sys.thread.card sys.thread.ident (P.traced.sleep 5 t) =
            (.error e', card, u) →
          ∃ sys', tracedStep P .serve sys =
            some (sys', [.served r.reply (.dh peerPk) (some (.error e'))]) ∧
              sys'.thread = sys.thread := by
  refine ⟨openAndVerify_on requestedIdent pin s₀, ?_⟩
  intro sys₀ sys log hopen run
  obtain ⟨hrequested, hstart⟩ := Chosen.opened hopen
  have hchosen := hstart.run run
  refine ⟨hrequested, hchosen.record, ?_, ?_⟩
  · intro s
    have hfinds := reconnect_finds_iff (P := P) sys.thread.card sys.thread.ident s
    rw [hchosen.thread] at hfinds ⊢
    exact hfinds
  · intro r peerPk htaken hbody
    constructor
    · intro key t hfirst
      apply tracedStep_serve_dh htaken hbody
      rw [decipherWithRetry, hfirst]
    · intro e t e' card u hfirst hlost
      have hcard : card = sys.thread.card := by
        have hreconnected :=
          reconnect_reconnected P.traced sys.thread.card sys.thread.ident (P.traced.sleep 5 t)
        rw [hlost] at hreconnected
        cases hreconnected with
        | unlisted h => rfl
        | missing listed h => rfl
      apply tracedStep_serve_dh htaken hbody
      rw [decipherWithRetry, hfirst]
      dsimp only
      rw [hlost, hcard]

section Sample

/-- A desk with a reader: the cards on it, whether another program holds them, and the PIN
they share with its counter. -/
structure Desk where
  listed : List Ident
  busy : Bool
  cardPin : Pin
  tries : Nat

/-- A card on the desk deciphers a key to its own bytes. -/
def Pcsc.desk : Pcsc Ident Ident Desk where
  cards s := (.ok (s.listed.map some), s)
  newCard card s := (some card, s)
  transaction _ s := (if s.busy then .error "sharing violation" else .ok (), s)
  applicationIdentifier card s := (some card, s)
  publicKeyMaterial _ s := (some (.E (List.replicate 32 9)), s)
  verifyUserPin _ pin s :=
    if pin = s.cardPin ∧ 0 < s.tries then (.ok (), { s with tries := 3 })
    else (.error "PIN rejected", { s with tries := s.tries - 1 })
  decipher _ pk s := (.ok pk.bytes, s)
  sleep _ s := s
  identity card := card
  identifies h := (Option.some.inj (Prod.mk.inj h).1).symm

def spareIdent : Ident := "0006:00000001"

def chosenIdent : Ident := "0006:00000002"

/-- Both cards are on the desk, and one of them is asked for. -/
def deskOpened : Except SmartcardError (CardSystem Ident (Desk × List (CardOp Ident))) :=
  openHandle Pcsc.desk.traced chosenIdent "123456"
    (⟨[spareIdent, chosenIdent], false, "123456", 3⟩, [])

theorem eq_ok_get {ε α : Type} {x : Except ε α} (h : x.toOption.isSome) :
    x = .ok (x.toOption.get h) := by
  cases x with
  | ok a => rfl
  | error e => cases h

theorem deskOpened_isSome : deskOpened.toOption.isSome := by
  decide +kernel

def deskSystem : CardSystem Ident (Desk × List (CardOp Ident)) :=
  deskOpened.toOption.get deskOpened_isSome

theorem deskSystem_opened :
    openHandle Pcsc.desk.traced chosenIdent "123456"
      (⟨[spareIdent, chosenIdent], false, "123456", 3⟩, []) = .ok deskSystem :=
  eq_ok_get deskOpened_isSome

/-- The other card is left on the desk, another program is busy with it, and then a
request comes. -/
def removedRun : Option (CardSystem Ident (Desk × List (CardOp Ident)) × List CardSeen) :=
  exec (tracedStep Pcsc.desk)
    [.primeSs serverKey, .dequeue, .reader ⟨[spareIdent], true, "123456", 3⟩, .serve] deskSystem

theorem removedRun_isSome : removedRun.isSome := by
  decide +kernel

/-- The PIN never went to the other card. -/
theorem removed_card_keeps_pin :
    ∀ op ∈ (removedRun.get removedRun_isSome).1.reader.2, op.On Pcsc.desk chosenIdent := by
  have run : Run (tracedStep Pcsc.desk) deskSystem (removedRun.get removedRun_isSome).1
      (removedRun.get removedRun_isSome).2 :=
    run_of_exec (Option.some_get removedRun_isSome).symm
  obtain ⟨-, hrun⟩ := card_ops_on_chosen_card Pcsc.desk chosenIdent "123456"
    ⟨[spareIdent, chosenIdent], false, "123456", 3⟩
  obtain ⟨hrequested, hon, -⟩ := hrun _ _ _ deskSystem_opened run
  have hident : deskSystem.handle.ident = chosenIdent := hrequested (by decide)
  exact hident ▸ hon

end Sample

end SmartGuard
