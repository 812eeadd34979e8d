import SmartGuard.Card.Protocol

/-!
# What the thread asks of the reader

A reader can record each of its operations with what came of it. The thread runs on the
recording reader as on the plain one, and the record then shows what was issued.

## Implementation notes

VERIFY and DECIPHER are the operations that matter to a card. All others probe: a
relation between reader states that every probe keeps is kept by each search.
-/

namespace SmartGuard

open EventRun RequestChannel StateLoop

/-- An operation of the reader, with what came of it where that matters. -/
inductive CardOp (Card : Type)
  | cards
  | newCard
  | transaction (card : Card)
  | applicationIdentifier (card : Card) (answer : Option Ident)
  | publicKeyMaterial (card : Card) (answer : Option PublicKeyMaterial)
  | verifyUserPin (card : Card) (accepted : Bool)
  | decipher (card : Card) (peerPk : Key)
  | sleep (secs : Nat)

/-- The operation is neither a VERIFY nor a DECIPHER. -/
def CardOp.IsProbe {Card : Type} : CardOp Card → Prop
  | .verifyUserPin _ _ => False
  | .decipher _ _ => False
  | _ => True

variable {Backend Card π : Type}

/-- The same reader with a record of every operation. -/
def Pcsc.traced (P : Pcsc Backend Card π) : Pcsc Backend Card (π × List (CardOp Card)) where
  cards s :=
    let out := P.cards s.1
    (out.1, out.2, s.2 ++ [.cards])
  newCard backend s :=
    let out := P.newCard backend s.1
    (out.1, out.2, s.2 ++ [.newCard])
  transaction card s :=
    let out := P.transaction card s.1
    (out.1, out.2, s.2 ++ [.transaction card])
  applicationIdentifier card s :=
    let out := P.applicationIdentifier card s.1
    (out.1, out.2, s.2 ++ [.applicationIdentifier card out.1])
  publicKeyMaterial card s :=
    let out := P.publicKeyMaterial card s.1
    (out.1, out.2, s.2 ++ [.publicKeyMaterial card out.1])
  verifyUserPin card pin s :=
    let out := P.verifyUserPin card pin s.1
    (out.1, out.2, s.2 ++ [.verifyUserPin card out.1.isOk])
  decipher card peerPk s :=
    let out := P.decipher card peerPk s.1
    (out.1, out.2, s.2 ++ [.decipher card peerPk])
  sleep secs s := (P.sleep secs s.1, s.2 ++ [.sleep secs])
  identity := P.identity
  identifies h := P.identifies (Prod.ext (Prod.mk.inj h).1 rfl)

section Probes

/-- A reflexive and transitive relation that every probe of the reader keeps. -/
structure Pcsc.Probes (P : Pcsc Backend Card π) (R : π → π → Prop) : Prop where
  refl : ∀ s, R s s
  trans : ∀ {s t u}, R s t → R t u → R s u
  cards : ∀ {s out t}, P.cards s = (out, t) → R s t
  newCard : ∀ {backend s out t}, P.newCard backend s = (out, t) → R s t
  transaction : ∀ {card s out t}, P.transaction card s = (out, t) → R s t
  applicationIdentifier : ∀ {card s out t}, P.applicationIdentifier card s = (out, t) → R s t
  publicKeyMaterial : ∀ {card s out t}, P.publicKeyMaterial card s = (out, t) → R s t
  sleep : ∀ secs s, R s (P.sleep secs s)

variable {P : Pcsc Backend Card π} {R : π → π → Prop}

theorem Pcsc.Probes.openCard (hR : P.Probes R) (requestedIdent : Ident)
    (backend : Option Backend) (s : π) : R s (openCard P requestedIdent backend s).2 := by
  unfold SmartGuard.openCard
  split
  · exact hR.refl s
  · split
    · next hnew => exact hR.newCard hnew
    · next hnew =>
        have hopen := hR.newCard hnew
        split
        · next htx => exact hR.trans hopen (hR.transaction htx)
        · next htx =>
            have hbegun := hR.trans hopen (hR.transaction htx)
            split
            · next hai => exact hR.trans hbegun (hR.applicationIdentifier hai)
            · next hai =>
                have hnamed := hR.trans hbegun (hR.applicationIdentifier hai)
                split
                · exact hnamed
                · split
                  · next hmaterial =>
                      have hread := hR.trans hnamed (hR.publicKeyMaterial hmaterial)
                      split
                      · exact hread
                      · split
                        · exact hread
                        · exact hread
                  · next hmaterial =>
                      have hread := hR.trans hnamed (hR.publicKeyMaterial hmaterial)
                      split
                      · exact hread
                      · exact hread

theorem Pcsc.Probes.reconnectTo (hR : P.Probes R) (ident : Ident) (backend : Option Backend)
    (s : π) : R s (reconnectTo P ident backend s).2 := by
  unfold SmartGuard.reconnectTo
  split
  · exact hR.refl s
  · split
    · next hnew => exact hR.newCard hnew
    · next hnew =>
        have hopen := hR.newCard hnew
        split
        · next htx => exact hR.trans hopen (hR.transaction htx)
        · next htx =>
            have hbegun := hR.trans hopen (hR.transaction htx)
            split
            · next hai => exact hR.trans hbegun (hR.applicationIdentifier hai)
            · next hai =>
                have hnamed := hR.trans hbegun (hR.applicationIdentifier hai)
                split
                · exact hnamed
                · exact hnamed

theorem Pcsc.Probes.reconnect (hR : P.Probes R) (card : Card) (ident : Ident) (s : π) :
    R s (reconnect P card ident s).2.2 := by
  have hreconnected := reconnect_reconnected P card ident s
  generalize SmartGuard.reconnect P card ident s = out at hreconnected ⊢
  cases hreconnected with
  | unlisted h => exact hR.cards h
  | @missing backends t u listed h =>
      have hsearch := findMap_rel hR.refl hR.trans (hR.reconnectTo ident) backends t
      rw [h] at hsearch
      exact hR.trans (hR.cards listed) hsearch
  | @found backends t newCard u listed h =>
      have hsearch := findMap_rel hR.refl hR.trans (hR.reconnectTo ident) backends t
      rw [h] at hsearch
      exact hR.trans (hR.cards listed) hsearch

theorem Pcsc.Probes.readPublicKey (hR : P.Probes R) (card : Card) (s : π) :
    R s (readPublicKey P card s).2 := by
  rw [SmartGuard.readPublicKey]
  split
  · next htx => exact hR.transaction htx
  · next htx =>
      have hbegun := hR.transaction htx
      split
      · next hmaterial => exact hR.trans hbegun (hR.publicKeyMaterial hmaterial)
      · next hmaterial => exact hR.trans hbegun (hR.publicKeyMaterial hmaterial)

/-- What the probes and every attempt on a card of the identity keep, a request keeps. -/
theorem Pcsc.Probes.decipherWithRetry (hR : P.Probes R) {ident : Ident} {pin : Pin}
    {peerPk : Key} (htry : ∀ card, P.identity card = ident → ∀ s,
      R s (tryDecipher P card pin peerPk s).2)
    {card : Card} (hcard : P.identity card = ident) (s : π) :
    R s (decipherWithRetry P card ident pin peerPk s).2.2 := by
  have hretried := decipherWithRetry_retried P card ident pin peerPk s
  have hfirst := htry card hcard s
  generalize SmartGuard.decipherWithRetry P card ident pin peerPk s = out at hretried ⊢
  cases hretried with
  | first h =>
      rw [h] at hfirst
      exact hfirst
  | @lost e t e' card' u failed h =>
      have hsearch := hR.reconnect card ident (P.sleep 5 t)
      rw [failed] at hfirst
      rw [h] at hsearch
      exact hR.trans hfirst (hR.trans (hR.sleep 5 t) hsearch)
  | @again e t card' u failed h =>
      have hsearch := hR.reconnect card ident (P.sleep 5 t)
      have hcard' := reconnect_identity (P := P) hcard (P.sleep 5 t)
      rw [failed] at hfirst
      rw [h] at hsearch hcard'
      exact hR.trans (hR.trans hfirst (hR.trans (hR.sleep 5 t) hsearch)) (htry card' hcard' u)

theorem Pcsc.Probes.and {R' : π → π → Prop} (hR : P.Probes R) (hR' : P.Probes R') :
    P.Probes fun s t => R s t ∧ R' s t where
  refl s := ⟨hR.refl s, hR'.refl s⟩
  trans h h' := ⟨hR.trans h.1 h'.1, hR'.trans h.2 h'.2⟩
  cards h := ⟨hR.cards h, hR'.cards h⟩
  newCard h := ⟨hR.newCard h, hR'.newCard h⟩
  transaction h := ⟨hR.transaction h, hR'.transaction h⟩
  applicationIdentifier h := ⟨hR.applicationIdentifier h, hR'.applicationIdentifier h⟩
  publicKeyMaterial h := ⟨hR.publicKeyMaterial h, hR'.publicKeyMaterial h⟩
  sleep secs s := ⟨hR.sleep secs s, hR'.sleep secs s⟩

end Probes

section Record

variable {P : Pcsc Backend Card π}

/-- An outcome with the record is the outcome without it. -/
theorem eq_of_traced {α : Type} {out : α × π} {record : List (CardOp Card)} {a : α}
    {t : π × List (CardOp Card)} (h : (out.1, out.2, record) = (a, t)) : out = (a, t.1) := by
  obtain ⟨hout, ht⟩ := Prod.mk.inj h
  exact Prod.ext hout (congrArg Prod.fst ht)

/-- What probes keep without the record, they keep with it. -/
theorem Pcsc.Probes.traced {R : π → π → Prop} (hR : P.Probes R) :
    P.traced.Probes fun s t => R s.1 t.1 where
  refl s := hR.refl s.1
  trans h h' := hR.trans h h'
  cards h := hR.cards (eq_of_traced h)
  newCard h := hR.newCard (eq_of_traced h)
  transaction h := hR.transaction (eq_of_traced h)
  applicationIdentifier h := hR.applicationIdentifier (eq_of_traced h)
  publicKeyMaterial h := hR.publicKeyMaterial (eq_of_traced h)
  sleep secs s := hR.sleep secs s.1

/-- The record grew by operations that satisfy `Q`. -/
def Adds (Q : CardOp Card → Prop) (s t : π × List (CardOp Card)) : Prop :=
  ∃ ops, t.2 = s.2 ++ ops ∧ ∀ op ∈ ops, Q op

variable {Q : CardOp Card → Prop}

theorem Adds.refl (s : π × List (CardOp Card)) : Adds Q s s :=
  ⟨[], (List.append_nil _).symm, nofun⟩

theorem Adds.trans {s t u : π × List (CardOp Card)} (h : Adds Q s t) (h' : Adds Q t u) :
    Adds Q s u := by
  obtain ⟨ops, hops, hall⟩ := h
  obtain ⟨ops', hops', hall'⟩ := h'
  refine ⟨ops ++ ops', ?_, List.forall_mem_append.mpr ⟨hall, hall'⟩⟩
  rw [hops', hops, List.append_assoc]

theorem Adds.one {s t : π × List (CardOp Card)} {op : CardOp Card} (h : t.2 = s.2 ++ [op])
    (hop : Q op) : Adds Q s t :=
  ⟨[op], h, List.forall_mem_singleton.mpr hop⟩

theorem Adds.all {s t : π × List (CardOp Card)} (h : Adds Q s t) (hs : ∀ op ∈ s.2, Q op) :
    ∀ op ∈ t.2, Q op := by
  obtain ⟨ops, hops, hall⟩ := h
  rw [hops]
  exact List.forall_mem_append.mpr ⟨hs, hall⟩

/-- Probes add probes to the record. -/
theorem probes_adds (hQ : ∀ op : CardOp Card, op.IsProbe → Q op) : P.traced.Probes (Adds Q) where
  refl := .refl
  trans := .trans
  cards h := .one (congrArg (·.2.2) h).symm (hQ _ (by trivial))
  newCard h := .one (congrArg (·.2.2) h).symm (hQ _ (by trivial))
  transaction h := .one (congrArg (·.2.2) h).symm (hQ _ (by trivial))
  applicationIdentifier h := .one (congrArg (·.2.2) h).symm (hQ _ (by trivial))
  publicKeyMaterial h := .one (congrArg (·.2.2) h).symm (hQ _ (by trivial))
  sleep secs s := .one rfl (hQ _ (by trivial))

/-- An attempt adds probes, and a VERIFY and a DECIPHER on its card. -/
theorem tryDecipher_adds (hQ : ∀ op : CardOp Card, op.IsProbe → Q op) {card : Card}
    (hverify : ∀ accepted, Q (.verifyUserPin card accepted))
    (hdecipher : ∀ peerPk, Q (.decipher card peerPk)) (pin : Pin) (peerPk : Key)
    (s : π × List (CardOp Card)) : Adds Q s (tryDecipher P.traced card pin peerPk s).2 := by
  have hR : P.traced.Probes (Adds Q) := probes_adds hQ
  have hpin : ∀ {s out t}, P.traced.verifyUserPin card pin s = (out, t) → Adds Q s t :=
    fun h => .one (congrArg (·.2.2) h).symm (hverify _)
  have hss : ∀ {s out t}, P.traced.decipher card peerPk s = (out, t) → Adds Q s t :=
    fun h => .one (congrArg (·.2.2) h).symm (hdecipher _)
  have hverified : ∀ {s t}, Verified P.traced card pin s t → Adds Q s t :=
    fun ⟨_, begun, h⟩ => (hR.transaction begun).trans (hpin h)
  have hanswered : ∀ {s ss t}, Deciphered P.traced card pin peerPk s ss t → Adds Q s t :=
    fun ⟨_, verified, h⟩ => (hverified verified).trans (hss h)
  have hattempt := tryDecipher_attempt P.traced card pin peerPk s
  generalize tryDecipher P.traced card pin peerPk s = out at hattempt ⊢
  cases hattempt with
  | busy h => exact hR.transaction h
  | rejected begun h => exact (hR.transaction begun).trans (hpin h)
  | failed verified h => exact (hverified verified).trans (hss h)
  | short h hshort => exact hanswered h
  | zero h hkey hzero => exact hanswered h
  | answered h hkey hvalid => exact hanswered h

end Record

section Untraced

variable {P : Pcsc Backend Card π}

theorem tryDecipher_untraced (card : Card) (pin : Pin) (peerPk : Key)
    (s : π × List (CardOp Card)) :
    Prod.map id Prod.fst (tryDecipher P.traced card pin peerPk s) =
      tryDecipher P card pin peerPk s.1 := by
  unfold tryDecipher
  simp only [Pcsc.traced]
  obtain ⟨_ | _, t⟩ := P.transaction card s.1
  · rfl
  · dsimp only
    obtain ⟨_ | _, u⟩ := P.verifyUserPin card pin t
    · rfl
    · dsimp only
      obtain ⟨_ | ss, v⟩ := P.decipher card peerPk u
      · rfl
      · dsimp only
        cases firstChunk ss with
        | none => rfl
        | some key =>
            dsimp only
            split
            · rfl
            · rfl

theorem readPublicKey_untraced (card : Card) (s : π × List (CardOp Card)) :
    Prod.map id Prod.fst (readPublicKey P.traced card s) = readPublicKey P card s.1 := by
  unfold readPublicKey
  simp only [Pcsc.traced]
  obtain ⟨_ | _, t⟩ := P.transaction card s.1
  · rfl
  · dsimp only
    obtain ⟨_ | _ | _, u⟩ := P.publicKeyMaterial card t
    · rfl
    · rfl
    · rfl

theorem reconnectTo_untraced (ident : Ident) (backend : Option Backend)
    (s : π × List (CardOp Card)) :
    Prod.map id Prod.fst (reconnectTo P.traced ident backend s) =
      reconnectTo P ident backend s.1 := by
  unfold reconnectTo
  simp only [Pcsc.traced]
  cases backend with
  | none => rfl
  | some backend =>
      dsimp only
      obtain ⟨_ | newCard, t⟩ := P.newCard backend s.1
      · rfl
      · dsimp only
        obtain ⟨_ | _, u⟩ := P.transaction newCard t
        · rfl
        · dsimp only
          obtain ⟨_ | ai, v⟩ := P.applicationIdentifier newCard u
          · rfl
          · dsimp only
            split
            · rfl
            · rfl

theorem openCard_untraced (requestedIdent : Ident) (backend : Option Backend)
    (s : π × List (CardOp Card)) :
    Prod.map id Prod.fst (openCard P.traced requestedIdent backend s) =
      openCard P requestedIdent backend s.1 := by
  unfold openCard
  simp only [Pcsc.traced]
  cases backend with
  | none => rfl
  | some backend =>
      dsimp only
      obtain ⟨_ | card, t⟩ := P.newCard backend s.1
      · rfl
      · dsimp only
        obtain ⟨_ | _, u⟩ := P.transaction card t
        · rfl
        · dsimp only
          obtain ⟨_ | ai, v⟩ := P.applicationIdentifier card u
          · rfl
          · dsimp only
            split
            · rfl
            · obtain ⟨_ | data | _, w⟩ := P.publicKeyMaterial card v
              · dsimp only
                split
                · rfl
                · rfl
              · dsimp only
                split
                · rfl
                · split
                  · rfl
                  · rfl
              · dsimp only
                split
                · rfl
                · rfl

theorem reconnect_untraced (card : Card) (ident : Ident) (s : π × List (CardOp Card)) :
    Prod.map id (Prod.map id Prod.fst) (reconnect P.traced card ident s) =
      reconnect P card ident s.1 := by
  have hcards : P.traced.cards s = ((P.cards s.1).1, (P.cards s.1).2, s.2 ++ [.cards]) := rfl
  rw [reconnect, reconnect, hcards]
  obtain ⟨_ | backends, t⟩ := P.cards s.1
  · rfl
  · have hsearch : Prod.map id Prod.fst
        (findMap (reconnectTo P.traced ident) backends (t, s.2 ++ [.cards])) =
          findMap (reconnectTo P ident) backends t :=
      findMap_map (reconnectTo_untraced ident) _ _
    dsimp only
    rw [← hsearch]
    generalize findMap (reconnectTo P.traced ident) backends (t, s.2 ++ [.cards]) = out
    obtain ⟨_ | newCard, u⟩ := out
    · rfl
    · rfl

theorem decipherWithRetry_untraced (card : Card) (ident : Ident) (pin : Pin) (peerPk : Key)
    (s : π × List (CardOp Card)) :
    Prod.map id (Prod.map id Prod.fst) (decipherWithRetry P.traced card ident pin peerPk s) =
      decipherWithRetry P card ident pin peerPk s.1 := by
  rw [decipherWithRetry, decipherWithRetry, ← tryDecipher_untraced]
  generalize tryDecipher P.traced card pin peerPk s = first
  obtain ⟨_ | key, t⟩ := first
  · have hreconnect : Prod.map id (Prod.map id Prod.fst)
        (reconnect P.traced card ident (P.traced.sleep 5 t)) =
          reconnect P card ident (P.sleep 5 t.1) := reconnect_untraced card ident _
    dsimp only [Prod.map_apply, id]
    rw [← hreconnect]
    generalize reconnect P.traced card ident (P.traced.sleep 5 t) = out
    obtain ⟨_ | _, card', u⟩ := out
    · rfl
    · dsimp only [Prod.map_apply, id]
      rw [← tryDecipher_untraced]
      rfl
  · rfl

theorem selectCard_untraced (requestedIdent : Ident) (s : π × List (CardOp Card)) :
    Prod.map id Prod.fst (selectCard P.traced requestedIdent s) =
      selectCard P requestedIdent s.1 := by
  have hcards : P.traced.cards s = ((P.cards s.1).1, (P.cards s.1).2, s.2 ++ [.cards]) := rfl
  rw [selectCard, selectCard, hcards]
  obtain ⟨_ | backends, t⟩ := P.cards s.1
  · rfl
  · have hsearch : Prod.map id Prod.fst
        (findMap (openCard P.traced requestedIdent) backends (t, s.2 ++ [.cards])) =
          findMap (openCard P requestedIdent) backends t :=
      findMap_map (openCard_untraced requestedIdent) _ _
    dsimp only
    rw [← hsearch]
    generalize findMap (openCard P.traced requestedIdent) backends (t, s.2 ++ [.cards]) = out
    obtain ⟨_ | result, u⟩ := out
    · rfl
    · rfl

theorem openAndVerify_untraced (requestedIdent : Ident) (pin : Pin)
    (s : π × List (CardOp Card)) :
    Prod.map id Prod.fst (openAndVerify P.traced requestedIdent pin s) =
      openAndVerify P requestedIdent pin s.1 := by
  rw [openAndVerify, openAndVerify, ← selectCard_untraced]
  obtain ⟨_ | ⟨card, ident⟩, u⟩ := selectCard P.traced requestedIdent s
  · rfl
  · simp only [Pcsc.traced, Prod.map, id]
    obtain ⟨_ | _, v⟩ := P.transaction card u.1
    · rfl
    · dsimp only
      obtain ⟨_ | _, w⟩ := P.verifyUserPin card pin v
      · rfl
      · rfl

theorem process_untraced (thread : CardThread Card) (request : CardRequest)
    (s : π × List (CardOp Card)) :
    Prod.map id (Prod.map id Prod.fst) (process P.traced thread request s) =
      process P thread request s.1 := by
  cases request with
  | dh peerPk =>
      rw [process, process, ← decipherWithRetry_untraced]
      rfl
  | pubKey =>
      rw [process, process, ← readPublicKey_untraced]
      rfl

end Untraced

section System

/-- An event on the recording reader: what changes the reader leaves the record. -/
def CardEvent.traced {ρ : Type} (record : ρ) : CardEvent π → CardEvent (π × ρ)
  | .primeSs peerPk => .primeSs peerPk
  | .forgetPeer peerPk => .forgetPeer peerPk
  | .x25519 peerPk => .x25519 peerPk
  | .pubkey => .pubkey
  | .resume => .resume
  | .cancel => .cancel
  | .dequeue => .dequeue
  | .serve => .serve
  | .die => .die
  | .reader s => .reader (s, record)

variable (P : Pcsc Backend Card π)

/-- One step of the system on the recording reader. -/
def tracedStep (event : CardEvent π) (sys : CardSystem Card (π × List (CardOp Card))) :
    Option (CardSystem Card (π × List (CardOp Card)) × List CardSeen) :=
  cardStep P.traced (event.traced sys.reader.2) sys

/-- The system without the record. -/
def CardSystem.untraced {ρ : Type} (sys : CardSystem Card (π × ρ)) : CardSystem Card π where
  handle := sys.handle
  channel := sys.channel
  caller := sys.caller
  thread := sys.thread
  reader := sys.reader.1

variable {P}

theorem serve_untraced (sys : CardSystem Card (π × List (CardOp Card))) :
    (serve P.traced sys).map (Prod.map CardSystem.untraced id) = serve P sys.untraced := by
  obtain ⟨handle, channel, caller, thread, reader⟩ := sys
  unfold serve
  simp only [CardSystem.untraced]
  split
  · rfl
  · rw [← process_untraced]
    rfl

theorem primeSs_untraced {ρ : Type} (peerPk : Key) (sys : CardSystem Card (π × ρ)) :
    Prod.map CardSystem.untraced id (primeSs peerPk sys) = primeSs peerPk sys.untraced := by
  simp only [primeSs, CardSystem.untraced]
  obtain ⟨_ | _, c⟩ := sendDh peerPk sys.channel
  · rfl
  · rfl

theorem asyncX25519_untraced {ρ : Type} (peerPk : Key) (sys : CardSystem Card (π × ρ)) :
    Prod.map CardSystem.untraced id (asyncX25519 peerPk sys) =
      asyncX25519 peerPk sys.untraced := by
  simp only [asyncX25519, CardSystem.untraced]
  cases sys.handle.ssCache peerPk with
  | some ss => rfl
  | none =>
      obtain ⟨_ | _, c⟩ := sendDh peerPk sys.channel
      · rfl
      · rfl

theorem asyncX25519Pubkey_untraced {ρ : Type} (sys : CardSystem Card (π × ρ)) :
    Prod.map CardSystem.untraced id (asyncX25519Pubkey sys) = asyncX25519Pubkey sys.untraced := by
  simp only [asyncX25519Pubkey, CardSystem.untraced]
  generalize sys.channel.trySend maxHandshakeRequest .pubKey = sent
  obtain ⟨_ | _, c⟩ := sent
  · rfl
  · rfl

theorem resume_untraced {ρ : Type} (sys : CardSystem Card (π × ρ)) :
    (resume sys).map (Prod.map CardSystem.untraced id) = resume sys.untraced := by
  obtain ⟨handle, channel, caller, thread, reader⟩ := sys
  simp only [resume, CardSystem.untraced]
  cases caller with
  | ready => rfl
  | panicked => rfl
  | primeSs peerPk reply =>
      dsimp only
      obtain _ | _ | _ := received (channel.replies reply)
      · rfl
      · rfl
      · rfl
  | x25519 peerPk reply =>
      dsimp only
      obtain _ | _ | _ := received (channel.replies reply)
      · rfl
      · rfl
      · rfl
  | pubkey reply =>
      dsimp only
      obtain _ | ⟨_ | _⟩ | _ := channel.replies reply
      · rfl
      · rfl
      · rfl
      · rfl

theorem dequeue_untraced {ρ : Type} (sys : CardSystem Card (π × ρ)) :
    (dequeue sys).map (Prod.map CardSystem.untraced id) = dequeue sys.untraced := by
  simp only [dequeue, CardSystem.untraced]
  cases sys.channel.take with
  | none => rfl
  | some c => rfl

theorem openHandle_untraced (requestedIdent : Ident) (pin : Pin)
    (s : π × List (CardOp Card)) :
    (openHandle P.traced requestedIdent pin s).map CardSystem.untraced =
      openHandle P requestedIdent pin s.1 := by
  rw [openHandle, openHandle, ← openAndVerify_untraced]
  generalize openAndVerify P.traced requestedIdent pin s = out
  obtain ⟨_ | _ | ⟨card, ident⟩, t⟩ := out
  · rfl
  · rfl
  · rfl

/-- The record does not take part in a step. -/
theorem tracedStep_untraced (event : CardEvent π)
    (sys : CardSystem Card (π × List (CardOp Card))) :
    (tracedStep P event sys).map (Prod.map CardSystem.untraced id) =
      cardStep P event sys.untraced := by
  have hcaller : sys.untraced.caller = sys.caller := rfl
  cases event with
  | resume => exact resume_untraced sys
  | dequeue => exact dequeue_untraced sys
  | serve => exact serve_untraced sys
  | die => rfl
  | reader s => rfl
  | cancel =>
      simp only [tracedStep, cardStep, CardEvent.traced, cancel, hcaller]
      cases sys.caller with
      | _ => rfl
  | primeSs peerPk =>
      simp only [tracedStep, cardStep, CardEvent.traced, hcaller]
      cases sys.caller with
      | ready => exact congrArg some (primeSs_untraced peerPk sys)
      | _ => rfl
  | forgetPeer peerPk =>
      simp only [tracedStep, cardStep, CardEvent.traced, hcaller]
      cases sys.caller with
      | _ => rfl
  | x25519 peerPk =>
      simp only [tracedStep, cardStep, CardEvent.traced, hcaller]
      cases sys.caller with
      | ready => exact congrArg some (asyncX25519_untraced peerPk sys)
      | _ => rfl
  | pubkey =>
      simp only [tracedStep, cardStep, CardEvent.traced, hcaller]
      cases sys.caller with
      | ready => exact congrArg some (asyncX25519Pubkey_untraced sys)
      | _ => rfl

/-- The runs with the record are the runs without it. -/
theorem run_untraced_iff {sys₀ : CardSystem Card (π × List (CardOp Card))}
    {sys : CardSystem Card π} {log : List CardSeen} :
    Run (cardStep P) sys₀.untraced sys log ↔
      ∃ sys', sys'.untraced = sys ∧ Run (tracedStep P) sys₀ sys' log := by
  constructor
  · exact fun run => run.lift tracedStep_untraced
  · rintro ⟨sys', rfl, run⟩
    exact run.map tracedStep_untraced

/-- What a step of the recording system does to the thread and the reader. -/
inductive Works (P : Pcsc Backend Card π) (sys : CardSystem Card (π × List (CardOp Card))) :
    CardEvent π → CardSystem Card (π × List (CardOp Card)) → List CardSeen → Prop
  | served {r : Request CardRequest} (htaken : sys.channel.taken = some r) {sys'}
      (hthread : sys'.thread =
        { sys.thread with card := (process P.traced sys.thread r.body sys.reader).2.1 })
      (hreader : sys'.reader = (process P.traced sys.thread r.body sys.reader).2.2) :
      Works P sys .serve sys'
        [.served r.reply r.body (process P.traced sys.thread r.body sys.reader).1]
  | moved (s : π) {sys'} (hthread : sys'.thread = sys.thread)
      (hreader : sys'.reader = (s, sys.reader.2)) : Works P sys (.reader s) sys' []
  | rested {event sys' obs} (hthread : sys'.thread = sys.thread)
      (hreader : sys'.reader = sys.reader) (hobs : ∀ o ∈ obs, o.serves = none) :
      Works P sys event sys' obs

theorem tracedStep_works {event : CardEvent π}
    {sys sys' : CardSystem Card (π × List (CardOp Card))} {obs : List CardSeen}
    (h : tracedStep P event sys = some (sys', obs)) : Works P sys event sys' obs := by
  have htraffic := cardStep_traffic h
  cases event with
  | serve =>
      cases htraffic with
      | served htaken => exact .served htaken rfl rfl
      | asked hevent => exact hevent.elim
      | idle hevent => exact hevent.elim
  | reader s =>
      cases htraffic with
      | reader => exact .moved s rfl rfl
      | asked hevent => exact hevent.elim
      | idle hevent => exact hevent.elim
  | _ =>
      obtain ⟨hthread, hreader, hobs⟩ := htraffic.rested trivial
      exact .rested hthread hreader hobs

end System

end SmartGuard
