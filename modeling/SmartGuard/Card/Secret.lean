import SmartGuard.Card.Thread

/-!
# What the thread answers

If every card of one identity deciphers alike, each secret that the thread answers is
the one of that identity: long enough, cut to its first 32 bytes, and not all zero. The
card in use keeps its identity over any number of reconnects.
-/

namespace SmartGuard

open StateLoop

/-- The cards of an identity answer every DECIPHER that succeeds by one function. -/
def DeciphersAs {Backend Card π : Type} (P : Pcsc Backend Card π) (ident : Ident)
    (F : Key → List UInt8) : Prop :=
  ∀ card pk s ss t, P.identity card = ident → P.decipher card pk s = (.ok ss, t) → ss = F pk

/-- The secret that the bytes of a card give, if it is a valid one. -/
def sharedSecret (bytes : List UInt8) : Option Key :=
  (firstChunk bytes).filter fun key => !key.isZero

variable {Backend Card π : Type} {P : Pcsc Backend Card π} {F : Key → List UInt8}
  {ident : Ident} {pin : Pin}

/-- A secret that one attempt answers is the one of the card. -/
theorem tryDecipher_ok {card : Card} {pk key : Key} {s t : π} (hF : DeciphersAs P ident F)
    (hcard : P.identity card = ident) (h : tryDecipher P card pin pk s = (.ok key, t)) :
    sharedSecret (F pk) = some key := by
  have hattempt := tryDecipher_attempt P card pin pk s
  rw [h] at hattempt
  cases hattempt with
  | answered hanswer hkey hvalid =>
      obtain ⟨u, -, hdecipher⟩ := hanswer
      rw [sharedSecret, ← hF _ _ _ _ _ hcard hdecipher, hkey]
      simp [hvalid]

/-- The search of a reconnect finds only the identity it looks for. -/
theorem reconnectTo_identity {backend : Option Backend} {card : Card} {s t : π}
    (h : reconnectTo P ident backend s = (some card, t)) : P.identity card = ident := by
  unfold reconnectTo at h
  split at h
  · cases h
  · split at h
    · cases h
    · split at h
      · cases h
      · split at h
        · cases h
        · next ai u hai =>
            split at h
            · next hident =>
                obtain rfl := Option.some.inj (Prod.mk.inj h).1
                exact (P.identifies hai).symm.trans hident
            · cases h

/-- A reconnect, found or not, leaves a card of the same identity in use. -/
theorem reconnect_identity {card : Card} (hcard : P.identity card = ident) (s : π) :
    P.identity (reconnect P card ident s).2.1 = ident := by
  have hreconnected := reconnect_reconnected P card ident s
  generalize reconnect P card ident s = out at hreconnected ⊢
  cases hreconnected with
  | unlisted h => exact hcard
  | missing listed h => exact hcard
  | found listed h =>
      obtain ⟨backend, -, v, hprobe⟩ := exists_of_findMap h
      exact reconnectTo_identity hprobe

/-- A request, with its retry, leaves a card of the same identity in use. -/
theorem decipherWithRetry_identity {card : Card} (hcard : P.identity card = ident) (pin : Pin)
    (pk : Key) (s : π) : P.identity (decipherWithRetry P card ident pin pk s).2.1 = ident := by
  have hretried := decipherWithRetry_retried P card ident pin pk s
  generalize decipherWithRetry P card ident pin pk s = out at hretried ⊢
  cases hretried with
  | first h => exact hcard
  | @lost e t e' card' u failed h =>
      have hafter := reconnect_identity (P := P) hcard (P.sleep 5 t)
      rw [h] at hafter
      exact hafter
  | @again e t card' u failed h =>
      have hafter := reconnect_identity (P := P) hcard (P.sleep 5 t)
      rw [h] at hafter
      exact hafter

/-- A request, with its retry, answers no secret but the one of the identity. -/
theorem decipherWithRetry_ok {card : Card} (hF : DeciphersAs P ident F)
    (hcard : P.identity card = ident) {pin : Pin} {pk key : Key} {s : π}
    (h : (decipherWithRetry P card ident pin pk s).1 = .ok key) :
    sharedSecret (F pk) = some key := by
  have hretried := decipherWithRetry_retried P card ident pin pk s
  generalize decipherWithRetry P card ident pin pk s = out at hretried h
  cases hretried with
  | first hfirst =>
      obtain rfl := Except.ok.inj h
      exact tryDecipher_ok hF hcard hfirst
  | lost failed hlost => cases h
  | @again e t card' u failed hfound =>
      have hafter := reconnect_identity (P := P) hcard (P.sleep 5 t)
      rw [hfound] at hafter
      exact tryDecipher_ok hF hafter (Prod.ext h rfl)

/-- The search at the start gives a card with the identity it reports, which is the requested
one if there is one. The last thing read from the card is a public key of 32 bytes or more. -/
theorem openCard_found {requestedIdent : Ident} {backend : Option Backend} {card : Card}
    {s t : π} (h : openCard P requestedIdent backend s = (some (.ok (card, ident)), t)) :
    P.identity card = ident ∧ (requestedIdent ≠ "auto" → ident = requestedIdent) ∧
      ∃ data u, P.publicKeyMaterial card u = (some (.E data), t) ∧ 32 ≤ data.length := by
  unfold openCard at h
  split at h
  · cases h
  · split at h
    · cases h
    · split at h
      · cases h
      · split at h
        · cases h
        · next cardIdent u hai =>
            split at h
            · cases h
            · next hrequested =>
                split at h
                · next data v hmaterial =>
                    split at h
                    · next hlength =>
                        cases h
                        refine ⟨(P.identifies hai).symm, fun hauto => ?_, data, _, hmaterial,
                          hlength⟩
                        by_contra hne
                        exact hrequested ⟨hauto, Ne.symm hne⟩
                    · split at h
                      · cases h
                      · cases h
                · split at h
                  · cases h
                  · cases h

theorem openAndVerify_identity {requestedIdent : Ident} {card : Card} {s t : π}
    (h : openAndVerify P requestedIdent pin s = (some (.ok (card, ident)), t)) :
    P.identity card = ident := by
  have hopened := openAndVerify_opened P requestedIdent pin s
  rw [h] at hopened
  cases hopened with
  | opened listed found hverified =>
      obtain ⟨backend, -, v, hprobe⟩ := exists_of_findMap found
      exact (openCard_found hprobe).1

end SmartGuard
