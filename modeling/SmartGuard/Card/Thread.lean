import SmartGuard.Crypto.Key
import SmartGuard.Library.StateLoop

/-!
# The thread that owns the card

The thread opens a card, checks the PIN, and then serves one request at a time. A
deciphering that fails is tried once more after a reconnect to the same identity.

## Implementation notes

The card reader is outside the source. Each of its operations may fail at any time and
moves a state of its own. A transaction is a phase of its card, so the operations inside
one name the card. A connection stays bound to one card, whose identity it reports.
-/

namespace SmartGuard

open StateLoop

abbrev Ident := String

abbrev Pin := String

inductive SmartcardError
  | cardNotFound (ident : Ident)
  | noDecryptionKey
  | pinFailed (e : String)
  | dhFailed (e : String)
  | cardError (e : String)
  | zeroSharedSecret
  | queueFull
  deriving DecidableEq

/-- The public key in a slot of a card: of an elliptic curve, with its bytes, or RSA. -/
inductive PublicKeyMaterial
  | E (data : List UInt8)
  | R

/-- The card reader. -/
structure Pcsc (Backend Card π : Type) where
  cards : π → Except String (List (Option Backend)) × π
  newCard : Backend → π → Option Card × π
  transaction : Card → π → Except String Unit × π
  applicationIdentifier : Card → π → Option Ident × π
  publicKeyMaterial : Card → π → Option PublicKeyMaterial × π
  verifyUserPin : Card → Pin → π → Except String Unit × π
  decipher : Card → Key → π → Except String (List UInt8) × π
  sleep : Nat → π → π
  identity : Card → Ident
  identifies : ∀ {card s ident t}, applicationIdentifier card s = (some ident, t) →
    ident = identity card

variable {Backend Card π : Type} (P : Pcsc Backend Card π)

section Open

/-- The body of the search for a card to open. -/
def openCard (requestedIdent : Ident) (backend : Option Backend) (s : π) :
    Option (Except SmartcardError (Card × Ident)) × π :=
  match backend with
  | none => (none, s)
  | some backend =>
      match P.newCard backend s with
      | (none, s) => (none, s)
      | (some card, s) =>
          match P.transaction card s with
          | (.error _, s) => (none, s)
          | (.ok _, s) =>
              match P.applicationIdentifier card s with
              | (none, s) => (none, s)
              | (some cardIdent, s) =>
                  if requestedIdent ≠ "auto" ∧ requestedIdent ≠ cardIdent then (none, s)
                  else
                    match P.publicKeyMaterial card s with
                    | (some (.E data), s) =>
                        if 32 ≤ data.length then (some (.ok (card, cardIdent)), s)
                        else if requestedIdent = "auto" then (none, s)
                        else (some (.error .noDecryptionKey), s)
                    | (_, s) =>
                        if requestedIdent = "auto" then (none, s)
                        else (some (.error .noDecryptionKey), s)

/-- The first half of `openAndVerify`, which searches the card. -/
def selectCard (requestedIdent : Ident) (s : π) : Except SmartcardError (Card × Ident) × π :=
  match P.cards s with
  | (.error e, s) => (.error (.cardError e), s)
  | (.ok backends, s) =>
      match findMap (openCard P requestedIdent) backends s with
      | (none, s) => (.error (.cardNotFound requestedIdent), s)
      | (some result, s) => (result, s)

/-- Open a card and check the PIN. The outer `none` is a panic: the transaction after
the search is expected to succeed. -/
def openAndVerify (requestedIdent : Ident) (pin : Pin) (s : π) :
    Option (Except SmartcardError (Card × Ident)) × π :=
  match selectCard P requestedIdent s with
  | (.error e, s) => (some (.error e), s)
  | (.ok (card, cardIdent), s) =>
      match P.transaction card s with
      | (.error _, s) => (none, s)
      | (.ok _, s) =>
          match P.verifyUserPin card pin s with
          | (.error e, s) => (some (.error (.pinFailed e)), s)
          | (.ok _, s) => (some (.ok (card, cardIdent)), s)

end Open

section Serve

def tryDecipher (card : Card) (pin : Pin) (peerPk : Key) (s : π) :
    Except SmartcardError Key × π :=
  match P.transaction card s with
  | (.error e, s) => (.error (.cardError e), s)
  | (.ok _, s) =>
      match P.verifyUserPin card pin s with
      | (.error e, s) => (.error (.pinFailed e), s)
      | (.ok _, s) =>
          match P.decipher card peerPk s with
          | (.error e, s) => (.error (.dhFailed e), s)
          | (.ok ss, s) =>
              match firstChunk ss with
              | none => (.error (.dhFailed "DECIPHER returned <32 bytes"), s)
              | some key => if key.isZero then (.error .zeroSharedSecret, s) else (.ok key, s)

/-- The body of the search for the card to reconnect to. -/
def reconnectTo (ident : Ident) (backend : Option Backend) (s : π) : Option Card × π :=
  match backend with
  | none => (none, s)
  | some backend =>
      match P.newCard backend s with
      | (none, s) => (none, s)
      | (some newCard, s) =>
          match P.transaction newCard s with
          | (.error _, s) => (none, s)
          | (.ok _, s) =>
              match P.applicationIdentifier newCard s with
              | (none, s) => (none, s)
              | (some ai, s) => if ai = ident then (some newCard, s) else (none, s)

/-- Look for the card again. The card in use changes if it is found. -/
def reconnect (card : Card) (ident : Ident) (s : π) : Except SmartcardError Unit × Card × π :=
  match P.cards s with
  | (.error e, s) => (.error (.cardError e), card, s)
  | (.ok backends, s) =>
      match findMap (reconnectTo P ident) backends s with
      | (some newCard, s) => (.ok (), newCard, s)
      | (none, s) => (.error (.cardNotFound ident), card, s)

def decipherWithRetry (card : Card) (ident : Ident) (pin : Pin) (peerPk : Key) (s : π) :
    Except SmartcardError Key × Card × π :=
  match tryDecipher P card pin peerPk s with
  | (.ok k, s) => (.ok k, card, s)
  | (.error _, s) =>
      match reconnect P card ident (P.sleep 5 s) with
      | (.error e, card, s) => (.error e, card, s)
      | (.ok _, card, s) =>
          let again := tryDecipher P card pin peerPk s
          (again.1, card, again.2)

/-- The answer to a request for the public key, if there is one. -/
def readPublicKey (card : Card) (s : π) : Option Key × π :=
  match P.transaction card s with
  | (.error _, s) => (none, s)
  | (.ok _, s) =>
      match P.publicKeyMaterial card s with
      | (some (.E data), s) => (firstChunk data, s)
      | (_, s) => (none, s)

end Serve

section Outcomes

/-- The transaction of a card opens, and the card accepts the PIN. -/
def Verified (card : Card) (pin : Pin) (s t : π) : Prop :=
  ∃ u, P.transaction card s = (.ok (), u) ∧ P.verifyUserPin card pin u = (.ok (), t)

/-- The card answers a DECIPHER. -/
def Deciphered (card : Card) (pin : Pin) (peerPk : Key) (s : π) (ss : List UInt8) (t : π) : Prop :=
  ∃ u, Verified P card pin s u ∧ P.decipher card peerPk u = (.ok ss, t)

/-- How one attempt at a deciphering ends. -/
inductive Attempt (card : Card) (pin : Pin) (peerPk : Key) (s : π) :
    Except SmartcardError Key × π → Prop
  | busy {e t} (h : P.transaction card s = (.error e, t)) :
      Attempt card pin peerPk s (.error (.cardError e), t)
  | rejected {e t u} (begun : P.transaction card s = (.ok (), u))
      (h : P.verifyUserPin card pin u = (.error e, t)) :
      Attempt card pin peerPk s (.error (.pinFailed e), t)
  | failed {e t u} (verified : Verified P card pin s u)
      (h : P.decipher card peerPk u = (.error e, t)) :
      Attempt card pin peerPk s (.error (.dhFailed e), t)
  | short {ss t} (h : Deciphered P card pin peerPk s ss t) (hshort : firstChunk ss = none) :
      Attempt card pin peerPk s (.error (.dhFailed "DECIPHER returned <32 bytes"), t)
  | zero {ss t key} (h : Deciphered P card pin peerPk s ss t) (hkey : firstChunk ss = some key)
      (hzero : key.isZero = true) : Attempt card pin peerPk s (.error .zeroSharedSecret, t)
  | answered {ss t key} (h : Deciphered P card pin peerPk s ss t)
      (hkey : firstChunk ss = some key) (hvalid : key.isZero = false) :
      Attempt card pin peerPk s (.ok key, t)

/-- How a reconnect ends. -/
inductive Reconnected (card : Card) (ident : Ident) (s : π) :
    Except SmartcardError Unit × Card × π → Prop
  | unlisted {e t} (h : P.cards s = (.error e, t)) :
      Reconnected card ident s (.error (.cardError e), card, t)
  | missing {backends t u} (listed : P.cards s = (.ok backends, t))
      (h : findMap (reconnectTo P ident) backends t = (none, u)) :
      Reconnected card ident s (.error (.cardNotFound ident), card, u)
  | found {backends t newCard u} (listed : P.cards s = (.ok backends, t))
      (h : findMap (reconnectTo P ident) backends t = (some newCard, u)) :
      Reconnected card ident s (.ok (), newCard, u)

/-- How a deciphering with its retry ends. -/
inductive Retried (card : Card) (ident : Ident) (pin : Pin) (peerPk : Key) (s : π) :
    Except SmartcardError Key × Card × π → Prop
  | first {key t} (h : tryDecipher P card pin peerPk s = (.ok key, t)) :
      Retried card ident pin peerPk s (.ok key, card, t)
  | lost {e t e' card' u} (failed : tryDecipher P card pin peerPk s = (.error e, t))
      (h : reconnect P card ident (P.sleep 5 t) = (.error e', card', u)) :
      Retried card ident pin peerPk s (.error e', card', u)
  | again {e t card' u} (failed : tryDecipher P card pin peerPk s = (.error e, t))
      (h : reconnect P card ident (P.sleep 5 t) = (.ok (), card', u)) :
      Retried card ident pin peerPk s
        ((tryDecipher P card' pin peerPk u).1, card', (tryDecipher P card' pin peerPk u).2)

/-- How the opening of a card ends. -/
inductive Opened (requestedIdent : Ident) (pin : Pin) (s : π) :
    Option (Except SmartcardError (Card × Ident)) × π → Prop
  | unlisted {e t} (h : P.cards s = (.error e, t)) :
      Opened requestedIdent pin s (some (.error (.cardError e)), t)
  | missing {backends t u} (listed : P.cards s = (.ok backends, t))
      (h : findMap (openCard P requestedIdent) backends t = (none, u)) :
      Opened requestedIdent pin s (some (.error (.cardNotFound requestedIdent)), u)
  | unfit {backends t e u} (listed : P.cards s = (.ok backends, t))
      (h : findMap (openCard P requestedIdent) backends t = (some (.error e), u)) :
      Opened requestedIdent pin s (some (.error e), u)
  | busy {backends t card ident u e v} (listed : P.cards s = (.ok backends, t))
      (found : findMap (openCard P requestedIdent) backends t = (some (.ok (card, ident)), u))
      (h : P.transaction card u = (.error e, v)) : Opened requestedIdent pin s (none, v)
  | rejected {backends t card ident u v e w} (listed : P.cards s = (.ok backends, t))
      (found : findMap (openCard P requestedIdent) backends t = (some (.ok (card, ident)), u))
      (begun : P.transaction card u = (.ok (), v))
      (h : P.verifyUserPin card pin v = (.error e, w)) :
      Opened requestedIdent pin s (some (.error (.pinFailed e)), w)
  | opened {backends t card ident u w} (listed : P.cards s = (.ok backends, t))
      (found : findMap (openCard P requestedIdent) backends t = (some (.ok (card, ident)), u))
      (h : Verified P card pin u w) :
      Opened requestedIdent pin s (some (.ok (card, ident)), w)

theorem tryDecipher_attempt (card : Card) (pin : Pin) (peerPk : Key) (s : π) :
    Attempt P card pin peerPk s (tryDecipher P card pin peerPk s) := by
  rw [tryDecipher]
  split
  · next h => exact .busy h
  · next begun =>
      split
      · next h => exact .rejected begun h
      · next hpin =>
          have verified : Verified P card pin s _ := ⟨_, begun, hpin⟩
          split
          · next h => exact .failed verified h
          · next h =>
              split
              · next hshort => exact .short ⟨_, verified, h⟩ hshort
              · next hkey =>
                  split
                  · next hzero => exact .zero ⟨_, verified, h⟩ hkey hzero
                  · next hvalid => exact .answered ⟨_, verified, h⟩ hkey (by simpa using hvalid)

theorem reconnect_reconnected (card : Card) (ident : Ident) (s : π) :
    Reconnected P card ident s (reconnect P card ident s) := by
  rw [reconnect]
  split
  · next h => exact .unlisted h
  · next listed =>
      split
      · next h => exact .found listed h
      · next h => exact .missing listed h

theorem decipherWithRetry_retried (card : Card) (ident : Ident) (pin : Pin) (peerPk : Key)
    (s : π) :
    Retried P card ident pin peerPk s (decipherWithRetry P card ident pin peerPk s) := by
  rw [decipherWithRetry]
  split
  · next h => exact .first h
  · next failed =>
      split
      · next h => exact .lost failed h
      · next h => exact .again failed h

/-- How the search of the opening ends. -/
inductive Selected (requestedIdent : Ident) (s : π) :
    Except SmartcardError (Card × Ident) × π → Prop
  | unlisted {e t} (h : P.cards s = (.error e, t)) :
      Selected requestedIdent s (.error (.cardError e), t)
  | missing {backends t u} (listed : P.cards s = (.ok backends, t))
      (h : findMap (openCard P requestedIdent) backends t = (none, u)) :
      Selected requestedIdent s (.error (.cardNotFound requestedIdent), u)
  | found {backends t result u} (listed : P.cards s = (.ok backends, t))
      (h : findMap (openCard P requestedIdent) backends t = (some result, u)) :
      Selected requestedIdent s (result, u)

theorem selectCard_selected (requestedIdent : Ident) (s : π) :
    Selected P requestedIdent s (selectCard P requestedIdent s) := by
  rw [selectCard]
  split
  · next h => exact .unlisted h
  · next listed =>
      split
      · next h => exact .missing listed h
      · next h => exact .found listed h

theorem openAndVerify_opened (requestedIdent : Ident) (pin : Pin) (s : π) :
    Opened P requestedIdent pin s (openAndVerify P requestedIdent pin s) := by
  have hselected := selectCard_selected P requestedIdent s
  rw [openAndVerify]
  generalize selectCard P requestedIdent s = out at hselected ⊢
  cases hselected with
  | unlisted h => exact .unlisted h
  | missing listed h => exact .missing listed h
  | @found backends t result u listed found =>
      cases result with
      | error e => exact .unfit listed found
      | ok selected =>
          dsimp only
          split
          · next h => exact .busy listed found h
          · next begun =>
              split
              · next h => exact .rejected listed found begun h
              · next h => exact .opened listed found ⟨_, begun, h⟩

end Outcomes

end SmartGuard
