import SmartGuard.Card.Thread
import SmartGuard.Library.EventRun
import SmartGuard.Library.RequestChannel

/-!
# The card handle and its thread

Callers ask the thread through a bounded queue and wait for the reply. A shared secret
that was primed is answered from the cache of the handle, without the thread.

## Implementation notes

A call borrows the handle until it is done, so one call waits at most. Its future may
be dropped while it waits, and its request stays in the queue. The thread may die at
any time, and the card reader may change its state at any time.
-/

namespace SmartGuard

open RequestChannel

/-- What can be asked of the thread. -/
inductive CardRequest
  | dh (peerPk : Key)
  | pubKey
  deriving DecidableEq

inductive CryptoError
  | keyExchangeError
  deriving DecidableEq

structure CardHandle where
  ssCache : Key → Option Key
  ident : Ident

def CardHandle.insert (handle : CardHandle) (peerPk ss : Key) : CardHandle :=
  { handle with ssCache := Function.update handle.ssCache peerPk (some ss) }

def CardHandle.remove (handle : CardHandle) (peerPk : Key) : CardHandle :=
  { handle with ssCache := Function.update handle.ssCache peerPk none }

theorem CardHandle.ssCache_insert (handle : CardHandle) (peerPk ss pk : Key) :
    (handle.insert peerPk ss).ssCache pk = if pk = peerPk then some ss else handle.ssCache pk :=
  Function.update_apply _ _ _ _

theorem CardHandle.ssCache_remove (handle : CardHandle) (peerPk pk : Key) :
    (handle.remove peerPk).ssCache pk = if pk = peerPk then none else handle.ssCache pk :=
  Function.update_apply _ _ _ _

/-- What the thread holds while it serves. -/
structure CardThread (Card : Type) where
  card : Card
  ident : Ident
  pin : Pin

/-- The call that holds the handle. -/
inductive Caller
  | ready
  | primeSs (peerPk : Key) (reply : Nat)
  | x25519 (peerPk : Key) (reply : Nat)
  | pubkey (reply : Nat)
  | panicked

abbrev CardChannel := Channel CardRequest (Except SmartcardError Key)

structure CardSystem (Card π : Type) where
  handle : CardHandle
  channel : CardChannel
  caller : Caller
  thread : CardThread Card
  reader : π

inductive CardEvent (π : Type)
  | primeSs (peerPk : Key)
  | forgetPeer (peerPk : Key)
  | x25519 (peerPk : Key)
  | pubkey
  | resume
  | cancel
  | dequeue
  | serve
  | die
  | reader (s : π)

/-- What can be seen of a step. -/
inductive CardSeen
  | accepted (reply : Nat) (request : CardRequest)
  | refused (request : CardRequest)
  | dequeued (reply : Nat)
  | served (reply : Nat) (request : CardRequest) (result : Option (Except SmartcardError Key))
  | died
  | primed (peerPk : Key) (result : Except SmartcardError Unit)
  | forgotten (peerPk : Key)
  | answered (peerPk : Key) (result : Except CryptoError Key)
  | gavePubkey (key : Key)
  | panicked
  deriving DecidableEq

section Calls

variable {Card π : Type}

/-- The most requests that wait in the queue. -/
def maxHandshakeRequest : Nat := 32

/-- The first half of `dh`: send the request. -/
def sendDh (peerPk : Key) (c : CardChannel) : Except SmartcardError Nat × CardChannel :=
  match c.trySend maxHandshakeRequest (.dh peerPk) with
  | (.ok reply, c) => (.ok reply, c)
  | (.error .full, c) => (.error .queueFull, c)
  | (.error .disconnected, c) => (.error (.cardError "card thread is gone"), c)

/-- The second half of `dh`: what the one-shot gives once it gives something. -/
def received : Oneshot (Except SmartcardError Key) → Option (Except SmartcardError Key)
  | .empty => none
  | .sent result => some result
  | .closed => some (.error (.cardError "card thread dropped reply"))

def primeSs (peerPk : Key) (sys : CardSystem Card π) : CardSystem Card π × List CardSeen :=
  match sendDh peerPk sys.channel with
  | (.ok reply, c) =>
      ({ sys with channel := c, caller := .primeSs peerPk reply }, [.accepted reply (.dh peerPk)])
  | (.error e, c) =>
      ({ sys with channel := c }, [.refused (.dh peerPk), .primed peerPk (.error e)])

def forgetPeer (peerPk : Key) (sys : CardSystem Card π) : CardSystem Card π × List CardSeen :=
  ({ sys with handle := sys.handle.remove peerPk }, [.forgotten peerPk])

def asyncX25519 (peerPk : Key) (sys : CardSystem Card π) : CardSystem Card π × List CardSeen :=
  match sys.handle.ssCache peerPk with
  | some ss => (sys, [.answered peerPk (.ok ss)])
  | none =>
      match sendDh peerPk sys.channel with
      | (.ok reply, c) =>
          ({ sys with channel := c, caller := .x25519 peerPk reply },
            [.accepted reply (.dh peerPk)])
      | (.error _, c) =>
          ({ sys with channel := c },
            [.refused (.dh peerPk), .answered peerPk (.error .keyExchangeError)])

/-- Ask for the public key. A queue that refuses is a panic. -/
def asyncX25519Pubkey (sys : CardSystem Card π) : CardSystem Card π × List CardSeen :=
  match sys.channel.trySend maxHandshakeRequest .pubKey with
  | (.ok reply, c) =>
      ({ sys with channel := c, caller := .pubkey reply }, [.accepted reply .pubKey])
  | (.error _, c) => ({ sys with channel := c, caller := .panicked }, [.refused .pubKey, .panicked])

/-- The call that waits goes on once its one-shot gives something. -/
def resume (sys : CardSystem Card π) : Option (CardSystem Card π × List CardSeen) :=
  match sys.caller with
  | .primeSs peerPk reply =>
      match received (sys.channel.replies reply) with
      | none => none
      | some (.ok ss) =>
          some ({ sys with handle := sys.handle.insert peerPk ss, caller := .ready },
            [.primed peerPk (.ok ())])
      | some (.error e) => some ({ sys with caller := .ready }, [.primed peerPk (.error e)])
  | .x25519 peerPk reply =>
      match received (sys.channel.replies reply) with
      | none => none
      | some (.ok ss) => some ({ sys with caller := .ready }, [.answered peerPk (.ok ss)])
      | some (.error _) =>
          some ({ sys with caller := .ready }, [.answered peerPk (.error .keyExchangeError)])
  | .pubkey reply =>
      match sys.channel.replies reply with
      | .empty => none
      | .sent (.ok key) => some ({ sys with caller := .ready }, [.gavePubkey key])
      | _ => some ({ sys with caller := .panicked }, [.panicked])
  | _ => none

/-- The future of the call that waits is dropped. -/
def cancel (sys : CardSystem Card π) : Option (CardSystem Card π × List CardSeen) :=
  match sys.caller with
  | .ready => none
  | .panicked => none
  | _ => some ({ sys with caller := .ready }, [])

end Calls

section System

variable {Backend Card π : Type} (P : Pcsc Backend Card π)

/-- The body of the request loop: the reply, if one is sent, and the card in use after it. -/
def process (thread : CardThread Card) (request : CardRequest) (s : π) :
    Option (Except SmartcardError Key) × Card × π :=
  match request with
  | .dh peerPk =>
      let result := decipherWithRetry P thread.card thread.ident thread.pin peerPk s
      (some result.1, result.2)
  | .pubKey =>
      let read := readPublicKey P thread.card s
      (read.1.map .ok, thread.card, read.2)

def serve (sys : CardSystem Card π) : Option (CardSystem Card π × List CardSeen) :=
  match h : sys.channel.taken with
  | none => none
  | some r =>
      let out := process P sys.thread r.body sys.reader
      some
        ({ sys with
            channel := sys.channel.answer r h out.1
            thread := { sys.thread with card := out.2.1 }
            reader := out.2.2 },
          [.served r.reply r.body out.1])

def dequeue (sys : CardSystem Card π) : Option (CardSystem Card π × List CardSeen) :=
  sys.channel.take.map fun c =>
    ({ sys with channel := c }, (c.taken.map fun r => CardSeen.dequeued r.reply).toList)

/-- One step of the callers, the thread or the card reader. -/
def cardStep (event : CardEvent π) (sys : CardSystem Card π) :
    Option (CardSystem Card π × List CardSeen) :=
  match event, sys.caller with
  | .primeSs peerPk, .ready => some (primeSs peerPk sys)
  | .forgetPeer peerPk, .ready => some (forgetPeer peerPk sys)
  | .x25519 peerPk, .ready => some (asyncX25519 peerPk sys)
  | .pubkey, .ready => some (asyncX25519Pubkey sys)
  | .resume, _ => resume sys
  | .cancel, _ => cancel sys
  | .dequeue, _ => dequeue sys
  | .serve, _ => serve P sys
  | .die, _ => some ({ sys with channel := sys.channel.close }, [.died])
  | .reader s, _ => some ({ sys with reader := s }, [])
  | _, _ => none

/-- Open a card and start its thread. -/
def openHandle (requestedIdent : Ident) (pin : Pin) (s : π) :
    Except SmartcardError (CardSystem Card π) :=
  match openAndVerify P requestedIdent pin s with
  | (some (.ok (card, ident)), s) =>
      .ok
        { handle := { ssCache := fun _ => none, ident := ident }
          channel := .new
          caller := .ready
          thread := { card := card, ident := ident, pin := pin }
          reader := s }
  | (some (.error e), _) => .error e
  | (none, _) => .error (.cardError "card thread exited before ready")

end System

end SmartGuard
