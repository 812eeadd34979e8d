import Mathlib.Data.List.Nodup
import Mathlib.Data.List.Pairwise
import Mathlib.Data.Nat.Basic
import Mathlib.Logic.Function.Basic
import Mathlib.Order.Basic

/-!
# A bounded channel of requests with one-shot replies

Senders put requests into a bounded queue. One receiver takes them out in order and
answers each through the one-shot that came with it. One-shots are numbered in the
order of acceptance, and a number is never used again, so an answer reaches the
request it was computed for and no other.
-/

namespace RequestChannel

/-- A one-shot: nothing yet, a message, or its sender is gone without one. -/
inductive Oneshot (α : Type*)
  | empty
  | sent (a : α)
  | closed

/-- A request with the number of its one-shot. -/
structure Request (ι : Type*) where
  body : ι
  reply : Nat

inductive TrySendError
  | full
  | disconnected

/-- The requests not yet taken, the one being served, and all one-shots. -/
structure Channel (ι α : Type*) where
  queue : List (Request ι)
  taken : Option (Request ι)
  alive : Bool
  replies : Nat → Oneshot α
  next : Nat
  ordered : (taken.toList ++ queue).Pairwise fun r r' => r.reply < r'.reply
  issued : ∀ r ∈ taken.toList ++ queue, r.reply < next
  unanswered : ∀ t, replies t ≠ .empty → t < next ∧ ∀ r ∈ taken.toList ++ queue, r.reply ≠ t

variable {ι α : Type*}

namespace Channel

/-- The requests without an answer. -/
def pending (c : Channel ι α) : List (Request ι) := c.taken.toList ++ c.queue

def new : Channel ι α where
  queue := []
  taken := none
  alive := true
  replies _ := .empty
  next := 0
  ordered := .nil
  issued _ hr := absurd hr List.not_mem_nil
  unanswered _ ht := absurd rfl ht

/-- Put a request into the queue, with a new one-shot. -/
def push (c : Channel ι α) (body : ι) : Channel ι α where
  queue := c.queue ++ [⟨body, c.next⟩]
  taken := c.taken
  alive := c.alive
  replies := c.replies
  next := c.next + 1
  ordered := by
    rw [← List.append_assoc, List.pairwise_append]
    refine ⟨c.ordered, List.pairwise_singleton _ _, ?_⟩
    intro r hr r' hr'
    obtain rfl := List.mem_singleton.mp hr'
    exact c.issued r hr
  issued := by
    intro r hr
    rw [← List.append_assoc, List.mem_append] at hr
    rcases hr with hold | hnew
    · exact (c.issued r hold).trans (Nat.lt_succ_self _)
    · obtain rfl := List.mem_singleton.mp hnew
      exact Nat.lt_succ_self _
  unanswered := by
    intro t ht
    obtain ⟨hlt, hapart⟩ := c.unanswered t ht
    refine ⟨hlt.trans (Nat.lt_succ_self _), ?_⟩
    intro r hr
    rw [← List.append_assoc, List.mem_append] at hr
    rcases hr with hold | hnew
    · exact hapart r hold
    · obtain rfl := List.mem_singleton.mp hnew
      exact hlt.ne'

/-- Send without waiting: a channel without its receiver refuses, and so does a full one. -/
def trySend (bound : Nat) (body : ι) (c : Channel ι α) :
    Except TrySendError Nat × Channel ι α :=
  if c.alive = false then (.error .disconnected, c)
  else if bound ≤ c.queue.length then (.error .full, c)
  else (.ok c.next, c.push body)

/-- Take the first request out of the queue. -/
def take (c : Channel ι α) : Option (Channel ι α) :=
  match htaken : c.taken, hqueue : c.queue with
  | none, r :: rest =>
      have hpending : c.taken.toList ++ c.queue = (some r).toList ++ rest := by
        rw [htaken, hqueue]
        rfl
      some
        { c with
          queue := rest
          taken := some r
          ordered := hpending ▸ c.ordered
          issued := hpending ▸ c.issued
          unanswered := hpending ▸ c.unanswered }
  | _, _ => none

/-- Answer the request being served, or drop its one-shot. -/
def answer (c : Channel ι α) (r : Request ι) (h : c.taken = some r) (a : Option α) :
    Channel ι α where
  queue := c.queue
  taken := none
  alive := c.alive
  replies := Function.update c.replies r.reply (a.elim .closed .sent)
  next := c.next
  ordered := (List.pairwise_append.mp c.ordered).2.1
  issued r' hr' := c.issued r' (List.mem_append_right _ hr')
  unanswered := by
    have hmem : r ∈ c.taken.toList ++ c.queue := by simp [h]
    intro t ht
    by_cases hreply : t = r.reply
    · subst hreply
      refine ⟨c.issued r hmem, fun r' hr' => ?_⟩
      have hlt := (List.pairwise_append.mp c.ordered).2.2 r (by simp [h]) r' hr'
      exact hlt.ne'
    · rw [Function.update_of_ne hreply] at ht
      obtain ⟨hlt, hapart⟩ := c.unanswered t ht
      exact ⟨hlt, fun r' hr' => hapart r' (List.mem_append_right _ hr')⟩

/-- The receiver goes away: every request without an answer loses its one-shot. -/
def close (c : Channel ι α) : Channel ι α where
  queue := []
  taken := none
  alive := false
  replies t := if t ∈ c.pending.map Request.reply then .closed else c.replies t
  next := c.next
  ordered := .nil
  issued _ hr := absurd hr List.not_mem_nil
  unanswered := by
    intro t ht
    refine ⟨?_, fun _ hr => absurd hr List.not_mem_nil⟩
    split at ht
    · next hpending =>
        obtain ⟨r, hr, rfl⟩ := List.mem_map.mp hpending
        exact c.issued r hr
    · exact (c.unanswered t ht).1

section Pending

variable {c c' : Channel ι α}

/-- How sending a request ends. -/
theorem trySend_cases (bound : Nat) (body : ι) (c : Channel ι α) :
    c.alive = true ∧ c.queue.length < bound ∧
        c.trySend bound body = (.ok c.next, c.push body) ∨
      c.alive = true ∧ bound ≤ c.queue.length ∧ c.trySend bound body = (.error .full, c) ∨
      c.alive = false ∧ c.trySend bound body = (.error .disconnected, c) := by
  unfold trySend
  split
  · next dead => exact .inr (.inr ⟨dead, rfl⟩)
  · next alive =>
      rw [Bool.not_eq_false] at alive
      split
      · next hfull => exact .inr (.inl ⟨alive, hfull, rfl⟩)
      · next hroom => exact .inl ⟨alive, Nat.lt_of_not_le hroom, rfl⟩

theorem pending_push (c : Channel ι α) (body : ι) :
    (c.push body).pending = c.pending ++ [⟨body, c.next⟩] := (List.append_assoc _ _ _).symm

/-- What taking a request out of the queue does. -/
theorem take_spec (h : c.take = some c') :
    ∃ r rest, c.taken = none ∧ c.queue = r :: rest ∧ c'.taken = some r ∧ c'.queue = rest ∧
      c'.alive = c.alive ∧ c'.replies = c.replies ∧ c'.next = c.next := by
  unfold take at h
  split at h
  · next r rest htaken hqueue =>
      cases h
      exact ⟨r, rest, htaken, hqueue, rfl, rfl, rfl, rfl, rfl⟩
  · cases h

theorem pending_take (h : c.take = some c') : c'.pending = c.pending := by
  obtain ⟨r, rest, htaken, hqueue, htaken', hqueue', -⟩ := take_spec h
  rw [pending, pending, htaken, hqueue, htaken', hqueue']
  rfl

theorem length_take (h : c.take = some c') : c'.queue.length ≤ c.queue.length := by
  obtain ⟨r, rest, -, hqueue, -, hqueue', -⟩ := take_spec h
  rw [hqueue, hqueue']
  exact Nat.le_succ _

theorem alive_take (h : c.take = some c') : c'.alive = c.alive := by
  obtain ⟨r, rest, -, -, -, -, halive, -⟩ := take_spec h
  exact halive

theorem replies_take (h : c.take = some c') : c'.replies = c.replies := by
  obtain ⟨r, rest, -, -, -, -, -, hreplies, -⟩ := take_spec h
  exact hreplies

theorem next_take (h : c.take = some c') : c'.next = c.next := by
  obtain ⟨r, rest, -, -, -, -, -, -, hnext⟩ := take_spec h
  exact hnext

theorem replies_answer {r : Request ι} (h : c.taken = some r) (a : Option α) :
    (c.answer r h a).replies = Function.update c.replies r.reply (a.elim .closed .sent) := rfl

theorem replies_close (c : Channel ι α) (t : Nat) :
    c.close.replies t = if t ∈ c.pending.map Request.reply then .closed else c.replies t := rfl

/-- A receiver that serves nothing can take the first of the queue. -/
theorem take_of_queue {r : Request ι} {rest : List (Request ι)} (htaken : c.taken = none)
    (hqueue : c.queue = r :: rest) :
    ∃ c', c.take = some c' ∧ c'.taken = some r ∧ c'.queue = rest := by
  unfold take
  split
  · next r' rest' _ hqueue' =>
      obtain ⟨rfl, rfl⟩ := List.cons.inj (hqueue'.symm.trans hqueue)
      exact ⟨_, rfl, rfl, rfl⟩
  · next hother => exact (hother _ _ htaken hqueue).elim

theorem taken_mem_pending {r : Request ι} (h : c.taken = some r) : r ∈ c.pending := by
  simp [pending, h]

end Pending

/-- An answer fills the one-shot of its request, which was empty, and no other. -/
theorem sent_answer_iff {c : Channel ι α} {r : Request ι} (htaken : c.taken = some r)
    {a : Option α} {t : Nat} {b : α} :
    (c.answer r htaken a).replies t = .sent b ↔
      t = r.reply ∧ a = some b ∨ c.replies t = .sent b := by
  have hempty : c.replies r.reply = .empty := by
    by_contra hne
    exact (c.unanswered _ hne).2 r (taken_mem_pending htaken) rfl
  rw [replies_answer]
  by_cases ht : t = r.reply
  · subst ht
    rw [Function.update_self, hempty]
    cases a with
    | none => simp
    | some d => simp
  · rw [Function.update_of_ne ht]
    simp [ht]

/-- Closing sends nothing and takes nothing back that was sent. -/
theorem sent_close_iff {c : Channel ι α} {t : Nat} {a : α} :
    c.close.replies t = .sent a ↔ c.replies t = .sent a := by
  rw [replies_close]
  split
  · next hpending =>
      obtain ⟨r, hr, rfl⟩ := List.mem_map.mp hpending
      constructor
      · exact nofun
      · intro hsent
        have hne : c.replies r.reply ≠ .empty := by
          rw [hsent]
          exact nofun
        exact absurd rfl ((c.unanswered _ hne).2 r hr)
  · rfl

end Channel

section Promise

/-- Under the number `t` the channel was asked `body`, and an answer satisfies `Q`. -/
structure Promise (c : Channel ι α) (t : Nat) (body : ι) (Q : α → Prop) : Prop where
  old : t < c.next
  asked : ∀ r ∈ c.pending, r.reply = t → r.body = body
  kept : ∀ a, c.replies t = .sent a → Q a

variable {c c' : Channel ι α} {t : Nat} {body : ι} {Q : α → Prop}

/-- A request that was just accepted has no answer. -/
theorem promise_push (c : Channel ι α) (body : ι) (Q : α → Prop) :
    Promise (c.push body) c.next body Q where
  old := Nat.lt_succ_self _
  asked r hr hreply := by
    rw [Channel.pending_push, List.mem_append] at hr
    rcases hr with hold | hnew
    · exact absurd hreply (c.issued r hold).ne
    · obtain rfl := List.mem_singleton.mp hnew
      rfl
  kept a ha := by
    have hsent : c.replies c.next ≠ .empty := fun hempty => by
      have hclash : c.replies c.next = .sent a := ha
      rw [hempty] at hclash
      cases hclash
    exact absurd (c.unanswered _ hsent).1 (lt_irrefl _)

theorem Promise.take (h : Promise c t body Q) (htake : c.take = some c') :
    Promise c' t body Q where
  old := Channel.next_take htake ▸ h.old
  asked r hr := h.asked r (Channel.pending_take htake ▸ hr)
  kept a ha := h.kept a (Channel.replies_take htake ▸ ha)

/-- An answer keeps the promise if it is right for what was asked. -/
theorem Promise.answer (h : Promise c t body Q) {r : Request ι} (htaken : c.taken = some r)
    {a : Option α} (ha : ∀ b, a = some b → r.body = body → Q b) :
    Promise (c.answer r htaken a) t body Q where
  old := h.old
  asked r' hr' := h.asked r' (List.mem_append_right _ hr')
  kept b hb := by
    rcases (Channel.sent_answer_iff htaken).mp hb with ⟨rfl, hanswer⟩ | hold
    · exact ha b hanswer (h.asked r (Channel.taken_mem_pending htaken) rfl)
    · exact h.kept b hold

theorem Promise.close (h : Promise c t body Q) : Promise c.close t body Q where
  old := h.old
  asked _ hr := absurd hr List.not_mem_nil
  kept a ha := h.kept a (Channel.sent_close_iff.mp ha)

end Promise

section Ledger

/-- The books of a channel: what it accepted and what its receiver answered, each in
order. -/
structure Ledger (c : Channel ι α) (accepted : List (Request ι))
    (answered : List (Request ι × Option α)) : Prop where
  numbered : accepted.map Request.reply = List.range c.next
  inOrder : answered.map Prod.fst <+: accepted
  balance : c.alive = true → accepted = answered.map Prod.fst ++ c.pending
  closed : c.alive = false → c.pending = []
  sent : ∀ t a, c.replies t = .sent a ↔ ∃ r, (r, some a) ∈ answered ∧ r.reply = t

variable {c c' : Channel ι α} {accepted : List (Request ι)}
  {answered : List (Request ι × Option α)}

theorem Ledger.new : Ledger (Channel.new : Channel ι α) [] [] where
  numbered := rfl
  inOrder := List.prefix_rfl
  balance _ := rfl
  closed h := by cases h
  sent t a := ⟨nofun, nofun⟩

/-- No number is used twice. -/
theorem Ledger.nodup (h : Ledger c accepted answered) :
    (accepted.map Request.reply).Nodup := by
  rw [h.numbered]
  exact List.nodup_range

theorem Ledger.push (h : Ledger c accepted answered) (alive : c.alive = true) (body : ι) :
    Ledger (c.push body) (accepted ++ [⟨body, c.next⟩]) answered where
  numbered := by
    rw [List.map_append, h.numbered]
    exact List.range_succ.symm
  inOrder := h.inOrder.trans (List.prefix_append _ _)
  balance _ := by
    rw [Channel.pending_push, ← List.append_assoc, ← h.balance alive]
  closed hdead := by cases alive.symm.trans hdead
  sent := h.sent

theorem Ledger.take (h : Ledger c accepted answered) (htake : c.take = some c') :
    Ledger c' accepted answered where
  numbered := Channel.next_take htake ▸ h.numbered
  inOrder := h.inOrder
  balance alive := by
    rw [Channel.pending_take htake]
    exact h.balance (Channel.alive_take htake ▸ alive)
  closed hdead := by
    rw [Channel.pending_take htake]
    exact h.closed (Channel.alive_take htake ▸ hdead)
  sent t a := by
    rw [Channel.replies_take htake]
    exact h.sent t a

/-- While a request waits for its answer the receiver is there. -/
theorem Ledger.alive_of_taken (h : Ledger c accepted answered) {r : Request ι}
    (htaken : c.taken = some r) : c.alive = true := by
  by_contra hdead
  have hnone := h.closed (Bool.eq_false_iff.mpr hdead)
  have hmem := Channel.taken_mem_pending htaken
  rw [hnone] at hmem
  cases hmem

theorem Ledger.answer (h : Ledger c accepted answered) {r : Request ι}
    (htaken : c.taken = some r) (a : Option α) :
    Ledger (c.answer r htaken a) accepted (answered ++ [(r, a)]) := by
  have alive := h.alive_of_taken htaken
  have hbalance : accepted = (answered ++ [(r, a)]).map Prod.fst ++ c.queue := by
    rw [h.balance alive, Channel.pending, htaken, List.map_append, List.append_assoc]
    rfl
  refine ⟨h.numbered, ?_, fun _ => hbalance, fun hdead => ?_, fun t b => ?_⟩
  · rw [hbalance]
    exact List.prefix_append _ _
  · cases alive.symm.trans hdead
  · rw [Channel.sent_answer_iff htaken, h.sent]
    simp only [List.mem_append, List.mem_singleton, Prod.mk.injEq]
    constructor
    · rintro (⟨rfl, rfl⟩ | ⟨r', hmem, hreply⟩)
      · exact ⟨r, .inr ⟨rfl, rfl⟩, rfl⟩
      · exact ⟨r', .inl hmem, hreply⟩
    · rintro ⟨r', hmem | ⟨rfl, rfl⟩, hreply⟩
      · exact .inr ⟨r', hmem, hreply⟩
      · exact .inl ⟨hreply.symm, rfl⟩

theorem Ledger.close (h : Ledger c accepted answered) : Ledger c.close accepted answered where
  numbered := h.numbered
  inOrder := h.inOrder
  balance alive := by cases alive
  closed _ := rfl
  sent t a := Channel.sent_close_iff.trans (h.sent t a)

end Ledger

end RequestChannel
