import Mathlib.Data.List.Basic
import Mathlib.Data.List.Forall2

/-!
# Loops over a list that thread a state

Three loops of imperative code: one that runs an action on each item and keeps
the values some of the actions push, one that stops at the first value, and one
that rewrites each item in place. The rules carry a relation between the states
before and after over the loop. A loop that stops at the first failure is `mapM`;
its rules say when it fails and what it yields otherwise.
-/

namespace StateLoop

variable {σ α β : Type*}

/-- Run `f` on every item in order and keep the values it pushes. -/
def collect (f : α → σ → Option β × σ) : List α → σ → List β × σ
  | [], s => ([], s)
  | a :: rest, s =>
      let head := f a s
      let tail := collect f rest head.2
      (head.1.toList ++ tail.1, tail.2)

/-- Rewrite every item in order. -/
def mapState (f : α → σ → β × σ) : List α → σ → List β × σ
  | [], s => ([], s)
  | a :: rest, s =>
      let head := f a s
      let tail := mapState f rest head.2
      (head.1 :: tail.1, tail.2)

/-- Run `f` on the items in order until it yields a value. -/
def findMap (f : α → σ → Option β × σ) : List α → σ → Option β × σ
  | [], s => (none, s)
  | a :: rest, s =>
      match f a s with
      | (some b, t) => (some b, t)
      | (none, t) => findMap f rest t

/-- A relation between a state, the values pushed from it and the state reached,
closed under running one piece of code after another. -/
structure Composes (R : σ → List β → σ → Prop) : Prop where
  refl : ∀ s, R s [] s
  trans : ∀ {s t u bs cs}, R s bs t → R t cs u → R s (bs ++ cs) u

/-- What every action of a collecting loop does, the loop does. -/
theorem Composes.collect {R : σ → List β → σ → Prop} (hR : Composes R)
    {f : α → σ → Option β × σ} {items : List α}
    (hf : ∀ a ∈ items, ∀ s, R s (f a s).1.toList (f a s).2) (s : σ) :
    R s (collect f items s).1 (collect f items s).2 := by
  induction items generalizing s with
  | nil => exact hR.refl s
  | cons a rest ih =>
      have hhead := hf a (by simp) s
      have htail := ih (fun b hb => hf b (by simp [hb])) (f a s).2
      exact hR.trans hhead htail

/-- A reflexive and transitive relation between states composes, whatever is pushed. -/
theorem Composes.of_preorder {R : σ → σ → Prop} (hrefl : ∀ s, R s s)
    (htrans : ∀ {s t u}, R s t → R t u → R s u) :
    Composes (fun s (_ : List β) t => R s t) where
  refl := hrefl
  trans := htrans

/-- What holds of every value that an action pushes holds of all that the loop pushes. -/
theorem forall_mem_collect {Q : β → Prop} {f : α → σ → Option β × σ} {items : List α}
    (hf : ∀ a ∈ items, ∀ s b, (f a s).1 = some b → Q b) (s : σ) :
    ∀ b ∈ (collect f items s).1, Q b := by
  induction items generalizing s with
  | nil => exact nofun
  | cons a rest ih =>
      intro b hb
      rcases List.mem_append.mp hb with hhead | htail
      · exact hf a List.mem_cons_self s b (Option.mem_toList.mp hhead)
      · exact ih (fun c hc => hf c (List.mem_cons_of_mem a hc)) (f a s).2 b htail

/-- An invariant of every action is an invariant of the loop. -/
theorem collect_invariant {I : σ → Prop} {f : α → σ → Option β × σ} {items : List α}
    (hf : ∀ a ∈ items, ∀ s, I s → I (f a s).2) {s : σ} (hs : I s) :
    I (collect f items s).2 :=
  (Composes.of_preorder (R := fun s t => I s → I t) (fun _ h => h)
    (fun h₁ h₂ h => h₂ (h₁ h))).collect hf s hs

/-- What each action establishes for its own item, and no action undoes, holds
of every item after the loop. -/
theorem collect_establishes {I : σ → Prop} {E : α → σ → Prop} {f : α → σ → Option β × σ}
    {items : List α} (hI : ∀ a ∈ items, ∀ s, I s → I (f a s).2)
    (hest : ∀ a ∈ items, ∀ s, I s → E a (f a s).2)
    (hkeep : ∀ a b s, E a s → E a (f b s).2) {s : σ} (hs : I s) :
    ∀ a ∈ items, E a (collect f items s).2 := by
  induction items generalizing s with
  | nil => simp
  | cons b rest ih =>
      intro a ha
      have hb : I (f b s).2 := hI b (by simp) s hs
      rcases List.mem_cons.mp ha with rfl | hrest
      · have hnow : E a (f a s).2 := hest a (by simp) s hs
        have hloop : E a (collect f rest (f a s).2).2 :=
          collect_invariant (fun c _ t ht => hkeep a c t ht) hnow
        exact hloop
      · exact ih (fun c hc => hI c (by simp [hc])) (fun c hc => hest c (by simp [hc])) hb a hrest

/-- A collecting loop whose pushes do not depend on the state pushes what a filter keeps. -/
theorem collect_eq_filterMap {I : σ → Prop} {f : α → σ → Option β × σ} {g : α → Option β}
    (hf : ∀ a s, I s → (f a s).1 = g a ∧ I (f a s).2) (items : List α) {s : σ} (hs : I s) :
    (collect f items s).1 = items.filterMap g := by
  induction items generalizing s with
  | nil => rfl
  | cons a rest ih =>
      obtain ⟨hhead, hnext⟩ := hf a s hs
      have hrest := ih hnext
      simp only [collect, hrest, hhead]
      cases hg : g a <;> simp [hg]

/-- A loop over views of the items whose actions push views of the values pushes views. -/
theorem collect_view {α' β' : Type*} {view : α → α'} {value : β → β'}
    {f : α → σ → Option β × σ} {f' : α' → σ → Option β' × σ} {items : List α}
    (hf : ∀ a ∈ items, ∀ s, f' (view a) s = Prod.map (Option.map value) id (f a s)) (s : σ) :
    collect f' (items.map view) s = Prod.map (List.map value) id (collect f items s) := by
  induction items generalizing s with
  | nil => rfl
  | cons a rest ih =>
      have hhead := hf a List.mem_cons_self s
      have hrest := ih (fun b hb => hf b (List.mem_cons_of_mem a hb)) (f a s).2
      rw [List.map_cons, collect, collect, hhead]
      simp only [Prod.map_snd, Prod.map_fst, id_eq, hrest, Prod.map_apply, List.map_append]
      cases (f a s).1 with
      | none => rfl
      | some b => rfl

/-- A search whose yields do not depend on the state finds what a pure search finds. -/
theorem findMap_eq_findSome? {I : σ → Prop} {f : α → σ → Option β × σ} {g : α → Option β}
    (hf : ∀ a s, I s → (f a s).1 = g a ∧ I (f a s).2) (items : List α) {s : σ} (hs : I s) :
    (findMap f items s).1 = items.findSome? g ∧ I (findMap f items s).2 := by
  induction items generalizing s with
  | nil => exact ⟨rfl, hs⟩
  | cons a rest ih =>
      obtain ⟨hhead, hnext⟩ := hf a s hs
      rw [findMap, List.findSome?_cons, ← hhead]
      split
      · next b t h =>
          rw [h] at hnext ⊢
          exact ⟨rfl, hnext⟩
      · next t h =>
          rw [h] at hnext ⊢
          exact ih hnext

/-- What a search yields, one of its items yielded. -/
theorem exists_of_findMap {f : α → σ → Option β × σ} {items : List α} {s t : σ} {b : β}
    (h : findMap f items s = (some b, t)) : ∃ a ∈ items, ∃ u, f a u = (some b, t) := by
  induction items generalizing s with
  | nil => cases h
  | cons a rest ih =>
      rw [findMap] at h
      split at h
      · next c u hhead => exact ⟨a, List.mem_cons_self, s, hhead.trans h⟩
      · next u hhead =>
          obtain ⟨c, hc, hfound⟩ := ih h
          exact ⟨c, List.mem_cons_of_mem a hc, hfound⟩

/-- A reflexive and transitive relation over every probe of a search is one over the search. -/
theorem findMap_rel {R : σ → σ → Prop} (hrefl : ∀ s, R s s)
    (htrans : ∀ {s t u}, R s t → R t u → R s u) {f : α → σ → Option β × σ}
    (hf : ∀ a s, R s (f a s).2) (items : List α) (s : σ) : R s (findMap f items s).2 := by
  induction items generalizing s with
  | nil => exact hrefl s
  | cons a rest ih =>
      have hhead := hf a s
      rw [findMap]
      split
      · next b t h =>
          rw [h] at hhead
          exact hhead
      · next t h =>
          rw [h] at hhead
          exact htrans hhead (ih t)

/-- A search that yields nothing is related by what its probes without a yield are. -/
theorem findMap_none_rel {R : σ → σ → Prop} (hrefl : ∀ s, R s s)
    (htrans : ∀ {s t u}, R s t → R t u → R s u) {f : α → σ → Option β × σ}
    (hf : ∀ a s t, f a s = (none, t) → R s t) {items : List α} {s t : σ}
    (h : findMap f items s = (none, t)) : R s t := by
  induction items generalizing s with
  | nil =>
      obtain rfl := (Prod.mk.inj h).2
      exact hrefl s
  | cons a rest ih =>
      rw [findMap] at h
      split at h
      · cases h
      · next u hhead => exact htrans (hf a s u hhead) (ih h)

/-- A search in a state with more in it is the search in what a projection leaves, if each
probe is. -/
theorem findMap_map {τ : Type*} {φ : σ → τ} {f : α → σ → Option β × σ} {g : α → τ → Option β × τ}
    (hf : ∀ a s, Prod.map id φ (f a s) = g a (φ s)) (items : List α) (s : σ) :
    Prod.map id φ (findMap f items s) = findMap g items (φ s) := by
  induction items generalizing s with
  | nil => rfl
  | cons a rest ih =>
      rw [findMap, findMap, ← hf]
      obtain ⟨found, t⟩ := f a s
      cases found with
      | some b => rfl
      | none => exact ih t

@[simp] theorem mapState_length (f : α → σ → β × σ) (items : List α) (s : σ) :
    (mapState f items s).1.length = items.length := by
  induction items generalizing s with
  | nil => rfl
  | cons a rest ih => simp [mapState, ih]

/-- A relation between the states before and after each rewriting action, if it
is reflexive and transitive, relates the states before and after the loop. -/
theorem mapState_rel {R : σ → σ → Prop} {f : α → σ → β × σ} {items : List α}
    (hrefl : ∀ s, R s s) (htrans : ∀ {s t u}, R s t → R t u → R s u)
    (hf : ∀ a ∈ items, ∀ s, R s (f a s).2) (s : σ) : R s (mapState f items s).2 := by
  induction items generalizing s with
  | nil => exact hrefl s
  | cons a rest ih =>
      exact htrans (hf a (by simp) s) (ih (fun b hb => hf b (by simp [hb])) (f a s).2)

/-- Such a relation also reaches from the state before the loop to the one in which an
item is rewritten, and on to the state after it. -/
theorem mapState_rel_getElem {R : σ → σ → Prop} {f : α → σ → β × σ} {items : List α}
    (hrefl : ∀ s, R s s) (htrans : ∀ {s t u}, R s t → R t u → R s u)
    (hf : ∀ a s, R s (f a s).2) {i : Nat} {a : α} (h : items[i]? = some a) (s : σ) :
    ∃ t, R s t ∧ (mapState f items s).1[i]? = some (f a t).1 ∧
      R (f a t).2 (mapState f items s).2 := by
  induction items generalizing i s with
  | nil => simp at h
  | cons b rest ih =>
      cases i with
      | zero =>
          obtain rfl : b = a := by simpa using h
          exact ⟨s, hrefl s, rfl, mapState_rel hrefl htrans (fun c _ => hf c) _⟩
      | succ i =>
          obtain ⟨t, hst, hget, hlast⟩ := ih (by simpa using h) (f b s).2
          exact ⟨t, htrans (hf b s) hst, by simpa [mapState] using hget, hlast⟩

/-- A view of the items that each action keeps is kept by the loop. -/
theorem mapState_map {γ : Type*} {f : α → σ → β × σ} {view : β → γ} {view' : α → γ}
    (hf : ∀ a s, view (f a s).1 = view' a) (items : List α) (s : σ) :
    (mapState f items s).1.map view = items.map view' := by
  induction items generalizing s with
  | nil => rfl
  | cons a rest ih => simp [mapState, hf, ih]

/-- A loop whose actions rewrite the items without regard to the state is a map. -/
theorem mapState_fst {f : α → σ → β × σ} {g : α → β} (hf : ∀ a s, (f a s).1 = g a)
    (items : List α) (s : σ) : (mapState f items s).1 = items.map g := by
  induction items generalizing s with
  | nil => rfl
  | cons a rest ih => simp [mapState, hf, ih]

/-- A loop whose actions each add to a log writes down what they add, in order. -/
theorem mapState_log {ο : Type*} {f : α → σ × List ο → β × (σ × List ο)} {g : α → List ο}
    (hf : ∀ a s, (f a s).2.2 = s.2 ++ g a) (items : List α) (s : σ × List ο) :
    (mapState f items s).2.2 = s.2 ++ items.flatMap g := by
  induction items generalizing s with
  | nil => exact (List.append_nil _).symm
  | cons a rest ih =>
      have hstep : (mapState f (a :: rest) s).2.2 = (mapState f rest (f a s).2).2.2 := rfl
      rw [hstep, ih, hf, List.flatMap_cons, List.append_assoc]

/-- A loop over views of the items whose actions rewrite them to views rewrites to views. -/
theorem mapState_view {α' β' : Type*} {view : α → α'} {value : β → β'} {f : α → σ → β × σ}
    {f' : α' → σ → β' × σ} (hf : ∀ a s, f' (view a) s = Prod.map value id (f a s))
    (items : List α) (s : σ) :
    mapState f' (items.map view) s = Prod.map (List.map value) id (mapState f items s) := by
  induction items generalizing s with
  | nil => rfl
  | cons a rest ih => simp [mapState, hf, ih]

/-- A loop whose actions change neither their items nor the state changes nothing. -/
theorem mapState_fixed {f : α → σ → α × σ} {items : List α}
    (hf : ∀ a ∈ items, ∀ s, f a s = (a, s)) (s : σ) : mapState f items s = (items, s) := by
  induction items with
  | nil => rfl
  | cons a rest ih =>
      have hrest := ih fun b hb => hf b (List.mem_cons_of_mem a hb)
      simp only [mapState, hf a List.mem_cons_self s, hrest]

theorem mapState_append (f : α → σ → β × σ) (xs ys : List α) (s : σ) :
    mapState f (xs ++ ys) s =
      ((mapState f xs s).1 ++ (mapState f ys (mapState f xs s).2).1,
        (mapState f ys (mapState f xs s).2).2) := by
  induction xs generalizing s with
  | nil => rfl
  | cons a rest ih => simp [mapState, ih]

section StateAt

/-- The state in which a loop rewrites the item at a position. -/
def stateAt (f : α → σ → β × σ) (items : List α) (i : Nat) (s : σ) : σ :=
  (mapState f (items.take i) s).2

variable {f : α → σ → β × σ} {items : List α} {s : σ}

@[simp] theorem stateAt_length : stateAt f items items.length s = (mapState f items s).2 := by
  rw [stateAt, List.take_length]

theorem stateAt_succ {i : Nat} {a : α} (h : items[i]? = some a) :
    stateAt f items (i + 1) s = (f a (stateAt f items i s)).2 := by
  rw [stateAt, List.take_add_one, h, mapState_append]
  rfl

/-- Each item is rewritten in the state that the loop has reached. -/
theorem mapState_getElem? (i : Nat) :
    (mapState f items s).1[i]? = items[i]?.map fun a => (f a (stateAt f items i s)).1 := by
  induction items generalizing i s with
  | nil => rfl
  | cons a rest ih =>
      cases i with
      | zero => rfl
      | succ i => exact ih i

/-- What holds at the start, and what each action carries from its position to the
next, holds at every position of the loop. -/
theorem stateAt_induct {I : Nat → σ → Prop} (hstart : I 0 s)
    (hstep : ∀ i a, items[i]? = some a → I i (stateAt f items i s) →
      I (i + 1) (f a (stateAt f items i s)).2) :
    ∀ i ≤ items.length, I i (stateAt f items i s) := by
  intro i hi
  induction i with
  | zero => exact hstart
  | succ i ih =>
      have hget : items[i]? = some items[i] := List.getElem?_eq_getElem hi
      rw [stateAt_succ hget]
      exact hstep i items[i] hget (ih (Nat.le_of_succ_le hi))

/-- What each action establishes for its own item, and no later action undoes, holds of
every item after the loop. -/
theorem mapState_establishes {E : α → σ → Prop}
    (hest : ∀ i a, items[i]? = some a → E a (f a (stateAt f items i s)).2)
    (hkeep : ∀ i a b, items[i]? = some b → E a (stateAt f items i s) →
      E a (f b (stateAt f items i s)).2) :
    ∀ a ∈ items, E a (mapState f items s).2 := by
  intro a ha
  obtain ⟨j, hj, hget⟩ := List.getElem_of_mem ha
  have hat : items[j]? = some a := hget ▸ List.getElem?_eq_getElem hj
  have hall : ∀ i ≤ items.length, j < i → E a (stateAt f items i s) := by
    refine stateAt_induct (I := fun i t => j < i → E a t)
      (fun h => absurd h (Nat.not_lt_zero j)) ?_
    intro i b hb ih hlt
    rcases Nat.lt_succ_iff_lt_or_eq.mp hlt with hbefore | rfl
    · exact hkeep i a b hb (ih hbefore)
    · obtain rfl := Option.some.inj (hat.symm.trans hb)
      exact hest j a hat
  rw [← stateAt_length]
  exact hall items.length (Nat.le_refl _) hj

end StateAt

/-- Seen through a view that only the action on `a` disturbs, the loop is that one
action: the state it runs in looks like the first state, and the last state looks
like the one it leaves. -/
theorem mapState_focus {γ : Type*} (view : σ → γ) {f : α → σ → β × σ} {pre post : List α}
    (a : α) (hpre : ∀ b ∈ pre, ∀ s, view (f b s).2 = view s)
    (hpost : ∀ b ∈ post, ∀ s, view (f b s).2 = view s) (s : σ) :
    view (mapState f pre s).2 = view s ∧
      (mapState f (pre ++ a :: post) s).1[pre.length]? =
        some (f a (mapState f pre s).2).1 ∧
      (mapState f (pre ++ a :: post) s).2 =
        (mapState f post (f a (mapState f pre s).2).2).2 ∧
      view (mapState f (pre ++ a :: post) s).2 = view (f a (mapState f pre s).2).2 := by
  have keep : ∀ items, (∀ b ∈ items, ∀ s, view (f b s).2 = view s) →
      ∀ s, view (mapState f items s).2 = view s := by
    intro items hitems s
    exact mapState_rel (R := fun s t => view t = view s) (fun _ => rfl)
      (fun h₁ h₂ => h₂.trans h₁) hitems s
  have hlast : (mapState f (pre ++ a :: post) s).2 =
      (mapState f post (f a (mapState f pre s).2).2).2 := by
    rw [mapState_append]
    rfl
  refine ⟨keep pre hpre s, ?_, hlast, hlast ▸ keep post hpost _⟩
  rw [mapState_append]
  simp [mapState]

section Failing

variable {ε : Type*}

/-- A loop of fallible actions yields what they yield, item by item. -/
theorem mapM_eq_some_iff {f : α → Option β} {items : List α} {bs : List β} :
    items.mapM f = some bs ↔ List.Forall₂ (fun a b => f a = some b) items bs := by
  induction items generalizing bs with
  | nil =>
      rw [List.mapM_nil, List.forall₂_nil_left_iff]
      exact ⟨fun h => (Option.some.inj h).symm, fun h => h ▸ rfl⟩
  | cons a rest ih =>
      rw [List.mapM_cons, List.forall₂_cons_left_iff]
      constructor
      · intro h
        obtain ⟨b, hb, h⟩ := Option.bind_eq_some_iff.mp h
        obtain ⟨tail, htail, h⟩ := Option.bind_eq_some_iff.mp h
        obtain rfl := Option.some.inj h
        exact ⟨b, tail, hb, ih.mp htail, rfl⟩
      · rintro ⟨b, tail, hb, htail, rfl⟩
        rw [hb, ih.mpr htail]
        rfl

/-- It fails when one of them does. -/
theorem mapM_eq_none_iff {f : α → Option β} {items : List α} :
    items.mapM f = none ↔ ∃ a ∈ items, f a = none := by
  induction items with
  | nil => exact iff_of_false nofun nofun
  | cons a rest ih =>
      rw [List.mapM_cons, List.exists_mem_cons_iff, ← ih]
      cases f a with
      | none => exact iff_of_true rfl (.inl rfl)
      | some b =>
          simp only [reduceCtorEq, false_or]
          cases rest.mapM f with
          | none => exact iff_of_true rfl rfl
          | some bs => exact iff_of_false nofun nofun

theorem mapM_eq_error_iff {f : α → Except ε β} {items : List α} :
    (∃ e, items.mapM f = .error e) ↔ ∃ a ∈ items, ∃ e, f a = .error e := by
  induction items with
  | nil => exact iff_of_false (fun ⟨_, h⟩ => nomatch h) nofun
  | cons a rest ih =>
      rw [List.mapM_cons, List.exists_mem_cons_iff, ← ih]
      cases f a with
      | error e => exact iff_of_true ⟨e, rfl⟩ (.inl ⟨e, rfl⟩)
      | ok b =>
          simp only [reduceCtorEq, exists_false, false_or]
          cases rest.mapM f with
          | error e => exact iff_of_true ⟨e, rfl⟩ ⟨e, rfl⟩
          | ok bs => exact iff_of_false (fun ⟨_, h⟩ => nomatch h) (fun ⟨_, h⟩ => nomatch h)

end Failing

end StateLoop
