import Mathlib.Data.List.Find
import Mathlib.Data.List.Nodup
import SmartGuard.Card.Secret

/-!
# Listing the cards

`listCards` and the search of `openAndVerify` probe the readers by the same stages, one
to show the cards and one to open the first that fits. If a stage gives both the same
result, the two are searches through one list of reachable cards.
-/

namespace SmartGuard

open StateLoop

structure CardInfo where
  ident : Ident
  publicKey : Key
  deriving DecidableEq

variable {Backend Card π : Type} (P : Pcsc Backend Card π)

/-- The body of the loop that lists the cards. -/
def listCard (backend : Option Backend) (s : π) : Option CardInfo × π :=
  match backend with
  | none => (none, s)
  | some backend =>
      match P.newCard backend s with
      | (none, s) => (none, s)
      | (some card, s) =>
          match P.transaction card s with
          | (.error _, s) => (none, s)
          | (.ok _, s) =>
              match P.applicationIdentifier card s with
              | (none, s) => (none, s)
              | (some ident, s) =>
                  match P.publicKeyMaterial card s with
                  | (some (.E data), s) =>
                      match firstChunk data with
                      | some pk => (some { ident := ident, publicKey := pk }, s)
                      | none => (none, s)
                  | (_, s) => (none, s)

def listCards (s : π) : Except SmartcardError (List CardInfo) × π :=
  match P.cards s with
  | (.error e, s) => (.error (.cardError e), s)
  | (.ok backends, s) =>
      let cards := collect (listCard P) backends s
      (.ok cards.1, cards.2)

/-- How an opening ends after its search: with the error of the search, or as the PIN check of
the card that was selected. -/
def EndsAs (pin : Pin) (selected : Except SmartcardError (Card × Ident) × π)
    (out : Option (Except SmartcardError (Card × Ident)) × π) : Prop :=
  match selected with
  | (.error e, s) => out = (some (.error e), s)
  | (.ok c, s) => ∃ t, P.transaction c.1 s = (.ok (), t) ∧
      out = match P.verifyUserPin c.1 pin t with
        | (.error e, t) => (some (.error (.pinFailed e)), t)
        | (.ok _, t) => (some (.ok c), t)

/-- The results of the stages by which a reader is probed. -/
structure Stages (Backend Card : Type) where
  connect : Backend → Option Card
  begins : Card → Bool
  ident : Card → Option Ident
  key : Card → Option PublicKeyMaterial

namespace Stages

variable (v : Stages Backend Card)

/-- The card of a reader with its identity, if the stages up to the identity succeed. -/
def reach (backend : Option Backend) : Option (Card × Ident) :=
  backend.bind fun b => (v.connect b).bind fun card =>
    if v.begins card then (v.ident card).map fun ident => (card, ident) else none

/-- The reachable cards in the order of their readers. -/
def reachable (backends : List (Option Backend)) : List (Card × Ident) :=
  backends.filterMap v.reach

/-- What the key of a card is cut to, if it is of an elliptic curve and long enough. -/
def publicKey (card : Card) : Option Key :=
  match v.key card with
  | some (.E data) => firstChunk data
  | _ => none

def info (c : Card × Ident) : Option CardInfo :=
  (v.publicKey c.1).map fun pk => { ident := c.2, publicKey := pk }

/-- What the search makes of a reachable card. -/
def opens (requestedIdent : Ident) (c : Card × Ident) :
    Option (Except SmartcardError (Card × Ident)) :=
  if requestedIdent ≠ "auto" ∧ requestedIdent ≠ c.2 then none
  else if (v.publicKey c.1).isSome then some (.ok c)
  else if requestedIdent = "auto" then none
  else some (.error .noDecryptionKey)

end Stages

/-- In the states `I`, which probing does not leave, every stage gives its one result. -/
structure Steady (P : Pcsc Backend Card π) (I : π → Prop) (v : Stages Backend Card) :
    Prop where
  newCard : ∀ b s, I s → (P.newCard b s).1 = v.connect b ∧ I (P.newCard b s).2
  transaction : ∀ c s, I s → (P.transaction c s).1.isOk = v.begins c ∧ I (P.transaction c s).2
  applicationIdentifier : ∀ c s, I s →
    (P.applicationIdentifier c s).1 = v.ident c ∧ I (P.applicationIdentifier c s).2
  publicKeyMaterial : ∀ c s, I s →
    (P.publicKeyMaterial c s).1 = v.key c ∧ I (P.publicKeyMaterial c s).2

section Probe

/-- The stages that both searches begin with: up to the identity of the card. -/
def probeCard (backend : Option Backend) (s : π) : Option (Card × Ident) × π :=
  match backend with
  | none => (none, s)
  | some backend =>
      match P.newCard backend s with
      | (none, s) => (none, s)
      | (some card, s) =>
          match P.transaction card s with
          | (.error _, s) => (none, s)
          | (.ok _, s) =>
              match P.applicationIdentifier card s with
              | (none, s) => (none, s)
              | (some ident, s) => (some (card, ident), s)

theorem listCard_eq (backend : Option Backend) (s : π) :
    listCard P backend s =
      match probeCard P backend s with
      | (none, s) => (none, s)
      | (some (card, ident), s) =>
          match P.publicKeyMaterial card s with
          | (some (.E data), s) =>
              match firstChunk data with
              | some pk => (some { ident := ident, publicKey := pk }, s)
              | none => (none, s)
          | (_, s) => (none, s) := by
  unfold listCard probeCard
  cases backend with
  | none => rfl
  | some backend =>
      simp only
      obtain ⟨connected, s⟩ := P.newCard backend s
      cases connected with
      | none => rfl
      | some card =>
          simp only
          obtain ⟨begun, s⟩ := P.transaction card s
          cases begun with
          | error e => rfl
          | ok _ =>
              simp only
              obtain ⟨ident, s⟩ := P.applicationIdentifier card s
              cases ident <;> rfl

theorem openCard_eq (requestedIdent : Ident) (backend : Option Backend) (s : π) :
    openCard P requestedIdent backend s =
      match probeCard P backend s with
      | (none, s) => (none, s)
      | (some (card, cardIdent), s) =>
          if requestedIdent ≠ "auto" ∧ requestedIdent ≠ cardIdent then (none, s)
          else
            match P.publicKeyMaterial card s with
            | (some (.E data), s) =>
                if 32 ≤ data.length then (some (.ok (card, cardIdent)), s)
                else if requestedIdent = "auto" then (none, s)
                else (some (.error .noDecryptionKey), s)
            | (_, s) =>
                if requestedIdent = "auto" then (none, s)
                else (some (.error .noDecryptionKey), s) := by
  unfold openCard probeCard
  cases backend with
  | none => rfl
  | some backend =>
      simp only
      obtain ⟨connected, s⟩ := P.newCard backend s
      cases connected with
      | none => rfl
      | some card =>
          simp only
          obtain ⟨begun, s⟩ := P.transaction card s
          cases begun with
          | error e => rfl
          | ok _ =>
              simp only
              obtain ⟨ident, s⟩ := P.applicationIdentifier card s
              cases ident <;> rfl

variable {P} {I : π → Prop} {v : Stages Backend Card}

theorem probeCard_steady (h : Steady P I v) (backend : Option Backend) {s : π} (hs : I s) :
    (probeCard P backend s).1 = v.reach backend ∧ I (probeCard P backend s).2 := by
  cases backend with
  | none => exact ⟨rfl, hs⟩
  | some backend =>
      obtain ⟨hconnect, hI⟩ := h.newCard backend s hs
      simp only [probeCard, Stages.reach, Option.bind_some, ← hconnect]
      split
      · next t hnew =>
          rw [hnew] at hI ⊢
          exact ⟨rfl, hI⟩
      · next card t hnew =>
          rw [hnew] at hI ⊢
          obtain ⟨hbegins, hI⟩ := h.transaction card t hI
          simp only [Option.bind_some, ← hbegins]
          split
          · next u htx =>
              rw [htx] at hI ⊢
              exact ⟨rfl, hI⟩
          · next u htx =>
              rw [htx] at hI ⊢
              obtain ⟨hident, hI⟩ := h.applicationIdentifier card u hI
              simp only [Except.isOk, Except.toBool, if_true, ← hident]
              split
              · next w hai =>
                  rw [hai] at hI ⊢
                  exact ⟨rfl, hI⟩
              · next ident w hai =>
                  rw [hai] at hI ⊢
                  exact ⟨rfl, hI⟩

/-- The listing of a reader is that of the card it reaches. -/
theorem listCard_steady (h : Steady P I v) (backend : Option Backend) (s : π) (hs : I s) :
    (listCard P backend s).1 = (v.reach backend).bind v.info ∧
      I (listCard P backend s).2 := by
  obtain ⟨hreach, hI⟩ := probeCard_steady h backend hs
  rw [listCard_eq, ← hreach]
  split
  · next t hprobe =>
      rw [hprobe] at hI ⊢
      exact ⟨rfl, hI⟩
  · next card ident t hprobe =>
      rw [hprobe] at hI ⊢
      obtain ⟨hkey, hI⟩ := h.publicKeyMaterial card t hI
      simp only [Option.bind_some, Stages.info, Stages.publicKey, ← hkey]
      split
      · next data u hmaterial =>
          rw [hmaterial] at hI ⊢
          simp only
          split
          · next pk hpk => exact ⟨by rw [hpk]; rfl, hI⟩
          · next hpk => exact ⟨by rw [hpk]; rfl, hI⟩
      · next material u hnot hmaterial =>
          rw [hmaterial] at hI ⊢
          simp only
          exact ⟨rfl, hI⟩

/-- So is the search. -/
theorem openCard_steady (h : Steady P I v) (requestedIdent : Ident) (backend : Option Backend)
    (s : π) (hs : I s) :
    (openCard P requestedIdent backend s).1 = (v.reach backend).bind (v.opens requestedIdent) ∧
      I (openCard P requestedIdent backend s).2 := by
  obtain ⟨hreach, hI⟩ := probeCard_steady h backend hs
  rw [openCard_eq, ← hreach]
  split
  · next t hprobe =>
      rw [hprobe] at hI ⊢
      exact ⟨rfl, hI⟩
  · next card ident t hprobe =>
      rw [hprobe] at hI ⊢
      simp only [Option.bind_some, Stages.opens]
      split
      · exact ⟨rfl, hI⟩
      · obtain ⟨hkey, hI⟩ := h.publicKeyMaterial card t hI
        simp only [Stages.publicKey, ← hkey]
        split
        · next data u hmaterial =>
            rw [hmaterial] at hI ⊢
            simp only [isSome_firstChunk_iff]
            split
            · exact ⟨rfl, hI⟩
            · split <;> exact ⟨rfl, hI⟩
        · next material u hnot hmaterial =>
            rw [hmaterial] at hI ⊢
            simp only [Option.isSome_none, Bool.false_eq_true, if_false]
            split <;> exact ⟨rfl, hI⟩

end Probe

section Agreement

variable {P} {I : π → Prop} {v : Stages Backend Card} {backends : List (Option Backend)}

/-- The cards listed are the reachable ones that have a key, in the order of the readers. -/
theorem listCards_steady (h : Steady P I v) {s t : π} (hlist : P.cards s = (.ok backends, t))
    (hI : I t) : (listCards P s).1 = .ok ((v.reachable backends).filterMap v.info) := by
  simp only [listCards, hlist]
  rw [collect_eq_filterMap (listCard_steady h) backends hI, Stages.reachable,
    List.filterMap_filterMap]

/-- The search goes through the reachable cards. -/
theorem selectCard_steady (h : Steady P I v) {s t : π} (hlist : P.cards s = (.ok backends, t))
    (hI : I t) (requestedIdent : Ident) :
    (selectCard P requestedIdent s).1 =
      ((v.reachable backends).findSome? (v.opens requestedIdent)).getD
        (.error (.cardNotFound requestedIdent)) ∧ I (selectCard P requestedIdent s).2 := by
  have hfound := findMap_eq_findSome? (openCard_steady h requestedIdent) backends hI
  have hreachable : backends.findSome? (fun b => (v.reach b).bind (v.opens requestedIdent)) =
      (v.reachable backends).findSome? (v.opens requestedIdent) := by
    rw [← List.head?_filterMap, ← List.head?_filterMap, Stages.reachable,
      List.filterMap_filterMap]
  rw [hreachable] at hfound
  rw [← hfound.1]
  simp only [selectCard, hlist]
  split
  · next u hnone =>
      rw [hnone] at hfound ⊢
      exact ⟨rfl, hfound.2⟩
  · next result u hsome =>
      rw [hsome] at hfound ⊢
      exact ⟨rfl, hfound.2⟩

/-- What the search opens is the reachable card itself, so its transaction begins. -/
theorem begins_of_opens {requestedIdent : Ident} {c : Card × Ident}
    (hopens : (v.reachable backends).findSome? (v.opens requestedIdent) = some (.ok c)) :
    v.begins c.1 = true := by
  obtain ⟨d, hd, hopen⟩ := List.exists_of_findSome?_eq_some hopens
  have hsame : c = d := by
    unfold Stages.opens at hopen
    split_ifs at hopen
    · exact (Except.ok.inj (Option.some.inj hopen)).symm
    · cases hopen
  obtain ⟨backend, -, hreach⟩ := List.mem_filterMap.mp hd
  obtain ⟨b, -, hconnect⟩ := Option.bind_eq_some_iff.mp hreach
  obtain ⟨card, -, hident⟩ := Option.bind_eq_some_iff.mp hconnect
  obtain ⟨hbegins, hident⟩ := Option.ite_none_right_eq_some.mp hident
  obtain ⟨ident, -, rfl⟩ := Option.map_eq_some_iff.mp hident
  rw [hsame]
  exact hbegins

/-- The opening is the search with the PIN check of the card that it selects. -/
theorem openAndVerify_endsAs (h : Steady P I v) {s t : π}
    (hlist : P.cards s = (.ok backends, t)) (hI : I t) (requestedIdent : Ident) (pin : Pin) :
    EndsAs P pin (selectCard P requestedIdent s) (openAndVerify P requestedIdent pin s) := by
  obtain ⟨hselected, hI'⟩ := selectCard_steady h hlist hI requestedIdent
  rw [openAndVerify]
  generalize selectCard P requestedIdent s = out at hselected hI' ⊢
  obtain ⟨_ | c, u⟩ := out
  · exact rfl
  · obtain ⟨hbegins, -⟩ := h.transaction c.1 u hI'
    have hopens : (v.reachable backends).findSome? (v.opens requestedIdent) = some (.ok c) := by
      cases hfind : (v.reachable backends).findSome? (v.opens requestedIdent) with
      | none =>
          rw [hfind] at hselected
          cases hselected
      | some result =>
          rw [hfind] at hselected
          exact congrArg some hselected.symm
    rw [begins_of_opens hopens] at hbegins
    cases hbegun : P.transaction c.1 u with
    | mk begun w =>
        rw [hbegun] at hbegins
        cases begun with
        | error e => cases hbegins
        | ok _ =>
            refine ⟨w, hbegun, ?_⟩
            cases hpin : P.verifyUserPin c.1 pin w with
            | mk verified x => cases verified <;> simp only [hbegun, hpin]

theorem opens_auto (c : Card × Ident) :
    v.opens "auto" c = (v.publicKey c.1).map fun _ => .ok c := by
  simp only [Stages.opens, ne_eq, not_true_eq_false, false_and, if_false, if_true]
  cases v.publicKey c.1 <;> rfl

/-- The first card with a key is the first listed. -/
theorem select_auto (cards : List (Card × Ident)) :
    ((cards.findSome? (v.opens "auto")).map fun result => result.map v.info) =
      (cards.filterMap v.info).head?.map fun info => Except.ok (some info) := by
  rw [List.head?_filterMap, List.map_findSome?, List.map_findSome?]
  congr 1
  funext c
  cases hkey : v.publicKey c.1 with
  | none => simp [opens_auto, Stages.info, hkey]
  | some pk => simp [opens_auto, Stages.info, hkey, Except.map]

theorem select_auto_eq_find (cards : List (Card × Ident)) :
    cards.findSome? (v.opens "auto") =
      (cards.find? fun c => (v.publicKey c.1).isSome).map Except.ok := by
  rw [← List.findSome?_guard, List.map_findSome?]
  congr 1
  funext c
  cases hkey : v.publicKey c.1 <;> simp [opens_auto, Option.guard, hkey]

/-- A card of the requested identity decides the search, if it is the only one. -/
theorem select_ident {cards : List (Card × Ident)} (hdistinct : (cards.map Prod.snd).Nodup)
    {c : Card × Ident} (hc : c ∈ cards) (hauto : c.2 ≠ "auto") :
    cards.findSome? (v.opens c.2) =
      some (if (v.publicKey c.1).isSome then .ok c else .error .noDecryptionKey) := by
  induction cards with
  | nil => cases hc
  | cons d rest ih =>
      rw [List.map_cons, List.nodup_cons] at hdistinct
      rw [List.findSome?_cons]
      rcases List.mem_cons.mp hc with rfl | hrest
      · have hopens : v.opens c.2 c =
            some (if (v.publicKey c.1).isSome then .ok c else .error .noDecryptionKey) := by
          rw [Stages.opens, if_neg (fun h => h.2 rfl), if_neg hauto]
          exact (apply_ite some _ _ _).symm
        rw [hopens]
      · have hne : c.2 ≠ d.2 := fun heq => hdistinct.1 (heq ▸ List.mem_map_of_mem hrest)
        have hopens : v.opens c.2 d = none := by
          rw [Stages.opens, if_pos ⟨hauto, hne⟩]
        rw [hopens]
        exact ih hdistinct.2 hrest

theorem select_unreachable {cards : List (Card × Ident)} {ident : Ident}
    (hident : ident ∉ cards.map Prod.snd) (hauto : ident ≠ "auto") :
    cards.findSome? (v.opens ident) = none := by
  apply List.findSome?_eq_none_iff.mpr
  intro c hc
  have hne : ident ≠ c.2 := by
    rintro rfl
    exact hident (List.mem_map_of_mem hc)
  rw [Stages.opens, if_pos ⟨hauto, hne⟩]

theorem ident_of_info {c : Card × Ident} {info : CardInfo} (h : v.info c = some info) :
    info.ident = c.2 := by
  obtain ⟨pk, -, rfl⟩ := Option.map_eq_some_iff.mp h
  rfl

/-- The identity of an unreachable card is not listed. -/
theorem find_unlisted {cards : List (Card × Ident)} {ident : Ident}
    (hident : ident ∉ cards.map Prod.snd) :
    (cards.filterMap v.info).find? (·.ident = ident) = none := by
  apply List.find?_eq_none.mpr
  intro info hinfo
  obtain ⟨c, hc, hcinfo⟩ := List.mem_filterMap.mp hinfo
  rw [ident_of_info hcinfo, decide_eq_true_eq]
  rintro rfl
  exact hident (List.mem_map_of_mem hc)

/-- What is listed under the identity of a card is the card, if it is listed at all. -/
theorem find_listed {cards : List (Card × Ident)} (hdistinct : (cards.map Prod.snd).Nodup)
    {c : Card × Ident} (hc : c ∈ cards) :
    (cards.filterMap v.info).find? (·.ident = c.2) = v.info c := by
  induction cards with
  | nil => cases hc
  | cons d rest ih =>
      rw [List.map_cons, List.nodup_cons] at hdistinct
      rcases List.mem_cons.mp hc with rfl | hrest
      · rw [List.filterMap_cons]
        cases hinfo : v.info c with
        | none => exact find_unlisted hdistinct.1
        | some info =>
            simp only
            rw [List.find?_cons_of_pos]
            exact decide_eq_true (ident_of_info hinfo)
      · have hne : d.2 ≠ c.2 := fun heq => hdistinct.1 (heq ▸ List.mem_map_of_mem hrest)
        rw [List.filterMap_cons]
        cases hinfo : v.info d with
        | none => exact ih hdistinct.2 hrest
        | some info =>
            simp only
            rw [List.find?_cons_of_neg]
            · exact ih hdistinct.2 hrest
            · rw [ident_of_info hinfo, decide_eq_true_eq]
              exact hne

end Agreement

variable {P} {I : π → Prop} {v : Stages Backend Card} {backends : List (Option Backend)}

/-- Where the stages give both searches the same results and no two cards share an identity,
"auto" selects the first card listed; any other identity selects the card listed under it,
fails for want of a key if its card is reachable but not listed, and is not found otherwise.
The opening ends with the error of its search or as the PIN check of the card selected. -/
theorem openAndVerify_agrees_with_listCards (h : Steady P I v) {s t s' t' : π}
    (hlist : P.cards s = (.ok backends, t)) (hI : I t)
    (hopen : P.cards s' = (.ok backends, t')) (hI' : I t')
    (hdistinct : ((v.reachable backends).map Prod.snd).Nodup) :
    ∃ infos, (listCards P s).1 = .ok infos ∧
      (selectCard P "auto" s').1.map v.info =
        (match infos.head? with
        | some info => .ok (some info)
        | none => .error (.cardNotFound "auto")) ∧
      (∀ ident ≠ "auto", (selectCard P ident s').1.map v.info =
        match infos.find? (·.ident = ident) with
        | some info => .ok (some info)
        | none =>
            if ident ∈ (v.reachable backends).map Prod.snd then .error .noDecryptionKey
            else .error (.cardNotFound ident)) ∧
      ∀ ident pin, EndsAs P pin (selectCard P ident s') (openAndVerify P ident pin s') := by
  refine ⟨_, listCards_steady h hlist hI, ?_, ?_, openAndVerify_endsAs h hopen hI'⟩
  · have hauto := select_auto (v := v) (v.reachable backends)
    rw [(selectCard_steady h hopen hI' _).1]
    cases hfirst : ((v.reachable backends).filterMap v.info).head? with
    | none =>
        rw [hfirst, Option.map_none, Option.map_eq_none_iff] at hauto
        rw [hauto]
        rfl
    | some info =>
        rw [hfirst, Option.map_some, Option.map_eq_some_iff] at hauto
        obtain ⟨result, hresult, hinfo⟩ := hauto
        rw [hresult]
        exact hinfo
  · intro ident hauto
    rw [(selectCard_steady h hopen hI' _).1]
    by_cases hreachable : ident ∈ (v.reachable backends).map Prod.snd
    · obtain ⟨c, hc, rfl⟩ := List.mem_map.mp hreachable
      rw [select_ident hdistinct hc hauto, find_listed hdistinct hc, Option.getD_some,
        if_pos hreachable]
      cases hkey : v.publicKey c.1 with
      | none => simp [Stages.info, hkey, Except.map]
      | some pk => simp [Stages.info, hkey, Except.map]
    · rw [select_unreachable hreachable hauto, find_unlisted hreachable, Option.getD_none,
        if_neg hreachable]
      rfl

section Discovery

/-- What a decryption slot holds: nothing, an RSA key, an X25519 key, or the public point
of another curve. -/
inductive DecryptionKey
  | absent
  | rsa
  | x25519 (pk : Key)
  | otherCurve (point : List UInt8)
  deriving DecidableEq

namespace DecryptionKey

/-- What a card shows of the key: an empty slot cannot be read. -/
def material : DecryptionKey → Option PublicKeyMaterial
  | absent => none
  | rsa => some .R
  | x25519 pk => some (.E pk.bytes)
  | otherCurve point => some (.E point)

def x25519? : DecryptionKey → Option Key
  | x25519 pk => some pk
  | _ => none

end DecryptionKey

variable {slot : Card → DecryptionKey}

/-- The listing of the cards whose decryption key is X25519, with their whole keys. -/
def x25519Infos (slot : Card → DecryptionKey) (cards : List (Card × Ident)) : List CardInfo :=
  cards.filterMap fun c => (slot c.1).x25519?.map fun pk => { ident := c.2, publicKey := pk }

/-- The first card whose decryption key is X25519. -/
def firstX25519 (slot : Card → DecryptionKey) (cards : List (Card × Ident)) :
    Except SmartcardError (Card × Ident) :=
  match cards.find? fun c => (slot c.1).x25519?.isSome with
  | some c => .ok c
  | none => .error (.cardNotFound "auto")

/-- The cards listed are those with an X25519 key, and opening "auto" comes to the PIN check of
the first of them. -/
structure FindsX25519 (P : Pcsc Backend Card π) (slot : Card → DecryptionKey)
    (cards : List (Card × Ident)) (s s' : π) : Prop where
  listed : (listCards P s).1 = .ok (x25519Infos slot cards)
  selected : (selectCard P "auto" s').1 = firstX25519 slot cards
  opened : ∀ pin, EndsAs P pin (selectCard P "auto" s') (openAndVerify P "auto" pin s')

/-- A key passes for X25519 if it is, or if its point is long enough. -/
theorem publicKey_eq_iff (hslot : ∀ card, v.key card = (slot card).material) (card : Card) :
    v.publicKey card = (slot card).x25519? ↔
      ∀ point, slot card = .otherCurve point → point.length < 32 := by
  rw [Stages.publicKey, hslot]
  cases slot card with
  | absent => exact iff_of_true rfl nofun
  | rsa => exact iff_of_true rfl nofun
  | x25519 pk => exact iff_of_true (firstChunk_key pk) nofun
  | otherCurve point =>
      have hshort : firstChunk point = none ↔ point.length < 32 := by
        rw [← Option.not_isSome_iff_eq_none, isSome_firstChunk_iff, Nat.not_le]
      simp only [DecryptionKey.material, DecryptionKey.x25519?, DecryptionKey.otherCurve.injEq,
        forall_eq', hshort]

/-- A map that keeps fewer items, and those unchanged, keeps no more of them. -/
theorem length_filterMap_le_of_sub {α β : Type*} {f g : α → Option β} {l : List α}
    (hsub : ∀ x ∈ l, g x = none ∨ g x = f x) :
    (l.filterMap g).length ≤ (l.filterMap f).length := by
  rw [List.length_filterMap_eq_countP, List.length_filterMap_eq_countP]
  apply List.countP_mono_left
  intro x hx hsome
  rcases hsub x hx with hnone | hsame
  · rw [hnone] at hsome
    cases hsome
  · rwa [hsame] at hsome

/-- If such a map keeps as many, it keeps the same. -/
theorem eq_of_filterMap_eq {α β : Type*} {f g : α → Option β} {l : List α}
    (hsub : ∀ x ∈ l, g x = none ∨ g x = f x) (h : l.filterMap f = l.filterMap g) :
    ∀ x ∈ l, f x = g x := by
  induction l with
  | nil => exact nofun
  | cons x rest ih =>
      have hrest : ∀ y ∈ rest, g y = none ∨ g y = f y :=
        fun y hy => hsub y (List.mem_cons_of_mem x hy)
      have hle := length_filterMap_le_of_sub hrest
      rw [List.filterMap_cons, List.filterMap_cons] at h
      rcases hsub x List.mem_cons_self with hnone | hsame
      · rw [hnone] at h
        cases hf : f x with
        | none =>
            rw [hf] at h
            exact List.forall_mem_cons.mpr ⟨hf.trans hnone.symm, ih hrest h⟩
        | some y =>
            rw [hf] at h
            have hlonger := congrArg List.length h
            simp only [List.length_cons] at hlonger
            omega
      · rw [hsame] at h
        refine List.forall_mem_cons.mpr ⟨hsame.symm, ih hrest ?_⟩
        cases hf : f x with
        | none =>
            rw [hf] at h
            exact h
        | some y =>
            rw [hf] at h
            exact (List.cons.inj h).2

end Discovery

/-- Discovery finds the reachable cards with an X25519 key, and only those, exactly if no
reachable card has a key of another curve whose point is 32 bytes or longer. -/
theorem findsX25519_iff {slot : Card → DecryptionKey} (h : Steady P I v)
    (hslot : ∀ card, v.key card = (slot card).material) {s t s' t' : π}
    (hlist : P.cards s = (.ok backends, t)) (hI : I t)
    (hopen : P.cards s' = (.ok backends, t')) (hI' : I t') :
    FindsX25519 P slot (v.reachable backends) s s' ↔
      ∀ c ∈ v.reachable backends, ∀ point, slot c.1 = .otherCurve point → point.length < 32 := by
  constructor
  · rintro ⟨hlisted, -, -⟩ c hc
    rw [listCards_steady h hlist hI] at hlisted
    have hsub : ∀ d ∈ v.reachable backends,
        ((slot d.1).x25519?.map fun pk => (⟨d.2, pk⟩ : CardInfo)) = none ∨
          ((slot d.1).x25519?.map fun pk => (⟨d.2, pk⟩ : CardInfo)) = v.info d := by
      intro d _
      cases hd : slot d.1 with
      | x25519 pk =>
          right
          rw [Stages.info, (publicKey_eq_iff hslot d.1).mpr (hd ▸ nofun), hd]
      | _ => exact .inl rfl
    have hsame := eq_of_filterMap_eq hsub (Except.ok.inj hlisted) c hc
    apply (publicKey_eq_iff hslot c.1).mp
    exact Option.map_injective (fun _ _ heq => (CardInfo.mk.inj heq).2) hsame
  · intro hcond
    have hkey : ∀ c ∈ v.reachable backends, v.publicKey c.1 = (slot c.1).x25519? :=
      fun c hc => (publicKey_eq_iff hslot c.1).mpr (hcond c hc)
    constructor
    · rw [listCards_steady h hlist hI, x25519Infos]
      refine congrArg Except.ok (List.filterMap_congr fun c hc => ?_)
      rw [Stages.info, hkey c hc]
    · have hfind : (v.reachable backends).find? (fun c => (v.publicKey c.1).isSome) =
          (v.reachable backends).find? fun c => (slot c.1).x25519?.isSome :=
        List.find?_congr fun c hc => by rw [hkey c hc]
      rw [(selectCard_steady h hopen hI' _).1, select_auto_eq_find, hfind, firstX25519]
      cases (v.reachable backends).find? fun c => (slot c.1).x25519?.isSome <;> rfl
    · exact openAndVerify_endsAs h hopen hI' "auto"

section Sample

/-- Readers with a card each, of which the identity and the decryption key are given. -/
def Pcsc.shelf : Pcsc (Ident × DecryptionKey) (Ident × DecryptionKey)
    (List (Ident × DecryptionKey)) where
  cards s := (.ok (s.map some), s)
  newCard card s := (some card, s)
  transaction _ s := (.ok (), s)
  applicationIdentifier card s := (some card.1, s)
  publicKeyMaterial card s := (card.2.material, s)
  verifyUserPin _ _ s := (.ok (), s)
  decipher _ pk s := (.ok pk.bytes, s)
  sleep _ s := s
  identity card := card.1
  identifies h := (Option.some.inj (Prod.mk.inj h).1).symm

def Stages.shelf : Stages (Ident × DecryptionKey) (Ident × DecryptionKey) where
  connect := some
  begins _ := true
  ident card := some card.1
  key card := card.2.material

theorem shelf_steady : Steady Pcsc.shelf (fun _ => True) Stages.shelf where
  newCard _ _ _ := ⟨rfl, trivial⟩
  transaction _ _ _ := ⟨rfl, trivial⟩
  applicationIdentifier _ _ _ := ⟨rfl, trivial⟩
  publicKeyMaterial _ _ _ := ⟨rfl, trivial⟩

/-- An RSA card before an X25519 card. -/
def mixedShelf : List (Ident × DecryptionKey) :=
  [("0006:00000001", .rsa), ("0006:00000002", .x25519 (.replicate 5))]

/-- The RSA card is not listed, and opening it fails for want of a key. -/
theorem shelf_rsa_has_no_key :
    (listCards Pcsc.shelf mixedShelf).1 = .ok [⟨"0006:00000002", .replicate 5⟩] ∧
      (openAndVerify Pcsc.shelf "0006:00000001" "123456" mixedShelf).1 =
        some (.error .noDecryptionKey) := by
  have hcards : Pcsc.shelf.cards mixedShelf = (.ok (mixedShelf.map some), mixedShelf) := rfl
  obtain ⟨infos, hlisted, -, hident, hends⟩ := openAndVerify_agrees_with_listCards shelf_steady
    hcards trivial hcards trivial (by decide +kernel)
  have hinfos : (listCards Pcsc.shelf mixedShelf).1 = .ok [⟨"0006:00000002", .replicate 5⟩] := by
    decide +kernel
  obtain rfl := Except.ok.inj (hlisted.symm.trans hinfos)
  refine ⟨hinfos, ?_⟩
  have hselected := hident "0006:00000001" (by decide)
  have hopened := hends "0006:00000001" "123456"
  have hreachable : "0006:00000001" ∈
      (Stages.shelf.reachable (mixedShelf.map some)).map Prod.snd := by
    decide +kernel
  have hunlisted : ([⟨"0006:00000002", .replicate 5⟩] : List CardInfo).find?
      (·.ident = "0006:00000001") = none := by
    decide +kernel
  rw [hunlisted] at hselected
  dsimp only at hselected
  rw [if_pos hreachable] at hselected
  generalize selectCard Pcsc.shelf "0006:00000001" mixedShelf = selected at hselected hopened
  obtain ⟨e | c, u⟩ := selected
  · obtain rfl := Except.error.inj hselected
    rw [hopened]
  · cases hselected

/-- Among RSA and X25519 cards discovery finds what it should. -/
theorem shelf_mixed_findsX25519 :
    FindsX25519 Pcsc.shelf Prod.snd (Stages.shelf.reachable (mixedShelf.map some)) mixedShelf
      mixedShelf := by
  refine (findsX25519_iff shelf_steady (fun _ => rfl) rfl trivial rfl trivial).mpr ?_
  have hslots : ∀ c ∈ Stages.shelf.reachable (mixedShelf.map some),
      c.1.2 = .rsa ∨ c.1.2 = .x25519 (.replicate 5) := by
    decide +kernel
  intro c hc point hpoint
  rcases hslots c hc with hrsa | hx25519
  · rw [hrsa] at hpoint
    cases hpoint
  · rw [hx25519] at hpoint
    cases hpoint

/-- A card with a NIST P-256 key, whose public point has 65 bytes. -/
def p256Shelf : List (Ident × DecryptionKey) :=
  [("0006:00000003", .otherCurve (4 :: List.replicate 64 7))]

/-- A P-256 key is listed as if the first half of its point were an X25519 key. -/
theorem p256_passes_for_x25519 :
    ¬ ∀ s, FindsX25519 Pcsc.shelf Prod.snd (Stages.shelf.reachable (s.map some)) s s := by
  intro claim
  have hlisted := (claim p256Shelf).listed
  revert hlisted
  decide +kernel

end Sample

end SmartGuard
