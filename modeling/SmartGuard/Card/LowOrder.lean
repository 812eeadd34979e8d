import SmartGuard.Card.Identity

/-!
# A key whose secret is zero

The retry does not tell errors apart. A secret that is zero depends on the key and the card
only, and a second attempt yields it again, but the thread sleeps, reconnects and tries
once more as for any other error.
-/

namespace SmartGuard

open EventRun RequestChannel StateLoop

variable {Backend Card π : Type} {P : Pcsc Backend Card π}

/-- The card accepts the PIN and answers a secret of 32 zeros or more. -/
def LowOrder (P : Pcsc Backend Card π) (card : Card) (pin : Pin) (peerPk : Key) (s : π) : Prop :=
  ∃ ss t key, Deciphered P card pin peerPk s ss t ∧ firstChunk ss = some key ∧ key.isZero = true

/-- A request ends where its first attempt does, with the result of that and the same card. -/
def AtOnce (P : Pcsc Backend Card π) (card : Card) (ident : Ident) (pin : Pin) (peerPk : Key)
    (s : π × List (CardOp Card)) : Prop :=
  decipherWithRetry P.traced card ident pin peerPk s =
    ((tryDecipher P.traced card pin peerPk s).1, card,
      (tryDecipher P.traced card pin peerPk s).2)

/-- An attempt fails for a zero secret exactly if the card answers one. -/
theorem tryDecipher_zero_iff (card : Card) (pin : Pin) (peerPk : Key) (s : π) :
    (tryDecipher P card pin peerPk s).1 = .error .zeroSharedSecret ↔
      LowOrder P card pin peerPk s := by
  constructor
  · intro h
    have hattempt := tryDecipher_attempt P card pin peerPk s
    generalize tryDecipher P card pin peerPk s = out at hattempt h
    cases hattempt with
    | zero hanswer hkey hzero => exact ⟨_, _, _, hanswer, hkey, hzero⟩
    | _ => cases h
  · rintro ⟨ss, t, key, ⟨u, ⟨v, begun, hpin⟩, hdecipher⟩, hkey, hzero⟩
    simp only [tryDecipher, begun, hpin, hdecipher, hkey, hzero, if_true]

theorem tryDecipher_fst_traced (card : Card) (pin : Pin) (peerPk : Key)
    (s : π × List (CardOp Card)) :
    (tryDecipher P.traced card pin peerPk s).1 = (tryDecipher P card pin peerPk s.1).1 :=
  congrArg Prod.fst (tryDecipher_untraced card pin peerPk s)

section Record

/-- What follows in the record is some operations more. -/
theorem Adds.record {s t : π × List (CardOp Card)} (h : Adds (fun _ => True) s t) :
    ∃ ops, t.2 = s.2 ++ ops := by
  obtain ⟨ops, hops, -⟩ := h
  exact ⟨ops, hops⟩

/-- A reconnect lists the cards first. -/
theorem reconnect_record (card : Card) (ident : Ident) (s : π × List (CardOp Card)) :
    ∃ ops, (reconnect P.traced card ident s).2.2.2 = s.2 ++ .cards :: ops := by
  have hR : P.traced.Probes (Adds fun _ => True) := probes_adds fun _ _ => trivial
  have hsearch : ∀ {backends t found u}, P.traced.cards s = (.ok backends, t) →
      findMap (reconnectTo P.traced ident) backends t = (found, u) →
        ∃ ops, u.2 = s.2 ++ .cards :: ops := by
    intro backends t found u listed h
    have hloop := findMap_rel hR.refl hR.trans (hR.reconnectTo ident) backends t
    rw [h] at hloop
    obtain ⟨ops, hops⟩ := hloop.record
    have hlisted : t.2 = s.2 ++ [.cards] := (congrArg (·.2.2) listed).symm
    refine ⟨ops, ?_⟩
    rw [hops, hlisted, List.append_assoc]
    rfl
  have hreconnected := reconnect_reconnected P.traced card ident s
  generalize reconnect P.traced card ident s = out at hreconnected ⊢
  cases hreconnected with
  | unlisted h => exact ⟨[], (congrArg (·.2.2) h).symm⟩
  | missing listed h => exact hsearch listed h
  | found listed h => exact hsearch listed h

/-- After a first attempt that fails the thread sleeps for five seconds and lists the cards. -/
theorem decipherWithRetry_record {card : Card} (ident : Ident) {pin : Pin} {peerPk : Key}
    {s : π × List (CardOp Card)} {e : SmartcardError}
    (h : (tryDecipher P.traced card pin peerPk s).1 = .error e) :
    ∃ ops, (decipherWithRetry P.traced card ident pin peerPk s).2.2.2 =
      (tryDecipher P.traced card pin peerPk s).2.2 ++ .sleep 5 :: .cards :: ops := by
  have hlater : ∀ {t result card' u}, reconnect P.traced card ident (P.traced.sleep 5 t) =
      (result, card', u) → ∃ ops, u.2 = t.2 ++ .sleep 5 :: .cards :: ops := by
    intro t result card' u hreconnect
    obtain ⟨ops, hops⟩ := reconnect_record (P := P) card ident (P.traced.sleep 5 t)
    rw [hreconnect] at hops
    have hslept : (P.traced.sleep 5 t).2 = t.2 ++ [.sleep 5] := rfl
    refine ⟨ops, hops.trans ?_⟩
    rw [hslept, List.append_assoc]
    rfl
  have hretried := decipherWithRetry_retried P.traced card ident pin peerPk s
  generalize decipherWithRetry P.traced card ident pin peerPk s = out at hretried ⊢
  cases hretried with
  | first hfirst =>
      rw [hfirst] at h
      cases h
  | lost failed hlost =>
      rw [failed]
      exact hlater hlost
  | @again e' t card' u failed hfound =>
      rw [failed]
      obtain ⟨ops, hops⟩ := hlater hfound
      have hsecond : Adds (fun _ => True) u (tryDecipher P.traced card' pin peerPk u).2 :=
        tryDecipher_adds (fun _ _ => trivial) (fun _ => trivial) (fun _ => trivial) pin peerPk u
      obtain ⟨more, hmore⟩ := hsecond.record
      refine ⟨ops ++ more, hmore.trans ?_⟩
      rw [hops, List.append_assoc]
      rfl

end Record

/-- A request whose first attempt fails does not end with it. -/
theorem not_atOnce {card : Card} {ident : Ident} {pin : Pin} {peerPk : Key}
    {s : π × List (CardOp Card)} {e : SmartcardError}
    (h : (tryDecipher P.traced card pin peerPk s).1 = .error e) :
    (decipherWithRetry P.traced card ident pin peerPk s).2.2 ≠
      (tryDecipher P.traced card pin peerPk s).2 := by
  intro hsame
  obtain ⟨ops, hops⟩ := decipherWithRetry_record ident h
  rw [hsame] at hops
  exact absurd (List.self_eq_append_right.mp hops) (List.cons_ne_nil _ _)

/-- A request whose secret is zero is never answered at once: the thread sleeps for five
seconds and lists the cards before it answers. So it is in every run of an opened handle,
and there too the claim of an answer at once holds exactly where its premise fails. -/
theorem zero_secret_at_once_iff (P : Pcsc Backend Card π) :
    (∀ card ident pin peerPk s,
      ((tryDecipher P.traced card pin peerPk s).1 = .error .zeroSharedSecret →
          AtOnce P card ident pin peerPk s) ↔ ¬ LowOrder P card pin peerPk s.1) ∧
    (∀ card ident pin peerPk s, LowOrder P card pin peerPk s.1 →
      ∃ ops, (decipherWithRetry P.traced card ident pin peerPk s).2.2.2 =
        (tryDecipher P.traced card pin peerPk s).2.2 ++ .sleep 5 :: .cards :: ops) ∧
    ∀ requestedIdent pin s₀ sys₀ sys log,
      openHandle P.traced requestedIdent pin (s₀, []) = .ok sys₀ →
      Run (tracedStep P) sys₀ sys log → ∀ r peerPk, sys.channel.taken = some r →
      r.body = .dh peerPk →
      (((tryDecipher P.traced sys.thread.card sys.thread.pin peerPk sys.reader).1 =
          .error .zeroSharedSecret →
        ∃ sys', tracedStep P .serve sys = some
            (sys', [.served r.reply (.dh peerPk) (some (.error .zeroSharedSecret))]) ∧
          sys'.thread = sys.thread ∧
          sys'.reader = (tryDecipher P.traced sys.thread.card sys.thread.pin peerPk
            sys.reader).2) ↔
        ¬ LowOrder P sys.thread.card sys.thread.pin peerPk sys.reader.1) := by
  have hpremise : ∀ card pin peerPk (s : π × List (CardOp Card)),
      (tryDecipher P.traced card pin peerPk s).1 = .error .zeroSharedSecret ↔
        LowOrder P card pin peerPk s.1 := by
    intro card pin peerPk s
    rw [tryDecipher_fst_traced, tryDecipher_zero_iff]
  refine ⟨?_, ?_, ?_⟩
  · intro card ident pin peerPk s
    constructor
    · intro hclaim hlow
      have hzero := (hpremise card pin peerPk s).mpr hlow
      exact not_atOnce hzero (congrArg (·.2.2) (hclaim hzero))
    · exact fun hlow hzero => absurd ((hpremise card pin peerPk s).mp hzero) hlow
  · intro card ident pin peerPk s hlow
    exact decipherWithRetry_record ident ((hpremise card pin peerPk s).mpr hlow)
  · intro requestedIdent pin s₀ sys₀ sys log _ _ r peerPk htaken hbody
    constructor
    · intro hclaim hlow
      have hzero := (hpremise _ _ peerPk sys.reader).mpr hlow
      obtain ⟨sys', hserve, -, hreader⟩ := hclaim hzero
      have hstep : tracedStep P .serve sys = _ := serve_eq (P := P.traced) htaken
      obtain ⟨rfl, -⟩ := Prod.mk.inj (Option.some.inj (hserve.symm.trans hstep))
      rw [hbody] at hreader
      exact not_atOnce hzero hreader
    · exact fun hlow hzero => absurd ((hpremise _ _ peerPk sys.reader).mp hzero) hlow

section Sample

/-- The key of order one: all zeros. -/
def zeroKey : Key := ⟨List.replicate 32 0, List.length_replicate⟩

theorem zeroKey_lowOrder :
    LowOrder Pcsc.desk chosenIdent "123456" zeroKey ⟨[chosenIdent], false, "123456", 3⟩ := by
  apply (tryDecipher_zero_iff _ _ _ _).mp
  decide +kernel

/-- The thread sleeps after the answer to the zero key. -/
theorem zeroKey_sleeps :
    ∃ ops, (decipherWithRetry Pcsc.desk.traced chosenIdent chosenIdent "123456" zeroKey
        (⟨[chosenIdent], false, "123456", 3⟩, [])).2.2.2 =
      (tryDecipher Pcsc.desk.traced chosenIdent "123456" zeroKey
        (⟨[chosenIdent], false, "123456", 3⟩, [])).2.2 ++ .sleep 5 :: .cards :: ops :=
  (zero_secret_at_once_iff Pcsc.desk).2.1 _ _ _ _ _ zeroKey_lowOrder

/-- The zero key is verified and deciphered a second time, after the sleep. -/
theorem zeroKey_retried :
    ¬ ∀ card ident pin peerPk s,
      (tryDecipher Pcsc.desk.traced card pin peerPk s).1 = .error .zeroSharedSecret →
        AtOnce Pcsc.desk card ident pin peerPk s := by
  intro claim
  have honce := claim chosenIdent chosenIdent "123456" zeroKey
    (⟨[chosenIdent], false, "123456", 3⟩, []) (by decide +kernel)
  have hlength := congrArg (fun out => out.2.2.2.length) honce
  exact absurd hlength (by decide +kernel)

end Sample

end SmartGuard
