import Mathlib.Data.List.Nodup
import SmartGuard.Tunnel.Loop

/-!
# What a step does to the slots

A slot keeps the time of its last packet. A tick attempts a keepalive for the slots
that have been silent for their interval, and a packet that was sent postpones the
slot that the reverse index names for its endpoint. Every step is described once,
first on all slots and then on one of them.
-/

namespace SmartGuard

open Buffer StateLoop TimedRun

variable {PeerId τ σ ω : Type} {T : Tunnel PeerId τ σ ω}

/-- What no event changes of a slot. -/
def PeerRuntime.profile (p : PeerRuntime PeerId) : PeerId × Option SocketAddr × Option Nat :=
  (p.id, p.endpoint, p.keepalive)

/-- A slot after a tick. -/
def PeerRuntime.refresh (now : Nat) (p : PeerRuntime PeerId) : PeerRuntime PeerId :=
  if p.due now then { p with lastSent := now } else p

/-- The slots that are due, with their numbers. -/
def dueSlots (peerRt : List (PeerRuntime PeerId)) (now : Nat) : List (PeerRuntime PeerId × Nat) :=
  peerRt.zipIdx.filter fun p => p.1.due now

/-- The observation of the keepalive that is attempted for a slot. -/
def Seen.attempted (now : Nat) (p : PeerRuntime PeerId × Nat) : Seen PeerId :=
  .keepalive now p.2 p.1.id

section Steps

theorem sendKeepalive_obs (now slot : Nat) (id : PeerId) (s : τ × ω) :
    (sendKeepalive T now slot id s).2 = [.keepalive now slot id] := by
  unfold sendKeepalive
  dsimp only
  split <;> rfl

theorem keepAlive_slot (now : Nat) (p : PeerRuntime PeerId × Nat)
    (s : (τ × ω) × List (Seen PeerId)) : (keepAlive T now p s).1 = p.1.refresh now := by
  unfold keepAlive PeerRuntime.refresh
  split <;> rfl

theorem keepAlive_obs (now : Nat) (p : PeerRuntime PeerId × Nat)
    (s : (τ × ω) × List (Seen PeerId)) :
    (keepAlive T now p s).2.2 = s.2 ++ if p.1.due now then [Seen.attempted now p] else [] := by
  unfold keepAlive
  split
  · exact congrArg (s.2 ++ ·) (sendKeepalive_obs now p.2 p.1.id s.1)
  · exact (List.append_nil _).symm

/-- The keepalive loop refreshes the slots that are due and attempts a keepalive for each. -/
theorem keepAlives_eq (now : Nat) (peerRt : List (PeerRuntime PeerId))
    (s : (τ × ω) × List (Seen PeerId)) :
    (mapState (keepAlive T now) peerRt.zipIdx s).1 = peerRt.map (PeerRuntime.refresh now) ∧
      (mapState (keepAlive T now) peerRt.zipIdx s).2.2 =
        s.2 ++ (dueSlots peerRt now).map (Seen.attempted now) := by
  constructor
  · rw [mapState_fst (keepAlive_slot now)]
    conv_rhs => rw [← List.zipIdx_map_fst 0 peerRt, List.map_map]
    rfl
  · rw [mapState_log (keepAlive_obs now)]
    congr 1
    unfold dueSlots
    induction peerRt.zipIdx with
    | nil => rfl
    | cons p rest ih =>
        rw [List.flatMap_cons, ih, List.filter_cons]
        cases p.1.due now with
        | true => rfl
        | false => rfl

/-- What a step does to the slots, and what can be seen of it. -/
inductive Paces (T : Tunnel PeerId τ σ ω) (now : Nat) (peerRt : List (PeerRuntime PeerId)) :
    Event σ → List (PeerRuntime PeerId) → List (Seen PeerId) → Prop
  | tick (checked : List (Seen PeerId)) (hchecked : ∀ o ∈ checked, o = .rechecked now) :
      Paces T now peerRt .tick (peerRt.map (PeerRuntime.refresh now))
        (checked ++ (dueSlots peerRt now).map (Seen.attempted now))
  | sent (bytes : List UInt8) (peer : PeerId) (dst : SocketAddr) :
      Paces T now peerRt (.packet bytes) (postpone T now dst peerRt) [.sent now peer dst]
  | quiet {event : Event σ} {obs : List (Seen PeerId)} (hevent : event ≠ .tick)
      (hobs : ∀ o ∈ obs, o = .rechecked now) : Paces T now peerRt event peerRt obs

/-- A tick refreshes the slots that are due, and what is seen of it is whether it checked the
routes and the keepalives that it attempted. -/
theorem onTick_eq (now : Nat) (st : LoopState PeerId τ σ ω) :
    (onTick T now st).1.peerRt = st.peerRt.map (PeerRuntime.refresh now) ∧
      (onTick T now st).2 = (if hostTorn T st then [.rechecked now] else []) ++
        (dueSlots st.peerRt now).map (Seen.attempted now) := by
  unfold onTick
  cases hostTorn T st with
  | true => exact keepAlives_eq now st.peerRt _
  | false => exact keepAlives_eq now st.peerRt _

theorem onTick_paces (now : Nat) (st : LoopState PeerId τ σ ω) :
    Paces T now st.peerRt .tick (onTick T now st).1.peerRt (onTick T now st).2 := by
  rw [(onTick_eq now st).1, (onTick_eq now st).2]
  refine .tick _ ?_
  cases hostTorn T st with
  | true => exact fun o ho => List.mem_singleton.mp ho
  | false => exact fun o ho => absurd ho List.not_mem_nil

theorem onDatagram_paces [DecidableEq PeerId] {now : Nat} {addr : SocketAddr}
    {bytes : List UInt8} {st st' : LoopState PeerId τ σ ω} {obs : List (Seen PeerId)}
    (h : onDatagram T now addr bytes st = some (st', obs)) :
    Paces T now st.peerRt (.datagram addr bytes) st'.peerRt obs := by
  have hquiet : ∀ {checked : List (Seen PeerId)}, (∀ o ∈ checked, o = .rechecked now) →
      Paces T now st.peerRt (.datagram addr bytes) st.peerRt checked := .quiet nofun
  unfold onDatagram at h
  simp only at h
  split at h
  · cases h
  · split at h
    · cases h
      exact hquiet nofun
    · cases h
  · split at h
    · cases h
      exact hquiet nofun
    · cases h
      exact hquiet fun o ho => List.mem_singleton.mp ho
  · cases h
    exact hquiet nofun

theorem onPacket_paces {now : Nat} {bytes : List UInt8} {st st' : LoopState PeerId τ σ ω}
    {obs : List (Seen PeerId)} (h : onPacket T now bytes st = some (st', obs)) :
    Paces T now st.peerRt (.packet bytes) st'.peerRt obs := by
  have hquiet : ∀ {checked : List (Seen PeerId)}, (∀ o ∈ checked, o = .rechecked now) →
      Paces T now st.peerRt (.packet bytes) st.peerRt checked := .quiet nofun
  unfold onPacket at h
  simp only at h
  split at h
  · cases h
  · next data dst hwrite =>
      split at h
      · cases h
        obtain ⟨a, ha⟩ := exists_ipDst_of_outbound hwrite
        unfold packetPeer
        rw [ha]
        exact .sent bytes _ dst
      · cases h
        exact hquiet fun o ho => List.mem_singleton.mp ho
  · cases h
    exact hquiet nofun

theorem step_tick [DecidableEq PeerId] (T : Tunnel PeerId τ σ ω) (now : Nat)
    (st : LoopState PeerId τ σ ω) :
    step T now .tick st = some ((onTick T now st).1, (onTick T now st).2) := rfl

/-- Every step of the loop paces the slots. -/
theorem step_paces [DecidableEq PeerId] {now : Nat} {event : Event σ}
    {st st' : LoopState PeerId τ σ ω} {obs : List (Seen PeerId)}
    (h : step T now event st = some (st', obs)) :
    Paces T now st.peerRt event st'.peerRt obs := by
  cases event with
  | tick =>
      cases h
      exact onTick_paces now st
  | datagram addr bytes => exact onDatagram_paces h
  | packet bytes => exact onPacket_paces h
  | environment routes =>
      cases h
      exact .quiet nofun nofun
  | interrupted cause => cases h

end Steps

section Slot

/-- The observations after which a slot starts to wait again. -/
def Refreshes (T : Tunnel PeerId τ σ ω) (i : Nat) : Seen PeerId → Prop
  | .sent _ _ dst => T.endpointToIdx dst = some i
  | .keepalive _ slot _ => slot = i
  | .rechecked _ => False

/-- What a step does to one slot, and what can be seen of it. -/
inductive SlotStep (T : Tunnel PeerId τ σ ω) (now i : Nat) (p : PeerRuntime PeerId) :
    Event σ → PeerRuntime PeerId → List (Seen PeerId) → Prop
  | kept {event : Event σ} {obs : List (Seen PeerId)} (hwait : event = .tick → p.due now = false)
      (hobs : ∀ o ∈ obs, ¬ Refreshes T i o) : SlotStep T now i p event p obs
  | attempted (hdue : p.due now = true) {before after : List (Seen PeerId)}
      (hbefore : ∀ o ∈ before, ¬ Refreshes T i o) (hafter : ∀ o ∈ after, ¬ Refreshes T i o) :
      SlotStep T now i p .tick { p with lastSent := now }
        (before ++ .keepalive now i p.id :: after)
  | served (bytes : List UInt8) (peer : PeerId) {dst : SocketAddr}
      (hdst : T.endpointToIdx dst = some i) :
      SlotStep T now i p (.packet bytes) { p with lastSent := now } [.sent now peer dst]

theorem mem_dueSlots {peerRt : List (PeerRuntime PeerId)} {now i : Nat}
    {p : PeerRuntime PeerId} :
    (p, i) ∈ dueSlots peerRt now ↔ peerRt[i]? = some p ∧ p.due now = true := by
  rw [dueSlots, List.mem_filter, List.mk_mem_zipIdx_iff_getElem?]

theorem dueSlots_nodup (peerRt : List (PeerRuntime PeerId)) (now : Nat) :
    ((dueSlots peerRt now).map Prod.snd).Nodup := by
  have hsub : ((dueSlots peerRt now).map Prod.snd).Sublist (peerRt.zipIdx.map Prod.snd) :=
    List.filter_sublist.map _
  apply hsub.nodup
  rw [List.zipIdx_map_snd]
  exact List.nodup_range'

theorem not_refreshes_of_rechecked {checked : List (Seen PeerId)} {now : Nat}
    (h : ∀ o ∈ checked, o = .rechecked now) (i : Nat) : ∀ o ∈ checked, ¬ Refreshes T i o := by
  intro o ho hrefresh
  rw [h o ho] at hrefresh
  exact hrefresh

theorem not_refreshes_of_notMem {slots : List (PeerRuntime PeerId × Nat)} {i : Nat} (now : Nat)
    (h : i ∉ slots.map Prod.snd) :
    ∀ o ∈ slots.map (Seen.attempted now), ¬ Refreshes T i o := by
  intro o ho hrefresh
  obtain ⟨p, hp, rfl⟩ := List.mem_map.mp ho
  have hslot : p.2 = i := hrefresh
  exact h (hslot ▸ List.mem_map_of_mem hp)

/-- On a tick a slot that is due is attempted once, and another one is left alone. -/
theorem tick_slotStep {now i : Nat} {peerRt : List (PeerRuntime PeerId)} {p : PeerRuntime PeerId}
    (hp : peerRt[i]? = some p) {checked : List (Seen PeerId)}
    (hchecked : ∀ o ∈ checked, ¬ Refreshes T i o) :
    SlotStep T now i p .tick (p.refresh now)
      (checked ++ (dueSlots peerRt now).map (Seen.attempted now)) := by
  cases hdue : p.due now with
  | true =>
      have hmem : (p, i) ∈ dueSlots peerRt now := mem_dueSlots.mpr ⟨hp, hdue⟩
      have hnodup := dueSlots_nodup peerRt now
      obtain ⟨before, after, hsplit⟩ := List.append_of_mem hmem
      rw [hsplit, List.map_append, List.map_cons, List.nodup_middle, List.nodup_cons,
        List.mem_append, not_or] at hnodup
      have hobs : (checked ++ (dueSlots peerRt now).map (Seen.attempted now) :
          List (Seen PeerId)) = (checked ++ before.map (Seen.attempted now)) ++
            .keepalive now i p.id :: after.map (Seen.attempted now) := by
        rw [hsplit, List.map_append, List.map_cons, List.append_assoc]
        rfl
      rw [hobs, PeerRuntime.refresh, if_pos hdue]
      refine .attempted hdue ?_ (not_refreshes_of_notMem now hnodup.1.2)
      intro o ho
      rcases List.mem_append.mp ho with hold | hnew
      · exact hchecked o hold
      · exact not_refreshes_of_notMem now hnodup.1.1 o hnew
  | false =>
      have hmem : i ∉ (dueSlots peerRt now).map Prod.snd := by
        intro hmem
        obtain ⟨⟨q, j⟩, hq, rfl⟩ := List.mem_map.mp hmem
        obtain ⟨hq, hqdue⟩ := mem_dueSlots.mp hq
        rw [hp] at hq
        rw [← Option.some.inj hq, hdue] at hqdue
        cases hqdue
      rw [PeerRuntime.refresh, if_neg (by rw [hdue]; exact Bool.false_ne_true)]
      refine .kept (fun _ => hdue) fun o ho => ?_
      rcases List.mem_append.mp ho with hold | hnew
      · exact hchecked o hold
      · exact not_refreshes_of_notMem now hmem o hnew

/-- A packet postpones the slot of the peer that it goes to. -/
theorem postpone_slotStep {now i : Nat} {peerRt : List (PeerRuntime PeerId)}
    {p : PeerRuntime PeerId} (hp : peerRt[i]? = some p) (bytes : List UInt8) (peer : PeerId)
    (dst : SocketAddr) :
    ∃ p', (postpone T now dst peerRt)[i]? = some p' ∧
      SlotStep T now i p (.packet bytes) p' [.sent now peer dst] := by
  unfold postpone
  cases hdst : T.endpointToIdx dst with
  | none =>
      refine ⟨p, hp, .kept nofun fun o ho hrefresh => ?_⟩
      obtain rfl := List.mem_singleton.mp ho
      rw [Refreshes, hdst] at hrefresh
      cases hrefresh
  | some j =>
      by_cases hj : j = i
      · subst hj
        refine ⟨{ p with lastSent := now }, ?_, .served bytes peer hdst⟩
        rw [List.getElem?_modify_eq, hp]
        rfl
      · refine ⟨p, ?_, .kept nofun fun o ho hrefresh => ?_⟩
        · rw [List.getElem?_modify_ne _ _ hj, hp]
        · obtain rfl := List.mem_singleton.mp ho
          rw [Refreshes, hdst] at hrefresh
          exact hj (Option.some.inj hrefresh)

/-- A step paces each slot on its own. -/
theorem Paces.slot {now i : Nat} {event : Event σ} {peerRt peerRt' : List (PeerRuntime PeerId)}
    {obs : List (Seen PeerId)} (h : Paces T now peerRt event peerRt' obs)
    {p : PeerRuntime PeerId} (hp : peerRt[i]? = some p) :
    ∃ p', peerRt'[i]? = some p' ∧ SlotStep T now i p event p' obs := by
  cases h with
  | tick checked hchecked =>
      have hslot : (peerRt.map (PeerRuntime.refresh now))[i]? = some (p.refresh now) := by
        rw [List.getElem?_map, hp, Option.map_some]
      exact ⟨p.refresh now, hslot, tick_slotStep hp (not_refreshes_of_rechecked hchecked i)⟩
  | sent bytes peer dst => exact postpone_slotStep hp bytes peer dst
  | quiet hevent hobs =>
      exact ⟨p, hp, .kept (fun h => absurd h hevent) (not_refreshes_of_rechecked hobs i)⟩

/-- A keepalive of a slot is attempted for its peer. -/
theorem Paces.keepalive_peer {now u i : Nat} {event : Event σ}
    {peerRt peerRt' : List (PeerRuntime PeerId)} {obs : List (Seen PeerId)}
    (h : Paces T now peerRt event peerRt' obs) {peer : PeerId}
    (hmem : .keepalive u i peer ∈ obs) {p : PeerRuntime PeerId} (hp : peerRt[i]? = some p) :
    peer = p.id := by
  cases h with
  | tick checked hchecked =>
      rcases List.mem_append.mp hmem with hold | hnew
      · cases hchecked _ hold
      · obtain ⟨⟨q, j⟩, hq, heq⟩ := List.mem_map.mp hnew
        obtain ⟨-, rfl, rfl⟩ := Seen.keepalive.inj heq
        rw [(mem_dueSlots.mp hq).1] at hp
        rw [Option.some.inj hp]
  | sent bytes peer dst => cases List.mem_singleton.mp hmem
  | quiet hevent hobs => cases hobs _ hmem

theorem SlotStep.profile {now i : Nat} {event : Event σ} {p p' : PeerRuntime PeerId}
    {obs : List (Seen PeerId)} (h : SlotStep T now i p event p' obs) :
    p'.profile = p.profile := by
  cases h <;> rfl

theorem step_stamps [DecidableEq PeerId] {now : Nat} {event : Event σ}
    {st st' : LoopState PeerId τ σ ω} {obs : List (Seen PeerId)}
    (h : step T now event st = some (st', obs)) :
    ∀ o ∈ obs, o.now = now := by
  have hpaces := step_paces h
  generalize st'.peerRt = rt at hpaces
  cases hpaces with
  | tick checked hchecked =>
      intro o ho
      rcases List.mem_append.mp ho with hold | hnew
      · rw [hchecked o hold]
        rfl
      · obtain ⟨p, -, rfl⟩ := List.mem_map.mp hnew
        rfl
  | sent bytes peer dst =>
      intro o ho
      rw [List.mem_singleton.mp ho]
      rfl
  | quiet hevent hobs =>
      intro o ho
      rw [hobs o ho]
      rfl

/-- After a step a slot is as before, or it shows the time of an observation that
refreshed it. -/
theorem SlotStep.lastSent {now i : Nat} {event : Event σ} {p p' : PeerRuntime PeerId}
    {obs : List (Seen PeerId)} (h : SlotStep T now i p event p' obs)
    (hstamp : ∀ o ∈ obs, o.now = now) :
    (p' = p ∧ (event = .tick → p.due now = false)) ∨
      p'.lastSent = now ∧ ∃ o ∈ obs, Refreshes T i o ∧ o.now = now := by
  cases h with
  | kept hwait hobs => exact .inl ⟨rfl, hwait⟩
  | attempted hdue hbefore hafter =>
      exact .inr ⟨rfl, .keepalive now i p.id, List.mem_append_right _ List.mem_cons_self, rfl, rfl⟩
  | served bytes peer hdst =>
      exact .inr ⟨rfl, .sent now peer _, List.mem_singleton.mpr rfl, hdst, rfl⟩

end Slot

end SmartGuard
