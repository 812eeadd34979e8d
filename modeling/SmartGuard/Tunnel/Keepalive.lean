import SmartGuard.Route.Underlay
import SmartGuard.Tunnel.Account
import SmartGuard.Tunnel.Slots

/-!
# Persistent keepalives

Keepalives are never early: whatever postpones a slot lies an interval before its
next attempt. They are never late either as long as each packet postpones the slot
of its own peer, which the reverse index does not ensure when peers share an
endpoint or roam. Both are said of the log, which accounts for what the sessions are
asked and the socket is given.
-/

namespace SmartGuard

open StateLoop TimedRun

variable {PeerId κ τ σ ω : Type} {T : Tunnel PeerId τ σ ω} {log : List (Seen PeerId)}

section Served

/-- The observations of packets and keepalives for one peer. -/
def ServedBy (id : PeerId) : Seen PeerId → Prop
  | .sent _ peer _ => peer = id
  | .keepalive _ _ peer => peer = id
  | .rechecked _ => False

/-- Every peer with a keepalive was created, or served with something, less than its
interval ago. -/
def KeptAlive (peerRt : List (PeerRuntime PeerId)) (t₀ now : Nat) (log : List (Seen PeerId)) :
    Prop :=
  ∀ (i : Nat) p interval, peerRt[i]? = some p → p.keepalive = some interval → 0 < interval →
    now < t₀ + interval ∨ ∃ o ∈ log, ServedBy p.id o ∧ now < o.now + interval ∧ o.now ≤ now

/-- Every packet that refreshed a slot with a keepalive was for the peer of that slot. -/
def Attributed (T : Tunnel PeerId τ σ ω) (peerRt : List (PeerRuntime PeerId))
    (log : List (Seen PeerId)) : Prop :=
  ∀ now peer dst, .sent now peer dst ∈ log → ∀ i p, T.endpointToIdx dst = some i →
    peerRt[i]? = some p → p.keepalive ≠ none → p.id = peer

theorem Attributed.of_append {peerRt : List (PeerRuntime PeerId)} {obs : List (Seen PeerId)}
    (h : Attributed T peerRt (log ++ obs)) : Attributed T peerRt log :=
  fun now peer dst ho => h now peer dst (List.mem_append_left _ ho)

end Served

section Runs

variable [DecidableEq PeerId] {t₀ t : Nat} {st₀ st : LoopState PeerId τ σ ω}

/-- A keepalive is attempted for the peer of its slot. -/
theorem keepalive_peer (run : Run (step T) t₀ st₀ t st log) {now i : Nat} {peer : PeerId}
    (hmem : .keepalive now i peer ∈ log) {p : PeerRuntime PeerId}
    (hp : st₀.peerRt[i]? = some p) : peer = p.id := by
  suffices hinv : (∃ q, st.peerRt[i]? = some q ∧ q.profile = p.profile) ∧
      ∀ u q, .keepalive u i q ∈ log → q = p.id from hinv.2 now peer hmem
  refine run.invariant (I := fun _ st log =>
    (∃ q, st.peerRt[i]? = some q ∧ q.profile = p.profile) ∧
      ∀ u q, .keepalive u i q ∈ log → q = p.id) ⟨⟨p, hp, rfl⟩, by simp⟩ ?_
  rintro t st log now event st' obs ⟨⟨q, hq, hprofile⟩, hlog⟩ _ next
  have hpaces := step_paces next
  obtain ⟨q', hq', hslot⟩ := hpaces.slot hq
  refine ⟨⟨q', hq', hslot.profile.trans hprofile⟩, ?_⟩
  intro u peer hmem
  rcases List.mem_append.mp hmem with hold | hnew
  · exact hlog u peer hold
  · exact (hpaces.keepalive_peer hnew hq).trans (congrArg Prod.fst hprofile)

/-- A refresh of a slot with a keepalive is a service to its peer. -/
theorem Attributed.servedBy (h : Attributed T st₀.peerRt log)
    (run : Run (step T) t₀ st₀ t st log) {i : Nat} {p : PeerRuntime PeerId}
    (hp : st₀.peerRt[i]? = some p) (hkeep : p.keepalive ≠ none) {o : Seen PeerId} (ho : o ∈ log)
    (hrefresh : Refreshes T i o) : ServedBy p.id o := by
  cases o with
  | sent now peer dst => exact (h now peer dst ho i p hrefresh hp hkeep).symm
  | keepalive now slot peer =>
      obtain rfl : slot = i := hrefresh
      exact keepalive_peer run ho hp
  | rechecked now => exact hrefresh

/-- A slot with a keepalive shows the time of the start or of something its own peer
was served with. -/
theorem lastSent_served {i : Nat} {p : PeerRuntime PeerId}
    (run : Run (step T) t₀ st₀ t st log) (hp : st₀.peerRt[i]? = some p)
    (hkeep : p.keepalive ≠ none) (hstart : p.lastSent = t₀)
    (hattr : Attributed T st₀.peerRt log) :
    ∃ q, st.peerRt[i]? = some q ∧ q.profile = p.profile ∧ q.lastSent ≤ t ∧
      (q.lastSent = t₀ ∨ ∃ o ∈ log, ServedBy p.id o ∧ o.now = q.lastSent) := by
  induction run with
  | start => exact ⟨p, hp, rfl, hstart.le, .inl hstart⟩
  | @step t s log now event s' obs run later next ih =>
      have hold := hattr.of_append
      obtain ⟨q, hq, hprofile, hle, hshows⟩ := ih hold
      obtain ⟨q', hq', hslot⟩ := (step_paces next).slot hq
      refine ⟨q', hq', hslot.profile.trans hprofile, ?_⟩
      rcases hslot.lastSent (step_stamps next) with ⟨rfl, -⟩ | ⟨hnow, o, ho, hrefresh, hstamp⟩
      · refine ⟨hle.trans later, hshows.imp_right ?_⟩
        rintro ⟨o, ho, hserved⟩
        exact ⟨o, List.mem_append_left _ ho, hserved⟩
      · refine ⟨hnow.le, .inr ⟨o, List.mem_append_right _ ho, ?_, hstamp.trans hnow.symm⟩⟩
        exact hattr.servedBy (run.step later next) hp hkeep (List.mem_append_right _ ho) hrefresh

/-- Right after a tick a slot with a keepalive was created or served less than its
interval ago. -/
theorem tick_served {i interval : Nat} {p : PeerRuntime PeerId}
    (run : Run (step T) t₀ st₀ t st log) (hp : st₀.peerRt[i]? = some p)
    (hinterval : p.keepalive = some interval) (hpos : 0 < interval) (hstart : p.lastSent = t₀)
    (hattr : Attributed T st₀.peerRt log) {now : Nat} (later : t ≤ now)
    {st' : LoopState PeerId τ σ ω} {obs : List (Seen PeerId)}
    (next : step T now .tick st = some (st', obs)) :
    now < t₀ + interval ∨
      ∃ o ∈ log ++ obs, ServedBy p.id o ∧ now < o.now + interval ∧ o.now ≤ now := by
  have hkeep : p.keepalive ≠ none := by
    rw [hinterval]
    exact Option.some_ne_none interval
  obtain ⟨q, hq, hprofile, hle, hshows⟩ := lastSent_served run hp hkeep hstart hattr
  obtain ⟨q', -, hslot⟩ := (step_paces next).slot hq
  have hqkeep : q.keepalive = some interval :=
    (congrArg (fun x => x.2.2) hprofile).trans hinterval
  generalize hevent : (Event.tick : Event σ) = event at hslot
  cases hslot with
  | kept hwait hobs =>
      have hwait := hwait hevent.symm
      simp only [PeerRuntime.due, hqkeep, decide_eq_false_iff_not] at hwait
      rcases hshows with hstart | ⟨o, ho, hserved, hstamp⟩
      · exact .inl (by omega)
      · exact .inr ⟨o, List.mem_append_left _ ho, hserved, by omega, by omega⟩
  | attempted hdue hbefore hafter =>
      refine .inr ⟨.keepalive now i q.id, List.mem_append_right _
        (List.mem_append_right _ List.mem_cons_self), congrArg Prod.fst hprofile, ?_, le_rfl⟩
      exact Nat.lt_add_of_pos_right hpos
  | served bytes peer hdst => cases hevent

end Runs

section Sample

/-! Two peers behind one endpoint: a phone, and a laptop with a keepalive. -/

def Outside.working : Outside Unit where
  sendTo _ _ w := (true, w)
  writeAll _ w := (true, w)

/-- Peers behind the one endpoint of the server. -/
def behindServer (peers : List PeerConfig) :
    Setting (Option Nat) Nat Nat (RouteTable × Unit) Unit where
  registry := .numbering
  trie := .table _
  layer := .shifting
  platform := .utun
  kernel := .ideal
  outside := .working
  config := 0
  peers := peers
  tunName := utun5
  tunAddrs := dualStack

def phone : PeerConfig :=
  { serverPeer with allowedIps := [.ofOctets .V4 [10, 9, 0, 0] 16] }

def laptop : PeerConfig :=
  { serverPeer with
    allowedIps := [.ofOctets .V4 [10, 8, 0, 0] 16], persistentKeepalive := some 25 }

/-- A packet for the address `10.net.0.1`, as the tunnel device gives it. -/
def packetFor (net : UInt8) : List UInt8 :=
  [0, 0, 0, 2, 0x45, 0, 0, 20, 0, 0, 0, 0, 64, 17, 0, 0, 10, 8, 0, 2, 10, net, 0, 1]

/-- The tunnel at time 0. -/
def launched (peers : List PeerConfig) :
    Tunnel (Option Nat) Nat (RouteTable × Unit) Unit ×
      LoopState (Option Nat) Nat (RouteTable × Unit) Unit :=
  launch (behindServer peers) 0 (homeTable, ()) ()

/-- The state after a packet at time 10. -/
def afterPacket (peers : List PeerConfig) (net : UInt8) :
    Option (LoopState (Option Nat) Nat (RouteTable × Unit) Unit × List (Seen (Option Nat))) :=
  step (launched peers).1 10 (.packet (packetFor net)) (launched peers).2

theorem run_afterPacket {peers : List PeerConfig} {net : UInt8}
    (h : (afterPacket peers net).isSome) :
    Run (step (launched peers).1) 0 (launched peers).2 10 ((afterPacket peers net).get h).1
      ((afterPacket peers net).get h).2 :=
  .single (Nat.zero_le 10) (Option.some_get h).symm

end Sample

section Launched

/-- The reverse index names a slot of the endpoint. -/
theorem exists_of_endpointIndex {peerRt : List (PeerRuntime PeerId)} {ep : SocketAddr} {i : Nat}
    (h : endpointIndex peerRt ep = some i) :
    ∃ p, peerRt[i]? = some p ∧ p.endpoint = some ep := by
  rw [endpointIndex, LongestMatch.insertAll_apply, Option.or_none, Option.map_eq_some_iff] at h
  obtain ⟨⟨ep', j⟩, hlast, rfl⟩ := h
  obtain ⟨hmem, hkey⟩ := List.mem_filter.mp (List.mem_of_getLast? hlast)
  obtain rfl : ep' = ep := of_decide_eq_true hkey
  obtain ⟨⟨p, k⟩, hp, hpair⟩ := List.mem_filterMap.mp hmem
  obtain ⟨e, he, heq⟩ := Option.map_eq_some_iff.mp hpair
  obtain ⟨rfl, rfl⟩ := Prod.mk.inj heq
  exact ⟨p, List.mk_mem_zipIdx_iff_getElem?.mp hp, he⟩

/-- A configured endpoint is in the reverse index. -/
theorem endpointIndex_ne_none {peerRt : List (PeerRuntime PeerId)} {i : Nat}
    {p : PeerRuntime PeerId} (hp : peerRt[i]? = some p) {ep : SocketAddr}
    (hep : p.endpoint = some ep) : endpointIndex peerRt ep ≠ none := by
  intro h
  rw [endpointIndex, LongestMatch.insertAll_apply, Option.or_none, Option.map_eq_none_iff,
    List.getLast?_eq_none_iff] at h
  refine List.filter_eq_nil_iff.mp h (ep, i) (List.mem_filterMap.mpr ⟨(p, i), ?_, ?_⟩) ?_
  · exact List.mk_mem_zipIdx_iff_getElem?.mpr hp
  · rw [hep, Option.map_some]
  · exact decide_eq_true rfl

/-- Where the configured endpoints are distinct, the reverse index names the slot of
each. -/
theorem endpointIndex_eq {peerRt : List (PeerRuntime PeerId)}
    (hnodup : (peerRt.filterMap PeerRuntime.endpoint).Nodup) {i : Nat} {p : PeerRuntime PeerId}
    (hp : peerRt[i]? = some p) {ep : SocketAddr} (hep : p.endpoint = some ep) :
    endpointIndex peerRt ep = some i := by
  obtain ⟨j, hj⟩ := Option.ne_none_iff_exists'.mp (endpointIndex_ne_none hp hep)
  obtain ⟨q, hq, hqep⟩ := exists_of_endpointIndex hj
  obtain ⟨hi, hpi⟩ := List.getElem?_eq_some_iff.mp hp
  obtain ⟨hjlt, hqj⟩ := List.getElem?_eq_some_iff.mp hq
  have hapart := List.pairwise_iff_getElem.mp (List.pairwise_filterMap.mp hnodup)
  rw [hj]
  rcases Nat.lt_trichotomy i j with hlt | heq | hgt
  · exact absurd rfl (hapart i j hi hjlt hlt ep (hpi ▸ hep) ep (hqj ▸ hqep))
  · rw [heq]
  · exact absurd rfl (hapart j i hjlt hi hgt ep (hqj ▸ hqep) ep (hpi ▸ hep))

variable {g : Setting PeerId κ τ σ ω} {t₀ : Nat} {routes : σ} {world : ω}

theorem launch_lastSent {i : Nat} {p : PeerRuntime PeerId}
    (hp : (launch g t₀ routes world).2.peerRt[i]? = some p) : p.lastSent = t₀ := by
  have hmem := List.mem_of_getElem? hp
  simp only [launch, runtimes, List.mem_map] at hmem
  obtain ⟨q, -, rfl⟩ := hmem
  rfl

/-- The slots of a launched tunnel have the configured endpoints. -/
theorem launch_endpoints :
    (launch g t₀ routes world).2.peerRt.filterMap PeerRuntime.endpoint =
      peerEndpoints g.peers := by
  have hlen : g.peers.length ≤ (buildSessions g.registry g.trie g.config g.peers).2.2.length :=
    (addPeers_length g.peers g.config (.new g.registry.sentinal)).ge
  unfold peerEndpoints
  conv_rhs => rw [← List.map_snd_zip hlen]
  simp only [launch, runtimes, List.filterMap_map]
  rfl

/-- Where the configured endpoints are distinct, and each packet went to the configured
endpoint of its own peer, no packet refreshed the slot of another. -/
theorem Attributed.of_distinct (hnodup : (peerEndpoints g.peers).Nodup)
    (hhome : ∀ now peer dst, .sent now peer dst ∈ log →
      ∃ p ∈ (launch g t₀ routes world).2.peerRt, p.id = peer ∧ p.endpoint = some dst) :
    Attributed (launch g t₀ routes world).1 (launch g t₀ routes world).2.peerRt log := by
  intro now peer dst hsent i p hidx hp _
  obtain ⟨q, hq, rfl, hqep⟩ := hhome now peer dst hsent
  obtain ⟨j, hj⟩ := List.getElem?_of_mem hq
  have hown := endpointIndex_eq (launch_endpoints ▸ hnodup) hj hqep
  obtain rfl := Option.some.inj (hown.symm.trans hidx)
  rw [Option.some.inj (hp.symm.trans hj)]

variable [DecidableEq PeerId]

/-- Keepalives of a launched tunnel are never late while each packet that was sent
postpones no other peer than its own. The keepalives and packets of the log are those that
the sessions are asked for and the socket is given. -/
theorem keepalive_never_suppressed (g : Setting PeerId κ τ σ ω) (t₀ : Nat) (routes : σ)
    (world : ω) :
    (∀ t st log, Run (step (launch g t₀ routes world).1) t₀ (launch g t₀ routes world).2 t st log →
      Attributed (launch g t₀ routes world).1 (launch g t₀ routes world).2.peerRt log →
      ∀ now st' obs, t ≤ now →
        step (launch g t₀ routes world).1 now .tick st = some (st', obs) →
        KeptAlive (launch g t₀ routes world).2.peerRt t₀ now (log ++ obs)) ∧
      ∀ t st log, Run (step (launch g.recorded t₀ routes (world, .nothing)).1) t₀
          (launch g.recorded t₀ routes (world, .nothing)).2 t st log →
        Accounted ((launch g.recorded t₀ routes (world, .nothing)).2.ledger [])
          (st.ledger log) := by
  constructor
  · intro t st log run hattr now st' obs later next i p interval hp hinterval hpos
    exact tick_served run hp hinterval hpos (launch_lastSent hp) hattr later next
  · intro t st log run
    exact run_accounted run

theorem laptop_served : (afterPacket [phone, laptop] 8).isSome := by
  decide +kernel

/-- A packet for the laptop counts for the laptop: a tick 20 seconds later finds it served. -/
theorem laptop_keptAlive :
    KeptAlive (launched [phone, laptop]).2.peerRt 0 30
      (((afterPacket [phone, laptop] 8).get laptop_served).2 ++
        (onTick (launched [phone, laptop]).1 30
          ((afterPacket [phone, laptop] 8).get laptop_served).1).2) := by
  have hsuppressed := keepalive_never_suppressed (behindServer [phone, laptop]) 0 (homeTable, ()) ()
  refine hsuppressed.1 10 _ _ (run_afterPacket laptop_served) ?_ 30 _ _ (by decide)
    (step_tick _ _ _)
  have hlog : ((afterPacket [phone, laptop] 8).get laptop_served).2 =
      [.sent 10 (some 1) serverEndpoint] := by decide +kernel
  have hindex : (launched [phone, laptop]).1.endpointToIdx serverEndpoint = some 1 := by
    decide +kernel
  have hid : ((launched [phone, laptop]).2.peerRt[1]?).map PeerRuntime.id = some (some 1) := by
    decide +kernel
  intro now peer dst hsent i p hi hp hkeep
  obtain ⟨rfl, rfl, rfl⟩ := Seen.sent.inj (List.mem_singleton.mp (hlog ▸ hsent))
  obtain rfl := Option.some.inj (hi.symm.trans hindex)
  have hp : (launched [phone, laptop]).2.peerRt[1]? = some p := hp
  rw [hp, Option.map_some] at hid
  exact Option.some.inj hid

theorem phone_served : (afterPacket [phone, laptop] 9).isSome := by
  decide +kernel

/-- A packet for the phone postpones the keepalive of the laptop, which has the same
endpoint: 30 seconds after the start nothing has been sent to the laptop. -/
theorem phone_suppresses_laptop :
    ¬ ∀ (g : Setting (Option Nat) Nat Nat (RouteTable × Unit) Unit) (t₀ t now : Nat)
      (routes : RouteTable × Unit) (world : Unit)
      (st st' : LoopState (Option Nat) Nat (RouteTable × Unit) Unit)
      (log obs : List (Seen (Option Nat))),
      Run (step (launch g t₀ routes world).1) t₀ (launch g t₀ routes world).2 t st log →
      t ≤ now → step (launch g t₀ routes world).1 now .tick st = some (st', obs) →
      KeptAlive (launch g t₀ routes world).2.peerRt t₀ now (log ++ obs) := by
  intro claim
  have hlog : ((afterPacket [phone, laptop] 9).get phone_served).2 =
      [.sent 10 (some 0) serverEndpoint] := by decide +kernel
  have hquiet : (onTick (launched [phone, laptop]).1 30
      ((afterPacket [phone, laptop] 9).get phone_served).1).2 = [] := by decide +kernel
  have hslot : ((launched [phone, laptop]).2.peerRt[1]?).map
      (fun p => (p.id, p.keepalive)) = some (some 1, some 25) := by decide +kernel
  have hkept := claim (behindServer [phone, laptop]) 0 10 30 (homeTable, ()) () _ _ _ _
    (run_afterPacket phone_served) (by decide) (step_tick _ _ _)
  obtain ⟨p, hp, hprofile⟩ := Option.map_eq_some_iff.mp hslot
  obtain ⟨hid, hkeep⟩ := Prod.mk.inj hprofile
  rcases hkept 1 p 25 hp hkeep (by decide) with hyoung | ⟨o, ho, hserved, -, -⟩
  · exact absurd hyoung (by decide)
  · have hall : o ∈ ((afterPacket [phone, laptop] 9).get phone_served).2 ++
        (onTick (launched [phone, laptop]).1 30
          ((afterPacket [phone, laptop] 9).get phone_served).1).2 := ho
    rw [hlog, hquiet, List.append_nil, List.mem_singleton] at hall
    subst hall
    have hpeer : some 0 = p.id := hserved
    exact absurd (hpeer.trans hid) (by decide)

end Launched

end SmartGuard
