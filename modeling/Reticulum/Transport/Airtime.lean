import Reticulum.Foundation.Pacing
import Reticulum.Transport.AnnounceQueue
import Reticulum.Transport.RequestAdmission

/-!
# The airtime of announces and searches

An interface keeps the share of its time that queued announces and recursive path requests take
below its cap. After each of them it waits, by one deadline that the turns of the announce queue and
the admissions of path requests both read and write. Whatever else happens, what they send is paced.

Times, rates and caps are exact rationals here.
-/

namespace Reticulum.Transport

open Actor

section

/-- The time that a packet takes at a bitrate. -/
def airtime (bitrate : ℕ) (raw : Bytes) : ℚ := raw.length * 8 / (max bitrate 1 : ℕ)

/-- The share of its time that an interface may spend. -/
def Interface.rate (entry : Interface ℚ) : ℚ := max entry.announceCap (1 / 1000)

theorem announceDelay_eq (entry : Interface ℚ) (raw : Bytes) :
    announceDelay entry raw = airtime entry.bitrate raw / entry.rate := by
  simp [announceDelay, airtime, Interface.rate, Binary64.div, Binary64.mul, Binary64.ofRat,
    Binary64.max, max_def]

/-- A later state of an interface: it has the same bitrate and cap, it gets no background lane, and
its deadline is no earlier. -/
structure Interface.Waits (entry entry' : Interface ℚ) : Prop where
  bitrate : entry'.bitrate = entry.bitrate := by rfl
  announceCap : entry'.announceCap = entry.announceCap := by rfl
  background : entry'.background = entry.background := by rfl
  announceAllowedAt : entry.announceAllowedAt ≤ entry'.announceAllowedAt := by exact le_rfl

theorem Interface.Waits.trans {entry entry' entry'' : Interface ℚ} (h : entry.Waits entry')
    (h' : entry'.Waits entry'') : entry.Waits entry'' :=
  ⟨h'.bitrate.trans h.bitrate, h'.announceCap.trans h.announceCap, h'.background.trans h.background,
    h.announceAllowedAt.trans h'.announceAllowedAt⟩

variable {entry' : Interface ℚ}

theorem waits_modify {interfaces : Table ℕ (Interface ℚ)} {interface id : ℕ}
    {f : Interface ℚ → Interface ℚ} (h : (interfaces.modify interface f).get id = some entry')
    (hf : ∀ entry : Interface ℚ, entry.Waits (f entry)) :
    ∃ entry, interfaces.get id = some entry ∧ entry.Waits entry' := by
  obtain ⟨entry, hentry, rfl, -⟩ | h := Table.of_get_modify h
  · exact ⟨entry, hentry, hf entry⟩
  · exact ⟨entry', h, {}⟩

/-- The packets that a step has sent on an interface. -/
def aired (id : ℕ) (now : ℚ) (s s' : Actor ℚ) : List (ℚ × Bytes) :=
  ((s'.transmissions.drop s.transmissions.length).filter (·.interfaceId = id)).map
    fun t => (now, t.raw)

/-- An interface waits, or one packet is sent on it after its deadline, and the next has to wait. -/
def Airs (id : ℕ) (now : ℚ) (s s' : Actor ℚ) (sent : List (ℚ × Bytes)) : Prop :=
  (sent = [] ∧ ∀ entry', s'.interfaces.get id = some entry' →
    ∃ entry, s.interfaces.get id = some entry ∧ entry.Waits entry') ∨
  ∃ entry entry' raw, s.interfaces.get id = some entry ∧ s'.interfaces.get id = some entry' ∧
    sent = [(now, raw)] ∧ entry.announceAllowedAt ≤ now ∧ entry'.bitrate = entry.bitrate ∧
    entry'.announceCap = entry.announceCap ∧ entry'.background = entry.background ∧
    (entry.background = false → entry'.announceAllowedAt = now + announceDelay entry raw)

variable {id : ℕ} {m : Moment ℚ} {s s' : Actor ℚ} {sent sent' : List (ℚ × Bytes)}

theorem aired_of_eq (now : ℚ) (h : s'.transmissions = s.transmissions) :
    aired id now s s' = [] := by
  simp [aired, h]

theorem aired_of_append {t : Transmission} (now : ℚ)
    (h : s'.transmissions = s.transmissions ++ [t]) :
    aired id now s s' = if t.interfaceId = id then [(now, t.raw)] else [] := by
  by_cases hid : t.interfaceId = id <;> simp [aired, h, hid]

theorem Airs.quiet (now : ℚ) (counts : Bool) (ht : s'.transmissions = s.transmissions)
    (hi : s'.interfaces = s.interfaces) :
    Airs id now s s' (if counts then aired id now s s' else []) := by
  rw [aired_of_eq now ht, ite_self]
  exact .inl ⟨rfl, fun entry' hentry' => ⟨entry', hi ▸ hentry', {}⟩⟩

theorem waits_processBackgroundStart (s : Actor ℚ) (m : Moment ℚ) (interface id : ℕ)
    (h : (s.processBackgroundStart m interface).interfaces.get id = some entry') :
    ∃ entry, s.interfaces.get id = some entry ∧ entry.Waits entry' := by
  have hsame (hget : s.interfaces.get id = some entry') :
      ∃ entry, s.interfaces.get id = some entry ∧ entry.Waits entry' := ⟨entry', hget, {}⟩
  unfold processBackgroundStart at h
  split at h
  · exact hsame h
  dsimp only at h
  split at h
  · split at h
    · obtain ⟨dropped, hget, hwaits⟩ := waits_modify h fun _ => ⟨rfl, rfl, rfl, le_max_left _ _⟩
      obtain ⟨entry, hentry, hsame⟩ := waits_modify hget fun _ => {}
      exact ⟨entry, hentry, hsame.trans hwaits⟩
    · exact hsame h
  · split_ifs at h
    · exact hsame h
    · exact waits_modify h fun _ => {}
    · exact hsame h
  · exact hsame h

section

variable [Sha256] [Ed25519] [Hkdf]

theorem airs_processAnnounceQueue (s : Actor ℚ) (m : Moment ℚ) (id interface : ℕ) :
    Airs id m.now s (s.processAnnounceQueue m interface)
      (aired id m.now s (s.processAnnounceQueue m interface)) := by
  obtain htrim | ⟨entry, queued, idx, queue, tx, allowedAt, hentry, hallowed, -, hsent, hget, -,
    hdelay⟩ := s.processAnnounceQueue_cases m interface
  · refine .inl ⟨aired_of_eq _ htrim.transmissions, fun entry' hentry' => ?_⟩
    obtain ⟨entry, queue, hentry, -, rfl⟩ := htrim.interfaces id entry' hentry'
    exact ⟨entry, hentry, {}⟩
  · rw [aired_of_append _ hsent]
    by_cases hid : interface = id
    · subst hid
      rw [if_pos rfl]
      exact .inr ⟨entry, _, queued.raw, hentry,
        (congrFun hget interface).trans (Function.update_self ..), rfl,
        of_decide_eq_true hallowed, rfl, rfl, rfl, hdelay⟩
    · refine .inl ⟨if_neg hid, fun entry' hentry' => ?_⟩
      rw [hget, Function.update_of_ne (Ne.symm hid)] at hentry'
      exact ⟨entry', hentry', {}⟩

theorem airs_tryAdmitPathRequest {destination : Octets 16} {interface : ℕ} {raw : Bytes}
    {recursive : Bool} {outcome : Admission} (id : ℕ)
    (h : s.tryAdmitPathRequest m destination interface raw recursive = (outcome, s')) :
    Airs id m.now s s' (if recursive then aired id m.now s s' else []) := by
  have hsilent (ht : s'.transmissions = s.transmissions) :
      (if recursive then aired id m.now s s' else []) = [] := by
    rw [aired_of_eq _ ht, ite_self]
  obtain ⟨-, entry, interfaces, _, hentry, hallowed, hget, rfl⟩ | ⟨-, rfl⟩ | ⟨-, rfl⟩ :=
    Actor.tryAdmitPathRequest_eq h
  · by_cases hid : interface = id
    · subst hid
      cases recursive with
      | false =>
        refine .inl ⟨rfl, fun entry' hentry' => ⟨entry, hentry, ?_⟩⟩
        rw [hget, Function.update_self] at hentry'
        obtain rfl := Option.some.inj hentry'
        exact {}
      | true =>
        refine .inr ⟨entry, _, raw, hentry,
          (congrFun hget interface).trans (Function.update_self ..), ?_,
          le_of_not_gt (of_decide_eq_false (hallowed rfl)), rfl, rfl, rfl, fun _ => rfl⟩
        rw [if_pos rfl, aired_of_append m.now rfl]
        exact if_pos rfl
    · refine .inl ⟨?_, fun entry' hentry' => ?_⟩
      · rw [aired_of_append m.now rfl, if_neg hid, ite_self]
      · rw [hget, Function.update_of_ne (Ne.symm hid)] at hentry'
        exact ⟨entry', hentry', {}⟩
  · refine .inl ⟨hsilent (s.transmissions_deregisterInterface interface), fun entry' hentry' => ?_⟩
    rw [s.interfaces_deregisterInterface] at hentry'
    exact ⟨entry', Table.Sub.erase _ _ hentry', {}⟩
  · exact .inl ⟨hsilent rfl, fun entry' hentry' => ⟨entry', hentry', {}⟩⟩

/-- The path requests that count are the recursive ones. -/
theorem airs_admitPathRequest (s : Actor ℚ) (m : Moment ℚ) (destination : Octets 16)
    (id interface : ℕ) (raw : Bytes) (recursive : Bool) :
    Airs id m.now s (s.admitPathRequest m destination interface raw recursive) (if recursive then
      aired id m.now s (s.admitPathRequest m destination interface raw recursive) else []) := by
  obtain heq | ⟨outcome, htry⟩ | ⟨p, -, -, -, heq⟩ :=
    s.admitPathRequest_cases m destination interface raw recursive
  · rw [heq]
    exact .quiet _ _ rfl rfl
  · exact airs_tryAdmitPathRequest id htry
  · rw [heq]
    exact .quiet _ _ rfl rfl

/-- The first entry of the retry queue is recursive. -/
def recursiveFirst (s : Actor ℚ) : Bool := s.pendingPathRequestAdmissions.head?.any (·.recursive)

theorem airs_pollPendingPathRequest (s : Actor ℚ) (m : Moment ℚ) (id : ℕ) :
    Airs id m.now s (s.pollPendingPathRequest m)
      (if recursiveFirst s then aired id m.now s (s.pollPendingPathRequest m) else []) := by
  obtain heq | ⟨p, rest, hqueue, heq | ⟨nextTry, heq⟩ | ⟨-, outcome, -, htry⟩⟩ :=
    s.pollPendingPathRequest_cases m
  · rw [heq]
    exact .quiet _ _ rfl rfl
  · rw [heq]
    exact .quiet _ _ rfl rfl
  · rw [heq]
    exact .quiet _ _ rfl rfl
  · have hfirst : recursiveFirst s = p.recursive := by simp [recursiveFirst, hqueue]
    rw [hfirst]
    have hairs := airs_tryAdmitPathRequest id htry
    exact hairs

/-- The steps of a node, with the times and bytes of the announces and recursive path requests sent
on one interface: turns of the announce queue, admissions and polls of path requests, and anything
else, which moves no deadline back. An interface that is registered later is another interface. -/
inductive AirStep (id : ℕ) : Actor ℚ × List (ℚ × Bytes) → Actor ℚ × List (ℚ × Bytes) → Prop
  | turn (s : Actor ℚ) (sent : List (ℚ × Bytes)) (m : Moment ℚ) (interface : ℕ) :
    AirStep id (s, sent) (s.processAnnounceQueue m interface,
      sent ++ aired id m.now s (s.processAnnounceQueue m interface))
  | request (s : Actor ℚ) (sent : List (ℚ × Bytes)) (m : Moment ℚ) (destination : Octets 16)
      (interface : ℕ) (raw : Bytes) (recursive : Bool) :
    AirStep id (s, sent) (s.admitPathRequest m destination interface raw recursive,
      sent ++ if recursive then
        aired id m.now s (s.admitPathRequest m destination interface raw recursive) else [])
  | poll (s : Actor ℚ) (sent : List (ℚ × Bytes)) (m : Moment ℚ) :
    AirStep id (s, sent) (s.pollPendingPathRequest m,
      sent ++ if recursiveFirst s then aired id m.now s (s.pollPendingPathRequest m) else [])
  | start (s : Actor ℚ) (sent : List (ℚ × Bytes)) (m : Moment ℚ) (interface : ℕ) :
    AirStep id (s, sent) (s.processBackgroundStart m interface, sent)
  | elsewhere {s s' : Actor ℚ} (sent : List (ℚ × Bytes))
      (h : ∀ entry', s'.interfaces.get id = some entry' →
        ∃ entry, s.interfaces.get id = some entry ∧ entry.Waits entry') :
    AirStep id (s, sent) (s', sent)

theorem AirStep.airs {x x' : Actor ℚ × List (ℚ × Bytes)} (h : AirStep id x x') :
    ∃ now sent, Airs id now x.1 x'.1 sent ∧ x'.2 = x.2 ++ sent := by
  cases h with
  | turn s sent m interface => exact ⟨_, _, airs_processAnnounceQueue s m id interface, rfl⟩
  | request s sent m destination interface raw recursive =>
    exact ⟨_, _, airs_admitPathRequest s m destination id interface raw recursive, rfl⟩
  | poll s sent m => exact ⟨_, _, airs_pollPendingPathRequest s m id, rfl⟩
  | start s sent m interface =>
    exact ⟨0, [], .inl ⟨rfl, fun _ => waits_processBackgroundStart s m interface id⟩,
      (List.append_nil _).symm⟩
  | elsewhere sent h => exact ⟨0, [], .inl ⟨rfl, h⟩, (List.append_nil _).symm⟩

end

/-- What was sent on the interface keeps its pace, and so it will. -/
structure AirPaced (id bitrate : ℕ) (rate : ℚ) (s : Actor ℚ) (sent : List (ℚ × Bytes)) : Prop where
  paced : Paced rate (sent.map fun e => (e.1, airtime bitrate e.2))
  interface : ∀ entry, s.interfaces.get id = some entry → entry.background = false ∧
    entry.bitrate = bitrate ∧ entry.rate = rate ∧
    Pacing rate (sent.map fun e => (e.1, airtime bitrate e.2)) entry.announceAllowedAt

theorem AirPaced.airs {bitrate : ℕ} {rate now : ℚ} (hrate : 0 < rate)
    (hs : AirPaced id bitrate rate s sent) (h : Airs id now s s' sent') :
    AirPaced id bitrate rate s' (sent ++ sent') := by
  obtain ⟨rfl, hwaits⟩ | ⟨entry, entry', raw, hentry, hentry', rfl, hallowed, hbitrate, hcap,
    hbackground, hdelay⟩ := h
  · rw [List.append_nil]
    refine ⟨hs.paced, fun entry' hentry' => ?_⟩
    obtain ⟨entry, hentry, hwait⟩ := hwaits entry' hentry'
    obtain ⟨hlane, hb, hr, hpacing⟩ := hs.interface entry hentry
    exact ⟨hwait.background.trans hlane, hwait.bitrate.trans hb,
      (congrArg (max · _) hwait.announceCap).trans hr, hpacing.later hwait.announceAllowedAt⟩
  · obtain ⟨hlane, hb, hr, hpacing⟩ := hs.interface entry hentry
    have htime : 0 ≤ airtime bitrate raw := div_nonneg (by positivity) (Nat.cast_nonneg _)
    have hsent := hpacing.send hallowed hrate htime
    have hdeadline : entry'.announceAllowedAt = now + airtime bitrate raw / rate := by
      rw [hdelay hlane, announceDelay_eq, hb, hr]
    rw [← hdeadline] at hsent
    have hpaced : Pacing rate ((sent ++ [(now, raw)]).map fun e => (e.1, airtime bitrate e.2))
        entry'.announceAllowedAt := by simpa using hsent
    refine ⟨hpaced.paced, fun entry'' hentry'' => ?_⟩
    obtain rfl := Option.some.inj (hentry'.symm.trans hentry'')
    exact ⟨hbackground.trans hlane, hbitrate.trans hb, (congrArg (max · _) hcap).trans hr, hpaced⟩

/-- In every run, what announces and recursive path requests take of the time of an interface
without a background lane, in any interval, is at most its cap times the length of the interval and
the time of one packet sent in it. -/
theorem announce_airtime_capped [Sha256] [Ed25519] [Hkdf] {entry : Interface ℚ} {s₀ : Actor ℚ}
    (hentry : s₀.interfaces.get id = some entry) (hlane : entry.background = false)
    (hrun : Relation.ReflTransGen (AirStep id) (s₀, []) (s, sent)) (first last : ℚ) :
    (sent.filter fun e => first ≤ e.1 ∧ e.1 ≤ last) = [] ∨
      ∃ e ∈ sent.filter fun e => first ≤ e.1 ∧ e.1 ≤ last,
        ((sent.filter fun e => first ≤ e.1 ∧ e.1 ≤ last).map fun e =>
            airtime entry.bitrate e.2).sum ≤
          max entry.announceCap (1 / 1000) * (last - first) + airtime entry.bitrate e.2 := by
  have hrate : 0 < entry.rate := lt_max_of_lt_right (by norm_num)
  have hstart : AirPaced id entry.bitrate entry.rate s₀ [] :=
    ⟨List.Pairwise.nil, fun entry' hentry' => by
      obtain rfl := Option.some.inj (hentry.symm.trans hentry')
      exact ⟨hlane, rfl, rfl, .nil _ _⟩⟩
  have hpaced : AirPaced id entry.bitrate entry.rate s sent := by
    generalize hx : (s, sent) = x at hrun
    have hall : AirPaced id entry.bitrate entry.rate x.1 x.2 := by
      clear hx
      induction hrun with
      | refl => exact hstart
      | tail _ hstep ih =>
        obtain ⟨now, sent', hairs, hsent⟩ := hstep.airs
        exact hsent ▸ ih.airs hrate hairs
    rwa [← hx] at hall
  have hfilter : ((sent.map fun e => (e.1, airtime entry.bitrate e.2)).filter
      fun e => first ≤ e.1 ∧ e.1 ≤ last) =
      (sent.filter fun e => first ≤ e.1 ∧ e.1 ≤ last).map
        fun e => (e.1, airtime entry.bitrate e.2) := List.filter_map ..
  rcases hpaced.paced.sum_le hrate first last with hnone | ⟨e, he, hsum⟩
  · rw [hfilter, List.map_eq_nil_iff] at hnone
    exact .inl hnone
  · rw [hfilter] at he hsum
    obtain ⟨e', he', rfl⟩ := List.mem_map.mp he
    rw [List.map_map] at hsum
    exact .inr ⟨e', he', hsum⟩

end

/-- A turn and a search. -/
theorem Session.air_session [Sha256] [Ed25519] [Hkdf] (s : Actor ℚ) (destination : Octets 16)
    (raw : Bytes) :
    let turned := s.processAnnounceQueue (moment 1700000002) 1
    let searched := turned.admitPathRequest (moment 1700000004) destination 1 raw true
    Relation.ReflTransGen (AirStep 1) (s, [])
      (searched, aired 1 1700000002 s turned ++ aired 1 1700000004 turned searched) :=
  .tail (.single (.turn s [] (moment 1700000002) 1))
    (.request _ _ (moment 1700000004) destination 1 raw true)

open Transport.Session in
/-- An announce and then a search are sent on interface 1 within two seconds. -/
theorem announce_airtime_capped_session :
    let queued := { node with localDestinations := [destination] }.broadcastAnnounceOnInterfaces
      (moment 1700000001) announce none
    let turned := queued.processAnnounceQueue (moment 1700000002) 1
    let searched := turned.admitPathRequest (moment 1700000004) destination 1 waitingRequest true
    let sent := aired 1 1700000002 queued turned ++ aired 1 1700000004 turned searched
    sent = [(1700000002, announce), (1700000004, waitingRequest)] ∧
      ∃ e ∈ sent, (sent.map fun e => airtime 62500 e.2).sum ≤
        2 / 100 * (1700000004 - 1700000002) + airtime 62500 e.2 := by
  intro queued turned searched sent
  have hsent : sent = [(1700000002, announce), (1700000004, waitingRequest)] := by decide +kernel
  have hfields : (queued.interfaces.get 1).map (fun entry =>
      (entry.bitrate, max entry.announceCap (1 / 1000), entry.background)) =
        some (62500, 2 / 100, false) := by decide +kernel
  obtain ⟨entry, hentry, hfields⟩ := Option.map_eq_some_iff.mp hfields
  obtain ⟨hbitrate, hcap, hlane⟩ : entry.bitrate = 62500 ∧
    max entry.announceCap (1 / 1000) = 2 / 100 ∧ entry.background = false := by
    rw [Prod.mk.injEq, Prod.mk.injEq] at hfields
    exact hfields
  have hrun : Relation.ReflTransGen (AirStep 1) (queued, []) (searched, sent) :=
    air_session queued destination waitingRequest
  have hbound := announce_airtime_capped hentry hlane hrun 1700000002 1700000004
  have hall : (sent.filter fun e => (1700000002 : ℚ) ≤ e.1 ∧ e.1 ≤ 1700000004) = sent := by
    rw [hsent]
    norm_num
  rw [hall, hbitrate, hcap] at hbound
  exact ⟨hsent, hbound.resolve_left (by simp [hsent])⟩

end Reticulum.Transport
