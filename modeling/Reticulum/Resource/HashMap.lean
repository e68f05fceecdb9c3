import Reticulum.Resource.Frames
import Reticulum.Resource.Terminal

/-!
# The hash map of an incoming transfer

A receiver learns the map hashes of its parts from the advertisement and from hash map updates, and
keeps the number of the known ones. An unknown map hash is a hash of zeros. What a peer sends may
hold such hashes too, may repeat known indices with other hashes, and an advertisement may hold more
hashes than there are parts; the bookkeeping is exact precisely when none of that happens.

## Main definitions

* `InboundTransfer.Tracked` — the height is the number of known map hashes, within the parts.
* `InboundTransfer.Merges` — an update is neither ignored nor refused.
* `InboundTransfer.Agrees` — an update repeats known hashes and adds known ones.

## Main results

* `InboundTransfer.hashmap_iff` — when the bookkeeping is right in every state of a run.
-/

namespace Reticulum.Resource.InboundTransfer

open List Wire

variable {F : Type}

/-! ### Writing map hashes -/

section Insert

variable {totalParts idx height : ℕ} {hashes mapHashes : List (Octets 4)}

section

variable (hidx : idx ≤ mapHashes.length)

include hidx

/-- The map hashes after one is written at an index up to their end. -/
theorem getElem?_insert_one (mh : Octets 4) (j : ℕ) :
    ((mapHashes ++ List.replicate (idx + 1 - mapHashes.length) zeroHash).set idx mh)[j]? =
      if j = idx then some mh else mapHashes[j]? := by
  rw [getElem?_set]
  by_cases hj : j = idx
  · subst hj
    rw [if_pos rfl, if_pos rfl, if_pos]
    rw [length_append, length_replicate]
    omega
  · rw [if_neg (Ne.symm hj), if_neg hj, getElem?_append]
    split_ifs with hlt
    · rfl
    · rw [getElem?_eq_none (by rw [length_replicate]; omega),
        getElem?_eq_none (Nat.le_of_not_lt hlt)]

theorem length_insert_one (mh : Octets 4) :
    ((mapHashes ++ List.replicate (idx + 1 - mapHashes.length) zeroHash).set idx mh).length =
      max mapHashes.length (idx + 1) := by
  rw [length_set, length_append, length_replicate]
  omega

/-- The written hashes stand at their indices, and the others are as before. -/
theorem getElem?_insertHashes (j : ℕ) :
    (insertHashes totalParts hashes idx mapHashes height).1[j]? =
      if idx ≤ j ∧ j < idx + hashes.length ∧ j < totalParts then hashes[j - idx]?
      else mapHashes[j]? := by
  induction hashes generalizing idx mapHashes height with
  | nil =>
    rw [insertHashes, if_neg]
    rw [length_nil]
    omega
  | cons mh rest ih =>
    rw [insertHashes]
    by_cases hend : totalParts ≤ idx
    · rw [if_pos hend, if_neg]
      omega
    rw [if_neg hend, ih (by rw [length_insert_one hidx]; omega), getElem?_insert_one hidx]
    rw [length_cons]
    by_cases hj : j = idx
    · subst hj
      rw [if_neg (by omega), if_pos rfl, if_pos (by omega), Nat.sub_self]
      rfl
    · by_cases hin : idx + 1 ≤ j ∧ j < idx + 1 + rest.length ∧ j < totalParts
      · rw [if_pos hin, if_pos (by omega)]
        obtain ⟨k, rfl⟩ := Nat.exists_eq_add_of_le hin.1
        rw [Nat.add_sub_cancel_left, show idx + 1 + k - idx = k + 1 by omega]
        rfl
      · rw [if_neg hin, if_neg hj, if_neg (by omega)]

/-- The height counts the new indices, when the known hashes from the first one on are not zero. -/
theorem insertHashes_height (hknown : ∀ j, idx ≤ j → mapHashes[j]? ≠ some zeroHash) :
    (insertHashes totalParts hashes idx mapHashes height).2 + mapHashes.length =
      height + (insertHashes totalParts hashes idx mapHashes height).1.length := by
  induction hashes generalizing idx mapHashes height with
  | nil => rfl
  | cons mh rest ih =>
    rw [insertHashes]
    by_cases hend : totalParts ≤ idx
    · rw [if_pos hend]
    rw [if_neg hend]
    have hlen := length_insert_one hidx mh
    set written := (mapHashes ++ List.replicate (idx + 1 - mapHashes.length) zeroHash).set idx mh
      with hwritten
    have hrest : ∀ j, idx + 1 ≤ j → written[j]? ≠ some zeroHash := by
      intro j hj
      rw [hwritten, getElem?_insert_one hidx, if_neg (by omega)]
      exact hknown j (by omega)
    have hih (height : ℕ) : (insertHashes totalParts rest (idx + 1) written height).2 +
        written.length = height + (insertHashes totalParts rest (idx + 1) written height).1.length :=
      ih (by rw [hlen]; omega) hrest
    -- The index is behind the known hashes, or its hash is known and not zero.
    rcases Nat.eq_or_lt_of_le hidx with heq | hlt
    · have hzero : (mapHashes ++ List.replicate (idx + 1 - mapHashes.length) zeroHash)[idx]? =
          some zeroHash := by
        rw [getElem?_append_right heq.ge, ← heq]
        simp
      have hih := hih (height + 1)
      simp only [hzero, if_true, ← hwritten]
      omega
    · have hzero : (mapHashes ++ List.replicate (idx + 1 - mapHashes.length) zeroHash)[idx]? ≠
          some zeroHash := by
        rw [getElem?_append_left hlt]
        exact hknown idx le_rfl
      have hih := hih height
      simp only [hzero, if_false, ← hwritten]
      omega

end

end Insert

/-! ### The bookkeeping -/

/-- The number of map hashes that are not the one for unknown hashes. -/
def knownHashes (t : InboundTransfer F) : ℕ := t.resource.mapHashes.countP (· ≠ zeroHash)

/-- The height is the number of known map hashes, and there are not more of them than parts. -/
structure Tracked (t : InboundTransfer F) : Prop where
  height : t.hashmapHeight = t.knownHashes
  bounded : t.knownHashes ≤ t.resource.totalParts

/-- No known map hash is replaced by another one. -/
def Retains (t t' : InboundTransfer F) : Prop :=
  ∀ (i : ℕ) mh, mh ≠ zeroHash → t.resource.mapHashes[i]? = some mh → t'.resource.mapHashes[i]? = some mh

/-- An update that is neither ignored nor refused. -/
structure Merges (t : InboundTransfer F) (segment : ℕ) (hashmapData : Bytes) : Prop where
  transferring : t.resource.state = .transferring
  waiting : t.waitingForHmu = true
  nonempty : 4 ≤ hashmapData.length
  aligned : hashmapData.length % 4 = 0
  start_fits : segment * hashmapMaxLen linkMdu ≤ usizeMax
  start_lt : segment * hashmapMaxLen linkMdu < t.resource.totalParts
  start_le : segment * hashmapMaxLen linkMdu ≤ t.hashmapHeight
  extends_known : t.hashmapHeight <
    segment * hashmapMaxLen linkMdu + hashmapData.length / 4

/-- The hashes of an update for existing parts are not zero, and those of known indices are the
known ones. -/
def Agrees (t : InboundTransfer F) (segment : ℕ) (hashmapData : Bytes) : Prop :=
  ∀ i mh, (mapHashChunks hashmapData)[i]? = some mh →
    segment * hashmapMaxLen linkMdu + i < t.resource.totalParts →
    mh ≠ zeroHash ∧ ∀ known,
      t.resource.mapHashes[segment * hashmapMaxLen linkMdu + i]? = some known → mh = known

/-- The bookkeeping is right and, as no unknown hash stands between known ones, the hashes are all
known. -/
structure Contiguous (t : InboundTransfer F) : Prop where
  height : t.hashmapHeight = t.resource.mapHashes.length
  bounded : t.resource.mapHashes.length ≤ t.resource.totalParts
  known : zeroHash ∉ t.resource.mapHashes

variable {t : InboundTransfer F}

theorem knownHashes_eq_length :
    t.knownHashes = t.resource.mapHashes.length ↔ zeroHash ∉ t.resource.mapHashes := by
  rw [knownHashes, countP_eq_length]
  constructor
  · intro hall hmem
    simpa using hall zeroHash hmem
  · rintro hnot mh hmh
    simp only [ne_eq, decide_eq_true_eq]
    rintro rfl
    exact hnot hmh

/-- When the height is the number of hashes, the bookkeeping is right exactly when all are known. -/
theorem tracked_iff (hheight : t.hashmapHeight = t.resource.mapHashes.length)
    : t.Tracked ↔ t.Contiguous := by
  constructor
  · rintro ⟨hknown, hbounded⟩
    have hlen : t.knownHashes = t.resource.mapHashes.length := hknown.symm.trans hheight
    exact ⟨hheight, hlen ▸ hbounded, knownHashes_eq_length.mp hlen⟩
  · rintro ⟨-, hbounded, hknown⟩
    have hlen := knownHashes_eq_length.mpr hknown
    exact ⟨hheight.trans hlen.symm, hlen.symm ▸ hbounded⟩

variable {hashmapData : Bytes} {segment : ℕ}

/-- An update that merges writes its hashes. -/
theorem hashmapUpdate_of_merges (h : t.Merges segment hashmapData) (now : ℕ) :
    let inserted := insertHashes t.resource.totalParts (mapHashChunks hashmapData)
      (segment * hashmapMaxLen linkMdu) t.resource.mapHashes t.hashmapHeight
    let t' := (t.hashmapUpdate segment hashmapData now).1
    t'.resource.mapHashes = inserted.1 ∧ t'.hashmapHeight = inserted.2 ∧
      t'.resource.totalParts = t.resource.totalParts := by
  have hstate : ¬ (t.resource.state ≠ .transferring ∨ ¬ t.waitingForHmu = true) := by
    simp [h.transferring, h.waiting]
  have hlen : ¬ (hashmapData.length < 4 ∨ hashmapData.length % 4 ≠ 0) := by
    simp [h.aligned, h.nonempty]
  have hstart : ¬ (usizeMax < segment * hashmapMaxLen linkMdu ∨
      t.resource.totalParts ≤ segment * hashmapMaxLen linkMdu) :=
    not_or.mpr ⟨Nat.not_lt.mpr h.start_fits, Nat.not_le.mpr h.start_lt⟩
  unfold hashmapUpdate
  simp only [if_neg hstate, if_neg hlen, if_neg hstart, if_neg (Nat.not_lt.mpr h.start_le),
    if_neg (Nat.not_le.mpr h.extends_known)]
  obtain ⟨hkeeps, -⟩ := requestNext_spec (F := F) _ now
  exact ⟨hkeeps.mapHashes, hkeeps.hashmapHeight, hkeeps.offer.totalParts⟩

/-- Any other update leaves the hash map alone. -/
theorem hashmapUpdate_of_not_merges (h : ¬ t.Merges segment hashmapData) (now : ℕ) :
    Keeps t (t.hashmapUpdate segment hashmapData now).1 := by
  unfold hashmapUpdate
  simp only
  split_ifs with hstate hlen hstart hgap hold
  · exact .refl t
  · exact .of_eq rfl rfl
  · exact .of_eq rfl rfl
  · exact .of_eq rfl rfl
  · exact .refl t
  · rw [not_or, not_not, not_not] at hstate
    rw [not_or, not_not] at hlen
    rw [not_or] at hstart
    exact absurd ⟨hstate.1, hstate.2, Nat.not_lt.mp hlen.1, hlen.2, Nat.not_lt.mp hstart.1,
      Nat.not_le.mp hstart.2, Nat.not_lt.mp hgap, Nat.not_le.mp hold⟩ h

/-- The other calls leave the hash map alone too. -/
theorem keeps_call [Binary64 F] [Sha256] {c : InboundCall}
    (h : ∀ segment hashmapData now, c ≠ .hashmapUpdate segment hashmapData now) :
    Keeps t (t.call c) := by
  cases c with
  | receivePart data now => exact (t.receivePart_spec data now).1
  | requestNext now => exact (t.requestNext_spec now).1
  | checkTimeout now => exact (t.checkTimeout_spec now).1
  | hashmapUpdate segment hashmapData now => exact absurd rfl (h segment hashmapData now)
  | cancel => exact t.keeps_withState .failed
  | handleCancel => exact t.keeps_withState .failed

theorem Contiguous.of_keeps {t t' : InboundTransfer F} (h : t.Contiguous) (hkeeps : Keeps t t') :
    t'.Contiguous ∧ Retains t t' := by
  refine ⟨⟨?_, ?_, ?_⟩, fun i mh _ hmh => ?_⟩
  · rw [hkeeps.hashmapHeight, hkeeps.mapHashes, h.height]
  · rw [hkeeps.mapHashes, hkeeps.offer.totalParts]
    exact h.bounded
  · rw [hkeeps.mapHashes]
    exact h.known
  · rw [hkeeps.mapHashes]
    exact hmh

/-- An update that merges leaves the height at the number of hashes. It keeps the bookkeeping right
and the known hashes exactly when it agrees with them. -/
theorem Contiguous.hashmapUpdate (h : t.Contiguous) (hmerges : t.Merges segment hashmapData)
    (now : ℕ) :
    let t' := (t.hashmapUpdate segment hashmapData now).1
    t'.hashmapHeight = t'.resource.mapHashes.length ∧
      (t'.Contiguous ∧ Retains t t' ↔ t.Agrees segment hashmapData) := by
  intro t'
  obtain ⟨hmap, hheight, htotal⟩ := hashmapUpdate_of_merges hmerges now
  set start := segment * hashmapMaxLen linkMdu with hstart
  set hashes := mapHashChunks hashmapData with hhashes
  have hidx : start ≤ t.resource.mapHashes.length := h.height ▸ hmerges.start_le
  have hnonzero (j : ℕ) : t.resource.mapHashes[j]? ≠ some zeroHash :=
    fun hj => h.known (mem_of_getElem? hj)
  have hget (j : ℕ) : t'.resource.mapHashes[j]? =
      if start ≤ j ∧ j < start + hashes.length ∧ j < t.resource.totalParts then hashes[j - start]?
      else t.resource.mapHashes[j]? := by
    rw [show t'.resource.mapHashes = _ from hmap, getElem?_insertHashes hidx]
  have hlength : t'.hashmapHeight = t'.resource.mapHashes.length := by
    have hcount : (insertHashes t.resource.totalParts hashes start t.resource.mapHashes
        t.hashmapHeight).2 + _ = _ := insertHashes_height hidx fun j _ => hnonzero j
    rw [show t'.hashmapHeight = _ from hheight, show t'.resource.mapHashes = _ from hmap]
    have := h.height
    omega
  refine ⟨hlength, ?_, ?_⟩
  · rintro ⟨hcontiguous, hretains⟩ i mh hmh hlt
    have hi : i < hashes.length := (List.getElem?_eq_some_iff.mp hmh).1
    have hnew : t'.resource.mapHashes[start + i]? = some mh := by
      rw [hget, if_pos ⟨by omega, by omega, hlt⟩, Nat.add_sub_cancel_left, hmh]
    refine ⟨?_, fun known hknown => ?_⟩
    · rintro rfl
      exact hcontiguous.known (mem_of_getElem? hnew)
    · have hkept := hretains (start + i) known
        (fun hzero => hnonzero (start + i) (hzero ▸ hknown)) hknown
      exact Option.some.inj (hnew.symm.trans hkept)
  · intro hagrees
    have hwritten {j : ℕ} (hj : start ≤ j ∧ j < start + hashes.length ∧ j < t.resource.totalParts) :
        ∃ mh, t'.resource.mapHashes[j]? = some mh ∧ mh ≠ zeroHash ∧
          ∀ known, t.resource.mapHashes[j]? = some known → mh = known := by
      obtain ⟨i, rfl⟩ := Nat.exists_eq_add_of_le hj.1
      have hi : i < hashes.length := by omega
      obtain ⟨hne, hknown⟩ := hagrees i hashes[i] (getElem?_eq_getElem hi) hj.2.2
      refine ⟨hashes[i], ?_, hne, hknown⟩
      rw [hget, if_pos hj, Nat.add_sub_cancel_left, getElem?_eq_getElem hi]
    refine ⟨⟨hlength, ?_, fun hzero => ?_⟩, fun j mh _ hmh => ?_⟩
    · rw [show t'.resource.totalParts = _ from htotal, ← List.getElem?_eq_none_iff, hget,
        if_neg (by omega)]
      exact getElem?_eq_none h.bounded
    · obtain ⟨j, hj⟩ := mem_iff_getElem?.mp hzero
      by_cases hin : start ≤ j ∧ j < start + hashes.length ∧ j < t.resource.totalParts
      · obtain ⟨mh, hmh, hne, -⟩ := hwritten hin
        exact hne (Option.some.inj (hmh.symm.trans hj))
      · rw [hget, if_neg hin] at hj
        exact hnonzero j hj
    · by_cases hin : start ≤ j ∧ j < start + hashes.length ∧ j < t.resource.totalParts
      · obtain ⟨mh', hmh', -, hknown⟩ := hwritten hin
        rw [hmh', hknown mh hmh]
      · rw [hget, if_neg hin]
        exact hmh

/-! ### Runs -/

section Runs

variable [Binary64 F] [Sha256] {t : InboundTransfer F}

/-- The transfer after some calls. -/
def after (t : InboundTransfer F) (calls : List InboundCall) : InboundTransfer F :=
  calls.foldl (·.call) t

/-- A call is not an update that merges and disagrees with the hash map. -/
def Honest (t : InboundTransfer F) (c : InboundCall) : Prop :=
  ∀ segment hashmapData now, c = .hashmapUpdate segment hashmapData now →
    t.Merges segment hashmapData → t.Agrees segment hashmapData

/-- A call keeps the bookkeeping right and the known hashes exactly when it is honest. -/
theorem Contiguous.call (h : t.Contiguous) (c : InboundCall) :
    ((t.call c).Tracked ↔ (t.call c).Contiguous) ∧
      ((t.call c).Contiguous ∧ Retains t (t.call c) ↔ t.Honest c) := by
  by_cases hmerges : ∃ segment hashmapData now, c = .hashmapUpdate segment hashmapData now ∧
      t.Merges segment hashmapData
  · obtain ⟨segment, hashmapData, now, rfl, hmerges⟩ := hmerges
    obtain ⟨hheight, hiff⟩ := h.hashmapUpdate hmerges now
    refine ⟨tracked_iff hheight, hiff.trans ⟨?_, fun honest => honest _ _ _ rfl hmerges⟩⟩
    rintro hagrees _ _ _ heq -
    obtain ⟨rfl, rfl, rfl⟩ := InboundCall.hashmapUpdate.inj heq
    exact hagrees
  · have hkeeps : Keeps t (t.call c) := by
      by_cases hupdate : ∃ segment hashmapData now, c = .hashmapUpdate segment hashmapData now
      · obtain ⟨segment, hashmapData, now, rfl⟩ := hupdate
        exact hashmapUpdate_of_not_merges (fun hm => hmerges ⟨_, _, _, rfl, hm⟩) now
      · exact keeps_call fun segment hashmapData now heq => hupdate ⟨_, _, _, heq⟩
    obtain ⟨hcontiguous, hretains⟩ := h.of_keeps hkeeps
    refine ⟨tracked_iff hcontiguous.height, iff_of_true ⟨hcontiguous, hretains⟩ ?_⟩
    exact fun segment hashmapData now heq hm => absurd ⟨_, _, _, heq, hm⟩ hmerges

/-- **The hash map of an incoming transfer.** Whatever the advertisement, the parts and the updates:
in every state of a run the height is the number of known map hashes, which is at most the number of
parts, and no known hash is replaced by another one, exactly when the advertisement holds at most
one hash for each part and no hash of zeros, and each update that is merged repeats the known hashes
and adds none of zeros. -/
theorem hashmap_iff {totalParts totalSize dataSize rtt now : ℕ} {randomHash : Octets 4}
    {resourceHash : Octets 32} {flags : ResourceFlags} {mapHashes : List (Octets 4)}
    (h : fromAdvertisement totalParts totalSize dataSize randomHash resourceHash flags mapHashes rtt
      now = .ok t) (calls : List InboundCall) :
    ((∀ done, done <+: calls → (t.after done).Tracked) ∧
        ∀ done c, done ++ [c] <+: calls → Retains (t.after done) ((t.after done).call c)) ↔
      (mapHashes.length ≤ totalParts ∧ zeroHash ∉ mapHashes) ∧
        ∀ done c, done ++ [c] <+: calls → (t.after done).Honest c := by
  obtain ⟨hnew, hheight⟩ := fromAdvertisement_eq_ok h
  obtain ⟨-, hresource⟩ := InboundResource.withSdu_eq_ok_iff.mp hnew
  have htotal : t.resource.totalParts = totalParts := by rw [hresource]
  have hmap : t.resource.mapHashes = mapHashes := by rw [hresource]
  have hstart : t.Tracked ↔ mapHashes.length ≤ totalParts ∧ zeroHash ∉ mapHashes := by
    rw [tracked_iff (hheight.trans (congrArg _ hmap.symm)), ← hmap, ← htotal]
    exact ⟨fun hc => ⟨hc.bounded, hc.known⟩,
      fun hc => ⟨hheight.trans (congrArg _ hmap.symm), hc.1, hc.2⟩⟩
  by_cases htracked : t.Tracked
  · have hcontiguous : t.Contiguous :=
      (tracked_iff (hheight.trans (congrArg _ hmap.symm))).mp htracked
    rw [and_iff_right (hstart.mp htracked)]
    -- The bookkeeping is right in all states exactly when the hashes are contiguous in all states.
    have hall : (∀ done, done <+: calls → (t.after done).Tracked) ↔
        ∀ done, done <+: calls → (t.after done).Contiguous := by
      refine ⟨fun hall => ?_, fun hall done hdone =>
        (tracked_iff (hall done hdone).height).mpr (hall done hdone)⟩
      refine ((forall_prefix_iff (G := fun _ _ => True)
        (C := fun t c => (InboundTransfer.call t c).Tracked)
        (fun t c ht => ?_) hcontiguous calls).mpr fun done c hdone => ?_).1
      · rw [and_true]
        exact (ht.call c).1.symm
      · have htracked := hall _ hdone
        rwa [after, foldl_append] at htracked
    rw [hall]
    exact forall_prefix_iff (G := fun t c => Retains t (InboundTransfer.call t c))
      (fun t c ht => (ht.call c).2) hcontiguous calls
  · refine iff_of_false (fun hall => htracked (hall.1 [] nil_prefix)) fun hall => ?_
    exact htracked (hstart.mpr hall.1)

end Runs

/-- A map hash of one repeated byte. -/
private def sampleHash (b : UInt8) : Octets 4 := Octets.replicate 4 b

/-- An advertisement of two parts with some map hashes. -/
private def sampleOffer (mapHashes : List (Octets 4)) : Except ResourceError (InboundTransfer ℚ) :=
  fromAdvertisement 2 64 64 sampleTag (Octets.replicate 32 7) {} mapHashes 0 0

/-- The second map hash arrives with the first one repeated. -/
theorem hashmap_iff_sampleOffer :
    letI := sampleSha
    ∃ t, sampleOffer [sampleHash 1] = .ok t ∧
      (t.after [.requestNext 0, .hashmapUpdate 0 [1, 1, 1, 1, 2, 2, 2, 2] 0]).Tracked ∧
      (t.after [.requestNext 0, .hashmapUpdate 0 [1, 1, 1, 1, 2, 2, 2, 2] 0]).resource.mapHashes =
        [sampleHash 1, sampleHash 2] := by
  let _ := sampleSha
  have htracked (t : InboundTransfer ℚ) (ht : sampleOffer [sampleHash 1] = .ok t) :
      (t.after [.requestNext 0, .hashmapUpdate 0 [1, 1, 1, 1, 2, 2, 2, 2] 0]).Tracked := by
    refine ((hashmap_iff ht [.requestNext 0, .hashmapUpdate 0 [1, 1, 1, 1, 2, 2, 2, 2] 0]).mpr
      ⟨⟨by decide, by decide⟩, fun done c hdone => ?_⟩).1 _ (prefix_refl _)
    obtain ⟨-, hresource⟩ := InboundResource.withSdu_eq_ok_iff.mp (fromAdvertisement_eq_ok ht).1
    have hmap : t.resource.mapHashes = [sampleHash 1] := by rw [hresource]
    have hkeeps : Keeps t (t.call (.requestNext 0)) := keeps_call nofun
    match done with
    | [] =>
      obtain rfl : c = .requestNext 0 := by simpa using hdone
      exact nofun
    | [c₀] =>
      obtain ⟨rfl, rfl⟩ : c₀ = .requestNext 0 ∧
          c = .hashmapUpdate 0 [1, 1, 1, 1, 2, 2, 2, 2] 0 := by simpa using hdone
      rintro _ _ _ heq - i mh hmh -
      obtain ⟨rfl, rfl, rfl⟩ := InboundCall.hashmapUpdate.inj heq
      rw [show (t.after [.requestNext 0]).resource.mapHashes = _ from hkeeps.mapHashes, hmap]
      match i with
      | 0 =>
        obtain rfl : sampleHash 1 = mh := Option.some.inj hmh
        exact ⟨by decide, fun known hknown => Option.some.inj hknown⟩
      | 1 =>
        obtain rfl : sampleHash 2 = mh := Option.some.inj hmh
        exact ⟨by decide, nofun⟩
      | i + 2 => cases hmh
    | c₀ :: c₁ :: done => simpa using hdone.length_le
  exact ⟨_, rfl, htracked _ rfl, by decide +kernel⟩

/-- An update replaces the known hash of the first part. A hash of zeros is counted but not known,
and counted again when it is repeated, so that the height exceeds the number of parts. An
advertisement with too many hashes does so from the start. -/
theorem hashmap_hostile :
    letI := sampleSha
    (∃ t, sampleOffer [sampleHash 1] = .ok t ∧ t.resource.mapHashes = [sampleHash 1] ∧
      (t.after [.requestNext 0, .hashmapUpdate 0 [3, 3, 3, 3, 2, 2, 2, 2] 0]).resource.mapHashes =
        [sampleHash 3, sampleHash 2]) ∧
    (∃ t, sampleOffer [zeroHash] = .ok t ∧ t.hashmapHeight = 1 ∧ t.knownHashes = 0 ∧
      (t.after [.requestNext 0, .hashmapUpdate 0 [3, 3, 3, 3, 2, 2, 2, 2] 0]).hashmapHeight = 3) ∧
    ∃ t, sampleOffer [sampleHash 1, sampleHash 2, sampleHash 3] = .ok t ∧ t.knownHashes = 3 ∧
      t.resource.totalParts = 2 := by
  refine ⟨⟨_, rfl, ?_, ?_⟩, ⟨_, rfl, ?_, ?_, ?_⟩, ⟨_, rfl, ?_, ?_⟩⟩ <;> decide +kernel

end Reticulum.Resource.InboundTransfer
