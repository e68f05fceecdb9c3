import Reticulum.Resource.SearchWindow

/-!
# A stale report outruns the receiver

A retried report of a used-up hash map may overtake the original one. When the original arrives two
segments later, the reported map hash lies before the search range, the sender takes the end of the
range for the position of the receiver, and the range skips parts that the receiver still needs.

## Main results

* `Exchange.stale_report_outruns` — a run of a transfer of 371 parts in which that happens.
* `Exchange.search_range_sound_timely` — the run without the stale report.
-/

namespace Reticulum.Resource

open OutboundTransfer OutboundResource InboundTransfer List

namespace Exchange

/-! ### A transfer of 371 parts -/

/-- The first four bytes of SHA-256 of the parts with their tag, ten parts to a number. -/
private def staleTable : List ℕ := [
  0x6db65fd5f53c8bdffe6b0da9b2f34d79e48624b011d0ea59a937b956ea71517555765c60f9816ffb,
  0xa6c0c5898777846b7d29467d64c23f885fa80f97f4a2fefa26f871a171b7c313c5f0c42e64773af4,
  0xcb4d5cfcdc5f9d1d136c0d56d9e2654885d830dc1f79769f6a140233ef2b04ba5950e22e401ab9b0,
  0x6cbb84a696c1365d38f8bc701d0244d59b61a7b777fc62898f55a2e436f4822074e07d190b3bdafb,
  0xc7973456b9af9b27ec7d819d2585f1450dc6e10b0d03e4b79998d1b08a3bb3fb63f54cea5818b70c,
  0x63e7dd58ad9cb09aa96d46e18475728c4249ad8e97a819973604c5e6fb9f6e1f4f05d8dfdcad11e2,
  0xb2128cc92fa224d2eb2f50da07f549667143f07be6a9d0cdc276b9dee76dd9ebd3c961a09348cc81,
  0xf1f9dd19b5f39d0967c58d488a24b69a80f030fb17b5b08f4df0bcd5ee624959eeadb6795005a7fa,
  0x6ebafb71cd1302f7a5f6940b50bc03a504adedb3ee24077d0f00b9a208e3ffd60e34a9ac396fb336,
  0xb4d072ca7fed39a207b97a602229ae7655ce047a9d5ec3db868cb552a38c48410e6dcd2158208d4a,
  0x46057efb52481740525b47dbdc611cbd384d614a5d35a86310b79a6949dbe79b8fc5044f1335ab57,
  0x856e7cdc2d1a5d078843c8604800bd906132622ddcdf68a468323f8cdd1edc84c266e4e96a2a97a3,
  0x25a38d59d4fe204a9add5d699d8d53bbe60d6bde726d840a32cdd4aa0c36fddf0e8b728bfce1f6a7,
  0x2d0b4357bb3def9013a25dc56b278665f40f3ddde736c5a8d5f733e217fc90d47cf3edc5645e9278,
  0xcf328a8b5c0c789491e8706f6bbb8843d9469ea06ccdc42a463a899a861befef0cf3c85da21c0842,
  0x6d97bc60b8c83d3b604bcc7a6a630731a4233508110d2525b322acc90d4f56c02b8a10ba22fad5f2,
  0xcb45237cd011d17c07e019575f82a2e097fec4bdb3bd16577959e3103c4e92ab8ee4e5c89042fdef,
  0xf08a034ee1b7e2bc2cbc546837f2cf970d14d63edf3c6a4fe7607111aaa10f6954394c9391463a75,
  0x1f386e20ccd6d81c4e2d9908982a1ae30acea995375380f8b2441bbb9279305c10fe19bf4ed33bf0,
  0xd3d81131cab9fd48f897dd8860efc1f6f734472c34bc45cc35fda3c4f01ae5e1179a87309e73981b,
  0x01746bef10372cb9428d2481d627f62627be23ffc52299353cd926e6fef9d204903e1c03404769bd,
  0xdb25190112d1359f5394d5814768a1f4f13133d589ef7e161b7d796eeebf413e446bb31319c3442e,
  0x6d9f3f43cb15869dc9fe584a39b73b2ad62f504af1fdfe421111b7af85a6f0a256ca68767918e6ec,
  0x4fcc889813ede1006ede43627884e0cb0f96fffdec9c2f997f96aecb42b7dd435d2eaac286af07ec,
  0xab2c90184f429d3f8af9ac9784201926e53d590950f211d13891ad089a357eda13bb9a55beecbdb0,
  0xf13c090b3a6dfc6960f0f3fa2689416ffd918bc5c62d0b1211bc115ca776fbf7c34b632b91359393,
  0x47b0dfcb150c1fa6bb53dcbe1d415cf5276fce7d8fe8cdf7c22825c31f6bf214dac0a6758e50a152,
  0x13a6df5107b77cc5b53edc0cb8231ffc34d209db95c7418e79870e68e88c0b9404b30b52816f8cad,
  0xa7d209cc70ed381750adcedd40d04de82c96549f4d7d0365754354441367869cdb1966f8df8891ca,
  0xe7de7294a215ad17a09f25c8d86feb615f6be40b210209513d5aaee27eeaf95c20b1493802badc8a,
  0x83ec064ac6464adc19af6eaf1a0d7034f8bb440a8e67ce97b095265849a0354bc7801fae9bc63271,
  0xe852d2cec0a2ccbbbc89ef70c3b42ea687264c43a6f6a18862e0823dc60a7ad147fbf1e3699e60f3,
  0x2b12e47997c24e83478fb2976f90e3115c5db643458b4cee94fe011da4ee4ef40fd2b53ce7b1a371,
  0x1b46e98677dbc7e9970278811472bfa084ef9a9d04beb416ab92423b3b0167c00f8d5a5ff4375622,
  0x68297b32b803a9d8f06d4d1f53bc48d4770e243d19e53877a1b805b8d047bbe40d167c0adb2d5db2,
  0xbe78bdfed0c613d02bd47f5907da41533d626c2f6e264a386d96dde9aae01ad4422b1473d2323de2,
  0x285dfb4b6eeae56cae22f013a39559700eaaff3f04a453b9fc057b181dee4aa2d108b5430b15dfbc,
  0xaf6edba1]

/-- The map hash of a part. -/
private def staleHash (i : ℕ) : ℕ :=
  staleTable.getD (i / 10) 0 / 2 ^ (32 * (if i = 370 then 0 else 9 - i % 10)) % 2 ^ 32

/-- SHA-256 of the parts as far as map hashes go, of the data with the tag, and of the data with
that digest. -/
@[reducible] private def staleSha : Sha256 where
  digest input :=
    if input.length = 36 then
      Octets.read 32 (bigEndian 4 (staleHash (ofBigEndian (input.take 2))))
    else if input.length = 11872 then
      .ofNat 0x3db9002c52663601ee0e54133ba44fe7a9654792f5ff18a06c7d545f09aa7c38
    else
      .ofNat 0xb20cdc318381558c74330af87731b453a815d3578fb008d13d8354b3ca9a384f

/-- Nothing is compressed. -/
@[reducible] private def staleBzip2 : Bzip2 where
  compress _ := none
  decoder _ := ([], false)

/-- Parts of 32 bytes that begin with their number. -/
private def stalePart (i : ℕ) : Bytes := bigEndian 2 i ++ List.replicate 30 0

/-- The map hash of a part as four bytes. -/
private def staleMapHash (i : ℕ) : Octets 4 := ⟨bigEndian 4 (staleHash i), length_bigEndian _ _⟩

/-- The data of all parts without the tag, which is zero and begins the first part. -/
private def staleData : Bytes := ((List.range 371).flatMap stalePart).drop 4

private def staleResource : OutboundResource :=
  let _ := staleSha
  let _ := staleBzip2
  build (Octets.replicate 4 0) none staleData false none (some 32)

private theorem staleResource_parts : staleResource.parts = (List.range 371).map stalePart ∧
    staleResource.mapHashes = (List.range 371).map staleMapHash := by
  decide +kernel

private theorem nodup_staleResource : staleResource.mapHashes.Nodup := by
  have hdistinct : distinctFrom ((List.range 371).map fun i => staleHash i % 65536) 0 = true := by
    decide +kernel
  have hnodup : ((List.range 371).map staleHash).Nodup := by
    refine Nodup.of_map (· % 65536) ?_
    rw [map_map]
    exact (nodup_of_distinctFrom hdistinct).1
  have hdecode (i : ℕ) : ofBigEndian (staleMapHash i).1 = staleHash i :=
    ofBigEndian_bigEndian (Nat.mod_lt _ (by decide))
  rw [staleResource_parts.2]
  refine Nodup.of_map (fun mh => ofBigEndian mh.1) ?_
  rw [map_map]
  simpa only [Function.comp_def, hdecode] using hnodup

/-! ### The run -/

/-- A supply of packet hashes. -/
private def packet (k : ℕ) : Octets 32 :=
  ⟨UInt8.ofNat (k / 256) :: UInt8.ofNat k :: List.replicate 30 0, rfl⟩

/-- A second after the start, in nanoseconds. -/
private def later : ℕ := 1000000000

/-- Messages arrive in the order in which they are sent, but for the first report of a used-up hash
map, message 81. A second later the receiver retries it, the retry and all that follows arrive until
the third segment of the hash map is used up. -/
private def timelyEvents : List Event :=
  .requestNext (packet 300) 1 :: (List.range 81).map (fun i => .deliver i (packet i) 1) ++
    .checkTimeout (packet 301) later ::
      (List.range' 82 145).map (fun i => .deliver i (packet i) later)

/-- The report arrives. -/
private def staleEvent : Event := .deliver 81 (packet 302) later

/-- The fourth segment arrives. -/
private def lastEvent : Event := .deliver 244 (packet 303) later

/-- The receiver has 205 parts and asks for the next one, and the sender searches from part 294. -/
private def outrun (x : Exchange ℚ) : Bool :=
  x.receiver.resource.consecutiveCompleted = 205 && x.sender.receiverMinConsecutiveHeight = 294 &&
    !x.sender.resource.state.isTerminal &&
    (x.emitted.bind (parseRequest staleResource.resourceHash)).any fun request =>
      request.requested.head? = some (staleMapHash 205)

/-- The third segment was reported as used up, and the receiver asks for parts. -/
private def timely (x : Exchange ℚ) : Bool :=
  x.reported = 222 && x.emitted.isSome && !x.sender.resource.state.isTerminal &&
    packet 304 ∉ x.sender.reqHashlist

/-! ### Faster evaluation -/

/-- The resource with its parts and map hashes written out. -/
private def plainResource : OutboundResource :=
  { staleResource with
    parts := (List.range 371).map stalePart
    mapHashes := (List.range 371).map staleMapHash }

/-- A map hash as numbers, which are faster to compare. -/
private def code (mh : Octets 4) : List ℕ := mh.1.map UInt8.toNat

private theorem code_injective : Function.Injective code :=
  (map_injective_iff.mpr fun _ _ h => UInt8.toNat_inj.mp h).comp Subtype.val_injective

/-- The requested parts, found by one walk along all parts. -/
private def walkParts (t : OutboundTransfer) (requested : List (Octets 4)) : List (ℕ × Bytes) :=
  let (searchStart, searchEnd) := t.searchRange
  ((((t.resource.mapHashes.zip t.resource.parts).drop searchStart).take
    (searchEnd - searchStart)).zipIdx searchStart).filterMap fun x =>
      if code x.1.1 ∈ requested.map code then some (x.2, x.1.2) else none

private theorem filterMap_range'_getElem? {α β : Type} (g : ℕ → α → Option β) (l : List α)
    (s n : ℕ) : (List.range' s n).filterMap (fun i => l[i]?.bind (g i)) =
      (((l.drop s).take n).zipIdx s).filterMap fun x => g x.2 x.1 := by
  induction n generalizing s with
  | zero => simp
  | succ n ih =>
    rw [range'_succ, filterMap_cons, ih]
    cases h : l[s]? with
    | none =>
      have hs : l.length ≤ s := getElem?_eq_none_iff.mp h
      simp [drop_eq_nil_of_le hs, drop_eq_nil_of_le (Nat.le_succ_of_le hs)]
    | some a =>
      obtain ⟨hs, rfl⟩ := List.getElem?_eq_some_iff.mp h
      rw [drop_eq_getElem_cons hs, take_succ_cons, zipIdx_cons, filterMap_cons]
      simp

private theorem requestedParts_eq_walkParts : requestedParts = walkParts := by
  funext t requested
  simp only [requestedParts, walkParts, mem_map_of_injective code_injective]
  rw [← filterMap_range'_getElem? fun i (x : Octets 4 × Bytes) =>
    if x.1 ∈ requested then some (i, x.2) else none]
  refine filterMap_congr fun i _ => ?_
  rw [List.zip, getElem?_zipWith, getPart]
  cases t.resource.mapHashes[i]? <;> cases t.resource.parts[i]? <;> rfl

/-- Map hashes inserted at the end are appended at once. -/
private def appendHashes (totalParts : ℕ) (hashes : List (Octets 4)) (idx : ℕ)
    (mapHashes : List (Octets 4)) (height : ℕ) : List (Octets 4) × ℕ :=
  if mapHashes.length = idx ∧ mapHashes.length + hashes.length ≤ totalParts then
    (mapHashes ++ hashes, height + hashes.length)
  else insertHashes totalParts hashes idx mapHashes height

private theorem insertHashes_eq_appendHashes : insertHashes = appendHashes := by
  funext totalParts hashes idx mapHashes height
  rw [appendHashes]
  split_ifs with h
  · rw [← h.1, insertHashes_eq h.2]
  · rfl

/-- A run that stops where a condition fails checks it on the way. -/
private theorem along_of_guarded {σ ε : Type} {step : σ → ε → Option σ} {C : σ → ε → Prop}
    [∀ s e, Decidable (C s e)] {s t : σ} {es : List ε}
    (h : run (fun s e => if C s e then step s e else none) s es = some t) :
    Along step C s es ∧ run step s es = some t := by
  induction es generalizing s with
  | nil => exact ⟨trivial, h⟩
  | cons e es ih =>
    obtain ⟨s', hstep, h⟩ := run_cons_eq_some.mp h
    split_ifs at hstep with hC
    obtain ⟨halong, hrun⟩ := ih h
    refine ⟨⟨hC, fun s'' hs => ?_⟩, run_cons_eq_some.mpr ⟨s', hstep, hrun⟩⟩
    obtain rfl := Option.some.inj (hstep.symm.trans hs)
    exact halong

private theorem evaluated_runs :
    letI := staleSha
    letI := staleBzip2
    ((start plainResource 0 0 0 : Option (Exchange ℚ)).any fun x₀ =>
      (run (fun x e => if x.Fresh e then Exchange.step none x e else none) x₀ timelyEvents).any fun x =>
        (run (Exchange.step none) x [staleEvent, lastEvent]).any outrun &&
          (run (fun x e => if x.Fresh e then Exchange.step none x e else none) x [lastEvent]).any
            timely) = true := by
  delta Exchange.step Exchange.deliver handleRequestPacket
    handleRequest hashmapUpdate
  rw [requestedParts_eq_walkParts, insertHashes_eq_appendHashes]
  decide +kernel

/-- The two runs: with the report, and without it. -/
private theorem stale_runs :
    letI := staleSha
    letI := staleBzip2
    ∃ x₀ x x', (start staleResource 0 0 0 : Option (Exchange ℚ)) = some x₀ ∧
      (run (Exchange.step none) x₀ (timelyEvents ++ [staleEvent, lastEvent]) = some x ∧ outrun x) ∧
      Along (Exchange.step none) Fresh x₀ (timelyEvents ++ [lastEvent]) ∧
      run (Exchange.step none) x₀ (timelyEvents ++ [lastEvent]) = some x' ∧ timely x' := by
  let _ := staleSha
  let _ := staleBzip2
  have hplain : plainResource = staleResource := by
    rw [plainResource, ← staleResource_parts.1, ← staleResource_parts.2]
  obtain ⟨x₀, hstart, hruns⟩ := (Option.any_eq_true _ _).mp evaluated_runs
  obtain ⟨y, hprefix, hruns⟩ := (Option.any_eq_true _ _).mp hruns
  obtain ⟨hstale, htimely⟩ := (Bool.and_eq_true _ _).mp hruns
  obtain ⟨x, hstale, houtrun⟩ := (Option.any_eq_true _ _).mp hstale
  obtain ⟨x', hlast, htimely⟩ := (Option.any_eq_true _ _).mp htimely
  have hguarded : run (fun x e => if x.Fresh e then Exchange.step none x e else none) x₀
      (timelyEvents ++ [lastEvent]) = some x' := by
    rw [run_append, hprefix, Option.bind_some, hlast]
  refine ⟨x₀, x, x', hplain ▸ hstart, ⟨?_, houtrun⟩, (along_of_guarded hguarded).1,
    (along_of_guarded hguarded).2, htimely⟩
  rw [run_append, (along_of_guarded hprefix).2, Option.bind_some, hstale]

private theorem withOptions_stale :
    letI := staleSha
    letI := staleBzip2
    withOptions (fun _ => Octets.replicate 4 0) none staleData false none (some 32) =
      .ok staleResource :=
  letI := staleSha
  letI := staleBzip2
  withOptions_of_nodup (toOption_eq_some.mp (by decide +kernel)) nodup_staleResource

/-- A run in which the receiver has 205 parts, the sender searches from part 294 on, and part 205,
for which the receiver asks, is not sent. -/
theorem stale_report_outruns :
    letI := staleSha
    letI := staleBzip2
    ∃ x₀ es x,
      withOptions (fun _ => Octets.replicate 4 0) none staleData false none
        (some 32) = .ok staleResource ∧
      staleResource.mapHashes.Nodup ∧
      (start staleResource 0 0 0 : Option (Exchange ℚ)) = some x₀ ∧
      run (Exchange.step none) x₀ es = some x ∧
      x.receiver.resource.consecutiveCompleted < x.sender.receiverMinConsecutiveHeight ∧
      ¬ x.sender.resource.state.isTerminal ∧
      ∃ data ∈ x.emitted, ∃ request,
        parseRequest staleResource.resourceHash data = some request ∧
        ∃ mh ∈ request.requested, ∀ packetHash now i part,
          staleResource.mapHashes[i]? = some mh →
            .sendPart i part ∉ (x.sender.handleRequestPacket packetHash data now).2 := by
  let _ := staleSha
  let _ := staleBzip2
  obtain ⟨x₀, x, -, hstart, ⟨hrun, houtrun⟩, -⟩ := stale_runs
  simp only [outrun, Bool.and_eq_true, decide_eq_true_eq, Bool.not_eq_true', Option.any_eq_true,
    Option.bind_eq_some_iff] at houtrun
  obtain ⟨⟨⟨hreceived, hsearched⟩, halive⟩, request, ⟨data, hdata, hrequest⟩, hasked⟩ := houtrun
  refine ⟨x₀, _, x, withOptions_stale, nodup_staleResource, hstart, hrun, by omega,
    by simp [halive], data, hdata, request, hrequest, _, mem_of_head? hasked,
    fun packetHash now i part hi hsent => ?_⟩
  -- Parts are sent from part 294 on, and the hash that was asked for is that of part 205 only.
  have hle := height_le_of_sendPart hsent
  have hasked : staleResource.mapHashes[205]? =
      some (staleMapHash 205) := by
    rw [staleResource_parts.2, getElem?_map, getElem?_range (by decide), Option.map_some]
  obtain ⟨hlt, -⟩ := List.getElem?_eq_some_iff.mp hi
  have hsame : i = 205 := (getElem?_inj hlt nodup_staleResource).mp (hi.trans hasked.symm)
  omega

/-- The label of a resource that is not part of a larger one. -/
private def wholeLabel (r : OutboundResource) : SegmentLabel :=
  ⟨false, false, false, 1, 1, none, none, r.advertisementDataSize⟩

private theorem label_build [Sha256] [Bzip2] (randomHash : Octets 4) (data : Bytes)
    (linkSdu : Option ℕ) : (build randomHash none data false none linkSdu).label
      (wholeLabel (build randomHash none data false none linkSdu)) =
    build randomHash none data false none linkSdu := rfl

/-- Without the report the sender searches from where the receiver is, and answers it. -/
theorem search_range_sound_timely :
    letI := staleSha
    letI := staleBzip2
    ∃ x₀ es x, (start staleResource 0 0 0 : Option (Exchange ℚ)) = some x₀ ∧
      run (Exchange.step none) x₀ es = some x ∧ x.reported = 222 ∧
      x.sender.receiverMinConsecutiveHeight ≤ x.receiver.resource.consecutiveCompleted ∧
      ∃ request ∈ x.emitted, ∃ parsed, parseRequest staleResource.resourceHash request = some parsed ∧
        ∀ mh ∈ parsed.requested, ∃ i part, staleResource.mapHashes[i]? = some mh ∧
          staleResource.parts[i]? = some part ∧
          .sendPart i part ∈ (x.sender.handleRequestPacket (packet 304) request later).2 := by
  let _ := staleSha
  let _ := staleBzip2
  obtain ⟨x₀, -, x, hstart, -, hfresh, hrun, htimely⟩ := stale_runs
  simp only [timely, Bool.and_eq_true, decide_eq_true_eq, Bool.not_eq_true',
    Option.isSome_iff_exists] at htimely
  obtain ⟨⟨⟨hreported, request, hrequest⟩, hlive⟩, hnew⟩ := htimely
  have hwf : (advertisement (staleResource.label (wholeLabel staleResource))).WellFormed :=
    wellFormed_advertisement (by decide +kernel) (by decide +kernel)
      (by decide +kernel) (by decide +kernel) (by decide +kernel) (by decide +kernel)
  have hlabel : staleResource.label (wholeLabel staleResource) = staleResource :=
    label_build _ _ _
  rw [← hlabel] at hstart
  have hsound := search_range_sound withOptions_stale nodup_staleResource hwf hstart hfresh hrun
  rw [hlabel] at hstart
  exact ⟨x₀, _, x, hstart, hrun, hreported, hsound.1, request, hrequest,
    hsound.2 request hrequest (by simp [hlive]) _ hnew later⟩

end Exchange

end Reticulum.Resource
