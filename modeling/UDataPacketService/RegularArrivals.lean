import UDataPacketService.ArrivalOrder

/-! Business as usual: packets of one stream that arrive in order, each at least one
sampling interval after the last sample of the one before. Every packet goes to the
back of the buffer, unless it is taken for the packet before it. -/
namespace UDataPacketService
open OrderedContainers

/-- The microseconds between two samples, as the code rounds them. -/
def sampleInterval (rate : ℕ) : Int := stdRound (1000000 / (rate : ℚ))

/-- How close two start times must be for headers of the same length to be equal. -/
def startTolerance (samplingRate : Int) : Int :=
  if samplingRate < 105 then 15000
  else if samplingRate < 255 then 4500
  else if samplingRate < 505 then 2500
  else 1500

theorem stdRound_gt {x : ℚ} (nonneg : 0 ≤ x) : x - 1 / 2 < stdRound x := by
  rw [stdRound, if_pos nonneg]
  have := Int.sub_one_lt_floor (x + 1 / 2)
  linarith

theorem sampleInterval_gt {rate fastest : ℕ} (positive : 0 < rate) (slower : rate ≤ fastest) :
    (1000000 / (fastest : ℚ)) - 1 / 2 < sampleInterval rate := by
  have some : (0 : ℚ) < rate := by exact_mod_cast positive
  have order : (rate : ℚ) ≤ fastest := by exact_mod_cast slower
  have least : 1000000 / (fastest : ℚ) ≤ 1000000 / (rate : ℚ) :=
    div_le_div_of_nonneg_left (by norm_num) some order
  have rounded := stdRound_gt (div_nonneg (by norm_num : (0 : ℚ) ≤ 1000000) some.le)
  rw [sampleInterval]
  linarith

/-- The tolerance is less than two sampling intervals, for every rate it is defined for. -/
theorem startTolerance_lt {rate : ℕ} (positive : 0 < rate) (classified : rate < 1005) :
    startTolerance rate < 2 * sampleInterval rate := by
  have of_band : ∀ (tolerance : Int) (fastest : ℕ), rate ≤ fastest →
      (tolerance : ℚ) ≤ 2 * (1000000 / (fastest : ℚ) - 1 / 2) → tolerance < 2 * sampleInterval rate := by
    intro tolerance fastest slower bound
    have least := sampleInterval_gt positive slower
    have real : (tolerance : ℚ) < 2 * (sampleInterval rate : ℚ) := by linarith
    exact_mod_cast real
  unfold startTolerance
  split_ifs with slow medium fast
  · exact of_band 15000 104 (by omega) (by norm_num)
  · exact of_band 4500 254 (by omega) (by norm_num)
  · exact of_band 2500 504 (by omega) (by norm_num)
  · exact of_band 1500 1004 (by omega) (by norm_num)

theorem startTolerance_pos (samplingRate : Int) : 0 < startTolerance samplingRate := by
  unfold startTolerance
  split_ifs <;> decide

theorem sampleInterval_nonneg (rate : ℕ) : 0 ≤ sampleInterval rate :=
  stdRound_nonneg (div_nonneg (by norm_num) (Nat.cast_nonneg rate))

namespace DataPacketHeader

/-- Headers of one stream with one rate are equal when they have the same length and
start at nearly the same time. -/
theorem equals_of_classified {lhs rhs : DataPacketHeader} (name : rhs.name = lhs.name)
    (rate : rhs.samplingRate = lhs.samplingRate) (classified : lhs.samplingRate < 1005) :
    lhs.equals rhs = .ok (decide (rhs.nSamples = lhs.nSamples ∧
      |rhs.startTime - lhs.startTime| < startTolerance lhs.samplingRate)) := by
  have same : ¬rhs.samplingRate - lhs.samplingRate ≠ 0 := by omega
  simp only [equals, name, ne_eq, not_true_eq_false, if_false]
  rw [if_neg same]
  by_cases count : rhs.nSamples = lhs.nSamples
  · simp only [count, not_true_eq_false, if_false, true_and, startTolerance]
    split_ifs <;> rfl
  · simp only [count, not_false_eq_true, if_true, false_and, decide_false]

end DataPacketHeader

/-- A packet of the stream with at least one sample, at an integer rate. -/
structure Packet.Regular (name : String) (rate : ℕ) (packet : Packet) : Prop where
  name : packet.toName = name
  rate : packet.samplingRate = rate
  samples : packet.numberOfSamples ≠ 0

/-- The packet starts at least one sampling interval after the last sample of the other. -/
def Packet.Follows (rate : ℕ) (packet next : Packet) : Prop :=
  packet.startTime.toMicroseconds + packet.numberOfSamples.toNat * sampleInterval rate ≤
    next.startTime.toMicroseconds

/-- Two packets of one sample that are within the tolerance of each other. -/
def Packet.Confused (rate : ℕ) (packet next : Packet) : Prop :=
  packet.numberOfSamples = 1 ∧ next.numberOfSamples = 1 ∧
    next.startTime.toMicroseconds - packet.startTime.toMicroseconds < startTolerance rate

instance (name : String) (rate : ℕ) (packet : Packet) : Decidable (packet.Regular name rate) :=
  decidable_of_iff (packet.toName = name ∧ packet.samplingRate = rate ∧ packet.numberOfSamples ≠ 0)
    ⟨fun h => ⟨h.1, h.2.1, h.2.2⟩, fun h => ⟨h.name, h.rate, h.samples⟩⟩

instance (rate : ℕ) : DecidableRel (Packet.Follows rate) := fun _ next =>
  inferInstanceAs (Decidable (_ ≤ next.startTime.toMicroseconds))

instance (rate : ℕ) : DecidableRel (Packet.Confused rate) := fun packet next =>
  inferInstanceAs (Decidable (packet.numberOfSamples = 1 ∧ next.numberOfSamples = 1 ∧ _))

theorem toInt_numberOfSamples (count : UInt32) :
    count.toInt32.toInt = if count.toNat < 2 ^ 31 then (count.toNat : Int)
      else (count.toNat : Int) - 2 ^ 32 := by
  change count.toBitVec.toInt = _
  have same : count.toBitVec.toNat = count.toNat := rfl
  rw [BitVec.toInt_eq_toNat_cond, same]
  split <;> split <;> omega

theorem toNat_pred {count : UInt32} (some : count ≠ 0) : (count - 1).toNat = count.toNat - 1 := by
  have positive : count.toNat ≠ 0 := fun zero => some (UInt32.toNat_inj.mp zero)
  rw [UInt32.toNat_sub_of_le]
  · rfl
  · rw [UInt32.le_iff_toNat_le]
    exact Nat.one_le_iff_ne_zero.mpr positive

namespace Packet.Regular
variable {name : String} {rate : ℕ} {packet : Packet}

theorem count_pos (h : packet.Regular name rate) : 0 < packet.numberOfSamples.toNat :=
  Nat.pos_of_ne_zero (fun zero => h.samples (UInt32.toNat_inj.mp zero))

theorem header (h : packet.Regular name rate) (positive : 0 < rate)
    (fits : packet.numberOfSamples.toNat < 2 ^ 31) :
    ∃ header, DataPacketHeader.ofPacket packet = .ok header ∧ header.name = name ∧
      header.samplingRate = rate ∧ header.startTime = packet.startTime.toMicroseconds ∧
      header.nSamples = packet.numberOfSamples.toNat ∧
      header.endTime = packet.startTime.toMicroseconds +
        sampleInterval rate * (packet.numberOfSamples.toNat - 1 : Int) := by
  have count := h.count_pos
  have last : ((packet.numberOfSamples - 1).toNat : Int) = packet.numberOfSamples.toNat - 1 := by
    rw [toNat_pred h.samples]
    omega
  have nonneg : 0 ≤ sampleInterval rate * (packet.numberOfSamples.toNat - 1 : Int) :=
    mul_nonneg (sampleInterval_nonneg rate) (by omega)
  refine ⟨⟨name, packet.startTime.toMicroseconds, packet.startTime.toMicroseconds +
      sampleInterval rate * (packet.numberOfSamples.toNat - 1 : Int), rate,
      packet.numberOfSamples.toNat, by omega, by omega⟩,
    (DataPacketHeader.ofPacket_eq_ok_iff _ _).mpr ⟨h.name, rfl, ?_, ?_, ?_⟩, rfl, rfl, rfl, rfl, rfl⟩
  · have some : ¬(rate : ℚ) ≤ 0 := not_le_of_gt (by exact_mod_cast positive)
    simp only [getEndTimeInMicroSeconds, h.rate, if_neg some, last, sampleInterval]
  · have integral : ⌊(rate : ℚ) + 1 / 2⌋ = rate := by
      rw [Int.floor_eq_iff]
      constructor <;> push_cast <;> linarith
    simp only [h.rate, stdRound, Nat.cast_nonneg, if_true, integral]
  · rw [toInt_numberOfSamples, if_pos fits]

/-- Two packets of the same length are as far apart as the first is long. -/
theorem confused_of_near {next : Packet} (h : packet.Regular name rate) (positive : 0 < rate)
    (classified : rate < 1005) (follows : packet.Follows rate next)
    (same : next.numberOfSamples = packet.numberOfSamples)
    (near : next.startTime.toMicroseconds - packet.startTime.toMicroseconds < startTolerance rate) :
    packet.Confused rate next := by
  have tolerance := startTolerance_lt positive classified
  by_cases single : packet.numberOfSamples = 1
  · exact ⟨single, same.trans single, near⟩
  · have some := h.count_pos
    have several : (2 : Int) ≤ packet.numberOfSamples.toNat := by
      have differ : packet.numberOfSamples.toNat ≠ 1 := fun h => single (UInt32.toNat_inj.mp h)
      omega
    have long : 2 * sampleInterval rate ≤ packet.numberOfSamples.toNat * sampleInterval rate :=
      mul_le_mul_of_nonneg_right several (sampleInterval_nonneg rate)
    rw [Packet.Follows] at follows
    omega

theorem not_allowed_of_large (large : ¬packet.numberOfSamples.toNat < 2 ^ 31)
    (detector : DuplicatePacketDetector) :
    (detectorMachine.step detector packet).2 ≠ .returned true := by
  intro allowed
  obtain ⟨header, h⟩ := DuplicatePacketDetector.header_of_allowed allowed
  have count := ((DataPacketHeader.ofPacket_eq_ok_iff _ _).mp h).2.2.2.2
  rw [toInt_numberOfSamples, if_neg large] at count
  have := header.positive
  have := packet.numberOfSamples.toNat_lt
  omega

end Packet.Regular

namespace HeaderBuffer

/-- The headers are of one stream and one rate, and all but the last start at least
one sampling interval before the last. -/
structure Regular (name : String) (rate : ℕ) (buffer : CircularBuffer DataPacketHeader) : Prop where
  ofStream : ∀ streamHeader ∈ buffer.items, streamHeader.name = name
  atRate : ∀ streamHeader ∈ buffer.items, streamHeader.samplingRate = rate
  spaced : ∀ streamHeader ∈ buffer.items, streamHeader = buffer.back ∨
    streamHeader.startTime + sampleInterval rate ≤ buffer.back.startTime

theorem back_pushBack (buffer : CircularBuffer DataPacketHeader) (header : DataPacketHeader) :
    (buffer.pushBack header).back = header := by
  obtain ⟨kept, -, items⟩ := buffer.pushBack_eq header
  unfold CircularBuffer.back
  simp only [items, List.getLast_append_singleton]

variable {name : String} {rate : ℕ} {buffer : CircularBuffer DataPacketHeader}
  {header : DataPacketHeader}

theorem allowIn_of_found (found : header.find buffer.items ≠ .ok false) :
    (DuplicatePacketDetectorImpl.allowIn buffer header).1 ≠ .returned true := by
  have decision := allowIn_decision buffer header
  generalize DuplicatePacketDetectorImpl.allowIn buffer header = result at decision
  intro allowed
  cases decision with
  | threw | duplicate | expired | older | slip => cases allowed
  | append unknown _ => exact found unknown
  | fill unknown _ _ => exact found unknown

theorem allowIn_of_later (unknown : header.find buffer.items = .ok false)
    (later : buffer.back.endTime < header.startTime) :
    DuplicatePacketDetectorImpl.allowIn buffer header = (.returned true, buffer.pushBack header) := by
  rw [DuplicatePacketDetectorImpl.allowIn, unknown]
  exact if_pos later

theorem Regular.pushBack (h : Regular name rate buffer) (sameName : header.name = name)
    (sameRate : header.samplingRate = rate)
    (after : buffer.back.startTime + sampleInterval rate ≤ header.startTime) :
    Regular name rate (buffer.pushBack header) := by
  have interval := sampleInterval_nonneg rate
  obtain ⟨kept, sublist, items⟩ := buffer.pushBack_eq header
  have members : ∀ streamHeader ∈ (buffer.pushBack header).items,
      streamHeader ∈ buffer.items ∨ streamHeader = header := by
    intro streamHeader member
    rw [items] at member
    rcases List.mem_append.mp member with old | last
    · exact .inl (sublist.subset old)
    · exact .inr (List.mem_singleton.mp last)
  refine ⟨?_, ?_, ?_⟩
  · intro streamHeader member
    rcases members streamHeader member with old | rfl
    · exact h.ofStream streamHeader old
    · exact sameName
  · intro streamHeader member
    rcases members streamHeader member with old | rfl
    · exact h.atRate streamHeader old
    · exact sameRate
  · intro streamHeader member
    rw [back_pushBack]
    rcases members streamHeader member with old | rfl
    · refine .inr ?_
      rcases h.spaced streamHeader old with rfl | earlier
      · exact after
      · omega
    · exact .inl rfl

/-- The next packet of a regular stream is appended, unless it is confused with the
packet at the back. -/
theorem Regular.allowIn (h : Regular name rate buffer) (positive : 0 < rate)
    (classified : rate < 1005) {packet next : Packet} (regular : packet.Regular name rate)
    (nextRegular : next.Regular name rate) (follows : packet.Follows rate next)
    (fits : packet.numberOfSamples.toNat < 2 ^ 31) (nextFits : next.numberOfSamples.toNat < 2 ^ 31)
    (last : DataPacketHeader.ofPacket packet = .ok buffer.back)
    (read : DataPacketHeader.ofPacket next = .ok header) :
    ((DuplicatePacketDetectorImpl.allowIn buffer header).1 = .returned true ↔
        ¬packet.Confused rate next) ∧
      (¬packet.Confused rate next →
        DuplicatePacketDetectorImpl.allowIn buffer header = (.returned true, buffer.pushBack header) ∧
          Regular name rate (buffer.pushBack header)) := by
  obtain ⟨back, backRead, backName, backRate, backStart, backCount, backEnd⟩ :=
    regular.header positive fits
  obtain rfl := Except.ok.inj (last.symm.trans backRead)
  obtain ⟨own, ownRead, ownName, ownRate, ownStart, ownCount, -⟩ :=
    nextRegular.header positive nextFits
  obtain rfl := Except.ok.inj (read.symm.trans ownRead)
  have tolerance := startTolerance_lt positive classified
  have positiveTolerance := startTolerance_pos rate
  have interval := sampleInterval_nonneg rate
  have some : (1 : Int) ≤ packet.numberOfSamples.toNat := by exact_mod_cast regular.count_pos
  have one : sampleInterval rate ≤ packet.numberOfSamples.toNat * sampleInterval rate :=
    le_mul_of_one_le_left interval some
  have starts := follows
  rw [Packet.Follows, ← backStart, ← ownStart] at follows
  have after : buffer.back.startTime + sampleInterval rate ≤ header.startTime := by omega
  have compared : ∀ streamHeader ∈ buffer.items, streamHeader.equals header =
      .ok (decide (header.nSamples = streamHeader.nSamples ∧
        |header.startTime - streamHeader.startTime| < startTolerance rate)) := by
    intro streamHeader member
    have sameRate := h.atRate streamHeader member
    rw [← sameRate]
    exact DataPacketHeader.equals_of_classified (ownName.trans (h.ofStream streamHeader member).symm)
      (ownRate.trans sameRate.symm) (by omega)
  by_cases confused : packet.Confused rate next
  · -- the header at the back is found
    have equal : buffer.back.equals header = .ok true := by
      obtain ⟨single, nextSingle, near⟩ := confused
      rw [compared buffer.back buffer.back_mem, backCount, ownCount, single, nextSingle]
      rw [← backStart, ← ownStart] at near
      rw [abs_of_nonneg (by omega)]
      simp [near]
    have found : header.find buffer.items ≠ .ok false := by
      intro unknown
      have unequal := (header.find_eq_false_iff _).mp unknown buffer.back buffer.back_mem
      cases equal.symm.trans unequal
    exact ⟨iff_of_false (allowIn_of_found found) (not_not_intro confused),
      fun differ => absurd confused differ⟩
  · have unknown : header.find buffer.items = .ok false := by
      refine (header.find_eq_false_iff _).mpr (fun streamHeader member => ?_)
      rw [compared streamHeader member, decide_eq_false]
      rintro ⟨count, near⟩
      have close := (abs_lt.mp near).2
      rcases h.spaced streamHeader member with rfl | earlier
      · have same : next.numberOfSamples = packet.numberOfSamples := by
          rw [ownCount, backCount] at count
          exact UInt32.toNat_inj.mp (by exact_mod_cast count)
        rw [ownStart, backStart] at close
        exact confused (regular.confused_of_near positive classified starts same close)
      · omega
    have later : buffer.back.endTime < header.startTime := by
      rw [backEnd, ← backStart, mul_sub, mul_one, mul_comm]
      omega
    have appended := allowIn_of_later unknown later
    exact ⟨iff_of_true (congrArg Prod.fst appended) confused,
      fun _ => ⟨appended, h.pushBack ownName ownRate after⟩⟩

end HeaderBuffer

namespace DuplicatePacketDetector

/-- After a packet of the stream, the packets that follow are all allowed exactly
when each has a header and none is confused with the one before it. -/
theorem trace_regular {detector : DuplicatePacketDetector} {name : String} {rate : ℕ}
    {buffer : CircularBuffer DataPacketHeader} (positive : 0 < rate) (classified : rate < 1005)
    (known : detector.pImpl.mCircularBuffers[name]? = some buffer)
    (regular : HeaderBuffer.Regular name rate buffer) {packet : Packet} {packets : List Packet}
    (fits : packet.numberOfSamples.toNat < 2 ^ 31)
    (last : DataPacketHeader.ofPacket packet = .ok buffer.back)
    (ofStream : ∀ next ∈ packet :: packets, next.Regular name rate)
    (inOrder : (packet :: packets).IsChain (Packet.Follows rate)) :
    (∀ result ∈ detectorMachine.trace detector packets, result = .returned true) ↔
      (∀ next ∈ packets, next.numberOfSamples.toNat < 2 ^ 31) ∧
        (packet :: packets).IsChain (fun packet next => ¬packet.Confused rate next) := by
  induction packets generalizing detector buffer packet with
  | nil => simp
  | cons next packets ih =>
      obtain ⟨own, ofStream⟩ := List.forall_mem_cons.mp ofStream
      have nextRegular := ofStream next List.mem_cons_self
      obtain ⟨follows, inOrder⟩ := List.isChain_cons_cons.mp inOrder
      rw [Machine.trace_cons, List.forall_mem_cons, List.forall_mem_cons, List.isChain_cons_cons]
      by_cases nextFits : next.numberOfSamples.toNat < 2 ^ 31
      · obtain ⟨header, read, headerName, -⟩ := nextRegular.header positive nextFits
        have step := detector.allow_of_known read (headerName.symm ▸ known)
        obtain ⟨allowed, appended⟩ := regular.allowIn positive classified own nextRegular follows
          fits nextFits last read
        have output : (detectorMachine.step detector next).2 = .returned true ↔
            ¬packet.Confused rate next := by
          rw [← allowed]
          exact Eq.congr_left (congrArg Prod.fst step)
        rw [output]
        by_cases confused : packet.Confused rate next
        · exact iff_of_false (fun h => h.1 confused) (fun h => h.2.1 confused)
        · obtain ⟨pushed, nextBuffer⟩ := appended confused
          have nextKnown : (detectorMachine.step detector next).1.pImpl.mCircularBuffers[name]? =
              some (buffer.pushBack header) := by
            change (detector.allow next).2.pImpl.mCircularBuffers[name]? = _
            rw [step, pushed, headerName]
            exact (getElem?_insert _ _ _ _).trans (if_pos rfl)
          have nextLast : DataPacketHeader.ofPacket next = .ok (buffer.pushBack header).back := by
            rw [HeaderBuffer.back_pushBack]
            exact read
          rw [ih nextKnown nextBuffer nextFits nextLast ofStream inOrder]
          tauto
      · exact iff_of_false (fun h => Packet.Regular.not_allowed_of_large nextFits detector h.1)
          (fun h => nextFits h.1.1)

end DuplicatePacketDetector

/-- Packets of a fresh stream that arrive in order are all allowed exactly when their
counts are readable and no two neighbours of one sample are within the tolerance. -/
theorem business_as_usual_iff (size : Int) (options : DuplicatePacketDetectorOptions)
    {detector : DuplicatePacketDetector} (name : String) (rate : ℕ) (packets : List Packet)
    (sized : DuplicatePacketDetectorOptions.setCircularBufferSize size = .ok options)
    (constructed : DuplicatePacketDetector.construct options = .ok detector)
    (positive : 0 < rate) (classified : rate < 1005)
    (ofStream : ∀ packet ∈ packets, packet.Regular name rate)
    (inOrder : packets.IsChain (Packet.Follows rate)) :
    (∀ result ∈ detectorMachine.trace detector packets, result = .returned true) ↔
      (∀ packet ∈ packets, packet.numberOfSamples.toNat < 2 ^ 31) ∧
        packets.IsChain (fun packet next => ¬packet.Confused rate next) := by
  obtain ⟨room, rfl⟩ := DuplicatePacketDetector.eq_of_sized sized constructed
  cases packets with
  | nil => simp
  | cons packet packets =>
      rw [Machine.trace_cons, List.forall_mem_cons, List.forall_mem_cons]
      by_cases fits : packet.numberOfSamples.toNat < 2 ^ 31
      · obtain ⟨header, read, headerName, headerRate, -⟩ :=
          (ofStream packet List.mem_cons_self).header positive fits
        have opened := DuplicatePacketDetector.allow_first room read
        rw [and_iff_right (show (detectorMachine.step _ packet).2 = .returned true from
          congrArg Prod.fst opened), and_iff_right fits]
        have known : (detectorMachine.step ⟨{ mCircularBufferSize := size, sized := room }⟩
            packet).1.pImpl.mCircularBuffers[name]? =
              some (.start size.toNat (Int.pos_iff_toNat_pos.mp room) header) := by
          change (DuplicatePacketDetector.allow _ packet).2.pImpl.mCircularBuffers[name]? = _
          rw [opened, headerName]
          exact (getElem?_insert _ _ _ _).trans (if_pos rfl)
        have regular : HeaderBuffer.Regular name rate
            (.start size.toNat (Int.pos_iff_toNat_pos.mp room) header) :=
          ⟨fun streamHeader member => List.mem_singleton.mp member ▸ headerName,
            fun streamHeader member => List.mem_singleton.mp member ▸ headerRate,
            fun streamHeader member => .inl (List.mem_singleton.mp member)⟩
        exact DuplicatePacketDetector.trace_regular positive classified known regular fits read
          ofStream inOrder
      · exact iff_of_false (fun h => Packet.Regular.not_allowed_of_large fits _ h.1)
          (fun h => fits h.1.1)

/-- Packets at one hertz overrun a buffer for two, among them two of one sample. -/
theorem business_as_usual_one_hertz :
    let packets := [channelPacket "LHZ" 0 2, channelPacket "LHZ" 2 1, channelPacket "LHZ" 3 1,
      channelPacket "LHZ" 4 5].map (fun packet => { packet with samplingRateField := some 1 })
    (detectorMachine.trace ⟨{ mCircularBufferSize := 2 }⟩ packets).all
      (fun result => result = .returned true) = true := by
  have allowed := business_as_usual_iff 2 ⟨-1, 2⟩ "UU.CWU.LHZ.01" 1
    ([channelPacket "LHZ" 0 2, channelPacket "LHZ" 2 1, channelPacket "LHZ" 3 1,
      channelPacket "LHZ" 4 5].map (fun packet => { packet with samplingRateField := some 1 }))
    rfl rfl (by decide) (by decide) (by decide +kernel) (by decide +kernel)
  rw [List.all_eq_true]
  exact fun result member => decide_eq_true (allowed.mpr (by decide +kernel) result member)

/-- Two packets of one sample at one hundred hertz, ten milliseconds apart. -/
theorem single_sample_refused :
    let packets := [channelPacket "HHZ" 0 1,
      { channelPacket "HHZ" 0 1 with startTimeField := some ⟨0, 10000000⟩ }]
    (∀ packet ∈ packets, packet.Regular "UU.CWU.HHZ.01" 100) ∧
      packets.IsChain (Packet.Follows 100) ∧
      (DuplicatePacketDetector.construct ⟨-1, 100⟩).map
          (fun detector => detectorMachine.trace detector packets) =
        .ok [.returned true, .returned false] := by
  decide +kernel

end UDataPacketService
