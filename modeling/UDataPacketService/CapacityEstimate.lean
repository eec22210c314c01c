import UDataPacketService.DetectorModel

/-! The capacity that the duplicate packet detector estimates for a new stream. The
estimate divides by the duration of the first packet in whole seconds, so a packet
under half a second has no estimate, and a little over half a second counts as one. -/
namespace UDataPacketService

namespace DataPacketHeader
variable (header : DataPacketHeader)

def sampleSpan : ℚ := (header.nSamples - 1) / (max 1 header.samplingRate : Int)

/-- The seconds that consecutive packets like this one are apart. -/
def packetLength : ℚ := header.nSamples / (max 1 header.samplingRate : Int)

/-- The divisor of `estimateCapacity`. -/
def wholeSeconds : Int := max 0 (stdRound header.sampleSpan)

theorem rate_pos : (0 : ℚ) < (max 1 header.samplingRate : Int) := by
  exact_mod_cast lt_of_lt_of_le one_pos (le_max_left 1 header.samplingRate)

theorem sampleSpan_nonneg : 0 ≤ header.sampleSpan := by
  have some : (1 : ℚ) ≤ header.nSamples := by exact_mod_cast header.positive
  exact div_nonneg (by linarith) header.rate_pos.le

theorem sampleSpan_lt_packetLength : header.sampleSpan < header.packetLength :=
  div_lt_div_of_pos_right (by linarith) header.rate_pos

theorem wholeSeconds_eq : header.wholeSeconds = ⌊header.sampleSpan + 1 / 2⌋ := by
  have nonneg := header.sampleSpan_nonneg
  rw [wholeSeconds, max_eq_right (stdRound_nonneg nonneg), stdRound, if_pos nonneg]

theorem wholeSeconds_ne_zero_iff : header.wholeSeconds ≠ 0 ↔ 1 / 2 ≤ header.sampleSpan := by
  have nonneg := header.sampleSpan_nonneg
  rw [wholeSeconds_eq, ne_eq, Int.floor_eq_zero_iff, Set.mem_Ico]
  constructor
  · intro many
    by_contra few
    exact many ⟨by linarith, by linarith⟩
  · rintro long ⟨-, short⟩
    linarith

end DataPacketHeader

def capacityFor (memory wholeSeconds : Int) : Int :=
  max 10 ⌊(3 / 2 * memory : ℚ) / wholeSeconds⌋ + 1

/-- The estimate divides by a number other than zero, fits an `int`, and buffers packets
like the given one for the whole memory. -/
structure CoversMemory (header : DataPacketHeader) (memory : Int) : Prop where
  divides : header.wholeSeconds ≠ 0
  covers : ∃ capacity, estimateCapacity header memory = some capacity ∧
    capacity.val ≤ 2147483647 ∧ (memory : ℚ) ≤ capacity.val * header.packetLength

section Estimate
variable {header : DataPacketHeader} {memory : Int}

theorem lt_capacityFor (memory wholeSeconds : Int) :
    (3 / 2 * memory : ℚ) / wholeSeconds < capacityFor memory wholeSeconds := by
  refine (Int.lt_floor_add_one _).trans_le ?_
  rw [capacityFor]
  exact_mod_cast Int.add_le_add_right (le_max_right 10 _) 1

theorem capacityFor_pos (memory wholeSeconds : Int) : (0 : ℚ) < capacityFor memory wholeSeconds := by
  have ten := le_max_left 10 ⌊(3 / 2 * memory : ℚ) / wholeSeconds⌋
  rw [capacityFor]
  exact_mod_cast (by omega)

/-- Three halves of an integer are never the largest `int`, which has no successor. -/
theorem quotient_lt (positive : 0 < memory) (fits : (3 / 2 * memory : ℚ) ≤ 2147483647)
    {wholeSeconds : Int} (nonzero : 0 < wholeSeconds) :
    ⌊(3 / 2 * memory : ℚ) / wholeSeconds⌋ < 2147483647 := by
  have divided : (3 / 2 * memory : ℚ) / wholeSeconds ≤ 3 / 2 * memory :=
    div_le_self (by positivity) (by exact_mod_cast nonzero)
  rw [Int.floor_lt]
  refine lt_of_le_of_lt divided (lt_of_le_of_ne fits (fun full => ?_))
  have doubled : 3 * memory = 4294967294 := by
    have : (3 * memory : ℚ) = 4294967294 := by linarith
    exact_mod_cast this
  omega

theorem estimateCapacity_eq (positive : 0 < memory) (fits : (3 / 2 * memory : ℚ) ≤ 2147483647)
    (nonzero : 0 < header.wholeSeconds) :
    ∃ capacity, estimateCapacity header memory = some capacity ∧
      capacity.val = capacityFor memory header.wholeSeconds ∧ capacity.val ≤ 2147483647 := by
  have small := quotient_lt positive fits nonzero
  refine ⟨_, (if_neg nonzero.ne').trans (if_neg (not_le.mpr small)), rfl, ?_⟩
  exact Int.add_le_of_le_sub_right (max_le (by decide) (Int.le_sub_one_of_lt small))

/-- Two thirds of a second are enough for a packet that counts as one. -/
theorem leastLength_le (memory : Int) : (memory : ℚ) / capacityFor memory 1 ≤ 2 / 3 := by
  rw [div_le_iff₀ (capacityFor_pos memory 1)]
  have above := lt_capacityFor memory 1
  rw [Int.cast_one, div_one] at above
  linarith

theorem covers_of_seconds (positive : 0 < memory) (many : 2 ≤ header.wholeSeconds) :
    (memory : ℚ) ≤ capacityFor memory header.wholeSeconds * header.packetLength := by
  have seconds : (2 : ℚ) ≤ header.wholeSeconds := by exact_mod_cast many
  have half : (header.wholeSeconds : ℚ) ≤ header.sampleSpan + 1 / 2 := by
    rw [header.wholeSeconds_eq]
    exact Int.floor_le _
  have longer := header.sampleSpan_lt_packetLength
  have above := lt_capacityFor memory header.wholeSeconds
  rw [div_lt_iff₀ (by linarith)] at above
  have capacity := capacityFor_pos memory header.wholeSeconds
  -- the length is at least three quarters of the seconds that divide
  have long : 3 / 4 * (header.wholeSeconds : ℚ) ≤ header.packetLength := by linarith
  calc (memory : ℚ) ≤ 3 / 4 * (3 / 2 * memory) := by
        have : (0 : ℚ) < memory := by exact_mod_cast positive
        linarith
    _ ≤ 3 / 4 * (capacityFor memory header.wholeSeconds * header.wholeSeconds) := by linarith
    _ = capacityFor memory header.wholeSeconds * (3 / 4 * header.wholeSeconds) := by ring
    _ ≤ capacityFor memory header.wholeSeconds * header.packetLength :=
        mul_le_mul_of_nonneg_left long capacity.le

end Estimate

/-- The estimate covers the memory exactly if the samples of the packet span half a
second and its length is at least the memory over the capacity for whole seconds,
a little under two thirds of a second. -/
theorem capacity_covers_memory_iff (header : DataPacketHeader) (memory : Int)
    (positive : 0 < memory) (fits : (3 / 2 * memory : ℚ) ≤ 2147483647) :
    CoversMemory header memory ↔
      1 / 2 ≤ header.sampleSpan ∧
        (memory : ℚ) / (max 10 ⌊(3 / 2 * memory : ℚ)⌋ + 1 : Int) ≤ header.packetLength := by
  have least : (max 10 ⌊(3 / 2 * memory : ℚ)⌋ + 1 : Int) = capacityFor memory 1 := by
    rw [capacityFor, Int.cast_one, div_one]
  rw [least, ← header.wholeSeconds_ne_zero_iff]
  have nonneg : 0 ≤ header.wholeSeconds := le_max_left 0 _
  rcases nonneg.eq_or_lt with zero | nonzero
  · exact iff_of_false (fun covers => covers.divides zero.symm) (fun long => long.1 zero.symm)
  · obtain ⟨capacity, estimated, value, bound⟩ := estimateCapacity_eq positive fits nonzero
    have covers_iff : CoversMemory header memory ↔
        (memory : ℚ) ≤ capacityFor memory header.wholeSeconds * header.packetLength := by
      rw [← value]
      constructor
      · rintro ⟨-, other, same, -, covers⟩
        obtain rfl := Option.some.inj (estimated.symm.trans same)
        exact covers
      · exact fun covers => ⟨nonzero.ne', capacity, estimated, bound, covers⟩
    rw [covers_iff, and_iff_right nonzero.ne']
    rcases (show 1 ≤ header.wholeSeconds from nonzero).eq_or_lt with one | many
    · rw [← one, div_le_iff₀ (capacityFor_pos memory 1), mul_comm]
    · refine iff_of_true (covers_of_seconds positive many) ((leastLength_le memory).trans ?_)
      have long : (2 : ℚ) ≤ ⌊header.sampleSpan + 1 / 2⌋ := by
        rw [← header.wholeSeconds_eq]
        exact_mod_cast many
      have := long.trans (Int.floor_le _)
      have := header.sampleSpan_lt_packetLength
      linarith

def hundredHertz (nSamples : ℕ) (some : 0 < nSamples) : DataPacketHeader where
  name := "UU.CWU.HHZ.01"
  startTime := 0
  endTime := (nSamples - 1) * 10000
  samplingRate := 100
  nSamples := nSamples
  positive := by omega
  ordered := by omega

/-- Five minutes of packets of one second. -/
theorem capacity_covers_five_minutes : CoversMemory (hundredHertz 100 (by decide)) 300 :=
  (capacity_covers_memory_iff (hundredHertz 100 (by decide)) 300 (by decide) (by norm_num)).mpr
    ⟨by norm_num [hundredHertz, DataPacketHeader.sampleSpan],
      by norm_num [hundredHertz, DataPacketHeader.packetLength]⟩

/-- A packet under half a second divides by zero, and one of a little over half a
second leaves room for less than four of the five minutes. -/
theorem capacity_misses_five_minutes :
    ¬CoversMemory (hundredHertz 50 (by decide)) 300 ∧
      ¬CoversMemory (hundredHertz 51 (by decide)) 300 := by
  constructor
  · intro covers
    have long := (DataPacketHeader.wholeSeconds_ne_zero_iff _).mp covers.divides
    norm_num [hundredHertz, DataPacketHeader.sampleSpan] at long
  · rintro ⟨-, capacity, same, -, covers⟩
    have second : (hundredHertz 51 (by decide)).wholeSeconds = 1 := by
      rw [DataPacketHeader.wholeSeconds_eq]
      norm_num [hundredHertz, DataPacketHeader.sampleSpan]
    obtain ⟨other, estimated, value, -⟩ := estimateCapacity_eq (by decide : (0 : Int) < 300)
      (by norm_num) (second ▸ one_pos)
    obtain rfl := Option.some.inj (estimated.symm.trans same)
    rw [value, second] at covers
    norm_num [capacityFor, hundredHertz, DataPacketHeader.packetLength] at covers

end UDataPacketService
