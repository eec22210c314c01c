import UDataPacketService.FutureDetector

/-! The end time of a packet in the integers of the source. The number of samples is
unsigned, so one less than none is the largest count, and a slow enough rate takes the
interval, the duration or the end time out of 64 bits. -/

/-! Signed arithmetic in 64 bits in which an overflow has no value. A computation that
gives a value gives the one of exact arithmetic. -/
namespace CheckedArithmetic

def Fits (x : Int) : Prop := -2 ^ 63 ≤ x ∧ x < 2 ^ 63

instance (x : Int) : Decidable (Fits x) := inferInstanceAs (Decidable (_ ∧ _))

def ofInt (x : Int) : Option Int64 := if Fits x then some (Int64.ofInt x) else none

def add (a b : Int64) : Option Int64 := ofInt (a.toInt + b.toInt)

def mul (a b : Int64) : Option Int64 := ofInt (a.toInt * b.toInt)

theorem ofInt_eq_some_iff {x : Int} {a : Int64} : ofInt x = some a ↔ a.toInt = x := by
  rw [ofInt]
  split
  case isTrue fits =>
    have exact_ := Int64.toInt_ofInt_of_le fits.1 fits.2
    rw [Option.some.injEq, ← Int64.toInt_inj, exact_, eq_comm]
  case isFalse wide =>
    refine iff_of_false (Option.some_ne_none a).symm ?_
    rintro rfl
    exact wide ⟨a.le_toInt, a.toInt_lt⟩

theorem exists_toInt_iff {x : Int} : (∃ a : Int64, a.toInt = x) ↔ Fits x := by
  constructor
  · rintro ⟨a, rfl⟩
    exact ⟨a.le_toInt, a.toInt_lt⟩
  · exact fun fits => ⟨Int64.ofInt x, Int64.toInt_ofInt_of_le fits.1 fits.2⟩

theorem ofInt_bind_eq_some_iff {β : Type*} {x : Int} {next : Int64 → Option β} {result : β} :
    (ofInt x).bind next = some result ↔ ∃ a : Int64, a.toInt = x ∧ next a = some result := by
  simp only [Option.bind_eq_some_iff, ofInt_eq_some_iff]

end CheckedArithmetic

namespace UDataPacketService
open CheckedArithmetic

namespace Timestamp

/-- The times of the years 1 to 9999, the only valid ones. -/
structure Valid (t : Timestamp) : Prop where
  seconds : -62135596800 ≤ t.seconds ∧ t.seconds ≤ 253402300799
  nanos : 0 ≤ t.nanos ∧ t.nanos ≤ 999999999

def toMicroseconds64 (t : Timestamp) : Option Int64 :=
  (ofInt t.seconds).bind fun seconds =>
    (mul seconds 1000000).bind fun whole =>
      (ofInt (t.nanos.tdiv 1000)).bind fun rest => add whole rest

end Timestamp

/-- `Utilities::getEndTimeInMicroSeconds` in 32 unsigned and 64 signed bits, where the
source defines the result. -/
def getEndTimeInInt64 (packet : Packet) : Option (Except String Int64) :=
  packet.startTime.toMicroseconds64.bind fun startTimeMuSec =>
    if packet.samplingRate ≤ 0 then some (.error "Sampling rate not positive")
    else
      (ofInt (stdRound (1000000 / packet.samplingRate))).bind fun dtMuSec =>
        (ofInt (packet.numberOfSamples - 1).toNat).bind fun nIntervals =>
          (mul dtMuSec nIntervals).bind fun duration => (add startTimeMuSec duration).map .ok

namespace Timestamp
variable {t : Timestamp}

theorem Valid.toMicroseconds_bounds (valid : t.Valid) :
    -62135596800000000 ≤ t.toMicroseconds ∧ t.toMicroseconds ≤ 253402300799999999 := by
  obtain ⟨⟨early, late⟩, ⟨low, high⟩⟩ := valid
  rw [toMicroseconds, Int.tdiv_eq_ediv_of_nonneg low]
  omega

theorem Valid.toMicroseconds64_eq_some_iff (valid : t.Valid) {a : Int64} :
    t.toMicroseconds64 = some a ↔ a.toInt = t.toMicroseconds := by
  obtain ⟨⟨early, late⟩, ⟨low, high⟩⟩ := valid
  have rest := Int.tdiv_eq_ediv_of_nonneg (b := 1000) low
  have million : (1000000 : Int64).toInt = 1000000 := rfl
  simp only [toMicroseconds64, mul, add, ofInt_bind_eq_some_iff, ofInt_eq_some_iff, million]
  constructor
  · rintro ⟨seconds, s, whole, w, nanos, n, sum⟩
    rw [sum, w, n, s, toMicroseconds]
  · intro exact_
    obtain ⟨seconds, s⟩ := exists_toInt_iff.mpr (show Fits t.seconds by unfold Fits; omega)
    obtain ⟨whole, w⟩ := exists_toInt_iff.mpr
      (show Fits (t.seconds * 1000000) by unfold Fits; omega)
    obtain ⟨nanos, n⟩ := exists_toInt_iff.mpr
      (show Fits (t.nanos.tdiv 1000) by unfold Fits; omega)
    exact ⟨seconds, s, whole, s ▸ w, nanos, n, by rw [exact_, w, n, toMicroseconds]⟩

end Timestamp

section Evaluation
variable {packet : Packet}

def Packet.roundedPeriod (packet : Packet) : Int := stdRound packet.samplePeriod

/-- The end time is defined if each step of its computation fits, and then exact. -/
theorem getEndTimeInInt64_eq_some_iff (valid : packet.startTime.Valid)
    (rate : 0 < packet.samplingRate) {endTime : Int64} :
    getEndTimeInInt64 packet = some (.ok endTime) ↔
      Fits packet.roundedPeriod ∧
        Fits (packet.roundedPeriod * (packet.numberOfSamples - 1).toNat) ∧
        endTime.toInt = packet.startTime.toMicroseconds +
          packet.roundedPeriod * (packet.numberOfSamples - 1).toNat := by
  simp only [getEndTimeInInt64, if_neg (not_le.mpr rate), Option.bind_eq_some_iff,
    valid.toMicroseconds64_eq_some_iff, mul, add, Option.map_eq_some_iff, ofInt_eq_some_iff,
    Except.ok.injEq, exists_eq_right]
  constructor
  · rintro ⟨startTimeMuSec, started, dtMuSec, interval, nIntervals, count, duration, product, sum⟩
    rw [count, interval] at product
    exact ⟨exists_toInt_iff.mp ⟨dtMuSec, interval⟩, exists_toInt_iff.mp ⟨duration, product⟩,
      by rw [sum, started, product]; rfl⟩
  · rintro ⟨interval, product, sum⟩
    obtain ⟨dtMuSec, interval⟩ := exists_toInt_iff.mpr interval
    obtain ⟨duration, product⟩ := exists_toInt_iff.mpr product
    obtain ⟨startTimeMuSec, started⟩ := exists_toInt_iff.mpr
      (show Fits packet.startTime.toMicroseconds by
        have := valid.toMicroseconds_bounds
        unfold Fits
        omega)
    obtain ⟨nIntervals, count⟩ := exists_toInt_iff.mpr
      (show Fits (packet.numberOfSamples - 1).toNat by
        have := (packet.numberOfSamples - 1).toNat_lt
        unfold Fits
        omega)
    exact ⟨startTimeMuSec, started, dtMuSec, interval, nIntervals, count, duration,
      by rw [product, count, interval], by rw [sum, started, product]⟩

/-- Where it is defined, the result is that of the unbounded arithmetic. -/
theorem getEndTimeInMicroSeconds_of_int64 (valid : packet.startTime.Valid)
    {result : Except String Int64} (defined : getEndTimeInInt64 packet = some result) :
    getEndTimeInMicroSeconds packet = result.map Int64.toInt := by
  by_cases rate : packet.samplingRate ≤ 0
  · obtain ⟨startTimeMuSec, -, refused⟩ := Option.bind_eq_some_iff.mp defined
    rw [if_pos rate] at refused
    rw [← Option.some.inj refused, getEndTimeInMicroSeconds, if_pos rate]
    rfl
  · cases result with
    | error what =>
        simp [getEndTimeInInt64, if_neg rate, Option.bind_eq_some_iff] at defined
    | ok endTime =>
        obtain ⟨-, -, sum⟩ :=
          (getEndTimeInInt64_eq_some_iff valid (not_le.mp rate)).mp defined
        rw [getEndTimeInMicroSeconds, if_neg rate, Except.map, sum]
        rfl

end Evaluation

/-- The end time is computed without wrapping around or overflowing. -/
structure EndsExactly (packet : Packet) : Prop where
  subtracts : ((packet.numberOfSamples - 1).toNat : Int) = packet.numberOfSamples.toNat - 1
  evaluates : ∃ endTime, getEndTimeInInt64 packet = some (.ok endTime) ∧
    endTime.toInt = packet.startTime.toMicroseconds +
      packet.roundedPeriod * (packet.numberOfSamples.toNat - 1) ∧
    (1 ≤ packet.numberOfSamples.toNat → packet.startTime.toMicroseconds ≤ endTime.toInt)

/-- There is a sample, and the interval, the duration and the end time fit 64 bits. -/
structure EndFits (packet : Packet) : Prop where
  samples : packet.numberOfSamples ≠ 0
  interval : packet.roundedPeriod < 2 ^ 63
  duration : packet.roundedPeriod * (packet.numberOfSamples.toNat - 1) < 2 ^ 63
  endTime : packet.startTime.toMicroseconds +
    packet.roundedPeriod * (packet.numberOfSamples.toNat - 1) < 2 ^ 63

/-- One less than a number of samples wraps around only for none. -/
theorem numberOfSamples_sub_one_iff (packet : Packet) :
    ((packet.numberOfSamples - 1).toNat : Int) = packet.numberOfSamples.toNat - 1 ↔
      packet.numberOfSamples ≠ 0 := by
  constructor
  · intro subtracts none
    rw [none] at subtracts
    exact absurd subtracts (by decide)
  · intro samples
    have some : packet.numberOfSamples.toNat ≠ 0 := fun none => samples (UInt32.toNat_inj.mp none)
    rw [toNat_numberOfSamples_sub_one samples]
    omega

/-- The end time of a packet with a valid start and a positive rate is exact if and only
if there is a sample and each step of the computation fits. -/
theorem end_time_exact_iff (packet : Packet) (valid : packet.startTime.Valid)
    (rate : 0 < packet.samplingRate) : EndsExactly packet ↔ EndFits packet := by
  have nonneg : 0 ≤ packet.roundedPeriod := stdRound_nonneg (Packet.samplePeriod_pos rate).le
  constructor
  · rintro ⟨subtracts, endTime, defined, -, -⟩
    obtain ⟨interval, duration, sum⟩ := (getEndTimeInInt64_eq_some_iff valid rate).mp defined
    rw [subtracts] at duration sum
    exact ⟨(numberOfSamples_sub_one_iff packet).mp subtracts, interval.2, duration.2,
      sum ▸ endTime.toInt_lt⟩
  · rintro ⟨samples, interval, duration, inside⟩
    have subtracts := (numberOfSamples_sub_one_iff packet).mpr samples
    have later : 0 ≤ packet.roundedPeriod * (packet.numberOfSamples.toNat - 1) := by
      rw [← subtracts]
      exact mul_nonneg nonneg (Int.natCast_nonneg _)
    have early := valid.toMicroseconds_bounds.1
    obtain ⟨endTime, sum⟩ := exists_toInt_iff.mpr ⟨by omega, inside⟩
    refine ⟨subtracts, endTime, ?_, sum, fun _ => by omega⟩
    rw [getEndTimeInInt64_eq_some_iff valid rate, subtracts]
    exact ⟨⟨by omega, interval⟩, ⟨by omega, duration⟩, sum⟩

/-- A second of samples at 100 Hz. -/
theorem end_time_exact_second : EndsExactly (channelPacket "HHZ" 1 100) := by
  have interval : (channelPacket "HHZ" 1 100).roundedPeriod = 10000 := by
    norm_num [Packet.roundedPeriod, Packet.samplePeriod, channelPacket, Packet.samplingRate,
      stdRound]
  have samples : (channelPacket "HHZ" 1 100).numberOfSamples.toNat = 100 := rfl
  have start : (channelPacket "HHZ" 1 100).startTime.toMicroseconds = 1000000 := rfl
  refine (end_time_exact_iff (channelPacket "HHZ" 1 100) ⟨by decide, by decide⟩
    (by norm_num [channelPacket, Packet.samplingRate])).mpr ⟨by decide, ?_, ?_, ?_⟩
  · norm_num [interval]
  · norm_num [interval, samples]
  · norm_num [interval, samples, start]

/-- A packet without samples ends 4294967295 intervals after its start, and the interval
of one sample in three million years does not fit 64 bits. -/
theorem end_time_inexact :
    ¬EndsExactly (channelPacket "HHZ" 1 0) ∧
      ¬EndsExactly { channelPacket "HHZ" 1 1 with
        samplingRateField := some (1 / 100000000000000) } := by
  constructor
  · rintro ⟨subtracts, -⟩
    exact absurd subtracts (by decide)
  · rintro ⟨-, endTime, defined, -⟩
    have fits := ((getEndTimeInInt64_eq_some_iff ⟨by decide, by decide⟩
      (by norm_num [channelPacket, Packet.samplingRate])).mp defined).1.2
    norm_num [Packet.roundedPeriod, Packet.samplePeriod, channelPacket, Packet.samplingRate,
      stdRound] at fits

end UDataPacketService
