import UDataPacketService.MachineRuns

/-! The summary that the main thread prints from time to time. With metrics exported
it reports how many packets came in since the last one; it remembers the report, not
the counter it read, so the reports come apart after the second. -/

/-! Differences of a sequence of readings, each taken against the one before it. They
sum to the last reading. -/
namespace RunningDifferences

variable {α : Type*}

/-- The difference of each reading to the one before it; the first is taken to an origin. -/
def differences [Sub α] (origin : α) : List α → List α
  | [] => []
  | reading :: readings => (reading - origin) :: differences reading readings

/-- The differences telescope. -/
theorem sum_differences [AddCommGroup α] (origin : α) (readings : List α) :
    (differences origin readings).sum = readings.getLastD origin - origin := by
  induction readings generalizing origin with
  | nil => rw [differences, List.sum_nil, List.getLastD_nil, sub_self]
  | cons reading readings ih =>
      rw [differences, List.sum_cons, ih, List.getLastD_cons]
      abel

end RunningDifferences

namespace UDataPacketService
open RunningDifferences

/-- What `printSummary` reads of `ProgramOptions`; the interval is in seconds. -/
structure ProgramOptions where
  printSummaryInterval : Int := 900
  exportMetrics : Bool := false

/-- What `printSummary` reads and writes of `Process`; times are in microseconds. -/
structure Process where
  mOptions : ProgramOptions
  mLastPrintSummary : Int
  mReportNumberOfPacketsReceived : Int := 0

inductive SummaryReport where
  | received (reportPacketsReceived nSubscribers : Int)
  | servicing (nSubscribers : Int)
  deriving DecidableEq, Repr

structure SummaryCall where
  now : Int
  receivedPacketsCount : Int
  nSubscribers : Int

def Process.printSummary (process : Process) (call : SummaryCall) :
    Process × Option SummaryReport :=
  if process.mOptions.printSummaryInterval ≤ 0 then (process, none)
  else if call.now >
      process.mLastPrintSummary + process.mOptions.printSummaryInterval * 1000000 then
    if process.mOptions.exportMetrics then
      let currentNumberOfPacketsReceived := call.receivedPacketsCount
      let reportPacketsReceived :=
        currentNumberOfPacketsReceived - process.mReportNumberOfPacketsReceived
      ({ process with
          mLastPrintSummary := call.now
          mReportNumberOfPacketsReceived := reportPacketsReceived },
        some (.received reportPacketsReceived call.nSubscribers))
    else ({ process with mLastPrintSummary := call.now }, some (.servicing call.nSubscribers))
  else (process, none)

def summaryMachine : Machine Process SummaryCall (Option SummaryReport) where
  step process call := process.printSummary call

/-- The counter values at the times at which a summary is due. -/
def countsRead (options : ProgramOptions) (mLastPrintSummary : Int) : List SummaryCall → List Int
  | [] => []
  | call :: calls =>
      if 0 < options.printSummaryInterval ∧
          call.now > mLastPrintSummary + options.printSummaryInterval * 1000000 then
        call.receivedPacketsCount :: countsRead options call.now calls
      else countsRead options mLastPrintSummary calls

def reportedPackets (reports : List (Option SummaryReport)) : List Int :=
  reports.filterMap (fun
    | some (.received reportPacketsReceived _) => some reportPacketsReceived
    | some (.servicing _) | none => none)

/-- The reports for a list of counter values, with the number that is remembered. -/
def reportsFor (mReportNumberOfPacketsReceived : Int) : List Int → List Int
  | [] => []
  | count :: counts =>
      (count - mReportNumberOfPacketsReceived) ::
        reportsFor (count - mReportNumberOfPacketsReceived) counts

/-- Each report is the difference to the last counter value, so that the reports sum to
the last value and none is negative. -/
structure ReportsAddUp (counts reports : List Int) : Prop where
  differences : reports = differences 0 counts
  total : reports.sum = counts.getLastD 0
  nonneg : ∀ report ∈ reports, 0 ≤ report

section Firings
variable {process : Process}

theorem printSummary_quiet {call : SummaryCall}
    (due : ¬(0 < process.mOptions.printSummaryInterval ∧
      call.now > process.mLastPrintSummary + process.mOptions.printSummaryInterval * 1000000)) :
    process.printSummary call = (process, none) := by
  unfold Process.printSummary
  by_cases off : process.mOptions.printSummaryInterval ≤ 0
  · rw [if_pos off]
  · rw [if_neg off, if_neg (fun late => due ⟨by omega, late⟩)]

/-- With metrics exported a summary that is due reports, and the report is remembered. -/
theorem printSummary_due {call : SummaryCall} (exports : process.mOptions.exportMetrics = true)
    (due : 0 < process.mOptions.printSummaryInterval ∧
      call.now > process.mLastPrintSummary + process.mOptions.printSummaryInterval * 1000000) :
    process.printSummary call =
      ({ process with
          mLastPrintSummary := call.now
          mReportNumberOfPacketsReceived :=
            call.receivedPacketsCount - process.mReportNumberOfPacketsReceived },
        some (.received (call.receivedPacketsCount - process.mReportNumberOfPacketsReceived)
          call.nSubscribers)) := by
  unfold Process.printSummary
  rw [if_neg (not_le.mpr due.1), if_pos due.2, if_pos exports]

theorem reportedPackets_eq (exports : process.mOptions.exportMetrics = true)
    (calls : List SummaryCall) :
    reportedPackets (summaryMachine.trace process calls) =
      reportsFor process.mReportNumberOfPacketsReceived
        (countsRead process.mOptions process.mLastPrintSummary calls) := by
  induction calls generalizing process with
  | nil => rfl
  | cons call calls ih =>
      have step : summaryMachine.step process call = process.printSummary call := rfl
      rw [Machine.trace_cons, step, countsRead]
      split
      case isTrue due =>
        rw [printSummary_due exports due]
        exact congrArg (_ :: ·) (ih exports)
      case isFalse early =>
        rw [printSummary_quiet early]
        exact ih exports

end Firings

section Counts
variable {stored count : Int} {counts : List Int}

/-- While the counter does not fall, no report is negative, whatever is remembered. -/
theorem reportsFor_nonneg (nonneg : 0 ≤ stored) (rises : (stored :: counts).IsChain (· ≤ ·)) :
    ∀ report ∈ reportsFor stored counts, 0 ≤ report := by
  induction counts generalizing stored with
  | nil => simp [reportsFor]
  | cons count counts ih =>
      obtain ⟨first, rest⟩ := List.isChain_cons_cons.mp rises
      rw [reportsFor, List.forall_mem_cons]
      refine ⟨by omega, ih (by omega) ?_⟩
      cases rest with
      | singleton => exact .singleton _
      | cons_cons second rest => exact .cons_cons (by omega) rest

/-- A counter value that is remembered in place of a report is only right while it is
also the first. -/
theorem reportsFor_eq_differences_iff (count : Int) (counts : List Int) :
    reportsFor count counts = differences count counts ↔
      ∀ earlier ∈ (count :: counts).dropLast.dropLast, earlier = 0 := by
  induction counts generalizing count with
  | nil => simp [reportsFor, differences]
  | cons next counts ih =>
      cases counts with
      | nil => simp [reportsFor, differences]
      | cons last counts =>
          -- the second report takes the first one from the counter, not the counter value
          have drops : (count :: next :: last :: counts).dropLast.dropLast =
              count :: (next :: last :: counts).dropLast.dropLast := rfl
          rw [drops, List.forall_mem_cons, ← ih]
          simp only [reportsFor, differences, List.cons.injEq, true_and]
          constructor
          · rintro ⟨second, rest⟩
            obtain rfl : count = 0 := by omega
            rw [sub_zero] at rest
            exact ⟨rfl, rest⟩
          · rintro ⟨rfl, rest⟩
            rw [sub_zero]
            exact ⟨rfl, rest⟩

end Counts

theorem reportedPackets_nonneg {process : Process}
    (exports : process.mOptions.exportMetrics = true)
    (starts : process.mReportNumberOfPacketsReceived = 0) {calls : List SummaryCall}
    (rises : (0 :: countsRead process.mOptions process.mLastPrintSummary calls).IsChain (· ≤ ·)) :
    ∀ report ∈ reportedPackets (summaryMachine.trace process calls), 0 ≤ report := by
  rw [reportedPackets_eq exports, starts]
  exact reportsFor_nonneg le_rfl rises

/-- The reports of a run add up exactly if every counter value but the last two is zero. -/
theorem summary_reports_add_up_iff (process : Process)
    (exports : process.mOptions.exportMetrics = true)
    (starts : process.mReportNumberOfPacketsReceived = 0) (calls : List SummaryCall)
    (rises : (0 :: countsRead process.mOptions process.mLastPrintSummary calls).IsChain (· ≤ ·)) :
    ReportsAddUp (countsRead process.mOptions process.mLastPrintSummary calls)
        (reportedPackets (summaryMachine.trace process calls)) ↔
      ∀ count ∈ (countsRead process.mOptions process.mLastPrintSummary calls).dropLast.dropLast,
        count = 0 := by
  have reports := reportedPackets_nonneg exports starts rises
  rw [reportedPackets_eq exports, starts] at reports ⊢
  generalize countsRead process.mOptions process.mLastPrintSummary calls = counts at reports ⊢
  have agree : reportsFor 0 counts = differences 0 counts ↔
      ∀ count ∈ counts.dropLast.dropLast, count = 0 := by
    cases counts with
    | nil => simp [reportsFor, differences]
    | cons first counts =>
        rw [reportsFor, differences, List.cons.injEq, sub_zero, reportsFor_eq_differences_iff]
        exact and_iff_right rfl
  rw [← agree]
  constructor
  · exact ReportsAddUp.differences
  · intro same
    refine ⟨same, ?_, reports⟩
    rw [same, sum_differences, sub_zero]

def quarterHourly (receivedPacketsCounts : List Int) : List SummaryCall :=
  receivedPacketsCounts.mapIdx (fun i receivedPacketsCount =>
    ⟨(i + 1) * 900000001, receivedPacketsCount, 1⟩)

/-- The first two reports are right. -/
theorem summary_reports_add_up_twice :
    ReportsAddUp (countsRead ⟨900, true⟩ 0 (quarterHourly [10, 25]))
      (reportedPackets (summaryMachine.trace ⟨⟨900, true⟩, 0, 0⟩ (quarterHourly [10, 25]))) :=
  (summary_reports_add_up_iff ⟨⟨900, true⟩, 0, 0⟩ rfl rfl (quarterHourly [10, 25])
    (by decide)).mpr (by decide)

/-- The third one counts the first ten packets again. -/
theorem summary_reports_drift :
    ¬ReportsAddUp (countsRead ⟨900, true⟩ 0 (quarterHourly [10, 25, 45]))
      (reportedPackets (summaryMachine.trace ⟨⟨900, true⟩, 0, 0⟩ (quarterHourly [10, 25, 45]))) := by
  intro adds
  have same := adds.differences
  revert same
  decide

end UDataPacketService
