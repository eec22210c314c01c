import UDataPacketService.ReconnectAccount
import UDataPacketService.FairRuns

/-! The reconnect policy of the subscriber, over its finite and infinite runs beside
`stop`. It holds exactly for the schedules whose size is an `int`. -/
namespace UDataPacketService

def AcquirePackets.LeftLoop : AcquirePackets → Prop
  | .loadsAfterLoop | .returned | .threw _ | .outOfRange => True
  | _ => False

/-- The thread will not connect again, with a schedule of `n` entries. -/
def AcquirePackets.Leaving (n : ℕ) : AcquirePackets → Prop
  | .testsLoop kReconnect => n ≤ kReconnect
  | .loadsAfterRPC kReconnect => n ≤ kReconnect + 1
  | .loadsAfterLoop | .returned | .threw _ | .outOfRange => True
  | _ => False

/-- A schedule of events in which every place gets its event again and again. -/
def FairSchedule (schedule : ℕ → SubscriberEvent) : Prop :=
  ∀ (place : AcquirePackets) t, ∃ u, t ≤ u ∧ place.Helps (schedule u)

/-- The reconnect policy, over every run of the subscriber and `stop`. -/
structure KeepsReconnectPolicy (options : SubscriberOptions) : Prop where
  /-- Every access to the schedule is in range. -/
  inRange : ∀ events,
    (subscriberMachine.run (.start options) events).acquirePackets ≠ .outOfRange
  /-- The waits since a successful read are the schedule's entries from the first. -/
  waits : ∀ events,
    waitsSinceRead (subscriberMachine.trace (.start options) events) <+: options.mReconnectSchedule
  /-- While it should run, the loop only ends when the subscriber gives up. -/
  persists : ∀ events,
    let subscriber := subscriberMachine.run (.start options) events
    subscriber.mKeepRunning = true → subscriber.acquirePackets.LeftLoop →
      GivesUp options.mReconnectSchedule.length
        (connectionOutcomes (subscriberMachine.trace (.start options) events))
  /-- Once it gives up, it waits and connects no more. -/
  givesUp : ∀ events further,
    GivesUp options.mReconnectSchedule.length
        (connectionOutcomes (subscriberMachine.trace (.start options) events)) →
      ∀ action ∈ subscriberMachine.trace (subscriberMachine.run (.start options) events) further,
        action.Idle
  /-- Unless it has thrown already, it never throws when it should not run. -/
  quiet : ∀ events further what,
    let subscriber := subscriberMachine.run (.start options) events
    subscriber.mKeepRunning = false → subscriber.acquirePackets ≠ .threw what →
      (subscriberMachine.run subscriber further).acquirePackets ≠ .threw what
  /-- With finitely many successful reads it throws, or returns after it was stopped. -/
  terminates : ∀ schedule, FairSchedule schedule →
    (∃ t, ∀ u, t ≤ u → ∀ outcome,
      subscriberMachine.outputAt (.start options) schedule u = .finished outcome →
        outcome.hadSuccessfulRead = false) →
    ∃ t, let subscriber := subscriberMachine.stateAt (.start options) schedule t
      subscriber.acquirePackets = .threw "Premature end of subscriber thread" ∨
        (subscriber.acquirePackets = .returned ∧ subscriber.mKeepRunning = false)
  /-- Once it should not run, it returns. -/
  returns : ∀ schedule, FairSchedule schedule → ∀ t,
    let subscriber := subscriberMachine.stateAt (.start options) schedule t
    subscriber.mKeepRunning = false → (∀ what, subscriber.acquirePackets ≠ .threw what) →
      ∃ u, t ≤ u ∧
        (subscriberMachine.stateAt (.start options) schedule u).acquirePackets = .returned

section Policy
variable {subscriber : SubscriberImpl} {event : SubscriberEvent} {place next : AcquirePackets}
  {action : SubscriberAction}

theorem Place.leaving {schedule : List Int} {actions : List SubscriberAction} {mKeepRunning : Bool}
    (h : Place schedule actions mKeepRunning place)
    (givesUp : GivesUp schedule.length (connectionOutcomes actions)) :
    place.Leaving schedule.length := by
  cases place with
  | testsLoop | loadsAfterRPC => exact (h.1.givesUp_iff.mp givesUp).ge
  | loadsBeforeWait | waits | loadsAfterWait | connects | awaits =>
      exact absurd (h.1.givesUp_iff.mp givesUp) h.2.2.ne
  | loadsAfterLoop | returned | threw | outOfRange => trivial

theorem Place.ended {schedule : List Int} {actions : List SubscriberAction} {mKeepRunning : Bool}
    (h : Place schedule actions mKeepRunning place) (ended : place.Ended) :
    place = .threw "Premature end of subscriber thread" ∨
      (place = .returned ∧ mKeepRunning = false) := by
  cases place with
  | threw what => exact .inl (congrArg AcquirePackets.threw h.1)
  | returned => exact .inr ⟨rfl, h⟩
  | outOfRange => exact absurd h id
  | testsLoop | loadsBeforeWait | waits | loadsAfterWait | connects | awaits | loadsAfterRPC
  | loadsAfterLoop => exact absurd ended id

theorem AcquirePackets.Leaving.moves (moves : subscriber.Moves event place next action)
    (fits : subscriber.mOptions.mReconnectSchedule.length < 2147483648)
    (leaving : place.Leaving subscriber.mOptions.mReconnectSchedule.length) :
    next.Leaving subscriber.mOptions.mReconnectSchedule.length ∧ action.Idle := by
  have size := SubscriberImpl.nReconnect_eq fits
  cases moves with
  | stays place idle => exact ⟨leaving, trivial⟩
  | entersLoop kReconnect more =>
      rw [size] at more
      exact absurd leaving (not_le_of_gt more)
  | goesOn kReconnect on => exact ⟨leaving, trivial⟩
  | exhausts | breaksAfterRPC | throws | returns => exact ⟨trivial, trivial⟩
  | breaksBeforeWait | leavesSchedule | waits | goesFirst | wakes | breaksAfterWait | goesAgain
  | connects | cancels | finishes | missesServer | fails => exact absurd leaving id

def AcquirePackets.rank (n : ℕ) : AcquirePackets → ℕ
  | .testsLoop kReconnect => 8 * (n - kReconnect).toNat + 2
  | .loadsBeforeWait kReconnect => 8 * (n - kReconnect).toNat + 1
  | .waits kReconnect => 8 * (n - kReconnect).toNat
  | .loadsAfterWait kReconnect _ => 8 * (n - kReconnect).toNat - 1
  | .connects kReconnect => 8 * (n - kReconnect).toNat - 2
  | .awaits kReconnect _ => 8 * (n - kReconnect).toNat - 3
  | .loadsAfterRPC kReconnect => 8 * (n - kReconnect).toNat - 4
  | .loadsAfterLoop => 1
  | .returned | .threw _ | .outOfRange => 0

def AcquirePackets.stoppedRank : AcquirePackets → ℕ
  | .connects _ => 5
  | .awaits _ _ => 4
  | .testsLoop _ | .waits _ => 3
  | .loadsBeforeWait _ | .loadsAfterWait _ _ | .loadsAfterRPC _ => 2
  | .loadsAfterLoop => 1
  | .returned | .threw _ | .outOfRange => 0

theorem AcquirePackets.not_helps_stop (place : AcquirePackets) : ¬place.Helps .stop := by
  cases place with
  | awaits =>
      rintro ⟨outcome, same⟩
      cases same
  | testsLoop | loadsBeforeWait | waits | loadsAfterWait | connects | loadsAfterRPC
  | loadsAfterLoop | returned | threw | outOfRange =>
      intro same
      cases same

/-- Without a read every move lowers the rank, or is no step of the thread. -/
theorem Place.rank_moves {schedule : List Int} {actions : List SubscriberAction}
    {mKeepRunning : Bool} (h : Place schedule actions mKeepRunning place)
    (moves : subscriber.Moves event place next action)
    (unread : ∀ outcome, action = .finished outcome → outcome.hadSuccessfulRead = false)
    (going : ¬place.Ended) :
    next.rank schedule.length < place.rank schedule.length ∨
      (next.rank schedule.length = place.rank schedule.length ∧ next.Helps = place.Helps ∧
        ¬place.Helps event) := by
  cases moves with
  | stays place idle => exact .inr ⟨rfl, rfl, idle.resolve_right going⟩
  | cancels kReconnect off other => exact .inr ⟨rfl, rfl, other⟩
  | finishes kReconnect mTryCancel outcome survived
  | missesServer kReconnect mTryCancel outcome survived =>
      have high := h.2.2
      simp only [ConnectionOutcome.index, unread outcome rfl, AcquirePackets.rank]
      simp only [Bool.false_eq_true, if_false]
      omega
  | breaksBeforeWait | waits | goesFirst | wakes | breaksAfterWait | goesAgain | connects | fails
  | breaksAfterRPC | goesOn =>
      have high := h.2.2
      simp only [AcquirePackets.rank]
      omega
  | entersLoop | exhausts | leavesSchedule | throws | returns =>
      simp only [AcquirePackets.rank]
      omega

theorem stoppedRank_moves (moves : subscriber.Moves event place next action)
    (off : subscriber.mKeepRunning = false) (going : ¬place.Ended) :
    next.stoppedRank < place.stoppedRank ∨
      (next.stoppedRank = place.stoppedRank ∧ next.Helps = place.Helps ∧ ¬place.Helps event) := by
  cases moves with
  | stays place idle => exact .inr ⟨rfl, rfl, idle.resolve_right going⟩
  | cancels kReconnect off other => exact .inr ⟨rfl, rfl, other⟩
  | leavesSchedule _ on | waits _ on | goesFirst _ on | goesAgain _ _ on | goesOn _ on | throws on =>
      rw [off] at on
      cases on
  | entersLoop | exhausts | breaksBeforeWait | wakes | breaksAfterWait | connects | finishes
  | missesServer | fails | breaksAfterRPC | returns =>
      simp only [AcquirePackets.stoppedRank]
      omega

theorem moves_ne_threw (moves : subscriber.Moves event place next action)
    (off : subscriber.mKeepRunning = false) {what : String} (calm : place ≠ .threw what) :
    next ≠ .threw what := by
  cases moves with
  | stays => exact calm
  | throws on =>
      rw [off] at on
      cases on
  | entersLoop | exhausts | breaksBeforeWait | leavesSchedule | waits | goesFirst | wakes
  | breaksAfterWait | goesAgain | connects | cancels | finishes | missesServer | fails
  | breaksAfterRPC | goesOn | returns =>
      intro same
      cases same

end Policy

section Schedules
variable {options : SubscriberOptions} {schedule : ℕ → SubscriberEvent}

theorem SubscriberAccount.stateAt (fits : options.mReconnectSchedule.length < 2147483648)
    (schedule : ℕ → SubscriberEvent) (t : ℕ) :
    ∃ actions, SubscriberAccount options actions
      (subscriberMachine.stateAt (.start options) schedule t) := by
  rw [Machine.stateAt_eq_run]
  exact ⟨_, SubscriberAccount.run fits _⟩

/-- A rank that every move of the thread lowers leads a fair schedule to its end. -/
theorem eventually_ended (fair : FairSchedule schedule) (rank : AcquirePackets → ℕ) {start : ℕ}
    (lowers : ∀ t, start ≤ t → ∀ next action,
      let subscriber := subscriberMachine.stateAt (.start options) schedule t
      subscriber.Moves (schedule t) subscriber.acquirePackets next action →
      subscriberMachine.outputAt (.start options) schedule t = action →
      ¬subscriber.acquirePackets.Ended →
        rank next < rank subscriber.acquirePackets ∨
          (rank next = rank subscriber.acquirePackets ∧
            next.Helps = subscriber.acquirePackets.Helps ∧
            ¬subscriber.acquirePackets.Helps (schedule t))) :
    ∃ t, start ≤ t ∧
      (subscriberMachine.stateAt (.start options) schedule t).acquirePackets.Ended := by
  have progress : ∀ t, start ≤ t →
      Machine.RankProgress (fun s : SubscriberImpl => s.acquirePackets.Ended)
        (fun s => rank s.acquirePackets) (fun s => s.acquirePackets.Helps)
        (subscriberMachine.stateAt (.start options) schedule t)
        (subscriberMachine.stateAt (.start options) schedule (t + 1)) (schedule t) := by
    intro t later going
    have lower := lowers t later
    rw [Machine.stateAt_succ]
    rw [Machine.outputAt] at lower
    generalize subscriberMachine.stateAt (.start options) schedule t = subscriber at going lower ⊢
    rcases subscriberMachine_step subscriber (schedule t) with
      ⟨stop, step⟩ | ⟨next, action, moves, step⟩
    · have same := (stepStop_cases subscriber).2.1
      rw [step, stop]
      exact .inr ⟨congrArg rank same, congrArg AcquirePackets.Helps same,
        subscriber.acquirePackets.not_helps_stop⟩
    · rw [step] at lower ⊢
      exact lower next action moves rfl going
  exact Machine.eventually_of_rank (fun s t => fair s.acquirePackets t) progress

theorem idle_of_leaving (fits : options.mReconnectSchedule.length < 2147483648)
    {subscriber : SubscriberImpl} (same : subscriber.mOptions = options)
    (leaving : subscriber.acquirePackets.Leaving options.mReconnectSchedule.length)
    (events : List SubscriberEvent) :
    ∀ action ∈ subscriberMachine.trace subscriber events, action.Idle := by
  refine (subscriberMachine.history_invariant
    (fun actions subscriber => (subscriber.mOptions = options ∧
      subscriber.acquirePackets.Leaving options.mReconnectSchedule.length) ∧
        ∀ action ∈ actions, action.Idle) ?_
    ⟨⟨same, leaving⟩, fun _ member => by cases member⟩ events).2
  rintro actions subscriber event ⟨⟨rfl, leaving⟩, idle⟩
  have further : ∀ {action : SubscriberAction}, action.Idle →
      ∀ other ∈ actions ++ [action], other.Idle := by
    intro action quiet other member
    rcases List.mem_append.mp member with old | new
    · exact idle other old
    · rw [List.mem_singleton.mp new]
      exact quiet
  rcases subscriberMachine_step subscriber event with ⟨-, step⟩ | ⟨next, action, moves, step⟩
  · obtain ⟨mOptions, same, -⟩ := stepStop_cases subscriber
    rw [step]
    exact ⟨⟨mOptions, by rw [same]; exact leaving⟩, further trivial⟩
  · obtain ⟨leaves, quiet⟩ := leaving.moves moves fits
    rw [step]
    exact ⟨⟨rfl, leaves⟩, further quiet⟩

/-- A fair schedule with finitely many reads ends the thread. -/
theorem ended_of_finitely_many_reads (fits : options.mReconnectSchedule.length < 2147483648)
    (fair : FairSchedule schedule) {start : ℕ}
    (unread : ∀ u, start ≤ u → ∀ outcome,
      subscriberMachine.outputAt (.start options) schedule u = .finished outcome →
        outcome.hadSuccessfulRead = false) :
    ∃ t, start ≤ t ∧
      (subscriberMachine.stateAt (.start options) schedule t).acquirePackets.Ended := by
  apply eventually_ended fair (AcquirePackets.rank options.mReconnectSchedule.length)
  intro t later next action subscriber moves output going
  obtain ⟨actions, account⟩ := SubscriberAccount.stateAt fits schedule t
  exact account.place.rank_moves moves
    (fun outcome same => unread t later outcome (output.trans same)) going

theorem off_step {subscriber : SubscriberImpl} (off : subscriber.mKeepRunning = false)
    (event : SubscriberEvent) :
    (subscriberMachine.step subscriber event).1.mKeepRunning = false := by
  rcases subscriberMachine_step subscriber event with ⟨-, step⟩ | ⟨next, action, -, step⟩
  · rw [step]
    exact (stepStop_cases subscriber).2.2 off
  · rw [step]
    exact off

theorem calm_step {subscriber : SubscriberImpl} (off : subscriber.mKeepRunning = false)
    {what : String} (calm : subscriber.acquirePackets ≠ .threw what) (event : SubscriberEvent) :
    (subscriberMachine.step subscriber event).1.acquirePackets ≠ .threw what := by
  rcases subscriberMachine_step subscriber event with ⟨-, step⟩ | ⟨next, action, moves, step⟩
  · rw [step]
    exact ((stepStop_cases subscriber).2.1).trans_ne calm
  · rw [step]
    exact moves_ne_threw moves off calm

theorem off_stateAt {t u : ℕ} (later : t ≤ u)
    (off : (subscriberMachine.stateAt (.start options) schedule t).mKeepRunning = false) :
    (subscriberMachine.stateAt (.start options) schedule u).mKeepRunning = false :=
  Machine.stateAt_stable (fun s : SubscriberImpl => s.mKeepRunning = false) later
    (fun _ _ off => off_step off _) off

theorem calm_stateAt {t u : ℕ} (later : t ≤ u)
    (off : (subscriberMachine.stateAt (.start options) schedule t).mKeepRunning = false)
    {what : String}
    (calm : (subscriberMachine.stateAt (.start options) schedule t).acquirePackets ≠ .threw what) :
    (subscriberMachine.stateAt (.start options) schedule u).acquirePackets ≠ .threw what :=
  Machine.stateAt_stable (fun s : SubscriberImpl => s.acquirePackets ≠ .threw what) later
    (fun _ since calm => calm_step (off_stateAt since off) calm _) calm

theorem ended_of_off (fair : FairSchedule schedule) {start : ℕ}
    (off : (subscriberMachine.stateAt (.start options) schedule start).mKeepRunning = false) :
    ∃ t, start ≤ t ∧
      (subscriberMachine.stateAt (.start options) schedule t).acquirePackets.Ended := by
  apply eventually_ended fair AcquirePackets.stoppedRank
  intro t later next action subscriber moves output going
  exact stoppedRank_moves moves (off_stateAt later off) going

end Schedules

/-- A subscriber whose schedule has an `int` size keeps the policy. -/
theorem keepsReconnectPolicy_of_fits {options : SubscriberOptions}
    (fits : options.mReconnectSchedule.length < 2147483648) : KeepsReconnectPolicy options where
  inRange events out := by
    have place := (SubscriberAccount.run fits events).place
    rw [out] at place
    exact place
  waits events := (SubscriberAccount.run fits events).waits
  persists := by
    intro events subscriber on left
    have place : Place _ _ subscriber.mKeepRunning subscriber.acquirePackets :=
      (SubscriberAccount.run fits events).place
    rw [on] at place
    generalize subscriber.acquirePackets = at_ at left place
    cases at_ with
    | loadsAfterLoop => exact place.resolve_right Bool.noConfusion
    | returned => exact absurd place Bool.noConfusion
    | threw what => exact place.2
    | outOfRange => exact absurd place id
    | testsLoop | loadsBeforeWait | waits | loadsAfterWait | connects | awaits | loadsAfterRPC =>
        exact absurd left id
  givesUp := by
    intro events further givesUp
    have account := SubscriberAccount.run fits events
    have leaving := account.place.leaving givesUp
    exact idle_of_leaving fits account.mOptions leaving further
  quiet := by
    intro events further what subscriber off calm
    exact (subscriberMachine.run_invariant
      (fun s => s.mKeepRunning = false ∧ s.acquirePackets ≠ .threw what)
      (fun s event h => ⟨off_step h.1 event, calm_step h.1 h.2 event⟩) ⟨off, calm⟩ further).2
  terminates := by
    rintro schedule fair ⟨start, unread⟩
    obtain ⟨t, -, ended⟩ := ended_of_finitely_many_reads fits fair unread
    obtain ⟨actions, account⟩ := SubscriberAccount.stateAt fits schedule t
    exact ⟨t, account.place.ended ended⟩
  returns := by
    intro schedule fair t subscriber off calm
    obtain ⟨u, later, ended⟩ := ended_of_off fair off
    obtain ⟨actions, account⟩ := SubscriberAccount.stateAt fits schedule u
    refine ⟨u, later, ?_⟩
    rcases account.place.ended ended with thrown | ⟨returned, -⟩
    · exact absurd thrown (calm_stateAt later off (calm _))
    · exact returned

theorem SubscriberImpl.nReconnect_congr {s t : SubscriberImpl} (same : s.mOptions = t.mOptions) :
    s.nReconnect = t.nReconnect := by
  unfold nReconnect
  rw [same]

def SubscriberImpl.running (options : SubscriberOptions) (place : AcquirePackets) :
    SubscriberImpl where
  mOptions := options
  acquirePackets := place

/-- The events of one round of the loop with a server that is not there. -/
def missedRound : List SubscriberEvent :=
  [.acquirePackets, .acquirePackets, .waitReturns, .acquirePackets, .acquirePackets,
    .onDone ⟨.unavailable, false⟩]

section MissedRound
variable {options : SubscriberOptions} {kReconnect : Int}

theorem step_running (place : AcquirePackets) :
    subscriberMachine.step (.running options place) .acquirePackets =
      (.running options (SubscriberImpl.running options place).nextPlace.1,
        (SubscriberImpl.running options place).nextPlace.2) := rfl

theorem step_testsLoop
    (more : kReconnect < (SubscriberImpl.running options (.testsLoop kReconnect)).nReconnect) :
    subscriberMachine.step (.running options (.testsLoop kReconnect)) .acquirePackets =
      (.running options (.loadsBeforeWait kReconnect), .nothing) := by
  have next : (SubscriberImpl.running options (.testsLoop kReconnect)).nextPlace =
      (.loadsBeforeWait kReconnect, .nothing) := if_pos more
  rw [step_running, next]

theorem step_spent
    (spent : ¬kReconnect < (SubscriberImpl.running options (.testsLoop kReconnect)).nReconnect) :
    subscriberMachine.step (.running options (.testsLoop kReconnect)) .acquirePackets =
      (.running options .loadsAfterLoop, .nothing) := by
  have next : (SubscriberImpl.running options (.testsLoop kReconnect)).nextPlace =
      (.loadsAfterLoop, .nothing) := if_neg spent
  rw [step_running, next]

theorem run_missedRound
    (more : kReconnect < (SubscriberImpl.running options (.testsLoop kReconnect)).nReconnect)
    (inRange : kReconnect < options.mReconnectSchedule.length) :
    subscriberMachine.run (.running options (.testsLoop kReconnect)) missedRound =
        .running options (.testsLoop (kReconnect + 1)) ∧
      connectionOutcomes
          (subscriberMachine.trace (.running options (.testsLoop kReconnect)) missedRound) =
        [⟨.unavailable, false⟩] := by
  rw [missedRound, Machine.run_cons, Machine.trace_cons, step_testsLoop more]
  by_cases counted : 0 ≤ kReconnect
  · have entry := List.getElem?_eq_getElem (l := options.mReconnectSchedule)
      (i := kReconnect.toNat) (by omega)
    constructor
    · simp [subscriberMachine, SubscriberImpl.running, SubscriberImpl.nextPlace, counted, entry,
        SubscriberImpl.waitReturns, SubscriberImpl.onDone, SubscriberOptions.getReconnectSchedule]
    · simp [subscriberMachine, SubscriberImpl.running, SubscriberImpl.nextPlace, counted, entry,
        SubscriberImpl.waitReturns, SubscriberImpl.onDone, SubscriberOptions.getReconnectSchedule,
        connectionOutcomes]
  · constructor
    · simp [subscriberMachine, SubscriberImpl.running, SubscriberImpl.nextPlace, counted,
        SubscriberImpl.waitReturns, SubscriberImpl.onDone]
    · simp [subscriberMachine, SubscriberImpl.running, SubscriberImpl.nextPlace, counted,
        SubscriberImpl.waitReturns, SubscriberImpl.onDone, connectionOutcomes]

end MissedRound

theorem run_missedRounds (options : SubscriberOptions) (rounds : ℕ)
    (more : (rounds : Int) - 1 ≤ (SubscriberImpl.start options).nReconnect ∨ rounds = 0)
    (inRange : rounds ≤ options.mReconnectSchedule.length) :
    ∃ events,
      subscriberMachine.run (.start options) events =
          .running options (.testsLoop (rounds - 1)) ∧
        connectionOutcomes (subscriberMachine.trace (.start options) events) =
          List.replicate rounds ⟨.unavailable, false⟩ := by
  induction rounds with
  | zero => exact ⟨[], rfl, rfl⟩
  | succ rounds ih =>
      have size : (SubscriberImpl.running options (.testsLoop (rounds - 1))).nReconnect =
          (SubscriberImpl.start options).nReconnect := SubscriberImpl.nReconnect_congr rfl
      obtain ⟨events, reached, outcomes⟩ := ih (by omega) (by omega)
      obtain ⟨next, outcome⟩ := @run_missedRound options (rounds - 1)
        (by rw [size]; omega) (by omega)
      refine ⟨events ++ missedRound, ?_, ?_⟩
      · rw [Machine.run_append, reached, next]
        congr 2
        omega
      · rw [Machine.trace_append, reached, connectionOutcomes, List.filterMap_append]
        rw [connectionOutcomes] at outcomes outcome
        rw [outcomes, outcome, List.replicate_succ']

/-- A subscriber whose schedule is too long for an `int` stops early. -/
theorem not_keepsReconnectPolicy_of_long {options : SubscriberOptions}
    (long : 2147483648 ≤ options.mReconnectSchedule.length) : ¬KeepsReconnectPolicy options := by
  intro policy
  have small : (SubscriberImpl.start options).nReconnect < 2147483648 := by
    unfold SubscriberImpl.nReconnect
    exact Int.bmod_lt (by decide)
  generalize size : (SubscriberImpl.start options).nReconnect = nReconnect at small
  obtain ⟨events, reached, outcomes⟩ := run_missedRounds options (nReconnect + 1).toNat
    (by rw [size]; omega) (by omega)
  have same : (SubscriberImpl.running options
      (.testsLoop ((nReconnect + 1).toNat - 1))).nReconnect = nReconnect := by
    rw [← size]
    exact SubscriberImpl.nReconnect_congr rfl
  -- the loop is left behind the last round although the schedule has more entries
  have last := @step_spent options ((nReconnect + 1).toNat - 1) (by rw [same]; omega)
  have left : subscriberMachine.run (.start options) (events ++ [.acquirePackets]) =
      .running options .loadsAfterLoop := by
    rw [Machine.run_concat, reached, last]
  have all : connectionOutcomes
      (subscriberMachine.trace (.start options) (events ++ [.acquirePackets])) =
        List.replicate (nReconnect + 1).toNat ⟨.unavailable, false⟩ := by
    rw [Machine.trace_concat, reached, last, ← outcomes]
    exact connectionOutcomes_idle _ trivial
  have givesUp := policy.persists (events ++ [.acquirePackets])
  simp only [left, all] at givesUp
  rcases (givesUp_iff _ _).mp (givesUp rfl trivial) with ⟨before, last, same, fatal⟩ | index
  · have member : last ∈ List.replicate (nReconnect + 1).toNat
        (⟨.unavailable, false⟩ : ConnectionOutcome) := by
      rw [same]
      simp
    rw [List.eq_of_mem_replicate member] at fatal
    exact fatal.2.1 rfl
  · rw [loopIndex_of_unread, List.length_replicate] at index
    · omega
    · intro outcome member
      rw [List.eq_of_mem_replicate member]

/-- The policy is kept exactly with schedules whose size is an `int`. -/
theorem reconnect_policy_iff (options : SubscriberOptions) :
    KeepsReconnectPolicy options ↔ options.mReconnectSchedule.length < 2147483648 :=
  ⟨fun policy => not_le.mp (fun long => not_keepsReconnectPolicy_of_long long policy),
    keepsReconnectPolicy_of_fits⟩

def longSchedule : SubscriberOptions where
  mReconnectSchedule := List.replicate 2147483648 0
  nonnegative := fun _ member => (List.eq_of_mem_replicate member).ge
  ascending := List.pairwise_replicate.mpr (.inr le_rfl)

/-- The subscriber never connects. -/
theorem long_schedule_gives_up_at_once : ¬KeepsReconnectPolicy longSchedule :=
  not_keepsReconnectPolicy_of_long (List.length_replicate).ge

end UDataPacketService
