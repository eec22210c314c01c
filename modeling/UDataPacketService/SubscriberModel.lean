import UDataPacketService.MachineRuns

/-! The subscriber that imports packets: the thread that connects and reconnects, and
`stop`, which other threads call. Every assignment, notification, load and return of a
wait is a step of its own. -/
namespace UDataPacketService

inductive RPCStatusCode where
  | ok
  | cancelled
  | unknown
  | invalidArgument
  | deadlineExceeded
  | notFound
  | alreadyExists
  | permissionDenied
  | resourceExhausted
  | failedPrecondition
  | aborted
  | outOfRange
  | unimplemented
  | internal
  | unavailable
  | dataLoss
  | unauthenticated
  deriving DecidableEq, Repr

/-- What `AsyncPacketSubscriber::await` returns of a connection. -/
structure ConnectionOutcome where
  status : RPCStatusCode
  hadSuccessfulRead : Bool
  deriving DecidableEq, Repr

/-- `SubscriberOptions`, with the reconnect schedule in milliseconds. -/
structure SubscriberOptions where
  mReconnectSchedule : List Int := [0, 5000, 15000]
  nonnegative : ∀ duration ∈ mReconnectSchedule, 0 ≤ duration := by decide
  ascending : mReconnectSchedule.Pairwise (· ≤ ·) := by decide

namespace SubscriberOptions

def setReconnectSchedule (schedule : List Int) : Except String SubscriberOptions :=
  if negative : ∃ duration ∈ schedule, duration < 0 then
    .error "At least one value in reconnect scheudle is negative"
  else .ok {
    mReconnectSchedule := schedule.insertionSort (· ≤ ·)
    nonnegative := by
      intro duration member
      rw [List.mem_insertionSort] at member
      exact not_lt.mp (fun less => negative ⟨duration, member, less⟩)
    ascending := List.pairwise_insertionSort (· ≤ ·) schedule }

def getReconnectSchedule (options : SubscriberOptions) : List Int := options.mReconnectSchedule

/-- The schedule that is set is read back in ascending order. -/
theorem perm_of_setReconnectSchedule {schedule : List Int} {options : SubscriberOptions}
    (set : setReconnectSchedule schedule = .ok options) :
    options.getReconnectSchedule.Perm schedule := by
  unfold setReconnectSchedule at set
  split at set
  · cases set
  · rw [← Except.ok.inj set]
    exact List.perm_insertionSort (· ≤ ·) schedule

end SubscriberOptions

/-- The statement of `stop` that was executed last. -/
inductive StopCall where
  | storedKeepRunning
  | assignedShutdownRequested
  | notified
  deriving DecidableEq, Repr

/-- Where `acquirePackets` is. The wait keeps what `wait_for` returned, and a
connection whether its cancellation was tried. -/
inductive AcquirePackets where
  | testsLoop (kReconnect : Int)
  | loadsBeforeWait (kReconnect : Int)
  | waits (kReconnect : Int)
  | loadsAfterWait (kReconnect : Int) (shutdown : Bool)
  | connects (kReconnect : Int)
  | awaits (kReconnect : Int) (mTryCancel : Bool)
  | loadsAfterRPC (kReconnect : Int)
  | loadsAfterLoop
  | returned
  | threw (what : String)
  | outOfRange
  deriving DecidableEq, Repr

/-- `SubscriberImpl` with the two threads that are in it. -/
structure SubscriberImpl where
  mOptions : SubscriberOptions
  mShutdownRequested : Bool := false
  mKeepRunning : Bool := true
  stop : StopCall := .storedKeepRunning
  acquirePackets : AcquirePackets := .testsLoop (-1)

inductive SubscriberEvent where
  | stop
  | acquirePackets
  | waitReturns
  | onDone (outcome : ConnectionOutcome)
  deriving DecidableEq, Repr

inductive SubscriberAction where
  | nothing
  | waitsFor (duration : Int)
  | waitReturned (shutdown : Bool)
  | startsRPC
  | triesCancel
  | finished (outcome : ConnectionOutcome)
  deriving DecidableEq, Repr

namespace SubscriberImpl

def stepStop (subscriber : SubscriberImpl) : SubscriberImpl :=
  match subscriber.stop with
  | .storedKeepRunning =>
      { subscriber with mShutdownRequested := true, stop := .assignedShutdownRequested }
  | .assignedShutdownRequested => { subscriber with stop := .notified }
  | .notified => { subscriber with mKeepRunning := false, stop := .storedKeepRunning }

/-- The size of the schedule as an `int`. -/
@[irreducible] def nReconnect (subscriber : SubscriberImpl) : Int :=
  Int.bmod subscriber.mOptions.getReconnectSchedule.length 4294967296

/-- The next step of `acquirePackets` and where it leads. -/
def nextPlace (subscriber : SubscriberImpl) : AcquirePackets × SubscriberAction :=
  match subscriber.acquirePackets with
  | .testsLoop kReconnect =>
      if kReconnect < subscriber.nReconnect then (.loadsBeforeWait kReconnect, .nothing)
      else (.loadsAfterLoop, .nothing)
  | .loadsBeforeWait kReconnect =>
      if !subscriber.mKeepRunning then (.loadsAfterLoop, .nothing)
      else if kReconnect ≥ 0 then
        match subscriber.mOptions.getReconnectSchedule[kReconnect.toNat]? with
        | none => (.outOfRange, .nothing)
        | some duration => (.waits kReconnect, .waitsFor duration)
      else (.connects kReconnect, .nothing)
  | .loadsAfterWait kReconnect _ =>
      if !subscriber.mKeepRunning then (.loadsAfterLoop, .nothing)
      else (.connects kReconnect, .nothing)
  | .connects kReconnect => (.awaits kReconnect false, .startsRPC)
  | .awaits kReconnect mTryCancel =>
      if !subscriber.mKeepRunning && !mTryCancel then (.awaits kReconnect true, .triesCancel)
      else (.awaits kReconnect mTryCancel, .nothing)
  | .loadsAfterRPC kReconnect =>
      if !subscriber.mKeepRunning then (.loadsAfterLoop, .nothing)
      else (.testsLoop (kReconnect + 1), .nothing)
  | .loadsAfterLoop =>
      if subscriber.mKeepRunning then (.threw "Premature end of subscriber thread", .nothing)
      else (.returned, .nothing)
  | .waits kReconnect => (.waits kReconnect, .nothing)
  | .returned => (.returned, .nothing)
  | .threw what => (.threw what, .nothing)
  | .outOfRange => (.outOfRange, .nothing)

/-- The return of `wait_for`, early or late, with the value of its predicate. -/
def waitReturns (subscriber : SubscriberImpl) : AcquirePackets × SubscriberAction :=
  match subscriber.acquirePackets with
  | .waits kReconnect =>
      (.loadsAfterWait kReconnect subscriber.mShutdownRequested,
        .waitReturned subscriber.mShutdownRequested)
  | place => (place, .nothing)

/-- The return of `await` with the outcome of the connection. -/
def onDone (subscriber : SubscriberImpl) (outcome : ConnectionOutcome) :
    AcquirePackets × SubscriberAction :=
  match subscriber.acquirePackets with
  | .awaits kReconnect _ =>
      let kReconnect := if outcome.hadSuccessfulRead then -1 else kReconnect
      match outcome.status with
      | .ok | .cancelled => (.loadsAfterRPC kReconnect, .finished outcome)
      | .unavailable => (.testsLoop (kReconnect + 1), .finished outcome)
      | _ => (.loadsAfterLoop, .finished outcome)
  | place => (place, .nothing)

end SubscriberImpl

def subscriberMachine : Machine SubscriberImpl SubscriberEvent SubscriberAction where
  step subscriber
    | .stop => (subscriber.stepStop, .nothing)
    | .acquirePackets =>
        ({ subscriber with acquirePackets := subscriber.nextPlace.1 }, subscriber.nextPlace.2)
    | .waitReturns =>
        ({ subscriber with acquirePackets := subscriber.waitReturns.1 }, subscriber.waitReturns.2)
    | .onDone outcome =>
        ({ subscriber with acquirePackets := (subscriber.onDone outcome).1 },
          (subscriber.onDone outcome).2)

def SubscriberImpl.start (options : SubscriberOptions) : SubscriberImpl where
  mOptions := options

def AcquirePackets.Helps : AcquirePackets → SubscriberEvent → Prop
  | .waits _, event => event = .waitReturns
  | .awaits _ _, event => ∃ outcome, event = .onDone outcome
  | _, event => event = .acquirePackets

def AcquirePackets.Ended : AcquirePackets → Prop
  | .returned | .threw _ | .outOfRange => True
  | _ => False

/-- A status other than those after which the subscriber reconnects. -/
def ConnectionOutcome.Fatal (outcome : ConnectionOutcome) : Prop :=
  outcome.status ≠ .ok ∧ outcome.status ≠ .unavailable ∧ outcome.status ≠ .cancelled

instance (outcome : ConnectionOutcome) : Decidable outcome.Fatal :=
  inferInstanceAs (Decidable (_ ∧ _))

/-- The index of the loop when a connection has ended. -/
def ConnectionOutcome.index (outcome : ConnectionOutcome) (kReconnect : Int) : Int :=
  if outcome.hadSuccessfulRead then -1 else kReconnect

inductive SubscriberImpl.Moves (subscriber : SubscriberImpl) (event : SubscriberEvent) :
    AcquirePackets → AcquirePackets → SubscriberAction → Prop where
  | stays (place : AcquirePackets) (idle : ¬place.Helps event ∨ place.Ended) :
      Moves subscriber event place place .nothing
  | entersLoop (kReconnect : Int) (more : kReconnect < subscriber.nReconnect) :
      Moves subscriber event (.testsLoop kReconnect) (.loadsBeforeWait kReconnect) .nothing
  | exhausts (kReconnect : Int) (spent : ¬kReconnect < subscriber.nReconnect) :
      Moves subscriber event (.testsLoop kReconnect) .loadsAfterLoop .nothing
  | breaksBeforeWait (kReconnect : Int) (off : subscriber.mKeepRunning = false) :
      Moves subscriber event (.loadsBeforeWait kReconnect) .loadsAfterLoop .nothing
  | leavesSchedule (kReconnect : Int) (on : subscriber.mKeepRunning = true)
      (counted : 0 ≤ kReconnect)
      (none : subscriber.mOptions.mReconnectSchedule[kReconnect.toNat]? = none) :
      Moves subscriber event (.loadsBeforeWait kReconnect) .outOfRange .nothing
  | waits (kReconnect : Int) (on : subscriber.mKeepRunning = true) (counted : 0 ≤ kReconnect)
      (duration : Int)
      (entry : subscriber.mOptions.mReconnectSchedule[kReconnect.toNat]? = some duration) :
      Moves subscriber event (.loadsBeforeWait kReconnect) (.waits kReconnect)
        (.waitsFor duration)
  | goesFirst (kReconnect : Int) (on : subscriber.mKeepRunning = true) (first : kReconnect < 0) :
      Moves subscriber event (.loadsBeforeWait kReconnect) (.connects kReconnect) .nothing
  | wakes (kReconnect : Int) :
      Moves subscriber event (.waits kReconnect)
        (.loadsAfterWait kReconnect subscriber.mShutdownRequested)
        (.waitReturned subscriber.mShutdownRequested)
  | breaksAfterWait (kReconnect : Int) (shutdown : Bool) (off : subscriber.mKeepRunning = false) :
      Moves subscriber event (.loadsAfterWait kReconnect shutdown) .loadsAfterLoop .nothing
  | goesAgain (kReconnect : Int) (shutdown : Bool) (on : subscriber.mKeepRunning = true)
      (load : event = .acquirePackets) :
      Moves subscriber event (.loadsAfterWait kReconnect shutdown) (.connects kReconnect) .nothing
  | connects (kReconnect : Int) :
      Moves subscriber event (.connects kReconnect) (.awaits kReconnect false) .startsRPC
  | cancels (kReconnect : Int) (off : subscriber.mKeepRunning = false)
      (other : ¬(AcquirePackets.awaits kReconnect false).Helps event) :
      Moves subscriber event (.awaits kReconnect false) (.awaits kReconnect true) .triesCancel
  | finishes (kReconnect : Int) (mTryCancel : Bool) (outcome : ConnectionOutcome)
      (survived : ¬outcome.Fatal) :
      Moves subscriber event (.awaits kReconnect mTryCancel)
        (.loadsAfterRPC (outcome.index kReconnect)) (.finished outcome)
  | missesServer (kReconnect : Int) (mTryCancel : Bool) (outcome : ConnectionOutcome)
      (survived : ¬outcome.Fatal) :
      Moves subscriber event (.awaits kReconnect mTryCancel)
        (.testsLoop (outcome.index kReconnect + 1)) (.finished outcome)
  | fails (kReconnect : Int) (mTryCancel : Bool) (outcome : ConnectionOutcome)
      (fatal : outcome.Fatal) :
      Moves subscriber event (.awaits kReconnect mTryCancel) .loadsAfterLoop (.finished outcome)
  | breaksAfterRPC (kReconnect : Int) (off : subscriber.mKeepRunning = false) :
      Moves subscriber event (.loadsAfterRPC kReconnect) .loadsAfterLoop .nothing
  | goesOn (kReconnect : Int) (on : subscriber.mKeepRunning = true) :
      Moves subscriber event (.loadsAfterRPC kReconnect) (.testsLoop (kReconnect + 1)) .nothing
  | throws (on : subscriber.mKeepRunning = true) :
      Moves subscriber event .loadsAfterLoop (.threw "Premature end of subscriber thread") .nothing
  | returns (off : subscriber.mKeepRunning = false) :
      Moves subscriber event .loadsAfterLoop .returned .nothing

namespace SubscriberImpl
variable (subscriber : SubscriberImpl)

theorem moves_nextPlace :
    subscriber.Moves .acquirePackets subscriber.acquirePackets subscriber.nextPlace.1
      subscriber.nextPlace.2 := by
  unfold nextPlace
  cases subscriber.acquirePackets with
  | testsLoop kReconnect =>
      simp only
      split
      · rename_i more
        exact .entersLoop kReconnect more
      · rename_i spent
        exact .exhausts kReconnect spent
  | loadsBeforeWait kReconnect =>
      simp only
      split
      · rename_i off
        exact .breaksBeforeWait kReconnect (by simpa using off)
      · rename_i running
        have on : subscriber.mKeepRunning = true := by simpa using running
        split
        · rename_i counted
          split
          · rename_i none
            exact .leavesSchedule kReconnect on counted none
          · rename_i duration entry
            exact .waits kReconnect on counted duration entry
        · rename_i first
          exact .goesFirst kReconnect on (lt_of_not_ge first)
  | waits kReconnect => exact .stays _ (.inl (by intro h; cases h))
  | loadsAfterWait kReconnect shutdown =>
      simp only
      split
      · rename_i off
        exact .breaksAfterWait kReconnect shutdown (by simpa using off)
      · rename_i on
        exact .goesAgain kReconnect shutdown (by simpa using on) rfl
  | connects kReconnect => exact .connects kReconnect
  | awaits kReconnect mTryCancel =>
      have other : ¬(AcquirePackets.awaits kReconnect mTryCancel).Helps .acquirePackets := by
        rintro ⟨outcome, same⟩
        cases same
      simp only
      split
      · rename_i off
        rw [Bool.and_eq_true, Bool.not_eq_true', Bool.not_eq_true'] at off
        obtain ⟨off, rfl⟩ := off
        exact .cancels kReconnect off other
      · exact .stays _ (.inl other)
  | loadsAfterRPC kReconnect =>
      simp only
      split
      · rename_i off
        exact .breaksAfterRPC kReconnect (by simpa using off)
      · rename_i on
        exact .goesOn kReconnect (by simpa using on)
  | loadsAfterLoop =>
      simp only
      split
      · rename_i on
        exact .throws on
      · rename_i off
        exact .returns (by simpa using off)
  | returned | threw | outOfRange => exact .stays _ (.inr trivial)

theorem moves_waitReturns :
    subscriber.Moves .waitReturns subscriber.acquirePackets subscriber.waitReturns.1
      subscriber.waitReturns.2 := by
  unfold waitReturns
  cases subscriber.acquirePackets with
  | waits kReconnect => exact .wakes kReconnect
  | returned | threw | outOfRange => exact .stays _ (.inr trivial)
  | awaits =>
      refine .stays _ (.inl ?_)
      rintro ⟨outcome, same⟩
      cases same
  | testsLoop | loadsBeforeWait | loadsAfterWait | connects | loadsAfterRPC | loadsAfterLoop =>
      exact .stays _ (.inl (by intro h; cases h))

theorem moves_onDone (outcome : ConnectionOutcome) :
    subscriber.Moves (.onDone outcome) subscriber.acquirePackets (subscriber.onDone outcome).1
      (subscriber.onDone outcome).2 := by
  unfold onDone
  cases subscriber.acquirePackets with
  | awaits kReconnect mTryCancel =>
      simp only
      split
      · rename_i ok
        exact .finishes kReconnect mTryCancel outcome (fun fatal => fatal.1 ok)
      · rename_i cancelled
        exact .finishes kReconnect mTryCancel outcome (fun fatal => fatal.2.2 cancelled)
      · rename_i unavailable
        exact .missesServer kReconnect mTryCancel outcome (fun fatal => fatal.2.1 unavailable)
      · rename_i ok cancelled unavailable
        exact .fails kReconnect mTryCancel outcome ⟨ok, unavailable, cancelled⟩
  | returned | threw | outOfRange => exact .stays _ (.inr trivial)
  | waits | testsLoop | loadsBeforeWait | loadsAfterWait | connects | loadsAfterRPC
  | loadsAfterLoop => exact .stays _ (.inl (by intro h; cases h))

end SubscriberImpl

/-- What a step changes: `stop` its flags, every other event the place of the thread. -/
theorem subscriberMachine_step (subscriber : SubscriberImpl) (event : SubscriberEvent) :
    (event = .stop ∧ subscriberMachine.step subscriber event = (subscriber.stepStop, .nothing)) ∨
      ∃ place action, subscriber.Moves event subscriber.acquirePackets place action ∧
        subscriberMachine.step subscriber event =
          ({ subscriber with acquirePackets := place }, action) := by
  cases event with
  | stop => exact .inl ⟨rfl, rfl⟩
  | acquirePackets => exact .inr ⟨_, _, subscriber.moves_nextPlace, rfl⟩
  | waitReturns => exact .inr ⟨_, _, subscriber.moves_waitReturns, rfl⟩
  | onDone outcome => exact .inr ⟨_, _, subscriber.moves_onDone outcome, rfl⟩

/-- `stop` moves no other thread and never turns the flag on. -/
theorem stepStop_cases (subscriber : SubscriberImpl) :
    subscriber.stepStop.mOptions = subscriber.mOptions ∧
      subscriber.stepStop.acquirePackets = subscriber.acquirePackets ∧
      (subscriber.mKeepRunning = false → subscriber.stepStop.mKeepRunning = false) := by
  unfold SubscriberImpl.stepStop
  split <;> exact ⟨rfl, rfl, fun off => by first | exact off | rfl⟩

def connectionOutcomes (actions : List SubscriberAction) : List ConnectionOutcome :=
  actions.filterMap (fun | .finished outcome => some outcome | _ => none)

/-- The waits since the last connection that had a successful read. -/
def waitsSinceRead (actions : List SubscriberAction) : List Int :=
  actions.foldl (fun waits action =>
    match action with
    | .waitsFor duration => waits ++ [duration]
    | .finished outcome => if outcome.hadSuccessfulRead then [] else waits
    | _ => waits) []

end UDataPacketService
