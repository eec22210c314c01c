import UDataPacketService.ReconnectPolicy

/-! Stopping the subscriber while it waits to reconnect. The wait is woken by the first
statement of `stop`, the thread goes by a flag that is stored in the last one. -/
namespace UDataPacketService

/-- A load behind a wait that ended because of `stop` finds `stop` finished. -/
def SubscriberImpl.StopsInTime (subscriber : SubscriberImpl) : SubscriberEvent → Prop
  | .acquirePackets =>
      match subscriber.acquirePackets with
      | .loadsAfterWait _ true => subscriber.mKeepRunning = false
      | _ => True
  | _ => True

theorem SubscriberImpl.StopsInTime.load {subscriber : SubscriberImpl} {event : SubscriberEvent}
    (inTime : subscriber.StopsInTime event) (loads : event = .acquirePackets) (kReconnect : Int)
    (place : subscriber.acquirePackets = .loadsAfterWait kReconnect true) :
    subscriber.mKeepRunning = false := by
  rw [loads, StopsInTime, place] at inTime
  exact inTime

theorem SubscriberImpl.StopsInTime.of_off {subscriber : SubscriberImpl} {event : SubscriberEvent}
    (off : subscriber.mKeepRunning = false) : subscriber.StopsInTime event := by
  unfold StopsInTime
  split
  · split
    · exact off
    · trivial
  · trivial

instance (subscriber : SubscriberImpl) (event : SubscriberEvent) :
    Decidable (subscriber.StopsInTime event) := by
  unfold SubscriberImpl.StopsInTime
  split
  · split <;> infer_instance
  · infer_instance

/-- After a wait that ended because of `stop`, no connection is started and the thread
does not throw. -/
def StopsBackOff (options : SubscriberOptions) (events : List SubscriberEvent) : Prop :=
  ∀ before after, events = before ++ .waitReturns :: after →
    let woken := subscriberMachine.step (subscriberMachine.run (.start options) before) .waitReturns
    woken.2 = .waitReturned true →
      .startsRPC ∉ subscriberMachine.trace woken.1 after ∧
        ∀ what, (subscriberMachine.run woken.1 after).acquirePackets ≠ .threw what

/-- After such a wait the thread returns. -/
def ReturnsFromBackOff (options : SubscriberOptions) (schedule : ℕ → SubscriberEvent) : Prop :=
  ∀ t, subscriberMachine.outputAt (.start options) schedule t = .waitReturned true →
    ∃ u, t ≤ u ∧
      (subscriberMachine.stateAt (.start options) schedule u).acquirePackets = .returned

/-- Where a thread is that was woken by `stop` and goes by its flag. -/
def Stopping (mKeepRunning : Bool) : AcquirePackets → Prop
  | .loadsAfterWait _ true => True
  | .loadsAfterLoop | .returned => mKeepRunning = false
  | _ => False

namespace Stopping
variable {subscriber : SubscriberImpl} {event : SubscriberEvent} {place next : AcquirePackets}
  {action : SubscriberAction}

theorem returned_of_ended {mKeepRunning : Bool} (h : Stopping mKeepRunning place)
    (ended : place.Ended) : place = .returned := by
  cases place with
  | returned => rfl
  | threw | outOfRange => exact absurd h id
  | testsLoop | loadsBeforeWait | waits | loadsAfterWait | connects | awaits | loadsAfterRPC
  | loadsAfterLoop => exact absurd ended id

theorem of_off {mKeepRunning off : Bool} (h : Stopping mKeepRunning place)
    (still : mKeepRunning = false → off = false) : Stopping off place := by
  unfold Stopping at h ⊢
  split at h
  · trivial
  · exact still h
  · exact still h
  · exact absurd h id

theorem moves (moves : subscriber.Moves event place next action)
    (inTime : event = .acquirePackets → ∀ kReconnect, place = .loadsAfterWait kReconnect true →
      subscriber.mKeepRunning = false)
    (h : Stopping subscriber.mKeepRunning place) :
    (Stopping subscriber.mKeepRunning next ∧ action ≠ .startsRPC) ∧
      (¬place.Ended → next.stoppedRank < place.stoppedRank ∨
        (next.stoppedRank = place.stoppedRank ∧ next.Helps = place.Helps ∧
          ¬place.Helps event)) := by
  cases moves with
  | stays place idle =>
      exact ⟨⟨h, by simp⟩, fun going => .inr ⟨rfl, rfl, idle.resolve_right going⟩⟩
  | breaksAfterWait kReconnect shutdown off => exact ⟨⟨off, by simp⟩, fun _ => .inl (Nat.lt_succ_self 1)⟩
  | goesAgain kReconnect shutdown on load =>
      cases shutdown with
      | true => exact absurd (inTime load kReconnect rfl) (by simp [on])
      | false => exact absurd h id
  | returns off => exact ⟨⟨off, by simp⟩, fun _ => .inl Nat.one_pos⟩
  | throws on => exact absurd h (by simp [Stopping, on])
  | entersLoop | exhausts | breaksBeforeWait | leavesSchedule | waits | goesFirst | wakes
  | connects | cancels | finishes | missesServer | fails | breaksAfterRPC | goesOn =>
      exact absurd h id

/-- A wait that ends because of `stop` brings the thread there. -/
theorem of_woken (moves : subscriber.Moves event place next action)
    (woken : action = .waitReturned true) (mKeepRunning : Bool) : Stopping mKeepRunning next := by
  cases moves with
  | wakes kReconnect =>
      rw [SubscriberAction.waitReturned.inj woken]
      trivial
  | stays | entersLoop | exhausts | breaksBeforeWait | leavesSchedule | waits | goesFirst
  | breaksAfterWait | goesAgain | connects | cancels | finishes | missesServer | fails
  | breaksAfterRPC | goesOn | throws | returns => cases woken

theorem step_of_woken
    (woken : (subscriberMachine.step subscriber event).2 = .waitReturned true) :
    Stopping (subscriberMachine.step subscriber event).1.mKeepRunning
      (subscriberMachine.step subscriber event).1.acquirePackets := by
  rcases subscriberMachine_step subscriber event with ⟨-, step⟩ | ⟨next, action, moves, step⟩
  · rw [step] at woken
    cases woken
  · rw [step] at woken ⊢
    exact of_woken moves woken _

/-- Every step in time keeps the thread there and starts no connection. -/
theorem step (h : Stopping subscriber.mKeepRunning subscriber.acquirePackets)
    (inTime : subscriber.StopsInTime event) :
    Stopping (subscriberMachine.step subscriber event).1.mKeepRunning
        (subscriberMachine.step subscriber event).1.acquirePackets ∧
      (subscriberMachine.step subscriber event).2 ≠ .startsRPC := by
  rcases subscriberMachine_step subscriber event with ⟨-, step⟩ | ⟨next, action, moves, step⟩
  · obtain ⟨-, same, still⟩ := stepStop_cases subscriber
    rw [step]
    refine ⟨?_, by simp⟩
    change Stopping subscriber.stepStop.mKeepRunning subscriber.stepStop.acquirePackets
    rw [same]
    exact h.of_off still
  · rw [step]
    exact (h.moves moves (inTime.load)).1

end Stopping

/-- In every run whose loads behind such a wait are in time, `stop` ends the back-off. -/
theorem stop_ends_back_off (options : SubscriberOptions) :
    (∀ events, subscriberMachine.Admissible SubscriberImpl.StopsInTime (.start options) events →
      StopsBackOff options events) ∧
    ∀ schedule, FairSchedule schedule →
      (∀ t, (subscriberMachine.stateAt (.start options) schedule t).StopsInTime (schedule t)) →
        ReturnsFromBackOff options schedule := by
  constructor
  · rintro events guards before after rfl woken output
    rw [Machine.admissible_append] at guards
    obtain ⟨-, -, guards⟩ := guards
    have start := Stopping.step_of_woken output
    constructor
    · intro started
      exact guards.outputs (fun s => Stopping s.mKeepRunning s.acquirePackets) (· ≠ .startsRPC)
        (fun _ _ h inTime => h.step inTime) start _ started rfl
    · intro what thrown
      have last := guards.invariant (fun s => Stopping s.mKeepRunning s.acquirePackets)
        (fun _ _ h inTime => (h.step inTime).1) start
      rw [thrown] at last
      exact last
  · intro schedule fair inTime t output
    have stopping : ∀ u, t + 1 ≤ u →
        Stopping (subscriberMachine.stateAt (.start options) schedule u).mKeepRunning
          (subscriberMachine.stateAt (.start options) schedule u).acquirePackets := by
      intro u later
      exact Machine.stateAt_stable
        (fun s : SubscriberImpl => Stopping s.mKeepRunning s.acquirePackets) later
        (fun v _ h => (h.step (inTime v)).1) (Stopping.step_of_woken output)
    obtain ⟨u, later, ended⟩ := eventually_ended fair AcquirePackets.stoppedRank
      (fun v since _ _ moves _ going => ((stopping v since).moves moves (inTime v).load).2 going)
    refine ⟨u, Nat.le_of_succ_le later, (stopping u later).returned_of_ended ended⟩

def eventsToBackOff : List SubscriberEvent :=
  [.acquirePackets, .acquirePackets, .acquirePackets, .onDone ⟨.unavailable, false⟩,
    .acquirePackets, .acquirePackets]

def eventsToStop : List SubscriberEvent := eventsToBackOff ++ [.stop, .waitReturns, .stop, .stop]

def stoppedInTime (t : ℕ) : SubscriberEvent :=
  if t < 10 then eventsToStop.getD t .acquirePackets
  else if t % 3 = 0 then .acquirePackets
  else if t % 3 = 1 then .waitReturns
  else .onDone ⟨.unavailable, false⟩

theorem stoppedInTime_fair : FairSchedule stoppedInTime := by
  intro place t
  have acquires : stoppedInTime (3 * t + 12) = .acquirePackets := by simp [stoppedInTime]
  cases place with
  | waits => exact ⟨3 * t + 13, by omega, by simp [stoppedInTime, AcquirePackets.Helps, Nat.add_mod]⟩
  | awaits => exact ⟨3 * t + 14, by omega, _, by simp [stoppedInTime, Nat.add_mod]; rfl⟩
  | testsLoop | loadsBeforeWait | loadsAfterWait | connects | loadsAfterRPC | loadsAfterLoop
  | returned | threw | outOfRange => exact ⟨3 * t + 12, by omega, acquires⟩

theorem stop_ends_back_off_in_time :
    StopsBackOff {} (eventsToStop ++ [.acquirePackets, .acquirePackets]) ∧
      ReturnsFromBackOff {} stoppedInTime := by
  refine ⟨(stop_ends_back_off {}).1 _ (by decide +kernel),
    (stop_ends_back_off {}).2 stoppedInTime stoppedInTime_fair (fun t => ?_)⟩
  by_cases early : t < 10
  · revert t
    decide +kernel
  · -- `stop` has stored the flag by then
    refine .of_off (off_stateAt (not_lt.mp early) ?_)
    decide +kernel

/-- The thread loads the flag before `stop` stores it, and connects again. -/
theorem back_off_connects_again :
    ¬StopsBackOff {} (eventsToBackOff ++ [.stop, .waitReturns, .acquirePackets, .acquirePackets]) := by
  intro stops
  exact (stops (eventsToBackOff ++ [.stop]) [.acquirePackets, .acquirePackets] rfl
    (by decide +kernel)).1 (by decide +kernel)

end UDataPacketService
