import UDataPacketService.SubscriberModel

/-! What a run of the subscriber tells about the loop of `acquirePackets`. The loop index
counts the connections since the last successful read, and the schedule is read at that
index. -/
namespace UDataPacketService

/-- After these connections a subscriber with `n` entries in its schedule gives up: the
last one was fatal, or the first `n + 1` of all or `n` behind a successful read had none. -/
def GivesUp (n : ℕ) (outcomes : List ConnectionOutcome) : Prop :=
  (∃ before last, outcomes = before ++ [last] ∧ last.Fatal) ∨
    (outcomes.length = n + 1 ∧ ∀ outcome ∈ outcomes, outcome.hadSuccessfulRead = false) ∨
    ∃ before read after, outcomes = before ++ read :: after ∧ read.hadSuccessfulRead = true ∧
      after.length = n ∧ ∀ outcome ∈ after, outcome.hadSuccessfulRead = false

def loopIndex (outcomes : List ConnectionOutcome) : Int :=
  outcomes.foldl (fun kReconnect outcome =>
    if outcome.hadSuccessfulRead then 0 else kReconnect + 1) (-1)

section LoopIndex
variable {outcomes : List ConnectionOutcome}

theorem loopIndex_concat (outcomes : List ConnectionOutcome) (outcome : ConnectionOutcome) :
    loopIndex (outcomes ++ [outcome]) =
      if outcome.hadSuccessfulRead then 0 else loopIndex outcomes + 1 := by
  rw [loopIndex, List.foldl_append]
  rfl

/-- Without a read the index counts every connection. -/
theorem loopIndex_of_unread (unread : ∀ outcome ∈ outcomes, outcome.hadSuccessfulRead = false) :
    loopIndex outcomes = outcomes.length - 1 := by
  induction outcomes using List.reverseRecOn with
  | nil => rfl
  | append_singleton outcomes outcome ih =>
      rw [loopIndex_concat, unread outcome (by simp), ih (fun o member => unread o (by simp [member])),
        List.length_append, List.length_singleton]
      push_cast
      simp

theorem loopIndex_of_read (before : List ConnectionOutcome) {read : ConnectionOutcome}
    (successful : read.hadSuccessfulRead = true) {after : List ConnectionOutcome}
    (unread : ∀ outcome ∈ after, outcome.hadSuccessfulRead = false) :
    loopIndex (before ++ read :: after) = after.length := by
  induction after using List.reverseRecOn with
  | nil => rw [loopIndex_concat, successful]; rfl
  | append_singleton after outcome ih =>
      rw [← List.cons_append, ← List.append_assoc, loopIndex_concat, unread outcome (by simp),
        ih (fun o member => unread o (by simp [member])), List.length_append, List.length_singleton]
      push_cast
      rfl

/-- Connections without a read, or split at the last read. -/
theorem unread_or_last_read (outcomes : List ConnectionOutcome) :
    (∀ outcome ∈ outcomes, outcome.hadSuccessfulRead = false) ∨
      ∃ before read after, outcomes = before ++ read :: after ∧ read.hadSuccessfulRead = true ∧
        ∀ outcome ∈ after, outcome.hadSuccessfulRead = false := by
  induction outcomes using List.reverseRecOn with
  | nil => exact .inl (fun _ member => by cases member)
  | append_singleton outcomes outcome ih =>
      cases successful : outcome.hadSuccessfulRead with
      | true =>
          exact .inr ⟨outcomes, outcome, [], rfl, successful, fun _ member => by cases member⟩
      | false =>
          rcases ih with unread | ⟨before, read, after, rfl, first, unread⟩
          · refine .inl (fun o member => ?_)
            rcases List.mem_append.mp member with old | new
            · exact unread o old
            · rw [List.mem_singleton.mp new, successful]
          · refine .inr ⟨before, read, after ++ [outcome], by simp, first, fun o member => ?_⟩
            rcases List.mem_append.mp member with old | new
            · exact unread o old
            · rw [List.mem_singleton.mp new, successful]

/-- Without a fatal status the subscriber gives up when the index reaches the size of
the schedule. -/
theorem givesUp_iff (n : ℕ) (outcomes : List ConnectionOutcome) :
    GivesUp n outcomes ↔
      (∃ before last, outcomes = before ++ [last] ∧ last.Fatal) ∨ loopIndex outcomes = n := by
  refine or_congr_right ⟨?_, fun index => ?_⟩
  · rintro (⟨length, unread⟩ | ⟨before, read, after, rfl, successful, length, unread⟩)
    · rw [loopIndex_of_unread unread, length]
      push_cast
      ring
    · rw [loopIndex_of_read before successful unread, length]
  · rcases unread_or_last_read outcomes with unread | ⟨before, read, after, rfl, successful, unread⟩
    · rw [loopIndex_of_unread unread] at index
      exact .inl ⟨by omega, unread⟩
    · rw [loopIndex_of_read before successful unread] at index
      exact .inr ⟨before, read, after, rfl, successful, by exact_mod_cast index, unread⟩

end LoopIndex

namespace SubscriberAction

/-- Neither a wait nor a connection begins or ends with the action. -/
def Idle : SubscriberAction → Prop
  | .waitsFor _ | .startsRPC | .finished _ => False
  | .nothing | .waitReturned _ | .triesCancel => True

end SubscriberAction

theorem connectionOutcomes_concat (actions : List SubscriberAction) (action : SubscriberAction) :
    connectionOutcomes (actions ++ [action]) =
      connectionOutcomes actions ++ connectionOutcomes [action] :=
  List.filterMap_append

theorem connectionOutcomes_idle (actions : List SubscriberAction) {action : SubscriberAction}
    (idle : action.Idle) :
    connectionOutcomes (actions ++ [action]) = connectionOutcomes actions := by
  rw [connectionOutcomes_concat]
  cases action with
  | waitsFor | startsRPC | finished => cases idle
  | nothing | waitReturned | triesCancel => exact List.append_nil _

theorem waitsSinceRead_concat (actions : List SubscriberAction) (action : SubscriberAction) :
    waitsSinceRead (actions ++ [action]) =
      match action with
      | .waitsFor duration => waitsSinceRead actions ++ [duration]
      | .finished outcome => if outcome.hadSuccessfulRead then [] else waitsSinceRead actions
      | _ => waitsSinceRead actions := by
  rw [waitsSinceRead, List.foldl_append]
  rfl

/-- The loop goes on at an index, after a number of waits since the last read. -/
structure InLoop (schedule : List Int) (actions : List SubscriberAction) (index waited : Int) :
    Prop where
  index : loopIndex (connectionOutcomes actions) = index
  waited : waitsSinceRead actions = schedule.take waited.toNat
  alive : ∀ outcome ∈ connectionOutcomes actions, ¬outcome.Fatal

namespace InLoop
variable {schedule : List Int} {actions : List SubscriberAction} {index waited : Int}

theorem concat (h : InLoop schedule actions index waited) {action : SubscriberAction}
    (outcomes : connectionOutcomes (actions ++ [action]) = connectionOutcomes actions)
    (waits : waitsSinceRead (actions ++ [action]) = waitsSinceRead actions) :
    InLoop schedule (actions ++ [action]) index waited :=
  ⟨by rw [outcomes, h.index], by rw [waits, h.waited], by rw [outcomes]; exact h.alive⟩

theorem concat_idle (h : InLoop schedule actions index waited) {action : SubscriberAction}
    (idle : action.Idle) : InLoop schedule (actions ++ [action]) index waited := by
  refine h.concat (connectionOutcomes_idle actions idle) ?_
  rw [waitsSinceRead_concat]
  cases action with
  | waitsFor | startsRPC | finished => cases idle
  | nothing | waitReturned | triesCancel => rfl

theorem concat_nothing (h : InLoop schedule actions index waited) :
    InLoop schedule (actions ++ [.nothing]) index waited := h.concat_idle trivial

theorem concat_startsRPC (h : InLoop schedule actions index waited) :
    InLoop schedule (actions ++ [.startsRPC]) index waited :=
  h.concat ((connectionOutcomes_concat actions _).trans (List.append_nil _))
    (waitsSinceRead_concat actions _)

theorem concat_wait {k : Int} (h : InLoop schedule actions k k) (counted : 0 ≤ k) {duration : Int}
    (entry : schedule[k.toNat]? = some duration) :
    InLoop schedule (actions ++ [.waitsFor duration]) k (k + 1) := by
  have outcomes : connectionOutcomes (actions ++ [.waitsFor duration]) =
      connectionOutcomes actions := by
    rw [connectionOutcomes_concat]
    exact List.append_nil _
  refine ⟨by rw [outcomes, h.index], ?_, by rw [outcomes]; exact h.alive⟩
  rw [waitsSinceRead_concat, h.waited, Int.toNat_add counted zero_le_one]
  change schedule.take k.toNat ++ [duration] = schedule.take (k.toNat + 1)
  rw [List.take_add_one, entry]
  rfl

theorem concat_finished {k : Int} (h : InLoop schedule actions k (k + 1))
    {outcome : ConnectionOutcome} (survived : ¬outcome.Fatal) :
    InLoop schedule (actions ++ [.finished outcome]) (outcome.index k + 1)
      (outcome.index k + 1) := by
  have outcomes : connectionOutcomes (actions ++ [.finished outcome]) =
      connectionOutcomes actions ++ [outcome] := connectionOutcomes_concat actions _
  refine ⟨?_, ?_, ?_⟩
  · rw [outcomes, loopIndex_concat, h.index, ConnectionOutcome.index]
    split <;> rfl
  · rw [waitsSinceRead_concat, h.waited, ConnectionOutcome.index]
    change (if outcome.hadSuccessfulRead then [] else _) = _
    split <;> rfl
  · rw [outcomes]
    intro o member
    rcases List.mem_append.mp member with old | new
    · exact h.alive o old
    · rw [List.mem_singleton.mp new]
      exact survived

/-- In the loop the subscriber gives up exactly at the size of the schedule. -/
theorem givesUp_iff (h : InLoop schedule actions index waited) :
    GivesUp schedule.length (connectionOutcomes actions) ↔ index = schedule.length := by
  rw [UDataPacketService.givesUp_iff, h.index]
  refine or_iff_right ?_
  rintro ⟨before, last, outcomes, fatal⟩
  exact h.alive last (by rw [outcomes]; simp) fatal

end InLoop

/-- What the actions of a run say at each place of `acquirePackets`. -/
def Place (schedule : List Int) (actions : List SubscriberAction) (mKeepRunning : Bool) :
    AcquirePackets → Prop
  | .testsLoop kReconnect =>
      InLoop schedule actions kReconnect kReconnect ∧ -1 ≤ kReconnect ∧
        kReconnect ≤ schedule.length
  | .loadsBeforeWait kReconnect =>
      InLoop schedule actions kReconnect kReconnect ∧ -1 ≤ kReconnect ∧
        kReconnect < schedule.length
  | .waits kReconnect | .loadsAfterWait kReconnect _ | .connects kReconnect
  | .awaits kReconnect _ =>
      InLoop schedule actions kReconnect (kReconnect + 1) ∧ -1 ≤ kReconnect ∧
        kReconnect < schedule.length
  | .loadsAfterRPC kReconnect =>
      InLoop schedule actions (kReconnect + 1) (kReconnect + 1) ∧ -1 ≤ kReconnect ∧
        kReconnect < schedule.length
  | .loadsAfterLoop =>
      GivesUp schedule.length (connectionOutcomes actions) ∨ mKeepRunning = false
  | .returned => mKeepRunning = false
  | .threw what =>
      what = "Premature end of subscriber thread" ∧
        GivesUp schedule.length (connectionOutcomes actions)
  | .outOfRange => False

structure SubscriberAccount (options : SubscriberOptions) (actions : List SubscriberAction)
    (subscriber : SubscriberImpl) : Prop where
  mOptions : subscriber.mOptions = options
  place : Place options.mReconnectSchedule actions subscriber.mKeepRunning
    subscriber.acquirePackets
  waits : waitsSinceRead actions <+: options.mReconnectSchedule

theorem SubscriberImpl.nReconnect_eq {subscriber : SubscriberImpl}
    (fits : subscriber.mOptions.mReconnectSchedule.length < 2147483648) :
    subscriber.nReconnect = subscriber.mOptions.mReconnectSchedule.length := by
  unfold nReconnect SubscriberOptions.getReconnectSchedule
  rw [Int.bmod_eq_emod_of_lt] <;> omega

theorem ConnectionOutcome.index_cases (outcome : ConnectionOutcome) (kReconnect : Int) :
    outcome.index kReconnect = -1 ∨ outcome.index kReconnect = kReconnect := by
  unfold index
  split
  · exact .inl rfl
  · exact .inr rfl

theorem SubscriberImpl.Moves.waits_next {subscriber : SubscriberImpl} {event : SubscriberEvent}
    {place next : AcquirePackets} {duration : Int}
    (moves : subscriber.Moves event place next (.waitsFor duration)) :
    ∃ kReconnect, next = .waits kReconnect := by
  cases moves with
  | waits kReconnect => exact ⟨kReconnect, rfl⟩

namespace Place
variable {schedule : List Int} {actions : List SubscriberAction}

theorem concat_idle {mKeepRunning next : Bool} {place : AcquirePackets}
    (h : Place schedule actions mKeepRunning place) (off : mKeepRunning = false → next = false)
    {action : SubscriberAction} (idle : action.Idle) :
    Place schedule (actions ++ [action]) next place := by
  have outcomes := connectionOutcomes_idle actions idle
  cases place with
  | testsLoop | loadsBeforeWait | waits | loadsAfterWait | connects | awaits | loadsAfterRPC =>
      exact ⟨h.1.concat_idle idle, h.2⟩
  | loadsAfterLoop =>
      rw [Place, outcomes]
      exact h.imp_right off
  | returned => exact off h
  | threw what =>
      rw [Place, outcomes]
      exact h
  | outOfRange => exact h

/-- Every move keeps the account of its place. -/
theorem moves {subscriber : SubscriberImpl} {event : SubscriberEvent} {place next : AcquirePackets}
    {action : SubscriberAction} (moves : subscriber.Moves event place next action)
    (fits : subscriber.mOptions.mReconnectSchedule.length < 2147483648)
    (h : Place subscriber.mOptions.mReconnectSchedule actions subscriber.mKeepRunning place) :
    Place subscriber.mOptions.mReconnectSchedule (actions ++ [action]) subscriber.mKeepRunning
      next := by
  have size := SubscriberImpl.nReconnect_eq fits
  cases moves with
  | stays place idle => exact h.concat_idle id trivial
  | entersLoop kReconnect more =>
      exact ⟨h.1.concat_idle trivial, h.2.1, by rw [← size]; exact more⟩
  | exhausts kReconnect spent =>
      obtain ⟨inLoop, low, high⟩ := h
      refine .inl ((inLoop.concat_nothing).givesUp_iff.mpr ?_)
      omega
  | breaksBeforeWait kReconnect off => exact .inr off
  | leavesSchedule kReconnect on counted none =>
      rw [List.getElem?_eq_none_iff] at none
      have high := h.2.2
      omega
  | waits kReconnect on counted duration entry => exact ⟨h.1.concat_wait counted entry, h.2⟩
  | goesFirst kReconnect on first =>
      obtain ⟨inLoop, low, high⟩ := h
      have further := inLoop.concat_nothing
      refine ⟨⟨further.index, ?_, further.alive⟩, low, high⟩
      rw [further.waited, Int.toNat_of_nonpos (by omega), Int.toNat_of_nonpos (by omega)]
  | wakes kReconnect => exact ⟨h.1.concat_idle trivial, h.2⟩
  | breaksAfterWait kReconnect shutdown off => exact .inr off
  | goesAgain kReconnect shutdown on load => exact ⟨h.1.concat_idle trivial, h.2⟩
  | connects kReconnect => exact ⟨h.1.concat_startsRPC, h.2⟩
  | cancels kReconnect off other => exact ⟨h.1.concat_idle trivial, h.2⟩
  | finishes kReconnect mTryCancel outcome survived
  | missesServer kReconnect mTryCancel outcome survived =>
      have bounds := outcome.index_cases kReconnect
      have low := h.2.1
      have high := h.2.2
      exact ⟨h.1.concat_finished survived, by omega, by omega⟩
  | fails kReconnect mTryCancel outcome fatal =>
      exact .inl (.inl ⟨connectionOutcomes actions, outcome, connectionOutcomes_concat _ _, fatal⟩)
  | breaksAfterRPC kReconnect off => exact .inr off
  | goesOn kReconnect on =>
      obtain ⟨inLoop, low, high⟩ := h
      exact ⟨inLoop.concat_idle trivial, by omega, by omega⟩
  | throws on =>
      have outcomes : connectionOutcomes (actions ++ [.nothing]) = connectionOutcomes actions :=
        connectionOutcomes_idle actions trivial
      refine ⟨rfl, ?_⟩
      rw [outcomes]
      exact h.resolve_right (by rw [on]; exact Bool.noConfusion)
  | returns off => exact off

end Place

theorem waits_concat {schedule : List Int} {actions : List SubscriberAction}
    {action : SubscriberAction} (waits : waitsSinceRead actions <+: schedule)
    (entry : ∀ duration, action = .waitsFor duration →
      waitsSinceRead (actions ++ [action]) <+: schedule) :
    waitsSinceRead (actions ++ [action]) <+: schedule := by
  cases action with
  | waitsFor duration => exact entry duration rfl
  | finished outcome =>
      rw [waitsSinceRead_concat]
      change (if outcome.hadSuccessfulRead then [] else _) <+: schedule
      split
      · exact List.nil_prefix
      · exact waits
  | nothing | waitReturned | startsRPC | triesCancel =>
      rw [waitsSinceRead_concat]
      exact waits

namespace SubscriberAccount
variable {options : SubscriberOptions} {actions : List SubscriberAction}
  {subscriber : SubscriberImpl}

theorem start (options : SubscriberOptions) : SubscriberAccount options [] (.start options) where
  mOptions := rfl
  place := ⟨⟨rfl, rfl, fun _ member => by cases member⟩, le_rfl,
    (neg_one_lt_zero.le).trans (Int.natCast_nonneg _)⟩
  waits := List.nil_prefix

theorem step (fits : options.mReconnectSchedule.length < 2147483648)
    (h : SubscriberAccount options actions subscriber) (event : SubscriberEvent) :
    SubscriberAccount options (actions ++ [(subscriberMachine.step subscriber event).2])
      (subscriberMachine.step subscriber event).1 := by
  obtain ⟨rfl, place, waits⟩ := h
  rcases subscriberMachine_step subscriber event with ⟨-, step⟩ | ⟨next, action, moves, step⟩
  · obtain ⟨mOptions, same, off⟩ := stepStop_cases subscriber
    rw [step]
    refine ⟨mOptions, ?_, waits_concat waits (fun _ other => by cases other)⟩
    change Place _ _ subscriber.stepStop.mKeepRunning subscriber.stepStop.acquirePackets
    rw [same]
    exact place.concat_idle off trivial
  · rw [step]
    have further := place.moves moves fits
    refine ⟨rfl, further, waits_concat waits (fun duration same => ?_)⟩
    obtain rfl := same
    obtain ⟨kReconnect, rfl⟩ := moves.waits_next
    rw [further.1.waited]
    exact List.take_prefix _ _

/-- Every run has an account. -/
theorem run (fits : options.mReconnectSchedule.length < 2147483648)
    (events : List SubscriberEvent) :
    SubscriberAccount options (subscriberMachine.trace (.start options) events)
      (subscriberMachine.run (.start options) events) :=
  subscriberMachine.history_invariant (SubscriberAccount options)
    (fun _ _ event h => h.step fits event) (start options) events

end SubscriberAccount

end UDataPacketService
