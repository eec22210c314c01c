import UDataPacketService.ReaderProtocol
import UDataPacketService.ReconnectPolicy

/-! The subscriber with its RPC after `stop` has cleared the flag. The thread in `await`
or `OnReadDone` cancels the RPC, gRPC answers the read that is still outstanding and ends
the RPC, and the thread leaves its loop. -/
namespace UDataPacketService

def Await.rankToReturn : Await → ℕ
  | .testsDone => 1
  | .waits => 2
  | .cancels => 3
  | .storesTryCancel => 4
  | .loadsTryCancel => 5
  | .loadsKeepRunning => 6

def Await.rankToCancel : Await → ℕ
  | .cancels => 1
  | .storesTryCancel => 2
  | .loadsTryCancel => 3
  | .loadsKeepRunning => 4
  | .testsDone => 5
  | .waits => 6

def Await.Helps : Await → RPCEvent → Prop
  | .waits, event => event = .waitReturns
  | _, event => event = .await

theorem Await.Helps.own {place : Await} {event : RPCEvent} (helps : place.Helps event) :
    (place = .waits ∧ event = .waitReturns) ∨ (place ≠ .waits ∧ event = .await) := by
  cases place with
  | waits => exact .inl ⟨rfl, helps⟩
  | testsDone | loadsKeepRunning | loadsTryCancel | storesTryCancel | cancels =>
      exact .inr ⟨by simp, helps⟩

/-- How far `OnReadDone` is from its return, with a new read as the longest way. -/
def OnReadDone.rank : OnReadDone → ℕ
  | .returned => 0
  | .cancels => 12
  | .storesTryCancel => 13
  | .loadsTryCancel => 14
  | .loadsKeepRunning _ => 15
  | .addsPacket _ => 16
  | .startsRead => 30

namespace AsyncPacketSubscriber

/-- gRPC will end the RPC: a read has failed or it was cancelled. -/
def Over (subscriber : AsyncPacketSubscriber) : Prop :=
  subscriber.readFailed = true ∨ 0 < subscriber.cancels

instance (subscriber : AsyncPacketSubscriber) : Decidable subscriber.Over :=
  inferInstanceAs (Decidable (_ ∨ _))

def stoppedRank (subscriber : AsyncPacketSubscriber) : ℕ :=
  if subscriber.mStatus ≠ none then subscriber.await.rankToReturn
  else if subscriber.onReadDone ≠ .returned then subscriber.onReadDone.rank
  else if subscriber.reading then
    if 0 < subscriber.cancels then 20 else 20 + subscriber.await.rankToCancel
  else if subscriber.Over then 10 else 11

def Helps (subscriber : AsyncPacketSubscriber) (event : RPCEvent) : Prop :=
  if subscriber.mStatus ≠ none then subscriber.await.Helps event
  else if subscriber.onReadDone ≠ .returned then event = .reactor
  else if subscriber.reading then
    if 0 < subscriber.cancels then ∃ read, event = .onReadDone read
    else subscriber.await.Helps event
  else if subscriber.Over then ∃ status, event = .onDone status
  else event = .await

def Enabled (subscriber : AsyncPacketSubscriber) : RPCEvent → Prop
  | .await => subscriber.await ≠ .waits
  | .waitReturns => subscriber.await = .waits
  | .onReadDone _ => subscriber.reading = true ∧ subscriber.onReadDone = .returned
  | .reactor => subscriber.onReadDone ≠ .returned
  | .onDone _ => subscriber.reading = false ∧ subscriber.onReadDone = .returned ∧
      subscriber.mStatus = none

theorem stoppedRank_le (subscriber : AsyncPacketSubscriber) : subscriber.stoppedRank ≤ 30 := by
  have returns : subscriber.await.rankToReturn ≤ 6 := by
    cases subscriber.await <;> simp [Await.rankToReturn]
  have cancels : subscriber.await.rankToCancel ≤ 6 := by
    cases subscriber.await <;> simp [Await.rankToCancel]
  have callback : subscriber.onReadDone.rank ≤ 30 := by
    cases subscriber.onReadDone <;> simp [OnReadDone.rank]
  unfold stoppedRank
  split
  · omega
  · split
    · omega
    · split
      · split <;> omega
      · split <;> omega

/-- What an RPC that should end waits for, with its rank and the events that help. -/
inductive Phase (subscriber : AsyncPacketSubscriber) : ℕ → (RPCEvent → Prop) → Prop where
  | ended (done : subscriber.mStatus ≠ none) :
      Phase subscriber subscriber.await.rankToReturn subscriber.await.Helps
  | callback (going : subscriber.mStatus = none) (runs : subscriber.onReadDone ≠ .returned) :
      Phase subscriber subscriber.onReadDone.rank (· = .reactor)
  | reads (going : subscriber.mStatus = none) (idle : subscriber.onReadDone = .returned)
      (reading : subscriber.reading = true) (uncancelled : ¬0 < subscriber.cancels) :
      Phase subscriber (20 + subscriber.await.rankToCancel) subscriber.await.Helps
  | cancelled (going : subscriber.mStatus = none) (idle : subscriber.onReadDone = .returned)
      (reading : subscriber.reading = true) (cancelled : 0 < subscriber.cancels) :
      Phase subscriber 20 (fun event => ∃ read, event = .onReadDone read)
  | ending (going : subscriber.mStatus = none) (idle : subscriber.onReadDone = .returned)
      (quiet : subscriber.reading = false) (over_ : subscriber.Over) :
      Phase subscriber 10 (fun event => ∃ status, event = .onDone status)
  | cancels (going : subscriber.mStatus = none) (idle : subscriber.onReadDone = .returned)
      (quiet : subscriber.reading = false) (on : ¬subscriber.Over) :
      Phase subscriber 11 (· = .await)

theorem Phase.eq {subscriber : AsyncPacketSubscriber} {rank : ℕ} {helps : RPCEvent → Prop}
    (h : subscriber.Phase rank helps) :
    subscriber.stoppedRank = rank ∧ subscriber.Helps = helps := by
  cases h with
  | ended done =>
      refine ⟨by simp [stoppedRank, done], ?_⟩
      funext event
      simp [Helps, done]
  | callback going runs =>
      refine ⟨by simp [stoppedRank, going, runs], ?_⟩
      funext event
      simp [Helps, going, runs]
  | reads going idle reading known | cancelled going idle reading known
  | ending going idle reading known | cancels going idle reading known =>
      refine ⟨by simp [stoppedRank, going, idle, reading, known], ?_⟩
      funext event
      simp [Helps, going, idle, reading, known]

theorem phase (subscriber : AsyncPacketSubscriber) :
    subscriber.Phase subscriber.stoppedRank subscriber.Helps := by
  have known {rank : ℕ} {helps : RPCEvent → Prop} (h : subscriber.Phase rank helps) :
      subscriber.Phase subscriber.stoppedRank subscriber.Helps := by
    rw [h.eq.1, h.eq.2]
    exact h
  by_cases done : subscriber.mStatus ≠ none
  · exact known (.ended done)
  · have going := not_not.mp done
    by_cases runs : subscriber.onReadDone ≠ .returned
    · exact known (.callback going runs)
    · have idle := not_not.mp runs
      cases reading : subscriber.reading with
      | true =>
          by_cases cancelled : 0 < subscriber.cancels
          · exact known (.cancelled going idle reading cancelled)
          · exact known (.reads going idle reading cancelled)
      | false =>
          by_cases over_ : subscriber.Over
          · exact known (.ending going idle reading over_)
          · exact known (.cancels going idle reading over_)

theorem stoppedRank_pos (subscriber : AsyncPacketSubscriber) : 0 < subscriber.stoppedRank := by
  have phase := subscriber.phase
  generalize subscriber.stoppedRank = rank at phase
  generalize subscriber.Helps = helps at phase
  cases phase with
  | ended => cases subscriber.await <;> simp [Await.rankToReturn]
  | callback going runs =>
      generalize subscriber.onReadDone = place at runs
      cases place with
      | returned => exact absurd rfl runs
      | cancels | storesTryCancel | loadsTryCancel | loadsKeepRunning | addsPacket | startsRead =>
          simp [OnReadDone.rank]
  | reads | cancelled | ending | cancels => omega

/-- An RPC gets on, or nothing changes for it and its event is still to come. -/
def GetsOn (subscriber next : AsyncPacketSubscriber) (event : RPCEvent) : Prop :=
  next.stoppedRank < subscriber.stoppedRank ∨
    (next.stoppedRank = subscriber.stoppedRank ∧ next.Helps = subscriber.Helps ∧
      ¬subscriber.Helps event)

namespace GetsOn
variable {subscriber next : AsyncPacketSubscriber} {event : RPCEvent} {rank rank' : ℕ}
  {helps helps' : RPCEvent → Prop}

theorem same (other : ¬subscriber.Helps event) : subscriber.GetsOn subscriber event :=
  .inr ⟨rfl, rfl, other⟩

theorem of_falls (before : subscriber.Phase rank helps) (after : next.Phase rank' helps')
    (falls : rank' < rank) : subscriber.GetsOn next event := by
  refine .inl ?_
  rw [before.eq.1, after.eq.1]
  exact falls

theorem of_kept (before : subscriber.Phase rank helps) (after : next.Phase rank helps)
    (other : ¬helps event) : subscriber.GetsOn next event := by
  refine .inr ?_
  rw [before.eq.1, before.eq.2, after.eq.1, after.eq.2]
  exact ⟨rfl, rfl, other⟩

end GetsOn

namespace Orderly
variable {subscriber : AsyncPacketSubscriber}

/-- While a read is outstanding, the store of `mTryCancel` is followed by the call. -/
theorem cancelling (h : subscriber.Orderly false) (idle : subscriber.onReadDone = .returned)
    (uncalled : ¬0 < subscriber.cancels) (tried : subscriber.mTryCancel = true) :
    subscriber.await = .cancels := by
  rcases h.tried tried with called | here | there
  · exact absurd called uncalled
  · exact here
  · rw [idle] at there
    cases there

theorem of_not_over (h : subscriber.Orderly false) (idle : subscriber.onReadDone = .returned)
    (quiet : subscriber.reading = false) (on : ¬subscriber.Over) :
    subscriber.await = .cancels := by
  have uncalled : ¬0 < subscriber.cancels := fun called => on (.inr called)
  exact h.cancelling idle uncalled ((h.answered quiet idle).resolve_left (fun failed => on (.inl failed)))

theorem helps_own (h : subscriber.Orderly false) {event : RPCEvent}
    (helps : subscriber.Helps event) : subscriber.Enabled event := by
  have phase := subscriber.phase
  generalize subscriber.stoppedRank = rank at phase
  generalize subscriber.Helps = helping at phase helps
  cases phase with
  | ended | reads =>
      rcases Await.Helps.own helps with ⟨waits, rfl⟩ | ⟨elsewhere, rfl⟩
      · exact waits
      · exact elsewhere
  | callback going runs =>
      obtain rfl : event = .reactor := helps
      exact runs
  | cancelled going idle reading =>
      obtain ⟨read, rfl⟩ := helps
      exact ⟨reading, idle⟩
  | ending going idle quiet =>
      obtain ⟨status, rfl⟩ := helps
      exact ⟨quiet, idle, going⟩
  | cancels going idle quiet on =>
      obtain rfl : event = .await := helps
      simp [Enabled, h.of_not_over idle quiet on]

theorem getsOn_onReadDone (h : subscriber.Orderly false) (read : Option ImportAPI.Packet) :
    subscriber.GetsOn (subscriber.onReadDoneCalled read) (.onReadDone read) := by
  have phase := subscriber.phase
  unfold AsyncPacketSubscriber.onReadDoneCalled
  split
  · rename_i outstanding
    obtain ⟨reading, idle⟩ := outstanding
    have going : subscriber.mStatus = none := by
      by_contra done
      exact absurd reading (by simp [(h.done done).1])
    have high : 20 ≤ subscriber.stoppedRank := by
      by_cases cancelled : 0 < subscriber.cancels
      · rw [(Phase.cancelled going idle reading cancelled).eq.1]
      · rw [(Phase.reads going idle reading cancelled).eq.1]
        exact Nat.le_add_right _ _
    cases read with
    | some mPacket =>
        exact .of_falls phase (.callback going (by simp)) (lt_of_lt_of_le (by decide : 16 < 20) high)
    | none =>
        exact .of_falls phase (.callback going (by simp)) (lt_of_lt_of_le (by decide : 15 < 20) high)
  · rename_i refused
    exact .same (fun helps => refused (h.helps_own helps))

theorem getsOn_onDone (h : subscriber.Orderly false) (status : RPCStatusCode) :
    subscriber.GetsOn (subscriber.onDone status) (.onDone status) := by
  have phase := subscriber.phase
  unfold AsyncPacketSubscriber.onDone
  split
  · rename_i idle
    obtain ⟨quiet, idle, going⟩ := idle
    have before : 10 ≤ subscriber.stoppedRank := by
      by_cases over_ : subscriber.Over
      · rw [(Phase.ending going idle quiet over_).eq.1]
      · rw [(Phase.cancels going idle quiet over_).eq.1]
        omega
    refine .inl (lt_of_lt_of_le ?_ before)
    rw [(Phase.ended (by simp)).eq.1]
    change subscriber.await.rankToReturn < 10
    cases subscriber.await <;> simp [Await.rankToReturn]
  · rename_i refused
    exact .same (fun helps => refused (h.helps_own helps))

theorem getsOn_waitReturns (h : subscriber.Orderly false) :
    subscriber.GetsOn subscriber.waitReturns .waitReturns := by
  have phase := subscriber.phase
  unfold AsyncPacketSubscriber.waitReturns
  split
  · rename_i waits
    generalize ranked : subscriber.stoppedRank = rank at phase
    generalize helping : subscriber.Helps = helps at phase
    have before := phase
    cases phase with
    | ended done =>
        refine .of_falls before (.ended done) ?_
        rw [waits]
        exact Nat.one_lt_two
    | reads going idle reading uncancelled =>
        refine .of_falls before (.reads going idle reading uncancelled) ?_
        rw [waits]
        exact Nat.lt_succ_self 25
    | callback going runs =>
        exact .of_kept before (.callback going runs) (by simp)
    | cancelled going idle reading cancelled =>
        exact .of_kept before (.cancelled going idle reading cancelled) (by simp)
    | ending going idle quiet over_ =>
        exact .of_kept before (.ending going idle quiet over_) (by simp)
    | cancels going idle quiet on =>
        cases waits.symm.trans (h.of_not_over idle quiet on)
  · rename_i elsewhere
    exact .same (fun helps => elsewhere (h.helps_own helps))

theorem getsOn_await_to (h : subscriber.Orderly false) {next : AsyncPacketSubscriber}
    (place place' : Await) (here : subscriber.await = place) (there : next.await = place')
    (status : next.mStatus = subscriber.mStatus) (callback : next.onReadDone = subscriber.onReadDone)
    (read : next.reading = subscriber.reading) (failed : next.readFailed = subscriber.readFailed)
    (calls : next.cancels = subscriber.cancels)
    (returns : place'.rankToReturn < place.rankToReturn ∨ subscriber.mStatus = none)
    (cancels : place'.rankToCancel < place.rankToCancel ∨ subscriber.mTryCancel = true)
    (elsewhere : place ≠ .cancels) : subscriber.GetsOn next .await := by
  subst here there
  have phase := subscriber.phase
  have before := phase
  generalize subscriber.stoppedRank = rank at phase before
  generalize subscriber.Helps = helps at phase before
  have same : next.Over ↔ subscriber.Over := by simp only [Over, failed, calls]
  cases phase with
  | ended done => exact .of_falls before (.ended (status ▸ done)) (returns.resolve_right done)
  | reads going idle reading uncancelled =>
      refine .of_falls before (.reads (status.trans going) (callback.trans idle) (read.trans reading)
        (calls ▸ uncancelled)) (Nat.add_lt_add_left ?_ 20)
      refine cancels.resolve_right (fun tried => ?_)
      exact elsewhere (h.cancelling idle uncancelled tried)
  | callback going runs =>
      have after := Phase.callback (status.trans going) (callback ▸ runs)
      rw [callback] at after
      exact .of_kept before after (by simp)
  | cancelled going idle reading cancelled =>
      exact .of_kept before (.cancelled (status.trans going) (callback.trans idle)
        (read.trans reading) (calls ▸ cancelled)) (by simp)
  | ending going idle quiet over_ =>
      exact .of_kept before (.ending (status.trans going) (callback.trans idle) (read.trans quiet)
        (same.mpr over_)) (by simp)
  | cancels going idle quiet on => exact absurd (h.of_not_over idle quiet on) elsewhere

theorem getsOn_await_cancels (place : subscriber.await = .cancels) :
    subscriber.GetsOn { subscriber with cancels := subscriber.cancels + 1, await := .waits }
      .await := by
  have phase := subscriber.phase
  have before := phase
  generalize subscriber.stoppedRank = rank at phase before
  generalize subscriber.Helps = helps at phase before
  cases phase with
  | ended done =>
      refine .of_falls before (.ended done) ?_
      rw [place]
      exact Nat.lt_succ_self 2
  | reads going idle reading uncancelled =>
      refine .of_falls before (.cancelled going idle reading (Nat.succ_pos _)) ?_
      rw [place]
      exact Nat.lt_succ_self 20
  | callback going runs => exact .of_kept before (.callback going runs) (by simp)
  | cancelled going idle reading cancelled =>
      exact .of_kept before (.cancelled going idle reading (Nat.succ_pos _)) (by simp)
  | ending going idle quiet over_ =>
      exact .of_kept before (.ending going idle quiet (.inr (Nat.succ_pos _))) (by simp)
  | cancels going idle quiet on =>
      exact .of_falls before (.ending going idle quiet (.inr (Nat.succ_pos _))) (Nat.lt_succ_self 10)

theorem getsOn_await (h : subscriber.Orderly false)
    (still : subscriber.await = .testsDone → subscriber.mStatus = none) :
    subscriber.GetsOn (subscriber.stepAwait false).1 .await := by
  unfold AsyncPacketSubscriber.stepAwait
  cases place : subscriber.await with
  | testsDone =>
      have going := still place
      simp only
      split
      · rename_i status done
        cases going.symm.trans done
      · exact h.getsOn_await_to .testsDone .loadsKeepRunning place rfl rfl rfl rfl rfl rfl
          (.inr going) (.inl (by decide)) (by decide)
  | loadsKeepRunning =>
      exact h.getsOn_await_to .loadsKeepRunning .loadsTryCancel place rfl rfl rfl rfl rfl rfl
        (.inl (by decide)) (.inl (by decide)) (by decide)
  | loadsTryCancel =>
      simp only
      split
      · rename_i tried
        exact h.getsOn_await_to .loadsTryCancel .waits place rfl rfl rfl rfl rfl rfl
          (.inl (by decide)) (.inr tried) (by decide)
      · exact h.getsOn_await_to .loadsTryCancel .storesTryCancel place rfl rfl rfl rfl rfl rfl
          (.inl (by decide)) (.inl (by decide)) (by decide)
  | storesTryCancel =>
      exact h.getsOn_await_to .storesTryCancel .cancels place rfl rfl rfl rfl rfl rfl
        (.inl (by decide)) (.inl (by decide)) (by decide)
  | cancels => exact getsOn_await_cancels place
  | waits => exact .same (fun helps => h.helps_own helps place)

theorem stoppedRank_of_quiet (going : subscriber.mStatus = none)
    (idle : subscriber.onReadDone = .returned) (quiet : subscriber.reading = false) :
    subscriber.stoppedRank ≤ 11 := by
  by_cases over_ : subscriber.Over
  · rw [(Phase.ending going idle quiet over_).eq.1]
    omega
  · rw [(Phase.cancels going idle quiet over_).eq.1]

theorem stoppedRank_of_reading (going : subscriber.mStatus = none)
    (idle : subscriber.onReadDone = .returned) (reading : subscriber.reading = true) :
    subscriber.stoppedRank ≤ 26 := by
  by_cases cancelled : 0 < subscriber.cancels
  · rw [(Phase.cancelled going idle reading cancelled).eq.1]
    omega
  · rw [(Phase.reads going idle reading cancelled).eq.1]
    cases subscriber.await <;> simp [Await.rankToCancel]

theorem getsOn_reactor (h : subscriber.Orderly false) :
    subscriber.GetsOn (subscriber.stepOnReadDone false).1 .reactor := by
  have state (runs : subscriber.onReadDone ≠ .returned) :
      subscriber.mStatus = none ∧ subscriber.reading = false := by
    constructor
    · by_contra done
      exact runs (h.done done).2
    · by_contra reading
      exact runs (h.single (by simpa using reading)).1
  -- every place but the last lies behind the next one
  have moves {next : AsyncPacketSubscriber} (place : OnReadDone) (here : subscriber.onReadDone = place)
      (runs : place ≠ .returned) (less : next.stoppedRank < place.rank) :
      subscriber.GetsOn next .reactor := by
    subst here
    exact .of_falls (.callback (state runs).1 runs) next.phase less
  have goes {next : AsyncPacketSubscriber} (place place' : OnReadDone)
      (here : subscriber.onReadDone = place) (runs : place ≠ .returned)
      (status : next.mStatus = subscriber.mStatus) (there : next.onReadDone = place')
      (runs' : place' ≠ .returned) (less : place'.rank < place.rank) :
      subscriber.GetsOn next .reactor := by
    refine moves place here runs ?_
    have going : next.mStatus = none := status.trans (state (here ▸ runs)).1
    rw [(Phase.callback going (there ▸ runs')).eq.1, there]
    exact less
  have returns {next : AsyncPacketSubscriber} (place : OnReadDone)
      (here : subscriber.onReadDone = place) (runs : place ≠ .returned)
      (status : next.mStatus = subscriber.mStatus) (there : next.onReadDone = .returned)
      (read : next.reading = subscriber.reading) (less : 11 < place.rank) :
      subscriber.GetsOn next .reactor := by
    refine moves place here runs (lt_of_le_of_lt ?_ less)
    obtain ⟨going, quiet⟩ := state (here ▸ runs)
    exact stoppedRank_of_quiet (status.trans going) there (read.trans quiet)
  unfold AsyncPacketSubscriber.stepOnReadDone
  cases place : subscriber.onReadDone with
  | returned => exact .same (fun helps => h.helps_own helps place)
  | addsPacket copy =>
      exact goes (.addsPacket copy) (.loadsKeepRunning true) place (by simp) rfl rfl (by simp)
        (Nat.lt_succ_self 15)
  | loadsKeepRunning ok =>
      exact goes (.loadsKeepRunning ok) .loadsTryCancel place (by simp) rfl rfl (by simp)
        (Nat.lt_succ_self 14)
  | loadsTryCancel =>
      simp only
      split
      · exact returns .loadsTryCancel place (by simp) rfl rfl rfl (by decide)
      · exact goes .loadsTryCancel .storesTryCancel place (by simp) rfl rfl (by simp) (by decide)
  | storesTryCancel =>
      exact goes .storesTryCancel .cancels place (by simp) rfl rfl (by simp) (by decide)
  | cancels => exact returns .cancels place (by simp) rfl rfl rfl (by decide)
  | startsRead =>
      refine moves .startsRead place (by simp) (lt_of_le_of_lt ?_ (by decide : 26 < 30))
      exact stoppedRank_of_reading (state (by simp [place])).1 rfl rfl

/-- A step of an orderly RPC that does not return from `await` takes it on. -/
theorem getsOn_step (h : subscriber.Orderly false) (event : RPCEvent)
    (still : ∀ outcome, (subscriber.step false event).2 ≠ .awaited outcome) :
    subscriber.GetsOn (subscriber.step false event).1 event := by
  cases event with
  | await =>
      refine h.getsOn_await (fun place => ?_)
      by_contra done
      obtain ⟨status, done⟩ := Option.ne_none_iff_exists'.mp done
      refine still ⟨status, subscriber.mHadSuccessfulRead⟩ ?_
      simp only [AsyncPacketSubscriber.step, AsyncPacketSubscriber.stepAwait, place, done]
  | waitReturns => exact h.getsOn_waitReturns
  | onReadDone read => exact h.getsOn_onReadDone read
  | reactor => exact h.getsOn_reactor
  | onDone status => exact h.getsOn_onDone status

end Orderly

end AsyncPacketSubscriber

def RPCEvent.reader : RPCEvent → ReaderEvent
  | .await => .acquirePackets
  | .waitReturns => .waitReturns
  | .onReadDone read => .onReadDone read
  | .reactor => .reactor
  | .onDone status => .onDone status

def SubscriberEvent.reader : SubscriberEvent → ReaderEvent
  | .stop => .stop
  | .acquirePackets => .acquirePackets
  | .waitReturns => .waitReturns
  | .onDone outcome => .onDone outcome.status

theorem RPCEvent.reader_injective : Function.Injective RPCEvent.reader := by
  intro event other same
  cases event <;> cases other <;> cases same <;> rfl

theorem SubscriberEvent.eq_of_reader {event step : SubscriberEvent}
    (own : event = .acquirePackets ∨ event = .waitReturns) (same : event.reader = step.reader) :
    step = event := by
  rcases own with rfl | rfl
  · cases step <;> cases same
    rfl
  · cases step <;> cases same
    rfl

namespace SubscriberThread

def Ended (thread : SubscriberThread) : Prop := thread.impl.acquirePackets.Ended

def stoppedRank (thread : SubscriberThread) : ℕ :=
  match thread.subscriber with
  | some subscriber => 60 + subscriber.stoppedRank
  | none => 20 * thread.impl.acquirePackets.stoppedRank

def Helps (thread : SubscriberThread) (event : ReaderEvent) : Prop :=
  match thread.subscriber with
  | some subscriber => ∃ step, event = step.reader ∧ subscriber.Helps step
  | none => ∃ step : SubscriberEvent, event = step.reader ∧ thread.impl.acquirePackets.Helps step

variable {impl : SubscriberImpl} {subscriber : AsyncPacketSubscriber} {actions : List ReaderAction}

theorem progress_stop (thread : SubscriberThread) : Machine.RankProgress Ended stoppedRank Helps
    thread (thread.move .stop thread.subscriber).1 .stop := by
  obtain ⟨impl, rpc⟩ := thread
  obtain ⟨-, same, -⟩ := stepStop_cases impl
  have place : (subscriberMachine.step impl .stop).1.acquirePackets = impl.acquirePackets := same
  intro going
  refine .inr ⟨?_, ?_, ?_⟩
  · simp only [move, stoppedRank, place]
  · funext event
    simp only [move, Helps, place]
  · intro helps
    cases rpc with
    | some subscriber =>
        obtain ⟨step, same, -⟩ := helps
        cases step <;> cases same
    | none =>
        obtain ⟨step, same, helps⟩ := helps
        cases step with
        | stop => exact impl.acquirePackets.not_helps_stop helps
        | acquirePackets | waitReturns | onDone => cases same

theorem progress_without (off : impl.mKeepRunning = false) {event : SubscriberEvent}
    (own : event = .acquirePackets ∨ event = .waitReturns) :
    Machine.RankProgress Ended stoppedRank Helps ⟨impl, none⟩
      (stepWithout ⟨impl, none⟩ event).1 event.reader := by
  obtain ⟨place, action, moves, step⟩ := (subscriberMachine_step impl event).resolve_left (by
    rintro ⟨rfl, -⟩
    simp at own)
  intro going
  simp only [stepWithout, move, step]
  have progress := stoppedRank_moves moves off going
  by_cases starts : action = .startsRPC
  · left
    rw [if_pos starts]
    subst starts
    generalize before : impl.acquirePackets = place₀ at moves
    cases moves with
    | connects k =>
        have first := AsyncPacketSubscriber.stoppedRank_le {}
        simp only [stoppedRank, before, AcquirePackets.stoppedRank]
        omega
  · rw [if_neg starts]
    simp only [stoppedRank]
    rcases progress with falls | ⟨same, kept, other⟩
    · exact .inl (Nat.mul_lt_mul_of_pos_left falls (by decide))
    · refine .inr ⟨by rw [same], ?_, ?_⟩
      · funext event
        simp only [Helps, kept]
      · rintro ⟨taken, shown, helps⟩
        exact other (SubscriberEvent.eq_of_reader own shown ▸ helps)

theorem progress_refused (elsewhere : ∀ k tried, impl.acquirePackets ≠ .awaits k tried)
    {event : ReaderEvent} (thread : event ≠ .acquirePackets) (waits : event ≠ .waitReturns) :
    Machine.RankProgress Ended stoppedRank Helps ⟨impl, none⟩ ⟨impl, none⟩ event := by
  intro going
  refine .inr ⟨rfl, rfl, ?_⟩
  rintro ⟨step, same, helps⟩
  generalize impl.acquirePackets = place at elsewhere helps
  cases place with
  | waits k =>
      obtain rfl : step = .waitReturns := helps
      exact waits same
  | awaits k tried => exact elsewhere k tried rfl
  | testsLoop | loadsBeforeWait | loadsAfterWait | connects | loadsAfterRPC | loadsAfterLoop
  | returned | threw | outOfRange =>
      obtain rfl : step = .acquirePackets := helps
      exact thread same

theorem progress_rpc {k : Int} (awaits : impl.acquirePackets = .awaits k subscriber.mTryCancel)
    (off : impl.mKeepRunning = false) (orderly : subscriber.Orderly false) (event : RPCEvent) :
    Machine.RankProgress Ended stoppedRank Helps ⟨impl, some subscriber⟩
      (stepRPC ⟨impl, some subscriber⟩ subscriber event).1 event.reader := by
  intro going
  have gets (still : ∀ outcome, (subscriber.step false event).2 ≠ .awaited outcome)
      (impl' : SubscriberImpl) :
      stoppedRank ⟨impl', some (subscriber.step false event).1⟩ <
          stoppedRank ⟨impl, some subscriber⟩ ∨
        (stoppedRank ⟨impl', some (subscriber.step false event).1⟩ =
            stoppedRank ⟨impl, some subscriber⟩ ∧
          Helps ⟨impl', some (subscriber.step false event).1⟩ = Helps ⟨impl, some subscriber⟩ ∧
          ¬Helps ⟨impl, some subscriber⟩ event.reader) := by
    simp only [stoppedRank]
    rcases orderly.getsOn_step event still with falls | ⟨same, kept, other⟩
    · exact .inl (Nat.add_lt_add_left falls 60)
    · refine .inr ⟨congrArg (60 + ·) same, ?_, ?_⟩
      · funext event
        simp only [Helps, kept]
      · rintro ⟨step, same, helps⟩
        exact other (RPCEvent.reader_injective same ▸ helps)
  have shows := subscriber.shows_step false event
  unfold stepRPC
  simp only [off]
  generalize subscriber.step false event = step at gets shows
  obtain ⟨next, action⟩ := step
  cases action with
  | nothing => exact gets (by simp) impl
  | storedTryCancel => exact gets (by simp) _
  | addsPacket copy => exact gets (by simp) impl
  | awaited outcome =>
      left
      have place : (impl.onDone outcome).1.stoppedRank ≤ 3 := by
        simp only [SubscriberImpl.onDone, awaits]
        split <;> simp [AcquirePackets.stoppedRank]
      have last := subscriber.stoppedRank_pos
      simp only [move, stoppedRank]
      change 20 * (impl.onDone outcome).1.stoppedRank < _
      omega

/-- Every step of a thread that should not run takes it to its end, or leaves what does. -/
theorem Sound.progress {thread : SubscriberThread} (h : thread.Sound actions)
    (off : thread.impl.mKeepRunning = false) (event : ReaderEvent) :
    Machine.RankProgress Ended stoppedRank Helps thread (readerMachine.step thread event).1
      event := by
  cases event with
  | stop => exact progress_stop thread
  | acquirePackets =>
      cases h with
      | closed impl elsewhere => exact progress_without off (.inl rfl)
      | opened impl subscriber k awaits orderly =>
          exact progress_rpc awaits off (off ▸ orderly) .await
  | waitReturns =>
      cases h with
      | closed impl elsewhere => exact progress_without off (.inr rfl)
      | opened impl subscriber k awaits orderly =>
          exact progress_rpc awaits off (off ▸ orderly) .waitReturns
  | onReadDone read =>
      cases h with
      | closed impl elsewhere => exact progress_refused elsewhere (by simp) (by simp)
      | opened impl subscriber k awaits orderly =>
          exact progress_rpc awaits off (off ▸ orderly) (.onReadDone read)
  | reactor =>
      cases h with
      | closed impl elsewhere => exact progress_refused elsewhere (by simp) (by simp)
      | opened impl subscriber k awaits orderly =>
          exact progress_rpc awaits off (off ▸ orderly) .reactor
  | onDone status =>
      cases h with
      | closed impl elsewhere => exact progress_refused elsewhere (by simp) (by simp)
      | opened impl subscriber k awaits orderly =>
          exact progress_rpc awaits off (off ▸ orderly) (.onDone status)

/-- gRPC has a read to answer, of an RPC that was cancelled. -/
def CancelledRead (thread : SubscriberThread) : Prop :=
  ∃ subscriber, thread.subscriber = some subscriber ∧ subscriber.reading = true ∧
    0 < subscriber.cancels

def EndingRPC (thread : SubscriberThread) : Prop :=
  ∃ subscriber, thread.subscriber = some subscriber ∧ subscriber.reading = false ∧
    subscriber.onReadDone = .returned ∧ subscriber.Over ∧ subscriber.mStatus = none

/-- Which events can help: one of the thread itself, or of gRPC where it has to act. -/
inductive HelpedBy (thread : SubscriberThread) : Prop where
  | acquirePackets (helps : thread.Helps .acquirePackets)
  | waitReturns (helps : thread.Helps .waitReturns)
  | reactor (helps : thread.Helps .reactor)
  | answer (reads : thread.CancelledRead) (helps : ∀ read, thread.Helps (.onReadDone read))
  | ending (ends : thread.EndingRPC) (helps : ∀ status, thread.Helps (.onDone status))

theorem Sound.helpedBy {thread : SubscriberThread} (h : thread.Sound actions) :
    thread.HelpedBy := by
  cases h with
  | closed impl elsewhere =>
      have own (step : SubscriberEvent) (helps : impl.acquirePackets.Helps step) :
          Helps ⟨impl, none⟩ step.reader := ⟨step, rfl, helps⟩
      generalize impl.acquirePackets = place at elsewhere own
      cases place with
      | waits k => exact .waitReturns (own .waitReturns rfl)
      | awaits k tried => exact absurd rfl (elsewhere k tried)
      | testsLoop | loadsBeforeWait | loadsAfterWait | connects | loadsAfterRPC | loadsAfterLoop
      | returned | threw | outOfRange => exact .acquirePackets (own .acquirePackets rfl)
  | opened impl subscriber k awaits orderly =>
      have own (step : RPCEvent) (helps : subscriber.Helps step) :
          Helps ⟨impl, some subscriber⟩ step.reader := ⟨step, rfl, helps⟩
      have thread (helping : subscriber.Helps = subscriber.await.Helps) :
          HelpedBy ⟨impl, some subscriber⟩ := by
        cases place : subscriber.await with
        | waits => exact .waitReturns (own .waitReturns (by rw [helping, place]; rfl))
        | testsDone | loadsKeepRunning | loadsTryCancel | storesTryCancel | cancels =>
            exact .acquirePackets (own .await (by rw [helping, place]; rfl))
      have phase := subscriber.phase
      generalize subscriber.stoppedRank = rank at phase
      generalize helping : subscriber.Helps = helps at phase
      cases phase with
      | ended | reads => exact thread helping
      | callback => exact .reactor (own .reactor (by rw [helping]))
      | cancels => exact .acquirePackets (own .await (by rw [helping]))
      | cancelled going idle reading cancelled =>
          exact .answer ⟨subscriber, rfl, reading, cancelled⟩
            (fun read => own (.onReadDone read) (by rw [helping]; exact ⟨read, rfl⟩))
      | ending going idle quiet over_ =>
          exact .ending ⟨subscriber, rfl, quiet, idle, over_, going⟩
            (fun status => own (.onDone status) (by rw [helping]; exact ⟨status, rfl⟩))

theorem cancelledRead_of_helps {thread : SubscriberThread} {read : Option ImportAPI.Packet}
    (helps : thread.Helps (.onReadDone read)) : thread.CancelledRead := by
  obtain ⟨impl, rpc⟩ := thread
  cases rpc with
  | none =>
      obtain ⟨step, same, -⟩ := helps
      cases step <;> cases same
  | some subscriber =>
      obtain ⟨step, same, helps⟩ := helps
      cases step with
      | onReadDone =>
          have phase := subscriber.phase
          generalize subscriber.stoppedRank = rank at phase
          generalize subscriber.Helps = helping at phase helps
          cases phase with
          | ended | reads =>
              rcases Await.Helps.own helps with ⟨-, other⟩ | ⟨-, other⟩ <;> cases other
          | callback | cancels => cases helps
          | cancelled going idle reading cancelled => exact ⟨subscriber, rfl, reading, cancelled⟩
          | ending =>
              obtain ⟨status, other⟩ := helps
              cases other
      | await | waitReturns | reactor | onDone => cases same

theorem Sound.endingRPC_of_helps {thread : SubscriberThread} (h : thread.Sound actions)
    {status : RPCStatusCode} (helps : thread.Helps (.onDone status)) : thread.EndingRPC := by
  cases h with
  | closed impl elsewhere =>
      obtain ⟨step, same, helps⟩ := helps
      generalize impl.acquirePackets = place at elsewhere helps
      cases place with
      | awaits k tried => exact absurd rfl (elsewhere k tried)
      | waits | testsLoop | loadsBeforeWait | loadsAfterWait | connects | loadsAfterRPC
      | loadsAfterLoop | returned | threw | outOfRange =>
          cases helps
          cases same
  | opened impl subscriber k awaits orderly =>
      obtain ⟨step, same, helps⟩ := helps
      cases step with
      | onDone =>
          have phase := subscriber.phase
          generalize subscriber.stoppedRank = rank at phase
          generalize subscriber.Helps = helping at phase helps
          cases phase with
          | ended | reads =>
              rcases Await.Helps.own helps with ⟨-, other⟩ | ⟨-, other⟩ <;> cases other
          | callback | cancels => cases helps
          | cancelled =>
              obtain ⟨read, other⟩ := helps
              cases other
          | ending going idle quiet over_ =>
              exact ⟨subscriber, rfl, quiet, idle, over_, going⟩
      | await | waitReturns | reactor | onReadDone => cases same

theorem helps_stepRPC {mKeepRunning : Bool} (orderly : subscriber.Orderly mKeepRunning)
    (event : RPCEvent) {copy : ImportAPI.Packet}
    (adds : (stepRPC ⟨impl, some subscriber⟩ subscriber event).2 = .addsPacket copy) :
    Helps ⟨impl, some subscriber⟩ event.reader := by
  have action : (subscriber.step impl.mKeepRunning event).2 = .addsPacket copy := by
    unfold stepRPC at adds
    generalize subscriber.step impl.mKeepRunning event = step at adds
    obtain ⟨next, action⟩ := step
    cases action with
    | addsPacket other =>
        cases adds
        rfl
    | nothing | storedTryCancel | awaited => cases adds
  cases event with
  | reactor =>
      have runs : subscriber.onReadDone ≠ .returned := by
        intro returned
        simp only [AsyncPacketSubscriber.step, AsyncPacketSubscriber.stepOnReadDone, returned]
          at action
        cases action
      have going : subscriber.mStatus = none := by
        by_contra done
        exact runs (orderly.done done).2
      refine ⟨.reactor, rfl, ?_⟩
      rw [(AsyncPacketSubscriber.Phase.callback going runs).eq.2]
  | await =>
      simp only [AsyncPacketSubscriber.step, AsyncPacketSubscriber.stepAwait] at action
      split at action
      · split at action <;> cases action
      all_goals cases action
  | waitReturns | onReadDone | onDone => cases action

theorem Sound.helps_addsPacket {thread : SubscriberThread} (h : thread.Sound actions)
    {event : ReaderEvent} {copy : ImportAPI.Packet}
    (adds : (readerMachine.step thread event).2 = .addsPacket copy) : thread.Helps event := by
  cases h with
  | closed impl elsewhere => cases event <;> cases adds
  | opened impl subscriber k awaits orderly =>
      cases event with
      | stop => cases adds
      | acquirePackets => exact helps_stepRPC orderly .await adds
      | waitReturns => exact helps_stepRPC orderly .waitReturns adds
      | onReadDone read => exact helps_stepRPC orderly (.onReadDone read) adds
      | reactor => exact helps_stepRPC orderly .reactor adds
      | onDone status => exact helps_stepRPC orderly (.onDone status) adds

end SubscriberThread

end UDataPacketService
