import UDataPacketService.ImportReader

/-! The reader over all its runs. Its two threads never leave an RPC without anything
that would end it, and the subscriber above it cannot tell it from a connection that
ends with an outcome. -/
namespace UDataPacketService

def Await.Cancelling : Await → Prop
  | .loadsTryCancel | .storesTryCancel | .cancels => True
  | .testsDone | .loadsKeepRunning | .waits => False

def OnReadDone.Cancelling : OnReadDone → Prop
  | .loadsTryCancel | .storesTryCancel | .cancels => True
  | .returned | .addsPacket _ | .loadsKeepRunning _ | .startsRead => False

def Await.tries : Await → ℕ
  | .storesTryCancel | .cancels => 1
  | .testsDone | .loadsKeepRunning | .loadsTryCancel | .waits => 0

def OnReadDone.tries : OnReadDone → ℕ
  | .storesTryCancel | .cancels => 1
  | .returned | .addsPacket _ | .loadsKeepRunning _ | .loadsTryCancel | .startsRead => 0

def OnReadDone.Reads : OnReadDone → Prop
  | .addsPacket _ | .loadsKeepRunning true | .startsRead => True
  | .returned | .loadsKeepRunning false | .loadsTryCancel | .storesTryCancel | .cancels => False

/-- How the two threads of an RPC and gRPC stand to each other. -/
structure AsyncPacketSubscriber.Orderly (subscriber : AsyncPacketSubscriber)
    (mKeepRunning : Bool) : Prop where
  single : subscriber.reading = true → subscriber.onReadDone = .returned ∧ subscriber.readFailed = false
  goesOn : subscriber.onReadDone.Reads → subscriber.readFailed = false
  failed : subscriber.onReadDone = .loadsKeepRunning false → subscriber.readFailed = true
  done : subscriber.mStatus ≠ none →
    subscriber.reading = false ∧ subscriber.onReadDone = .returned
  stopped : subscriber.mTryCancel = true ∨ subscriber.await.Cancelling ∨
    subscriber.onReadDone.Cancelling → mKeepRunning = false
  twice : subscriber.cancels + subscriber.await.tries + subscriber.onReadDone.tries ≤ 2
  untried : subscriber.mTryCancel = false → subscriber.cancels = 0 ∧
    subscriber.await ≠ .cancels ∧ subscriber.onReadDone ≠ .cancels
  tried : subscriber.mTryCancel = true → 0 < subscriber.cancels ∨ subscriber.await = .cancels ∨
    subscriber.onReadDone = .cancels
  answered : subscriber.reading = false → subscriber.onReadDone = .returned →
    subscriber.readFailed = true ∨ subscriber.mTryCancel = true

theorem Await.tries_le (place : Await) : place.tries ≤ 1 := by
  cases place <;> simp [Await.tries]

theorem OnReadDone.tries_le (place : OnReadDone) : place.tries ≤ 1 := by
  cases place <;> simp [OnReadDone.tries]

namespace AsyncPacketSubscriber.Orderly
variable {subscriber : AsyncPacketSubscriber} {mKeepRunning : Bool}

theorem start (mKeepRunning : Bool) : Orderly {} mKeepRunning where
  single := fun _ => ⟨rfl, rfl⟩
  goesOn := fun _ => rfl
  failed := by simp
  done := fun done => absurd rfl done
  stopped := by simp [Await.Cancelling, OnReadDone.Cancelling]
  twice := Nat.zero_le 2
  untried := by simp
  tried := by simp
  answered := by simp

theorem off (h : subscriber.Orderly mKeepRunning) : subscriber.Orderly false :=
  { h with stopped := fun _ => rfl }

theorem await_to (h : subscriber.Orderly mKeepRunning) (place : Await)
    (left : subscriber.await ≠ .cancels) (other : place ≠ .cancels)
    (stopped : place.Cancelling → mKeepRunning = false)
    (twice : place.tries ≤ subscriber.await.tries ∨ subscriber.mTryCancel = false) :
    Orderly { subscriber with await := place } mKeepRunning where
  single := h.single
  goesOn := h.goesOn
  failed := h.failed
  done := h.done
  stopped := by
    rintro (tried | cancelling | cancelling)
    · exact h.stopped (.inl tried)
    · exact stopped cancelling
    · exact h.stopped (.inr (.inr cancelling))
  twice := by
    change subscriber.cancels + place.tries + subscriber.onReadDone.tries ≤ 2
    have before := h.twice
    rcases twice with fewer | untried
    · omega
    · have none := (h.untried untried).1
      have one := place.tries_le
      have other := subscriber.onReadDone.tries_le
      omega
  untried := fun untried => ⟨(h.untried untried).1, other, (h.untried untried).2.2⟩
  tried := by
    intro tried
    rcases h.tried tried with called | here | there
    · exact .inl called
    · exact absurd here left
    · exact .inr (.inr there)
  answered := h.answered

theorem stepAwait (h : subscriber.Orderly mKeepRunning) :
    (subscriber.stepAwait mKeepRunning).1.Orderly mKeepRunning := by
  unfold AsyncPacketSubscriber.stepAwait
  cases place : subscriber.await with
  | testsDone =>
      simp only
      split
      · exact h
      · exact h.await_to .loadsKeepRunning (by simp [place]) (by simp) (fun c => absurd c id)
          (.inl (Nat.zero_le _))
  | loadsKeepRunning =>
      cases mKeepRunning with
      | true =>
          exact h.await_to .waits (by simp [place]) (by simp) (fun c => absurd c id)
            (.inl (Nat.zero_le _))
      | false =>
          exact h.await_to .loadsTryCancel (by simp [place]) (by simp) (fun _ => rfl)
            (.inl (Nat.zero_le _))
  | loadsTryCancel =>
      have off := h.stopped (.inr (.inl (by rw [place]; trivial)))
      simp only
      split
      · exact h.await_to .waits (by simp [place]) (by simp) (fun c => absurd c id)
          (.inl (Nat.zero_le _))
      · rename_i untried
        exact h.await_to .storesTryCancel (by simp [place]) (by simp) (fun _ => off)
          (.inr (by simpa using untried))
  | storesTryCancel =>
      have off := h.stopped (.inr (.inl (by rw [place]; trivial)))
      exact {
        single := h.single
        goesOn := h.goesOn
        failed := h.failed
        done := h.done
        stopped := fun _ => off
        twice := by simpa [place, Await.tries] using h.twice
        untried := by simp
        tried := by simp
        answered := by simp }
  | cancels =>
      have tried : subscriber.mTryCancel = true := by
        by_contra untried
        exact (h.untried (by simpa using untried)).2.1 place
      have off := h.stopped (.inl tried)
      exact {
        single := h.single
        goesOn := h.goesOn
        failed := h.failed
        done := h.done
        stopped := fun _ => off
        twice := by simpa [place, Await.tries] using h.twice
        untried := by simp [tried]
        tried := by simp
        answered := h.answered }
  | waits => exact h

theorem waitReturns (h : subscriber.Orderly mKeepRunning) :
    subscriber.waitReturns.Orderly mKeepRunning := by
  unfold AsyncPacketSubscriber.waitReturns
  split
  · rename_i waits
    exact h.await_to .testsDone (by simp [waits]) (by simp) (fun c => absurd c id)
      (.inl (Nat.zero_le _))
  · exact h

theorem onReadDone_to (h : subscriber.Orderly mKeepRunning) (place : OnReadDone)
    (running : subscriber.onReadDone ≠ .returned)
    (left : subscriber.onReadDone ≠ .cancels) (other : place ≠ .cancels)
    (read : place ≠ .loadsKeepRunning false) (stopped : place.Cancelling → mKeepRunning = false)
    (goesOn : place.Reads → subscriber.onReadDone.Reads)
    (twice : place.tries ≤ subscriber.onReadDone.tries ∨ subscriber.mTryCancel = false)
    (answered : place = .returned → subscriber.readFailed = true ∨ subscriber.mTryCancel = true) :
    Orderly { subscriber with onReadDone := place } mKeepRunning where
  single := fun reading => absurd (h.single reading).1 running
  goesOn := fun reads => h.goesOn (goesOn reads)
  failed := fun failed => absurd failed read
  done := fun done => absurd (h.done done).2 running
  stopped := by
    rintro (tried | cancelling | cancelling)
    · exact h.stopped (.inl tried)
    · exact h.stopped (.inr (.inl cancelling))
    · exact stopped cancelling
  twice := by
    change subscriber.cancels + subscriber.await.tries + place.tries ≤ 2
    have before := h.twice
    rcases twice with fewer | untried
    · omega
    · have none := (h.untried untried).1
      have one := place.tries_le
      have other := subscriber.await.tries_le
      omega
  untried := fun untried => ⟨(h.untried untried).1, (h.untried untried).2.1, other⟩
  tried := by
    intro tried
    rcases h.tried tried with called | here | there
    · exact .inl called
    · exact .inr (.inl here)
    · exact absurd there left
  answered := fun _ => answered

theorem onReadDoneCalled (h : subscriber.Orderly mKeepRunning) (read : Option ImportAPI.Packet) :
    (subscriber.onReadDoneCalled read).Orderly mKeepRunning := by
  unfold AsyncPacketSubscriber.onReadDoneCalled
  split
  · rename_i outstanding
    obtain ⟨reading, idle⟩ := outstanding
    have open_ : subscriber.mStatus = none := by
      by_contra done
      exact absurd reading (by simp [(h.done done).1])
    have stopped : subscriber.mTryCancel = true ∨ subscriber.await.Cancelling →
        mKeepRunning = false := fun c => h.stopped (c.imp_right .inl)
    have twice := h.twice
    have tried := h.tried
    rw [idle] at twice tried
    cases read with
    | some mPacket =>
        exact {
          single := by simp
          goesOn := fun _ => (h.single reading).2
          failed := by simp
          done := fun done => absurd open_ done
          stopped := by simpa [OnReadDone.Cancelling] using stopped
          twice := twice
          untried := fun untried => ⟨(h.untried untried).1, (h.untried untried).2.1, by simp⟩
          tried := by simpa using tried
          answered := by simp }
    | none =>
        exact {
          single := by simp
          goesOn := fun reads => absurd reads id
          failed := by simp
          done := fun done => absurd open_ done
          stopped := by simpa [OnReadDone.Cancelling] using stopped
          twice := twice
          untried := fun untried => ⟨(h.untried untried).1, (h.untried untried).2.1, by simp⟩
          tried := by simpa using tried
          answered := by simp }
  · exact h

theorem stepOnReadDone (h : subscriber.Orderly mKeepRunning) :
    (subscriber.stepOnReadDone mKeepRunning).1.Orderly mKeepRunning := by
  unfold AsyncPacketSubscriber.stepOnReadDone
  cases place : subscriber.onReadDone with
  | returned => exact h
  | addsPacket copy =>
      exact h.onReadDone_to (.loadsKeepRunning true) (by simp [place]) (by simp [place]) (by simp)
        (by simp) (fun c => absurd c id) (fun _ => by rw [place]; trivial) (.inl (Nat.zero_le _))
        (by simp)
  | loadsKeepRunning ok =>
      cases mKeepRunning with
      | false =>
          exact h.onReadDone_to .loadsTryCancel (by simp [place]) (by simp [place]) (by simp)
            (by simp) (fun _ => rfl) (fun reads => absurd reads id) (.inl (Nat.zero_le _)) (by simp)
      | true =>
          cases ok with
          | true =>
              exact h.onReadDone_to .startsRead (by simp [place]) (by simp [place]) (by simp)
                (by simp) (fun c => absurd c id) (fun _ => by rw [place]; trivial)
                (.inl (Nat.zero_le _)) (by simp)
          | false =>
              exact h.onReadDone_to .returned (by simp [place]) (by simp [place]) (by simp)
                (by simp) (fun c => absurd c id) (fun reads => absurd reads id)
                (.inl (Nat.zero_le _)) (fun _ => .inl (h.failed place))
  | loadsTryCancel =>
      have off := h.stopped (.inr (.inr (by rw [place]; trivial)))
      simp only
      split
      · rename_i tried
        exact h.onReadDone_to .returned (by simp [place]) (by simp [place]) (by simp)
          (by simp) (fun c => absurd c id) (fun reads => absurd reads id)
          (.inl (Nat.zero_le _)) (fun _ => .inr tried)
      · rename_i untried
        exact h.onReadDone_to .storesTryCancel (by simp [place]) (by simp [place]) (by simp)
          (by simp) (fun _ => off) (fun reads => absurd reads id)
          (.inr (by simpa using untried)) (by simp)
  | storesTryCancel =>
      have off := h.stopped (.inr (.inr (by rw [place]; trivial)))
      exact {
        single := by simpa [place] using h.single
        goesOn := fun reads => absurd reads id
        failed := by simp
        done := by simpa [place] using h.done
        stopped := fun _ => off
        twice := by simpa [place, OnReadDone.tries] using h.twice
        untried := by simp
        tried := by simp
        answered := by simp }
  | cancels =>
      have tried : subscriber.mTryCancel = true := by
        by_contra untried
        exact (h.untried (by simpa using untried)).2.2 place
      have off := h.stopped (.inl tried)
      have before := h.twice
      rw [place] at before
      exact {
        single := fun reading => absurd (h.single reading).1 (by simp [place])
        goesOn := fun reads => absurd reads id
        failed := by simp
        done := fun done => absurd (h.done done).2 (by simp [place])
        stopped := fun _ => off
        twice := by
          simp only [OnReadDone.tries] at before ⊢
          omega
        untried := by simp [tried]
        tried := by simp
        answered := fun _ _ => .inr tried }
  | startsRead =>
      have goesOn := h.goesOn (by rw [place]; trivial)
      exact {
        single := fun _ => ⟨rfl, goesOn⟩
        goesOn := fun reads => absurd reads id
        failed := by simp
        done := by simpa [place] using h.done
        stopped := by simpa [place, OnReadDone.Cancelling] using h.stopped
        twice := by simpa [place, OnReadDone.tries] using h.twice
        untried := by simpa [place] using h.untried
        tried := by simpa [place] using h.tried
        answered := by simp }

theorem onDone (h : subscriber.Orderly mKeepRunning) (status : RPCStatusCode) :
    (subscriber.onDone status).Orderly mKeepRunning := by
  unfold AsyncPacketSubscriber.onDone
  split
  · rename_i idle
    exact { h with done := fun _ => ⟨idle.1, idle.2.1⟩ }
  · exact h

theorem step (h : subscriber.Orderly mKeepRunning) (event : RPCEvent) :
    (subscriber.step mKeepRunning event).1.Orderly mKeepRunning := by
  cases event with
  | await => exact h.stepAwait
  | waitReturns => exact h.waitReturns
  | onReadDone read => exact h.onReadDoneCalled read
  | reactor => exact h.stepOnReadDone
  | onDone status => exact h.onDone status

end AsyncPacketSubscriber.Orderly

/-- An RPC is open exactly while the thread awaits one. It is orderly, and has had a
successful read exactly if the callback was given a packet of it, or is about to be. -/
inductive SubscriberThread.Sound (actions : List ReaderAction) : SubscriberThread → Prop where
  | closed (impl : SubscriberImpl) (elsewhere : ∀ k tried, impl.acquirePackets ≠ .awaits k tried) :
      Sound actions ⟨impl, none⟩
  | opened (impl : SubscriberImpl) (subscriber : AsyncPacketSubscriber) (k : Int)
      (awaits : impl.acquirePackets = .awaits k subscriber.mTryCancel)
      (orderly : subscriber.Orderly impl.mKeepRunning)
      (read : subscriber.mHadSuccessfulRead = true ↔
        packetsOfRPC actions ≠ [] ∨ ∃ copy, subscriber.onReadDone = .addsPacket copy) :
      Sound actions ⟨impl, some subscriber⟩

def ReaderAction.Reports (actions : List ReaderAction) (action : ReaderAction) : Prop :=
  ∀ outcome seen, action = .moved (.onDone outcome) seen → seen = .finished outcome ∧
    (outcome.hadSuccessfulRead = true ↔ packetsOfRPC actions ≠ [])

theorem packetsOfRPC_concat (actions : List ReaderAction) (action : ReaderAction) :
    packetsOfRPC (actions ++ [action]) = action.packets (packetsOfRPC actions) := by
  rw [packetsOfRPC, List.foldl_append]
  rfl

/-- What a step of the RPC does to what the subscriber sees of it. -/
inductive AsyncPacketSubscriber.Shows (subscriber : AsyncPacketSubscriber) :
    RPCAction → AsyncPacketSubscriber → Prop where
  | quiet (next : AsyncPacketSubscriber) (tried : next.mTryCancel = subscriber.mTryCancel)
      (had : next.mHadSuccessfulRead = subscriber.mHadSuccessfulRead)
      (adds : ∀ copy, next.onReadDone = .addsPacket copy ↔ subscriber.onReadDone = .addsPacket copy) :
      Shows subscriber .nothing next
  | reads (next : AsyncPacketSubscriber) (tried : next.mTryCancel = subscriber.mTryCancel)
      (had : next.mHadSuccessfulRead = true) (copy : ImportAPI.Packet)
      (adds : next.onReadDone = .addsPacket copy) : Shows subscriber .nothing next
  | tries (next : AsyncPacketSubscriber) (tried : next.mTryCancel = true)
      (had : next.mHadSuccessfulRead = subscriber.mHadSuccessfulRead)
      (adds : ∀ copy, next.onReadDone = .addsPacket copy ↔ subscriber.onReadDone = .addsPacket copy)
      (cancelling : subscriber.await.Cancelling ∨ subscriber.onReadDone.Cancelling) :
      Shows subscriber .storedTryCancel next
  | adds (copy : ImportAPI.Packet) (adds : subscriber.onReadDone = .addsPacket copy) :
      Shows subscriber (.addsPacket copy) { subscriber with onReadDone := .loadsKeepRunning true }
  | ends (status : RPCStatusCode) (done : subscriber.mStatus = some status) :
      Shows subscriber (.awaited ⟨status, subscriber.mHadSuccessfulRead⟩) subscriber

namespace AsyncPacketSubscriber
variable (subscriber : AsyncPacketSubscriber) (mKeepRunning : Bool)

theorem shows_refl : subscriber.Shows .nothing subscriber :=
  .quiet subscriber rfl rfl (fun _ => Iff.rfl)

theorem shows_stepAwait : subscriber.Shows (subscriber.stepAwait mKeepRunning).2
    (subscriber.stepAwait mKeepRunning).1 := by
  unfold stepAwait
  cases place : subscriber.await with
  | testsDone =>
      simp only
      split
      · rename_i status done
        exact .ends status done
      · exact .quiet _ rfl rfl (fun _ => Iff.rfl)
  | loadsKeepRunning | loadsTryCancel | cancels => exact .quiet _ rfl rfl (fun _ => Iff.rfl)
  | storesTryCancel =>
      exact .tries _ rfl rfl (fun _ => Iff.rfl) (.inl (by rw [place]; trivial))
  | waits => exact subscriber.shows_refl

theorem shows_stepOnReadDone : subscriber.Shows (subscriber.stepOnReadDone mKeepRunning).2
    (subscriber.stepOnReadDone mKeepRunning).1 := by
  unfold stepOnReadDone
  cases place : subscriber.onReadDone with
  | returned => exact subscriber.shows_refl
  | addsPacket copy => exact .adds copy place
  | loadsKeepRunning ok =>
      refine .quiet _ rfl rfl (fun copy => ?_)
      simp only [place]
      split
      · simp
      · split <;> simp
  | loadsTryCancel =>
      refine .quiet _ rfl rfl (fun copy => ?_)
      simp only [place]
      split <;> simp
  | storesTryCancel =>
      refine .tries _ rfl rfl (fun copy => ?_) (.inr (by rw [place]; trivial))
      simp [place]
  | cancels | startsRead =>
      refine .quiet _ rfl rfl (fun copy => ?_)
      simp [place]

theorem shows_step (event : RPCEvent) : subscriber.Shows (subscriber.step mKeepRunning event).2
    (subscriber.step mKeepRunning event).1 := by
  cases event with
  | await => exact subscriber.shows_stepAwait mKeepRunning
  | waitReturns =>
      simp only [step, waitReturns]
      split
      · exact .quiet _ rfl rfl (fun _ => Iff.rfl)
      · exact subscriber.shows_refl
  | onReadDone read =>
      simp only [step, onReadDoneCalled]
      split
      · rename_i outstanding
        cases read with
        | some copy => exact .reads _ rfl rfl copy rfl
        | none =>
            refine .quiet _ rfl rfl (fun copy => ?_)
            simp [outstanding.2]
      · exact subscriber.shows_refl
  | reactor => exact subscriber.shows_stepOnReadDone mKeepRunning
  | onDone status =>
      simp only [step, onDone]
      split
      · exact .quiet _ rfl rfl (fun _ => Iff.rfl)
      · exact subscriber.shows_refl

end AsyncPacketSubscriber

/-- Without an RPC, the step that connects is the one that comes to await it. -/
theorem SubscriberImpl.Moves.awaits {subscriber : SubscriberImpl} {event : SubscriberEvent}
    {place next : AcquirePackets} {action : SubscriberAction}
    (moves : subscriber.Moves event place next action)
    (closed : ∀ k tried, place ≠ .awaits k tried) :
    (action = .startsRPC ∧ ∃ k, next = .awaits k false) ∨
      (action ≠ .startsRPC ∧ ∀ k tried, next ≠ .awaits k tried) := by
  cases moves with
  | stays => exact .inr ⟨by simp, closed⟩
  | connects k => exact .inl ⟨rfl, k, rfl⟩
  | cancels k | finishes k | missesServer k | fails k => exact absurd rfl (closed k _)
  | entersLoop | exhausts | breaksBeforeWait | leavesSchedule | waits | goesFirst | wakes
  | breaksAfterWait | goesAgain | breaksAfterRPC | goesOn | throws | returns =>
      exact .inr ⟨by simp, by simp⟩

namespace SubscriberThread.Sound
variable {actions : List ReaderAction} {thread : SubscriberThread} {impl : SubscriberImpl}
  {subscriber : AsyncPacketSubscriber}

theorem start (options : SubscriberOptions) : Sound [] (.start options) :=
  .closed _ (by simp [SubscriberImpl.start])

theorem stop (h : thread.Sound actions) :
    (thread.move .stop thread.subscriber).1.Sound
      (actions ++ [(thread.move .stop thread.subscriber).2]) := by
  obtain ⟨-, same, still⟩ := stepStop_cases thread.impl
  cases h with
  | closed impl elsewhere =>
      refine .closed impl.stepStop ?_
      rw [same]
      exact elsewhere
  | opened impl subscriber k awaits orderly read =>
      refine .opened impl.stepStop subscriber k (same.trans awaits) ?_ ?_
      · cases running : impl.stepStop.mKeepRunning with
        | false => exact orderly.off
        | true =>
            have before : impl.mKeepRunning = true := by
              by_contra off
              rw [still (by simpa using off)] at running
              cases running
            exact before ▸ orderly
      · rw [packetsOfRPC_concat]
        exact read

theorem stepWithout (elsewhere : ∀ k tried, impl.acquirePackets ≠ .awaits k tried)
    {event : SubscriberEvent} (other : event ≠ .stop) :
    let next := SubscriberThread.stepWithout ⟨impl, none⟩ event
    next.1.Sound (actions ++ [next.2]) := by
  obtain ⟨place, action, moves, step⟩ :=
    (subscriberMachine_step impl event).resolve_left (fun stops => other stops.1)
  simp only [SubscriberThread.stepWithout, SubscriberThread.move, step]
  rcases moves.awaits elsewhere with ⟨rfl, k, rfl⟩ | ⟨quiet, elsewhere⟩
  · refine .opened { impl with acquirePackets := .awaits k false } {} k rfl (.start _) ?_
    rw [packetsOfRPC_concat]
    simp [ReaderAction.packets]
  · rw [if_neg quiet]
    exact .closed _ elsewhere

theorem stepRPC {k : Int} (awaits : impl.acquirePackets = .awaits k subscriber.mTryCancel)
    (orderly : subscriber.Orderly impl.mKeepRunning)
    (read : subscriber.mHadSuccessfulRead = true ↔
      packetsOfRPC actions ≠ [] ∨ ∃ copy, subscriber.onReadDone = .addsPacket copy)
    (event : RPCEvent) :
    let next := SubscriberThread.stepRPC ⟨impl, some subscriber⟩ subscriber event
    next.1.Sound (actions ++ [next.2]) ∧ next.2.Reports actions := by
  have after := orderly.step event
  have shows := subscriber.shows_step impl.mKeepRunning event
  unfold SubscriberThread.stepRPC
  generalize subscriber.step impl.mKeepRunning event = step at after shows
  obtain ⟨next, action⟩ := step
  change next.Orderly _ at after
  change subscriber.Shows action next at shows
  cases shows with
  | quiet next tried had adds =>
      refine ⟨.opened impl next k (tried ▸ awaits) after ?_, by simp [ReaderAction.Reports]⟩
      rw [packetsOfRPC_concat, had, read]
      simp only [adds, ReaderAction.packets]
  | reads next tried had copy adds =>
      exact ⟨.opened impl next k (tried ▸ awaits) after (iff_of_true had (.inr ⟨copy, adds⟩)),
        by simp [ReaderAction.Reports]⟩
  | tries next tried had adds cancelling =>
      have off := orderly.stopped (.inr cancelling)
      have place : impl.nextPlace.1 = .awaits k true ∧ impl.nextPlace.2 ≠ .startsRPC := by
        rw [SubscriberImpl.nextPlace, awaits, off]
        cases subscriber.mTryCancel <;> exact ⟨rfl, by simp⟩
      refine ⟨.opened { impl with acquirePackets := impl.nextPlace.1 } next k
        (tried ▸ place.1) after ?_, by simp [ReaderAction.Reports, SubscriberThread.move]⟩
      have same : ReaderAction.packets (packetsOfRPC actions)
          (.moved .acquirePackets impl.nextPlace.2) = packetsOfRPC actions := by
        unfold ReaderAction.packets
        split <;> simp_all
      change _ ↔ packetsOfRPC (actions ++ [.moved .acquirePackets impl.nextPlace.2]) ≠ [] ∨ _
      rw [packetsOfRPC_concat, same, had, read]
      simp only [adds]
  | adds copy adds =>
      refine ⟨.opened impl _ k awaits after ?_, by simp [ReaderAction.Reports]⟩
      refine iff_of_true (read.mpr (.inr ⟨copy, adds⟩)) (.inl ?_)
      rw [packetsOfRPC_concat]
      simp [ReaderAction.packets]
  | ends status done =>
      have idle := (orderly.done (by simp [done])).2
      constructor
      · refine .closed { impl with acquirePackets :=
          (impl.onDone ⟨status, subscriber.mHadSuccessfulRead⟩).1 } (fun j tried => ?_)
        simp only [SubscriberImpl.onDone, awaits]
        split <;> simp
      · rintro outcome seen same
        obtain ⟨ended, rfl⟩ := ReaderAction.moved.inj same
        obtain rfl := SubscriberEvent.onDone.inj ended
        refine ⟨?_, read.trans (by simp [idle])⟩
        simp only [subscriberMachine, SubscriberImpl.onDone, awaits]
        split <;> rfl

/-- Every step keeps the RPC in the scope of the loop and reports what it was. -/
theorem step (h : thread.Sound actions) (event : ReaderEvent) :
    (readerMachine.step thread event).1.Sound (actions ++ [(readerMachine.step thread event).2]) ∧
      (readerMachine.step thread event).2.Reports actions := by
  cases event with
  | stop => exact ⟨h.stop, by simp [ReaderAction.Reports, readerMachine, SubscriberThread.move]⟩
  | acquirePackets =>
      cases h with
      | closed impl elsewhere =>
          exact ⟨stepWithout elsewhere (by simp), by
            simp [ReaderAction.Reports, readerMachine, SubscriberThread.stepWithout,
              SubscriberThread.move]⟩
      | opened impl subscriber k awaits orderly read => exact stepRPC awaits orderly read .await
  | waitReturns =>
      cases h with
      | closed impl elsewhere =>
          exact ⟨stepWithout elsewhere (by simp), by
            simp [ReaderAction.Reports, readerMachine, SubscriberThread.stepWithout,
              SubscriberThread.move]⟩
      | opened impl subscriber k awaits orderly read =>
          exact stepRPC awaits orderly read .waitReturns
  | onReadDone packet =>
      cases h with
      | closed impl elsewhere => exact ⟨.closed impl elsewhere, by simp [ReaderAction.Reports, readerMachine]⟩
      | opened impl subscriber k awaits orderly read =>
          exact stepRPC awaits orderly read (.onReadDone packet)
  | reactor =>
      cases h with
      | closed impl elsewhere => exact ⟨.closed impl elsewhere, by simp [ReaderAction.Reports, readerMachine]⟩
      | opened impl subscriber k awaits orderly read => exact stepRPC awaits orderly read .reactor
  | onDone status =>
      cases h with
      | closed impl elsewhere => exact ⟨.closed impl elsewhere, by simp [ReaderAction.Reports, readerMachine]⟩
      | opened impl subscriber k awaits orderly read =>
          exact stepRPC awaits orderly read (.onDone status)

theorem run (options : SubscriberOptions) (events : List ReaderEvent) :
    (readerMachine.run (.start options) events).Sound (readerMachine.trace (.start options) events) ∧
      ∀ before action after, readerMachine.trace (.start options) events = before ++ action :: after →
        action.Reports before := by
  refine readerMachine.history_invariant (fun actions thread => thread.Sound actions ∧
    ∀ before action after, actions = before ++ action :: after → action.Reports before)
    (fun actions thread event h => ?_) ⟨.start options, by simp⟩ events
  refine ⟨(h.1.step event).1, fun before action after same => ?_⟩
  rcases List.eq_nil_or_concat after with rfl | ⟨rest, last, rfl⟩
  · obtain ⟨rfl, one⟩ := List.append_inj' same rfl
    obtain rfl := List.singleton_inj.mp one
    exact (h.1.step event).2
  · rw [List.concat_eq_append, ← List.cons_append, ← List.append_assoc] at same
    exact h.2 before action rest (List.append_inj' same rfl).1

end SubscriberThread.Sound

/-- A step is one of the subscriber, or none. -/
theorem readerMachine_step (thread : SubscriberThread) (event : ReaderEvent) :
    (∃ move subscriber, readerMachine.step thread event = thread.move move subscriber ∧
      (move = .stop → event = .stop)) ∨
      ((readerMachine.step thread event).2.moved? = none ∧
        (readerMachine.step thread event).1.impl = thread.impl) := by
  obtain ⟨impl, rpc⟩ := thread
  have rpc_step (subscriber : AsyncPacketSubscriber) (event : RPCEvent) :
      (∃ move next, SubscriberThread.stepRPC ⟨impl, some subscriber⟩ subscriber event =
        SubscriberThread.move ⟨impl, some subscriber⟩ move next ∧ move ≠ .stop) ∨
      ((SubscriberThread.stepRPC ⟨impl, some subscriber⟩ subscriber event).2.moved? = none ∧
        (SubscriberThread.stepRPC ⟨impl, some subscriber⟩ subscriber event).1.impl = impl) := by
    unfold SubscriberThread.stepRPC
    generalize subscriber.step impl.mKeepRunning event = step
    obtain ⟨next, action⟩ := step
    cases action with
    | nothing | addsPacket copy => exact .inr ⟨rfl, rfl⟩
    | storedTryCancel => exact .inl ⟨.acquirePackets, some next, rfl, by simp⟩
    | awaited outcome => exact .inl ⟨.onDone outcome, none, rfl, by simp⟩
  have own {subscriber : AsyncPacketSubscriber} (step : RPCEvent)
      (same : readerMachine.step ⟨impl, some subscriber⟩ event =
        SubscriberThread.stepRPC ⟨impl, some subscriber⟩ subscriber step) :
      (∃ move next, readerMachine.step ⟨impl, some subscriber⟩ event =
        SubscriberThread.move ⟨impl, some subscriber⟩ move next ∧ (move = .stop → event = .stop)) ∨
      ((readerMachine.step ⟨impl, some subscriber⟩ event).2.moved? = none ∧
        (readerMachine.step ⟨impl, some subscriber⟩ event).1.impl = impl) := by
    rw [same]
    rcases rpc_step subscriber step with ⟨move, next, moved, other⟩ | still
    · exact .inl ⟨move, next, moved, fun stops => absurd stops other⟩
    · exact .inr still
  cases rpc with
  | none =>
      cases event with
      | stop => exact .inl ⟨.stop, none, rfl, fun _ => rfl⟩
      | acquirePackets => exact .inl ⟨.acquirePackets, _, rfl, by simp⟩
      | waitReturns => exact .inl ⟨.waitReturns, _, rfl, by simp⟩
      | onReadDone | reactor | onDone => exact .inr ⟨rfl, rfl⟩
  | some subscriber =>
      cases event with
      | stop => exact .inl ⟨.stop, some subscriber, rfl, fun _ => rfl⟩
      | acquirePackets => exact own .await rfl
      | waitReturns => exact own .waitReturns rfl
      | onReadDone read => exact own (.onReadDone read) rfl
      | reactor => exact own .reactor rfl
      | onDone status => exact own (.onDone status) rfl

theorem readerMachine_flags (thread : SubscriberThread) {event : ReaderEvent}
    (other : event ≠ .stop) :
    (readerMachine.step thread event).1.impl.mKeepRunning = thread.impl.mKeepRunning ∧
      (readerMachine.step thread event).1.impl.stop = thread.impl.stop := by
  rcases readerMachine_step thread event with ⟨move, next, step, stops⟩ | ⟨-, same⟩
  · obtain ⟨place, action, -, moved⟩ := (subscriberMachine_step thread.impl move).resolve_left
      (fun first => other (stops first.1))
    rw [step]
    simp only [SubscriberThread.move, moved]
    exact ⟨trivial, trivial⟩
  · rw [same]
    exact ⟨rfl, rfl⟩

theorem reader_moves_subscriber : readerMachine.Part subscriberMachine SubscriberThread.impl
    ReaderAction.moved? where
  still := by
    intro thread event still
    rcases readerMachine_step thread event with ⟨move, subscriber, step, -⟩ | ⟨-, same⟩
    · rw [step] at still
      cases still
    · exact same
  moves := by
    intro thread event move action moves
    rcases readerMachine_step thread event with ⟨move, subscriber, step, -⟩ | ⟨still, -⟩
    · rw [step] at moves ⊢
      obtain ⟨rfl, rfl⟩ := Prod.mk.inj (Option.some.inj moves)
      rfl
    · cases still.symm.trans moves

/-- In every interleaving of `await`, the callbacks of gRPC and `stop`, an RPC that has no
status yet has something that will end it: a read is outstanding, a callback runs, a
read has failed, or it is cancelled or about to be. There is one read at a time and none
after one that failed, and `TryCancel` is called at most twice and only after `stop`. -/
theorem read_loop_never_stalls (options : SubscriberOptions) (events : List ReaderEvent)
    (subscriber : AsyncPacketSubscriber)
    (opened : (readerMachine.run (.start options) events).subscriber = some subscriber) :
    (subscriber.mStatus = none → subscriber.reading = true ∨ subscriber.onReadDone ≠ .returned ∨
      subscriber.readFailed = true ∨ 0 < subscriber.cancels ∨ subscriber.await = .cancels) ∧
      (subscriber.reading = true →
        subscriber.onReadDone = .returned ∧ subscriber.readFailed = false) ∧
      subscriber.cancels ≤ 2 ∧
      (0 < subscriber.cancels →
        (readerMachine.run (.start options) events).impl.mKeepRunning = false) := by
  have sound := (SubscriberThread.Sound.run options events).1
  generalize readerMachine.run (.start options) events = thread at sound opened
  cases sound with
  | closed => cases opened
  | opened impl other k awaits orderly read =>
      obtain rfl := Option.some.inj opened
      refine ⟨fun _ => ?_, orderly.single, ?_, fun called => ?_⟩
      · by_contra stalls
        simp only [not_or, Bool.not_eq_true, not_not] at stalls
        obtain ⟨quiet, idle, unfailed, uncalled, elsewhere⟩ := stalls
        have tried : other.mTryCancel = true :=
          (orderly.answered quiet idle).resolve_left (by simp [unfailed])
        rcases orderly.tried tried with called | here | there
        · exact uncalled called
        · exact elsewhere here
        · rw [idle] at there
          cases there
      · have twice := orderly.twice
        omega
      · refine orderly.stopped (.inl ?_)
        by_contra untried
        rw [(orderly.untried (by simpa using untried)).1] at called
        exact absurd called (lt_irrefl 0)

/-- The server ends the stream while the thread waits. -/
theorem read_loop_never_stalls_once :
    let events : List ReaderEvent :=
      [.acquirePackets, .acquirePackets, .acquirePackets, .onReadDone none, .reactor]
    let subscriber : AsyncPacketSubscriber := { reading := false, readFailed := true }
    (subscriber.mStatus = none → subscriber.reading = true ∨ subscriber.onReadDone ≠ .returned ∨
      subscriber.readFailed = true ∨ 0 < subscriber.cancels ∨ subscriber.await = .cancels) ∧
      (subscriber.reading = true →
        subscriber.onReadDone = .returned ∧ subscriber.readFailed = false) ∧
      subscriber.cancels ≤ 2 ∧
      (0 < subscriber.cancels →
        (readerMachine.run (.start {}) events).impl.mKeepRunning = false) :=
  read_loop_never_stalls {} _ _ (by decide +kernel)

/-- In every run the subscriber with its RPC takes the steps of the subscriber alone, and
does what it does: waits, connections and cancellations. A connection ends with a
successful read exactly if the callback was given a packet of it. -/
theorem reader_refines_subscriber (options : SubscriberOptions) (events : List ReaderEvent) :
    let actions := readerMachine.trace (.start options) events
    let moves := actions.filterMap ReaderAction.moved?
    (readerMachine.run (.start options) events).impl =
        subscriberMachine.run (.start options) (moves.map Prod.fst) ∧
      moves.map Prod.snd = subscriberMachine.trace (.start options) (moves.map Prod.fst) ∧
      ∀ before outcome seen after,
        actions = before ++ .moved (.onDone outcome) seen :: after → seen = .finished outcome ∧
          (outcome.hadSuccessfulRead = true ↔ packetsOfRPC before ≠ []) := by
  intro actions moves
  obtain ⟨last, outputs⟩ := reader_moves_subscriber.run (.start options) events
  refine ⟨last, outputs.symm, fun before outcome seen after same => ?_⟩
  exact (SubscriberThread.Sound.run options events).2 before _ after same outcome seen rfl

end UDataPacketService
