import UDataPacketService.Authentication

/-! The subscriber limit over the life of the server. Only a constructor adds a
subscriber, and it adds one: its own context. Every other callback touches the
subscriptions of its own context alone and never adds to them. -/
namespace UDataPacketService
open Std (ExtTreeMap ExtTreeSet)
open OrderedContainers

namespace Session

/-- What the callbacks of a reactor are made of. -/
inductive Move : Session → Session → Prop
  /-- The reactor changes its flags, or forgets packets. -/
  | note {session : Session} {reactor : Reactor}
      (address : reactor.mContextAddress = session.reactor.mContextAddress)
      (flag : reactor.mSubscribed = session.reactor.mSubscribed)
      (queue : reactor.mPacketsQueue ⊆ session.reactor.mPacketsQueue)
      (calls : reactor.calls = session.reactor.calls) : Move session ⟨session.service, reactor⟩
  | finish (session : Session) (status : Status) : Move session (session.finish status)
  | startWrite (session : Session) {packet : Packet}
      (queued : packet ∈ session.reactor.mPacketsQueue) : Move session (session.startWrite packet)
  | unsubscribe (session : Session) : Move session session.unsubscribe
  | getNumberOfSubscribers (session : Session) : Move session session.getNumberOfSubscribers.2
  | fetchPackets (session : Session) : Move session session.fetchPackets

abbrev Moves : Session → Session → Prop := Relation.ReflTransGen Move

section Moves
variable (session : Session)

theorem moves_leave : session.Moves session.leave :=
  .head (.unsubscribe session) (.head (.finish session.unsubscribe _)
    (.single (.note rfl rfl (List.Subset.refl _) rfl)))

theorem moves_nextWritePass : session.Moves session.nextWritePass := by
  unfold Session.nextWritePass
  split
  · exact session.moves_leave
  · split
    · exact .single (.fetchPackets session)
    · rename_i packet rest queue
      split
      · exact .refl
      · exact .single (.startWrite session (by rw [queue]; exact List.mem_cons_self))

theorem moves_nextWrite : session.Moves session.nextWrite := by
  have entered : session.Move session.enterLoop := .note rfl rfl (List.Subset.refl _) rfl
  exact .head entered session.enterLoop.moves_nextWritePass

theorem moves_onWriteDone (ok : Bool) : session.Moves (session.onWriteDone ok) := by
  unfold Session.onWriteDone
  split
  · have popped : session.Move { session with reactor := { session.reactor with
        mWriteInProgress := false
        mPacketsQueue := session.reactor.mPacketsQueue.tail } } :=
      .note rfl rfl (List.tail_subset _) rfl
    exact .head popped (moves_nextWrite _)
  · split
    · exact .single (.finish session _)
    · exact .single (.finish session _)

theorem moves_react (event : ReactorEvent) : session.Moves (session.react event) := by
  unfold Session.react
  split
  · exact .refl
  · cases event with
    | cancel => exact .single (.note rfl rfl (List.Subset.refl _) rfl)
    | pass => exact session.moves_nextWritePass
    | onWriteDone ok =>
        have answered : session.Move session.answerWrite := .note rfl rfl (List.Subset.refl _) rfl
        exact .head answered (session.answerWrite.moves_onWriteDone ok)
    | onCancel =>
        have marked : session.Move { session with
            reactor := { session.reactor with cancelDelivered := true } } :=
          .note rfl rfl (List.Subset.refl _) rfl
        exact .head marked (.single (.unsubscribe _))
    | onDone =>
        have left : session.Moves session.onDone :=
          .head (.unsubscribe session) (.single (.getNumberOfSubscribers _))
        exact left.tail (.note rfl rfl (List.Subset.refl _) rfl)

end Moves

/-- The records of the manager agree, and the context is counted only while its
reactor knows that it subscribed. -/
structure Owned (session : Session) : Prop where
  coherent : session.service.mSubscriptionManager.Coherent
  current : session.service.mSubscriptionManager.CountCurrent
  owned : (session.service.mSubscriptionManager.view session.reactor.mContextAddress).Present →
    session.reactor.mSubscribed = true

/-- A step of a reactor that leaves the other clients alone and adds no subscriber. -/
structure Keeps (session next : Session) : Prop where
  options : next.service.mOptions = session.service.mOptions
  address : next.reactor.mContextAddress = session.reactor.mContextAddress
  others : ∀ d, d ≠ session.reactor.mContextAddress →
    next.service.mSubscriptionManager.view d = session.service.mSubscriptionManager.view d
  fewer : (next.service.mSubscriptionManager.view session.reactor.mContextAddress).Present →
    (session.service.mSubscriptionManager.view session.reactor.mContextAddress).Present
  owned : next.Owned

namespace Keeps

theorem trans {first second third : Session} (h : first.Keeps second) (h' : second.Keeps third) :
    first.Keeps third where
  options := h'.options.trans h.options
  address := h'.address.trans h.address
  others := fun d other => (h'.others d (h.address ▸ other)).trans (h.others d other)
  fewer := fun present => h.fewer (h.address ▸ h'.fewer (h.address.symm ▸ present))
  owned := h'.owned

theorem of_manager_eq {session next : Session} (h : session.Owned)
    (options : next.service.mOptions = session.service.mOptions)
    (manager : next.service.mSubscriptionManager = session.service.mSubscriptionManager)
    (address : next.reactor.mContextAddress = session.reactor.mContextAddress)
    (flag : next.reactor.mSubscribed = session.reactor.mSubscribed) : session.Keeps next where
  options := options
  address := address
  others := fun d _ => by rw [manager]
  fewer := fun present => by rwa [manager] at present
  owned := ⟨by rw [manager]; exact h.coherent, by rw [manager]; exact h.current, by
    rw [manager, address, flag]; exact h.owned⟩

end Keeps

namespace Owned
variable {session : Session}

theorem unsubscribe (h : session.Owned) : session.Keeps session.unsubscribe := by
  unfold Session.unsubscribe
  split
  · have gone : ¬((session.service.mSubscriptionManager.unsubscribeFromAll
        session.reactor.mContextAddress).view session.reactor.mContextAddress).Present := by
      rw [SubscriptionManager.view_unsubscribeFromAll]
      exact ClientView.not_present_unsubscribeFromAll (h.coherent _)
    exact ⟨rfl, rfl,
      fun d other => SubscriptionManager.view_unsubscribeFromAll_of_ne _ _ (Ne.symm other),
      fun present => absurd present gone,
      ⟨coherent_step _ (.unsubscribeFromAll _) h.coherent,
        SubscriptionManager.countCurrent_step _ (.unsubscribeFromAll _) h.coherent h.current,
        fun present => absurd present gone⟩⟩
  · exact .of_manager_eq h rfl rfl rfl rfl

theorem getNumberOfSubscribers (h : session.Owned) :
    session.Keeps session.getNumberOfSubscribers.2 := by
  have same := fun d => session.service.mSubscriptionManager.view_getNumberOfSubscribers d
  exact ⟨rfl, rfl, fun d _ => same d, fun present => by rwa [← same],
    ⟨coherent_step _ .getNumberOfSubscribers h.coherent,
      SubscriptionManager.countCurrent_step _ .getNumberOfSubscribers h.coherent h.current,
      fun present => h.owned (by rwa [← same])⟩⟩

theorem fetchPackets (h : session.Owned) : session.Keeps session.fetchPackets := by
  have same := session.service.mSubscriptionManager.present_getPackets
    session.reactor.mContextAddress session.reactor.mContextAddress
  exact ⟨rfl, rfl, fun d other => SubscriptionManager.view_getPackets_of_ne _ _ (Ne.symm other),
    same.mp, ⟨coherent_step _ (.getPackets _) h.coherent,
      SubscriptionManager.countCurrent_step _ (.getPackets _) h.coherent h.current,
      fun present => h.owned (same.mp present)⟩⟩

theorem move (h : session.Owned) {next : Session} (move : session.Move next) :
    session.Keeps next := by
  cases move with
  | note address flag _ _ => exact .of_manager_eq h rfl rfl address flag
  | finish status => exact .of_manager_eq h rfl rfl rfl rfl
  | startWrite _ => exact .of_manager_eq h rfl rfl rfl rfl
  | unsubscribe => exact h.unsubscribe
  | getNumberOfSubscribers => exact h.getNumberOfSubscribers
  | fetchPackets => exact h.fetchPackets

/-- No callback adds a subscriber. -/
theorem moves (h : session.Owned) {next : Session} (moves : session.Moves next) :
    session.Keeps next := by
  induction moves with
  | refl => exact .of_manager_eq h rfl rfl rfl rfl
  | tail _ move ih => exact ih.trans (ih.owned.move move)

end Owned

theorem nextWritePass_done (session : Session) :
    session.nextWritePass.reactor.done = session.reactor.done := by
  unfold nextWritePass
  split
  · rw [leave_reactor]
  · split
    · rfl
    · split <;> rfl

/-- A reactor that is done has left. -/
theorem not_subscribed_of_done {session : Session} {event : ReactorEvent}
    (live : session.reactor.done = false) (done : (session.react event).reactor.done = true) :
    (session.react event).reactor.mSubscribed = false := by
  have notYet : ∀ {next : Session}, next.reactor.done = session.reactor.done →
      next.reactor.done = true → next.reactor.mSubscribed = false := by
    intro next same done
    rw [same, live] at done
    cases done
  unfold react at done ⊢
  split at done
  · rename_i blocked
    rw [if_pos blocked]
    exact notYet rfl done
  · rename_i delivered
    rw [if_neg delivered]
    cases event with
    | cancel => exact notYet rfl done
    | pass => exact notYet (nextWritePass_done session) done
    | onWriteDone ok =>
        refine notYet ?_ done
        simp only [onWriteDone]
        split
        · exact nextWritePass_done _
        · split <;> rfl
    | onCancel =>
        simp only [onCancel, unsubscribe_reactor]
    | onDone =>
        simp only [onDone, getNumberOfSubscribers_reactor, unsubscribe_reactor]

variable {service : Service} {call : IncomingCall}

theorem owned_register (coherent : service.mSubscriptionManager.Coherent)
    (current : service.mSubscriptionManager.CountCurrent)
    (absent : ¬(service.mSubscriptionManager.view call.context).Present) :
    (register service call).Owned := by
  have records := managerMachine.run_invariant
    (fun manager => manager.Coherent ∧ manager.CountCurrent)
    (fun manager operation h => ⟨coherent_step manager operation h.1,
      SubscriptionManager.countCurrent_step manager operation h.1 h.2⟩)
    ⟨coherent, current⟩ (registerOperations call)
  rw [← (register_service service call).2.2] at records
  refine ⟨records.1, records.2, fun present => ?_⟩
  rw [register_reactor] at present ⊢
  refine decide_eq_true (fun nothing => absent ?_)
  rwa [view_register, (subscribing_eq_none_iff call).mpr nothing] at present

theorem keeps_construct (coherent : service.mSubscriptionManager.Coherent)
    (current : service.mSubscriptionManager.CountCurrent)
    (absent : ¬(service.mSubscriptionManager.view call.context).Present) :
    (register service call).Keeps (construct service call) :=
  (owned_register coherent current absent).moves (moves_nextWrite _)

theorem view_construct_of_ne (coherent : service.mSubscriptionManager.Coherent)
    (current : service.mSubscriptionManager.CountCurrent)
    (absent : ¬(service.mSubscriptionManager.view call.context).Present) {d : ContextAddress}
    (other : d ≠ call.context) :
    (construct service call).service.mSubscriptionManager.view d =
      service.mSubscriptionManager.view d := by
  have keeps := keeps_construct coherent current absent
  rw [keeps.others d (by rw [register_reactor]; exact other), view_register_of_ne other]

theorem allSubscribers_register (coherent : service.mSubscriptionManager.Coherent)
    (absent : ¬(service.mSubscriptionManager.view call.context).Present)
    (selects : call.request ≠ .subscribe []) :
    (register service call).service.mSubscriptionManager.allSubscribers =
      service.mSubscriptionManager.allSubscribers.insert call.context := by
  apply ExtTreeSet.ext_mem
  intro c
  rw [mem_set_insert, SubscriptionManager.mem_allSubscribers,
    SubscriptionManager.mem_allSubscribers]
  by_cases own : call.context = c
  · subst own
    exact iff_of_true (present_register coherent absent selects) (.inl rfl)
  · rw [view_register_of_ne (Ne.symm own), or_iff_right own]

/-- A constructor adds its own context, unless the request selects nothing or the
loop is left at once. -/
theorem allSubscribers_construct (coherent : service.mSubscriptionManager.Coherent)
    (absent : ¬(service.mSubscriptionManager.view call.context).Present) :
    (construct service call).service.mSubscriptionManager.allSubscribers =
      if call.request = .subscribe [] ∨ service.mKeepRunning = false ∨ call.isCancelled = true
      then service.mSubscriptionManager.allSubscribers
      else service.mSubscriptionManager.allSubscribers.insert call.context := by
  split
  case isTrue quiets => exact (construct_unchanged coherent absent quiets).allSubscribers
  case isFalse stays =>
    simp only [not_or, Bool.not_eq_false, Bool.not_eq_true] at stays
    obtain ⟨selects, running, live⟩ := stays
    have fetches : construct service call = (register service call).enterLoop.fetchPackets := by
      rw [construct_eq, running, live]
      rfl
    rw [fetches, ← allSubscribers_register coherent absent selects]
    exact SubscriptionManager.allSubscribers_eq (SubscriptionManager.present_getPackets _ _)

end Session

namespace Server

def nSubscribers (server : Server) : ℕ := server.service.mSubscriptionManager.allSubscribers.size

/-- The records agree, and every subscriber has a reactor that knows it. -/
structure Accounted (options : ServerOptions) (server : Server) : Prop where
  sameOptions : server.service.mOptions = options
  coherent : server.service.mSubscriptionManager.Coherent
  current : server.service.mSubscriptionManager.CountCurrent
  live : ∀ c reactor, server.reactors c = some reactor →
    reactor.mContextAddress = c ∧ reactor.done = false
  owned : ∀ c, (server.service.mSubscriptionManager.view c).Present →
    ∃ reactor, server.reactors c = some reactor ∧ reactor.mSubscribed = true

/-- The records agree, every subscriber has a reactor that knows it, and the
subscribers are within the limit. -/
structure Bounded (options : ServerOptions) (server : Server) : Prop
    extends server.Accounted options where
  bounded : (server.service.mSubscriptionManager.allSubscribers.size : Int) ≤
    options.mMaximumNumberOfSubscribers

/-- An RPC arrives while there is room, or it will not hold a subscription. -/
def Admits (server : Server) : ServerEvent → Prop
  | .connect call =>
      server.service.mSubscriptionManager.getNumberOfSubscribers.1 <
          server.service.mOptions.mMaximumNumberOfSubscribers ∨
        call.request = .subscribe [] ∨ server.service.mKeepRunning = false ∨
        call.isCancelled = true
  | _ => True

instance (server : Server) (event : ServerEvent) : Decidable (server.Admits event) := by
  cases event <;> unfold Server.Admits <;> infer_instance

variable {options : ServerOptions} {server : Server}

theorem connect_of_free {call : IncomingCall} (free : server.reactors call.context = none) :
    server.connect call = ⟨(Session.construct server.service call).service,
      Function.update server.reactors call.context
        (some (Session.construct server.service call).reactor)⟩ := by
  simp only [Server.connect, free]

theorem react_of_live {c : ContextAddress} {reactor : Reactor} (event : ReactorEvent)
    (there : server.reactors c = some reactor) :
    server.react c event = ⟨(Session.react ⟨server.service, reactor⟩ event).service,
      Function.update server.reactors c
        (if (Session.react ⟨server.service, reactor⟩ event).reactor.done then none
          else some (Session.react ⟨server.service, reactor⟩ event).reactor)⟩ := by
  simp only [Server.react, there]

namespace Accounted

theorem absent (h : server.Accounted options) {c : ContextAddress}
    (free : server.reactors c = none) : ¬(server.service.mSubscriptionManager.view c).Present := by
  intro present
  obtain ⟨reactor, there, -⟩ := h.owned c present
  cases free.symm.trans there

theorem ownedBy (h : server.Accounted options) {reactor : Reactor}
    (there : server.reactors reactor.mContextAddress = some reactor) :
    Session.Owned ⟨server.service, reactor⟩ := by
  refine ⟨h.coherent, h.current, fun present => ?_⟩
  obtain ⟨same, found, flag⟩ := h.owned _ present
  rw [there] at found
  rw [Option.some.inj found]
  exact flag

/-- A session that keeps to its own context takes the place of the one that was there. -/
theorem replace (h : server.Accounted options) {session : Session} (owned : session.Owned)
    (sameOptions : session.service.mOptions = options)
    (others : ∀ d, d ≠ session.reactor.mContextAddress →
      session.service.mSubscriptionManager.view d = server.service.mSubscriptionManager.view d)
    (left : session.reactor.done = true → session.reactor.mSubscribed = false) :
    Accounted options ⟨session.service, Function.update server.reactors
      session.reactor.mContextAddress
        (if session.reactor.done then none else some session.reactor)⟩ := by
  refine ⟨sameOptions, owned.coherent, owned.current, ?_, ?_⟩
  · intro d reactor there
    by_cases own : d = session.reactor.mContextAddress
    · subst own
      change Function.update _ _ _ _ = _ at there
      rw [Function.update_self] at there
      split at there
      · cases there
      · rename_i going
        obtain rfl := Option.some.inj there
        exact ⟨rfl, Bool.not_eq_true _ ▸ going⟩
    · change Function.update _ _ _ _ = _ at there
      rw [Function.update_of_ne own] at there
      exact h.live d reactor there
  · intro d present
    by_cases own : d = session.reactor.mContextAddress
    · subst own
      have flag := owned.owned present
      change ∃ reactor, Function.update _ _ _ _ = _ ∧ _
      rw [Function.update_self, if_neg]
      · exact ⟨_, rfl, flag⟩
      · intro done
        rw [left done] at flag
        cases flag
    · change ∃ reactor, Function.update _ _ _ _ = _ ∧ _
      rw [Function.update_of_ne own]
      exact h.owned d (by rwa [others d own] at present)

theorem connect (h : server.Accounted options) (call : IncomingCall) :
    (server.connect call).Accounted options := by
  cases free : server.reactors call.context with
  | some reactor => simpa only [Server.connect, free] using h
  | none =>
      have absent := h.absent free
      have keeps : (Session.register server.service call).Keeps
          (Session.construct server.service call) :=
        Session.keeps_construct h.coherent h.current absent
      have address : (Session.construct server.service call).reactor.mContextAddress =
          call.context := by
        rw [keeps.address, Session.register_reactor]
      have going : (Session.construct server.service call).reactor.done = false := by
        rw [Session.construct, Session.nextWrite, Session.nextWritePass_done, Session.enterLoop,
          Session.register_reactor]
      have sameOptions : (Session.construct server.service call).service.mOptions = options := by
        rw [← h.sameOptions, ← (Session.register_service server.service call).1]
        exact keeps.options
      have next := h.replace keeps.owned sameOptions
        (fun d other => Session.view_construct_of_ne h.coherent h.current absent (address ▸ other))
        (by rw [going]; exact fun ended => absurd ended Bool.false_ne_true)
      rw [address, going, if_neg Bool.false_ne_true] at next
      rw [connect_of_free free]
      exact next

theorem allSubscribers_enqueuePacket (h : server.Accounted options) (packet : Packet) :
    (server.enqueuePacket packet).service.mSubscriptionManager.allSubscribers =
      server.service.mSubscriptionManager.allSubscribers := by
  refine SubscriptionManager.allSubscribers_eq (fun c => ?_)
  rw [Server.enqueuePacket, view_managerMachine_step, ClientView.step]
  split
  · exact ClientView.present_enqueue (h.coherent c) packet
  · exact Iff.rfl

theorem enqueuePacket (h : server.Accounted options) (packet : Packet) :
    (server.enqueuePacket packet).Accounted options := by
  refine ⟨h.sameOptions, coherent_step _ _ h.coherent,
    SubscriptionManager.countCurrent_step _ _ h.coherent h.current, h.live, fun c present => ?_⟩
  rw [← SubscriptionManager.mem_allSubscribers, h.allSubscribers_enqueuePacket packet,
    SubscriptionManager.mem_allSubscribers] at present
  exact h.owned c present

theorem react (h : server.Accounted options) (c : ContextAddress) (event : ReactorEvent) :
    (server.react c event).Accounted options := by
  cases there : server.reactors c with
  | none => simpa only [Server.react, there] using h
  | some reactor =>
      rw [react_of_live event there]
      obtain ⟨rfl, live⟩ := h.live c reactor there
      have keeps := (h.ownedBy there).moves (Session.moves_react _ event)
      have next := h.replace keeps.owned (keeps.options.trans h.sameOptions)
        (by rw [keeps.address]; exact keeps.others) (Session.not_subscribed_of_done live)
      rw [keeps.address] at next
      exact next

theorem step (h : server.Accounted options) (event : ServerEvent) :
    (serverMachine.step server event).1.Accounted options := by
  cases event with
  | connect call => exact h.connect call
  | enqueuePacket packet => exact h.enqueuePacket packet
  | reactor c event => exact h.react c event
  | stopServer => exact ⟨h.sameOptions, h.coherent, h.current, h.live, h.owned⟩

end Accounted

theorem allSubscribers_start (options : ServerOptions) (streamOptions : StreamOptions) :
    (start options streamOptions).service.mSubscriptionManager.allSubscribers = ∅ := by
  apply ExtTreeSet.ext_mem
  intro c
  rw [SubscriptionManager.mem_allSubscribers]
  exact iff_of_false (SubscriptionManager.not_present_fresh streamOptions c)
    ExtTreeSet.not_mem_empty

theorem start_accounted (options : ServerOptions) (streamOptions : StreamOptions) :
    (start options streamOptions).Accounted options :=
  ⟨rfl, fresh_coherent streamOptions, SubscriptionManager.countCurrent_of_reset _ rfl, nofun,
    fun c present => absurd present (SubscriptionManager.not_present_fresh streamOptions c)⟩

theorem Accounted.nSubscribers_connect (h : server.Accounted options) {call : IncomingCall}
    (free : server.reactors call.context = none) :
    (server.connect call).nSubscribers =
      if call.request = .subscribe [] ∨ server.service.mKeepRunning = false ∨
          call.isCancelled = true
      then server.nSubscribers else server.nSubscribers + 1 := by
  have absent := h.absent free
  have fresh : ¬call.context ∈ server.service.mSubscriptionManager.allSubscribers := by
    rwa [SubscriptionManager.mem_allSubscribers]
  rw [nSubscribers, connect_of_free free, Session.allSubscribers_construct h.coherent absent]
  split
  · rfl
  · exact size_insert_absent _ fresh

theorem Bounded.connect (h : server.Bounded options) {call : IncomingCall}
    (admits : server.Admits (.connect call)) : (server.connect call).Bounded options := by
  refine ⟨h.toAccounted.connect call, ?_⟩
  cases free : server.reactors call.context with
  | some reactor => simpa only [Server.connect, free] using h.bounded
  | none =>
      change ((server.connect call).nSubscribers : Int) ≤ options.mMaximumNumberOfSubscribers
      rw [h.nSubscribers_connect free]
      split
      case isTrue quiets => exact h.bounded
      case isFalse stays =>
        have room := admits.resolve_right stays
        rw [SubscriptionManager.getNumberOfSubscribers_fst _ h.current, h.sameOptions] at room
        rw [nSubscribers]
        omega

theorem Bounded.react (h : server.Bounded options) (c : ContextAddress) (event : ReactorEvent) :
    (server.react c event).Bounded options := by
  refine ⟨h.toAccounted.react c event, ?_⟩
  cases there : server.reactors c with
  | none => simpa only [Server.react, there] using h.bounded
  | some reactor =>
      rw [react_of_live event there]
      obtain ⟨rfl, -⟩ := h.live c reactor there
      have keeps := (h.ownedBy there).moves (Session.moves_react _ event)
      refine le_trans (Int.ofNat_le.mpr (size_le_of_subset (fun d member => ?_))) h.bounded
      rw [SubscriptionManager.mem_allSubscribers] at member ⊢
      by_cases own : d = reactor.mContextAddress
      · subst own
        exact keeps.fewer member
      · rwa [keeps.others d own] at member

theorem Bounded.step (h : server.Bounded options) {event : ServerEvent}
    (admits : server.Admits event) : (serverMachine.step server event).1.Bounded options := by
  cases event with
  | connect call => exact h.connect admits
  | enqueuePacket packet =>
      refine ⟨h.toAccounted.enqueuePacket packet, ?_⟩
      change ((server.enqueuePacket packet).service.mSubscriptionManager.allSubscribers.size : Int) ≤ _
      rw [h.allSubscribers_enqueuePacket packet]
      exact h.bounded
  | reactor c event => exact h.react c event
  | stopServer => exact ⟨h.toAccounted.step .stopServer, h.bounded⟩

theorem start_bounded (options : ServerOptions) (streamOptions : StreamOptions) :
    (start options streamOptions).Bounded options := by
  refine ⟨start_accounted options streamOptions, ?_⟩
  rw [allSubscribers_start]
  exact options.positive.le

/-- A status of a reactor that has just been built, if it reports exhausted
resources, is that of the capacity check. -/
theorem atCapacity_of_exhausted {service : Service} {call : IncomingCall} {status : Status}
    (exhausted : status.code = .resourceExhausted)
    (finished : .finish status ∈ (Session.construct service call).reactor.calls) :
    service.AtCapacity := by
  have checked : status ∈ Session.registerStatuses service call := by
    rw [Session.construct_eq] at finished
    have registered : ∀ other : Status, .finish other ∈
        (Session.register service call).enterLoop.reactor.calls →
        other ∈ Session.registerStatuses service call := by
      intro other member
      simpa [Session.enterLoop, Session.register_reactor] using member
    split at finished
    · rw [Session.leave_reactor] at finished
      rcases List.mem_append.mp finished with before | last
      · exact registered status before
      · obtain ⟨⟩ := List.mem_singleton.mp last
        split at exhausted <;> cases exhausted
    · exact registered status finished
  by_contra room
  simp only [Session.registerStatuses, Session.checkStatuses, if_neg room, List.append_nil,
    List.mem_append] at checked
  rcases checked with member | member
  · split at member
    · obtain rfl := List.mem_singleton.mp member
      cases exhausted
    · cases member
  · split at member
    · simp only [List.mem_cons, List.not_mem_nil, or_false] at member
      rcases member with rfl | rfl | rfl <;> cases exhausted
    · cases member

/-- A call that is finished as one too many and will not hold a subscription
leaves the subscriptions as they were. -/
theorem Bounded.connect_exhausted (h : server.Bounded options) {call : IncomingCall}
    (admits : server.Admits (.connect call)) (free : server.reactors call.context = none)
    (full : server.service.AtCapacity) :
    (server.connect call).service.mSubscriptionManager.SameSubscriptions
      server.service.mSubscriptionManager := by
  rw [connect_of_free free]
  exact Session.construct_unchanged h.coherent (h.absent free)
    (admits.resolve_left (not_lt.mpr full))

end Server

/-- In every run in which each call arrives while there is room, or will not hold a
subscription, the limit is kept, and a call that is one too many changes nothing. -/
theorem subscriber_limit (options : ServerOptions) (streamOptions : StreamOptions)
    (events : List ServerEvent)
    (admitted : serverMachine.Admissible Server.Admits (Server.start options streamOptions)
      events) :
    let server := serverMachine.run (Server.start options streamOptions) events
    server.service.mSubscriptionManager.getNumberOfSubscribers.1 ≤
        options.mMaximumNumberOfSubscribers ∧
      ∀ call status, server.Admits (.connect call) → server.reactors call.context = none →
        status.code = .resourceExhausted →
        .finish status ∈ (Session.construct server.service call).reactor.calls →
        (serverMachine.step server (.connect call)).1.service.mSubscriptionManager.SameSubscriptions
          server.service.mSubscriptionManager := by
  have reached : (serverMachine.run (Server.start options streamOptions) events).Bounded options :=
    admitted.invariant (Server.Bounded options) (fun _ _ h admits => h.step admits)
      (Server.start_bounded options streamOptions)
  refine ⟨?_, fun call status admits free exhausted finished => ?_⟩
  · rw [SubscriptionManager.getNumberOfSubscribers_fst _ reached.current]
    exact reached.bounded
  · exact reached.connect_exhausted admits free
      (Server.atCapacity_of_exhausted exhausted finished)

/-- A service for two clients refuses a third that is already cancelled. -/
theorem subscriber_limit_cancelled :
    let server := serverMachine.run (Server.start { mMaximumNumberOfSubscribers := 2 } {})
      [.connect { context := 1, request := .subscribeToAll },
        .enqueuePacket (channelPacket "HHZ" 0 100),
        .connect { context := 2, request := .subscribe [channelIdentifier "HHZ"] }]
    let call : IncomingCall := { context := 3, request := .subscribeToAll, isCancelled := true }
    server.service.mSubscriptionManager.getNumberOfSubscribers.1 ≤ 2 ∧
      (serverMachine.step server (.connect call)).1.service.mSubscriptionManager.SameSubscriptions
        server.service.mSubscriptionManager := by
  have limit := subscriber_limit { mMaximumNumberOfSubscribers := 2 } {}
    [.connect { context := 1, request := .subscribeToAll },
      .enqueuePacket (channelPacket "HHZ" 0 100),
      .connect { context := 2, request := .subscribe [channelIdentifier "HHZ"] }]
    ⟨by set_option maxRecDepth 8000 in decide, trivial, by set_option maxRecDepth 8000 in decide,
      trivial⟩
  exact ⟨limit.1, limit.2 { context := 3, request := .subscribeToAll, isCancelled := true }
    .maxSubscribersHit (.inr (.inr (.inr rfl))) rfl rfl
    (by set_option maxRecDepth 8000 in decide)⟩

/-- A second client is counted although the service is for one. -/
theorem subscriber_limit_exceeded :
    ¬(serverMachine.run (Server.start { mMaximumNumberOfSubscribers := 1 } {})
      [.connect { context := 1, request := .subscribeToAll }, .connect
        { context := 2, request := .subscribeToAll }]).service.mSubscriptionManager.getNumberOfSubscribers.1 ≤
      1 := by
  set_option maxRecDepth 8000 in decide

end UDataPacketService
