import UDataPacketService.SubscriberLimit
import UDataPacketService.WriteDiscipline

/-! The utilization in `MetricsSingleton`, by which the service is scaled. A constructor
stores it when it has subscribed, and returns when its loop has written or is left. Nothing
stores it when a subscriber leaves: `OnDone` computes the new value for a message only. -/
namespace UDataPacketService
open Std (ExtTreeMap ExtTreeSet)
open OrderedContainers

def ServerOptions.utilization (options : ServerOptions) (nSubscribers : ℕ) : ℚ :=
  min 1 (nSubscribers / (max 1 options.mMaximumNumberOfSubscribers : Int))

/-- The stored utilization is that of the subscribers. -/
def Service.GaugeCurrent (service : Service) : Prop :=
  service.mMetrics.mUtilization =
    min 1 ((service.mSubscriptionManager.getNumberOfSubscribers.1 : ℚ) /
      (max 1 service.mOptions.mMaximumNumberOfSubscribers : Int))

/-- The reactor polls in its constructor, which returns behind the first `StartWrite`. -/
def Reactor.Constructing (reactor : Reactor) : Prop :=
  reactor.polling = true ∧ writtenPackets reactor.calls = []

namespace Server

/-- A constructor or an `OnDone` returns: a constructor whose first pass leaves the loop, a
pass that ends the polling of a constructor, or an `OnDone`. -/
def Returns (server : Server) : ServerEvent → Prop
  | .connect call => server.reactors call.context = none ∧
      (Session.construct server.service call).reactor.polling = false
  | .reactor c .pass => ∃ reactor, server.reactors c = some reactor ∧ reactor.Constructing ∧
      (Session.react ⟨server.service, reactor⟩ .pass).reactor.polling = false
  | .reactor c .onDone =>
      ∃ reactor, server.reactors c = some reactor ∧ ReactorEvent.onDone.Deliverable reactor
  | _ => False

/-- When a constructor or an `OnDone` returns, the stored utilization is current. -/
def GaugeFollows (server : Server) (event : ServerEvent) : Prop :=
  server.Returns event → (serverMachine.step server event).1.service.GaugeCurrent

def Stores (server : Server) : ServerEvent → Prop
  | .connect call => server.reactors call.context = none ∧ call.request ≠ .subscribe []
  | _ => False

instance (server : Server) : DecidablePred server.Stores
  | .connect call => inferInstanceAs
      (Decidable (server.reactors call.context = none ∧ call.request ≠ .subscribe []))
  | .enqueuePacket _ | .reactor _ _ | .stopServer => inferInstanceAs (Decidable False)

end Server

/-- The server with the number of subscribers for which the utilization was stored last. -/
structure Watched where
  server : Server
  stored : ℕ

def watchMachine : Machine Watched ServerEvent Unit where
  step watched event :=
    (⟨(serverMachine.step watched.server event).1,
      if watched.server.Stores event then watched.server.nSubscribers + 1 else watched.stored⟩, ())

/-- Two numbers of subscribers are equal or both exhaust the service. -/
def ServerOptions.Agree (options : ServerOptions) (m n : ℕ) : Prop :=
  m = n ∨ options.mMaximumNumberOfSubscribers ≤ m ∧ options.mMaximumNumberOfSubscribers ≤ n

/-- A constructor whose first pass leaves the loop finds the service exhausted, or as many
subscribers as were stored last if it stores nothing. Whoever returns later leaves as many
as were stored last. -/
def Watched.CountHolds (watched : Watched) : ServerEvent → Prop
  | .connect call => watched.server.reactors call.context = none →
      watched.server.service.mKeepRunning = false ∨ call.isCancelled = true →
        if call.request = .subscribe [] then
          watched.server.service.mOptions.Agree watched.stored watched.server.nSubscribers
        else watched.server.service.mOptions.mMaximumNumberOfSubscribers ≤
          watched.server.nSubscribers
  | .reactor c .pass => ∀ reactor, watched.server.reactors c = some reactor →
      reactor.Constructing →
        if watched.server.service.mKeepRunning = false ∨ reactor.isCancelled = true then
          watched.server.service.mOptions.Agree watched.stored
            (watched.server.service.mSubscriptionManager.allSubscribers.erase c).size
        else reactor.mPacketsQueue ≠ [] ∧ reactor.mWriteInProgress = false →
          watched.server.service.mOptions.Agree watched.stored watched.server.nSubscribers
  | .reactor c .onDone => ∀ reactor, watched.server.reactors c = some reactor →
      ReactorEvent.onDone.Deliverable reactor →
        watched.server.service.mOptions.Agree watched.stored
          (watched.server.service.mSubscriptionManager.allSubscribers.erase c).size
  | _ => True

section Utilization
variable (options : ServerOptions)

/-- The utilization tells numbers of subscribers apart up to the limit. -/
theorem utilization_eq_iff (m n : ℕ) :
    options.utilization m = options.utilization n ↔ options.Agree m n := by
  have limit : max 1 options.mMaximumNumberOfSubscribers = options.mMaximumNumberOfSubscribers :=
    max_eq_right options.positive
  have positive : (0 : ℚ) < options.mMaximumNumberOfSubscribers := by
    exact_mod_cast options.positive
  have scaled (k : ℕ) : options.utilization k =
      (min options.mMaximumNumberOfSubscribers k : Int) / options.mMaximumNumberOfSubscribers := by
    rw [ServerOptions.utilization, limit, Int.cast_min, ← min_div_div_right positive.le,
      div_self positive.ne', Int.cast_natCast]
  rw [scaled, scaled, div_left_inj' positive.ne', Int.cast_inj, ServerOptions.Agree]
  omega

theorem agree_succ_iff (n : ℕ) :
    options.Agree (n + 1) n ↔ options.mMaximumNumberOfSubscribers ≤ n := by
  rw [ServerOptions.Agree]
  omega

end Utilization

namespace Session

theorem Moves.utilization {session next : Session} (moves : session.Moves next) :
    next.service.mMetrics.mUtilization = session.service.mMetrics.mUtilization := by
  induction moves with
  | refl => rfl
  | tail _ move ih =>
      rw [← ih]
      cases move with
      | note | finish | startWrite | getNumberOfSubscribers | fetchPackets => rfl
      | unsubscribe =>
          unfold Session.unsubscribe
          split <;> rfl

variable {service : Service} {call : IncomingCall}

theorem mMetrics_register :
    (register service call).service.mMetrics =
      if call.request = .subscribe [] then service.mMetrics
      else service.mMetrics.updateUtilization
        ((register service call).service.mSubscriptionManager.getNumberOfSubscribers.1 /
          (max 1 service.mOptions.mMaximumNumberOfSubscribers : Int)) := by
  rw [register, checks_eq]
  cases call.request with
  | subscribeToAll =>
      rw [if_neg (by simp)]
      simp only [subscribeToAll, subscribed, getNumberOfSubscribers,
        SubscriptionManager.getNumberOfSubscribers_again]
  | subscribe selections =>
      cases selections with
      | nil => rfl
      | cons first rest =>
          have some := List.cons_ne_nil first rest
          rw [if_neg (by simp)]
          simp only [subscribeToSelections, if_neg some, if_neg (distinctIdentifiers_ne_nil some),
            subscribe_settle _ _ some, subscribed, getNumberOfSubscribers,
            SubscriptionManager.getNumberOfSubscribers_again]

/-- The context of a reactor that has left is gone, and no other one is. -/
theorem allSubscribers_of_left {session next : Session} (owned : session.Owned)
    (moves : session.Moves next) (left : next.reactor.mSubscribed = false) :
    next.service.mSubscriptionManager.allSubscribers =
      session.service.mSubscriptionManager.allSubscribers.erase session.reactor.mContextAddress := by
  have keeps := owned.moves moves
  apply ExtTreeSet.ext_mem
  intro c
  rw [mem_set_erase, SubscriptionManager.mem_allSubscribers, SubscriptionManager.mem_allSubscribers]
  by_cases own : session.reactor.mContextAddress = c
  · subst own
    refine iff_of_false (fun present => ?_) (fun stays => stays.1 rfl)
    have flag := keeps.owned.owned (keeps.address ▸ present)
    exact Bool.false_ne_true (left.symm.trans flag)
  · rw [keeps.others c (Ne.symm own), ne_eq, and_iff_right own]

/-- The constructor returns behind its first pass only if that pass leaves the loop. -/
theorem polling_construct :
    (construct service call).reactor.polling = false ↔
      service.mKeepRunning = false ∨ call.isCancelled = true := by
  rw [construct_eq]
  split
  case isTrue leaves =>
    rw [leave_reactor]
    simpa using leaves
  case isFalse stays =>
    refine iff_of_false ?_ (by simpa using stays)
    simp [fetchPackets, enterLoop]

theorem react_pass {session : Session} (live : session.reactor.done = false)
    (polls : session.reactor.polling = true) : session.react .pass = session.nextWritePass := by
  rw [react, if_neg (by simp [live, polls, ReactorEvent.Deliverable])]

/-- A pass ends the polling when it leaves the loop or writes. -/
theorem polling_nextWritePass {session : Session} (polls : session.reactor.polling = true) :
    session.nextWritePass.reactor.polling = false ↔
      (session.service.mKeepRunning = false ∨ session.reactor.isCancelled = true) ∨
        session.reactor.mPacketsQueue ≠ [] ∧ session.reactor.mWriteInProgress = false := by
  unfold nextWritePass
  split
  case isTrue leaves =>
    rw [leave_reactor]
    simpa using Or.inl leaves
  case isFalse stays =>
    rw [or_iff_right (by simpa using stays)]
    cases queue : session.reactor.mPacketsQueue with
    | nil => simp [fetchPackets, polls]
    | cons packet rest =>
        cases writes : session.reactor.mWriteInProgress with
        | false => simp [startWrite]
        | true => simp [polls]

theorem allSubscribers_nextWritePass {session : Session}
    (stays : ¬(session.service.mKeepRunning = false ∨ session.reactor.isCancelled = true)) :
    session.nextWritePass.service.mSubscriptionManager.allSubscribers =
      session.service.mSubscriptionManager.allSubscribers := by
  rw [nextWritePass, if_neg (by simpa using stays)]
  split
  · exact SubscriptionManager.allSubscribers_eq (SubscriptionManager.present_getPackets _ _)
  · split <;> rfl

end Session

namespace Server
variable {options : ServerOptions} {server : Server}

theorem Accounted.gaugeCurrent_iff (h : server.Accounted options) :
    server.service.GaugeCurrent ↔
      server.service.mMetrics.mUtilization = options.utilization server.nSubscribers := by
  rw [Service.GaugeCurrent, SubscriptionManager.getNumberOfSubscribers_fst _ h.current,
    h.sameOptions, Int.cast_natCast]
  rfl

theorem updateUtilization_eq (metrics : Metrics) (n : ℕ) :
    (metrics.updateUtilization
        (n / (max 1 options.mMaximumNumberOfSubscribers : Int))).mUtilization =
      options.utilization n := by
  have limit : (0 : ℚ) ≤ (max 1 options.mMaximumNumberOfSubscribers : Int) := by
    exact_mod_cast zero_le_one.trans (le_max_left 1 options.mMaximumNumberOfSubscribers)
  rw [Metrics.updateUtilization, max_eq_right (div_nonneg n.cast_nonneg limit), min_comm]
  rfl

/-- A constructor stores the utilization with the new subscriber. -/
theorem Accounted.utilization_connect (h : server.Accounted options) {call : IncomingCall}
    (free : server.reactors call.context = none) :
    (server.connect call).service.mMetrics.mUtilization =
      if call.request = .subscribe [] then server.service.mMetrics.mUtilization
      else options.utilization (server.nSubscribers + 1) := by
  have absent := h.absent free
  have same := (Session.moves_nextWrite (Session.register server.service call)).utilization
  rw [connect_of_free free, Session.construct, same, Session.mMetrics_register]
  split
  case isTrue nothing => rfl
  case isFalse selects =>
    have fresh : ¬call.context ∈ server.service.mSubscriptionManager.allSubscribers := by
      rwa [SubscriptionManager.mem_allSubscribers]
    rw [SubscriptionManager.getNumberOfSubscribers_fst _
        (Session.owned_register h.coherent h.current absent).current,
      Session.allSubscribers_register h.coherent absent selects, size_insert_absent _ fresh,
      h.sameOptions, Int.cast_natCast]
    exact updateUtilization_eq _ _

theorem react_utilization (c : ContextAddress) (event : ReactorEvent) :
    (server.react c event).service.mMetrics.mUtilization =
      server.service.mMetrics.mUtilization := by
  cases there : server.reactors c with
  | none => simp only [Server.react, there]
  | some reactor =>
      rw [react_of_live event there]
      exact (Session.moves_react _ event).utilization

theorem Accounted.nSubscribers_of_left (h : server.Accounted options) {c : ContextAddress}
    {reactor : Reactor} (there : server.reactors c = some reactor) (event : ReactorEvent)
    (left : (Session.react ⟨server.service, reactor⟩ event).reactor.mSubscribed = false) :
    (server.react c event).nSubscribers =
      (server.service.mSubscriptionManager.allSubscribers.erase c).size := by
  obtain ⟨rfl, -⟩ := h.live c reactor there
  rw [nSubscribers, react_of_live _ there,
    Session.allSubscribers_of_left (h.ownedBy there) (Session.moves_react _ event) left]

theorem Accounted.nSubscribers_onDone (h : server.Accounted options) {c : ContextAddress}
    {reactor : Reactor} (there : server.reactors c = some reactor)
    (deliverable : ReactorEvent.onDone.Deliverable reactor) :
    (server.react c .onDone).nSubscribers =
      (server.service.mSubscriptionManager.allSubscribers.erase c).size := by
  have live := (h.live c reactor there).2
  refine h.nSubscribers_of_left there .onDone (Session.not_subscribed_of_done live ?_)
  rw [Session.react, if_neg (by simp [live, deliverable])]

theorem Accounted.polling_pass (h : server.Accounted options) {c : ContextAddress}
    {reactor : Reactor} (there : server.reactors c = some reactor)
    (polls : reactor.polling = true) :
    (Session.react ⟨server.service, reactor⟩ .pass).reactor.polling = false ↔
      (server.service.mKeepRunning = false ∨ reactor.isCancelled = true) ∨
        reactor.mPacketsQueue ≠ [] ∧ reactor.mWriteInProgress = false := by
  rw [Session.react_pass (h.live c reactor there).2 polls]
  exact Session.polling_nextWritePass polls

theorem Accounted.nSubscribers_pass (h : server.Accounted options) {c : ContextAddress}
    {reactor : Reactor} (there : server.reactors c = some reactor)
    (polls : reactor.polling = true) :
    (server.react c .pass).nSubscribers =
      if server.service.mKeepRunning = false ∨ reactor.isCancelled = true then
        (server.service.mSubscriptionManager.allSubscribers.erase c).size
      else server.nSubscribers := by
  have passes : Session.react ⟨server.service, reactor⟩ .pass =
      Session.nextWritePass ⟨server.service, reactor⟩ :=
    Session.react_pass (h.live c reactor there).2 polls
  split
  case isTrue leaves =>
    refine h.nSubscribers_of_left there .pass ?_
    rw [passes, Session.nextWritePass, if_pos (by simpa using leaves), Session.leave_reactor]
  case isFalse stays =>
    rw [nSubscribers, react_of_live _ there, passes, Session.allSubscribers_nextWritePass stays]
    rfl

end Server

namespace Watched
variable {options : ServerOptions} {watched : Watched}

/-- The records are in order, and the stored utilization is that of the recorded number. -/
structure Recorded (options : ServerOptions) (watched : Watched) : Prop where
  accounted : watched.server.Accounted options
  stored : watched.server.service.mMetrics.mUtilization = options.utilization watched.stored

theorem Recorded.step (h : watched.Recorded options) (event : ServerEvent) :
    (watchMachine.step watched event).1.Recorded options := by
  refine ⟨h.accounted.step event, ?_⟩
  change (serverMachine.step watched.server event).1.service.mMetrics.mUtilization =
    options.utilization (if watched.server.Stores event then _ else _)
  cases event with
  | connect call =>
      cases free : watched.server.reactors call.context with
      | some reactor =>
          rw [if_neg (by simp [Server.Stores, free])]
          simpa only [serverMachine, Server.connect, free] using h.stored
      | none =>
          refine (h.accounted.utilization_connect free).trans ?_
          by_cases nothing : call.request = .subscribe []
          · rw [if_pos nothing, if_neg (fun stores => stores.2 nothing)]
            exact h.stored
          · rw [if_neg nothing, if_pos ⟨free, nothing⟩]
  | enqueuePacket packet => exact h.stored
  | reactor c event => exact (Server.react_utilization c event).trans h.stored
  | stopServer => exact h.stored

/-- The condition says when the stored utilization is current after the step. -/
theorem Recorded.gaugeFollows_iff (h : watched.Recorded options) (event : ServerEvent) :
    watched.server.GaugeFollows event ↔ watched.CountHolds event := by
  have limit := h.accounted.sameOptions
  cases event with
  | connect call =>
      have after := (h.accounted.connect call).gaugeCurrent_iff
      simp only [Server.GaugeFollows, Server.Returns, CountHolds, and_imp,
        Session.polling_construct]
      refine forall_congr' (fun free => forall_congr' (fun leaves => ?_))
      have same := h.accounted.nSubscribers_connect free
      rw [if_pos (.inr leaves)] at same
      rw [h.accounted.utilization_connect free, same] at after
      refine after.trans ?_
      rw [limit]
      by_cases nothing : call.request = .subscribe []
      · rw [if_pos nothing, if_pos nothing, h.stored, utilization_eq_iff]
      · -- the new subscriber is counted in the stored utilization and is gone again
        rw [if_neg nothing, if_neg nothing, utilization_eq_iff, agree_succ_iff]
  | reactor c event =>
      have after : (serverMachine.step watched.server (.reactor c event)).1.service.GaugeCurrent ↔
          watched.server.service.mOptions.Agree watched.stored
            (watched.server.react c event).nSubscribers := by
        have current := (h.accounted.react c event).gaugeCurrent_iff
        rwa [Server.react_utilization, h.stored, utilization_eq_iff, ← limit] at current
      cases event with
      | pass =>
          simp only [Server.GaugeFollows, Server.Returns, CountHolds, forall_exists_index, and_imp]
          refine forall_congr' (fun reactor => forall_congr' (fun there =>
            forall_congr' (fun constructing => ?_)))
          rw [h.accounted.polling_pass there constructing.1, after,
            h.accounted.nSubscribers_pass there constructing.1]
          split
          case isTrue leaves => exact forall_prop_of_true (.inl leaves)
          case isFalse stays => rw [or_iff_right stays, and_imp]
      | onDone =>
          simp only [Server.GaugeFollows, Server.Returns, CountHolds, forall_exists_index, and_imp]
          refine forall_congr' (fun reactor => forall_congr' (fun there =>
            forall_congr' (fun deliverable => ?_)))
          rw [after, h.accounted.nSubscribers_onDone there deliverable]
      | cancel | onWriteDone | onCancel => exact iff_of_true False.elim trivial
  | enqueuePacket | stopServer => exact iff_of_true False.elim trivial

end Watched

/-- In every run of the server the stored utilization is current whenever a constructor
or an `OnDone` returns, exactly if the number of subscribers then is the one for which
it was stored last, or both exhaust the service. -/
theorem utilization_follows_iff (options : ServerOptions) (streamOptions : StreamOptions)
    (events : List ServerEvent) :
    serverMachine.Admissible Server.GaugeFollows (Server.start options streamOptions) events ↔
      watchMachine.Admissible Watched.CountHolds ⟨Server.start options streamOptions, 0⟩ events := by
  have begins : Watched.Recorded options ⟨Server.start options streamOptions, 0⟩ := by
    refine ⟨Server.start_accounted options streamOptions, ?_⟩
    rw [ServerOptions.utilization, Nat.cast_zero, zero_div, min_eq_right zero_le_one]
    rfl
  have image := serverMachine.admissible_image_iff watchMachine Watched.server (fun _ _ => rfl)
    Server.GaugeFollows ⟨Server.start options streamOptions, 0⟩ events
  exact image.symm.trans (watchMachine.admissible_congr (Watched.Recorded options)
    (fun _ event h => h.gaugeFollows_iff event) (fun _ event h _ => h.step event) begins events)

/-- The only client is sent a packet and cancels, and an eighth of the service stays in use
for nobody. -/
theorem utilization_stale :
    ¬serverMachine.Admissible Server.GaugeFollows (Server.start {} {})
      [.connect { context := 7, request := .subscribeToAll },
        .enqueuePacket (channelPacket "HHZ" 0 1), .reactor 7 .pass, .reactor 7 .pass,
        .reactor 7 .cancel, .reactor 7 (.onWriteDone true), .reactor 7 .onDone] := by
  rintro ⟨-, -, -, -, -, -, follows, -⟩
  have current := follows ⟨_, rfl, by decide +kernel⟩
  revert current
  unfold Service.GaugeCurrent
  decide +kernel

end UDataPacketService
