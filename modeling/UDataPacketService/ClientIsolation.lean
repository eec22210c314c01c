import UDataPacketService.DeliveryLaw
import UDataPacketService.SubscriberCount
import UDataPacketService.QueueWalk

/-! What the other clients change in the packets a client receives. The walk of
`getPackets` runs over the active streams of every context, so the comparison is
between that walk and the walk over the client's own active streams. -/
namespace UDataPacketService
open Std (ExtTreeMap ExtTreeSet)
open OrderedContainers

def reducedRun (c : ContextAddress) (operations : List Operation) : List Operation :=
  operations.filter (fun operation => operation.client = none ∨ operation.client = some c)

def returnedTo (c : ContextAddress) : Operation × Reply → Option (List Packet)
  | (.getPackets d, .packets result) => if d = c then some result else none
  | _ => none

def pulls (c : ContextAddress) (manager : SubscriptionManager) (operations : List Operation) :
    List (List Packet) :=
  (operations.zip (managerMachine.trace manager operations)).filterMap (returnedTo c)

theorem returnedTo_getPackets (c : ContextAddress) (manager : SubscriptionManager) :
    returnedTo c (.getPackets c, (managerMachine.step manager (.getPackets c)).2) =
      some (manager.getPackets c).1 := if_pos rfl

theorem returnedTo_of_ne {c : ContextAddress} {operation : Operation} {reply : Reply}
    (h : operation ≠ .getPackets c) : returnedTo c (operation, reply) = none := by
  unfold returnedTo
  split
  · rename_i d result call
    have same := (Prod.mk.inj call).1
    exact if_neg (fun own => h (by rw [same, own]))
  · rfl

theorem pulls_cons (c : ContextAddress) (manager : SubscriptionManager) (operation : Operation)
    (operations : List Operation) :
    pulls c manager (operation :: operations) =
      (returnedTo c (operation, (managerMachine.step manager operation).2)).toList ++
        pulls c (managerMachine.step manager operation).1 operations := by
  rw [pulls, managerMachine.trace_cons, List.zip_cons_cons, List.filterMap_cons]
  split <;> rename_i h <;> rw [h] <;> rfl

/-- The walk visits a stream with several queued packets once, and reaches the
streams with queued packets in the order of their names. -/
structure OwnWalk (c : ContextAddress) (manager : SubscriptionManager) : Prop where
  once : ∀ name, 2 ≤ (queueIn c name manager).length → manager.walk.count name = 1
  ordered : ∀ first second, queueIn c first manager ≠ [] → queueIn c second manager ≠ [] →
    compare first second = .lt → manager.walk.idxOf first < manager.walk.idxOf second

namespace ClientView
variable {view : ClientView}

def queued (view : ClientView) (name : String) : ℕ := ((view.queueAt name).getD []).length

/-- The names of the packets one walk returns are the visits that find a packet. -/
theorem pullAll_names (h : view.Coherent) (names : List String) :
    (view.pullAll names).1.map Packet.toName = QueueWalk.served view.queued names := by
  induction names generalizing view with
  | nil => rfl
  | cons name names ih =>
      have next : (view.pull name).2.Coherent := h.pullAll [name]
      have lengths : (view.pull name).2.queued =
          Function.update view.queued name (view.queued name - 1) := by
        funext other
        rw [queued, queueAt_pull]
        by_cases same : name = other
        · subst same
          rw [if_pos rfl, List.length_tail, Function.update_self, queued]
        · rw [if_neg same, Function.update_of_ne (Ne.symm same), queued]
      rw [pullAll, List.map_append, ih next, lengths, pull_fst, QueueWalk.served]
      cases hq : (view.queueAt name).getD [] with
      | nil =>
          have empty : view.queued name = 0 := by rw [queued, hq]; rfl
          rw [if_pos empty, List.head?_nil, Option.toList_none, List.map_nil, List.nil_append,
            empty, show Function.update view.queued name (0 - 1) = view.queued by
              rw [Nat.zero_sub, ← empty, Function.update_eq_self]]
      | cons first rest =>
          have nonempty : view.queued name ≠ 0 := by rw [queued, hq]; exact Nat.succ_ne_zero _
          rw [if_neg nonempty, List.head?_cons, Option.toList_some, List.map_singleton,
            name_of_mem_queueAt name h (hq ▸ List.mem_cons_self), List.singleton_append]

/-- Two walks return the same packets as soon as they find packets at the same visits. -/
theorem pullAll_fst_eq_iff (h : view.Coherent) (walk own : List String) :
    (view.pullAll walk).1 = (view.pullAll own).1 ↔
      QueueWalk.served view.queued walk = QueueWalk.served view.queued own := by
  constructor
  · intro same
    rw [← pullAll_names h, ← pullAll_names h, same]
  · intro same
    refine QueueWalk.eq_of_keys_eq Packet.toName ?_ (fun name => ?_)
    · rw [pullAll_names h, pullAll_names h, same]
    · have counts := congrArg (List.count name) same
      rw [QueueWalk.count_served, QueueWalk.count_served] at counts
      rw [filter_pullAll name h, filter_pullAll name h, List.take_eq_take_iff]
      exact counts

theorem pullAll_snd_eq {walk own : List String}
    (same : QueueWalk.served view.queued walk = QueueWalk.served view.queued own) :
    (view.pullAll walk).2 = (view.pullAll own).2 := by
  obtain ⟨active, pending, pendingAll⟩ := view.pullAll_requests walk
  obtain ⟨active', pending', pendingAll'⟩ := view.pullAll_requests own
  ext1
  · rw [pullAll_options, pullAll_options]
  · apply ExtTreeMap.ext_getElem?
    intro name
    rw [pullAll_streams, pullAll_streams]
    cases hs : view.streams[name]? with
    | none => rfl
    | some stream =>
        have counts := congrArg (List.count name) same
        rw [QueueWalk.count_served, QueueWalk.count_served] at counts
        have length : view.queued name = (stream.queue.getD []).length := by
          rw [queued, queueAt, hs, Option.bind_some]
        rw [length] at counts
        rw [Option.map_some, Option.map_some, StreamView.pop_iterate_eq stream counts]
  · rw [active, active']
  · rw [pending, pending']
  · rw [pendingAll, pendingAll']

end ClientView

namespace SubscriptionManager
variable (c : ContextAddress) (manager : SubscriptionManager)

def ownNames (view : ClientView) : List String := (view.active.getD ∅).toList

theorem mem_walk_of_own {name : String} (h : name ∈ (manager.view c).active.getD ∅) :
    name ∈ manager.walk := by
  cases active : (manager.view c).active with
  | none => rw [active] at h; exact absurd h ExtTreeSet.not_mem_empty
  | some names =>
      rw [active] at h
      exact List.mem_flatMap.mpr ⟨(c, names),
        ExtTreeMap.mem_toList_iff_getElem?_eq_some.mpr active, ExtTreeSet.mem_toList.mpr h⟩

theorem walk_alone (alone : ∀ d, d ≠ c → (manager.view d).active = none) :
    manager.walk = ownNames (manager.view c) := by
  have keys : ∀ entry ∈ manager.mActiveSubscriptionsMap.toList,
      entry.1 = c ∧ (manager.view c).active = some entry.2 := by
    intro entry member
    have found := ExtTreeMap.mem_toList_iff_getElem?_eq_some.mp member
    have own : entry.1 = c := by
      by_contra other
      have := alone entry.1 other
      rw [show (manager.view entry.1).active = some entry.2 from found] at this
      cases this
    exact ⟨own, own ▸ found⟩
  have once : (manager.mActiveSubscriptionsMap.toList.map Prod.fst).Nodup := by
    rw [ExtTreeMap.map_fst_toList_eq_keys]
    exact keys_nodup _
  rw [walk, ownNames]
  cases hl : manager.mActiveSubscriptionsMap.toList with
  | nil =>
      have none : (manager.view c).active = none := by
        cases active : (manager.view c).active with
        | none => rfl
        | some names =>
            have := ExtTreeMap.mem_toList_iff_getElem?_eq_some.mpr active
            rw [hl] at this
            cases this
      rw [none]
      simp
  | cons entry rest =>
      rw [hl] at once keys
      obtain ⟨first, active⟩ := keys entry List.mem_cons_self
      have last : rest = [] := by
        cases rest with
        | nil => rfl
        | cons next rest =>
            have second := (keys next (List.mem_cons_of_mem _ List.mem_cons_self)).1
            exact absurd (List.mem_cons.mpr (.inl (first.trans second.symm)))
              (List.nodup_cons.mp once).1
      rw [last, active]
      simp

/-- The walk serves the context like its own names exactly when nobody disturbs it. -/
theorem ownWalk_iff (h : manager.Coherent) :
    OwnWalk c manager ↔ QueueWalk.served (manager.view c).queued manager.walk =
      QueueWalk.served (manager.view c).queued (ownNames (manager.view c)) := by
  have length : ∀ name, (queueIn c name manager).length = (manager.view c).queued name := by
    intro name
    rw [queueIn_eq_queueAt, ClientView.queued]
  have nonempty : ∀ name, queueIn c name manager ≠ [] ↔ 0 < (manager.view c).queued name := by
    intro name
    rw [← length, List.length_pos_iff]
  rw [QueueWalk.served_eq_iff (r := fun a b : String => compare a b = .lt)]
  · constructor
    · rintro ⟨once, ordered⟩
      refine ⟨fun a ha => once a (by rw [length]; exact ha), fun a b ha hb => ?_⟩
      exact ordered a b ((nonempty a).mpr ha) ((nonempty b).mpr hb)
    · rintro ⟨once, ordered⟩
      refine ⟨fun a ha => once a (by rw [← length]; exact ha), fun a b ha hb => ?_⟩
      exact ordered a b ((nonempty a).mp ha) ((nonempty b).mp hb)
  · intro a h
    rw [Std.ReflOrd.compare_self] at h
    cases h
  · intro a b h h'
    rw [Std.OrientedOrd.eq_swap, h'] at h
    cases h
  · intro a b differ
    cases ha : compare a b with
    | lt => exact .inl rfl
    | eq => exact absurd (Std.LawfulEqOrd.compare_eq_iff_eq.mp ha) differ
    | gt => exact .inr (by rw [Std.OrientedOrd.eq_swap, ha]; rfl)
  · exact ExtTreeSet.ordered_toList
  · intro a ha
    have served : ((manager.view c).queueAt a).isSome := by
      rw [ClientView.queued] at ha
      cases hq : (manager.view c).queueAt a with
      | none => rw [hq] at ha; exact absurd ha (lt_irrefl 0)
      | some queue => rfl
    have own := (h c).recorded a served
    exact ⟨manager.mem_walk_of_own c own, ExtTreeSet.mem_toList.mpr own⟩

end SubscriptionManager

/-- Two runs in step: the original one and the one without the other clients. -/
theorem pulls_eq_iff_of_view (c : ContextAddress) (operations : List Operation)
    {manager other : SubscriptionManager} (coherent : manager.Coherent)
    (coherent' : other.Coherent) (alone : ∀ d, d ≠ c → ¬(other.view d).Present)
    (same : manager.view c = other.view c) :
    pulls c manager operations = pulls c other (reducedRun c operations) ↔
      managerMachine.Admissible (fun manager operation =>
        operation = .getPackets c → OwnWalk c manager) manager operations := by
  induction operations generalizing manager other with
  | nil => exact ⟨fun _ => trivial, fun _ => rfl⟩
  | cons operation operations ih =>
      have next := coherent_step manager operation coherent
      have next' := coherent_step other operation coherent'
      rw [pulls_cons, Machine.Admissible]
      by_cases mine : operation.client = none ∨ operation.client = some c
      · have reduced : reducedRun c (operation :: operations) =
            operation :: reducedRun c operations := by
          rw [reducedRun, List.filter_cons, if_pos (decide_eq_true mine), reducedRun]
        have stillAlone : ∀ d, d ≠ c →
            ¬((managerMachine.step other operation).1.view d).Present := by
          intro d differ present
          refine alone d differ (other.present_of_step d coherent' ?_ present)
          rcases mine with none | own
          · rw [none]; exact (Option.some_ne_none _).symm
          · rw [own]; exact fun h => differ (Option.some.inj h).symm
        rw [reduced, pulls_cons]
        by_cases pull : operation = .getPackets c
        · subst pull
          have otherWalk : other.walk = SubscriptionManager.ownNames (manager.view c) := by
            rw [other.walk_alone c, ← same]
            intro d differ
            exact Option.not_isSome_iff_eq_none.mp (fun some => alone d differ (.inl some))
          have results : (manager.getPackets c).1 = (other.getPackets c).1 ↔
              OwnWalk c manager := by
            rw [manager.ownWalk_iff c coherent, ← ClientView.pullAll_fst_eq_iff (coherent c),
              ← otherWalk, ← manager.getPackets_fst, same, ← other.getPackets_fst]
          rw [returnedTo_getPackets, returnedTo_getPackets, Option.toList_some, Option.toList_some,
            List.singleton_append, List.singleton_append, List.cons.injEq, results,
            forall_prop_of_true rfl]
          refine and_congr_right (fun own => ih next next' stillAlone ?_)
          rw [view_managerMachine_step, view_managerMachine_step, ClientView.step, ClientView.step,
            if_pos rfl, if_pos rfl, ← same, otherWalk]
          exact ClientView.pullAll_snd_eq ((manager.ownWalk_iff c coherent).mp own)
        · rw [returnedTo_of_ne pull, returnedTo_of_ne pull, Option.toList_none, List.nil_append,
            List.nil_append, ih next next' stillAlone, and_iff_right (fun h => absurd h pull)]
          rw [view_managerMachine_step, view_managerMachine_step, same]
          exact ClientView.step_walk _ _ _ pull
      · have reduced : reducedRun c (operation :: operations) = reducedRun c operations := by
          rw [reducedRun, List.filter_cons, if_neg (by simpa using mine), reducedRun]
        obtain ⟨d, made⟩ := Option.ne_none_iff_exists'.mp (fun none => mine (.inl none))
        have differ : d ≠ c := fun h => mine (.inr (by rw [made, h]))
        have pull : operation ≠ .getPackets c := by
          rintro rfl
          exact differ (Option.some.inj made).symm
        rw [reduced, returnedTo_of_ne pull, Option.toList_none, List.nil_append,
          ih next coherent' alone, and_iff_right (fun h => absurd h pull)]
        rw [view_managerMachine_step, ClientView.step_of_other _ _ made differ, same]

/-- The other clients change nothing in what a context receives exactly when each
of its `getPackets` calls meets a walk that serves it as its own names would. -/
theorem pulls_eq_reducedRun_iff (options : StreamOptions) (c : ContextAddress)
    (operations : List Operation) :
    pulls c (.fresh options) operations = pulls c (.fresh options) (reducedRun c operations) ↔
      managerMachine.Admissible (fun manager operation =>
        operation = .getPackets c → OwnWalk c manager) (.fresh options) operations := by
  refine pulls_eq_iff_of_view c operations (fresh_coherent options) (fresh_coherent options) ?_ rfl
  exact fun d _ present => SubscriptionManager.not_present_fresh options d present

set_option maxRecDepth 8000 in
/-- A second client of the same stream doubles what the first one pulls in a call. -/
theorem pulls_ne_with_second_client :
    pulls 1 (.fresh {}) [.subscribeToAll 1, .subscribeToAll 2,
        .enqueuePacket (channelPacket "HHZ" 0 100), .enqueuePacket (channelPacket "HHZ" 1 100),
        .getPackets 1] ≠
      pulls 1 (.fresh {}) (reducedRun 1 [.subscribeToAll 1, .subscribeToAll 2,
        .enqueuePacket (channelPacket "HHZ" 0 100), .enqueuePacket (channelPacket "HHZ" 1 100),
        .getPackets 1]) := by
  decide

end UDataPacketService
