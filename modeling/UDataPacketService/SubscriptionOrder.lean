import UDataPacketService.DeliveryLaw
import UDataPacketService.SubscriberCount

/-! Calls whose order does not matter. What a run of subscribing calls does for a
client is determined by the names it asks for and by whether it asks for all streams;
what two packets of different streams do is determined by the two packets. -/
namespace UDataPacketService
open Std (ExtTreeMap ExtTreeSet)
open OrderedContainers

/-- Everything a manager holds apart from its options and the cached count. -/
def SubscriptionManager.containers (manager : SubscriptionManager) :
    ExtTreeMap String Stream × ExtTreeMap ContextAddress (ExtTreeSet String) ×
      ExtTreeMap ContextAddress (ExtTreeSet String) × ExtTreeSet ContextAddress :=
  (manager.mStreamsMap, manager.mActiveSubscriptionsMap, manager.mPendingSubscriptionRequests,
    manager.mPendingSubscribeToAllRequests)

def Operation.Subscribes : Operation → Prop
  | .subscribe _ _ | .subscribeToAll _ => True
  | _ => False

def selectedNames (c : ContextAddress) (operations : List Operation) : Set String :=
  { name | ∃ identifiers, .subscribe c identifiers ∈ operations ∧
    name ∈ identifiers.map StreamIdentifier.toName }

/-- A list of calls in another order, with the identifiers of its subscribing calls in
another order, repeated, or split over several calls. -/
inductive Rearranged : List Operation → List Operation → Prop
  | permuted {calls calls' : List Operation} : calls.Perm calls' → Rearranged calls calls'
  | relisted (earlier later : List Operation) (c : ContextAddress)
      {identifiers identifiers' : List StreamIdentifier} :
      (∀ identifier, identifier ∈ identifiers ↔ identifier ∈ identifiers') →
      Rearranged (earlier ++ .subscribe c identifiers :: later)
        (earlier ++ .subscribe c identifiers' :: later)
  | split (earlier later : List Operation) (c : ContextAddress)
      (identifiers identifiers' : List StreamIdentifier) :
      Rearranged (earlier ++ .subscribe c (identifiers ++ identifiers') :: later)
        (earlier ++ .subscribe c identifiers :: .subscribe c identifiers' :: later)
  | symm {calls calls' : List Operation} : Rearranged calls calls' → Rearranged calls' calls
  | trans {calls calls' calls'' : List Operation} :
      Rearranged calls calls' → Rearranged calls' calls'' → Rearranged calls calls''

namespace ClientView

theorem Coherent.eq_of_names {first second : ClientView} (h : first.Coherent) (h' : second.Coherent)
    (options : first.mStreamOptions = second.mStreamOptions)
    (streams : ∀ name : String, first.streams[name]? = second.streams[name]?)
    (active : ∀ name, name ∈ first.active.getD ∅ ↔ name ∈ second.active.getD ∅)
    (pending : ∀ name, name ∈ first.pending.getD ∅ ↔ name ∈ second.pending.getD ∅)
    (pendingAll : first.pendingAll = true ↔ second.pendingAll = true) : first = second := by
  -- an empty set is never recorded, so the members tell the records apart
  have records : ∀ {s t : Option (ExtTreeSet String)}, s ≠ some ∅ → t ≠ some ∅ →
      (∀ name, name ∈ s.getD ∅ ↔ name ∈ t.getD ∅) → s = t := by
    intro s t hs ht same
    have sets : s.getD ∅ = t.getD ∅ := ExtTreeSet.ext_mem (fun {name} => same name)
    cases s with
    | none =>
        cases t with
        | none => rfl
        | some names => exact absurd (congrArg some sets.symm) ht
    | some names =>
        cases t with
        | none => exact absurd (congrArg some sets) hs
        | some names' => exact congrArg some sets
  ext1
  · exact options
  · exact ExtTreeMap.ext_getElem? (fun {name} => streams name)
  · exact records h.active h'.active active
  · exact records h.pending h'.pending pending
  · exact Bool.eq_iff_iff.mpr pendingAll

/-- The view after subscribing calls that select `names`, or all streams. -/
structure Grows (names : Set String) (all : Prop) (before after : ClientView) : Prop where
  options : after.mStreamOptions = before.mStreamOptions
  served : ∀ name : String, name ∈ names ∨ all →
    after.streams[name]? = before.streams[name]?.map (·.subscribe false)
  others : ∀ name : String, ¬(name ∈ names ∨ all) → after.streams[name]? = before.streams[name]?
  active : ∀ name, name ∈ after.active.getD ∅ ↔
    name ∈ before.active.getD ∅ ∨ ((name ∈ names ∨ all) ∧ name ∈ before.streams)
  pending : ∀ name, name ∈ after.pending.getD ∅ ↔
    name ∈ before.pending.getD ∅ ∨ (name ∈ names ∧ name ∉ before.streams)
  pendingAll : after.pendingAll = true ↔ before.pendingAll = true ∨ all

namespace Grows
variable {names names' : Set String} {all all' : Prop} {first second third view : ClientView}

theorem refl (view : ClientView) : view.Grows ∅ False view := by
  constructor <;> simp

theorem mem_streams (h : first.Grows names all second) (name : String) :
    name ∈ second.streams ↔ name ∈ first.streams := by
  rw [mem_iff_exists, mem_iff_exists]
  by_cases asked : name ∈ names ∨ all
  · rw [h.served name asked]
    cases first.streams[name]? <;> simp
  · rw [h.others name asked]

theorem trans (h : first.Grows names all second) (h' : second.Grows names' all' third) :
    first.Grows (names ∪ names') (all ∨ all') third := by
  have twice : ∀ stream : StreamView, (stream.subscribe false).subscribe false =
      stream.subscribe false := fun stream => StreamView.subscribe_of_queue rfl false
  have both : ∀ name, (name ∈ names ∪ names' ∨ all ∨ all') ↔
      (name ∈ names ∨ all) ∨ (name ∈ names' ∨ all') := by
    intro name
    rw [Set.mem_union]
    tauto
  constructor
  · exact h'.options.trans h.options
  · intro name asked
    by_cases early : name ∈ names ∨ all
    · by_cases late : name ∈ names' ∨ all'
      · rw [h'.served name late, h.served name early, Option.map_map]
        have once : (fun stream : StreamView => stream.subscribe false) ∘
            (fun stream : StreamView => stream.subscribe false) =
              fun stream => stream.subscribe false := by
          funext stream
          exact twice stream
        rw [once]
      · rw [h'.others name late, h.served name early]
    · have late := ((both name).mp asked).resolve_left early
      rw [h'.served name late, h.others name early]
  · intro name unasked
    rw [both, not_or] at unasked
    rw [h'.others name unasked.2, h.others name unasked.1]
  · intro name
    rw [h'.active, h.active, h.mem_streams, both]
    tauto
  · intro name
    rw [h'.pending, h.pending, h.mem_streams, Set.mem_union]
    tauto
  · rw [h'.pendingAll, h.pendingAll, or_assoc]

/-- Runs that ask for the same have the same effect. -/
theorem unique (h : view.Grows names all first) (h' : view.Grows names all second)
    (coherent : first.Coherent) (coherent' : second.Coherent) : first = second := by
  refine coherent.eq_of_names coherent' (h.options.trans h'.options.symm) (fun name => ?_)
    (fun name => (h.active name).trans (h'.active name).symm)
    (fun name => (h.pending name).trans (h'.pending name).symm)
    (h.pendingAll.trans h'.pendingAll.symm)
  by_cases asked : name ∈ names ∨ all
  · rw [h.served name asked, h'.served name asked]
  · rw [h.others name asked, h'.others name asked]

theorem congr (h : first.Grows names all second) (sameNames : names = names') (sameAll : all ↔ all') :
    first.Grows names' all' second := by
  obtain rfl := propext sameAll
  exact sameNames ▸ h

end Grows

namespace Coherent
variable {view : ClientView}

theorem mem_active_subscribeToStream (h : view.Coherent) (key name : String) :
    name ∈ (view.subscribeToStream key key false).active.getD ∅ ↔
      name ∈ view.active.getD ∅ ∨ (name = key ∧ name ∈ view.streams) := by
  unfold ClientView.subscribeToStream
  cases hs : view.streams[key]? with
  | none =>
      have absent : key ∉ view.streams := (not_mem_iff _ _).mpr hs
      rw [or_iff_left]
      rintro ⟨rfl, present⟩
      exact absent present
  | some stream =>
      have present : key ∈ view.streams := (mem_iff_exists _ _).mpr ⟨stream, hs⟩
      simp only
      split
      · rename_i served
        rw [or_iff_left_of_imp]
        rintro ⟨rfl, -⟩
        exact h.recorded name (by rw [queueAt, hs]; exact served)
      · rw [Option.getD_some, mem_set_insert, or_comm, eq_comm]
        exact or_congr_right (iff_self_and.mpr (fun same => same ▸ present))

theorem grows_subscribeToName (h : view.Coherent) (other : String) :
    view.Grows {other} False (view.subscribeToName other) where
  options := view.subscribeToName_options other
  served := by
    intro name asked
    rw [or_false, Set.mem_singleton_iff] at asked
    rw [subscribeToName_streams, if_pos asked.symm]
  others := by
    intro name unasked
    rw [or_false, Set.mem_singleton_iff] at unasked
    rw [subscribeToName_streams, if_neg (Ne.symm unasked)]
  active := by
    intro name
    rw [or_false, Set.mem_singleton_iff]
    unfold ClientView.subscribeToName
    split
    · exact h.mem_active_subscribeToStream other name
    · rename_i absent
      rw [ClientView.addPending, or_iff_left]
      rintro ⟨rfl, present⟩
      exact absent present
  pending := by
    intro name
    rw [mem_subscribeToName_pending, Set.mem_singleton_iff, eq_comm (a := name)]
  pendingAll := by
    rw [subscribeToName_pendingAll, or_false]

theorem grows_subscribeToNames (h : view.Coherent) (names : List String) :
    view.Grows { name | name ∈ names } False (names.foldl ClientView.subscribeToName view) := by
  induction names generalizing view with
  | nil => exact (Grows.refl view).congr (by ext name; simp) Iff.rfl
  | cons first names ih =>
      refine ((h.grows_subscribeToName first).trans (ih (h.subscribeToName first))).congr ?_ ?_
      · ext name
        simp
      · rw [or_false]

theorem subscribeToAll_eq_names (h : view.Coherent) (all : view.pendingAll = false) :
    view.subscribeToAll =
      { view.streams.keys.foldl ClientView.subscribeToName view with pendingAll := true } := by
  have walk : ∀ (keys : List String) (v : ClientView), v.Coherent → (∀ key ∈ keys, key ∈ v.streams) →
      keys.foldl ClientView.subscribeToKey v = keys.foldl ClientView.subscribeToName v := by
    intro keys
    induction keys with
    | nil => exact fun _ _ _ => rfl
    | cons key keys ih =>
        intro v coherent known
        obtain ⟨stream, hs⟩ := (mem_iff_exists _ _).mp (known key List.mem_cons_self)
        have same : v.subscribeToKey key = v.subscribeToName key := by
          simp only [ClientView.subscribeToKey, ClientView.subscribeToName, hs,
            if_pos (known key List.mem_cons_self), (coherent.streams key stream hs).identifier]
        rw [List.foldl_cons, List.foldl_cons, same]
        refine ih _ (coherent.subscribeToName key) (fun other member => ?_)
        rw [mem_subscribeToName_streams]
        exact known other (List.mem_cons_of_mem key member)
  rw [ClientView.subscribeToAll, all, if_neg Bool.false_ne_true,
    walk _ view h (fun key member => ExtTreeMap.mem_keys.mp member)]

theorem grows_subscribeToAll (h : view.Coherent) : view.Grows ∅ True view.subscribeToAll := by
  cases all : view.pendingAll with
  | true =>
      -- the early return: a client of all streams is served by all of them already
      have same : view.subscribeToAll = view := by rw [ClientView.subscribeToAll, if_pos all]
      rw [same]
      constructor
      · rfl
      · intro name _
        cases hs : view.streams[name]? with
        | none => rfl
        | some stream =>
            have served := h.covered all name ((mem_iff_exists _ _).mpr ⟨stream, hs⟩)
            rw [queueAt, hs, Option.bind_some] at served
            rw [Option.map_some, StreamView.subscribe_of_queue served]
      · exact fun name unasked => absurd (.inr trivial) unasked
      · intro name
        rw [or_iff_left_of_imp]
        exact fun asked => h.recorded name (h.covered all name asked.2)
      · intro name
        rw [or_iff_left (fun asked => asked.1)]
      · rw [all]
        exact iff_of_true rfl (.inl rfl)
  | false =>
      have walked := h.grows_subscribeToNames view.streams.keys
      rw [h.subscribeToAll_eq_names all]
      constructor
      · exact walked.options
      · intro name _
        by_cases present : name ∈ view.streams
        · exact walked.served name (.inl (ExtTreeMap.mem_keys.mpr present))
        · rw [(not_mem_iff _ _).mp present, Option.map_none]
          exact (not_mem_iff _ _).mp (fun member => present ((walked.mem_streams name).mp member))
      · exact fun name unasked => absurd (.inr trivial) unasked
      · intro name
        refine (walked.active name).trans (or_congr_right ?_)
        rw [Set.mem_ofPred_eq, ExtTreeMap.mem_keys]
        tauto
      · intro name
        refine (walked.pending name).trans (or_congr_right ?_)
        rw [Set.mem_ofPred_eq, ExtTreeMap.mem_keys]
        exact iff_of_false (fun asked => asked.2 asked.1) (fun asked => asked.1)
      · simp

theorem grows_step (h : view.Coherent) (c : ContextAddress) (walk : List String)
    {operation : Operation} (subscribes : operation.Subscribes) :
    view.Grows (selectedNames c [operation]) (.subscribeToAll c ∈ [operation])
      (view.step c walk operation) := by
  cases operation with
  | subscribe d identifiers =>
      by_cases own : d = c
      · subst own
        rw [ClientView.step, if_pos rfl]
        refine (h.grows_subscribeToNames _).congr ?_ (by simp)
        ext name
        rw [Set.mem_ofPred_eq, SubscriptionManager.mem_distinctNames]
        simp [selectedNames]
      · rw [ClientView.step, if_neg own]
        refine (Grows.refl view).congr ?_ (by simp)
        ext name
        simp [selectedNames, Ne.symm own]
  | subscribeToAll d =>
      by_cases own : d = c
      · subst own
        rw [ClientView.step, if_pos rfl]
        refine h.grows_subscribeToAll.congr ?_ (by simp)
        ext name
        simp [selectedNames]
      · rw [ClientView.step, if_neg own]
        refine (Grows.refl view).congr ?_ (by simp [Ne.symm own])
        ext name
        simp [selectedNames]
  | enqueuePacket | getPackets | unsubscribeFromAll | unsubscribeAll | getNumberOfSubscribers =>
      exact subscribes.elim

end Coherent
end ClientView

/-- What a client asks for in a run of subscribing calls accounts for its view. -/
theorem view_grows_run {manager : SubscriptionManager} (h : manager.Coherent)
    {operations : List Operation} (subscribing : ∀ operation ∈ operations, operation.Subscribes)
    (c : ContextAddress) :
    (manager.view c).Grows (selectedNames c operations) (.subscribeToAll c ∈ operations)
      ((managerMachine.run manager operations).view c) := by
  induction operations generalizing manager with
  | nil =>
      refine (ClientView.Grows.refl _).congr ?_ (by simp)
      ext name
      simp [selectedNames]
  | cons operation operations ih =>
      have first := (h c).grows_step c manager.walk (subscribing operation List.mem_cons_self)
      rw [← view_managerMachine_step] at first
      have rest := ih (coherent_step manager operation h)
        (fun other member => subscribing other (List.mem_cons_of_mem operation member))
      refine (first.trans rest).congr ?_ ?_
      · ext name
        simp only [selectedNames, Set.mem_union, Set.mem_ofPred_eq, List.mem_cons, List.not_mem_nil,
          or_false, or_and_right, exists_or]
      · rw [List.mem_singleton, List.mem_cons]

namespace Rearranged

theorem subscribes {calls calls' : List Operation} (h : Rearranged calls calls') :
    (∀ operation ∈ calls, operation.Subscribes) ↔ ∀ operation ∈ calls', operation.Subscribes := by
  induction h with
  | permuted perm => exact forall_congr' (fun operation => imp_congr_left perm.mem_iff)
  | relisted earlier later c same => simp [Operation.Subscribes, or_imp, forall_and]
  | split earlier later c identifiers identifiers' =>
      simp [Operation.Subscribes, or_imp, forall_and]
  | symm _ ih => exact ih.symm
  | trans _ _ ih ih' => exact ih.trans ih'

theorem asks {calls calls' : List Operation} (h : Rearranged calls calls') (c : ContextAddress) :
    selectedNames c calls = selectedNames c calls' ∧
      (.subscribeToAll c ∈ calls ↔ .subscribeToAll c ∈ calls') := by
  induction h with
  | permuted perm =>
      refine ⟨?_, perm.mem_iff⟩
      ext name
      simp only [selectedNames, Set.mem_ofPred_eq, perm.mem_iff]
  | relisted earlier later d same =>
      refine ⟨?_, by simp⟩
      ext name
      simp [selectedNames, same, or_and_right, exists_or, and_assoc]
  | split earlier later d identifiers identifiers' =>
      refine ⟨?_, by simp⟩
      ext name
      simp [selectedNames, or_and_right, and_or_left, exists_or, and_assoc, or_assoc]
  | symm _ ih => exact ⟨ih.1.symm, ih.2.symm⟩
  | trans _ _ ih ih' => exact ⟨ih.1.trans ih'.1, ih.2.trans ih'.2⟩

end Rearranged

namespace ClientView

namespace Receives
variable {packet : Packet} {before after : ClientView}

/-- A packet does not change what a packet of another stream will do to its stream. -/
theorem afterPacket (h : before.Receives packet after) {next : Packet}
    (other : packet.toName ≠ next.toName) : after.afterPacket next = before.afterPacket next := by
  have same := h.others _ other
  cases hs : before.streams[next.toName]? with
  | some stream => simp only [ClientView.afterPacket, same, hs]
  | none =>
      have waits := h.awaits other
      by_cases waiting : before.Awaits next.toName
      · simp only [ClientView.afterPacket, same, hs, h.options, if_pos waiting,
          if_pos (waits.mpr waiting)]
      · simp only [ClientView.afterPacket, same, hs, h.options, if_neg waiting,
          if_neg (fun after => waiting (waits.mp after))]

end Receives

/-- Packets of different streams may change places. -/
theorem Coherent.enqueue_comm {view : ClientView} (h : view.Coherent) {packet next : Packet}
    (other : packet.toName ≠ next.toName) :
    (view.enqueue packet).enqueue next = (view.enqueue next).enqueue packet := by
  have first := h.receives packet
  have second := (h.enqueue packet).receives next
  have first' := h.receives next
  have second' := (h.enqueue next).receives packet
  refine ((h.enqueue packet).enqueue next).eq_of_names ((h.enqueue next).enqueue packet) ?_
    (fun name => ?_) (fun name => ?_) (fun name => ?_) ?_
  · rw [second.options, first.options, second'.options, first'.options]
  · by_cases own : packet.toName = name
    · subst own
      rw [second.others _ (Ne.symm other), first.own, second'.own,
        first'.afterPacket (Ne.symm other)]
    · by_cases own' : next.toName = name
      · subst own'
        rw [second.own, second'.others _ other, first'.own, first.afterPacket other]
      · rw [second.others _ own', first.others _ own, second'.others _ own, first'.others _ own']
  · rw [second.active, first.active, second'.active, first'.active]
    by_cases own : packet.toName = name
    · subst own
      rw [first'.mem_streams (Ne.symm other), first'.awaits (Ne.symm other)]
      simp [Ne.symm other]
    · by_cases own' : next.toName = name
      · subst own'
        rw [first.mem_streams other, first.awaits other]
        simp [other]
      · simp [own, own']
  · rw [second.pending, first.pending, second'.pending, first'.pending, and_right_comm]
  · rw [second.pendingAll, first.pendingAll, second'.pendingAll, first'.pendingAll]

end ClientView

/-- In every reachable manager, rearranging subscribing calls leaves the same containers,
and so does exchanging two packets of different streams. -/
theorem independent_operations_commute (options : StreamOptions) (operations : List Operation) :
    let manager := managerMachine.run (.fresh options) operations
    (∀ calls rearranged : List Operation, (∀ operation ∈ calls, operation.Subscribes) →
        Rearranged calls rearranged →
          (managerMachine.run manager calls).containers =
            (managerMachine.run manager rearranged).containers) ∧
      ∀ packet next : Packet, packet.toName ≠ next.toName →
        (managerMachine.run manager [.enqueuePacket packet, .enqueuePacket next]).containers =
          (managerMachine.run manager [.enqueuePacket next, .enqueuePacket packet]).containers := by
  intro manager
  have coherent : ∀ calls, (managerMachine.run manager calls).Coherent :=
    fun calls => managerMachine.run_invariant _ coherent_step (run_coherent options operations) calls
  have same : ∀ {calls calls'}, (managerMachine.run manager calls).SameSubscriptions
      (managerMachine.run manager calls') → (managerMachine.run manager calls).containers =
        (managerMachine.run manager calls').containers := by
    intro calls calls' alike
    obtain ⟨-, streams, active, pending, pendingAll⟩ := alike.containers
    simp only [SubscriptionManager.containers, streams, active, pending, pendingAll]
  constructor
  · intro calls rearranged subscribing rearranges
    refine same (fun c => ?_)
    have asked := view_grows_run (coherent []) subscribing c
    have asked' := view_grows_run (coherent []) (rearranges.subscribes.mp subscribing) c
    obtain ⟨names, all⟩ := rearranges.asks c
    exact (asked.congr names all).unique asked' (coherent calls c) (coherent rearranged c)
  · intro packet next other
    refine same (fun c => ?_)
    simp only [Machine.run_cons, Machine.run_nil]
    rw [view_managerMachine_step, view_managerMachine_step, view_managerMachine_step,
      view_managerMachine_step]
    simp only [ClientView.step]
    by_cases accepted : packet.Accepted
    · by_cases accepted' : next.Accepted
      · rw [if_pos accepted, if_pos accepted', if_pos accepted', if_pos accepted]
        exact (coherent [] c).enqueue_comm other
      · rw [if_pos accepted, if_neg accepted', if_neg accepted', if_pos accepted]
    · rw [if_neg accepted, if_neg accepted]

end UDataPacketService
