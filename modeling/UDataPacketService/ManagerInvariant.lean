import UDataPacketService.StreamAccount
import UDataPacketService.BoundedFifo

/-! What holds of every client view in every reachable manager. The invariant is
stated on the view, so each call is one case and other contexts do not appear. -/
namespace UDataPacketService
open Std (ExtTreeMap ExtTreeSet)
open OrderedContainers

/-- The checks of the public `enqueuePacket`. -/
structure Packet.Accepted (packet : Packet) : Prop where
  streamIdentifier : packet.streamIdentifierField ≠ none
  numberOfSamples : packet.numberOfSamplesField ≠ none
  dataType : packet.dataType ≠ .unknown
  samplingRate : 0 < packet.samplingRate
  data : packet.dataField ≠ none

instance (packet : Packet) : Decidable packet.Accepted :=
  decidable_of_iff (packet.streamIdentifierField ≠ none ∧ packet.numberOfSamplesField ≠ none ∧
      packet.dataType ≠ .unknown ∧ 0 < packet.samplingRate ∧ packet.dataField ≠ none)
    ⟨fun ⟨a, b, c, d, e⟩ => ⟨a, b, c, d, e⟩, fun h => ⟨h.1, h.2, h.3, h.4, h.5⟩⟩

namespace SubscriptionManager

theorem enqueuePacket_of_accepted (manager : SubscriptionManager) {packet : Packet}
    (h : packet.Accepted) : manager.enqueuePacket packet = manager.enqueuePacketImpl packet := by
  rw [enqueuePacket, if_neg h.streamIdentifier, if_neg h.numberOfSamples, if_neg h.dataType,
    if_neg (not_le.mpr h.samplingRate), if_neg h.data]

theorem enqueuePacket_of_refused (manager : SubscriptionManager) {packet : Packet}
    (h : ¬packet.Accepted) : ∃ what, manager.enqueuePacket packet = .error what := by
  unfold enqueuePacket
  split_ifs with a b c d e
  · exact ⟨_, rfl⟩
  · exact ⟨_, rfl⟩
  · exact ⟨_, rfl⟩
  · exact ⟨_, rfl⟩
  · exact ⟨_, rfl⟩
  · exact absurd ⟨a, b, c, not_le.mp d, e⟩ h

theorem distinctIdentifiers_fold (kept : List StreamIdentifier × ExtTreeSet String)
    (identifiers : List StreamIdentifier)
    (sound : ∀ name, name ∈ kept.2 ↔ name ∈ kept.1.map StreamIdentifier.toName)
    (once : (kept.1.map StreamIdentifier.toName).Nodup) :
    let last := identifiers.foldl
      (fun (kept : List StreamIdentifier × ExtTreeSet String) identifier =>
        if identifier.toName ∈ kept.2 then kept
        else (kept.1 ++ [identifier], kept.2.insert identifier.toName)) kept
    (last.1.map StreamIdentifier.toName).Nodup ∧
      ∀ name, name ∈ last.1.map StreamIdentifier.toName ↔
        name ∈ kept.1.map StreamIdentifier.toName ∨
          name ∈ identifiers.map StreamIdentifier.toName := by
  induction identifiers generalizing kept with
  | nil => exact ⟨once, fun name => by simp⟩
  | cons identifier identifiers ih =>
      rw [List.foldl_cons]
      by_cases seen : identifier.toName ∈ kept.2
      · rw [if_pos seen]
        obtain ⟨nodup, member⟩ := ih kept sound once
        refine ⟨nodup, fun name => (member name).trans ?_⟩
        rw [List.map_cons, List.mem_cons, ← or_assoc]
        refine or_congr_left (iff_self_or.mpr ?_)
        rintro rfl
        exact (sound _).mp seen
      · rw [if_neg seen]
        have fresh : identifier.toName ∉ kept.1.map StreamIdentifier.toName :=
          fun member => seen ((sound _).mpr member)
        obtain ⟨nodup, member⟩ := ih (kept.1 ++ [identifier], kept.2.insert identifier.toName)
          (fun name => by
            rw [mem_set_insert, sound, List.map_append, List.mem_append, List.map_singleton,
              List.mem_singleton, or_comm, eq_comm])
          (by
            rw [List.map_append, List.map_singleton]
            exact List.nodup_append.mpr ⟨once, List.nodup_singleton _, fun a ha b hb => by
              rw [List.mem_singleton.mp hb]
              rintro rfl
              exact fresh ha⟩)
        refine ⟨nodup, fun name => (member name).trans ?_⟩
        rw [List.map_append, List.mem_append, List.map_singleton, List.mem_singleton,
          List.map_cons, List.mem_cons, or_assoc]

def distinctNames (identifiers : List StreamIdentifier) : List String :=
  (distinctIdentifiers identifiers).map StreamIdentifier.toName

theorem distinctNames_nodup (identifiers : List StreamIdentifier) :
    (distinctNames identifiers).Nodup :=
  (distinctIdentifiers_fold ([], ∅) identifiers (fun name => by simp) List.nodup_nil).1

theorem mem_distinctNames (identifiers : List StreamIdentifier) (name : String) :
    name ∈ distinctNames identifiers ↔ name ∈ identifiers.map StreamIdentifier.toName := by
  refine ((distinctIdentifiers_fold ([], ∅) identifiers (fun name => by simp)
    List.nodup_nil).2 name).trans ?_
  simp

end SubscriptionManager

namespace ClientView

def step (c : ContextAddress) (walk : List String) (view : ClientView) :
    Operation → ClientView
  | .enqueuePacket packet => if packet.Accepted then view.enqueue packet else view
  | .subscribe d identifiers =>
      if d = c then (SubscriptionManager.distinctNames identifiers).foldl subscribeToName view
      else view
  | .subscribeToAll d => if d = c then view.subscribeToAll else view
  | .getPackets d => if d = c then (view.pullAll walk).2 else view
  | .unsubscribeFromAll d => if d = c then view.unsubscribeFromAll else view
  | .unsubscribeAll => view.unsubscribeAll
  | .getNumberOfSubscribers => view

theorem step_options (c : ContextAddress) (walk : List String) (view : ClientView)
    (operation : Operation) :
    (view.step c walk operation).mStreamOptions = view.mStreamOptions := by
  cases operation with
  | enqueuePacket packet =>
      simp only [step]
      split
      · exact view.enqueue_options packet
      · rfl
  | subscribe d identifiers =>
      simp only [step]
      split
      · exact FoldFrame.foldl_frame (·.mStreamOptions) subscribeToName _
          (fun v name _ => v.subscribeToName_options name) view
      · rfl
  | subscribeToAll d =>
      simp only [step]
      split
      · exact view.subscribeToAll_options
      · rfl
  | getPackets d =>
      simp only [step]
      split
      · exact view.pullAll_options walk
      · rfl
  | unsubscribeFromAll d =>
      simp only [step]
      split <;> rfl
  | unsubscribeAll => rfl
  | getNumberOfSubscribers => rfl

end ClientView

/-- The manager refines the client view: a step of one is a step of the other. -/
theorem view_managerMachine_step (c : ContextAddress) (manager : SubscriptionManager)
    (operation : Operation) :
    (managerMachine.step manager operation).1.view c =
      (manager.view c).step c manager.walk operation := by
  cases operation with
  | enqueuePacket packet =>
      simp only [managerMachine, ClientView.step]
      split
      · rename_i accepted
        rw [manager.enqueuePacket_of_accepted accepted, manager.view_enqueuePacketImpl]
      · rename_i refused
        obtain ⟨what, thrown⟩ := manager.enqueuePacket_of_refused refused
        rw [thrown]
        rfl
  | subscribe d identifiers =>
      simp only [managerMachine, ClientView.step, SubscriptionManager.subscribe]
      cases identifiers with
      | nil => simp [Reply.settle, SubscriptionManager.distinctNames,
          SubscriptionManager.distinctIdentifiers]
      | cons first rest =>
          have some : SubscriptionManager.distinctIdentifiers (first :: rest) ≠ [] := by
            intro empty
            have := (SubscriptionManager.mem_distinctNames (first :: rest) first.toName).mpr
              (List.mem_map_of_mem List.mem_cons_self)
            rw [SubscriptionManager.distinctNames, empty] at this
            cases this
          rw [if_neg (List.cons_ne_nil _ _), if_neg some, Reply.settle]
          split
          · rename_i own
            rw [own, manager.view_subscribeImpl, SubscriptionManager.distinctNames]
          · rename_i other
            exact manager.view_subscribeImpl_of_ne c other _
  | subscribeToAll d =>
      simp only [managerMachine, ClientView.step]
      split
      · rename_i own; rw [own, manager.view_subscribeToAll]
      · rename_i other; exact manager.view_subscribeToAll_of_ne c other
  | getPackets d =>
      simp only [managerMachine, ClientView.step]
      split
      · rename_i own; rw [own, manager.view_getPackets]
      · rename_i other; exact manager.view_getPackets_of_ne c other
  | unsubscribeFromAll d =>
      simp only [managerMachine, ClientView.step]
      split
      · rename_i own; rw [own, manager.view_unsubscribeFromAll]
      · rename_i other; exact manager.view_unsubscribeFromAll_of_ne c other
  | unsubscribeAll => exact manager.view_unsubscribeAll c
  | getNumberOfSubscribers => exact manager.view_getNumberOfSubscribers c

/-- A stream of a client view is stored under its own name and its queue keeps to the bound. -/
structure StreamView.Coherent (options : StreamOptions) (key : String) (stream : StreamView) :
    Prop where
  sameOptions : stream.mOptions = options
  identifier : stream.mStreamIdentifier = key
  recent : stream.mMostRecentPacket.toName = key
  bounded : ∀ queue, stream.queue = some queue → queue.length ≤ options.mMaximumQueueSize
  named : ∀ queue, stream.queue = some queue → ∀ packet ∈ queue, packet.toName = key

namespace StreamView.Coherent
variable {options : StreamOptions} {key : String} {stream : StreamView}

theorem subscribe (h : stream.Coherent options key) (enqueueLatestPacket : Bool) :
    (stream.subscribe enqueueLatestPacket).Coherent options key where
  sameOptions := h.sameOptions
  identifier := h.identifier
  recent := h.recent
  bounded := by
    rintro queue hq
    obtain rfl := Option.some.inj hq
    cases old : stream.queue with
    | some queue => exact h.bounded queue old
    | none =>
        simp only [Option.getD_none]
        split
        · exact options.positive
        · exact Nat.zero_le _
  named := by
    rintro queue hq
    obtain rfl := Option.some.inj hq
    cases old : stream.queue with
    | some queue => exact h.named queue old
    | none =>
        intro packet member
        simp only [Option.getD_none] at member
        split at member
        · rw [List.mem_singleton.mp member]; exact h.recent
        · cases member

theorem setNextPacket (h : stream.Coherent options key) {packet : Packet}
    (name : packet.toName = key) : (stream.setNextPacket packet).Coherent options key where
  sameOptions := h.sameOptions
  identifier := h.identifier
  recent := name
  bounded := by
    intro queue hq
    obtain ⟨old, hold, rfl⟩ := Option.map_eq_some_iff.mp hq
    rw [h.sameOptions]
    exact BoundedFifo.length_pushDropping_le options.positive packet (h.bounded old hold)
  named := by
    intro queue hq other member
    obtain ⟨old, hold, rfl⟩ := Option.map_eq_some_iff.mp hq
    rcases BoundedFifo.mem_pushDropping member with earlier | last
    · exact h.named old hold other earlier
    · rw [last]
      exact name

theorem pop (h : stream.Coherent options key) (n : ℕ) :
    (StreamView.pop^[n] stream).Coherent options key := by
  have fixed : ∀ s : StreamView, s.Coherent options key → s.pop.Coherent options key := by
    intro s hs
    refine ⟨hs.sameOptions, hs.identifier, hs.recent, ?_, ?_⟩
    · intro queue hq
      obtain ⟨old, hold, rfl⟩ := Option.map_eq_some_iff.mp hq
      exact (by simp : old.tail.length ≤ old.length).trans (hs.bounded old hold)
    · intro queue hq packet member
      obtain ⟨old, hold, rfl⟩ := Option.map_eq_some_iff.mp hq
      exact hs.named old hold packet (List.mem_of_mem_tail member)
  exact Function.Iterate.rec (fun s : StreamView => s.Coherent options key) h fixed n

theorem unsubscribe (h : stream.Coherent options key) :
    stream.unsubscribe.Coherent options key :=
  ⟨h.sameOptions, h.identifier, h.recent, nofun, nofun⟩

end StreamView.Coherent

namespace ClientView

/-- The records of one client agree: queues are recorded as active, active names
have streams, pending names have none, and a client of all streams has all queues. -/
structure Coherent (view : ClientView) : Prop where
  streams : ∀ key (stream : StreamView), view.streams[key]? = some stream →
    stream.Coherent view.mStreamOptions key
  recorded : ∀ key, (view.queueAt key).isSome → key ∈ view.active.getD ∅
  known : ∀ name ∈ view.active.getD ∅, name ∈ view.streams
  active : view.active ≠ some ∅
  absent : ∀ name ∈ view.pending.getD ∅, name ∉ view.streams
  pending : view.pending ≠ some ∅
  covered : view.pendingAll = true → ∀ key ∈ view.streams, (view.queueAt key).isSome

namespace Coherent
variable {view : ClientView}

/-- A stream may be replaced by one that serves the client as the old one did. -/
theorem replaceStream (h : view.Coherent) {key : String} {stream next : StreamView}
    (hs : view.streams[key]? = some stream) (hn : next.Coherent view.mStreamOptions key)
    (served : next.queue.isSome = stream.queue.isSome) :
    ({ view with streams := view.streams.insert key next } : ClientView).Coherent := by
  have same : ∀ name, name ∈ view.streams.insert key next ↔ name ∈ view.streams := by
    intro name
    rw [ExtTreeMap.mem_insert, Std.LawfulEqOrd.compare_eq_iff_eq, or_iff_right_of_imp]
    rintro rfl
    exact (mem_iff_exists _ _).mpr ⟨stream, hs⟩
  have queue : ∀ name, ((view.streams.insert key next)[name]?.bind (·.queue)).isSome =
      (view.queueAt name).isSome := by
    intro name
    rw [queueAt, getElem?_insert]
    split
    · rename_i here
      rw [← here, hs]
      exact served
    · rfl
  constructor
  · intro name found hf
    rw [getElem?_insert] at hf
    split at hf
    · rename_i here
      obtain rfl := Option.some.inj hf
      exact here ▸ hn
    · exact h.streams name found hf
  · exact fun name there => h.recorded name ((queue name).symm.trans there)
  · exact fun name member => (same name).mpr (h.known name member)
  · exact h.active
  · exact fun name member present => h.absent name member ((same name).mp present)
  · exact h.pending
  · exact fun all name present => (queue name).trans (h.covered all name ((same name).mp present))

theorem subscribeToStream (h : view.Coherent) (key : String) (enqueuePacket : Bool) :
    (view.subscribeToStream key key enqueuePacket).Coherent := by
  cases hs : view.streams[key]? with
  | none => simpa only [ClientView.subscribeToStream, hs] using h
  | some stream =>
      cases hq : stream.queue.isSome with
      | true => simpa only [ClientView.subscribeToStream, hs, hq, if_true] using h
      | false =>
          have same : ∀ name, name ∈ view.streams.insert key (stream.subscribe enqueuePacket) ↔
              name ∈ view.streams := by
            intro name
            rw [ExtTreeMap.mem_insert, Std.LawfulEqOrd.compare_eq_iff_eq, or_iff_right_of_imp]
            rintro rfl
            exact (mem_iff_exists _ _).mpr ⟨stream, hs⟩
          simp only [ClientView.subscribeToStream, hs, hq, Bool.false_eq_true, if_false]
          constructor
          · intro name found hf
            rw [getElem?_insert] at hf
            split at hf
            · rename_i here
              obtain rfl := Option.some.inj hf
              exact here ▸ (h.streams key stream hs).subscribe enqueuePacket
            · exact h.streams name found hf
          · intro name served
            simp only [Option.getD_some, mem_set_insert]
            simp only [queueAt, getElem?_insert] at served
            split at served
            · rename_i here; exact .inl here
            · exact .inr (h.recorded name served)
          · intro name member
            simp only [Option.getD_some, mem_set_insert] at member
            rcases member with rfl | old
            · exact (same _).mpr ((mem_iff_exists _ _).mpr ⟨stream, hs⟩)
            · exact (same name).mpr (h.known name old)
          · intro empty
            exact set_ne_empty_of_mem ((mem_set_insert _ key key).mpr (.inl rfl))
              (Option.some.inj empty)
          · exact fun name member present => h.absent name member ((same name).mp present)
          · exact h.pending
          · intro all name present
            simp only [queueAt, getElem?_insert]
            split
            · rfl
            · exact h.covered all name ((same name).mp present)

theorem addPending (h : view.Coherent) {name : String} (fresh : name ∉ view.streams) :
    (view.addPending name).Coherent where
  streams := h.streams
  recorded := h.recorded
  known := h.known
  active := h.active
  absent := by
    intro other member
    simp only [ClientView.addPending, Option.getD_some, mem_set_insert] at member
    rcases member with rfl | old
    · exact fresh
    · exact h.absent other old
  pending := fun empty => set_ne_empty_of_mem ((mem_set_insert _ name name).mpr (.inl rfl))
    (Option.some.inj empty)
  covered := h.covered

theorem subscribeToName (h : view.Coherent) (name : String) :
    (view.subscribeToName name).Coherent := by
  unfold ClientView.subscribeToName
  split
  · exact h.subscribeToStream name false
  · rename_i fresh; exact h.addPending fresh

theorem subscribeToKey (h : view.Coherent) (key : String) :
    (view.subscribeToKey key).Coherent := by
  unfold ClientView.subscribeToKey
  split
  · exact h
  · rename_i stream hs
    rw [(h.streams key stream hs).identifier]
    exact h.subscribeToStream key false

theorem subscribeToAll (h : view.Coherent) : view.subscribeToAll.Coherent := by
  cases all : view.pendingAll with
  | true => simpa only [ClientView.subscribeToAll, all, if_true] using h
  | false =>
      have walked : (view.streams.keys.foldl ClientView.subscribeToKey view).Coherent :=
        List.foldlRecOn _ _ h (fun v hv key _ => subscribeToKey hv key)
      have served : ∀ key ∈ view.subscribeToAll.streams,
          (view.subscribeToAll.queueAt key).isSome := by
        intro key present
        obtain ⟨stream, hs⟩ := (mem_iff_exists _ _).mp present
        rw [queueAt, hs]
        rw [subscribeToAll_streams, all, if_neg Bool.false_ne_true] at hs
        obtain ⟨old, -, rfl⟩ := Option.map_eq_some_iff.mp hs
        rfl
      simp only [ClientView.subscribeToAll, all, Bool.false_eq_true, if_false] at served ⊢
      exact { walked with covered := fun _ => served }

theorem pullAll (h : view.Coherent) (names : List String) : (view.pullAll names).2.Coherent := by
  obtain ⟨active, pending, pendingAll⟩ := view.pullAll_requests names
  have same : ∀ key, key ∈ (view.pullAll names).2.streams ↔ key ∈ view.streams :=
    fun key => view.mem_pullAll_streams key names
  have queue : ∀ key, ((view.pullAll names).2.queueAt key).isSome = (view.queueAt key).isSome := by
    intro key
    rw [queueAt_pullAll, Option.isSome_map]
  constructor
  · intro key stream hs
    rw [pullAll_streams] at hs
    obtain ⟨old, hold, rfl⟩ := Option.map_eq_some_iff.mp hs
    rw [pullAll_options]
    exact (h.streams key old hold).pop _
  · intro key served
    rw [active]
    exact h.recorded key (queue key ▸ served)
  · intro name member
    rw [active] at member
    exact (same name).mpr (h.known name member)
  · rw [active]; exact h.active
  · intro name member
    rw [pending] at member
    exact fun present => h.absent name member ((same name).mp present)
  · rw [pending]; exact h.pending
  · intro all key present
    rw [pendingAll] at all
    rw [queue]
    exact h.covered all key ((same key).mp present)

/-- Dropping every queue and every request is coherent whatever stays recorded as active. -/
theorem dropAll (h : view.Coherent) {active : Option (ExtTreeSet String)}
    (known : ∀ name ∈ active.getD ∅, name ∈ view.streams) (nonempty : active ≠ some ∅) :
    ClientView.Coherent
      ⟨view.mStreamOptions, view.streams.map (fun _ stream => stream.unsubscribe), active,
        none, false⟩ where
  streams := by
    intro key stream hs
    rw [ExtTreeMap.getElem?_map] at hs
    obtain ⟨old, hold, rfl⟩ := Option.map_eq_some_iff.mp hs
    exact (h.streams key old hold).unsubscribe
  recorded := by
    intro key served
    rw [queueAt, ExtTreeMap.getElem?_map] at served
    cases hs : view.streams[key]? with
    | none => rw [hs] at served; cases served
    | some stream => rw [hs] at served; cases served
  known := fun name member => ExtTreeMap.mem_map.mpr (known name member)
  active := nonempty
  absent := fun name member => absurd member ExtTreeSet.not_mem_empty
  pending := nofun
  covered := nofun

theorem unsubscribeAll (h : view.Coherent) : view.unsubscribeAll.Coherent :=
  h.dropAll h.known h.active

theorem unsubscribeFromAll (h : view.Coherent) : view.unsubscribeFromAll.Coherent := by
  apply h.dropAll
  · split
    · exact h.known
    · exact fun name member => absurd member ExtTreeSet.not_mem_empty
  · split
    · exact h.active
    · nofun

theorem enqueue (h : view.Coherent) (packet : Packet) : (view.enqueue packet).Coherent := by
  cases hs : view.streams[packet.toName]? with
  | some stream =>
      have old := h.streams _ stream hs
      rw [view.enqueue_known packet hs old.identifier.symm]
      exact h.replaceStream hs (old.setNextPacket rfl) Option.isSome_map
  | none =>
      have grown : ∀ name stream, name ∈ view.streams.insert packet.toName stream ↔
          packet.toName = name ∨ name ∈ view.streams := by
        intro name stream
        rw [ExtTreeMap.mem_insert, Std.LawfulEqOrd.compare_eq_iff_eq]
      rw [view.enqueue_first packet hs]
      constructor
      · intro name found hf
        rw [getElem?_insert] at hf
        split at hf
        · rename_i here
          subst here
          obtain rfl := Option.some.inj hf
          refine ⟨rfl, rfl, rfl, ?_, ?_⟩
          · intro queue hq
            simp only [Option.ite_none_right_eq_some] at hq
            rw [← Option.some.inj hq.2]
            exact view.mStreamOptions.positive
          · intro queue hq other member
            simp only [Option.ite_none_right_eq_some] at hq
            rw [← Option.some.inj hq.2] at member
            rw [List.mem_singleton.mp member]
        · exact h.streams name found hf
      · intro key served
        simp only [queueAt, getElem?_insert] at served
        split at served
        · rename_i here
          simp only [Option.bind_some, Option.isSome_ite] at served
          simp only [if_pos served, Option.getD_some, mem_set_insert]
          exact .inl here
        · have old := h.recorded key served
          simp only
          split
          · exact (mem_set_insert _ _ _).mpr (.inr old)
          · exact old
      · intro name member
        rw [grown]
        simp only at member
        split at member
        · rcases (mem_set_insert _ _ _).mp member with here | old
          · exact .inl here
          · exact .inr (h.known name old)
        · exact .inr (h.known name member)
      · simp only
        split
        · exact fun empty => set_ne_empty_of_mem ((mem_set_insert _ _ _).mpr (.inl rfl))
            (Option.some.inj empty)
        · exact h.active
      · intro name member
        rw [grown]
        cases hp : view.pending with
        | none => simp [hp] at member
        | some names =>
            simp only [hp, Option.map_some, Option.filter_some] at member
            split at member
            · obtain ⟨other, old⟩ := (mem_set_erase _ _ _).mp member
              rintro (here | present)
              · exact other here
              · exact h.absent name (by rw [hp]; exact old) present
            · exact absurd member ExtTreeSet.not_mem_empty
      · intro empty
        obtain ⟨-, kept⟩ := Option.filter_eq_some_iff.mp empty
        simp at kept
      · intro all key present
        simp only [queueAt, getElem?_insert]
        split
        · rw [if_pos (show view.Awaits packet.toName from .inl all)]
          rfl
        · rename_i other
          exact h.covered all key (((grown _ _).mp present).resolve_left other)

theorem step (h : view.Coherent) (c : ContextAddress) (walk : List String)
    (operation : Operation) : (view.step c walk operation).Coherent := by
  cases operation with
  | enqueuePacket packet =>
      simp only [ClientView.step]
      split
      · exact h.enqueue packet
      · exact h
  | subscribe d identifiers =>
      simp only [ClientView.step]
      split
      · exact List.foldlRecOn _ _ h (fun v hv name _ => subscribeToName hv name)
      · exact h
  | subscribeToAll d =>
      simp only [ClientView.step]
      split
      · exact h.subscribeToAll
      · exact h
  | getPackets d =>
      simp only [ClientView.step]
      split
      · exact h.pullAll walk
      · exact h
  | unsubscribeFromAll d =>
      simp only [ClientView.step]
      split
      · exact h.unsubscribeFromAll
      · exact h
  | unsubscribeAll => exact h.unsubscribeAll
  | getNumberOfSubscribers => exact h

end Coherent
end ClientView

def SubscriptionManager.Coherent (manager : SubscriptionManager) : Prop :=
  ∀ c, (manager.view c).Coherent

theorem fresh_coherent (options : StreamOptions) : (SubscriptionManager.fresh options).Coherent := by
  intro c
  have noStream : ∀ key : String, ((SubscriptionManager.fresh options).view c).streams[key]? = none := by
    intro key
    rw [SubscriptionManager.view_streams_getElem?]
    simp [SubscriptionManager.fresh]
  have noName : ∀ name, name ∉ ((SubscriptionManager.fresh options).view c).active.getD ∅ ∧
      name ∉ ((SubscriptionManager.fresh options).view c).pending.getD ∅ := by
    intro name
    simp [SubscriptionManager.view, SubscriptionManager.fresh]
  constructor
  · intro key stream hs
    rw [noStream key] at hs
    cases hs
  · intro key served
    rw [ClientView.queueAt, noStream key] at served
    cases served
  · exact fun name member => absurd member (noName name).1
  · simp [SubscriptionManager.view, SubscriptionManager.fresh]
  · exact fun name member => absurd member (noName name).2
  · simp [SubscriptionManager.view, SubscriptionManager.fresh]
  · intro all
    simp [SubscriptionManager.view, SubscriptionManager.fresh] at all

theorem coherent_step (manager : SubscriptionManager) (operation : Operation)
    (h : manager.Coherent) : (managerMachine.step manager operation).1.Coherent := by
  intro c
  rw [view_managerMachine_step]
  exact (h c).step c _ _

/-- Every manager a run can reach is coherent. -/
theorem run_coherent (options : StreamOptions) (operations : List Operation) :
    (managerMachine.run (SubscriptionManager.fresh options) operations).Coherent :=
  managerMachine.run_invariant SubscriptionManager.Coherent coherent_step (fresh_coherent options)
    operations

namespace SubscriptionManager

/-- The records of the manager agree: streams are stored under their names, active
names have streams, every queue is reached from the active names, requests are
pending only for streams that do not exist, and a client of all streams is served
by all of them. -/
structure RecordsAgree (manager : SubscriptionManager) : Prop where
  identifier : ∀ (key : String) (stream : Stream), manager.mStreamsMap[key]? = some stream →
    stream.mStreamIdentifier = key
  named : ∀ (key : String) (stream : Stream), manager.mStreamsMap[key]? = some stream →
    ∀ (c : ContextAddress) (queue : List Packet), stream.mSubscribersMap[c]? = some queue →
      ∀ packet ∈ queue, packet.toName = key
  known : ∀ (c : ContextAddress) (names : ExtTreeSet String),
    manager.mActiveSubscriptionsMap[c]? = some names → ∀ name ∈ names, name ∈ manager.mStreamsMap
  reached : ∀ c before name after, manager.walk = before ++ name :: after →
    name ∈ (before.foldl (nextPacketFrom c) ([], manager)).2.mStreamsMap
  recorded : ∀ (key : String) (stream : Stream), manager.mStreamsMap[key]? = some stream →
    ∀ c ∈ stream.mSubscribersMap,
      ∃ names : ExtTreeSet String, manager.mActiveSubscriptionsMap[c]? = some names ∧ key ∈ names
  pending : ∀ (c : ContextAddress) (names : ExtTreeSet String),
    manager.mPendingSubscriptionRequests[c]? = some names →
      names ≠ ∅ ∧ ∀ name ∈ names, name ∉ manager.mStreamsMap
  covered : ∀ c ∈ manager.mPendingSubscribeToAllRequests, ∀ (key : String) (stream : Stream),
    manager.mStreamsMap[key]? = some stream → c ∈ stream.mSubscribersMap

theorem nextPacketFrom_mem (c : ContextAddress) (result : List Packet × SubscriptionManager)
    (streamIdentifier name : String) :
    name ∈ (nextPacketFrom c result streamIdentifier).2.mStreamsMap ↔
      name ∈ result.2.mStreamsMap := by
  unfold nextPacketFrom
  split
  · rfl
  · rename_i stream there
    rw [ExtTreeMap.mem_insert, Std.LawfulEqOrd.compare_eq_iff_eq, or_iff_right_of_imp]
    rintro rfl
    exact (mem_iff_exists _ _).mpr ⟨stream, there⟩

theorem view_mem_streams (c : ContextAddress) (manager : SubscriptionManager) (name : String) :
    name ∈ (manager.view c).streams ↔ name ∈ manager.mStreamsMap := by
  rw [ExtTreeMap.mem_iff_isSome_getElem?, ExtTreeMap.mem_iff_isSome_getElem?,
    view_streams_getElem?, Option.isSome_map]

variable {manager : SubscriptionManager}

theorem view_getElem? {key : String} {stream : Stream} (c : ContextAddress)
    (there : manager.mStreamsMap[key]? = some stream) :
    (manager.view c).streams[key]? = some (stream.view c) := by
  rw [view_streams_getElem?, there, Option.map_some]

theorem Coherent.known (h : manager.Coherent) {c : ContextAddress} {names : ExtTreeSet String}
    (active : manager.mActiveSubscriptionsMap[c]? = some names) :
    ∀ name ∈ names, name ∈ manager.mStreamsMap := by
  intro name member
  rw [← view_mem_streams c]
  refine (h c).known name ?_
  rw [view, active, Option.getD_some]
  exact member

/-- The invariant of the client views, read off the containers. -/
theorem Coherent.recordsAgree (h : manager.Coherent) : manager.RecordsAgree where
  identifier key stream there := ((h 0).streams key _ (view_getElem? 0 there)).identifier
  named key stream there c queue own :=
    ((h c).streams key _ (view_getElem? c there)).named queue own
  known c names active := h.known active
  reached c before name after visits := by
    have kept := FoldFrame.foldl_frame
      (fun result : List Packet × SubscriptionManager => name ∈ result.2.mStreamsMap)
      (nextPacketFrom c) before
      (fun result streamIdentifier _ => propext (nextPacketFrom_mem c result streamIdentifier name))
      ([], manager)
    rw [kept]
    have member : name ∈ manager.walk := by
      rw [visits]
      exact List.mem_append_right before List.mem_cons_self
    obtain ⟨⟨d, names⟩, entry, there⟩ := List.mem_flatMap.mp member
    exact h.known (ExtTreeMap.mem_toList_iff_getElem?_eq_some.mp entry) name
      (ExtTreeSet.mem_toList.mp there)
  recorded key stream there c own := by
    have served : ((manager.view c).queueAt key).isSome := by
      rw [ClientView.queueAt, view_getElem? c there, Option.bind_some]
      exact ExtTreeMap.mem_iff_isSome_getElem?.mp own
    have active := (h c).recorded key served
    rw [view] at active
    cases found : manager.mActiveSubscriptionsMap[c]? with
    | none => simp [found] at active
    | some names => exact ⟨names, rfl, by simpa [found] using active⟩
  pending c names request := by
    have own : (manager.view c).pending = some names := request
    refine ⟨?_, fun name member => ?_⟩
    · rintro rfl
      exact (h c).pending own
    · rw [← view_mem_streams c]
      refine (h c).absent name ?_
      rw [own, Option.getD_some]
      exact member
  covered c all key stream there := by
    have served := (h c).covered all key
      ((mem_iff_exists _ _).mpr ⟨stream.view c, view_getElem? c there⟩)
    rw [ClientView.queueAt, view_getElem? c there, Option.bind_some] at served
    exact ExtTreeMap.mem_iff_isSome_getElem?.mpr served

end SubscriptionManager

/-- The records agree in every manager a run can reach. -/
theorem records_agree (options : StreamOptions) (operations : List Operation) :
    (managerMachine.run (SubscriptionManager.fresh options) operations).RecordsAgree :=
  (run_coherent options operations).recordsAgree

theorem options_step (manager : SubscriptionManager) (operation : Operation) :
    (managerMachine.step manager operation).1.mStreamOptions = manager.mStreamOptions := by
  have seen := congrArg ClientView.mStreamOptions (view_managerMachine_step 0 manager operation)
  refine Eq.trans seen ?_
  exact ClientView.step_options 0 manager.walk _ operation

theorem run_options (options : StreamOptions) (operations : List Operation) :
    (managerMachine.run (SubscriptionManager.fresh options) operations).mStreamOptions = options :=
  managerMachine.run_invariant (fun manager => manager.mStreamOptions = options)
    (fun manager operation h => (options_step manager operation).trans h) rfl operations

end UDataPacketService
