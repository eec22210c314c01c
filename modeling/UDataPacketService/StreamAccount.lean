import UDataPacketService.ViewRefinement

/-! The account of one stream in a client view: the stream as the view holds it,
and whether the client waits for it. Each call has one rule for each of the two. -/
namespace UDataPacketService
open Std (ExtTreeMap ExtTreeSet)
open OrderedContainers

namespace StreamView

theorem subscribe_of_queue {stream : StreamView} (h : stream.queue.isSome)
    (enqueueLatestPacket : Bool) : stream.subscribe enqueueLatestPacket = stream := by
  obtain ⟨queue, hq⟩ := Option.isSome_iff_exists.mp h
  rw [subscribe, hq, Option.getD_some, ← hq]

theorem pop_iterate_queue (stream : StreamView) (n : ℕ) :
    (pop^[n] stream).queue = stream.queue.map (List.drop n) := by
  induction n generalizing stream with
  | zero => cases h : stream.queue <;> simp [h]
  | succ n ih =>
      rw [Function.iterate_succ_apply, ih, pop, Option.map_map]
      congr 1
      funext queue
      simp [List.drop_tail]

/-- Taking more packets than there are takes them all. -/
theorem pop_iterate_eq (stream : StreamView) {m n : ℕ}
    (h : min m (stream.queue.getD []).length = min n (stream.queue.getD []).length) :
    pop^[m] stream = pop^[n] stream := by
  have fields : ∀ k, pop^[k] stream = { stream with queue := (pop^[k] stream).queue } := by
    intro k
    refine Function.Iterate.rec (fun s : StreamView => s = { stream with queue := s.queue })
      rfl (fun s hs => ?_) k
    rw [hs]
    rfl
  rw [fields m, fields n, pop_iterate_queue, pop_iterate_queue]
  congr 1
  cases hq : stream.queue with
  | none => rfl
  | some queue =>
      rw [hq, Option.getD_some] at h
      rw [Option.map_some, Option.map_some]
      congr 1
      have whole : queue.take m ++ queue.drop m = queue.take m ++ queue.drop n := by
        rw [List.take_append_drop, List.take_eq_take_iff.mpr h, List.take_append_drop]
      exact List.append_cancel_left whole

end StreamView

namespace ClientView
variable (view : ClientView)

def queueAt (name : String) : Option (List Packet) := view.streams[name]?.bind (·.queue)

/-- The client is to be subscribed to the stream when its first packet arrives. -/
def Awaits (name : String) : Prop := view.pendingAll = true ∨ name ∈ view.pending.getD ∅

instance (view : ClientView) (name : String) : Decidable (view.Awaits name) :=
  inferInstanceAs (Decidable (_ ∨ _))

section Streams
variable (name : String)

theorem subscribeToStream_streams (key streamIdentifier : String) (enqueuePacket : Bool) :
    (view.subscribeToStream key streamIdentifier enqueuePacket).streams[name]? =
      if key = name then view.streams[name]?.map (·.subscribe enqueuePacket)
      else view.streams[name]? := by
  unfold subscribeToStream
  by_cases same : key = name
  · subst same
    cases h : view.streams[key]? with
    | none => simp [h]
    | some stream =>
        simp only [if_true, Option.map_some]
        split
        · rename_i served
          rw [h, stream.subscribe_of_queue served]
        · exact ExtTreeMap.getElem?_insert_self
  · cases view.streams[key]? with
    | none => simp [same]
    | some stream =>
        simp only [if_neg same]
        split
        · rfl
        · exact getElem?_insert_of_ne _ _ same

theorem subscribeToName_streams (other : String) :
    (view.subscribeToName other).streams[name]? =
      if other = name then view.streams[name]?.map (·.subscribe false)
      else view.streams[name]? := by
  unfold subscribeToName
  split
  · exact subscribeToStream_streams view name other other false
  · rename_i absent
    by_cases same : other = name
    · subst same
      rw [if_pos rfl, (not_mem_iff _ _).mp absent, Option.map_none]
      exact (not_mem_iff _ _).mp absent
    · rw [if_neg same]
      rfl

theorem subscribeToKey_streams (key : String) :
    (view.subscribeToKey key).streams[name]? =
      if key = name then view.streams[name]?.map (·.subscribe false)
      else view.streams[name]? := by
  unfold subscribeToKey
  cases h : view.streams[key]? with
  | none =>
      by_cases same : key = name
      · subst same; simp [h]
      · rw [if_neg same]
  | some stream => exact subscribeToStream_streams view name key stream.mStreamIdentifier false

theorem subscribeToNames_streams (names : List String) (once : names.Nodup) :
    (names.foldl subscribeToName view).streams[name]? =
      if name ∈ names then view.streams[name]?.map (·.subscribe false)
      else view.streams[name]? :=
  FoldFrame.foldl_focus (fun v : ClientView => v.streams[name]?) subscribeToName
    (Option.map (·.subscribe false)) name names once
    (fun v other hne => by rw [subscribeToName_streams, if_neg hne])
    (fun v => by rw [subscribeToName_streams, if_pos rfl]) view

theorem subscribeToAll_streams :
    view.subscribeToAll.streams[name]? =
      if view.pendingAll then view.streams[name]?
      else view.streams[name]?.map (·.subscribe false) := by
  unfold subscribeToAll
  cases view.pendingAll with
  | true => rfl
  | false =>
      simp only [Bool.false_eq_true, if_false]
      rw [FoldFrame.foldl_focus (fun v : ClientView => v.streams[name]?) subscribeToKey
        (Option.map (·.subscribe false)) name _ (keys_nodup _)
        (fun v other hne => by rw [subscribeToKey_streams, if_neg hne])
        (fun v => by rw [subscribeToKey_streams, if_pos rfl])]
      split
      · rfl
      · rename_i absent
        rw [(not_mem_iff _ _).mp (fun member => absent (ExtTreeMap.mem_keys.mpr member)),
          Option.map_none]

theorem pull_streams (other : String) :
    (view.pull other).2.streams[name]? =
      if other = name then view.streams[name]?.map StreamView.pop else view.streams[name]? := by
  unfold pull
  by_cases same : other = name
  · subst same
    cases h : view.streams[other]? with
    | none => simp [h]
    | some stream => simp
  · cases view.streams[other]? with
    | none => rw [if_neg same]
    | some stream => simp only [getElem?_insert_of_ne _ _ same, if_neg same]

/-- A stream loses one packet from the front for each visit of the walk. -/
theorem pullAll_streams (names : List String) :
    (view.pullAll names).2.streams[name]? =
      view.streams[name]?.map (StreamView.pop^[names.count name]) := by
  induction names generalizing view with
  | nil => simp [pullAll]
  | cons other names ih =>
      rw [pullAll, ih, pull_streams, List.count_cons]
      by_cases same : other = name
      · simp only [same, if_true, beq_self_eq_true, Function.iterate_succ, Option.map_map]
      · simp only [same, if_false, beq_iff_eq, add_zero]

theorem mem_pullAll_streams (names : List String) :
    name ∈ (view.pullAll names).2.streams ↔ name ∈ view.streams := by
  rw [mem_iff_exists, mem_iff_exists, pullAll_streams]
  cases view.streams[name]? <;> simp

theorem queueAt_pullAll (names : List String) :
    (view.pullAll names).2.queueAt name =
      (view.queueAt name).map (List.drop (names.count name)) := by
  rw [queueAt, queueAt, pullAll_streams]
  cases view.streams[name]? with
  | none => rfl
  | some stream => exact stream.pop_iterate_queue _

theorem pullAll_idle (idle : ∀ name, view.queueAt name = none) (names : List String) :
    view.pullAll names = ([], view) := by
  have still : ∀ name, view.pull name = (none, view) := by
    intro name
    have noQueue := idle name
    rw [queueAt] at noQueue
    unfold pull
    split
    · rfl
    · rename_i stream hs
      rw [hs, Option.bind_some] at noQueue
      have same : stream.pop = stream := by
        rw [StreamView.pop, noQueue, Option.map_none, ← noQueue]
      rw [same, insert_same _ hs, StreamView.front, noQueue]
      rfl
  induction names with
  | nil => rfl
  | cons name names ih =>
      simp only [pullAll, still name, ih, Option.toList_none, List.append_nil]

end Streams

section Requests

@[simp] theorem subscribeToStream_pending (key streamIdentifier : String) (enqueuePacket : Bool) :
    (view.subscribeToStream key streamIdentifier enqueuePacket).pending = view.pending := by
  unfold subscribeToStream
  split
  · rfl
  · split <;> rfl

@[simp] theorem subscribeToStream_pendingAll (key streamIdentifier : String)
    (enqueuePacket : Bool) :
    (view.subscribeToStream key streamIdentifier enqueuePacket).pendingAll = view.pendingAll := by
  unfold subscribeToStream
  split
  · rfl
  · split <;> rfl

@[simp] theorem subscribeToAll_pendingAll : view.subscribeToAll.pendingAll = true := by
  unfold subscribeToAll
  split
  · assumption
  · rfl

theorem pullAll_requests (names : List String) :
    (view.pullAll names).2.active = view.active ∧
      (view.pullAll names).2.pending = view.pending ∧
      (view.pullAll names).2.pendingAll = view.pendingAll := by
  induction names generalizing view with
  | nil => exact ⟨rfl, rfl, rfl⟩
  | cons name names ih =>
      have one : (view.pull name).2.active = view.active ∧
          (view.pull name).2.pending = view.pending ∧
          (view.pull name).2.pendingAll = view.pendingAll := by
        unfold pull
        split <;> exact ⟨rfl, rfl, rfl⟩
      obtain ⟨active, pending, pendingAll⟩ := ih (view.pull name).2
      exact ⟨active.trans one.1, pending.trans one.2.1, pendingAll.trans one.2.2⟩

theorem subscribeToName_pendingAll (name : String) :
    (view.subscribeToName name).pendingAll = view.pendingAll := by
  unfold subscribeToName
  split
  · exact subscribeToStream_pendingAll ..
  · rfl

theorem mem_subscribeToName_pending (name other : String) :
    name ∈ (view.subscribeToName other).pending.getD ∅ ↔
      name ∈ view.pending.getD ∅ ∨ (other = name ∧ name ∉ view.streams) := by
  unfold subscribeToName
  split
  · rename_i present
    rw [subscribeToStream_pending, or_iff_left]
    rintro ⟨rfl, absent⟩
    exact absent present
  · rename_i absent
    simp only [addPending, Option.getD_some, mem_set_insert]
    constructor
    · rintro (rfl | old)
      · exact .inr ⟨rfl, absent⟩
      · exact .inl old
    · rintro (old | ⟨rfl, -⟩)
      · exact .inr old
      · exact .inl rfl

theorem mem_subscribeToName_streams (name other : String) :
    name ∈ (view.subscribeToName other).streams ↔ name ∈ view.streams := by
  rw [mem_iff_exists, mem_iff_exists, subscribeToName_streams]
  split <;> cases view.streams[name]? <;> simp

theorem mem_subscribeToNames_pending (name : String) (names : List String) :
    name ∈ (names.foldl subscribeToName view).pending.getD ∅ ↔
      name ∈ view.pending.getD ∅ ∨ (name ∈ names ∧ name ∉ view.streams) := by
  induction names generalizing view with
  | nil => simp
  | cons other names ih =>
      rw [List.foldl_cons, ih, mem_subscribeToName_pending, mem_subscribeToName_streams, or_assoc,
        ← or_and_right, List.mem_cons, eq_comm (a := other)]

theorem subscribeToNames_pendingAll (names : List String) :
    (names.foldl subscribeToName view).pendingAll = view.pendingAll :=
  FoldFrame.foldl_frame (·.pendingAll) subscribeToName names
    (fun v name _ => subscribeToName_pendingAll v name) view

end Requests

section Options

@[simp] theorem subscribeToStream_options (key streamIdentifier : String) (enqueuePacket : Bool) :
    (view.subscribeToStream key streamIdentifier enqueuePacket).mStreamOptions =
      view.mStreamOptions := by
  unfold subscribeToStream
  split
  · rfl
  · split <;> rfl

theorem subscribeToName_options (name : String) :
    (view.subscribeToName name).mStreamOptions = view.mStreamOptions := by
  unfold subscribeToName
  split
  · exact subscribeToStream_options ..
  · rfl

theorem subscribeToAll_options : view.subscribeToAll.mStreamOptions = view.mStreamOptions := by
  unfold subscribeToAll
  split
  · rfl
  · refine FoldFrame.foldl_frame (·.mStreamOptions) subscribeToKey _ (fun v key _ => ?_) view
    unfold subscribeToKey
    split
    · rfl
    · exact subscribeToStream_options ..

theorem pullAll_options (names : List String) :
    (view.pullAll names).2.mStreamOptions = view.mStreamOptions := by
  induction names generalizing view with
  | nil => rfl
  | cons name names ih =>
      rw [pullAll, ih, pull]
      split <;> rfl

theorem enqueue_options (packet : Packet) :
    (view.enqueue packet).mStreamOptions = view.mStreamOptions := by
  simp only [enqueue, fillPending, purgeFilled]
  split
  · split <;> rfl
  · split
    · split <;> simp
    · split <;> split <;> simp

end Options

section Enqueue
variable (packet : Packet)

theorem enqueue_known {stream : StreamView} (h : view.streams[packet.toName]? = some stream)
    (name : packet.toName = stream.mStreamIdentifier) :
    view.enqueue packet =
      { view with streams := view.streams.insert packet.toName (stream.setNextPacket packet) } := by
  simp only [enqueue, h, if_neg (not_not.mpr name)]

/-- Dropping the requests with nothing left to fill drops no name. -/
theorem getD_purged (pending : Option (ExtTreeSet String)) :
    (pending.filter (fun names => !names.isEmpty)).getD ∅ = pending.getD ∅ := by
  cases pending with
  | none => rfl
  | some names =>
      rw [Option.filter_some]
      split
      · rfl
      · rename_i filled
        rw [Bool.not_eq_true', Bool.not_eq_false, ExtTreeSet.isEmpty_iff] at filled
        exact filled.symm

open Classical in
/-- The first packet of a stream creates it and subscribes the client that awaits it. -/
theorem enqueue_first (h : view.streams[packet.toName]? = none) :
    view.enqueue packet =
      { mStreamOptions := view.mStreamOptions
        streams := view.streams.insert packet.toName
          ⟨view.mStreamOptions, packet.toName, packet, true,
            if view.Awaits packet.toName then some [packet] else none⟩
        active := if view.Awaits packet.toName
          then some ((view.active.getD ∅).insert packet.toName) else view.active
        pending := (view.pending.map (·.erase packet.toName)).filter (fun names => !names.isEmpty)
        pendingAll := view.pendingAll } := by
  simp only [enqueue, h, Awaits]
  obtain ⟨options, streams, active, pending, pendingAll⟩ := view
  cases pendingAll <;> cases pending with
  | none => simp [fillPending, purgeFilled, subscribeToStream, StreamView.subscribe]
  | some names =>
      by_cases member : packet.toName ∈ names
      · simp [fillPending, purgeFilled, subscribeToStream, StreamView.subscribe, member]
      · simp [fillPending, purgeFilled, subscribeToStream, StreamView.subscribe, member,
          set_erase_absent]

end Enqueue

end ClientView
end UDataPacketService
