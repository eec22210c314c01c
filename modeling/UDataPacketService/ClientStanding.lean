import UDataPacketService.ConcurrentModel

/-! The interleaved manager as one context sees it: where the context stands with
the shared containers, and how far the producer is with that context. Every step
of a thread is a move of these two, or invisible to the context. -/
namespace UDataPacketService
open Std (ExtTreeMap ExtTreeSet)
open OrderedContainers

/-- Where a context stands: the streams there are, those that serve it, the names it
has pending and whether it has a request, waits for all streams or is recorded as active. -/
@[ext]
structure Standing where
  known : Set String
  served : Set String
  pending : Set String
  request : Prop
  all : Prop
  active : Prop

def Standing.Asks (standing : Standing) (streamIdentifier : String) : Requests → Prop
  | .all => standing.all
  | .named => streamIdentifier ∈ standing.pending

namespace Stream

theorem mem_subscribe (stream : Stream) (c d : ContextAddress) (enqueueLatestPacket : Bool) :
    d ∈ (stream.subscribe c enqueueLatestPacket).2.mSubscribersMap ↔
      d = c ∨ d ∈ stream.mSubscribersMap := by
  unfold subscribe
  split
  · rename_i there
    exact (or_iff_right_of_imp (fun same => same ▸ there)).symm
  · simp only [ExtTreeMap.containsThenInsertIfNew_snd, ExtTreeMap.mem_insertIfNew,
      Std.LawfulEqOrd.compare_eq_iff_eq]
    exact or_congr_left eq_comm

theorem subscribe_fst_iff (stream : Stream) (c : ContextAddress) (enqueueLatestPacket : Bool) :
    (stream.subscribe c enqueueLatestPacket).1 = true ↔ c ∉ stream.mSubscribersMap := by
  rw [subscribe_fst, Option.isNone_iff_eq_none, not_mem_iff]
  exact Iff.rfl

theorem mem_unsubscribe (stream : Stream) (c d : ContextAddress) :
    d ∈ (stream.unsubscribe c).2.mSubscribersMap ↔ d ≠ c ∧ d ∈ stream.mSubscribersMap := by
  simp only [unsubscribe, ExtTreeMap.mem_erase, ne_eq, Std.LawfulEqOrd.compare_eq_iff_eq]
  exact and_congr_left (fun _ => not_congr eq_comm)

theorem unsubscribe_fst_eq (stream : Stream) (c : ContextAddress) :
    (stream.unsubscribe c).1 =
      .ok (if c ∈ stream.mSubscribersMap then .unsubscribed else .neverSubscribed) := by
  rw [unsubscribe_fst]
  have same : (stream.view c).queue.isSome = true ↔ c ∈ stream.mSubscribersMap :=
    ExtTreeMap.mem_iff_isSome_getElem?.symm
  simp only [same]

end Stream

namespace SubscriptionManager

def Serves (manager : SubscriptionManager) (c : ContextAddress) (key : String) : Prop :=
  ∃ stream, manager.mStreamsMap[key]? = some stream ∧ c ∈ stream.mSubscribersMap

instance (manager : SubscriptionManager) (c : ContextAddress) (s : String) :
    Decidable (manager.Serves c s) :=
  match there : manager.mStreamsMap[s]? with
  | none => isFalse (fun ⟨_, found, _⟩ => by rw [there] at found; cases found)
  | some stream =>
      decidable_of_iff (c ∈ stream.mSubscribersMap)
        ⟨fun member => ⟨stream, there, member⟩, fun ⟨found, same, member⟩ => by
          rw [there] at same
          rwa [Option.some.inj same]⟩

def standing (c : ContextAddress) (manager : SubscriptionManager) : Standing where
  known := { key | key ∈ manager.mStreamsMap }
  served := { key | manager.Serves c key }
  pending := { name | name ∈ manager.pendingNames c }
  request := c ∈ manager.mPendingSubscriptionRequests
  all := c ∈ manager.mPendingSubscribeToAllRequests
  active := c ∈ manager.mActiveSubscriptionsMap

variable (c : ContextAddress) (manager : SubscriptionManager)

theorem standing_replace {key : String} {stream : Stream} (next : Stream)
    (there : manager.mStreamsMap[key]? = some stream) :
    ({ manager with mStreamsMap := manager.mStreamsMap.insert key next }).standing c =
      { manager.standing c with
        served := { name | if name = key then c ∈ next.mSubscribersMap
          else manager.Serves c name } } := by
  have member : key ∈ manager.mStreamsMap := (mem_iff_exists _ _).mpr ⟨stream, there⟩
  refine Standing.ext ?_ ?_ rfl rfl rfl rfl
  · ext name
    change name ∈ manager.mStreamsMap.insert key next ↔ name ∈ manager.mStreamsMap
    rw [ExtTreeMap.mem_insert, Std.LawfulEqOrd.compare_eq_iff_eq]
    exact or_iff_right_of_imp (fun same => same ▸ member)
  · ext name
    change (∃ found, (manager.mStreamsMap.insert key next)[name]? = some found ∧ _) ↔
      if name = key then _ else _
    rw [getElem?_insert]
    by_cases same : key = name
    · subst same
      simp
    · simp only [if_neg same, if_neg (Ne.symm same)]
      exact Iff.rfl

/-- A stream replaced by one that serves the context alike goes unnoticed. -/
theorem standing_replace_alike {key : String} {stream : Stream} (next : Stream)
    (there : manager.mStreamsMap[key]? = some stream)
    (alike : c ∈ next.mSubscribersMap ↔ c ∈ stream.mSubscribersMap) :
    ({ manager with mStreamsMap := manager.mStreamsMap.insert key next }).standing c =
      manager.standing c := by
  rw [standing_replace c manager next there]
  refine Standing.ext rfl ?_ rfl rfl rfl rfl
  ext name
  change (if name = key then _ else _) ↔ manager.Serves c name
  split
  · rename_i same
    subst same
    rw [alike]
    exact ⟨fun member => ⟨stream, there, member⟩, fun ⟨found, same, member⟩ => by
      rw [there] at same
      rwa [Option.some.inj same]⟩
  · exact Iff.rfl

theorem standing_setNextPacket {key : String} {stream next : Stream} {packet : Packet}
    (there : manager.mStreamsMap[key]? = some stream) (h : stream.setNextPacket packet = .ok next) :
    ({ manager with mStreamsMap := manager.mStreamsMap.insert key next }).standing c =
      manager.standing c := by
  apply standing_replace_alike c manager next there
  simp only [Stream.setNextPacket] at h
  split_ifs at h
  obtain rfl := Except.ok.inj h
  exact ExtTreeMap.mem_map

theorem standing_insert {key : String} {stream : Stream} (fresh : key ∉ manager.mStreamsMap)
    (empty : c ∉ stream.mSubscribersMap) :
    ({ manager with mStreamsMap := manager.mStreamsMap.insertIfNew key stream }).standing c =
      { manager.standing c with known := insert key (manager.standing c).known } := by
  refine Standing.ext ?_ ?_ rfl rfl rfl rfl
  · ext name
    change name ∈ manager.mStreamsMap.insertIfNew key stream ↔ name = key ∨ name ∈ manager.mStreamsMap
    rw [ExtTreeMap.mem_insertIfNew, Std.LawfulEqOrd.compare_eq_iff_eq, eq_comm]
  · ext name
    change (∃ found, (manager.mStreamsMap.insertIfNew key stream)[name]? = some found ∧ _) ↔
      manager.Serves c name
    by_cases same : key = name
    · subst same
      rw [ExtTreeMap.getElem?_insertIfNew, if_pos ⟨Std.ReflOrd.compare_self, fresh⟩]
      refine iff_of_false ?_ ?_
      · rintro ⟨found, here, member⟩
        rw [← Option.some.inj here] at member
        exact empty member
      · rintro ⟨found, there, -⟩
        exact fresh ((mem_iff_exists _ _).mpr ⟨found, there⟩)
    · rw [ExtTreeMap.getElem?_insertIfNew, if_neg]
      · exact Iff.rfl
      · rintro ⟨equal, -⟩
        exact same (Std.LawfulEqOrd.compare_eq_iff_eq.mp equal)

section SubscribeAt
variable (key : String) (enqueuePacket : Bool)

theorem standing_subscribeAt_of_ne {d : ContextAddress} (other : d ≠ c) :
    (manager.subscribeAt key d enqueuePacket).2.standing c = manager.standing c := by
  unfold subscribeAt
  cases there : manager.mStreamsMap[key]? with
  | none => rfl
  | some stream =>
      apply standing_replace_alike c manager _ there
      rw [stream.mem_subscribe, or_iff_right (Ne.symm other)]

theorem subscribeAt_added (added : (manager.subscribeAt key c enqueuePacket).1 = true) :
    key ∈ manager.mStreamsMap ∧ (manager.subscribeAt key c enqueuePacket).2.standing c =
      { manager.standing c with served := insert key (manager.standing c).served } := by
  unfold subscribeAt at added ⊢
  cases there : manager.mStreamsMap[key]? with
  | none => simp only [there, Bool.false_eq_true] at added
  | some stream =>
      refine ⟨(mem_iff_exists _ _).mpr ⟨stream, there⟩, ?_⟩
      simp only
      rw [standing_replace c manager _ there]
      refine Standing.ext rfl ?_ rfl rfl rfl rfl
      ext name
      change (if name = key then _ else _) ↔ name = key ∨ manager.Serves c name
      split
      · rename_i same
        exact iff_of_true ((stream.mem_subscribe c c _).mpr (.inl rfl)) (.inl same)
      · rename_i differs
        exact (or_iff_right differs).symm

theorem subscribeAt_kept (kept : ¬(manager.subscribeAt key c enqueuePacket).1 = true) :
    (manager.subscribeAt key c enqueuePacket).2.standing c = manager.standing c ∧
      (manager.Serves c key ∨ key ∉ manager.mStreamsMap) := by
  unfold subscribeAt at kept ⊢
  cases there : manager.mStreamsMap[key]? with
  | none => exact ⟨rfl, .inr ((not_mem_iff _ _).mpr there)⟩
  | some stream =>
      simp only [there, stream.subscribe_fst_iff, not_not] at kept
      refine ⟨?_, .inl ⟨stream, there, kept⟩⟩
      apply standing_replace_alike c manager _ there
      rw [stream.mem_subscribe, or_iff_right_of_imp (fun _ => kept)]

end SubscribeAt

section UnsubscribeAt
variable (key : String)

theorem standing_unsubscribeAt_of_ne {d : ContextAddress} (other : d ≠ c) :
    (manager.unsubscribeAt key d).2.standing c = manager.standing c := by
  unfold unsubscribeAt
  cases there : manager.mStreamsMap[key]? with
  | none => rfl
  | some stream =>
      apply standing_replace_alike c manager _ there
      rw [stream.mem_unsubscribe, and_iff_right (Ne.symm other)]

theorem unsubscribeAt_of_serves (serves : manager.Serves c key) :
    (manager.unsubscribeAt key c).1 = .ok .unsubscribed ∧
      (manager.unsubscribeAt key c).2.standing c =
        { manager.standing c with served := (manager.standing c).served \ {key} } := by
  obtain ⟨stream, there, member⟩ := serves
  simp only [unsubscribeAt, there, stream.unsubscribe_fst_eq, if_pos member, true_and]
  rw [standing_replace c manager _ there]
  refine Standing.ext rfl ?_ rfl rfl rfl rfl
  ext name
  change (if name = key then _ else _) ↔ manager.Serves c name ∧ ¬name = key
  split
  · rename_i same
    exact iff_of_false (fun h => ((stream.mem_unsubscribe c c).mp h).1 rfl) (fun h => h.2 same)
  · rename_i differs
    exact (and_iff_left differs).symm

theorem unsubscribeAt_of_not_serves (serves : ¬manager.Serves c key) :
    (manager.unsubscribeAt key c).1 = .ok .neverSubscribed ∧
      (manager.unsubscribeAt key c).2.standing c = manager.standing c := by
  unfold unsubscribeAt
  cases there : manager.mStreamsMap[key]? with
  | none => exact ⟨rfl, rfl⟩
  | some stream =>
      have absent : c ∉ stream.mSubscribersMap := fun member => serves ⟨stream, there, member⟩
      refine ⟨by rw [stream.unsubscribe_fst_eq, if_neg absent], ?_⟩
      apply standing_replace_alike c manager _ there
      rw [stream.mem_unsubscribe, and_iff_right_of_imp]
      exact fun member => absurd member absent

end UnsubscribeAt

section Records
variable (name : String)

theorem standing_storeActive (there : Bool) :
    (manager.storeActive c name there).standing c = { manager.standing c with active := True } := by
  have member : c ∈ (manager.storeActive c name there).mActiveSubscriptionsMap :=
    ExtTreeMap.mem_insert_self
  exact congrArg (fun active => { manager.standing c with active := active }) (eq_true member)

theorem standing_storeActive_of_ne {d : ContextAddress} (other : d ≠ c) (there : Bool) :
    (manager.storeActive d name there).standing c = manager.standing c := by
  have same : (c ∈ (manager.storeActive d name there).mActiveSubscriptionsMap) =
      (c ∈ manager.mActiveSubscriptionsMap) := by
    simp only [storeActive, ExtTreeMap.mem_insert, Std.LawfulEqOrd.compare_eq_iff_eq, other,
      false_or]
  exact congrArg (fun active => { manager.standing c with active := active }) same

theorem standing_eraseActive :
    (manager.eraseActive c).standing c = { manager.standing c with active := False } := by
  have absent : c ∉ (manager.eraseActive c).mActiveSubscriptionsMap := by
    simp only [eraseActive, ExtTreeMap.mem_erase, Std.ReflOrd.compare_self, ne_eq,
      not_true_eq_false, false_and, not_false_eq_true]
  exact congrArg (fun active => { manager.standing c with active := active }) (eq_false absent)

theorem standing_eraseActive_of_ne {d : ContextAddress} (other : d ≠ c) :
    (manager.eraseActive d).standing c = manager.standing c := by
  have same : (c ∈ (manager.eraseActive d).mActiveSubscriptionsMap) =
      (c ∈ manager.mActiveSubscriptionsMap) := by
    simp only [eraseActive, ExtTreeMap.mem_erase, ne_eq, Std.LawfulEqOrd.compare_eq_iff_eq, other,
      not_false_eq_true, true_and]
  exact congrArg (fun active => { manager.standing c with active := active }) same

/-- The standing after a change of the requests, when the own request is known. -/
theorem standing_of_request {requests : ExtTreeMap ContextAddress (ExtTreeSet String)}
    {own : Option (ExtTreeSet String)} (h : requests[c]? = own) :
    ({ manager with mPendingSubscriptionRequests := requests }).standing c =
      { manager.standing c with
        pending := { name | name ∈ own.getD ∅ }
        request := own.isSome = true } := by
  subst h
  have present : (c ∈ requests) = (requests[c]?.isSome = true) :=
    propext ExtTreeMap.mem_iff_isSome_getElem?
  exact congrArg (fun request => { manager.standing c with
    pending := { name | name ∈ requests[c]?.getD ∅ }, request := request }) present

theorem standing_of_request_same {requests : ExtTreeMap ContextAddress (ExtTreeSet String)}
    (h : requests[c]? = manager.mPendingSubscriptionRequests[c]?) :
    ({ manager with mPendingSubscriptionRequests := requests }).standing c =
      manager.standing c := by
  rw [standing_of_request c manager h, ← standing_of_request c manager rfl]

theorem standing_erasePendingName :
    (manager.erasePendingName c name).standing c =
      { manager.standing c with pending := (manager.standing c).pending \ {name} } := by
  unfold erasePendingName
  cases h : manager.mPendingSubscriptionRequests[c]? with
  | none =>
      rw [standing_of_request c manager h]
      refine Standing.ext rfl rfl ?_ rfl rfl rfl
      ext other
      exact iff_of_false ExtTreeSet.not_mem_empty (fun h => ExtTreeSet.not_mem_empty h.1)
  | some names =>
      simp only
      rw [standing_of_request c manager h, standing_of_request c manager ExtTreeMap.getElem?_insert_self]
      refine Standing.ext rfl rfl ?_ rfl rfl rfl
      ext other
      change other ∈ names.erase name ↔ other ∈ names ∧ ¬other = name
      rw [mem_set_erase, and_comm, ne_comm]

theorem standing_erasePendingName_of_ne {d : ContextAddress} (other : d ≠ c) :
    (manager.erasePendingName d name).standing c = manager.standing c := by
  unfold erasePendingName
  split
  · rfl
  · exact standing_of_request_same c manager (getElem?_insert_of_ne _ _ other)

theorem standing_insertPendingName (there : c ∈ manager.mPendingSubscriptionRequests) :
    (manager.insertPendingName c name).standing c =
      { manager.standing c with pending := insert name (manager.standing c).pending } := by
  obtain ⟨names, h⟩ := (mem_iff_exists _ _).mp there
  simp only [insertPendingName, h]
  rw [standing_of_request c manager h, standing_of_request c manager ExtTreeMap.getElem?_insert_self]
  refine Standing.ext rfl rfl ?_ rfl rfl rfl
  ext other
  change other ∈ names.insert name ↔ other = name ∨ other ∈ names
  rw [mem_set_insert, eq_comm]

theorem standing_insertPendingName_of_ne {d : ContextAddress} (other : d ≠ c) :
    (manager.insertPendingName d name).standing c = manager.standing c := by
  unfold insertPendingName
  split
  · rfl
  · exact standing_of_request_same c manager (getElem?_insert_of_ne _ _ other)

theorem standing_newPendingRequest (absent : c ∉ manager.mPendingSubscriptionRequests) :
    (manager.newPendingRequest c name).standing c =
      { manager.standing c with pending := {name}, request := True } := by
  have own : (manager.mPendingSubscriptionRequests.insertIfNew c
      ((∅ : ExtTreeSet String).insert name))[c]? = some ((∅ : ExtTreeSet String).insert name) := by
    rw [ExtTreeMap.getElem?_insertIfNew, if_pos ⟨Std.ReflOrd.compare_self, absent⟩]
  rw [newPendingRequest, standing_of_request c manager own]
  refine Standing.ext rfl rfl ?_ (eq_true rfl) rfl rfl
  ext other
  change other ∈ (∅ : ExtTreeSet String).insert name ↔ other = name
  rw [mem_set_insert, eq_comm, or_iff_left ExtTreeSet.not_mem_empty]

theorem standing_newPendingRequest_of_ne {d : ContextAddress} (other : d ≠ c) :
    (manager.newPendingRequest d name).standing c = manager.standing c := by
  apply standing_of_request_same
  rw [ExtTreeMap.getElem?_insertIfNew, if_neg]
  rintro ⟨same, -⟩
  exact other (Std.LawfulEqOrd.compare_eq_iff_eq.mp same)

theorem standing_erasePendingRequest :
    (manager.erasePendingRequest c).standing c =
      { manager.standing c with pending := ∅, request := False } := by
  rw [erasePendingRequest, standing_of_request c manager ExtTreeMap.getElem?_erase_self]
  refine Standing.ext rfl rfl ?_ (eq_false Bool.false_ne_true) rfl rfl
  ext other
  exact iff_of_false ExtTreeSet.not_mem_empty (Set.notMem_empty other)

theorem standing_erasePendingRequest_of_ne {d : ContextAddress} (other : d ≠ c) :
    (manager.erasePendingRequest d).standing c = manager.standing c := by
  apply standing_of_request_same
  rw [getElem?_erase, if_neg other]

end Records
end SubscriptionManager
end UDataPacketService
