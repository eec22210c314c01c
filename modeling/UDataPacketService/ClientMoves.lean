import UDataPacketService.ProducerMoves

/-! What a step of the call of a client can do to the client and to the others: to
its own standing one of the moves listed here, to the standing of another nothing. -/
namespace UDataPacketService
open Std (ExtTreeMap ExtTreeSet)
open OrderedContainers

def Standing.Arrives (standing : Standing) (cursor : Option String) : Option String → Prop
  | none => ∀ key ∈ standing.known, ¬Beyond cursor key
  | some key => key ∈ standing.known ∧ Beyond cursor key ∧
      ∀ other ∈ standing.known, Beyond cursor other → other = key ∨ Beyond (some key) other

/-- What one step of its own call can do to a client: to its standing and to its place
in the call, with the call if it returns. -/
inductive ClientMove : Standing → ClientPc → Standing → ClientPc → Option ClientCall → Prop where
  | idle {st : Standing} : ClientMove st .idle st .idle none
  | finish {st : Standing} {ids : List StreamIdentifier} :
      ClientMove st (.next (.names ids [])) st (.reset (.subscribe ids)) none
  | found {st : Standing} {ids : List StreamIdentifier} {s : String} {rest : List String}
      (known : s ∈ st.known) :
      ClientMove st (.next (.names ids (s :: rest))) st (.subscribe (.names ids rest) s s) none
  | missing {st : Standing} {ids : List StreamIdentifier} {s : String} {rest : List String}
      (unknown : s ∉ st.known) :
      ClientMove st (.next (.names ids (s :: rest))) st (.findPending ids rest s) none
  | walked {st : Standing} {cursor : Option String} (arrives : st.Arrives cursor none) :
      ClientMove st (.next (.streams cursor)) st .insertAll none
  | arrive {st : Standing} {cursor : Option String} {key : String} (s : String)
      (arrives : st.Arrives cursor (some key)) :
      ClientMove st (.next (.streams cursor)) st (.subscribe (.streams (some key)) key s) none
  | subscribe {st : Standing} {loop : ClientLoop} {key s : String} (known : key ∈ st.known) :
      ClientMove st (.subscribe loop key s)
        { st with served := insert key st.served } (.contains loop s) none
  | keep {st : Standing} {loop : ClientLoop} {key s : String}
      (kept : key ∈ st.served ∨ key ∉ st.known) :
      ClientMove st (.subscribe loop key s) st (.next loop) none
  | contains {st : Standing} {loop : ClientLoop} {s : String} (there : Bool) :
      ClientMove st (.contains loop s) st (.store loop s there) none
  | store {st : Standing} {loop : ClientLoop} {s : String} {there : Bool} :
      ClientMove st (.store loop s there) { st with active := True } (.next loop) none
  | request {st : Standing} {ids : List StreamIdentifier} {rest : List String} {s : String}
      (there : st.request) :
      ClientMove st (.findPending ids rest s) st (.containsPending ids rest s) none
  | noRequest {st : Standing} {ids : List StreamIdentifier} {rest : List String} {s : String}
      (absent : ¬st.request) :
      ClientMove st (.findPending ids rest s) st (.newPending ids rest s) none
  | pending {st : Standing} {ids : List StreamIdentifier} {rest : List String} {s : String}
      (there : s ∈ st.pending) :
      ClientMove st (.containsPending ids rest s) st (.next (.names ids rest)) none
  | notPending {st : Standing} {ids : List StreamIdentifier} {rest : List String} {s : String}
      (absent : s ∉ st.pending) :
      ClientMove st (.containsPending ids rest s) st (.insertPending ids rest s) none
  | insertPending {st : Standing} {ids : List StreamIdentifier} {rest : List String} {s : String}
      (there : st.request) :
      ClientMove st (.insertPending ids rest s)
        { st with pending := insert s st.pending } (.next (.names ids rest)) none
  | insertNowhere {st : Standing} {ids : List StreamIdentifier} {rest : List String} {s : String}
      (absent : ¬st.request) :
      ClientMove st (.insertPending ids rest s) st (.next (.names ids rest)) none
  | newPending {st : Standing} {ids : List StreamIdentifier} {rest : List String} {s : String}
      (absent : ¬st.request) :
      ClientMove st (.newPending ids rest s)
        { st with pending := {s}, request := True } (.next (.names ids rest)) none
  | newNowhere {st : Standing} {ids : List StreamIdentifier} {rest : List String} {s : String}
      (there : st.request) :
      ClientMove st (.newPending ids rest s) st (.next (.names ids rest)) none
  | waitsForAll {st : Standing} (there : st.all) :
      ClientMove st .containsAll st .idle (some .subscribeToAll)
  | walk {st : Standing} (absent : ¬st.all) :
      ClientMove st .containsAll st (.next (.streams none)) none
  | insertAll {st : Standing} :
      ClientMove st .insertAll { st with all := True } (.reset .subscribeToAll) none
  | reset {st : Standing} {call : ClientCall} : ClientMove st (.reset call) st .idle (some call)
  | removePending {st : Standing} :
      ClientMove st .removePending { st with pending := ∅, request := False, all := False }
        (.nextStream none false) none
  | left {st : Standing} {cursor : Option String} {purged : Bool}
      (arrives : st.Arrives cursor none) :
      ClientMove st (.nextStream cursor purged) st (.reset .unsubscribeFromAll) none
  | leave {st : Standing} {cursor : Option String} {purged : Bool} {key : String}
      (arrives : st.Arrives cursor (some key)) :
      ClientMove st (.nextStream cursor purged) st (.unsubscribe key purged) none
  | unsubscribe {st : Standing} {key : String} (served : key ∈ st.served) :
      ClientMove st (.unsubscribe key false)
        { st with served := st.served \ {key} } (.eraseActive key) none
  | unsubscribePurged {st : Standing} {key : String} (served : key ∈ st.served) :
      ClientMove st (.unsubscribe key true)
        { st with served := st.served \ {key} } (.nextStream (some key) true) none
  | neverSubscribed {st : Standing} {key : String} {purged : Bool} (absent : key ∉ st.served) :
      ClientMove st (.unsubscribe key purged) st (.containsActive key purged) none
  | active {st : Standing} {key : String} {purged : Bool} (there : st.active) :
      ClientMove st (.containsActive key purged) st (.eraseActive key) none
  | notActive {st : Standing} {key : String} {purged : Bool} (absent : ¬st.active) :
      ClientMove st (.containsActive key purged) st (.nextStream (some key) purged) none
  | eraseActive {st : Standing} {key : String} :
      ClientMove st (.eraseActive key) { st with active := False } (.nextStream (some key) true) none

namespace SubscriptionManager
variable (c : ContextAddress) (manager : SubscriptionManager)

theorem standing_arrives (cursor : Option String) :
    (manager.standing c).Arrives cursor (advance manager.mStreamsMap.keys cursor) := by
  cases h : advance manager.mStreamsMap.keys cursor with
  | none => exact fun key known => advance_end h (ExtTreeMap.mem_keys.mpr known)
  | some key =>
      exact ⟨ExtTreeMap.mem_keys.mp (advance_mem h), advance_beyond h, fun other known =>
        advance_next ExtTreeMap.ordered_keys h (ExtTreeMap.mem_keys.mpr known)⟩

theorem standing_insertAll :
    ({ manager with
        mPendingSubscribeToAllRequests :=
          manager.mPendingSubscribeToAllRequests.insert c }).standing c =
      { manager.standing c with all := True } := by
  have member : c ∈ manager.mPendingSubscribeToAllRequests.insert c :=
    (mem_set_insert _ _ _).mpr (.inl rfl)
  exact congrArg (fun all => { manager.standing c with all := all }) (eq_true member)

theorem standing_insertAll_of_ne {d : ContextAddress} (other : d ≠ c) :
    ({ manager with
        mPendingSubscribeToAllRequests :=
          manager.mPendingSubscribeToAllRequests.insert d }).standing c = manager.standing c := by
  have same : (c ∈ manager.mPendingSubscribeToAllRequests.insert d) =
      (c ∈ manager.mPendingSubscribeToAllRequests) := by
    rw [mem_set_insert, eq_iff_iff, or_iff_right other]
  exact congrArg (fun all => { manager.standing c with all := all }) same

theorem standing_removePending :
    ({ manager with
        mPendingSubscriptionRequests := manager.mPendingSubscriptionRequests.erase c
        mPendingSubscribeToAllRequests :=
          manager.mPendingSubscribeToAllRequests.erase c }).standing c =
      { manager.standing c with pending := ∅, request := False, all := False } := by
  have absent : c ∉ manager.mPendingSubscribeToAllRequests.erase c :=
    fun member => ((mem_set_erase _ _ _).mp member).1 rfl
  calc _ = { (manager.erasePendingRequest c).standing c with
              all := c ∈ manager.mPendingSubscribeToAllRequests.erase c } := rfl
    _ = _ := by rw [standing_erasePendingRequest, eq_false absent]

theorem standing_removePending_of_ne {d : ContextAddress} (other : d ≠ c) :
    ({ manager with
        mPendingSubscriptionRequests := manager.mPendingSubscriptionRequests.erase d
        mPendingSubscribeToAllRequests :=
          manager.mPendingSubscribeToAllRequests.erase d }).standing c = manager.standing c := by
  have same : (c ∈ manager.mPendingSubscribeToAllRequests.erase d) =
      (c ∈ manager.mPendingSubscribeToAllRequests) := by
    rw [mem_set_erase, eq_iff_iff, and_iff_right other]
  calc _ = { (manager.erasePendingRequest d).standing c with
              all := c ∈ manager.mPendingSubscribeToAllRequests.erase d } := rfl
    _ = _ := by
      rw [manager.standing_erasePendingRequest_of_ne c other, same]
      rfl

/-- A name is added to a request that is gone: nothing happens. -/
theorem insertPendingName_absent (absent : c ∉ manager.mPendingSubscriptionRequests)
    (s : String) : manager.insertPendingName c s = manager := by
  simp only [insertPendingName, (not_mem_iff _ _).mp absent]

theorem newPendingRequest_there (there : c ∈ manager.mPendingSubscriptionRequests) (s : String) :
    manager.newPendingRequest c s = manager := by
  have same : manager.mPendingSubscriptionRequests.insertIfNew c
      ((∅ : ExtTreeSet String).insert s) = manager.mPendingSubscriptionRequests := by
    apply ExtTreeMap.ext_getElem?
    intro d
    rw [ExtTreeMap.getElem?_insertIfNew, if_neg]
    exact fun h => h.2 there
  simp only [newPendingRequest, same]

end SubscriptionManager

namespace ClientPc
variable (c : ContextAddress) (manager : SubscriptionManager)

attribute [local simp] step

def Moves (pc : ClientPc) : Prop :=
  ClientMove (manager.standing c) pc ((pc.step manager c).1.standing c) (pc.step manager c).2.1
    (pc.step manager c).2.2

theorem moves_next (loop : ClientLoop) : Moves c manager (.next loop) := by
  cases loop with
  | names ids rest =>
      cases rest with
      | nil => exact .finish
      | cons s rest =>
          simp only [Moves, step]
          split
          · rename_i known; exact .found known
          · rename_i unknown; exact .missing unknown
  | streams cursor =>
      have arrives := manager.standing_arrives c cursor
      cases h : advance manager.mStreamsMap.keys cursor with
      | none =>
          rw [h] at arrives
          simp only [Moves, step, h]
          exact .walked arrives
      | some key =>
          rw [h] at arrives
          simp only [Moves, step, h]
          exact .arrive _ arrives

theorem moves_subscribe (loop : ClientLoop) (key s : String) :
    Moves c manager (.subscribe loop key s) := by
  by_cases added : (manager.subscribeAt key c false).1 = true
  · obtain ⟨known, next⟩ := manager.subscribeAt_added c key false added
    simp only [Moves, step, if_pos added, next]
    exact .subscribe known
  · obtain ⟨same, kept⟩ := manager.subscribeAt_kept c key false added
    simp only [Moves, step, if_neg added, same]
    exact .keep kept

theorem moves_findPending (ids : List StreamIdentifier) (rest : List String) (s : String) :
    Moves c manager (.findPending ids rest s) := by
  simp only [Moves, step]
  split
  · rename_i there; exact .request there
  · rename_i absent; exact .noRequest absent

theorem moves_containsPending (ids : List StreamIdentifier) (rest : List String) (s : String) :
    Moves c manager (.containsPending ids rest s) := by
  simp only [Moves, step]
  split
  · rename_i there; exact .pending there
  · rename_i absent; exact .notPending absent

theorem moves_insertPending (ids : List StreamIdentifier) (rest : List String) (s : String) :
    Moves c manager (.insertPending ids rest s) := by
  by_cases there : c ∈ manager.mPendingSubscriptionRequests
  · simp only [Moves, step, manager.standing_insertPendingName c s there]
    exact .insertPending there
  · simp only [Moves, step, manager.insertPendingName_absent c there]
    exact .insertNowhere there

theorem moves_newPending (ids : List StreamIdentifier) (rest : List String) (s : String) :
    Moves c manager (.newPending ids rest s) := by
  by_cases there : c ∈ manager.mPendingSubscriptionRequests
  · simp only [Moves, step, manager.newPendingRequest_there c there]
    exact .newNowhere there
  · simp only [Moves, step, manager.standing_newPendingRequest c s there]
    exact .newPending there

theorem moves_containsAll : Moves c manager .containsAll := by
  by_cases there : c ∈ manager.mPendingSubscribeToAllRequests
  · simp only [Moves, step, if_pos there]
    exact .waitsForAll there
  · simp only [Moves, step, if_neg there]
    exact .walk there

theorem moves_nextStream (cursor : Option String) (purged : Bool) :
    Moves c manager (.nextStream cursor purged) := by
  have arrives := manager.standing_arrives c cursor
  cases h : advance manager.mStreamsMap.keys cursor with
  | none =>
      rw [h] at arrives
      simp only [Moves, step, h]
      exact .left arrives
  | some key =>
      rw [h] at arrives
      simp only [Moves, step, h]
      exact .leave arrives

theorem moves_unsubscribe (key : String) (purged : Bool) :
    Moves c manager (.unsubscribe key purged) := by
  by_cases serves : manager.Serves c key
  · obtain ⟨response, next⟩ := manager.unsubscribeAt_of_serves c key serves
    simp only [Moves, step, response, next]
    cases purged with
    | false => exact .unsubscribe serves
    | true => exact .unsubscribePurged serves
  · obtain ⟨response, next⟩ := manager.unsubscribeAt_of_not_serves c key serves
    simp only [Moves, step, response, next]
    exact .neverSubscribed serves

theorem moves_containsActive (key : String) (purged : Bool) :
    Moves c manager (.containsActive key purged) := by
  simp only [Moves, step]
  split
  · rename_i there; exact .active there
  · rename_i absent; exact .notActive absent

/-- Every step of its call is a move of the client. -/
theorem moves (pc : ClientPc) : Moves c manager pc := by
  cases pc with
  | idle => exact .idle
  | next loop => exact moves_next c manager loop
  | subscribe loop key s => exact moves_subscribe c manager loop key s
  | contains loop s => exact .contains _
  | store loop s there =>
      simp only [Moves, step, manager.standing_storeActive]
      exact .store
  | findPending ids rest s => exact moves_findPending c manager ids rest s
  | containsPending ids rest s => exact moves_containsPending c manager ids rest s
  | insertPending ids rest s => exact moves_insertPending c manager ids rest s
  | newPending ids rest s => exact moves_newPending c manager ids rest s
  | containsAll => exact moves_containsAll c manager
  | insertAll =>
      simp only [Moves, step, manager.standing_insertAll]
      exact .insertAll
  | reset call => exact .reset
  | removePending =>
      simp only [Moves, step, manager.standing_removePending]
      exact .removePending
  | nextStream cursor purged => exact moves_nextStream c manager cursor purged
  | unsubscribe key purged => exact moves_unsubscribe c manager key purged
  | containsActive key purged => exact moves_containsActive c manager key purged
  | eraseActive key =>
      simp only [Moves, step, manager.standing_eraseActive]
      exact .eraseActive

theorem standing_step_of_ne {d : ContextAddress} (other : d ≠ c) (pc : ClientPc) :
    (pc.step manager d).1.standing c = manager.standing c := by
  cases pc with
  | next loop =>
      cases loop with
      | names ids rest => cases rest <;> rfl
      | streams cursor =>
          simp only [step]
          split <;> rfl
  | subscribe loop key s => exact manager.standing_subscribeAt_of_ne c key false other
  | store loop s there => exact manager.standing_storeActive_of_ne c s other there
  | insertPending ids rest s => exact manager.standing_insertPendingName_of_ne c s other
  | newPending ids rest s => exact manager.standing_newPendingRequest_of_ne c s other
  | containsAll =>
      simp only [step]
      split <;> rfl
  | insertAll => exact manager.standing_insertAll_of_ne c other
  | removePending => exact manager.standing_removePending_of_ne c other
  | nextStream cursor purged =>
      simp only [step]
      split <;> rfl
  | unsubscribe key purged => exact manager.standing_unsubscribeAt_of_ne c key other
  | eraseActive key => exact manager.standing_eraseActive_of_ne c other
  | idle => rfl
  | contains loop s => rfl
  | findPending ids rest s => rfl
  | containsPending ids rest s => rfl
  | reset call => rfl
  | containsActive key purged => rfl

end ClientPc
end UDataPacketService
