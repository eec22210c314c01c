import UDataPacketService.ConcurrentSteps

/-! Subscriptions that meet the birth of a stream. A client looks a stream up, and only
later leaves its name in the pending requests; the producer inserts the stream, and only
later goes through the requests. A subscription is kept as long as each request comes
before the producer has gone past it. -/
namespace UDataPacketService
open Std (ExtTreeMap ExtTreeSet)
open OrderedContainers

def ClientCall.Names (streamIdentifier : String) : ClientCall → Prop
  | .subscribe streamIdentifiers =>
      streamIdentifier ∈ streamIdentifiers.map StreamIdentifier.toName
  | .subscribeToAll => True
  | .unsubscribeFromAll => False

def ClientPc.Leaving : ClientPc → Prop
  | .removePending | .nextStream _ _ | .unsubscribe _ _ | .containsActive _ _ | .eraseActive _
  | .reset .unsubscribeFromAll => True
  | _ => False

namespace ConcurrentManager

/-- The calls of a client that returned since it last left; none while it is leaving. -/
def Asked (state : ConcurrentManager) (c : ContextAddress) (call : ClientCall) : Prop :=
  ¬(state.clients c).Leaving ∧ call ∈ (state.returned c).takeWhile (· ≠ .unsubscribeFromAll)

/-- Once the calls have returned, who asked for a stream that exists is its subscriber,
and no name of an existing stream is left in a pending request. -/
structure NoneLost (state : ConcurrentManager) : Prop where
  subscribed : ∀ c call s, state.Asked c call → call.Names s → s ∈ state.manager.mStreamsMap →
    state.producer.creating ≠ some s → state.manager.Serves c s
  filled : ∀ c, ∀ s ∈ state.manager.pendingNames c, s ∈ state.manager.mStreamsMap →
    state.producer.creating = some s

end ConcurrentManager

/-- The context is subscribed to the stream, or a request of it will be seen: the stream
does not exist yet, or its creation has not come to that request. -/
def Standing.Covered (standing : Standing) (birth : Birth) (s : String) : Prop :=
  s ∈ standing.served ∨
    ∃ requests, standing.Asks s requests ∧ (s ∈ standing.known → Sees birth s requests)

section Decidable
variable (c : ContextAddress) (manager : SubscriptionManager) (birth : Birth) (s : String)

instance : Decidable ((manager.standing c).Covered birth s) :=
  decidable_of_iff (manager.Serves c s ∨
      c ∈ manager.mPendingSubscribeToAllRequests ∧ (s ∈ manager.mStreamsMap → Sees birth s .all) ∨
      s ∈ manager.pendingNames c ∧ (s ∈ manager.mStreamsMap → Sees birth s .named)) (by
    refine or_congr_right ⟨?_, ?_⟩
    · rintro (all | named)
      · exact ⟨.all, all⟩
      · exact ⟨.named, named⟩
    · rintro ⟨requests, asks⟩
      cases requests with
      | all => exact .inl asks
      | named => exact .inr asks)

end Decidable

/-- The step of a client does not come too late for the producer. It adds a name to its
pending request while the name has no stream, or while the creation of that stream has
not come to the request; if the request has been purged meanwhile, the name is covered
without it. It joins the waiters for all streams when each existing stream serves it or
its creation will. -/
def Standing.InTime (standing : Standing) (birth : Birth) : ClientPc → Prop
  | .insertPending _ _ s =>
      (standing.request → s ∈ standing.known → Sees birth s .named) ∧
        (¬standing.request → standing.Covered birth s)
  | .newPending _ _ s => s ∈ standing.known → Sees birth s .named
  | .insertAll => ∀ s ∈ standing.known, s ∈ standing.served ∨ Sees birth s .all ∨
      s ∈ standing.pending ∧ Sees birth s .named
  | _ => True

/-- The producer purges a request only when no name is in it, or the context waits for all
streams. -/
def ProducerPc.InTime (manager : SubscriptionManager) : ProducerPc → Prop
  | .purge c => (manager.pendingNames c).isEmpty = true ∨ c ∈ manager.mPendingSubscribeToAllRequests
  | _ => True

def ConcurrentManager.InTime (state : ConcurrentManager) : Action → Prop
  | .produce => state.producer.InTime state.manager
  | .proceed c =>
      (state.manager.standing c).InTime (state.producer.stage c) (state.clients c)
  | _ => True

section Decidable
variable (c : ContextAddress) (manager : SubscriptionManager) (birth : Birth)

instance : ∀ pc, Decidable ((manager.standing c).InTime birth pc)
  | .insertPending _ _ s =>
      inferInstanceAs (Decidable ((c ∈ manager.mPendingSubscriptionRequests →
          s ∈ manager.mStreamsMap → Sees birth s .named) ∧
        (c ∉ manager.mPendingSubscriptionRequests → (manager.standing c).Covered birth s)))
  | .newPending _ _ s =>
      inferInstanceAs (Decidable (s ∈ manager.mStreamsMap → Sees birth s .named))
  | .insertAll =>
      decidable_of_iff (∀ s ∈ manager.mStreamsMap.keys, manager.Serves c s ∨ Sees birth s .all ∨
          s ∈ manager.pendingNames c ∧ Sees birth s .named)
        ⟨fun h s known => h s (ExtTreeMap.mem_keys.mpr known),
          fun h s member => h s (ExtTreeMap.mem_keys.mp member)⟩
  | .idle | .next _ | .subscribe _ _ _ | .contains _ _ | .store _ _ _ | .findPending _ _ _
  | .containsPending _ _ _ | .containsAll | .reset _ | .removePending | .nextStream _ _
  | .unsubscribe _ _ | .containsActive _ _ | .eraseActive _ => isTrue trivial

instance : ∀ pc : ProducerPc, Decidable (pc.InTime manager)
  | .purge c =>
      inferInstanceAs (Decidable ((manager.pendingNames c).isEmpty = true ∨
        c ∈ manager.mPendingSubscribeToAllRequests))
  | .idle | .find _ | .setNextPacket _ | .insert _ | .visit _ _ _ | .subscribe _ _ _
  | .contains _ _ _ | .store _ _ _ _ | .fill _ _ | .visitFilled _ => isTrue trivial

instance (state : ConcurrentManager) : ∀ action, Decidable (state.InTime action)
  | .produce => inferInstanceAs (Decidable (state.producer.InTime state.manager))
  | .proceed c => inferInstanceAs (Decidable ((state.manager.standing c).InTime _ _))
  | .enqueuePacket _ | .call _ _ => isTrue trivial

end Decidable

theorem Sees.same {s s' : String} {stage : Stage} {requests : Requests}
    (sees : Sees (some (s', stage)) s requests) : s' = s ∧ stage.Ahead requests := by
  obtain ⟨stage, same, ahead⟩ := sees
  cases same
  exact ⟨rfl, ahead⟩

namespace Standing.Covered
variable {st st' : Standing} {birth birth' : Birth} {s : String}

theorem grow (covered : st.Covered birth s) (known : st'.known = st.known)
    (served : st.served ⊆ st'.served) (pending : st.pending ⊆ st'.pending)
    (all : st.all → st'.all) : st'.Covered birth s := by
  rcases covered with queue | ⟨requests, asks, sees⟩
  · exact .inl (served queue)
  · rw [← known] at sees
    cases requests with
    | all => exact .inr ⟨.all, all asks, sees⟩
    | named => exact .inr ⟨.named, pending asks, sees⟩

/-- The creation of a stream goes on to a stage that still sees every request it saw. -/
theorem advance {stage : Stage} {s' : String} (covered : st.Covered (some (s', stage)) s)
    (sees : s' = s → ∀ requests, stage.Ahead requests → st.Asks s requests →
      s ∈ st.served ∨ Sees birth' s requests) : st.Covered birth' s := by
  by_cases known : s ∈ st.known
  · rcases covered with queue | ⟨requests, asks, before⟩
    · exact .inl queue
    · obtain ⟨same, ahead⟩ := (before known).same
      rcases sees same requests ahead asks with queue | after
      · exact .inl queue
      · exact .inr ⟨requests, asks, fun _ => after⟩
  · rcases covered with queue | ⟨requests, asks, -⟩
    · exact .inl queue
    · exact .inr ⟨requests, asks, fun there => absurd there known⟩

/-- What the producer has subscribed or still sees is covered after its step. -/
theorem produce {purges : Prop} (covered : st.Covered birth s)
    (move : ProducerMove purges st birth st' birth')
    (born : ∀ s' stage, birth = some (s', stage) → s' ∈ st.known)
    (inTime : purges → st.pending = ∅ ∨ st.all) : st'.Covered birth' s := by
  cases move with
  | quiet => exact covered
  | birth fresh =>
      rename_i s'
      rcases covered with queue | ⟨requests, asks, before⟩
      · exact .inl queue
      · refine .inr ⟨requests, asks, fun known => ?_⟩
        rcases known with rfl | known
        · exact ⟨_, rfl, .inr rfl⟩
        · obtain ⟨stage, none, -⟩ := before known
          cases none
  | visit asks =>
      exact covered.advance (fun same requests ahead _ => .inr ⟨.hold _, same ▸ rfl, ahead⟩)
  | pass asks =>
      rename_i s' first
      refine covered.advance ?_
      rintro rfl requests (rfl | rfl) asked
      · exact absurd asked asks
      · cases requests with
        | all => exact absurd asked asks
        | named => exact .inr ⟨_, rfl, .inl rfl⟩
  | subscribe =>
      rename_i s' first
      by_cases same : s = s'
      · exact .inl (.inl same)
      · refine Covered.grow (covered.advance ?_) rfl (Set.subset_insert _ _) subset_rfl id
        exact fun here => absurd here.symm same
  | keep kept =>
      refine covered.advance ?_
      rintro rfl requests ahead asked
      exact .inl (kept.resolve_right (fun unknown => unknown (born _ _ rfl)))
  | contains =>
      exact covered.advance (fun same requests ahead _ => .inr ⟨.store _, same ▸ rfl, ahead⟩)
  | store =>
      refine (Covered.advance covered ?_).grow rfl subset_rfl subset_rfl id
      rintro rfl requests ⟨rfl, rfl⟩ asked
      exact .inr ⟨_, rfl, .inl rfl⟩
  | fill =>
      rename_i s'
      rcases covered with queue | ⟨requests, asks, before⟩
      · exact .inl queue
      · have differs : s ≠ s' := by
          rintro rfl
          exact (before (born _ _ rfl)).same.2
        have unknown : s ∉ st.known := fun known => differs (before known).same.1.symm
        cases requests with
        | all => exact .inr ⟨.all, asks, fun known => absurd known unknown⟩
        | named => exact .inr ⟨.named, ⟨asks, differs⟩, fun known => absurd known unknown⟩
  | purge there =>
      rcases covered with queue | ⟨requests, asks, before⟩
      · exact .inl queue
      · have unknown : s ∉ st.known := by
          intro known
          obtain ⟨stage, none, -⟩ := before known
          cases none
        refine .inr ⟨.all, ?_, fun known => absurd known unknown⟩
        cases requests with
        | all => exact asks
        | named =>
            refine (inTime there).resolve_left (fun empty => ?_)
            change s ∈ st.pending at asks
            rw [empty] at asks
            exact asks

end Standing.Covered
def Standing.Done (standing : Standing) (birth : Birth)
    (streamIdentifiers : List StreamIdentifier) (rest : List String) : Prop :=
  ∀ s ∈ SubscriptionManager.distinctNames streamIdentifiers, s ∉ rest → standing.Covered birth s

def Standing.At (standing : Standing) (birth : Birth) : ClientPc → Prop
  | .next (.names ids rest) | .contains (.names ids rest) _ | .store (.names ids rest) _ _ =>
      standing.Done birth ids rest
  | .subscribe (.names ids rest) key _ =>
      key ∈ standing.known ∧ standing.Done birth ids (key :: rest)
  | .findPending ids rest s | .containsPending ids rest s | .insertPending ids rest s =>
      standing.Done birth ids (s :: rest)
  | .newPending ids rest s => ¬standing.request ∧ standing.Done birth ids (s :: rest)
  | .reset (.subscribe ids) => standing.Done birth ids []
  | .reset .subscribeToAll => standing.all
  | .nextStream _ _ | .unsubscribe _ _ | .containsActive _ _ | .eraseActive _
  | .reset .unsubscribeFromAll => standing.pending = ∅ ∧ ¬standing.all
  | _ => True

namespace Standing
variable {st st' : Standing} {birth birth' : Birth}

theorem Done.mono {ids : List StreamIdentifier} {rest : List String} (done : st.Done birth ids rest)
    (covered : ∀ s, st.Covered birth s → st'.Covered birth' s) : st'.Done birth' ids rest :=
  fun s member handled => covered s (done s member handled)

theorem Done.cons {ids : List StreamIdentifier} {rest : List String} {s : String}
    (done : st.Done birth ids (s :: rest)) (covered : st.Covered birth s) :
    st.Done birth ids rest := by
  intro other member handled
  by_cases same : other = s
  · rw [same]
    exact covered
  · exact done other member (fun here => (List.mem_cons.mp here).elim same handled)

/-- The places of a client are stable under the steps of the producer. -/
theorem At.produce {purges : Prop} {pc : ClientPc} (place : st.At birth pc)
    (move : ProducerMove purges st birth st' birth')
    (covered : ∀ s, st.Covered birth s → st'.Covered birth' s) : st'.At birth' pc := by
  obtain ⟨known, pending, request, all⟩ := move.requests
  have left (gone : st.pending = ∅ ∧ ¬st.all) : st'.pending = ∅ ∧ ¬st'.all :=
    ⟨Set.subset_empty_iff.mp (gone.1 ▸ pending), fun there => gone.2 (all.mp there)⟩
  cases pc with
  | next loop | contains loop s | store loop s there =>
      cases loop with
      | names ids rest => exact Done.mono place covered
      | streams cursor => trivial
  | subscribe loop key s =>
      cases loop with
      | names ids rest => exact ⟨known place.1, place.2.mono covered⟩
      | streams cursor => trivial
  | findPending ids rest s | containsPending ids rest s | insertPending ids rest s =>
      exact Done.mono place covered
  | newPending ids rest s => exact ⟨fun there => place.1 (request there), place.2.mono covered⟩
  | reset call =>
      cases call with
      | subscribe ids => exact Done.mono place covered
      | subscribeToAll => exact all.mpr place
      | unsubscribeFromAll => exact left place
  | nextStream cursor purged => exact left place
  | unsubscribe key purged => exact left place
  | containsActive key purged => exact left place
  | eraseActive key => exact left place
  | idle => trivial
  | containsAll => trivial
  | insertAll => trivial
  | removePending => trivial

end Standing

/-- The subscriptions of a context are kept: whatever it asked for is covered, and what
it has pending for an existing stream is about to be taken up by its creation. -/
structure Situation.Kept (situation : Situation) : Prop where
  born : ∀ s stage, situation.birth = some (s, stage) → s ∈ situation.standing.known
  unrequested : ¬situation.standing.request → situation.standing.pending = ∅
  all : situation.standing.all → ∀ s, situation.standing.Covered situation.birth s
  pending : ∀ s ∈ situation.standing.pending, situation.standing.Covered situation.birth s ∧
    (s ∈ situation.standing.known → ∃ stage, situation.birth = some (s, stage))
  asked : ¬situation.pc.Leaving →
    ∀ call ∈ situation.returned.takeWhile (· ≠ .unsubscribeFromAll), ∀ s, call.Names s →
      situation.standing.Covered situation.birth s
  place : situation.standing.At situation.birth situation.pc

namespace Situation.Kept
variable {st st' : Standing} {birth birth' : Birth} {pc pc' : ClientPc}
  {returned : List ClientCall}

theorem produce {purges : Prop} (kept : Kept ⟨st, birth, pc, returned⟩)
    (move : ProducerMove purges st birth st' birth')
    (inTime : purges → st.pending = ∅ ∨ st.all) : Kept ⟨st', birth', pc, returned⟩ := by
  have covered : ∀ s, st.Covered birth s → st'.Covered birth' s :=
    fun s before => before.produce move kept.born inTime
  obtain ⟨known, pending, request, all⟩ := move.requests
  refine ⟨move.born kept.born, ?_, fun there s => covered s (kept.all (all.mp there) s), ?_,
    fun stays call member s names => covered s (kept.asked stays call member s names),
    kept.place.produce move covered⟩
  · cases move with
    | fill =>
        intro absent
        have empty : st.pending = ∅ := kept.unrequested absent
        exact Set.subset_empty_iff.mp (empty ▸ pending)
    | purge there => exact fun _ => rfl
    | _ => exact kept.unrequested
  · intro s there
    obtain ⟨before, taken⟩ := kept.pending s (pending there)
    refine ⟨covered s before, ?_⟩
    cases move with
    | quiet => exact taken
    | birth fresh =>
        rintro (rfl | known)
        · exact ⟨_, rfl⟩
        · obtain ⟨stage, none⟩ := taken known
          cases none
    | pass asks =>
        rename_i s' requests
        intro known
        obtain ⟨stage, same⟩ := taken known
        cases same
        cases requests with
        | all => exact ⟨_, rfl⟩
        | named => exact absurd there asks
    | visit asks | subscribe | contains =>
        intro known
        obtain ⟨stage, same⟩ := taken known
        cases same
        exact ⟨_, rfl⟩
    | keep _ | store =>
        intro known
        obtain ⟨stage, same⟩ := taken known
        cases same
        exact subscribed_eq _ _
    | fill =>
        intro known
        obtain ⟨stage, same⟩ := taken known
        cases same
        exact absurd rfl there.2
    | purge _ => exact absurd there (Set.notMem_empty s)

theorem goto (kept : Kept ⟨st, birth, pc, returned⟩) (stays : ¬pc'.Leaving → ¬pc.Leaving)
    (place : st.At birth pc') : Kept ⟨st, birth, pc', returned⟩ :=
  { kept with
    asked := fun here => kept.asked (stays here)
    place := place }

theorem grow (kept : Kept ⟨st, birth, pc, returned⟩) (known : st'.known = st.known)
    (served : st.served ⊆ st'.served) (pending : st.pending ⊆ st'.pending) (all : st.all → st'.all)
    (unrequested : ¬st'.request → st'.pending = ∅) (waits : st'.all → ∀ s, st'.Covered birth s)
    (added : ∀ s ∈ st'.pending, s ∉ st.pending → s ∈ st.known → Sees birth s .named)
    (stays : ¬pc.Leaving) (place : st'.At birth pc') : Kept ⟨st', birth, pc', returned⟩ where
  born := fun s stage here => known ▸ kept.born s stage here
  unrequested := unrequested
  all := waits
  pending := by
    intro s there
    by_cases old : s ∈ st.pending
    · obtain ⟨covered, taken⟩ := kept.pending s old
      exact ⟨covered.grow known served pending all, fun here => taken (known ▸ here)⟩
    · have sees := added s there old
      refine ⟨.inr ⟨.named, there, fun here => sees (known ▸ here)⟩, fun here => ?_⟩
      obtain ⟨stage, same, -⟩ := sees (known ▸ here)
      exact ⟨stage, same⟩
  asked := fun _ call member s names =>
    (kept.asked stays call member s names).grow known served pending all
  place := place

theorem leave (born : ∀ s stage, birth = some (s, stage) → s ∈ st.known)
    (gone : st.pending = ∅ ∧ ¬st.all) (leaving : pc.Leaving) (place : st.At birth pc) :
    Kept ⟨st, birth, pc, returned⟩ where
  born := born
  unrequested := fun _ => gone.1
  all := fun there => absurd there gone.2
  pending := fun s there => absurd (gone.1 ▸ there) (Set.notMem_empty s)
  asked := fun stays => absurd leaving stays
  place := place

theorem answer (kept : Kept ⟨st, birth, pc, returned⟩) (stays : ¬pc.Leaving) (call : ClientCall)
    (names : ∀ s, call.Names s → st.Covered birth s) : Kept ⟨st, birth, .idle, call :: returned⟩ :=
  { kept with
    asked := by
      intro _ other member s named
      change other ∈ (call :: returned).takeWhile _ at member
      by_cases left : call = .unsubscribeFromAll
      · subst left
        simp only [ne_eq, not_true_eq_false, decide_false, Bool.false_eq_true, not_false_eq_true,
          List.takeWhile_cons_of_neg, List.not_mem_nil] at member
      · simp only [List.takeWhile_cons, ne_eq, left, not_false_eq_true, decide_true, if_true,
          List.mem_cons] at member
        rcases member with rfl | earlier
        · exact names s named
        · exact kept.asked stays other earlier s named
    place := trivial }

theorem proceed {out : Option ClientCall} (kept : Kept ⟨st, birth, pc, returned⟩)
    (move : ClientMove st pc st' pc' out) (inTime : st.InTime birth pc) :
    Kept ⟨st', birth, pc', out.toList ++ returned⟩ := by
  have place := kept.place
  cases move with
  | idle => exact kept
  | finish => exact kept.goto (fun _ => id) place
  | found known =>
      refine kept.goto (fun _ => id) ⟨known, place⟩
  | missing unknown => exact kept.goto (fun _ => id) place
  | walked arrives => exact kept.goto (fun _ => id) trivial
  | arrive s arrives => exact kept.goto (fun _ => id) trivial
  | subscribe known =>
      rename_i loop key s
      have covered : ∀ name, st.Covered birth name →
          Standing.Covered { st with served := insert key st.served } birth name :=
        fun name before => before.grow rfl (Set.subset_insert _ _) subset_rfl id
      refine kept.grow rfl (Set.subset_insert _ _) subset_rfl id kept.unrequested
        (fun all name => covered name (kept.all all name)) (fun name there old => absurd there old)
        id ?_
      cases loop with
      | names ids rest => exact (place.2.mono covered).cons (.inl (Set.mem_insert _ _))
      | streams cursor => trivial
  | keep served =>
      rename_i loop key s
      refine kept.goto (fun _ => id) ?_
      cases loop with
      | names ids rest =>
          obtain ⟨known, done⟩ := place
          exact done.cons (.inl (served.resolve_right (fun unknown => unknown known)))
      | streams cursor => trivial
  | contains there =>
      rename_i loop s
      refine kept.goto (fun _ => id) ?_
      cases loop with
      | names ids rest => exact place
      | streams cursor => trivial
  | store =>
      rename_i loop s there
      refine kept.grow rfl subset_rfl subset_rfl id kept.unrequested kept.all
        (fun name there old => absurd there old) id ?_
      cases loop with
      | names ids rest => exact place
      | streams cursor => trivial
  | request there => exact kept.goto (fun _ => id) place
  | noRequest absent => exact kept.goto (fun _ => id) ⟨absent, place⟩
  | pending there => exact kept.goto (fun _ => id) (Standing.Done.cons place (kept.pending _ there).1)
  | notPending absent => exact kept.goto (fun _ => id) place
  | insertPending there =>
      rename_i ids rest s
      have covered : ∀ name, st.Covered birth name →
          Standing.Covered { st with pending := insert s st.pending } birth name :=
        fun name before => before.grow rfl subset_rfl (Set.subset_insert _ _) id
      refine kept.grow rfl subset_rfl (Set.subset_insert _ _) id (fun absent => absurd there absent)
        (fun all name => covered name (kept.all all name)) ?_ id ?_
      · rintro name (rfl | old) fresh
        · exact inTime.1 there
        · exact absurd old fresh
      · exact (Standing.Done.mono place covered).cons
          (.inr ⟨.named, Set.mem_insert _ _, inTime.1 there⟩)
  | insertNowhere absent =>
      exact kept.goto (fun _ => id) (Standing.Done.cons place (inTime.2 absent))
  | newPending absent =>
      rename_i ids rest s
      have empty : st.pending = ∅ := kept.unrequested absent
      have covered : ∀ name, st.Covered birth name →
          Standing.Covered { st with pending := {s}, request := True } birth name :=
        fun name before => before.grow rfl subset_rfl (empty ▸ Set.empty_subset _) id
      refine kept.grow rfl subset_rfl (empty ▸ Set.empty_subset _) id (fun h => absurd trivial h)
        (fun all name => covered name (kept.all all name)) ?_ id ?_
      · rintro name rfl -
        exact inTime
      · exact (place.2.mono covered).cons (.inr ⟨.named, rfl, inTime⟩)
  | newNowhere there => exact absurd there place.1
  | waitsForAll there => exact kept.answer id _ (fun s _ => kept.all there s)
  | walk absent => exact kept.goto (fun _ => id) trivial
  | insertAll =>
      refine kept.grow rfl subset_rfl subset_rfl (fun _ => trivial) kept.unrequested ?_
        (fun name there old => absurd there old) id trivial
      intro _ name
      by_cases known : name ∈ st.known
      · rcases inTime name known with served | sees | ⟨pending, sees⟩
        · exact .inl served
        · exact .inr ⟨.all, trivial, fun _ => sees⟩
        · exact .inr ⟨.named, pending, fun _ => sees⟩
      · exact .inr ⟨.all, trivial, fun there => absurd there known⟩
  | reset =>
      rename_i call
      cases call with
      | subscribe ids =>
          refine kept.answer id _ (fun s named => place s ?_ List.not_mem_nil)
          exact (SubscriptionManager.mem_distinctNames ids s).mpr named
      | subscribeToAll => exact kept.answer id _ (fun s _ => kept.all place s)
      | unsubscribeFromAll =>
          exact { kept with
            asked := by
              intro _ call member
              simp at member
            place := trivial }
  | removePending => exact leave kept.born ⟨rfl, id⟩ trivial ⟨rfl, id⟩
  | left arrives => exact leave kept.born place trivial place
  | leave arrives => exact leave kept.born place trivial place
  | unsubscribe served => exact leave kept.born place trivial place
  | unsubscribePurged served => exact leave kept.born place trivial place
  | neverSubscribed absent => exact leave kept.born place trivial place
  | active there => exact leave kept.born place trivial place
  | notActive absent => exact leave kept.born place trivial place
  | eraseActive => exact leave kept.born place trivial place

theorem call (kept : Kept ⟨st, birth, .idle, returned⟩) (call : ClientCall) :
    Kept ⟨st, birth, ClientPc.start call, returned⟩ := by
  refine kept.goto (fun _ => id) ?_
  cases call with
  | subscribe ids =>
      simp only [ClientPc.start]
      split
      · trivial
      · exact fun s member handled => absurd member handled
  | subscribeToAll => trivial
  | unsubscribeFromAll => trivial

/-- A step that comes in time keeps the subscriptions of every context. -/
theorem step (state : ConcurrentManager) (action : Action) (c : ContextAddress) (next : Situation)
    (inTime : state.InTime action) (kept : (state.situation c).Kept)
    (step : SituationStep state.producer c action (state.situation c) next) : next.Kept := by
  have request : action = .proceed c →
      (state.situation c).standing.InTime (state.situation c).birth (state.situation c).pc := by
    rintro rfl
    exact inTime
  have purge : action = .produce → state.producer = .purge c →
      (state.situation c).standing.pending = ∅ ∨ (state.situation c).standing.all := by
    rintro rfl there
    change state.producer.InTime state.manager at inTime
    rw [there] at inTime
    refine inTime.imp_left (fun empty => Set.eq_empty_iff_forall_notMem.mpr (fun s member => ?_))
    change s ∈ state.manager.pendingNames c at member
    rw [ExtTreeSet.isEmpty_iff.mp empty] at member
    exact ExtTreeSet.not_mem_empty member
  generalize state.situation c = situation at step kept request purge
  cases step with
  | unseen => exact kept
  | produce move => exact kept.produce move (purge rfl)
  | proceed move => exact kept.proceed move (request rfl)
  | call call => exact kept.call call

theorem after (options : StreamOptions) (operations : List Operation) (c : ContextAddress) :
    ((ConcurrentManager.after options operations).situation c).Kept := by
  have coherent := run_coherent options operations
  refine ⟨nofun, ?_, ?_, ?_, nofun, trivial⟩
  · intro absent
    refine Set.eq_empty_iff_forall_notMem.mpr (fun s asks => ?_)
    exact ProducerPc.not_asks_named c _ (fun member => absent (ExtTreeMap.mem_keys.mp member)) asks
  · intro all s
    by_cases known : s ∈ ((ConcurrentManager.after options operations).manager.standing c).known
    · exact .inl (coherent.served_of_all c all known)
    · exact .inr ⟨.all, all, fun there => absurd there known⟩
  · intro s there
    have unknown := coherent.unknown_of_pending c there
    exact ⟨.inr ⟨.named, there, fun known => absurd known unknown⟩,
      fun known => absurd known unknown⟩

end Situation.Kept

/-- What is covered is subscribed once the stream is made. -/
theorem ConcurrentManager.noneLost_of_kept {state : ConcurrentManager}
    (kept : ∀ c, (state.situation c).Kept) : state.NoneLost where
  subscribed := by
    intro c call s asked names known made
    rcases (kept c).asked asked.1 call asked.2 s names with served | ⟨requests, -, sees⟩
    · exact served
    · obtain ⟨stage, here, -⟩ := sees known
      exact absurd (ProducerPc.stage_creates c here) made
  filled := by
    intro c s there known
    obtain ⟨stage, here⟩ := ((kept c).pending s there).2 known
    exact ProducerPc.stage_creates c here

/-- No subscription is lost in a run none of whose steps comes too late. -/
theorem subscription_kept (options : StreamOptions) (operations : List Operation)
    (actions : List Action)
    (inTime : concurrentMachine.Admissible ConcurrentManager.InTime
      (ConcurrentManager.after options operations) actions) :
    (concurrentMachine.run (ConcurrentManager.after options operations) actions).NoneLost :=
  ConcurrentManager.noneLost_of_kept
    (concurrent_invariant Situation.Kept Situation.Kept.step inTime
      (Situation.Kept.after options operations))

/-- The client leaves its request while the new stream is already in the map. -/
def requestDuringCreation : List Action :=
  List.flatten [[.call 1 (.subscribe [channelIdentifier "HHZ"]), .proceed 1,
    .enqueuePacket (channelPacket "HHZ" 0 100), .produce, .produce], List.replicate 4 (.proceed 1),
    List.replicate 11 .produce]

theorem subscription_kept_during_creation :
    let state := concurrentMachine.run (ConcurrentManager.after {} []) requestDuringCreation
    state.NoneLost ∧ state.returned 1 = [.subscribe [channelIdentifier "HHZ"]] ∧
      state.producer = .idle ∧
      state.manager.Serves 1 (channelIdentifier "HHZ").toName :=
  ⟨subscription_kept {} [] requestDuringCreation (by decide +kernel), by decide +kernel,
    by decide +kernel, by decide +kernel⟩

/-- The whole creation of the stream fits between the lookup and the request. -/
def requestAfterCreation : List Action :=
  List.flatten [[.call 1 (.subscribe [channelIdentifier "HHZ"]), .proceed 1,
    .enqueuePacket (channelPacket "HHZ" 0 100)], List.replicate 5 .produce,
    List.replicate 4 (.proceed 1)]

theorem subscription_lost :
    let state := concurrentMachine.run (ConcurrentManager.after {} []) requestAfterCreation
    state.producer = .idle ∧
      state.returned 1 = [.subscribe [channelIdentifier "HHZ"]] ∧
      (channelIdentifier "HHZ").toName ∈ state.manager.mStreamsMap ∧
      (channelIdentifier "HHZ").toName ∈ state.manager.pendingNames 1 ∧
      ¬state.manager.Serves 1 (channelIdentifier "HHZ").toName ∧ ¬state.NoneLost := by
  refine ⟨by decide +kernel, by decide +kernel, by decide +kernel, by decide +kernel,
    by decide +kernel, fun kept => ?_⟩
  have made := kept.filled 1 (channelIdentifier "HHZ").toName (by decide +kernel) (by decide +kernel)
  exact absurd made (by decide +kernel)

end UDataPacketService
