import UDataPacketService.ClientStanding

/-! What a step of `enqueuePacket` can do to one context. The creation of a stream
takes the context through stages; every step of the producer moves the context from
one stage to the next, or does not touch it. -/
namespace UDataPacketService
open Std (ExtTreeMap ExtTreeSet)
open OrderedContainers

/-- How far the creation of a stream is with one context: one of the collections is
still before it, or the producer has taken it from one and is busy with it. -/
inductive Stage where
  | before (requests : Requests)
  | hold (requests : Requests)
  | contains (requests : Requests)
  | store (requests : Requests)
  | fill
  deriving DecidableEq, Repr

def Stage.Ahead : Stage → Requests → Prop
  | .before first, requests | .hold first, requests => first = requests ∨ first = .all
  | .contains first, requests | .store first, requests => first = .all ∧ requests = .named
  | .fill, _ => False

instance : ∀ (stage : Stage) (requests : Requests), Decidable (stage.Ahead requests)
  | .before first, requests | .hold first, requests =>
      inferInstanceAs (Decidable (first = requests ∨ first = .all))
  | .contains first, requests | .store first, requests =>
      inferInstanceAs (Decidable (first = .all ∧ requests = .named))
  | .fill, _ => inferInstanceAs (Decidable False)

abbrev Birth := Option (String × Stage)

/-- The stream is under creation and the producer will still find the context's request for it
in this collection. -/
def Sees (birth : Birth) (streamIdentifier : String) (requests : Requests) : Prop :=
  ∃ stage, birth = some (streamIdentifier, stage) ∧ stage.Ahead requests

instance decidableSees (streamIdentifier : String) (requests : Requests) :
    ∀ birth : Birth, Decidable (Sees birth streamIdentifier requests)
  | none => isFalse nofun
  | some (s, stage) =>
      decidable_of_iff (s = streamIdentifier ∧ stage.Ahead requests)
        ⟨fun ⟨same, ahead⟩ => ⟨stage, same ▸ rfl, ahead⟩, fun ⟨_, same, ahead⟩ => by
          cases same
          exact ⟨rfl, ahead⟩⟩

def past (streamIdentifier : String) : Requests → Birth
  | .all => some (streamIdentifier, .before .named)
  | .named => none

def subscribed (streamIdentifier : String) : Requests → Birth
  | .all => some (streamIdentifier, .before .named)
  | .named => some (streamIdentifier, .fill)

theorem subscribed_eq (s : String) (requests : Requests) :
    ∃ stage, subscribed s requests = some (s, stage) := by
  cases requests with
  | all => exact ⟨.before .named, rfl⟩
  | named => exact ⟨.fill, rfl⟩

namespace ProducerPc
variable (c : ContextAddress)

def scan (requests : Requests) (streamIdentifier : String) (cursor : Option ContextAddress) :
    Birth :=
  if Beyond cursor c then some (streamIdentifier, .before requests)
  else past streamIdentifier requests

def stage : ProducerPc → Birth
  | .visit requests streamIdentifier cursor => scan c requests streamIdentifier cursor
  | .subscribe requests streamIdentifier d =>
      if d = c then some (streamIdentifier, .hold requests)
      else scan c requests streamIdentifier (some d)
  | .contains requests streamIdentifier d =>
      if d = c then some (streamIdentifier, .contains requests)
      else scan c requests streamIdentifier (some d)
  | .store requests streamIdentifier d _ =>
      if d = c then some (streamIdentifier, .store requests)
      else scan c requests streamIdentifier (some d)
  | .fill streamIdentifier d =>
      if d = c then some (streamIdentifier, .fill) else scan c .named streamIdentifier (some d)
  | _ => none

def creating : ProducerPc → Option String
  | .visit _ streamIdentifier _ | .subscribe _ streamIdentifier _ | .contains _ streamIdentifier _
  | .store _ streamIdentifier _ _ | .fill streamIdentifier _ => some streamIdentifier
  | _ => none

theorem scan_self (requests : Requests) (streamIdentifier : String) :
    scan c requests streamIdentifier (some c) = past streamIdentifier requests :=
  if_neg (not_beyond_self c)

theorem scan_eq_some {requests : Requests} {streamIdentifier s : String}
    {cursor : Option ContextAddress} {stage : Stage}
    (h : scan c requests streamIdentifier cursor = some (s, stage)) :
    streamIdentifier = s ∧ ∃ due, stage = .before due := by
  unfold scan at h
  split at h
  · cases h
    exact ⟨rfl, requests, rfl⟩
  · cases requests with
    | all =>
        cases h
        exact ⟨rfl, .named, rfl⟩
    | named => cases h

theorem stage_creates {pc : ProducerPc} {s : String} {stage : Stage}
    (h : pc.stage c = some (s, stage)) : pc.creating = some s := by
  cases pc with
  | visit requests streamIdentifier cursor => exact congrArg some (scan_eq_some c h).1
  | subscribe requests streamIdentifier d
  | contains requests streamIdentifier d
  | store requests streamIdentifier d there
  | fill streamIdentifier d =>
      simp only [ProducerPc.stage] at h
      split at h
      · exact congrArg some (congrArg Prod.fst (Option.some.inj h))
      · exact congrArg some (scan_eq_some c h).1
  | idle => cases h
  | find packet => cases h
  | setNextPacket packet => cases h
  | insert packet => cases h
  | visitFilled cursor => cases h
  | purge d => cases h

theorem stage_store {pc : ProducerPc} {s : String} {requests : Requests}
    (h : pc.stage c = some (s, .store requests)) : ∃ there, pc = .store requests s c there := by
  have unscanned : ∀ due name cursor, scan c due name cursor ≠ some (s, .store requests) := by
    intro due name cursor here
    obtain ⟨-, due, before⟩ := scan_eq_some c here
    cases before
  cases pc with
  | visit due name cursor => exact absurd h (unscanned due name cursor)
  | store due name d there =>
      simp only [ProducerPc.stage] at h
      split at h
      · rename_i own
        cases h
        exact ⟨there, by rw [own]⟩
      · exact absurd h (unscanned due name _)
  | subscribe due name d | contains due name d | fill name d =>
      simp only [ProducerPc.stage] at h
      split at h
      · cases h
      · exact absurd h (unscanned _ name _)
  | idle => cases h
  | find packet => cases h
  | setNextPacket packet => cases h
  | insert packet => cases h
  | visitFilled cursor => cases h
  | purge d => cases h

end ProducerPc

/-- What one step of the producer can do to a context: to its standing and to its
stage. `purges` says that the producer is about to purge the request of the context. -/
inductive ProducerMove (purges : Prop) : Standing → Birth → Standing → Birth → Prop where
  | quiet (standing : Standing) (birth : Birth) : ProducerMove purges standing birth standing birth
  | birth {standing : Standing} {s : String} (fresh : s ∉ standing.known) :
      ProducerMove purges standing none
        { standing with known := insert s standing.known } (some (s, .before .all))
  | visit {standing : Standing} {s : String} {requests : Requests}
      (asks : standing.Asks s requests) :
      ProducerMove purges standing (some (s, .before requests)) standing (some (s, .hold requests))
  | pass {standing : Standing} {s : String} {requests : Requests}
      (asks : ¬standing.Asks s requests) :
      ProducerMove purges standing (some (s, .before requests)) standing (past s requests)
  | subscribe {standing : Standing} {s : String} {requests : Requests} :
      ProducerMove purges standing (some (s, .hold requests))
        { standing with served := insert s standing.served } (some (s, .contains requests))
  | keep {standing : Standing} {s : String} {requests : Requests}
      (kept : s ∈ standing.served ∨ s ∉ standing.known) :
      ProducerMove purges standing (some (s, .hold requests)) standing (subscribed s requests)
  | contains {standing : Standing} {s : String} {requests : Requests} :
      ProducerMove purges standing (some (s, .contains requests))
        standing (some (s, .store requests))
  | store {standing : Standing} {s : String} {requests : Requests} :
      ProducerMove purges standing (some (s, .store requests))
        { standing with active := True } (subscribed s requests)
  | fill {standing : Standing} {s : String} :
      ProducerMove purges standing (some (s, .fill))
        { standing with pending := standing.pending \ {s} } none
  | purge {standing : Standing} (there : purges) :
      ProducerMove purges standing none { standing with pending := ∅, request := False } none

/-- What the producer does to the requests of a context: it only takes away from them. -/
theorem ProducerMove.requests {purges : Prop} {st st' : Standing} {birth birth' : Birth}
    (move : ProducerMove purges st birth st' birth') :
    st.known ⊆ st'.known ∧ st'.pending ⊆ st.pending ∧ (st'.request → st.request) ∧
      (st'.all ↔ st.all) := by
  cases move with
  | birth fresh => exact ⟨Set.subset_insert _ _, subset_rfl, id, Iff.rfl⟩
  | fill => exact ⟨subset_rfl, Set.sdiff_subset, id, Iff.rfl⟩
  | purge there => exact ⟨subset_rfl, Set.empty_subset _, False.elim, Iff.rfl⟩
  | _ => exact ⟨subset_rfl, subset_rfl, id, Iff.rfl⟩

theorem ProducerMove.born {purges : Prop} {st st' : Standing} {birth birth' : Birth}
    (move : ProducerMove purges st birth st' birth')
    (born : ∀ s stage, birth = some (s, stage) → s ∈ st.known) :
    ∀ s stage, birth' = some (s, stage) → s ∈ st'.known := by
  intro s stage
  cases move with
  | quiet => exact born s stage
  | birth fresh => rintro ⟨⟩; exact .inl rfl
  | pass asks =>
      rename_i s' requests
      cases requests with
      | all => rintro ⟨⟩; exact born s _ rfl
      | named => nofun
  | keep _ | store =>
      intro here
      obtain ⟨stage', same⟩ := subscribed_eq _ _
      cases same.symm.trans here
      exact born s _ rfl
  | visit asks | subscribe | contains => rintro ⟨⟩; exact born s _ rfl
  | fill => nofun
  | purge there => nofun

namespace ProducerPc
variable (c : ContextAddress)

/-- Advancing the scan of a collection to another context leaves `c` where it is, or
passes it because it is not in the collection. -/
theorem scan_advance {keys : List ContextAddress} (sorted : keys.Pairwise (compare · · = .lt))
    {cursor : Option ContextAddress} {d : ContextAddress} (h : advance keys cursor = some d)
    (other : d ≠ c) (requests : Requests) (s : String) :
    scan c requests s (some d) = scan c requests s cursor ∨
      c ∉ keys ∧ scan c requests s cursor = some (s, .before requests) ∧
        scan c requests s (some d) = past s requests := by
  unfold scan
  by_cases later : Beyond (some d) c
  · rw [if_pos later, if_pos ((advance_beyond h).trans later)]
    exact .inl rfl
  · rw [if_neg later]
    by_cases ahead : Beyond cursor c
    · rw [if_pos ahead]
      refine .inr ⟨fun member => ?_, rfl, rfl⟩
      rcases advance_next sorted h member ahead with same | beyond
      · exact other same.symm
      · exact later beyond
    · rw [if_neg ahead]
      exact .inl rfl

theorem scan_end {keys : List ContextAddress} {cursor : Option ContextAddress}
    (h : advance keys cursor = none) (requests : Requests) (s : String) :
    past s requests = scan c requests s cursor ∨
      c ∉ keys ∧ scan c requests s cursor = some (s, .before requests) := by
  unfold scan
  by_cases ahead : Beyond cursor c
  · rw [if_pos ahead]
    exact .inr ⟨fun member => advance_end h member ahead, rfl⟩
  · rw [if_neg ahead]
    exact .inl rfl

variable (manager : SubscriptionManager)

attribute [local simp] step stage

def Moves (pc : ProducerPc) : Prop :=
  ProducerMove (pc = .purge c) (manager.standing c) (pc.stage c)
    ((pc.step manager).1.standing c) ((pc.step manager).2.stage c)

theorem moves_quiet {pc : ProducerPc} (standing : (pc.step manager).1.standing c = manager.standing c)
    (stage : (pc.step manager).2.stage c = pc.stage c) : Moves c manager pc := by
  rw [Moves, standing, stage]
  exact .quiet _ _

theorem moves_find (packet : Packet) : Moves c manager (.find packet) := by
  apply moves_quiet
  · rfl
  · simp only [step]
    split <;> rfl

theorem moves_setNextPacket (packet : Packet) : Moves c manager (.setNextPacket packet) := by
  cases there : manager.mStreamsMap[packet.toName]? with
  | none => apply moves_quiet <;> simp only [step, there, stage]
  | some stream =>
      cases h : stream.setNextPacket packet with
      | error what => apply moves_quiet <;> simp only [step, there, h, stage]
      | ok next =>
          apply moves_quiet
          · simp only [step, there, h]
            exact manager.standing_setNextPacket c there h
          · simp only [step, there, h, stage]

theorem moves_insert (packet : Packet) : Moves c manager (.insert packet) := by
  by_cases known : packet.toName ∈ manager.mStreamsMap
  · apply moves_quiet <;>
      simp only [step, Stream.construct_eq, ExtTreeMap.containsThenInsertIfNew_fst,
        ExtTreeMap.contains_iff_mem.mpr known, if_true, stage]
  · have absent : manager.mStreamsMap.contains packet.toName = false :=
      Bool.eq_false_iff.mpr (fun contained => known (ExtTreeMap.contains_iff_mem.mp contained))
    simp only [Moves, step, Stream.construct_eq, ExtTreeMap.containsThenInsertIfNew_fst, absent,
      Bool.false_eq_true, if_false, ExtTreeMap.containsThenInsertIfNew_snd]
    rw [manager.standing_insert c known ExtTreeMap.not_mem_empty]
    exact .birth known

theorem moves_visit_all (s : String) (cursor : Option ContextAddress) :
    Moves c manager (.visit .all s cursor) := by
  cases h : advance manager.mPendingSubscribeToAllRequests.toList cursor with
  | none =>
      simp only [Moves, step, h]
      rcases scan_end c h .all s with same | ⟨absent, before⟩
      · change ProducerMove _ _ (scan c .all s cursor) _ (past s .all)
        rw [same]
        exact .quiet _ _
      · change ProducerMove _ _ (scan c .all s cursor) _ (past s .all)
        rw [before]
        exact .pass (fun asks => absent (ExtTreeSet.mem_toList.mpr asks))
  | some d =>
      simp only [Moves, step, h, stage]
      by_cases own : d = c
      · subst own
        rw [if_pos rfl, scan, if_pos (advance_beyond h)]
        exact .visit (ExtTreeSet.mem_toList.mp (advance_mem h))
      · rw [if_neg own]
        rcases scan_advance c ExtTreeSet.ordered_toList h own .all s with same | ⟨absent, before, after⟩
        · rw [same]
          exact .quiet _ _
        · rw [before, after]
          exact .pass (fun asks => absent (ExtTreeSet.mem_toList.mpr asks))

theorem not_asks_named {s : String} (absent : c ∉ manager.mPendingSubscriptionRequests.keys) :
    ¬(manager.standing c).Asks s .named := by
  intro asks
  change s ∈ manager.pendingNames c at asks
  rw [SubscriptionManager.pendingNames,
    (not_mem_iff _ _).mp (fun member => absent (ExtTreeMap.mem_keys.mpr member))] at asks
  exact ExtTreeSet.not_mem_empty asks

theorem moves_visit_named (s : String) (cursor : Option ContextAddress) :
    Moves c manager (.visit .named s cursor) := by
  cases h : advance manager.mPendingSubscriptionRequests.keys cursor with
  | none =>
      simp only [Moves, step, h]
      rcases scan_end c h .named s with same | ⟨absent, before⟩
      · change ProducerMove _ _ (scan c .named s cursor) _ (past s .named)
        rw [same]
        exact .quiet _ _
      · change ProducerMove _ _ (scan c .named s cursor) _ (past s .named)
        rw [before]
        exact .pass (not_asks_named c manager absent)
  | some d =>
      simp only [Moves, step, h]
      by_cases own : d = c
      · subst own
        change ProducerMove _ _ (scan d .named s cursor) _ _
        rw [scan, if_pos (advance_beyond h)]
        split
        · rename_i asks
          rw [stage, if_pos rfl]
          exact .visit asks
        · rename_i asks
          rw [stage, scan_self]
          exact .pass asks
      · have scanned : stage c (if s ∈ manager.pendingNames d then .subscribe .named s d
            else .visit .named s (some d)) = scan c .named s (some d) := by
          split
          · exact if_neg own
          · rfl
        rw [scanned, stage]
        rcases scan_advance c ExtTreeMap.ordered_keys h own .named s with same | ⟨absent, before, after⟩
        · rw [same]
          exact .quiet _ _
        · rw [before, after]
          exact .pass (not_asks_named c manager absent)

theorem stage_afterRequest_self (s : String) (requests : Requests) :
    (afterRequest s c requests).stage c = subscribed s requests := by
  cases requests with
  | all => exact scan_self c .all s
  | named => exact if_pos rfl

theorem stage_afterRequest_of_ne {d : ContextAddress} (other : d ≠ c) (s : String)
    (requests : Requests) :
    (afterRequest s d requests).stage c = scan c requests s (some d) := by
  cases requests with
  | all => rfl
  | named => exact if_neg other

theorem moves_subscribe (requests : Requests) (s : String) (d : ContextAddress) :
    Moves c manager (.subscribe requests s d) := by
  by_cases own : d = c
  · subst own
    by_cases added : (manager.subscribeAt s d true).1 = true
    · simp only [Moves, step, if_pos added, stage, if_true]
      rw [(manager.subscribeAt_added d s true added).2]
      exact .subscribe
    · obtain ⟨same, kept⟩ := manager.subscribeAt_kept d s true added
      simp only [Moves, step, if_neg added, same, stage_afterRequest_self]
      simp only [stage, if_true]
      exact .keep kept
  · apply moves_quiet
    · exact manager.standing_subscribeAt_of_ne c s true own
    · simp only [step]
      have before : stage c (.subscribe requests s d) = scan c requests s (some d) := if_neg own
      rw [before]
      split
      · exact if_neg own
      · exact stage_afterRequest_of_ne c own s requests

theorem moves_contains (requests : Requests) (s : String) (d : ContextAddress) :
    Moves c manager (.contains requests s d) := by
  by_cases own : d = c
  · subst own
    simp only [Moves, step, stage, if_true]
    exact .contains
  · apply moves_quiet
    · rfl
    · simp only [step, stage, if_neg own]

theorem moves_store (requests : Requests) (s : String) (d : ContextAddress) (there : Bool) :
    Moves c manager (.store requests s d there) := by
  by_cases own : d = c
  · subst own
    simp only [Moves, step, stage_afterRequest_self, manager.standing_storeActive]
    simp only [stage, if_true]
    exact .store
  · apply moves_quiet
    · exact manager.standing_storeActive_of_ne c s own there
    · exact (stage_afterRequest_of_ne c own s requests).trans (if_neg own).symm

theorem moves_fill (s : String) (d : ContextAddress) : Moves c manager (.fill s d) := by
  by_cases own : d = c
  · subst own
    simp only [Moves, step, manager.standing_erasePendingName]
    simp only [stage, if_true, scan_self]
    exact .fill
  · apply moves_quiet
    · exact manager.standing_erasePendingName_of_ne c s own
    · simp only [step, stage, if_neg own]

theorem moves_visitFilled (cursor : Option ContextAddress) :
    Moves c manager (.visitFilled cursor) := by
  cases h : advance manager.mPendingSubscriptionRequests.keys cursor with
  | none => apply moves_quiet <;> simp only [step, h, stage]
  | some d =>
      apply moves_quiet
      · simp only [step, h]
      · simp only [step, h]
        split <;> rfl

theorem moves_purge (d : ContextAddress) : Moves c manager (.purge d) := by
  by_cases own : d = c
  · subst own
    simp only [Moves, step, manager.standing_erasePendingRequest, stage]
    exact .purge trivial
  · apply moves_quiet
    · exact manager.standing_erasePendingRequest_of_ne c own
    · rfl

/-- Every step of the producer is a move of the context. -/
theorem moves (pc : ProducerPc) : Moves c manager pc := by
  cases pc with
  | idle => exact moves_quiet c manager rfl rfl
  | find packet => exact moves_find c manager packet
  | setNextPacket packet => exact moves_setNextPacket c manager packet
  | insert packet => exact moves_insert c manager packet
  | visit requests s cursor =>
      cases requests with
      | all => exact moves_visit_all c manager s cursor
      | named => exact moves_visit_named c manager s cursor
  | subscribe requests s d => exact moves_subscribe c manager requests s d
  | contains requests s d => exact moves_contains c manager requests s d
  | store requests s d there => exact moves_store c manager requests s d there
  | fill s d => exact moves_fill c manager s d
  | visitFilled cursor => exact moves_visitFilled c manager cursor
  | purge d => exact moves_purge c manager d

end ProducerPc
end UDataPacketService
