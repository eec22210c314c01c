import UDataPacketService.ClientMoves

/-! The situation of one context in the interleaved manager, and the rule for proving
what holds of it in every run: what the moves of the producer, those of its own call
and the start of a call keep. -/
namespace UDataPacketService
open Std (ExtTreeMap ExtTreeSet)
open OrderedContainers

/-- All that matters to a context: where it stands, how far the producer is with it,
where its call is, and the calls that returned, last first. -/
structure Situation where
  standing : Standing
  birth : Birth
  pc : ClientPc
  returned : List ClientCall

def ConcurrentManager.situation (c : ContextAddress) (state : ConcurrentManager) : Situation where
  standing := state.manager.standing c
  birth := state.producer.stage c
  pc := state.clients c
  returned := state.returned c

inductive SituationStep (producer : ProducerPc) (c : ContextAddress) :
    Action → Situation → Situation → Prop where
  | unseen (action : Action) (situation : Situation) :
      SituationStep producer c action situation situation
  | produce {st st' : Standing} {birth birth' : Birth} {pc : ClientPc}
      {returned : List ClientCall} (move : ProducerMove (producer = .purge c) st birth st' birth') :
      SituationStep producer c .produce ⟨st, birth, pc, returned⟩ ⟨st', birth', pc, returned⟩
  | proceed {st st' : Standing} {birth : Birth} {pc pc' : ClientPc} {returned : List ClientCall}
      {out : Option ClientCall} (move : ClientMove st pc st' pc' out) :
      SituationStep producer c (.proceed c) ⟨st, birth, pc, returned⟩
        ⟨st', birth, pc', out.toList ++ returned⟩
  | call {st : Standing} {birth : Birth} {returned : List ClientCall} (call : ClientCall) :
      SituationStep producer c (.call c call) ⟨st, birth, .idle, returned⟩
        ⟨st, birth, ClientPc.start call, returned⟩

namespace ConcurrentManager
variable (c : ContextAddress) (state : ConcurrentManager)

theorem situation_enqueuePacket (packet : Packet) :
    (state.enqueuePacket packet).situation c = state.situation c := by
  unfold enqueuePacket
  split
  · rename_i idle
    split
    · simp only [situation, idle, ProducerPc.stage]
    · rfl
  · rfl

theorem situation_call_of_ne {d : ContextAddress} (other : d ≠ c) (call : ClientCall) :
    (state.call d call).situation c = state.situation c := by
  unfold ConcurrentManager.call
  split
  · simp only [situation, Function.update_of_ne (Ne.symm other)]
  · rfl

theorem situation_proceed_of_ne {d : ContextAddress} (other : d ≠ c) :
    (state.proceed d).situation c = state.situation c := by
  simp only [situation, proceed, Function.update_of_ne (Ne.symm other),
    (state.clients d).standing_step_of_ne c state.manager other]

/-- Every action is one of these steps for every context. -/
theorem situationStep (action : Action) :
    SituationStep state.producer c action (state.situation c)
      ((concurrentMachine.step state action).1.situation c) := by
  cases action with
  | enqueuePacket packet =>
      change SituationStep _ c _ _ ((state.enqueuePacket packet).situation c)
      rw [situation_enqueuePacket]
      exact .unseen _ _
  | produce => exact .produce (state.producer.moves c state.manager)
  | call d call =>
      by_cases own : d = c
      · subst own
        change SituationStep _ d _ _ ((state.call d call).situation d)
        cases idle : state.clients d with
        | idle =>
            simp only [ConcurrentManager.call, situation, idle, Function.update_self]
            exact .call call
        | _ =>
            simp only [ConcurrentManager.call, idle]
            exact .unseen _ _
      · change SituationStep _ c _ _ ((state.call d call).situation c)
        rw [situation_call_of_ne c state own]
        exact .unseen _ _
  | proceed d =>
      by_cases own : d = c
      · subst own
        change SituationStep _ d _ _ ((state.proceed d).situation d)
        simp only [proceed, situation, Function.update_self]
        exact .proceed ((state.clients d).moves d state.manager)
      · change SituationStep _ c _ _ ((state.proceed d).situation c)
        rw [situation_proceed_of_ne c state own]
        exact .unseen _ _

end ConcurrentManager

/-- An invariant of the situations of all contexts, kept by every guarded step. -/
theorem concurrent_invariant {G : ConcurrentManager → Action → Prop} (P : Situation → Prop)
    (keep : ∀ (state : ConcurrentManager) (action : Action) (c : ContextAddress) (next : Situation),
      G state action → P (state.situation c) →
        SituationStep state.producer c action (state.situation c) next → P next)
    {start : ConcurrentManager} {actions : List Action}
    (guards : concurrentMachine.Admissible G start actions)
    (initial : ∀ c, P (start.situation c)) (c : ContextAddress) :
    P ((concurrentMachine.run start actions).situation c) := by
  refine guards.invariant (fun state => ∀ c, P (state.situation c)) ?_ initial c
  intro state action holds guard d
  exact keep state action d _ guard (holds d) (state.situationStep d action)

def ConcurrentManager.after (options : StreamOptions) (operations : List Operation) :
    ConcurrentManager where
  manager := managerMachine.run (SubscriptionManager.fresh options) operations

namespace SubscriptionManager.Coherent
variable {manager : SubscriptionManager} (h : manager.Coherent) (c : ContextAddress)
include h

theorem served_of_all (all : (manager.standing c).all) {s : String}
    (known : s ∈ (manager.standing c).known) : s ∈ (manager.standing c).served := by
  obtain ⟨stream, there⟩ := (mem_iff_exists _ _).mp known
  have seen : s ∈ (manager.view c).streams := ExtTreeMap.mem_map.mpr known
  have served := (h c).covered all s seen
  rw [ClientView.queueAt, view_streams_getElem?, there] at served
  exact ⟨stream, there, ExtTreeMap.mem_iff_isSome_getElem?.mpr served⟩

theorem unknown_of_pending {s : String} (pending : s ∈ (manager.standing c).pending) :
    s ∉ (manager.standing c).known := by
  intro known
  exact (h c).absent s pending (ExtTreeMap.mem_map.mpr known)

theorem known_of_active (active : (manager.standing c).active) :
    ∃ key, key ∈ (manager.standing c).known := by
  obtain ⟨names, there⟩ := (mem_iff_exists _ _).mp active
  have some : (manager.view c).active = some names := there
  have nonempty : names ≠ ∅ := fun empty => (h c).active (empty ▸ some)
  by_contra none
  refine nonempty (ExtTreeSet.ext_mem (fun name => iff_of_false ?_ ExtTreeSet.not_mem_empty))
  intro member
  have known := (h c).known name (by rw [some]; exact member)
  exact none ⟨name, ExtTreeMap.mem_map.mp known⟩

end SubscriptionManager.Coherent
end UDataPacketService
