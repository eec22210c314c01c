import UDataPacketService.Authentication
import UDataPacketService.ConcurrentSteps

/-! Clients that leave while a stream is created. `unsubscribeFromAll` drops what the client
has pending, then walks the streams and purges the active record where it finds a reason to.
The producer may still hold the client from a request it saw before; nothing is left behind
as long as the walk does not overtake it. -/
namespace UDataPacketService
open Std (ExtTreeMap ExtTreeSet)
open OrderedContainers

/-- Once `unsubscribeFromAll` of a client has returned, and until it starts another call, the
client occurs nowhere in the manager. -/
def ConcurrentManager.NoGhost (state : ConcurrentManager) : Prop :=
  ∀ c, state.clients c = .idle → (state.returned c).head? = some .unsubscribeFromAll →
    state.manager.Free c

def Holds (birth : Birth) (key : String) : Prop :=
  birth = some (key, .hold .all) ∨ birth = some (key, .hold .named)

instance (birth : Birth) (key : String) : Decidable (Holds birth key) :=
  inferInstanceAs (Decidable (_ ∨ _))

def ClientPc.Ahead : ClientPc → String → Prop
  | .nextStream cursor _, key => Beyond cursor key
  | .unsubscribe here _, key => key = here ∨ Beyond (some here) key
  | .containsActive here _, key | .eraseActive here, key => Beyond (some here) key
  | _, _ => False

/-- The walk purges the active record yet: it is about to, or there is a stream ahead where
it does so. A record is purged at the first stream that had the client, and at every stream
that did not have it. -/
def Standing.WillPurge (standing : Standing) (birth : Birth) : ClientPc → Prop
  | .nextStream cursor purged => ∃ key ∈ standing.known, Beyond cursor key ∧
      (purged = false ∨ key ∉ standing.served ∧ ¬Holds birth key)
  | .unsubscribe here purged => ∃ key ∈ standing.known, (key = here ∨ Beyond (some here) key) ∧
      (purged = false ∨ key ∉ standing.served ∧ ¬Holds birth key)
  | .containsActive _ _ | .eraseActive _ => True
  | _ => False

def ClientPc.Left (returned : List ClientCall) : ClientPc → Prop
  | .nextStream _ _ | .unsubscribe _ _ | .containsActive _ _ | .eraseActive _
  | .reset .unsubscribeFromAll => True
  | .idle => returned.head? = some .unsubscribeFromAll
  | _ => False

namespace ConcurrentManager

/-- A departure and the creation of a stream keep out of each other's way: no client
unsubscribes from a stream to which the producer is just about to subscribe it, and the
producer records no client as active that has left and does not purge its record any more. -/
def Orderly (state : ConcurrentManager) : Action → Prop
  | .proceed c =>
      match state.clients c with
      | .unsubscribe key _ => ¬Holds (state.producer.stage c) key
      | _ => True
  | .produce =>
      match state.producer with
      | .store _ _ c _ => (state.clients c).Left (state.returned c) →
          (state.manager.standing c).WillPurge (state.producer.stage c) (state.clients c)
      | _ => True
  | _ => True

end ConcurrentManager

section Decidable
variable (c : ContextAddress) (manager : SubscriptionManager) (birth : Birth)

instance (returned : List ClientCall) : ∀ pc : ClientPc, Decidable (pc.Left returned)
  | .nextStream _ _ | .unsubscribe _ _ | .containsActive _ _ | .eraseActive _
  | .reset .unsubscribeFromAll => isTrue trivial
  | .idle => inferInstanceAs (Decidable (returned.head? = some .unsubscribeFromAll))
  | .next _ | .subscribe _ _ _ | .contains _ _ | .store _ _ _ | .findPending _ _ _
  | .containsPending _ _ _ | .insertPending _ _ _ | .newPending _ _ _ | .containsAll | .insertAll
  | .reset (.subscribe _) | .reset .subscribeToAll | .removePending => isFalse id

/-- The streams may be searched among the keys of the map. -/
instance decidablePurge (ahead : String → Prop) [DecidablePred ahead] (purged : Bool) :
    Decidable (∃ key ∈ (manager.standing c).known, ahead key ∧
      (purged = false ∨ key ∉ (manager.standing c).served ∧ ¬Holds birth key)) :=
  decidable_of_iff (∃ key ∈ manager.mStreamsMap.keys, ahead key ∧
      (purged = false ∨ ¬manager.Serves c key ∧ ¬Holds birth key))
    (exists_congr (fun _ => and_congr_left (fun _ => ExtTreeMap.mem_keys)))

instance : ∀ pc, Decidable ((manager.standing c).WillPurge birth pc)
  | .nextStream cursor purged => decidablePurge c manager birth (Beyond cursor) purged
  | .unsubscribe here purged =>
      decidablePurge c manager birth (fun key => key = here ∨ Beyond (some here) key) purged
  | .containsActive _ _ | .eraseActive _ => isTrue trivial
  | .idle | .next _ | .subscribe _ _ _ | .contains _ _ | .store _ _ _ | .findPending _ _ _
  | .containsPending _ _ _ | .insertPending _ _ _ | .newPending _ _ _ | .containsAll | .insertAll
  | .reset _ | .removePending => isFalse id

instance (state : ConcurrentManager) (action : Action) : Decidable (state.Orderly action) := by
  unfold ConcurrentManager.Orderly
  split
  · split <;> infer_instance
  · split <;> infer_instance
  · infer_instance

end Decidable

/-- What holds of a client that has left: nothing of it is pending, what still serves it
or is about to lies ahead of its walk, and an active record will be purged. -/
structure Standing.Departed (standing : Standing) (birth : Birth) (pc : ClientPc) : Prop where
  pending : standing.pending = ∅
  request : ¬standing.request
  all : ¬standing.all
  held : ∀ key, Holds birth key → pc.Ahead key
  served : ∀ key ∈ standing.served, pc.Ahead key
  active : standing.active → standing.WillPurge birth pc

theorem not_holds {s : String} {stage : Stage} (other : ∀ requests, stage ≠ .hold requests)
    (key : String) : ¬Holds (some (s, stage)) key := by
  rintro (here | here)
  · exact other .all (congrArg Prod.snd (Option.some.inj here))
  · exact other .named (congrArg Prod.snd (Option.some.inj here))

theorem none_not_holds (key : String) : ¬Holds none key := by
  rintro (here | here) <;> cases here

theorem past_not_holds (s : String) (requests : Requests) : ∀ key, ¬Holds (past s requests) key := by
  cases requests with
  | all => exact not_holds nofun
  | named => exact none_not_holds

theorem subscribed_not_holds (s : String) (requests : Requests) :
    ∀ key, ¬Holds (subscribed s requests) key := by
  cases requests with
  | all => exact not_holds nofun
  | named => exact not_holds nofun

namespace Standing
variable {st st' : Standing} {birth birth' : Birth} {pc : ClientPc}

/-- New streams, and a stream that the producer lets go, give the walk no less to purge at. -/
theorem WillPurge.mono (purges : st.WillPurge birth pc) (known : st.known ⊆ st'.known)
    (free : ∀ key, key ∉ st.served → ¬Holds birth key → key ∉ st'.served ∧ ¬Holds birth' key) :
    st'.WillPurge birth' pc := by
  cases pc with
  | nextStream cursor purged | unsubscribe here purged =>
      obtain ⟨key, there, ahead, reason⟩ := purges
      exact ⟨key, known there, ahead, reason.imp_right (fun h => free key h.1 h.2)⟩
  | containsActive here purged => trivial
  | eraseActive here => trivial
  | _ => exact absurd purges id

/-- The producer goes on to a stage that does not hold the client. -/
theorem Departed.release (departed : st.Departed birth pc) (free : ∀ key, ¬Holds birth' key) :
    st.Departed birth' pc :=
  { departed with
    held := fun key here => absurd here (free key)
    active := fun there =>
      (departed.active there).mono subset_rfl (fun key absent _ => ⟨absent, free key⟩) }

theorem Departed.produce {purges : Prop} (departed : st.Departed birth pc)
    (move : ProducerMove purges st birth st' birth')
    (orderly : ∀ s requests, birth = some (s, .store requests) → st.WillPurge birth pc) :
    st'.Departed birth' pc := by
  cases move with
  | quiet => exact departed
  | birth fresh =>
      rename_i s
      have before := departed.release
        (show ∀ key, ¬Holds (some (s, .before .all)) key from not_holds nofun)
      exact { before with
        active := fun there =>
          (before.active there).mono (Set.subset_insert _ _) (fun key absent free => ⟨absent, free⟩) }
  | visit asks =>
      rename_i s requests
      cases requests with
      | all => exact absurd asks departed.all
      | named =>
          change s ∈ st.pending at asks
          rw [departed.pending] at asks
          exact absurd asks (Set.notMem_empty s)
  | pass asks => exact departed.release (past_not_holds _ _)
  | subscribe =>
      rename_i s requests
      have held : Holds (some (s, .hold requests)) s := by
        cases requests with
        | all => exact .inl rfl
        | named => exact .inr rfl
      have free : ∀ key, ¬Holds (some (s, .contains requests)) key := not_holds nofun
      -- the walk does not count on purging at the stream that the producer holds
      exact { departed with
        held := fun key here => absurd here (free key)
        served := by
          rintro key (rfl | there)
          · exact departed.held _ held
          · exact departed.served key there
        active := fun there => (departed.active there).mono subset_rfl (fun key absent other =>
          ⟨fun added => added.elim (fun same => other (same ▸ held)) absent, free key⟩) }
  | keep kept => exact departed.release (subscribed_not_holds _ _)
  | contains => exact departed.release (not_holds nofun)
  | store =>
      rename_i s requests
      have free := subscribed_not_holds s requests
      exact { departed.release free with
        active := fun _ =>
          (orderly _ _ rfl).mono subset_rfl (fun key absent _ => ⟨absent, free key⟩) }
  | fill =>
      exact { departed.release none_not_holds with
        pending := by
          change st.pending \ _ = ∅
          rw [departed.pending, Set.empty_sdiff] }
  | purge there =>
      exact { departed with
        pending := rfl
        request := id }

theorem Departed.goto {pc' : ClientPc} (departed : st.Departed birth pc)
    (held : ∀ key, Holds birth key → pc.Ahead key → pc'.Ahead key)
    (served : ∀ key ∈ st.served, pc.Ahead key → pc'.Ahead key)
    (active : st.active → st.WillPurge birth pc → st.WillPurge birth pc') :
    st.Departed birth pc' :=
  { departed with
    held := fun key here => held key here (departed.held key here)
    served := fun key there => served key there (departed.served key there)
    active := fun there => active there (departed.active there) }

theorem departed_of_removePending (known : st.active → st.known.Nonempty) :
    Standing.Departed { st with pending := ∅, request := False, all := False } birth
      (.nextStream none false) where
  pending := rfl
  request := id
  all := id
  held := fun key _ => beyond_none key
  served := fun key _ => beyond_none key
  active := by
    intro there
    obtain ⟨key, member⟩ := known there
    exact ⟨key, member, beyond_none key, .inl rfl⟩

section Walk
variable {cursor : Option String} {purged : Bool} {key : String}

/-- At the end of its walk nothing is left of the client. -/
theorem Departed.finish (departed : st.Departed birth (.nextStream cursor purged))
    (arrives : st.Arrives cursor none) (served : st.served ⊆ st.known)
    (born : ∀ s, Holds birth s → s ∈ st.known) :
    st.Departed birth (.reset .unsubscribeFromAll) := by
  refine departed.goto (fun key here => arrives key (born key here))
    (fun key there => arrives key (served there)) ?_
  rintro there ⟨key, known, ahead, -⟩
  exact arrives key known ahead

theorem Departed.arrive (departed : st.Departed birth (.nextStream cursor purged))
    (arrives : st.Arrives cursor (some key)) (served : st.served ⊆ st.known)
    (born : ∀ s, Holds birth s → s ∈ st.known) :
    st.Departed birth (.unsubscribe key purged) := by
  obtain ⟨-, -, next⟩ := arrives
  refine departed.goto (fun key here => next key (born key here))
    (fun key there => next key (served there)) ?_
  rintro there ⟨other, known, ahead, reason⟩
  exact ⟨other, known, next other known ahead, reason⟩

theorem Departed.leave (departed : st.Departed birth (.unsubscribe key purged))
    (free : ¬Holds birth key) (other : String) (here : Holds birth other) :
    Beyond (some key) other :=
  (departed.held other here).resolve_left (fun same => free (same ▸ here))

theorem Departed.unsubscribe (departed : st.Departed birth (.unsubscribe key false))
    (free : ¬Holds birth key) :
    Standing.Departed { st with served := st.served \ {key} } birth (.eraseActive key) :=
  { departed with
    held := departed.leave free
    served := fun other there => (departed.served other there.1).resolve_left there.2
    active := fun _ => trivial }

theorem Departed.unsubscribePurged (departed : st.Departed birth (.unsubscribe key true))
    (free : ¬Holds birth key) (was : key ∈ st.served) :
    Standing.Departed { st with served := st.served \ {key} } birth
      (.nextStream (some key) true) :=
  { departed with
    held := departed.leave free
    served := fun other there => (departed.served other there.1).resolve_left there.2
    active := by
      intro there
      obtain ⟨other, known, ahead, reason⟩ := departed.active there
      obtain ⟨absent, unheld⟩ := reason.resolve_left Bool.noConfusion
      refine ⟨other, known, ahead.resolve_left ?_, .inr ⟨fun h => absent h.1, unheld⟩⟩
      rintro rfl
      exact absent was }

theorem Departed.neverSubscribed (departed : st.Departed birth (.unsubscribe key purged))
    (free : ¬Holds birth key) (absent : key ∉ st.served) :
    st.Departed birth (.containsActive key purged) :=
  { departed with
    held := departed.leave free
    served := fun other there =>
      (departed.served other there).resolve_left (fun same => absent (same ▸ there))
    active := fun _ => trivial }

theorem Departed.eraseActive (departed : st.Departed birth (.eraseActive key)) :
    Standing.Departed { st with active := False } birth (.nextStream (some key) true) :=
  { departed with active := False.elim }

end Walk
end Standing
def ClientPc.Recording : ClientPc → Prop
  | .contains _ _ | .store _ _ _ => True
  | _ => False

/-- No context is recorded without a stream, and a context that has left is gone. -/
structure Situation.Clean (situation : Situation) : Prop where
  born : ∀ s stage, situation.birth = some (s, stage) → s ∈ situation.standing.known
  served : situation.standing.served ⊆ situation.standing.known
  active : situation.standing.active ∨ situation.pc.Recording → situation.standing.known.Nonempty
  left : situation.pc.Left situation.returned →
    situation.standing.Departed situation.birth situation.pc

namespace Situation.Clean
variable {st st' : Standing} {birth birth' : Birth} {pc pc' : ClientPc}
  {returned : List ClientCall}

theorem held_known (clean : Clean ⟨st, birth, pc, returned⟩) (s : String) (held : Holds birth s) :
    s ∈ st.known :=
  held.elim (clean.born s _) (clean.born s _)

theorem produce {purges : Prop} (clean : Clean ⟨st, birth, pc, returned⟩)
    (move : ProducerMove purges st birth st' birth')
    (orderly : ∀ s requests, birth = some (s, .store requests) → pc.Left returned →
      st.WillPurge birth pc) : Clean ⟨st', birth', pc, returned⟩ := by
  have known := move.requests.1
  have left : pc.Left returned → st'.Departed birth' pc := fun here =>
    (clean.left here).produce move (fun s requests stage => orderly s requests stage here)
  have born : ∀ s stage, birth' = some (s, stage) → s ∈ st'.known := move.born clean.born
  refine ⟨born, ?_, ?_, left⟩
  · cases move with
    | subscribe => exact Set.insert_subset (clean.born _ _ rfl) clean.served
    | _ => exact clean.served.trans known
  · cases move with
    | store => exact fun _ => ⟨_, clean.born _ _ rfl⟩
    | _ => exact fun there => (clean.active there).mono known

theorem stay (clean : Clean ⟨st, birth, pc, returned⟩) {after : List ClientCall}
    (known : st'.known = st.known) (served : st'.served ⊆ st.known)
    (active : st'.active ∨ pc'.Recording → st.known.Nonempty) (stays : ¬pc'.Left after) :
    Clean ⟨st', birth, pc', after⟩ where
  born := fun s stage here => known ▸ clean.born s stage here
  served := known ▸ served
  active := known ▸ active
  left := fun here => absurd here stays

theorem walk (clean : Clean ⟨st, birth, pc, returned⟩) {after : List ClientCall}
    (known : st'.known = st.known) (served : st'.served ⊆ st.served)
    (active : st'.active → st.active) (still : ¬pc'.Recording)
    (departed : st'.Departed birth pc') : Clean ⟨st', birth, pc', after⟩ where
  born := fun s stage here => known ▸ clean.born s stage here
  served := known ▸ served.trans clean.served
  active := fun there => known ▸ clean.active (.inl (active (there.resolve_right still)))
  left := fun _ => departed

theorem proceed {out : Option ClientCall} (clean : Clean ⟨st, birth, pc, returned⟩)
    (move : ClientMove st pc st' pc' out)
    (orderly : ∀ key purged, pc = .unsubscribe key purged → ¬Holds birth key) :
    Clean ⟨st', birth, pc', out.toList ++ returned⟩ := by
  have active : st.active ∨ False → st.known.Nonempty := fun there => clean.active (.inl (there.resolve_right id))
  cases move with
  | idle => exact clean
  | subscribe known =>
      exact clean.stay rfl (Set.insert_subset known clean.served) (fun _ => ⟨_, known⟩) id
  | contains there =>
      exact clean.stay rfl clean.served (fun _ => clean.active (.inr trivial)) id
  | store => exact clean.stay rfl clean.served (fun _ => clean.active (.inr trivial)) id
  | removePending =>
      exact clean.walk rfl subset_rfl id id
        (Standing.departed_of_removePending (fun there => clean.active (.inl there)))
  | left arrives =>
      exact clean.walk rfl subset_rfl id id
        ((clean.left trivial).finish arrives clean.served clean.held_known)
  | leave arrives =>
      exact clean.walk rfl subset_rfl id id
        ((clean.left trivial).arrive arrives clean.served clean.held_known)
  | unsubscribe served =>
      exact clean.walk rfl Set.sdiff_subset id id
        ((clean.left trivial).unsubscribe (orderly _ _ rfl))
  | unsubscribePurged served =>
      exact clean.walk rfl Set.sdiff_subset id id
        ((clean.left trivial).unsubscribePurged (orderly _ _ rfl) served)
  | neverSubscribed absent =>
      exact clean.walk rfl subset_rfl id id
        ((clean.left trivial).neverSubscribed (orderly _ _ rfl) absent)
  | active there =>
      exact clean.walk rfl subset_rfl id id
        ((clean.left trivial).goto (fun _ _ => id) (fun _ _ => id) (fun _ _ => trivial))
  | notActive absent =>
      exact clean.walk rfl subset_rfl id id ((clean.left trivial).goto (fun _ _ => id)
        (fun _ _ => id) (fun there _ => absurd there absent))
  | eraseActive =>
      exact clean.walk rfl subset_rfl False.elim id (clean.left trivial).eraseActive
  | reset =>
      rename_i call
      cases call with
      | unsubscribeFromAll =>
          exact clean.walk rfl subset_rfl id id
            ((clean.left trivial).goto (fun _ _ => id) (fun _ _ => id) (fun _ => id))
      | subscribe ids => exact clean.stay rfl clean.served active nofun
      | subscribeToAll => exact clean.stay rfl clean.served active nofun
  | waitsForAll there => exact clean.stay rfl clean.served active nofun
  | _ => exact clean.stay rfl clean.served active id

theorem call (clean : Clean ⟨st, birth, .idle, returned⟩) (call : ClientCall) :
    Clean ⟨st, birth, ClientPc.start call, returned⟩ := by
  have active : st.active ∨ False → st.known.Nonempty := clean.active
  cases call with
  | subscribe ids =>
      simp only [ClientPc.start]
      split
      · exact clean
      · exact clean.stay rfl clean.served active id
  | subscribeToAll => exact clean.stay rfl clean.served active id
  | unsubscribeFromAll => exact clean.stay rfl clean.served active id

/-- A step that keeps departures and creations apart leaves every context clean. -/
theorem step (state : ConcurrentManager) (action : Action) (c : ContextAddress) (next : Situation)
    (orderly : state.Orderly action) (clean : (state.situation c).Clean)
    (step : SituationStep state.producer c action (state.situation c) next) : next.Clean := by
  have walk : action = .proceed c → ∀ key purged, (state.situation c).pc = .unsubscribe key purged →
      ¬Holds (state.situation c).birth key := by
    rintro rfl key purged here
    change state.clients c = .unsubscribe key purged at here
    simp only [ConcurrentManager.Orderly, here] at orderly
    exact orderly
  have record : action = .produce → ∀ s requests, (state.situation c).birth = some (s, .store requests) →
      (state.situation c).pc.Left (state.situation c).returned →
        (state.situation c).standing.WillPurge (state.situation c).birth (state.situation c).pc := by
    rintro rfl s requests here
    obtain ⟨there, same⟩ := ProducerPc.stage_store c here
    simp only [ConcurrentManager.Orderly, same] at orderly
    rw [← same] at orderly
    exact orderly
  generalize state.situation c = situation at step clean walk record
  cases step with
  | unseen => exact clean
  | produce move => exact clean.produce move (record rfl)
  | proceed move => exact clean.proceed move (walk rfl)
  | call call => exact clean.call call

theorem after (options : StreamOptions) (operations : List Operation) (c : ContextAddress) :
    ((ConcurrentManager.after options operations).situation c).Clean := by
  have coherent := run_coherent options operations
  refine ⟨nofun, ?_, ?_, nofun⟩
  · rintro key ⟨stream, there, -⟩
    exact (mem_iff_exists _ _).mpr ⟨stream, there⟩
  · exact fun there => coherent.known_of_active c (there.resolve_right id)

end Situation.Clean

theorem Standing.Departed.free {c : ContextAddress} {manager : SubscriptionManager} {birth : Birth}
    (departed : (manager.standing c).Departed birth .idle) : manager.Free c where
  active := departed.active
  pending := departed.request
  pendingAll := departed.all
  subscribers := fun key stream there member => departed.served key ⟨stream, there, member⟩

/-- No ghost is left in a run that keeps departures and creations apart. -/
theorem departed_free (options : StreamOptions) (operations : List Operation)
    (actions : List Action)
    (orderly : concurrentMachine.Admissible ConcurrentManager.Orderly
      (ConcurrentManager.after options operations) actions) :
    (concurrentMachine.run (ConcurrentManager.after options operations) actions).NoGhost := by
  intro c idle last
  have clean := concurrent_invariant Situation.Clean Situation.Clean.step orderly
    (Situation.Clean.after options operations) c
  have departed := clean.left
  simp only [ConcurrentManager.situation, idle] at departed
  exact (departed last).free

/-- A client of all streams leaves while the producer has subscribed it to a new stream
and not yet recorded it. -/
def departureDuringCreation : List Action :=
  List.flatten [[.call 1 .subscribeToAll], List.replicate 4 (.proceed 1),
    [.enqueuePacket (channelPacket "HHZ" 0 100)], List.replicate 5 .produce,
    [.call 1 .unsubscribeFromAll, .proceed 1, .produce], List.replicate 5 (.proceed 1),
    List.replicate 3 .produce]

theorem departed_free_during_creation :
    let state := concurrentMachine.run (ConcurrentManager.after {} []) departureDuringCreation
    state.NoGhost ∧ state.producer = .idle ∧ state.clients 1 = .idle ∧
      state.returned 1 = [.unsubscribeFromAll, .subscribeToAll] ∧ state.manager.Free 1 := by
  have free := departed_free {} [] departureDuringCreation (by decide +kernel)
  have idle : (concurrentMachine.run (ConcurrentManager.after {} [])
      departureDuringCreation).clients 1 = .idle := by decide +kernel
  exact ⟨free, by decide +kernel, idle, by decide +kernel, free 1 idle (by decide +kernel)⟩

/-- The whole departure fits between the request that the producer saw and its subscription. -/
def departureBeforeSubscription : List Action :=
  List.flatten [[.call 1 .subscribeToAll], List.replicate 4 (.proceed 1),
    [.enqueuePacket (channelPacket "HHZ" 0 100)], List.replicate 3 .produce,
    [.call 1 .unsubscribeFromAll], List.replicate 6 (.proceed 1), List.replicate 6 .produce]

theorem ghost_left :
    let state := concurrentMachine.run (ConcurrentManager.after {} []) departureBeforeSubscription
    state.producer = .idle ∧ state.clients 1 = .idle ∧
      state.returned 1 = [.unsubscribeFromAll, .subscribeToAll] ∧
      state.manager.Serves 1 (channelIdentifier "HHZ").toName ∧
      1 ∈ state.manager.mActiveSubscriptionsMap ∧ ¬state.NoGhost := by
  refine ⟨by decide +kernel, by decide +kernel, by decide +kernel, by decide +kernel,
    by decide +kernel, fun none => ?_⟩
  exact (none 1 (by decide +kernel) (by decide +kernel)).active (by decide +kernel)

end UDataPacketService
