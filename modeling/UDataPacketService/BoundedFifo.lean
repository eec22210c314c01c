import UDataPacketService.MachineRuns

/-! A bounded first-in first-out queue that drops its oldest element to make room.
The ledger keeps what was delivered beside what is queued. Every pushed element
carries the position of its event, so loss and order are facts about events, and
two equal elements stay apart. -/
namespace BoundedFifo

variable {α β : Type*}

/-- Push one element, or pull up to a number of elements from the front. -/
inductive Event (α : Type*) where
  | push (a : α)
  | pull (n : ℕ)
  deriving DecidableEq

def Event.map (f : α → β) : Event α → Event β
  | .push a => .push (f a)
  | .pull n => .pull n

structure Ledger (α : Type*) where
  delivered : List α := []
  queue : List α := []

/-- A full queue loses its front before it takes an element. -/
def pushDropping (capacity : ℕ) (a : α) (queue : List α) : List α :=
  (if capacity ≤ queue.length then queue.tail else queue) ++ [a]

theorem length_pushDropping_le {capacity : ℕ} (positive : 0 < capacity) (a : α) {queue : List α}
    (bound : queue.length ≤ capacity) : (pushDropping capacity a queue).length ≤ capacity := by
  rw [pushDropping, List.length_append, List.length_singleton]
  split
  · rw [List.length_tail]
    omega
  · omega

theorem mem_pushDropping {capacity : ℕ} {a b : α} {queue : List α}
    (member : b ∈ pushDropping capacity a queue) : b ∈ queue ∨ b = a := by
  rcases List.mem_append.mp member with old | new
  · refine .inl ?_
    split at old
    · exact List.mem_of_mem_tail old
    · exact old
  · exact .inr (List.mem_singleton.mp new)

/-- A push onto a queue with room adds the element, and any other push loses one. -/
theorem pushDropping_eq_append_iff {capacity : ℕ}
    (positive : 0 < capacity) (a : α) (queue : List α) :
    pushDropping capacity a queue = queue ++ [a] ↔ queue.length < capacity := by
  unfold pushDropping
  rw [List.append_cancel_right_eq]
  split
  · rename_i full
    refine iff_of_false (fun same => ?_) (not_lt.mpr full)
    have length := congrArg List.length same
    rw [List.length_tail] at length
    omega
  · rename_i room
    exact iff_of_true rfl (not_le.mp room)

theorem pushDropping_sublist (capacity : ℕ) (a : α) (queue : List α) :
    (pushDropping capacity a queue).Sublist (queue ++ [a]) := by
  unfold pushDropping
  split
  · exact (List.tail_sublist queue).append_right _
  · exact List.Sublist.refl _

theorem foldl_pushDropping {capacity : ℕ} (positive : 0 < capacity) (as queue : List α)
    (bound : queue.length ≤ capacity) :
    as.foldl (fun queue a => pushDropping capacity a queue) queue =
      (queue ++ as).drop ((queue ++ as).length - capacity) := by
  induction as generalizing queue with
  | nil =>
      rw [List.append_nil, Nat.sub_eq_zero_of_le bound]
      rfl
  | cons a as ih =>
      rw [List.foldl_cons, pushDropping]
      split
      · rename_i full
        cases queue with
        | nil => exact absurd positive (Nat.not_lt.mpr full)
        | cons first rest =>
            rw [List.length_cons] at full bound
            rw [List.tail_cons, ih _ (by rw [List.length_append, List.length_singleton]; exact bound)]
            have shorter : (first :: rest ++ a :: as).length - capacity =
                (rest ++ [a] ++ as).length - capacity + 1 := by
              simp only [List.length_append, List.length_cons, List.length_nil]
              omega
            rw [shorter, List.cons_append, List.drop_succ_cons, List.append_assoc,
              List.singleton_append]
      · rename_i room
        rw [ih _ (by rw [List.length_append, List.length_singleton]; omega), List.append_assoc,
          List.singleton_append]

namespace Ledger

def kept (ledger : Ledger α) : List α := ledger.delivered ++ ledger.queue

def step (capacity : ℕ) (ledger : Ledger α) : Event α → Ledger α
  | .push a => { ledger with queue := pushDropping capacity a ledger.queue }
  | .pull n => ⟨ledger.delivered ++ ledger.queue.take n, ledger.queue.drop n⟩

def map (f : α → β) (ledger : Ledger α) : Ledger β := ⟨ledger.delivered.map f, ledger.queue.map f⟩

theorem step_map (capacity : ℕ) (f : α → β) (ledger : Ledger α) (event : Event α) :
    (ledger.step capacity event).map f = (ledger.map f).step capacity (event.map f) := by
  cases event with
  | push a =>
      simp only [step, map, Event.map, pushDropping, List.map_append, List.map_singleton,
        List.length_map]
      split <;> simp only [List.map_tail]
  | pull n => simp only [step, map, Event.map, List.map_append, List.map_take, List.map_drop]

theorem length_queue_step {capacity : ℕ} (positive : 0 < capacity) {ledger : Ledger α}
    (bound : ledger.queue.length ≤ capacity) (event : Event α) :
    (ledger.step capacity event).queue.length ≤ capacity := by
  cases event with
  | push a => exact length_pushDropping_le positive a bound
  | pull n =>
      simp only [step, List.length_drop]
      omega

end Ledger

def run (capacity : ℕ) (events : List (Event α)) : Ledger α :=
  events.foldl (Ledger.step capacity) {}

def tagged (events : List (Event α)) : List (Event (ℕ × α)) :=
  events.zipIdx.map (fun entry => entry.1.map (Prod.mk entry.2))

theorem tagged_concat (events : List (Event α)) (event : Event α) :
    tagged (events ++ [event]) = tagged events ++ [event.map (Prod.mk events.length)] := by
  simp [tagged, List.zipIdx_append]

def pushes (events : List (Event α)) : List α :=
  events.filterMap (fun | .push a => some a | .pull _ => none)

theorem pushes_concat (events : List (Event α)) (event : Event α) :
    pushes (events ++ [event]) = pushes events ++ pushes [event] :=
  List.filterMap_append

def ledger (capacity : ℕ) (events : List (Event α)) : Ledger (ℕ × α) :=
  run capacity (tagged events)

theorem ledger_concat (capacity : ℕ) (events : List (Event α)) (event : Event α) :
    ledger capacity (events ++ [event]) =
      (ledger capacity events).step capacity (event.map (Prod.mk events.length)) := by
  rw [ledger, ledger, run, run, tagged_concat, List.foldl_append, List.foldl_cons, List.foldl_nil]

theorem ledger_map_snd (capacity : ℕ) (events : List (Event α)) :
    (ledger capacity events).map Prod.snd = run capacity events := by
  induction events using List.reverseRecOn with
  | nil => rfl
  | append_singleton events event ih =>
      rw [ledger_concat, Ledger.step_map, ih, run, run, List.foldl_append]
      cases event <;> rfl

theorem length_queue_le {capacity : ℕ} (positive : 0 < capacity) (events : List (Event α)) :
    (ledger capacity events).queue.length ≤ capacity := by
  induction events using List.reverseRecOn with
  | nil => exact Nat.zero_le _
  | append_singleton events event ih =>
      rw [ledger_concat]
      exact Ledger.length_queue_step positive ih _

/-- Nothing is reordered, repeated or invented. -/
theorem kept_sublist (capacity : ℕ) (events : List (Event α)) :
    (ledger capacity events).kept.Sublist (pushes (tagged events)) := by
  induction events using List.reverseRecOn with
  | nil => exact List.Sublist.refl _
  | append_singleton events event ih =>
      rw [ledger_concat, tagged_concat, pushes_concat]
      cases event with
      | push a =>
          have fewer : ((ledger capacity events).delivered ++
              if capacity ≤ (ledger capacity events).queue.length
                then (ledger capacity events).queue.tail
                else (ledger capacity events).queue).Sublist (ledger capacity events).kept := by
            refine (List.Sublist.refl _).append ?_
            split
            · exact List.tail_sublist _
            · exact List.Sublist.refl _
          have last := (fewer.trans ih).append (List.Sublist.refl [(events.length, a)])
          rwa [List.append_assoc] at last
      | pull n =>
          simpa [Ledger.kept, Ledger.step, Event.map, pushes] using ih

theorem mem_pushes_lt (events : List (Event α)) {entry : ℕ × α}
    (member : entry ∈ pushes (tagged events)) : entry.1 < events.length := by
  induction events using List.reverseRecOn with
  | nil => cases member
  | append_singleton events event ih =>
      rw [List.length_append, List.length_singleton]
      rw [tagged_concat, pushes_concat, List.mem_append] at member
      rcases member with earlier | last
      · exact (ih earlier).trans (Nat.lt_succ_self _)
      · cases event with
        | push a =>
            obtain rfl := List.mem_singleton.mp last
            exact Nat.lt_succ_self _
        | pull n => cases last

/-- An element is lost only as the front of a full queue, to the next push. -/
theorem lost_at_full {capacity : ℕ} (positive : 0 < capacity) (events : List (Event α))
    {entry : ℕ × α} (member : entry ∈ pushes (tagged events))
    (lost : entry ∉ (ledger capacity events).kept) :
    ∃ m a, m < events.length ∧ events[m]? = some (.push a) ∧
      (ledger capacity (events.take m)).queue.length = capacity ∧
      (ledger capacity (events.take m)).queue.head? = some entry := by
  induction events using List.reverseRecOn with
  | nil => cases member
  | append_singleton events event ih =>
      have before : ∀ m, m ≤ events.length → (events ++ [event]).take m = events.take m :=
        fun m hm => List.take_append_of_le_length hm
      rw [tagged_concat, pushes_concat, List.mem_append] at member
      by_cases old : entry ∈ pushes (tagged events)
      · by_cases kept : entry ∈ (ledger capacity events).kept
        · -- the last event took it away: a push onto a full queue with this front
          rw [ledger_concat] at lost
          have bound := length_queue_le positive events
          cases event with
          | pull n => exact absurd (by simpa [Ledger.kept, Ledger.step, Event.map] using kept) lost
          | push a =>
              refine ⟨events.length, a, by simp, by simp, ?_⟩
              rw [before _ le_rfl, List.take_length]
              simp only [Ledger.kept, Ledger.step, Event.map, pushDropping, List.mem_append,
                not_or] at kept lost
              by_cases full : capacity ≤ (ledger capacity events).queue.length
              · refine ⟨le_antisymm bound full, ?_⟩
                rw [if_pos full] at lost
                have queued := kept.resolve_left lost.1
                cases hq : (ledger capacity events).queue with
                | nil => rw [hq] at queued; cases queued
                | cons front rest =>
                    rw [hq] at queued lost
                    rcases List.mem_cons.mp queued with rfl | behind
                    · rfl
                    · exact absurd behind lost.2.1
              · rw [if_neg full] at lost
                exact absurd (kept.resolve_left lost.1) lost.2.1
        · obtain ⟨m, a, inside, pushed, full, front⟩ := ih old kept
          refine ⟨m, a, by simp; omega, ?_, ?_, ?_⟩
          · rw [List.getElem?_append_left inside, pushed]
          · rw [before m inside.le, full]
          · rw [before m inside.le, front]
      · -- the last event pushed it, and a pushed element is kept
        have last := member.resolve_left old
        cases event with
        | pull n => cases last
        | push a =>
            obtain rfl := List.mem_singleton.mp last
            rw [ledger_concat] at lost
            simp [Ledger.kept, Ledger.step, Event.map, pushDropping] at lost

end BoundedFifo

/-- A first-in first-out queue that takes an element only while there is room. -/
structure BoundedQueue (α : Type*) where
  capacity : ℕ
  items : List α := []
  bounded : items.length ≤ capacity := by simp

namespace BoundedQueue

variable {α : Type*}

def tryPush (queue : BoundedQueue α) (a : α) : Option (BoundedQueue α) :=
  if room : queue.items.length < queue.capacity then
    some ⟨queue.capacity, queue.items ++ [a], by
      rw [List.length_append, List.length_singleton]
      exact room⟩
  else none

def tryPop (queue : BoundedQueue α) : Option (α × BoundedQueue α) :=
  match h : queue.items with
  | [] => none
  | front :: rest =>
      some (front, ⟨queue.capacity, rest, by
        have := queue.bounded
        rw [h, List.length_cons] at this
        omega⟩)

theorem tryPush_of_room {queue : BoundedQueue α} (room : queue.items.length < queue.capacity)
    (a : α) : ∃ next, queue.tryPush a = some next ∧ next.capacity = queue.capacity ∧
      next.items = queue.items ++ [a] :=
  ⟨_, dif_pos room, rfl, rfl⟩

theorem tryPop_eq_none {queue : BoundedQueue α} (h : queue.tryPop = none) : queue.items = [] := by
  unfold tryPop at h
  split at h
  · assumption
  · cases h

theorem tryPop_eq_some {queue next : BoundedQueue α} {front : α}
    (h : queue.tryPop = some (front, next)) :
    queue.items = front :: next.items ∧ next.capacity = queue.capacity := by
  unfold tryPop at h
  split at h
  · cases h
  · rename_i first rest items
    obtain ⟨rfl, rfl⟩ := Prod.mk.inj (Option.some.inj h)
    exact ⟨items, rfl⟩

end BoundedQueue
