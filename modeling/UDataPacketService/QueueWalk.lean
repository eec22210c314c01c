import UDataPacketService.MachineRuns

/-! A walk over named queues that takes one element at each visit to a queue that
is not empty. Two walks with the same queues are served alike exactly when they
agree on how often, and in which order, they first visit the queues. -/
namespace QueueWalk

variable {K : Type*} [DecidableEq K]

/-- The visits at which the walk finds an element, for queues of these lengths. -/
def served (length : K → ℕ) : List K → List K
  | [] => []
  | k :: walk =>
      if length k = 0 then served length walk
      else k :: served (Function.update length k (length k - 1)) walk

/-- A queue is served as often as it is visited, until it is empty. -/
theorem count_served (length : K → ℕ) (walk : List K) (a : K) :
    (served length walk).count a = min (walk.count a) (length a) := by
  induction walk generalizing length with
  | nil => simp [served]
  | cons k walk ih =>
      rw [served]
      split
      · rename_i empty
        rw [ih, List.count_cons]
        by_cases same : k = a
        · subst same; simp [empty]
        · simp [same]
      · rename_i nonempty
        rw [List.count_cons, List.count_cons, ih]
        by_cases same : k = a
        · subst same
          simp only [Function.update_self, beq_self_eq_true, if_true]
          omega
        · simp [same, Function.update_of_ne (Ne.symm same)]

theorem idxOf_served (length : K → ℕ) (walk : List K) {a b : K} (differ : a ≠ b)
    (ha : 0 < length a) (hb : 0 < length b) :
    (served length walk).idxOf a < (served length walk).idxOf b ↔
      walk.idxOf a < walk.idxOf b := by
  induction walk generalizing length with
  | nil => simp [served]
  | cons k walk ih =>
      rw [served]
      by_cases isA : k = a
      · subst isA
        simp [ha.ne', differ]
      · by_cases isB : k = b
        · subst isB
          simp [hb.ne']
        · split
          · rw [ih length ha hb, List.idxOf_cons_ne _ isA, List.idxOf_cons_ne _ isB]
            omega
          · rw [List.idxOf_cons_ne _ isA, List.idxOf_cons_ne _ isB, List.idxOf_cons_ne _ isA,
              List.idxOf_cons_ne _ isB]
            have rest := ih (Function.update length k (length k - 1))
              (by rwa [Function.update_of_ne (Ne.symm isA)])
              (by rwa [Function.update_of_ne (Ne.symm isB)])
            omega

theorem pairwise_idxOf {l : List K} (once : l.Nodup) :
    l.Pairwise (fun a b => l.idxOf a < l.idxOf b) := by
  rw [List.pairwise_iff_getElem]
  intro i j hi hj less
  rwa [once.idxOf_getElem, once.idxOf_getElem]

theorem mem_served (length : K → ℕ) (walk : List K) (a : K) :
    a ∈ served length walk ↔ a ∈ walk ∧ 0 < length a := by
  rw [← List.count_pos_iff, count_served, lt_min_iff, List.count_pos_iff]

/-- A walk that visits the long queues once finds no element twice. -/
theorem nodup_served (length : K → ℕ) {walk : List K}
    (once : ∀ a, 2 ≤ length a → walk.count a ≤ 1) : (served length walk).Nodup := by
  rw [List.nodup_iff_count_le_one]
  intro a
  rw [count_served]
  have few := once a
  omega

section Ordered
variable {r : K → K → Prop}

theorem idxOf_lt_iff_of_sorted (asymm : ∀ a b, r a b → ¬r b a) {ordered : List K}
    (sorted : ordered.Pairwise r) {a b : K} (ha : a ∈ ordered) (hb : b ∈ ordered) :
    ordered.idxOf a < ordered.idxOf b ↔ r a b := by
  have forward : ∀ {a b}, a ∈ ordered → b ∈ ordered → ordered.idxOf a < ordered.idxOf b →
      r a b := by
    intro a b ha hb less
    have step := List.pairwise_iff_getElem.mp sorted _ _ (List.idxOf_lt_length_iff.mpr ha)
      (List.idxOf_lt_length_iff.mpr hb) less
    rwa [List.getElem_idxOf, List.getElem_idxOf] at step
  refine ⟨forward ha hb, fun h => ?_⟩
  rcases lt_trichotomy (ordered.idxOf a) (ordered.idxOf b) with less | same | greater
  · exact less
  · obtain rfl : a = b := (List.idxOf_inj ha).mp same
    exact absurd h (asymm a a h)
  · exact absurd (forward hb ha greater) (asymm a b h)

/-- A walk that reaches the queues in order serves them in order. -/
theorem pairwise_served (length : K → ℕ) {walk : List K}
    (once : ∀ a, 2 ≤ length a → walk.count a ≤ 1)
    (order : ∀ a b, 0 < length a → 0 < length b → a ≠ b →
      walk.idxOf a < walk.idxOf b → r a b) : (served length walk).Pairwise r := by
  refine (pairwise_idxOf (nodup_served length once)).imp_of_mem (fun {a b} ha hb less => ?_)
  have readyA := ((mem_served length walk a).mp ha).2
  have readyB := ((mem_served length walk b).mp hb).2
  have differ : a ≠ b := by rintro rfl; exact lt_irrefl _ less
  rw [idxOf_served length walk differ readyA readyB] at less
  exact order a b readyA readyB differ less

/-- A walk serves the queues as the ordered walk does exactly when it visits the
long queues once and reaches the queues in order. -/
theorem served_eq_iff (length : K → ℕ) (walk ordered : List K)
    (irrefl : ∀ a, ¬r a a) (asymm : ∀ a b, r a b → ¬r b a)
    (total : ∀ a b, a ≠ b → r a b ∨ r b a) (sorted : ordered.Pairwise r)
    (visited : ∀ a, 0 < length a → a ∈ walk ∧ a ∈ ordered) :
    served length walk = served length ordered ↔
      (∀ a, 2 ≤ length a → walk.count a = 1) ∧
        ∀ a b, 0 < length a → 0 < length b → r a b → walk.idxOf a < walk.idxOf b := by
  have once : ordered.Nodup := sorted.imp (by rintro a b h rfl; exact irrefl a h)
  have before : ∀ {a b}, 0 < length a → 0 < length b →
      (ordered.idxOf a < ordered.idxOf b ↔ r a b) :=
    fun ha hb => idxOf_lt_iff_of_sorted asymm sorted (visited _ ha).2 (visited _ hb).2
  constructor
  · intro same
    constructor
    · intro a ha
      have single : ordered.count a = 1 :=
        List.count_eq_one_of_mem once (visited a (by omega)).2
      have counts := congrArg (List.count a) same
      rw [count_served, count_served, single] at counts
      omega
    · intro a b ha hb h
      have differ : a ≠ b := fun equal => irrefl b (equal ▸ h)
      rw [← idxOf_served length walk differ ha hb, same, idxOf_served length ordered differ ha hb]
      exact (before ha hb).mpr h
  · rintro ⟨counts, order⟩
    have few : ∀ a, 2 ≤ length a → walk.count a ≤ 1 := fun a ha => (counts a ha).le
    have few' : ∀ a, 2 ≤ length a → ordered.count a ≤ 1 :=
      fun a _ => List.nodup_iff_count_le_one.mp once a
    have perm : (served length walk).Perm (served length ordered) := by
      rw [List.perm_ext_iff_of_nodup (nodup_served length few) (nodup_served length few')]
      intro a
      rw [mem_served, mem_served]
      exact and_congr_left (fun ready => iff_of_true (visited a ready).1 (visited a ready).2)
    -- both lists run along `r`, the walk because a later queue is not `r`-below an earlier one
    have inOrder : (served length walk).Pairwise r := by
      refine pairwise_served length few (fun a b readyA readyB differ less => ?_)
      rcases total a b differ with h | h
      · exact h
      · exact absurd (order b a readyB readyA h) (by omega)
    have inOrder' : (served length ordered).Pairwise r :=
      pairwise_served length few' (fun a b readyA readyB _ less =>
        (before readyA readyB).mp less)
    exact perm.eq_of_pairwise (fun a b _ _ h h' => absurd h' (asymm a b h)) inOrder inOrder'

end Ordered

theorem eq_of_keys_eq {A : Type*} (key : A → K) {l m : List A} (keys : l.map key = m.map key)
    (elements : ∀ k, l.filter (fun a => key a = k) = m.filter (fun a => key a = k)) : l = m := by
  induction l generalizing m with
  | nil => exact (List.map_eq_nil_iff.mp keys.symm).symm
  | cons a l ih =>
      cases m with
      | nil => cases keys
      | cons b m =>
          obtain ⟨head, tail⟩ := List.cons.inj keys
          have first := elements (key a)
          simp only [List.filter_cons, ← head, decide_true, if_true] at first
          obtain ⟨same, -⟩ := List.cons.inj first
          subst same
          refine congrArg (a :: ·) (ih tail (fun k => ?_))
          have rest := elements k
          simp only [List.filter_cons] at rest
          split at rest
          · exact (List.cons.inj rest).2
          · exact rest

end QueueWalk
