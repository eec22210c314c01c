import Mathlib

/-! Closed intervals over a linear order, carried by the elements of any type. A
chain lists intervals from left to right with no common point, and intervals that
are pairwise apart form a chain once they are sorted by their lower ends. -/
namespace IntervalChain

variable {α β : Type*} [LinearOrder β] (lo hi : α → β)

def Before (a b : α) : Prop := hi a < lo b

def Apart (a b : α) : Prop := Before lo hi a b ∨ Before lo hi b a

instance (a b : α) : Decidable (Apart lo hi a b) :=
  inferInstanceAs (Decidable (hi a < lo b ∨ hi b < lo a))

def Touches (a b : α) : Prop := (lo b ≤ lo a ∧ lo a ≤ hi b) ∨ (lo b ≤ hi a ∧ hi a ≤ hi b)

/-- `a` reaches beyond both ends of `b`. -/
def Covers (a b : α) : Prop := lo a < lo b ∧ hi b < hi a

def Chain (l : List α) : Prop := l.Pairwise (Before lo hi)

theorem Apart.symm {a b : α} (h : Apart lo hi a b) : Apart lo hi b a := Or.symm h

theorem Chain.apart {l : List α} (h : Chain lo hi l) : l.Pairwise (Apart lo hi) :=
  h.imp .inl

variable {lo hi}

/-- Without a touching end, intervals that are not apart are nested. -/
theorem apart_or_covers {a b : α} (untouched : ¬Touches lo hi a b) :
    Apart lo hi a b ∨ Covers lo hi a b := by
  obtain ⟨low, high⟩ := not_or.mp untouched
  by_cases right : lo b ≤ lo a
  · have beyond : hi b < lo a := lt_of_not_ge (fun inside => low ⟨right, inside⟩)
    exact .inl (.inr beyond)
  · by_cases left : hi a < lo b
    · exact .inl (.inl left)
    · have beyond : hi b < hi a := lt_of_not_ge (fun inside => high ⟨le_of_not_gt left, inside⟩)
      exact .inr ⟨lt_of_not_ge right, beyond⟩

theorem Chain.concat {l : List α} (h : Chain lo hi l) {a : α}
    (after : ∀ b ∈ l, Before lo hi b a) : Chain lo hi (l ++ [a]) := by
  refine List.pairwise_append.mpr ⟨h, List.pairwise_singleton _ a, fun b member c last => ?_⟩
  rw [List.mem_singleton.mp last]
  exact after b member

section Proper
variable (proper : ∀ a, lo a ≤ hi a)
include proper

theorem Before.lo_lt {a b : α} (h : Before lo hi a b) : lo a < lo b := (proper a).trans_lt h

theorem Before.hi_lt {a b : α} (h : Before lo hi a b) : hi a < hi b := h.trans_le (proper b)

theorem Before.not_le {a b : α} (h : Before lo hi a b) : ¬lo b ≤ lo a :=
  not_le_of_gt (h.lo_lt proper)

theorem Apart.not_touches {a b : α} (h : Apart lo hi a b) : ¬Touches lo hi a b := by
  rintro (⟨low, inside⟩ | ⟨low, inside⟩)
  · rcases h with left | right
    · exact absurd (left.lo_lt proper) (not_lt_of_ge low)
    · exact absurd right (not_lt_of_ge inside)
  · rcases h with left | right
    · exact absurd left (not_lt_of_ge low)
    · exact absurd (right.hi_lt proper) (not_lt_of_ge inside)

theorem Apart.not_covers {a b : α} (h : Apart lo hi a b) : ¬Covers lo hi a b := by
  rintro ⟨low, high⟩
  rcases h with left | right
  · exact absurd (left.hi_lt proper) (not_lt_of_gt high)
  · exact absurd (right.lo_lt proper) (not_lt_of_gt low)

theorem Apart.before_of_le {a b : α} (h : Apart lo hi a b) (first : lo a ≤ lo b) :
    Before lo hi a b :=
  h.resolve_right (fun other => other.not_le proper first)

/-- Sorting intervals that are pairwise apart gives a chain. -/
theorem chain_insertionSort {l : List α} (h : l.Pairwise (Apart lo hi)) :
    Chain lo hi (l.insertionSort (fun a b => lo a ≤ lo b)) := by
  have total : Std.Total (fun a b : α => lo a ≤ lo b) := ⟨fun a b => le_total (lo a) (lo b)⟩
  have transitive : IsTrans α (fun a b => lo a ≤ lo b) := ⟨fun a b c => le_trans⟩
  have sorted := List.pairwise_insertionSort (fun a b => lo a ≤ lo b) l
  have apart := ((List.perm_insertionSort (fun a b => lo a ≤ lo b) l).pairwise_iff
    (fun h => Apart.symm lo hi h)).mpr h
  exact (sorted.and apart).imp (fun both => both.2.before_of_le proper both.1)

theorem Chain.head_le {l : List α} (h : Chain lo hi l) (some : l ≠ []) {b : α} (member : b ∈ l) :
    lo (l.head some) ≤ lo b := by
  cases l with
  | nil => cases member
  | cons a rest =>
      rcases List.mem_cons.mp member with rfl | later
      · exact le_rfl
      · exact ((List.rel_of_pairwise_cons h later).lo_lt proper).le

theorem Chain.le_getLast {l : List α} (h : Chain lo hi l) (some : l ≠ []) {b : α}
    (member : b ∈ l) : hi b ≤ hi (l.getLast some) := by
  induction l generalizing b with
  | nil => cases member
  | cons a rest ih =>
      cases rest with
      | nil => rw [List.mem_singleton.mp member]; exact le_rfl
      | cons next rest =>
          rw [List.getLast_cons (List.cons_ne_nil next rest)]
          rcases List.mem_cons.mp member with rfl | later
          · have step := List.rel_of_pairwise_cons h List.mem_cons_self
            exact (step.hi_lt proper).le.trans (ih h.of_cons _ List.mem_cons_self)
          · exact ih h.of_cons _ later

theorem Chain.before_of_last {l : List α} (h : Chain lo hi l) (some : l ≠ []) {a : α}
    (after : Before lo hi (l.getLast some) a) : ∀ b ∈ l, Before lo hi b a :=
  fun _ member => (h.le_getLast proper some member).trans_lt after

theorem Chain.before_of_head {l : List α} (h : Chain lo hi l) (some : l ≠ []) {a : α}
    (first : Before lo hi a (l.head some)) : ∀ b ∈ l, Before lo hi a b :=
  fun _ member => lt_of_lt_of_le first (h.head_le proper some member)

end Proper
end IntervalChain
