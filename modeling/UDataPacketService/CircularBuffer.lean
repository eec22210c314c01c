import Mathlib

/-! A circular buffer that has received its first element. A full buffer makes room
for an element by dropping one at the other end. -/

structure CircularBuffer (α : Type*) where
  capacity : ℕ
  items : List α
  nonempty : items ≠ []
  bounded : items.length ≤ capacity

namespace CircularBuffer

variable {α : Type*}

def start (capacity : ℕ) (positive : 0 < capacity) (a : α) : CircularBuffer α where
  capacity := capacity
  items := [a]
  nonempty := List.cons_ne_nil a []
  bounded := positive

def front (b : CircularBuffer α) : α := b.items.head b.nonempty
def back (b : CircularBuffer α) : α := b.items.getLast b.nonempty
def full (b : CircularBuffer α) : Bool := b.items.length == b.capacity

theorem full_iff (b : CircularBuffer α) : b.full = true ↔ b.items.length = b.capacity :=
  beq_iff_eq

theorem length_lt_of_not_full {b : CircularBuffer α} (h : ¬b.full = true) :
    b.items.length < b.capacity :=
  lt_of_le_of_ne b.bounded (fun same => h (b.full_iff.mpr same))

def pushBack (b : CircularBuffer α) (a : α) : CircularBuffer α where
  capacity := b.capacity
  items := if b.full then b.items.tail ++ [a] else b.items ++ [a]
  nonempty := by split <;> simp
  bounded := by
    have := List.length_pos_of_ne_nil b.nonempty
    have := b.bounded
    split
    · simp only [List.length_append, List.length_tail, List.length_singleton]
      omega
    · rename_i room
      rw [List.length_append]
      exact length_lt_of_not_full room

def pushFront (b : CircularBuffer α) (a : α) : CircularBuffer α where
  capacity := b.capacity
  items := a :: (if b.full then b.items.dropLast else b.items)
  nonempty := List.cons_ne_nil _ _
  bounded := by
    have := List.length_pos_of_ne_nil b.nonempty
    have := b.bounded
    split
    · simp only [List.length_cons, List.length_dropLast]
      omega
    · rename_i room
      exact length_lt_of_not_full room

def sort (r : α → α → Prop) [DecidableRel r] (b : CircularBuffer α) : CircularBuffer α where
  capacity := b.capacity
  items := b.items.insertionSort r
  nonempty := by
    have some := b.nonempty
    rwa [ne_eq, ← List.length_eq_zero_iff, List.length_insertionSort, List.length_eq_zero_iff]
  bounded := by rw [List.length_insertionSort]; exact b.bounded

section Items
variable (b : CircularBuffer α) (a : α)

theorem pushBack_of_full (h : b.full = true) : (b.pushBack a).items = b.items.tail ++ [a] :=
  if_pos h

theorem pushBack_of_not_full (h : ¬b.full = true) : (b.pushBack a).items = b.items ++ [a] :=
  if_neg h

theorem pushFront_of_not_full (h : ¬b.full = true) : (b.pushFront a).items = a :: b.items :=
  congrArg (a :: ·) (if_neg h)

theorem front_cons_tail : b.items = b.front :: b.items.tail :=
  (List.cons_head_tail b.nonempty).symm

theorem front_mem : b.front ∈ b.items := List.head_mem b.nonempty

theorem back_mem : b.back ∈ b.items := List.getLast_mem b.nonempty

theorem mem_pushBack_self : a ∈ (b.pushBack a).items := by
  by_cases h : b.full = true
  · rw [pushBack_of_full b a h]; exact List.mem_append_right _ (List.mem_singleton_self a)
  · rw [pushBack_of_not_full b a h]; exact List.mem_append_right _ (List.mem_singleton_self a)

theorem pushBack_eq : ∃ kept, kept.Sublist b.items ∧ (b.pushBack a).items = kept ++ [a] := by
  by_cases h : b.full = true
  · exact ⟨_, List.tail_sublist _, pushBack_of_full b a h⟩
  · exact ⟨_, List.Sublist.refl _, pushBack_of_not_full b a h⟩

/-- An element is dropped only from the front of a full buffer. -/
theorem mem_pushBack_or_front {c : α} (member : c ∈ b.items) :
    c ∈ (b.pushBack a).items ∨ (b.full = true ∧ c = b.front) := by
  by_cases h : b.full = true
  · rw [pushBack_of_full b a h]
    rw [front_cons_tail b] at member
    rcases List.mem_cons.mp member with first | later
    · exact .inr ⟨h, first⟩
    · exact .inl (List.mem_append_left _ later)
  · rw [pushBack_of_not_full b a h]
    exact .inl (List.mem_append_left _ member)

theorem full_pushBack (h : b.full = true) : (b.pushBack a).full = true := by
  have count := b.full_iff.mp h
  have some := List.length_pos_of_ne_nil b.nonempty
  rw [full_iff, pushBack_of_full b a h]
  change (b.items.tail ++ [a]).length = b.capacity
  simp only [List.length_append, List.length_tail, List.length_singleton]
  omega

theorem perm_sort (r : α → α → Prop) [DecidableRel r] : (b.sort r).items.Perm b.items :=
  List.perm_insertionSort r b.items

end Items
end CircularBuffer
