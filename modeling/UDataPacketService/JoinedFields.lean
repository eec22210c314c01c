import Mathlib

/-! Fields joined by a separator. A join tells the pieces between the separators of
all fields, in order, and no more: which separator ends a field is told only by
how many separators each field has itself. -/
namespace JoinedFields

variable {α : Type*} [DecidableEq α]

theorem length_splitOn (sep : α) (field : List α) :
    (field.splitOn sep).length = field.count sep + 1 := by
  induction field with
  | nil => rfl
  | cons a field ih =>
      rw [List.splitOn_cons_eq_if_modifyHead, List.count_cons]
      split
      · rw [List.length_cons, ih]
      · rw [List.length_modifyHead, ih]

/-- The pieces between the separators, of all fields in order. -/
def pieces (sep : α) (fields : List (List α)) : List (List α) :=
  fields.flatMap (fun field => field.splitOn sep)

theorem length_pieces (sep : α) (fields : List (List α)) :
    (pieces sep fields).length = (fields.map (List.count sep)).sum + fields.length := by
  induction fields with
  | nil => rfl
  | cons field fields ih =>
      rw [pieces, List.flatMap_cons, List.length_append, ← pieces, ih, length_splitOn,
        List.map_cons, List.sum_cons, List.length_cons]
      omega

/-- The separators of a join are those of its fields and those that join them. -/
theorem splitOn_intercalate (sep : α) {fields : List (List α)} (some_ : fields ≠ []) :
    ([sep].intercalate fields).splitOn sep = pieces sep fields := by
  induction fields with
  | nil => exact absurd rfl some_
  | cons field fields ih =>
      cases fields with
      | nil => rw [List.intercalate_singleton, pieces, List.flatMap_singleton]
      | cons next fields =>
          rw [List.intercalate_cons_cons, List.append_assoc, List.singleton_append,
            List.splitOn_append_cons_self, ih (List.cons_ne_nil _ _)]
          rfl

theorem intercalate_eq_iff (sep : α) {xs ys : List (List α)} (hx : xs ≠ []) (hy : ys ≠ []) :
    [sep].intercalate xs = [sep].intercalate ys ↔ pieces sep xs = pieces sep ys := by
  rw [← splitOn_intercalate sep hx, ← splitOn_intercalate sep hy]
  refine ⟨congrArg _, fun same => ?_⟩
  calc [sep].intercalate xs
      = [sep].intercalate (([sep].intercalate xs).splitOn sep) :=
        (List.intercalate_splitOn sep).symm
    _ = [sep].intercalate (([sep].intercalate ys).splitOn sep) := by rw [same]
    _ = [sep].intercalate ys := List.intercalate_splitOn sep

theorem sum_counts_of_intercalate_eq {sep : α} {xs ys : List (List α)} (hx : xs ≠ [])
    (hy : ys ≠ []) (joined : [sep].intercalate xs = [sep].intercalate ys) :
    (xs.map (List.count sep)).sum + xs.length = (ys.map (List.count sep)).sum + ys.length := by
  rw [← length_pieces, ← length_pieces, (intercalate_eq_iff sep hx hy).mp joined]

/-- The count of its separators tells where the first of two fields ends. -/
theorem append_cons_inj_of_count {sep : α} {x y a b : List α}
    (joined : x ++ sep :: a = y ++ sep :: b) (same : x.count sep = y.count sep) :
    x = y ∧ a = b := by
  induction x generalizing y with
  | nil =>
      cases y with
      | nil => exact ⟨rfl, (List.cons.inj joined).2⟩
      | cons c y =>
          obtain ⟨rfl, -⟩ := List.cons.inj joined
          simp only [List.count_nil, List.count_cons_self] at same
          omega
  | cons c x ih =>
      cases y with
      | nil =>
          obtain ⟨rfl, -⟩ := List.cons.inj joined
          simp only [List.count_nil, List.count_cons_self] at same
          omega
      | cons d y =>
          obtain ⟨rfl, rest⟩ := List.cons.inj joined
          rw [List.count_cons, List.count_cons, Nat.add_right_cancel_iff] at same
          obtain ⟨rfl, rfl⟩ := ih rest same
          exact ⟨rfl, rfl⟩

/-- The counts of their separators tell all fields. -/
theorem eq_of_counts {sep : α} {xs ys : List (List α)}
    (same : xs.map (List.count sep) = ys.map (List.count sep))
    (joined : [sep].intercalate xs = [sep].intercalate ys) : xs = ys := by
  induction xs generalizing ys with
  | nil => exact (List.map_eq_nil_iff.mp same.symm).symm
  | cons x xs ih =>
      obtain ⟨y, ys, rfl, first, rest⟩ := List.map_eq_cons_iff.mp same.symm
      cases xs with
      | nil =>
          obtain rfl := List.map_eq_nil_iff.mp rest
          rw [List.intercalate_singleton, List.intercalate_singleton] at joined
          rw [joined]
      | cons x' xs =>
          cases ys with
          | nil => cases rest
          | cons y' ys =>
              rw [List.intercalate_cons_cons, List.intercalate_cons_cons, List.append_assoc,
                List.append_assoc, List.singleton_append, List.singleton_append] at joined
              obtain ⟨rfl, others⟩ := append_cons_inj_of_count joined first.symm
              rw [ih rest.symm others]

theorem eq_of_no_separators {sep : α} {xs ys : List (List α)} (clean : ∀ x ∈ xs, sep ∉ x)
    (length : xs.length = ys.length)
    (joined : [sep].intercalate xs = [sep].intercalate ys) : xs = ys := by
  cases xs with
  | nil => exact (List.length_eq_zero_iff.mp length.symm).symm
  | cons x xs =>
      have some_ : ys ≠ [] := List.ne_nil_of_length_pos (length ▸ Nat.succ_pos _)
      have none_ : (x :: xs).map (List.count sep) = List.replicate (x :: xs).length 0 := by
        refine List.eq_replicate_iff.mpr ⟨List.length_map _, fun n member => ?_⟩
        obtain ⟨field, there, rfl⟩ := List.mem_map.mp member
        exact List.count_eq_zero.mpr (clean field there)
      have total := sum_counts_of_intercalate_eq (List.cons_ne_nil x xs) some_ joined
      rw [none_, List.sum_replicate, smul_zero, length, Nat.add_right_cancel_iff] at total
      refine eq_of_counts ?_ joined
      rw [none_, length]
      refine (List.eq_replicate_iff.mpr ⟨List.length_map _, fun n member => ?_⟩).symm
      exact Nat.le_zero.mp (total ▸ List.le_sum_of_mem member)

end JoinedFields
