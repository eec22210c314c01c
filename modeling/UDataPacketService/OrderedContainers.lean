import UDataPacketService.MachineRuns

/-! The ordered maps and sets of the standard library over a lawful order, with
their lookup rules stated by key equality, and the walk of an iterator that
advances by key while other threads change the container. -/
namespace OrderedContainers
open Std

variable {K V W : Type*} [Ord K] [TransOrd K] [LawfulEqOrd K]

section Lookup
variable [DecidableEq K]

theorem getElem?_insert (m : ExtTreeMap K V) (k a : K) (v : V) :
    (m.insert k v)[a]? = if k = a then some v else m[a]? := by
  simp only [ExtTreeMap.getElem?_insert, LawfulEqOrd.compare_eq_iff_eq]

theorem getElem?_insert_of_ne (m : ExtTreeMap K V) {k a : K} (v : V) (h : k ≠ a) :
    (m.insert k v)[a]? = m[a]? := by
  rw [getElem?_insert, if_neg h]

theorem getElem?_erase (m : ExtTreeMap K V) (k a : K) :
    (m.erase k)[a]? = if k = a then none else m[a]? := by
  simp only [ExtTreeMap.getElem?_erase, LawfulEqOrd.compare_eq_iff_eq]

theorem map_insert (m : ExtTreeMap K V) (k : K) (v : V) (f : K → V → W) :
    (m.insert k v).map f = (m.map f).insert k (f k v) := by
  apply ExtTreeMap.ext_getElem?
  intro a
  rw [ExtTreeMap.getElem?_map, getElem?_insert, getElem?_insert, ExtTreeMap.getElem?_map]
  by_cases h : k = a
  · subst h; simp
  · simp only [h, if_false]

@[simp] theorem insert_insert (m : ExtTreeMap K V) (k : K) (v w : V) :
    (m.insert k v).insert k w = m.insert k w := by
  apply ExtTreeMap.ext_getElem?
  intro a
  simp only [getElem?_insert]
  split <;> rfl

theorem insert_same (m : ExtTreeMap K V) {k : K} {v : V} (h : m[k]? = some v) :
    m.insert k v = m := by
  apply ExtTreeMap.ext_getElem?
  intro a
  rw [getElem?_insert]
  split
  · rename_i same; rw [← same, h]
  · rfl

end Lookup

omit [LawfulEqOrd K] in
theorem mem_iff_exists (m : ExtTreeMap K V) (k : K) : k ∈ m ↔ ∃ v, m[k]? = some v := by
  rw [ExtTreeMap.mem_iff_isSome_getElem?, Option.isSome_iff_exists]

omit [LawfulEqOrd K] in
theorem not_mem_iff (m : ExtTreeMap K V) (k : K) : k ∉ m ↔ m[k]? = none := by
  rw [ExtTreeMap.mem_iff_isSome_getElem?, Option.not_isSome_iff_eq_none]

omit [TransOrd K] in
theorem beq_compare_of_ne {a b : K} (h : a ≠ b) : (compare a b == Ordering.eq) = false := by
  rw [beq_eq_false_iff_ne, ne_eq, LawfulEqOrd.compare_eq_iff_eq]
  exact h

theorem keys_nodup (m : ExtTreeMap K V) : m.keys.Nodup :=
  m.distinct_keys.imp (fun h same => h (LawfulEqOrd.compare_eq_iff_eq.mpr same))

theorem toList_nodup (s : ExtTreeSet K) : s.toList.Nodup :=
  s.distinct_toList.imp (fun h same => h (LawfulEqOrd.compare_eq_iff_eq.mpr same))

theorem mem_set_insert (s : ExtTreeSet K) (k a : K) : a ∈ s.insert k ↔ k = a ∨ a ∈ s := by
  rw [ExtTreeSet.mem_insert, LawfulEqOrd.compare_eq_iff_eq]

theorem mem_set_erase (s : ExtTreeSet K) (k a : K) : a ∈ s.erase k ↔ k ≠ a ∧ a ∈ s := by
  rw [ExtTreeSet.mem_erase, ne_eq, LawfulEqOrd.compare_eq_iff_eq]

theorem set_insert_same (s : ExtTreeSet K) {k : K} (h : k ∈ s) : s.insert k = s := by
  apply ExtTreeSet.ext_mem
  intro a
  rw [mem_set_insert, or_iff_right_of_imp]
  rintro rfl
  exact h

theorem set_erase_absent (s : ExtTreeSet K) {k : K} (h : k ∉ s) : s.erase k = s := by
  apply ExtTreeSet.ext_mem
  intro a
  rw [mem_set_erase, and_iff_right_of_imp]
  rintro member rfl
  exact h member

omit [LawfulEqOrd K] in
theorem set_ne_empty_of_mem {s : ExtTreeSet K} {k : K} (h : k ∈ s) : s ≠ ∅ := by
  rintro rfl
  exact ExtTreeSet.not_mem_empty h

theorem mem_foldl_insert (keys : List K) (s : ExtTreeSet K) (a : K) :
    a ∈ keys.foldl (fun all k => all.insert k) s ↔ a ∈ keys ∨ a ∈ s := by
  induction keys generalizing s with
  | nil => simp
  | cons k keys ih =>
      rw [List.foldl_cons, ih, mem_set_insert, List.mem_cons, ← or_assoc, or_comm (a := a ∈ keys),
        eq_comm]

theorem size_le_of_subset {s t : ExtTreeSet K} (h : ∀ k ∈ s, k ∈ t) : s.size ≤ t.size := by
  rw [← ExtTreeSet.length_toList, ← ExtTreeSet.length_toList]
  refine (List.subperm_of_subset (toList_nodup s) ?_).length_le
  intro k member
  exact ExtTreeSet.mem_toList.mpr (h k (ExtTreeSet.mem_toList.mp member))

omit [LawfulEqOrd K] in
theorem size_insert_absent (s : ExtTreeSet K) {k : K} (h : k ∉ s) :
    (s.insert k).size = s.size + 1 :=
  ExtTreeSet.size_insert.trans (if_neg (fun contained => h contained))

def Beyond (cursor : Option K) (k : K) : Prop := ∀ x ∈ cursor, compare x k = .lt

instance (cursor : Option K) (k : K) : Decidable (Beyond cursor k) :=
  inferInstanceAs (Decidable (∀ x ∈ cursor, compare x k = .lt))

/-- Where an iterator behind `cursor` arrives when it is advanced. -/
def advance (keys : List K) (cursor : Option K) : Option K :=
  keys.find? (fun k => Beyond cursor k)

section Advance
variable {keys : List K} {cursor : Option K} {k : K}

omit [TransOrd K] [LawfulEqOrd K] in
theorem beyond_none (k : K) : Beyond none k := nofun

omit [LawfulEqOrd K] in
theorem not_beyond_self (k : K) : ¬Beyond (some k) k := by
  intro h
  have same := h k rfl
  rw [ReflOrd.compare_self] at same
  cases same

omit [LawfulEqOrd K] in
theorem Beyond.trans {a b : K} (h : Beyond cursor a) (h' : Beyond (some a) b) : Beyond cursor b :=
  fun x position => TransCmp.lt_trans (h x position) (h' a rfl)

omit [TransOrd K] [LawfulEqOrd K] in
theorem advance_beyond (h : advance keys cursor = some k) : Beyond cursor k := by
  simpa only [decide_eq_true_eq] using List.find?_some h

omit [TransOrd K] [LawfulEqOrd K] in
theorem advance_mem (h : advance keys cursor = some k) : k ∈ keys := List.mem_of_find?_eq_some h

omit [TransOrd K] [LawfulEqOrd K] in
/-- No key is skipped. -/
theorem advance_next (sorted : keys.Pairwise (fun a b => compare a b = .lt))
    (h : advance keys cursor = some k) {other : K} (member : other ∈ keys)
    (ahead : Beyond cursor other) : other = k ∨ Beyond (some k) other := by
  obtain ⟨-, before, after, rfl, passed⟩ := List.find?_eq_some_iff_append.mp h
  rcases List.mem_append.mp member with earlier | later
  · have not := passed other earlier
    rw [Bool.not_eq_true', decide_eq_false_iff_not] at not
    exact absurd ahead not
  · rcases List.mem_cons.mp later with here | later
    · exact .inl here
    · have order := (List.pairwise_append.mp sorted).2.1
      refine .inr (fun x same => ?_)
      rw [← Option.some.inj same]
      exact List.rel_of_pairwise_cons order later

omit [TransOrd K] [LawfulEqOrd K] in
theorem advance_end (h : advance keys cursor = none) (member : k ∈ keys) : ¬Beyond cursor k := by
  have passed := List.find?_eq_none.mp h k member
  rwa [decide_eq_true_eq] at passed

end Advance
end OrderedContainers
