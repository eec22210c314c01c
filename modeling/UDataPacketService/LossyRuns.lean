import UDataPacketService.MachineRuns

/-! What goes through a machine that may lose elements but never repeats, reorders or
invents any. An event puts elements in, and what the machine has taken and not lost is
a sublist of what was put in. It is all of it exactly if no step loses an element,
since nothing that is lost comes back. -/
namespace LossyRuns

variable {S E O α : Type*}

/-- No step of the guarded runs from a state with the invariant adds to what is held
more than its event puts in, or before its end. -/
structure Carries (M : Machine S E O) (P : S → Prop) (G : S → E → Prop) (held : S → List α)
    (input : E → List α) : Prop where
  keep : ∀ s e, P s → G s e → P (M.step s e).1
  step : ∀ s e, P s → G s e → (held (M.step s e).1).Sublist (held s ++ input e)

namespace Carries
variable {M : Machine S E O} {P : S → Prop} {G : S → E → Prop} {held : S → List α}
  {input : E → List α} {s : S} {es : List E}

/-- What a run holds was held before, or put in by its events, in this order. -/
theorem run_sublist (h : Carries M P G held input) (start : P s) (guards : M.Admissible G s es) :
    (held (M.run s es)).Sublist (held s ++ es.flatMap input) := by
  induction es generalizing s with
  | nil => simp
  | cons e es ih =>
      have rest := ih (h.keep s e start guards.1) guards.2
      have first := h.step s e start guards.1
      rw [List.flatMap_cons, ← List.append_assoc]
      exact rest.trans (first.append_right _)

/-- A run holds all of it exactly if each of its steps keeps what is held and what its
event puts in. -/
theorem run_eq_iff (h : Carries M P G held input) {K : S → E → Prop}
    (keeps : ∀ s e, P s → G s e → (held (M.step s e).1 = held s ++ input e ↔ K s e))
    (start : P s) (guards : M.Admissible G s es) :
    held (M.run s es) = held s ++ es.flatMap input ↔ M.Admissible K s es := by
  induction es generalizing s with
  | nil => simp [Machine.Admissible]
  | cons e es ih =>
      have next := h.keep s e start guards.1
      have first := h.step s e start guards.1
      have rest := h.run_sublist next guards.2
      rw [Machine.run_cons, List.flatMap_cons, ← List.append_assoc, Machine.Admissible,
        ← ih next guards.2, ← keeps s e start guards.1]
      constructor
      · intro whole
        -- an element that the first step loses would be missing at the end
        have kept : held (M.step s e).1 = held s ++ input e := by
          refine first.eq_of_length (le_antisymm first.length_le ?_)
          have short := whole ▸ rest.length_le
          simpa only [List.length_append, Nat.add_le_add_iff_right] using short
        exact ⟨kept, whole.trans (congrArg (· ++ _) kept.symm)⟩
      · intro kept
        exact kept.2.trans (congrArg (· ++ _) kept.1)

end Carries

/-- What comes through two losses is all of it exactly if each of them loses nothing. -/
theorem sublist_eq_iff {last middle first : List α} (h : last.Sublist middle)
    (h' : middle.Sublist first) : last = first ↔ last = middle ∧ middle = first := by
  constructor
  · rintro rfl
    have same := h'.antisymm h
    exact ⟨same.symm, same⟩
  · exact fun both => both.1.trans both.2

end LossyRuns
