import UDataPacketService.MachineRuns

/-! Infinite runs of a machine under a schedule of events, and the rule by which a state
is reached in every fair one: a rank that no step raises, and that falls at an event
which the schedule brings, again and again or wherever it would wait for it forever. -/
namespace Machine

variable {S E O : Type*}

def stateAt (M : Machine S E O) (s : S) (schedule : ℕ → E) : ℕ → S
  | 0 => s
  | t + 1 => (M.step (stateAt M s schedule t) (schedule t)).1

def outputAt (M : Machine S E O) (s : S) (schedule : ℕ → E) (t : ℕ) : O :=
  (M.step (M.stateAt s schedule t) (schedule t)).2

theorem stateAt_succ (M : Machine S E O) (s : S) (schedule : ℕ → E) (t : ℕ) :
    M.stateAt s schedule (t + 1) = (M.step (M.stateAt s schedule t) (schedule t)).1 := rfl

theorem stateAt_eq_run (M : Machine S E O) (s : S) (schedule : ℕ → E) (t : ℕ) :
    M.stateAt s schedule t = M.run s ((List.range t).map schedule) := by
  induction t with
  | zero => rfl
  | succ t ih =>
      rw [List.range_succ, List.map_append, List.map_singleton, run_concat, ← ih, stateAt_succ]

/-- What the steps from a time on keep holds at every later time. -/
theorem stateAt_stable {M : Machine S E O} {s : S} {schedule : ℕ → E} (P : S → Prop) {t u : ℕ}
    (later : t ≤ u)
    (keep : ∀ v, t ≤ v → P (M.stateAt s schedule v) → P (M.stateAt s schedule (v + 1)))
    (now : P (M.stateAt s schedule t)) : P (M.stateAt s schedule u) := by
  induction u, later using Nat.le_induction with
  | base => exact now
  | succ u later ih => exact keep u later ih

section Ranks
variable {R : Type*} [Preorder R]

/-- While it is not done, no step raises the rank, and a step that does not lower it
keeps the events that help and is none of them. -/
def Advances (Done : S → Prop) (rank : S → R) (Helps : S → E → Prop) (s next : S) (e : E) : Prop :=
  ¬Done s → rank next < rank s ∨ (rank next = rank s ∧ Helps next = Helps s ∧ ¬Helps s e)

variable {M : Machine S E O} {s : S} {schedule : ℕ → E} {Done : S → Prop} {rank : S → R}
  {Helps : S → E → Prop} {start : ℕ}

/-- Until the rank falls, it stays, and the same events help. -/
theorem advances_or_stays
    (progress : ∀ t, start ≤ t → Advances Done rank Helps (M.stateAt s schedule t)
      (M.stateAt s schedule (t + 1)) (schedule t))
    (never : ∀ t, start ≤ t → ¬Done (M.stateAt s schedule t)) {u : ℕ} (later : start ≤ u) :
    (∃ v, start ≤ v ∧ rank (M.stateAt s schedule v) < rank (M.stateAt s schedule start)) ∨
      (rank (M.stateAt s schedule u) = rank (M.stateAt s schedule start) ∧
        Helps (M.stateAt s schedule u) = Helps (M.stateAt s schedule start)) := by
  induction u, later using Nat.le_induction with
  | base => exact .inr ⟨rfl, rfl⟩
  | succ u later ih =>
      rcases ih with lower | ⟨same, helps⟩
      · exact .inl lower
      · rcases progress u later (never u later) with falls | ⟨stays, kept, -⟩
        · exact .inl ⟨u + 1, Nat.le_succ_of_le later, by rw [← same]; exact falls⟩
        · exact .inr ⟨stays.trans same, kept.trans helps⟩

/-- A rank that makes progress leads to a state where it is done, if the schedule brings
an event that helps wherever the rank and these events would stay as they are forever. -/
theorem eventually_of_advances [WellFoundedLT R]
    (fair : ∀ t, start ≤ t → (∀ u, t ≤ u → ¬Done (M.stateAt s schedule u) ∧
        rank (M.stateAt s schedule u) = rank (M.stateAt s schedule t) ∧
        Helps (M.stateAt s schedule u) = Helps (M.stateAt s schedule t)) →
      ∃ u, t ≤ u ∧ Helps (M.stateAt s schedule t) (schedule u))
    (progress : ∀ t, start ≤ t → Advances Done rank Helps (M.stateAt s schedule t)
      (M.stateAt s schedule (t + 1)) (schedule t)) :
    ∃ t, start ≤ t ∧ Done (M.stateAt s schedule t) := by
  induction h : rank (M.stateAt s schedule start) using WellFoundedLT.induction
    generalizing start with
  | _ r ih =>
      by_contra none
      have never : ∀ t, start ≤ t → ¬Done (M.stateAt s schedule t) :=
        fun t later done => none ⟨t, later, done⟩
      have sooner : ∀ v, start ≤ v → ¬rank (M.stateAt s schedule v) < r := by
        intro v later lower
        obtain ⟨t, further, done⟩ := ih _ lower (fun t further => fair t (later.trans further))
          (fun t further => progress t (later.trans further)) rfl
        exact never t (later.trans further) done
      have stays : ∀ u, start ≤ u →
          rank (M.stateAt s schedule u) = rank (M.stateAt s schedule start) ∧
            Helps (M.stateAt s schedule u) = Helps (M.stateAt s schedule start) := by
        intro u later
        refine (advances_or_stays progress never later).resolve_left ?_
        rintro ⟨v, further, lower⟩
        exact sooner v further (h ▸ lower)
      -- the event that helps at the start comes while the rank still stays
      obtain ⟨u, later, helps⟩ := fair start le_rfl (fun u later => ⟨never u later, stays u later⟩)
      obtain ⟨same, kept⟩ := stays u later
      rcases progress u later (never u later) with falls | ⟨-, -, other⟩
      · rw [same, h] at falls
        exact sooner (u + 1) (Nat.le_succ_of_le later) falls
      · rw [kept] at other
        exact other helps

end Ranks

def RankProgress (Done : S → Prop) (rank : S → ℕ) (Helps : S → E → Prop) (s next : S) (e : E) :
    Prop :=
  Advances Done rank Helps s next e

/-- In a fair schedule a rank that makes progress leads to a state where it is done. -/
theorem eventually_of_rank {M : Machine S E O} {s : S} {schedule : ℕ → E} {Done : S → Prop}
    {rank : S → ℕ} {Helps : S → E → Prop}
    (fair : ∀ s' t, ∃ u, t ≤ u ∧ Helps s' (schedule u)) {start : ℕ}
    (progress : ∀ t, start ≤ t → RankProgress Done rank Helps (M.stateAt s schedule t)
      (M.stateAt s schedule (t + 1)) (schedule t)) :
    ∃ t, start ≤ t ∧ Done (M.stateAt s schedule t) :=
  eventually_of_advances (fun t _ _ => fair _ t) progress

end Machine
