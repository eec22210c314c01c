import UDataPacketService.FairRuns

/-! Machines made of parts. A step of the whole is a step of the part or leaves it alone,
so that a run of the whole is a run of the part, and what brings the part to an end in
every fair schedule does so in the whole. -/
namespace Machine

variable {S T E F O P : Type*}

/-- The part of the state moves as another machine does, on the event that the output
names, if any. -/
structure Part (M : Machine S E O) (N : Machine T F P) (part : S → T)
    (moved : O → Option (F × P)) : Prop where
  still : ∀ s e, moved (M.step s e).2 = none → part (M.step s e).1 = part s
  moves : ∀ s e f p, moved (M.step s e).2 = some (f, p) →
    N.step (part s) f = (part (M.step s e).1, p)

namespace Part
variable {M : Machine S E O} {N : Machine T F P} {part : S → T} {moved : O → Option (F × P)}

/-- The part of a run is the run of the moves, which answers as they do. -/
theorem run (h : Part M N part moved) (s : S) (es : List E) :
    part (M.run s es) = N.run (part s) (((M.trace s es).filterMap moved).map Prod.fst) ∧
      N.trace (part s) (((M.trace s es).filterMap moved).map Prod.fst) =
        ((M.trace s es).filterMap moved).map Prod.snd := by
  induction es generalizing s with
  | nil => exact ⟨rfl, rfl⟩
  | cons e es ih =>
      obtain ⟨last, outputs⟩ := ih (M.step s e).1
      rw [trace_cons, List.filterMap_cons, run_cons]
      cases move : moved (M.step s e).2 with
      | none =>
          rw [h.still s e move] at last outputs
          exact ⟨last, outputs⟩
      | some move' =>
          obtain ⟨f, p⟩ := move'
          have step := h.moves s e f p move
          rw [List.map_cons, List.map_cons, run_cons, trace_cons, step]
          exact ⟨last, congrArg (p :: ·) outputs⟩

theorem invariant (h : Part M N part moved) (I : T → Prop)
    (keep : ∀ t f, I t → I (N.step t f).1) {s : S} (now : I (part s)) (e : E) :
    I (part (M.step s e).1) := by
  cases move : moved (M.step s e).2 with
  | none => rwa [h.still s e move]
  | some move' =>
      have step := h.moves s e move'.1 move'.2 move
      have kept := keep (part s) move'.1 now
      rwa [step] at kept

/-- What makes progress in the part makes progress in the whole, where an event helps
if it is a move of the part that helps there. -/
theorem progress (h : Part M N part moved) {Done : T → Prop} {rank : T → ℕ}
    {Helps : T → F → Prop} {own : E → F → Prop} {s : S} {e : E}
    (taken : ∀ f, own e f → ∃ p, moved (M.step s e).2 = some (f, p))
    (keep : ∀ f, RankProgress Done rank Helps (part s) (N.step (part s) f).1 f) :
    RankProgress (fun s => Done (part s)) (fun s => rank (part s))
      (fun s e => ∃ f, own e f ∧ Helps (part s) f) s (M.step s e).1 e := by
  intro going
  cases move : moved (M.step s e).2 with
  | none =>
      have same := h.still s e move
      simp only [same]
      refine .inr ⟨trivial, trivial, ?_⟩
      rintro ⟨f, mine, -⟩
      obtain ⟨p, some_⟩ := taken f mine
      cases move.symm.trans some_
  | some move' =>
      have step := h.moves s e move'.1 move'.2 move
      rcases keep move'.1 going with falls | ⟨same, kept, other⟩
      · rw [step] at falls
        exact .inl falls
      · rw [step] at same kept
        refine .inr ⟨same, ?_, ?_⟩
        · simp only [kept]
        · rintro ⟨f, mine, helps⟩
          obtain ⟨p, some_⟩ := taken f mine
          rw [move, Option.some.injEq] at some_
          rw [some_] at other
          exact other helps

end Part
end Machine
