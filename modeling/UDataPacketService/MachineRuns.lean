import Mathlib

/-! Deterministic machines with outputs. A run is a finite list of events, and
an event the machine does not accept in its state leaves that state alone. The
rules here are the only induction over runs: invariants, invariants under a
guard on each step, and folds whose steps own separate parts of a state. -/

/-- A step reads a state and an event and gives the next state and an output. -/
structure Machine (State Event Output : Type*) where
  step : State → Event → State × Output

namespace Machine

variable {S E O : Type*}

def run (M : Machine S E O) : S → List E → S
  | s, [] => s
  | s, e :: es => run M (M.step s e).1 es

def trace (M : Machine S E O) : S → List E → List O
  | _, [] => []
  | s, e :: es => (M.step s e).2 :: trace M (M.step s e).1 es

@[simp] theorem run_nil (M : Machine S E O) (s : S) : M.run s [] = s := rfl

@[simp] theorem run_cons (M : Machine S E O) (s : S) (e : E) (es : List E) :
    M.run s (e :: es) = M.run (M.step s e).1 es := rfl

@[simp] theorem trace_nil (M : Machine S E O) (s : S) : M.trace s [] = [] := rfl

@[simp] theorem trace_cons (M : Machine S E O) (s : S) (e : E) (es : List E) :
    M.trace s (e :: es) = (M.step s e).2 :: M.trace (M.step s e).1 es := rfl

theorem run_append (M : Machine S E O) (s : S) (es fs : List E) :
    M.run s (es ++ fs) = M.run (M.run s es) fs := by
  induction es generalizing s with
  | nil => rfl
  | cons e es ih => exact ih _

theorem trace_append (M : Machine S E O) (s : S) (es fs : List E) :
    M.trace s (es ++ fs) = M.trace s es ++ M.trace (M.run s es) fs := by
  induction es generalizing s with
  | nil => rfl
  | cons e es ih => exact congrArg (_ :: ·) (ih _)

@[simp] theorem length_trace (M : Machine S E O) (s : S) (es : List E) :
    (M.trace s es).length = es.length := by
  induction es generalizing s with
  | nil => rfl
  | cons e es ih => exact congrArg Nat.succ (ih _)

theorem trace_getElem? (M : Machine S E O) (s : S) (es : List E) (i : ℕ) :
    (M.trace s es)[i]? = es[i]?.map (fun e => (M.step (M.run s (es.take i)) e).2) := by
  induction es generalizing s i with
  | nil => rfl
  | cons e es ih =>
      cases i with
      | zero => rfl
      | succ i => exact ih (M.step s e).1 i

theorem run_concat (M : Machine S E O) (s : S) (es : List E) (e : E) :
    M.run s (es ++ [e]) = (M.step (M.run s es) e).1 := by
  rw [run_append]
  rfl

theorem trace_concat (M : Machine S E O) (s : S) (es : List E) (e : E) :
    M.trace s (es ++ [e]) = M.trace s es ++ [(M.step (M.run s es) e).2] := by
  rw [trace_append]
  rfl

theorem run_invariant (M : Machine S E O) (P : S → Prop)
    (keep : ∀ s e, P s → P (M.step s e).1) {s : S} (start : P s) (es : List E) :
    P (M.run s es) := by
  induction es generalizing s with
  | nil => exact start
  | cons e es ih => exact ih (keep s e start)

/-- What links a state to the outputs so far, if every step keeps it, links the state
that a run reaches to the outputs of the run. -/
theorem history_invariant (M : Machine S E O) (P : List O → S → Prop)
    (keep : ∀ os s e, P os s → P (os ++ [(M.step s e).2]) (M.step s e).1) {s : S}
    (start : P [] s) (es : List E) : P (M.trace s es) (M.run s es) := by
  induction es using List.reverseRecOn with
  | nil => exact start
  | append_singleton es e ih =>
      rw [trace_concat, run_concat]
      exact keep _ _ e ih

/-- Every step of the run is taken in a state where the guard holds. -/
def Admissible (M : Machine S E O) (G : S → E → Prop) : S → List E → Prop
  | _, [] => True
  | s, e :: es => G s e ∧ Admissible M G (M.step s e).1 es

instance decidableAdmissible (M : Machine S E O) (G : S → E → Prop) [∀ s e, Decidable (G s e)] :
    ∀ s es, Decidable (M.Admissible G s es)
  | _, [] => isTrue trivial
  | s, e :: es =>
      have := decidableAdmissible M G (M.step s e).1 es
      inferInstanceAs (Decidable (G s e ∧ M.Admissible G (M.step s e).1 es))

theorem admissible_of_forall (M : Machine S E O) {G : S → E → Prop} {es : List E}
    (always : ∀ e ∈ es, ∀ s, G s e) (s : S) : M.Admissible G s es := by
  induction es generalizing s with
  | nil => trivial
  | cons e es ih =>
      exact ⟨always e List.mem_cons_self s, ih (fun f member => always f (List.mem_cons_of_mem e member)) _⟩

theorem admissible_append (M : Machine S E O) (G : S → E → Prop) (s : S) (es fs : List E) :
    M.Admissible G s (es ++ fs) ↔ M.Admissible G s es ∧ M.Admissible G (M.run s es) fs := by
  induction es generalizing s with
  | nil => simp only [List.nil_append, Admissible, run_nil, true_and]
  | cons e es ih => simp only [List.cons_append, Admissible, ih, run_cons, and_assoc]

/-- A guarded step keeps the invariant, so a run of guarded steps keeps it. -/
theorem Admissible.invariant {M : Machine S E O} {G : S → E → Prop} (P : S → Prop)
    (keep : ∀ s e, P s → G s e → P (M.step s e).1) {s : S} {es : List E}
    (guards : M.Admissible G s es) (start : P s) : P (M.run s es) := by
  induction es generalizing s with
  | nil => exact start
  | cons e es ih => exact ih guards.2 (keep s e start guards.1)

theorem Admissible.outputs {M : Machine S E O} {G : S → E → Prop} (P : S → Prop) (Q : O → Prop)
    (keep : ∀ s e, P s → G s e → P (M.step s e).1 ∧ Q (M.step s e).2) {s : S} {es : List E}
    (guards : M.Admissible G s es) (start : P s) : ∀ o ∈ M.trace s es, Q o := by
  induction es generalizing s with
  | nil =>
      intro o member
      cases member
  | cons e es ih =>
      obtain ⟨next, output⟩ := keep s e start guards.1
      rw [trace_cons, List.forall_mem_cons]
      exact ⟨output, ih guards.2 next⟩

theorem Admissible.imp {M : Machine S E O} {G H : S → E → Prop} (P : S → Prop)
    (keep : ∀ s e, P s → G s e → P (M.step s e).1) (stronger : ∀ s e, P s → G s e → H s e) {s : S}
    {es : List E} (guards : M.Admissible G s es) (start : P s) : M.Admissible H s es := by
  induction es generalizing s with
  | nil => trivial
  | cons e es ih =>
      exact ⟨stronger s e start guards.1, ih guards.2 (keep s e start guards.1)⟩

/-- Guards that agree while an invariant holds agree along a run. -/
theorem admissible_congr (M : Machine S E O) {G H : S → E → Prop} (P : S → Prop)
    (same : ∀ s e, P s → (G s e ↔ H s e)) (keep : ∀ s e, P s → G s e → P (M.step s e).1) {s : S}
    (start : P s) (es : List E) : M.Admissible G s es ↔ M.Admissible H s es := by
  constructor
  · exact fun guards => guards.imp P keep (fun s e p => (same s e p).mp) start
  · exact fun guards => guards.imp P (fun s e p h => keep s e p ((same s e p).mpr h))
      (fun s e p => (same s e p).mpr) start

/-- A guard that only reads an image of the state is a guard on the runs of the image. -/
theorem admissible_image_iff {T O' : Type*} (M : Machine S E O) (N : Machine T E O') (image : T → S)
    (simulates : ∀ t e, image (N.step t e).1 = (M.step (image t) e).1) (G : S → E → Prop) (t : T)
    (es : List E) :
    N.Admissible (fun t e => G (image t) e) t es ↔ M.Admissible G (image t) es := by
  induction es generalizing t with
  | nil => exact Iff.rfl
  | cons e es ih => rw [Admissible, Admissible, ih, simulates]

theorem admissible_outputs_iff (M : Machine S E O) (Q : O → Prop) (s : S) (es : List E) :
    M.Admissible (fun s e => Q (M.step s e).2) s es ↔ ∀ o ∈ M.trace s es, Q o := by
  induction es generalizing s with
  | nil => exact iff_of_true trivial nofun
  | cons e es ih => rw [trace_cons, List.forall_mem_cons, Admissible, ih]

def outputsOf (M : Machine S E O) (own : E → Prop) [DecidablePred own] (s : S) (es : List E) :
    List O :=
  ((es.zip (M.trace s es)).filter (fun answered => own answered.1)).map Prod.snd

theorem outputsOf_cons (M : Machine S E O) (own : E → Prop) [DecidablePred own] (s : S) (e : E)
    (es : List E) :
    M.outputsOf own s (e :: es) =
      if own e then (M.step s e).2 :: M.outputsOf own (M.step s e).1 es
      else M.outputsOf own (M.step s e).1 es := by
  unfold outputsOf
  by_cases h : own e
  · simp only [trace_cons, List.zip_cons_cons, List.filter_cons, h, decide_true, if_true,
      List.map_cons]
  · simp only [trace_cons, List.zip_cons_cons, List.filter_cons, h, decide_false,
      Bool.false_eq_true, if_false]

/-- When the removed events keep what two states share and the kept ones answer alike,
a run answers the events with the property `own` as the run of the kept events does. -/
theorem outputsOf_restrict (M : Machine S E O) (own kept : E → Prop) [DecidablePred own]
    [DecidablePred kept] (among : ∀ e, own e → kept e) (Shares : S → S → Prop)
    (other : ∀ s t e, Shares s t → ¬kept e → Shares (M.step s e).1 t)
    (mine : ∀ s t e, Shares s t → kept e →
      (M.step s e).2 = (M.step t e).2 ∧ Shares (M.step s e).1 (M.step t e).1)
    {s t : S} (start : Shares s t) (es : List E) :
    M.outputsOf own s es = M.outputsOf own t (es.filter kept) ∧
      Shares (M.run s es) (M.run t (es.filter kept)) := by
  induction es generalizing s t with
  | nil => exact ⟨rfl, start⟩
  | cons e es ih =>
      by_cases h : kept e
      · obtain ⟨output, next⟩ := mine s t e start h
        obtain ⟨rest, last⟩ := ih next
        have filtered : (e :: es).filter kept = e :: es.filter kept :=
          List.filter_cons_of_pos (decide_eq_true h)
        rw [filtered, outputsOf_cons, outputsOf_cons, rest, output]
        exact ⟨rfl, last⟩
      · obtain ⟨rest, last⟩ := ih (other s t e start h)
        have filtered : (e :: es).filter kept = es.filter kept :=
          List.filter_cons_of_neg (by simpa using h)
        rw [filtered, outputsOf_cons, if_neg (fun o => h (among e o)), rest]
        exact ⟨rfl, last⟩

/-- When the other events keep what two states share, a run answers its own events
as the run of these events alone does. -/
theorem outputsOf_filter (M : Machine S E O) (own : E → Prop) [DecidablePred own]
    (Shares : S → S → Prop)
    (other : ∀ s t e, Shares s t → ¬own e → Shares (M.step s e).1 t)
    (mine : ∀ s t e, Shares s t → own e →
      (M.step s e).2 = (M.step t e).2 ∧ Shares (M.step s e).1 (M.step t e).1)
    {s t : S} (start : Shares s t) (es : List E) :
    M.outputsOf own s es = M.trace t (es.filter own) ∧
      Shares (M.run s es) (M.run t (es.filter own)) := by
  have whole : ∀ t (es : List E), (∀ e ∈ es, own e) → M.outputsOf own t es = M.trace t es := by
    intro t es all
    induction es generalizing t with
    | nil => rfl
    | cons e es ih =>
        rw [outputsOf_cons, if_pos (all e List.mem_cons_self), trace_cons,
          ih _ (fun f hf => all f (List.mem_cons_of_mem e hf))]
  obtain ⟨outputs, last⟩ := M.outputsOf_restrict own own (fun _ o => o) Shares other mine start es
  rw [whole t _ (fun e he => of_decide_eq_true (List.mem_filter.mp he).2)] at outputs
  exact ⟨outputs, last⟩

def Reachable (M : Machine S E O) (s t : S) : Prop := ∃ es, t = M.run s es

theorem Reachable.invariant {M : Machine S E O} {s t : S} (h : M.Reachable s t) (P : S → Prop)
    (keep : ∀ s e, P s → P (M.step s e).1) (start : P s) : P t := by
  obtain ⟨es, rfl⟩ := h
  exact M.run_invariant P keep start es

end Machine

namespace FoldFrame

variable {S A T : Type*}

theorem foldl_frame (part : S → T) (f : S → A → S) (as : List A)
    (frame : ∀ s, ∀ a ∈ as, part (f s a) = part s) (s : S) :
    part (as.foldl f s) = part s := by
  induction as generalizing s with
  | nil => rfl
  | cons a as ih =>
      rw [List.foldl_cons, ih (fun s b hb => frame s b (List.mem_cons_of_mem a hb))]
      exact frame s a List.mem_cons_self

/-- A part that only one element of the list touches is updated once, if at all. -/
theorem foldl_focus [DecidableEq A] (part : S → T) (f : S → A → S) (g : T → T) (a₀ : A)
    (as : List A) (once : as.Nodup) (frame : ∀ s a, a ≠ a₀ → part (f s a) = part s)
    (focus : ∀ s, part (f s a₀) = g (part s)) (s : S) :
    part (as.foldl f s) = if a₀ ∈ as then g (part s) else part s := by
  induction as generalizing s with
  | nil => rfl
  | cons a as ih =>
      obtain ⟨fresh, once⟩ := List.nodup_cons.mp once
      rw [List.foldl_cons]
      by_cases same : a = a₀
      · subst a
        rw [foldl_frame part f as (fun s b hb => frame s b (by rintro rfl; exact fresh hb)), focus]
        simp
      · rw [ih once, frame s a same]
        simp only [List.mem_cons, Ne.symm same, false_or]

end FoldFrame
