/-!
# Runs of a step function

A system that takes one event at a time is a step function `σ → ε → σ`; a run
is its fold over a list of events. Three rules are all the developments here
use:

- `run_invariant`: what every step preserves, every run preserves;
- `run_invariant_along`: the same when only steps meeting a condition preserve
  it, for runs all of whose steps meet that condition (`Along`);
- `run_simulation`: two step functions that keep a relation on the same events
  keep it along every run.

`AtMostOnce` says that no two steps of a run meet a condition, and
`atMostOnce_of_settled` shows it from a state that the first such step reaches.

`Along` is a predicate on the start state and the events, so a condition that
looks at the state *before* a step is stated once and used for whole runs.
-/

namespace TraderStack.Lib

universe u v w

variable {σ : Type u} {ε : Type v} {τ : Type w}

/-- The state after the events, in order. -/
def run (step : σ → ε → σ) : σ → List ε → σ
  | s, [] => s
  | s, e :: es => run step (step s e) es

/-- Every step of the run meets `G`, which sees the state before the step. -/
def Along (step : σ → ε → σ) (G : σ → ε → Prop) : σ → List ε → Prop
  | _, [] => True
  | s, e :: es => G s e ∧ Along step G (step s e) es

variable {step : σ → ε → σ} {G : σ → ε → Prop}

@[simp] theorem run_nil (s : σ) : run step s [] = s := rfl

@[simp] theorem run_cons (s : σ) (e : ε) (es : List ε) :
    run step s (e :: es) = run step (step s e) es := rfl

theorem run_append (s : σ) (es fs : List ε) :
    run step s (es ++ fs) = run step (run step s es) fs := by
  induction es generalizing s with
  | nil => rfl
  | cons e es ih => exact ih (step s e)

@[simp] theorem along_nil (s : σ) : Along step G s [] := trivial

@[simp] theorem along_cons (s : σ) (e : ε) (es : List ε) :
    Along step G s (e :: es) ↔ G s e ∧ Along step G (step s e) es := Iff.rfl

theorem along_append (s : σ) (es fs : List ε) :
    Along step G s (es ++ fs) ↔ Along step G s es ∧ Along step G (run step s es) fs := by
  induction es generalizing s with
  | nil => exact ⟨fun h => ⟨trivial, h⟩, fun h => h.2⟩
  | cons e es ih =>
    rw [List.cons_append, along_cons, along_cons, ih, run_cons, and_assoc]

/-- A condition holds along a run exactly when it holds at every step of it. -/
theorem along_iff_split (s : σ) (es : List ε) :
    Along step G s es ↔ ∀ pre e post, es = pre ++ e :: post → G (run step s pre) e := by
  constructor
  · rintro h pre e post rfl
    exact ((along_append s pre (e :: post)).mp h).2.1
  · intro h
    induction es generalizing s with
    | nil => trivial
    | cons e es ih =>
      refine ⟨h [] e es rfl, ih (step s e) fun pre e' post hes => ?_⟩
      exact h (e :: pre) e' post (by rw [hes, List.cons_append])

instance decidableAlong [∀ s e, Decidable (G s e)] :
    ∀ s es, Decidable (Along step G s es)
  | _, [] => isTrue trivial
  | s, e :: es =>
    haveI : Decidable (Along step G (step s e) es) := decidableAlong (step s e) es
    inferInstanceAs (Decidable (G s e ∧ Along step G (step s e) es))

/-- What every step preserves, every run preserves. -/
theorem run_invariant {I : σ → Prop} (hstep : ∀ s e, I s → I (step s e)) (s : σ) (es : List ε)
    (h : I s) : I (run step s es) := by
  induction es generalizing s with
  | nil => exact h
  | cons e es ih => exact ih (step s e) (hstep s e h)

/-- What every step meeting `G` preserves, a run of such steps preserves. -/
theorem run_invariant_along {I : σ → Prop} (hstep : ∀ s e, G s e → I s → I (step s e)) (s : σ)
    (es : List ε) (hG : Along step G s es) (h : I s) : I (run step s es) := by
  induction es generalizing s with
  | nil => exact h
  | cons e es ih => exact ih (step s e) hG.2 (hstep s e hG.1 h)

/-- A condition every step meets is met along every run. -/
theorem along_of_forall (h : ∀ s e, G s e) (s : σ) (es : List ε) : Along step G s es := by
  induction es generalizing s with
  | nil => trivial
  | cons e es ih => exact ⟨h s e, ih (step s e)⟩

/-- A condition met along a run may be weakened. -/
theorem along_imp {G' : σ → ε → Prop} (h : ∀ s e, G s e → G' s e) (s : σ) (es : List ε)
    (hG : Along step G s es) : Along step G' s es := by
  induction es generalizing s with
  | nil => trivial
  | cons e es ih => exact ⟨h s e hG.1, ih (step s e) hG.2⟩

/-- A condition met along a run may be weakened step by step, using an
invariant of the run. -/
theorem along_mono {I : σ → Prop} {G' : σ → ε → Prop}
    (hstep : ∀ s e, G s e → I s → I (step s e)) (hG' : ∀ s e, G s e → I s → G' s e) (s : σ)
    (es : List ε) (hG : Along step G s es) (h : I s) : Along step G' s es := by
  induction es generalizing s with
  | nil => trivial
  | cons e es ih => exact ⟨hG' s e hG.1 h, ih (step s e) hG.2 (hstep s e hG.1 h)⟩

/-- At most one step of the run meets `G`, which sees the state before the step. -/
def AtMostOnce (step : σ → ε → σ) (G : σ → ε → Prop) : σ → List ε → Prop
  | _, [] => True
  | s, e :: es =>
    (G s e → Along step (fun s e => ¬G s e) (step s e) es) ∧ AtMostOnce step G (step s e) es

/-- What settles a state for good happens once: a step that meets `G` leads to a
state in `I`, the steps stay in it, and from it no step meets `G`. -/
theorem atMostOnce_of_settled {K : σ → ε → Prop} {I : σ → Prop}
    (hsettles : ∀ s e, G s e → I (step s e)) (hkeeps : ∀ s e, K s e → I s → I (step s e))
    (hnever : ∀ s e, I s → ¬G s e) (s : σ) (es : List ε) (hK : Along step K s es) :
    AtMostOnce step G s es := by
  induction es generalizing s with
  | nil => trivial
  | cons e es ih =>
    obtain ⟨-, hrest⟩ := hK
    refine ⟨fun hG => ?_, ih (step s e) hrest⟩
    exact along_mono hkeeps (fun s e _ hI => hnever s e hI) (step s e) es hrest (hsettles s e hG)

/-- Two step functions that keep a relation on the same events keep it along
every run. -/
theorem run_simulation {step' : τ → ε → τ} {R : σ → τ → Prop}
    (hstep : ∀ s t e, R s t → R (step s e) (step' t e)) (s : σ) (t : τ) (es : List ε)
    (h : R s t) : R (run step s es) (run step' t es) := by
  induction es generalizing s t with
  | nil => exact h
  | cons e es ih => exact ih (step s e) (step' t e) (hstep s t e h)

end TraderStack.Lib
