import AutomatonShell.Proofs.Outcomes
import Mathlib.Data.List.Forall2

/-!
# Two runs side by side

Two sequences of steps that run to their ends and keep up with each other: the states they pass
through are related, and so is what they say, message by message.

* `Outcome.Agree` — two steps that keep up with each other.
* **`Agree.andThen`**, **`Agree.forEach`** — sequences of them.
* `Outcome.mapState` — the same step seen in other states; `andThen_mapState`, `forEach_mapState` —
  sequences of such steps, also ones that stop early.
-/

namespace AutomatonShell.Outcome

variable {σ σ' μ μ' φ φ' α α' : Type} {R : σ → σ' → Prop} {M : μ → μ' → Prop}

/-- Two steps that run to their ends, leave related states and say related things. -/
structure Agree (R : σ → σ' → Prop) (M : μ → μ' → Prop) (r : Outcome σ μ φ)
    (r' : Outcome σ' μ' φ') : Prop where
  state : R r.state r'.state
  output : List.Forall₂ M r.output r'.output
  completed : r.failure = none
  completed' : r'.failure = none

lemma agree_done {s : σ} {s' : σ'} (h : R s s') :
    Agree R M (done s : Outcome σ μ φ) (done s' : Outcome σ' μ' φ') :=
  ⟨h, .nil, rfl, rfl⟩

lemma Agree.andThen {first : Outcome σ μ φ} {first' : Outcome σ' μ' φ'}
    {next : σ → Outcome σ μ φ} {next' : σ' → Outcome σ' μ' φ'} (hfirst : Agree R M first first')
    (hnext : R first.state first'.state → Agree R M (next first.state) (next' first'.state)) :
    Agree R M (first.andThen next) (first'.andThen next') := by
  have hrest := hnext hfirst.state
  rw [andThen_of_failure_eq_none hfirst.completed, andThen_of_failure_eq_none hfirst.completed']
  exact ⟨hrest.state, List.rel_append hfirst.output hrest.output, hrest.completed,
    hrest.completed'⟩

/-- **Steps for the items of two lists** keep up with each other if they do so item by item. -/
lemma Agree.forEach {P : α → α' → Prop} {step : σ → α → Outcome σ μ φ}
    {step' : σ' → α' → Outcome σ' μ' φ'}
    (hstep : ∀ s s' x x', R s s' → P x x' → Agree R M (step s x) (step' s' x')) {s : σ} {s' : σ'}
    (h : R s s') {xs : List α} {xs' : List α'} (hxs : List.Forall₂ P xs xs') :
    Agree R M (Outcome.forEach step s xs) (Outcome.forEach step' s' xs') := by
  induction hxs generalizing s s' with
  | nil => exact agree_done h
  | cons hx _ ih => exact (hstep _ _ _ _ h hx).andThen fun h => ih h

/-! ## The same run in other states -/

/-- A step that leaves another state, but says and stops at the same. -/
def mapState (f : σ → σ') (r : Outcome σ μ φ) : Outcome σ' μ φ :=
  ⟨f r.state, r.output, r.failure⟩

section

variable {f : σ → σ'}

lemma andThen_mapState {first : Outcome σ μ φ} {next : σ → Outcome σ μ φ}
    (next' : σ' → Outcome σ' μ φ)
    (h : first.failure = none → next' (f first.state) = (next first.state).mapState f) :
    (first.mapState f).andThen next' = (first.andThen next).mapState f := by
  obtain ⟨state, output, _ | reason⟩ := first
  · have hnext := h rfl
    simp only [andThen, mapState] at hnext ⊢
    rw [hnext]
  · rfl

lemma forEach_mapState {step : σ → α → Outcome σ μ φ} {step' : σ' → α → Outcome σ' μ φ}
    (h : ∀ s x, step' (f s) x = (step s x).mapState f) (s : σ) (xs : List α) :
    forEach step' (f s) xs = (forEach step s xs).mapState f := by
  induction xs generalizing s with
  | nil => rfl
  | cons x rest ih =>
    rw [forEach, forEach, h]
    exact andThen_mapState _ fun _ => ih _

end

end AutomatonShell.Outcome
