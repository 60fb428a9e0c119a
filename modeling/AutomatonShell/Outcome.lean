/-!
# Outcomes: what a step leaves behind, says, and stops at

Every operation of the library that can speak and can be cut short has the same shape: it leaves a
new state, it says some things in order, and it may stop before its work is done.  A stop does not
undo anything: what was changed and said before it stays.

* `Outcome` — the state left, the things said, and the reason for an early stop, if there was one.
* `Outcome.andThen` — one step after another; nothing runs after a stop.
* `Outcome.forEach` — a step for every item of a list, from left to right.
-/

namespace AutomatonShell

/-- What a step leaves behind: the state it ends in, what it said, and why it stopped early. -/
structure Outcome (σ μ φ : Type) where
  /-- The state at the end, or at the moment of the early stop. -/
  state : σ
  /-- What was said, in order. -/
  output : List μ := []
  /-- Why the step stopped early; absent when it ran to its end. -/
  failure : Option φ := none
  deriving Repr, DecidableEq

namespace Outcome

variable {σ μ φ α : Type}

/-- A step that changes nothing and says nothing. -/
def done (state : σ) : Outcome σ μ φ := { state }

/-- A step that only stops. -/
def stop (state : σ) (reason : φ) : Outcome σ μ φ := { state, failure := some reason }

/-- **One step after another.**  The second runs in the state the first left, unless the first
stopped early; what both said is kept in order. -/
def andThen (first : Outcome σ μ φ) (next : σ → Outcome σ μ φ) : Outcome σ μ φ :=
  match first.failure with
  | some _ => first
  | none =>
    let second := next first.state
    { second with output := first.output ++ second.output }

/-- **A step for every item**, from left to right, until one stops early. -/
def forEach (step : σ → α → Outcome σ μ φ) : σ → List α → Outcome σ μ φ
  | state, [] => done state
  | state, item :: rest => (step state item).andThen fun next => forEach step next rest

/-! ## Sequencing laws -/

theorem done_andThen (state : σ) (next : σ → Outcome σ μ φ) :
    (done state).andThen next = next state := by
  simp [done, andThen]

theorem andThen_done (first : Outcome σ μ φ) : first.andThen done = first := by
  obtain ⟨state, output, failure⟩ := first
  cases failure <;> simp [done, andThen]

/-- Grouping does not matter: a stop in any part skips all the parts after it. -/
theorem andThen_assoc (first : Outcome σ μ φ) (second third : σ → Outcome σ μ φ) :
    (first.andThen second).andThen third
      = first.andThen fun state => (second state).andThen third := by
  obtain ⟨state, output, failure⟩ := first
  cases failure with
  | some reason => simp [andThen]
  | none =>
    cases h : (second state).failure <;> simp [andThen, h]

/-- Going through two lists one after the other is going through their concatenation. -/
theorem forEach_append (step : σ → α → Outcome σ μ φ) (state : σ) (xs ys : List α) :
    forEach step state (xs ++ ys)
      = (forEach step state xs).andThen fun next => forEach step next ys := by
  induction xs generalizing state with
  | nil => simp [forEach, done_andThen]
  | cons x xs ih => simp only [List.cons_append, forEach, andThen_assoc, ih]

end Outcome

end AutomatonShell
