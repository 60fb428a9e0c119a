import AutomatonShell.Outcome
import Mathlib.Tactic.Common

/-!
# What sequences of steps keep and leave

Two ways of reasoning about steps in sequence.  A property of states that every step keeps is kept
by the sequence, also by one that stops early (`andThen_keeps`, `forEach_keeps`).  And a sequence of
steps none of which stops leaves what the last one leaves, and says what all of them say
(`andThen_of_failure_eq_none`).  What it leaves and says is worked out here for the commonest
sequence, items that are collected one after the other (`forEach_collect`).
-/

namespace AutomatonShell.Outcome

variable {σ μ φ α : Type} {I : σ → Prop} {first : Outcome σ μ φ} {next : σ → Outcome σ μ φ}

/-- A step that ran to its end, with what follows it written out. -/
theorem andThen_of_failure_eq_none (h : first.failure = none) :
    first.andThen next
      = { next first.state with output := first.output ++ (next first.state).output } := by
  rw [andThen, h]

/-- Nothing follows a step that stopped. -/
theorem andThen_of_failure_eq_some {reason : φ} (h : first.failure = some reason) :
    first.andThen next = first := by
  rw [andThen, h]

/-- What follows a step matters only in the state that the step leaves. -/
theorem andThen_congr {next' : σ → Outcome σ μ φ} (h : next first.state = next' first.state) :
    first.andThen next = first.andThen next' := by
  rw [andThen, andThen, h]

/-- Two steps run to their end when each of them does. -/
theorem andThen_failure_eq_none :
    (first.andThen next).failure = none ↔
      first.failure = none ∧ (next first.state).failure = none := by
  cases h : first.failure with
  | some reason => simp [andThen_of_failure_eq_some h, h]
  | none => simp [andThen_of_failure_eq_none h]

/-- A step that always runs to its end does not hide a stop, and adds none. -/
theorem andThen_failure (hnext : ∀ s, (next s).failure = none) :
    (first.andThen next).failure = first.failure := by
  cases h : first.failure with
  | some reason => rw [andThen_of_failure_eq_some h, h]
  | none => rw [andThen_of_failure_eq_none h, hnext]

/-- A property that holds after the first step and is kept by the second holds after both. -/
theorem andThen_keeps (hfirst : I first.state) (hnext : ∀ s, I s → I (next s).state) :
    I (first.andThen next).state := by
  cases h : first.failure with
  | some reason => rwa [andThen_of_failure_eq_some h]
  | none =>
    rw [andThen_of_failure_eq_none h]
    exact hnext _ hfirst

/-- **A property that every step keeps is kept by going through a list.**  By induction on the list;
it holds wherever the steps stop. -/
theorem forEach_keeps {step : σ → α → Outcome σ μ φ} {xs : List α}
    (hstep : ∀ s, ∀ x ∈ xs, I s → I (step s x).state) {s : σ} (h : I s) :
    I (forEach step s xs).state := by
  induction xs generalizing s with
  | nil => exact h
  | cons x rest ih =>
    refine andThen_keeps (hstep s x List.mem_cons_self h) fun s' h' => ?_
    exact ih (fun s y hy => hstep s y (List.mem_cons_of_mem x hy)) h'

/-- Going through a list does not stop if no step does. -/
theorem forEach_failure_eq_none {step : σ → α → Outcome σ μ φ}
    (hstep : ∀ s x, (step s x).failure = none) (s : σ) (xs : List α) :
    (forEach step s xs).failure = none := by
  induction xs generalizing s with
  | nil => rfl
  | cons x rest ih =>
    rw [forEach, andThen_failure_eq_none]
    exact ⟨hstep s x, ih _⟩

/-- **Items collected one after the other.**  An item that the collection does not hold is put into
it in silence, and one that it holds is only named.  `put` puts several items in at once, and `I` is
what an item needs to find and leaves behind. -/
theorem forEach_collect [DecidableEq α] {step : σ → α → Outcome σ μ φ} (collection : σ → List α)
    (put : σ → List α → σ) (named : α → μ) {xs : List α} (hnodup : xs.Nodup)
    (hnew : ∀ s, I s → ∀ x ∈ xs, x ∉ collection s → step s x = done (put s [x]))
    (hold : ∀ s, I s → ∀ x ∈ xs, x ∈ collection s →
      step s x = { state := s, output := [named x] })
    (hcollection : ∀ s x, collection (put s [x]) = collection s ++ [x])
    (hnil : ∀ s, put s [] = s) (hcons : ∀ s x ys, put (put s [x]) ys = put s (x :: ys))
    (hI : ∀ s x, I s → I (put s [x])) {s : σ} (h : I s) :
    forEach step s xs
      = { state := put s (xs.filter fun x => x ∉ collection s)
          output := (xs.filter fun x => x ∈ collection s).map named } := by
  induction xs generalizing s with
  | nil =>
    rw [List.filter_nil, hnil]
    rfl
  | cons x rest ih =>
    obtain ⟨hx, hrest⟩ := List.nodup_cons.1 hnodup
    have ih := fun {s} => ih (s := s) hrest
      (fun s hs y hy => hnew s hs y (List.mem_cons_of_mem x hy))
      (fun s hs y hy => hold s hs y (List.mem_cons_of_mem x hy))
    rw [forEach]
    by_cases hmem : x ∈ collection s
    · rw [hold s h x List.mem_cons_self hmem, andThen_of_failure_eq_none rfl, ih h]
      simp [hmem]
    · rw [hnew s h x List.mem_cons_self hmem, done_andThen, ih (hI s x h), hcollection, hcons]
      -- the item that was put in does not come again
      have hin : ∀ y ∈ rest, (y ∈ collection s ++ [x] ↔ y ∈ collection s) := by
        intro y hy
        have hne : y ≠ x := fun he => hx (he ▸ hy)
        simp [hne]
      have hfresh : (rest.filter fun y => y ∉ collection s ++ [x])
          = rest.filter fun y => y ∉ collection s :=
        List.filter_congr fun y hy => by simp only [hin y hy]
      have hknown : (rest.filter fun y => y ∈ collection s ++ [x])
          = rest.filter fun y => y ∈ collection s :=
        List.filter_congr fun y hy => by simp only [hin y hy]
      rw [hfresh, hknown]
      simp [hmem]

end AutomatonShell.Outcome
