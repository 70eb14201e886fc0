import Mathlib.Data.List.Basic

/-!
# Machines driven by a list of labels

A machine is a partial step function.  Every choice that is not the machine's
own (a clock reading, an answer of the environment, which thread moves next)
is part of the label, so one list of labels fixes one run.  The module states
what a run preserves, from what one step preserves, also when the steps are
only those that meet a guard.
-/

namespace Machine

variable {State Label : Type}

/-- The state reached from `start` by taking the steps that `labels` names. -/
def run
    (step : State → Label → Option State)
    (start : State)
    (labels : List Label) : Option State :=
  labels.foldlM step start

@[simp] theorem run_nil
    (step : State → Label → Option State)
    (start : State) :
    run step start [] = some start := rfl

theorem run_cons
    (step : State → Label → Option State)
    (start : State)
    (label : Label)
    (labels : List Label) :
    run step start (label :: labels) =
      (step start label).bind fun next => run step next labels := rfl

theorem run_append
    (step : State → Label → Option State)
    (start : State)
    (first second : List Label) :
    run step start (first ++ second) =
      (run step start first).bind fun middle => run step middle second := by
  unfold run
  rw [List.foldlM_append]
  rfl

/-- The states some run reaches. -/
def Reachable
    (step : State → Label → Option State)
    (start state : State) : Prop :=
  ∃ labels, run step start labels = some state

theorem Reachable.refl
    (step : State → Label → Option State)
    (state : State) :
    Reachable step state state :=
  ⟨[], rfl⟩

theorem Reachable.trans
    {step : State → Label → Option State}
    {first second third : State}
    (before : Reachable step first second)
    (after : Reachable step second third) :
    Reachable step first third := by
  obtain ⟨labels, ran⟩ := before
  obtain ⟨labels', ran'⟩ := after
  exact ⟨labels ++ labels', by rw [run_append, ran]; exact ran'⟩

theorem reachable_of_step
    {step : State → Label → Option State}
    {state next : State}
    {label : Label}
    (stepped : step state label = some next) :
    Reachable step state next :=
  ⟨[label], by rw [run_cons, stepped]; rfl⟩

/-- Every step taken on the run named by `labels` meets the guard. -/
def AllSteps
    (step : State → Label → Option State)
    (guard : State → Label → Prop) : State → List Label → Prop
  | _, [] => True
  | state, label :: labels =>
      ∀ next, step state label = some next →
        guard state label ∧ AllSteps step guard next labels

/-- Every state passed on the run named by `labels` satisfies the predicate. -/
def AllStates
    (step : State → Label → Option State)
    (good : State → Prop)
    (start : State)
    (labels : List Label) : Prop :=
  ∀ first second state, labels = first ++ second →
    run step start first = some state → good state

/-- What a guarded step preserves, a guarded run preserves. -/
theorem invariant_of_allSteps
    {step : State → Label → Option State}
    {guard : State → Label → Prop}
    {invariant : State → Prop}
    (preserved : ∀ state label next,
      invariant state → guard state label →
        step state label = some next → invariant next)
    {start last : State}
    {labels : List Label}
    (initially : invariant start)
    (guarded : AllSteps step guard start labels)
    (ran : run step start labels = some last) :
    invariant last := by
  induction labels generalizing start with
  | nil =>
      obtain rfl : start = last := by simpa using ran
      exact initially
  | cons label labels inductionHypothesis =>
      rw [run_cons, Option.bind_eq_some_iff] at ran
      obtain ⟨next, stepped, rest⟩ := ran
      obtain ⟨guardHere, guardLater⟩ := guarded next stepped
      exact inductionHypothesis
        (preserved start label next initially guardHere stepped) guardLater rest

/-- A guarded run is guarded up to any point. -/
theorem AllSteps.left
    {step : State → Label → Option State}
    {guard : State → Label → Prop}
    {start : State}
    {first second : List Label}
    (guarded : AllSteps step guard start (first ++ second)) :
    AllSteps step guard start first := by
  induction first generalizing start with
  | nil => trivial
  | cons label first inductionHypothesis =>
      intro next stepped
      obtain ⟨guardHere, guardLater⟩ := guarded next stepped
      exact ⟨guardHere, inductionHypothesis guardLater⟩

/-- A guarded run that goes on guarded. -/
theorem AllSteps.append
    {step : State → Label → Option State}
    {guard : State → Label → Prop}
    {start : State}
    {first second : List Label}
    (before : AllSteps step guard start first)
    (after : ∀ middle, run step start first = some middle →
      AllSteps step guard middle second) :
    AllSteps step guard start (first ++ second) := by
  induction first generalizing start with
  | nil => exact after start rfl
  | cons label first inductionHypothesis =>
      intro next stepped
      obtain ⟨guardHere, guardLater⟩ := before next stepped
      refine ⟨guardHere, inductionHypothesis guardLater fun middle reached => ?_⟩
      exact after middle (by rw [run_cons, stepped]; exact reached)

/-- The states that some guarded run reaches. -/
def ReachableBy
    (step : State → Label → Option State)
    (guard : State → Label → Prop)
    (start state : State) : Prop :=
  ∃ labels, AllSteps step guard start labels ∧ run step start labels = some state

theorem ReachableBy.refl
    (step : State → Label → Option State)
    (guard : State → Label → Prop)
    (state : State) :
    ReachableBy step guard state state :=
  ⟨[], trivial, rfl⟩

theorem ReachableBy.trans
    {step : State → Label → Option State}
    {guard : State → Label → Prop}
    {first second third : State}
    (before : ReachableBy step guard first second)
    (after : ReachableBy step guard second third) :
    ReachableBy step guard first third := by
  obtain ⟨labels, guarded, ran⟩ := before
  obtain ⟨labels', guarded', ran'⟩ := after
  refine ⟨labels ++ labels', guarded.append fun middle reached => ?_, ?_⟩
  · obtain rfl := Option.some.inj (ran.symm.trans reached)
    exact guarded'
  · rw [run_append, ran]
    exact ran'

theorem reachableBy_of_step
    {step : State → Label → Option State}
    {guard : State → Label → Prop}
    {state next : State}
    {label : Label}
    (guarded : guard state label)
    (stepped : step state label = some next) :
    ReachableBy step guard state next :=
  ⟨[label], fun _ _ => ⟨guarded, trivial⟩, by rw [run_cons, stepped]; rfl⟩

/-- A guarded run stays inside `good` when the guard keeps an invariant that
implies it. -/
theorem allStates_of_allSteps
    {step : State → Label → Option State}
    {guard : State → Label → Prop}
    {invariant good : State → Prop}
    (sound : ∀ state, invariant state → good state)
    (preserved : ∀ state label next,
      invariant state → guard state label →
        step state label = some next → invariant next)
    {start : State}
    {labels : List Label}
    (initially : invariant start)
    (guarded : AllSteps step guard start labels) :
    AllStates step good start labels := by
  rintro first second state rfl reached
  exact sound state (invariant_of_allSteps preserved initially guarded.left reached)

/-- Two guards of a run are one. -/
theorem AllSteps.and
    {step : State → Label → Option State}
    {guard other : State → Label → Prop}
    {start : State}
    {labels : List Label}
    (guarded : AllSteps step guard start labels)
    (guarded' : AllSteps step other start labels) :
    AllSteps step (fun state label => guard state label ∧ other state label) start labels := by
  induction labels generalizing start with
  | nil => trivial
  | cons label labels inductionHypothesis =>
      intro next stepped
      obtain ⟨guardHere, guardLater⟩ := guarded next stepped
      obtain ⟨otherHere, otherLater⟩ := guarded' next stepped
      exact ⟨⟨guardHere, otherHere⟩, inductionHypothesis guardLater otherLater⟩

/-- On a guarded run, whatever the guard implies by an invariant that it keeps
holds of every step. -/
theorem AllSteps.imp
    {step : State → Label → Option State}
    {guard conclusion : State → Label → Prop}
    {invariant : State → Prop}
    (implies : ∀ state label, invariant state → guard state label → conclusion state label)
    (preserved : ∀ state label next,
      invariant state → guard state label →
        step state label = some next → invariant next)
    {start : State}
    {labels : List Label}
    (initially : invariant start)
    (guarded : AllSteps step guard start labels) :
    AllSteps step conclusion start labels := by
  induction labels generalizing start with
  | nil => trivial
  | cons label labels inductionHypothesis =>
      intro next stepped
      obtain ⟨guardHere, guardLater⟩ := guarded next stepped
      exact ⟨implies start label initially guardHere,
        inductionHypothesis (preserved start label next initially guardHere stepped) guardLater⟩

/-- A guard that always holds guards every run. -/
theorem allSteps_of_forall
    {step : State → Label → Option State}
    {guard : State → Label → Prop}
    (always : ∀ state label, guard state label)
    (start : State)
    (labels : List Label) :
    AllSteps step guard start labels := by
  induction labels generalizing start with
  | nil => trivial
  | cons label labels inductionHypothesis =>
      exact fun next _ => ⟨always start label, inductionHypothesis next⟩

theorem allSteps_true
    (step : State → Label → Option State)
    (start : State)
    (labels : List Label) :
    AllSteps step (fun _ _ => True) start labels :=
  allSteps_of_forall (fun _ _ => trivial) start labels

/-- Whether a run is guarded can be computed. -/
instance decidableAllSteps
    (step : State → Label → Option State)
    (guard : State → Label → Prop)
    [∀ state label, Decidable (guard state label)] :
    (start : State) → (labels : List Label) → Decidable (AllSteps step guard start labels)
  | _, [] => .isTrue trivial
  | start, label :: labels =>
      match stepped : step start label with
      | none => .isTrue fun _ moved => nomatch stepped.symm.trans moved
      | some next =>
          have := decidableAllSteps step guard next labels
          decidable_of_iff (guard start label ∧ AllSteps step guard next labels)
            ⟨fun guarded _ moved => Option.some.inj (stepped.symm.trans moved) ▸ guarded,
              fun guarded => guarded next stepped⟩

/-- What one step preserves holds in every reachable state. -/
theorem invariant_of_reachable
    {step : State → Label → Option State}
    {invariant : State → Prop}
    (preserved : ∀ state label next,
      invariant state → step state label = some next → invariant next)
    {start last : State}
    (initially : invariant start)
    (reachable : Reachable step start last) :
    invariant last := by
  obtain ⟨labels, ran⟩ := reachable
  exact invariant_of_allSteps
    (fun state label next holds _ => preserved state label next holds)
    initially (allSteps_true step start labels) ran

/-- Where each step of one machine, from the states of an invariant, is matched by steps of
another, each reachable state of the first is related to one of the second. -/
theorem reachable_of_simulates
    {State' Label' : Type}
    {step : State → Label → Option State}
    {step' : State' → Label' → Option State'}
    {invariant : State → Prop}
    {relates : State → State' → Prop}
    (preserved : ∀ state label next,
      invariant state → step state label = some next → invariant next)
    (simulates : ∀ state label next state', invariant state → relates state state' →
      step state label = some next →
        ∃ next', Reachable step' state' next' ∧ relates next next')
    {start last : State}
    {start' : State'}
    (initially : invariant start)
    (related : relates start start')
    (reachable : Reachable step start last) :
    ∃ last', Reachable step' start' last' ∧ relates last last' := by
  obtain ⟨labels, ran⟩ := reachable
  induction labels generalizing start start' with
  | nil =>
      obtain rfl : start = last := by simpa using ran
      exact ⟨start', .refl step' start', related⟩
  | cons label labels inductionHypothesis =>
      rw [run_cons, Option.bind_eq_some_iff] at ran
      obtain ⟨next, stepped, rest⟩ := ran
      obtain ⟨next', before, relatedNext⟩ := simulates start label next start' initially related
        stepped
      obtain ⟨last', after, relatedLast⟩ := inductionHypothesis
        (preserved start label next initially stepped) relatedNext rest
      exact ⟨last', before.trans after, relatedLast⟩

/-- A guard that is sound and complete for one step from the invariant is the
exact condition for a whole run to stay inside `good`. -/
theorem allStates_iff_allSteps
    {step : State → Label → Option State}
    {guard : State → Label → Prop}
    {invariant good : State → Prop}
    (sound : ∀ state, invariant state → good state)
    (preserved : ∀ state label next,
      invariant state → guard state label →
        step state label = some next → invariant next)
    (complete : ∀ state label next,
      invariant state → step state label = some next →
        good next → guard state label)
    {start : State}
    (initially : invariant start)
    (labels : List Label) :
    AllStates step good start labels ↔ AllSteps step guard start labels := by
  induction labels generalizing start with
  | nil =>
      refine ⟨fun _ => trivial, fun _ first second state split reached => ?_⟩
      obtain ⟨rfl, rfl⟩ := List.append_eq_nil_iff.mp split.symm
      obtain rfl : start = state := by simpa using reached
      exact sound start initially
  | cons label labels inductionHypothesis =>
      constructor
      · intro allGood next stepped
        have goodNext : good next :=
          allGood [label] labels next rfl (by simp [run_cons, stepped])
        have guarded := complete start label next initially stepped goodNext
        refine ⟨guarded, (inductionHypothesis
          (preserved start label next initially guarded stepped)).mp ?_⟩
        intro first second state split reached
        exact allGood (label :: first) second state (by rw [split]; rfl)
          (by rw [run_cons, stepped]; exact reached)
      · intro guarded first second state split reached
        cases first with
        | nil =>
            obtain rfl : start = state := by simpa using reached
            exact sound start initially
        | cons head first =>
            obtain ⟨rfl, rfl⟩ := List.cons.inj split
            rw [run_cons, Option.bind_eq_some_iff] at reached
            obtain ⟨next, stepped, rest⟩ := reached
            obtain ⟨guardHere, guardLater⟩ := guarded next stepped
            exact (inductionHypothesis
              (preserved start label next initially guardHere stepped)).mpr
              guardLater first second state rfl rest

end Machine
