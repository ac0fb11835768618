import Mathlib.Data.List.Basic

/-!
# Runs of a transition function

A system is a partial function from a state and an action to a result and a
next state.  A `Run` is a sequence of transitions from the initial state,
each allowed in the state in which it is taken, with all states and results
recorded.  A property of states that every allowed transition keeps holds at
the end of every run; a property of states that no allowed transition ends
holds at the end of every run that has made it true.
-/

namespace Xpmem.Foundation

universe u v w

/-- One transition that was taken. -/
structure Event (State : Type u) (Action : Type v) (Result : Type w) where
  pre : State
  action : Action
  result : Result
  post : State

variable {State : Type u} {Action : Type v} {Result : Type w}

/-- The runs from `initial` whose transitions are all allowed. -/
inductive Run
    (step : State → Action → Option (State × Result))
    (initial : State)
    (allowed : State → Action → Prop) :
    List (Event State Action Result) → State → Prop where
  | start : Run step initial allowed [] initial
  | next {events : List (Event State Action Result)} {pre post : State}
      {action : Action} {result : Result}
      (run : Run step initial allowed events pre)
      (permitted : allowed pre action)
      (taken : step pre action = some (post, result)) :
      Run step initial allowed
        (events ++ [⟨pre, action, result, post⟩]) post

namespace Run

variable
    {step : State → Action → Option (State × Result)}
    {initial : State}
    {allowed : State → Action → Prop}
    {events : List (Event State Action Result)} {state : State}

/-- What holds initially and is kept by every allowed step always holds. -/
theorem invariant (property : State → Prop)
    (run : Run step initial allowed events state)
    (holds : property initial)
    (kept : ∀ pre action post result, property pre → allowed pre action →
      step pre action = some (post, result) → property post) :
    property state := by
  induction run with
  | start => exact holds
  | next _ permitted taken induction =>
      exact kept _ _ _ _ induction permitted taken

/-- A run stays a run when more is allowed. -/
theorem mono {more : State → Action → Prop}
    (run : Run step initial allowed events state)
    (weaker : ∀ pre action, allowed pre action → more pre action) :
    Run step initial more events state := by
  induction run with
  | start => exact .start
  | next _ permitted taken induction =>
      exact .next induction (weaker _ _ permitted) taken

/-- Every event of a run is an allowed step taken at the end of a run. -/
theorem event_of_mem {event : Event State Action Result}
    (run : Run step initial allowed events state)
    (member : event ∈ events) :
    (∃ before, Run step initial allowed before event.pre) ∧
      allowed event.pre event.action ∧
      step event.pre event.action = some (event.post, event.result) := by
  induction run with
  | start => cases member
  | next run permitted taken induction =>
      rcases List.mem_append.mp member with earlier | last
      · exact induction earlier
      · rw [List.mem_singleton] at last
        subst event
        exact ⟨⟨_, run⟩, permitted, taken⟩

/--
What holds after an event and is kept by every allowed step taken in a run
holds at the end.
-/
theorem persists (property : State → Prop)
    {event : Event State Action Result}
    (run : Run step initial allowed events state)
    (member : event ∈ events)
    (holds : property event.post)
    (kept : ∀ before pre action post result,
      Run step initial allowed before pre → property pre →
      allowed pre action → step pre action = some (post, result) →
      property post) :
    property state := by
  induction run with
  | start => cases member
  | next run permitted taken induction =>
      rcases List.mem_append.mp member with earlier | last
      · exact kept _ _ _ _ _ run (induction earlier) permitted taken
      · rw [List.mem_singleton] at last
        subst event
        exact holds

end Run

/-! ## Running a list of actions -/

/-- The events of taking the actions in order. -/
def execute (step : State → Action → Option (State × Result)) :
    State → List Action → Option (List (Event State Action Result) × State)
  | state, [] => some ([], state)
  | state, action :: actions =>
      match step state action with
      | none => none
      | some (next, result) =>
          (execute step next actions).map fun rest =>
            (⟨state, action, result, next⟩ :: rest.1, rest.2)

variable
    {step : State → Action → Option (State × Result)}
    {initial : State}
    {allowed : State → Action → Prop}

/-- Actions taken after a run, each allowed where it is taken, prolong it. -/
theorem Run.append_execute
    {events more : List (Event State Action Result)}
    {state final : State} {actions : List Action}
    (run : Run step initial allowed events state)
    (executed : execute step state actions = some (more, final))
    (permitted : ∀ event ∈ more, allowed event.pre event.action) :
    Run step initial allowed (events ++ more) final := by
  induction actions generalizing events more state with
  | nil =>
      simp only [execute, Option.some.injEq, Prod.mk.injEq] at executed
      obtain ⟨rfl, rfl⟩ := executed
      simpa using run
  | cons action actions induction =>
      simp only [execute] at executed
      split at executed
      · cases executed
      next next result taken =>
        simp only [Option.map_eq_some_iff, Prod.mk.injEq] at executed
        obtain ⟨⟨rest, last⟩, remaining, rfl, rfl⟩ := executed
        have first := run.next
          (permitted _ List.mem_cons_self) taken
        simpa using induction first remaining fun event member =>
          permitted event (List.mem_cons_of_mem _ member)

/-- A run to show, by taking its actions and checking what they give. -/
theorem exists_run
    (step : State → Action → Option (State × Result))
    (initial : State)
    (allowed : State → Action → Prop)
    [∀ state action, Decidable (allowed state action)]
    (actions : List Action)
    (goal : List (Event State Action Result) → State → Prop)
    [∀ events state, Decidable (goal events state)]
    (checked : (execute step initial actions).any (fun done =>
      done.1.all (fun event => decide (allowed event.pre event.action)) &&
        decide (goal done.1 done.2)) = true) :
    ∃ events state, Run step initial allowed events state ∧
      goal events state := by
  rw [Option.any_eq_true] at checked
  obtain ⟨⟨events, state⟩, executed, passed⟩ := checked
  simp only [Bool.and_eq_true, List.all_eq_true, decide_eq_true_eq] at passed
  exact ⟨events, state, Run.start.append_execute executed passed.1, passed.2⟩

end Xpmem.Foundation
