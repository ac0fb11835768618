import Mathlib.Data.Option.Basic

/-!
# Postconditions of partial computations

A computation that may not return is an `Option`.  `Always result post` says
that what it returns, if it returns, satisfies the postcondition.  There is
one rule for each way in which such computations are composed, so that a
proof about a computation follows its text.  `Surely result post` says also
that it returns.
-/

namespace Xpmem.Foundation

universe u v w

variable {α : Type u} {β : Type v} {γ : Type w}

/-- If the computation returns, its value satisfies the postcondition. -/
def Always (result : Option α) (post : α → Prop) : Prop :=
  ∀ value, result = some value → post value

namespace Always

variable {result : Option α} {post other : α → Prop} {value : α}

theorem of_eq (always : Always result post)
    (returned : result = some value) : post value :=
  always value returned

theorem none : Always (none : Option α) post := by
  intro value returned
  cases returned

theorem some (holds : post value) : Always (some value) post := by
  intro final returned
  cases returned
  exact holds

theorem mono (always : Always result other)
    (weaker : ∀ value, other value → post value) : Always result post :=
  fun value returned => weaker value (always value returned)

theorem and (always : Always result post) (also : Always result other) :
    Always result fun value => post value ∧ other value :=
  fun value returned => ⟨always value returned, also value returned⟩

theorem map {next : α → β} {post : β → Prop}
    (always : Always result fun value => post (next value)) :
    Always (result.map next) post := by
  intro final returned
  obtain ⟨value, found, rfl⟩ := Option.map_eq_some_iff.mp returned
  exact always value found

theorem bind {next : α → Option β} {post : β → Prop}
    (always : Always result fun value => Always (next value) post) :
    Always (result.bind next) post := by
  intro final returned
  obtain ⟨value, found, rest⟩ := Option.bind_eq_some_iff.mp returned
  exact always value found final rest

/-- A last step that always returns may be looked at on its own. -/
theorem bind_map {next : α → Option β} {last : β → γ} {post : γ → Prop}
    (always : Always (result.bind next) fun value => post (last value)) :
    Always (result.bind fun value => (next value).map last) post := by
  refine bind fun value found => map fun final returned => ?_
  exact always final (by rw [found, Option.bind_some, returned])

/-- What every visit keeps holds after all visits. -/
theorem foldlM {list : List β} {visit : α → β → Option α}
    (holds : post value)
    (kept : ∀ pre, ∀ element ∈ list, post pre →
      Always (visit pre element) post) :
    Always (list.foldlM visit value) post := by
  induction list generalizing value with
  | nil => exact some holds
  | cons head tail induction =>
      rw [List.foldlM_cons]
      refine bind fun next visited => ?_
      refine induction ?_ fun pre element member =>
        kept pre element (List.mem_cons_of_mem _ member)
      exact kept value head List.mem_cons_self holds next visited

/-- What a visit does for its element, and no later visit undoes, is done. -/
theorem foldlM_each {list : List β} {visit : α → β → Option α}
    {done : α → β → Prop} (holds : post value)
    (kept : ∀ pre, ∀ element ∈ list, post pre →
      Always (visit pre element) fun next =>
        post next ∧ done next element ∧
          ∀ other, done pre other → done next other) :
    Always (list.foldlM visit value) fun final =>
      post final ∧ (∀ element ∈ list, done final element) ∧
        ∀ other, done value other → done final other := by
  induction list generalizing value with
  | nil => exact some ⟨holds, by simp, fun _ => id⟩
  | cons head tail induction =>
      rw [List.foldlM_cons]
      refine bind fun next visited => ?_
      obtain ⟨nextHolds, headDone, before⟩ :=
        kept value head List.mem_cons_self holds next visited
      refine (induction nextHolds fun pre element member =>
        kept pre element (List.mem_cons_of_mem _ member)).mono ?_
      rintro final ⟨finalHolds, tailDone, after⟩
      refine ⟨finalHolds, ?_, fun other earlier =>
        after other (before other earlier)⟩
      intro element member
      rcases List.mem_cons.mp member with equal | later
      · subst equal
        exact after element headDone
      · exact tailDone element later

end Always

/-- The computation returns, and its value satisfies the postcondition. -/
def Surely (result : Option α) (post : α → Prop) : Prop :=
  ∃ value, result = some value ∧ post value

namespace Surely

variable {result : Option α} {post other : α → Prop} {value : α}

theorem some (holds : post value) : Surely (some value) post :=
  ⟨value, rfl, holds⟩

theorem always (surely : Surely result post) : Always result post := by
  intro value returned
  obtain ⟨same, found, holds⟩ := surely
  cases returned.symm.trans found
  exact holds

theorem mono (surely : Surely result other)
    (weaker : ∀ value, other value → post value) : Surely result post := by
  obtain ⟨value, found, holds⟩ := surely
  exact ⟨value, found, weaker value holds⟩

theorem map {next : α → β} {post : β → Prop}
    (surely : Surely result fun value => post (next value)) :
    Surely (result.map next) post := by
  obtain ⟨value, found, holds⟩ := surely
  exact ⟨next value, by rw [found, Option.map_some], holds⟩

theorem bind {next : α → Option β} {post : β → Prop}
    (surely : Surely result fun value => Surely (next value) post) :
    Surely (result.bind next) post := by
  obtain ⟨value, found, final, rest, holds⟩ := surely
  exact ⟨final, by rw [found, Option.bind_some, rest], holds⟩

/-- A last step that always returns may be looked at on its own. -/
theorem bind_map {next : α → Option β} {last : β → γ} {post : γ → Prop}
    (surely : Surely (result.bind next) fun value => post (last value)) :
    Surely (result.bind fun value => (next value).map last) post := by
  obtain ⟨final, returned, holds⟩ := surely
  obtain ⟨value, found, rest⟩ := Option.bind_eq_some_iff.mp returned
  refine ⟨last final, ?_, holds⟩
  rw [found, Option.bind_some, rest, Option.map_some]

/-- What a visit does for its element, and no later visit undoes, is done. -/
theorem foldlM_each {list : List β} {visit : α → β → Option α}
    {done : α → β → Prop} (holds : post value)
    (kept : ∀ pre, ∀ element ∈ list, post pre →
      Surely (visit pre element) fun next =>
        post next ∧ done next element ∧
          ∀ other, done pre other → done next other) :
    Surely (list.foldlM visit value) fun final =>
      post final ∧ ∀ element ∈ list, done final element := by
  have always := Always.foldlM_each holds fun pre element member held =>
    (kept pre element member held).always
  suffices returns : ∃ final, list.foldlM visit value = Option.some final by
    obtain ⟨final, returned⟩ := returns
    obtain ⟨kept, each, _⟩ := always final returned
    exact ⟨final, returned, kept, each⟩
  clear always
  induction list generalizing value with
  | nil => exact ⟨value, rfl⟩
  | cons head tail induction =>
      obtain ⟨next, visited, nextHolds, _⟩ :=
        kept value head List.mem_cons_self holds
      obtain ⟨final, returned⟩ :=
        induction nextHolds fun pre element member =>
          kept pre element (List.mem_cons_of_mem _ member)
      refine ⟨final, ?_⟩
      rw [List.foldlM_cons, visited]
      exact returned

end Surely

/-- The computation returns. -/
def Returns (result : Option α) : Prop :=
  ∃ value, result = some value

namespace Returns

variable {result : Option α} {post : α → Prop} {value : α}

theorem some : Returns (some value) :=
  ⟨value, rfl⟩

theorem surely (returns : Returns result) (always : Always result post) :
    Surely result post := by
  obtain ⟨value, returned⟩ := returns
  exact ⟨value, returned, always value returned⟩

theorem map {next : α → β} (returns : Returns result) :
    Returns (result.map next) := by
  obtain ⟨value, rfl⟩ := returns
  exact some

/-- The rest returns on every value of the first part. -/
theorem bind {next : α → Option β} (returns : Returns result)
    (rest : Always result fun value => Returns (next value)) :
    Returns (result.bind next) := by
  obtain ⟨value, rfl⟩ := returns
  exact rest value rfl

theorem foldlM {list : List β} {visit : α → β → Option α}
    (holds : post value)
    (each : ∀ pre, ∀ element ∈ list, post pre →
      Surely (visit pre element) post) :
    Returns (list.foldlM visit value) := by
  have visited : Surely (list.foldlM visit value) fun final =>
      post final ∧ ∀ element ∈ list, True :=
    .foldlM_each holds fun pre element member before =>
      (each pre element member before).mono
        fun _ after => ⟨after, trivial, fun _ => id⟩
  obtain ⟨final, returned, _⟩ := visited
  exact ⟨final, returned⟩

end Returns

end Xpmem.Foundation
