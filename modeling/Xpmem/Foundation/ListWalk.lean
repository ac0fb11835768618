import Xpmem.Foundation.LinkedList
import Mathlib.Data.Prod.Lex
import Mathlib.Order.WellFounded

/-!
# Walks that let go of their list

A walk goes through a linked list under a lock.  At an element that passes
its filter it drops the lock, and others change the list in that gap.  When
the walk has the lock again it looks whether its element is still linked; if
not, it puts its cursor on the head of the list, so that it starts over.

The changes of all gaps are given in advance, as one finite list of changes
for each gap.
-/

namespace Xpmem.Foundation

universe u v

/--
A step function reaches a state of some kind when each state before it has a
rank that the step lowers.
-/
theorem exists_iterate_of_rank {σ : Type u} {ρ : Type v} [Preorder ρ]
    [WellFoundedLT ρ] {step : σ → σ} {done : σ → Prop}
    {rank : σ → ρ → Prop}
    (lowers : ∀ state value, rank state value → ¬ done state →
      ∃ less < value, rank (step state) less)
    {value : ρ} {state : σ} (ranked : rank state value) :
    ∃ rounds, done (step^[rounds] state) := by
  induction value using WellFoundedLT.induction generalizing state with
  | ind value induction =>
      by_cases finished : done state
      · exact ⟨0, finished⟩
      · obtain ⟨less, below, next⟩ := lowers state value ranked finished
        obtain ⟨rounds, reached⟩ := induction less below next
        exact ⟨rounds + 1, reached⟩

variable {α : Type u} [DecidableEq α]

/-- What others do in a gap. -/
inductive ListChange (α : Type u) where
  | insert (element : α)
  | remove (element : α)
  /-- Decide whether the filter lets an element pass. -/
  | mark (element : α) (passes : Bool)

/-- Where a walk is. -/
inductive WalkPlace (α : Type u) where
  /-- It holds the lock and is about to go on from a node. -/
  | advance (cursor : Option α)
  /-- It has dropped the lock at an element it has a reference to. -/
  | gap (held : α)
  | done
  deriving DecidableEq

structure ListWalk (α : Type u) where
  links : Links α
  passes : α → Bool
  place : WalkPlace α
  /-- The changes of the gaps to come, and those left of the present one. -/
  gaps : List (List (ListChange α))
  visited : List α

namespace ListWalk

/-- A walk before its first step. -/
def start (links : Links α) (passes : α → Bool)
    (gaps : List (List (ListChange α))) : ListWalk α where
  links := links
  passes := passes
  place := .advance none
  gaps := gaps
  visited := []

def change (walk : ListWalk α) : ListChange α → ListWalk α
  | .insert element =>
      { walk with links := walk.links.listAddTail element }
  | .remove element =>
      { walk with links := walk.links.listDelInit element }
  | .mark element passes =>
      { walk with passes := Function.update walk.passes element passes }

/-- One step of the walk, or one change in a gap. -/
def step (walk : ListWalk α) : ListWalk α :=
  match walk.place with
  | .advance cursor =>
      match walk.links.next cursor with
      | none => { walk with place := .done }
      | some element =>
          if walk.passes element then
            { walk with
              place := .gap element
              visited := walk.visited ++ [element] }
          else { walk with place := .advance (some element) }
  | .gap held =>
      match walk.gaps with
      | (change :: more) :: later =>
          { walk.change change with gaps := more :: later }
      | gaps =>
          { walk with
            gaps := gaps.tail
            place := .advance
              (if walk.links.listEmpty held then none else some held) }
  | .done => walk

/-- The walk after some rounds. -/
def after (walk : ListWalk α) (rounds : Nat) : ListWalk α :=
  step^[rounds] walk

theorem after_zero (walk : ListWalk α) : walk.after 0 = walk :=
  rfl

theorem after_succ (walk : ListWalk α) (rounds : Nat) :
    walk.after (rounds + 1) = (walk.after rounds).step :=
  Function.iterate_succ_apply' step rounds walk

/-- The change that comes next. -/
def upcoming (walk : ListWalk α) : Option (ListChange α) :=
  walk.gaps.head?.bind List.head?

/--
Others insert only an element that is not on the list, and not the one the
walk has a reference to.
-/
def Proper (walk : ListWalk α) : Prop :=
  match walk.place, walk.upcoming with
  | .gap held, some (.insert element) =>
      walk.links.listEmpty element = true ∧ element ≠ held
  | _, _ => True

instance (walk : ListWalk α) : Decidable walk.Proper := by
  unfold Proper
  split <;> infer_instance

/-! ## The list a walk is on -/

/-- The node from which a walk is to go on. -/
def cursor (walk : ListWalk α) : Option α :=
  match walk.place with
  | .advance cursor => cursor
  | .gap held => some held
  | .done => none

/-- The links are those of a list, and a walk under the lock is on it. -/
structure On (walk : ListWalk α) (list : List α) : Prop where
  holds : walk.links.Holds list
  linked {cursor : Option α} (place : walk.place = .advance cursor) :
    ∀ element ∈ cursor, element ∈ list

omit [DecidableEq α] in
theorem on_start {links : Links α} {list : List α}
    (holds : links.Holds list) (passes : α → Bool)
    (gaps : List (List (ListChange α))) :
    (start links passes gaps).On list where
  holds := holds
  linked place := by
    cases place
    nofun

variable {walk : ListWalk α} {list : List α}

/-- What a change does to the list. -/
theorem On.change (on : walk.On list) (proper : walk.Proper) {held : α}
    (place : walk.place = .gap held) {change : ListChange α}
    (upcoming : walk.upcoming = some change) :
    ∃ list', (walk.change change).links.Holds list' ∧
      ∀ element ∈ rest (some held) list, element ∈ list' →
        element ∈ rest (some held) list' := by
  cases change with
  | insert element =>
      simp only [Proper, place, upcoming] at proper
      obtain ⟨absent, other⟩ := proper
      rw [on.holds.listEmpty_iff] at absent
      refine ⟨list ++ [element], on.holds.listAddTail absent, ?_⟩
      intro old ahead _
      exact mem_rest_append on.holds.nodup other.symm ahead
  | remove element =>
      refine ⟨list.erase element, on.holds.listDelInit element, ?_⟩
      intro old ahead member
      exact mem_rest_erase on.holds.nodup ahead member
  | mark element passes =>
      exact ⟨list, on.holds, fun _ ahead _ => ahead⟩

/-- The changes that are still to come. -/
def pending (walk : ListWalk α) : Nat :=
  walk.gaps.flatten.length

/-- The steps a walk takes to the end of its list when nothing changes. -/
def work (walk : ListWalk α) (list : List α) : Nat :=
  match walk.place with
  | .advance cursor => 2 * (rest cursor list).length + 1
  | .gap held => 2 * (rest (some held) list).length + 2
  | .done => 0

/-- A changing element that stays on the list and passes is seen or ahead. -/
def Ahead (walk : ListWalk α) (list : List α) (element : α) : Prop :=
  element ∈ walk.visited ∨
    (walk.place ≠ .done ∧ element ∈ rest walk.cursor list)

/-- What one step does. -/
structure Moves (walk : ListWalk α) (list list' : List α) : Prop where
  on : walk.step.On list'
  lowers : walk.place ≠ .done →
    toLex (walk.step.pending, walk.step.work list') <
      toLex (walk.pending, walk.work list)
  ahead {element : α} (ahead : walk.Ahead list element)
    (passes : walk.passes element = true) (stays : element ∈ list') :
    walk.step.Ahead list' element

theorem toLex_lt_of_work {changes work less : Nat} (below : less < work) :
    toLex (changes, less) < toLex (changes, work) :=
  Prod.Lex.toLex_lt_toLex.mpr (.inr ⟨rfl, below⟩)

/-- A step under the lock: to the end, past an element, or to a gap. -/
theorem moves_advance (on : walk.On list) {cursor : Option α}
    (place : walk.place = .advance cursor) : walk.Moves list list := by
  have next := on.holds.next_eq (on.linked place)
  cases left : rest cursor list with
  | nil =>
      rw [left, List.head?_nil] at next
      have moved : walk.step = { walk with place := .done } := by
        simp only [step, place, next]
      refine ⟨?_, fun _ => ?_, ?_⟩
      · rw [moved]
        exact ⟨on.holds, nofun⟩
      · rw [moved]
        apply toLex_lt_of_work
        simp [work, place]
      · rintro element (seen | ⟨_, ahead⟩) _ _
        · exact .inl (by rw [moved]; exact seen)
        · rw [ListWalk.cursor, place] at ahead
          simp only [left, List.not_mem_nil] at ahead
  | cons element later =>
      rw [left, List.head?_cons] at next
      have member : element ∈ list :=
        mem_of_mem_rest (left ▸ List.mem_cons_self)
      have onward : rest (some element) list = later :=
        rest_of_rest_eq_cons on.holds.nodup left
      have here {other : α} (ahead : other ∈ rest walk.cursor list) :
          other = element ∨ other ∈ later := by
        rw [ListWalk.cursor, place] at ahead
        simp only [left] at ahead
        exact List.mem_cons.mp ahead
      by_cases passes : walk.passes element
      · have moved : walk.step = { walk with
            place := .gap element
            visited := walk.visited ++ [element] } := by
          simp only [step, place, next, if_pos passes]
        refine ⟨?_, fun _ => ?_, ?_⟩
        · rw [moved]
          exact ⟨on.holds, nofun⟩
        · rw [moved]
          apply toLex_lt_of_work
          simp only [work, place, left, onward, List.length_cons]
          omega
        · rintro other (seen | ⟨_, ahead⟩) _ _
          · exact .inl (by rw [moved]; exact List.mem_append_left _ seen)
          · rcases here ahead with rfl | ahead
            · exact .inl (by rw [moved]; simp)
            · refine .inr ⟨by rw [moved]; nofun, ?_⟩
              rw [moved]
              simpa only [ListWalk.cursor, onward] using ahead
      · have moved :
            walk.step = { walk with place := .advance (some element) } := by
          simp only [step, place, next, if_neg passes]
        refine ⟨?_, fun _ => ?_, ?_⟩
        · rw [moved]
          refine ⟨on.holds, ?_⟩
          rintro _ same other found
          cases same
          cases found
          exact member
        · rw [moved]
          apply toLex_lt_of_work
          simp only [work, place, left, onward, List.length_cons]
          omega
        · rintro other (seen | ⟨_, ahead⟩) otherPasses _
          · exact .inl (by rw [moved]; exact seen)
          · rcases here ahead with rfl | ahead
            · exact absurd otherPasses passes
            · refine .inr ⟨by rw [moved]; nofun, ?_⟩
              rw [moved]
              simpa only [ListWalk.cursor, onward] using ahead

/-- A change in a gap. -/
theorem moves_change (on : walk.On list) (proper : walk.Proper) {held : α}
    (place : walk.place = .gap held) {change : ListChange α}
    {more : List (ListChange α)} {later : List (List (ListChange α))}
    (gaps : walk.gaps = (change :: more) :: later) :
    ∃ list', walk.Moves list list' := by
  have upcoming : walk.upcoming = some change := by
    simp [ListWalk.upcoming, gaps]
  obtain ⟨list', holds, stays⟩ := on.change proper place upcoming
  have moved : walk.step =
      { walk.change change with gaps := more :: later } := by
    simp only [step, place, gaps]
  have still : (walk.change change).place = .gap held := by
    cases change <;> exact place
  have seen : (walk.change change).visited = walk.visited := by
    cases change <;> rfl
  refine ⟨list', ?_, fun _ => ?_, ?_⟩
  · rw [moved]
    refine ⟨holds, ?_⟩
    intro cursor same
    rw [show _ = WalkPlace.gap held from still] at same
    cases same
  · rw [moved]
    apply Prod.Lex.toLex_lt_toLex.mpr
    left
    simp only [pending, gaps, List.flatten_cons, List.length_append,
      List.length_cons]
    omega
  · rintro element (old | ⟨_, ahead⟩) _ member
    · exact .inl (by rw [moved]; simpa only [seen] using old)
    · refine .inr ⟨?_, ?_⟩
      · rw [moved]
        simp only [still]
        nofun
      · rw [ListWalk.cursor, place] at ahead
        rw [moved]
        simp only [ListWalk.cursor, still]
        exact stays element ahead member

/-- The walk takes the lock again. -/
theorem moves_return (on : walk.On list) {held : α}
    (place : walk.place = .gap held)
    (quiet : ∀ change more later,
      walk.gaps ≠ (change :: more) :: later) :
    walk.Moves list list := by
  have moved : walk.step = { walk with
      gaps := walk.gaps.tail
      place := .advance
        (if walk.links.listEmpty held then none else some held) } := by
    simp only [step, place]
  have changes : walk.gaps.tail.flatten.length = walk.pending := by
    rw [pending]
    match same : walk.gaps with
    | [] => rfl
    | [] :: later => simp
    | (change :: more) :: later =>
        exact absurd same (quiet change more later)
  -- an element that is gone and the head have the whole list ahead
  have onward :
      rest (if walk.links.listEmpty held then none else some held) list =
        rest (some held) list := by
    split
    · rename_i gone
      rw [on.holds.listEmpty_iff] at gone
      exact (rest_of_notMem gone).symm
    · rfl
  refine ⟨?_, fun _ => ?_, ?_⟩
  · rw [moved]
    refine ⟨on.holds, ?_⟩
    intro cursor same element found
    cases same
    split at found
    · cases found
    · rename_i here
      cases found
      rw [on.holds.listEmpty_iff, not_not] at here
      exact here
  · rw [moved, pending, changes]
    apply toLex_lt_of_work
    simp only [work, place, onward]
    omega
  · rintro element (old | ⟨_, ahead⟩) _ _
    · exact .inl (by rw [moved]; exact old)
    · refine .inr ⟨by rw [moved]; nofun, ?_⟩
      rw [ListWalk.cursor, place] at ahead
      rw [moved]
      simp only [ListWalk.cursor, onward]
      exact ahead

/-! ## Whole walks -/

theorem exists_moves (on : walk.On list) (proper : walk.Proper) :
    ∃ list', walk.Moves list list' := by
  match place : walk.place with
  | .advance cursor => exact ⟨list, moves_advance on place⟩
  | .gap held =>
      match gaps : walk.gaps with
      | (change :: more) :: later =>
          exact moves_change on proper place gaps
      | [] => exact ⟨list, moves_return on place (by simp [gaps])⟩
      | [] :: later => exact ⟨list, moves_return on place (by simp [gaps])⟩
  | .done =>
      have still : walk.step = walk := by
        simp only [step, place]
      exact ⟨list, by rw [still]; exact on, fun pending => absurd place pending,
        fun ahead _ _ => by rw [still]; exact ahead⟩

theorem on_iterate (on : walk.On list)
    (proper : ∀ rounds, (walk.after rounds).Proper) (rounds : Nat) :
    ∃ list', (walk.after rounds).On list' := by
  induction rounds with
  | zero => exact ⟨list, on⟩
  | succ rounds induction =>
      obtain ⟨list', on⟩ := induction
      obtain ⟨list'', moves⟩ := exists_moves on (proper rounds)
      rw [after_succ]
      exact ⟨list'', moves.on⟩

/-- Nothing happens to a walk that has come to its end. -/
theorem iterate_of_done {rounds : Nat}
    (ends : (walk.after rounds).place = .done) (more : Nat) :
    walk.after (rounds + more) = walk.after rounds := by
  induction more with
  | zero => rfl
  | succ more induction =>
      rw [← Nat.add_assoc, after_succ, induction, step, ends]

/-- To look at every state of a walk is to look up to its end. -/
theorem forall_iterate {property : ListWalk α → Prop} {rounds : Nat}
    (ends : (walk.after rounds).place = .done)
    (holds : ∀ round < rounds + 1, property (walk.after round))
    (round : Nat) : property (walk.after round) := by
  rcases Nat.lt_or_ge round (rounds + 1) with early | late
  · exact holds round early
  · obtain ⟨more, rfl⟩ := Nat.exists_eq_add_of_le
      (show rounds ≤ round by omega)
    rw [iterate_of_done ends]
    exact holds rounds (by omega)

/-- A walk comes to an end. -/
theorem terminates (on : walk.On list)
    (proper : ∀ rounds, (walk.after rounds).Proper) :
    ∃ rounds, (walk.after rounds).place = .done := by
  apply @exists_iterate_of_rank _ (ℕ ×ₗ ℕ) _ _ step
    (fun walk => walk.place = .done)
    (fun walk value => (∀ rounds, (walk.after rounds).Proper) ∧
      ∃ list, walk.On list ∧ value = toLex (walk.pending, walk.work list))
    _ _ walk ⟨proper, list, on, rfl⟩
  rintro walk value ⟨proper, list, on, rfl⟩ pending
  obtain ⟨list', moves⟩ := exists_moves on (proper 0)
  refine ⟨_, moves.lowers pending, fun rounds => ?_, list', moves.on, rfl⟩
  exact proper (rounds + 1)

/-- What a walk is to do. -/
structure Complete (walk : ListWalk α) : Prop where
  terminates : ∃ rounds, (walk.after rounds).place = .done
  /-- It goes on only from an element that is on the list. -/
  linked {rounds : Nat} {element : α}
    (place : (walk.after rounds).place = .advance (some element)) :
    (walk.after rounds).links.OnList element
  /-- It visits what is on the list and passes all the time. -/
  visits {element : α}
    (stays : ∀ rounds, (walk.after rounds).links.OnList element ∧
      (walk.after rounds).passes element = true)
    {rounds : Nat} (ends : (walk.after rounds).place = .done) :
    element ∈ (walk.after rounds).visited

theorem complete_of_proper (on : walk.On list)
    (begins : walk.place = .advance none)
    (proper : ∀ rounds, (walk.after rounds).Proper) : walk.Complete where
  terminates := terminates on proper
  linked {rounds element} place := by
    obtain ⟨list', on⟩ := on_iterate on proper rounds
    exact on.holds.onList_iff.mpr (on.linked place element rfl)
  visits {element} stays rounds ends := by
    have ahead : ∃ list', (walk.after rounds).On list' ∧
        (walk.after rounds).Ahead list' element := by
      clear ends
      induction rounds with
      | zero =>
          refine ⟨list, on, .inr ⟨?_, ?_⟩⟩
          · rw [after_zero, begins]
            nofun
          · rw [after_zero, ListWalk.cursor, begins]
            exact on.holds.onList_iff.mp (stays 0).1
      | succ rounds induction =>
          obtain ⟨list', on, ahead⟩ := induction
          obtain ⟨list'', moves⟩ := exists_moves on (proper rounds)
          have later := (stays (rounds + 1)).1
          rw [after_succ] at later ⊢
          exact ⟨list'', moves.on, moves.ahead ahead (stays rounds).2
            (moves.on.holds.onList_iff.mp later)⟩
    obtain ⟨list', _, seen | ⟨unfinished, _⟩⟩ := ahead
    · exact seen
    · exact absurd ends unfinished

end ListWalk

end Xpmem.Foundation
