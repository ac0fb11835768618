import Mathlib.Data.Set.Card
import Mathlib.Data.Set.Finite.Basic
import Xpmem.Foundation.Run

/-!
# Threads that share a state

Threads are names; each is at a place of its program.  A move names a thread
and how it goes on, where its program leaves that open, and changes the
shared state and the place of that thread.  All interleavings of the threads
are the runs of `Threads.step`.

There may be infinitely many names, but only finitely many threads have moved
in a run, so those at a place of some kind can be counted.
-/

namespace Xpmem.Foundation

universe u v w x

/-- The shared state, and where each thread is. -/
structure Threads (ι : Type u) (σ : Type v) (τ : Type w) where
  shared : σ
  thread : ι → τ

namespace Threads

variable {ι : Type u} {σ : Type v} {τ : Type w} {χ : Type x}
    [DecidableEq ι] {act : ι → σ → τ → χ → Option (σ × τ)}

/-- One thread makes one move. -/
def step (act : ι → σ → τ → χ → Option (σ × τ)) (s : Threads ι σ τ)
    (move : ι × χ) : Option (Threads ι σ τ × Unit) :=
  (act move.1 s.shared (s.thread move.1) move.2).map fun next =>
    ({ shared := next.1
       thread := Function.update s.thread move.1 next.2 }, ())

theorem step_eq_some_iff {s t : Threads ι σ τ} {move : ι × χ}
    {result : Unit} :
    step act s move = some (t, result) ↔
      ∃ place, act move.1 s.shared (s.thread move.1) move.2 =
          some (t.shared, place) ∧
        t.thread = Function.update s.thread move.1 place := by
  simp only [step, Option.map_eq_some_iff, Prod.mk.injEq]
  constructor
  · rintro ⟨⟨shared, place⟩, moved, rfl, _⟩
    exact ⟨place, moved, rfl⟩
  · rintro ⟨place, moved, same⟩
    refine ⟨(t.shared, place), moved, ?_, trivial⟩
    rw [← same]

/-- All threads are at one place. -/
def still (shared : σ) (place : τ) : Threads ι σ τ where
  shared := shared
  thread _ := place

/--
What holds initially and is kept by every allowed move of every thread always
holds.
-/
theorem invariant {initial s : Threads ι σ τ}
    {allowed : Threads ι σ τ → ι × χ → Prop}
    {events : List (Event (Threads ι σ τ) (ι × χ) Unit)}
    (property : σ → (ι → τ) → Prop)
    (run : Run (step act) initial allowed events s)
    (holds : property initial.shared initial.thread)
    (kept : ∀ shared thread name choice next place,
      property shared thread →
      allowed ⟨shared, thread⟩ (name, choice) →
      act name shared (thread name) choice = some (next, place) →
        property next (Function.update thread name place)) :
    property s.shared s.thread := by
  refine run.invariant (fun s => property s.shared s.thread) holds ?_
  rintro pre ⟨name, choice⟩ post result before permitted taken
  obtain ⟨place, moved, same⟩ := step_eq_some_iff.mp taken
  rw [same]
  exact kept _ _ _ _ _ _ before permitted moved

/-- What is seen of a thread, where the one that moved shows nothing. -/
theorem of_update_eq_some {α : Type x} {view : τ → Option α}
    {thread : ι → τ} {name other : ι} {place : τ} {value : α}
    (hidden : view place = none)
    (seen : view (Function.update thread name place other) = some value) :
    other ≠ name ∧ view (thread other) = some value := by
  by_cases equal : other = name
  · rw [equal, Function.update_self, hidden] at seen
    cases seen
  · rw [Function.update_of_ne equal] at seen
    exact ⟨equal, seen⟩

/-! ## Locks -/

/-- What a step of one thread does to a lock. -/
@[mk_iff]
inductive LockStep (held : Bool) (owned : Prop) (held' : Bool)
    (owned' : Prop) : Prop where
  | keep (same : held' = held) (own : owned' → owned)
  | acquire (free : held = false) (taken : held' = true)
  | release (own : owned) (gone : ¬ owned')

/-- At most one thread owns a lock, and only while it is held. -/
structure Exclusive (held : Bool) (owns : τ → Prop) (thread : ι → τ) :
    Prop where
  held_of_owns {name : ι} (own : owns (thread name)) : held = true
  unique {name other : ι} (own : owns (thread name))
    (also : owns (thread other)) : name = other

theorem Exclusive.update {held held' : Bool} {owns : τ → Prop}
    {thread : ι → τ} {name : ι} {place : τ}
    (exclusive : Exclusive held owns thread)
    (step : LockStep held (owns (thread name)) held' (owns place)) :
    Exclusive held' owns (Function.update thread name place) := by
  -- before the step no other thread owns what this one has or takes
  have alone (other : ι) (own : owns (thread other))
      (differs : other ≠ name) : held' = held ∧ ¬ owns place := by
    cases step with
    | keep same kept =>
        exact ⟨same, fun also => differs (exclusive.unique own (kept also))⟩
    | acquire free _ =>
        rw [exclusive.held_of_owns own] at free
        cases free
    | release also _ => exact (differs (exclusive.unique own also)).elim
  have held_place (own : owns place) : held' = true := by
    cases step with
    | keep same kept => exact same ▸ exclusive.held_of_owns (kept own)
    | acquire _ taken => exact taken
    | release _ gone => exact (gone own).elim
  constructor
  · intro other own
    by_cases equal : other = name
    · rw [equal, Function.update_self] at own
      exact held_place own
    · rw [Function.update_of_ne equal] at own
      rw [(alone other own equal).1]
      exact exclusive.held_of_owns own
  · intro first second own also
    by_cases one : first = name <;> by_cases two : second = name
    · rw [one, two]
    · rw [one, Function.update_self] at own
      rw [Function.update_of_ne two] at also
      exact ((alone second also two).2 own).elim
    · rw [two, Function.update_self] at also
      rw [Function.update_of_ne one] at own
      exact ((alone first own one).2 also).elim
    · rw [Function.update_of_ne one] at own
      rw [Function.update_of_ne two] at also
      exact exclusive.unique own also

/-! ## Counting threads -/

/-- The threads at places of a kind. -/
def among (thread : ι → τ) (kind : τ → Prop) : Set ι :=
  {name | kind (thread name)}

omit [DecidableEq ι] in
theorem mem_among {thread : ι → τ} {kind : τ → Prop} {name : ι} :
    name ∈ among thread kind ↔ kind (thread name) :=
  Iff.rfl

theorem among_update (thread : ι → τ) (kind : τ → Prop) (name : ι)
    (place : τ) :
    (kind place → among (Function.update thread name place) kind =
        insert name (among thread kind)) ∧
      (¬ kind place → among (Function.update thread name place) kind =
        among thread kind \ {name}) := by
  constructor <;> intro here <;> ext other <;>
    by_cases equal : other = name <;> simp [among, equal, here]

theorem finite_among_update {thread : ι → τ} {kind : τ → Prop}
    (finite : (among thread kind).Finite) (name : ι) (place : τ) :
    (among (Function.update thread name place) kind).Finite := by
  by_cases here : kind place
  · rw [(among_update thread kind name place).1 here]
    exact finite.insert name
  · rw [(among_update thread kind name place).2 here]
    exact finite.subset Set.sdiff_subset

/-- A thread that moves leaves the count it was in and enters another. -/
theorem ncard_among_update {thread : ι → τ} {kind : τ → Prop}
    [DecidablePred kind] (finite : (among thread kind).Finite) (name : ι)
    (place : τ) :
    (among (Function.update thread name place) kind).ncard +
        (if kind (thread name) then 1 else 0) =
      (among thread kind).ncard + if kind place then 1 else 0 := by
  by_cases after : kind place
  · rw [(among_update thread kind name place).1 after, if_pos after]
    by_cases before : kind (thread name)
    · rw [Set.insert_eq_of_mem (mem_among.mpr before), if_pos before]
    · rw [Set.ncard_insert_of_notMem (mem_among.not.mpr before) finite,
        if_neg before]
  · rw [(among_update thread kind name place).2 after, if_neg after]
    by_cases before : kind (thread name)
    · rw [if_pos before]
      exact Set.ncard_sdiff_singleton_add_one (mem_among.mpr before) finite
    · rw [Set.sdiff_singleton_eq_self (mem_among.not.mpr before),
        if_neg before]

/-! ## A counter that two kinds of threads move -/

/-- What a step of one thread does to a counter it may raise or lower. -/
@[mk_iff]
inductive GateStep (counter : Int) (raised lowered : Prop) (counter' : Int)
    (raised' lowered' : Prop) : Prop where
  | keep (same : counter' = counter) (raises : raised' ↔ raised)
      (lowers : lowered' ↔ lowered)
  | raise (free : 0 ≤ counter ∧ ¬ raised ∧ ¬ lowered)
      (moved : counter' = counter + 1) (taken : raised' ∧ ¬ lowered')
  | unraise (held : raised ∧ ¬ lowered) (moved : counter' = counter - 1)
      (gone : ¬ raised' ∧ ¬ lowered')
  | lower (free : counter ≤ 0 ∧ ¬ raised ∧ ¬ lowered)
      (moved : counter' = counter - 1) (taken : lowered' ∧ ¬ raised')
  | unlower (held : lowered ∧ ¬ raised) (moved : counter' = counter + 1)
      (gone : ¬ raised' ∧ ¬ lowered')

/--
A counter is the number of the threads that raised it less the number of
those that lowered it, and there are never threads of both kinds.
-/
structure Gate (counter : Int) (raises lowers : τ → Prop)
    (thread : ι → τ) : Prop where
  raises_finite : (among thread raises).Finite
  lowers_finite : (among thread lowers).Finite
  counter_eq : counter =
    (among thread raises).ncard - (among thread lowers).ncard
  apart : (among thread raises).ncard = 0 ∨ (among thread lowers).ncard = 0

omit [DecidableEq ι] in
theorem Gate.still {raises lowers : τ → Prop} {place : τ}
    (outside : ¬ raises place ∧ ¬ lowers place) :
    Gate 0 raises lowers fun _ : ι => place := by
  constructor <;> simp [among, outside]

omit [DecidableEq ι] in
theorem Gate.not_lowers {counter : Int} {raises lowers : τ → Prop}
    {thread : ι → τ} {name other : ι}
    (gate : Gate counter raises lowers thread)
    (raised : raises (thread name)) : ¬ lowers (thread other) := by
  intro lowered
  have one := (Set.ncard_pos gate.raises_finite).mpr ⟨name, raised⟩
  have two := (Set.ncard_pos gate.lowers_finite).mpr ⟨other, lowered⟩
  have apart := gate.apart
  omega

theorem Gate.update {counter counter' : Int} {raises lowers : τ → Prop}
    {thread : ι → τ} {name : ι} {place : τ}
    (gate : Gate counter raises lowers thread)
    (step : GateStep counter (raises (thread name)) (lowers (thread name))
      counter' (raises place) (lowers place)) :
    Gate counter' raises lowers (Function.update thread name place) := by
  classical
  have raise := ncard_among_update gate.raises_finite name place
  have lower := ncard_among_update gate.lowers_finite name place
  have count := gate.counter_eq
  have apart := gate.apart
  refine ⟨finite_among_update gate.raises_finite name place,
    finite_among_update gate.lowers_finite name place, ?_, ?_⟩
  all_goals
    cases step with
    | keep same raises lowers =>
        simp only [raises, lowers] at raise lower
        omega
    | raise free moved taken =>
        simp only [free, taken, if_true, if_false] at raise lower
        omega
    | unraise held moved gone =>
        simp only [held, gone, if_true, if_false] at raise lower
        omega
    | lower free moved taken =>
        simp only [free, taken, if_true, if_false] at raise lower
        omega
    | unlower held moved gone =>
        simp only [held, gone, if_true, if_false] at raise lower
        omega

/-! ## Wait queues -/

/--
What a step of the thread `name` does to a queue of threads that wait for a
condition: the thread falls asleep only while the condition does not hold, puts
no other thread on the queue, is about to wake the queue when it makes the
condition hold, and wakes all of it before it goes on.
-/
structure QueueStep (name : ι) (ready : Prop) (queue : Finset ι)
    (asleep waking : Prop) (ready' : Prop) (queue' : Finset ι)
    (asleep' waking' : Prop) : Prop where
  unready_of_asleep (sleeps : asleep') (queued : name ∈ queue') :
    (asleep ∧ name ∈ queue) ∨ ¬ ready'
  queued_of_ne {other : ι} (differs : other ≠ name)
    (queued : other ∈ queue') : other ∈ queue
  waking_of_ready (holds : ready') : ready ∨ waking'
  empty_of_woken (wakes : waking) : waking' ∨ queue' = ∅

/-- Whoever sleeps on a queue waits for the condition, or will be woken. -/
def Heard (ready : Prop) (queue : Finset ι) (asleep waking : τ → Prop)
    (thread : ι → τ) : Prop :=
  ∀ name ∈ queue, asleep (thread name) →
    ¬ ready ∨ ∃ other, waking (thread other)

theorem Heard.update {ready ready' : Prop} {queue queue' : Finset ι}
    {asleep waking : τ → Prop} {thread : ι → τ} {name : ι} {place : τ}
    (heard : Heard ready queue asleep waking thread)
    (step : QueueStep name ready queue (asleep (thread name))
      (waking (thread name)) ready' queue' (asleep place) (waking place)) :
    Heard ready' queue' asleep waking (Function.update thread name place) := by
  intro sleeper queued sleeps
  by_cases holds : ready'
  · right
    by_cases mover : waking place
    · exact ⟨name, by rwa [Function.update_self]⟩
    -- the condition held before, so that a waker was already on its way
    have held := (step.waking_of_ready holds).resolve_right mover
    have before : sleeper ∈ queue ∧ asleep (thread sleeper) := by
      by_cases same : sleeper = name
      · subst same
        rw [Function.update_self] at sleeps
        have earlier := (step.unready_of_asleep sleeps queued).resolve_right
          (not_not_intro holds)
        exact earlier.symm
      · rw [Function.update_of_ne same] at sleeps
        exact ⟨step.queued_of_ne same queued, sleeps⟩
    obtain ⟨waker, wakes⟩ :=
      (heard sleeper before.1 before.2).resolve_left (not_not_intro held)
    have other : waker ≠ name := by
      rintro rfl
      have empty := (step.empty_of_woken wakes).resolve_left mover
      rw [empty] at queued
      exact Finset.notMem_empty _ queued
    exact ⟨waker, by rwa [Function.update_of_ne other]⟩
  · exact .inl holds

end Threads

end Xpmem.Foundation
