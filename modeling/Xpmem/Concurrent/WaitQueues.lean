import Xpmem.Concurrent.Recall

/-!
# The queues on which faults and recalls sleep

`Recall` lets a thread go on from a `wait_event` as soon as its condition
holds.  Here the sleep itself is modelled: `wait_event` tests the condition,
puts the thread on the queue, tests again and sleeps, until a `wake_up` takes
the thread off the queue; `xpmem_unblock_recall_PFNs` and
`xpmem_allow_blocking_recall_PFNs` call `wake_up` only when they bring the
counter to zero, some time after they have done so; and
`xpmem_block_recall_PFNs` lets a recall that sleeps go first, by
`waitqueue_active`.

The waits are not exclusive, so that `wake_up` takes all threads off the
queue, and the threads see each other's writes in order.
-/

namespace Xpmem.Concurrent.WaitQueues

open Foundation
open Recall hiding Paired

universe u

/-- The wait queues of a thread group. -/
inductive Queue where
  /-- `allow_recall_PFNs_wq`, on which recalls sleep. -/
  | allow
  /-- `block_recall_PFNs_wq`, on which faults sleep. -/
  | block
deriving DecidableEq

/-- What the threads share. -/
structure Shared (ι : Type u) where
  recalls : Recall.Shared := {}
  /-- The threads on each queue of each group. -/
  queue : Queue → Nat → Finset ι := fun _ _ => ∅

/-- How far a thread is in a `wait_event` or a `wake_up`. -/
inductive Stage where
  | run
  -- the loop of `wait_event`: onto the queue, the test, and the sleep
  | prepare
  | test
  | asleep
  -- off the queue, when the test has succeeded
  | finish (queue : Queue) (group : Nat)
  -- about to call `wake_up`
  | wake (queue : Queue) (group : Nat)
deriving DecidableEq

/-- Where a thread is. -/
structure Place where
  base : Recall.Place := .idle
  stage : Stage := .run
deriving DecidableEq

/-- The queue of the `wait_event` at which a thread is. -/
def waitsOn : Recall.Place → Option (Queue × Nat)
  | .blockWait group => some (.block, group)
  | .disallowWait group _ => some (.allow, group)
  | _ => none

/-- The condition of the `wait_event`s on a queue. -/
def Ready (counter : Int) : Queue → Prop
  | .allow => 0 ≤ counter
  | .block => counter ≤ 0

/-- What follows a change of a counter, by `atomic_inc_return` and such. -/
def wakesAfter (s : Recall.Shared) : Recall.Place → Stage
  | .unblock group _ =>
      if s.counter group = 0 then .wake .allow group else .run
  | .recall group false | .forkEnd group =>
      if s.counter group = 0 then .wake .block group else .run
  | _ => .run

section Steps

variable {ι : Type u}

/-- What `waitqueue_active` says to `xpmem_block_recall_PFNs`. -/
def Shared.answer (s : Shared ι) : Recall.Place → Choice → Choice
  | .block group _, .go _ => .go (decide (s.queue .allow group).Nonempty)
  | _, choice => choice

/-- Changes one queue. -/
def Shared.setQueue (s : Shared ι) (queue : Queue) (group : Nat)
    (names : Finset ι) : Shared ι :=
  { s with
    queue := Function.update s.queue queue
      (Function.update (s.queue queue) group names) }

theorem queue_setQueue (s : Shared ι) (queue other : Queue)
    (group group' : Nat) (names : Finset ι) :
    (s.setQueue queue group names).queue other group' =
      if other = queue ∧ group' = group then names
      else s.queue other group' := by
  simp only [Shared.setQueue, Function.update_apply]
  grind

variable [DecidableEq ι]

/-- One step of a thread. -/
def act (name : ι) (s : Shared ι) (place : Place) (choice : Choice) :
    Option (Shared ι × Place) :=
  match place.stage, waitsOn place.base with
  | .run, none =>
      (Recall.act s.recalls place.base (s.answer place.base choice)).map
        fun next => ({ s with recalls := next.1 },
          ⟨next.2, wakesAfter next.1 place.base⟩)
  | .run, some _ =>
      match Recall.act s.recalls place.base (.go true) with
      | some next => some ({ s with recalls := next.1 }, ⟨next.2, .run⟩)
      | none => some (s, ⟨place.base, .prepare⟩)
  | .prepare, some (queue, group) =>
      some (s.setQueue queue group (insert name (s.queue queue group)),
        ⟨place.base, .test⟩)
  | .test, some (queue, group) =>
      match Recall.act s.recalls place.base (.go true) with
      | some next =>
          some ({ s with recalls := next.1 }, ⟨next.2, .finish queue group⟩)
      | none => some (s, ⟨place.base, .asleep⟩)
  | .asleep, some (queue, group) =>
      if name ∈ s.queue queue group then none
      else some (s, ⟨place.base, .prepare⟩)
  | .finish queue group, _ =>
      some (s.setQueue queue group ((s.queue queue group).erase name),
        ⟨place.base, .run⟩)
  | .wake queue group, _ =>
      some (s.setQueue queue group ∅, ⟨place.base, .run⟩)
  | _, none => none

/-! ## The sleep is not seen by the counters -/

variable {name : ι} {s next : Shared ι} {place place' : Place}
    {choice : Choice}

omit [DecidableEq ι] in
theorem answer_of_waitsOn {base : Recall.Place} {queue : Queue × Nat}
    (waits : waitsOn base = some queue) : s.answer base choice = choice := by
  cases base <;> simp_all [waitsOn, Shared.answer]

/-- A step either is one of `Recall` or leaves all of it alone. -/
theorem act_recall (moved : act name s place choice = some (next, place')) :
    (next.recalls = s.recalls ∧ place'.base = place.base) ∨
      ∃ choice', Recall.act s.recalls place.base
        (s.answer place.base choice') = some (next.recalls, place'.base) := by
  revert moved
  fun_cases act name s place choice <;> intro moved <;>
    simp only [Option.map_eq_some_iff, Option.some.injEq, Prod.mk.injEq,
      reduceCtorEq] at moved
  case case1 =>
    obtain ⟨step, taken, rfl, rfl⟩ := moved
    exact .inr ⟨_, taken⟩
  case case2 waits _ _ taken | case5 waits _ _ taken =>
    obtain ⟨rfl, rfl⟩ := moved
    exact .inr ⟨.go true, by rwa [answer_of_waitsOn waits]⟩
  all_goals
    obtain ⟨rfl, rfl⟩ := moved
    exact .inl ⟨rfl, rfl⟩

/-! ## What a step does to a queue -/

/-- The thread sleeps on the queue, or would if it were on it. -/
def Asleep (queue : Queue) (group : Nat) (place : Place) : Prop :=
  place.stage = .asleep ∧ waitsOn place.base = some (queue, group)

/-- The thread is about to wake the queue. -/
def Waking (queue : Queue) (group : Nat) (place : Place) : Prop :=
  place.stage = .wake queue group

omit [DecidableEq ι] in
/-- Whoever makes a condition hold wakes those who wait for it. -/
theorem ready_of_act {r r' : Recall.Shared} {base base' : Recall.Place}
    (fits : base.Fits r)
    (moved : Recall.act r base choice = some (r', base')) (queue : Queue)
    (group : Nat) (ready : Ready (r'.counter group) queue) :
    Ready (r.counter group) queue ∨
      wakesAfter r' base = .wake queue group := by
  revert moved ready
  fun_cases Recall.act r base choice <;> intro moved ready <;>
    simp only [Option.map_eq_some_iff, Option.some.injEq, Prod.mk.injEq,
      reduceCtorEq] at moved
  case case3 | case4 | case5 =>
    obtain ⟨_, _, rfl, _⟩ := moved
    exact .inl ready
  -- these steps change a counter
  case case13 | case23 | case26 | case31 | case32 =>
    obtain ⟨rfl, _⟩ := moved
    simp_all only [Recall.Place.Fits, Recall.Place.change,
      Option.mem_some_iff, forall_eq', Bool.not_eq_true]
    cases queue <;>
      simp only [Ready, Recall.Shared.add, Function.update_apply,
        wakesAfter] at ready ⊢ <;> grind [Recall.Shared.Fits]
  all_goals
    obtain ⟨rfl, _⟩ := moved
    exact .inl ready

theorem wakesAfter_ne_asleep (r : Recall.Shared) (base : Recall.Place) :
    wakesAfter r base ≠ .asleep := by
  fun_cases wakesAfter r base <;> simp

theorem wakesAfter_of_waitsOn (r : Recall.Shared) {base : Recall.Place}
    {queue : Queue × Nat} (waits : waitsOn base = some queue) :
    wakesAfter r base = .run := by
  cases base <;> simp_all [waitsOn, wakesAfter]

/-- The test of `wait_event` fails only when the condition does not hold. -/
theorem not_ready_of_act {r : Recall.Shared} {base : Recall.Place}
    {queue : Queue} {group : Nat}
    (waits : waitsOn base = some (queue, group))
    (stuck : Recall.act r base (.go true) = none) :
    ¬ Ready (r.counter group) queue := by
  cases base <;> simp only [waitsOn, Option.some.injEq, Prod.mk.injEq,
    reduceCtorEq] at waits
  all_goals
    obtain ⟨rfl, rfl⟩ := waits
    simpa [Recall.act, Ready] using stuck

theorem act_queueStep (fits : place.base.Fits s.recalls)
    (moved : act name s place choice = some (next, place')) (queue : Queue)
    (group : Nat) :
    Threads.QueueStep name
      (Ready (s.recalls.counter group) queue) (s.queue queue group)
      (Asleep queue group place) (Waking queue group place)
      (Ready (next.recalls.counter group) queue) (next.queue queue group)
      (Asleep queue group place') (Waking queue group place') := by
  revert moved
  fun_cases act name s place choice <;> intro moved <;>
    simp only [Option.map_eq_some_iff, Option.some.injEq, Prod.mk.injEq,
      reduceCtorEq] at moved
  case case1 =>
    obtain ⟨step, taken, rfl, rfl⟩ := moved
    have woken := ready_of_act fits taken queue group
    have awake := wakesAfter_ne_asleep step.1 place.base
    constructor <;> grind [Asleep, Waking]
  case case2 waits _ _ taken | case5 waits _ _ taken =>
    obtain ⟨rfl, rfl⟩ := moved
    have woken := ready_of_act fits taken queue group
    rw [wakesAfter_of_waitsOn _ waits] at woken
    constructor <;> grind [Asleep, Waking]
  case case6 waits _ stuck =>
    obtain ⟨rfl, rfl⟩ := moved
    have unready := not_ready_of_act waits stuck
    constructor <;> grind [Asleep, Waking]
  all_goals
    obtain ⟨rfl, rfl⟩ := moved
    constructor <;> grind [Asleep, Waking, queue_setQueue, Shared.setQueue]

end Steps

/-! ## No wake-up is lost -/

section Runs

variable {ι : Type u} [DecidableEq ι]

/-- The runs of any number of threads, all idle at first. -/
abbrev Runs (allowed : Threads ι (Shared ι) Place → ι × Choice → Prop)
    (events : List (Event (Threads ι (Shared ι) Place) (ι × Choice) Unit))
    (s : Threads ι (Shared ι) Place) : Prop :=
  Run (Threads.step act) (.still {} {}) allowed events s

/-- On every queue, the sleepers wait for the condition or will be woken. -/
def AllHeard (s : Shared ι) (thread : ι → Place) : Prop :=
  ∀ queue group, Threads.Heard (Ready (s.recalls.counter group) queue)
    (s.queue queue group) (Asleep queue group) (Waking queue group) thread

theorem AllHeard.act {s next : Shared ι} {thread : ι → Place} {name : ι}
    {place : Place} {choice : Choice} (heard : AllHeard s thread)
    (fits : (thread name).base.Fits s.recalls)
    (moved : act name s (thread name) choice = some (next, place)) :
    AllHeard next (Function.update thread name place) :=
  fun queue group => (heard queue group).update
    (act_queueStep fits moved queue group)

omit [DecidableEq ι] in
theorem allHeard_still : AllHeard {} fun _ : ι => {} :=
  fun _ _ name queued => absurd queued (Finset.notMem_empty name)

variable
    {allowed : Threads ι (Shared ι) Place → ι × Choice → Prop}
    {events : List (Event (Threads ι (Shared ι) Place) (ι × Choice) Unit)}
    {s : Threads ι (Shared ι) Place}

/-- The move takes no counter past an `int`. -/
def Fits (s : Threads ι (Shared ι) Place) (move : ι × Choice) : Prop :=
  (s.thread move.1).base.Fits s.shared.recalls

/-- Forks are paired, and the counters stay within an `int`. -/
def Paired (s : Threads ι (Shared ι) Place) (move : ι × Choice) : Prop :=
  (s.thread move.1).base.paired s.shared.recalls

instance (s : Threads ι (Shared ι) Place) (move : ι × Choice) :
    Decidable (Fits s move) :=
  inferInstanceAs (Decidable (Recall.Place.Fits _ _))

instance (s : Threads ι (Shared ι) Place) (move : ι × Choice) :
    Decidable (Paired s move) :=
  inferInstanceAs (Decidable (Recall.Place.paired _ _))

theorem queued_of_act_eq_none {name : ι} {s : Shared ι} {place : Place}
    {choice : Choice} {queue : Queue} {group : Nat}
    (waits : waitsOn place.base = some (queue, group))
    (stuck : act name s place choice = none) :
    Asleep queue group place ∧ name ∈ s.queue queue group := by
  revert stuck
  fun_cases act name s place choice <;> intro stuck <;>
    grind [Asleep]

/--
While no counter wraps, a thread in a `wait_event` goes on, unless its
condition does not hold or another thread is about to wake the queue.
-/
theorem heard_of_run (run : Runs Fits events s) {name : ι}
    {choice : Choice} {queue : Queue} {group : Nat}
    (waits : waitsOn (s.thread name).base = some (queue, group))
    (stuck : act name s.shared (s.thread name) choice = none) :
    ¬ Ready (s.shared.recalls.counter group) queue ∨
      ∃ other, (s.thread other).stage = .wake queue group := by
  obtain ⟨sleeps, queued⟩ := queued_of_act_eq_none waits stuck
  have heard : AllHeard s.shared s.thread :=
    Threads.invariant AllHeard run allHeard_still
      fun _ _ _ _ _ _ heard fits moved => heard.act fits moved
  exact heard queue group name queued sleeps

/-- A fault unblocks, and wakes a recall that sleeps. -/
theorem heard_of_unblocking_fault :
    ∃ events s, Runs (ι := Nat) Fits events s ∧
      act 1 s.shared (s.thread 1) (.go true) = none ∧
      0 ≤ s.shared.recalls.counter 0 ∧
      ∃ other, (s.thread other).stage = .wake .allow 0 := by
  obtain ⟨events, s, run, waits, stuck, ready⟩ := exists_run
    (Threads.step (act (ι := Nat))) (.still {} {}) Fits
    [(0, .openDev 7), (0, .fault 0), (0, .go false), (0, .go true),
      (0, .go true), (1, .unpin 7), (1, .go true), (1, .go true),
      (1, .go true), (1, .go true), (1, .go true), (0, .go true),
      (0, .go false), (0, .go true), (0, .go true)]
    (fun _ s => waitsOn (s.thread 1).base = some (.allow, 0) ∧
      act 1 s.shared (s.thread 1) (.go true) = none ∧
      0 ≤ s.shared.recalls.counter 0)
    (by decide)
  exact ⟨events, s, run, stuck, ready,
    (heard_of_run run waits stuck).resolve_left (not_not_intro ready)⟩

/-- What keeps the condition of a queue from holding. -/
def Queue.awaits (group : Nat) : Queue → Grip
  | .allow => .block group
  | .block => .recall group

/-- A step keeps what `Recall` keeps. -/
theorem balanced_act {s next : Shared ι} {thread : ι → Place} {name : ι}
    {place : Place} {choice : Choice}
    (balanced : Balanced s.recalls fun other => (thread other).base)
    (paired : (thread name).base.paired s.recalls)
    (moved : act name s (thread name) choice = some (next, place)) :
    Balanced next.recalls
      fun other => (Function.update thread name place other).base := by
  have bases : (fun other => (Function.update thread name place other).base) =
      Function.update (fun other => (thread other).base) name place.base := by
    funext other
    simp only [Function.update_apply]
    split <;> rfl
  rw [bases]
  rcases act_recall moved with ⟨same, base⟩ | ⟨choice', step⟩
  · rw [same, base, Function.update_eq_self name fun other =>
      (thread other).base]
    exact balanced
  · exact balanced.act paired step

/-- In a run with forks paired the counters tell the holds. -/
theorem heard_of_paired (run : Runs Paired events s) :
    AllHeard s.shared s.thread ∧
      Balanced s.shared.recalls fun name => (s.thread name).base := by
  apply Threads.invariant (fun s thread => AllHeard s thread ∧
    Balanced s.recalls fun name => (thread name).base) run
  · exact ⟨allHeard_still, balanced_still⟩
  · rintro shared thread name choice next place ⟨heard, balanced⟩ paired moved
    exact ⟨heard.act (balanced.fits paired) moved,
      balanced_act balanced paired moved⟩

/--
With forks paired, a thread that sleeps in a `wait_event` waits for a thread
that holds the counter the other way, for a fork to end, or for a thread that
is about to wake it.
-/
theorem awaited_of_paired_run (run : Runs Paired events s) {name : ι}
    {choice : Choice} {queue : Queue} {group : Nat}
    (waits : waitsOn (s.thread name).base = some (queue, group))
    (stuck : act name s.shared (s.thread name) choice = none) :
    (∃ other, (s.thread other).base.grip = queue.awaits group) ∨
      (queue = .block ∧ 0 < s.shared.recalls.forks group) ∨
      ∃ other, (s.thread other).stage = .wake queue group := by
  obtain ⟨sleeps, queued⟩ := queued_of_act_eq_none waits stuck
  obtain ⟨heard, balanced⟩ := heard_of_paired run
  rcases heard queue group name queued sleeps with unready | woken
  · have count := balanced.counter_eq group
    cases queue with
    | allow =>
        have some : (blockers (fun name => (s.thread name).base)
            group).ncard ≠ 0 := by
          simp only [Ready] at unready
          omega
        exact .inl (Set.nonempty_of_ncard_ne_zero some)
    | block =>
        by_cases forks : s.shared.recalls.forks group = 0
        · have some : (recallers (fun name => (s.thread name).base)
              group).ncard ≠ 0 := by
            simp only [Ready] at unready
            omega
          exact .inl (Set.nonempty_of_ncard_ne_zero some)
        · exact .inr (.inl ⟨rfl, Nat.pos_of_ne_zero forks⟩)
  · exact .inr (.inr woken)

/-- A fault sleeps while a recall runs. -/
theorem awaited_of_sleeping_fault :
    ∃ events s, Runs (ι := Fin 2) Paired events s ∧
      act 0 s.shared (s.thread 0) (.go true) = none ∧
      ∃ other, (s.thread other).base.grip = .recall 0 := by
  obtain ⟨events, s, run, waits, stuck, forks, quiet⟩ := exists_run
    (Threads.step (act (ι := Fin 2))) (.still {} {}) Paired
    [(1, .openDev 7), (1, .unpin 7), (1, .go true), (1, .go true),
      (0, .fault 0), (0, .go true), (0, .go true), (0, .go true),
      (0, .go true), (0, .go true), (0, .go true), (0, .go true),
      (0, .go true), (0, .go true)]
    (fun _ s => waitsOn (s.thread 0).base = some (.block, 0) ∧
      act 0 s.shared (s.thread 0) (.go true) = none ∧
      s.shared.recalls.forks 0 = 0 ∧
      ∀ other, (s.thread other).stage ≠ .wake .block 0)
    (by decide)
  refine ⟨events, s, run, stuck, ?_⟩
  rcases awaited_of_paired_run run waits stuck with
    holds | ⟨_, forked⟩ | ⟨other, woken⟩
  · exact holds
  · exact absurd forks forked.ne'
  · exact absurd woken (quiet other)

/-! ## A recall that sleeps goes first -/

/-- The thread is past `waitqueue_active`, with the exchange still to do. -/
def exchanging (group : Nat) : Recall.Place → Bool
  | .blockRead other _ | .blockExchange other _ _ => other = group
  | _ => false

/-- The move takes the block of a group. -/
def takes (group : Nat)
    (event : Event (Threads ι (Shared ι) Place) (ι × Choice) Unit) : Bool :=
  (event.pre.thread event.action.1).base.grip ≠ .block group &&
    (event.post.thread event.action.1).base.grip = .block group

theorem exchanging_of_recall_act {r r' : Recall.Shared}
    {base base' : Recall.Place} {choice : Choice} {group : Nat}
    (moved : Recall.act r base choice = some (r', base')) :
    (exchanging group base' → exchanging group base ∨
      ∃ wait, base = .block group wait ∧ choice = .go false) ∧
    (base'.grip = .block group →
      base.grip = .block group ∨ exchanging group base) := by
  revert moved
  fun_cases Recall.act r base choice <;> intro moved <;>
    simp only [Option.map_eq_some_iff, Option.some.injEq, Prod.mk.injEq,
      reduceCtorEq] at moved <;>
    grind [Recall.Place.grip, Recall.atWait, exchanging]

/-- While a recall is on the queue no fault gets past `waitqueue_active`. -/
theorem exchanging_of_act {name : ι} {s next : Shared ι}
    {place place' : Place} {choice : Choice} {group : Nat}
    (active : (s.queue .allow group).Nonempty)
    (moved : act name s place choice = some (next, place')) :
    (exchanging group place'.base → exchanging group place.base) ∧
      (place'.base.grip = .block group →
        place.base.grip = .block group ∨ exchanging group place.base) := by
  rcases act_recall moved with ⟨_, same⟩ | ⟨choice', step⟩
  · rw [same]
    exact ⟨id, .inl⟩
  · have moves := @exchanging_of_recall_act _ _ _ _ _ group step
    refine ⟨fun after => (moves.1 after).resolve_right ?_, moves.2⟩
    rintro ⟨wait, here, answered⟩
    rw [here] at answered
    cases choice' <;> simp [Shared.answer, active] at answered

theorem not_exchanging_of_grip {base : Recall.Place} {group : Nat}
    (blocks : base.grip = .block group) : exchanging group base = false := by
  cases base <;> simp_all [Recall.Place.grip, exchanging]

theorem finite_exchanging (run : Runs allowed events s) (group : Nat) :
    (Threads.among s.thread fun place =>
      exchanging group place.base).Finite := by
  apply Threads.invariant (fun _ thread => (Threads.among thread
    fun place => exchanging group place.base).Finite) run
  · simp [Threads.among, Threads.still, exchanging]
  · intro _ _ name _ _ place finite _ _
    exact Threads.finite_among_update finite name place

/--
While a recall of a group is on its queue, no fault takes the block but those
that were past `waitqueue_active` when the recall went to sleep, and each of
these takes it once.
-/
theorem takes_le_exchanging (run : Runs allowed events s) {group : Nat}
    {more : List (Event (Threads ι (Shared ι) Place) (ι × Choice) Unit)}
    {t : Threads ι (Shared ι) Place}
    (waited : Run (Threads.step act) s
      (fun s _ => (s.shared.queue .allow group).Nonempty) more t) :
    (more.filter (takes group)).length ≤ (Threads.among s.thread
      fun place => exchanging group place.base).ncard := by
  -- a thread that takes the block leaves those that may still take it
  have bound : (Threads.among t.thread fun place =>
        exchanging group place.base).Finite ∧
      (more.filter (takes group)).length + (Threads.among t.thread
          fun place => exchanging group place.base).ncard ≤
        (Threads.among s.thread
          fun place => exchanging group place.base).ncard := by
    induction waited with
    | start => exact ⟨finite_exchanging run group, by simp⟩
    | @next _ _ _ move _ _ active taken induction =>
        obtain ⟨finite, bound⟩ := induction
        obtain ⟨place, moved, threads⟩ := Threads.step_eq_some_iff.mp taken
        have enters := exchanging_of_act active moved
        have leaves := @not_exchanging_of_grip place.base group
        have count := Threads.ncard_among_update finite move.1 place
        rw [threads, List.filter_append, List.length_append,
          List.filter_singleton]
        refine ⟨Threads.finite_among_update finite _ place, ?_⟩
        simp only [takes, threads, Function.update_self]
        grind
  omega

/-- A fault past `waitqueue_active` takes the block before the recall. -/
theorem takes_le_exchanging_of_two_faults :
    ∃ events s more t, Runs (ι := Fin 3) (fun _ _ => True) events s ∧
      Run (Threads.step act) s
        (fun s _ => (s.shared.queue .allow 0).Nonempty) more t ∧
      (more.filter (takes 0)).length = 1 ∧
      1 ≤ (Threads.among s.thread
        fun place => exchanging 0 place.base).ncard := by
  obtain ⟨events, s, run, checked⟩ := exists_run
    (Threads.step (act (ι := Fin 3))) (.still {} {}) (fun _ _ => True)
    [(0, .openDev 7), (0, .fault 0), (0, .go true), (0, .go true),
      (0, .go true), (2, .fault 0), (2, .go true), (1, .unpin 7),
      (1, .go true), (1, .go true), (1, .go true), (1, .go true),
      (1, .go true)]
    (fun _ s => (execute (Threads.step act) s
      [(2, .go true), (2, .go true), (2, .go true)]).any (fun done =>
        done.1.all (fun event =>
          decide (event.pre.shared.queue .allow 0).Nonempty) &&
        decide ((done.1.filter (takes 0)).length = 1)) = true)
    (by decide)
  obtain ⟨more, t, waited, once⟩ := exists_run (Threads.step act) s
    (fun s _ => (s.shared.queue .allow 0).Nonempty)
    [(2, .go true), (2, .go true), (2, .go true)]
    (fun more _ => (more.filter (takes 0)).length = 1) checked
  exact ⟨events, s, more, t, run, waited, once,
    once ▸ takes_le_exchanging run waited⟩

end Runs

end Xpmem.Concurrent.WaitQueues
