import Xpmem.Driver.Naming
import Xpmem.Foundation.Threads

/-!
# Making identifiers

Threads run `xpmem_make_segid` of one group at the same time, or
`xpmem_make_apid`, which is the same with another counter.  The steps are the
atomic operations on the counter: a call that finds too high a value has
raised the counter already, and lowers it again in a second step.
-/

namespace Xpmem.Concurrent.Identifiers

open Foundation Kernel Driver

universe u

/-- What the threads share. -/
structure Shared where
  /-- `uniq_segid` or `uniq_apid`, an `atomic_t`. -/
  uniq : Int := 0
  /-- The identifiers returned so far. -/
  issued : List (BitVec 64) := []

/-- Where a thread is. -/
inductive Place where
  | idle
  /-- The call has raised the counter too far. -/
  | failing
deriving DecidableEq

/-- What a thread does next. -/
inductive Choice where
  | makeId
  | go
deriving DecidableEq

/-- One step of a thread, in the group of `tgid`. -/
def act (K : Platform) (tgid : Pid) (s : Shared) :
    Place → Choice → Option (Shared × Place)
  | .idle, .makeId =>
      let uniq := int32 (s.uniq + 1)
      if (xpmemMaxUniqId : Int) < uniq then
        some ({ s with uniq := uniq }, .failing)
      else
        some ({ uniq := uniq
                issued := s.issued ++
                  [packId K tgid (uniq % 2 ^ 32).toNat] }, .idle)
  | .failing, .go => some ({ s with uniq := int32 (s.uniq - 1) }, .idle)
  | _, _ => none

section Runs

variable {ι : Type u} [DecidableEq ι] {K : Platform} {tgid : Pid}
    {thread : ι → Place} {name : ι} {place : Place} {choice : Choice}
    {s t : Shared}

/-- The calls that have to lower the counter again. -/
def failing (thread : ι → Place) : Set ι :=
  Threads.among thread (· = .failing)

/-- Fewer than 2^30 calls are under way. -/
def Few (s : Threads ι Shared Place) (_ : ι × Choice) : Prop :=
  (failing s.thread).ncard < 2 ^ 30

/--
The counter counts the identifiers issued and the calls that will fail, and
calls fail only when all identifiers are issued.
-/
structure Counted (K : Platform) (tgid : Pid) (s : Shared)
    (thread : ι → Place) : Prop where
  finite : (failing thread).Finite
  uniq_eq : s.uniq = s.issued.length + (failing thread).ncard
  issued_eq : s.issued =
    (List.range' 1 s.issued.length).map (packId K tgid)
  length_le : s.issued.length ≤ xpmemMaxUniqId
  full : 0 < (failing thread).ncard → s.issued.length = xpmemMaxUniqId

theorem Counted.act (counted : Counted K tgid s thread)
    (few : Few ⟨s, thread⟩ (name, choice))
    (moved : act K tgid s (thread name) choice = some (t, place)) :
    Counted K tgid t (Function.update thread name place) := by
  have count := Threads.ncard_among_update counted.finite name place
  have finite := Threads.finite_among_update counted.finite name place
  have uniq := counted.uniq_eq
  have bounded := counted.length_le
  have full := counted.full
  change (failing thread).ncard < 2 ^ 30 at few
  change (failing (Function.update thread name place)).ncard + _ =
    (failing thread).ncard + _ at count
  change (failing (Function.update thread name place)).Finite at finite
  generalize here : thread name = before at moved count
  -- the counter does not reach the sign bit
  have raises : int32 (s.uniq + 1) = s.uniq + 1 := by
    unfold xpmemMaxUniqId at bounded
    exact int32_of_bounds (by omega) (by omega)
  revert moved
  fun_cases Identifiers.act K tgid s before choice <;> intro moved <;>
    simp only [Option.some.injEq, Prod.mk.injEq, reduceCtorEq] at moved <;>
    obtain ⟨rfl, rfl⟩ := moved
  case case1 raised above =>
    simp only [reduceCtorEq, if_false, if_true, Nat.add_zero] at count
    have value : raised = s.uniq + 1 := raises
    refine ⟨finite, ?_, counted.issued_eq, bounded, fun _ => ?_⟩
    · dsimp only
      omega
    · rcases Nat.eq_zero_or_pos (failing thread).ncard with none | some
      · dsimp only
        omega
      · exact full some
  case case2 raised below =>
    simp only [reduceCtorEq, if_false, Nat.add_zero] at count
    have value : raised = s.uniq + 1 := raises
    have none : (failing thread).ncard = 0 := by
      by_contra some
      have all := full (Nat.pos_of_ne_zero some)
      omega
    have number : (raised % 2 ^ 32).toNat = 1 + s.issued.length := by
      unfold xpmemMaxUniqId at below
      omega
    refine ⟨finite, ?_, ?_, ?_, fun some => ?_⟩
    · simp only [List.length_append, List.length_singleton]
      omega
    · dsimp only
      rw [List.length_append, List.length_singleton, List.range'_concat,
        List.map_append, ← counted.issued_eq, number, Nat.one_mul]
      rfl
    · simp only [List.length_append, List.length_singleton]
      omega
    · omega
  case case3 =>
    simp only [reduceCtorEq, if_true, if_false, Nat.add_zero] at count
    have lowers : int32 (s.uniq - 1) = s.uniq - 1 := by
      unfold xpmemMaxUniqId at bounded
      exact int32_of_bounds (by omega) (by omega)
    refine ⟨finite, ?_, counted.issued_eq, bounded, fun _ => ?_⟩
    · dsimp only
      omega
    · exact full (by omega)

/-- The runs of any number of threads, all idle at first. -/
abbrev Runs (K : Platform) (tgid : Pid)
    (allowed : Threads ι Shared Place → ι × Choice → Prop)
    (calls : List (Event (Threads ι Shared Place) (ι × Choice) Unit))
    (c : Threads ι Shared Place) : Prop :=
  Run (Threads.step fun _ : ι => act K tgid) (.still {} .idle) allowed
    calls c

/-- What is issued is distinct, positive and names the group. -/
theorem issued_of_runs
    {calls : List (Event (Threads ι Shared Place) (ι × Choice) Unit)}
    {c : Threads ι Shared Place} (counting : Runs K tgid Few calls c)
    (positive : 0 < tgid.toInt) :
    c.shared.issued.Nodup ∧ ∀ id ∈ c.shared.issued,
      0 < id.toInt ∧ idToTgid K id = tgid := by
  have counted : Counted K tgid c.shared c.thread := by
    refine Threads.invariant (Counted K tgid) counting ?_ ?_
    · refine ⟨?_, ?_, rfl, Nat.zero_le _, ?_⟩ <;>
        simp [failing, Threads.among, Threads.still]
    · intro _ _ _ _ _ _ counted few moved
      exact counted.act few moved
  have bounded := counted.length_le
  rw [counted.issued_eq]
  constructor
  · refine List.Nodup.map_on ?_ List.nodup_range'
    intro number member other otherMember same
    rw [List.mem_range'_1] at member otherMember
    rcases Nat.lt_trichotomy number other with less | equal | more
    · exact (packId_ne less (by omega) same).elim
    · exact equal
    · exact (packId_ne more (by omega) same.symm).elim
  · intro id member
    obtain ⟨uniq, used, rfl⟩ := List.mem_map.mp member
    rw [List.mem_range'_1] at used
    exact ⟨packId_toInt_pos K positive (by omega) (by omega),
      idToTgid_packId K tgid uniq⟩

/-- The segment or permit, or its group, is being destroyed. -/
def segGone (s : State K) (seg : SegPtr) : Bool :=
  (s.seg seg).destroying || (s.tg (s.seg seg).tg).destroying

def apGone (s : State K) (permit : ApPtr) : Bool :=
  (s.ap permit).destroying || (s.tg (s.ap permit).tg).destroying

/--
The group is the only live one of its process; it is in the hash table, unless
it is being destroyed.
-/
structure InLife (s : State K) (group : TgPtr) : Prop where
  sole : s.Sole group
  hashed : (s.tg group).destroying = false → s.Hashed group

/--
Identifiers are distinct, positive and name their group, and in the life of
the group each leads to the object that was created with it, until that object
or the group is being destroyed.
-/
theorem identifiers_resolve
    {calls : List (Event (Threads ι Shared Place) (ι × Choice) Unit)}
    {c : Threads ι Shared Place} (counting : Runs K tgid Few calls c)
    (positive : 0 < tgid.toInt)
    {events : List (Event (State K) Op Ret)} {s : State K}
    (run : Run step {} (fun _ _ => True) events s) :
    (c.shared.issued.Nodup ∧ ∀ id ∈ c.shared.issued,
      0 < id.toInt ∧ idToTgid K id = tgid) ∧
    (∀ event ∈ events, ∀ caller vaddr size permitType permitValue env segid,
      event.action =
          .ioctl caller (.make vaddr size permitType permitValue) env →
      event.result = .value segid →
      InLife s (s.seg event.pre.nextSeg).tg →
        (event.post.seg event.pre.nextSeg).segid = segid ∧
        s.resolveSeg segid =
          if segGone s event.pre.nextSeg then none
          else some event.pre.nextSeg) ∧
    ∀ event ∈ events, ∀ caller segid flags permitType permitValue env apid,
      event.action =
          .ioctl caller (.get segid flags permitType permitValue) env →
      event.result = .value apid →
      InLife s (s.ap event.pre.nextAp).tg →
        (event.post.ap event.pre.nextAp).apid = apid ∧
        s.resolveAp apid =
          if apGone s event.pre.nextAp then none
          else some event.pre.nextAp := by
  have named := Named.of_run run
  refine ⟨issued_of_runs counting positive, ?_, ?_⟩
  · rintro ⟨pre, _, _, post⟩ member caller vaddr size permitType permitValue
      env segid rfl rfl life
    obtain ⟨_, _, taken⟩ := run.event_of_mem member
    obtain ⟨used, id, _⟩ := step_make_eq taken
    have recorded := Recorded.of_event run member
    refine ⟨id, ?_⟩
    rw [← id, ← recorded.seg_segid used]
    exact named.resolveSeg_eq (used.trans_le recorded.nextSeg) life.sole
      life.hashed
  · rintro ⟨pre, _, _, post⟩ member caller segid flags permitType
      permitValue env apid rfl rfl life
    obtain ⟨_, _, taken⟩ := run.event_of_mem member
    obtain ⟨used, id, _⟩ := step_get_eq taken
    have recorded := Recorded.of_event run member
    refine ⟨id, ?_⟩
    rw [← id, ← recorded.ap_apid used]
    exact named.resolveAp_eq (used.trans_le recorded.nextAp) life.sole
      life.hashed

theorem few_of_two (c : Threads (Fin 2) Shared Place)
    (move : Fin 2 × Choice) : Few c move := by
  have bound : (failing c.thread).ncard ≤ 2 := by
    refine (Set.ncard_le_ncard (Set.subset_univ _)).trans ?_
    simp [Set.ncard_univ]
  exact bound.trans_lt (by omega)

/-- Two calls for identifiers, and a process that makes a segment. -/
theorem identifiers_resolve_made :
    ∃ (calls : _) (c : Threads (Fin 2) Shared Place) (events : _)
      (s : State fourLevel),
      Runs fourLevel 1 Few calls c ∧ c.shared.issued.length = 2 ∧
      Run step {} (fun _ _ => True) events s ∧ c.shared.issued.Nodup ∧
      s.resolveSeg 0x100000001 = some 0 := by
  obtain ⟨calls, c, counting, issued⟩ := exists_run
    (Threads.step fun _ : Fin 2 => act fourLevel 1) (.still {} .idle)
    (fun _ _ => True) [(0, .makeId), (1, .makeId)]
    (fun _ c => c.shared.issued.length = 2) (by decide +kernel)
  obtain ⟨earlier, pre, before, checked⟩ := exists_run
    step ({} : State fourLevel) (fun _ _ => True)
    [.spawn 1, .openDev 1 {}, .mmap 1 0x10000 0x14000 false]
    (fun _ s => (step s (.ioctl 1 (.make 0x10000 0x4000 1 0o666) {})).any
      (fun done => decide (done.2 = .value 0x100000001 ∧ s.nextSeg = 0 ∧
        done.1.nextTg = 1 ∧ (done.1.seg 0).tg = 0 ∧
        0 ∈ done.1.myPart.tgHashtable
          (xpmemTgHashtableIndex (done.1.tg 0).tgid) ∧
        segGone done.1 0 = false)) = true)
    (by decide +kernel)
  rw [Option.any_eq_true] at checked
  obtain ⟨⟨s, ret⟩, taken, passed⟩ := checked
  simp only [decide_eq_true_eq] at passed
  obtain ⟨rfl, first, groups, owner, hashed, live⟩ := passed
  have run := before.next trivial taken
  have counted := counting.mono fun pre action _ => few_of_two pre action
  have life : InLife s (s.seg 0).tg := by
    rw [owner]
    refine ⟨fun index other member _ _ => ?_, fun _ => hashed⟩
    have known := (Named.of_run run).hashed index other member
    rw [groups] at known
    exact Nat.lt_one_iff.mp known
  have resolve := identifiers_resolve counted (by decide) run
  have made := resolve.2.1 _ (List.mem_append_right _
    (List.mem_singleton_self _)) 1 _ _ _ _ _ _ rfl rfl
  dsimp only at made
  rw [first, live] at made
  exact ⟨calls, c, _, s, counted, issued, run, resolve.1.1, (made life).2⟩

end Runs

end Xpmem.Concurrent.Identifiers
