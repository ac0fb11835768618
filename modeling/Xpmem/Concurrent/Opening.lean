import Xpmem.Foundation.Threads

/-!
# Opening and closing the device

Threads of any processes run `xpmem_open` and `xpmem_flush`, and their
processes exit.  The steps are the critical sections of the lock of the
thread groups' hash list.  Groups are numbered in the order in which they are
put into the table.
-/

namespace Xpmem.Concurrent.Opening

open Foundation

universe u

/-- A thread group in the hash table. -/
structure Group where
  name : Nat
  tgid : Nat
  destroying : Bool := false
deriving DecidableEq

/-- What the threads share. -/
structure Shared where
  table : List Group := []
  /-- The groups made so far are those below. -/
  made : Nat := 0
  /-- How often a group was taken out of the table, and destroyed. -/
  removed : Nat → Nat := fun _ => 0
  destroyed : Nat → Nat := fun _ => 0

/-- Where a thread is. -/
inductive Place where
  | idle
  /-- `xpmem_open` has found no group. -/
  | opening (tgid : Nat)
  /-- `xpmem_flush` is about to destroy the group it took out. -/
  | destroy (group : Nat)
deriving DecidableEq

/-- What a thread does next. -/
inductive Choice where
  | openDev (tgid : Nat)
  /-- `xpmem_flush`, after the test for an inherited descriptor. -/
  | flush (tgid : Nat)
  /-- The MMU notifier's release callback, which flags the group. -/
  | release (tgid : Nat)
  /-- Goes on; `yes` when a call succeeds that can fail. -/
  | go (yes : Bool)
deriving DecidableEq

/-- The group is one of the process that is not being destroyed. -/
def Group.live (tgid : Nat) (group : Group) : Bool :=
  group.tgid == tgid && !group.destroying

/-- `xpmem_tg_ref_by_tgid`. -/
def Shared.findTg (s : Shared) (tgid : Nat) : Option Group :=
  s.table.find? (Group.live tgid)

/-- `xpmem_tg_ref_by_tgid_all`. -/
def Shared.findTgAll (s : Shared) (tgid : Nat) : Option Group :=
  s.table.find? (·.tgid == tgid)

/-- One step of a thread. -/
def act (s : Shared) : Place → Choice → Option (Shared × Place)
  | .idle, .openDev tgid =>
      match s.findTg tgid with
      | some _ => some (s, .idle)
      | none => some (s, .opening tgid)
  | .opening tgid, .go ready =>
      if ready then
        some ({ s with
          table := s.table ++ [{ name := s.made, tgid }]
          made := s.made + 1 }, .idle)
      else some (s, .idle)
  | .idle, .flush tgid =>
      match s.findTgAll tgid with
      | none => some (s, .idle)
      | some group =>
          some ({ s with
            table := s.table.erase group
            removed := Function.update s.removed group.name
              (s.removed group.name + 1) }, .destroy group.name)
  | .destroy group, .go _ =>
      some ({ s with
        destroyed := Function.update s.destroyed group
          (s.destroyed group + 1) }, .idle)
  | .idle, .release tgid =>
      match s.findTg tgid with
      | none => some (s, .idle)
      | some group =>
          some ({ s with
            table := s.table.map fun other =>
              if other.name = group.name then { other with destroying := true }
              else other }, .idle)
  | _, _ => none

/-! ## Live groups -/

variable {s next : Shared} {place place' : Place} {choice : Choice}

/-- How many live groups a process has. -/
def Shared.live (s : Shared) (tgid : Nat) : Nat :=
  s.table.countP (Group.live tgid)

/-- Live groups are added by the step that ends an open, and by no other. -/
theorem live_act (moved : act s place choice = some (next, place'))
    (tgid : Nat) :
    next.live tgid ≤ s.live tgid ∨
      (place = .opening tgid ∧ choice = .go true ∧
        next.live tgid = s.live tgid + 1) := by
  revert moved
  fun_cases act s place choice <;> intro moved <;>
    simp only [Option.some.injEq, Prod.mk.injEq, reduceCtorEq] at moved <;>
    obtain ⟨rfl, rfl⟩ := moved
  case case3 opened =>
    by_cases same : opened = tgid
    · refine .inr ⟨by rw [same], rfl, ?_⟩
      simp [Shared.live, Group.live, same]
    · refine .inl ?_
      simp [Shared.live, Group.live, same]
  case case6 group _ =>
    exact .inl List.erase_sublist.countP_le
  case case9 group _ =>
    refine .inl ?_
    unfold Shared.live
    rw [List.countP_map]
    refine List.countP_mono_left fun other _ live => ?_
    simp only [Function.comp_apply] at live
    split at live
    · simp [Group.live] at live
    · exact live
  all_goals exact .inl le_rfl

/-- An open goes on only when its process has no live group. -/
theorem live_eq_zero_of_opening {tgid : Nat}
    (moved : act s place choice = some (next, .opening tgid)) :
    next.live tgid = 0 := by
  revert moved
  fun_cases act s place choice <;> intro moved <;>
    simp only [Option.some.injEq, Prod.mk.injEq, reduceCtorEq, and_false]
      at moved
  case case2 none =>
    obtain ⟨rfl, same⟩ := moved
    cases same
    refine List.countP_eq_zero.mpr fun group member => ?_
    exact List.find?_eq_none.mp none group member

/-! ## Groups that are taken out and destroyed -/

/-- A group is taken out of the table once at most, and then destroyed. -/
structure Once (s : Shared) : Prop where
  nodup : (s.table.map Group.name).Nodup
  known {group : Group} (member : group ∈ s.table) :
    group.name < s.made ∧ s.removed group.name = 0
  new {group : Nat} (above : s.made ≤ group) : s.removed group = 0
  removed_le (group : Nat) : s.removed group ≤ 1

theorem Once.act (once : Once s)
    (moved : act s place choice = some (next, place')) : Once next := by
  revert moved
  fun_cases Opening.act s place choice <;> intro moved <;>
    simp only [Option.some.injEq, Prod.mk.injEq, reduceCtorEq] at moved <;>
    obtain ⟨rfl, rfl⟩ := moved
  case case3 opened =>
    refine ⟨?_, ?_, fun above => once.new (Nat.le_of_succ_le above),
      once.removed_le⟩
    · rw [List.map_append, List.nodup_append]
      refine ⟨once.nodup, by simp, ?_⟩
      simp only [List.mem_map, List.map_cons, List.map_nil,
        List.mem_singleton]
      rintro _ ⟨group, member, rfl⟩ _ rfl
      exact (once.known member).1.ne
    · intro group member
      rcases List.mem_append.mp member with old | last
      · exact ⟨(once.known old).1.trans (Nat.lt_succ_self _),
          (once.known old).2⟩
      · rw [List.mem_singleton] at last
        subst group
        exact ⟨Nat.lt_succ_self _, once.new le_rfl⟩
  case case6 group found =>
    have member := List.mem_of_find?_eq_some found
    have differs {other : Group} (left : other ∈ s.table.erase group) :
        other.name ≠ group.name := by
      intro same
      have kept := List.mem_of_mem_erase left
      have equal := List.inj_on_of_nodup_map once.nodup kept member same
      rw [equal] at left
      exact (List.Nodup.of_map _ once.nodup).not_mem_erase left
    have known := once.known member
    refine ⟨once.nodup.sublist (List.erase_sublist.map _), ?_, ?_, ?_⟩
    · intro other left
      have old := once.known (List.mem_of_mem_erase left)
      exact ⟨old.1, (Function.update_of_ne (differs left) _ _).trans old.2⟩
    · intro other above
      have apart : other ≠ group.name := (known.1.trans_le above).ne'
      exact (Function.update_of_ne apart _ _).trans (once.new above)
    · intro other
      by_cases same : other = group.name
      · simp [same, known.2]
      · simpa [same] using once.removed_le other
  case case7 =>
    exact ⟨once.nodup, once.known, once.new, once.removed_le⟩
  case case9 group found =>
    have names : (s.table.map fun other =>
        if other.name = group.name then { other with destroying := true }
        else other).map Group.name = s.table.map Group.name := by
      rw [List.map_map]
      refine List.map_congr_left fun other _ => ?_
      simp only [Function.comp_apply]
      split <;> rfl
    refine ⟨names ▸ once.nodup, ?_, once.new, once.removed_le⟩
    intro other member
    obtain ⟨old, kept, rfl⟩ := List.mem_map.mp member
    have known := once.known kept
    split <;> exact known
  all_goals exact once

/-- The group is taken out and not destroyed yet. -/
def Shared.pending (s : Shared) (group : Nat) : Bool :=
  decide (s.destroyed group < s.removed group)

/-- The thread that takes a group out is the one to destroy it. -/
theorem pending_act (moved : act s place choice = some (next, place'))
    (once : Once s) (group : Nat)
    (bounded : s.destroyed group ≤ s.removed group)
    (pending : place = .destroy group → s.pending group = true) :
    next.destroyed group ≤ next.removed group ∧
      Threads.LockStep (s.pending group) (place = .destroy group)
        (next.pending group) (place' = .destroy group) := by
  revert moved
  fun_cases act s place choice <;> intro moved <;>
    simp only [Option.some.injEq, Prod.mk.injEq, reduceCtorEq] at moved <;>
    obtain ⟨rfl, rfl⟩ := moved
  case case6 taken found =>
    have known := once.known (List.mem_of_find?_eq_some found)
    by_cases same : group = taken.name
    · subst group
      have none : s.destroyed taken.name = 0 := by omega
      refine ⟨?_, .acquire ?_ ?_⟩ <;>
        simp [Shared.pending, known.2, none]
    · refine ⟨?_, .keep ?_ ?_⟩ <;>
        simp_all [Shared.pending, Ne.symm same]
  case case7 destroyed _ =>
    by_cases same : group = destroyed
    · subst group
      have below := of_decide_eq_true (pending rfl)
      exact ⟨by simpa using below, .release rfl nofun⟩
    · refine ⟨?_, .keep ?_ nofun⟩ <;>
        simp_all [Shared.pending]
  all_goals exact ⟨bounded, .keep rfl nofun⟩

section Runs

variable {ι : Type u} [DecidableEq ι]

/-- What holds of all groups. -/
structure Sound (s : Shared) (thread : ι → Place) : Prop where
  once : Once s
  bounded (group : Nat) : s.destroyed group ≤ s.removed group
  pending (group : Nat) :
    Threads.Exclusive (s.pending group) (· = .destroy group) thread
  live (tgid : Nat) : s.live tgid ≤ 1
  opening {name : ι} {tgid : Nat} (here : thread name = .opening tgid) :
    s.live tgid = 0

/--
No open puts its group into the table while another open of the same process
is between its look-up and its own insertion.
-/
def Alone (s : Threads ι Shared Place) (move : ι × Choice) : Prop :=
  match s.thread move.1, move.2 with
  | .opening tgid, .go true =>
      ∀ other, other ≠ move.1 → s.thread other ≠ .opening tgid
  | _, _ => True

instance [Fintype ι] (s : Threads ι Shared Place) (move : ι × Choice) :
    Decidable (Alone s move) := by
  unfold Alone
  split <;> infer_instance

theorem Sound.act {thread : ι → Place} {name : ι} (sound : Sound s thread)
    (alone : Alone ⟨s, thread⟩ (name, choice))
    (moved : act s (thread name) choice = some (next, place)) :
    Sound next (Function.update thread name place) := by
  have counts (group : Nat) := pending_act moved sound.once group
    (sound.bounded group) fun here => (sound.pending group).held_of_owns here
  refine ⟨sound.once.act moved, fun group => (counts group).1,
    fun group => (sound.pending group).update (counts group).2,
    fun tgid => ?_, fun {other tgid} here => ?_⟩
  · rcases live_act moved tgid with fewer | ⟨here, _, more⟩
    · exact fewer.trans (sound.live tgid)
    · rw [more, sound.opening here]
  · by_cases equal : other = name
    · rw [equal, Function.update_self] at here
      subst place
      exact live_eq_zero_of_opening moved
    · rw [Function.update_of_ne equal] at here
      have none := sound.opening here
      rcases live_act moved tgid with fewer | ⟨there, rfl, more⟩
      · omega
      · simp only [Alone, there] at alone
        exact (alone other equal here).elim

/-- The runs of any number of threads, all idle at first. -/
abbrev Runs (allowed : Threads ι Shared Place → ι × Choice → Prop)
    (events : List (Event (Threads ι Shared Place) (ι × Choice) Unit))
    (s : Threads ι Shared Place) : Prop :=
  Run (Threads.step fun _ : ι => act) (.still {} .idle) allowed events s

/--
A process has one live group at most, and a group is taken out of the table
and destroyed once at most.
-/
theorem live_le_one
    {events : List (Event (Threads ι Shared Place) (ι × Choice) Unit)}
    {s : Threads ι Shared Place} (run : Runs Alone events s) :
    (∀ tgid, s.shared.live tgid ≤ 1) ∧
      ∀ group, s.shared.removed group ≤ 1 ∧
        s.shared.destroyed group ≤ 1 := by
  have sound : Sound s.shared s.thread := by
    refine Threads.invariant Sound run ⟨⟨.nil, nofun, fun _ => rfl,
      fun _ => Nat.zero_le 1⟩, fun _ => le_rfl, fun _ => ⟨nofun, nofun⟩,
      fun _ => Nat.zero_le 1, nofun⟩ ?_
    intro _ _ _ _ _ _ sound alone moved
    exact sound.act alone moved
  exact ⟨sound.live, fun group => ⟨sound.once.removed_le group,
    (sound.bounded group).trans (sound.once.removed_le group)⟩⟩

/-- A process opens the device, closes it and opens it again. -/
theorem live_le_one_reopened :
    ∃ events s, Runs (ι := Fin 2) Alone events s ∧
      s.shared.made = 2 ∧ s.shared.live 7 ≤ 1 := by
  obtain ⟨events, s, run, made⟩ := exists_run
    (Threads.step fun _ : Fin 2 => act) (.still {} .idle) Alone
    [(0, .openDev 7), (0, .go true), (1, .flush 7), (0, .openDev 7),
      (0, .go true), (1, .go true)]
    (fun _ s => s.shared.made = 2)
    (by decide)
  exact ⟨events, s, run, made, (live_le_one run).1 7⟩

/-- Two threads of a process open the device at the same time. -/
theorem two_live :
    ∃ events s, Runs (ι := Fin 2) (fun _ _ => True) events s ∧
      s.shared.live 7 = 2 :=
  exists_run (Threads.step fun _ : Fin 2 => act) (.still {} .idle)
    (fun _ _ => True)
    [(0, .openDev 7), (1, .openDev 7), (0, .go true), (1, .go true)]
    (fun _ s => s.shared.live 7 = 2)
    (by decide)

end Runs

end Xpmem.Concurrent.Opening
