import Xpmem.Operations.Releasing

/-!
# Teardown and process exit

What the release callback reaches when a process exits: its group is torn
down, its notifiers and its address space go, and closing the device takes
the group out of the hash table.
-/

namespace Xpmem.Driver

open Xpmem.Foundation Xpmem.Kernel Xpmem.Objects

variable {K : Platform} {tidy : Prop} {origin s t u : State K}
    {first held : Held}

/-! ## Teardown -/

/--
The groups in `gone` are torn down: they are marked, and what belongs to no
other group may have been unlinked.  Nothing else happens to groups.
-/
structure Leaves (s t : State K) (gone : TgPtr → Prop) : Prop where
  hash : t.myPart.tgHashtable = s.myPart.tgHashtable
  tg : ∀ group, (t.tg group).record = (s.tg group).record
  destroyed : ∀ group, (s.tg group).destroyed = true →
    (t.tg group).destroyed = true
  linked : ∀ object, (∀ group, gone group → ¬ s.Belongs group object) →
    s.graph.Linked object → t.graph.Linked object
  belongs : ∀ group, t.Belongs group = s.Belongs group

/-- The same, with processes and notifiers as they were. -/
structure Tears (s t : State K) (gone : TgPtr → Prop) : Prop
    extends Leaves s t gone where
  proc : t.proc = s.proc
  notifiers : ∀ mm, (t.mm mm).notifiers = (s.mm mm).notifiers

namespace Tears

variable {gone : TgPtr → Prop}

theorem of_unlinks {group : TgPtr}
    (unlinks : Unlinks s t (s.Belongs group)) (here : gone group) :
    Tears s t gone where
  proc := unlinks.winds.proc
  hash := unlinks.winds.hash
  notifiers := unlinks.winds.notifiers
  tg := unlinks.winds.tg
  destroyed other := by
    rw [unlinks.winds.destroyed]
    exact id
  linked object stays := unlinks.linked object (stays group here)
  belongs := unlinks.winds.belongs

theorem of_shape (same : t.shape = s.shape) (gone : TgPtr → Prop) :
    Tears s t gone where
  proc := (Winds.of_shape same).proc
  hash := (Winds.of_shape same).hash
  notifiers := (Winds.of_shape same).notifiers
  tg := (Winds.of_shape same).tg
  destroyed other := by
    rw [(Winds.of_shape same).destroyed]
    exact id
  linked object _ linked := by
    rw [State.graph_eq_of_shape same]
    exact linked
  belongs := (Winds.of_shape same).belongs

theorem refl (s : State K) (gone : TgPtr → Prop) : Tears s s gone :=
  of_shape rfl gone

theorem trans (earlier : Tears s t gone) (later : Tears t u gone) :
    Tears s u gone where
  proc := later.proc.trans earlier.proc
  hash := later.hash.trans earlier.hash
  notifiers mm := (later.notifiers mm).trans (earlier.notifiers mm)
  tg group := (later.tg group).trans (earlier.tg group)
  destroyed group dead :=
    later.destroyed group (earlier.destroyed group dead)
  linked object stays linked := by
    refine later.linked object (fun group here => ?_)
      (earlier.linked object stays linked)
    rw [earlier.belongs]
    exact stays group here
  belongs group := (later.belongs group).trans (earlier.belongs group)

theorem finish (s : State K) (group : TgPtr) (gone : TgPtr → Prop) :
    Tears s (s.modTg group fun tg => { tg with destroyed := true })
      gone where
  proc := rfl
  hash := rfl
  notifiers _ := rfl
  tg other := by
    simp only [State.modTg, Function.update_apply]
    split
    · rename_i same
      subst same
      rfl
    · rfl
  destroyed other dead := by
    simp only [State.modTg, Function.update_apply]
    split
    · rfl
    · exact dead
  linked object _ linked := by
    rw [State.graph_finishTg, Graph.finish_linked_iff]
    exact linked
  belongs other := by
    funext object
    cases object <;> rfl

end Tears

namespace Leaves

variable {gone : TgPtr → Prop}

theorem mm (leaves : Leaves s t gone) (group : TgPtr) :
    (t.tg group).mm = (s.tg group).mm := by
  have same := congrArg ThreadGroup.mm (leaves.tg group)
  exact same

theorem tgid (leaves : Leaves s t gone) (group : TgPtr) :
    (t.tg group).tgid = (s.tg group).tgid := by
  have same := congrArg ThreadGroup.tgid (leaves.tg group)
  exact same

theorem linked_tg_iff (leaves : Leaves s t gone) (group : TgPtr) :
    t.graph.Linked (.tg group) ↔ s.graph.Linked (.tg group) := by
  change group ∈ t.myPart.tgHashtable
      (xpmemTgHashtableIndex (t.tg group).tgid) ↔
    group ∈ s.myPart.tgHashtable
      (xpmemTgHashtableIndex (s.tg group).tgid)
  rw [leaves.hash, leaves.tgid]

end Leaves

theorem Reaches.teardown {group : TgPtr}
    (reaches : Reaches tidy origin first s (.ref (.tg group) ::ₘ held))
    {current : Task} (home : AtHome s current group) (calm : Calm held)
    (settled : Settled held)
    (free : ∀ permit, .closing (.ap permit) ∉ held)
    (linked : s.graph.Linked (.tg group))
    (live : (s.tg group).destroying = false)
    (leaving : .leaving (s.tg group).tgid ∈ held) :
    Always (xpmemTeardown s current group) fun t =>
      Reaches tidy origin first t held ∧ Tears s t (· = group) ∧
        (t.tg group).destroyed = true := by
  unfold xpmemTeardown
  extract_lets flagged
  have closing : Reaches tidy origin first flagged
      (.closing (.tg group) ::ₘ .ref (.tg group) ::ₘ held) :=
    .act reaches (.flag (.tg group) linked live)
  have marks : Unlinks s flagged (s.Belongs group) :=
    .flag s (.tg group) true _
  refine .bind ((closing.releaseApsOfTg (home.winds marks.winds)
    calm.cons_ref.cons_closing_tg settled.cons_ref.cons_closing
    (by simpa using free)).mono ?_)
  rintro released ⟨reached, releases, slots⟩
  rw [marks.winds.belongs] at releases
  have emptied := marks.trans releases
  refine .map ((reached.removeSegs _ calm.cons_ref.cons_closing_tg
    settled.cons_ref.cons_closing).mono ?_)
  rintro removed ⟨last, removes, segs⟩
  rw [emptied.winds.belongs] at removes
  have total := emptied.trans removes
  have childless : removed.graph.Childless (.tg group) := by
    refine ⟨segs, fun index => List.subset_nil.mp ?_⟩
    rw [← slots index]
    exact removes.winds.slots group index
  have token : .leaving (removed.tg group).tgid ∈
      (.ref (.tg group) ::ₘ held) := by
    rw [total.winds.tgid]
    exact Multiset.mem_cons_of_mem leaving
  have finished := Reaches.act last (.finishTg childless token)
  have shape := shape_xpmemTgDeref
    (removed.modTg group fun tg => { tg with destroyed := true }) group
  have tears : Tears s removed (· = group) := .of_unlinks total rfl
  refine ⟨finished.tgDeref, ?_, ?_⟩
  · exact (tears.trans (.finish removed group _)).trans (.of_shape shape _)
  · have flags := congrArg (fun u => (u.tg group).destroyed) shape
    refine flags.trans ?_
    change ((removed.modTg group _).tg group).destroyed = true
    simp [State.modTg]

/-! ## The release callback -/

/-- All groups of an address space are torn down. -/
def Ended (s : State K) (mm : MmPtr) : Prop :=
  ∀ group, s.graph.Linked (.tg group) → (s.tg group).mm = mm →
    (s.tg group).destroyed = true

/-- No group is being torn down. -/
def Standing (held : Held) : Prop :=
  ∀ group, .closing (.tg group) ∉ held

/-- A group of the address space that stands is the one of its process. -/
theorem WellFormed.own_group (formed : WellFormed s held) {tgid : Pid}
    {mm : MmPtr} (running : s.proc tgid = .running mm) {group : TgPtr}
    (linked : s.graph.Linked (.tg group)) (space : (s.tg group).mm = mm)
    (live : (s.tg group).destroyed = false) :
    (s.tg group).tgid = tgid := by
  have runs := formed.procs.running group linked live
  rw [space] at runs
  exact formed.procs.injective _ _ mm runs running

theorem WellFormed.ended_of_own (formed : WellFormed s held) {tgid : Pid}
    {mm : MmPtr} (running : s.proc tgid = .running mm)
    (own : ∀ group, s.graph.Linked (.tg group) →
      (s.tg group).tgid = tgid → (s.tg group).destroyed = true) :
    Ended s mm := by
  intro group linked space
  by_contra live
  rw [Bool.not_eq_true] at live
  have dead := own group linked
    (formed.own_group running linked space live)
  rw [live] at dead
  cases dead

theorem WellFormed.destroyed_of_findTg (formed : WellFormed s held)
    (standing : Standing held) {tgid : Pid}
    (missing : s.findTg tgid false = none) {group : TgPtr}
    (linked : s.graph.Linked (.tg group))
    (own : (s.tg group).tgid = tgid) : (s.tg group).destroyed = true := by
  obtain ⟨_, destroying⟩ := findTg_eq_none missing linked own
  exact (formed.graph.closing (.tg group) destroying).resolve_right
    (standing group)

theorem WellFormed.findTgOfMm_eq_none (formed : WellFormed s held)
    {mm : MmPtr} (ended : Ended s mm) : findTgOfMm s mm = none := by
  refine List.find?_eq_none.mpr fun group member => ?_
  obtain ⟨bucket, _, listed⟩ := List.mem_flatMap.mp member
  simp only [Bool.and_eq_true, decide_eq_true_eq, Bool.not_eq_true',
    not_and, Bool.not_eq_false]
  intro space
  have linked : s.graph.Linked (.tg group) :=
    formed.graph.hash.mem_owner listed
  exact (formed.graph.done (.tg group) (ended group linked space)).1

theorem Reaches.mmuRelease (reaches : Reaches tidy origin first s held)
    {tgid : Pid} {mm : MmPtr} (running : s.proc tgid = .running mm)
    (calm : Calm held) (settled : Settled held)
    (free : ∀ permit, .closing (.ap permit) ∉ held)
    (standing : Standing held) (leaving : .leaving tgid ∈ held) :
    Always (xpmemMmuRelease s ⟨tgid, none⟩ mm) fun t =>
      Reaches tidy origin first t held ∧
        Tears s t (fun group => (s.tg group).tgid = tgid) ∧
        Ended t mm := by
  have formed := reaches.formed
  unfold xpmemMmuRelease
  extract_lets abnormal
  split
  · rename_i missing
    have ended : Ended s mm := formed.ended_of_own running
      fun group => formed.destroyed_of_findTg standing missing
    have idle : abnormal s = some s := by
      simp only [abnormal, formed.findTgOfMm_eq_none ended]
    rw [idle]
    exact .some ⟨reaches, .refl s _, ended⟩
  · rename_i group found
    obtain ⟨linked, own, live⟩ := findTg_eq_some found
    have active : s.graph.destroyed (.tg group) = false :=
      formed.destroyed_eq_false (live rfl)
    have runs := formed.procs.running group linked active
    rw [own, running] at runs
    extract_lets referred
    have shape : referred.shape = s.shape := shape_xpmemTgRef s group
    have same := Winds.of_shape shape
    have space : (referred.tg group).mm = mm :=
      (same.mm group).trans (Proc.running.inj runs).symm
    rw [if_pos space]
    have flag : (referred.tg group).destroying = false :=
      (congrArg (fun u => (u.tg group).destroying) shape).trans (live rfl)
    refine ((reaches.tgRef linked).teardown (by rintro _ ⟨⟩) calm settled free
      ((same.linked group).mpr linked) flag ?_).mono ?_
    · rw [same.tgid, own]
      exact leaving
    · rintro final ⟨reached, tears, dead⟩
      have total : Tears s final fun group => (s.tg group).tgid = tgid := by
        refine Tears.trans (.of_shape shape _) ?_
        exact { tears with
          linked := fun object stays => tears.linked object
            fun other here => stays other (here ▸ own) }
      have runs' : final.proc tgid = .running mm := total.proc ▸ running
      refine ⟨reached, total, reached.formed.ended_of_own runs' ?_⟩
      intro other otherLinked otherOwn
      have equal : other = group := by
        refine formed.procs.unique other group
          ((total.linked_tg_iff other).mp otherLinked) linked ?_
        rw [← total.tgid, otherOwn, own]
      rw [equal]
      exact dead

theorem Leaves.ended {gone : TgPtr → Prop} {mm : MmPtr}
    (leaves : Leaves s t gone) (ended : Ended s mm) : Ended t mm := by
  intro group linked space
  exact leaves.destroyed group (ended group
    ((leaves.linked_tg_iff group).mp linked)
    ((leaves.mm group).symm.trans space))

theorem Reaches.notifierRelease (reaches : Reaches tidy origin first s held)
    {tgid : Pid} {mm : MmPtr} (running : s.proc tgid = .running mm)
    (calm : Calm held) (settled : Settled held)
    (free : ∀ permit, .closing (.ap permit) ∉ held)
    (standing : Standing held) (leaving : .leaving tgid ∈ held) :
    Always (mmuNotifierRelease s ⟨tgid, none⟩ mm) fun t =>
      Reaches tidy origin first t held ∧ t.proc = s.proc ∧ Ended t mm ∧
        (t.mm mm).notifiers = [] ∧
        Leaves s t (fun group => (s.tg group).tgid = tgid) := by
  have called : Always ((s.mm mm).notifiers.foldlM
      (fun s _ => xpmemMmuRelease s ⟨tgid, none⟩ mm) s) fun t =>
        (Reaches tidy origin first t held ∧
          Tears s t (fun group => (s.tg group).tgid = tgid)) ∧
        (∀ group ∈ (s.mm mm).notifiers, Ended t mm) ∧
        ∀ _ : TgPtr, Ended s mm → Ended t mm := by
    refine Always.foldlM_each ⟨reaches, .refl s _⟩ ?_
    rintro pre group _ ⟨reached, tears⟩
    refine (reached.mmuRelease (tears.proc ▸ running) calm settled free
      standing leaving).mono ?_
    rintro next ⟨last, later, ended⟩
    refine ⟨⟨last, tears.trans ?_⟩, ended, fun _ _ => ended⟩
    simp only [tears.tgid] at later
    exact later
  refine .map (called.mono ?_)
  rintro final ⟨⟨reached, tears⟩, ended, _⟩
  have complete : Ended final mm := by
    by_cases none : (s.mm mm).notifiers = []
    · refine tears.ended fun group linked space => ?_
      by_contra live
      rw [Bool.not_eq_true] at live
      have member := reaches.formed.procs.registered group linked live
      rw [space, none] at member
      cases member
    · obtain ⟨group, member⟩ := List.exists_mem_of_ne_nil _ none
      exact ended group member
  refine ⟨.act reached (.hush complete), tears.proc, complete, ?_,
    { tears.toLeaves with }⟩
  simp [State.modMm]

/-! ## The steps of an exit -/

theorem Reaches.exitMmap (reaches : Reaches tidy origin first s held)
    {mm : MmPtr} (ended : Ended s mm) :
    Always (exitMmap s mm) fun t =>
      Reaches tidy origin first t held ∧
        t = s.setSpace mm .empty .empty s.nextVma := by
  have formed := reaches.formed
  have sound := formed.graph
  have active {group : TgPtr}
      (standing : s.graph.Linked (.tg group) ∧
        s.graph.destroyed (.tg group) = false) : (s.tg group).mm ≠ mm := by
    intro space
    have dead := ended group standing.1 space
    exact Bool.noConfusion (standing.2.symm.trans dead)
  have none (att : AttPtr) (linked : s.graph.Linked (.att att)) :
      (s.att att).mm ≠ mm := by
    rw [formed.laid.home att linked]
    exact active (sound.linked_tg_of_ap (sound.linked_ap linked).1)
  have wiped : Reaches tidy origin first
      (s.setSpace mm .empty .empty s.nextVma) held := by
    refine .act reaches (.wipe (fun att bound => none att bound.1) ?_)
    exact fun seg linked => active (sound.linked_tg_of_seg linked)
  have closed : Always (Driver.exitMmap s mm) fun t =>
      t = s.setSpace mm .empty .empty s.nextVma := by
    refine Always.foldlM rfl ?_
    rintro pre area member rfl
    have plain : area.payload.privateData = Option.none := by
      rw [Option.eq_none_iff_forall_ne_some]
      intro att carries
      obtain ⟨bound, space, _⟩ :=
        formed.laid.placed.attached mm area member att carries
      exact none att bound.1 space
    rw [closeVma_of_none plain]
    exact .some rfl
  refine closed.mono ?_
  rintro final rfl
  exact ⟨wiped, rfl⟩

/-- `exit_mm` of a process. -/
theorem Reaches.exitMm {tgid : Pid} {mm : MmPtr} (formed : WellFormed s 0)
    (running : s.proc tgid = .running mm) :
    Always (exitMm s tgid mm) fun t =>
      Reaches tidy s 0 t 0 ∧ Ended t mm ∧
        Leaves s t fun group => (s.tg group).tgid = tgid := by
  have started : Reaches tidy s 0 s (.leaving tgid ::ₘ 0) :=
    .act (.here formed) (.leave tgid)
  refine .bind ((started.notifierRelease running
    ⟨by simp, by simp⟩ (by simp [Settled]) (by simp) (by simp [Standing])
    (by simp)).mono ?_)
  rintro released ⟨reached, proc, ended, quiet, leaves⟩
  refine .map ((reached.exitMmap ended).mono ?_)
  rintro final ⟨last, rfl⟩
  have still : (released.setSpace mm .empty .empty
      released.nextVma).proc tgid = .running mm := proc ▸ running
  refine ⟨.act last (.exiting still ?_), ended, { leaves with }⟩
  simpa [State.setSpace, State.modMm] using quiet

/-- A group without a registered notifier is unlinked without a callback. -/
theorem main_notifierUnlink {current : Task} {group : TgPtr}
    (absent : group ∉ (s.mm (s.tg group).mm).notifiers) :
    Always (xpmemMmuNotifierUnlink s current group) fun t =>
      t.main = s.main := by
  unfold xpmemMmuNotifierUnlink mmuNotifierUnregister
  split
  · exact .some rfl
  · refine (if_neg absent).symm ▸ .some ?_
    exact s.main_modTg group rfl

/-- `exit_files` of a process without an address space. -/
theorem Reaches.exitFiles {tgid : Pid} (formed : WellFormed s 0)
    (exiting : s.proc tgid = .exiting) :
    Always (exitFiles s tgid) fun t => Reaches tidy s 0 t 0 := by
  have start : Reaches tidy s 0 s 0 := .here formed
  have dead {group : TgPtr} (linked : s.graph.Linked (.tg group))
      (own : (s.tg group).tgid = tgid) : (s.tg group).destroyed = true := by
    by_contra live
    rw [Bool.not_eq_true] at live
    have runs := formed.procs.running group linked live
    rw [own, exiting] at runs
    cases runs
  unfold Driver.exitFiles xpmemFlush
  refine .map ?_
  split
  · rename_i missing
    refine .some (.act start (.gone fun group linked own => ?_))
    exact absurd (findTg_eq_none missing linked own).1 (by decide)
  · rename_i group found
    obtain ⟨linked, own, _⟩ := findTg_eq_some found
    have shape := shape_xpmemTgRef s group
    have same := Winds.of_shape shape
    have unhashed : Reaches tidy s 0
        (unhashTg (s.xpmemTgRef group) group)
        (.ref (.tg group) ::ₘ .ref (.tg group) ::ₘ 0) := by
      refine .act (start.tgRef linked) (.unhash
        ((same.linked group).mpr linked) ?_ (by simp) (by simp))
      rw [same.destroyed]
      exact dead linked own
    have silent : group ∉ ((unhashTg (s.xpmemTgRef group) group).mm
        ((unhashTg (s.xpmemTgRef group) group).tg group).mm).notifiers := by
      intro member
      obtain ⟨_, _, runs, _⟩ := formed.procs.notifier _ group member
      rw [own, exiting] at runs
      cases runs
    refine .map ((main_notifierUnlink silent).mono fun unlinked minor => ?_)
    have reached : Reaches tidy s 0 unlinked
        (.ref (.tg group) ::ₘ .ref (.tg group) ::ₘ 0) :=
      .act unhashed (.minor minor)
    refine .act reached.tgDeref.tgDeref (.gone fun other present equal => ?_)
    have final : ((unlinked.xpmemTgDeref group).xpmemTgDeref
        group).shape = (unhashTg (s.xpmemTgRef group) group).shape := by
      rw [shape_xpmemTgDeref, shape_xpmemTgDeref,
        State.shape_eq_of_main minor]
    rw [State.graph_eq_of_shape final, State.graph_unhashTg,
      (Graph.shrinks_dropTg (start.tgRef linked).formed.graph
        group).linked, State.graph_eq_of_shape shape] at present
    have tgids := (congrArg (fun u => (u.tg other).tgid) final).trans
      (same.tgid other)
    refine present.2 (congrArg Ref.tg ?_)
    exact formed.procs.unique other group present.1 linked
      ((tgids.symm.trans equal).trans own.symm)

end Xpmem.Driver
