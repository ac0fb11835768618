import Xpmem.Operations.Mapping

/-!
# Detaching

`xpmem_detach` and `xpmem_detach_att`: an attachment loses its area and its
link before the area is unmapped, so the unmap takes no attachment along.
-/

namespace Xpmem.Driver

open Xpmem.Foundation Xpmem.Kernel Xpmem.Objects

variable {K : Platform} {tidy : Prop} {origin s t : State K}
    {first held : Held} {start stop : Nat}

/-- No attached area meets the range. -/
def Unattached (s : State K) (mm : MmPtr) (start stop : Nat) : Prop :=
  ∀ area ∈ s.vmas mm, area.Meets start stop →
    area.payload.privateData = none

theorem Unattached.spared {mm : MmPtr}
    (unattached : Unattached s mm start stop) :
    Spared s mm start stop := by
  intro area member carried meets
  exact (carried (unattached area member meets)).elim

theorem Unattached.lostAtts_eq_nil {mm : MmPtr}
    (unattached : Unattached s mm start stop) :
    lostAtts s mm start stop = [] := by
  rw [List.eq_nil_iff_forall_not_mem]
  intro att lost
  obtain ⟨area, member, meets, carries⟩ :=
    (mem_lostAtts_iff unattached.spared).mp lost
  rw [unattached area member meets] at carries
  cases carries

theorem unattached_untie {att : AttPtr} {area : Vma}
    (member : area ∈ s.vmas (s.att att).mm) :
    Unattached (s.untie att area.payload.vma) (s.att att).mm area.start
      area.stop := by
  intro piece found meets
  rw [State.untie, State.vmas_updateVma, Function.update_self] at found
  obtain ⟨old, oldMember, rfl⟩ := RangeList.mem_mapPayload_iff.mp found
  have same : old = area :=
    RangeList.eq_of_meets oldMember member meets
  simp [same]

/-- The pages of an attachment are put as one range. -/
theorem WellFormed.unpinPages_eq (formed : WellFormed s held)
    {att : AttPtr} (present : s.Bound held att) :
    xpmemUnpinPages s (s.segOf att) (s.att att).mm (s.att att).atVaddr
        (s.att att).atSize =
      (s.walk att (s.place att).page (s.place att).pages).map
        (Driver.putPages s (s.segOf att)) := by
  have limit := K.taskSize_le
  obtain ⟨start, size, _, below, _, _⟩ := formed.bounds present
  have vaddr : (s.att att).atVaddr = (s.place att).page * pageSize := by
    change (s.place att).start = _
    unfold Place.page
    unfold pageSize at *
    omega
  have length : (s.att att).atSize = (s.place att).pages * pageSize := by
    change (s.place att).size = _
    unfold Place.pages
    unfold pageSize at *
    omega
  rw [vaddr, length]
  refine xpmemUnpinPages_eq s (s.segOf att) att ?_
  rw [← length]
  change (s.place att).size < _
  omega

theorem Reaches.detachUnlink {att : AttPtr} {area : Vma}
    (reaches : Reaches tidy origin first s
      (.closing (.att att) ::ₘ held))
    (present : s.Bound held att)
    (member : area ∈ s.vmas (s.att att).mm)
    (carries : area.payload.privateData = some att) :
    Always (detachUnlink s (s.att att).mm (s.att att).ap att area)
      fun t => Reaches tidy origin first t (.ref (.att att) ::ₘ held) ∧
        Unlinks s t (· = .att att) ∧
        Unattached t (s.att att).mm area.start area.stop ∧
        (t.att att).atSize = (s.att att).atSize := by
  have bound : s.Bound (.closing (.att att) ::ₘ held) att :=
    ⟨present.1, by simpa using present.2⟩
  have unpin := reaches.formed.unpinPages_eq bound
  unfold State.segOf at unpin
  unfold Driver.detachUnlink
  rw [unpin]
  refine .map (.map fun put walked => ?_)
  beta_reduce
  extract_lets untied flagged
  have same := shape_putPages s (s.segOf att) put
  have cut : Reaches tidy origin first untied
      (.bare att ::ₘ .closing (.att att) ::ₘ held) := by
    have step := Reaches.act reaches (.untie bound member carries walked)
    have record : (putPages s (s.segOf att) put).att = s.att :=
      putPages_att s _ put
    rw [State.untie, record] at step
    exact step
  have invalid : Reaches tidy origin first flagged
      (.closing (.att att) ::ₘ .bare att ::ₘ held) := by
    refine Reaches.swap (.act cut (.setValid att false ?_))
    intro _ still
    exact (still.2 (Multiset.mem_cons_self _ _)).elim
  have record : untied.att = s.att := putPages_att s (s.segOf att) put
  have owner : (flagged.att att).ap = (s.att att).ap := by
    simp [flagged, State.modAtt, record]
  have step := Reaches.act invalid (.unlinkAtt att)
  rw [owner] at step
  refine ⟨step, ?_, ?_, ?_⟩
  · have cuts : Unlinks s untied (· = .att att) :=
      (Unlinks.of_shape same _).trans
        (.of_objects (State.objects_modMm _ _ rfl) _)
    have marks : Unlinks untied flagged (· = .att att) :=
      .of_objects (State.objects_modAtt untied att rfl) _
    have last := Unlinks.unlinkAtt invalid.formed.graph att
    rw [owner] at last
    exact (cuts.trans marks).trans last
  · have inside : area ∈ (putPages s (s.segOf att) put).vmas
        ((putPages s (s.segOf att) put).att att).mm := by
      rw [State.vmas, putPages_mm, putPages_att]
      exact member
    have unattached := unattached_untie inside
    rw [State.untie, putPages_att] at unattached
    exact unattached
  · simp [unlinkAtt, State.modAp, flagged, State.modAtt, record]

/-- The address space of the task is that of the group. -/
def AtHome (s : State K) (current : Task) (group : TgPtr) : Prop :=
  ∀ mm, current.mm = some mm →
    s.proc current.tgid = .running mm ∧ (s.tg group).mm = mm

theorem AtHome.winds {current : Task} {group : TgPtr}
    (home : AtHome s current group) (winds : Winds s t) :
    AtHome t current group := by
  intro mm present
  rw [winds.proc, winds.mm]
  exact home mm present

/-- Every linked attachment has an area. -/
def Settled (held : Held) : Prop :=
  ∀ att, .bare att ∉ held

theorem Settled.cons_ref (settled : Settled held) {object : Ref} :
    Settled (.ref object ::ₘ held) := by
  intro att bare
  exact settled att (by simpa using bare)

theorem Calm.cons_ref (calm : Calm held) {object : Ref} :
    Calm (.ref object ::ₘ held) where
  att att token := calm.att att (by simpa using token)
  seg seg token := calm.seg seg (by simpa using token)

theorem Settled.unborn (settled : Settled held) : Unborn s held :=
  fun att bare => (settled att bare).elim

theorem Reaches.munmapArea (reaches : Reaches tidy origin first s held)
    {current : Task} {mm : MmPtr}
    (running : s.proc current.tgid = .running mm) (calm : Calm held)
    (settled : Settled held) (proper : start < stop)
    (startAligned : start % pageSize = 0)
    (stopAligned : stop % pageSize = 0) (below : stop ≤ K.taskSize)
    (unattached : Unattached s mm start stop) :
    Always (Driver.vmMunmap s current mm start stop) fun t =>
      Reaches tidy origin first t held ∧ Unlinks s t fun _ => False := by
  refine (reaches.vmMunmap running calm settled.unborn proper startAligned
    stopAligned below unattached.spared
    fun _ => unattached.lostAtts_eq_nil).mono ?_
  rintro final ⟨reached, unmaps⟩
  refine ⟨reached, unmaps.unlinks.mono ?_⟩
  rintro object ⟨att, _, lost⟩
  rw [unattached.lostAtts_eq_nil] at lost
  cases lost

theorem Reaches.detachAtt (reaches : Reaches tidy origin first s held)
    {current : Task} {permit : ApPtr} {att : AttPtr}
    (home : AtHome s current (s.ap permit).tg) (calm : Calm held)
    (settled : Settled held) (linked : s.graph.Linked (.att att))
    (owner : (s.att att).ap = permit) :
    Always (xpmemDetachAtt s current permit att) fun t =>
      Reaches tidy origin first t held ∧ Unlinks s t (· = .att att) := by
  have formed := reaches.formed
  have live := formed.att_live calm linked
  subst owner
  have space : current.mm.getD (s.att att).mm = (s.att att).mm := by
    cases present : current.mm with
    | none => rfl
    | some mm =>
        rw [formed.laid.home att linked]
        exact (home mm present).2.symm
  unfold xpmemDetachAtt
  rw [space, if_neg (by simp [live])]
  extract_lets flagged
  have closing : Reaches tidy origin first flagged
      (.closing (.att att) ::ₘ held) :=
    .act reaches (.flag (.att att) linked live)
  have record : (flagged.att att).atVaddr = (s.att att).atVaddr ∧
      (flagged.att att).mm = (s.att att).mm ∧
      (flagged.att att).ap = (s.att att).ap ∧
      (flagged.att att).atSize = (s.att att).atSize := by
    simp [flagged, State.modAtt]
  obtain ⟨area, member, occupies, contains⟩ :=
    formed.vmaAt ⟨linked, settled att⟩
  have found : (flagged.mm (s.att att).mm).vmaAt
      (flagged.att att).atVaddr = some area := by
    rw [record.1]
    exact RangeList.containing_eq_some_iff.mpr ⟨member, contains⟩
  rw [found]
  have marks : Unlinks s flagged (· = .att att) := .flag s (.att att) true _
  have bound : flagged.Bound held att := by
    refine ⟨?_, settled att⟩
    change (s.flag (.att att) true).graph.Linked _
    rw [State.graph_flag]
    exact linked
  have unlinks := closing.detachUnlink bound
    (by rw [record.2.1]; exact member) occupies.privateData
  rw [record.2.1, record.2.2.1, record.2.2.2] at unlinks
  refine .bind (unlinks.mono ?_)
  rintro cut ⟨reached, later, unattached, size⟩
  have total : Unlinks s cut (· = .att att) := marks.trans later
  have stop : area.start + (cut.att att).atSize = area.stop := by
    rw [size, occupies.start, occupies.stop]
    rfl
  rw [stop]
  refine .map ?_
  split
  · exact .some ⟨reached.attDeref,
      total.trans (.of_shape (shape_xpmemAttDeref _ _) _)⟩
  · rename_i present
    obtain ⟨mm, task⟩ := Option.ne_none_iff_exists'.mp present
    obtain ⟨runs, own⟩ := home mm task
    rw [← own, ← formed.laid.home att linked, ← total.winds.proc] at runs
    obtain ⟨startAligned, stopAligned, below⟩ :=
      formed.laid.placed.fits _ area member
    refine (reached.munmapArea runs calm.cons_ref settled.cons_ref
      (RangeList.start_lt_stop member) startAligned stopAligned below
      unattached).mono ?_
    rintro final ⟨unmapped, last⟩
    exact ⟨unmapped.attDeref,
      (total.trans (last.mono fun _ => False.elim)).trans
        (.of_shape (shape_xpmemAttDeref _ _) _)⟩

theorem Reaches.detach (reaches : Reaches tidy origin first s held)
    {current : Task} {mm : MmPtr}
    (running : s.proc current.tgid = .running mm) (calm : Calm held)
    (settled : Settled held) (atVaddr : Nat) (killed : Bool) :
    Always (xpmemDetach s current mm atVaddr killed) fun result =>
      Reaches tidy origin first result.1 held ∧ Winds s result.1 := by
  have formed := reaches.formed
  unfold xpmemDetach
  split
  · exact .some ⟨reaches, .refl s⟩
  rename_i area found
  obtain ⟨member, _⟩ := RangeList.containing_eq_some_iff.mp found
  split
  · exact .some ⟨reaches, .refl s⟩
  rename_i att carries
  obtain ⟨present, home, occupies⟩ :=
    formed.laid.placed.attached mm area member att carries
  have linked := present.1
  split
  · exact .some ⟨reaches, .refl s⟩
  extract_lets counted flagged permit guarded unflagged released
  have same : counted.shape = s.shape := shape_xpmemAttRef s att
  have entered : Reaches tidy origin first counted
      (.ref (.att att) ::ₘ held) :=
    reaches.attRef linked
  have winds : Winds s counted := .of_shape same
  split
  · exact .some ⟨entered.attDeref,
      winds.trans (.of_shape (shape_xpmemAttDeref _ _))⟩
  split
  · exact .some ⟨entered.attDeref,
      winds.trans (.of_shape (shape_xpmemAttDeref _ _))⟩
  rename_i live
  simp only [Bool.not_eq_true] at live
  have stays : counted.graph.Linked (.att att) := by
    rw [State.graph_eq_of_shape same]
    exact linked
  have closing : Reaches tidy origin first flagged
      (.closing (.att att) ::ₘ .ref (.att att) ::ₘ held) :=
    .act entered (.flag (.att att) stays live)
  have owner : flagged.graph.Linked (.ap permit) := by
    have graph : flagged.graph = counted.graph.flag (.att att) true :=
      State.graph_flag counted (.att att) true
    have attLinked : flagged.graph.Linked (.att att) := by
      rw [graph]
      exact stays
    exact (closing.formed.graph.linked_ap attLinked).1
  have guard : Reaches tidy origin first guarded
      (.closing (.att att) ::ₘ .ref (.ap permit) ::ₘ .ref (.att att) ::ₘ
        held) :=
    (closing.apRef owner).swap
  have marked : Winds s guarded :=
    (winds.flag (.att att) true).trans
      (.of_shape (shape_xpmemApRef flagged permit))
  split
  · refine .some ⟨Reaches.attDeref (Reaches.apDeref
      (.act guard (.unflag att))), ?_⟩
    refine ((marked.flag (.att att) false).trans
      (.of_shape (shape_xpmemApDeref _ permit))).trans
        (.of_shape (shape_xpmemAttDeref _ att))
  have record : (guarded.att att).mm = (s.att att).mm ∧
      (guarded.att att).ap = permit ∧
      (guarded.att att).atSize = (s.att att).atSize := by
    simp [guarded, flagged, permit, counted, State.xpmemApRef,
      State.xpmemAttRef, State.modAp, State.modAtt]
  have space : (s.att att).mm = mm := home
  have bound : guarded.Bound
      (.ref (.ap permit) ::ₘ .ref (.att att) ::ₘ held) att := by
    refine ⟨?_, by simpa using settled att⟩
    rw [State.graph_eq_of_shape (shape_xpmemApRef flagged permit)]
    change (counted.flag (.att att) true).graph.Linked _
    rw [State.graph_flag]
    exact stays
  have unlinks := guard.detachUnlink bound
    (by rw [record.1, space]; exact member) carries
  rw [record.1, record.2.1, record.2.2, space] at unlinks
  refine .bind (unlinks.mono ?_)
  rintro cut ⟨reached, later, unattached, size⟩
  have total : Winds s cut := marked.trans later.winds
  have stop : area.start + (cut.att att).atSize = area.stop := by
    rw [size, occupies.start, occupies.stop]
    rfl
  rw [stop]
  obtain ⟨startAligned, stopAligned, below⟩ :=
    formed.laid.placed.fits _ area member
  refine .map ((reached.munmapArea (total.proc ▸ running)
    calm.cons_ref.cons_ref.cons_ref settled.cons_ref.cons_ref.cons_ref
    (RangeList.start_lt_stop member) startAligned stopAligned below
    unattached).mono ?_)
  rintro final ⟨unmapped, last⟩
  refine ⟨unmapped.attDeref.apDeref.attDeref,
    (total.trans last.winds).trans (.of_shape ?_)⟩
  simp

end Xpmem.Driver
