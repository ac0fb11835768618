import Xpmem.Operations.Invalidating

/-!
# Unmapping areas

What `vm_munmap` reaches: the areas and leaves of the range go, the notifiers
are called, and the attachments of the areas that went are unlinked by the
close handler.
-/

namespace Xpmem.Driver

open Xpmem.Foundation Xpmem.Kernel Xpmem.Objects

variable {K : Platform} {tidy : Prop} {origin s t : State K}
    {first held : Held} {start stop : Nat}

/-! ## The close handler -/

/-- The attachment of an area that was removed as a whole. -/
structure Closes (s : State K) (area : Vma) (att : AttPtr) : Prop where
  ops : area.payload.xpmemOps = true
  linked : s.graph.Linked (.att att)
  live : (s.att att).destroying = false
  start : (s.att att).atVaddr = area.start
  size : (s.att att).atSize = area.stop - area.start

/-- The attachments lose their links, and no area and no other place. -/
structure Drops (s t : State K) (gone : AttPtr → Prop) : Prop where
  unlinks : Unlinks s t fun object => ∃ att, object = .att att ∧ gone att
  vmas : t.vmas = s.vmas
  tables : ∀ mm, (t.mm mm).table = (s.mm mm).table
  att : ∀ att, ¬ gone att → (t.att att).shape = (s.att att).shape

theorem Drops.of_shape (same : t.shape = s.shape)
    (gone : AttPtr → Prop) : Drops s t gone where
  unlinks := .of_shape same _
  vmas := congrArg (fun u => u.vmas) same
  tables mm := congrArg (fun u => (u.mm mm).table) same
  att att _ := congrArg (fun u => u.att att) same

theorem Drops.mono {gone more : AttPtr → Prop} (drops : Drops s t gone)
    (weaker : ∀ att, gone att → more att) : Drops s t more where
  unlinks := drops.unlinks.mono fun _ ⟨att, same, here⟩ =>
    ⟨att, same, weaker att here⟩
  vmas := drops.vmas
  tables := drops.tables
  att att stays := drops.att att fun here => stays (weaker att here)

theorem Drops.trans {u : State K} {gone : AttPtr → Prop}
    (earlier : Drops s t gone) (later : Drops t u gone) :
    Drops s u gone where
  unlinks := earlier.unlinks.trans later.unlinks
  vmas := later.vmas.trans earlier.vmas
  tables mm := (later.tables mm).trans (earlier.tables mm)
  att att stays := (later.att att stays).trans (earlier.att att stays)

theorem Drops.linked {gone : AttPtr → Prop} (drops : Drops s t gone)
    {att : AttPtr} (stays : ¬ gone att)
    (linked : s.graph.Linked (.att att)) : t.graph.Linked (.att att) := by
  refine drops.unlinks.linked _ ?_ linked
  rintro ⟨other, same, here⟩
  cases same
  exact stays here

theorem place_eq_of_shape {att : AttPtr}
    (same : (t.att att).shape = (s.att att).shape) :
    t.place att = s.place att ∧ t.valid att = s.valid att := by
  have place := congrArg (fun record : Attachment =>
    Place.mk record.mm record.atVaddr record.atSize record.atVma
      record.vaddr) same
  have valid := congrArg Attachment.validPTEs same
  exact ⟨place, valid⟩

theorem drops_flag (s : State K) (att : AttPtr) :
    Drops s (s.flag (.att att) true) (· = att) where
  unlinks := .flag s _ _ _
  vmas := rfl
  tables _ := rfl
  att other stays := by
    simp [State.flag, State.modAtt, stays]

theorem drops_unlinkAtt (att : AttPtr) (sound : s.graph.Sound held) :
    Drops s (unlinkAtt s (s.att att).ap att) (· = att) where
  unlinks := (Unlinks.unlinkAtt sound att).mono fun _ same =>
    ⟨att, same, rfl⟩
  vmas := rfl
  tables _ := rfl
  att _ _ := rfl

theorem Reaches.closeVma {area : Vma} {att : AttPtr}
    (reaches : Reaches tidy origin first s (.bare att ::ₘ held))
    (carries : area.payload.privateData = some att)
    (closes : Closes s area att) (mm : MmPtr) :
    Always (closeVma mm s area) fun t =>
      Reaches tidy origin first t held ∧ Drops s t (· = att) := by
  unfold Driver.closeVma
  rw [if_pos closes.ops]
  unfold xpmemCloseHandler
  split
  · rename_i missing
    rw [carries] at missing
    cases missing
  · rename_i other found
    rw [carries] at found
    cases found
    extract_lets counted record flagged guarded cut released dropped
    have same : counted.shape = s.shape := shape_xpmemAttRef s att
    have graph := State.graph_eq_of_shape same
    have fields : record.shape = (s.att att).shape :=
      congrArg (fun u => u.att att) same
    have live : record.destroying = false :=
      (congrArg Attachment.destroying fields).trans closes.live
    have whole : area.start = record.atVaddr ∧
        area.stop - area.start = record.atSize :=
      ⟨closes.start.symm.trans (congrArg Attachment.atVaddr fields).symm,
        closes.size.symm.trans (congrArg Attachment.atSize fields).symm⟩
    rw [if_neg (by simp [live]), if_pos whole]
    have entered : Reaches tidy origin first counted
        (.ref (.att att) ::ₘ .bare att ::ₘ held) :=
      reaches.attRef closes.linked
    have linked : counted.graph.Linked (.att att) := by
      rw [graph]
      exact closes.linked
    have closing : Reaches tidy origin first flagged
        (.closing (.att att) ::ₘ .ref (.att att) ::ₘ .bare att ::ₘ
          held) :=
      .act entered (.flag (.att att) linked live)
    have permit : flagged.graph.Linked (.ap record.ap) := by
      change (counted.flag (.att att) true).graph.Linked _
      rw [State.graph_flag]
      exact (entered.formed.graph.linked_ap linked).1
    have guard : Reaches tidy origin first guarded
        (.closing (.att att) ::ₘ .bare att ::ₘ .ref (.ap record.ap) ::ₘ
          .ref (.att att) ::ₘ held) :=
      (closing.apRef permit).of_eq (by simp only [Multiset.cons_swap])
    have owner : (guarded.att att).ap = record.ap := by
      simp [guarded, flagged, record, State.xpmemApRef, State.modAp,
        State.modAtt]
    have unlinked : Reaches tidy origin first cut
        (.ref (.ap record.ap) ::ₘ .ref (.att att) ::ₘ .ref (.att att) ::ₘ
          held) := by
      have step := Reaches.act guard (.unlinkAtt att)
      rw [owner] at step
      exact step.of_eq (by simp only [Multiset.cons_swap])
    refine .some ⟨unlinked.apDeref.attDeref.attDeref, ?_⟩
    have marked : Drops s guarded (· = att) :=
      ((Drops.of_shape same _).trans (drops_flag counted att)).trans
        (.of_shape (shape_xpmemApRef flagged record.ap) _)
    have unlinks : Drops guarded cut (· = att) := by
      have step := drops_unlinkAtt att guard.formed.graph
      rw [owner] at step
      exact step
    refine (marked.trans unlinks).trans (.of_shape ?_ _)
    rw [shape_xpmemAttDeref]
    exact (shape_xpmemAttDeref released att).trans
      (shape_xpmemApDeref cut record.ap)

/-- An area that carries no attachment is closed without effect. -/
theorem closeVma_of_none {area : Vma}
    (plain : area.payload.privateData = none) (mm : MmPtr) :
    closeVma mm s area = some s := by
  unfold closeVma xpmemCloseHandler
  rw [plain]
  simp

/-- The attachments of a list of areas. -/
def attsOf (areas : List Vma) : List AttPtr :=
  areas.filterMap fun area => area.payload.privateData

theorem Reaches.closeAll (mm : MmPtr) {areas : List Vma}
    (reaches : Reaches tidy origin first s
      ((attsOf areas : Multiset AttPtr).map Token.bare + held))
    (distinct : (attsOf areas).Nodup)
    (closes : ∀ area ∈ areas, ∀ att,
      area.payload.privateData = some att → Closes s area att) :
    Always (areas.foldlM (Driver.closeVma mm) s) fun t =>
      Reaches tidy origin first t held ∧
        Drops s t (· ∈ attsOf areas) := by
  induction areas generalizing s with
  | nil =>
      exact .some ⟨reaches.of_eq (by simp [attsOf]), .of_shape rfl _⟩
  | cons area areas induction =>
      rw [List.foldlM_cons]
      cases carries : area.payload.privateData with
      | none =>
          have same : attsOf (area :: areas) = attsOf areas := by
            simp [attsOf, carries]
          rw [same] at reaches distinct ⊢
          rw [closeVma_of_none carries]
          exact induction reaches distinct fun other member =>
            closes other (List.mem_cons_of_mem _ member)
      | some att =>
          have same : attsOf (area :: areas) = att :: attsOf areas := by
            simp [attsOf, carries]
          rw [same] at reaches distinct ⊢
          obtain ⟨absent, rest⟩ := List.nodup_cons.mp distinct
          have ready : Reaches tidy origin first s
              (.bare att ::ₘ
                ((attsOf areas : Multiset AttPtr).map Token.bare +
                  held)) :=
            reaches.of_eq (by simp [← Multiset.cons_coe])
          refine .bind ((ready.closeVma carries
            (closes area List.mem_cons_self att carries) mm).mono ?_)
          rintro next ⟨closed, drops⟩
          refine (induction closed rest ?_).mono ?_
          · intro other member owner owned
            have before := closes other (List.mem_cons_of_mem _ member)
              owner owned
            have stays : owner ≠ att := by
              rintro rfl
              exact absent (List.mem_filterMap.mpr
                ⟨other, member, owned⟩)
            have shape := drops.att owner stays
            exact
              { ops := before.ops
                linked := drops.linked stays before.linked
                live := (congrArg Attachment.destroying shape).trans
                  before.live
                start := (congrArg Attachment.atVaddr shape).trans
                  before.start
                size := (congrArg Attachment.atSize shape).trans
                  before.size }
          · rintro final ⟨reached, later⟩
            refine ⟨reached, ?_⟩
            refine (drops.mono ?_).trans (later.mono ?_)
            · rintro other rfl
              exact List.mem_cons_self
            · exact fun other member => List.mem_cons_of_mem _ member

/-! ## Removed areas -/

/-- What an unmap removes of attached areas, it removes as a whole. -/
theorem whole_of_carries {mm : MmPtr} (spared : Spared s mm start stop)
    {area piece : Vma} {att : AttPtr} (member : area ∈ s.vmas mm)
    (meets : area.Meets start stop)
    (removed : (if start ≤ area.start ∧ area.stop ≤ stop then area
      else
        { start := max area.start start
          stop := min area.stop stop
          payload := copyVma s area.payload }) = piece)
    (carries : piece.payload.privateData = some att) : piece = area := by
  split at removed
  · exact removed.symm
  · rename_i cut
    have plain : area.payload.privateData = none := by
      by_contra carried
      exact cut (spared area member carried meets)
    subst removed
    rw [copyVma_of_none s plain] at carries
    exact absurd (plain.symm.trans carries) (by simp)

theorem removed_of_carries {mm : MmPtr} (spared : Spared s mm start stop)
    {area : Vma} {att : AttPtr}
    (removed : area ∈ (s.mm mm).removedVmas (copyVma s) start stop)
    (carries : area.payload.privateData = some att) :
    area ∈ s.vmas mm ∧ area.Meets start stop := by
  obtain ⟨old, meeting, equal⟩ := List.mem_map.mp removed
  obtain ⟨member, meets⟩ := RangeList.mem_meeting_iff.mp meeting
  rw [whole_of_carries spared member meets equal carries]
  exact ⟨member, meets⟩

theorem WellFormed.lostAtts_nodup (formed : WellFormed s held)
    {mm : MmPtr} (spared : Spared s mm start stop) :
    (lostAtts s mm start stop).Nodup := by
  have sublist :
      ((s.mm mm).vmas.meeting start stop).Sublist
        (s.mm mm).vmas.ranges :=
    (List.takeWhile_sublist _).trans (List.dropWhile_sublist _)
  have ordered := (s.mm mm).vmas.ordered.sublist sublist
  rw [lostAtts, Mm.removedVmas, List.Nodup, List.pairwise_filterMap,
    List.pairwise_map]
  refine ordered.imp_of_mem ?_
  intro left right leftMember rightMember apart att leftCarries other
    rightCarries equal
  subst equal
  obtain ⟨leftOld, leftMeets⟩ := RangeList.mem_meeting_iff.mp leftMember
  obtain ⟨rightOld, rightMeets⟩ :=
    RangeList.mem_meeting_iff.mp rightMember
  rw [whole_of_carries spared leftOld leftMeets rfl leftCarries]
    at leftCarries
  rw [whole_of_carries spared rightOld rightMeets rfl rightCarries]
    at rightCarries
  obtain ⟨_, _, leftOccupies⟩ :=
    formed.laid.placed.attached mm left leftOld att leftCarries
  obtain ⟨_, _, rightOccupies⟩ :=
    formed.laid.placed.attached mm right rightOld att rightCarries
  have nonempty := RangeList.start_lt_stop leftOld
  rw [leftOccupies.start, leftOccupies.stop] at nonempty
  rw [leftOccupies.stop, rightOccupies.start] at apart
  omega

/-- The structure of an area that was removed is found no more. -/
theorem WellFormed.vmaOf_unmap (formed : WellFormed s held) {mm : MmPtr}
    {proper : start < stop} (spared : Spared s mm start stop) {area : Vma}
    {att : AttPtr} (member : area ∈ s.vmas mm)
    (meets : area.Meets start stop)
    (carries : area.payload.privateData = some att) :
    ((Driver.unmapRange s mm start stop proper).mm mm).vmaOf
        area.payload.vma = none := by
  rw [Mm.vmaOf, List.find?_eq_none]
  intro piece found
  simp only [decide_eq_true_eq]
  intro same
  have carved : piece ∈
      (s.vmas mm).carve (copyVma s) start stop proper := by
    have inside :
        piece ∈ (Driver.unmapRange s mm start stop proper).vmas mm := found
    rw [vmas_unmapRange, Function.update_self] at inside
    exact inside
  obtain ⟨old, oldMember, part⟩ := RangeList.mem_carve_iff.mp carved
  have whole := spared area member (by rw [carries]; simp) meets
  have bounded := formed.laid.placed.vma_lt mm area member
  have unique (equal : old.payload.vma = area.payload.vma) : old = area :=
    formed.laid.placed.identity mm area member old oldMember
      (by rw [carries]; simp) equal
  rcases RangeList.payload_of_remains part with
    kept | ⟨oldMeets, cut, copied⟩
  · rw [kept] at same
    rw [unique same, RangeList.remains, if_pos meets,
      if_neg (by omega), if_neg (by omega)] at part
    cases part
  · have plain : old.payload.privateData = none := by
      by_contra carried
      have inside := spared old oldMember carried oldMeets
      omega
    rw [copied, copyVma_of_none s plain] at same
    have fresh : s.nextVma = area.payload.vma := same
    omega

/-! ## Unmapping -/

/-- Attachments without an area are still being made. -/
def Unborn (s : State K) (held : Held) : Prop :=
  ∀ att, .bare att ∈ held →
    (s.att att).atVma = none ∧ s.valid att = false

theorem WellFormed.ready_unmap (formed : WellFormed s held) {mm : MmPtr}
    {proper : start < stop} (unborn : Unborn s held)
    (spared : Spared s mm start stop)
    (kept : tidy → lostAtts s mm start stop = []) :
    Ready tidy (Driver.unmapRange s mm start stop proper)
      (unmapHeld s mm start stop held) true := by
  intro att bare
  rcases bare_mem_unmapHeld_iff.mp bare with lost | before
  · obtain ⟨area, member, meets, carries⟩ :=
      (mem_lostAtts_iff spared).mp lost
    obtain ⟨_, home, occupies⟩ :=
      formed.laid.placed.attached mm area member att carries
    have vma : (s.att att).atVma = some area.payload.vma := occupies.vma
    have mmOf : (s.att att).mm = mm := home
    refine ⟨rfl, ?_, fun orderly => ?_⟩
    · change (s.att att).atVma.bind
        ((Driver.unmapRange s mm start stop proper).mm
          (s.att att).mm).vmaOf = none
      rw [vma, mmOf, Option.bind_some]
      exact formed.vmaOf_unmap spared member meets carries
    · rw [kept orderly] at lost
      cases lost
  · obtain ⟨none, invalid⟩ := unborn att before
    refine ⟨rfl, ?_, fun _ => invalid⟩
    change (s.att att).atVma.bind _ = _
    rw [none]
    rfl

theorem thins_unmapRange (s : State K) (mm : MmPtr) (proper : start < stop)
    (other : MmPtr) :
    (s.mm other).table.Thins
      ((unmapRange s mm start stop proper).mm other).table := by
  by_cases here : other = mm
  · subst here
    simp [unmapRange, State.modMm, Mm.unmap, PageTable.Thins.clear]
  · simp [unmapRange, State.modMm, here, PageTable.Thins.refl]

/-- What an unmap leaves of the attachments it does not take along. -/
structure Unmaps (s t : State K) (mm : MmPtr) (start stop : Nat) : Prop
    where
  unlinks : Unlinks s t fun object =>
    ∃ att, object = .att att ∧ att ∈ lostAtts s mm start stop
  free : (t.vmas mm).Free start stop
  place : ∀ att, att ∉ lostAtts s mm start stop →
    t.place att = s.place att
  valid : ∀ att, att ∉ lostAtts s mm start stop →
    t.valid att = true → s.valid att = true
  tables : ∀ other, (s.mm other).table.Thins (t.mm other).table

theorem closes_of_removed (formed : WellFormed s held) (calm : Calm held)
    {mm : MmPtr} (spared : Spared s mm start stop) {area : Vma}
    {att : AttPtr}
    (removed : area ∈ (s.mm mm).removedVmas (copyVma s) start stop)
    (carries : area.payload.privateData = some att) :
    Closes s area att := by
  obtain ⟨member, _⟩ := removed_of_carries spared removed carries
  obtain ⟨present, _, occupies⟩ :=
    formed.laid.placed.attached mm area member att carries
  have start : area.start = (s.att att).atVaddr := occupies.start
  have stop : area.stop = (s.att att).atVaddr + (s.att att).atSize :=
    occupies.stop
  exact
    { ops := occupies.ops
      linked := present.1
      live := formed.att_live calm present.1
      start := start.symm
      size := by omega }

theorem Reaches.vmMunmap (reaches : Reaches tidy origin first s held)
    {current : Task} {mm : MmPtr}
    (running : s.proc current.tgid = .running mm) (calm : Calm held)
    (unborn : Unborn s held) (proper : start < stop)
    (startAligned : start % pageSize = 0)
    (stopAligned : stop % pageSize = 0) (below : stop ≤ K.taskSize)
    (spared : Spared s mm start stop)
    (kept : tidy → lostAtts s mm start stop = []) :
    Always (vmMunmap s current mm start stop) fun t =>
      Reaches tidy origin first t held ∧ Unmaps s t mm start stop := by
  unfold Driver.vmMunmap
  rw [dif_pos proper]
  split
  · rename_i free
    exact .some ⟨reaches, .refl s _, free, fun _ _ => rfl, fun _ _ => id,
      fun _ => .refl _⟩
  · extract_lets removed
    have formed := reaches.formed
    have taken := Reaches.act reaches
      (.unmap proper startAligned stopAligned spared kept)
    have objects : (unmapRange s mm start stop proper).objects =
        s.objects :=
      s.objects_setSpace mm _
        ((s.mm mm).table.clear (start / pageSize) (stop / pageSize)) _
    have free :
        ((unmapRange s mm start stop proper).vmas mm).Free start stop := by
      rw [vmas_unmapRange, Function.update_self]
      exact RangeList.carve_free _ _ _ _ _
    have quiet : Calm (unmapHeld s mm start stop held) := by
      constructor
      · intro att token
        exact calm.att att (by simpa [unmapHeld] using token)
      · intro seg token
        exact calm.seg seg (by simpa [unmapHeld] using token)
    refine .bind ((taken.notifyClears
      (formed.ready_unmap unborn spared kept) quiet running proper below
      ⟨startAligned, stopAligned, Or.inl free⟩).mono ?_)
    rintro notified ⟨sweeps, cleared⟩
    have settled : Reaches tidy origin first notified
        ((attsOf removed : Multiset AttPtr).map Token.bare + held) := by
      refine .act (sweeps.reaches.of_eq (Multiset.add_cons _ _ _))
        (.settle ?_)
      intro att present
      exact cleared att ⟨present.1, fun bare => present.2 (by
        simpa [unmapHeld, lostAtts, attsOf, removed] using bare)⟩
    have clears := sweeps.clears
    have graph : notified.graph = s.graph := clears.graph
    have place : notified.place = s.place := clears.place
    refine (settled.closeAll mm (formed.lostAtts_nodup spared) ?_).mono ?_
    · intro area member att carries
      have before := closes_of_removed formed calm spared member carries
      have flag :
          (notified.att att).destroying = (s.att att).destroying :=
        congrArg (fun u => (u.att att).destroying) clears.objects
      exact
        { ops := before.ops
          linked := graph ▸ before.linked
          live := flag.trans before.live
          start := (congrArg Place.start (congrFun place att)).trans
            before.start
          size := (congrArg Place.size (congrFun place att)).trans
            before.size }
    · rintro final ⟨reached, drops⟩
      refine ⟨reached, ?_, ?_, ?_, ?_, fun other => ?_⟩
      · exact (Unlinks.of_objects (clears.objects.trans objects) _).trans
          drops.unlinks
      · rw [drops.vmas, clears.vmas]
        exact free
      · intro att stays
        exact (place_eq_of_shape (drops.att att stays)).1.trans
          (congrFun place att)
      · intro att stays flagged
        rw [(place_eq_of_shape (drops.att att stays)).2] at flagged
        exact clears.valid att flagged
      · rw [drops.tables]
        exact (thins_unmapRange s mm proper other).trans (clears.tables other)

end Xpmem.Driver
