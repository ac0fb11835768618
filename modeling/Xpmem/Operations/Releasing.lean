import Xpmem.Driver.Naming
import Xpmem.Operations.Detaching

/-!
# Releasing permits and removing segments

What `xpmem_release` and `xpmem_remove` reach, and the loops of a teardown
over all permits and all segments of a group.  A loop that returns has
emptied its list; objects of other groups stay linked.
-/

namespace Xpmem.Driver

open Xpmem.Foundation Xpmem.Kernel Xpmem.Objects

variable {K : Platform} {tidy : Prop} {origin s t u : State K}
    {first held : Held}

/-! ## Tokens that do not matter here -/

theorem Calm.cons_closing_ap (calm : Calm held) {permit : ApPtr} :
    Calm (.closing (.ap permit) ::ₘ held) where
  att att token := calm.att att (by simpa using token)
  seg seg token := calm.seg seg (by simpa using token)

theorem Calm.cons_closing_tg (calm : Calm held) {group : TgPtr} :
    Calm (.closing (.tg group) ::ₘ held) where
  att att token := calm.att att (by simpa using token)
  seg seg token := calm.seg seg (by simpa using token)

theorem Settled.cons_closing (settled : Settled held) {object : Ref} :
    Settled (.closing object ::ₘ held) := by
  intro att bare
  exact settled att (by simpa using bare)

theorem Settled.ready (settled : Settled held) (tidy : Prop) (s : State K)
    (fromMmu : Bool) : Ready tidy s held fromMmu :=
  fun att bare => (settled att bare).elim

/-! ## Objects of a group -/

/-- The object belongs to the group, or to a permit of the group. -/
def State.Belongs (s : State K) (group : TgPtr) : Ref → Prop
  | .tg _ => False
  | .seg seg => (s.seg seg).tg = group
  | .ap permit => (s.ap permit).tg = group
  | .att att => (s.ap (s.att att).ap).tg = group

namespace Winds

theorem att_ap (winds : Winds s t) (att : AttPtr) :
    (t.att att).ap = (s.att att).ap := by
  have same := congrArg Attachment.ap (winds.att att)
  exact same

theorem ap_tg (winds : Winds s t) (permit : ApPtr) :
    (t.ap permit).tg = (s.ap permit).tg := by
  have same := congrArg AccessPermit.tg (winds.ap permit)
  exact same

theorem ap_seg (winds : Winds s t) (permit : ApPtr) :
    (t.ap permit).seg = (s.ap permit).seg := by
  have same := congrArg AccessPermit.seg (winds.ap permit)
  exact same

theorem seg_tg (winds : Winds s t) (seg : SegPtr) :
    (t.seg seg).tg = (s.seg seg).tg := by
  have same := congrArg Segment.tg (winds.seg seg)
  exact same

theorem belongs (winds : Winds s t) (group : TgPtr) :
    t.Belongs group = s.Belongs group := by
  funext object
  cases object with
  | tg => rfl
  | seg seg => simp only [State.Belongs, winds.seg_tg]
  | ap permit => simp only [State.Belongs, winds.ap_tg]
  | att att => simp only [State.Belongs, winds.att_ap, winds.ap_tg]

end Winds

namespace Unlinks

theorem unlinkAp {permit : ApPtr}
    (sound : s.graph.Sound (.closing (.ap permit) ::ₘ held))
    (empty : (s.ap permit).attList = []) :
    Unlinks s (unlinkAp s (s.ap permit).tg permit) (· = .ap permit) where
  winds := (Winds.refl s).unlinkAp _ _
  linked other stays linked := by
    have finished : (s.graph.finish (.ap permit)).Sound
        (.closing (.ap permit) ::ₘ held) :=
      sound.finish (by simp) empty
    rw [State.graph_unlinkAp, (Graph.shrinks_dropAp finished permit).linked,
      Graph.finish_linked_iff]
    exact ⟨linked, stays⟩

theorem unlinkSeg {seg : SegPtr}
    (sound : s.graph.Sound (.closing (.seg seg) ::ₘ held)) :
    Unlinks s (unlinkSeg s (s.seg seg).tg seg) (· = .seg seg) where
  winds := (Winds.refl s).unlinkSeg _ _
  linked other stays linked := by
    have finished : (s.graph.finish (.seg seg)).Sound
        (.closing (.seg seg) ::ₘ held) :=
      sound.finish (by simp) trivial
    rw [State.graph_unlinkSeg, (Graph.shrinks_dropSeg finished seg).linked,
      Graph.finish_linked_iff]
    exact ⟨linked, stays⟩

end Unlinks

/-! ## Releasing one permit -/

/-- The attachments of a permit. -/
def State.AttachedTo (s : State K) (permit : ApPtr) (object : Ref) : Prop :=
  ∃ att, object = .att att ∧ (s.att att).ap = permit

theorem Reaches.detachAll {current : Task} {permit : ApPtr} (rounds : Nat)
    (reaches : Reaches tidy origin first s held)
    (home : AtHome s current (s.ap permit).tg) (calm : Calm held)
    (settled : Settled held) :
    Always (detachAll current permit rounds s) fun t =>
      Reaches tidy origin first t held ∧
        Unlinks s t (s.AttachedTo permit) ∧
        (t.ap permit).attList = [] := by
  induction rounds generalizing s with
  | zero =>
      rw [Driver.detachAll]
      split
      · rename_i empty
        exact .some ⟨reaches, .refl s _, empty⟩
      · exact .none
  | succ rounds induction =>
      rw [Driver.detachAll]
      split
      · rename_i empty
        exact .some ⟨reaches, .refl s _, empty⟩
      · rename_i att rest list
        have member : att ∈ s.graph.atts permit := by
          change att ∈ (s.ap permit).attList
          rw [list]
          exact List.mem_cons_self
        have atts := reaches.formed.graph.atts
        have linked : s.graph.Linked (.att att) := atts.mem_owner member
        have owner : (s.att att).ap = permit := atts.owned _ att member
        have shape := shape_xpmemAttRef s att
        have taken : Unlinks s (s.xpmemAttRef att) (· = .att att) :=
          .of_shape shape _
        refine .bind (((reaches.attRef linked).detachAtt
          (taken.winds.ap_tg permit ▸ home.winds taken.winds)
          calm.cons_ref settled.cons_ref
          (by rw [State.graph_eq_of_shape shape]; exact linked)
          ((taken.winds.att_ap att).trans owner)).mono ?_)
        rintro detached ⟨reached, unlinks⟩
        have total : Unlinks s (detached.xpmemAttDeref att)
            (· = .att att) :=
          (taken.trans unlinks).trans
            (.of_shape (shape_xpmemAttDeref _ att) _)
        refine (induction reached.attDeref
          (total.winds.ap_tg permit ▸ home.winds total.winds)).mono ?_
        rintro final ⟨last, later, empty⟩
        refine ⟨last, (total.mono ?_).trans (later.mono ?_), empty⟩
        · rintro object rfl
          exact ⟨att, rfl, owner⟩
        · rintro object ⟨other, same, attached⟩
          exact ⟨other, same, (total.winds.att_ap other).symm.trans
            attached⟩

/-- A permit and its attachments. -/
def State.PartOf (s : State K) (permit : ApPtr) (object : Ref) : Prop :=
  object = .ap permit ∨ s.AttachedTo permit object

theorem WellFormed.ap_live (formed : WellFormed s held) {permit : ApPtr}
    (linked : s.graph.Linked (.ap permit))
    (free : .closing (.ap permit) ∉ held) :
    (s.ap permit).destroying = false := by
  rw [Bool.eq_false_iff]
  intro destroying
  rcases formed.graph.closing (.ap permit) destroying with gone | token
  · exact gone linked
  · exact free token

theorem Reaches.releaseAp (reaches : Reaches tidy origin first s held)
    {current : Task} {permit : ApPtr}
    (home : AtHome s current (s.ap permit).tg) (calm : Calm held)
    (settled : Settled held) (linked : s.graph.Linked (.ap permit))
    (free : .closing (.ap permit) ∉ held) :
    Always (xpmemReleaseAp s current (s.ap permit).tg permit) fun t =>
      Reaches tidy origin first t held ∧ Unlinks s t (s.PartOf permit) ∧
        ¬ t.graph.Linked (.ap permit) := by
  have live := reaches.formed.ap_live linked free
  unfold xpmemReleaseAp
  rw [if_neg (by simp [live])]
  extract_lets flagged
  have closing : Reaches tidy origin first flagged
      (.closing (.ap permit) ::ₘ held) :=
    .act reaches (.flag (.ap permit) linked live)
  have marks : Unlinks s flagged (s.PartOf permit) :=
    .flag s (.ap permit) true _
  have owner := marks.winds.ap_tg permit
  refine .map ((closing.detachAll _
    (owner ▸ home.winds marks.winds) calm.cons_closing_ap
    settled.cons_closing).mono ?_)
  rintro detached ⟨reached, detaches, empty⟩
  have total : Unlinks s detached (s.PartOf permit) := by
    refine marks.trans (detaches.mono ?_)
    rintro object ⟨att, same, attached⟩
    exact .inr ⟨att, same,
      (marks.winds.att_ap att).symm.trans attached⟩
  have sound := reached.formed.graph
  have unlinked := Reaches.act reached (.unlinkAp empty)
  have unlinks := Unlinks.unlinkAp sound empty
  have absent : ¬ (unlinkAp detached (detached.ap permit).tg
      permit).graph.Linked (.ap permit) := by
    have finished : (detached.graph.finish (.ap permit)).Sound
        (.closing (.ap permit) ::ₘ held) :=
      sound.finish (by simp) empty
    rw [State.graph_unlinkAp, (Graph.shrinks_dropAp finished permit).linked]
    exact fun both => both.2 rfl
  rw [total.winds.ap_tg permit] at unlinked unlinks absent
  extract_lets cut seg segTg fewer fewest
  have records : seg = (detached.ap permit).seg ∧
      segTg = (detached.seg (detached.ap permit).seg).tg := by
    have target : (cut.ap permit).seg = (detached.ap permit).seg :=
      unlinks.winds.ap_seg permit
    have owner : (cut.seg (cut.ap permit).seg).tg =
        (detached.seg (detached.ap permit).seg).tg := by
      rw [target]
      exact unlinks.winds.seg_tg _
    exact ⟨target, owner⟩
  rw [← records.2, ← records.1] at unlinked
  have shape : (fewest.xpmemApDeref permit).shape = cut.shape := by
    rw [shape_xpmemApDeref, shape_xpmemTgDeref, shape_xpmemSegDeref]
  refine ⟨unlinked.segDeref.tgDeref.apDeref, ?_, ?_⟩
  · refine (total.trans (unlinks.mono ?_)).trans (.of_shape shape _)
    exact fun _ same => .inl same
  · rw [State.graph_eq_of_shape shape]
    exact absent

/-! ## Releasing all permits of a group -/

theorem State.PartOf.belongs {permit : ApPtr} {object : Ref}
    (part : s.PartOf permit object) :
    s.Belongs (s.ap permit).tg object := by
  rcases part with rfl | ⟨att, rfl, attached⟩
  · rfl
  · rw [State.Belongs, attached]

theorem Reaches.releaseBucket {current : Task} {group : TgPtr}
    (index rounds : Nat) (reaches : Reaches tidy origin first s held)
    (home : AtHome s current group) (calm : Calm held)
    (settled : Settled held)
    (free : ∀ permit, .closing (.ap permit) ∉ held) :
    Always (releaseBucket current group index rounds s) fun t =>
      Reaches tidy origin first t held ∧ Unlinks s t (s.Belongs group) ∧
        (t.tg group).apHashtable index = [] := by
  induction rounds generalizing s with
  | zero =>
      rw [Driver.releaseBucket]
      split
      · rename_i empty
        exact .some ⟨reaches, .refl s _, empty⟩
      · exact .none
  | succ rounds induction =>
      rw [Driver.releaseBucket]
      split
      · rename_i empty
        exact .some ⟨reaches, .refl s _, empty⟩
      · rename_i permit rest list
        have member : permit ∈ s.graph.slots (group, index) := by
          change permit ∈ (s.tg group).apHashtable index
          rw [list]
          exact List.mem_cons_self
        have sound := reaches.formed.graph
        have linked : s.graph.Linked (.ap permit) :=
          (sound.slot_iff permit).mp (sound.slots.mem_owner member)
        have owner : (s.ap permit).tg = group :=
          congrArg Prod.fst (sound.slots.owned _ permit member)
        subst owner
        have shape := shape_xpmemApRef s permit
        have taken : Unlinks s (s.xpmemApRef permit)
            (s.Belongs (s.ap permit).tg) := .of_shape shape _
        have same := taken.winds.ap_tg permit
        have releases := (reaches.apRef linked).releaseAp
          (by rw [same]; exact home.winds taken.winds) calm.cons_ref
          settled.cons_ref
          (by rw [State.graph_eq_of_shape shape]; exact linked)
          (by simpa using free permit)
        rw [same] at releases
        refine .bind (releases.mono ?_)
        rintro released ⟨reached, unlinks, _⟩
        have total : Unlinks s (released.xpmemApDeref permit)
            (s.Belongs (s.ap permit).tg) := by
          refine (taken.trans (unlinks.mono ?_)).trans
            (.of_shape (shape_xpmemApDeref _ permit) _)
          intro object part
          rw [← taken.winds.belongs, ← same]
          exact part.belongs
        refine (induction reached.apDeref (home.winds total.winds)).mono ?_
        rintro final ⟨last, later, empty⟩
        rw [total.winds.belongs] at later
        exact ⟨last, total.trans later, empty⟩

/-- There are no permits in buckets past the last one. -/
theorem WellFormed.slots_eq_nil (formed : WellFormed s held)
    {group : TgPtr}
    (empty : ∀ index ∈ List.range hashtableSize,
      (s.tg group).apHashtable index = []) (index : Nat) :
    s.graph.slots (group, index) = [] := by
  by_cases inside : index < hashtableSize
  · exact empty index (List.mem_range.mpr inside)
  · rw [List.eq_nil_iff_forall_not_mem]
    intro permit member
    have slot := formed.graph.slots.owned _ permit member
    have bucket : xpmemApHashtableIndex K (s.ap permit).apid = index :=
      congrArg Prod.snd slot
    have small : xpmemApHashtableIndex K (s.ap permit).apid <
        hashtableSize := Nat.mod_lt _ (by decide)
    omega

theorem Reaches.releaseApsOfTg (reaches : Reaches tidy origin first s held)
    {current : Task} {group : TgPtr} (home : AtHome s current group)
    (calm : Calm held) (settled : Settled held)
    (free : ∀ permit, .closing (.ap permit) ∉ held) :
    Always (xpmemReleaseApsOfTg s current group) fun t =>
      Reaches tidy origin first t held ∧ Unlinks s t (s.Belongs group) ∧
        ∀ index, t.graph.slots (group, index) = [] := by
  have drained : Always (xpmemReleaseApsOfTg s current group) fun t =>
      (Reaches tidy origin first t held ∧
        Unlinks s t (s.Belongs group)) ∧
      (∀ index ∈ List.range hashtableSize,
        (t.tg group).apHashtable index = []) ∧
      ∀ index, (s.tg group).apHashtable index = [] →
        (t.tg group).apHashtable index = [] := by
    refine Always.foldlM_each ⟨reaches, .refl s _⟩ ?_
    rintro pre index _ ⟨reached, unlinks⟩
    refine (reached.releaseBucket index _ (home.winds unlinks.winds) calm
      settled free).mono ?_
    rintro next ⟨last, later, empty⟩
    rw [unlinks.winds.belongs] at later
    refine ⟨⟨last, unlinks.trans later⟩, empty, fun other before => ?_⟩
    exact List.subset_nil.mp (before ▸ later.winds.slots group other)
  refine drained.mono ?_
  rintro final ⟨⟨reached, unlinks⟩, empty, _⟩
  exact ⟨reached, unlinks, reached.formed.slots_eq_nil empty⟩

/-! ## Removing segments -/

theorem WellFormed.seg_free (formed : WellFormed s held) {seg : SegPtr}
    (linked : s.graph.Linked (.seg seg))
    (free : .closing (.seg seg) ∉ held) :
    (s.seg seg).destroying = false := by
  rw [Bool.eq_false_iff]
  intro destroying
  rcases formed.graph.closing (.seg seg) destroying with gone | token
  · exact gone linked
  · exact free token

theorem Reaches.removeSeg (reaches : Reaches tidy origin first s held)
    {seg : SegPtr} (settled : Settled held)
    (linked : s.graph.Linked (.seg seg))
    (free : .closing (.seg seg) ∉ held) :
    Always (xpmemRemoveSeg s (s.seg seg).tg seg) fun t =>
      Reaches tidy origin first t held ∧ Unlinks s t (· = .seg seg) ∧
        ¬ t.graph.Linked (.seg seg) := by
  have live := reaches.formed.seg_free linked free
  unfold xpmemRemoveSeg
  rw [if_neg (by simp [live])]
  extract_lets flagged
  have closing : Reaches tidy origin first flagged
      (.closing (.seg seg) ::ₘ held) :=
    .act reaches (.flag (.seg seg) linked live)
  have marks : Unlinks s flagged (· = .seg seg) :=
    .flag s (.seg seg) true _
  have used : flagged.graph.Used (.seg seg) :=
    reaches.formed.graph.used (.seg seg) linked
  refine .map ((closing.clearPTEs (settled.cons_closing.ready _ _ _)
    used).mono ?_)
  rintro cleared ⟨sweeps, unmapped⟩
  have clears := sweeps.clears
  have total : Unlinks s cleared (· = .seg seg) :=
    marks.trans (.of_objects clears.objects _)
  have sound := sweeps.reaches.formed.graph
  have bare : ∀ att, cleared.Bound held att ↔
      flagged.Bound (.closing (.seg seg) ::ₘ held) att := by
    intro att
    rw [← clears.bound]
    simp [State.Bound]
  have unlinked : Reaches tidy origin first
      (unlinkSeg cleared (cleared.seg seg).tg seg)
      (.ref (.seg seg) ::ₘ held) := by
    refine .act sweeps.reaches (.unlinkSeg fun straight att present owner =>
      unmapped ((clears.straight seg).mp straight) att
        ((bare att).mp present) ?_)
    rw [← clears.segOf]
    exact owner
  have unlinks := Unlinks.unlinkSeg sound
  have absent : ¬ (unlinkSeg cleared (cleared.seg seg).tg
      seg).graph.Linked (.seg seg) := by
    have finished : (cleared.graph.finish (.seg seg)).Sound
        (.closing (.seg seg) ::ₘ held) :=
      sound.finish (by simp) trivial
    rw [State.graph_unlinkSeg, (Graph.shrinks_dropSeg finished seg).linked]
    exact fun both => both.2 rfl
  rw [total.winds.seg_tg seg] at unlinked unlinks absent
  have shape := shape_xpmemSegDeref (unlinkSeg cleared (s.seg seg).tg seg)
    seg
  refine ⟨unlinked.segDeref, (total.trans unlinks).trans
    (.of_shape shape _), ?_⟩
  rw [State.graph_eq_of_shape shape]
  exact absent

theorem Reaches.removeSegs {group : TgPtr} (rounds : Nat)
    (reaches : Reaches tidy origin first s held) (calm : Calm held)
    (settled : Settled held) :
    Always (removeSegs group rounds s) fun t =>
      Reaches tidy origin first t held ∧ Unlinks s t (s.Belongs group) ∧
        (t.tg group).segList = [] := by
  induction rounds generalizing s with
  | zero =>
      rw [Driver.removeSegs]
      split
      · rename_i empty
        exact .some ⟨reaches, .refl s _, empty⟩
      · exact .none
  | succ rounds induction =>
      rw [Driver.removeSegs]
      split
      · rename_i empty
        exact .some ⟨reaches, .refl s _, empty⟩
      · rename_i seg rest list
        have member : seg ∈ s.graph.segs group := by
          change seg ∈ (s.tg group).segList
          rw [list]
          exact List.mem_cons_self
        have sound := reaches.formed.graph
        have linked : s.graph.Linked (.seg seg) :=
          sound.segs.mem_owner member
        have owner : (s.seg seg).tg = group :=
          sound.segs.owned _ seg member
        subst owner
        have shape := shape_xpmemSegRef s seg
        have taken : Unlinks s (s.xpmemSegRef seg) (· = .seg seg) :=
          .of_shape shape _
        have same := taken.winds.seg_tg seg
        have removes := (reaches.segRef linked).removeSeg settled.cons_ref
          (by rw [State.graph_eq_of_shape shape]; exact linked)
          (by simpa using calm.seg seg)
        rw [same] at removes
        refine .bind (removes.mono ?_)
        rintro removed ⟨reached, unlinks, _⟩
        have total : Unlinks s (removed.xpmemSegDeref seg)
            (s.Belongs (s.seg seg).tg) := by
          refine ((taken.trans unlinks).trans
            (.of_shape (shape_xpmemSegDeref _ seg) _)).mono ?_
          rintro object rfl
          exact rfl
        refine (induction reached.segDeref).mono ?_
        rintro final ⟨last, later, empty⟩
        rw [total.winds.belongs] at later
        exact ⟨last, total.trans later, empty⟩

/-! ## The system calls -/

/-- The group of the running process. -/
theorem WellFormed.atHome (formed : WellFormed s held) {current : Task}
    {mm : MmPtr} (running : s.proc current.tgid = .running mm)
    (task : current.mm = some mm) {group : TgPtr}
    (linked : s.graph.Linked (.tg group))
    (live : (s.tg group).destroyed = false)
    (own : (s.tg group).tgid = current.tgid) :
    AtHome s current group := by
  intro other present
  rw [task] at present
  cases present
  have runs := formed.procs.running group linked live
  rw [own, running] at runs
  exact ⟨running, (Proc.running.inj runs).symm⟩

theorem Reaches.release (reaches : Reaches tidy origin first s held)
    {current : Task} {mm : MmPtr}
    (running : s.proc current.tgid = .running mm)
    (task : current.mm = some mm) (calm : Calm held)
    (settled : Settled held)
    (free : ∀ permit, .closing (.ap permit) ∉ held) (apid : BitVec 64) :
    Always (xpmemRelease s current apid) fun result =>
      Reaches tidy origin first result.1 held ∧ Winds s result.1 := by
  have formed := reaches.formed
  unfold xpmemRelease
  split
  · exact .some ⟨reaches, .refl s⟩
  split
  · exact .some ⟨reaches, .refl s⟩
  rename_i group found
  obtain ⟨linked, _, live⟩ := findTg_eq_some found
  extract_lets referred
  have shape : referred.shape = s.shape := shape_xpmemTgRef s group
  have entered : Reaches tidy origin first referred
      (.ref (.tg group) ::ₘ held) := reaches.tgRef linked
  have winds : Winds s referred := .of_shape shape
  split
  · exact .some ⟨entered.tgDeref, winds.trans
      (.of_shape (shape_xpmemTgDeref _ group))⟩
  rename_i own
  rw [not_not] at own
  split
  · exact .some ⟨entered.tgDeref, winds.trans
      (.of_shape (shape_xpmemTgDeref _ group))⟩
  rename_i permit listed
  obtain ⟨present, owner, _⟩ := entered.formed.findAp listed
  have active : s.graph.destroyed (.tg group) = false :=
    formed.destroyed_eq_false (live rfl)
  have home : AtHome s current group :=
    formed.atHome running task linked active
      ((winds.tgid _).symm.trans own.symm)
  have permits := shape_xpmemApRef referred permit
  have taken : Winds s (referred.xpmemApRef permit) :=
    winds.trans (.of_shape permits)
  have same : ((referred.xpmemApRef permit).ap permit).tg = group := by
    simpa [State.xpmemApRef, State.modAp] using owner
  have releases := (entered.apRef present).releaseAp
    (by rw [same]; exact home.winds taken) calm.cons_ref.cons_ref
    settled.cons_ref.cons_ref
    (by rw [State.graph_eq_of_shape permits]; exact present)
    (by simpa using free permit)
  rw [same] at releases
  refine .map (releases.mono ?_)
  rintro released ⟨reached, unlinks, _⟩
  refine ⟨reached.apDeref.tgDeref, (taken.trans unlinks.winds).trans
    (.of_shape ?_)⟩
  rw [shape_xpmemTgDeref, shape_xpmemApDeref]

/-- A segment that was removed is on no list. -/
theorem Reaches.remove (reaches : Reaches tidy origin first s held)
    (current : Task) (calm : Calm held) (settled : Settled held)
    (segid : BitVec 64) :
    Always (xpmemRemove s current segid) fun result =>
      Reaches tidy origin first result.1 held ∧
        (result.2 = .ok () → ∀ seg, s.resolveSeg segid = some seg →
          ¬ result.1.graph.Linked (.seg seg)) := by
  unfold xpmemRemove
  split
  · exact .some ⟨reaches, nofun⟩
  split
  · exact .some ⟨reaches, nofun⟩
  rename_i group found
  obtain ⟨linked, _, _⟩ := findTg_eq_some found
  extract_lets referred
  have entered : Reaches tidy origin first referred
      (.ref (.tg group) ::ₘ held) := reaches.tgRef linked
  split
  · exact .some ⟨entered.tgDeref, nofun⟩
  split
  · exact .some ⟨entered.tgDeref, nofun⟩
  rename_i seg listed
  obtain ⟨present, owner, _⟩ := entered.formed.findSeg listed
  have segs := shape_xpmemSegRef referred seg
  have same : ((referred.xpmemSegRef seg).seg seg).tg = group := by
    simpa [State.xpmemSegRef, State.modSeg] using owner
  have removes := (entered.segRef present).removeSeg
    settled.cons_ref.cons_ref
    (by rw [State.graph_eq_of_shape segs]; exact present)
    (by simpa using calm.seg seg)
  rw [same] at removes
  refine .map (removes.mono ?_)
  rintro removed ⟨reached, _, unlinked⟩
  refine ⟨reached.segDeref.tgDeref, fun _ other resolved => ?_⟩
  rw [State.resolveSeg, found, Option.bind_some] at resolved
  rw [findSeg_xpmemTgRef, resolved] at listed
  cases listed
  have final : ((removed.xpmemSegDeref seg).xpmemTgDeref group).shape =
      removed.shape := by
    rw [shape_xpmemTgDeref, shape_xpmemSegDeref]
  rw [State.graph_eq_of_shape final]
  exact unlinked

end Xpmem.Driver
