import Xpmem.Objects.LinkSteps

/-!
# Steps on address spaces

The steps of the driver and of the kernel that change areas, leaves and
places of attachments.  They leave all links alone, but for the detaching of
an attachment, which cuts its area and its link in one step.
-/

namespace Xpmem.Driver

open Xpmem.Foundation Xpmem.Kernel Xpmem.Objects

variable {K : Platform} {s t : State K} {held more : Held}

/-! ## What address spaces do not touch -/

/-- An attachment without its place. -/
def Attachment.object (att : Attachment) : Attachment :=
  { att.shape with
    atVaddr := 0, atSize := 0, atVma := none, validPTEs := false }

/-- An address space without areas and leaves. -/
def watched (mm : Mm K) : Mm K where
  vmas := .empty
  table := .empty
  notifiers := mm.notifiers

/-- The state without counters, areas, leaves and places. -/
def State.objects (s : State K) : State K :=
  { s.shape with
    att := fun att => (s.att att).object
    mm := fun mm => watched (s.mm mm)
    nextVma := 0 }

namespace State

theorem graph_objects (s : State K) : s.objects.graph = s.graph := by
  ext object <;> rfl

theorem graph_eq_of_objects (same : t.objects = s.objects) :
    t.graph = s.graph := by
  rw [← graph_objects t, same, graph_objects]

theorem objects_modMm (s : State K) (mm : MmPtr) {change : Mm K → Mm K}
    (notifiers : (change (s.mm mm)).notifiers = (s.mm mm).notifiers) :
    (s.modMm mm change).objects = s.objects := by
  have same : watched (change (s.mm mm)) = watched (s.mm mm) := by
    simp only [watched, notifiers]
  simp only [objects, shape, modMm, erase_update watched s.mm mm same]

theorem objects_modAtt (s : State K) (att : AttPtr)
    {change : Attachment → Attachment}
    (same : (change (s.att att)).object = (s.att att).object) :
    (s.modAtt att change).objects = s.objects := by
  simp only [objects, shape, modAtt,
    erase_update Attachment.object s.att att same]

end State

theorem objects_eq_of_shape (same : t.shape = s.shape) :
    t.objects = s.objects := by
  change t.shape.objects = s.shape.objects
  rw [same]

theorem SameProcs.of_objects (same : t.objects = s.objects) :
    SameProcs s t where
  linked group := by rw [State.graph_eq_of_objects same]
  tgid group _ := congrArg (fun u => (u.tg group).tgid) same
  mm group _ := congrArg (fun u => (u.tg group).mm) same
  destroyed group _ := congrArg (fun u => (u.tg group).destroyed) same
  notifiers mm := congrArg (fun u => (u.mm mm).notifiers) same
  proc := congrArg (fun u => u.proc) same
  nextMm := congrArg (fun u => u.nextMm) same

/-- The tokens differ at most in attachments without areas and the like. -/
structure SameTokens (held more : Held) : Prop where
  ref : ∀ object, more.count (.ref object) = held.count (.ref object)
  closing : ∀ object,
    more.count (.closing object) = held.count (.closing object)
  leaving : ∀ tgid, .leaving tgid ∈ held → .leaving tgid ∈ more

theorem WellFormed.of_objects (formed : WellFormed s held)
    (same : t.objects = s.objects) (refcnt : t.refcnt = s.refcnt)
    (allocated : t.allocated = s.allocated)
    (tokens : SameTokens held more) (laid : Laid t more) :
    WellFormed t more where
  graph := by
    rw [State.graph_eq_of_objects same]
    exact formed.graph.mono tokens.closing
  counted := by
    rw [State.graph_eq_of_objects same]
    exact formed.counted.congr refcnt allocated rfl (fun _ => id)
      tokens.ref
  procs := (formed.procs.mono tokens.leaving).congr (.of_objects same)
  laid := laid

/-- Objects fix what attachments show. -/
theorem segOf_of_objects (same : t.objects = s.objects) (att : AttPtr) :
    t.segOf att = s.segOf att := by
  have ap : (t.att att).ap = (s.att att).ap :=
    congrArg (fun u => (u.att att).ap) same
  rw [State.segOf, ap]
  exact congrArg (fun u => (u.ap (s.att att).ap).seg) same

theorem Laid.rebuild (laid : Laid s held)
    (same : t.objects = s.objects)
    (placed : Placed K t.vmas t.place (t.Bound more) t.nextVma)
    (mapped : Mapped t.vmas t.pte t.place t.valid (t.Bound more))
    (window : ∀ att, t.Bound more att →
      Window (s.seg (s.segOf att)).vaddr (s.seg (s.segOf att)).size
        (t.place att).source (t.place att).size)
    (revoked : ∀ att, t.Bound more att →
      (s.seg (s.segOf att)).destroyed = true →
      s.Straight (s.segOf att) → (t.place att).Unmapped t.pte) :
    Laid t more := by
  have segOf := segOf_of_objects same
  have vaddr (seg : SegPtr) : (t.seg seg).vaddr = (s.seg seg).vaddr :=
    congrArg (fun u => (u.seg seg).vaddr) same
  have size (seg : SegPtr) : (t.seg seg).size = (s.seg seg).size :=
    congrArg (fun u => (u.seg seg).size) same
  have graph := State.graph_eq_of_objects same
  constructor
  case placed => exact placed
  case mapped => exact mapped
  case home =>
    intro att linked
    have ap : (t.att att).ap = (s.att att).ap :=
      congrArg (fun u => (u.att att).ap) same
    have mm : (t.att att).mm = (s.att att).mm :=
      congrArg (fun u => (u.att att).mm) same
    have group : (t.ap (s.att att).ap).tg = (s.ap (s.att att).ap).tg :=
      congrArg (fun u => (u.ap (s.att att).ap).tg) same
    have home :
        (t.tg (s.ap (s.att att).ap).tg).mm =
          (s.tg (s.ap (s.att att).ap).tg).mm :=
      congrArg (fun u => (u.tg (s.ap (s.att att).ap).tg).mm) same
    rw [graph] at linked
    rw [ap, group, home, mm]
    exact laid.home att linked
  case window =>
    intro att present
    rw [segOf, vaddr, size]
    exact window att present
  case ranges =>
    intro seg used
    rw [graph] at used
    rw [vaddr, size]
    exact laid.ranges seg used
  case limit =>
    intro group used
    rw [graph] at used
    have limit : (t.tg group).addrLimit = (s.tg group).addrLimit :=
      congrArg (fun u => (u.tg group).addrLimit) same
    rw [limit]
    exact laid.limit group used
  case revoked =>
    intro att present destroyed straight
    have flag :
        (t.seg (s.segOf att)).destroyed =
          (s.seg (s.segOf att)).destroyed :=
      congrArg (fun u => (u.seg (s.segOf att)).destroyed) same
    rw [segOf, flag] at destroyed
    rw [segOf, State.Straight, vaddr, size] at straight
    exact revoked att present destroyed straight

/-- No attachment gets an area. -/
theorem Laid.of_objects (laid : Laid s held)
    (same : t.objects = s.objects)
    (bound : ∀ att, t.Bound more att →
      s.Bound held att ∧ t.place att = s.place att)
    (placed : Placed K t.vmas t.place (t.Bound more) t.nextVma)
    (mapped : Mapped t.vmas t.pte t.place t.valid (t.Bound more))
    (revoked : ∀ att, s.Bound held att →
      (s.seg (s.segOf att)).destroyed = true →
      s.Straight (s.segOf att) → (s.place att).Unmapped t.pte) :
    Laid t more := by
  refine laid.rebuild same placed mapped ?_ ?_
  · intro att present
    obtain ⟨before, place⟩ := bound att present
    rw [place]
    exact laid.window att before
  · intro att present destroyed straight
    obtain ⟨before, place⟩ := bound att present
    rw [place]
    exact revoked att before destroyed straight

/-! ## Leaves -/

namespace State

/-- Give an address space another page table. -/
def setTable (s : State K) (mm : MmPtr) (table : PageTable K) : State K :=
  s.modMm mm fun space => { space with table := table }

theorem vmas_setTable (s : State K) (mm : MmPtr) (table : PageTable K) :
    (s.setTable mm table).vmas = s.vmas := by
  funext other
  by_cases here : other = mm
  · subst here
    simp [vmas, setTable, modMm]
  · simp [vmas, setTable, modMm, here]

theorem pte_setTable (s : State K) (mm : MmPtr) (table : PageTable K) :
    (s.setTable mm table).pte = Function.update s.pte mm table.pte := by
  funext other page
  by_cases here : other = mm
  · subst here
    simp [pte, setTable, modMm]
  · simp [pte, setTable, modMm, here]

/-- Change the flag of an attachment that has leaves. -/
def setValid (s : State K) (att : AttPtr) (value : Bool) : State K :=
  s.modAtt att fun att => { att with validPTEs := value }

theorem place_setValid (s : State K) (att : AttPtr) (value : Bool) :
    (s.setValid att value).place = s.place := by
  funext other
  by_cases equal : other = att
  · subst equal
    simp [place, setValid, modAtt]
  · simp [place, setValid, modAtt, equal]

theorem valid_setValid (s : State K) (att other : AttPtr) (value : Bool) :
    (s.setValid att value).valid other =
      if other = att then value else s.valid other := by
  by_cases equal : other = att
  · subst equal
    simp [valid, setValid, modAtt]
  · simp [valid, setValid, modAtt, equal]

theorem counts_setValid (s : State K) (att : AttPtr) (value : Bool) :
    (s.setValid att value).refcnt = s.refcnt ∧
      (s.setValid att value).allocated = s.allocated := by
  constructor <;> funext object <;> cases object <;>
    simp [setValid, refcnt, allocated, modAtt, Function.update_apply] <;>
    grind

theorem bound_of_objects (same : t.objects = s.objects) (held : Held) :
    t.Bound held = s.Bound held := by
  funext att
  rw [Bound, Bound, graph_eq_of_objects same]

end State

/-- A leaf the table may have: an old one, or one in a suitable area. -/
def Allowed (s : State K) (mm : MmPtr) (page : Nat) (frame : Frame) :
    Prop :=
  s.pte mm page = some frame ∨
    frame ≠ 0 ∧ ∃ area ∈ s.vmas mm, area.Contains (page * pageSize) ∧
      ∀ att, area.payload.privateData = some att →
        s.valid att = true ∧ (s.seg (s.segOf att)).destroyed = false

theorem WellFormed.retable (formed : WellFormed s held) {mm : MmPtr}
    {table : PageTable K}
    (allowed : ∀ page frame, table.pte page = some frame →
      Allowed s mm page frame) :
    WellFormed (s.setTable mm table) held := by
  have same : (s.setTable mm table).objects = s.objects :=
    s.objects_modMm mm rfl
  have bound := State.bound_of_objects same held
  refine formed.of_objects same rfl rfl
    ⟨fun _ => rfl, fun _ => rfl, fun _ => id⟩ ?_
  refine formed.laid.of_objects same ?_ ?_ ?_ ?_
  · intro att present
    rw [bound] at present
    exact ⟨present, rfl⟩
  · rw [s.vmas_setTable, bound]
    exact formed.laid.placed
  · rw [s.vmas_setTable, s.pte_setTable, bound]
    refine formed.laid.mapped.retable formed.laid.placed ?_
      (fun _ _ => id)
    intro page frame leaf
    exact (allowed page frame leaf).imp_right
      fun ⟨positive, area, member, contains, owner⟩ =>
        ⟨positive, area, member, contains,
          fun att carries => (owner att carries).1⟩
  · intro att present destroyed straight index inside
    have before :=
      formed.laid.revoked att present destroyed straight index inside
    rw [s.pte_setTable]
    by_cases here : (s.place att).mm = mm
    · subst here
      rw [Function.update_self]
      by_contra leaf
      obtain ⟨frame, found⟩ := Option.ne_none_iff_exists'.mp leaf
      rcases allowed _ frame found with
        old | ⟨_, area, member, contains, owner⟩
      · rw [before] at old
        cases old
      · have carries :=
          formed.laid.placed.carries present inside member contains
        have live := (owner att carries).2
        rw [destroyed] at live
        cases live
    · rw [Function.update_of_ne here]
      exact before

theorem WellFormed.setValid (formed : WellFormed s held) {att : AttPtr}
    {value : Bool}
    (unmapped : value = false → s.Bound held att →
      (s.place att).Unmapped s.pte) :
    WellFormed (s.setValid att value) held := by
  have same : (s.setValid att value).objects = s.objects :=
    s.objects_modAtt att rfl
  have bound := State.bound_of_objects same held
  have counts := s.counts_setValid att value
  refine formed.of_objects same counts.1 counts.2
    ⟨fun _ => rfl, fun _ => rfl, fun _ => id⟩ ?_
  refine formed.laid.of_objects same ?_ ?_ ?_ ?_
  · intro other present
    rw [bound] at present
    exact ⟨present, congrFun (s.place_setValid att value) other⟩
  · rw [s.place_setValid, bound]
    exact formed.laid.placed
  · rw [s.place_setValid, bound]
    refine ⟨formed.laid.mapped.covered, formed.laid.mapped.positive, ?_⟩
    intro other present invalid
    rw [s.valid_setValid] at invalid
    split at invalid
    · rename_i equal
      subst equal
      exact unmapped invalid present
    · exact formed.laid.mapped.flagged other present invalid
  · exact formed.laid.revoked

/-! ## Areas -/

namespace State

/-- Give an address space other areas and another page table. -/
def setSpace (s : State K) (mm : MmPtr) (vmas : RangeList VmaInfo)
    (table : PageTable K) (later : Nat) : State K :=
  { s.modMm mm (fun space =>
      { space with vmas := vmas, table := table }) with
    nextVma := later }

theorem vmas_setSpace (s : State K) (mm : MmPtr)
    (vmas : RangeList VmaInfo) (table : PageTable K) (later : Nat) :
    (s.setSpace mm vmas table later).vmas =
      Function.update s.vmas mm vmas := by
  funext other
  by_cases here : other = mm
  · subst here
    simp [State.vmas, setSpace, modMm]
  · simp [State.vmas, setSpace, modMm, here]

theorem pte_setSpace (s : State K) (mm : MmPtr)
    (vmas : RangeList VmaInfo) (table : PageTable K) (later : Nat) :
    (s.setSpace mm vmas table later).pte =
      Function.update s.pte mm table.pte := by
  funext other page
  by_cases here : other = mm
  · subst here
    simp [pte, setSpace, modMm]
  · simp [pte, setSpace, modMm, here]

theorem objects_setSpace (s : State K) (mm : MmPtr)
    (vmas : RangeList VmaInfo) (table : PageTable K) (later : Nat) :
    (s.setSpace mm vmas table later).objects = s.objects := by
  change
    (s.modMm mm fun space =>
      { space with vmas := vmas, table := table }).objects = s.objects
  exact s.objects_modMm mm rfl

end State

/-- Areas of one address space change, and leaves of it go. -/
theorem WellFormed.setSpace (formed : WellFormed s held) {mm : MmPtr}
    {vmas : RangeList VmaInfo} {table : PageTable K} {later : Nat}
    (tokens : SameTokens held more)
    (fewer : ∀ att, .bare att ∈ held → .bare att ∈ more)
    (placed : Placed K (Function.update s.vmas mm vmas) s.place
      (s.Bound more) later)
    (thinner : ∀ page frame, table.pte page = some frame →
      s.pte mm page = some frame ∧
        ∀ area ∈ s.vmas mm, area.Contains (page * pageSize) →
          ∃ piece ∈ vmas, piece.Contains (page * pageSize)) :
    WellFormed (s.setSpace mm vmas table later) more := by
  have same := s.objects_setSpace mm vmas table later
  have bound := State.bound_of_objects same more
  have before (att : AttPtr) (present : s.Bound more att) :
      s.Bound held att :=
    ⟨present.1, fun token => present.2 (fewer att token)⟩
  have thin :
      Thinner s.pte (Function.update s.pte mm table.pte) := by
    intro other page frame leaf
    by_cases here : other = mm
    · subst here
      rw [Function.update_self] at leaf
      exact (thinner page frame leaf).1
    · rw [Function.update_of_ne here] at leaf
      exact leaf
  refine formed.of_objects same rfl rfl tokens ?_
  refine formed.laid.of_objects same ?_ ?_ ?_ ?_
  · intro att present
    rw [bound] at present
    exact ⟨before att present, rfl⟩
  · rw [s.vmas_setSpace, bound]
    exact placed
  · rw [s.vmas_setSpace, s.pte_setSpace, bound]
    refine formed.laid.mapped.thin thin before ?_
    intro other page frame leaf area member contains
    by_cases here : other = mm
    · subst here
      rw [Function.update_self] at leaf ⊢
      exact (thinner page frame leaf).2 area member contains
    · rw [Function.update_of_ne here]
      exact ⟨area, member, contains⟩
  · intro att present destroyed straight
    rw [s.pte_setSpace]
    exact (formed.laid.revoked att present destroyed straight).thin thin

theorem addVma_eq (s : State K) (mm : MmPtr) (start stop : Nat)
    (proper : start < stop) (xpmemOps : Bool) :
    addVma s mm start stop proper xpmemOps =
      s.setSpace mm
        ((s.mm mm).vmas.insert
          ⟨start, stop, ⟨s.nextVma, xpmemOps, false, none⟩⟩ proper)
        (s.mm mm).table (s.nextVma + 1) :=
  rfl

theorem WellFormed.addVma (formed : WellFormed s held) {mm : MmPtr}
    {start stop : Nat} (proper : start < stop) (xpmemOps : Bool)
    (startAligned : start % pageSize = 0)
    (stopAligned : stop % pageSize = 0) (below : stop ≤ K.taskSize)
    (free : (s.mm mm).vmas.Free start stop) :
    WellFormed (addVma s mm start stop proper xpmemOps) held := by
  rw [addVma_eq]
  refine formed.setSpace ⟨fun _ => rfl, fun _ => rfl, fun _ => id⟩
    (fun _ => id) ?_ ?_
  · refine formed.laid.placed.rearrange_all (Nat.le_succ _) ?_ ?_
    · exact Placed.rearranged_insert free rfl rfl
        ⟨startAligned, stopAligned, below⟩
    · intro area member _
      exact (RangeList.mem_insert_iff free).mpr (Or.inr member)
  · intro page frame leaf
    refine ⟨leaf, fun area member contains => ⟨area, ?_, contains⟩⟩
    exact (RangeList.mem_insert_iff free).mpr (Or.inr member)

/-- Nothing an attachment is in has the address inside. -/
def Outside (s : State K) (mm : MmPtr) (addr : Nat) : Prop :=
  ∀ area ∈ s.vmas mm, area.payload.privateData ≠ none →
    ¬ (area.start < addr ∧ addr < area.stop)

/-- A structure that is kept, or copied for a new area. -/
def Renews (s : State K) (change : VmaInfo → VmaInfo) : Prop :=
  ∀ info : VmaInfo, info.privateData = none →
    ((change info).privateData = none ∧
      ((change info).vma = s.nextVma ∨ (change info).vma = info.vma)) ∧
      (change info).xpmemOps = info.xpmemOps

theorem renews_id (s : State K) : Renews s id :=
  fun _ none => ⟨⟨none, Or.inr rfl⟩, rfl⟩

theorem copyVma_of_none (s : State K) {info : VmaInfo}
    (none : info.privateData = none) :
    copyVma s info = { info with vma := s.nextVma } := by
  simp only [copyVma, xpmemOpenHandler, none]
  split <;> rfl

theorem renews_copyVma (s : State K) : Renews s (copyVma s) := by
  intro info none
  rw [copyVma_of_none s none]
  exact ⟨⟨none, Or.inl rfl⟩, rfl⟩

theorem WellFormed.splitVma (formed : WellFormed s held) {mm : MmPtr}
    {lower upper : VmaInfo → VmaInfo} {addr : Nat}
    (aligned : addr % pageSize = 0) (outside : Outside s mm addr)
    (lowered : Renews s lower) (raised : Renews s upper) :
    WellFormed (splitVma s mm lower upper addr) held := by
  change WellFormed
    (s.setSpace mm ((s.mm mm).vmas.splitAt lower upper addr)
      (s.mm mm).table (s.nextVma + 1)) held
  refine formed.setSpace ⟨fun _ => rfl, fun _ => rfl, fun _ => id⟩
    (fun _ => id) ?_ ?_
  · refine formed.laid.placed.rearrange_all (Nat.le_succ _) ?_ ?_
    · exact Placed.rearranged_splitAt (formed.laid.placed.fits mm) aligned
        outside (fun info none => (lowered info none).1)
        (fun info none => (raised info none).1)
    · intro area member carried
      rw [RangeList.mem_splitAt_iff]
      refine ⟨area, member, ?_⟩
      rw [RangeList.cut, if_neg (outside area member carried)]
      exact List.mem_singleton_self area
  · intro page frame leaf
    refine ⟨leaf, fun area member contains => ?_⟩
    obtain ⟨piece, new, holds, _⟩ :=
      RangeList.exists_splitAt_contains member contains
    exact ⟨piece, new, holds⟩

/-! ## Unmapping -/

/-- The range cuts no area that carries an attachment. -/
def Spared (s : State K) (mm : MmPtr) (start stop : Nat) : Prop :=
  ∀ area ∈ s.vmas mm, area.payload.privateData ≠ none →
    Placed.Uncut area start stop

/-- The attachments whose areas an unmap removes. -/
def lostAtts (s : State K) (mm : MmPtr) (start stop : Nat) :
    List AttPtr :=
  ((s.mm mm).removedVmas (copyVma s) start stop).filterMap
    fun area => area.payload.privateData

/-- The tokens that an unmap leaves to its operation. -/
def unmapHeld (s : State K) (mm : MmPtr) (start stop : Nat)
    (held : Held) : Held :=
  (lostAtts s mm start stop : Multiset AttPtr).map Token.bare +
    (.stale mm start stop ::ₘ held)

theorem mem_lostAtts_iff {mm : MmPtr} {start stop : Nat}
    (spared : Spared s mm start stop) {att : AttPtr} :
    att ∈ lostAtts s mm start stop ↔
      ∃ area ∈ s.vmas mm, area.Meets start stop ∧
        area.payload.privateData = some att := by
  rw [lostAtts, Mm.removedVmas, List.mem_filterMap]
  constructor
  · rintro ⟨removed, member, carries⟩
    obtain ⟨area, meeting, equal⟩ := List.mem_map.mp member
    obtain ⟨old, meets⟩ := RangeList.mem_meeting_iff.mp meeting
    refine ⟨area, old, meets, ?_⟩
    split at equal
    · exact equal ▸ carries
    · rename_i cut
      have none : area.payload.privateData = none := by
        by_contra carried
        exact cut (spared area old carried meets)
      subst equal
      rw [copyVma_of_none s none] at carries
      exact absurd (none.symm.trans carries) (by simp)
  · rintro ⟨area, old, meets, carries⟩
    have whole := spared area old (by rw [carries]; simp) meets
    refine ⟨area, List.mem_map.mpr ⟨area, ?_, if_pos whole⟩, carries⟩
    exact RangeList.mem_meeting_iff.mpr ⟨old, meets⟩

theorem bare_mem_unmapHeld_iff {mm : MmPtr} {start stop : Nat}
    {att : AttPtr} :
    .bare att ∈ unmapHeld s mm start stop held ↔
      att ∈ lostAtts s mm start stop ∨ .bare att ∈ held := by
  simp [unmapHeld]

theorem sameTokens_unmapHeld (s : State K) (mm : MmPtr) (start stop : Nat)
    (held : Held) :
    SameTokens held (unmapHeld s mm start stop held) := by
  constructor
  · intro object
    simp [unmapHeld]
  · intro object
    simp [unmapHeld]
  · intro tgid
    simp [unmapHeld]

theorem Laid.placed_unmap (laid : Laid s held) {mm : MmPtr}
    {start stop : Nat} (proper : start < stop)
    (startAligned : start % pageSize = 0)
    (stopAligned : stop % pageSize = 0)
    (spared : Spared s mm start stop) :
    Placed K
      (Function.update s.vmas mm
        ((s.vmas mm).carve (copyVma s) start stop proper))
      s.place (s.Bound (unmapHeld s mm start stop held))
      (s.nextVma + 1) := by
  have placed := laid.placed
  have meets {att : AttPtr} {area : Vma} (member : area ∈ s.vmas mm)
      (carries : area.payload.privateData = some att)
      (lost : att ∈ lostAtts s mm start stop) : area.Meets start stop := by
    obtain ⟨other, otherMember, meets, same⟩ :=
      (mem_lostAtts_iff spared).mp lost
    obtain ⟨_, _, occupies⟩ := placed.attached mm area member att carries
    obtain ⟨_, _, otherOccupies⟩ :=
      placed.attached mm other otherMember att same
    rw [Range.Meets, occupies.start, occupies.stop,
      ← otherOccupies.stop, ← otherOccupies.start]
    exact meets
  have rearranged :
      Placed.Rearranged K s.nextVma (s.nextVma + 1)
        (s.Bound (unmapHeld s mm start stop held)) (s.vmas mm)
        ((s.vmas mm).carve (copyVma s) start stop proper) := by
    refine Placed.rearranged_carve (placed.fits mm) startAligned
      stopAligned spared ?_
    intro info none
    rw [copyVma_of_none s none]
    exact ⟨none, rfl⟩
  refine placed.rearrange (Nat.le_succ _) rearranged ?_ ?_ ?_ ?_
  · intro att present
    exact ⟨present.1, fun bare =>
      present.2 (bare_mem_unmapHeld_iff.mpr (Or.inr bare))⟩
  · intro att present area member carries
    rw [RangeList.mem_carve_iff]
    refine ⟨area, member, ?_⟩
    have apart : ¬ area.Meets start stop := fun meets =>
      present.2 (bare_mem_unmapHeld_iff.mpr
        (Or.inl ((mem_lostAtts_iff spared).mpr
          ⟨area, member, meets, carries⟩)))
    rw [RangeList.remains, if_neg apart]
    exact List.mem_singleton_self area
  · intro area member att carries present
    refine ⟨present.1, fun bare => ?_⟩
    rcases bare_mem_unmapHeld_iff.mp bare with lost | before
    · have free := RangeList.carve_free (s.vmas mm) (copyVma s) start stop
        proper area member
      rcases rearranged area member with old | ⟨none, _⟩
      · obtain ⟨low, high⟩ := meets old carries lost
        omega
      · rw [none] at carries
        cases carries
    · exact present.2 before
  · intro att present elsewhere
    refine ⟨present.1, fun bare => ?_⟩
    rcases bare_mem_unmapHeld_iff.mp bare with lost | before
    · obtain ⟨area, member, _, carries⟩ :=
        (mem_lostAtts_iff spared).mp lost
      exact elsewhere (placed.attached mm area member att carries).2.1
    · exact present.2 before

theorem vmas_unmapRange (s : State K) (mm : MmPtr) (start stop : Nat)
    (proper : start < stop) :
    (unmapRange s mm start stop proper).vmas =
      Function.update s.vmas mm
        ((s.vmas mm).carve (copyVma s) start stop proper) :=
  s.vmas_setSpace mm _
    ((s.mm mm).table.clear (start / pageSize) (stop / pageSize)) _

theorem WellFormed.unmapRange (formed : WellFormed s held) {mm : MmPtr}
    {start stop : Nat} (proper : start < stop)
    (startAligned : start % pageSize = 0)
    (stopAligned : stop % pageSize = 0)
    (spared : Spared s mm start stop) :
    WellFormed (unmapRange s mm start stop proper)
      (unmapHeld s mm start stop held) := by
  change WellFormed
    (s.setSpace mm ((s.mm mm).vmas.carve (copyVma s) start stop proper)
      ((s.mm mm).table.clear (start / pageSize) (stop / pageSize))
      (s.nextVma + 1)) _
  refine formed.setSpace (sameTokens_unmapHeld s mm start stop held) ?_
    (formed.laid.placed_unmap proper startAligned stopAligned spared) ?_
  · intro att bare
    exact bare_mem_unmapHeld_iff.mpr (Or.inr bare)
  · intro page frame leaf
    rw [PageTable.clear_pte] at leaf
    split at leaf
    · cases leaf
    · rename_i kept
      refine ⟨leaf, fun area member contains => ?_⟩
      have outside : page * pageSize < start ∨ stop ≤ page * pageSize := by
        unfold pageSize at *
        omega
      obtain ⟨piece, new, holds, _⟩ :=
        RangeList.exists_carve_contains member contains outside
      exact ⟨piece, new, holds⟩

/-! ## Tying and untying attachments -/

/-- The place `xpmem_attach` gives an attachment. -/
def bindPlace (s : State K) (att : AttPtr) (area : Vma) : Place :=
  { s.place att with start := area.start, vma := some area.payload.vma }

namespace State

theorem vmas_updateVma (s : State K) (mm : MmPtr) (vma : Nat)
    (change : VmaInfo → VmaInfo) :
    (s.modMm mm fun space => space.updateVma vma change).vmas =
      Function.update s.vmas mm
        (Placed.retag (s.vmas mm) vma change) := by
  funext other
  by_cases here : other = mm
  · subst here
    simp [vmas, modMm, Mm.updateVma, Placed.retag]
  · simp [vmas, modMm, here]

theorem pte_updateVma (s : State K) (mm : MmPtr) (vma : Nat)
    (change : VmaInfo → VmaInfo) :
    (s.modMm mm fun space => space.updateVma vma change).pte = s.pte := by
  funext other page
  by_cases here : other = mm
  · subst here
    simp [pte, modMm, Mm.updateVma]
  · simp [pte, modMm, here]

theorem objects_attachBind (s : State K) (mm : MmPtr) (att : AttPtr)
    (atVaddr : Nat) (vma : Vma) :
    (attachBind s mm att atVaddr vma).objects = s.objects := by
  rw [attachBind, objects_modAtt _ _ rfl, objects_modMm _ _ rfl,
    objects_modAtt _ _ rfl]

theorem place_attachBind (s : State K) (mm : MmPtr) (att : AttPtr)
    (area : Vma) :
    (attachBind s mm att area.start area).place =
      Function.update s.place att (bindPlace s att area) := by
  funext other
  by_cases equal : other = att
  · subst equal
    simp [place, attachBind, modAtt, modMm, bindPlace]
  · simp [place, attachBind, modAtt, modMm, equal]

theorem valid_attachBind (s : State K) (mm : MmPtr) (att : AttPtr)
    (atVaddr : Nat) (vma : Vma) :
    (attachBind s mm att atVaddr vma).valid = s.valid := by
  funext other
  by_cases equal : other = att
  · subst equal
    simp [valid, attachBind, modAtt, modMm]
  · simp [valid, attachBind, modAtt, modMm, equal]

theorem counts_attachBind (s : State K) (mm : MmPtr) (att : AttPtr)
    (atVaddr : Nat) (vma : Vma) :
    (attachBind s mm att atVaddr vma).refcnt = s.refcnt ∧
      (attachBind s mm att atVaddr vma).allocated = s.allocated := by
  constructor <;> funext object <;> cases object <;>
    simp [attachBind, refcnt, allocated, modAtt, modMm,
      Function.update_apply] <;>
    grind

end State

theorem WellFormed.attachBind {att : AttPtr}
    (formed : WellFormed s (.bare att ::ₘ held)) {mm : MmPtr} {area : Vma}
    (linked : s.graph.Linked (.att att)) (alone : .bare att ∉ held)
    (home : (s.att att).mm = mm)
    (member : area ∈ s.vmas mm)
    (unique : ∀ other ∈ s.vmas mm,
      other.payload.vma = area.payload.vma → other = area)
    (free : area.payload.privateData = none)
    (size : area.stop = area.start + (s.att att).atSize)
    (unmapped : (bindPlace s att area).Unmapped s.pte)
    (window : Window (s.seg (s.segOf att)).vaddr
      (s.seg (s.segOf att)).size (s.att att).vaddr (s.att att).atSize) :
    WellFormed (attachBind s mm att area.start area) held := by
  have same := s.objects_attachBind mm att area.start area
  have counts := s.counts_attachBind mm att area.start area
  have bound :
      (Driver.attachBind s mm att area.start area).Bound held =
        fun other => s.Bound (.bare att ::ₘ held) other ∨ other = att := by
    rw [State.bound_of_objects same held]
    funext other
    by_cases equal : other = att
    · subst equal
      simp [State.Bound, linked, alone]
    · simp [State.Bound, equal]
  have vmas :
      (Driver.attachBind s mm att area.start area).vmas =
        Function.update s.vmas mm
          (Placed.retag (s.vmas mm) area.payload.vma fun info =>
            { info with
              privateData := some att, pfnmap := true
              xpmemOps := true }) := by
    exact (s.modAtt att fun att =>
      { att with atVaddr := area.start }).vmas_updateVma mm _ _
  have pte : (Driver.attachBind s mm att area.start area).pte = s.pte :=
    (s.modAtt att fun att =>
      { att with atVaddr := area.start }).pte_updateVma mm _ _
  have place := s.place_attachBind mm att area
  have old (other : AttPtr)
      (present : s.Bound (.bare att ::ₘ held) other) : other ≠ att := by
    intro equal
    exact present.2 (by simp [equal])
  refine formed.of_objects same counts.1 counts.2
    ⟨by simp, by simp, by simp⟩ ?_
  refine formed.laid.rebuild same ?_ ?_ ?_ ?_
  · rw [vmas, place, bound]
    refine formed.laid.placed.bind member unique free ?_ home rfl ?_
    · intro present
      exact old att present rfl
    · exact ⟨rfl, size, rfl, rfl, rfl, rfl⟩
  · rw [vmas, pte, place, s.valid_attachBind, bound]
    refine formed.laid.mapped.retag mm _ _ ?_
    rintro other (present | equal) invalid
    · rw [Function.update_of_ne (old other present)]
      exact formed.laid.mapped.flagged other present invalid
    · subst equal
      rw [Function.update_self]
      exact unmapped
  · rw [bound, place]
    rintro other (present | equal)
    · rw [Function.update_of_ne (old other present)]
      exact formed.laid.window other present
    · subst equal
      rw [Function.update_self]
      exact window
  · rw [bound, place, pte]
    rintro other (present | equal) destroyed straight
    · rw [Function.update_of_ne (old other present)]
      exact formed.laid.revoked other present destroyed straight
    · subst equal
      rw [Function.update_self]
      exact unmapped

/-- The area of an attachment stops carrying it. -/
def State.untie (s : State K) (att : AttPtr) (vma : Nat) : State K :=
  s.modMm (s.att att).mm fun space =>
    space.updateVma vma fun info => { info with privateData := none }

theorem WellFormed.untie (formed : WellFormed s held) {att : AttPtr}
    {area : Vma} (present : s.Bound held att)
    (member : area ∈ s.vmas (s.att att).mm)
    (carries : area.payload.privateData = some att) :
    WellFormed (s.untie att area.payload.vma) (.bare att ::ₘ held) := by
  have same : (s.untie att area.payload.vma).objects = s.objects :=
    s.objects_modMm _ rfl
  have bound :
      (s.untie att area.payload.vma).Bound (.bare att ::ₘ held) =
        fun other => s.Bound held other ∧ other ≠ att := by
    rw [State.bound_of_objects same]
    funext other
    by_cases equal : other = att
    · simp [State.Bound, equal]
    · simp [State.Bound, equal]
  obtain ⟨_, _, occupies⟩ :=
    formed.laid.placed.attached _ area member att carries
  have vmas := s.vmas_updateVma (s.att att).mm area.payload.vma
    fun info => { info with privateData := none }
  have pte : (s.untie att area.payload.vma).pte = s.pte :=
    s.pte_updateVma _ _ _
  refine formed.of_objects same rfl rfl ⟨by simp, by simp, by simp⟩ ?_
  refine formed.laid.of_objects same ?_ ?_ ?_ ?_
  · rw [bound]
    exact fun other still => ⟨still.1, rfl⟩
  · rw [bound, State.untie, vmas]
    exact formed.laid.placed.unbind present member occupies
      (fun _ => rfl) (fun _ => rfl)
  · rw [bound, pte, State.untie, vmas]
    exact formed.laid.mapped.retag _ _ _ fun other still invalid =>
      formed.laid.mapped.flagged other still.1 invalid
  · rw [pte]
    exact formed.laid.revoked

/-! ## Processes -/

/-- Tokens for frames and pins come and go freely. -/
theorem WellFormed.retoken (formed : WellFormed s held)
    (tokens : SameTokens held more)
    (bare : ∀ att, .bare att ∈ more ↔ .bare att ∈ held) :
    WellFormed s more :=
  formed.of_objects rfl rfl rfl tokens (formed.laid.of_layout rfl bare)

theorem WellFormed.wipe (formed : WellFormed s held) {mm : MmPtr}
    (none : ∀ att, s.Bound held att → (s.att att).mm ≠ mm) :
    WellFormed (s.setSpace mm .empty .empty s.nextVma) held := by
  refine formed.setSpace ⟨fun _ => rfl, fun _ => rfl, fun _ => id⟩
    (fun _ => id) (formed.laid.placed.wipe none) ?_
  intro page frame leaf
  cases leaf

/-- The state with other processes or notifiers. -/
theorem WellFormed.of_procs (formed : WellFormed s held)
    (graph : t.graph = s.graph) (refcnt : t.refcnt = s.refcnt)
    (allocated : t.allocated = s.allocated) (keeps : Recorded s t)
    (refs : ∀ object, more.count (.ref object) = held.count (.ref object))
    (closings : ∀ object,
      more.count (.closing object) = held.count (.closing object))
    (bare : ∀ att, .bare att ∈ more ↔ .bare att ∈ held)
    (vmas : t.vmas = s.vmas) (pte : t.pte = s.pte)
    (nextVma : t.nextVma = s.nextVma) (atts : t.att = s.att)
    (procs : Procs t more) :
    WellFormed t more where
  graph := by
    rw [graph]
    exact formed.graph.mono closings
  counted := by
    rw [graph]
    exact formed.counted.congr refcnt allocated rfl (fun _ => id) refs
  procs := procs
  laid := by
    refine formed.laid.of_keeps formed.graph keeps
      (.of_keeps formed.graph keeps ?_ vmas pte nextVma ?_ ?_) ?_ ?_ ?_ ?_
    · intro att
      rw [State.Bound, State.Bound, graph, bare]
    · intro att _
      rw [State.place, State.place, atts]
    · intro att _
      rw [State.valid, State.valid, atts]
    · intro att linked unlinked
      rw [graph] at linked
      exact (unlinked linked).elim
    · intro seg used unused
      rw [graph] at used
      exact (unused used).elim
    · intro group used unused
      rw [graph] at used
      exact (unused used).elim
    · intro att _ destroyed _
      exact Or.inl ((congrFun (congrArg Graph.destroyed graph)
        (.seg (s.segOf att))).symm.trans destroyed)

theorem WellFormed.spawn (formed : WellFormed s held) {tgid : Pid}
    (absent : s.proc tgid = .absent) (staying : .leaving tgid ∉ held) :
    WellFormed (spawnProc s tgid) held := by
  have procs := formed.procs
  have alone (group : TgPtr) (linked : s.graph.Linked (.tg group)) :
      (s.tg group).tgid ≠ tgid := by
    intro equal
    cases destroyed : (s.tg group).destroyed with
    | false =>
        have running := procs.running group linked destroyed
        rw [equal, absent] at running
        cases running
    | true =>
        rcases procs.leaving group linked destroyed with exiting | token
        · rw [equal, absent] at exiting
          cases exiting
        · exact staying (equal ▸ token)
  have others {other : Pid} (distinct : other ≠ tgid) :
      (spawnProc s tgid).proc other = s.proc other :=
    Function.update_of_ne distinct _ _
  have itself : (spawnProc s tgid).proc tgid = .running s.nextMm :=
    Function.update_self _ _ _
  refine formed.of_procs rfl rfl rfl
    (.of_same rfl rfl rfl rfl rfl rfl rfl rfl)
    (fun _ => rfl) (fun _ => rfl) (fun _ => Iff.rfl)
    rfl rfl rfl rfl ?_
  constructor
  case running =>
    intro group linked live
    exact (others (alone group linked)).trans
      (procs.running group linked live)
  case leaving =>
    intro group linked dead
    refine (procs.leaving group linked dead).imp_left ?_
    exact (others (alone group linked)).trans
  case unique => exact procs.unique
  case registered => exact procs.registered
  case notifier =>
    intro mm group member
    obtain ⟨home, linked, running, rest⟩ := procs.notifier mm group member
    exact ⟨home, linked, (others (alone group linked)).trans running,
      rest⟩
  case injective =>
    intro first second mm firstRuns secondRuns
    by_cases firstNew : first = tgid
    · by_cases secondNew : second = tgid
      · rw [firstNew, secondNew]
      · rw [firstNew, itself] at firstRuns
        rw [others secondNew] at secondRuns
        cases firstRuns
        exact absurd (procs.mm_lt _ _ secondRuns) (lt_irrefl _)
    · rw [others firstNew] at firstRuns
      by_cases secondNew : second = tgid
      · rw [secondNew, itself] at secondRuns
        cases secondRuns
        exact absurd (procs.mm_lt _ _ firstRuns) (lt_irrefl _)
      · rw [others secondNew] at secondRuns
        exact procs.injective first second mm firstRuns secondRuns
  case mm_lt =>
    intro other mm running
    by_cases new : other = tgid
    · rw [new, itself] at running
      cases running
      exact Nat.lt_succ_self _
    · rw [others new] at running
      exact Nat.lt_succ_of_lt (procs.mm_lt other mm running)

/-- `mmu_notifier_release` forgets the notifiers. -/
def State.hush (s : State K) (mm : MmPtr) : State K :=
  s.modMm mm fun space => { space with notifiers := [] }

theorem WellFormed.hush (formed : WellFormed s held) {mm : MmPtr}
    (ended : ∀ group, s.graph.Linked (.tg group) → (s.tg group).mm = mm →
      (s.tg group).destroyed = true) :
    WellFormed (s.hush mm) held := by
  have procs := formed.procs
  have notifiers (other : MmPtr) :
      ((s.hush mm).mm other).notifiers =
        if other = mm then [] else (s.mm other).notifiers := by
    by_cases here : other = mm
    · subst here
      simp [State.hush, State.modMm]
    · simp [State.hush, State.modMm, here]
  refine formed.of_procs rfl rfl rfl
    (.of_same rfl rfl rfl rfl rfl rfl rfl rfl)
    (fun _ => rfl) (fun _ => rfl) (fun _ => Iff.rfl)
    ?_ ?_ rfl rfl ?_
  · funext other
    by_cases here : other = mm
    · subst here
      simp [State.vmas, State.hush, State.modMm]
    · simp [State.vmas, State.hush, State.modMm, here]
  · funext other page
    by_cases here : other = mm
    · subst here
      simp [State.pte, State.hush, State.modMm]
    · simp [State.pte, State.hush, State.modMm, here]
  · refine { procs with registered := ?_, notifier := ?_ }
    · intro group linked live
      rw [notifiers]
      split
      · rename_i here
        have dead := ended group linked here
        exact Bool.noConfusion (dead.symm.trans live)
      · exact procs.registered group linked live
    · intro other group member
      rw [notifiers] at member
      split at member
      · cases member
      · exact procs.notifier other group member

/-- A process loses its address space, or its last trace. -/
def State.setProc (s : State K) (tgid : Pid) (proc : Proc) : State K :=
  { s with proc := Function.update s.proc tgid proc }

theorem running_of_setProc {tgid other : Pid} {proc : Proc} {mm : MmPtr}
    (stopped : proc ≠ .running mm)
    (runs : (s.setProc tgid proc).proc other = .running mm) :
    s.proc other = .running mm := by
  simp only [State.setProc, Function.update_apply] at runs
  split at runs
  · exact (stopped runs).elim
  · exact runs

theorem WellFormed.exiting {tgid : Pid}
    (formed : WellFormed s (.leaving tgid ::ₘ held)) {mm : MmPtr}
    (running : s.proc tgid = .running mm)
    (quiet : (s.mm mm).notifiers = []) :
    WellFormed (s.setProc tgid .exiting) held := by
  have procs := formed.procs
  have others {other : Pid} (distinct : other ≠ tgid) :
      (s.setProc tgid .exiting).proc other = s.proc other :=
    Function.update_of_ne distinct _ _
  have itself : (s.setProc tgid .exiting).proc tgid = .exiting :=
    Function.update_self _ _ _
  have left {other : Pid} (distinct : other ≠ tgid)
      (token : .leaving other ∈ Token.leaving tgid ::ₘ held) :
      .leaving other ∈ held :=
    (Multiset.mem_cons.mp token).resolve_left
      fun equal => distinct (Token.leaving.inj equal)
  have unwatched (other : MmPtr) (group : TgPtr)
      (member : group ∈ (s.mm other).notifiers) :
      (s.tg group).tgid ≠ tgid := by
    intro equal
    obtain ⟨_, _, runs, _⟩ := procs.notifier other group member
    rw [equal, running] at runs
    cases runs
    rw [quiet] at member
    cases member
  have ended (group : TgPtr) (linked : s.graph.Linked (.tg group))
      (live : (s.tg group).destroyed = false) :
      (s.tg group).tgid ≠ tgid :=
    unwatched _ group (procs.registered group linked live)
  refine formed.of_procs rfl rfl rfl
    (.of_same rfl rfl rfl rfl rfl rfl rfl rfl)
    (by simp) (by simp) (by simp) rfl rfl rfl rfl ?_
  constructor
  case running =>
    intro group linked live
    exact (others (ended group linked live)).trans
      (procs.running group linked live)
  case leaving =>
    intro group linked dead
    by_cases equal : (s.tg group).tgid = tgid
    · exact Or.inl ((congrArg _ equal).trans itself)
    · exact (procs.leaving group linked dead).imp
        (others equal).trans (left equal)
  case unique => exact procs.unique
  case registered => exact procs.registered
  case notifier =>
    intro other group member
    have distinct := unwatched other group member
    obtain ⟨home, linked, runs, dead⟩ := procs.notifier other group member
    exact ⟨home, linked, (others distinct).trans runs,
      fun destroyed => left distinct (dead destroyed)⟩
  case injective =>
    intro first second other firstRuns secondRuns
    refine procs.injective first second other ?_ ?_
    · exact running_of_setProc (by simp) firstRuns
    · exact running_of_setProc (by simp) secondRuns
  case mm_lt =>
    exact fun other mm runs =>
      procs.mm_lt other mm (running_of_setProc (by simp) runs)

theorem WellFormed.gone (formed : WellFormed s held) {tgid : Pid}
    (alone : ∀ group, s.graph.Linked (.tg group) →
      (s.tg group).tgid ≠ tgid) :
    WellFormed (s.setProc tgid .absent) held := by
  have procs := formed.procs
  have others {other : Pid} (distinct : other ≠ tgid) :
      (s.setProc tgid .absent).proc other = s.proc other :=
    Function.update_of_ne distinct _ _
  refine formed.of_procs rfl rfl rfl
    (.of_same rfl rfl rfl rfl rfl rfl rfl rfl)
    (fun _ => rfl) (fun _ => rfl) (fun _ => Iff.rfl) rfl rfl rfl rfl ?_
  constructor
  case running =>
    intro group linked live
    exact (others (alone group linked)).trans
      (procs.running group linked live)
  case leaving =>
    intro group linked dead
    exact (procs.leaving group linked dead).imp_left
      (others (alone group linked)).trans
  case unique => exact procs.unique
  case registered => exact procs.registered
  case notifier =>
    intro mm group member
    obtain ⟨home, linked, runs, rest⟩ := procs.notifier mm group member
    exact ⟨home, linked, (others (alone group linked)).trans runs, rest⟩
  case injective =>
    intro first second mm firstRuns secondRuns
    exact procs.injective first second mm
      (running_of_setProc (by simp) firstRuns)
      (running_of_setProc (by simp) secondRuns)
  case mm_lt =>
    exact fun other mm runs =>
      procs.mm_lt other mm (running_of_setProc (by simp) runs)

end Xpmem.Driver
