import Xpmem.Operations.Basic

/-!
# Clearing leaves

What the walks of `Driver.Clear` reach and what they leave: after a walk over
a range of source addresses no attachment it visits has a leaf that shows an
address of the range.
-/

namespace Xpmem.Driver

open Xpmem.Foundation Xpmem.Kernel Xpmem.Objects

variable {K : Platform} {tidy : Prop} {origin s t u : State K}
    {first held : Held}

/-! ## What clearing leaves alone -/

/-- Only counters, leaves and flags for leaves change, and those one way. -/
structure Clears (s t : State K) : Prop where
  objects : t.objects = s.objects
  vmas : t.vmas = s.vmas
  place : t.place = s.place
  tables : ∀ mm, (s.mm mm).table.Thins (t.mm mm).table
  valid : ∀ att, t.valid att = true → s.valid att = true

namespace Clears

theorem thinner (clears : Clears s t) : Thinner s.pte t.pte :=
  fun mm => (clears.tables mm).pte

theorem of_shape (same : t.shape = s.shape) : Clears s t where
  objects := objects_eq_of_shape same
  vmas := congrArg (fun u => u.vmas) same
  place := congrArg (fun u => u.place) same
  tables mm := by
    have table : (t.mm mm).table = (s.mm mm).table :=
      congrArg (fun u => (u.mm mm).table) same
    rw [table]
    exact .refl _
  valid att flagged := by
    have valid : t.valid = s.valid := congrArg (fun u => u.valid) same
    exact valid ▸ flagged

theorem refl (s : State K) : Clears s s :=
  of_shape rfl

theorem trans (earlier : Clears s t) (later : Clears t u) :
    Clears s u where
  objects := later.objects.trans earlier.objects
  vmas := later.vmas.trans earlier.vmas
  place := later.place.trans earlier.place
  tables mm := (earlier.tables mm).trans (later.tables mm)
  valid att flagged := earlier.valid att (later.valid att flagged)

theorem graph (clears : Clears s t) : t.graph = s.graph :=
  State.graph_eq_of_objects clears.objects

theorem bound (clears : Clears s t) (held : Held) :
    t.Bound held = s.Bound held :=
  State.bound_of_objects clears.objects held

theorem segOf (clears : Clears s t) (att : AttPtr) :
    t.segOf att = s.segOf att :=
  segOf_of_objects clears.objects att

theorem seg_vaddr (clears : Clears s t) (seg : SegPtr) :
    (t.seg seg).vaddr = (s.seg seg).vaddr :=
  congrArg (fun u => (u.seg seg).vaddr) clears.objects

theorem seg_size (clears : Clears s t) (seg : SegPtr) :
    (t.seg seg).size = (s.seg seg).size :=
  congrArg (fun u => (u.seg seg).size) clears.objects

theorem straight (clears : Clears s t) (seg : SegPtr) :
    t.Straight seg ↔ s.Straight seg := by
  rw [State.Straight, State.Straight, clears.seg_vaddr, clears.seg_size]

theorem att_mm (clears : Clears s t) (att : AttPtr) :
    (t.att att).mm = (s.att att).mm :=
  congrArg (fun u => (u.att att).mm) clears.objects

theorem att_vaddr (clears : Clears s t) (att : AttPtr) :
    (t.att att).vaddr = (s.att att).vaddr :=
  congrArg (fun u => (u.att att).vaddr) clears.objects

/-- A leaf that is gone stays away. -/
theorem pte (clears : Clears s t) {mm : MmPtr} {page : Nat}
    (gone : s.pte mm page = none) : t.pte mm page = none :=
  (clears.tables mm).pte_eq_none gone

theorem leaf (clears : Clears s t) {att : AttPtr} {index : Nat}
    (gone : s.leaf att index = none) : t.leaf att index = none := by
  rw [State.leaf, clears.att_mm, clears.place]
  exact clears.pte gone

end Clears

/-- No leaf of the attachment shows an address of the range. -/
def State.Wiped (s : State K) (att : AttPtr) (start stop : Nat) : Prop :=
  ∀ index < (s.place att).pages,
    start ≤ s.sourcePage att index * pageSize →
    s.sourcePage att index * pageSize < stop → s.leaf att index = none

theorem Clears.wiped (clears : Clears s t) {att : AttPtr}
    {start stop : Nat} (wiped : s.Wiped att start stop) :
    t.Wiped att start stop := by
  intro index inside low high
  rw [clears.place] at inside
  rw [State.sourcePage, clears.att_vaddr] at low high
  exact clears.leaf (wiped index inside low high)

/-- The areas of attachments that have none are not found. -/
def Ready (tidy : Prop) (s : State K) (held : Held) (fromMmu : Bool) :
    Prop :=
  ∀ att, .bare att ∈ held → fromMmu = true ∧
    (s.att att).atVma.bind (s.mm (s.att att).mm).vmaOf = none ∧
    (tidy → s.valid att = false)

namespace Ready

variable {fromMmu : Bool}

theorem clears (ready : Ready tidy s held fromMmu)
    (clears : Clears s t) : Ready tidy t held fromMmu := by
  intro att bare
  obtain ⟨flag, lost, invalid⟩ := ready att bare
  have vma : (t.att att).atVma = (s.att att).atVma :=
    congrArg Place.vma (congrFun clears.place att)
  have vmas := congrFun clears.vmas (s.att att).mm
  refine ⟨flag, ?_, fun orderly => ?_⟩
  · rw [vma, clears.att_mm]
    rw [State.vmas, State.vmas] at vmas
    unfold Mm.vmaOf at lost ⊢
    rw [vmas]
    exact lost
  · rw [Bool.eq_false_iff]
    intro flagged
    have before := clears.valid att flagged
    rw [invalid orderly] at before
    cases before

theorem cons_ref (ready : Ready tidy s held fromMmu) (object : Ref) :
    Ready tidy s (.ref object ::ₘ held) fromMmu := by
  intro att bare
  exact ready att (by simpa using bare)

end Ready

/-! ## One attachment -/

/-- Bounds of a range that is cleared in an attachment. -/
def Sensible (start stop source size : Nat) : Prop :=
  start ≤ stop ∨ start ≤ source ∨ source + size ≤ start

/-- The bounds of an attachment and of what it shows. -/
structure Bounds (K : Platform) (place : Place) : Prop where
  start : place.start % pageSize = 0
  size : place.size % pageSize = 0
  positive : 0 < place.size
  below : place.start + place.size ≤ K.taskSize
  source : place.source % pageSize = 0
  small : place.source < 2 ^ 64

theorem WellFormed.seg_used (formed : WellFormed s held) {att : AttPtr}
    (linked : s.graph.Linked (.att att)) :
    s.graph.Used (.seg (s.segOf att)) :=
  formed.graph.used_seg (formed.graph.linked_ap linked).1

theorem WellFormed.bounds (formed : WellFormed s held) {att : AttPtr}
    (present : s.Bound held att) : Bounds K (s.place att) := by
  obtain ⟨start, size, positive, below⟩ :=
    formed.laid.placed.aligned present
  obtain ⟨segAligned, _⟩ :=
    formed.laid.ranges _ (formed.seg_used present.1)
  obtain ⟨offset, offsetAligned, source, _⟩ :=
    formed.laid.window att present
  refine ⟨start, size, positive, below, ?_, ?_⟩
  · change (s.att att).vaddr % pageSize = 0
    rw [source]
    unfold u64
    unfold pageSize at *
    omega
  · change (s.att att).vaddr < 2 ^ 64
    rw [source]
    exact Nat.mod_lt _ (by decide)

/-- A window of a segment that does not wrap around does not either. -/
theorem WellFormed.window_of_straight (formed : WellFormed s held)
    {att : AttPtr} (present : s.Bound held att)
    (straight : s.Straight (s.segOf att)) :
    (s.seg (s.segOf att)).vaddr ≤ (s.place att).source ∧
      (s.place att).source + (s.place att).size ≤
        (s.seg (s.segOf att)).vaddr + (s.seg (s.segOf att)).size := by
  obtain ⟨offset, _, source, inside⟩ := formed.laid.window att present
  have limit := K.taskSize_le
  rw [State.Straight] at straight
  change _ ≤ (s.att att).vaddr ∧ (s.att att).vaddr + (s.att att).atSize ≤ _
  rw [source, u64_of_lt (by omega)]
  omega

theorem WellFormed.source_lt (formed : WellFormed s held) {att : AttPtr}
    (present : s.Bound held att) (straight : s.Straight (s.segOf att)) :
    (s.place att).source + (s.place att).size < 2 ^ 64 := by
  have window := (formed.window_of_straight present straight).2
  have limit := K.taskSize_le
  rw [State.Straight] at straight
  omega

/--
The part of an attachment that `xpmem_clear_PTEs_of_att` clears: `count`
pages after the first `skip`, which are those that show an address of the
range.
-/
theorem clear_range {place : Place} (bounds : Bounds K place)
    {start stop : Nat} (startAligned : start % pageSize = 0)
    (stopAligned : stop % pageSize = 0)
    (sensible : Sensible start stop place.source place.size)
    (inside : ¬ (u64 (place.source + place.size) ≤
        max start place.source ∨
      min stop (u64 (place.source + place.size)) ≤ place.source)) :
    ∃ skip count, skip + count ≤ place.pages ∧
      u64Sub (max start place.source) place.source = skip * pageSize ∧
      u64Sub (min stop (u64 (place.source + place.size))) place.source =
        (skip + count) * pageSize ∧
      u64 (place.start + skip * pageSize) =
        (place.page + skip) * pageSize ∧
      u64Sub ((skip + count) * pageSize) (skip * pageSize) =
        count * pageSize ∧
      ∀ index < place.pages, start ≤ place.source + index * pageSize →
        place.source + index * pageSize < stop →
          skip ≤ index ∧ index < skip + count := by
  obtain ⟨atAligned, sizeAligned, _, below, sourceAligned, small⟩ := bounds
  have limit := K.taskSize_le
  unfold Sensible at sensible
  have straight : u64 (place.source + place.size) =
      place.source + place.size := by
    unfold u64 at *
    omega
  have bounded : place.source + place.size < 2 ^ 64 := by
    unfold u64 at straight
    omega
  rw [straight] at inside ⊢
  refine ⟨(max start place.source - place.source) / pageSize,
    (min stop (place.source + place.size) -
      max start place.source) / pageSize, ?_⟩
  rw [u64Sub_of_le (by omega) (by omega),
    u64Sub_of_le (by omega) (by omega)]
  unfold Place.pages Place.page u64 u64Sub
  unfold pageSize at *
  refine ⟨by omega, by omega, by omega, by omega, by omega, ?_⟩
  intro index inside low high
  omega

theorem xpmemUnpinPages_eq (s : State K) (seg : SegPtr) (att : AttPtr)
    {start count : Nat} (small : count * pageSize < 2 ^ 63) :
    xpmemUnpinPages s seg (s.att att).mm (start * pageSize)
        (count * pageSize) =
      (s.walk att start count).map (putPages s seg) := by
  have masked : pageMask (start * pageSize) = start * pageSize :=
    pageMask_of_aligned (Nat.mul_mod_left _ _)
  have number : numOfPages (start * pageSize) (count * pageSize) =
      count := by
    unfold numOfPages offsetInPage u64 at *
    unfold pageSize at *
    omega
  rw [xpmemUnpinPages, masked, number, State.walk]

theorem WellFormed.vmaOf (formed : WellFormed s held) {att : AttPtr}
    {area : Vma} (member : area ∈ s.vmas (s.att att).mm)
    (carries : area.payload.privateData = some att) :
    (s.att att).atVma.bind (s.mm (s.att att).mm).vmaOf = some area := by
  obtain ⟨_, _, occupies⟩ :=
    formed.laid.placed.attached _ area member att carries
  have vma : (s.att att).atVma = some area.payload.vma := occupies.vma
  rw [vma, Option.bind_some, Mm.vmaOf]
  obtain ⟨other, found⟩ : ∃ other,
      ((s.mm (s.att att).mm).vmas.ranges.find? fun other =>
        other.payload.vma = area.payload.vma) = some other := by
    rw [← Option.isSome_iff_exists, List.find?_isSome]
    exact ⟨area, member, by simp⟩
  have same := List.find?_some found
  simp only [decide_eq_true_eq] at same
  have equal := formed.laid.placed.identity _ area member other
    (List.mem_of_find?_eq_some found) (by rw [carries]; simp) same
  rw [found, equal]

theorem WellFormed.vmaAt (formed : WellFormed s held) {att : AttPtr}
    (present : s.Bound held att) :
    ∃ area ∈ s.vmas (s.att att).mm,
      Occupies (s.place att) att area ∧
      area.Contains (s.att att).atVaddr := by
  obtain ⟨area, member, occupies⟩ := formed.laid.placed.area att present
  refine ⟨area, member, occupies, ?_⟩
  have nonempty := RangeList.start_lt_stop member
  rw [Range.Contains]
  rw [occupies.start] at nonempty ⊢
  exact ⟨le_refl _, nonempty⟩

/-- The area of an attachment is found and spans what its record says. -/
structure Seated (s : State K) (att : AttPtr) (area : Vma) : Prop where
  linked : (s.att att).atVma.bind (s.mm (s.att att).mm).vmaOf = some area
  found : (s.mm (s.att att).mm).findVma (s.att att).atVaddr = some area
  start : area.start = (s.place att).start
  stop : area.stop = (s.place att).start + (s.place att).size
  pfnmap : area.payload.pfnmap = true

theorem Clears.seated (clears : Clears s t) {att : AttPtr} {area : Vma}
    (seated : Seated s att area) : Seated t att area := by
  have place := congrFun clears.place att
  have vmas : (t.mm (s.att att).mm).vmas = (s.mm (s.att att).mm).vmas :=
    congrFun clears.vmas (s.att att).mm
  have vma : (t.att att).atVma = (s.att att).atVma :=
    congrArg Place.vma place
  have start : (t.att att).atVaddr = (s.att att).atVaddr :=
    congrArg Place.start place
  obtain ⟨linked, found, low, high, pfnmap⟩ := seated
  constructor
  · unfold Mm.vmaOf at linked ⊢
    rw [vma, clears.att_mm, vmas]
    exact linked
  · unfold Mm.findVma at found ⊢
    rw [start, clears.att_mm, vmas]
    exact found
  · rw [clears.place]
    exact low
  · rw [clears.place]
    exact high
  · exact pfnmap

theorem WellFormed.seated (formed : WellFormed s held) {att : AttPtr}
    (present : s.Bound held att) : ∃ area, Seated s att area := by
  obtain ⟨area, member, occupies, contains⟩ := formed.vmaAt present
  refine ⟨area, ?_, ?_, occupies.start, occupies.stop, occupies.pfnmap⟩
  · exact formed.vmaOf member occupies.privateData
  · exact RangeList.find_eq_some_of_contains member contains

theorem Seated.zapPTEsOfAtt_eq {att : AttPtr} {area : Vma}
    (seated : Seated s att area) (bounds : Bounds K (s.place att))
    {start count : Nat} (low : (s.place att).page ≤ start)
    (high : start + count ≤ (s.place att).page + (s.place att).pages)
    (fromMmu : Bool) :
    zapPTEsOfAtt s att (start * pageSize) (count * pageSize) fromMmu =
      some (s.setTable (s.att att).mm
        ((s.mm (s.att att).mm).table.clear start (start + count))) := by
  obtain ⟨startAligned, sizeAligned, _, _, _, _⟩ := bounds
  have zapped :
      (s.mm (s.att att).mm).zapVmaPtes area (start * pageSize)
          (count * pageSize) =
        { s.mm (s.att att).mm with
          table := (s.mm (s.att att).mm).table.clear start
            (start + count) } := by
    have inside : ¬ (start * pageSize < area.start ∨
        area.stop < start * pageSize + count * pageSize ∨
        area.payload.pfnmap = false) := by
      rw [seated.start, seated.stop, seated.pfnmap]
      simp only [Place.page, Place.pages] at low high
      unfold pageSize at *
      simp only [reduceCtorEq, or_false]
      omega
    rw [Mm.zapVmaPtes, if_neg inside]
    simp only [← Nat.add_mul, Nat.mul_div_cancel _
      (show 0 < pageSize by decide)]
  have table :
      (s.modMm (s.att att).mm fun mm =>
        mm.zapVmaPtes area (start * pageSize) (count * pageSize)) =
      s.setTable (s.att att).mm
        ((s.mm (s.att att).mm).table.clear start (start + count)) := by
    simp only [State.modMm, State.setTable, zapped]
  unfold zapPTEsOfAtt
  cases fromMmu with
  | true =>
      simp only [if_true, seated.linked]
      rw [table]
  | false =>
      simp only [Bool.false_eq_true, if_false, seated.found,
        Option.map_some]
      rw [table]

theorem Clears.setTable (s : State K) (mm : MmPtr) {table : PageTable K}
    (thins : (s.mm mm).table.Thins table) :
    Clears s (s.setTable mm table) where
  objects := s.objects_modMm mm rfl
  vmas := s.vmas_setTable mm _
  place := rfl
  tables other := by
    by_cases here : other = mm
    · subst here
      simpa [State.setTable, State.modMm] using thins
    · simp [State.setTable, State.modMm, here, PageTable.Thins.refl]
  valid _ := id

theorem Clears.clearTable (s : State K) (mm : MmPtr) (start stop : Nat) :
    Clears s (s.setTable mm ((s.mm mm).table.clear start stop)) :=
  .setTable s mm (.clear _ start stop)

theorem Clears.setValid (s : State K) (att : AttPtr) :
    Clears s (s.setValid att false) where
  objects := s.objects_modAtt att rfl
  vmas := rfl
  place := s.place_setValid att false
  tables _ := .refl _
  valid other flagged := by
    rw [s.valid_setValid] at flagged
    split at flagged
    · cases flagged
    · exact flagged

/-- Actions lead to a state in which leaves were cleared since `s`. -/
structure Sweeps (tidy : Prop) (origin : State K) (first : Held)
    (s : State K) (held : Held) (t : State K) : Prop where
  reaches : Reaches tidy origin first t held
  clears : Clears s t

theorem Sweeps.trans (earlier : Sweeps tidy origin first s held t)
    (later : Sweeps tidy origin first t held u) :
    Sweeps tidy origin first s held u :=
  ⟨later.reaches, earlier.clears.trans later.clears⟩

theorem Sweeps.setValid (sweeps : Sweeps tidy origin first s held t)
    {att : AttPtr}
    (unmapped : t.Bound held att → (t.place att).Unmapped t.pte) :
    Sweeps tidy origin first s held (t.setValid att false) where
  reaches := .act sweeps.reaches
    (.setValid att false fun _ => unmapped)
  clears := sweeps.clears.trans (.setValid t att)

/-- The attachments whose leaves a walk over source addresses clears. -/
def Visible (s : State K) (held : Held) (att : AttPtr) (fromMmu : Bool) :
    Prop :=
  s.Bound held att ∧ s.Straight (s.segOf att) ∧
    (fromMmu = true → (s.att att).destroying = false)

/-- Clear some pages of an attachment that has an area. -/
theorem Reaches.clearBound (reaches : Reaches tidy origin first s held)
    {att : AttPtr} (present : s.Bound held att) {skip count : Nat}
    (inside : skip + count ≤ (s.place att).pages) (fromMmu : Bool) :
    Always
      ((xpmemUnpinPages s (s.segOf att) (s.att att).mm
        (((s.place att).page + skip) * pageSize)
        (count * pageSize)).bind fun unpinned =>
          zapPTEsOfAtt unpinned att
            (((s.place att).page + skip) * pageSize) (count * pageSize)
            fromMmu)
      fun t => Sweeps tidy origin first s held t ∧
        ∀ index, skip ≤ index → index < skip + count →
          t.leaf att index = none := by
  have limit := K.taskSize_le
  obtain ⟨_, _, _, below, _, _⟩ := reaches.formed.bounds present
  have small : count * pageSize < 2 ^ 63 := by
    unfold Place.pages at inside
    unfold pageSize at *
    omega
  rw [xpmemUnpinPages_eq s _ att small]
  refine .bind (.map fun put walked => ?_)
  beta_reduce
  have shape := shape_putPages s (s.segOf att) put
  have unpinned := reaches.formed.putPages (s.segOf att) put
  have place : (putPages s (s.segOf att) put).place = s.place :=
    congrArg (fun u => u.place) shape
  have bound : (putPages s (s.segOf att) put).Bound held att := by
    rw [State.Bound, State.graph_eq_of_shape shape]
    exact present
  obtain ⟨area, seated⟩ := unpinned.seated bound
  rw [seated.zapPTEsOfAtt_eq (unpinned.bounds bound)
    (by rw [place]; exact Nat.le_add_right _ _)
    (by rw [place]; omega) fromMmu, putPages_att, putPages_mm]
  refine .some ⟨⟨.act reaches (.clear present (Nat.le_add_right _ _)
    (by omega) walked), ?_⟩, ?_⟩
  · have cleared := Clears.clearTable (putPages s (s.segOf att) put)
      (s.att att).mm ((s.place att).page + skip)
      ((s.place att).page + skip + count)
    rw [putPages_mm] at cleared
    exact (Clears.of_shape shape).trans cleared
  · intro index low high
    rw [State.leaf, State.pte_setTable]
    have page :
        (((putPages s (s.segOf att) put).setTable (s.att att).mm
          ((s.mm (s.att att).mm).table.clear ((s.place att).page + skip)
            ((s.place att).page + skip + count))).place att) =
          s.place att :=
      congrFun place att
    have mm :
        (((putPages s (s.segOf att) put).setTable (s.att att).mm
          ((s.mm (s.att att).mm).table.clear ((s.place att).page + skip)
            ((s.place att).page + skip + count))).att att).mm =
          (s.att att).mm :=
      congrArg Place.mm page
    rw [page, mm, Function.update_self, PageTable.clear_pte, if_pos]
    omega

theorem sourcePage_mul {att : AttPtr} (bounds : Bounds K (s.place att))
    (index : Nat) :
    s.sourcePage att index * pageSize =
      (s.place att).source + index * pageSize := by
  have aligned : (s.att att).vaddr % pageSize = 0 := bounds.source
  change _ = (s.att att).vaddr + index * pageSize
  unfold State.sourcePage
  unfold pageSize at *
  omega

/-- No page of the place shows an address of a range outside it. -/
theorem unwatched_of_outside {place : Place} (bounds : Bounds K place)
    (straight : place.source + place.size < 2 ^ 64)
    {index start stop : Nat} (inside : index < place.pages)
    (low : start ≤ place.source + index * pageSize)
    (high : place.source + index * pageSize < stop)
    (outside : u64 (place.source + place.size) ≤ max start place.source ∨
      min stop (u64 (place.source + place.size)) ≤ place.source) :
    False := by
  have aligned := bounds.size
  rw [u64_of_lt straight] at outside
  unfold Place.pages at inside
  unfold pageSize at *
  omega

/-- An attachment without an area is put what its table says. -/
theorem Reaches.clearBare (reaches : Reaches tidy origin first s held)
    (untidy : ¬ tidy) {att : AttPtr} (bare : .bare att ∈ held)
    (lost : (s.att att).atVma.bind (s.mm (s.att att).mm).vmaOf = none)
    (seg : SegPtr) (mm : MmPtr) (addr size : Nat) :
    Always
      ((xpmemUnpinPages s seg mm addr size).bind fun unpinned =>
        zapPTEsOfAtt unpinned att addr size true)
      fun t => Sweeps tidy origin first s held t ∧ ¬ t.Bound held att := by
  refine .bind (.map fun put _ => ?_)
  beta_reduce
  rw [zapPTEsOfAtt]
  simp only [if_true, putPages_att, putPages_mm, lost]
  refine .some ⟨⟨.act reaches (.stray seg put untidy),
    .of_shape (shape_putPages s seg put)⟩, ?_⟩
  exact fun present => present.2 bare

theorem Reaches.clearAtt (reaches : Reaches tidy origin first s held)
    {fromMmu : Bool} (ready : Ready tidy s held fromMmu) {att : AttPtr}
    (linked : s.graph.Linked (.att att)) {start stop : Nat}
    (startAligned : start % pageSize = 0)
    (stopAligned : stop % pageSize = 0)
    (sensible : s.Bound held att →
      Sensible start stop (s.att att).vaddr (s.att att).atSize) :
    Always (xpmemClearPTEsOfAtt s att start stop fromMmu)
      fun t => Sweeps tidy origin first s held t ∧
        (Visible s held att fromMmu → t.Wiped att start stop) := by
  have stay : Sweeps tidy origin first s held s := ⟨reaches, .refl s⟩
  have formed := reaches.formed
  unfold xpmemClearPTEsOfAtt
  extract_lets record attVaddrEnd invalidateStart invalidateEnd
    offsetStart offsetEnd unpinAt invalidateLen
  split
  · rename_i skipped
    refine .some ⟨stay, fun visible => ?_⟩
    simp only [Bool.and_eq_true] at skipped
    have live := visible.2.2 skipped.1
    exact Bool.noConfusion (live.symm.trans skipped.2)
  · split
    · rename_i invalid
      refine .some ⟨stay, fun visible index inside _ _ => ?_⟩
      have flag : s.valid att = false := by
        simpa [State.valid, record] using invalid
      exact formed.laid.mapped.flagged att visible.1 flag index inside
    · rename_i valid
      split
      · rename_i outside
        refine .some ⟨stay, fun visible index inside low high => ?_⟩
        obtain ⟨present, straight, _⟩ := visible
        have bounds := formed.bounds present
        rw [sourcePage_mul bounds] at low high
        exact (unwatched_of_outside bounds
          (formed.source_lt present straight) inside low high
          outside).elim
      · rename_i inside
        by_cases present : s.Bound held att
        · obtain ⟨skip, count, within, low, high, addr, length, pages⟩ :=
            clear_range (formed.bounds present) startAligned stopAligned
              (sensible present) inside
          have startOffset : offsetStart = skip * pageSize := low
          have stopOffset : offsetEnd = (skip + count) * pageSize := high
          have unpinned :
              unpinAt = ((s.place att).page + skip) * pageSize := by
            change u64 ((s.place att).start + offsetStart) = _
            rw [startOffset, addr]
          have cleared : invalidateLen = count * pageSize := by
            change u64Sub offsetEnd offsetStart = _
            rw [startOffset, stopOffset, length]
          clear_value offsetStart offsetEnd unpinAt invalidateLen
          subst startOffset unpinned cleared
          refine .bind_map
            ((reaches.clearBound present within fromMmu).mono ?_)
          rintro zapped ⟨sweeps, gone⟩
          have place := congrFun sweeps.clears.place att
          have wiped : zapped.Wiped att start stop := by
            intro index inside low high
            rw [place] at inside
            rw [State.sourcePage, sweeps.clears.att_vaddr,
              ← State.sourcePage,
              sourcePage_mul (formed.bounds present)] at low high
            obtain ⟨above, below⟩ := pages index inside low high
            exact gone index above below
          split
          · rename_i whole
            refine ⟨sweeps.setValid fun _ index inside => ?_, fun _ =>
              (Clears.setValid zapped att).wiped wiped⟩
            rw [place] at inside
            have size : (s.place att).size = count * pageSize := whole.2
            rw [Place.pages, size] at inside
            have zero := whole.1
            unfold pageSize at zero inside
            exact gone index (by omega) (by omega)
          · exact ⟨sweeps, fun _ => wiped⟩
        · have bare : .bare att ∈ held := by
            by_contra absent
            exact present ⟨linked, absent⟩
          obtain ⟨flag, lost, invalid⟩ := ready att bare
          have untidy : ¬ tidy := by
            intro orderly
            have unset : record.validPTEs = false := invalid orderly
            rw [unset] at valid
            exact valid rfl
          subst flag
          refine .bind_map ((reaches.clearBare untidy bare lost _ _ _
            _).mono ?_)
          rintro zapped ⟨sweeps, unbound⟩
          have unseen : ¬ Visible s held att true := fun visible =>
            present visible.1
          split
          · exact ⟨sweeps.setValid fun again => (unbound again).elim,
              fun visible => (unseen visible).elim⟩
          · exact ⟨sweeps, fun visible => (unseen visible).elim⟩

/-! ## The walks -/

theorem State.bound_cons_ref (s : State K) (object : Ref) (held : Held) :
    s.Bound (.ref object ::ₘ held) = s.Bound held := by
  funext att
  simp [State.Bound]

theorem Clears.visible (clears : Clears s t) {att : AttPtr}
    {fromMmu : Bool} (visible : Visible s held att fromMmu) :
    Visible t held att fromMmu := by
  have flag : (t.att att).destroying = (s.att att).destroying :=
    congrArg (fun u => (u.att att).destroying) clears.objects
  obtain ⟨present, straight, live⟩ := visible
  refine ⟨?_, ?_, ?_⟩
  · rw [clears.bound]
    exact present
  · rw [clears.segOf, clears.straight]
    exact straight
  · rw [flag]
    exact live

theorem Visible.cons_ref {att : AttPtr} {fromMmu : Bool}
    (visible : Visible s held att fromMmu) (object : Ref) :
    Visible s (.ref object ::ₘ held) att fromMmu := by
  rw [Visible, s.bound_cons_ref]
  exact visible

/-- Page-aligned bounds that suit every attachment of a segment. -/
structure Suits (s : State K) (held : Held) (start stop : Nat)
    (scope : AttPtr → Prop) : Prop where
  startAligned : start % pageSize = 0
  stopAligned : stop % pageSize = 0
  sensible : ∀ att, scope att → s.Bound held att →
    Sensible start stop (s.place att).source (s.place att).size

theorem Suits.clears {start stop : Nat} {scope : AttPtr → Prop}
    (suits : Suits s held start stop scope) (clears : Clears s t) :
    Suits t held start stop scope where
  startAligned := suits.startAligned
  stopAligned := suits.stopAligned
  sensible att inside present := by
    rw [clears.bound] at present
    rw [clears.place]
    exact suits.sensible att inside present

theorem Suits.cons_ref {start stop : Nat} {scope : AttPtr → Prop}
    (suits : Suits s held start stop scope) (object : Ref) :
    Suits s (.ref object ::ₘ held) start stop scope where
  startAligned := suits.startAligned
  stopAligned := suits.stopAligned
  sensible att inside present := by
    rw [s.bound_cons_ref] at present
    exact suits.sensible att inside present

/-- A walk has cleared the leaves of all visible attachments in scope. -/
structure Walked (tidy : Prop) (origin : State K) (first : Held)
    (s : State K) (held : Held) (scope : AttPtr → Prop)
    (start stop : Nat) (fromMmu : Bool) (t : State K) : Prop where
  sweeps : Sweeps tidy origin first s held t
  wiped : ∀ att, scope att → Visible s held att fromMmu →
    t.Wiped att start stop

section Walks

variable {start stop : Nat} {fromMmu : Bool} {scope : AttPtr → Prop}

theorem Walked.stay (reaches : Reaches tidy origin first s held)
    (wiped : ∀ att, scope att → Visible s held att fromMmu →
      s.Wiped att start stop) :
    Walked tidy origin first s held scope start stop fromMmu s :=
  ⟨⟨reaches, .refl s⟩, wiped⟩

/-- A walk that holds a reference meanwhile. -/
theorem Walked.inner (object : Ref)
    (walked : Walked tidy origin first (s.ref object)
      (.ref object ::ₘ held) scope start stop fromMmu t) :
    Walked tidy origin first s held scope start stop fromMmu
      (t.deref object) where
  sweeps :=
    { reaches := .act walked.sweeps.reaches (.deref object)
      clears := ((Clears.of_shape (s.shape_ref object)).trans
        walked.sweeps.clears).trans (.of_shape (t.shape_deref object)) }
  wiped att inside visible := by
    refine (Clears.of_shape (t.shape_deref object)).wiped ?_
    exact walked.wiped att inside
      (((Clears.of_shape (s.shape_ref object)).visible visible).cons_ref
        object)

/-- What holds before a reference is taken holds after. -/
theorem Reaches.enter (reaches : Reaches tidy origin first s held)
    (ready : Ready tidy s held fromMmu)
    (suits : Suits s held start stop scope) {object : Ref}
    (live : s.allocated object = true) :
    Reaches tidy origin first (s.ref object) (.ref object ::ₘ held) ∧
      Ready tidy (s.ref object) (.ref object ::ₘ held) fromMmu ∧
      Suits (s.ref object) (.ref object ::ₘ held) start stop scope := by
  have clears := Clears.of_shape (s.shape_ref object)
  exact ⟨.act reaches (.ref object live),
    (ready.clears clears).cons_ref object,
    (suits.clears clears).cons_ref object⟩

theorem Reaches.clearVisitAtt (reaches : Reaches tidy origin first s held)
    (ready : Ready tidy s held fromMmu) {att : AttPtr}
    (linked : s.graph.Linked (.att att))
    (suits : Suits s held start stop (· = att)) :
    Always (clearVisitAtt start stop fromMmu s att)
      (Walked tidy origin first s held (· = att) start stop fromMmu) := by
  unfold Driver.clearVisitAtt
  split
  · obtain ⟨entered, readied, suited⟩ := reaches.enter ready suits
      (reaches.formed.counted.live_of_owed (s.graph.owed_pos linked))
    have graph := State.graph_eq_of_shape (s.shape_ref (.att att))
    refine .map ((entered.clearAtt readied (by rw [graph]; exact linked)
      suits.startAligned suits.stopAligned (suited.sensible att rfl)).mono ?_)
    rintro cleared ⟨sweeps, wiped⟩
    refine Walked.inner (.att att) ⟨sweeps, ?_⟩
    rintro other rfl
    exact wiped
  · rename_i invalid
    refine .some (Walked.stay reaches ?_)
    rintro other rfl visible index inside _ _
    have flag : s.valid other = false := by
      simpa [State.valid] using invalid
    exact reaches.formed.laid.mapped.flagged other visible.1 flag index
      inside

theorem Walked.mono {wider : AttPtr → Prop}
    (walked : Walked tidy origin first s held wider start stop fromMmu t)
    (weaker : ∀ att, scope att → s.Bound held att → wider att) :
    Walked tidy origin first s held scope start stop fromMmu t where
  sweeps := walked.sweeps
  wiped att inside visible :=
    walked.wiped att (weaker att inside visible.1) visible

theorem Suits.mono {wider : AttPtr → Prop}
    (suits : Suits s held start stop wider)
    (weaker : ∀ att, scope att → wider att) :
    Suits s held start stop scope where
  startAligned := suits.startAligned
  stopAligned := suits.stopAligned
  sensible att inside := suits.sensible att (weaker att inside)

/-- A walk of walks clears what any of them clears. -/
theorem Reaches.walkAll (reaches : Reaches tidy origin first s held)
    {β : Type} {list : List β} {visit : State K → β → Option (State K)}
    (scopes : β → AttPtr → Prop)
    (visited : ∀ pre, ∀ element ∈ list,
      Sweeps tidy origin first s held pre →
      Always (visit pre element)
        (Walked tidy origin first pre held (scopes element) start stop
          fromMmu)) :
    Always (list.foldlM visit s)
      (Walked tidy origin first s held
        (fun att => ∃ element ∈ list, scopes element att) start stop
        fromMmu) := by
  have folded : Always (list.foldlM visit s) fun final =>
      Sweeps tidy origin first s held final ∧
        (∀ element ∈ list, ∀ att, scopes element att →
          Visible s held att fromMmu → final.Wiped att start stop) ∧ _ :=
    .foldlM_each ⟨reaches, .refl s⟩ fun pre element member sweeps =>
      (visited pre element member sweeps).mono fun next walked =>
        ⟨sweeps.trans walked.sweeps,
          fun att inside visible => walked.wiped att inside
            (sweeps.clears.visible visible),
          fun other earlier att inside visible =>
            walked.sweeps.clears.wiped (earlier att inside visible)⟩
  refine folded.mono ?_
  rintro final ⟨sweeps, wiped, _⟩
  exact ⟨sweeps, fun att ⟨element, member, inside⟩ =>
    wiped element member att inside⟩

theorem Reaches.clearOfAp (reaches : Reaches tidy origin first s held)
    (ready : Ready tidy s held fromMmu) {permit : ApPtr}
    (suits : Suits s held start stop fun att => (s.att att).ap = permit) :
    Always (xpmemClearPTEsOfAp s permit start stop fromMmu)
      (Walked tidy origin first s held
        (fun att => (s.att att).ap = permit) start stop fromMmu) := by
  refine (reaches.walkAll (fun att other => other = att)
    fun pre att member sweeps => ?_).mono fun final walked =>
      walked.mono ?_
  · have owned := reaches.formed.graph.atts.owned permit att member
    refine sweeps.reaches.clearVisitAtt (ready.clears sweeps.clears) ?_ ?_
    · rw [sweeps.clears.graph]
      exact reaches.formed.graph.atts.mem_owner member
    · refine (suits.mono ?_).clears sweeps.clears
      rintro other rfl
      exact owned
  · rintro att rfl present
    exact ⟨att, present.1, rfl⟩

theorem Reaches.clearRange (reaches : Reaches tidy origin first s held)
    (ready : Ready tidy s held fromMmu) {seg : SegPtr}
    (suits : Suits s held start stop fun att => s.segOf att = seg) :
    Always (xpmemClearPTEsRange s seg start stop fromMmu)
      (Walked tidy origin first s held
        (fun att => s.segOf att = seg) start stop fromMmu) := by
  refine (reaches.walkAll (fun permit att => (s.att att).ap = permit)
    fun pre permit member sweeps => ?_).mono fun final walked =>
      walked.mono ?_
  · have owned := reaches.formed.graph.permits.owned seg permit member
    have linked : pre.graph.Linked (.ap permit) := by
      rw [sweeps.clears.graph]
      exact reaches.formed.graph.permits.mem_owner member
    have scope (att : AttPtr) : (pre.att att).ap = (s.att att).ap :=
      congrArg (fun u => (u.att att).ap) sweeps.clears.objects
    have suited : Suits pre held start stop
        fun att => (pre.att att).ap = permit := by
      refine (suits.clears sweeps.clears).mono ?_
      intro att inside
      rw [scope] at inside
      rw [State.segOf, inside]
      exact owned
    obtain ⟨entered, readied, ranged⟩ := sweeps.reaches.enter
      (ready.clears sweeps.clears) suited
      (sweeps.reaches.formed.counted.live_of_owed
        (pre.graph.owed_pos linked))
    refine .map ((entered.clearOfAp readied ranged).mono ?_)
    intro final walked
    refine (Walked.inner (.ap permit) walked).mono ?_
    intro att inside _
    exact (scope att).trans inside
  · rintro att rfl present
    exact ⟨(s.att att).ap, (reaches.formed.graph.linked_ap present.1).1,
      rfl⟩

end Walks

/-! ## Whole segments -/

/-- The bounds of a segment suit all its attachments, wrapped or not. -/
theorem WellFormed.suits_seg (formed : WellFormed s held) {seg : SegPtr}
    (used : s.graph.Used (.seg seg)) :
    Suits s held (s.seg seg).vaddr
      (u64 ((s.seg seg).vaddr + (s.seg seg).size))
      fun att => s.segOf att = seg := by
  obtain ⟨startAligned, sizeAligned, _, sizeSmall, _⟩ :=
    formed.laid.ranges seg used
  refine ⟨startAligned, ?_, ?_⟩
  · unfold u64
    unfold pageSize at *
    omega
  · rintro att rfl present
    obtain ⟨offset, _, source, inside⟩ := formed.laid.window att present
    change Sensible _ _ (s.att att).vaddr (s.att att).atSize
    rw [source]
    unfold Sensible u64
    omega

theorem Reaches.clearPTEs (reaches : Reaches tidy origin first s held)
    (ready : Ready tidy s held false) {seg : SegPtr}
    (used : s.graph.Used (.seg seg)) :
    Always (xpmemClearPTEs s seg) fun t =>
      Sweeps tidy origin first s held t ∧
        (s.Straight seg → ∀ att, s.Bound held att → s.segOf att = seg →
          (t.place att).Unmapped t.pte) := by
  have formed := reaches.formed
  refine (reaches.clearRange ready (formed.suits_seg used)).mono ?_
  intro final walked
  refine ⟨walked.sweeps, fun straight att present shown => ?_⟩
  subst shown
  have visible : Visible s held att false :=
    ⟨present, straight, fun impossible => Bool.noConfusion impossible⟩
  have window := formed.window_of_straight present straight
  have bounds := formed.bounds present
  have aligned := bounds.size
  have limit := K.taskSize_le
  have below : (s.seg (s.segOf att)).vaddr + (s.seg (s.segOf att)).size ≤
    K.taskSize := straight
  intro index inside
  have source : final.sourcePage att index * pageSize =
      (s.place att).source + index * pageSize := by
    rw [State.sourcePage, walked.sweeps.clears.att_vaddr,
      ← State.sourcePage, sourcePage_mul bounds]
  refine walked.wiped att rfl visible index inside ?_ ?_
  · rw [source]
    exact le_trans window.1 (Nat.le_add_right _ _)
  · rw [source, u64_of_lt (by omega)]
    rw [walked.sweeps.clears.place, Place.pages] at inside
    unfold pageSize at *
    omega

/-- Marking a segment as recalled shows nowhere. -/
theorem Sweeps.recalling (reaches : Reaches tidy origin first s held)
    (seg : SegPtr) (value : Bool) :
    Sweeps tidy origin first s held
      (s.modSeg seg fun seg => { seg with recallingPFNs := value }) where
  reaches := .act reaches (.minor (s.main_modSeg seg rfl))
  clears := .of_shape (s.shape_modSeg seg rfl)

theorem Reaches.recallPFNs (reaches : Reaches tidy origin first s held)
    (ready : Ready tidy s held false) {seg : SegPtr}
    (used : s.graph.Used (.seg seg)) :
    Always (xpmemRecallPFNs s seg)
      (Sweeps tidy origin first s held) := by
  unfold xpmemRecallPFNs
  split
  · split
    · exact .some ⟨reaches, .refl s⟩
    · exact .none
  · have marked := Sweeps.recalling reaches seg true
    refine .map ((marked.reaches.clearPTEs (ready.clears marked.clears)
      (by rw [marked.clears.graph]; exact used)).mono ?_)
    rintro cleared ⟨sweeps, _⟩
    exact (marked.trans sweeps).trans
      (.recalling sweeps.reaches seg false)

theorem Reaches.recallPFNsOfTg (reaches : Reaches tidy origin first s held)
    (ready : Ready tidy s held false) (segTg : TgPtr) :
    Always (xpmemRecallPFNsOfTg s segTg)
      (Sweeps tidy origin first s held) := by
  refine .foldlM ⟨reaches, .refl s⟩ fun pre seg member sweeps => ?_
  have linked : pre.graph.Linked (.seg seg) := by
    rw [sweeps.clears.graph]
    exact reaches.formed.graph.segs.mem_owner member
  unfold recallVisitSeg
  split
  · exact .some sweeps
  · have shape := shape_xpmemSegRef pre seg
    have entered := sweeps.reaches.segRef linked
    refine .map ((entered.recallPFNs
      (((ready.clears sweeps.clears).clears (.of_shape shape)).cons_ref
        (.seg seg)) ?_).mono ?_)
    · rw [State.graph_eq_of_shape shape]
      exact sweeps.reaches.formed.graph.used _ linked
    · intro recalled inner
      refine sweeps.trans ⟨inner.reaches.segDeref, ?_⟩
      exact ((Clears.of_shape shape).trans inner.clears).trans
        (.of_shape (shape_xpmemSegDeref recalled seg))

end Xpmem.Driver
