import Xpmem.Runs.Attachments

/-!
# Attachments show their source

A page that is mapped in an attachment is the page its source maps at the
same place, in an ordinary area.  Changes of the source break this until the
callback for them has run, which the `stale` tokens of the operation record;
every action keeps it up to these tokens.
-/

namespace Xpmem.Driver

open Xpmem.Foundation Xpmem.Kernel Xpmem.Objects

variable {K : Platform} {tidy : Prop} {s t : State K} {held more : Held}
    {att : AttPtr}

/-! ## Attachments that stay -/

/-- The attachments in place are those that an area carries. -/
theorem WellFormed.bound_iff (formed : WellFormed s held) :
    s.Bound held att ↔
      ∃ mm, ∃ area ∈ s.vmas mm, area.payload.privateData = some att := by
  constructor
  · intro present
    obtain ⟨area, member, occupies⟩ := formed.laid.placed.area att present
    exact ⟨_, area, member, occupies.privateData⟩
  · rintro ⟨mm, area, member, carries⟩
    exact (formed.laid.placed.attached mm area member att carries).1

/-- An attachment is where it was, and its source is the same. -/
structure SameSource (s t : State K) (att : AttPtr) : Prop where
  place : t.place att = s.place att
  segOf : t.segOf att = s.segOf att
  sourceMm : t.sourceMm att = s.sourceMm att
  straight : t.Straight (t.segOf att) ↔ s.Straight (s.segOf att)

namespace SameSource

theorem of_place (formed : WellFormed s held) (ages : Ages s t)
    (linked : s.graph.Linked (.att att))
    (place : t.place att = s.place att) : SameSource s t att := by
  have sound := formed.graph
  have granted := (sound.linked_ap linked).1
  have segUsed : s.segOf att < s.nextSeg := sound.used_seg granted
  have segOf : t.segOf att = s.segOf att := by
    rw [State.segOf, ages.att_ap (sound.used _ linked)]
    exact ages.ap_seg (sound.used _ granted)
  have tgUsed : (s.seg (s.segOf att)).tg < s.nextTg :=
    formed.counted.used _ (formed.counted.live_of_owed
      (Graph.owed_pos_of_permit sound granted).2)
  refine ⟨place, segOf, ?_, ?_⟩
  · rw [State.sourceMm, segOf, ages.seg_tg segUsed, ages.tg_mm tgUsed]
    rfl
  · rw [segOf, State.Straight, ages.seg_vaddr segUsed,
      ages.seg_size segUsed]
    rfl

theorem mm (same : SameSource s t att) : (t.att att).mm = (s.att att).mm :=
  congrArg Place.mm same.place

theorem sourcePage (same : SameSource s t att) (index : Nat) :
    t.sourcePage att index = s.sourcePage att index := by
  have source : (t.att att).vaddr = (s.att att).vaddr :=
    congrArg Place.source same.place
  rw [State.sourcePage, source]
  rfl

end SameSource

/-- An attachment whose area was there before was in place before. -/
theorem WellFormed.bound_before (formed : WellFormed s held)
    (after : WellFormed t more) (ages : Ages s t)
    (present : t.Bound more att)
    (carried : ∀ area ∈ t.vmas (t.att att).mm,
      area.payload.privateData = some att →
        area ∈ s.vmas (t.att att).mm) :
    s.Bound held att ∧ SameSource s t att := by
  obtain ⟨area, member, occupies⟩ := after.laid.placed.area att present
  have old := carried area member occupies.privateData
  obtain ⟨before, home, was⟩ := formed.laid.placed.attached _ area old att
    occupies.privateData
  refine ⟨before, .of_place formed ages before.1 ?_⟩
  have used : att < s.nextAtt := formed.graph.used (.att att) before.1
  have size : (t.place att).size = (s.place att).size := by
    have stop := occupies.stop.symm.trans was.stop
    rw [← occupies.start, ← was.start] at stop
    exact Nat.add_left_cancel stop
  have start := occupies.start.symm.trans was.start
  have vma := occupies.vma.trans was.vma.symm
  have source : (t.place att).source = (s.place att).source :=
    ages.att_vaddr used
  have space : (t.place att).mm = (s.place att).mm := home.symm
  cases place : t.place att
  cases before : s.place att
  simp_all

/-! ## Coherence -/

/-- A change of the page waits for its callback. -/
def Stale (held : Held) (mm : MmPtr) (page : Nat) : Prop :=
  ∃ start stop, .stale mm start stop ∈ held ∧
    start ≤ page * pageSize ∧ page * pageSize < stop

/-- Every mapped page of an attachment shows its source, or is stale. -/
def Coherent (s : State K) (held : Held) : Prop :=
  ∀ att, s.Bound held att → s.Straight (s.segOf att) →
    ∀ index < (s.place att).pages, ∀ frame, s.leaf att index = some frame →
      s.Shows att index frame ∨
        Stale held (s.sourceMm att) (s.sourcePage att index)

/-- The page of an attachment lies in no ordinary area. -/
theorem WellFormed.not_ordinary (formed : WellFormed s held)
    (present : s.Bound held att) {index : Nat}
    (inside : index < (s.place att).pages) :
    ¬ s.Ordinary (s.att att).mm ((s.place att).page + index) := by
  rintro ⟨area, member, plain, contains⟩
  have carries := formed.laid.placed.carries present inside member contains
  have ops :=
    (formed.laid.placed.attached _ area member att carries).2.2.ops
  rw [plain] at ops
  cases ops

/--
Coherence passes on when attachments stay in place or are new and empty,
every mapped page of an attachment was mapped or shows its source, and every
source stays or becomes stale.
-/
theorem Coherent.transfer (coherent : Coherent s held)
    (kept : ∀ att, t.Bound more att →
      s.Bound held att ∧ SameSource s t att ∨
        (t.place att).Unmapped t.pte)
    (leaves : ∀ att, s.Bound held att → s.Straight (s.segOf att) →
      ∀ index < (s.place att).pages, ∀ frame,
        t.pte (s.att att).mm ((s.place att).page + index) = some frame →
          s.leaf att index = some frame ∨ s.Shows att index frame)
    (sources : ∀ mm page frame, s.pte mm page = some frame →
      s.Ordinary mm page →
        t.pte mm page = some frame ∧ t.Ordinary mm page ∨
          Stale more mm page)
    (stale : ∀ mm start stop, .stale mm start stop ∈ held →
      .stale mm start stop ∈ more) : Coherent t more := by
  intro att present straight index inside frame leaf
  rcases kept att present with ⟨before, same⟩ | empty
  · rw [same.straight] at straight
    rw [same.place] at inside
    rw [State.leaf, same.mm, same.place] at leaf
    rw [same.sourceMm, same.sourcePage]
    have shown : s.Shows att index frame ∨
        Stale held (s.sourceMm att) (s.sourcePage att index) := by
      rcases leaves att before straight index inside frame leaf with
        was | shows
      · exact coherent att before straight index inside frame was
      · exact Or.inl shows
    rcases shown with shows | ⟨start, stop, token, low, high⟩
    · refine (sources _ _ frame shows.1 shows.2).imp_left fun kept => ?_
      rw [State.Shows, same.sourceMm, same.sourcePage]
      exact kept
    · exact Or.inr ⟨start, stop, stale _ _ _ token, low, high⟩
  · rw [State.leaf] at leaf
    have absent := empty index inside
    change t.pte (t.att att).mm ((t.place att).page + index) = none at absent
    rw [absent] at leaf
    cases leaf

/-- Nothing happens to areas and leaves. -/
theorem Coherent.still (coherent : Coherent s held)
    (formed : WellFormed s held) (after : WellFormed t more)
    (ages : Ages s t) (vmas : t.vmas = s.vmas) (pte : t.pte = s.pte)
    (stale : ∀ mm start stop, .stale mm start stop ∈ held →
      .stale mm start stop ∈ more) : Coherent t more := by
  refine coherent.transfer ?_ ?_ ?_ stale
  · intro att present
    left
    refine formed.bound_before after ages present ?_
    rw [vmas]
    exact fun _ member _ => member
  · intro att _ _ index _ frame leaf
    rw [pte] at leaf
    exact Or.inl leaf
  · intro mm page frame leaf ordinary
    rw [State.Ordinary, vmas, pte]
    exact Or.inl ⟨leaf, ordinary⟩

theorem Coherent.putPages (coherent : Coherent s held)
    (formed : WellFormed s held) (seg : SegPtr)
    (put : List (Nat × Frame)) :
    Coherent (putPages s seg put) held := by
  have same := shape_putPages s seg put
  exact coherent.still formed (formed.putPages seg put)
    (.putPages s seg put) (congrArg (fun u => u.vmas) same)
    (congrArg (fun u => u.pte) same) fun _ _ _ => id

/-! ## Leaves that change -/

/-- Leaves change while objects, areas and places stay. -/
theorem Coherent.retable (coherent : Coherent s held)
    (same : SamePlaces s t)
    (bare : ∀ att, .bare att ∈ held → .bare att ∈ more)
    (leaves : ∀ att, s.Bound held att → s.Straight (s.segOf att) →
      ∀ index < (s.place att).pages, ∀ frame,
        t.pte (s.att att).mm ((s.place att).page + index) = some frame →
          s.leaf att index = some frame ∨ s.Shows att index frame)
    (sources : ∀ mm page frame, s.pte mm page = some frame →
      s.Ordinary mm page →
        t.pte mm page = some frame ∨ Stale more mm page)
    (stale : ∀ mm start stop, .stale mm start stop ∈ held →
      .stale mm start stop ∈ more) : Coherent t more := by
  refine coherent.transfer ?_ leaves ?_ stale
  · rintro att ⟨linked, free⟩
    rw [State.graph_eq_of_objects same.objects] at linked
    refine Or.inl ⟨⟨linked, fun token => free (bare att token)⟩, ?_⟩
    refine ⟨congrFun same.place att, same.segOf att, same.sourceMm att, ?_⟩
    rw [same.segOf]
    exact same.straight (s.segOf att)
  · intro mm page frame leaf ordinary
    refine (sources mm page frame leaf ordinary).imp_left fun still => ?_
    exact ⟨still, same.ordinary.mpr ordinary⟩

/-- The leaves of one address space change. -/
theorem Coherent.setTable (coherent : Coherent s held) {mm : MmPtr}
    {table : PageTable K}
    (bare : ∀ att, .bare att ∈ held → .bare att ∈ more)
    (leaves : ∀ att, s.Bound held att → (s.att att).mm = mm →
      s.Straight (s.segOf att) → ∀ index < (s.place att).pages, ∀ frame,
        table.pte ((s.place att).page + index) = some frame →
          s.leaf att index = some frame ∨ s.Shows att index frame)
    (sources : ∀ page frame, s.pte mm page = some frame →
      s.Ordinary mm page →
        table.pte page = some frame ∨ Stale more mm page)
    (stale : ∀ mm start stop, .stale mm start stop ∈ held →
      .stale mm start stop ∈ more) :
    Coherent (s.setTable mm table) more := by
  refine coherent.retable (.setTable s mm table) bare ?_ ?_ stale
  · intro att present straight index inside frame leaf
    rw [State.pte_setTable, Function.update_apply] at leaf
    split at leaf
    · rename_i here
      exact leaves att present here straight index inside frame leaf
    · exact Or.inl leaf
  · intro other page frame leaf ordinary
    rw [State.pte_setTable, Function.update_apply]
    split
    · rename_i here
      subst here
      exact sources page frame leaf ordinary
    · exact Or.inl leaf

/-- Leaves that the driver clears are those of an attachment. -/
theorem Coherent.clear (coherent : Coherent s held)
    (formed : WellFormed s held) {first count : Nat}
    (present : s.Bound held att) (low : (s.place att).page ≤ first)
    (high : first + count ≤ (s.place att).page + (s.place att).pages) :
    Coherent
      (s.setTable (s.att att).mm
        ((s.mm (s.att att).mm).table.clear first (first + count)))
      held := by
  refine coherent.setTable (fun _ => id) ?_ ?_ fun _ _ _ => id
  · intro other _ here _ index _ frame leaf
    rw [PageTable.clear_pte] at leaf
    split at leaf
    · cases leaf
    · rw [State.leaf, here]
      exact Or.inl leaf
  · intro page frame leaf ordinary
    rw [PageTable.clear_pte, if_neg]
    · exact Or.inl leaf
    · rintro ⟨below, above⟩
      refine @WellFormed.not_ordinary _ _ _ _ formed present
        (page - (s.place att).page) (by omega) ?_
      rw [Nat.add_sub_cancel' (by omega)]
      exact ordinary

/-- New leaves of an ordinary area were absent before. -/
theorem Coherent.populate (coherent : Coherent s held)
    (formed : WellFormed s held) {mm : MmPtr} {page : Nat} {frame : Frame}
    (ordinary : s.Ordinary mm page) (absent : s.pte mm page = none) :
    Coherent (s.setTable mm ((s.mm mm).table.map page frame)) held := by
  refine coherent.setTable (fun _ => id) ?_ ?_ fun _ _ _ => id
  · intro other present here _ index inside value leaf
    rw [PageTable.map_pte] at leaf
    split at leaf
    · rename_i equal
      refine absurd ordinary ?_
      rw [← here, ← equal]
      exact formed.not_ordinary present inside
    · rw [State.leaf, here]
      exact Or.inl leaf
  · intro place value leaf _
    rw [PageTable.map_pte, if_neg]
    · exact Or.inl leaf
    · rintro rfl
      rw [absent] at leaf
      cases leaf

/-- Two attachments share no page. -/
theorem WellFormed.eq_of_page (formed : WellFormed s held)
    {other : AttPtr} {index place : Nat} (present : s.Bound held att)
    (inside : index < (s.place att).pages) (otherPresent : s.Bound held other)
    (otherInside : place < (s.place other).pages)
    (space : (s.att other).mm = (s.att att).mm)
    (page : (s.place other).page + place = (s.place att).page + index) :
    other = att ∧ place = index := by
  obtain ⟨area, member, occupies, contains⟩ :=
    formed.laid.placed.contains otherPresent otherInside
  change area ∈ s.vmas (s.att other).mm at member
  rw [space] at member
  rw [page] at contains
  have carries := formed.laid.placed.carries present inside member contains
  rw [occupies.privateData] at carries
  cases carries
  exact ⟨rfl, by omega⟩

/-- A leaf that is inserted into an attachment shows its source. -/
theorem Coherent.insert (coherent : Coherent s held)
    (formed : WellFormed s held) {index : Nat} {frame : Frame}
    (present : s.Bound held att) (inside : index < (s.place att).pages)
    (shows : s.Straight (s.segOf att) → s.Shows att index frame)
    (bare : ∀ att, .bare att ∈ held → .bare att ∈ more)
    (stale : ∀ mm start stop, .stale mm start stop ∈ held →
      .stale mm start stop ∈ more) :
    Coherent
      (s.setTable (s.att att).mm
        ((s.mm (s.att att).mm).table.map ((s.place att).page + index)
          frame)) more := by
  refine coherent.setTable bare ?_ ?_ stale
  · intro other otherPresent here straight place otherInside value leaf
    rw [PageTable.map_pte] at leaf
    split at leaf
    · rename_i equal
      cases leaf
      obtain ⟨rfl, rfl⟩ := formed.eq_of_page present inside otherPresent
        otherInside here equal
      exact Or.inr (shows straight)
    · rw [State.leaf, here]
      exact Or.inl leaf
  · intro page value leaf ordinary
    rw [PageTable.map_pte, if_neg]
    · exact Or.inl leaf
    · rintro rfl
      exact formed.not_ordinary present inside ordinary

/-- Frames of an ordinary area change, and wait for their callback. -/
theorem Coherent.assign (coherent : Coherent s held)
    (formed : WellFormed s held) {mm : MmPtr} {start stop : Nat}
    {frames : Nat → Option Frame} {area : Vma} (member : area ∈ s.vmas mm)
    (ordinary : area.payload.xpmemOps = false) (low : area.start ≤ start)
    (high : stop ≤ area.stop) (startAligned : start % pageSize = 0)
    (stopAligned : stop % pageSize = 0) :
    Coherent
      (s.setTable mm ((s.mm mm).table.assign frames (pagesOf start stop)))
      (.stale mm start stop ::ₘ held) := by
  have covers {page : Nat} (listed : page ∈ pagesOf start stop) :=
    start_le_of_mem_pagesOf startAligned stopAligned listed
  refine coherent.setTable (by simp) ?_ ?_
    fun _ _ _ => Multiset.mem_cons_of_mem
  · intro other present here _ index inside value leaf
    rw [PageTable.assign_pte] at leaf
    split at leaf
    · rename_i listed
      have within := covers listed
      refine absurd ⟨area, here ▸ member, ordinary, ?_⟩
        (formed.not_ordinary present inside)
      exact ⟨low.trans within.1, within.2.trans_le high⟩
    · rw [State.leaf, here]
      exact Or.inl leaf
  · intro page value leaf _
    rw [PageTable.assign_pte]
    split
    · rename_i listed
      exact Or.inr
        ⟨start, stop, Multiset.mem_cons_self _ _, covers listed⟩
    · exact Or.inl leaf

/-! ## Areas that change -/

/-- The areas and leaves of one address space change. -/
theorem Coherent.setSpace (coherent : Coherent s held)
    (formed : WellFormed s held) {mm : MmPtr} {vmas : RangeList VmaInfo}
    {table : PageTable K} {later : Nat}
    (bare : ∀ att, .bare att ∈ held → .bare att ∈ more)
    (thinner : ∀ page frame, table.pte page = some frame →
      s.pte mm page = some frame)
    (sources : ∀ page frame, s.pte mm page = some frame →
      ∀ area ∈ s.vmas mm, area.payload.xpmemOps = false →
        area.payload.privateData = none → area.Contains (page * pageSize) →
          table.pte page = some frame ∧
            (∃ piece ∈ vmas, piece.payload.xpmemOps = false ∧
              piece.Contains (page * pageSize)) ∨ Stale more mm page)
    (stale : ∀ mm start stop, .stale mm start stop ∈ held →
      .stale mm start stop ∈ more) :
    Coherent (s.setSpace mm vmas table later) more := by
  have objects := s.objects_setSpace mm vmas table later
  refine coherent.transfer ?_ ?_ ?_ stale
  · rintro att ⟨linked, free⟩
    rw [State.graph_eq_of_objects objects] at linked
    exact Or.inl ⟨⟨linked, fun token => free (bare att token)⟩,
      .of_place formed (.of_same rfl rfl rfl rfl rfl rfl rfl rfl rfl)
        linked rfl⟩
  · intro att _ _ index _ frame leaf
    rw [State.pte_setSpace, Function.update_apply] at leaf
    split at leaf
    · rename_i here
      rw [State.leaf, here]
      exact Or.inl (thinner _ frame leaf)
    · exact Or.inl leaf
  · intro other page frame leaf ordinary
    rw [State.Ordinary, State.vmas_setSpace, State.pte_setSpace,
      Function.update_apply, Function.update_apply]
    split
    · rename_i here
      subst here
      obtain ⟨area, member, plain, contains⟩ := ordinary
      refine sources page frame leaf area member plain ?_ contains
      rw [Option.eq_none_iff_forall_ne_some]
      intro att carries
      have ops :=
        (formed.laid.placed.attached _ area member att carries).2.2.ops
      rw [plain] at ops
      cases ops
    · exact Or.inl ⟨leaf, ordinary⟩

theorem Coherent.addVma (coherent : Coherent s held)
    (formed : WellFormed s held) {mm : MmPtr} {start stop : Nat}
    (proper : start < stop) (xpmemOps : Bool)
    (free : (s.mm mm).vmas.Free start stop) :
    Coherent (addVma s mm start stop proper xpmemOps) held := by
  rw [addVma_eq]
  refine coherent.setSpace formed (fun _ => id) (fun _ _ => id) ?_
    fun _ _ _ => id
  intro page frame leaf area member plain _ contains
  refine Or.inl ⟨leaf, area, ?_, plain, contains⟩
  exact (RangeList.mem_insert_iff free).mpr (Or.inr member)

theorem Coherent.splitVma (coherent : Coherent s held)
    (formed : WellFormed s held) {mm : MmPtr}
    {lower upper : VmaInfo → VmaInfo} {addr : Nat}
    (lowered : Renews s lower) (raised : Renews s upper) :
    Coherent (splitVma s mm lower upper addr) held := by
  change Coherent
    (s.setSpace mm ((s.mm mm).vmas.splitAt lower upper addr)
      (s.mm mm).table (s.nextVma + 1)) held
  refine coherent.setSpace formed (fun _ => id) (fun _ _ => id) ?_
    fun _ _ _ => id
  intro page frame leaf area member plain none contains
  obtain ⟨piece, new, holds, payload⟩ :=
    RangeList.exists_splitAt_contains member contains
  refine Or.inl ⟨leaf, piece, new, ?_, holds⟩
  rcases payload with same | low | high
  · rw [same, plain]
  · rw [low, (lowered _ none).2, plain]
  · rw [high, (raised _ none).2, plain]

/-- What is unmapped waits for its callback. -/
theorem Coherent.unmapRange (coherent : Coherent s held)
    (formed : WellFormed s held) {mm : MmPtr} {start stop : Nat}
    (proper : start < stop) (startAligned : start % pageSize = 0)
    (stopAligned : stop % pageSize = 0) :
    Coherent (unmapRange s mm start stop proper)
      (unmapHeld s mm start stop held) := by
  have kept {token : Token} (member : token ∈ held) :
      token ∈ unmapHeld s mm start stop held :=
    Multiset.mem_add.mpr (Or.inr (Multiset.mem_cons_of_mem member))
  change Coherent
    (s.setSpace mm ((s.mm mm).vmas.carve (copyVma s) start stop proper)
      ((s.mm mm).table.clear (start / pageSize) (stop / pageSize))
      (s.nextVma + 1)) _
  refine coherent.setSpace formed (fun _ => kept) ?_ ?_
    fun _ _ _ => kept
  · intro page frame leaf
    rw [PageTable.clear_pte] at leaf
    split at leaf
    · cases leaf
    · exact leaf
  · intro page frame leaf area member plain none contains
    rw [PageTable.clear_pte]
    split
    · right
      refine ⟨start, stop, Multiset.mem_add.mpr
        (Or.inr (Multiset.mem_cons_self _ _)), ?_, ?_⟩ <;>
        unfold pageSize at * <;> omega
    · have outside : page * pageSize < start ∨ stop ≤ page * pageSize := by
        unfold pageSize at *
        omega
      obtain ⟨piece, new, holds, payload⟩ :=
        RangeList.exists_carve_contains member contains outside
      refine Or.inl ⟨leaf, piece, new, ?_, holds⟩
      rcases payload with same | copied
      · rw [same, plain]
      · rw [copied, (renews_copyVma s _ none).2, plain]

/-- An attachment that gets its area has no leaves yet. -/
theorem Coherent.bind {mm : MmPtr} {area : Vma}
    (coherent : Coherent s (.bare att ::ₘ held))
    (formed : WellFormed s (.bare att ::ₘ held))
    (home : (s.att att).mm = mm)
    (unique : ∀ other ∈ s.vmas mm,
      other.payload.vma = area.payload.vma → other = area)
    (size : area.stop = area.start + (s.att att).atSize)
    (unmapped : (bindPlace s att area).Unmapped s.pte)
    (ages : Ages s (attachBind s mm att area.start area)) :
    Coherent (attachBind s mm att area.start area) held := by
  have pte : (attachBind s mm att area.start area).pte = s.pte :=
    State.pte_updateVma s mm area.payload.vma _
  have vmas : (attachBind s mm att area.start area).vmas =
      Function.update s.vmas mm (Placed.retag (s.vmas mm) area.payload.vma
        fun info => { info with
          privateData := some att, pfnmap := true, xpmemOps := true }) :=
    State.vmas_updateVma s mm area.payload.vma _
  refine coherent.transfer ?_ ?_ ?_ ?_
  · intro other present
    obtain ⟨linked, free⟩ := present
    rw [State.graph_eq_of_objects (s.objects_attachBind mm att _ area)]
      at linked
    by_cases here : other = att
    · subst here
      right
      rw [State.place_attachBind, Function.update_self, pte]
      exact unmapped
    · left
      refine ⟨⟨linked, ?_⟩, .of_place formed ages linked ?_⟩
      · simpa [here] using free
      · rw [State.place_attachBind, Function.update_of_ne here]
  · intro other _ _ index _ frame leaf
    rw [pte] at leaf
    exact Or.inl leaf
  · intro other page frame leaf ordinary
    rw [State.Ordinary, pte, vmas, Function.update_apply]
    refine Or.inl ⟨leaf, ?_⟩
    split
    · rename_i here
      subst here
      obtain ⟨source, sourceMember, plain, contains⟩ := ordinary
      have apart : source.payload.vma ≠ area.payload.vma := by
        intro same
        obtain rfl := unique source sourceMember same
        obtain ⟨startAligned, stopAligned, _⟩ :=
          formed.laid.placed.fits _ source sourceMember
        obtain ⟨low, high⟩ := contains
        have inside : page - source.start / pageSize <
            (s.att att).atSize / pageSize := by
          unfold pageSize at *
          omega
        have absent := unmapped (page - source.start / pageSize) inside
        have index : source.start / pageSize +
            (page - source.start / pageSize) = page := by
          unfold pageSize at *
          omega
        change s.pte (s.att att).mm (source.start / pageSize +
          (page - source.start / pageSize)) = none at absent
        rw [index, home, leaf] at absent
        cases absent
      refine ⟨source, ?_, plain, contains⟩
      rw [Placed.retag, RangeList.mem_mapPayload_iff]
      exact ⟨source, sourceMember, by rw [if_neg apart]⟩
    · exact ordinary
  · simp

/-- An attachment loses its area, which stays one of the driver's. -/
theorem Coherent.untie (coherent : Coherent s held)
    (formed : WellFormed s held) (vma : Nat) :
    Coherent (s.untie att vma) (.bare att ::ₘ held) := by
  have pte : (s.untie att vma).pte = s.pte :=
    State.pte_updateVma s (s.att att).mm vma _
  have vmas : (s.untie att vma).vmas =
      Function.update s.vmas (s.att att).mm
        (Placed.retag (s.vmas (s.att att).mm) vma
          fun info => { info with privateData := none }) :=
    State.vmas_updateVma s (s.att att).mm vma _
  refine coherent.transfer ?_ ?_ ?_ ?_
  · rintro other ⟨linked, free⟩
    refine Or.inl ⟨⟨linked, fun token => free ?_⟩, ?_⟩
    · exact Multiset.mem_cons_of_mem token
    · exact .of_place formed (.of_same rfl rfl rfl rfl rfl rfl rfl rfl rfl)
        linked rfl
  · intro other _ _ index _ frame leaf
    rw [pte] at leaf
    exact Or.inl leaf
  · intro mm page frame leaf ordinary
    rw [State.Ordinary, pte, vmas, Function.update_apply]
    refine Or.inl ⟨leaf, ?_⟩
    split
    · rename_i here
      subst here
      obtain ⟨area, member, plain, contains⟩ := ordinary
      refine ⟨_, RangeList.mem_mapPayload_iff.mpr ⟨area, member, rfl⟩, ?_,
        contains⟩
      dsimp only
      split <;> exact plain
    · exact ordinary
  · exact fun _ _ _ => Multiset.mem_cons_of_mem

/-- No attachment shows an address space that is wiped. -/
theorem Coherent.wipe (coherent : Coherent s held)
    (formed : WellFormed s held) {mm : MmPtr}
    (none : ∀ att, s.Bound held att → (s.att att).mm ≠ mm)
    (removed : ∀ seg, s.graph.Linked (.seg seg) →
      (s.tg (s.seg seg).tg).mm ≠ mm) :
    Coherent (s.setSpace mm .empty .empty s.nextVma) held := by
  intro att present straight index inside frame leaf
  have before : s.Bound held att := present
  have stays : s.leaf att index = some frame := by
    change (s.setSpace mm .empty .empty s.nextVma).pte (s.att att).mm
      ((s.place att).page + index) = some frame at leaf
    rw [State.pte_setSpace, Function.update_of_ne (none att before)] at leaf
    exact leaf
  have foreign : s.sourceMm att ≠ mm := by
    intro own
    have used := formed.graph.used_seg (formed.graph.linked_ap before.1).1
    have unlinked : ¬ s.graph.Linked (.seg (s.segOf att)) :=
      fun linked => removed _ linked own
    have destroyed := formed.graph.ended _ used unlinked
    have absent := formed.laid.revoked att before destroyed straight index
      inside
    change s.leaf att index = _ at absent
    rw [absent] at stays
    cases stays
  refine (coherent att before straight index inside frame stays).imp_left
    fun shows => ?_
  change (s.setSpace mm .empty .empty s.nextVma).pte (s.sourceMm att)
      (s.sourcePage att index) = some frame ∧
    ∃ area ∈ (s.setSpace mm .empty .empty s.nextVma).vmas (s.sourceMm att),
      area.payload.xpmemOps = false ∧
        area.Contains (s.sourcePage att index * pageSize)
  rw [State.pte_setSpace, State.vmas_setSpace,
    Function.update_of_ne foreign, Function.update_of_ne foreign]
  exact shows

/-- After a callback nothing of its range is mapped any more. -/
theorem Coherent.settle {mm : MmPtr} {start stop : Nat}
    (coherent : Coherent s (.stale mm start stop ::ₘ held))
    (cleared : s.Cleared held mm start stop) : Coherent s held := by
  intro att present straight index inside frame leaf
  have before : s.Bound (.stale mm start stop ::ₘ held) att := by
    simpa [State.Bound] using present
  rcases coherent att before straight index inside frame leaf with
    shows | ⟨low, high, token, below, above⟩
  · exact Or.inl shows
  · rcases Multiset.mem_cons.mp token with equal | member
    · cases equal
      have absent := cleared att present straight rfl index inside below
        above
      rw [absent] at leaf
      cases leaf
    · exact Or.inr ⟨low, high, member, below, above⟩

/-! ## Actions keep attachments coherent -/

/-- A change of notifiers leaves areas and leaves alone. -/
theorem spaces_modMm (s : State K) (mm : MmPtr) {change : Mm K → Mm K}
    (vmas : (change (s.mm mm)).vmas = (s.mm mm).vmas)
    (table : (change (s.mm mm)).table = (s.mm mm).table) :
    (s.modMm mm change).vmas = s.vmas ∧
      (s.modMm mm change).pte = s.pte := by
  constructor <;> funext other
  · by_cases here : other = mm
    · subst here
      simp [State.vmas, State.modMm, vmas]
    · simp [State.vmas, State.modMm, here]
  · funext page
    by_cases here : other = mm
    · subst here
      simp [State.pte, State.modMm, table]
    · simp [State.pte, State.modMm, here]

theorem Coherent.of_act (act : Act tidy s held t more)
    (formed : WellFormed s held) (coherent : Coherent s held) :
    Coherent t more := by
  have after := act.formed formed
  have ages := act.ages formed
  have shaped (same : t.shape = s.shape)
      (stale : ∀ mm start stop, .stale mm start stop ∈ held →
        .stale mm start stop ∈ more) : Coherent t more :=
    coherent.still formed after ages (congrArg (fun u => u.vmas) same)
      (congrArg (fun u => u.pte) same) stale
  cases act with
  | minor same => exact shaped (State.shape_eq_of_main same) (by simp)
  | ref object => exact shaped (s.shape_ref object) (by simp)
  | deref object => exact shaped (s.shape_deref object) (by simp)
  | flag object =>
      have same := s.layout_flag object true
      exact coherent.still formed after ages
        (congrArg (fun u => u.vmas) same) (congrArg (fun u => u.pte) same)
        (by simp)
  | unflag att => exact coherent.still formed after ages rfl rfl (by simp)
  | @openTg _ tgid mm cred =>
      obtain ⟨vmas, pte⟩ := @spaces_modMm _ s mm (fun space =>
        { space with notifiers := s.nextTg :: space.notifiers }) rfl rfl
      exact coherent.still formed after ages vmas pte (by simp)
  | makeSeg | getAp | linkAtt | unlinkAtt | unlinkAp | unlinkSeg
  | finishTg | unhash | setValid | spawn | leave | exiting | gone =>
      exact coherent.still formed after ages rfl rfl (by simp)
  | bind linked alone home member unique free size unmapped =>
      exact coherent.bind formed home unique size unmapped ages
  | @untie _ att area put =>
      exact (coherent.putPages formed _ put).untie
        (formed.putPages _ put) area.payload.vma
  | @clear _ att first count put present low high =>
      have same := SamePlaces.of_shape (shape_putPages s (s.segOf att) put)
      have cleared := @Coherent.clear _ _ _ att
        (coherent.putPages formed (s.segOf att) put) (formed.putPages _ put)
        first count (same.bound held ▸ present)
        (by rw [same.place]; exact low) (by rw [same.place]; exact high)
      rw [putPages_att, putPages_mm] at cleared
      exact cleared
  | stray seg put => exact shaped (shape_putPages s seg put) (by simp)
  | @pin _ group frame =>
      exact shaped (shape_countPin s group frame) (by simp)
  | putBack seg page frame =>
      exact shaped (shape_putPages s seg _) (by simp)
  | leak => exact shaped rfl (by simp)
  | populate ordinary absent =>
      exact coherent.populate formed ordinary absent
  | insert present inside absent positive valid live shows =>
      exact coherent.insert formed (by simpa [State.Bound] using present)
        inside shows (by simp) (by simp)
  | mismatch => exact shaped rfl (by simp)
  | assign member ordinary low high startAligned stopAligned =>
      exact coherent.assign formed member ordinary low high startAligned
        stopAligned
  | freeTable mm index level =>
      refine coherent.still formed after ages (s.vmas_setTable mm _) ?_
        (by simp)
      rw [State.pte_setTable, PageTable.free_pte]
      exact Function.update_eq_self mm s.pte
  | addVma proper xpmemOps _ _ _ free =>
      exact coherent.addVma formed proper xpmemOps free
  | splitVma aligned outside lowered raised =>
      exact coherent.splitVma formed lowered raised
  | unmap proper startAligned stopAligned =>
      exact coherent.unmapRange formed proper startAligned stopAligned
  | settle cleared => exact coherent.settle cleared
  | wipe none removed => exact coherent.wipe formed none removed
  | @hush _ mm ended =>
      obtain ⟨vmas, pte⟩ := @spaces_modMm _ s mm
        (fun space => { space with notifiers := [] }) rfl rfl
      exact coherent.still formed after ages vmas pte (by simp)

/-! ## Messages about a page that differs -/

theorem log_putPages (s : State K) (seg : SegPtr)
    (put : List (Nat × Frame)) : (putPages s seg put).log = s.log := by
  rw [putPages_eq]
  rfl

/-- Only a page that differs from what its source shows is reported. -/
theorem log_of_act (act : Act tidy s held t more) :
    t.log = s.log ∨
      ∃ att index frame old, s.Bound held att ∧
        index < (s.place att).pages ∧ s.leaf att index = some old ∧
        old ≠ frame ∧
        (s.Straight (s.segOf att) → s.Shows att index frame) ∧
        ∀ mm start stop, .stale mm start stop ∉ held := by
  cases act with
  | @minor _ _ same =>
      exact Or.inl (congrArg State.log same : t.main.log = s.main.log)
  | deref object =>
      left
      cases object <;>
        simp only [State.deref, State.xpmemTgDeref, State.xpmemSegDeref,
          State.xpmemApDeref, State.xpmemAttDeref] <;>
        split <;> rfl
  | ref object | flag object => cases object <;> exact Or.inl rfl
  | @untie _ att _ put | @clear _ att _ _ put =>
      exact Or.inl (log_putPages s (s.segOf att) put)
  | stray seg put => exact Or.inl (log_putPages s seg put)
  | putBack seg page frame =>
      exact Or.inl (log_putPages s seg [(page, frame)])
  | @mismatch _ att index frame old present inside leaf distinct shows
      fresh =>
      exact Or.inr ⟨att, index, frame, old, present, inside, leaf,
        distinct, shows, fresh⟩
  | _ => exact Or.inl rfl

/-- All segments lie below the limit, without wrapping. -/
def AllStraight (s : State K) : Prop :=
  ∀ seg < s.nextSeg, s.Straight seg

theorem AllStraight.before (straight : AllStraight t) (ages : Ages s t) :
    AllStraight s := by
  intro seg used
  have later := straight seg (lt_of_lt_of_le used ages.nextSeg)
  rw [State.Straight, ages.seg_vaddr used, ages.seg_size used] at later
  exact later

/-- Where attachments are coherent nothing is reported. -/
theorem log_eq_nil_of_act (act : Act tidy s held t more)
    (formed : WellFormed s held) (coherent : Coherent s held)
    (quiet : AllStraight s → s.log = []) (straight : AllStraight t) :
    t.log = [] := by
  have before := straight.before (act.ages formed)
  rcases log_of_act act with same |
    ⟨att, index, frame, old, present, inside, leaf, distinct, shows, fresh⟩
  · rw [same]
    exact quiet before
  · have used := formed.graph.used_seg
      (formed.graph.linked_ap present.1).1
    have below : s.Straight (s.segOf att) := before _ used
    rcases coherent att present below index inside old leaf with
      shown | ⟨start, stop, token, _⟩
    · have both := shown.1.symm.trans (shows below).1
      exact absurd (Option.some.inj both) distinct
    · exact absurd token (fresh _ _ _)

/-! ## Coherence of a run -/

/-- The source address that the fault handler computes. -/
def State.sourceAddr (s : State K) (att : AttPtr) (vaddr : Nat) : Nat :=
  u64 (pageMask (s.att att).vaddr + u64Sub vaddr (s.att att).atVaddr)

/-- The source maps the frame where the attachment shows it. -/
def State.Backed (s : State K) (att : AttPtr) (vaddr : Nat)
    (frame : Frame) : Prop :=
  (s.mm (s.sourceMm att)).frameAt (s.sourceAddr att vaddr) = some frame ∧
    ∃ area, (s.mm (s.sourceMm att)).vmaAt (s.sourceAddr att vaddr) =
      some area ∧ area.payload.xpmemOps = false

theorem Coherent.backed (coherent : Coherent s 0)
    (formed : WellFormed s 0) (present : s.Bound 0 att)
    (straight : s.Straight (s.segOf att)) {vaddr : Nat}
    (within : s.Within att vaddr) {frame : Frame}
    (mapped : (s.mm (s.att att).mm).frameAt vaddr = some frame) :
    s.Backed att vaddr frame := by
  obtain ⟨inside, page⟩ := formed.indexOf present within
  have source := formed.source_page present within straight
  change s.sourceAddr att vaddr / pageSize = _ at source
  have leaf : s.leaf att (s.indexOf att vaddr) = some frame := by
    rw [Mm.frameAt, page] at mapped
    exact mapped
  rcases coherent att present straight _ inside frame leaf with
    ⟨same, area, member, plain, contains⟩ | ⟨_, _, token, _⟩
  · rw [← source] at same contains
    refine ⟨same, area, ?_, plain⟩
    refine RangeList.containing_eq_some_iff.mpr ⟨member, ?_⟩
    obtain ⟨startAligned, stopAligned, _⟩ :=
      formed.laid.placed.fits _ area member
    obtain ⟨low, high⟩ := contains
    unfold Range.Contains
    unfold pageSize at *
    omega
  · simp at token

theorem Coherent.of_run {events : List (Event (State K) Op Ret)}
    (run : Run step {} (Orderly tidy) events s) : Coherent s 0 := by
  refine invariant_of_run Coherent run ?_
    fun _ _ _ _ formed act coherent => coherent.of_act act formed
  rintro att ⟨linked, _⟩
  cases linked

/--
In every orderly run over straight segments each mapped page of a live
attachment is the page of its source, which lies in no area of the driver;
two attachments of one page share its frame, and no page is ever reported to
differ.
-/
theorem coherent_of_run {events : List (Event (State K) Op Ret)}
    (run : Run step {} (Orderly False) events s)
    (straight : AllStraight s) :
    (∀ att vaddr frame, s.liveAtt att = true → s.Within att vaddr →
      (s.mm (s.att att).mm).frameAt vaddr = some frame →
        s.Backed att vaddr frame) ∧
    (∀ att other vaddr place frame value, s.liveAtt att = true →
      s.liveAtt other = true → s.Within att vaddr →
      s.Within other place → s.sourceMm att = s.sourceMm other →
      s.sourceAddr att vaddr / pageSize =
        s.sourceAddr other place / pageSize →
      (s.mm (s.att att).mm).frameAt vaddr = some frame →
      (s.mm (s.att other).mm).frameAt place = some value →
        frame = value) ∧
    s.log = [] := by
  have formed := WellFormed.of_run run
  have both : Coherent s 0 ∧ (AllStraight s → s.log = []) := by
    refine invariant_of_run
      (fun s held => Coherent s held ∧ (AllStraight s → s.log = [])) run
      ⟨.of_run (@Run.start _ _ _ _ _ (Orderly False)), fun _ => rfl⟩ ?_
    rintro s held t more formed act ⟨coherent, quiet⟩
    exact ⟨coherent.of_act act formed,
      log_eq_nil_of_act act formed coherent quiet⟩
  have backed (att : AttPtr) (vaddr : Nat) (frame : Frame)
      (live : s.liveAtt att = true) (within : s.Within att vaddr)
      (mapped : (s.mm (s.att att).mm).frameAt vaddr = some frame) :
      s.Backed att vaddr frame := by
    have present := formed.bound_of_liveAtt live
    have used := formed.graph.used_seg
      (formed.graph.linked_ap present.1).1
    exact both.1.backed formed present (straight _ used) within mapped
  refine ⟨backed, ?_, both.2 straight⟩
  intro att other vaddr place frame value live otherLive within
    otherWithin source page mapped otherMapped
  have left := (backed att vaddr frame live within mapped).1
  have right := (backed other place value otherLive otherWithin
    otherMapped).1
  rw [Mm.frameAt, source, page] at left
  exact Option.some.inj (left.symm.trans right)

/-- A page is shown, replaced in its source, and shown again. -/
theorem backed_of_replaced_page :
    ∃ (events : _) (s : State fourLevel),
      Run step {} (Orderly False) events s ∧ s.Backed 0 0x21000 9 ∧
        s.log = [] := by
  obtain ⟨events, s, run, straight, live, within, mapped⟩ := exists_run
    step ({} : State fourLevel) (fun _ op => op.Free)
    [.spawn 1, .openDev 1 {}, .mmap 1 0x10000 0x14000 false,
      .ioctl 1 (.make 0x10000 0x4000 1 0o666) {}, .spawn 2, .openDev 2 {},
      .ioctl 2 (.get 0x100000001 2 1 0) {},
      .ioctl 2 (.attach 0x100000002 0 0x4000 0) { place := some 0x20000 },
      .fault 2 0x21000 ⟨false, false, .page 7, true, true⟩,
      .replace 1 0x10000 0x14000 (fun _ => some 9),
      .fault 2 0x21000 ⟨false, false, .page 7, true, true⟩]
    (fun _ s =>
      (∀ seg < s.nextSeg,
        (s.seg seg).vaddr + (s.seg seg).size ≤ fourLevel.taskSize) ∧
      s.liveAtt 0 = true ∧
      ((s.place 0).start ≤ 0x21000 ∧
        0x21000 < (s.place 0).start + (s.place 0).size) ∧
      (s.mm (s.att 0).mm).frameAt 0x21000 = some 9)
    (by decide +kernel)
  have orderly := run.mono fun pre _ free => free.orderly pre
  have coherent := coherent_of_run orderly straight
  exact ⟨events, s, orderly,
    coherent.1 0 0x21000 9 live within mapped, coherent.2.2⟩

end Xpmem.Driver
