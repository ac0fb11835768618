import Xpmem.Driver.System
import Xpmem.Foundation.Run

/-!
# The walk that unpins pages

`xpmem_unpin_pages` steps over whole absent entries of the page table.  While
the `int` in which it counts loses nothing, it puts the pages of the present
PTEs of its range, each once, and no other page.  The count loses something
for ranges of `2 ^ 31` pages, and for top-level entries of a five-level table.
-/

namespace Xpmem.Driver

open Xpmem.Foundation Xpmem.Kernel

variable {K : Platform}

/-! ## The pages a range of addresses touches -/

/-- The pages of the `size` addresses from `vaddr` on. -/
def touchedPages (vaddr size : Nat) : Finset Nat :=
  (Finset.range size).image fun offset => u64 (vaddr + offset) / pageSize

theorem mem_touchedPages {vaddr size page : Nat} :
    page ∈ touchedPages vaddr size ↔
      ∃ offset < size, u64 (vaddr + offset) / pageSize = page := by
  simp [touchedPages]

/-- The number of pages a range spans, without overflow. -/
def spannedPages (vaddr size : Nat) : Nat :=
  (offsetInPage vaddr + size + (pageSize - 1)) / pageSize

/-- The pages of a range are consecutive. -/
theorem mem_touchedPages_iff_ringPages {vaddr size page : Nat}
    (occupied : 0 < size ∨ offsetInPage vaddr = 0) :
    page ∈ touchedPages vaddr size ↔
      page ∈ ringPages (vaddr / pageSize) (spannedPages vaddr size) := by
  rw [mem_touchedPages, mem_ringPages]
  unfold spannedPages offsetInPage u64 pageSize at *
  constructor
  · rintro ⟨offset, below, rfl⟩
    exact ⟨(vaddr % 4096 + offset) / 4096, by omega, by omega⟩
  · rintro ⟨index, below, rfl⟩
    -- The first page is touched at `vaddr`, a later one at its start.
    rcases Nat.eq_zero_or_pos index with first | later
    · exact ⟨0, by omega, by omega⟩
    · exact ⟨index * 4096 - vaddr % 4096, by omega, by omega⟩

theorem ringPages_nodup {page count : Nat} (few : count ≤ 2 ^ 52) :
    (ringPages page count).Nodup := by
  rw [ringPages]
  apply List.Nodup.map_on _ (List.nodup_range' 1)
  intro first member second member' same
  rw [List.mem_range'_1] at member member'
  omega

/-- A range that touches few pages spans few. -/
theorem spannedPages_lt {vaddr size : Nat}
    (occupied : 0 < size ∨ offsetInPage vaddr = 0)
    (few : (touchedPages vaddr size).card < 2 ^ 31) :
    spannedPages vaddr size < 2 ^ 31 := by
  by_contra many
  have subset :
      (ringPages (vaddr / pageSize) (2 ^ 31)).toFinset ⊆
        touchedPages vaddr size := by
    intro page member
    rw [List.mem_toFinset, mem_ringPages] at member
    obtain ⟨index, below, same⟩ := member
    rw [mem_touchedPages_iff_ringPages occupied, mem_ringPages]
    exact ⟨index, by omega, same⟩
  have counted := Finset.card_le_card subset
  rw [List.toFinset_card_of_nodup (ringPages_nodup (by decide)), ringPages,
    List.length_map, List.length_range'] at counted
  omega

theorem numOfPages_eq {vaddr size : Nat}
    (few : spannedPages vaddr size < 2 ^ 31) :
    numOfPages vaddr size = spannedPages vaddr size := by
  unfold numOfPages spannedPages offsetInPage u64 pageSize at *
  omega

/-! ## What the walk puts -/

/-- The pages of the range that are mapped, as a set. -/
def presentPages (table : PageTable K) (vaddr size : Nat) : Finset Nat :=
  (touchedPages vaddr size).filter fun page => (table.pte page).isSome

/-- The pages of the range that are mapped to a frame. -/
def pagesOfFrame (table : PageTable K) (vaddr size : Nat) (frame : Frame) :
    Finset Nat :=
  (touchedPages vaddr size).filter fun page => table.pte page = some frame

section Counting

variable {table : PageTable K} {pages : List Nat} {vaddr size : Nat}

theorem length_mappedAmong (nodup : pages.Nodup)
    (same : ∀ page, page ∈ touchedPages vaddr size ↔ page ∈ pages) :
    (mappedAmong table pages).length =
      (presentPages table vaddr size).card := by
  have split :
      presentPages table vaddr size =
        (pages.filter fun page => (table.pte page).isSome).toFinset := by
    ext page
    rw [presentPages, Finset.mem_filter, List.mem_toFinset,
      List.mem_filter, same]
  rw [split, List.toFinset_card_of_nodup (nodup.filter _), mappedAmong,
    List.length_filterMap_eq_countP, List.countP_eq_length_filter]
  simp

theorem count_mappedAmong (nodup : pages.Nodup)
    (same : ∀ page, page ∈ touchedPages vaddr size ↔ page ∈ pages)
    (frame : Frame) :
    ((mappedAmong table pages).map Prod.snd).count frame =
      (pagesOfFrame table vaddr size frame).card := by
  have split :
      pagesOfFrame table vaddr size frame =
        (pages.filter fun page => table.pte page = some frame).toFinset := by
    ext page
    rw [pagesOfFrame, Finset.mem_filter, List.mem_toFinset,
      List.mem_filter, same, decide_eq_true_iff]
  rw [split, List.toFinset_card_of_nodup (nodup.filter _),
    ← List.countP_eq_length_filter, List.count, List.countP_map,
    mappedAmong, List.countP_filterMap]
  apply List.countP_congr
  intro page _
  cases table.pte page <;> simp

end Counting

/--
`xpmem_unpin_pages` returns, puts each frame as often as pages of the range
are mapped to it, and moves both counters by the number of mapped pages.
-/
theorem xpmemUnpinPages_eq_present
    (s : State K) (seg : SegPtr) (mm : MmPtr) {vaddr size : Nat}
    (address : vaddr < 2 ^ 64)
    (few : (touchedPages vaddr size).card < 2 ^ 31)
    (reach : 2 ^ K.pgdOrder < 2 ^ 31)
    (occupied : 0 < size ∨ offsetInPage vaddr = 0) :
    xpmemUnpinPages s seg mm vaddr size =
      some
        { s.modTg (s.seg seg).tg (fun tg =>
            { tg with
              nPinned := int32 (tg.nPinned -
                (presentPages (s.mm mm).table vaddr size).card) }) with
          pageRefs := fun frame =>
            s.pageRefs frame -
              (pagesOfFrame (s.mm mm).table vaddr size frame).card
          myPart :=
            { s.myPart with
              nUnpinned := int32 (s.myPart.nUnpinned +
                (presentPages (s.mm mm).table vaddr size).card) } } := by
  have short := spannedPages_lt occupied few
  have order : K.pgdOrder < 31 := (Nat.pow_lt_pow_iff_right (by decide)).mp
    reach
  have start : pageMask vaddr = vaddr / pageSize * pageSize := by
    have := Nat.div_add_mod vaddr pageSize
    unfold pageMask
    rw [Nat.mul_comm] at this
    omega
  have walked := @unpinWalk_eq_mappedAmong K (s.mm mm).table
    (vaddr / pageSize) (spannedPages vaddr size) short
    (by unfold pageSize; omega)
    (fun _ => barrenBehind_of_skippedPages_lt (skippedPages_lt order _ _))
  have nodup := @ringPages_nodup (vaddr / pageSize)
    (spannedPages vaddr size) (by omega)
  have same : ∀ page, page ∈ touchedPages vaddr size ↔
      page ∈ ringPages (vaddr / pageSize) (spannedPages vaddr size) :=
    fun page => mem_touchedPages_iff_ringPages occupied
  rw [xpmemUnpinPages, numOfPages_eq short,
    int32_of_bounds (by omega) (by omega), start, walked, Option.map_some,
    putPages_eq, length_mappedAmong nodup same]
  simp only [count_mappedAmong nodup same]

/-- An address space with one page mapped. -/
def onePage (page : Nat) (frame : Frame) : State fourLevel :=
  ({} : State fourLevel).modMm 0 fun mm =>
    { mm with table := mm.table.map page frame }

/-- A range over two pages, one of them mapped. -/
theorem xpmemUnpinPages_of_two_pages :
    (touchedPages 0x800 0x1000).card < 2 ^ 31 ∧
      ∃ t, xpmemUnpinPages (onePage 1 7) 0 0 0x800 0x1000 = some t ∧
        t.myPart.nUnpinned =
          int32 (presentPages ((onePage 1 7).mm 0).table 0x800 0x1000).card
      := by
  have few : (touchedPages 0x800 0x1000).card < 2 ^ 31 :=
    lt_of_le_of_lt Finset.card_image_le (by rw [Finset.card_range]; decide)
  refine ⟨few, _, xpmemUnpinPages_eq_present (onePage 1 7) 0 0
    (by decide) few (by decide) (.inl (by decide)), ?_⟩
  exact congrArg int32 (zero_add _)

/--
An empty range that starts inside a page touches no page, but
`num_of_pages` rounds the offset up to one.
-/
theorem xpmemUnpinPages_of_empty_range :
    touchedPages 0x1001 0 = ∅ ∧
      (xpmemUnpinPages (onePage 1 7) 0 0 0x1001 0).map (fun t =>
        (t.pageRefs 7, t.myPart.nUnpinned)) =
      some ((onePage 1 7).pageRefs 7 - 1,
        (onePage 1 7).myPart.nUnpinned + 1) := by
  refine ⟨rfl, ?_⟩
  decide +kernel

/-! ## The count of pages left -/

/--
The states of `vaddr` and `n_pgs` at the head of the loop of
`xpmem_unpin_pages`.
-/
inductive LoopHead (table : PageTable K) (vaddr size : Nat) :
    Nat → Int → Prop where
  | enter : LoopHead table vaddr size (pageMask vaddr)
      (int32 (numOfPages vaddr size))
  | next {addr : Nat} {nPgs : Int}
      (head : LoopHead table vaddr size addr nPgs) (pending : 0 < nPgs) :
      LoopHead table vaddr size (unpinRound table addr nPgs).1
        (unpinRound table addr nPgs).2

/-- The walk goes through the heads of the loop. -/
theorem LoopHead.walk {table : PageTable K} {vaddr size addr : Nat}
    {nPgs : Int} (head : LoopHead table vaddr size addr nPgs) :
    ∃ rounds put, ∀ fuel,
      unpinWalk table (fuel + rounds) (pageMask vaddr)
          (int32 (numOfPages vaddr size)) =
        (unpinWalk table fuel addr nPgs).map (put ++ ·) := by
  induction head with
  | enter =>
      refine ⟨0, [], fun fuel => ?_⟩
      simp
  | @next addr nPgs _ pending induction =>
      obtain ⟨rounds, put, walked⟩ := induction
      refine ⟨rounds + 1, put ++ ((table.pte (addr / pageSize)).map
        fun frame => (addr / pageSize, frame)).toList, fun fuel => ?_⟩
      have more := walked (fuel + 1)
      rw [unpinWalk_succ table fuel addr pending, Option.map_map] at more
      rw [← Nat.add_assoc, Nat.add_right_comm, more]
      congr 1
      funext rest
      simp

/--
At every head of the loop `n_pgs` is the number of pages from the address to
the end of the range, and positive exactly when one is left.
-/
def CountsPages (table : PageTable K) (vaddr size : Nat) : Prop :=
  ∀ addr nPgs, LoopHead table vaddr size addr nPgs →
    nPgs = ((vaddr + size) / pageSize : Nat) - (addr / pageSize : Nat) ∧
      (0 < nPgs ↔ addr < vaddr + size)

/-- The address and the count at a head of the loop. -/
structure Exact (page stop addr : Nat) (nPgs : Int) : Prop where
  aligned : addr = page * pageSize
  low : page < 2 ^ 52
  left : nPgs = (stop : Int) - page
  above : -2 ^ 31 ≤ nPgs
  below : nPgs < 2 ^ 31

theorem Exact.next {table : PageTable K} {page stop addr : Nat} {nPgs : Int}
    (exact : Exact page stop addr nPgs) (limit : stop ≤ 2 ^ 50)
    (pending : 0 < nPgs)
    (short : page + stride table page ≤ stop + 2 ^ 31) :
    Exact (page + stride table page) stop (unpinRound table addr nPgs).1
      (unpinRound table addr nPgs).2 := by
  obtain ⟨aligned, low, left, above, below⟩ := exact
  have inside : page + stride table page < 2 ^ 52 := by omega
  rw [aligned, unpinRound_eq table low, Nat.mod_eq_of_lt inside,
    int32_of_bounds (by omega) (by omega)]
  refine ⟨rfl, inside, ?_, ?_, ?_⟩
  · push_cast
    omega
  · simp only
    omega
  · simp only
    omega

section

variable {table : PageTable K} {vaddr size : Nat}

theorem exact_of_enter (alignedStart : vaddr % pageSize = 0)
    (alignedSize : size % pageSize = 0) (inside : vaddr + size ≤ K.taskSize)
    (few : size / pageSize < 2 ^ 31) :
    Exact (vaddr / pageSize) ((vaddr + size) / pageSize) (pageMask vaddr)
      (int32 (numOfPages vaddr size)) := by
  have limit := K.taskSize_le
  have spanned : spannedPages vaddr size = size / pageSize := by
    unfold spannedPages offsetInPage pageSize at *
    omega
  have counted := numOfPages_eq (by rw [spanned]; exact few)
  rw [counted, spanned, pageMask_of_aligned alignedStart,
    int32_of_bounds (by omega) (by omega)]
  refine ⟨?_, ?_, ?_, ?_, ?_⟩ <;> unfold pageSize at * <;> omega

/-- At a page of the range the round that leaves it may not go too far. -/
theorem CountsPages.stride_le (counts : CountsPages table vaddr size)
    {page : Nat} {nPgs : Int}
    (head : LoopHead table vaddr size (page * pageSize) nPgs)
    (limit : (vaddr + size) / pageSize ≤ 2 ^ 50)
    (before : page < (vaddr + size) / pageSize) :
    page + stride table page ≤ (vaddr + size) / pageSize + 2 ^ 31 := by
  have pageOf : page * pageSize / pageSize = page := by
    simp [pageSize]
  obtain ⟨left, positive⟩ := counts _ _ head
  rw [pageOf] at left
  have low : page < 2 ^ 50 := by omega
  have skipped := skippedPages_inside table le_rfl low
  have ending : page + stride table page ≤ 2 ^ 50 := by
    unfold stride
    omega
  -- the next head says what is left in an `int`
  have later := (counts _ _ (.next head (by omega))).1
  rw [unpinRound_eq table (by omega), Nat.mod_eq_of_lt (by omega)] at later
  have bound : -2 ^ 31 ≤ int32 (nPgs - stride table page) := by
    unfold int32
    omega
  simp only at later
  rw [later, Nat.mul_div_cancel _ (by decide)] at bound
  omega

/-- The walk comes to a page of the range that it leaves. -/
theorem CountsPages.exists_leaving (counts : CountsPages table vaddr size)
    (limit : (vaddr + size) / pageSize ≤ 2 ^ 50) {page : Nat} {nPgs : Int}
    (head : LoopHead table vaddr size (page * pageSize) nPgs)
    (before : page < (vaddr + size) / pageSize) :
    ∃ last count, LoopHead table vaddr size (last * pageSize) count ∧
      last < (vaddr + size) / pageSize ∧
      (vaddr + size) / pageSize ≤ last + stride table last := by
  by_cases leaves : (vaddr + size) / pageSize ≤ page + stride table page
  · exact ⟨page, nPgs, head, before, leaves⟩
  · have forward : 0 < stride table page :=
      lt_of_lt_of_le Nat.one_pos (le_max_left _ _)
    have pending : 0 < nPgs := by
      rw [(counts _ _ head).1]
      unfold pageSize at *
      omega
    have next := head.next pending
    rw [unpinRound_eq table (by omega), Nat.mod_eq_of_lt (by omega)] at next
    exact counts.exists_leaving limit next (by omega)
termination_by (vaddr + size) / pageSize - page

/--
The absent entry of the last page, if there is one, does not go so far behind
the range that an `int` cannot count the pages there.
-/
def EndsNear (table : PageTable K) (page count : Nat) : Prop :=
  0 < count → skippedPages table (page + count - 1) ≤ 2 ^ 31 + 1

theorem div_pageSize_add (aligned : vaddr % pageSize = 0) :
    (vaddr + size) / pageSize = vaddr / pageSize + size / pageSize := by
  unfold pageSize at *
  omega

/-- Every round keeps the count exact, the one that leaves the range too. -/
theorem LoopHead.exact (alignedStart : vaddr % pageSize = 0)
    (alignedSize : size % pageSize = 0)
    (inside : vaddr + size ≤ K.taskSize) (few : size / pageSize < 2 ^ 31)
    (near : EndsNear table (vaddr / pageSize) (size / pageSize))
    {addr : Nat} {nPgs : Int} (head : LoopHead table vaddr size addr nPgs) :
    ∃ page, vaddr / pageSize ≤ page ∧
      Exact page ((vaddr + size) / pageSize) addr nPgs := by
  have limit : (vaddr + size) / pageSize ≤ 2 ^ 50 := by
    have := K.taskSize_le
    unfold pageSize
    omega
  have stop := @div_pageSize_add vaddr size alignedStart
  induction head with
  | enter =>
      exact ⟨vaddr / pageSize, le_refl _,
        exact_of_enter alignedStart alignedSize inside few⟩
  | next _ pending induction =>
      obtain ⟨page, first, exact⟩ := induction
      have left := exact.left
      refine ⟨page + stride table page, by omega,
        exact.next limit pending ?_⟩
      rcases Nat.lt_or_ge (page + stride table page)
        ((vaddr + size) / pageSize) with within | leaves
      · omega
      · have last := near (by omega)
        rw [← stop] at last
        rw [stride_of_leaving (by omega) leaves]
        unfold stride
        omega

/--
The count loses nothing exactly when the range has fewer than `2 ^ 31` pages
and the walk does not leave it too far behind its end.
-/
theorem countsPages_iff (alignedStart : vaddr % pageSize = 0)
    (alignedSize : size % pageSize = 0)
    (inside : vaddr + size ≤ K.taskSize) :
    CountsPages table vaddr size ↔
      size / pageSize < 2 ^ 31 ∧
        EndsNear table (vaddr / pageSize) (size / pageSize) := by
  have limit : (vaddr + size) / pageSize ≤ 2 ^ 50 := by
    have := K.taskSize_le
    unfold pageSize
    omega
  have stop := @div_pageSize_add vaddr size alignedStart
  constructor
  · intro counts
    have first := (counts _ _ .enter).1
    have few : size / pageSize < 2 ^ 31 := by
      rw [pageMask_of_aligned alignedStart] at first
      unfold int32 at first
      omega
    refine ⟨few, fun positive => ?_⟩
    have start : LoopHead table vaddr size (vaddr / pageSize * pageSize)
        (int32 (numOfPages vaddr size)) := by
      rw [← (exact_of_enter alignedStart alignedSize inside few).aligned]
      exact .enter
    obtain ⟨last, count, head, before, leaves⟩ :=
      counts.exists_leaving limit start (by omega)
    have short := counts.stride_le head limit before
    rw [stride_of_leaving before leaves] at short
    rw [← stop]
    unfold stride at short
    omega
  · rintro ⟨few, near⟩ addr nPgs head
    obtain ⟨page, first, rfl, _, left, _, _⟩ :=
      head.exact alignedStart alignedSize inside few near
    unfold pageSize at *
    constructor <;> omega

end

/-- In an empty four-level table every range below `2 ^ 43` is counted. -/
theorem countsPages_of_four_pages :
    CountsPages (PageTable.empty : PageTable fourLevel) 0x20000 0x4000 :=
  (countsPages_iff rfl rfl (by decide)).mpr
    ⟨by decide, fun _ => (skippedPages_lt (by decide) _ _).le.trans
      (by decide)⟩

theorem not_countsPages_of_long {table : PageTable K} {vaddr size : Nat}
    (empty : int32 (numOfPages vaddr size) ≤ 0)
    (proper : pageMask vaddr < vaddr + size) :
    ¬ CountsPages table vaddr size := by
  intro counts
  have first := (counts _ _ .enter).2
  exact absurd (first.mpr proper) (not_lt.mpr empty)

theorem not_countsPages_of_jump {table : PageTable K} {vaddr size : Nat}
    (remains : 0 < int32 (numOfPages vaddr size))
    (pending : 0 < (unpinRound table (pageMask vaddr)
      (int32 (numOfPages vaddr size))).2)
    (beyond : vaddr + size ≤ (unpinRound table (pageMask vaddr)
      (int32 (numOfPages vaddr size))).1) :
    ¬ CountsPages table vaddr size := by
  intro counts
  have second := (counts _ _ (.next .enter remains)).2
  exact absurd (second.mp pending) (not_lt.mpr beyond)

/--
With four levels an attachment of `2 ^ 31` pages has no page to visit.  With
five levels an attachment of one page in an absent top-level entry has one
page to visit behind that entry.
-/
theorem not_countsPages_of_attached :
    (∃ (events : _) (s : State fourLevel),
      Run step {} (fun _ _ => True) events s ∧ s.liveAtt 0 = true ∧
        ¬ CountsPages (s.mm (s.att 0).mm).table (s.att 0).atVaddr
          (s.att 0).atSize) ∧
      ∃ (events : _) (s : State fiveLevel),
        Run step {} (fun _ _ => True) events s ∧ s.liveAtt 0 = true ∧
          ¬ CountsPages (s.mm (s.att 0).mm).table (s.att 0).atVaddr
            (s.att 0).atSize := by
  constructor
  · obtain ⟨events, s, run, live, vaddr, size⟩ := exists_run
      step ({} : State fourLevel) (fun _ _ => True)
      [.spawn 1, .openDev 1 {}, .mmap 1 (2 ^ 44) (2 ^ 44 + 2 ^ 43) false,
        .ioctl 1 (.make (2 ^ 44) (2 ^ 43) 1 0o666) {}, .spawn 2,
        .openDev 2 {}, .ioctl 2 (.get 0x100000001 2 1 0) {},
        .ioctl 2 (.attach 0x100000002 0 (2 ^ 43) 0)
          { place := some (2 ^ 45) }]
      (fun _ s => s.liveAtt 0 = true ∧ (s.att 0).atVaddr = 2 ^ 45 ∧
        (s.att 0).atSize = 2 ^ 43)
      (by decide +kernel)
    refine ⟨events, s, run, live, ?_⟩
    rw [vaddr, size]
    exact not_countsPages_of_long (by decide) (by decide)
  · obtain ⟨events, s, run, live, vaddr, size, pending, beyond⟩ := exists_run
      step ({} : State fiveLevel) (fun _ _ => True)
      [.spawn 1, .openDev 1 {}, .mmap 1 0x10000 0x14000 false,
        .ioctl 1 (.make 0x10000 0x4000 1 0o666) {}, .spawn 2,
        .openDev 2 {}, .ioctl 2 (.get 0x100000001 2 1 0) {},
        .ioctl 2 (.attach 0x100000002 0 0x1000 (2 ^ 48))
          { place := some 0 }]
      (fun _ s => s.liveAtt 0 = true ∧ (s.att 0).atVaddr = 2 ^ 48 ∧
        (s.att 0).atSize = 0x1000 ∧
        0 < (unpinRound (s.mm (s.att 0).mm).table (pageMask (2 ^ 48))
          (int32 (numOfPages (2 ^ 48) 0x1000))).2 ∧
        2 ^ 48 + 0x1000 ≤ (unpinRound (s.mm (s.att 0).mm).table
          (pageMask (2 ^ 48)) (int32 (numOfPages (2 ^ 48) 0x1000))).1)
      (by decide +kernel)
    refine ⟨events, s, run, live, ?_⟩
    rw [vaddr, size]
    exact not_countsPages_of_jump (by decide) pending beyond

end Xpmem.Driver
