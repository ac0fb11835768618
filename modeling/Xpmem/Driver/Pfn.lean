import Mathlib.Tactic.Ring
import Mathlib.Tactic.Positivity
import Xpmem.Driver.State
import Xpmem.Foundation.Halting

/-!
# Pinning and unpinning pages

The part of `xpmem_pfn.c` that works on page tables: pinning the source page
of a fault, and the walk of `xpmem_unpin_pages`, which finds the pages to put
through the page table of the attachment and jumps over absent entries of
any level.

The page count of the walk is a 32-bit `int` from which a 64-bit number of
skipped pages is subtracted.  Whether the walk ends therefore depends on the
table; `unpinWalk` has `none` for a walk that does not end.
-/

namespace Xpmem.Driver

open Xpmem.Foundation Xpmem.Kernel

variable {K : Platform}

/-! ## Page-table lookup -/

/-- The result of `xpmem_vaddr_to_pte_size`: a pte, or `*size`. -/
inductive PteOrSize where
  | pte (frame : Frame)
  | absent (size : Nat)
deriving DecidableEq, Repr

/-- `xpmem_vaddr_to_pte_size`. -/
def xpmemVaddrToPteSize (table : PageTable K) (vaddr : Nat) : PteOrSize :=
  let page := vaddr / pageSize
  if table.pgd (page / 2 ^ K.pgdOrder) = false then
    .absent (pageSize * 2 ^ K.pgdOrder)
  else if table.p4d (page / 2 ^ K.p4dOrder) = false then
    .absent (pageSize * 2 ^ K.p4dOrder)
  else if table.pud (page / 2 ^ K.pudOrder) = false then
    .absent (pageSize * 2 ^ K.pudOrder)
  else if table.pmd (page / 2 ^ K.pmdOrder) = false then
    .absent (pageSize * 2 ^ K.pmdOrder)
  else
    match table.pte page with
    | none => .absent pageSize
    | some frame => .pte frame

/-- `xpmem_vaddr_to_PFN`, with 0 for an absent pte. -/
def xpmemVaddrToPFN (mm : Mm K) (vaddr : Nat) : Frame :=
  (mm.frameAt vaddr).getD 0

/-! ## Pinning -/

/--
What `get_user_pages_remote` does: fail, pin nothing, or pin the page.  A
page that is not mapped yet is faulted in with the given frame.
-/
inductive Gup where
  | failed
  | nothing
  | page (fresh : Frame)
deriving DecidableEq, Repr

/-- The frame `get_user_pages_remote` finds or maps. -/
def gupFrame (mm : Mm K) (vaddr : Nat) (fresh : Frame) : Frame :=
  (mm.frameAt vaddr).getD fresh

/-- `get_user_pages_remote` for one page, when it returns 1. -/
def getUserPagesRemote (s : State K) (mm : MmPtr) (vaddr : Nat)
    (fresh : Frame) : State K :=
  let frame := gupFrame (s.mm mm) vaddr fresh
  let s := s.modMm mm fun mm =>
    if mm.frameAt vaddr = none then mm.mapFrame vaddr frame else mm
  { s with
    pageRefs := Function.update s.pageRefs frame (s.pageRefs frame + 1) }

/-- `xpmem_pin_page`; the frame is 0 when nothing was pinned. -/
def xpmemPinPage (s : State K) (group : TgPtr) (srcMm : MmPtr)
    (vaddr : Nat) (gup : Gup) : State K × Except Errno Frame :=
  match (s.mm srcMm).vmaAt vaddr with
  | none => (s, .error .enoent)
  | some vma =>
      if vma.payload.xpmemOps then (s, .error .enoent)
      else
        match gup with
        | .failed => (s, .error .efault)
        | .nothing => (s, .ok 0)
        | .page fresh =>
            let pfn := gupFrame (s.mm srcMm) vaddr fresh
            let s := getUserPagesRemote s srcMm vaddr fresh
            let s := s.modTg group fun tg =>
              { tg with nPinned := int32 (tg.nPinned + 1) }
            ({ s with
                myPart :=
                  { s.myPart with
                    nPinned := int32 (s.myPart.nPinned + 1) } },
              .ok pfn)

/-- `xpmem_ensure_valid_PFN`. -/
def xpmemEnsureValidPFN (s : State K) (seg : SegPtr) (vaddr : Nat)
    (gup : Gup) : State K × Except Errno Frame :=
  if (s.seg seg).destroying then (s, .error .enoent)
  else
    let segTg := (s.seg seg).tg
    xpmemPinPage s segTg (s.tg segTg).mm vaddr gup

/-! ## Unpinning -/

/-- `put_page`. -/
def putPage (s : State K) (frame : Frame) : State K :=
  { s with
    pageRefs := Function.update s.pageRefs frame (s.pageRefs frame - 1) }

/-- `num_of_pages`. -/
def numOfPages (vaddr size : Nat) : Nat :=
  u64 (u64 (offsetInPage vaddr + size) + (pageSize - 1)) / pageSize

/--
The loop of `xpmem_unpin_pages`: the pages it puts, with their frames, in the
order of the walk.
-/
def unpinWalk (table : PageTable K) :
    Nat → Nat → Int → Option (List (Nat × Frame))
  | 0, _, _ => none
  | fuel + 1, vaddr, nPgs =>
      if nPgs ≤ 0 then some []
      else
        match xpmemVaddrToPteSize table vaddr with
        | .pte frame =>
            (unpinWalk table fuel (u64 (vaddr + pageSize))
              (int32 (nPgs - 1))).map ((vaddr / pageSize, frame) :: ·)
        | .absent size =>
            let vsize := u64 (vaddr + size) / size * size
            unpinWalk table fuel vsize
              (int32 (nPgs - (u64Sub vsize vaddr / pageSize : Nat)))

/--
Rounds after which a walk that still runs has seen the same address and page
count twice, so that it never ends.
-/
def walkRounds : Nat := 2 ^ 96

/-- Put pages of a segment and lower the counters by their number. -/
def putPages (s : State K) (seg : SegPtr) (put : List (Nat × Frame)) :
    State K :=
  let s := put.foldl (fun s entry => putPage s entry.2) s
  let s := s.modTg (s.seg seg).tg fun tg =>
    { tg with nPinned := int32 (tg.nPinned - put.length) }
  { s with
    myPart :=
      { s.myPart with
        nUnpinned := int32 (s.myPart.nUnpinned + put.length) } }

theorem foldl_putPage (put : List (Nat × Frame)) (s : State K) :
    put.foldl (fun s entry => putPage s entry.2) s =
      { s with
        pageRefs := fun frame =>
          s.pageRefs frame - (put.map Prod.snd).count frame } := by
  induction put generalizing s with
  | nil => simp
  | cons entry rest induction =>
      rw [List.foldl_cons, induction]
      simp only [putPage, List.map_cons, List.count_cons]
      congr 1
      funext frame
      rw [Function.update_apply]
      by_cases equal : frame = entry.2
      · simp [equal]
        omega
      · simp [equal, Ne.symm equal]

/-- What putting pages changes: two counters and the page references. -/
theorem putPages_eq (s : State K) (seg : SegPtr)
    (put : List (Nat × Frame)) :
    putPages s seg put =
      { s.modTg (s.seg seg).tg (fun tg =>
          { tg with nPinned := int32 (tg.nPinned - put.length) }) with
        pageRefs := fun frame =>
          s.pageRefs frame - (put.map Prod.snd).count frame
        myPart :=
          { s.myPart with
            nUnpinned := int32 (s.myPart.nUnpinned + put.length) } } := by
  rw [putPages, foldl_putPage]
  rfl

theorem putPages_mm (s : State K) (seg : SegPtr)
    (put : List (Nat × Frame)) : (putPages s seg put).mm = s.mm := by
  rw [putPages_eq]
  rfl

theorem putPages_att (s : State K) (seg : SegPtr)
    (put : List (Nat × Frame)) : (putPages s seg put).att = s.att := by
  rw [putPages_eq]
  rfl

/-- `xpmem_unpin_pages`. -/
def xpmemUnpinPages (s : State K) (seg : SegPtr) (mm : MmPtr)
    (vaddr size : Nat) : Option (State K) :=
  (unpinWalk (s.mm mm).table walkRounds (pageMask vaddr)
    (int32 (numOfPages vaddr size))).map (putPages s seg)

/-! ## What the walk finds -/

/-- The number of pages from a page to the end of the absent entry there. -/
def skippedPages (table : PageTable K) (page : Nat) : Nat :=
  match table.absentOrder page with
  | none => 0
  | some order => (page / 2 ^ order + 1) * 2 ^ order - page

/-- The mapped pages among the `count` pages from `page` on. -/
def mappedPages (table : PageTable K) (page count : Nat) :
    List (Nat × Frame) :=
  (List.range' page count).filterMap fun page =>
    (table.pte page).map fun frame => (page, frame)

theorem xpmemVaddrToPteSize_of_pte
    {table : PageTable K} {vaddr : Nat} {frame : Frame}
    (mapped : table.pte (vaddr / pageSize) = some frame) :
    xpmemVaddrToPteSize table vaddr = .pte frame := by
  have present : (table.pte (vaddr / pageSize)).isSome = true := by
    simp [mapped]
  have pmd := table.pmd_of_pte _ present
  have pud := table.pud_of_pmd _ pmd
  have p4d := table.p4d_of_pud _ pud
  have pgd := table.pgd_of_p4d _ p4d
  simp [xpmemVaddrToPteSize, pgd, p4d, pud, pmd, mapped]

theorem xpmemVaddrToPteSize_of_absent
    {table : PageTable K} {vaddr order : Nat}
    (absent : table.absentOrder (vaddr / pageSize) = some order) :
    xpmemVaddrToPteSize table vaddr = .absent (pageSize * 2 ^ order) := by
  unfold PageTable.absentOrder at absent
  unfold xpmemVaddrToPteSize
  simp only
  split at absent
  · rename_i missing
    cases absent
    simp [missing]
  · rename_i pgd
    rw [if_neg pgd]
    split at absent
    · rename_i missing
      cases absent
      simp [missing]
    · rename_i p4d
      rw [if_neg p4d]
      split at absent
      · rename_i missing
        cases absent
        simp [missing]
      · rename_i pud
        rw [if_neg pud]
        split at absent
        · rename_i missing
          cases absent
          simp [missing]
        · rename_i pmd
          rw [if_neg pmd]
          split at absent
          · rename_i missing
            cases absent
            simp [missing]
          · cases absent

/--
The walk leaves an absent entry at the first page behind it, or at address 0
when the entry is the last one below `2 ^ 64`.
-/
theorem skip_target
    {page order : Nat} (orderSmall : order ≤ 52) :
    u64 (page * pageSize + pageSize * 2 ^ order) /
          (pageSize * 2 ^ order) * (pageSize * 2 ^ order) =
      (page / 2 ^ order + 1) * 2 ^ order % 2 ^ 52 * pageSize := by
  have whole : 2 ^ 64 = pageSize * 2 ^ order * 2 ^ (52 - order) := by
    rw [Nat.mul_assoc, ← Nat.pow_add, Nat.add_sub_cancel' orderSmall]
    rfl
  have pages : 2 ^ 52 = 2 ^ (52 - order) * 2 ^ order := by
    rw [← Nat.pow_add, Nat.sub_add_cancel orderSmall]
  have quotient :
      (page * pageSize + pageSize * 2 ^ order) / (pageSize * 2 ^ order) =
        page / 2 ^ order + 1 := by
    rw [Nat.add_div_right _ (by unfold pageSize; positivity),
      Nat.mul_comm page pageSize,
      Nat.mul_div_mul_left _ _ (by decide : 0 < pageSize)]
  rw [u64, whole, Nat.mod_mul_right_div_self, quotient, pages,
    Nat.mul_mod_mul_right]
  ring

theorem skippedPages_of_absent
    {table : PageTable K} {page order : Nat}
    (absent : table.absentOrder page = some order) :
    page + skippedPages table page = (page / 2 ^ order + 1) * 2 ^ order ∧
      0 < skippedPages table page := by
  have positive : 0 < 2 ^ order := Nat.two_pow_pos order
  have above : page < (page / 2 ^ order + 1) * 2 ^ order := by
    have division := Nat.div_add_mod page (2 ^ order)
    have rest := Nat.mod_lt page positive
    have product :
        (page / 2 ^ order + 1) * 2 ^ order =
          2 ^ order * (page / 2 ^ order) + 2 ^ order := by
      ring
    omega
  simp only [skippedPages, absent]
  omega

/-- The pages to the end of an absent entry lie in that entry. -/
theorem absent_of_skipped
    {table : PageTable K} {page other : Nat}
    (low : page ≤ other) (high : other < page + skippedPages table page) :
    ∃ order, table.absentOrder page = some order ∧
      other / 2 ^ order = page / 2 ^ order := by
  cases absent : table.absentOrder page with
  | none =>
      simp only [skippedPages, absent] at high
      omega
  | some order =>
      obtain ⟨target, _⟩ := skippedPages_of_absent absent
      refine ⟨order, rfl, le_antisymm ?_ (Nat.div_le_div_right low)⟩
      apply Nat.le_of_lt_succ
      apply Nat.div_lt_of_lt_mul
      rw [target] at high
      rwa [Nat.mul_comm] at high

/-- No page is mapped from a page to the end of the absent entry there. -/
theorem pte_eq_none_of_skipped
    {table : PageTable K} {page other : Nat}
    (low : page ≤ other) (high : other < page + skippedPages table page) :
    table.pte other = none := by
  obtain ⟨order, absent, block⟩ := absent_of_skipped low high
  exact PageTable.pte_eq_none_of_absent absent block

/-- From all these pages the absent entry ends at the same place. -/
theorem skippedPages_of_skipped
    {table : PageTable K} {page other : Nat}
    (low : page ≤ other) (high : other < page + skippedPages table page) :
    other + skippedPages table other = page + skippedPages table page := by
  obtain ⟨order, absent, block⟩ := absent_of_skipped low high
  have again := PageTable.absentOrder_of_absent absent block
  rw [(skippedPages_of_absent absent).1, (skippedPages_of_absent again).1,
    block]

/-- An entry ends inside the 64-bit address space, or its first quarter. -/
theorem skippedPages_inside
    (table : PageTable K) {page bits : Nat} (wide : 50 ≤ bits)
    (inside : page < 2 ^ bits) :
    page + skippedPages table page ≤ 2 ^ bits := by
  cases absent : table.absentOrder page with
  | none =>
      simp only [skippedPages, absent]
      omega
  | some order =>
      have orderSmall : order ≤ 50 :=
        le_trans (PageTable.absentOrder_le absent) K.pgd_le
      have pages : 2 ^ bits = 2 ^ (bits - order) * 2 ^ order := by
        rw [← Nat.pow_add]
        congr 1
        omega
      rw [(skippedPages_of_absent absent).1, pages]
      apply Nat.mul_le_mul_right
      apply Nat.div_lt_of_lt_mul
      rwa [Nat.mul_comm, ← pages]

/-- No absent entry is longer than an `int` can count. -/
theorem skippedPages_lt (reach : K.pgdOrder < 31) (table : PageTable K)
    (page : Nat) : skippedPages table page < 2 ^ 31 := by
  unfold skippedPages
  split
  · decide
  · rename_i order absent
    have small := PageTable.absentOrder_le absent
    have power : 2 ^ order ≤ 2 ^ 30 :=
      Nat.pow_le_pow_right (by decide) (by omega)
    have division := Nat.div_add_mod page (2 ^ order)
    have product : (page / 2 ^ order + 1) * 2 ^ order =
        2 ^ order * (page / 2 ^ order) + 2 ^ order := by
      ring
    omega

/-- The number of pages by which one round of the walk goes on. -/
def stride (table : PageTable K) (page : Nat) : Nat :=
  max 1 (skippedPages table page)

theorem stride_inside
    (table : PageTable K) {page : Nat} (inside : page < 2 ^ 52) :
    page + stride table page ≤ 2 ^ 52 := by
  have skipped := skippedPages_inside table (by decide) inside
  unfold stride
  omega

/-- The end of a block lies in the larger block around it. -/
theorem block_end_le {low high : Nat} (ordered : low ≤ high) (page : Nat) :
    (page / 2 ^ low + 1) * 2 ^ low ≤ (page / 2 ^ high + 1) * 2 ^ high := by
  obtain ⟨extra, rfl⟩ := Nat.exists_eq_add_of_le ordered
  have inside :
      page / 2 ^ low < (page / 2 ^ low / 2 ^ extra + 1) * 2 ^ extra :=
    Nat.lt_mul_of_div_lt (Nat.lt_succ_self _) (Nat.two_pow_pos extra)
  rw [Nat.pow_add, ← Nat.div_div_eq_div_mul, Nat.mul_comm (2 ^ low),
    ← Nat.mul_assoc]
  exact Nat.mul_le_mul_right _ inside

/-- Where upper entries only come, strides only get shorter. -/
theorem skippedPages_le_stride
    {table next : PageTable K} (retains : table.Retains next)
    (page : Nat) : skippedPages next page ≤ stride table page := by
  cases found : next.absentOrder page with
  | none => simp [skippedPages, found]
  | some later =>
      rcases retains.absentOrder found with rfl | ⟨order, ordered, absent⟩
      · simp [skippedPages, found, stride]
      · have short := (skippedPages_of_absent found).1
        have long := (skippedPages_of_absent absent).1
        have nested := block_end_le ordered page
        unfold stride
        omega

theorem stride_lt
    {table : PageTable K} {page : Nat}
    (short : skippedPages table page < 2 ^ 31) :
    stride table page < 2 ^ 31 := by
  unfold stride
  omega

/--
The round that leaves a range goes as far behind its last page as the entry
of that page does.
-/
theorem stride_of_leaving
    {table : PageTable K} {page stop : Nat} (inside : page < stop)
    (leaves : stop ≤ page + stride table page) :
    page + stride table page = stop - 1 + stride table (stop - 1) := by
  rcases Nat.eq_or_lt_of_le (Nat.le_sub_one_of_lt inside) with last | before
  · rw [last]
  · have skips : stride table page = skippedPages table page := by
      unfold stride at *
      omega
    have same := skippedPages_of_skipped before.le
      (show stop - 1 < page + skippedPages table page by omega)
    unfold stride at *
    omega

/-- One round of the loop: the address and the page count it leaves. -/
def unpinRound (table : PageTable K) (vaddr : Nat) (nPgs : Int) :
    Nat × Int :=
  match xpmemVaddrToPteSize table vaddr with
  | .pte _ => (u64 (vaddr + pageSize), int32 (nPgs - 1))
  | .absent size =>
      let vsize := u64 (vaddr + size) / size * size
      (vsize, int32 (nPgs - (u64Sub vsize vaddr / pageSize : Nat)))

/-- A round ends at a page, `stride` pages further on. -/
theorem unpinRound_eq
    (table : PageTable K) {page : Nat} (inside : page < 2 ^ 52)
    (nPgs : Int) :
    unpinRound table (page * pageSize) nPgs =
      ((page + stride table page) % 2 ^ 52 * pageSize,
        int32 (nPgs - stride table page)) := by
  have pageOf : page * pageSize / pageSize = page := by
    simp [pageSize]
  unfold unpinRound
  cases absent : table.absentOrder page with
  | none =>
      have present := (table.absentOrder_eq_none_iff page).mp absent
      obtain ⟨frame, mapped⟩ := Option.isSome_iff_exists.mp present
      have single : stride table page = 1 := by
        simp [stride, skippedPages, absent]
      rw [xpmemVaddrToPteSize_of_pte (by rw [pageOf]; exact mapped), single]
      simp only [u64, pageSize, Prod.mk.injEq, Nat.cast_one, and_true]
      omega
  | some order =>
      obtain ⟨target, skips⟩ := skippedPages_of_absent absent
      have orderSmall : order ≤ 50 :=
        le_trans (PageTable.absentOrder_le absent) K.pgd_le
      have whole : stride table page = skippedPages table page :=
        max_eq_right skips
      have ending := skippedPages_inside table (by decide) inside
      rw [xpmemVaddrToPteSize_of_absent (by rw [pageOf]; exact absent)]
      simp only
      rw [skip_target (by omega), ← target, whole]
      have skipped :
          u64Sub ((page + skippedPages table page) % 2 ^ 52 * pageSize)
              (page * pageSize) / pageSize =
            skippedPages table page := by
        have proper : order < 52 := by omega
        have short : skippedPages table page ≤ 2 ^ order := by
          have := Nat.div_mul_le_self page (2 ^ order)
          have product :
              (page / 2 ^ order + 1) * 2 ^ order =
                page / 2 ^ order * 2 ^ order + 2 ^ order := by
            ring
          omega
        have power : 2 ^ order < 2 ^ 52 :=
          Nat.pow_lt_pow_right (by decide) proper
        unfold u64Sub pageSize
        omega
      rw [skipped]

/-- The walk, round by round. -/
theorem unpinWalk_succ
    (table : PageTable K) (fuel vaddr : Nat) {nPgs : Int}
    (pending : 0 < nPgs) :
    unpinWalk table (fuel + 1) vaddr nPgs =
      (unpinWalk table fuel (unpinRound table vaddr nPgs).1
          (unpinRound table vaddr nPgs).2).map
        (((table.pte (vaddr / pageSize)).map
          fun frame => (vaddr / pageSize, frame)).toList ++ ·) := by
  rw [unpinWalk, if_neg (not_le.mpr pending)]
  unfold unpinRound
  cases absent : table.absentOrder (vaddr / pageSize) with
  | none =>
      have present := (table.absentOrder_eq_none_iff _).mp absent
      obtain ⟨frame, mapped⟩ := Option.isSome_iff_exists.mp present
      rw [xpmemVaddrToPteSize_of_pte mapped, mapped]
      rfl
  | some order =>
      have unmapped : table.pte (vaddr / pageSize) = none :=
        PageTable.pte_eq_none_of_absent absent rfl
      rw [xpmemVaddrToPteSize_of_absent absent, unmapped]
      simp

/-! ## The pages of a range of addresses -/

/-- The `count` pages from `page` on, going round at the end of memory. -/
def ringPages (page count : Nat) : List Nat :=
  (List.range' page count).map (· % 2 ^ 52)

/-- The mapped ones of a list of pages. -/
def mappedAmong (table : PageTable K) (pages : List Nat) :
    List (Nat × Frame) :=
  pages.filterMap fun page => (table.pte page).map fun frame => (page, frame)

theorem mappedAmong_append
    (table : PageTable K) (first second : List Nat) :
    mappedAmong table (first ++ second) =
      mappedAmong table first ++ mappedAmong table second :=
  List.filterMap_append

theorem mappedAmong_singleton (table : PageTable K) (page : Nat) :
    mappedAmong table [page] =
      ((table.pte page).map fun frame => (page, frame)).toList := by
  rw [mappedAmong]
  cases mapped : table.pte page <;> simp [mapped]

theorem ringPages_add (page first second : Nat) :
    ringPages page (first + second) =
      ringPages page first ++ ringPages (page + first) second := by
  rw [ringPages, ringPages, ringPages, ← List.map_append,
    List.range'_append_1]

theorem ringPages_mod (page count : Nat) :
    ringPages (page % 2 ^ 52) count = ringPages page count := by
  simp only [ringPages, List.range'_eq_map_range, List.map_map]
  apply List.map_congr_left
  intro index _
  exact Nat.mod_add_mod page (2 ^ 52) index

theorem mem_ringPages {page count other : Nat} :
    other ∈ ringPages page count ↔
      ∃ index < count, other = (page + index) % 2 ^ 52 := by
  simp only [ringPages, List.range'_eq_map_range, List.map_map,
    List.mem_map, List.mem_range, Function.comp_apply]
  constructor
  · rintro ⟨index, below, rfl⟩
    exact ⟨index, below, rfl⟩
  · rintro ⟨index, below, rfl⟩
    exact ⟨index, below, rfl⟩

theorem ringPages_eq_range' {page count : Nat}
    (inside : page + count ≤ 2 ^ 52) :
    ringPages page count = List.range' page count := by
  rw [ringPages]
  conv_rhs => rw [← List.map_id (List.range' page count)]
  apply List.map_congr_left
  intro other member
  rw [List.mem_range'_1] at member
  exact Nat.mod_eq_of_lt (by omega)

/-- The pages of a round hold at most the page at which it starts. -/
theorem mappedAmong_stride
    (table : PageTable K) {page : Nat} (inside : page < 2 ^ 52)
    {count : Nat} (within : count ≤ stride table page)
    (positive : 0 < count) :
    mappedAmong table (ringPages page count) =
      ((table.pte page).map fun frame => (page, frame)).toList := by
  have ending := stride_inside table inside
  rw [ringPages_eq_range' (by omega)]
  obtain ⟨more, rfl⟩ : ∃ more, count = 1 + more := ⟨count - 1, by omega⟩
  have rest :
      mappedAmong table (List.range' (page + 1) more) = [] := by
    rw [mappedAmong, List.filterMap_eq_nil_iff]
    intro other member
    rw [List.mem_range'_1] at member
    unfold stride at within
    simp [pte_eq_none_of_skipped (show page ≤ other by omega)
      (show other < page + skippedPages table page by omega)]
  rw [← List.range'_append_1, mappedAmong_append, rest, List.append_nil,
    List.range'_one, mappedAmong_singleton]

/-! ## Behind the range -/

section

variable {table : PageTable K} {page count : Nat}

/--
The walk from a page on uses its count up without meeting a mapped page.
-/
inductive Barren (table : PageTable K) : Nat → Int → Prop where
  | done {page : Nat} {nPgs : Int} (used : nPgs ≤ 0) : Barren table page nPgs
  | skip {page : Nat} {nPgs : Int} (unmapped : table.pte page = none)
      (rest : Barren table ((page + stride table page) % 2 ^ 52)
        (int32 (nPgs - stride table page))) : Barren table page nPgs

/-- Where the walk leaves its range behind this page, it puts nothing. -/
def BarrenBehind (table : PageTable K) (page : Nat) : Prop :=
  Barren table ((page + stride table page) % 2 ^ 52)
    (int32 (1 - stride table page))

theorem stride_of_thins {next : PageTable K} (thins : table.Thins next)
    (page : Nat) : stride next page = stride table page := by
  have leaf {other : PageTable K}
      (low : (other.absentOrder page).getD 0 = 0) :
      stride other page = 1 := by
    unfold stride skippedPages
    cases absent : other.absentOrder page with
    | none => rfl
    | some order =>
        rw [absent] at low
        cases low
        simp
  rcases thins.absentOrder page with same | ⟨before, after⟩
  · unfold stride skippedPages
    rw [same]
  · rw [leaf before, leaf after]

theorem Barren.thins {next : PageTable K} (thins : table.Thins next)
    {nPgs : Int} (barren : Barren table page nPgs) :
    Barren next page nPgs := by
  induction barren with
  | done used => exact .done used
  | @skip page nPgs unmapped _ induction =>
      refine .skip (thins.pte_eq_none unmapped) ?_
      rwa [stride_of_thins thins]

theorem BarrenBehind.thins {next : PageTable K}
    (barren : BarrenBehind table page) (thins : table.Thins next) :
    BarrenBehind next page := by
  rw [BarrenBehind, stride_of_thins thins]
  exact Barren.thins thins barren

theorem barrenBehind_of_stride_le
    (short : stride table page ≤ 2 ^ 31 + 1) : BarrenBehind table page := by
  have forward : 1 ≤ stride table page := le_max_left _ _
  apply Barren.done
  rw [int32_of_bounds (by omega) (by omega)]
  omega

theorem barrenBehind_of_skippedPages_lt
    (short : skippedPages table page < 2 ^ 31) : BarrenBehind table page :=
  barrenBehind_of_stride_le ((stride_lt short).le.trans (by decide))

/-- With more rounds the walk ends where it did. -/
theorem unpinWalk_mono {fuel more vaddr : Nat} {nPgs : Int}
    {put : List (Nat × Frame)} (within : fuel ≤ more)
    (walked : unpinWalk table fuel vaddr nPgs = some put) :
    unpinWalk table more vaddr nPgs = some put := by
  induction fuel generalizing more vaddr nPgs put with
  | zero => cases walked
  | succ fuel induction =>
      obtain ⟨rounds, rfl⟩ : ∃ rounds, more = rounds + 1 :=
        ⟨more - 1, by omega⟩
      rcases le_or_gt nPgs 0 with used | pending
      · rw [unpinWalk, if_pos used] at walked ⊢
        exact walked
      · rw [unpinWalk_succ table _ _ pending] at walked ⊢
        obtain ⟨rest, later, same⟩ := Option.map_eq_some_iff.mp walked
        rw [induction (by omega) later, ← same]
        rfl

/-- A round, on a page and a count. -/
def walkRound (table : PageTable K) (head : Nat × Int) : Nat × Int :=
  ((head.1 + stride table head.1) % 2 ^ 52,
    int32 (head.2 - stride table head.1))

theorem unpinWalk_isSome_iff {fuel : Nat} {nPgs : Int}
    (inside : page < 2 ^ 52) :
    (unpinWalk table fuel (page * pageSize) nPgs).isSome = true ↔
      ∃ rounds < fuel, ((walkRound table)^[rounds] (page, nPgs)).2 ≤ 0 := by
  induction fuel generalizing page nPgs with
  | zero => simp [unpinWalk]
  | succ fuel induction =>
      rcases le_or_gt nPgs 0 with used | pending
      · rw [unpinWalk, if_pos used]
        simp only [Option.isSome_some, true_iff]
        exact ⟨0, Nat.succ_pos fuel, used⟩
      · rw [unpinWalk_succ table _ _ pending, unpinRound_eq table inside,
          Option.isSome_map, induction (Nat.mod_lt _ (by decide))]
        constructor
        · rintro ⟨rounds, below, used⟩
          exact ⟨rounds + 1, by omega, used⟩
        · rintro ⟨rounds, below, used⟩
          obtain ⟨later, rfl⟩ : ∃ later, rounds = later + 1 := by
            refine ⟨rounds - 1, (Nat.succ_pred fun first => ?_).symm⟩
            subst first
            exact absurd used (not_le.mpr pending)
          exact ⟨later, by omega, used⟩

/-- A walk can come to fewer than `walkRounds` pages and counts. -/
theorem exists_walkHeads :
    ∃ heads : Finset (Nat × Int), heads.card < walkRounds ∧
      ∀ head, head ∈ heads ↔
        head.1 < 2 ^ 52 ∧ -2 ^ 31 ≤ head.2 ∧ head.2 < 2 ^ 31 := by
  refine ⟨Finset.range (2 ^ 52) ×ˢ (Finset.range (2 ^ 32)).image
    fun value : Nat => (value : Int) - 2 ^ 31, ?_, fun head => ?_⟩
  · rw [Finset.card_product, Finset.card_range]
    have values := (Finset.range (2 ^ 32)).card_image_le
      (f := fun value : Nat => (value : Int) - 2 ^ 31)
    rw [Finset.card_range] at values
    unfold walkRounds
    omega
  · rw [Finset.mem_product, Finset.mem_range, Finset.mem_image]
    refine and_congr_right fun _ => ⟨?_, fun bounds => ?_⟩
    · rintro ⟨value, below, equal⟩
      rw [Finset.mem_range] at below
      omega
    · exact ⟨(head.2 + 2 ^ 31).toNat, by rw [Finset.mem_range]; omega,
        by omega⟩

/-- A walk that ends at all ends in `walkRounds` rounds. -/
theorem unpinWalk_walkRounds {fuel : Nat} {nPgs : Int}
    {put : List (Nat × Frame)} (inside : page < 2 ^ 52)
    (low : -2 ^ 31 ≤ nPgs) (high : nPgs < 2 ^ 31)
    (walked : unpinWalk table fuel (page * pageSize) nPgs = some put) :
    unpinWalk table walkRounds (page * pageSize) nPgs = some put := by
  obtain ⟨rounds, _, used⟩ := (unpinWalk_isSome_iff inside).mp
    (Option.isSome_of_mem walked)
  obtain ⟨heads, card, mem⟩ := exists_walkHeads
  have first : (page, nPgs) ∈ heads := (mem _).mpr ⟨inside, low, high⟩
  have closed : ∀ head ∈ heads, walkRound table head ∈ heads := by
    intro head _
    rw [mem]
    simp only [walkRound, int32]
    omega
  obtain ⟨few, bound, ended⟩ := @exists_rounds_le_card _ _
    (fun head => head.2 ≤ 0) _ _ first closed ⟨rounds, used⟩
  have early : few < walkRounds := lt_of_le_of_lt bound card
  obtain ⟨result, again⟩ := Option.isSome_iff_exists.mp
    ((@unpinWalk_isSome_iff K table page walkRounds nPgs inside).mpr
      ⟨few, early, ended⟩)
  rcases Nat.le_total fuel walkRounds with within | beyond
  · exact unpinWalk_mono within walked
  · rw [again, ← unpinWalk_mono beyond again, walked]

theorem Barren.walk {nPgs : Int} (barren : Barren table page nPgs)
    (inside : page < 2 ^ 52) :
    ∃ fuel, unpinWalk table fuel (page * pageSize) nPgs = some [] := by
  induction barren with
  | done used => exact ⟨1, by rw [unpinWalk, if_pos used]⟩
  | @skip page nPgs unmapped rest induction =>
      rcases le_or_gt nPgs 0 with used | pending
      · exact ⟨1, by rw [unpinWalk, if_pos used]⟩
      · obtain ⟨fuel, walked⟩ := induction (Nat.mod_lt _ (by decide))
        refine ⟨fuel + 1, ?_⟩
        rw [unpinWalk_succ table _ _ pending, unpinRound_eq table inside,
          walked, Nat.mul_div_cancel _ (by decide), unmapped]
        rfl

theorem Barren.of_walk {fuel : Nat} {nPgs : Int} (inside : page < 2 ^ 52)
    (walked : unpinWalk table fuel (page * pageSize) nPgs = some []) :
    Barren table page nPgs := by
  induction fuel generalizing page nPgs with
  | zero => cases walked
  | succ fuel induction =>
      rcases le_or_gt nPgs 0 with used | pending
      · exact .done used
      · rw [unpinWalk_succ table _ _ pending, unpinRound_eq table inside,
          Nat.mul_div_cancel _ (by decide)] at walked
        obtain ⟨rest, later, same⟩ := Option.map_eq_some_iff.mp walked
        obtain ⟨first, nothing⟩ := List.append_eq_nil_iff.mp same
        subst nothing
        refine .skip ?_ (induction (Nat.mod_lt _ (by decide)) later)
        simpa using first

/--
The walk finds the mapped pages of its range, and then what it finds behind
the last page of the range.
-/
theorem unpinWalk_eq_append (positive : 0 < count)
    (countSmall : count < 2 ^ 31) (inside : page < 2 ^ 52) :
    ∃ rounds ≤ count, ∀ fuel,
      unpinWalk table (fuel + rounds) (page * pageSize) count =
        (unpinWalk table fuel
          (((page + count - 1) % 2 ^ 52 +
              stride table ((page + count - 1) % 2 ^ 52)) % 2 ^ 52 *
            pageSize)
          (int32 (1 - stride table ((page + count - 1) % 2 ^ 52)))).map
            (mappedAmong table (ringPages page count) ++ ·) := by
  -- Each round takes `stride` pages off the front of the range.
  induction count using Nat.strong_induction_on generalizing page with
  | _ count induction =>
      have forward : 0 < stride table page :=
        lt_of_lt_of_le Nat.one_pos (le_max_left _ _)
      have ending := stride_inside table inside
      have pageOf := Nat.mul_div_cancel page (show 0 < pageSize by decide)
      rcases Nat.lt_or_ge (stride table page) count with within | beyond
      · have left : (count : Int) - stride table page =
            ((count - stride table page : Nat) : Int) := by
          omega
        obtain ⟨rounds, few, walked⟩ := @induction
          (count - stride table page) (by omega)
          ((page + stride table page) % 2 ^ 52) (by omega) (by omega)
          (Nat.mod_lt _ (by decide))
        have last : ((page + stride table page) % 2 ^ 52 +
              (count - stride table page) - 1) % 2 ^ 52 =
            (page + count - 1) % 2 ^ 52 := by
          omega
        have parts := ringPages_add page (stride table page)
          (count - stride table page)
        rw [Nat.add_sub_cancel' within.le] at parts
        refine ⟨rounds + 1, by omega, fun fuel => ?_⟩
        rw [← Nat.add_assoc, unpinWalk_succ table _ _ (by omega), pageOf,
          unpinRound_eq table inside, left,
          int32_of_bounds (by omega) (by omega), walked fuel, last,
          ringPages_mod, parts, mappedAmong_append,
          mappedAmong_stride table inside le_rfl forward, Option.map_map]
        congr 1
        funext rest
        simp
      · have leaves := stride_of_leaving
          (show page < page + count by omega)
          (show page + count ≤ page + stride table page by omega)
        have left : (count : Int) - stride table page =
            1 - stride table (page + count - 1) := by
          omega
        refine ⟨1, positive, fun fuel => ?_⟩
        rw [unpinWalk_succ table _ _ (by omega), pageOf,
          unpinRound_eq table inside,
          mappedAmong_stride table inside beyond positive,
          Nat.mod_eq_of_lt (show page + count - 1 < 2 ^ 52 by omega),
          leaves, left]

/--
The walk finds exactly the mapped pages of its range, when it finds nothing
behind the last of them.
-/
theorem unpinWalk_eq_mappedAmong_iff (positive : 0 < count)
    (countSmall : count < 2 ^ 31) (inside : page < 2 ^ 52) :
    unpinWalk table walkRounds (page * pageSize) count =
        some (mappedAmong table (ringPages page count)) ↔
      BarrenBehind table ((page + count - 1) % 2 ^ 52) := by
  obtain ⟨rounds, few, walked⟩ :=
    @unpinWalk_eq_append K table page count positive countSmall inside
  constructor
  · intro whole
    have more := unpinWalk_mono (Nat.le_add_right walkRounds rounds) whole
    rw [walked] at more
    obtain ⟨rest, later, same⟩ := Option.map_eq_some_iff.mp more
    have nothing : rest = [] := List.append_right_eq_self.mp same
    subst nothing
    exact .of_walk (Nat.mod_lt _ (by decide)) later
  · intro barren
    obtain ⟨fuel, later⟩ := barren.walk (Nat.mod_lt _ (by decide))
    refine @unpinWalk_walkRounds K table page (fuel + rounds) count _ inside
      (by omega) (by omega) ?_
    rw [walked, later]
    simp

theorem unpinWalk_of_used {vaddr : Nat} {nPgs : Int} (used : nPgs ≤ 0) :
    unpinWalk table walkRounds vaddr nPgs = some [] := by
  obtain ⟨rounds, many⟩ : ∃ rounds, walkRounds = rounds + 1 :=
    ⟨2 ^ 96 - 1, by decide⟩
  rw [many, unpinWalk, if_pos used]

theorem unpinWalk_eq_mappedAmong (countSmall : count < 2 ^ 31)
    (inside : page < 2 ^ 52)
    (barren : 0 < count →
      BarrenBehind table ((page + count - 1) % 2 ^ 52)) :
    unpinWalk table walkRounds (page * pageSize) count =
      some (mappedAmong table (ringPages page count)) := by
  rcases Nat.eq_zero_or_pos count with empty | positive
  · subst empty
    exact unpinWalk_of_used le_rfl
  · exact (unpinWalk_eq_mappedAmong_iff positive countSmall inside).mpr
      (barren positive)

theorem unpinWalk_eq_mappedPages (countSmall : count < 2 ^ 31)
    (inside : page + count ≤ 2 ^ 50)
    (barren : 0 < count → BarrenBehind table (page + count - 1)) :
    unpinWalk table walkRounds (page * pageSize) count =
      some (mappedPages table page count) := by
  rw [unpinWalk_eq_mappedAmong countSmall (by omega),
    ringPages_eq_range' (by omega)]
  · rfl
  · rwa [Nat.mod_eq_of_lt (by omega)]

end

end Xpmem.Driver
