import Xpmem.Objects.MemorySteps

/-!
# The actions operations are made of

An operation of the driver is a sequence of small actions: it takes and drops
references, links and unlinks objects, changes areas and leaves.  `Act` lists
all of them, with the conditions under which the driver and the kernel take
them and with the tokens they leave and settle; `Reaches` is their closure.
An invariant is proved once for every action and then holds of everything an
operation reaches.

A tidy operation loses no attached area to a foreign unmap, leaks no pin, and
walks only over page tables whose absent entries an `int` can count.
-/

namespace Xpmem.Driver

open Xpmem.Foundation Xpmem.Kernel Xpmem.Objects

variable {K : Platform}

namespace State

/-- The address space an attachment shows a part of. -/
def sourceMm (s : State K) (att : AttPtr) : MmPtr :=
  (s.tg (s.seg (s.segOf att)).tg).mm

/-- The page of it that a page of the attachment shows. -/
def sourcePage (s : State K) (att : AttPtr) (index : Nat) : Nat :=
  (s.att att).vaddr / pageSize + index

/-- What a page of an attachment shows is this frame, in an ordinary area. -/
def Shows (s : State K) (att : AttPtr) (index : Nat) (frame : Frame) :
    Prop :=
  s.pte (s.sourceMm att) (s.sourcePage att index) = some frame ∧
    ∃ area ∈ s.vmas (s.sourceMm att), area.payload.xpmemOps = false ∧
      area.Contains (s.sourcePage att index * pageSize)

/-- The leaf at a page of an attachment. -/
def leaf (s : State K) (att : AttPtr) (index : Nat) : Option Frame :=
  s.pte (s.att att).mm ((s.place att).page + index)

/-- The frames of `[start, stop)` show in no attachment. -/
def Cleared (s : State K) (held : Held) (mm : MmPtr) (start stop : Nat) :
    Prop :=
  ∀ att, s.Bound held att → s.Straight (s.segOf att) →
    s.sourceMm att = mm → ∀ index < (s.place att).pages,
      start ≤ s.sourcePage att index * pageSize →
      s.sourcePage att index * pageSize < stop → s.leaf att index = none

/-- The page lies in an ordinary area. -/
def Ordinary (s : State K) (mm : MmPtr) (page : Nat) : Prop :=
  ∃ area ∈ s.vmas mm, area.payload.xpmemOps = false ∧
    area.Contains (page * pageSize)

/-- The counters of a page that was pinned for a segment of the group. -/
def countPin (s : State K) (group : TgPtr) (frame : Frame) : State K :=
  { s.modTg group (fun tg =>
      { tg with nPinned := int32 (tg.nPinned + 1) }) with
    pageRefs := Function.update s.pageRefs frame (s.pageRefs frame + 1)
    myPart :=
      { s.myPart with nPinned := int32 (s.myPart.nPinned + 1) } }

/-- The walk of `xpmem_unpin_pages` over pages of an attachment. -/
def walk (s : State K) (att : AttPtr) (first count : Nat) :
    Option (List (Nat × Frame)) :=
  unpinWalk (s.mm (s.att att).mm).table walkRounds (first * pageSize)
    (int32 count)

end State

/-- A walk over the pages meets no absent entry that is too long. -/
def Walkable (table : PageTable K) (page count : Nat) : Prop :=
  count < 2 ^ 31 ∧ ∀ other, page ≤ other → other < page + count →
    skippedPages table other < 2 ^ 31

/-- The actions of the driver and the kernel. -/
inductive Act (tidy : Prop) :
    State K → Held → State K → Held → Prop where
  | minor {s t : State K} {held : Held} (same : t.main = s.main) :
      Act tidy s held t held
  | ref {s : State K} {held : Held} (object : Ref)
      (live : s.allocated object = true) :
      Act tidy s held (s.ref object) (.ref object ::ₘ held)
  | deref {s : State K} {held : Held} (object : Ref) :
      Act tidy s (.ref object ::ₘ held) (s.deref object) held
  | flag {s : State K} {held : Held} (object : Ref)
      (linked : s.graph.Linked object)
      (live : s.graph.destroying object = false) :
      Act tidy s held (s.flag object true) (.closing object ::ₘ held)
  | unflag {s : State K} {held : Held} (att : AttPtr) :
      Act tidy s (.closing (.att att) ::ₘ held) (s.flag (.att att) false)
        held
  | openTg {s : State K} {held : Held} {tgid : Pid} {mm : MmPtr}
      (cred : Cred) (running : s.proc tgid = .running mm)
      (alone : ∀ group, s.graph.Linked (.tg group) →
        (s.tg group).tgid ≠ tgid) :
      Act tidy s held (linkTg s tgid mm cred) held
  | makeSeg {s : State K} {held : Held} {group : TgPtr} {vaddr size : Nat}
      (segid : BitVec 64) (permitType : BitVec 32)
      (permitValue : BitVec 64) (linked : s.graph.Linked (.tg group))
      (live : (s.tg group).destroyed = false)
      (range : SegRange K vaddr size) :
      Act tidy s held
        (linkSeg s group segid vaddr size permitType permitValue) held
  | getAp {s : State K} {held : Held} {seg : SegPtr} {group : TgPtr}
      (apid : BitVec 64) (mode : BitVec 32)
      (linked : s.graph.Linked (.tg group))
      (live : (s.tg group).destroyed = false) :
      Act tidy s (.ref (.seg seg) ::ₘ .ref (.tg (s.seg seg).tg) ::ₘ held)
        (linkAp s seg group apid mode) held
  | linkAtt {s : State K} {held : Held} {permit : ApPtr} {mm : MmPtr}
      (segVaddr size : Nat) (linked : s.graph.Linked (.ap permit))
      (live : (s.ap permit).destroyed = false)
      (home : (s.tg (s.ap permit).tg).mm = mm) :
      Act tidy s held (attachLink s permit mm segVaddr size)
        (.ref (.att s.nextAtt) ::ₘ .bare s.nextAtt ::ₘ held)
  | unlinkAtt {s : State K} {held : Held} (att : AttPtr) :
      Act tidy s (.closing (.att att) ::ₘ .bare att ::ₘ held)
        (unlinkAtt s (s.att att).ap att) (.ref (.att att) ::ₘ held)
  | unlinkAp {s : State K} {held : Held} {permit : ApPtr}
      (empty : (s.ap permit).attList = []) :
      Act tidy s (.closing (.ap permit) ::ₘ held)
        (unlinkAp s (s.ap permit).tg permit)
        (.ref (.seg (s.ap permit).seg) ::ₘ
          .ref (.tg (s.seg (s.ap permit).seg).tg) ::ₘ
            .ref (.ap permit) ::ₘ held)
  | unlinkSeg {s : State K} {held : Held} {seg : SegPtr}
      (cleared : s.Straight seg → ∀ att, s.Bound held att →
        s.segOf att = seg → (s.place att).Unmapped s.pte) :
      Act tidy s (.closing (.seg seg) ::ₘ held)
        (unlinkSeg s (s.seg seg).tg seg) (.ref (.seg seg) ::ₘ held)
  | finishTg {s : State K} {held : Held} {group : TgPtr}
      (childless : s.graph.Childless (.tg group))
      (leaving : .leaving (s.tg group).tgid ∈ held) :
      Act tidy s (.closing (.tg group) ::ₘ held)
        (s.modTg group fun tg => { tg with destroyed := true }) held
  | unhash {s : State K} {held : Held} {group : TgPtr}
      (linked : s.graph.Linked (.tg group))
      (destroyed : (s.tg group).destroyed = true)
      (absent : .closing (.tg group) ∉ held)
      (staying : .leaving (s.tg group).tgid ∉ held) :
      Act tidy s held (unhashTg s group) (.ref (.tg group) ::ₘ held)
  | bind {s : State K} {held : Held} {att : AttPtr} {mm : MmPtr}
      {area : Vma} (linked : s.graph.Linked (.att att))
      (alone : .bare att ∉ held) (home : (s.att att).mm = mm)
      (member : area ∈ s.vmas mm)
      (unique : ∀ other ∈ s.vmas mm,
        other.payload.vma = area.payload.vma → other = area)
      (free : area.payload.privateData = none)
      (size : area.stop = area.start + (s.att att).atSize)
      (unmapped : (bindPlace s att area).Unmapped s.pte)
      (window : Window (s.seg (s.segOf att)).vaddr
        (s.seg (s.segOf att)).size (s.att att).vaddr (s.att att).atSize)
      (walkable : tidy → Walkable (s.mm mm).table
        (bindPlace s att area).page (bindPlace s att area).pages) :
      Act tidy s (.bare att ::ₘ held) (attachBind s mm att area.start area)
        held
  | untie {s : State K} {held : Held} {att : AttPtr} {area : Vma}
      {put : List (Nat × Frame)} (present : s.Bound held att)
      (member : area ∈ s.vmas (s.att att).mm)
      (carries : area.payload.privateData = some att)
      (walked : s.walk att (s.place att).page (s.place att).pages =
        some put) :
      Act tidy s held
        ((putPages s (s.segOf att) put).untie att area.payload.vma)
        (.bare att ::ₘ held)
  | clear {s : State K} {held : Held} {att : AttPtr} {first count : Nat}
      {put : List (Nat × Frame)} (present : s.Bound held att)
      (low : (s.place att).page ≤ first)
      (high : first + count ≤ (s.place att).page + (s.place att).pages)
      (walked : s.walk att first count = some put) :
      Act tidy s held
        ((putPages s (s.segOf att) put).setTable (s.att att).mm
          ((s.mm (s.att att).mm).table.clear first (first + count))) held
  | stray {s : State K} {held : Held} (seg : SegPtr)
      (put : List (Nat × Frame)) (untidy : ¬ tidy) :
      Act tidy s held (putPages s seg put) held
  | setValid {s : State K} {held : Held} (att : AttPtr) (value : Bool)
      (unmapped : value = false → s.Bound held att →
        (s.place att).Unmapped s.pte) :
      Act tidy s held (s.setValid att value) held
  | pin {s : State K} {held : Held} {group : TgPtr} (frame : Frame)
      (used : s.graph.Used (.tg group)) :
      Act tidy s held (s.countPin group frame) (.pin group frame ::ₘ held)
  | putBack {s : State K} {held : Held} (seg : SegPtr) (page : Nat)
      (frame : Frame) :
      Act tidy s (.pin (s.seg seg).tg frame ::ₘ held)
        (putPages s seg [(page, frame)]) held
  | leak {s : State K} {held : Held} (group : TgPtr) (frame : Frame)
      (untidy : ¬ tidy) :
      Act tidy s (.pin group frame ::ₘ held) s held
  | populate {s : State K} {held : Held} {mm : MmPtr} {page : Nat}
      {frame : Frame} (ordinary : s.Ordinary mm page)
      (absent : s.pte mm page = none) (positive : frame ≠ 0) :
      Act tidy s held
        (s.setTable mm ((s.mm mm).table.map page frame)) held
  | insert {s : State K} {held : Held} {att : AttPtr} {index : Nat}
      {frame : Frame} (present : s.Bound held att)
      (inside : index < (s.place att).pages)
      (absent : s.leaf att index = none) (positive : frame ≠ 0)
      (valid : s.valid att = true)
      (live : (s.seg (s.segOf att)).destroyed = false)
      (shows : s.Straight (s.segOf att) → s.Shows att index frame) :
      Act tidy s (.pin (s.seg (s.segOf att)).tg frame ::ₘ held)
        (s.setTable (s.att att).mm
          ((s.mm (s.att att).mm).table.map ((s.place att).page + index)
            frame)) held
  | mismatch {s : State K} {held : Held} {att : AttPtr} {index : Nat}
      {frame old : Frame} (present : s.Bound held att)
      (inside : index < (s.place att).pages)
      (leaf : s.leaf att index = some old) (distinct : old ≠ frame)
      (shows : s.Straight (s.segOf att) → s.Shows att index frame)
      (fresh : ∀ mm start stop, .stale mm start stop ∉ held) :
      Act tidy s held (logMessage s (.pfnMismatch old frame)) held
  | assign {s : State K} {held : Held} {mm : MmPtr} {start stop : Nat}
      {frames : Nat → Option Frame} {area : Vma}
      (member : area ∈ s.vmas mm)
      (ordinary : area.payload.xpmemOps = false)
      (low : area.start ≤ start) (high : stop ≤ area.stop)
      (startAligned : start % pageSize = 0)
      (stopAligned : stop % pageSize = 0)
      (positive : ∀ page ∈ pagesOf start stop, frames page ≠ some 0) :
      Act tidy s held
        (s.setTable mm
          ((s.mm mm).table.assign frames (pagesOf start stop)))
        (.stale mm start stop ::ₘ held)
  | freeTable {s : State K} {held : Held} (mm : MmPtr) (index : Nat)
      (level : PageTable.Level)
      (walkable : tidy → ∀ att, s.Bound held att → (s.att att).mm = mm →
        Walkable ((s.mm mm).table.free index level) (s.place att).page
          (s.place att).pages) :
      Act tidy s held
        (s.setTable mm ((s.mm mm).table.free index level)) held
  | addVma {s : State K} {held : Held} {mm : MmPtr} {start stop : Nat}
      (proper : start < stop) (xpmemOps : Bool)
      (startAligned : start % pageSize = 0)
      (stopAligned : stop % pageSize = 0) (below : stop ≤ K.taskSize)
      (free : (s.mm mm).vmas.Free start stop) :
      Act tidy s held (addVma s mm start stop proper xpmemOps) held
  | splitVma {s : State K} {held : Held} {mm : MmPtr}
      {lower upper : VmaInfo → VmaInfo} {addr : Nat}
      (aligned : addr % pageSize = 0) (outside : Outside s mm addr)
      (lowered : Renews s lower) (raised : Renews s upper) :
      Act tidy s held (splitVma s mm lower upper addr) held
  | unmap {s : State K} {held : Held} {mm : MmPtr} {start stop : Nat}
      (proper : start < stop) (startAligned : start % pageSize = 0)
      (stopAligned : stop % pageSize = 0)
      (spared : Spared s mm start stop)
      (kept : tidy → lostAtts s mm start stop = []) :
      Act tidy s held (unmapRange s mm start stop proper)
        (unmapHeld s mm start stop held)
  | settle {s : State K} {held : Held} {mm : MmPtr} {start stop : Nat}
      (cleared : s.Cleared held mm start stop) :
      Act tidy s (.stale mm start stop ::ₘ held) s held
  | wipe {s : State K} {held : Held} {mm : MmPtr}
      (none : ∀ att, s.Bound held att → (s.att att).mm ≠ mm)
      (removed : ∀ seg, s.graph.Linked (.seg seg) →
        (s.tg (s.seg seg).tg).mm ≠ mm) :
      Act tidy s held (s.setSpace mm .empty .empty s.nextVma) held
  | spawn {s : State K} {held : Held} {tgid : Pid}
      (absent : s.proc tgid = .absent) (staying : .leaving tgid ∉ held) :
      Act tidy s held (spawnProc s tgid) held
  | leave {s : State K} {held : Held} (tgid : Pid) :
      Act tidy s held s (.leaving tgid ::ₘ held)
  | hush {s : State K} {held : Held} {mm : MmPtr}
      (ended : ∀ group, s.graph.Linked (.tg group) →
        (s.tg group).mm = mm → (s.tg group).destroyed = true) :
      Act tidy s held (s.hush mm) held
  | exiting {s : State K} {held : Held} {tgid : Pid} {mm : MmPtr}
      (running : s.proc tgid = .running mm)
      (quiet : (s.mm mm).notifiers = []) :
      Act tidy s (.leaving tgid ::ₘ held) (s.setProc tgid .exiting) held
  | gone {s : State K} {held : Held} {tgid : Pid}
      (alone : ∀ group, s.graph.Linked (.tg group) →
        (s.tg group).tgid ≠ tgid) :
      Act tidy s held (s.setProc tgid .absent) held

/-! ## Actions keep states well-formed -/

variable {tidy : Prop} {s t : State K} {held more : Held}

theorem shape_putPages (s : State K) (seg : SegPtr)
    (put : List (Nat × Frame)) : (putPages s seg put).shape = s.shape := by
  rw [putPages_eq]
  change
    (s.modTg (s.seg seg).tg fun tg =>
      { tg with nPinned := int32 (tg.nPinned - put.length) }).shape =
        s.shape
  exact s.shape_modTg _ rfl

theorem shape_countPin (s : State K) (group : TgPtr) (frame : Frame) :
    (s.countPin group frame).shape = s.shape := by
  change (s.modTg group fun tg =>
    { tg with nPinned := int32 (tg.nPinned + 1) }).shape = s.shape
  exact s.shape_modTg group rfl

theorem WellFormed.putPages (formed : WellFormed s held) (seg : SegPtr)
    (put : List (Nat × Frame)) :
    WellFormed (putPages s seg put) held := by
  refine formed.of_shape (shape_putPages s seg put) ?_ ?_
  · rw [putPages_eq]
    funext object
    cases object <;>
      simp [State.refcnt, State.modTg, Function.update_apply]
    grind
  · rw [putPages_eq]
    funext object
    cases object <;>
      simp [State.allocated, State.modTg, Function.update_apply]
    grind

theorem WellFormed.pin (formed : WellFormed s held) (group : TgPtr)
    (frame : Frame) :
    WellFormed (s.countPin group frame) held := by
  refine formed.of_shape (shape_countPin s group frame) ?_ ?_
  · funext object
    cases object <;>
      simp [State.countPin, State.refcnt, State.modTg,
        Function.update_apply]
    grind
  · funext object
    cases object <;>
      simp [State.countPin, State.allocated, State.modTg,
        Function.update_apply]
    grind

/-- Leaves in an ordinary area may change as they like. -/
theorem allowed_of_ordinary (formed : WellFormed s held) {mm : MmPtr}
    {page : Nat} {frame : Frame} (ordinary : s.Ordinary mm page)
    (positive : frame ≠ 0) : Allowed s mm page frame := by
  obtain ⟨area, member, plain, contains⟩ := ordinary
  refine Or.inr ⟨positive, area, member, contains, ?_⟩
  intro att carries
  have ops := (formed.laid.placed.attached mm area member att carries).2.2.ops
  rw [plain] at ops
  cases ops

theorem WellFormed.putUntie (formed : WellFormed s held) {att : AttPtr}
    {area : Vma} (put : List (Nat × Frame)) (present : s.Bound held att)
    (member : area ∈ s.vmas (s.att att).mm)
    (carries : area.payload.privateData = some att) :
    WellFormed
      ((Driver.putPages s (s.segOf att) put).untie att area.payload.vma)
      (.bare att ::ₘ held) := by
  have graph := State.graph_eq_of_shape
    (shape_putPages s (s.segOf att) put)
  refine (formed.putPages (s.segOf att) put).untie ?_ ?_ carries
  · rw [State.Bound, graph]
    exact present
  · rw [State.vmas, putPages_mm, putPages_att]
    exact member

theorem WellFormed.putClear (formed : WellFormed s held) (seg : SegPtr)
    (put : List (Nat × Frame)) (mm : MmPtr) (first last : Nat) :
    WellFormed
      ((Driver.putPages s seg put).setTable mm
        ((s.mm mm).table.clear first last)) held := by
  refine (formed.putPages seg put).retable ?_
  intro page frame leaf
  rw [PageTable.clear_pte] at leaf
  split at leaf
  · cases leaf
  · left
    rw [State.pte, putPages_mm]
    exact leaf

theorem WellFormed.populate (formed : WellFormed s held) {mm : MmPtr}
    {page : Nat} {frame : Frame} (ordinary : s.Ordinary mm page)
    (positive : frame ≠ 0) :
    WellFormed (s.setTable mm ((s.mm mm).table.map page frame)) held := by
  refine formed.retable ?_
  intro other value leaf
  rw [PageTable.map_pte] at leaf
  split at leaf
  · rename_i equal
    cases leaf
    exact equal ▸ allowed_of_ordinary formed ordinary positive
  · exact Or.inl leaf

theorem WellFormed.insert (formed : WellFormed s held) {att : AttPtr}
    {index : Nat} {frame : Frame} (present : s.Bound held att)
    (inside : index < (s.place att).pages) (positive : frame ≠ 0)
    (valid : s.valid att = true)
    (live : (s.seg (s.segOf att)).destroyed = false) :
    WellFormed
      (s.setTable (s.att att).mm
        ((s.mm (s.att att).mm).table.map ((s.place att).page + index)
          frame)) held := by
  refine formed.retable ?_
  intro other value leaf
  rw [PageTable.map_pte] at leaf
  split at leaf
  · rename_i equal
    cases leaf
    obtain ⟨area, member, occupies, contains⟩ :=
      formed.laid.placed.contains present inside
    refine Or.inr ⟨positive, area, member, equal ▸ contains, ?_⟩
    intro owner carries
    rw [occupies.privateData] at carries
    cases carries
    exact ⟨valid, live⟩
  · exact Or.inl leaf

theorem mem_pagesOf_iff {start stop page : Nat} :
    page ∈ pagesOf start stop ↔
      start / pageSize ≤ page ∧ page < stop / pageSize := by
  rw [pagesOf, List.mem_range'_1]
  omega

theorem start_le_of_mem_pagesOf {start stop page : Nat}
    (startAligned : start % pageSize = 0)
    (stopAligned : stop % pageSize = 0) (listed : page ∈ pagesOf start stop) :
    start ≤ page * pageSize ∧ page * pageSize < stop := by
  rw [mem_pagesOf_iff] at listed
  unfold pageSize at *
  omega

theorem WellFormed.assign (formed : WellFormed s held) {mm : MmPtr}
    {start stop : Nat} {frames : Nat → Option Frame} {area : Vma}
    (member : area ∈ s.vmas mm) (ordinary : area.payload.xpmemOps = false)
    (low : area.start ≤ start) (high : stop ≤ area.stop)
    (startAligned : start % pageSize = 0)
    (stopAligned : stop % pageSize = 0)
    (positive : ∀ page ∈ pagesOf start stop, frames page ≠ some 0) :
    WellFormed
      (s.setTable mm
        ((s.mm mm).table.assign frames (pagesOf start stop))) held := by
  refine formed.retable ?_
  intro page frame leaf
  rw [PageTable.assign_pte] at leaf
  split at leaf
  · rename_i listed
    refine allowed_of_ordinary formed ⟨area, member, ordinary, ?_⟩ ?_
    · have within :=
        start_le_of_mem_pagesOf startAligned stopAligned listed
      exact ⟨low.trans within.1, within.2.trans_le high⟩
    · intro zero
      exact positive page listed (zero ▸ leaf)
  · exact Or.inl leaf

theorem WellFormed.freeTable (formed : WellFormed s held) (mm : MmPtr)
    (index : Nat) (level : PageTable.Level) :
    WellFormed (s.setTable mm ((s.mm mm).table.free index level)) held := by
  refine formed.retable ?_
  intro page frame leaf
  rw [PageTable.free_pte] at leaf
  exact Or.inl leaf

theorem WellFormed.leave (formed : WellFormed s held) (tgid : Pid) :
    WellFormed s (.leaving tgid ::ₘ held) :=
  formed.retoken ⟨by simp, by simp, fun _ => Multiset.mem_cons_of_mem⟩
    (by simp)

theorem Act.formed (act : Act tidy s held t more)
    (formed : WellFormed s held) : WellFormed t more := by
  have free {held : Held} {token : Token}
      (other : (∀ object, .ref object ≠ token) ∧
        (∀ object, .closing object ≠ token) ∧
        (∀ tgid, .leaving tgid ≠ token)) :
      SameTokens held (token ::ₘ held) ∧
        SameTokens (token ::ₘ held) held := by
    constructor <;> constructor <;>
      simp [other.1, other.2.1, other.2.2]
  cases act with
  | minor same => exact formed.minor same
  | ref object live => exact formed.ref live
  | deref object => exact formed.deref
  | flag object linked live => exact formed.flag linked live
  | unflag att => exact formed.unflag
  | openTg cred running alone => exact formed.openTg cred running alone
  | makeSeg segid permitType permitValue linked live range =>
      exact formed.makeSeg segid permitType permitValue linked live range
  | getAp apid mode linked live => exact formed.getAp apid mode linked live
  | linkAtt segVaddr size linked live home =>
      exact formed.linkAtt segVaddr size linked live home
  | unlinkAtt att => exact formed.unlinkBare
  | unlinkAp empty => exact formed.unlinkAp empty
  | unlinkSeg cleared => exact formed.unlinkSeg cleared
  | finishTg childless leaving => exact formed.finishTg childless leaving
  | unhash linked destroyed absent staying =>
      exact formed.unhash linked destroyed absent staying
  | bind linked alone home member unique free size unmapped window _ =>
      exact formed.attachBind linked alone home member unique free size
        unmapped window
  | untie present member carries walked =>
      exact formed.putUntie _ present member carries
  | clear present low high walked => exact formed.putClear _ _ _ _ _
  | stray seg put untidy => exact formed.putPages seg put
  | setValid att value unmapped => exact formed.setValid unmapped
  | @pin _ group frame used =>
      exact (formed.pin group frame).retoken (free (by simp)).1 (by simp)
  | putBack seg page frame =>
      exact (formed.putPages seg _).retoken (free (by simp)).2 (by simp)
  | leak group frame untidy =>
      exact formed.retoken (free (by simp)).2 (by simp)
  | populate ordinary absent positive =>
      exact formed.populate ordinary positive
  | insert present inside absent positive valid live shows =>
      exact (formed.retoken (free (by simp)).2 (by simp)).insert
        (by simpa [State.Bound] using present) inside positive valid live
  | mismatch => exact formed.of_shape rfl rfl rfl
  | assign member ordinary low high startAligned stopAligned positive =>
      exact (formed.assign member ordinary low high startAligned
        stopAligned positive).retoken (free (by simp)).1 (by simp)
  | freeTable mm index level walkable =>
      exact formed.freeTable mm index level
  | addVma proper xpmemOps startAligned stopAligned below free =>
      exact formed.addVma proper xpmemOps startAligned stopAligned below
        free
  | splitVma aligned outside lowered raised =>
      exact formed.splitVma aligned outside lowered raised
  | unmap proper startAligned stopAligned spared kept =>
      exact formed.unmapRange proper startAligned stopAligned spared
  | settle cleared => exact formed.retoken (free (by simp)).2 (by simp)
  | wipe none removed => exact formed.wipe none
  | spawn absent staying => exact formed.spawn absent staying
  | leave tgid => exact formed.leave tgid
  | hush ended => exact formed.hush ended
  | exiting running quiet => exact formed.exiting running quiet
  | gone alone => exact formed.gone alone

/-! ## Sequences of actions -/

/-- Actions lead from a well-formed state to another one. -/
inductive Reaches (tidy : Prop) (origin : State K) (first : Held) :
    State K → Held → Prop where
  | here (formed : WellFormed origin first) :
      Reaches tidy origin first origin first
  | act {s t : State K} {held more : Held}
      (reaches : Reaches tidy origin first s held)
      (act : Act tidy s held t more) :
      Reaches tidy origin first t more

namespace Reaches

variable {origin : State K} {first : Held}

theorem formed (reaches : Reaches tidy origin first s held) :
    WellFormed s held := by
  induction reaches with
  | here formed => exact formed
  | act _ act induction => exact act.formed induction

/-- What every action keeps holds of everything that is reached. -/
theorem invariant {property : State K → Held → Prop}
    (reaches : Reaches tidy origin first s held)
    (holds : property origin first)
    (kept : ∀ s held t more, WellFormed s held →
      Act tidy s held t more → property s held → property t more) :
    property s held := by
  induction reaches with
  | here => exact holds
  | act reaches act induction =>
      exact kept _ _ _ _ reaches.formed act induction

theorem of_eq (reaches : Reaches tidy origin first s held)
    (same : held = more) : Reaches tidy origin first s more :=
  same ▸ reaches

end Reaches

end Xpmem.Driver
