import Xpmem.Objects.Places
import Xpmem.Objects.View

/-!
# Well-formed driver states

`WellFormed s held` is what holds of a state between any two steps of the
driver, while the running operation holds the tokens `held`: the graph of
objects is sound, the reference counts are exact, processes have the groups
and notifiers they should have (`Procs`), and attachments, areas and leaves
belong together (`Laid`).
-/

namespace Xpmem.Driver

open Xpmem.Foundation Xpmem.Kernel Xpmem.Objects

variable {K : Platform}

namespace State

/-- The areas of all address spaces. -/
def vmas (s : State K) (mm : MmPtr) : RangeList VmaInfo :=
  (s.mm mm).vmas

/-- The leaves of all page tables. -/
def pte (s : State K) (mm : MmPtr) (page : Nat) : Option Frame :=
  (s.mm mm).table.pte page

/-- Where an attachment is. -/
def place (s : State K) (att : AttPtr) : Place where
  mm := (s.att att).mm
  start := (s.att att).atVaddr
  size := (s.att att).atSize
  vma := (s.att att).atVma
  source := (s.att att).vaddr

def valid (s : State K) (att : AttPtr) : Bool :=
  (s.att att).validPTEs

/-- The attachment is linked and has an area. -/
def Bound (s : State K) (held : Held) (att : AttPtr) : Prop :=
  s.graph.Linked (.att att) ∧ .bare att ∉ held

/-- The segment an attachment shows a part of. -/
def segOf (s : State K) (att : AttPtr) : SegPtr :=
  (s.ap (s.att att).ap).seg

/-- The range of a segment does not wrap around. -/
def Straight (s : State K) (seg : SegPtr) : Prop :=
  (s.seg seg).vaddr + (s.seg seg).size ≤ K.taskSize

end State

/--
What `xpmem_make` lets pass: page-aligned bounds that end below the limit,
or that wrap around and end below it then.
-/
def SegRange (K : Platform) (vaddr size : Nat) : Prop :=
  vaddr % pageSize = 0 ∧ size % pageSize = 0 ∧ vaddr < 2 ^ 64 ∧
    size < 2 ^ 64 ∧
    (vaddr + size ≤ K.taskSize ∨
      2 ^ 64 ≤ vaddr + size ∧ vaddr + size - 2 ^ 64 ≤ K.taskSize)

/-- The attached range is a page-aligned window of the segment. -/
def Window (segVaddr segSize source size : Nat) : Prop :=
  ∃ offset, offset % pageSize = 0 ∧ source = u64 (segVaddr + offset) ∧
    offset + size ≤ segSize

/-- Processes, their groups and their notifiers. -/
structure Procs (s : State K) (held : Held) : Prop where
  running : ∀ group, s.graph.Linked (.tg group) →
    (s.tg group).destroyed = false →
      s.proc (s.tg group).tgid = .running (s.tg group).mm
  leaving : ∀ group, s.graph.Linked (.tg group) →
    (s.tg group).destroyed = true →
      s.proc (s.tg group).tgid = .exiting ∨
        .leaving (s.tg group).tgid ∈ held
  unique : ∀ group other, s.graph.Linked (.tg group) →
    s.graph.Linked (.tg other) → (s.tg group).tgid = (s.tg other).tgid →
      group = other
  registered : ∀ group, s.graph.Linked (.tg group) →
    (s.tg group).destroyed = false →
      group ∈ (s.mm (s.tg group).mm).notifiers
  notifier : ∀ mm, ∀ group ∈ (s.mm mm).notifiers,
    (s.tg group).mm = mm ∧ s.graph.Linked (.tg group) ∧
      s.proc (s.tg group).tgid = .running mm ∧
      ((s.tg group).destroyed = true → .leaving (s.tg group).tgid ∈ held)
  injective : ∀ tgid other mm, s.proc tgid = .running mm →
    s.proc other = .running mm → tgid = other
  mm_lt : ∀ tgid mm, s.proc tgid = .running mm → mm < s.nextMm

/-- Attachments, their areas and their leaves. -/
structure Laid (s : State K) (held : Held) : Prop where
  placed : Placed K s.vmas s.place (s.Bound held) s.nextVma
  mapped : Mapped s.vmas s.pte s.place s.valid (s.Bound held)
  /-- An attachment is in the address space of its permit's group. -/
  home : ∀ att, s.graph.Linked (.att att) →
    (s.att att).mm = (s.tg (s.ap (s.att att).ap).tg).mm
  window : ∀ att, s.Bound held att →
    Window (s.seg (s.segOf att)).vaddr (s.seg (s.segOf att)).size
      (s.att att).vaddr (s.att att).atSize
  ranges : ∀ seg, s.graph.Used (.seg seg) →
    SegRange K (s.seg seg).vaddr (s.seg seg).size
  limit : ∀ group, s.graph.Used (.tg group) →
    (s.tg group).addrLimit = K.taskSize
  /-- Nothing of a destroyed segment is mapped. -/
  revoked : ∀ att, s.Bound held att →
    (s.seg (s.segOf att)).destroyed = true → s.Straight (s.segOf att) →
      (s.place att).Unmapped s.pte

/-- A state between two steps of an operation that holds tokens. -/
structure WellFormed (s : State K) (held : Held) : Prop where
  graph : s.graph.Sound held
  counted : Counted s.refcnt s.allocated s.graph held
  procs : Procs s held
  laid : Laid s held

/-! ## What does not depend on counters and tokens -/

/-- The two states agree on processes, groups and notifiers. -/
structure SameProcs (s t : State K) : Prop where
  linked : ∀ group,
    t.graph.Linked (.tg group) ↔ s.graph.Linked (.tg group)
  tgid : ∀ group, s.graph.Linked (.tg group) →
    (t.tg group).tgid = (s.tg group).tgid
  mm : ∀ group, s.graph.Linked (.tg group) →
    (t.tg group).mm = (s.tg group).mm
  destroyed : ∀ group, s.graph.Linked (.tg group) →
    (t.tg group).destroyed = (s.tg group).destroyed
  notifiers : ∀ mm, (t.mm mm).notifiers = (s.mm mm).notifiers
  proc : t.proc = s.proc
  nextMm : t.nextMm = s.nextMm

/-- The two states agree on bound attachments, areas and leaves. -/
structure SameMaps (s t : State K) (held more : Held) : Prop where
  bound : ∀ att, t.Bound more att ↔ s.Bound held att
  vmas : t.vmas = s.vmas
  pte : t.pte = s.pte
  nextVma : t.nextVma = s.nextVma
  place : ∀ att, s.Bound held att → t.place att = s.place att
  valid : ∀ att, s.Bound held att → t.valid att = s.valid att
  segOf : ∀ att, s.Bound held att → t.segOf att = s.segOf att
  range : ∀ att, s.Bound held att →
    (t.seg (s.segOf att)).vaddr = (s.seg (s.segOf att)).vaddr ∧
      (t.seg (s.segOf att)).size = (s.seg (s.segOf att)).size

theorem Procs.congr {s t : State K} {held : Held}
    (procs : Procs s held) (same : SameProcs s t) : Procs t held where
  running group linked live := by
    rw [same.linked] at linked
    rw [same.destroyed group linked] at live
    rw [same.proc, same.tgid group linked, same.mm group linked]
    exact procs.running group linked live
  leaving group linked dead := by
    rw [same.linked] at linked
    rw [same.destroyed group linked] at dead
    rw [same.proc, same.tgid group linked]
    exact procs.leaving group linked dead
  unique group other linked otherLinked equal := by
    rw [same.linked] at linked otherLinked
    rw [same.tgid group linked, same.tgid other otherLinked] at equal
    exact procs.unique group other linked otherLinked equal
  registered group linked live := by
    rw [same.linked] at linked
    rw [same.destroyed group linked] at live
    rw [same.notifiers, same.mm group linked]
    exact procs.registered group linked live
  notifier mm group member := by
    rw [same.notifiers] at member
    obtain ⟨home, linked, rest⟩ := procs.notifier mm group member
    rw [same.linked, same.mm group linked, same.destroyed group linked,
      same.tgid group linked, same.proc]
    exact ⟨home, linked, rest⟩
  injective := by
    rw [same.proc]
    exact procs.injective
  mm_lt := by
    rw [same.proc, same.nextMm]
    exact procs.mm_lt

theorem Laid.congr {s t : State K} {held more : Held}
    (laid : Laid s held) (same : SameMaps s t held more)
    (home : ∀ att, t.graph.Linked (.att att) →
      (t.att att).mm = (t.tg (t.ap (t.att att).ap).tg).mm)
    (ranges : ∀ seg, t.graph.Used (.seg seg) →
      SegRange K (t.seg seg).vaddr (t.seg seg).size)
    (limit : ∀ group, t.graph.Used (.tg group) →
      (t.tg group).addrLimit = K.taskSize)
    (revoked : ∀ att, s.Bound held att →
      (t.seg (s.segOf att)).destroyed = true →
      s.Straight (s.segOf att) →
        (s.seg (s.segOf att)).destroyed = true ∨
          (s.place att).Unmapped s.pte) :
    Laid t more where
  placed := by
    rw [same.vmas, same.nextVma]
    exact (laid.placed.congr_place same.place).congr_bound same.bound
  mapped := by
    rw [same.vmas, same.pte, funext fun att => propext (same.bound att)]
    exact laid.mapped.congr_place same.place same.valid
  home := home
  window att bound := by
    rw [same.bound] at bound
    have place := same.place att bound
    have source : (t.att att).vaddr = (s.att att).vaddr :=
      congrArg Place.source place
    have size : (t.att att).atSize = (s.att att).atSize :=
      congrArg Place.size place
    obtain ⟨vaddr, segSize⟩ := same.range att bound
    rw [same.segOf att bound, vaddr, segSize, source, size]
    exact laid.window att bound
  ranges := ranges
  limit := limit
  revoked att bound destroyed straight := by
    rw [same.bound] at bound
    obtain ⟨vaddr, segSize⟩ := same.range att bound
    rw [same.segOf att bound] at destroyed straight
    rw [State.Straight, vaddr, segSize] at straight
    rw [same.pte, same.place att bound]
    rcases revoked att bound destroyed straight with before | unmapped
    · exact laid.revoked att bound before straight
    · exact unmapped

/-! ## Steps that change counters and flags -/

theorem linked_layout (s : State K) (object : Ref) :
    s.layout.graph.Linked object ↔ s.graph.Linked object := by
  cases object <;>
    simp [Graph.Linked, State.graph, State.layout, State.shape,
      ThreadGroup.layout, ThreadGroup.shape, ThreadGroup.main,
      Segment.layout, Segment.shape, Segment.main, AccessPermit.layout,
      AccessPermit.shape, Attachment.layout, Attachment.shape]

theorem used_layout (s : State K) (object : Ref) :
    s.layout.graph.Used object ↔ s.graph.Used object := by
  cases object <;>
    simp [Graph.Used, State.graph, State.layout, State.shape]

theorem SameProcs.of_layout {s t : State K}
    (same : t.layout = s.layout) : SameProcs s t where
  linked group := by
    rw [← linked_layout t, same, linked_layout]
  tgid group _ := congrArg (fun u => (u.tg group).tgid) same
  mm group _ := congrArg (fun u => (u.tg group).mm) same
  destroyed group _ := congrArg (fun u => (u.tg group).destroyed) same
  notifiers mm := congrArg (fun u => (u.mm mm).notifiers) same
  proc := congrArg (fun u => u.proc) same
  nextMm := congrArg (fun u => u.nextMm) same

theorem SameMaps.of_layout {s t : State K}
    (same : t.layout = s.layout) {held more : Held}
    (bare : ∀ att, .bare att ∈ more ↔ .bare att ∈ held) :
    SameMaps s t held more where
  bound att := by
    rw [State.Bound, State.Bound, bare, ← linked_layout t, same,
      linked_layout]
  vmas := congrArg (fun u => u.vmas) same
  pte := congrArg (fun u => u.pte) same
  nextVma := congrArg (fun u => u.nextVma) same
  place att _ := congrArg (fun u => u.place att) same
  valid att _ := congrArg (fun u => u.valid att) same
  segOf att _ := by
    have permit : (t.att att).ap = (s.att att).ap :=
      congrArg (fun u => (u.att att).ap) same
    rw [State.segOf, permit]
    exact congrArg (fun u => (u.ap (s.att att).ap).seg) same
  range att _ :=
    ⟨congrArg (fun u => (u.seg (s.segOf att)).vaddr) same,
      congrArg (fun u => (u.seg (s.segOf att)).size) same⟩

theorem Laid.of_layout {s t : State K} {held more : Held}
    (laid : Laid s held) (same : t.layout = s.layout)
    (bare : ∀ att, .bare att ∈ more ↔ .bare att ∈ held) :
    Laid t more := by
  have used (object : Ref) :
      t.graph.Used object ↔ s.graph.Used object := by
    rw [← used_layout t, same, used_layout]
  refine laid.congr (SameMaps.of_layout same bare) ?_ ?_ ?_ ?_
  · intro att linked
    rw [← linked_layout t, same, linked_layout] at linked
    have permit : (t.att att).ap = (s.att att).ap :=
      congrArg (fun u => (u.att att).ap) same
    have group : (t.ap (s.att att).ap).tg = (s.ap (s.att att).ap).tg :=
      congrArg (fun u => (u.ap (s.att att).ap).tg) same
    have home :
        (t.tg (s.ap (s.att att).ap).tg).mm =
          (s.tg (s.ap (s.att att).ap).tg).mm :=
      congrArg (fun u => (u.tg (s.ap (s.att att).ap).tg).mm) same
    have mm : (t.att att).mm = (s.att att).mm :=
      congrArg (fun u => (u.att att).mm) same
    rw [permit, group, home, mm]
    exact laid.home att linked
  · intro seg present
    have vaddr : (t.seg seg).vaddr = (s.seg seg).vaddr :=
      congrArg (fun u => (u.seg seg).vaddr) same
    have size : (t.seg seg).size = (s.seg seg).size :=
      congrArg (fun u => (u.seg seg).size) same
    rw [vaddr, size]
    exact laid.ranges seg ((used _).mp present)
  · intro group present
    have limit : (t.tg group).addrLimit = (s.tg group).addrLimit :=
      congrArg (fun u => (u.tg group).addrLimit) same
    rw [limit]
    exact laid.limit group ((used _).mp present)
  · intro att _ destroyed _
    have flag :
        (t.seg (s.segOf att)).destroyed =
          (s.seg (s.segOf att)).destroyed :=
      congrArg (fun u => (u.seg (s.segOf att)).destroyed) same
    exact Or.inl (flag ▸ destroyed)

theorem Procs.mono {s : State K} {held more : Held}
    (procs : Procs s held)
    (leaving : ∀ tgid, .leaving tgid ∈ held → .leaving tgid ∈ more) :
    Procs s more :=
  { procs with
    leaving := fun group linked destroyed =>
      (procs.leaving group linked destroyed).imp_right (leaving _)
    notifier := fun mm group member =>
      let ⟨home, linked, running, destroyed⟩ :=
        procs.notifier mm group member
      ⟨home, linked, running, fun dead => leaving _ (destroyed dead)⟩ }

end Xpmem.Driver
