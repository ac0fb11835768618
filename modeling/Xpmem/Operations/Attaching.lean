import Xpmem.Operations.Detaching

/-!
# Attaching

`xpmem_attach`: the new attachment is linked to its permit first, then an
area is mapped for it, and the two are tied together.  A failure in between
takes the link back.
-/

namespace Xpmem.Driver

open Xpmem.Foundation Xpmem.Kernel Xpmem.Objects

variable {K : Platform} {tidy : Prop} {origin s t : State K}
    {first held : Held} {start stop : Nat}

/-! ## Mapping the device -/

/-- An area that was mapped and is tied to nothing. -/
structure Vacant (s : State K) (mm : MmPtr) (area : Vma) : Prop where
  member : area ∈ s.vmas mm
  unique : ∀ other ∈ s.vmas mm,
    other.payload.vma = area.payload.vma → other = area
  free : area.payload.privateData = none
  unmapped : ∀ page, area.start ≤ page * pageSize →
    page * pageSize < area.stop → s.pte mm page = none

theorem WellFormed.vacant_addVma (formed : WellFormed s held)
    {mm : MmPtr} {proper : start < stop}
    (free : (s.vmas mm).Free start stop) :
    Vacant (Driver.addVma s mm start stop proper true) mm
      ⟨start, stop, ⟨s.nextVma, true, false, none⟩⟩ := by
  have vmas : (Driver.addVma s mm start stop proper true).vmas mm =
      (s.vmas mm).insert
        ⟨start, stop, ⟨s.nextVma, true, false, none⟩⟩ proper := by
    rw [addVma_eq, State.vmas_setSpace, Function.update_self]
    rfl
  constructor
  · rw [vmas]
    exact (RangeList.mem_insert_iff free).mpr (Or.inl rfl)
  · intro other member same
    rw [vmas] at member
    rcases (RangeList.mem_insert_iff free).mp member with new | old
    · exact new
    · have bounded := formed.laid.placed.vma_lt mm other old
      rw [same] at bounded
      exact (lt_irrefl _ bounded).elim
  · rfl
  · intro page low high
    rw [addVma_eq, State.pte_setSpace, Function.update_self]
    by_contra present
    obtain ⟨frame, leaf⟩ := Option.ne_none_iff_exists'.mp present
    obtain ⟨area, member, contains⟩ :=
      formed.laid.mapped.covered mm page frame leaf
    have apart := free area member
    obtain ⟨begins, ends⟩ := contains
    change start ≤ _ at low
    change _ < stop at high
    omega

/-- A successful call of `vm_mmap` has made an area. -/
def Grants (s : State K) (mm : MmPtr) (size : Nat)
    (result : Except Errno Nat) : Prop :=
  ∀ atVaddr, result = .ok atVaddr → atVaddr + size ≤ K.taskSize ∧
    ∃ area, Vacant s mm area ∧ area.start = atVaddr ∧
      area.stop = atVaddr + size

/-- What a call of `vm_mmap` leaves of the attachments. -/
structure Mmaps (s t : State K) : Prop where
  winds : Winds s t
  linked : ∀ att, s.graph.Linked (.att att) → t.graph.Linked (.att att)
  place : ∀ att, t.place att = s.place att
  tables : ∀ mm, (s.mm mm).table.Thins (t.mm mm).table

theorem Mmaps.refl (s : State K) : Mmaps s s :=
  ⟨.refl s, fun _ => id, fun _ => rfl, fun _ => .refl _⟩

theorem table_modMm (s : State K) (mm : MmPtr) (change : Mm K → Mm K)
    (same : (change (s.mm mm)).table = (s.mm mm).table) (other : MmPtr) :
    ((s.modMm mm change).mm other).table = (s.mm other).table := by
  by_cases here : other = mm
  · subst here
    simp [State.modMm, same]
  · simp [State.modMm, here]

theorem Mmaps.addVma {mm : MmPtr} (mmaps : Mmaps s t)
    (proper : start < stop) (xpmemOps : Bool) :
    Mmaps s (Driver.addVma t mm start stop proper xpmemOps) where
  winds := mmaps.winds.trans (.of_objects (t.objects_setSpace mm _ _ _))
  linked att linked := mmaps.linked att linked
  place att := mmaps.place att
  tables other := by
    have same : ((Driver.addVma t mm start stop proper xpmemOps).mm
        other).table = (t.mm other).table :=
      table_modMm t mm (fun space => space.addVma _ proper) rfl other
    rw [same]
    exact mmaps.tables other

theorem Reaches.mmapDev (reaches : Reaches tidy origin first s held)
    {current : Task} {mm : MmPtr}
    (running : s.proc current.tgid = .running mm) (calm : Calm held)
    (unborn : Unborn s held) {vaddr size : Nat}
    (vaddrAligned : vaddr % pageSize = 0)
    (sizeAligned : size % pageSize = 0) {fixed : Bool}
    (unattached : fixed = true → vaddr + size ≤ K.taskSize →
      Unattached s mm vaddr (vaddr + size)) (place : Option Nat) :
    Always (vmMmap s current mm vaddr size fixed place) fun result =>
      Reaches tidy origin first result.1 held ∧ Mmaps s result.1 ∧
        Grants result.1 mm size result.2 := by
  have sum {base : Nat} (aligned : base % pageSize = 0) :
      (base + size) % pageSize = 0 := by
    unfold pageSize at *
    omega
  have fails (error : Errno) :
      Always (some (s, (.error error : Except Errno Nat))) fun result =>
        Reaches tidy origin first result.1 held ∧ Mmaps s result.1 ∧
          Grants result.1 mm size result.2 :=
    .some ⟨reaches, .refl s, by simp [Grants]⟩
  unfold vmMmap
  split
  · rename_i proper
    split
    · exact fails _
    split
    · rename_i hint fixed
      split
      · exact fails _
      · rename_i room
        have below : vaddr + size ≤ K.taskSize := by omega
        have apart := unattached fixed below
        refine .map ((reaches.vmMunmap running calm unborn (by omega)
          vaddrAligned (sum vaddrAligned) below apart.spared
          fun _ => apart.lostAtts_eq_nil).mono ?_)
        rintro cut ⟨reached, unmaps⟩
        have kept (att : AttPtr) :
            att ∉ lostAtts s mm vaddr (vaddr + size) := by
          rw [apart.lostAtts_eq_nil]
          simp
        have mmaps : Mmaps s cut := by
          refine ⟨unmaps.unlinks.winds, fun att => ?_,
            fun att => unmaps.place att (kept att), unmaps.tables⟩
          exact unmaps.unlinks.linked _ fun ⟨other, _, lost⟩ =>
            kept other lost
        refine ⟨.act reached (.addVma (by omega) true vaddrAligned
          (sum vaddrAligned) below unmaps.free), mmaps.addVma _ _, ?_⟩
        intro atVaddr result
        cases result
        exact ⟨below, _, reached.formed.vacant_addVma unmaps.free, rfl,
          rfl⟩
    · rename_i hint _
      split
      · rename_i accepted
        obtain ⟨aligned, below, free⟩ := accepted
        refine .some ⟨.act reaches (.addVma (by omega) true aligned
          (sum aligned) below free), (Mmaps.refl s).addVma _ _, ?_⟩
        intro atVaddr result
        cases result
        exact ⟨below, _, reaches.formed.vacant_addVma free, rfl, rfl⟩
      · exact fails _
  · exact fails _

/-! ## The new attachment -/

theorem Walkable.retains {table next : PageTable K} {page count : Nat}
    (walkable : Walkable table page count)
    (retains : table.Retains next) : Walkable next page count := by
  refine ⟨walkable.1, fun other low high => ?_⟩
  exact (skippedPages_le_stride retains other).trans_lt
    (stride_lt (walkable.2 other low high))

theorem Reaches.attachUndo {att : AttPtr}
    (reaches : Reaches tidy origin first s
      (.ref (.att att) ::ₘ .bare att ::ₘ held))
    (linked : s.graph.Linked (.att att))
    (live : (s.att att).destroying = false) :
    Reaches tidy origin first (attachUndo s (s.att att).ap att)
      (.ref (.att att) ::ₘ held) := by
  have closing : Reaches tidy origin first (s.flag (.att att) true)
      (.closing (.att att) ::ₘ .bare att ::ₘ .ref (.att att) ::ₘ held) :=
    Reaches.of_eq (.act reaches (.flag (.att att) linked live))
      (by rw [Multiset.cons_swap (Token.ref (.att att)) (.bare att)])
  have step := Reaches.act closing (.unlinkAtt att)
  have owner : ((s.flag (.att att) true).att att).ap = (s.att att).ap := by
    simp [State.flag, State.modAtt]
  rw [owner] at step
  exact step.attDeref

/-- An attachment between its linking and its mapping. -/
structure Pending (s : State K) (att : AttPtr) (mm : MmPtr)
    (size : Nat) : Prop where
  linked : s.graph.Linked (.att att)
  mm : (s.att att).mm = mm
  length : (s.att att).atSize = size
  window : size ≤ K.taskSize →
    Window (s.seg (s.segOf att)).vaddr (s.seg (s.segOf att)).size
      (s.att att).vaddr size

/-- The scan of `xpmem_attach` misses no area of the driver. -/
theorem xpmemOps_of_vmaIn {mm : Mm K} {vaddr stop : Nat}
    (absent : xpmemVmaIn mm vaddr stop = false) :
    ∀ area ∈ mm.vmas.meeting vaddr stop,
      area.payload.xpmemOps = false := by
  intro area meeting
  obtain ⟨member, meets⟩ := RangeList.mem_meeting_iff.mp meeting
  obtain ⟨found, foundMember, lookup, before⟩ :=
    RangeList.exists_find_of_lt member meets.1
  have begun : found.start < stop := by
    have nonempty := RangeList.start_lt_stop foundMember
    rcases before with rfl | earlier
    · exact meets.2
    · have later := meets.2
      omega
  have scanned : (mm.findVma vaddr).filter
      (fun vma => vma.start < stop) = some found :=
    Option.filter_eq_some_iff.mpr ⟨lookup, by simpa using begun⟩
  rw [xpmemVmaIn, scanned] at absent
  exact Bool.eq_false_iff.mpr (List.any_eq_false.mp absent area meeting)

/-- A fixed address without a XPMEM area is free of attachments. -/
theorem WellFormed.unattached_of_vmaIn (formed : WellFormed s held)
    {mm : MmPtr} {vaddr : Nat}
    (absent : xpmemVmaIn (s.mm mm) vaddr stop = false) :
    Unattached s mm vaddr stop := by
  intro area member meets
  by_contra carried
  obtain ⟨att, carries⟩ := Option.ne_none_iff_exists'.mp carried
  obtain ⟨_, _, occupies⟩ :=
    formed.laid.placed.attached mm area member att carries
  have plain := xpmemOps_of_vmaIn absent area
    (RangeList.mem_meeting_iff.mpr ⟨member, meets⟩)
  rw [occupies.ops] at plain
  cases plain

theorem Pending.mmaps {att : AttPtr} {mm : MmPtr} {size : Nat}
    (pending : Pending s att mm size) (mmaps : Mmaps s t) :
    Pending t att mm size := by
  have place := mmaps.place att
  have space : (t.att att).mm = (s.att att).mm := congrArg Place.mm place
  have length : (t.att att).atSize = (s.att att).atSize :=
    congrArg Place.size place
  have source : (t.att att).vaddr = (s.att att).vaddr :=
    congrArg Place.source place
  have seg := mmaps.winds.seg (s.segOf att)
  have vaddr := congrArg Segment.vaddr seg
  have range := congrArg Segment.size seg
  change (t.seg (s.segOf att)).vaddr = _ at vaddr
  change (t.seg (s.segOf att)).size = _ at range
  refine ⟨mmaps.linked att pending.linked, space.trans pending.mm,
    length.trans pending.length, ?_⟩
  intro below
  rw [mmaps.winds.segOf, vaddr, range, source]
  exact pending.window below

theorem Reaches.attachBind {att : AttPtr} {mm : MmPtr} {size : Nat}
    (reaches : Reaches tidy origin first s
      (.ref (.att att) ::ₘ .bare att ::ₘ held))
    (pending : Pending s att mm size) (settled : Settled held)
    {area : Vma} (vacant : Vacant s mm area)
    (stop : area.stop = area.start + size) (below : area.stop ≤ K.taskSize)
    (walkable : tidy → Walkable (s.mm mm).table (area.start / pageSize)
      (size / pageSize)) :
    Reaches tidy origin first (attachBind s mm att area.start area)
      (.ref (.att att) ::ₘ held) := by
  have formed := reaches.formed
  obtain ⟨startAligned, stopAligned, _⟩ :=
    formed.laid.placed.fits mm area vacant.member
  refine .act reaches.swap (.bind pending.linked ?_ pending.mm
    vacant.member vacant.unique vacant.free ?_ ?_ ?_ ?_)
  · simpa using settled att
  · rw [pending.length]
    exact stop
  · intro index inside
    have inMm : (bindPlace s att area).mm = mm := pending.mm
    have pages : (bindPlace s att area).pages = size / pageSize := by
      rw [← pending.length]
      rfl
    have page : (bindPlace s att area).page = area.start / pageSize := rfl
    rw [inMm]
    rw [pages] at inside
    apply vacant.unmapped <;> rw [page] <;> unfold pageSize at * <;> omega
  · rw [pending.length]
    exact pending.window (by omega)
  · rw [Place.pages, show (bindPlace s att area).size = size from
      pending.length]
    exact walkable

theorem Reaches.attachMap {att : AttPtr} {mm : MmPtr} {vaddr size : Nat}
    (reaches : Reaches tidy origin first s
      (.ref (.att att) ::ₘ .bare att ::ₘ held))
    (pending : Pending s att mm size)
    (fresh : (s.att att).atVma = none ∧ s.valid att = false)
    {current : Task} (running : s.proc current.tgid = .running mm)
    (calm : Calm held) (settled : Settled held)
    (vaddrAligned : vaddr % pageSize = 0)
    (sizeAligned : size % pageSize = 0) (place : Option Nat) :
    Always
      (attachMap s current mm (s.att att).ap att vaddr size place)
      fun result =>
        (tidy → ∀ addr, result.2 = .ok addr → Walkable (s.mm mm).table
          (addr / pageSize) (size / pageSize)) →
          Reaches tidy origin first result.1 (.ref (.att att) ::ₘ held) ∧
            result.1.proc = s.proc := by
  have quiet : Calm (.ref (.att att) ::ₘ .bare att ::ₘ held) :=
    Calm.cons_ref
      ⟨fun other token => calm.att other (by simpa using token),
        fun seg token => calm.seg seg (by simpa using token)⟩
  have unborn : Unborn s (.ref (.att att) ::ₘ .bare att ::ₘ held) := by
    intro other bare
    have same : other = att := by
      simpa [settled other] using bare
    exact same ▸ fresh
  have undo (pre : State K)
      (reached : Reaches tidy origin first pre
        (.ref (.att att) ::ₘ .bare att ::ₘ held))
      (winds : Winds s pre) (linked : pre.graph.Linked (.att att))
      (error : Errno) :
      Always
        (some (Driver.attachUndo pre (s.att att).ap att,
          (.error error : Except Errno Nat)))
        fun result =>
          (tidy → ∀ addr, result.2 = .ok addr → Walkable (s.mm mm).table
            (addr / pageSize) (size / pageSize)) →
            Reaches tidy origin first result.1
                (.ref (.att att) ::ₘ held) ∧
              result.1.proc = s.proc := by
    have owner : (pre.att att).ap = (s.att att).ap := by
      have record := congrArg Attachment.ap (winds.att att)
      exact record
    rw [← owner]
    refine .some fun _ => ⟨reached.attachUndo linked
      (reached.formed.att_live quiet linked), ?_⟩
    have last : (Driver.attachUndo pre (pre.att att).ap att).proc =
        pre.proc := by
      exact congrArg (fun u => u.proc) (shape_xpmemAttDeref
        (Driver.unlinkAtt (pre.flag (.att att) true) (pre.att att).ap att)
        att)
    rw [last, winds.proc]
  unfold Driver.attachMap
  split
  · exact undo s reaches (.refl s) pending.linked .enoent
  extract_lets fixed
  split
  · exact undo s reaches (.refl s) pending.linked .einval
  rename_i passed
  have unattached : fixed = true → vaddr + size ≤ K.taskSize →
      Unattached s mm vaddr (vaddr + size) := by
    intro given below
    have limit := K.taskSize_le
    rw [given, Bool.true_and, Bool.not_eq_true,
      u64_of_lt (by omega)] at passed
    exact reaches.formed.unattached_of_vmaIn passed
  refine .bind ((reaches.mmapDev running quiet unborn vaddrAligned
    sizeAligned unattached place).mono ?_)
  rintro ⟨mapped, answer⟩ ⟨reached, mmaps, grants⟩
  cases answer with
  | error error =>
      exact undo mapped reached mmaps.winds
        (mmaps.linked att pending.linked) error
  | ok atVaddr =>
      obtain ⟨below, area, vacant, rfl, stop⟩ := grants atVaddr rfl
      have nonempty := RangeList.start_lt_stop vacant.member
      have found : (mapped.mm mm).findVma area.start = some area :=
        RangeList.find_eq_some_of_contains vacant.member
          ⟨le_refl _, nonempty⟩
      simp only [found, Option.map_some]
      have page : u64 (area.start + offsetInPage (mapped.att att).vaddr) /
          pageSize = area.start / pageSize := by
        obtain ⟨startAligned, stopAligned, _⟩ :=
          reached.formed.laid.placed.fits mm area vacant.member
        have limit := K.taskSize_le
        unfold u64 offsetInPage
        unfold pageSize at *
        omega
      refine .some fun walks => ⟨reached.attachBind
        (pending.mmaps mmaps) settled vacant stop (by omega)
        fun orderly => ?_, mmaps.winds.proc⟩
      have walkable := walks orderly _ rfl
      rw [page] at walkable
      exact walkable.retains (mmaps.tables mm).retains

/-! ## The checks before -/

/-- What `xpmem_validate_access` has checked. -/
theorem validateAccess_eq_ok {current : Task} {permit : ApPtr}
    {offset : BitVec 64} {size segVaddr : Nat} {mode : BitVec 32}
    (passed : xpmemValidateAccess s current permit offset size mode =
      .ok segVaddr) :
    current.tgid = (s.tg (s.ap permit).tg).tgid ∧
      u64 (offset.toNat + size) ≤ (s.seg (s.ap permit).seg).size ∧
      offset.toNat < 2 ^ 63 ∧
      segVaddr = u64 ((s.seg (s.ap permit).seg).vaddr + offset.toNat) := by
  unfold xpmemValidateAccess at passed
  split at passed
  · cases passed
  rename_i own
  split at passed
  · cases passed
  rename_i inside
  cases passed
  simp only [not_or, not_lt, not_not] at own inside
  obtain ⟨positive, _, fits⟩ := inside
  refine ⟨own.1, fits, ?_, rfl⟩
  rw [BitVec.toInt_eq_toNat_cond] at positive
  split at positive
  · omega
  · have bound := offset.isLt
    omega

theorem WellFormed.pending_attachLink (formed : WellFormed s held)
    {permit : ApPtr} (linked : s.graph.Linked (.ap permit))
    (live : (s.ap permit).destroyed = false) (mm : MmPtr)
    {segVaddr size : Nat}
    (window : size ≤ K.taskSize →
      Window (s.seg (s.ap permit).seg).vaddr
        (s.seg (s.ap permit).seg).size segVaddr size) :
    Pending (attachLink s permit mm segVaddr size) s.nextAtt mm size := by
  have grows := Graph.grows_addAtt permit (formed.graph.used _ linked) live
  refine ⟨?_, ?_, ?_, ?_⟩
  · rw [State.graph_attachLink formed.graph, grows.linked]
    exact Or.inr rfl
  · simp [attachLink, State.xpmemAttRef, State.modAtt, State.modAp]
  · simp [attachLink, State.xpmemAttRef, State.modAtt, State.modAp]
  · simpa [attachLink, State.segOf, State.xpmemAttRef, State.modAtt,
      State.modAp] using window

/-- A window that fits into memory does not wrap around. -/
theorem window_of_checked {segVaddr segSize offset size : Nat}
    (aligned : offset % pageSize = 0) (small : offset < 2 ^ 63)
    (fits : u64 (offset + size) ≤ segSize) (below : size ≤ K.taskSize) :
    Window segVaddr segSize (u64 (segVaddr + offset)) size := by
  have limit := K.taskSize_le
  rw [u64_of_lt (by omega)] at fits
  exact ⟨offset, aligned, rfl, fits⟩

theorem Reaches.attachChecked (reaches : Reaches tidy origin first s held)
    {permit : ApPtr} (linked : s.graph.Linked (.ap permit))
    (live : (s.ap permit).destroying = false) {current : Task}
    {mm : MmPtr} (running : s.proc current.tgid = .running mm)
    (calm : Calm held) (settled : Settled held) {offset : BitVec 64}
    {size vaddr : Nat} (vaddrAligned : vaddr % pageSize = 0)
    (offsetAligned : offset.toNat % pageSize = 0)
    (sizeAligned : size % pageSize = 0) (small : size < 2 ^ 64)
    (segTg : TgPtr) (env : AttachEnv) :
    Always
      (attachChecked s current mm permit (s.ap permit).seg segTg offset
        size vaddr env)
      fun result =>
        (tidy → ∀ addr, result.2 = .ok addr → Walkable (s.mm mm).table
          (addr / pageSize) (size / pageSize)) →
        Reaches tidy origin first result.1 held ∧
          result.1.proc = s.proc := by
  have formed := reaches.formed
  have stay (error : Errno) :
      Always (some (s, (.error error : Except Errno Nat))) fun result =>
        (tidy → ∀ addr, result.2 = .ok addr → Walkable (s.mm mm).table
          (addr / pageSize) (size / pageSize)) →
        Reaches tidy origin first result.1 held ∧
          result.1.proc = s.proc :=
    .some fun _ => ⟨reaches, rfl⟩
  unfold Driver.attachChecked
  split
  · exact stay _
  split
  · exact stay _
  rename_i segVaddr passed
  obtain ⟨own, fits, low, source⟩ := validateAccess_eq_ok passed
  extract_lets length att
  have same : length = size := by
    have segAligned :=
      (formed.laid.ranges _ (formed.graph.used_seg linked)).1
    have zero : offsetInPage segVaddr = 0 := by
      rw [source]
      unfold offsetInPage u64
      unfold pageSize at *
      change (s.seg (s.ap permit).seg).vaddr % 4096 = 0 at segAligned
      omega
    rw [show length = u64 (size + offsetInPage segVaddr) from rfl, zero,
      Nat.add_zero, u64_of_lt small]
  split
  · exact stay _
  split
  · exact stay _
  have alive : s.graph.destroying (.ap permit) = false := live
  have destroyed : (s.ap permit).destroyed = false :=
    formed.destroyed_eq_false alive
  have home : (s.tg (s.ap permit).tg).mm = mm := by
    obtain ⟨group, stays⟩ := formed.graph.linked_tg_of_ap linked
    have runs := formed.procs.running _ group stays
    change s.proc (s.tg (s.ap permit).tg).tgid =
      .running (s.tg (s.ap permit).tg).mm at runs
    rw [← own, running] at runs
    exact (Proc.running.inj runs).symm
  have link : Reaches tidy origin first
      (attachLink s permit mm segVaddr length)
      (.ref (.att att) ::ₘ .bare att ::ₘ held) :=
    .act reaches (.linkAtt segVaddr length linked destroyed home)
  have pending : Pending (attachLink s permit mm segVaddr length) att mm
      length := by
    refine formed.pending_attachLink linked destroyed mm fun below => ?_
    rw [source]
    rw [same] at below ⊢
    exact window_of_checked offsetAligned low fits below
  have fresh :
      ((attachLink s permit mm segVaddr length).att att).atVma = none ∧
        (attachLink s permit mm segVaddr length).valid att = false := by
    simp [att, attachLink, State.xpmemAttRef, State.modAtt, State.modAp,
      State.valid]
  have owner :
      ((attachLink s permit mm segVaddr length).att att).ap = permit := by
    simp [att, attachLink, State.xpmemAttRef, State.modAtt, State.modAp]
  have mapped := link.attachMap pending fresh running calm settled
    vaddrAligned (same ▸ sizeAligned) env.place
  rw [owner] at mapped
  refine .map (mapped.mono ?_)
  rintro ⟨final, answer⟩ kept walks
  have shape := shape_xpmemAttDeref final att
  obtain ⟨reached, proc⟩ := kept fun orderly addr answered => by
    rw [same]
    exact walks orderly addr answered
  exact ⟨reached.attDeref, (congrArg (fun u => u.proc) shape).trans proc⟩

/-- The size as `xpmem_attach` rounds it up to pages. -/
def roundSize (size : BitVec 64) : Nat :=
  if offsetInPage size.toNat ≠ 0 then
    u64 (size.toNat + (pageSize - offsetInPage size.toNat))
  else size.toNat

theorem roundSize_aligned (size : BitVec 64) :
    roundSize size % pageSize = 0 ∧ roundSize size < 2 ^ 64 := by
  have bound := size.isLt
  unfold roundSize
  split
  · unfold u64 offsetInPage
    unfold pageSize
    omega
  · rename_i aligned
    unfold offsetInPage at aligned
    unfold pageSize at *
    omega

theorem Reaches.attach (reaches : Reaches tidy origin first s held)
    {current : Task} {mm : MmPtr}
    (running : s.proc current.tgid = .running mm) (calm : Calm held)
    (settled : Settled held) (apid offset size vaddr : BitVec 64)
    (env : AttachEnv) :
    Always (xpmemAttach s current mm apid offset size vaddr env)
      fun result =>
        (tidy → ∀ addr, result.2 = .ok addr → Walkable (s.mm mm).table
          (addr / pageSize) (roundSize size / pageSize)) →
        Reaches tidy origin first result.1 held ∧
          result.1.proc = s.proc := by
  have stay (error : Errno) :
      Always (some (s, (.error error : Except Errno Nat))) fun result =>
        (tidy → ∀ addr, result.2 = .ok addr → Walkable (s.mm mm).table
          (addr / pageSize) (roundSize size / pageSize)) →
        Reaches tidy origin first result.1 held ∧
          result.1.proc = s.proc :=
    .some fun _ => ⟨reaches, rfl⟩
  unfold xpmemAttach
  extract_lets base length
  split
  · exact stay _
  split
  · exact stay _
  split
  · exact stay _
  rename_i aligned
  simp only [not_or, not_not] at aligned
  obtain ⟨lengthAligned, lengthSmall⟩ : length % pageSize = 0 ∧
      length < 2 ^ 64 := roundSize_aligned size
  have rounded : roundSize size = length := rfl
  clear_value length
  split
  · exact stay _
  rename_i apTg found
  obtain ⟨group, _, _⟩ := findTg_eq_some found
  extract_lets entered
  have enter : Reaches tidy origin first entered
      (.ref (.tg apTg) ::ₘ held) :=
    reaches.tgRef group
  have enterShape : entered.shape = s.shape := shape_xpmemTgRef s apTg
  clear_value entered
  split
  · refine .some fun _ => ⟨enter.tgDeref, ?_⟩
    exact (congrArg (fun u => u.proc) (shape_xpmemTgDeref entered
      apTg)).trans (congrArg (fun u => u.proc) enterShape)
  rename_i permit lookup
  obtain ⟨linked, owner, live⟩ := enter.formed.findAp lookup
  extract_lets counted seg segCounted segTg ready
  have countedShape := shape_xpmemApRef entered permit
  have permitLinked : counted.graph.Linked (.ap permit) := by
    rw [State.graph_eq_of_shape countedShape]
    exact linked
  have segTgEq : (counted.seg seg).tg = segTg := by
    simp [segTg, segCounted, State.xpmemSegRef, State.modSeg]
  have refs : Reaches tidy origin first ready
      (.ref (.tg segTg) ::ₘ .ref (.seg seg) ::ₘ .ref (.ap permit) ::ₘ
        .ref (.tg apTg) ::ₘ held) := by
    have both := (enter.apRef linked).sourceRefs permitLinked
    change Reaches tidy origin first
      (segCounted.xpmemTgRef (counted.seg seg).tg)
      (.ref (.tg (counted.seg seg).tg) ::ₘ .ref (.seg seg) ::ₘ _) at both
    rw [segTgEq] at both
    exact both
  have shape : ready.shape = s.shape := by
    rw [← enterShape, ← countedShape]
    exact (shape_xpmemTgRef _ _).trans (shape_xpmemSegRef _ _)
  have readyLinked : ready.graph.Linked (.ap permit) := by
    rw [State.graph_eq_of_shape shape,
      ← State.graph_eq_of_shape enterShape]
    exact linked
  have readyLive : (ready.ap permit).destroying = false := by
    have flag : (counted.ap permit).destroying =
        (entered.ap permit).destroying :=
      congrArg (fun u => (u.ap permit).destroying) countedShape
    exact flag.trans live
  have spaces : ready.mm = s.mm := congrArg (fun u => u.mm) shape
  have proc : ready.proc = s.proc := congrArg (fun u => u.proc) shape
  have checked := refs.attachChecked readyLinked readyLive
    (proc ▸ running) calm.cons_ref.cons_ref.cons_ref.cons_ref
    settled.cons_ref.cons_ref.cons_ref.cons_ref aligned.1 aligned.2
    lengthAligned lengthSmall segTg env
  refine .map (checked.mono ?_)
  rintro ⟨final, answer⟩ kept walks
  have last :
      ((((final.xpmemApDeref permit).xpmemTgDeref apTg).xpmemSegDeref
        seg).xpmemTgDeref segTg).shape = final.shape := by
    simp
  obtain ⟨reached, same⟩ := kept fun orderly addr answered => by
    rw [spaces, ← rounded]
    exact walks orderly addr answered
  have ordered : Reaches tidy origin first final
      (.ref (.ap permit) ::ₘ .ref (.tg apTg) ::ₘ .ref (.seg seg) ::ₘ
        .ref (.tg segTg) ::ₘ held) :=
    reached.of_eq (by simp only [Multiset.cons_swap])
  exact ⟨ordered.apDeref.tgDeref.segDeref.tgDeref,
    (congrArg (fun u => u.proc) last).trans (same.trans proc)⟩

end Xpmem.Driver
