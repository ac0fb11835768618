import Xpmem.Driver.Faulting
import Xpmem.Driver.Granting
import Xpmem.Operations.Attaching
import Xpmem.Operations.Sparing
import Xpmem.Operations.Translation

/-!
# What a new attachment shows

`xpmem_attach` rounds the size, adds the offset of the source in its page and
returns the address of a new mapping; `xpmem_fault_handler` goes back from an
address to the source.  The two agree for every request that succeeds: the
byte `k` of the mapping is byte `k` of the window that was asked for.
-/

namespace Xpmem.Driver

open Xpmem.Foundation Xpmem.Kernel Xpmem.Objects

variable {K : Platform} {s t u : State K}

/-! ## Mapping -/

/-- A new area of the device at `address`, and nothing of the driver lost. -/
structure Mapped (s t : State K) (mm : MmPtr) (address size : Nat) :
    Prop where
  nonempty : 0 < size
  below : address + size ≤ K.taskSize
  aligned : address % pageSize = 0
  objects : t.objects = s.objects
  place : t.place = s.place
  refcnt : t.refcnt = s.refcnt
  area : ∃ area ∈ t.vmas mm, area.start = address ∧
    area.stop = address + size

theorem mapped_addVma {mm : MmPtr} {address size : Nat}
    (proper : address < address + size)
    (below : address + size ≤ K.taskSize)
    (aligned : address % pageSize = 0) (objects : t.objects = s.objects)
    (place : t.place = s.place) (refcnt : t.refcnt = s.refcnt)
    (free : (t.vmas mm).Free address (address + size)) :
    Mapped s (addVma t mm address (address + size) proper true) mm address
      size where
  nonempty := by omega
  below := below
  aligned := aligned
  objects := (t.objects_setSpace mm _ _ _).trans objects
  place := place
  refcnt := refcnt
  area := by
    refine ⟨⟨address, address + size, ⟨t.nextVma, true, false, none⟩⟩, ?_,
      rfl, rfl⟩
    simp only [State.vmas, addVma, State.modMm, Function.update_self,
      Mm.addVma]
    exact (RangeList.mem_insert_iff free).mpr (.inl rfl)

/-- A mapping that succeeds is where and as long as it was asked to be. -/
theorem vmMmap_eq_ok {current : Task} {mm : MmPtr} {vaddr size : Nat}
    {fixed : Bool} {place : Option Nat} {address : Nat}
    (aligned : vaddr % pageSize = 0)
    (plain : fixed = true → vaddr + size ≤ K.taskSize →
      ∀ area ∈ (s.mm mm).vmas.meeting vaddr (vaddr + size),
        Plain area.payload)
    (mapped : vmMmap s current mm vaddr size fixed place =
      some (t, .ok address)) :
    Mapped s t mm address size := by
  unfold vmMmap at mapped
  split at mapped
  · rename_i proper
    split at mapped
    · cases mapped
    · rename_i spot
      split at mapped
      · rename_i set
        split at mapped
        · cases mapped
        · rename_i low
          obtain ⟨unmapped, unmaps, equal⟩ :=
            Option.map_eq_some_iff.mp mapped
          cases equal
          have below : vaddr + size ≤ K.taskSize := by omega
          have cuts := (cuts_vmMunmap current (by omega)
            (plain set below)).of_eq unmaps
          exact mapped_addVma _ below aligned cuts.objects cuts.place
            cuts.refcnt cuts.free
      · split at mapped
        · rename_i free
          cases mapped
          exact mapped_addVma _ free.2.1 free.1 rfl rfl rfl free.2.2
        · cases mapped
  · cases mapped

/-! ## The place of an attachment that succeeds -/

/-- The place of `size` bytes of the source at `vaddr`, shown at `address`. -/
structure Attached (K : Platform) (place : Place)
    (vaddr size address : Nat) : Prop where
  source : place.source = vaddr
  length : place.size = size
  nonempty : 0 < size
  aligned : place.start % pageSize = 0
  below : place.start + size ≤ K.taskSize
  returned : address = u64 (place.start + offsetInPage vaddr)

/-- An attachment that succeeds is tied to a new area of its size. -/
theorem attachMap_eq_ok {current : Task} {mm : MmPtr} {permit : ApPtr}
    {att : AttPtr} {vaddr size : Nat} {place : Option Nat} {address : Nat}
    (aligned : vaddr % pageSize = 0)
    (mapped : attachMap s current mm permit att vaddr size place =
      some (t, .ok address)) :
    ∃ (middle : State K) (area : Vma) (atVaddr : Nat),
      Mapped s middle mm atVaddr size ∧ area ∈ middle.vmas mm ∧
        area.start = atVaddr ∧ area.stop = atVaddr + size ∧
        t = attachBind middle mm att atVaddr area ∧
        address = u64 (atVaddr + offsetInPage (s.att att).vaddr) := by
  unfold attachMap at mapped
  split at mapped
  · cases mapped
  · extract_lets fixed at mapped
    split at mapped
    · cases mapped
    · rename_i clear
      obtain ⟨⟨middle, result⟩, mmaps, rest⟩ :=
        Option.bind_eq_some_iff.mp mapped
      cases result with
      | error => cases rest
      | ok atVaddr =>
          obtain ⟨vma, found, equal⟩ := Option.map_eq_some_iff.mp rest
          cases equal
          have plain (set : fixed = true)
              (below : vaddr + size ≤ K.taskSize) :
              ∀ area ∈ (s.mm mm).vmas.meeting vaddr (vaddr + size),
                Plain area.payload := by
            rw [set, Bool.true_and, Bool.not_eq_true,
              u64_of_lt (by have bound := K.taskSize_le; omega)] at clear
            exact fun area meets => .inl (xpmemOps_of_vmaIn clear area meets)
          have maps := vmMmap_eq_ok aligned plain mmaps
          obtain ⟨area, member, start, stop⟩ := maps.area
          have lookup : (middle.mm mm).findVma atVaddr = some area :=
            RangeList.find_eq_some_of_contains member
              ⟨start.le, by have nonempty := maps.nonempty; omega⟩
          have same := Option.some.inj (lookup.symm.trans found)
          subst same
          have source : (middle.att att).vaddr = (s.att att).vaddr :=
            congrArg Place.source (congrFun maps.place att)
          exact ⟨middle, area, atVaddr, maps, member, start, stop, rfl,
            by rw [source]⟩

theorem attached_attachMap {current : Task} {mm : MmPtr} {permit : ApPtr}
    {att : AttPtr} {vaddr size : Nat} {place : Option Nat} {address : Nat}
    (aligned : vaddr % pageSize = 0) (length : (s.att att).atSize = size)
    (mapped : attachMap s current mm permit att vaddr size place =
      some (t, .ok address)) :
    Attached K (t.place att) (s.att att).vaddr size address := by
  obtain ⟨middle, area, atVaddr, maps, _, _, _, rfl, returned⟩ :=
    attachMap_eq_ok aligned mapped
  have same := congrFun maps.place att
  have source : (middle.att att).vaddr = (s.att att).vaddr :=
    congrArg Place.source same
  have size : (middle.att att).atSize = (s.att att).atSize :=
    congrArg Place.size same
  constructor
  · simp [State.place, attachBind, State.modAtt, State.modMm, source]
  · simp [State.place, attachBind, State.modAtt, State.modMm, size, length]
  · exact maps.nonempty
  · simpa [State.place, attachBind, State.modAtt, State.modMm]
      using maps.aligned
  · simpa [State.place, attachBind, State.modAtt, State.modMm]
      using maps.below
  · simpa [State.place, attachBind, State.modAtt, State.modMm]
      using returned

theorem attachChecked_attached {current : Task} {mm : MmPtr}
    {permit : ApPtr} {seg : SegPtr} {segTg : TgPtr} {offset : BitVec 64}
    {size vaddr : Nat} {env : AttachEnv} {address : Nat}
    (aligned : vaddr % pageSize = 0)
    (attached : attachChecked s current mm permit seg segTg offset size
      vaddr env = some (t, .ok address)) :
    ∃ segVaddr,
      xpmemValidateAccess s current permit offset size xpmemRdwr =
        .ok segVaddr ∧
      Attached K (t.place s.nextAtt) segVaddr
        (u64 (size + offsetInPage segVaddr)) address := by
  unfold attachChecked at attached
  split at attached
  · cases attached
  · split at attached
    · cases attached
    · rename_i segVaddr passed
      refine ⟨segVaddr, passed, ?_⟩
      extract_lets length att at attached
      split at attached
      · cases attached
      · split at attached
        · cases attached
        · obtain ⟨⟨mapped, result⟩, maps, equal⟩ :=
            Option.map_eq_some_iff.mp attached
          cases equal
          have linked :
              ((attachLink s permit mm segVaddr length).att att).atSize =
                length := by
            simp [attachLink, State.modAtt, State.modAp,
              State.xpmemAttRef, att]
          have source :
              ((attachLink s permit mm segVaddr length).att att).vaddr =
                segVaddr := by
            simp [attachLink, State.modAtt, State.modAp,
              State.xpmemAttRef, att]
          have shown := attached_attachMap aligned linked maps
          rw [source] at shown
          have kept := (Clears.deref mapped (.att att)).place
          change (mapped.xpmemAttDeref att).place = mapped.place at kept
          rw [kept]
          exact shown

/-- A size rounded up to a page. -/
def pageAlign (size : Nat) : Nat :=
  (size + (pageSize - 1)) / pageSize * pageSize

/-- Rounding gives 0 where it wraps around. -/
theorem rounded_eq (size : BitVec 64) :
    let rounded :=
      if offsetInPage size.toNat ≠ 0 then
        u64 (size.toNat + (pageSize - offsetInPage size.toNat))
      else size.toNat
    rounded = 0 ∨ rounded = pageAlign size.toNat ∧
      pageAlign size.toNat + pageSize ≤ 2 ^ 64 := by
  have bound := size.isLt
  unfold offsetInPage u64 pageAlign pageSize
  dsimp only
  split <;> omega

theorem ne_zero_of_validateAccess {current : Task} {permit : ApPtr}
    {offset : BitVec 64} {size segVaddr : Nat} {mode : BitVec 32}
    (passed : xpmemValidateAccess s current permit offset size mode =
      .ok segVaddr) : size ≠ 0 := by
  rintro rfl
  unfold xpmemValidateAccess at passed
  split at passed
  · cases passed
  · rw [if_pos (.inr (.inl rfl))] at passed
    cases passed

/-- The request of an attachment that succeeds, and where it is shown. -/
theorem xpmemAttach_attached {current : Task} {mm : MmPtr}
    {apid offset size vaddr : BitVec 64} {env : AttachEnv} {address : Nat}
    {permit : ApPtr} (found : s.resolveAp apid = some permit)
    (attached : xpmemAttach s current mm apid offset size vaddr env =
      some (t, .ok address)) :
    let record := s.seg (s.ap permit).seg
    let segVaddr := u64 (record.vaddr + offset.toNat)
    offset.toNat < 2 ^ 63 ∧ 0 < pageAlign size.toNat ∧
      pageAlign size.toNat + pageSize ≤ 2 ^ 64 ∧
      u64 (offset.toNat + pageAlign size.toNat) ≤ record.size ∧
      Attached K (t.place s.nextAtt) segVaddr
        (pageAlign size.toNat + offsetInPage segVaddr) address := by
  unfold xpmemAttach at attached
  extract_lets fixed length at attached
  split at attached
  · cases attached
  · split at attached
    · cases attached
    · split at attached
      · cases attached
      · rename_i aligned
        simp only [not_or, not_not] at aligned
        split at attached
        · cases attached
        · rename_i apTg owner
          extract_lets referred at attached
          split at attached
          · cases attached
          · rename_i other lookup
            rw [findAp_xpmemTgRef] at lookup
            have same : other = permit := by
              rw [State.resolveAp, owner, Option.bind_some, lookup]
                at found
              exact Option.some.inj found
            subst same
            extract_lets permitted seg shared segTg taken at attached
            have shape : taken.shape = s.shape := by
              rw [shape_xpmemTgRef, shape_xpmemSegRef, shape_xpmemApRef,
                shape_xpmemTgRef]
            have next : taken.nextAtt = s.nextAtt := rfl
            clear_value taken
            obtain ⟨⟨checked, result⟩, checks, equal⟩ :=
              Option.map_eq_some_iff.mp attached
            cases equal
            obtain ⟨segVaddr, passed, shown⟩ :=
              attachChecked_attached aligned.1 checks
            have nonzero := ne_zero_of_validateAccess passed
            obtain ⟨rounded, small⟩ := (rounded_eq size).resolve_left
              nonzero
            obtain ⟨_, fits, low, source⟩ := validateAccess_eq_ok passed
            rw [show length = pageAlign size.toNat from rounded]
              at fits shown nonzero
            have kept := ((((Clears.refl checked).trans
              (.deref _ (.ap other))).trans (.deref _ (.tg apTg))).trans
                (.deref _ (.seg seg))).trans (.deref _ (.tg segTg))
            have place := kept.place
            change State.place _ = checked.place at place
            have start : (taken.seg (taken.ap other).seg).shape =
                (s.seg (s.ap other).seg).shape := by
              have permits : (taken.ap other).shape = (s.ap other).shape :=
                congrFun (congrArg State.ap shape) other
              have target := congrArg AccessPermit.seg permits
              change (taken.ap other).seg = (s.ap other).seg at target
              rw [target]
              exact congrFun (congrArg State.seg shape) _
            have base := congrArg Segment.vaddr start
            have extent := congrArg Segment.size start
            change (taken.seg (taken.ap other).seg).vaddr =
              (s.seg (s.ap other).seg).vaddr at base
            change (taken.seg (taken.ap other).seg).size =
              (s.seg (s.ap other).seg).size at extent
            rw [base] at source
            rw [extent] at fits
            rw [source, next] at shown
            intro record window
            refine ⟨low, Nat.pos_of_ne_zero nonzero, small, fits, ?_⟩
            have inPage : offsetInPage window < pageSize :=
              Nat.mod_lt _ (by decide)
            rw [show u64 (pageAlign size.toNat + offsetInPage window) =
              pageAlign size.toNat + offsetInPage window from
                u64_of_lt (by omega)] at shown
            rw [← place] at shown
            exact shown

/-- The address that is returned is in the area. -/
theorem Attached.within {place : Place} {vaddr size address : Nat}
    (attached : Attached K place vaddr (size + offsetInPage vaddr) address)
    (nonempty : 0 < size) :
    place.start ≤ address ∧ address < place.start + place.size := by
  have bound := K.taskSize_le
  have below := attached.below
  rw [attached.length, attached.returned, u64_of_lt (by omega)]
  omega

/-! ## What a fault asks for -/

/-- The attachment is live and where it was in `t`. -/
structure Stays (t u : State K) (att : AttPtr) : Prop where
  place : u.place att = t.place att
  live : (u.att att).destroying = false

/--
A fault at `vaddr` passes the range test and asks `xpmem_ensure_valid_PFN`
for the source address.
-/
def AsksFor (u : State K) (att : AttPtr) (vaddr source : Nat) : Prop :=
  ∀ (seg : SegPtr) (apTg segTg : TgPtr) (env : FaultEnv),
    env.killed = false → (u.tg apTg).destroying = false →
    (u.tg segTg).destroying = false →
    faultPin u att seg apTg segTg vaddr env =
      match xpmemEnsureValidPFN u seg source env.gup with
      | (pinned, .error _) => (pinned, 0)
      | (pinned, .ok pfn) =>
          (pinned.modAtt att fun att => { att with validPTEs := true }, pfn)

/-- A fault at `vaddr` on an area of the attachment pins nothing. -/
def PinsNothing (u : State K) (att : AttPtr) (vaddr : Nat) : Prop :=
  ∀ (mm : MmPtr) (vma : Vma) (env : FaultEnv) (segTg : TgPtr),
    vma.payload.privateData = some att →
    Always (xpmemFaultHandler u mm vma vaddr env) fun faulted =>
      Gains segTg [] u faulted.1

/-- The range test of the handler. -/
def InWindow (place : Place) (vaddr : Nat) : Prop :=
  ¬ (vaddr < place.start ∨
    u64 (place.start + place.size) < u64 (vaddr + 1))

theorem asksFor_of_inWindow {att : AttPtr} {vaddr : Nat}
    (live : (u.att att).destroying = false)
    (inside : InWindow (u.place att) vaddr) :
    AsksFor u att vaddr (faultSource (u.att att) vaddr) := by
  intro seg apTg segTg env alive mine theirs
  unfold faultPin
  extract_lets record segVaddr
  have here : ¬ (vaddr < record.atVaddr ∨
      u64 (record.atVaddr + record.atSize) < u64 (vaddr + 1)) := inside
  have kept : record.destroying = false := live
  rw [alive, kept, mine, theirs, if_neg Bool.false_ne_true,
    if_neg (by decide), if_neg here]
  rfl

theorem faultPin_of_not_inWindow {att : AttPtr} {vaddr : Nat}
    (outside : ¬ InWindow (u.place att) vaddr) (seg : SegPtr)
    (apTg segTg : TgPtr) (env : FaultEnv) :
    faultPin u att seg apTg segTg vaddr env = (u, 0) := by
  unfold faultPin
  extract_lets record segVaddr
  split
  · rfl
  · split
    · rfl
    · have here : vaddr < record.atVaddr ∨
          u64 (record.atVaddr + record.atSize) < u64 (vaddr + 1) :=
        not_not.mp outside
      rw [if_pos here]

theorem pinsNothing_of_not_inWindow {att : AttPtr} {vaddr : Nat}
    (outside : ¬ InWindow (u.place att) vaddr) :
    PinsNothing u att vaddr := by
  intro mm vma env segTg carries
  unfold xpmemFaultHandler
  split
  · exact .some (.refl u)
  · rw [carries]
    dsimp -zeta only
    extract_lets one permit two apTg three left lower seg four owner five
    have entered : Gains segTg [] u three :=
      ((Gains.modAtt u att _).trans (.modAp one permit _)).trans
        (.modTg two apTg rfl)
    split
    · refine .some ?_
      exact ((entered.trans (.attDeref three att)).trans
        (.apDeref left permit)).trans (.tgDeref lower apTg)
    · have taken : Gains segTg [] u five :=
        (entered.trans (.modSeg three seg rfl)).trans
          (.modTg four owner rfl)
      have spared : Clears u five :=
        ((((Clears.ref u (.att att)).trans (.ref one (.ap permit))).trans
          (.ref two (.tg apTg))).trans (.ref three (.seg seg))).trans
            (.ref four (.tg owner))
      clear_value five
      unfold xpmemBlockRecallPFNs
      split
      · exact .none
      · refine .map (.some ?_)
        extract_lets pinned unblocked fewer fewest mapped rest last
        have same : (five.modTg owner fun tg =>
            { tg with nRecallPFNs := tg.nRecallPFNs - 1 }).place =
              u.place := spared.place
        have nothing : pinned = (five.modTg owner fun tg =>
            { tg with nRecallPFNs := tg.nRecallPFNs - 1 }, 0) := by
          have missed := faultPin_of_not_inWindow (same ▸ outside) seg
            apTg owner env
          exact ite_eq_left_iff.mpr fun _ => missed
        have unmapped : mapped = (fewest, .sigbus) := by
          change faultMap fewest mm seg vaddr pinned.2 env = _
          rw [nothing, faultMap, if_neg (fun both => both.1 rfl)]
        have blocked : Gains segTg [] u pinned.1 := by
          rw [nothing]
          refine taken.trans ?_
          dsimp only
          apply Gains.modTg
          rfl
        have released : Gains segTg [] u fewest :=
          ((blocked.trans (.modTg pinned.1 owner rfl)).trans
            (.apDeref unblocked permit)).trans (.tgDeref fewer apTg)
        have mappedGains : Gains segTg [] u mapped.1 := by
          rw [unmapped]
          exact released
        exact ((mappedGains.trans (.tgDeref mapped.1 owner)).trans
          (.segDeref rest seg)).trans (.attDeref last att)

/-- The bytes of an attachment in terms of its place and its source. -/
theorem Attached.shows {place : Place} {base extent offset size : Nat}
    {address : Nat} (straight : base + extent ≤ K.taskSize)
    (low : offset < 2 ^ 63) (small : size + pageSize ≤ 2 ^ 64)
    (fits : u64 (offset + size) ≤ extent)
    (attached : Attached K place (u64 (base + offset))
      (size + offsetInPage (u64 (base + offset))) address)
    {index : Nat} (inside : index < size) :
    offset + index < extent ∧
      place.start ≤ pageMask (address + index) ∧
      address + index < place.start + place.size ∧
      place.source = base + offset ∧
      address = place.start + offsetInPage (base + offset) := by
  obtain ⟨source, length, nonempty, aligned, below, returned⟩ := attached
  have bound := K.taskSize_le
  have total : offset + size < 2 ^ 64 := by omega
  rw [u64_of_lt total] at fits
  have window : u64 (base + offset) = base + offset :=
    u64_of_lt (by omega)
  rw [window] at source length below returned
  have inPage : offsetInPage (base + offset) < pageSize :=
    Nat.mod_lt _ (by decide)
  rw [u64_of_lt (by omega)] at returned
  refine ⟨by omega, ?_, by omega, source, returned⟩
  unfold pageMask
  unfold pageSize at *
  omega

/-- The source of an address in the page of byte `index`. -/
theorem faultSource_of_shows {record : Attachment} {source index : Nat}
    {vaddr : Nat} (shown : record.vaddr = source)
    (aligned : record.atVaddr % pageSize = 0)
    (low : pageMask (record.atVaddr + offsetInPage source + index) ≤ vaddr)
    (high : vaddr ≤ record.atVaddr + offsetInPage source + index)
    (small : record.atVaddr + offsetInPage source + index < 2 ^ 64)
    (below : source + index < 2 ^ 64) :
    faultSource record vaddr / pageSize = (source + index) / pageSize := by
  subst shown
  unfold faultSource u64 u64Sub offsetInPage pageMask at *
  unfold pageSize at *
  omega

/--
An attachment shows the window that was asked for, and nothing else.  The
kernel may give the handler any address up to the byte in the byte's page.
-/
theorem xpmemAttach_shows {current : Task} {mm : MmPtr}
    {apid offset size vaddr : BitVec 64} {env : AttachEnv} {address : Nat}
    {permit : ApPtr} (found : s.resolveAp apid = some permit)
    (straight : s.Straight (s.ap permit).seg)
    (attached : xpmemAttach s current mm apid offset size vaddr env =
      some (t, .ok address))
    (stays : Stays t u s.nextAtt) :
    let record := s.seg (s.ap permit).seg
    (∀ index < pageAlign size.toNat,
      offset.toNat + index < record.size ∧
      ∀ fault, pageMask (address + index) ≤ fault →
        fault ≤ address + index →
        ∃ source, AsksFor u s.nextAtt fault source ∧
          source / pageSize =
            (record.vaddr + offset.toNat + index) / pageSize) ∧
    ∀ fault < K.taskSize,
      fault < (u.att s.nextAtt).atVaddr ∨
        (u.att s.nextAtt).atVaddr + (u.att s.nextAtt).atSize ≤ fault →
      PinsNothing u s.nextAtt fault := by
  intro record
  obtain ⟨low, _, small, fits, shown⟩ :=
    xpmemAttach_attached found attached
  rw [← stays.place] at shown
  have bound := K.taskSize_le
  have below : (u.place s.nextAtt).start + (u.place s.nextAtt).size ≤
      K.taskSize := by
    rw [shown.length]
    exact shown.below
  refine ⟨fun index inside => ?_, fun fault user outside => ?_⟩
  · obtain ⟨within, first, last, source, returned⟩ :=
      shown.shows straight low small fits inside
    refine ⟨within, fun fault lower upper => ?_⟩
    refine ⟨_, asksFor_of_inWindow stays.live ?_, ?_⟩
    · rw [InWindow, u64_of_lt (by omega), u64_of_lt (by omega)]
      omega
    · rw [returned] at lower upper last
      rw [State.Straight] at straight
      have smallPlace : (u.place s.nextAtt).start + offsetInPage
          ((s.seg (s.ap permit).seg).vaddr + offset.toNat) + index <
            2 ^ 64 := by omega
      have smallSource : (s.seg (s.ap permit).seg).vaddr + offset.toNat +
          index < 2 ^ 64 := by omega
      exact faultSource_of_shows source shown.aligned lower upper
        smallPlace smallSource
  · apply pinsNothing_of_not_inWindow
    rw [InWindow, not_not, u64_of_lt (by omega), u64_of_lt (by omega)]
    change fault < (u.place s.nextAtt).start ∨
      (u.place s.nextAtt).start + (u.place s.nextAtt).size ≤ fault
        at outside
    omega

/-- One page of a segment of two, whose attachment begins at `0x20000`. -/
theorem xpmemAttach_shows_page :
    ∃ s t : State fourLevel,
      s.resolveAp 0x100000001 = some 0 ∧ s.Straight (s.ap 0).seg ∧
      xpmemAttach s ⟨1, some 0⟩ 0 0x100000001 0x1000 0x800 0
        ⟨false, some 0x20000⟩ = some (t, .ok 0x20000) ∧
      Stays t t 0 ∧
      ∃ source, AsksFor t 0 0x20000 source ∧ source / pageSize = 0x11 := by
  obtain ⟨events, s, run, found, straight, next, base, attached⟩ := exists_run
    step ({} : State fourLevel) (fun _ _ => True)
    [.spawn 1, .openDev 1 {}, .mmap 1 0x10000 0x14000 false,
      .ioctl 1 (.make 0x10000 0x2000 1 0o600) {},
      .ioctl 1 (.get 0x100000001 2 1 0) {}]
    (fun _ s => s.resolveAp 0x100000001 = some 0 ∧
      (s.seg (s.ap 0).seg).vaddr + (s.seg (s.ap 0).seg).size ≤
        fourLevel.taskSize ∧ s.nextAtt = 0 ∧
      (s.seg (s.ap 0).seg).vaddr = 0x10000 ∧
      ((xpmemAttach s ⟨1, some 0⟩ 0 0x100000001 0x1000 0x800 0
        ⟨false, some 0x20000⟩).any fun attached =>
          attached.2.toOption == some 0x20000 &&
            !(attached.1.att 0).destroying) = true)
    (by decide +kernel)
  rw [Option.any_eq_true] at attached
  obtain ⟨⟨t, result⟩, equal, passed⟩ := attached
  simp only [Bool.and_eq_true, Bool.not_eq_true', beq_iff_eq] at passed
  cases result with
  | error => cases passed.1
  | ok address =>
      cases passed.1
      have stays : Stays t t 0 := ⟨rfl, passed.2⟩
      refine ⟨s, t, found, straight, equal, stays, ?_⟩
      have shows := xpmemAttach_shows found straight equal
        (next.symm ▸ stays)
      rw [next] at shows
      have first := (shows.1 0 (by decide)).2 0x20000 (by decide) (by decide)
      rw [base] at first
      exact first

end Xpmem.Driver
