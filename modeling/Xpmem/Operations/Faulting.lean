import Mathlib.Tactic.Abel
import Xpmem.Operations.Detaching

/-!
# Faults on attached areas

What `xpmem_fault_handler` reaches: it pins the source page, which the kernel
may have to map first, and then inserts the frame into the page table of the
attachment, or puts the page again when a leaf is there already.  A page that
was pinned and cannot be inserted is leaked.
-/

namespace Xpmem.Driver

open Xpmem.Foundation Xpmem.Kernel Xpmem.Objects

variable {K : Platform} {tidy : Prop} {origin s t u : State K}
    {first held : Held}

/-- Objects, areas and places stay; leaves may change. -/
structure SamePlaces (s t : State K) : Prop where
  objects : t.objects = s.objects
  vmas : t.vmas = s.vmas
  place : t.place = s.place

namespace SamePlaces

theorem of_shape (same : t.shape = s.shape) : SamePlaces s t where
  objects := objects_eq_of_shape same
  vmas := congrArg (fun u => u.vmas) same
  place := funext fun att => congrArg (fun u => u.place att) same

theorem trans (earlier : SamePlaces s t) (later : SamePlaces t u) :
    SamePlaces s u where
  objects := later.objects.trans earlier.objects
  vmas := later.vmas.trans earlier.vmas
  place := later.place.trans earlier.place

theorem setTable (s : State K) (mm : MmPtr) (table : PageTable K) :
    SamePlaces s (s.setTable mm table) where
  objects := State.objects_modMm s mm rfl
  vmas := s.vmas_setTable mm table
  place := rfl

theorem setValid (s : State K) (att : AttPtr) (value : Bool) :
    SamePlaces s (s.setValid att value) where
  objects := State.objects_modAtt s att rfl
  vmas := rfl
  place := s.place_setValid att value

theorem segOf (same : SamePlaces s t) (att : AttPtr) :
    t.segOf att = s.segOf att :=
  segOf_of_objects same.objects att

theorem seg_tg (same : SamePlaces s t) (seg : SegPtr) :
    (t.seg seg).tg = (s.seg seg).tg :=
  congrArg (fun u => (u.seg seg).tg) same.objects

theorem sourceMm (same : SamePlaces s t) (att : AttPtr) :
    t.sourceMm att = s.sourceMm att := by
  rw [State.sourceMm, same.segOf, same.seg_tg]
  exact congrArg (fun u => (u.tg (s.seg (s.segOf att)).tg).mm) same.objects

theorem sourcePage (same : SamePlaces s t) (att : AttPtr) (index : Nat) :
    t.sourcePage att index = s.sourcePage att index := by
  have source := congrArg Place.source (congrFun same.place att)
  change (t.att att).vaddr = (s.att att).vaddr at source
  rw [State.sourcePage, source]
  rfl

theorem bound (same : SamePlaces s t) (held : Held) :
    t.Bound held = s.Bound held :=
  State.bound_of_objects same.objects held

theorem straight (same : SamePlaces s t) (seg : SegPtr) :
    t.Straight seg ↔ s.Straight seg := by
  have vaddr : (t.seg seg).vaddr = (s.seg seg).vaddr :=
    congrArg (fun u => (u.seg seg).vaddr) same.objects
  have size : (t.seg seg).size = (s.seg seg).size :=
    congrArg (fun u => (u.seg seg).size) same.objects
  rw [State.Straight, vaddr, size]
  rfl

theorem ordinary (same : SamePlaces s t) {mm : MmPtr} {page : Nat} :
    t.Ordinary mm page ↔ s.Ordinary mm page := by
  rw [State.Ordinary, same.vmas]
  rfl

theorem shows (same : SamePlaces s t) (pte : t.pte = s.pte) {att : AttPtr}
    {index : Nat} {frame : Frame} :
    t.Shows att index frame ↔ s.Shows att index frame := by
  rw [State.Shows, same.sourceMm, same.sourcePage, same.vmas, pte]
  rfl

end SamePlaces

/-! ## Pinning -/

/-- The page is mapped to the frame in an ordinary area. -/
def State.Backs (s : State K) (mm : MmPtr) (page : Nat) (frame : Frame) :
    Prop :=
  s.pte mm page = some frame ∧ s.Ordinary mm page

/-- What `xpmem_pin_page` leaves: nothing, or a page that was pinned. -/
def Pinning (tidy : Prop) (origin : State K) (first : Held) (s : State K)
    (held : Held) (group : TgPtr) (mm : MmPtr) (vaddr : Nat) :
    State K × Except Errno Frame → Prop
  | (t, .error _) => t = s
  | (t, .ok pfn) =>
      SamePlaces s t ∧
        (pfn = 0 ∧ t = s ∨ pfn ≠ 0 ∧
          Reaches tidy origin first t (.pin group pfn ::ₘ held) ∧
          t.Backs mm (vaddr / pageSize) pfn)

/-- The area of an address contains the page of the address. -/
theorem WellFormed.ordinary (formed : WellFormed s held) {mm : MmPtr}
    {area : Vma} {vaddr : Nat}
    (found : (s.mm mm).vmaAt vaddr = some area)
    (plain : area.payload.xpmemOps = false) :
    s.Ordinary mm (vaddr / pageSize) := by
  obtain ⟨member, contains⟩ := RangeList.containing_eq_some_iff.mp found
  obtain ⟨aligned, _, _⟩ := formed.laid.placed.fits mm area member
  refine ⟨area, member, plain, ?_⟩
  unfold Range.Contains at *
  unfold pageSize at *
  omega

theorem Reaches.pinPage (reaches : Reaches tidy origin first s held)
    {group : TgPtr} (used : s.graph.Used (.tg group)) (mm : MmPtr)
    (vaddr : Nat) {gup : Gup} (positive : gup ≠ .page 0) :
    Pinning tidy origin first s held group mm vaddr
      (xpmemPinPage s group mm vaddr gup) := by
  have formed := reaches.formed
  unfold xpmemPinPage
  split
  · rfl
  rename_i area found
  split
  · rfl
  rename_i plain
  rw [Bool.not_eq_true] at plain
  have ordinary := formed.ordinary found plain
  split
  · rfl
  · exact ⟨.of_shape rfl, .inl ⟨rfl, rfl⟩⟩
  rename_i fresh
  have frames : fresh ≠ 0 := by
    rintro rfl
    exact positive rfl
  cases leaf : (s.mm mm).frameAt vaddr with
  | some frame =>
      have nonzero : frame ≠ 0 :=
        formed.laid.mapped.positive mm _ frame leaf
      have same : getUserPagesRemote s mm vaddr fresh =
          { s with
            pageRefs := Function.update s.pageRefs frame
              (s.pageRefs frame + 1) } := by
        simp [getUserPagesRemote, gupFrame, leaf, State.modMm]
      simp only [gupFrame, leaf, Option.getD_some, same]
      exact ⟨.of_shape (shape_countPin s group frame),
        .inr ⟨nonzero, .act reaches (.pin frame used), leaf, ordinary⟩⟩
  | none =>
      let mapped := s.setTable mm
        ((s.mm mm).table.map (vaddr / pageSize) fresh)
      have same : getUserPagesRemote s mm vaddr fresh =
          { mapped with
            pageRefs := Function.update s.pageRefs fresh
              (s.pageRefs fresh + 1) } := by
        simp [getUserPagesRemote, gupFrame, leaf, State.modMm, mapped,
          State.setTable, Mm.mapFrame]
      simp only [gupFrame, leaf, Option.getD_none, same]
      have populated : Reaches tidy origin first mapped held :=
        .act reaches (.populate ordinary leaf frames)
      have places : SamePlaces s (mapped.countPin group fresh) :=
        (SamePlaces.setTable s mm _).trans
          (.of_shape (shape_countPin mapped group fresh))
      refine ⟨places, .inr ⟨frames,
        .act populated (.pin fresh used), ?_,
        places.ordinary.mpr ordinary⟩⟩
      change mapped.pte mm (vaddr / pageSize) = some fresh
      rw [State.pte_setTable, Function.update_self, PageTable.map_pte,
        if_pos rfl]

/-! ## Inserting -/

theorem Reaches.faultMap {att : AttPtr} {index : Nat} {pfn vaddr : Nat}
    (reaches : Reaches tidy origin first s
      (.pin (s.seg (s.segOf att)).tg pfn ::ₘ held))
    (present : s.Bound held att) (inside : index < (s.place att).pages)
    (page : vaddr / pageSize = (s.place att).page + index)
    (nonzero : pfn ≠ 0) (valid : s.valid att = true)
    (live : (s.seg (s.segOf att)).destroyed = false)
    (shows : s.Straight (s.segOf att) → s.Shows att index pfn)
    (fresh : ∀ mm start stop, .stale mm start stop ∉ held) {env : FaultEnv}
    (succeeds : tidy → env.pfnValid = true ∧ env.remapOk = true) :
    Reaches tidy origin first
      (faultMap s (s.att att).mm (s.segOf att) vaddr pfn env).1 held := by
  have formed := reaches.formed
  unfold Driver.faultMap
  split
  · extract_lets oldPfn put
    have leaf : oldPfn = (s.leaf att index).getD 0 := by
      change (s.pte (s.att att).mm (vaddr / pageSize)).getD 0 = _
      rw [page]
      rfl
    cases old : s.leaf att index with
    | none =>
        rw [old, Option.getD_none] at leaf
        rw [if_neg (by simp [leaf])]
        split
        · have inserted := Reaches.act reaches (.insert present inside old
            nonzero valid live shows)
          rw [← page] at inserted
          exact inserted
        · rename_i failed
          exact .act reaches (.leak _ pfn fun orderly =>
            failed (succeeds orderly).2)
    | some frame =>
        have positive : frame ≠ 0 :=
          formed.laid.mapped.positive _ _ frame old
        rw [old, Option.getD_some] at leaf
        rw [leaf, if_pos positive]
        split
        · exact .act reaches (.putBack (s.segOf att) _ pfn)
        · rename_i distinct
          have pinned : s.Bound
              (.pin (s.seg (s.segOf att)).tg pfn ::ₘ held) att :=
            ⟨present.1, by simpa using present.2⟩
          have logged := Reaches.act reaches (.mismatch pinned inside old
            distinct shows (by simpa using fresh))
          exact .act logged (.putBack (s.segOf att) _ pfn)
  · rename_i invalid
    refine .act reaches (.leak _ pfn fun orderly => invalid ?_)
    exact ⟨nonzero, (succeeds orderly).1⟩

/-! ## The handler -/

/-- The page of an attachment that an address lies in. -/
def State.indexOf (s : State K) (att : AttPtr) (vaddr : Nat) : Nat :=
  vaddr / pageSize - (s.place att).page

/-- The address lies in the place of the attachment. -/
def State.Within (s : State K) (att : AttPtr) (vaddr : Nat) : Prop :=
  (s.place att).start ≤ vaddr ∧
    vaddr < (s.place att).start + (s.place att).size

theorem WellFormed.indexOf (formed : WellFormed s held) {att : AttPtr}
    (present : s.Bound held att) {vaddr : Nat}
    (within : s.Within att vaddr) :
    s.indexOf att vaddr < (s.place att).pages ∧
      vaddr / pageSize = (s.place att).page + s.indexOf att vaddr := by
  obtain ⟨start, size, _, _, _, _⟩ := formed.bounds present
  obtain ⟨low, high⟩ := within
  unfold State.indexOf Place.pages Place.page
  unfold pageSize at *
  omega

/-- The source address of a fault lies in the page that is shown. -/
theorem WellFormed.source_page (formed : WellFormed s held) {att : AttPtr}
    (present : s.Bound held att) {vaddr : Nat}
    (within : s.Within att vaddr) (straight : s.Straight (s.segOf att)) :
    u64 (pageMask (s.att att).vaddr + u64Sub vaddr (s.att att).atVaddr) /
        pageSize = s.sourcePage att (s.indexOf att vaddr) := by
  have limit := K.taskSize_le
  have small := formed.source_lt present straight
  obtain ⟨start, size, _, below, source, _⟩ := formed.bounds present
  obtain ⟨low, high⟩ := within
  change (s.att att).vaddr + (s.place att).size < 2 ^ 64 at small
  change (s.att att).vaddr % pageSize = 0 at source
  change (s.place att).start ≤ vaddr at low
  change u64 (pageMask (s.att att).vaddr +
    u64Sub vaddr (s.place att).start) / pageSize = _
  unfold State.sourcePage State.indexOf Place.page u64 u64Sub pageMask
  unfold pageSize at *
  omega

/-- What `xpmem_fault_handler` has when it has given up the segment. -/
def Faulted (tidy : Prop) (origin : State K) (first : Held) (s : State K)
    (held : Held) (att : AttPtr) (vaddr : Nat) :
    State K × Frame → Prop
  | (t, pfn) =>
      SamePlaces s t ∧
        (pfn = 0 ∧ Reaches tidy origin first t held ∨
          pfn ≠ 0 ∧
            Reaches tidy origin first t
              (.pin (s.seg (s.segOf att)).tg pfn ::ₘ held) ∧
            t.valid att = true ∧
            (s.seg (s.segOf att)).destroying = false ∧
            (t.Straight (t.segOf att) →
              t.Shows att (s.indexOf att vaddr) pfn))

theorem Reaches.faultPin (reaches : Reaches tidy origin first s held)
    {att : AttPtr} (present : s.Bound held att) {vaddr : Nat}
    (within : s.Within att vaddr) (apTg segTg : TgPtr) {env : FaultEnv}
    (positive : env.gup ≠ .page 0) :
    Faulted tidy origin first s held att vaddr
      (faultPin s att (s.segOf att) apTg segTg vaddr env) := by
  have formed := reaches.formed
  have nothing : Faulted tidy origin first s held att vaddr (s, 0) :=
    ⟨.of_shape rfl, .inl ⟨rfl, reaches⟩⟩
  unfold Driver.faultPin
  extract_lets record segVaddr
  split
  · exact nothing
  split
  · exact nothing
  split
  · exact nothing
  unfold xpmemEnsureValidPFN
  extract_lets group
  by_cases destroying : (s.seg (s.segOf att)).destroying = true
  · rw [if_pos destroying]
    exact nothing
  rw [if_neg destroying]
  rw [Bool.not_eq_true] at destroying
  have linked : s.graph.Linked (.seg (s.segOf att)) := by
    have used := formed.graph.used_seg (formed.graph.linked_ap present.1).1
    by_contra ended
    have gone := formed.graph.ended (.seg (s.segOf att)) used ended
    have live : s.graph.destroyed (.seg (s.segOf att)) = false :=
      formed.destroyed_eq_false destroying
    exact absurd (gone.symm.trans live) (by simp)
  have used : s.graph.Used (.tg group) :=
    formed.graph.used _ (formed.graph.linked_tg_of_seg linked).1
  have pins := reaches.pinPage used (s.tg group).mm segVaddr positive
  cases result : xpmemPinPage s group (s.tg group).mm segVaddr env.gup with
  | mk t outcome =>
      rw [result] at pins
      cases outcome with
      | error error =>
          rw [show t = s from pins]
          exact nothing
      | ok pfn =>
          obtain ⟨places, outcome⟩ := pins
          change Faulted tidy origin first s held att vaddr
            (t.setValid att true, pfn)
          have marked := SamePlaces.setValid t att true
          have total := places.trans marked
          rcases outcome with ⟨zero, same⟩ | ⟨nonzero, pinned, backs⟩
          · subst same
            refine ⟨total, .inl ⟨zero, .act reaches (.setValid att true
              nofun)⟩⟩
          · refine ⟨total, .inr ⟨nonzero, .act pinned (.setValid att true
              nofun), ?_, destroying, ?_⟩⟩
            · rw [State.valid_setValid, if_pos rfl]
            · intro straight
              rw [total.segOf, total.straight] at straight
              have page := formed.source_page present within straight
              change segVaddr / pageSize = _ at page
              rw [page] at backs
              rw [State.Shows, total.sourceMm, total.sourcePage]
              exact ⟨backs.1, total.ordinary.mpr
                (places.ordinary.mp backs.2)⟩

theorem shape_recallCount (s : State K) (group : TgPtr)
    (count : Int → Int) :
    (s.modTg group fun tg =>
      { tg with nRecallPFNs := count tg.nRecallPFNs }).shape = s.shape :=
  s.shape_modTg group rfl

/-- The end of the handler, from where it has a frame or none. -/
theorem Faulted.finish {att : AttPtr} {permit : ApPtr} {apTg segTg : TgPtr}
    {vaddr : Nat} {faulted : State K × Frame}
    (pinned : Faulted tidy origin first s
      (.ref (.ap permit) ::ₘ .ref (.tg apTg) ::ₘ .ref (.tg segTg) ::ₘ
        .ref (.seg (s.segOf att)) ::ₘ .ref (.att att) ::ₘ 0) att vaddr
      faulted)
    (present : s.Bound 0 att) (within : s.Within att vaddr) {mm : MmPtr}
    (home : (s.att att).mm = mm) {env : FaultEnv}
    (succeeds : tidy → env.pfnValid = true ∧ env.remapOk = true)
    (formed : WellFormed s
      (.ref (.ap permit) ::ₘ .ref (.tg apTg) ::ₘ .ref (.tg segTg) ::ₘ
        .ref (.seg (s.segOf att)) ::ₘ .ref (.att att) ::ₘ 0)) :
    let unblocked := xpmemUnblockRecallPFNs faulted.1 segTg
    let fewest := (unblocked.xpmemApDeref permit).xpmemTgDeref apTg
    let mapped := faultMap fewest mm (s.segOf att) vaddr faulted.2 env
    Reaches tidy origin first
      (((mapped.1.xpmemTgDeref segTg).xpmemSegDeref
        (s.segOf att)).xpmemAttDeref att) 0 := by
  obtain ⟨t, pfn⟩ := faulted
  intro unblocked fewest mapped
  obtain ⟨places, outcome⟩ := pinned
  have shape : fewest.shape = t.shape := by
    rw [shape_xpmemTgDeref, shape_xpmemApDeref]
    exact shape_recallCount t segTg (· + 1)
  have total := places.trans (.of_shape shape)
  have minor : unblocked.main = t.main := t.main_modTg segTg rfl
  rcases outcome with ⟨zero, reached⟩ |
    ⟨nonzero, reached, valid, live, shows⟩
  · have same : mapped = (fewest, .sigbus) := by
      change faultMap fewest mm (s.segOf att) vaddr pfn env = _
      rw [faultMap, zero, if_neg (fun both => both.1 rfl)]
    rw [same]
    have left : Reaches tidy origin first unblocked _ :=
      .act reached (.minor minor)
    exact left.apDeref.tgDeref.tgDeref.segDeref.attDeref
  · have left : Reaches tidy origin first unblocked _ :=
      .act reached (.minor minor)
    have kept : Reaches tidy origin first fewest
        (.pin (s.seg (s.segOf att)).tg pfn ::ₘ .ref (.tg segTg) ::ₘ
          .ref (.seg (s.segOf att)) ::ₘ .ref (.att att) ::ₘ 0) :=
      left.swap.apDeref.swap.tgDeref
    have bound : fewest.Bound (.ref (.tg segTg) ::ₘ
        .ref (.seg (s.segOf att)) ::ₘ .ref (.att att) ::ₘ 0) att := by
      rw [total.bound]
      exact ⟨present.1, by simp⟩
    have index := formed.indexOf ⟨present.1, by simp⟩ within
    rw [← congrFun total.place att] at index
    have owner : (fewest.seg (fewest.segOf att)).tg =
        (s.seg (s.segOf att)).tg := by
      rw [total.segOf, total.seg_tg]
    have flagged : fewest.valid att = true :=
      (congrArg (fun v => v.valid att) shape).trans valid
    have standing : fewest.graph.destroying (.seg (fewest.segOf att)) =
        false := by
      rw [total.segOf]
      exact (congrArg (fun v => (v.seg (s.segOf att)).destroying)
        total.objects).trans live
    have showing : fewest.Straight (fewest.segOf att) →
        fewest.Shows att (s.indexOf att vaddr) pfn := by
      have same := SamePlaces.of_shape shape
      rw [same.segOf, same.straight,
        same.shows (congrArg (fun v => v.pte) shape)]
      exact shows
    have step := Reaches.faultMap (by rw [owner]; exact kept) bound
      index.1 index.2 nonzero flagged
      (kept.formed.destroyed_eq_false standing) showing (by simp) succeeds
    have space : (fewest.att att).mm = mm :=
      (congrArg Place.mm (congrFun total.place att)).trans home
    rw [space, total.segOf] at step
    exact step.tgDeref.segDeref.attDeref

/-- A fault at an address of an attached area. -/
theorem Reaches.fault (formed : WellFormed s 0) {mm : MmPtr} {area : Vma}
    {vaddr : Nat} (found : (s.mm mm).vmaAt vaddr = some area)
    {env : FaultEnv} (positive : env.gup ≠ .page 0)
    (succeeds : tidy → env.pfnValid = true ∧ env.remapOk = true) :
    Always (xpmemFaultHandler s mm area vaddr env) fun result =>
      Reaches tidy s 0 result.1 0 := by
  have start : Reaches tidy s 0 s 0 := .here formed
  unfold xpmemFaultHandler
  split
  · exact .some start
  split
  · exact .some start
  rename_i att carries
  obtain ⟨member, contains⟩ := RangeList.containing_eq_some_iff.mp found
  obtain ⟨present, home, occupies⟩ :=
    formed.laid.placed.attached mm area member att carries
  have linked := present.1
  obtain ⟨permits, _⟩ := formed.graph.linked_ap linked
  obtain ⟨groups, _⟩ := formed.graph.linked_tg_of_ap permits
  extract_lets one permit two apTg three left lower seg four segTg five
  have oneShape : one.shape = s.shape := shape_xpmemAttRef s att
  have owner : permit = (s.att att).ap :=
    congrArg (fun u => (u.att att).ap) oneShape
  have twoShape : two.shape = s.shape :=
    (shape_xpmemApRef one permit).trans oneShape
  have holder : apTg = (s.ap permit).tg :=
    congrArg (fun u => (u.ap permit).tg) twoShape
  have threeShape : three.shape = s.shape :=
    (shape_xpmemTgRef two apTg).trans twoShape
  have referred : Reaches tidy s 0 one (.ref (.att att) ::ₘ 0) :=
    start.attRef linked
  have permitted : Reaches tidy s 0 two
      (.ref (.ap permit) ::ₘ .ref (.att att) ::ₘ 0) := by
    refine referred.apRef ?_
    rw [State.graph_eq_of_shape oneShape, owner]
    exact permits
  have grouped : Reaches tidy s 0 three
      (.ref (.tg apTg) ::ₘ .ref (.ap permit) ::ₘ .ref (.att att) ::ₘ 0) := by
    refine permitted.tgRef ?_
    rw [State.graph_eq_of_shape twoShape, holder, owner]
    exact groups
  split
  · exact .some grouped.third.attDeref.swap.apDeref.tgDeref
  have source : seg = s.segOf att := by
    have same : seg = (s.ap permit).seg :=
      congrArg (fun u => (u.ap permit).seg) threeShape
    rw [same, owner]
    rfl
  have fourShape : four.shape = s.shape :=
    (shape_xpmemSegRef three seg).trans threeShape
  have target : segTg = (three.seg seg).tg :=
    congrArg (fun u => (u.seg seg).tg) (shape_xpmemSegRef three seg)
  have taken : Reaches tidy s 0 five
      (.ref (.tg segTg) ::ₘ .ref (.seg seg) ::ₘ .ref (.tg apTg) ::ₘ
        .ref (.ap permit) ::ₘ .ref (.att att) ::ₘ 0) := by
    change Reaches tidy s 0 (four.xpmemTgRef segTg) _
    rw [target]
    refine grouped.sourceRefs ?_
    rw [State.graph_eq_of_shape threeShape, owner]
    exact permits
  have fiveShape : five.shape = s.shape :=
    (shape_xpmemTgRef four segTg).trans fourShape
  clear_value five
  unfold xpmemBlockRecallPFNs
  split
  · exact .none
  refine .map (.some ?_)
  generalize blocked : (five.modTg segTg fun tg =>
    { tg with nRecallPFNs := tg.nRecallPFNs - 1 }) = six
  have minor : six.main = five.main := by
    rw [← blocked]
    exact five.main_modTg segTg rfl
  have shape : six.shape = s.shape :=
    (State.shape_eq_of_main minor).trans fiveShape
  have places := SamePlaces.of_shape shape
  rw [← places.segOf] at source
  have reached : Reaches tidy s 0 six
      (.ref (.ap permit) ::ₘ .ref (.tg apTg) ::ₘ .ref (.tg segTg) ::ₘ
        .ref (.seg (six.segOf att)) ::ₘ .ref (.att att) ::ₘ 0) := by
    rw [← source]
    refine Reaches.of_eq (.act taken (.minor minor)) ?_
    simp only [← Multiset.singleton_add]
    abel
  have bound : six.Bound 0 att := by
    rw [places.bound]
    exact present
  have within : six.Within att vaddr := by
    rw [State.Within, congrFun places.place att]
    have start := occupies.start
    have stop := occupies.stop
    obtain ⟨low, high⟩ := contains
    omega
  have space : (six.att att).mm = mm :=
    (congrArg Place.mm (congrFun places.place att)).trans home
  rw [source]
  refine Faulted.finish ?_ bound within space succeeds reached.formed
  split
  · exact ⟨.of_shape rfl, .inl ⟨rfl, reached⟩⟩
  · exact reached.faultPin ⟨bound.1, by simp⟩ within apTg segTg positive

end Xpmem.Driver
