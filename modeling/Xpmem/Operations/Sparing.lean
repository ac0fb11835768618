import Xpmem.Operations.Clearing

/-!
# What clearing spares

In any state, well-formed or not, the walks that clear PTEs leave all objects
as they are, with their lists and places, and give back every reference they
take.  Unmapping areas that carry no attachment closes nothing of the driver,
so it spares the objects as well.
-/

namespace Xpmem.Driver

open Xpmem.Foundation Xpmem.Kernel Xpmem.Objects

variable {K : Platform} {s t u : State K}

theorem Clears.ref (s : State K) (object : Ref) : Clears s (s.ref object) :=
  .of_shape (s.shape_ref object)

theorem Clears.deref (s : State K) (object : Ref) :
    Clears s (s.deref object) :=
  .of_shape (s.shape_deref object)

/-- PTEs are cleared, and all reference counts are what they were. -/
structure Spares (s t : State K) : Prop extends Clears s t where
  refcnt : t.refcnt = s.refcnt

namespace Spares

theorem refl (s : State K) : Spares s s :=
  ⟨.refl s, rfl⟩

theorem trans (earlier : Spares s t) (later : Spares t u) : Spares s u :=
  ⟨earlier.toClears.trans later.toClears,
    later.refcnt.trans earlier.refcnt⟩

/-- A reference that is taken before a walk is given back after it. -/
theorem around {object : Ref} (spares : Spares (s.ref object) t) :
    Spares s (t.deref object) where
  toClears := ((Clears.ref s object).trans spares.toClears).trans
    (.deref t object)
  refcnt := by
    funext other
    rw [State.refcnt_deref, spares.refcnt, State.refcnt_ref]
    omega

/-- A walk of visits that spare the objects spares them. -/
theorem foldlM {β : Type} {list : List β}
    {visit : State K → β → Option (State K)}
    (visited : ∀ pre element, Always (visit pre element) (Spares pre)) :
    Always (list.foldlM visit s) (Spares s) :=
  .foldlM (.refl s) fun pre element _ spares =>
    (visited pre element).mono fun _ later => spares.trans later

theorem putPages (s : State K) (seg : SegPtr) (put : List (Nat × Frame)) :
    Spares s (putPages s seg put) where
  toClears := .of_shape (shape_putPages s seg put)
  refcnt := by
    rw [putPages_eq]
    funext object
    cases object with
    | tg group =>
        by_cases here : group = (s.seg seg).tg
        · simp [State.refcnt, State.modTg, here]
        · simp [State.refcnt, State.modTg, here]
    | seg | ap | att => rfl

theorem zapVmaPtes (s : State K) (mm : MmPtr) (vma : Vma)
    (addr size : Nat) :
    Spares s (s.modMm mm fun mm => mm.zapVmaPtes vma addr size) := by
  unfold Mm.zapVmaPtes
  by_cases outside : addr < vma.start ∨ vma.stop < addr + size ∨
      vma.payload.pfnmap = false
  · simp only [if_pos outside]
    have same : (s.modMm mm fun mm => mm) = s := by
      simp [State.modMm]
    rw [same]
    exact .refl s
  · simp only [if_neg outside]
    exact ⟨.clearTable s mm (addr / pageSize) ((addr + size) / pageSize),
      rfl⟩

theorem setValid (s : State K) (att : AttPtr) :
    Spares s (s.modAtt att fun att => { att with validPTEs := false }) where
  toClears := .setValid s att
  refcnt := by
    funext object
    cases object with
    | att other =>
        by_cases here : other = att
        · simp [State.refcnt, State.modAtt, here]
        · simp [State.refcnt, State.modAtt, here]
    | tg | seg | ap => rfl

end Spares

/-! ## The walks -/

theorem spares_xpmemClearPTEsOfAtt (s : State K) (att : AttPtr)
    (start stop : Nat) (fromMmu : Bool) :
    Always (xpmemClearPTEsOfAtt s att start stop fromMmu) (Spares s) := by
  unfold xpmemClearPTEsOfAtt
  extract_lets record attVaddrEnd invalidateStart invalidateEnd
    offsetStart offsetEnd unpinAt invalidateLen
  split
  · exact .some (.refl s)
  · split
    · exact .some (.refl s)
    · split
      · exact .some (.refl s)
      · refine .bind (.map fun put _ => .map fun zapped zaps => ?_)
        have unpinned : Spares s (putPages s (s.ap record.ap).seg put) :=
          .putPages s _ put
        have cleared : Spares s zapped := by
          unfold zapPTEsOfAtt at zaps
          extract_lets target zap at zaps
          have any (vma : Vma) : Spares s (zap vma) :=
            unpinned.trans (.zapVmaPtes _ _ vma _ _)
          split at zaps
          · split at zaps
            · cases zaps
              exact unpinned
            · cases zaps
              exact any _
          · obtain ⟨vma, _, rfl⟩ := Option.map_eq_some_iff.mp zaps
            exact any vma
        split
        · exact cleared.trans (.setValid zapped att)
        · exact cleared

theorem spares_clearVisitAtt (s : State K) (att : AttPtr)
    (start stop : Nat) (fromMmu : Bool) :
    Always (clearVisitAtt start stop fromMmu s att) (Spares s) := by
  unfold clearVisitAtt
  split
  · refine .map ?_
    have cleared : Always
        (xpmemClearPTEsOfAtt (s.xpmemAttRef att) att start stop fromMmu)
        (Spares (s.ref (.att att))) :=
      spares_xpmemClearPTEsOfAtt _ att start stop fromMmu
    exact cleared.mono fun _ spares => spares.around
  · exact .some (.refl s)

theorem spares_xpmemClearPTEsRange (s : State K) (seg : SegPtr)
    (start stop : Nat) (fromMmu : Bool) :
    Always (xpmemClearPTEsRange s seg start stop fromMmu) (Spares s) := by
  refine Spares.foldlM fun pre permit => .map ?_
  have walked : Always
      (xpmemClearPTEsOfAp (pre.xpmemApRef permit) permit start stop fromMmu)
      (Spares (pre.ref (.ap permit))) :=
    Spares.foldlM fun state att =>
      spares_clearVisitAtt state att start stop fromMmu
  exact walked.mono fun _ spares => spares.around

theorem spares_xpmemInvalidatePTEsRange (s : State K) (segTg : TgPtr)
    (start stop : Nat) :
    Always (xpmemInvalidatePTEsRange s segTg start stop) (Spares s) := by
  refine Spares.foldlM fun pre seg => ?_
  unfold invalidateVisitSeg
  split
  · exact .some (.refl pre)
  · extract_lets segStart segEnd
    split
    · refine .map ?_
      have walked : Always
          (xpmemClearPTEsRange (pre.xpmemSegRef seg) seg start stop true)
          (Spares (pre.ref (.seg seg))) :=
        spares_xpmemClearPTEsRange _ seg start stop true
      exact walked.mono fun _ spares => spares.around
    · exact .some (.refl pre)

theorem spares_xpmemInvalidateRange (s : State K) (current : Task)
    (segTg : TgPtr) (mm : MmPtr) (start stop : Nat) :
    Always (xpmemInvalidateRange s current segTg mm start stop)
      (Spares s) := by
  unfold xpmemInvalidateRange
  split
  · exact .some (.refl s)
  · extract_lets low high
    split
    · exact spares_xpmemInvalidatePTEsRange s segTg low high
    · refine Spares.foldlM fun pre vma => ?_
      unfold invalidateVisitVma
      split
      · exact .some (.refl pre)
      · extract_lets vmStart vmEnd
        split
        · exact .some (.refl pre)
        · split
          · exact .some (.refl pre)
          · exact spares_xpmemInvalidatePTEsRange pre segTg vmStart vmEnd

theorem spares_notifyInvalidateRange (s : State K) (current : Task)
    (mm : MmPtr) (start stop : Nat) :
    Always (notifyInvalidateRange s current mm start stop) (Spares s) :=
  Spares.foldlM fun pre segTg =>
    spares_xpmemInvalidateRange pre current segTg mm start stop

/-! ## Unmapping areas without attachments -/

/-- Closing the area does nothing. -/
def Plain (info : VmaInfo) : Prop :=
  info.xpmemOps = false ∨ info.privateData = none

theorem Plain.copyVma {info : VmaInfo} (plain : Plain info)
    (s : State K) : Plain (copyVma s info) := by
  unfold Driver.copyVma xpmemOpenHandler
  extract_lets copy
  have same : Plain copy := plain
  split
  · split
    · exact same
    · split
      · exact .inr rfl
      · exact same
  · exact same

theorem closeVma_of_plain {vma : Vma} (plain : Plain vma.payload)
    (s : State K) (mm : MmPtr) : closeVma mm s vma = some s := by
  unfold closeVma
  rcases plain with ordinary | free
  · rw [ordinary, if_neg Bool.false_ne_true]
  · unfold xpmemCloseHandler
    rw [free]
    exact ite_self _

/-- Unmapping spares the objects and cuts the range out of the areas. -/
structure Cuts (s t : State K) (mm : MmPtr) (start stop : Nat) : Prop where
  objects : t.objects = s.objects
  place : t.place = s.place
  refcnt : t.refcnt = s.refcnt
  free : (t.vmas mm).Free start stop

theorem cuts_vmMunmap (current : Task) {mm : MmPtr} {start stop : Nat}
    (proper : start < stop)
    (plain : ∀ area ∈ (s.mm mm).vmas.meeting start stop,
      Plain area.payload) :
    Always (vmMunmap s current mm start stop) fun t =>
      Cuts s t mm start stop := by
  unfold vmMunmap
  rw [dif_pos proper]
  split
  · rename_i free
    exact .some ⟨rfl, rfl, rfl, free⟩
  · extract_lets removed
    refine .bind ((spares_notifyInvalidateRange _ current mm start
      stop).mono fun notified spares => ?_)
    have areas := congrFun spares.vmas mm
    have cut : (notified.vmas mm).Free start stop := by
      rw [areas, vmas_unmapRange, Function.update_self]
      exact RangeList.carve_free _ _ _ _ proper
    have cuts : Cuts s notified mm start stop :=
      ⟨spares.objects.trans (s.objects_setSpace mm _ _ _), spares.place,
        spares.refcnt, cut⟩
    refine .foldlM cuts fun pre vma member kept => ?_
    obtain ⟨area, meets, equal⟩ := List.mem_map.mp member
    have spared : Plain vma.payload := by
      rw [← equal]
      split
      · exact plain area meets
      · exact (plain area meets).copyVma s
    rw [closeVma_of_plain spared]
    exact .some kept

end Xpmem.Driver
