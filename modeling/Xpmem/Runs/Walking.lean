import Xpmem.Runs.Coherence

/-!
# Walks over attachments stay exact

The walk of `xpmem_unpin_pages` over an attachment skips absent entries and
counts the pages it skips in an `int`.  Where no skip is too long for that,
the walk finds the mapped pages of its range and no others.  Mapping and
clearing pages only shorten the skips, so an attachment that can be walked
when it is made can be walked until it goes, unless tables are freed.
-/

namespace Xpmem.Driver

open Xpmem.Foundation Xpmem.Kernel Xpmem.Objects

variable {K : Platform} {tidy : Prop} {s t : State K} {held more : Held}
    {att : AttPtr}

/-- The walk over an attachment meets no absent entry that is too long. -/
def State.Walks (s : State K) (att : AttPtr) : Prop :=
  Walkable (s.mm (s.att att).mm).table (s.place att).page
    (s.place att).pages

/-- Every attachment in place can be walked. -/
def AllWalk (s : State K) (held : Held) : Prop :=
  ∀ att, s.Bound held att → s.Walks att

namespace AllWalk

/-- Attachments that stay in place keep the entries above their pages. -/
theorem transfer (walk : AllWalk s held)
    (kept : ∀ att, t.Bound more att →
      s.Bound held att ∧ t.place att = s.place att ∨ t.Walks att)
    (tables : ∀ att, s.Bound held att →
      (s.mm (s.att att).mm).table.Retains (t.mm (s.att att).mm).table) :
    AllWalk t more := by
  intro att present
  rcases kept att present with ⟨before, place⟩ | walks
  · have space : (t.att att).mm = (s.att att).mm := congrArg Place.mm place
    rw [State.Walks, place, space]
    exact (walk att before).retains (tables att before)
  · exact walks

theorem still (walk : AllWalk s held) (formed : WellFormed s held)
    (after : WellFormed t more) (ages : Ages s t) (vmas : t.vmas = s.vmas)
    (tables : ∀ mm, (t.mm mm).table = (s.mm mm).table) :
    AllWalk t more := by
  refine walk.transfer ?_ ?_
  · intro att present
    left
    have before := formed.bound_before after ages present (by
      rw [vmas]
      exact fun _ member _ => member)
    exact ⟨before.1, before.2.place⟩
  · intro att _
    rw [tables]
    exact .refl _

/-- Objects and places stay, and tables only gain entries. -/
theorem retable (walk : AllWalk s held) (objects : t.objects = s.objects)
    (place : t.place = s.place)
    (bare : ∀ att, .bare att ∈ held → .bare att ∈ more)
    (tables : ∀ att, s.Bound held att →
      (s.mm (s.att att).mm).table.Retains (t.mm (s.att att).mm).table) :
    AllWalk t more := by
  refine walk.transfer ?_ tables
  rintro att ⟨linked, free⟩
  rw [State.graph_eq_of_objects objects] at linked
  exact Or.inl ⟨⟨linked, fun token => free (bare att token)⟩,
    congrFun place att⟩

theorem of_shape (walk : AllWalk s held) (same : t.shape = s.shape)
    (bare : ∀ att, .bare att ∈ held → .bare att ∈ more) :
    AllWalk t more := by
  have places := SamePlaces.of_shape same
  have mm : t.mm = s.mm := congrArg (fun u => u.mm) same
  refine walk.retable places.objects places.place bare ?_
  intro att _
  rw [mm]
  exact .refl _

/-- One address space changes, and its table only gains entries. -/
theorem modMm (walk : AllWalk s held) {mm : MmPtr} {change : Mm K → Mm K}
    (objects : (s.modMm mm change).objects = s.objects)
    (bare : ∀ att, .bare att ∈ held → .bare att ∈ more)
    (retains : ∀ att, s.Bound held att → (s.att att).mm = mm →
      (s.mm mm).table.Retains (change (s.mm mm)).table) :
    AllWalk (s.modMm mm change) more := by
  refine walk.retable objects rfl bare ?_
  intro att present
  by_cases here : (s.att att).mm = mm
  · have changed : (s.modMm mm change).mm (s.att att).mm =
        change (s.mm mm) := by
      simp [State.modMm, here]
    rw [changed, here]
    exact retains att present here
  · have same : (s.modMm mm change).mm (s.att att).mm =
        s.mm (s.att att).mm := by
      simp [State.modMm, here]
    rw [same]
    exact .refl _

theorem setTable (walk : AllWalk s held) {mm : MmPtr}
    {table : PageTable K}
    (bare : ∀ att, .bare att ∈ held → .bare att ∈ more)
    (retains : (s.mm mm).table.Retains table) :
    AllWalk (s.setTable mm table) more :=
  walk.modMm (s.objects_modMm mm rfl) bare fun _ _ _ => retains

theorem setSpace (walk : AllWalk s held) {mm : MmPtr}
    {vmas : RangeList VmaInfo} {table : PageTable K} {later : Nat}
    (bare : ∀ att, .bare att ∈ held → .bare att ∈ more)
    (retains : ∀ att, s.Bound held att → (s.att att).mm = mm →
      (s.mm mm).table.Retains table) :
    AllWalk (s.setSpace mm vmas table later) more := by
  have changed : AllWalk (s.modMm mm fun space =>
      { space with vmas := vmas, table := table }) more :=
    walk.modMm (s.objects_setSpace mm vmas table later) bare retains
  exact changed

theorem putPages (walk : AllWalk s held) (seg : SegPtr)
    (put : List (Nat × Frame)) : AllWalk (putPages s seg put) held :=
  walk.of_shape (shape_putPages s seg put) fun _ => id

/-- The new attachment can be walked by assumption. -/
theorem bind {mm : MmPtr} {area : Vma}
    (walk : AllWalk s (.bare att ::ₘ held)) (home : (s.att att).mm = mm)
    (walkable : Walkable (s.mm mm).table (bindPlace s att area).page
      (bindPlace s att area).pages) :
    AllWalk (attachBind s mm att area.start area) held := by
  have tables (other : MmPtr) :
      ((attachBind s mm att area.start area).mm other).table =
        (s.mm other).table :=
    table_modMm s mm (fun space => space.updateVma area.payload.vma _) rfl
      other
  have place := s.place_attachBind mm att area
  refine walk.transfer ?_ ?_
  · rintro other ⟨linked, free⟩
    rw [State.graph_eq_of_objects (s.objects_attachBind mm att _ area)]
      at linked
    by_cases here : other = att
    · subst here
      right
      have own : (attachBind s mm other area.start area).place other =
          bindPlace s other area := by
        rw [place, Function.update_self]
      have space : ((attachBind s mm other area.start area).att other).mm =
          mm := (congrArg Place.mm own).trans home
      rw [State.Walks, own, space, tables]
      exact walkable
    · left
      refine ⟨⟨linked, by simpa [here] using free⟩, ?_⟩
      rw [place, Function.update_of_ne here]
  · intro other _
    rw [tables]
    exact .refl _

/-- Tables that are freed leave attachments that can be walked. -/
theorem freeTable (walk : AllWalk s held) {mm : MmPtr}
    {table : PageTable K}
    (walkable : ∀ att, s.Bound held att → (s.att att).mm = mm →
      Walkable table (s.place att).page (s.place att).pages) :
    AllWalk (s.setTable mm table) held := by
  intro att present
  by_cases here : (s.att att).mm = mm
  · have own : (s.setTable mm table).mm (s.att att).mm =
        { s.mm mm with table := table } := by
      simp [State.setTable, State.modMm, here]
    change Walkable ((s.setTable mm table).mm (s.att att).mm).table _ _
    rw [own]
    exact walkable att present here
  · have other : (s.setTable mm table).mm (s.att att).mm =
        s.mm (s.att att).mm := by
      simp [State.setTable, State.modMm, here]
    change Walkable ((s.setTable mm table).mm (s.att att).mm).table _ _
    rw [other]
    exact walk att present

theorem of_act (act : Act tidy s held t more) (neat : tidy)
    (formed : WellFormed s held) (walk : AllWalk s held) :
    AllWalk t more := by
  have after := act.formed formed
  have ages := act.ages formed
  cases act with
  | minor same => exact walk.of_shape (State.shape_eq_of_main same) (by simp)
  | ref object => exact walk.of_shape (s.shape_ref object) (by simp)
  | deref object => exact walk.of_shape (s.shape_deref object) (by simp)
  | flag object =>
      have same := s.layout_flag object true
      exact walk.still formed after ages (congrArg (fun u => u.vmas) same)
        fun mm => congrArg (fun u => (u.mm mm).table) same
  | unflag att => exact walk.still formed after ages rfl fun _ => rfl
  | @openTg _ tgid mm cred =>
      let change (space : Mm K) : Mm K :=
        { space with notifiers := s.nextTg :: space.notifiers }
      exact walk.still formed after ages
        (@spaces_modMm _ s mm change rfl rfl).1 (table_modMm s mm change rfl)
  | makeSeg | getAp | linkAtt | unlinkAtt | unlinkAp | unlinkSeg
  | finishTg | unhash | setValid | spawn | leave | exiting | gone =>
      exact walk.still formed after ages rfl fun _ => rfl
  | bind linked alone home member unique free size unmapped window
      walkable =>
      exact walk.bind home (walkable neat)
  | @untie _ att area put =>
      exact (walk.putPages _ put).modMm (State.objects_modMm _ _ rfl)
        (fun _ => Multiset.mem_cons_of_mem) fun _ _ _ => .refl _
  | @clear _ att first count put =>
      refine (walk.putPages _ put).setTable (fun _ => id) ?_
      rw [putPages_mm]
      exact .clear _ first (first + count)
  | stray _ _ untidy | leak _ _ untidy => exact absurd neat untidy
  | @pin _ group frame =>
      exact walk.of_shape (shape_countPin s group frame) (by simp)
  | putBack seg page frame =>
      exact walk.of_shape (shape_putPages s seg _) (by simp)
  | populate => exact walk.setTable (by simp) (.map _ _ _)
  | insert => exact walk.setTable (by simp) (.map _ _ _)
  | mismatch => exact walk.of_shape rfl (by simp)
  | assign => exact walk.setTable (by simp) (.assign _ _ _)
  | freeTable mm index level walkable =>
      exact walk.freeTable (walkable neat)
  | addVma proper xpmemOps =>
      rw [addVma_eq]
      exact walk.setSpace (by simp) fun _ _ _ => .refl _
  | splitVma =>
      exact walk.setSpace (by simp) fun _ _ _ => .refl _
  | @unmap _ _ mm start stop proper =>
      exact walk.setSpace
        (fun _ bare => bare_mem_unmapHeld_iff.mpr (Or.inr bare))
        fun _ _ _ => .clear _ _ _
  | settle => exact walk.of_shape rfl (by simp)
  | wipe none =>
      exact walk.setSpace (by simp)
        fun att present here => absurd here (none att present)
  | @hush _ mm ended =>
      let change (space : Mm K) : Mm K := { space with notifiers := [] }
      exact walk.still formed after ages
        (@spaces_modMm _ s mm change rfl rfl).1 (table_modMm s mm change rfl)

end AllWalk

theorem WellFormed.walk_eq (formed : WellFormed s held)
    (present : s.Bound held att) (walks : s.Walks att) {first count : Nat}
    (low : (s.place att).page ≤ first)
    (high : first + count ≤ (s.place att).page + (s.place att).pages) :
    s.walk att first count =
      some (mappedPages (s.mm (s.att att).mm).table first count) := by
  obtain ⟨short, skips⟩ := walks
  have limit := K.taskSize_le
  obtain ⟨_, _, _, below⟩ := formed.laid.placed.aligned present
  rw [State.walk, int32_of_bounds (by omega) (by omega)]
  apply unpinWalk_eq_mappedPages
  · omega
  · unfold Place.page Place.pages at *
    unfold pageSize at *
    omega
  · intro positive
    exact barrenBehind_of_skippedPages_lt
      (skips _ (by omega) (by omega))

end Xpmem.Driver
