import Xpmem.Foundation.Tally
import Xpmem.Runs.Counters
import Xpmem.Runs.Walking

/-!
# Every pin stands for a present leaf

A page is pinned for the group whose segment an attachment shows.  The pins
of a state are the leaves of the attachments in place, together with the
pages that were pinned for a leaf not yet made.  The counters of the groups,
those of the module and the references of the pages all count these pins:
every action that makes or clears a leaf moves them alike.  The counters are
of the type `atomic_t`, so they count modulo `2 ^ 32`.
-/

namespace Xpmem.Driver

open Xpmem.Foundation Xpmem.Kernel Xpmem.Objects

variable {K : Platform} {tidy : Prop} {s t : State K} {held more : Held}
    {att : AttPtr}

/-! ## What the counters count -/

namespace Counters

/-- The counters count these pins, each with its group and its page. -/
structure Count (counters : Counters) (pins : Multiset (TgPtr × Frame)) :
    Prop where
  group : ∀ group, counters.group group =
    int32 (pins.countP fun pin => pin.1 = group)
  all : int32 (counters.pinned - counters.unpinned) = int32 pins.card
  refs : ∀ frame, counters.refs frame =
    pins.countP fun pin => pin.2 = frame

variable {counters : Counters} {pins : Multiset (TgPtr × Frame)}

theorem Count.pin (count : Count counters pins) (group : TgPtr)
    (frame : Frame) :
    Count (counters.pin group frame) ((group, frame) ::ₘ pins) where
  group other := by
    have before := count.group other
    simp only [Counters.pin, Multiset.countP_cons, Function.update_apply]
    by_cases here : other = group
    · subst here
      simp only [if_true, before]
      unfold int32
      omega
    · simp [here, Ne.symm here, before]
  all := by
    have before := count.all
    simp only [Counters.pin, Multiset.card_cons]
    unfold int32 at *
    omega
  refs other := by
    have before := count.refs other
    simp only [Counters.pin, Multiset.countP_cons, Function.update_apply]
    by_cases here : other = frame
    · subst here
      simp [before]
    · simp [here, Ne.symm here, before]

theorem Count.put {group : TgPtr} {frames : Multiset Frame}
    (count : Count counters (pins + frames.map (Prod.mk group))) :
    Count (counters.put group frames) pins where
  group other := by
    have before := count.group other
    rw [Multiset.countP_add, Multiset.countP_map] at before
    simp only [Counters.put, Function.update_apply]
    by_cases here : other = group
    · subst here
      simp only [if_true, before, Multiset.filter_true]
      unfold int32
      omega
    · simpa [here, Ne.symm here] using before
  all := by
    have before := count.all
    simp only [Counters.put]
    rw [Multiset.card_add, Multiset.card_map] at before
    unfold int32 at *
    omega
  refs other := by
    have before := count.refs other
    rw [Multiset.countP_add, Multiset.countP_map] at before
    simp only [Counters.put, before, Multiset.count_eq_card_filter_eq]
    simp only [eq_comm, Nat.cast_add]
    omega

end Counters

/-! ## The pins of a state -/

/-- The pin a token stands for. -/
def pinOf : Token → Option (TgPtr × Frame)
  | .pin group frame => some (group, frame)
  | _ => none

/-- The pages that were pinned for a leaf not yet made. -/
def flying (held : Held) : Multiset (TgPtr × Frame) :=
  held.filterMap pinOf

@[simp]
theorem flying_cons (token : Token) (held : Held) :
    flying (token ::ₘ held) =
      ((pinOf token).elim 0 fun pin => {pin}) + flying held := by
  cases found : pinOf token with
  | none => simp [flying, found]
  | some pin => simp [flying, found]

theorem flying_subset_cons (token : Token) (held : Held) :
    flying held ⊆ flying (token ::ₘ held) := by
  rw [flying_cons]
  exact Multiset.subset_of_le (Multiset.le_add_left _ _)

namespace State

/-- The group whose segment an attachment shows. -/
def owner (s : State K) (att : AttPtr) : TgPtr :=
  (s.seg (s.segOf att)).tg

/-- The frames that are mapped in an attachment. -/
def frames (s : State K) (att : AttPtr) : Multiset Frame :=
  tally (s.pte (s.att att).mm) (s.place att).page (s.place att).pages

open Classical in
/-- The pins for the leaves of an attachment in place. -/
noncomputable def shown (s : State K) (held : Held) (att : AttPtr) :
    Multiset (TgPtr × Frame) :=
  if s.Bound held att then (s.frames att).map (Prod.mk (s.owner att)) else 0

/-- All pins of a state in the middle of an operation. -/
noncomputable def pins (s : State K) (held : Held) :
    Multiset (TgPtr × Frame) :=
  ∑ att ∈ Finset.range s.nextAtt, s.shown held att + flying held

end State

theorem State.frames_of_shape (same : t.shape = s.shape) (att : AttPtr) :
    t.frames att = s.frames att := by
  change t.shape.frames att = s.shape.frames att
  rw [same]

theorem State.owner_of_shape (same : t.shape = s.shape) (att : AttPtr) :
    t.owner att = s.owner att := by
  change t.shape.owner att = s.shape.owner att
  rw [same]

theorem State.pte_of_shape (same : t.shape = s.shape) : t.pte = s.pte := by
  change t.shape.pte = s.shape.pte
  rw [same]

/-- The pins do not depend on the counters. -/
theorem State.pins_of_shape (same : t.shape = s.shape) (held : Held) :
    t.pins held = s.pins held := by
  change t.shape.pins held = s.shape.pins held
  rw [same]

/-- A page that is pinned adds one pin. -/
theorem State.pins_cons_pin (s : State K) (group : TgPtr) (frame : Frame)
    (held : Held) :
    s.pins (.pin group frame ::ₘ held) = (group, frame) ::ₘ s.pins held := by
  have shown (att : AttPtr) :
      s.shown (.pin group frame ::ₘ held) att = s.shown held att := by
    classical
    exact if_congr (by simp [State.Bound]) rfl rfl
  simp only [State.pins, shown, flying_cons, pinOf, Option.elim_some,
    Multiset.singleton_add, Multiset.add_cons]

theorem WellFormed.pins_eq (formed : WellFormed s held) {bound : Nat}
    (above : s.nextAtt ≤ bound) :
    s.pins held =
      ∑ att ∈ Finset.range bound, s.shown held att + flying held := by
  rw [State.pins]
  congr 1
  refine Finset.sum_subset (Finset.range_mono above) ?_
  intro att _ beyond
  rw [State.shown, if_neg]
  intro present
  exact beyond (Finset.mem_range.mpr (formed.graph.used (.att att) present.1))

/-- Attachments other than one show what they showed. -/
theorem WellFormed.pins_change (formed : WellFormed s held)
    (after : WellFormed t more) (ages : Ages s t)
    (used : att < s.nextAtt)
    (same : ∀ other, other ≠ att → t.shown more other = s.shown held other) :
    t.pins more + (s.shown held att + flying held) =
      s.pins held + (t.shown more att + flying more) := by
  have member : att ∈ Finset.range t.nextAtt :=
    Finset.mem_range.mpr (used.trans_le ages.nextAtt)
  have rest : ∑ other ∈ (Finset.range t.nextAtt).erase att,
        t.shown more other =
      ∑ other ∈ (Finset.range t.nextAtt).erase att, s.shown held other :=
    Finset.sum_congr rfl fun other inside =>
      same other (Finset.ne_of_mem_erase inside)
  rw [formed.pins_eq ages.nextAtt, after.pins_eq le_rfl,
    ← Finset.add_sum_erase _ _ member, ← Finset.add_sum_erase _ _ member,
    rest]
  abel

theorem WellFormed.pins_congr (formed : WellFormed s held)
    (after : WellFormed t more) (ages : Ages s t)
    (same : ∀ att, t.shown more att = s.shown held att)
    (tokens : flying more = flying held) : t.pins more = s.pins held := by
  rw [formed.pins_eq ages.nextAtt, after.pins_eq le_rfl, tokens]
  congr 1
  exact Finset.sum_congr rfl fun att _ => same att

/-- The group of an attachment that is linked was opened. -/
theorem WellFormed.owner_used (formed : WellFormed s held)
    (linked : s.graph.Linked (.att att)) :
    s.graph.Used (.tg (s.owner att)) := by
  have granted := (formed.graph.linked_ap linked).1
  exact formed.counted.used _ (formed.counted.live_of_owed
    (Graph.owed_pos_of_permit formed.graph granted).2)

theorem WellFormed.owner_eq (formed : WellFormed s held) (ages : Ages s t)
    (linked : s.graph.Linked (.att att)) : t.owner att = s.owner att := by
  have granted := (formed.graph.linked_ap linked).1
  have used : s.segOf att < s.nextSeg := formed.graph.used_seg granted
  have segOf : t.segOf att = s.segOf att := by
    rw [State.segOf, ages.att_ap (formed.graph.used _ linked)]
    exact ages.ap_seg (formed.graph.used _ granted)
  rw [State.owner, segOf, ages.seg_tg used]
  rfl

theorem WellFormed.shown_congr (formed : WellFormed s held)
    (ages : Ages s t) (bound : t.Bound more att ↔ s.Bound held att)
    (place : s.Bound held att → t.place att = s.place att)
    (leaves : s.Bound held att → ∀ index < (s.place att).pages,
      t.pte (s.att att).mm ((s.place att).page + index) =
        s.leaf att index) :
    t.shown more att = s.shown held att := by
  by_cases present : s.Bound held att
  · have same := place present
    have space : (t.att att).mm = (s.att att).mm := congrArg Place.mm same
    rw [State.shown, State.shown, if_pos present, if_pos (bound.mpr present),
      formed.owner_eq ages present.1, State.frames, same, space]
    congr 1
    apply tally_congr
    intro page low high
    obtain ⟨index, rfl⟩ := Nat.exists_eq_add_of_le low
    exact leaves present index (by omega)
  · rw [State.shown, State.shown, if_neg present,
      if_neg (bound.not.mpr present)]

/-- The leaves the walk puts are those of the interval. -/
theorem tally_mappedPages (table : PageTable K) (page count : Nat) :
    (↑((mappedPages table page count).map Prod.snd) : Multiset Frame) =
      tally table.pte page count := by
  rw [mappedPages, List.map_filterMap, tally]
  congr 2
  funext other
  cases table.pte other <;> rfl

/-! ## Actions that make and clear no leaf -/

/-- Nothing happens to areas and leaves. -/
theorem WellFormed.pins_still (formed : WellFormed s held)
    (after : WellFormed t more) (ages : Ages s t) (vmas : t.vmas = s.vmas)
    (pte : t.pte = s.pte) (tokens : flying more = flying held) :
    t.pins more = s.pins held := by
  refine formed.pins_congr after ages (fun att => ?_) tokens
  have bound : t.Bound more att ↔ s.Bound held att := by
    rw [after.bound_iff, formed.bound_iff, vmas]
  refine formed.shown_congr ages bound ?_ ?_
  · intro present
    refine (formed.bound_before after ages (bound.mpr present) ?_).2.place
    rw [vmas]
    exact fun _ member _ => member
  · intro _ index _
    rw [pte]
    rfl

/-- Objects and places stay, and so do the leaves of attachments. -/
theorem WellFormed.pins_retable (formed : WellFormed s held)
    (after : WellFormed t more) (ages : Ages s t)
    (objects : t.objects = s.objects) (place : t.place = s.place)
    (bare : ∀ att, .bare att ∈ more ↔ .bare att ∈ held)
    (leaves : ∀ att, s.Bound held att → ∀ index < (s.place att).pages,
      t.pte (s.att att).mm ((s.place att).page + index) =
        s.leaf att index)
    (tokens : flying more = flying held) : t.pins more = s.pins held := by
  refine formed.pins_congr after ages (fun att => ?_) tokens
  refine formed.shown_congr ages ?_ (fun _ => congrFun place att)
    (leaves att)
  rw [State.Bound, State.graph_eq_of_objects objects, bare, State.Bound]

/-- The leaves of one address space change outside attachments. -/
theorem WellFormed.pins_setTable {mm : MmPtr} {table : PageTable K}
    (formed : WellFormed s held)
    (after : WellFormed (s.setTable mm table) more)
    (ages : Ages s (s.setTable mm table))
    (bare : ∀ att, .bare att ∈ more ↔ .bare att ∈ held)
    (leaves : ∀ att, s.Bound held att → (s.att att).mm = mm →
      ∀ index < (s.place att).pages,
        table.pte ((s.place att).page + index) = s.leaf att index)
    (tokens : flying more = flying held) :
    (s.setTable mm table).pins more = s.pins held := by
  refine formed.pins_retable after ages (s.objects_modMm mm rfl) rfl bare
    ?_ tokens
  intro att present index inside
  rw [State.pte_setTable, Function.update_apply]
  split
  · rename_i here
    exact leaves att present here index inside
  · rfl

theorem WellFormed.pins_setSpace {mm : MmPtr} {vmas : RangeList VmaInfo}
    {table : PageTable K} {later : Nat} (formed : WellFormed s held)
    (after : WellFormed (s.setSpace mm vmas table later) more)
    (bare : ∀ att, .bare att ∈ more ↔ .bare att ∈ held)
    (leaves : ∀ att, s.Bound held att → (s.att att).mm = mm →
      ∀ index < (s.place att).pages,
        table.pte ((s.place att).page + index) = s.leaf att index)
    (tokens : flying more = flying held) :
    (s.setSpace mm vmas table later).pins more = s.pins held := by
  refine formed.pins_retable after
    (.of_same rfl rfl rfl rfl rfl rfl rfl rfl rfl)
    (s.objects_setSpace mm vmas table later) rfl bare ?_ tokens
  intro att present index inside
  rw [State.pte_setSpace, Function.update_apply]
  split
  · rename_i here
    exact leaves att present here index inside
  · rfl

/-- An attachment that gets its area shows nothing yet. -/
theorem pins_attachBind {mm : MmPtr} {area : Vma}
    (formed : WellFormed s (.bare att ::ₘ held))
    (after : WellFormed (attachBind s mm att area.start area) held)
    (ages : Ages s (attachBind s mm att area.start area))
    (unmapped : (bindPlace s att area).Unmapped s.pte) :
    (attachBind s mm att area.start area).pins held =
      s.pins (.bare att ::ₘ held) := by
  have pte : (attachBind s mm att area.start area).pte = s.pte :=
    State.pte_updateVma s mm area.payload.vma _
  have place := s.place_attachBind mm att area
  refine formed.pins_congr after ages (fun other => ?_) (by simp [pinOf])
  by_cases here : other = att
  · subst here
    have own : (attachBind s mm other area.start area).place other =
        bindPlace s other area := by
      rw [place, Function.update_self]
    have space : ((attachBind s mm other area.start area).att other).mm =
        (s.att other).mm := congrArg Place.mm own
    have bare : ¬ s.Bound (.bare other ::ₘ held) other := fun present =>
      present.2 (Multiset.mem_cons_self _ _)
    have empty :
        (attachBind s mm other area.start area).frames other = 0 := by
      rw [State.frames, own, space, pte]
      apply tally_eq_zero
      intro page low high
      obtain ⟨index, rfl⟩ := Nat.exists_eq_add_of_le low
      exact unmapped index (by omega)
    rw [State.shown, State.shown, if_neg bare, empty, Multiset.map_zero,
      ite_self]
  · refine formed.shown_congr ages ?_ ?_ ?_
    · rw [State.Bound, State.Bound,
        State.graph_eq_of_objects (s.objects_attachBind mm att _ area)]
      simp [here]
    · intro _
      rw [place, Function.update_of_ne here]
    · intro _ index _
      rw [pte]
      rfl

/-! ## Actions that make and clear leaves -/

theorem State.shown_of_bound (present : s.Bound held att) :
    s.shown held att = (s.frames att).map (Prod.mk (s.owner att)) :=
  if_pos present

/-- What an attachment without its area takes away. -/
theorem WellFormed.pins_untie (formed : WellFormed s held) {vma : Nat}
    (present : s.Bound held att)
    (after : WellFormed (s.untie att vma) (.bare att ::ₘ held)) :
    s.pins held = (s.untie att vma).pins (.bare att ::ₘ held) +
      (s.frames att).map (Prod.mk (s.owner att)) := by
  have ages : Ages s (s.untie att vma) :=
    .of_same rfl rfl rfl rfl rfl rfl rfl rfl rfl
  have pte : (s.untie att vma).pte = s.pte :=
    State.pte_updateVma s (s.att att).mm vma _
  have used : att < s.nextAtt := formed.graph.used (.att att) present.1
  have bare : ¬ (s.untie att vma).Bound (.bare att ::ₘ held) att :=
    fun still => still.2 (Multiset.mem_cons_self _ _)
  have change := formed.pins_change after ages used (fun other apart => by
    refine formed.shown_congr ages ?_ (fun _ => rfl) ?_
    · change s.graph.Linked (.att other) ∧ _ ↔ _
      simp [State.Bound, apart]
    · intro _ index _
      rw [pte]
      rfl)
  rw [State.shown_of_bound present, State.shown, if_neg bare] at change
  simp only [flying_cons, pinOf, Option.elim_none, zero_add,
    ← add_assoc] at change
  exact (add_right_cancel change).symm

/-- What clearing a part of an attachment takes away. -/
theorem WellFormed.pins_clear (formed : WellFormed s held)
    {first count : Nat} (present : s.Bound held att)
    (low : (s.place att).page ≤ first)
    (high : first + count ≤ (s.place att).page + (s.place att).pages)
    {table : PageTable K}
    (cleared : table.pte =
      clearTable (s.pte (s.att att).mm) first count)
    (after : WellFormed (s.setTable (s.att att).mm table) held) :
    s.pins held = (s.setTable (s.att att).mm table).pins held +
      (tally (s.pte (s.att att).mm) first count).map
        (Prod.mk (s.owner att)) := by
  have ages : Ages s (s.setTable (s.att att).mm table) :=
    .of_same rfl rfl rfl rfl rfl rfl rfl rfl rfl
  have used : att < s.nextAtt := formed.graph.used (.att att) present.1
  have change := formed.pins_change after ages used (fun other apart => by
    refine formed.shown_congr ages Iff.rfl (fun _ => rfl) ?_
    intro otherPresent index inside
    rw [State.pte_setTable, Function.update_apply]
    split
    · rename_i here
      rw [cleared, clearTable_of_outside, State.leaf, here]
      by_contra shared
      refine apart (@WellFormed.eq_of_page _ _ _ _ formed other
        ((s.place other).page + index - (s.place att).page) index present
        (by omega) otherPresent inside here (by omega)).1
    · rfl)
  have split : s.frames att =
      (s.setTable (s.att att).mm table).frames att +
        tally (s.pte (s.att att).mm) first count := by
    change _ = tally ((s.setTable (s.att att).mm table).pte (s.att att).mm)
      (s.place att).page (s.place att).pages + _
    rw [State.pte_setTable, Function.update_self, cleared]
    exact tally_clearTable low high
  have still : (s.setTable (s.att att).mm table).Bound held att := present
  rw [State.shown_of_bound present, State.shown_of_bound still, split,
    Multiset.map_add] at change
  refine (add_right_cancel (b := ((s.setTable (s.att att).mm table).frames
    att).map (Prod.mk (s.owner att)) + flying held) ?_)
  refine Eq.trans change.symm ?_
  abel

/-- What a leaf that is made adds. -/
theorem WellFormed.pins_insert (formed : WellFormed s held) {index : Nat}
    {frame : Frame} (present : s.Bound held att)
    (inside : index < (s.place att).pages)
    (absent : s.leaf att index = none) {table : PageTable K}
    (mapped : table.pte = Function.update (s.pte (s.att att).mm)
      ((s.place att).page + index) (some frame))
    (after : WellFormed (s.setTable (s.att att).mm table) held) :
    (s.setTable (s.att att).mm table).pins held =
      (s.owner att, frame) ::ₘ s.pins held := by
  have ages : Ages s (s.setTable (s.att att).mm table) :=
    .of_same rfl rfl rfl rfl rfl rfl rfl rfl rfl
  have used : att < s.nextAtt := formed.graph.used (.att att) present.1
  have change := formed.pins_change after ages used (fun other apart => by
    refine formed.shown_congr ages Iff.rfl (fun _ => rfl) ?_
    intro otherPresent place otherInside
    rw [State.pte_setTable, Function.update_apply]
    split
    · rename_i here
      rw [mapped, Function.update_of_ne, State.leaf, here]
      intro shared
      exact apart (formed.eq_of_page present inside otherPresent otherInside
        here shared).1
    · rfl)
  have more : (s.setTable (s.att att).mm table).frames att =
      frame ::ₘ s.frames att := by
    change tally ((s.setTable (s.att att).mm table).pte (s.att att).mm)
      (s.place att).page (s.place att).pages = _
    rw [State.pte_setTable, Function.update_self, mapped]
    exact tally_update (Nat.le_add_right _ _) (by omega) absent
  have still : (s.setTable (s.att att).mm table).Bound held att := present
  have owner : (s.setTable (s.att att).mm table).owner att = s.owner att :=
    rfl
  rw [State.shown_of_bound present, State.shown_of_bound still, more, owner,
    Multiset.map_cons, ← Multiset.singleton_add] at change
  rw [← Multiset.singleton_add]
  refine (add_right_cancel
    (b := (s.frames att).map (Prod.mk (s.owner att)) + flying held) ?_)
  refine change.trans ?_
  abel

/-! ## Actions keep the counters exact -/

/-- The counters of a state in the middle of an operation count its pins. -/
structure Balanced (s : State K) (held : Held) : Prop where
  count : s.counters.Count (s.pins held)
  opened : ∀ pin ∈ flying held, s.graph.Used (.tg pin.1)

namespace Balanced

theorem congr (balanced : Balanced s held) (ages : Ages s t)
    (counters : t.counters = s.counters) (pins : t.pins more = s.pins held)
    (tokens : flying more ⊆ flying held) : Balanced t more where
  count := by
    rw [counters, pins]
    exact balanced.count
  opened pin token := ages.used (balanced.opened pin (tokens token))

/-- A group that is not opened yet has no pins. -/
theorem countP_of_unused (balanced : Balanced s held)
    (formed : WellFormed s held) {group : TgPtr}
    (unused : ¬ s.graph.Used (.tg group)) :
    (s.pins held).countP (fun pin => pin.1 = group) = 0 := by
  rw [Multiset.countP_eq_zero]
  rintro ⟨owner, frame⟩ member rfl
  rw [State.pins, Multiset.mem_add, Multiset.mem_sum] at member
  rcases member with ⟨att, _, shown⟩ | token
  · by_cases present : s.Bound held att
    · rw [State.shown_of_bound present, Multiset.mem_map] at shown
      obtain ⟨value, _, equal⟩ := shown
      cases equal
      exact unused (formed.owner_used present.1)
    · rw [State.shown, if_neg present] at shown
      exact Multiset.notMem_zero _ shown
  · exact unused (balanced.opened _ token)

theorem openTg (balanced : Balanced s held) (formed : WellFormed s held)
    {tgid : Pid} {mm : MmPtr} {cred : Cred}
    (after : WellFormed (linkTg s tgid mm cred) held)
    (ages : Ages s (linkTg s tgid mm cred)) :
    Balanced (linkTg s tgid mm cred) held where
  count := by
    obtain ⟨vmas, pte⟩ := @spaces_modMm _ s mm (fun space =>
      { space with notifiers := s.nextTg :: space.notifiers }) rfl rfl
    rw [formed.pins_still after ages vmas pte rfl]
    refine ⟨fun group => ?_, balanced.count.all, balanced.count.refs⟩
    by_cases new : group = s.nextTg
    · subst new
      rw [balanced.countP_of_unused formed (Nat.lt_irrefl s.nextTg)]
      simp [State.counters, linkTg, State.modTg, State.modMm, int32]
    · rw [← balanced.count.group group]
      simp [State.counters, linkTg, State.modTg, State.modMm, new]
  opened pin token := ages.used (balanced.opened pin token)

/-- Pages are put while pins go that have these frames. -/
theorem put (balanced : Balanced s held) (ages : Ages s t) {seg : SegPtr}
    {put : List (Nat × Frame)}
    (counters : t.counters = (putPages s seg put).counters)
    (pins : s.pins held = t.pins more +
      (↑(put.map Prod.snd) : Multiset Frame).map (Prod.mk (s.seg seg).tg))
    (tokens : flying more ⊆ flying held) : Balanced t more where
  count := by
    have count := balanced.count
    rw [pins] at count
    rw [counters, State.counters_putPages]
    exact count.put
  opened pin token := ages.used (balanced.opened pin (tokens token))

/-- The pages of an attachment are put, and its area goes. -/
theorem untie (balanced : Balanced s held) (formed : WellFormed s held)
    {vma : Nat} {put : List (Nat × Frame)} (present : s.Bound held att)
    (walks : s.Walks att)
    (walked : s.walk att (s.place att).page (s.place att).pages = some put)
    (after : WellFormed ((putPages s (s.segOf att) put).untie att vma)
      (.bare att ::ₘ held))
    (ages : Ages s ((putPages s (s.segOf att) put).untie att vma)) :
    Balanced ((putPages s (s.segOf att) put).untie att vma)
      (.bare att ::ₘ held) := by
  rw [formed.walk_eq present walks le_rfl le_rfl] at walked
  cases walked
  have same := shape_putPages s (s.segOf att)
    (mappedPages (s.mm (s.att att).mm).table (s.place att).page
      (s.place att).pages)
  have still := (SamePlaces.of_shape same).bound held ▸ present
  have pins := (formed.putPages _ _).pins_untie still after
  rw [State.pins_of_shape same, State.frames_of_shape same,
    State.owner_of_shape same] at pins
  refine balanced.put ages rfl ?_ (by simp [pinOf])
  rw [tally_mappedPages]
  exact pins

/-- Pages of an attachment are put and cleared. -/
theorem clear (balanced : Balanced s held) (formed : WellFormed s held)
    {first count : Nat} {put : List (Nat × Frame)}
    (present : s.Bound held att) (walks : s.Walks att)
    (low : (s.place att).page ≤ first)
    (high : first + count ≤ (s.place att).page + (s.place att).pages)
    (walked : s.walk att first count = some put)
    (after : WellFormed
      ((putPages s (s.segOf att) put).setTable (s.att att).mm
        ((s.mm (s.att att).mm).table.clear first (first + count))) held)
    (ages : Ages s
      ((putPages s (s.segOf att) put).setTable (s.att att).mm
        ((s.mm (s.att att).mm).table.clear first (first + count)))) :
    Balanced
      ((putPages s (s.segOf att) put).setTable (s.att att).mm
        ((s.mm (s.att att).mm).table.clear first (first + count)))
      held := by
  rw [formed.walk_eq present walks low high] at walked
  cases walked
  have same := shape_putPages s (s.segOf att)
    (mappedPages (s.mm (s.att att).mm).table first count)
  have places := SamePlaces.of_shape same
  have still := places.bound held ▸ present
  have pins := @WellFormed.pins_clear _ _ _ att (formed.putPages _ _) first
    count still (by rw [places.place]; exact low)
    (by rw [places.place]; exact high)
    ((s.mm (s.att att).mm).table.clear first (first + count))
    (by rw [putPages_att, State.pte_of_shape same]; rfl)
    (by rw [putPages_att]; exact after)
  rw [State.pins_of_shape same, State.owner_of_shape same, putPages_att,
    State.pte_of_shape same] at pins
  refine balanced.put ages rfl ?_ (Multiset.Subset.refl _)
  rw [tally_mappedPages]
  exact pins

/-- A page is pinned for a leaf not yet made. -/
theorem pin (balanced : Balanced s held) {group : TgPtr} (frame : Frame)
    (used : s.graph.Used (.tg group))
    (ages : Ages s (s.countPin group frame)) :
    Balanced (s.countPin group frame) (.pin group frame ::ₘ held) where
  count := by
    rw [State.pins_of_shape (shape_countPin s group frame),
      State.pins_cons_pin, State.counters_countPin]
    exact balanced.count.pin group frame
  opened other token := by
    rw [flying_cons, Multiset.mem_add] at token
    rcases token with here | member
    · rw [Multiset.mem_singleton.mp here]
      exact ages.used used
    · exact ages.used (balanced.opened other member)

/-- A pinned page is put without a leaf. -/
theorem putBack {seg : SegPtr} {page : Nat} {frame : Frame}
    (balanced : Balanced s (.pin (s.seg seg).tg frame ::ₘ held)) :
    Balanced (putPages s seg [(page, frame)]) held := by
  refine balanced.put (.putPages s seg _) rfl ?_
    (flying_subset_cons _ held)
  rw [State.pins_cons_pin, State.pins_of_shape (shape_putPages s seg _),
    add_comm]
  rfl

/-- A pin in flight becomes the pin of a leaf. -/
theorem insert {index : Nat} {frame : Frame}
    (balanced : Balanced s (.pin (s.owner att) frame ::ₘ held))
    (formed : WellFormed s held)
    (present : s.Bound held att) (inside : index < (s.place att).pages)
    (absent : s.leaf att index = none)
    (after : WellFormed
      (s.setTable (s.att att).mm
        ((s.mm (s.att att).mm).table.map ((s.place att).page + index)
          frame)) held) :
    Balanced
      (s.setTable (s.att att).mm
        ((s.mm (s.att att).mm).table.map ((s.place att).page + index)
          frame)) held := by
  refine balanced.congr (.of_same rfl rfl rfl rfl rfl rfl rfl rfl rfl) rfl
    ?_ (flying_subset_cons _ held)
  rw [State.pins_cons_pin]
  exact formed.pins_insert present inside absent rfl after

/-- Nothing happens to areas, leaves and counters. -/
theorem still (balanced : Balanced s held) (formed : WellFormed s held)
    (after : WellFormed t more) (ages : Ages s t) (vmas : t.vmas = s.vmas)
    (pte : t.pte = s.pte) (counters : t.counters = s.counters)
    (tokens : flying more = flying held) : Balanced t more :=
  balanced.congr ages counters
    (formed.pins_still after ages vmas pte tokens)
    (tokens ▸ Multiset.Subset.refl _)

/-- Leaves change in ordinary areas only. -/
theorem ordinary (balanced : Balanced s held) (formed : WellFormed s held)
    {mm : MmPtr} {table : PageTable K}
    (after : WellFormed (s.setTable mm table) more)
    (bare : ∀ att, .bare att ∈ more ↔ .bare att ∈ held)
    (changed : ∀ page, table.pte page ≠ s.pte mm page →
      s.Ordinary mm page) (tokens : flying more = flying held) :
    Balanced (s.setTable mm table) more := by
  have ages : Ages s (s.setTable mm table) :=
    .of_same rfl rfl rfl rfl rfl rfl rfl rfl rfl
  refine balanced.congr ages rfl
    (formed.pins_setTable after ages bare ?_ tokens)
    (tokens ▸ Multiset.Subset.refl _)
  intro att present here index inside
  by_contra differs
  rw [State.leaf, here] at differs
  exact formed.not_ordinary present inside (here ▸ changed _ differs)

/-- Areas change while the leaves of attachments stay. -/
theorem respace (balanced : Balanced s held) (formed : WellFormed s held)
    {mm : MmPtr} {vmas : RangeList VmaInfo} {table : PageTable K}
    {later : Nat} (after : WellFormed (s.setSpace mm vmas table later) more)
    (bare : ∀ att, .bare att ∈ more ↔ .bare att ∈ held)
    (leaves : ∀ att, s.Bound held att → (s.att att).mm = mm →
      ∀ index < (s.place att).pages,
        table.pte ((s.place att).page + index) =
          s.pte mm ((s.place att).page + index))
    (tokens : flying more = flying held) :
    Balanced (s.setSpace mm vmas table later) more := by
  refine balanced.congr (.of_same rfl rfl rfl rfl rfl rfl rfl rfl rfl) rfl
    (formed.pins_setSpace after bare ?_ tokens)
    (tokens ▸ Multiset.Subset.refl _)
  intro att present here index inside
  rw [State.leaf, here]
  exact leaves att present here index inside

/-- Areas without attachments are unmapped. -/
theorem unmap (balanced : Balanced s held) (formed : WellFormed s held)
    {mm : MmPtr} {start stop : Nat} {proper : start < stop}
    (after : WellFormed (unmapRange s mm start stop proper)
      (unmapHeld s mm start stop held))
    (startAligned : start % pageSize = 0)
    (stopAligned : stop % pageSize = 0)
    (spared : Spared s mm start stop)
    (kept : lostAtts s mm start stop = []) :
    Balanced (unmapRange s mm start stop proper)
      (unmapHeld s mm start stop held) := by
  rw [unmapHeld, kept] at after ⊢
  refine balanced.respace formed after (by simp) ?_ (by simp [pinOf])
  intro att present here index inside
  obtain ⟨area, member, occupies, contains⟩ :=
    formed.laid.placed.contains present inside
  have member : area ∈ s.vmas mm := here ▸ member
  have apart : ¬ area.Meets start stop := by
    intro meets
    have lost := (mem_lostAtts_iff spared).mpr
      ⟨area, member, meets, occupies.privateData⟩
    rw [kept] at lost
    cases lost
  obtain ⟨below, above⟩ := contains
  rw [PageTable.clear_pte, if_neg]
  · rfl
  · rintro ⟨low, high⟩
    refine apart ⟨?_, ?_⟩ <;> unfold pageSize at * <;> omega

theorem of_act (act : Act tidy s held t more) (neat : tidy)
    (formed : WellFormed s held) (walk : AllWalk s held)
    (balanced : Balanced s held) : Balanced t more := by
  have after := act.formed formed
  have ages := act.ages formed
  have shaped (same : t.shape = s.shape)
      (counters : t.counters = s.counters)
      (tokens : flying more = flying held) : Balanced t more :=
    balanced.still formed after ages (congrArg (fun u => u.vmas) same)
      (congrArg (fun u => u.pte) same) counters tokens
  cases act with
  | minor same =>
      exact shaped (State.shape_eq_of_main same)
        (congrArg (fun u => u.counters) same) rfl
  | ref object =>
      exact shaped (s.shape_ref object) (s.counters_ref object)
        (by simp [pinOf])
  | deref object =>
      exact shaped (s.shape_deref object) (s.counters_deref object)
        (by simp [pinOf])
  | flag object =>
      have same := s.layout_flag object true
      exact balanced.still formed after ages
        (congrArg (fun u => u.vmas) same) (congrArg (fun u => u.pte) same)
        (s.counters_flag object true) (by simp [pinOf])
  | unflag att =>
      exact balanced.still formed after ages rfl rfl rfl (by simp [pinOf])
  | openTg => exact balanced.openTg formed after ages
  | makeSeg =>
      refine balanced.still formed after ages rfl rfl ?_ rfl
      rw [linkSeg, State.counters_modTg] <;> rfl
  | getAp =>
      refine balanced.still formed after ages rfl rfl ?_ (by simp [pinOf])
      rw [linkAp, State.counters_modTg] <;> rfl
  | unlinkAp =>
      refine balanced.still formed after ages rfl rfl ?_ (by simp [pinOf])
      exact State.counters_unlinkAp s _ _
  | unlinkSeg =>
      refine balanced.still formed after ages rfl rfl ?_ (by simp [pinOf])
      rw [unlinkSeg, State.counters_modTg] <;> rfl
  | finishTg =>
      refine balanced.still formed after ages rfl rfl ?_ (by simp [pinOf])
      rw [State.counters_modTg]
      rfl
  | linkAtt | unlinkAtt | unhash | setValid | spawn | leave | exiting
  | gone =>
      exact balanced.still formed after ages rfl rfl rfl (by simp [pinOf])
  | bind linked alone home member unique free size unmapped =>
      exact balanced.congr ages rfl
        (pins_attachBind formed after ages unmapped) (by simp [pinOf])
  | @untie _ att area put present member carries walked =>
      exact balanced.untie formed present (walk att present) walked after
        ages
  | @clear _ att first count put present low high walked =>
      exact balanced.clear formed present (walk att present) low high walked
        after ages
  | stray _ _ untidy | leak _ _ untidy => exact absurd neat untidy
  | @pin _ group frame used => exact balanced.pin frame used ages
  | putBack seg page frame => exact balanced.putBack
  | populate ordinary absent =>
      refine balanced.ordinary formed after (by simp) ?_ rfl
      intro page changed
      rw [PageTable.map_pte] at changed
      split at changed
      · rename_i here
        exact here ▸ ordinary
      · exact absurd rfl changed
  | @insert _ att index frame present inside absent =>
      refine balanced.insert (formed.retoken ⟨?_, ?_, ?_⟩ ?_) present inside
        absent after <;> simp
  | mismatch => exact shaped rfl rfl rfl
  | assign member ordinary low high startAligned stopAligned =>
      refine balanced.ordinary formed after (by simp) ?_ (by simp [pinOf])
      intro page changed
      rw [PageTable.assign_pte] at changed
      split at changed
      · rename_i listed
        have within :=
          start_le_of_mem_pagesOf startAligned stopAligned listed
        exact ⟨_, member, ordinary, low.trans within.1,
          within.2.trans_le high⟩
      · exact absurd rfl changed
  | freeTable mm index level =>
      refine balanced.still formed after ages (s.vmas_setTable mm _) ?_ rfl
        rfl
      rw [State.pte_setTable, PageTable.free_pte]
      exact Function.update_eq_self mm s.pte
  | addVma proper xpmemOps =>
      rw [addVma_eq] at after ages ⊢
      exact balanced.respace formed after (by simp) (fun _ _ _ _ _ => rfl)
        rfl
  | splitVma =>
      exact balanced.respace formed after (by simp) (fun _ _ _ _ _ => rfl)
        rfl
  | unmap proper startAligned stopAligned spared kept =>
      exact balanced.unmap formed after startAligned stopAligned spared
        (kept neat)
  | settle cleared => exact shaped rfl rfl (by simp [pinOf])
  | wipe none removed =>
      refine balanced.respace formed after (by simp) ?_ rfl
      intro att present here
      exact absurd here (none att present)
  | @hush _ mm ended =>
      obtain ⟨vmas, pte⟩ := @spaces_modMm _ s mm
        (fun space => { space with notifiers := [] }) rfl rfl
      exact balanced.still formed after ages vmas pte rfl rfl

end Balanced

/-! ## The pins of a run -/

namespace State

/-- The attachments that are live. -/
def liveAtts (s : State K) : Finset AttPtr :=
  (Finset.range s.nextAtt).filter fun att => s.liveAtt att = true

/-- The present leaves of an attachment. -/
def presentPTEs (s : State K) (att : AttPtr) : Finset Nat :=
  (Finset.range (s.place att).pages).filter fun index =>
    (s.leaf att index).isSome

/-- The leaves of an attachment that map a frame. -/
def ptesOf (s : State K) (att : AttPtr) (frame : Frame) : Finset Nat :=
  (Finset.range (s.place att).pages).filter fun index =>
    s.leaf att index = some frame

/-- The number of present leaves in live attachments of a group's segments. -/
def presentOf (s : State K) (group : TgPtr) : Nat :=
  ∑ att ∈ s.liveAtts.filter (fun att => s.owner att = group),
    (s.presentPTEs att).card

end State

theorem WellFormed.liveAtt_iff (formed : WellFormed s 0) (att : AttPtr) :
    s.liveAtt att = true ↔ s.Bound 0 att := by
  refine ⟨formed.bound_of_liveAtt, fun present => ?_⟩
  rw [State.liveAtt, Bool.and_eq_true, Bool.not_eq_true']
  exact ⟨formed.allocated_of_linked present.1,
    formed.destroying_of_linked present.1 fun _ => by simp⟩

theorem WellFormed.pins_zero (formed : WellFormed s 0) :
    s.pins 0 =
      ∑ att ∈ s.liveAtts, (s.frames att).map (Prod.mk (s.owner att)) := by
  rw [State.pins, State.liveAtts, Finset.sum_filter]
  refine (add_zero _).trans (Finset.sum_congr rfl fun att _ => ?_)
  by_cases present : s.Bound 0 att
  · rw [State.shown_of_bound present,
      if_pos ((formed.liveAtt_iff att).mpr present)]
  · rw [State.shown, if_neg present,
      if_neg ((formed.liveAtt_iff att).not.mpr present)]

theorem State.card_frames (s : State K) (att : AttPtr) :
    (s.frames att).card = (s.presentPTEs att).card :=
  card_tally _ _ _

theorem State.count_frames (s : State K) (att : AttPtr) (frame : Frame) :
    (s.frames att).count frame = (s.ptesOf att frame).card :=
  count_tally _ _ _ _

theorem WellFormed.countP_group (formed : WellFormed s 0)
    (group : TgPtr) :
    (s.pins 0).countP (fun pin => pin.1 = group) = s.presentOf group := by
  rw [formed.pins_zero, ← Multiset.coe_countPAddMonoidHom, map_sum,
    State.presentOf, Finset.sum_filter]
  refine Finset.sum_congr rfl fun att _ => ?_
  rw [Multiset.coe_countPAddMonoidHom, Multiset.countP_map]
  by_cases own : s.owner att = group
  · simp [own, s.card_frames]
  · simp [own]

theorem WellFormed.countP_frame (formed : WellFormed s 0)
    (frame : Frame) :
    (s.pins 0).countP (fun pin => pin.2 = frame) =
      ∑ att ∈ s.liveAtts, (s.ptesOf att frame).card := by
  rw [formed.pins_zero, ← Multiset.coe_countPAddMonoidHom, map_sum]
  refine Finset.sum_congr rfl fun att _ => ?_
  rw [Multiset.coe_countPAddMonoidHom, Multiset.countP_map,
    ← s.count_frames, Multiset.count_eq_card_filter_eq]
  simp only [eq_comm]

theorem WellFormed.card_pins (formed : WellFormed s 0) :
    (s.pins 0).card =
      ∑ group ∈ Finset.range s.nextTg, s.presentOf group := by
  have owners : ∀ att ∈ s.liveAtts,
      s.owner att ∈ Finset.range s.nextTg := by
    intro att member
    have live := (Finset.mem_filter.mp member).2
    have present := formed.bound_of_liveAtt live
    exact Finset.mem_range.mpr (formed.owner_used present.1)
  rw [formed.pins_zero, Multiset.card_sum,
    ← Finset.sum_fiberwise_of_maps_to owners]
  refine Finset.sum_congr rfl fun group _ => ?_
  refine Finset.sum_congr rfl fun att _ => ?_
  rw [Multiset.card_map, s.card_frames]

theorem balanced_init : Balanced ({} : State K) 0 := by
  have none : ({} : State K).pins 0 = 0 := rfl
  have zero : int32 0 = 0 := by simp [int32]
  constructor
  · rw [none]
    exact ⟨fun _ => zero.symm, rfl, fun _ => rfl⟩
  · exact fun pin token => absurd token (Multiset.notMem_zero pin)

/-- The counters of a state after a run without stray unmaps. -/
theorem Balanced.of_run {events : List (Event (State K) Op Ret)}
    (run : Run step {} (Orderly True) events s) : Balanced s 0 := by
  have both := invariant_of_run
    (fun s held => AllWalk s held ∧ Balanced s held) run ?_ ?_
  · exact both.2
  · exact ⟨fun att present => absurd present.1 List.not_mem_nil,
      balanced_init⟩
  · rintro s held t more formed act ⟨walk, balanced⟩
    exact ⟨walk.of_act act trivial formed,
      balanced.of_act act trivial formed walk⟩

theorem Balanced.counts (balanced : Balanced s 0)
    (formed : WellFormed s 0) :
    (∀ group, (s.tg group).nPinned = int32 (s.presentOf group)) ∧
    int32 (s.myPart.nPinned - s.myPart.nUnpinned) =
      int32 (∑ group ∈ Finset.range s.nextTg, s.presentOf group : Nat) ∧
    ∀ frame, s.pageRefs frame =
      (∑ att ∈ s.liveAtts, (s.ptesOf att frame).card : Nat) := by
  obtain ⟨count, _⟩ := balanced
  refine ⟨fun group => ?_, ?_, fun frame => ?_⟩
  · rw [← formed.countP_group]
    exact count.group group
  · rw [← formed.card_pins]
    exact count.all
  · rw [← formed.countP_frame]
    exact count.refs frame

/--
Pin accounting.  The counters are of the type `atomic_t`: a number of pins
that an `int` can hold is what the counter shows.
-/
theorem pinned_of_run {events : List (Event (State K) Op Ret)}
    (run : Run step {} (Orderly True) events s) :
    (∀ group, (s.tg group).nPinned = int32 (s.presentOf group)) ∧
    int32 (s.myPart.nPinned - s.myPart.nUnpinned) =
      int32 (∑ group ∈ Finset.range s.nextTg, s.presentOf group : Nat) ∧
    ∀ frame, s.pageRefs frame =
      (∑ att ∈ s.liveAtts, (s.ptesOf att frame).card : Nat) :=
  (Balanced.of_run run).counts (WellFormed.of_run run)

/-- The attachment an ioctl makes is smaller than `2 ^ 31` pages. -/
def Small : Cmd → Prop
  | .attach _ _ size _ => roundSize size / pageSize < 2 ^ 31
  | _ => True

instance (cmd : Cmd) : Decidable (Small cmd) := by
  unfold Small
  split <;> infer_instance

/--
Attachments are small and unmapped by the driver only, and valid frames can
be mapped.
-/
def Op.Tidy : Op → Prop
  | .ioctl _ cmd _ => Small cmd
  | .fault _ _ env => env.pfnValid = true ∧ env.remapOk = true
  | .closeDev _ | .munmap _ _ _ | .mprotect _ _ _ | .freeTable _ _ _ =>
      False
  | _ => True

instance : (op : Op) → Decidable op.Tidy
  | .ioctl _ cmd _ => inferInstanceAs (Decidable (Small cmd))
  | .fault _ _ env =>
      inferInstanceAs (Decidable (env.pfnValid = true ∧ env.remapOk = true))
  | .closeDev _ | .munmap _ _ _ | .mprotect _ _ _ | .freeTable _ _ _ =>
      inferInstanceAs (Decidable False)
  | .spawn _ | .openDev _ _ | .exitMm _ | .exitFiles _ | .unpin _ _
  | .invalidate _ _ _ | .mmap _ _ _ _ | .touch _ _ _ | .replace _ _ _ _ =>
      inferInstanceAs (Decidable True)

/-- Where every absent entry is short, small attachments can be walked. -/
theorem Op.Tidy.orderly (reach : K.pgdOrder < 31) {op : Op}
    (tidy : op.Tidy) (s : State K) : Orderly True s op := by
  cases op with
  | ioctl tgid cmd env =>
      intro _ mm running
      cases cmd with
      | attach apid offset size vaddr =>
          intro attached _ addr _
          exact ⟨tidy, fun other _ _ => skippedPages_lt reach _ other⟩
      | _ => trivial
  | fault => exact fun _ => tidy
  | closeDev | munmap | mprotect | freeTable => exact tidy.elim
  | _ => trivial

/-- Two pages of an attachment are used, and one of them is taken back. -/
theorem pinned_of_two_pages :
    ∃ (events : _) (s : State fourLevel),
      Run step {} (Orderly True) events s ∧ s.presentOf 0 = 1 ∧
        (s.tg 0).nPinned = int32 (s.presentOf 0) := by
  obtain ⟨events, s, run, present⟩ := exists_run
    step ({} : State fourLevel) (fun _ op => op.Tidy)
    [.spawn 1, .openDev 1 {}, .mmap 1 0x10000 0x14000 false,
      .ioctl 1 (.make 0x10000 0x4000 1 0o666) {}, .spawn 2, .openDev 2 {},
      .ioctl 2 (.get 0x100000001 2 1 0) {},
      .ioctl 2 (.attach 0x100000002 0 0x4000 0) { place := some 0x20000 },
      .fault 2 0x20000 ⟨false, false, .page 7, true, true⟩,
      .fault 2 0x21000 ⟨false, false, .page 8, true, true⟩,
      .invalidate 1 0x10000 0x11000]
    (fun _ s => s.presentOf 0 = 1) (by decide +kernel)
  have orderly := run.mono fun pre _ tidy => tidy.orderly (by decide) pre
  exact ⟨events, s, orderly, present, (pinned_of_run orderly).1 0⟩

/--
With five levels an entry of the top level spans `2 ^ 36` pages.  The first
attachment lies in an absent one, so the `int` the walk counts in is still
positive when it gets to the second attachment, whose page it puts.
-/
theorem not_pinned_of_absent_entry :
    ∃ (events : _) (s : State fiveLevel),
      Run step {} (fun _ op => op.Tidy) events s ∧ s.liveAtt 1 = true ∧
        s.presentOf 0 = 1 ∧ (s.tg 0).nPinned = 0 :=
  exists_run step ({} : State fiveLevel) (fun _ op => op.Tidy)
    [.spawn 1, .openDev 1 {}, .mmap 1 0x10000 0x14000 false,
      .spawn 2, .openDev 2 {}, .ioctl 1 (.make 0x10000 0x4000 1 0o666) {},
      .ioctl 2 (.get 0x100000001 2 1 0) {},
      .ioctl 2 (.attach 0x100000002 0 0x1000 (BitVec.ofNat 64 (2 ^ 48)))
        { place := some 0 },
      .ioctl 2 (.attach 0x100000002 0 0x1000 (BitVec.ofNat 64 (2 ^ 49)))
        { place := some 0 },
      .fault 2 (2 ^ 49) ⟨false, false, .page 7, true, true⟩,
      .ioctl 2 (.detach (BitVec.ofNat 64 (2 ^ 48))) {}]
    _ (by decide +kernel)

end Xpmem.Driver
