import Xpmem.Objects.Graph

/-!
# Attachments in address spaces

An attachment has a place: a range of an address space and the area
structure that covers it.  `Placed` says that the places of the bound
attachments and the areas that carry an attachment are in one-to-one
correspondence; `Mapped` says what the leaves of the page tables have to do
with both.  The lemmas follow the ways in which areas and leaves change.

Everything here is about functions from pointers, not about driver states.
-/

namespace Xpmem.Objects

open Xpmem.Foundation Xpmem.Kernel Xpmem.Driver

/-- Where an attachment is, and the source address it begins at. -/
structure Place where
  mm : MmPtr
  start : Nat
  size : Nat
  vma : Option Nat
  source : Nat

/-- The first page of a place, and the number of its pages. -/
def Place.page (place : Place) : Nat :=
  place.start / pageSize

def Place.pages (place : Place) : Nat :=
  place.size / pageSize

/-- The area is the one of the attachment at the place. -/
structure Occupies (place : Place) (att : AttPtr) (area : Vma) : Prop where
  start : area.start = place.start
  stop : area.stop = place.start + place.size
  vma : place.vma = some area.payload.vma
  ops : area.payload.xpmemOps = true
  pfnmap : area.payload.pfnmap = true
  privateData : area.payload.privateData = some att

/-- Page-aligned bounds below `TASK_SIZE`. -/
def Fits (K : Platform) (area : Vma) : Prop :=
  area.start % pageSize = 0 ∧ area.stop % pageSize = 0 ∧
    area.stop ≤ K.taskSize

variable {K : Platform}
    {vmas : MmPtr → RangeList VmaInfo} {place : AttPtr → Place}
    {bound : AttPtr → Prop} {nextVma : Nat}

/-- Bound attachments and the areas that carry an attachment correspond. -/
structure Placed (K : Platform) (vmas : MmPtr → RangeList VmaInfo)
    (place : AttPtr → Place) (bound : AttPtr → Prop) (nextVma : Nat) :
    Prop where
  area : ∀ att, bound att →
    ∃ area ∈ vmas (place att).mm, Occupies (place att) att area
  attached : ∀ mm, ∀ area ∈ vmas mm, ∀ att,
    area.payload.privateData = some att →
      bound att ∧ (place att).mm = mm ∧ Occupies (place att) att area
  /-- The structure of an attached area is that of no other area. -/
  identity : ∀ mm, ∀ area ∈ vmas mm, ∀ other ∈ vmas mm,
    area.payload.privateData ≠ none →
      other.payload.vma = area.payload.vma → other = area
  vma_lt : ∀ mm, ∀ area ∈ vmas mm, area.payload.vma < nextVma
  fits : ∀ mm, ∀ area ∈ vmas mm, Fits K area

namespace Placed

/-- The place of a bound attachment has page-aligned bounds. -/
theorem aligned (placed : Placed K vmas place bound nextVma)
    {att : AttPtr} (present : bound att) :
    (place att).start % pageSize = 0 ∧ (place att).size % pageSize = 0 ∧
      0 < (place att).size ∧
      (place att).start + (place att).size ≤ K.taskSize := by
  obtain ⟨area, member, occupies⟩ := placed.area att present
  obtain ⟨startAligned, stopAligned, below⟩ := placed.fits _ area member
  have nonempty := RangeList.start_lt_stop member
  rw [occupies.start] at startAligned nonempty
  rw [occupies.stop] at stopAligned nonempty below
  unfold pageSize at startAligned stopAligned ⊢
  omega

/-- The pages of a bound attachment lie in its area. -/
theorem contains (placed : Placed K vmas place bound nextVma)
    {att : AttPtr} (present : bound att)
    {index : Nat} (inside : index < (place att).pages) :
    ∃ area ∈ vmas (place att).mm, Occupies (place att) att area ∧
      area.Contains (((place att).page + index) * pageSize) := by
  obtain ⟨startAligned, sizeAligned, _, _⟩ := placed.aligned present
  obtain ⟨area, member, occupies⟩ := placed.area att present
  refine ⟨area, member, occupies, ?_⟩
  rw [Range.Contains, occupies.start, occupies.stop]
  simp only [Place.pages, Place.page, pageSize] at *
  omega

/-- An area with a page of a bound attachment is its area. -/
theorem carries (placed : Placed K vmas place bound nextVma)
    {att : AttPtr} (present : bound att)
    {index : Nat} (inside : index < (place att).pages)
    {area : Vma} (member : area ∈ vmas (place att).mm)
    (contains : area.Contains (((place att).page + index) * pageSize)) :
    area.payload.privateData = some att := by
  obtain ⟨own, ownMember, occupies, ownContains⟩ :=
    placed.contains present inside
  rw [RangeList.eq_of_contains member ownMember contains ownContains]
  exact occupies.privateData

theorem congr_place (placed : Placed K vmas place bound nextVma)
    {other : AttPtr → Place}
    (same : ∀ att, bound att → other att = place att) :
    Placed K vmas other bound nextVma where
  area att present := by
    rw [same att present]
    exact placed.area att present
  attached mm area member att carries := by
    obtain ⟨present, home, occupies⟩ :=
      placed.attached mm area member att carries
    rw [same att present]
    exact ⟨present, home, occupies⟩
  identity := placed.identity
  vma_lt := placed.vma_lt
  fits := placed.fits

theorem congr_bound (placed : Placed K vmas place bound nextVma)
    {other : AttPtr → Prop} (same : ∀ att, other att ↔ bound att) :
    Placed K vmas place other nextVma := by
  have equal : other = bound := funext fun att => propext (same att)
  rw [equal]
  exact placed

/-! ## New areas and pieces of areas -/

/--
Every area of the new list is an old one, or carries no attachment and has a
new structure or that of an old area whose attachment, if any, is not bound
any more.
-/
def Rearranged (K : Platform) (nextVma later : Nat)
    (still : AttPtr → Prop) (old new : RangeList VmaInfo) : Prop :=
  ∀ piece ∈ new, piece ∈ old ∨
    piece.payload.privateData = none ∧ Fits K piece ∧
      (nextVma ≤ piece.payload.vma ∧ piece.payload.vma < later ∨
        ∃ area ∈ old,
          (∀ att, area.payload.privateData = some att → ¬ still att) ∧
          piece.payload.vma = area.payload.vma)

theorem rearrange (placed : Placed K vmas place bound nextVma)
    {mm : MmPtr} {new : RangeList VmaInfo} {still : AttPtr → Prop}
    {later : Nat} (ordered : nextVma ≤ later)
    (rearranged : Rearranged K nextVma later still (vmas mm) new)
    (fewer : ∀ att, still att → bound att)
    (kept : ∀ att, still att → ∀ area ∈ vmas mm,
      area.payload.privateData = some att → area ∈ new)
    (left : ∀ area ∈ new, ∀ att, area.payload.privateData = some att →
      bound att → still att)
    (elsewhere : ∀ att, bound att → (place att).mm ≠ mm → still att) :
    Placed K (Function.update vmas mm new) place still later where
  area att present := by
    obtain ⟨area, member, occupies⟩ := placed.area att (fewer att present)
    refine ⟨area, ?_, occupies⟩
    by_cases here : (place att).mm = mm
    · rw [here, Function.update_self]
      rw [here] at member
      exact kept att present area member occupies.privateData
    · rw [Function.update_of_ne here]
      exact member
  attached other area member att carries := by
    by_cases here : other = mm
    · subst here
      rw [Function.update_self] at member
      rcases rearranged area member with old | ⟨none, _⟩
      · obtain ⟨present, rest⟩ :=
          placed.attached other area old att carries
        exact ⟨left area member att carries present, rest⟩
      · rw [none] at carries
        cases carries
    · rw [Function.update_of_ne here] at member
      obtain ⟨present, home, occupies⟩ :=
        placed.attached other area member att carries
      exact ⟨elsewhere att present (home ▸ here), home, occupies⟩
  identity other area member piece pieceMember carries same := by
    by_cases here : other = mm
    · subst here
      rw [Function.update_self] at member pieceMember
      have old : area ∈ vmas other := by
        rcases rearranged area member with old | ⟨none, _⟩
        · exact old
        · exact (carries none).elim
      rcases rearranged piece pieceMember with
        pieceOld | ⟨_, _, ⟨fresh, _⟩ | ⟨origin, originOld, lost, equal⟩⟩
      · exact placed.identity other area old piece pieceOld carries same
      · have bounded := placed.vma_lt other area old
        omega
      · have found :=
          placed.identity other area old origin originOld carries
            (equal.symm.trans same)
        subst found
        obtain ⟨att, owner⟩ := Option.ne_none_iff_exists'.mp carries
        have present := (placed.attached other origin old att owner).1
        exact (lost att owner (left origin member att owner present)).elim
    · rw [Function.update_of_ne here] at member pieceMember
      exact placed.identity other area member piece pieceMember carries
        same
  vma_lt other area member := by
    by_cases here : other = mm
    · subst here
      rw [Function.update_self] at member
      rcases rearranged area member with
        old | ⟨_, _, ⟨_, new⟩ | ⟨origin, originOld, _, equal⟩⟩
      · exact lt_of_lt_of_le (placed.vma_lt other area old) ordered
      · exact new
      · rw [equal]
        exact lt_of_lt_of_le (placed.vma_lt other origin originOld) ordered
    · rw [Function.update_of_ne here] at member
      exact lt_of_lt_of_le (placed.vma_lt other area member) ordered
  fits other area member := by
    by_cases here : other = mm
    · subst here
      rw [Function.update_self] at member
      rcases rearranged area member with old | ⟨_, fits, _⟩
      · exact placed.fits other area old
      · exact fits
    · rw [Function.update_of_ne here] at member
      exact placed.fits other area member

/-- The area is not cut by the removal of `[start, stop)`. -/
def Uncut (area : Vma) (start stop : Nat) : Prop :=
  area.Meets start stop → start ≤ area.start ∧ area.stop ≤ stop

/-- Removing a range that cuts no attached area. -/
theorem rearranged_carve {list : RangeList VmaInfo}
    {copy : VmaInfo → VmaInfo} {start stop : Nat} {proper : start < stop}
    {still : AttPtr → Prop}
    (fits : ∀ area ∈ list, Fits K area)
    (startAligned : start % pageSize = 0)
    (stopAligned : stop % pageSize = 0)
    (uncut : ∀ area ∈ list, area.payload.privateData ≠ none →
      Uncut area start stop)
    (copied : ∀ info : VmaInfo, info.privateData = none →
      (copy info).privateData = none ∧ (copy info).vma = nextVma) :
    Rearranged K nextVma (nextVma + 1) still list
      (list.carve copy start stop proper) := by
  intro piece member
  obtain ⟨area, old, part⟩ := RangeList.mem_carve_iff.mp member
  obtain ⟨areaStart, areaStop, below⟩ := fits area old
  unfold RangeList.remains at part
  split at part
  · rename_i meets
    obtain ⟨meetsLow, meetsHigh⟩ := meets
    have plain (cut : area.start < start ∨ stop < area.stop) :
        area.payload.privateData = none := by
      by_contra carried
      have inside := uncut area old carried ⟨meetsLow, meetsHigh⟩
      omega
    right
    rcases List.mem_append.mp part with low | high
    · split at low
      · rename_i cut
        rw [List.mem_singleton] at low
        subst piece
        have none := plain (Or.inl cut)
        refine ⟨none, ⟨areaStart, startAligned, ?_⟩, Or.inr ?_⟩
        · simp only
          omega
        · refine ⟨area, old, ?_, rfl⟩
          intro att carries
          rw [none] at carries
          cases carries
      · cases low
    · split at high
      · rename_i cut
        rw [List.mem_singleton] at high
        subst piece
        have none := plain (Or.inr cut)
        have fresh := copied area.payload none
        by_cases lower : area.start < start
        · simp only [if_pos lower]
          exact ⟨fresh.1, ⟨stopAligned, areaStop, below⟩,
            Or.inl ⟨fresh.2.ge, by simp [fresh.2]⟩⟩
        · simp only [if_neg lower]
          refine ⟨none, ⟨stopAligned, areaStop, below⟩, Or.inr ?_⟩
          refine ⟨area, old, ?_, rfl⟩
          intro att carries
          rw [none] at carries
          cases carries
      · cases high
  · rw [List.mem_singleton] at part
    exact Or.inl (part ▸ old)

/-- Splitting at an address that is inside no attached area. -/
theorem rearranged_splitAt {list : RangeList VmaInfo}
    {lower upper : VmaInfo → VmaInfo} {addr : Nat}
    {still : AttPtr → Prop}
    (fits : ∀ area ∈ list, Fits K area)
    (addrAligned : addr % pageSize = 0)
    (uncut : ∀ area ∈ list, area.payload.privateData ≠ none →
      ¬ (area.start < addr ∧ addr < area.stop))
    (lowered : ∀ info : VmaInfo, info.privateData = none →
      (lower info).privateData = none ∧
        ((lower info).vma = nextVma ∨ (lower info).vma = info.vma))
    (raised : ∀ info : VmaInfo, info.privateData = none →
      (upper info).privateData = none ∧
        ((upper info).vma = nextVma ∨ (upper info).vma = info.vma)) :
    Rearranged K nextVma (nextVma + 1) still list
      (list.splitAt lower upper addr) := by
  intro piece member
  obtain ⟨area, old, part⟩ := RangeList.mem_splitAt_iff.mp member
  obtain ⟨areaStart, areaStop, below⟩ := fits area old
  unfold RangeList.cut at part
  split at part
  · rename_i inside
    have none : area.payload.privateData = none := by
      by_contra carried
      exact uncut area old carried inside
    have structureOf {info : VmaInfo}
        (either : info.vma = nextVma ∨ info.vma = area.payload.vma) :
        nextVma ≤ info.vma ∧ info.vma < nextVma + 1 ∨
          ∃ origin ∈ list,
            (∀ att, origin.payload.privateData = some att → ¬ still att) ∧
            info.vma = origin.payload.vma := by
      rcases either with new | same
      · exact Or.inl ⟨new.ge, by omega⟩
      · refine Or.inr ⟨area, old, ?_, same⟩
        intro att carries
        rw [none] at carries
        cases carries
    right
    simp only [List.mem_cons, List.not_mem_nil, or_false] at part
    rcases part with low | high
    · subst piece
      have lowerInfo := lowered area.payload none
      exact ⟨lowerInfo.1,
        ⟨areaStart, addrAligned, le_trans (le_of_lt inside.2) below⟩,
        structureOf lowerInfo.2⟩
    · subst piece
      have upperInfo := raised area.payload none
      exact ⟨upperInfo.1, ⟨addrAligned, areaStop, below⟩,
        structureOf upperInfo.2⟩
  · rw [List.mem_singleton] at part
    exact Or.inl (part ▸ old)

theorem rearranged_insert {list : RangeList VmaInfo} {area : Vma}
    {proper : area.start < area.stop} {still : AttPtr → Prop}
    (free : list.Free area.start area.stop)
    (none : area.payload.privateData = none)
    (new : area.payload.vma = nextVma)
    (fits : Fits K area) :
    Rearranged K nextVma (nextVma + 1) still list
      (list.insert area proper) := by
  intro piece member
  rcases (RangeList.mem_insert_iff free).mp member with equal | old
  · subst piece
    exact Or.inr ⟨none, fits, Or.inl ⟨new.ge, by omega⟩⟩
  · exact Or.inl old

/-- Rearranging areas that loses no attachment. -/
theorem rearrange_all (placed : Placed K vmas place bound nextVma)
    {mm : MmPtr} {new : RangeList VmaInfo}
    {later : Nat} (ordered : nextVma ≤ later)
    (rearranged : Rearranged K nextVma later bound (vmas mm) new)
    (kept : ∀ area ∈ vmas mm, area.payload.privateData ≠ none →
      area ∈ new) :
    Placed K (Function.update vmas mm new) place bound later :=
  placed.rearrange ordered rearranged (fun _ present => present)
    (fun _ _ area member carries =>
      kept area member (by rw [carries]; simp))
    (fun _ _ _ _ present => present)
    (fun _ present _ => present)

/-! ## Tying and untying an attachment -/

/-- Change the structure `vma` in a list of areas. -/
def retag (list : RangeList VmaInfo) (vma : Nat)
    (change : VmaInfo → VmaInfo) : RangeList VmaInfo :=
  list.mapPayload fun info => if info.vma = vma then change info else info

/-- An area that carries no attachment gets one. -/
theorem bind (placed : Placed K vmas place bound nextVma)
    {mm : MmPtr} {area : Vma} {att : AttPtr} {new : Place}
    {change : VmaInfo → VmaInfo}
    (member : area ∈ vmas mm)
    (unique : ∀ other ∈ vmas mm,
      other.payload.vma = area.payload.vma → other = area)
    (free : area.payload.privateData = none)
    (unbound : ¬ bound att)
    (home : new.mm = mm)
    (sameVma : (change area.payload).vma = area.payload.vma)
    (occupies : Occupies new att
      { area with payload := change area.payload }) :
    Placed K
      (Function.update vmas mm
        (retag (vmas mm) area.payload.vma change))
      (Function.update place att new)
      (fun other => bound other ∨ other = att) nextVma := by
  have members (other : Vma) :
      other ∈ retag (vmas mm) area.payload.vma change ↔
        other = { area with payload := change area.payload } ∨
          other ∈ vmas mm ∧ other ≠ area := by
    rw [retag, RangeList.mem_mapPayload_iff]
    constructor
    · rintro ⟨old, oldMember, equal⟩
      by_cases same : old.payload.vma = area.payload.vma
      · have found := unique old oldMember same
        subst found
        left
        rw [← equal]
        simp
      · right
        rw [if_neg same] at equal
        have plain : old = other := equal
        subst plain
        exact ⟨oldMember, fun found => same (by rw [found])⟩
    · rintro (equal | ⟨oldMember, distinct⟩)
      · exact ⟨area, member, by rw [equal]; simp⟩
      · refine ⟨other, oldMember, ?_⟩
        rw [if_neg fun same => distinct (unique other oldMember same)]
  have different (other : AttPtr) (present : bound other) :
      other ≠ att := by
    intro equal
    exact unbound (equal ▸ present)
  constructor
  · intro other present
    rcases present with old | equal
    · obtain ⟨found, foundMember, foundOccupies⟩ := placed.area other old
      rw [Function.update_of_ne (different other old)]
      refine ⟨found, ?_, foundOccupies⟩
      by_cases here : (place other).mm = mm
      · rw [here, Function.update_self, members]
        rw [here] at foundMember
        right
        refine ⟨foundMember, ?_⟩
        intro equal
        have carries := foundOccupies.privateData
        rw [equal, free] at carries
        cases carries
      · rw [Function.update_of_ne here]
        exact foundMember
    · subst equal
      rw [Function.update_self]
      refine ⟨{ area with payload := change area.payload }, ?_, occupies⟩
      rw [home, Function.update_self, members]
      exact Or.inl rfl
  · intro other found foundMember owner carries
    by_cases here : other = mm
    · subst here
      rw [Function.update_self, members] at foundMember
      rcases foundMember with equal | ⟨old, _⟩
      · subst equal
        have same : owner = att := by
          rw [occupies.privateData] at carries
          exact (Option.some.inj carries).symm
        subst same
        rw [Function.update_self]
        exact ⟨Or.inr rfl, home, occupies⟩
      · obtain ⟨present, rest⟩ :=
          placed.attached other found old owner carries
        rw [Function.update_of_ne (different owner present)]
        exact ⟨Or.inl present, rest⟩
    · rw [Function.update_of_ne here] at foundMember
      obtain ⟨present, rest⟩ :=
        placed.attached other found foundMember owner carries
      rw [Function.update_of_ne (different owner present)]
      exact ⟨Or.inl present, rest⟩
  · intro other found foundMember second secondMember carries same
    by_cases here : other = mm
    · subst here
      rw [Function.update_self, members] at foundMember secondMember
      rcases foundMember with equal | ⟨old, distinct⟩
      · rcases secondMember with secondEqual | ⟨secondOld, secondDistinct⟩
        · rw [equal, secondEqual]
        · rw [equal] at same
          exact (secondDistinct
            (unique second secondOld (same.trans sameVma))).elim
      · rcases secondMember with secondEqual | ⟨secondOld, secondDistinct⟩
        · rw [secondEqual] at same
          exact (distinct
            (unique found old (same.symm.trans sameVma))).elim
        · exact placed.identity other found old second secondOld carries
            same
    · rw [Function.update_of_ne here] at foundMember secondMember
      exact placed.identity other found foundMember second secondMember
        carries same
  · intro other found foundMember
    by_cases here : other = mm
    · subst here
      rw [Function.update_self, members] at foundMember
      rcases foundMember with equal | ⟨old, _⟩
      · rw [equal]
        exact sameVma ▸ placed.vma_lt other area member
      · exact placed.vma_lt other found old
    · rw [Function.update_of_ne here] at foundMember
      exact placed.vma_lt other found foundMember
  · intro other found foundMember
    by_cases here : other = mm
    · subst here
      rw [Function.update_self, members] at foundMember
      rcases foundMember with equal | ⟨old, _⟩
      · rw [equal]
        exact placed.fits other area member
      · exact placed.fits other found old
    · rw [Function.update_of_ne here] at foundMember
      exact placed.fits other found foundMember

/-- The area of an attachment stops carrying it. -/
theorem unbind (placed : Placed K vmas place bound nextVma)
    {area : Vma} {att : AttPtr} {change : VmaInfo → VmaInfo}
    (present : bound att)
    (member : area ∈ vmas (place att).mm)
    (occupies : Occupies (place att) att area)
    (sameVma : ∀ info, (change info).vma = info.vma)
    (none : ∀ info, (change info).privateData = none) :
    Placed K
      (Function.update vmas (place att).mm
        (retag (vmas (place att).mm) area.payload.vma change))
      place (fun other => bound other ∧ other ≠ att) nextVma := by
  have carried : area.payload.privateData ≠ Option.none := by
    rw [occupies.privateData]
    simp
  have unique (other : Vma) (otherMember : other ∈ vmas (place att).mm)
      (same : other.payload.vma = area.payload.vma) : other = area :=
    placed.identity _ area member other otherMember carried same
  refine placed.rearrange (le_refl _) ?_ (fun _ both => both.1) ?_ ?_ ?_
  · intro piece pieceMember
    rw [retag, RangeList.mem_mapPayload_iff] at pieceMember
    obtain ⟨old, oldMember, equal⟩ := pieceMember
    by_cases same : old.payload.vma = area.payload.vma
    · have found := unique old oldMember same
      subst found
      rw [if_pos rfl] at equal
      right
      subst equal
      refine ⟨none _, placed.fits _ old member, Or.inr ?_⟩
      refine ⟨old, member, ?_, sameVma _⟩
      intro owner carries still
      rw [occupies.privateData] at carries
      exact still.2 (Option.some.inj carries).symm
    · left
      rw [if_neg same] at equal
      exact equal ▸ oldMember
  · intro other both found foundMember carries
    rw [retag, RangeList.mem_mapPayload_iff]
    refine ⟨found, foundMember, ?_⟩
    rw [if_neg]
    intro same
    have equal := unique found foundMember same
    rw [equal, occupies.privateData] at carries
    exact both.2 (Option.some.inj carries).symm
  · intro found foundMember owner carries still
    refine ⟨still, ?_⟩
    intro equal
    subst equal
    rw [retag, RangeList.mem_mapPayload_iff] at foundMember
    obtain ⟨old, oldMember, rewritten⟩ := foundMember
    by_cases same : old.payload.vma = area.payload.vma
    · rw [if_pos same] at rewritten
      rw [← rewritten] at carries
      exact absurd ((none old.payload).symm.trans carries) (by simp)
    · rw [if_neg same] at rewritten
      have plain : old = found := rewritten
      subst plain
      obtain ⟨_, _, again⟩ := placed.attached _ old oldMember owner carries
      have bothVma := again.vma.symm.trans occupies.vma
      exact same (Option.some.inj bothVma)
  · intro other still elsewhere
    refine ⟨still, ?_⟩
    intro equal
    exact elsewhere (by rw [equal])

/-- An address space loses all its areas. -/
theorem wipe (placed : Placed K vmas place bound nextVma) {mm : MmPtr}
    (none : ∀ att, bound att → (place att).mm ≠ mm) :
    Placed K (Function.update vmas mm .empty) place bound nextVma :=
  placed.rearrange (le_refl _)
    (fun piece member => absurd member (RangeList.not_mem_empty piece))
    (fun _ present => present)
    (fun att present area member carries =>
      (none att present
        (placed.attached mm area member att carries).2.1).elim)
    (fun _ _ _ _ present => present)
    (fun _ present _ => present)

end Placed

/-! ## Leaves -/

variable {pte : MmPtr → Nat → Option Frame} {valid : AttPtr → Bool}

/-- No page of the place is mapped. -/
def Place.Unmapped (pte : MmPtr → Nat → Option Frame) (place : Place) :
    Prop :=
  ∀ index < place.pages, pte place.mm (place.page + index) = none

/-- Leaves lie in areas, and only flagged attachments have any. -/
structure Mapped (vmas : MmPtr → RangeList VmaInfo)
    (pte : MmPtr → Nat → Option Frame) (place : AttPtr → Place)
    (valid : AttPtr → Bool) (bound : AttPtr → Prop) : Prop where
  covered : ∀ mm page frame, pte mm page = some frame →
    ∃ area ∈ vmas mm, area.Contains (page * pageSize)
  positive : ∀ mm page frame, pte mm page = some frame → frame ≠ 0
  flagged : ∀ att, bound att → valid att = false →
    (place att).Unmapped pte

/-- Every leaf of `next` is one of `pte`. -/
def Thinner (pte next : MmPtr → Nat → Option Frame) : Prop :=
  ∀ mm page frame, next mm page = some frame → pte mm page = some frame

theorem Place.Unmapped.thin {next : MmPtr → Nat → Option Frame}
    {place : Place} (unmapped : place.Unmapped pte)
    (thinner : Thinner pte next) :
    place.Unmapped next := by
  intro index inside
  cases leaf : next place.mm (place.page + index) with
  | none => rfl
  | some frame =>
      have before := thinner _ _ _ leaf
      rw [unmapped index inside] at before
      cases before

theorem Mapped.congr_place (mapped : Mapped vmas pte place valid bound)
    {otherPlace : AttPtr → Place} {otherValid : AttPtr → Bool}
    (samePlace : ∀ att, bound att → otherPlace att = place att)
    (sameValid : ∀ att, bound att → otherValid att = valid att) :
    Mapped vmas pte otherPlace otherValid bound where
  covered := mapped.covered
  positive := mapped.positive
  flagged att present invalid := by
    rw [samePlace att present]
    rw [sameValid att present] at invalid
    exact mapped.flagged att present invalid

/--
Leaves of one address space go, or come in areas without an attachment or
with a flagged one.
-/
theorem Mapped.retable (mapped : Mapped vmas pte place valid bound)
    (placed : Placed K vmas place bound nextVma) {mm : MmPtr}
    {leaves : Nat → Option Frame} {later : AttPtr → Bool}
    (changed : ∀ page frame, leaves page = some frame →
      pte mm page = some frame ∨
        frame ≠ 0 ∧ ∃ area ∈ vmas mm, area.Contains (page * pageSize) ∧
          ∀ att, area.payload.privateData = some att → later att = true)
    (weaker : ∀ att, bound att → later att = false → valid att = false) :
    Mapped vmas (Function.update pte mm leaves) place later bound where
  covered other page frame leaf := by
    by_cases here : other = mm
    · subst here
      rw [Function.update_self] at leaf
      rcases changed page frame leaf with old | ⟨_, area, member, new, _⟩
      · exact mapped.covered other page frame old
      · exact ⟨area, member, new⟩
    · rw [Function.update_of_ne here] at leaf
      exact mapped.covered other page frame leaf
  positive other page frame leaf := by
    by_cases here : other = mm
    · subst here
      rw [Function.update_self] at leaf
      rcases changed page frame leaf with old | ⟨positive, _⟩
      · exact mapped.positive other page frame old
      · exact positive
    · rw [Function.update_of_ne here] at leaf
      exact mapped.positive other page frame leaf
  flagged att present invalid index inside := by
    have before :=
      mapped.flagged att present (weaker att present invalid) index inside
    by_cases here : (place att).mm = mm
    · subst here
      rw [Function.update_self]
      by_contra leaf
      obtain ⟨frame, found⟩ := Option.ne_none_iff_exists'.mp leaf
      rcases changed _ frame found with
        old | ⟨_, area, member, contains, flagged⟩
      · rw [before] at old
        cases old
      · have owner := placed.carries present inside member contains
        rw [flagged att owner] at invalid
        cases invalid
    · rw [Function.update_of_ne here]
      exact before

/-- Areas change and leaves go. -/
theorem Mapped.thin (mapped : Mapped vmas pte place valid bound)
    {later : MmPtr → RangeList VmaInfo}
    {next : MmPtr → Nat → Option Frame} {still : AttPtr → Prop}
    (thinner : Thinner pte next)
    (fewer : ∀ att, still att → bound att)
    (covers : ∀ mm page frame, next mm page = some frame →
      ∀ area ∈ vmas mm, area.Contains (page * pageSize) →
        ∃ piece ∈ later mm, piece.Contains (page * pageSize)) :
    Mapped later next place valid still where
  covered mm page frame leaf := by
    obtain ⟨area, member, contains⟩ :=
      mapped.covered mm page frame (thinner mm page frame leaf)
    exact covers mm page frame leaf area member contains
  positive mm page frame leaf :=
    mapped.positive mm page frame (thinner mm page frame leaf)
  flagged att present invalid :=
    (mapped.flagged att (fewer att present) invalid).thin thinner

/-- A structure changes, and the leaves stay. -/
theorem Mapped.retag (mapped : Mapped vmas pte place valid bound)
    (mm : MmPtr) (vma : Nat) (change : VmaInfo → VmaInfo)
    {later : AttPtr → Place} {still : AttPtr → Prop}
    (flagged : ∀ att, still att → valid att = false →
      (later att).Unmapped pte) :
    Mapped
      (Function.update vmas mm (Placed.retag (vmas mm) vma change))
      pte later valid still where
  covered other page frame leaf := by
    obtain ⟨area, member, contains⟩ :=
      mapped.covered other page frame leaf
    by_cases here : other = mm
    · subst here
      rw [Function.update_self]
      refine ⟨⟨area.start, area.stop, if area.payload.vma = vma then
        change area.payload else area.payload⟩, ?_, contains⟩
      exact RangeList.mem_mapPayload_iff.mpr ⟨area, member, rfl⟩
    · rw [Function.update_of_ne here]
      exact ⟨area, member, contains⟩
  positive := mapped.positive
  flagged := flagged

end Xpmem.Objects
