import Mathlib.Data.List.Pairwise
import Mathlib.Order.Lattice

/-!
# Ordered lists of disjoint address ranges

A `RangeList` is a list of half-open ranges, each with a payload, whose
members are nonempty, pairwise disjoint and listed by increasing address.
These facts are fields of the structure, so that no operation can build a
list in which two ranges overlap.

The lookup `find` is the usual one of an address-space map: the first range
that ends above the address, which need not contain it.  `containing` adds
the test that it does.  The main theorems reduce every lookup to membership;
after them the order of the list is not needed any more.
-/

namespace Xpmem.Foundation

universe u

/-- A half-open range `[start, stop)` with a payload. -/
structure Range (α : Type u) where
  start : Nat
  stop : Nat
  payload : α
deriving DecidableEq, Repr

namespace Range

variable {α : Type u}

/-- The address lies in the range. -/
def Contains (range : Range α) (addr : Nat) : Prop :=
  range.start ≤ addr ∧ addr < range.stop

instance (range : Range α) (addr : Nat) :
    Decidable (range.Contains addr) :=
  inferInstanceAs (Decidable (_ ∧ _))

/-- The range has an address in common with `[start, stop)`. -/
def Meets (range : Range α) (start stop : Nat) : Prop :=
  start < range.stop ∧ range.start < stop

instance (range : Range α) (start stop : Nat) :
    Decidable (range.Meets start stop) :=
  inferInstanceAs (Decidable (_ ∧ _))

end Range

/-- Nonempty, disjoint ranges by increasing address. -/
structure RangeList (α : Type u) where
  ranges : List (Range α)
  nonempty : ∀ range ∈ ranges, range.start < range.stop
  ordered : ranges.Pairwise fun left right => left.stop ≤ right.start

namespace RangeList

variable {α : Type u}

instance : Membership (Range α) (RangeList α) where
  mem list range := range ∈ list.ranges

theorem mem_def (list : RangeList α) (range : Range α) :
    range ∈ list ↔ range ∈ list.ranges :=
  Iff.rfl

instance [DecidableEq α] (list : RangeList α) (range : Range α) :
    Decidable (range ∈ list) :=
  inferInstanceAs (Decidable (range ∈ list.ranges))

theorem start_lt_stop {list : RangeList α} {range : Range α}
    (member : range ∈ list) :
    range.start < range.stop :=
  list.nonempty range member

/-- Two members with a common address are the same member. -/
theorem eq_of_contains
    {list : RangeList α} {left right : Range α} {addr : Nat}
    (leftMember : left ∈ list) (rightMember : right ∈ list)
    (leftContains : left.Contains addr)
    (rightContains : right.Contains addr) :
    left = right := by
  by_contra distinct
  have disjoint :
      left.stop ≤ right.start ∨ right.stop ≤ left.start := by
    have weakened :
        list.ranges.Pairwise fun first second =>
          first.stop ≤ second.start ∨ second.stop ≤ first.start :=
      list.ordered.imp fun before => Or.inl before
    have : Std.Symm fun first second : Range α =>
        first.stop ≤ second.start ∨ second.stop ≤ first.start :=
      ⟨fun _ _ either => either.symm⟩
    exact weakened.forall leftMember rightMember distinct
  rcases leftContains with ⟨leftLow, leftHigh⟩
  rcases rightContains with ⟨rightLow, rightHigh⟩
  omega

theorem eq_of_meets {list : RangeList α} {left right : Range α}
    (leftMember : left ∈ list) (rightMember : right ∈ list)
    (meets : left.Meets right.start right.stop) : left = right := by
  obtain ⟨low, high⟩ := meets
  have leftProper := start_lt_stop leftMember
  have rightProper := start_lt_stop rightMember
  have leftContains : left.Contains (max left.start right.start) :=
    ⟨by omega, by omega⟩
  have rightContains : right.Contains (max left.start right.start) :=
    ⟨by omega, by omega⟩
  exact eq_of_contains leftMember rightMember leftContains rightContains

/-! ## Lookup -/

/-- The first range that ends above the address. -/
def find (list : RangeList α) (addr : Nat) : Option (Range α) :=
  list.ranges.find? fun range => addr < range.stop

/-- The range that contains the address. -/
def containing (list : RangeList α) (addr : Nat) : Option (Range α) :=
  (list.find addr).filter fun range => range.start ≤ addr

/-- A member that ends above the address is found, or an earlier one is. -/
theorem exists_find_of_lt
    {list : RangeList α} {range : Range α} {addr : Nat}
    (member : range ∈ list) (above : addr < range.stop) :
    ∃ first ∈ list, list.find addr = some first ∧
      (first = range ∨ first.stop ≤ range.start) := by
  cases found : list.find addr with
  | none =>
      have absent :=
        List.find?_eq_none.mp found range member
      simp [above] at absent
  | some first =>
      refine ⟨first, List.mem_of_find?_eq_some found, rfl, ?_⟩
      obtain ⟨ends, before, after, split, earlier⟩ :=
        List.find?_eq_some_iff_append.mp found
      have memberSplit : range ∈ before ++ first :: after := by
        rw [← split]
        exact member
      rcases List.mem_append.mp memberSplit with inBefore | inRest
      · have late := earlier range inBefore
        simp [above] at late
      · rcases List.mem_cons.mp inRest with equal | inAfter
        · exact Or.inl equal.symm
        · have ordered := list.ordered
          rw [split, List.pairwise_append] at ordered
          exact Or.inr
            ((List.pairwise_cons.mp ordered.2.1).1 range inAfter)

theorem find_eq_some_of_contains
    {list : RangeList α} {range : Range α} {addr : Nat}
    (member : range ∈ list) (contains : range.Contains addr) :
    list.find addr = some range := by
  obtain ⟨first, _, found, equal | before⟩ :=
    exists_find_of_lt member contains.2
  · rw [found, equal]
  · have ends := List.find?_some found
    simp only [decide_eq_true_eq] at ends
    have begins := contains.1
    omega

/-- `containing` finds exactly the member that contains the address. -/
theorem containing_eq_some_iff
    {list : RangeList α} {range : Range α} {addr : Nat} :
    list.containing addr = some range ↔
      range ∈ list ∧ range.Contains addr := by
  constructor
  · intro found
    obtain ⟨first, starts⟩ := Option.filter_eq_some_iff.mp found
    have member := List.mem_of_find?_eq_some first
    have ends := List.find?_some first
    simp only [decide_eq_true_eq] at starts ends
    exact ⟨member, starts, ends⟩
  · rintro ⟨member, contains⟩
    rw [containing, find_eq_some_of_contains member contains]
    simp [contains.1]

/-! ## The ranges that meet an interval -/

/--
The members that meet `[start, stop)`, in the order in which a walk reaches
them that begins at `find start` and ends at the first range not below
`stop`.
-/
def meeting (list : RangeList α) (start stop : Nat) : List (Range α) :=
  (list.ranges.dropWhile fun range => range.stop ≤ start).takeWhile
    fun range => range.start < stop

/-- A walk over ranges that are ordered skips no range that meets. -/
theorem mem_walk_iff
    (ranges : List (Range α)) (start stop : Nat)
    (nonempty : ∀ range ∈ ranges, range.start < range.stop)
    (ordered : ranges.Pairwise fun left right => left.stop ≤ right.start)
    (range : Range α) :
    range ∈ (ranges.dropWhile fun range => range.stop ≤ start).takeWhile
        (fun range => range.start < stop) ↔
      range ∈ ranges ∧ range.Meets start stop := by
  induction ranges with
  | nil => simp
  | cons head tail induction =>
      obtain ⟨headBefore, tailOrdered⟩ := List.pairwise_cons.mp ordered
      have tailNonempty :
          ∀ other ∈ tail, other.start < other.stop :=
        fun other member => nonempty other (List.mem_cons_of_mem _ member)
      by_cases skipped : head.stop ≤ start
      · rw [List.dropWhile_cons_of_pos (by simpa using skipped),
          induction tailNonempty tailOrdered]
        constructor
        · rintro ⟨member, meets⟩
          exact ⟨List.mem_cons_of_mem _ member, meets⟩
        · rintro ⟨member, meets⟩
          rcases List.mem_cons.mp member with equal | inTail
          · subst range
            exact absurd meets.1 (by omega)
          · exact ⟨inTail, meets⟩
      · rw [List.dropWhile_cons_of_neg (by simpa using skipped)]
        -- From the first range that is not skipped on, all ranges end
        -- above `start`; only the upper bound can still stop the walk.
        clear induction
        have ends :
            ∀ other ∈ head :: tail, start < other.stop := by
          intro other member
          rcases List.mem_cons.mp member with equal | inTail
          · subst other
            omega
          · have after := headBefore other inTail
            have := tailNonempty other inTail
            omega
        generalize head :: tail = rest at nonempty ordered ends ⊢
        induction rest with
        | nil => simp
        | cons first others induction =>
            obtain ⟨firstBefore, othersOrdered⟩ :=
              List.pairwise_cons.mp ordered
            have firstNonempty := nonempty first (by simp)
            by_cases below : first.start < stop
            · have others_iff :
                  range ∈ others.takeWhile
                      (fun range => range.start < stop) ↔
                    range ∈ others ∧ range.Meets start stop :=
                induction
                  (fun other member =>
                    nonempty other (List.mem_cons_of_mem _ member))
                  othersOrdered
                  (fun other member =>
                    ends other (List.mem_cons_of_mem _ member))
              rw [List.takeWhile_cons_of_pos (by simpa using below),
                List.mem_cons, List.mem_cons, others_iff]
              constructor
              · rintro (equal | ⟨member, meets⟩)
                · subst range
                  exact ⟨Or.inl rfl, ends first (by simp), below⟩
                · exact ⟨Or.inr member, meets⟩
              · rintro ⟨equal | member, meets⟩
                · exact Or.inl equal
                · exact Or.inr ⟨member, meets⟩
            · rw [List.takeWhile_cons_of_neg (by simpa using below)]
              constructor
              · intro member
                cases member
              · rintro ⟨member, meets⟩
                rcases List.mem_cons.mp member with equal | inOthers
                · subst range
                  exact absurd meets.2 below
                · have after := firstBefore range inOthers
                  have := meets.2
                  omega

theorem mem_meeting_iff
    {list : RangeList α} {start stop : Nat} {range : Range α} :
    range ∈ list.meeting start stop ↔
      range ∈ list ∧ range.Meets start stop :=
  mem_walk_iff list.ranges start stop list.nonempty list.ordered range

/-! ## Insertion into a gap -/

/-- No member meets `[start, stop)`. -/
def Free (list : RangeList α) (start stop : Nat) : Prop :=
  ∀ range ∈ list.ranges, range.stop ≤ start ∨ stop ≤ range.start

theorem free_of_find {list : RangeList α} {start stop : Nat}
    (nowhere : (list.find start).filter (fun range => range.start < stop) =
      none) :
    list.Free start stop := by
  intro range member
  by_contra meets
  obtain ⟨first, inside, found, before⟩ := exists_find_of_lt member
    (show start < range.stop by omega)
  rw [found, Option.filter_eq_none_iff] at nowhere
  have begins := nowhere first rfl
  have proper := start_lt_stop inside
  rw [decide_eq_true_iff] at begins
  rcases before with rfl | before <;> omega

theorem meets_of_find {list : RangeList α} {start stop : Nat}
    {first : Range α}
    (found : (list.find start).filter (fun range => range.start < stop) =
      some first) :
    first ∈ list ∧ start < first.stop ∧ first.start < stop := by
  obtain ⟨lookup, begins⟩ := Option.filter_eq_some_iff.mp found
  have ends := List.find?_some lookup
  simp only [decide_eq_true_eq] at begins ends
  exact ⟨List.mem_of_find?_eq_some lookup, ends, begins⟩

instance (list : RangeList α) (start stop : Nat) :
    Decidable (list.Free start stop) :=
  inferInstanceAs (Decidable (∀ range ∈ list.ranges, _))

/-- Insert a nonempty range into a gap of the list. -/
def insert (list : RangeList α) (range : Range α)
    (nonempty : range.start < range.stop) :
    RangeList α where
  ranges :=
    (list.ranges.filter fun other => other.stop ≤ range.start) ++
      range :: list.ranges.filter fun other => range.stop ≤ other.start
  nonempty := by
    intro other member
    simp only [List.mem_append, List.mem_cons, List.mem_filter] at member
    rcases member with ⟨old, _⟩ | equal | ⟨old, _⟩
    · exact list.nonempty other old
    · subst other
      exact nonempty
    · exact list.nonempty other old
  ordered := by
    refine List.pairwise_append.mpr ⟨list.ordered.filter _, ?_, ?_⟩
    · refine List.pairwise_cons.mpr ⟨?_, list.ordered.filter _⟩
      intro other member
      simpa using (List.mem_filter.mp member).2
    · intro before beforeMember other member
      have ends : before.stop ≤ range.start := by
        simpa using (List.mem_filter.mp beforeMember).2
      rcases List.mem_cons.mp member with equal | after
      · subst other
        exact ends
      · have starts : range.stop ≤ other.start := by
          simpa using (List.mem_filter.mp after).2
        omega

theorem mem_insert_iff
    {list : RangeList α} {range other : Range α}
    {nonempty : range.start < range.stop}
    (free : list.Free range.start range.stop) :
    other ∈ list.insert range nonempty ↔ other = range ∨ other ∈ list := by
  rw [mem_def, insert]
  simp only [List.mem_append, List.mem_cons, List.mem_filter,
    decide_eq_true_eq]
  constructor
  · rintro (⟨old, _⟩ | equal | ⟨old, _⟩)
    · exact Or.inr old
    · exact Or.inl equal
    · exact Or.inr old
  · rintro (equal | old)
    · exact Or.inr (Or.inl equal)
    · rcases free other old with before | after
      · exact Or.inl ⟨old, before⟩
      · exact Or.inr (Or.inr ⟨old, after⟩)

/-! ## Removal of an interval -/

/--
What is left of a range when `[start, stop)` is cut out of it.  When both
ends survive, the lower piece keeps the payload and the upper one gets a
copy of it.
-/
def remains (copy : α → α) (start stop : Nat) (range : Range α) :
    List (Range α) :=
  if range.Meets start stop then
    (if range.start < start then
        [⟨range.start, start, range.payload⟩]
      else []) ++
    (if stop < range.stop then
        [⟨stop, range.stop,
          if range.start < start then copy range.payload
          else range.payload⟩]
      else [])
  else [range]

/-- Every remaining piece is a nonempty part of the range. -/
theorem remains_within
    {copy : α → α} {start stop : Nat} {range piece : Range α}
    (nonempty : range.start < range.stop)
    (member : piece ∈ remains copy start stop range) :
    range.start ≤ piece.start ∧ piece.start < piece.stop ∧
      piece.stop ≤ range.stop := by
  unfold remains at member
  split at member
  · rename_i meets
    obtain ⟨meetsLow, meetsHigh⟩ := meets
    rcases List.mem_append.mp member with low | high
    · split at low
      · rw [List.mem_singleton] at low
        subst piece
        exact ⟨le_refl _, by assumption, by simp only; omega⟩
      · cases low
    · split at high
      · rw [List.mem_singleton] at high
        subst piece
        exact ⟨by simp only; omega, by assumption, le_refl _⟩
      · cases high
  · rw [List.mem_singleton] at member
    subst piece
    exact ⟨le_refl _, nonempty, le_refl _⟩

/-- Only the upper piece of a range that is cut in two is a copy. -/
theorem payload_of_remains
    {copy : α → α} {start stop : Nat} {range piece : Range α}
    (member : piece ∈ remains copy start stop range) :
    piece.payload = range.payload ∨
      range.Meets start stop ∧ range.start < start ∧
        piece.payload = copy range.payload := by
  unfold remains at member
  split at member
  · rename_i meets
    rcases List.mem_append.mp member with low | high
    · split at low
      · rw [List.mem_singleton] at low
        exact Or.inl (low ▸ rfl)
      · cases low
    · split at high
      · rw [List.mem_singleton] at high
        subst piece
        split
        · rename_i cut
          exact Or.inr ⟨meets, cut, rfl⟩
        · exact Or.inl rfl
      · cases high
  · rw [List.mem_singleton] at member
    exact Or.inl (member ▸ rfl)

/-- Cut `[start, stop)` out of every member. -/
def carve (list : RangeList α) (copy : α → α) (start stop : Nat)
    (proper : start < stop) :
    RangeList α where
  ranges := list.ranges.flatMap (remains copy start stop)
  nonempty := by
    intro piece member
    obtain ⟨range, old, part⟩ := List.mem_flatMap.mp member
    exact (remains_within (list.nonempty range old) part).2.1
  ordered := by
    rw [List.pairwise_flatMap]
    constructor
    · intro range _
      unfold remains
      split
      · split <;> split <;> simp
        omega
      · simp
    · refine List.Pairwise.imp_of_mem ?_ list.ordered
      intro left right leftMember rightMember before leftPiece leftPart
        rightPiece rightPart
      have leftWithin :=
        remains_within (list.nonempty left leftMember) leftPart
      have rightWithin :=
        remains_within (list.nonempty right rightMember) rightPart
      omega

theorem mem_carve_iff
    {list : RangeList α} {copy : α → α} {start stop : Nat}
    {proper : start < stop} {piece : Range α} :
    piece ∈ list.carve copy start stop proper ↔
      ∃ range ∈ list, piece ∈ remains copy start stop range :=
  List.mem_flatMap

/-- After the removal nothing meets the interval. -/
theorem carve_free
    (list : RangeList α) (copy : α → α) (start stop : Nat)
    (proper : start < stop) :
    (list.carve copy start stop proper).Free start stop := by
  intro piece member
  obtain ⟨range, old, part⟩ := mem_carve_iff.mp member
  unfold remains at part
  split at part
  · rcases List.mem_append.mp part with low | high
    · split at low
      · rw [List.mem_singleton] at low
        subst piece
        exact Or.inl (le_refl _)
      · cases low
    · split at high
      · rw [List.mem_singleton] at high
        subst piece
        exact Or.inr (le_refl _)
      · cases high
  · rename_i apart
    rw [List.mem_singleton] at part
    subst piece
    unfold Range.Meets at apart
    omega

/-- The removal loses no address outside the interval. -/
theorem exists_carve_contains
    {list : RangeList α} {copy : α → α} {start stop addr : Nat}
    {proper : start < stop} {range : Range α} (member : range ∈ list)
    (contains : range.Contains addr)
    (outside : addr < start ∨ stop ≤ addr) :
    ∃ piece ∈ list.carve copy start stop proper, piece.Contains addr ∧
      (piece.payload = range.payload ∨
        piece.payload = copy range.payload) := by
  obtain ⟨low, high⟩ := contains
  by_cases meets : range.Meets start stop
  · rcases outside with below | above
    · have cut : range.start < start := by omega
      refine ⟨⟨range.start, start, range.payload⟩, ?_, ⟨low, below⟩,
        Or.inl rfl⟩
      exact mem_carve_iff.mpr
        ⟨range, member, by simp [remains, meets, cut]⟩
    · have cut : stop < range.stop := by omega
      refine ⟨⟨stop, range.stop,
        if range.start < start then copy range.payload
        else range.payload⟩, ?_, ⟨above, high⟩, ?_⟩
      · exact mem_carve_iff.mpr
          ⟨range, member, by simp [remains, meets, cut]⟩
      · split
        · exact Or.inr rfl
        · exact Or.inl rfl
  · refine ⟨range, ?_, ⟨low, high⟩, Or.inl rfl⟩
    exact mem_carve_iff.mpr ⟨range, member, by simp [remains, meets]⟩

/-- Remove the ranges that meet `[start, stop)`. -/
def discard (list : RangeList α) (start stop : Nat) : RangeList α where
  ranges := list.ranges.filter fun range => ¬ range.Meets start stop
  nonempty range member := list.nonempty range (List.mem_filter.mp member).1
  ordered := list.ordered.filter _

theorem eq_of_ranges {left right : RangeList α}
    (same : left.ranges = right.ranges) : left = right := by
  cases left
  cases right
  subst same
  rfl

theorem discard_discard (list : RangeList α) (start stop low high : Nat) :
    (list.discard start stop).discard low high =
      (list.discard low high).discard start stop := by
  apply eq_of_ranges
  simp only [discard, List.filter_filter, Bool.and_comm]

/-- When no range sticks out of the interval, nothing has to be cut. -/
theorem carve_eq_discard
    {list : RangeList α} {copy : α → α} {start stop : Nat}
    {proper : start < stop}
    (inside : ∀ range ∈ list, range.Meets start stop →
      start ≤ range.start ∧ range.stop ≤ stop) :
    list.carve copy start stop proper = list.discard start stop := by
  apply eq_of_ranges
  change list.ranges.flatMap (remains copy start stop) =
    list.ranges.filter fun range => ¬ range.Meets start stop
  have whole : ∀ range ∈ list.ranges, remains copy start stop range =
      if range.Meets start stop then [] else [range] := by
    intro range member
    unfold remains
    split
    · rename_i meets
      obtain ⟨low, high⟩ := inside range member meets
      rw [if_neg (not_lt.mpr low), if_neg (not_lt.mpr high), List.append_nil]
    · rfl
  generalize list.ranges = ranges at whole ⊢
  induction ranges with
  | nil => rfl
  | cons range rest induction =>
      obtain ⟨here, later⟩ := List.forall_mem_cons.mp whole
      rw [List.flatMap_cons, List.filter_cons, induction later, here]
      by_cases meets : range.Meets start stop
      · simp [meets]
      · simp [meets]

/-! ## Splitting at an address -/

/-- Cut a range in two at an address strictly inside it. -/
def cut (lower upper : α → α) (addr : Nat) (range : Range α) :
    List (Range α) :=
  if range.start < addr ∧ addr < range.stop then
    [⟨range.start, addr, lower range.payload⟩,
      ⟨addr, range.stop, upper range.payload⟩]
  else [range]

theorem cut_within
    {lower upper : α → α} {addr : Nat} {range piece : Range α}
    (nonempty : range.start < range.stop)
    (member : piece ∈ cut lower upper addr range) :
    range.start ≤ piece.start ∧ piece.start < piece.stop ∧
      piece.stop ≤ range.stop := by
  unfold cut at member
  split at member
  · rename_i inside
    simp only [List.mem_cons, List.not_mem_nil, or_false] at member
    rcases member with equal | equal
    · subst piece
      exact ⟨le_refl _, inside.1, le_of_lt inside.2⟩
    · subst piece
      exact ⟨le_of_lt inside.1, inside.2, le_refl _⟩
  · rw [List.mem_singleton] at member
    subst piece
    exact ⟨le_refl _, nonempty, le_refl _⟩

/-- Split the member that has the address strictly inside, if any. -/
def splitAt (list : RangeList α) (lower upper : α → α) (addr : Nat) :
    RangeList α where
  ranges := list.ranges.flatMap (cut lower upper addr)
  nonempty := by
    intro piece member
    obtain ⟨range, old, part⟩ := List.mem_flatMap.mp member
    exact (cut_within (list.nonempty range old) part).2.1
  ordered := by
    rw [List.pairwise_flatMap]
    constructor
    · intro range _
      unfold cut
      split <;> simp
    · refine List.Pairwise.imp_of_mem ?_ list.ordered
      intro left right leftMember rightMember before leftPiece leftPart
        rightPiece rightPart
      have leftWithin :=
        cut_within (list.nonempty left leftMember) leftPart
      have rightWithin :=
        cut_within (list.nonempty right rightMember) rightPart
      omega

theorem mem_splitAt_iff
    {list : RangeList α} {lower upper : α → α} {addr : Nat}
    {piece : Range α} :
    piece ∈ list.splitAt lower upper addr ↔
      ∃ range ∈ list, piece ∈ cut lower upper addr range :=
  List.mem_flatMap

/-- Splitting loses no address. -/
theorem exists_splitAt_contains
    {list : RangeList α} {lower upper : α → α} {addr other : Nat}
    {range : Range α} (member : range ∈ list)
    (contains : range.Contains other) :
    ∃ piece ∈ list.splitAt lower upper addr, piece.Contains other ∧
      (piece.payload = range.payload ∨
        piece.payload = lower range.payload ∨
        piece.payload = upper range.payload) := by
  by_cases inside : range.start < addr ∧ addr < range.stop
  · rcases Nat.lt_or_ge other addr with below | above
    · refine ⟨⟨range.start, addr, lower range.payload⟩, ?_,
        ⟨contains.1, below⟩, by simp⟩
      exact mem_splitAt_iff.mpr ⟨range, member, by simp [cut, inside]⟩
    · refine ⟨⟨addr, range.stop, upper range.payload⟩, ?_,
        ⟨above, contains.2⟩, by simp⟩
      exact mem_splitAt_iff.mpr ⟨range, member, by simp [cut, inside]⟩
  · refine ⟨range, ?_, contains, Or.inl rfl⟩
    exact mem_splitAt_iff.mpr ⟨range, member, by simp [cut, inside]⟩

/-! ## Payload changes -/

/-- Rewrite the payload of every member. -/
def mapPayload (list : RangeList α) (change : α → α) : RangeList α where
  ranges :=
    list.ranges.map fun range =>
      { range with payload := change range.payload }
  nonempty := by
    intro range member
    obtain ⟨old, oldMember, equal⟩ := List.mem_map.mp member
    subst range
    exact list.nonempty old oldMember
  ordered := by
    rw [List.pairwise_map]
    exact list.ordered

theorem mem_mapPayload_iff
    {list : RangeList α} {change : α → α} {range : Range α} :
    range ∈ list.mapPayload change ↔
      ∃ old ∈ list, { old with payload := change old.payload } = range :=
  List.mem_map

/-- A change inside the interval that is removed does not matter. -/
theorem discard_mapPayload
    {list : RangeList α} {change : α → α} {start stop : Nat}
    (same : ∀ range ∈ list, ¬ range.Meets start stop →
      change range.payload = range.payload) :
    (list.mapPayload change).discard start stop =
      list.discard start stop := by
  apply eq_of_ranges
  change (list.ranges.map _).filter _ = _
  rw [List.filter_map]
  refine (List.map_congr_left fun range member => ?_).trans (List.map_id _)
  obtain ⟨old, apart⟩ := List.mem_filter.mp member
  have unmet : ¬ range.Meets start stop := of_decide_eq_true apart
  rw [same range old unmet]
  rfl

/-- The list without ranges. -/
def empty : RangeList α where
  ranges := []
  nonempty := by simp
  ordered := .nil

@[simp]
theorem not_mem_empty (range : Range α) :
    range ∉ (empty : RangeList α) := by
  simp [mem_def, empty]

end RangeList

end Xpmem.Foundation
