import Xpmem.Foundation.Cursor
import Mathlib.Data.List.Infix

/-!
# Circular doubly linked lists

A list is a ring of nodes: its head, written `none`, and the link field of
each element.  An element that is on no list is linked to itself.  `Holds`
says that the links are those of a given list: at every point where the list
can be cut, the node before the cut and the node behind it point to each
other.
-/

namespace Xpmem.Foundation

universe u

variable {α : Type u}

/-- The links of the head and of every element. -/
structure Links (α : Type u) where
  next : Option α → Option α
  prev : Option α → Option α

namespace Links

/-- `INIT_LIST_HEAD` for the head and every element. -/
def init : Links α where
  next := id
  prev := id

/-- The element is met when the links are followed from the head. -/
def OnList (links : Links α) (element : α) : Prop :=
  ∃ hops, links.next^[hops] none = some element

/-- The links are those of a list. -/
structure Holds (links : Links α) (list : List α) : Prop where
  nodup : list.Nodup
  next {front later : List α} (cut : list = front ++ later) :
    links.next front.getLast? = later.head?
  prev {front later : List α} (cut : list = front ++ later) :
    links.prev later.head? = front.getLast?
  alone {element : α} (absent : element ∉ list) :
    links.next (some element) = some element ∧
      links.prev (some element) = some element

theorem holds_init : (init : Links α).Holds [] where
  nodup := List.nodup_nil
  next cut := by
    obtain ⟨rfl, rfl⟩ := List.nil_eq_append_iff.mp cut
    rfl
  prev cut := by
    obtain ⟨rfl, rfl⟩ := List.nil_eq_append_iff.mp cut
    rfl
  alone _ := ⟨rfl, rfl⟩

/-! ## Nodes on the two sides of a cut -/

theorem getLast?_ne_some {front : List α} {element : α}
    (absent : element ∉ front) : front.getLast? ≠ some element :=
  fun last => absent (List.mem_of_getLast? last)

theorem head?_ne_some {later : List α} {element : α}
    (absent : element ∉ later) : later.head? ≠ some element :=
  fun first => absent (List.mem_of_head? first)

/-- The last nodes of two lists differ if elements in between do. -/
theorem getLast?_ne_append {front more : List α}
    (nodup : (front ++ more).Nodup) (proper : more ≠ []) :
    front.getLast? ≠ (front ++ more).getLast? := by
  rw [List.getLast?_append_of_ne_nil _ proper]
  obtain ⟨last, found⟩ := List.getLast?_isSome.mpr proper |>
    Option.isSome_iff_exists.mp
  rw [found]
  apply getLast?_ne_some
  intro member
  exact (List.disjoint_of_nodup_append nodup) member
    (List.mem_of_getLast? found)

theorem head?_ne_append {more later : List α}
    (nodup : (more ++ later).Nodup) (proper : more ≠ []) :
    later.head? ≠ (more ++ later).head? := by
  rw [List.head?_append_of_ne_nil _ proper]
  obtain ⟨first, found⟩ := List.isSome_head?.mpr proper |>
    Option.isSome_iff_exists.mp
  rw [found]
  apply head?_ne_some
  intro member
  exact (List.disjoint_of_nodup_append nodup) (List.mem_of_head? found)
    member

/-- Where a list with one more element is cut. -/
theorem cut_concat {list front later : List α} {element : α}
    (cut : list ++ [element] = front ++ later) :
    (front = list ++ [element] ∧ later = []) ∨
      ∃ part, later = part ++ [element] ∧ list = front ++ part := by
  rcases List.eq_nil_or_concat' later with rfl | ⟨part, last, rfl⟩
  · rw [List.append_nil] at cut
    exact .inl ⟨cut.symm, rfl⟩
  · rw [← List.append_assoc] at cut
    obtain ⟨inner, same⟩ := List.append_inj' cut rfl
    cases same
    exact .inr ⟨part, rfl, inner⟩

variable {links : Links α} {list : List α}

theorem Holds.prev_head (holds : links.Holds list) :
    links.prev none = list.getLast? :=
  holds.prev (List.append_nil list).symm

theorem Holds.next_element (holds : links.Holds list)
    {front later : List α} {element : α}
    (cut : list = front ++ element :: later) :
    links.next (some element) = later.head? := by
  have ending := @Holds.next _ _ _ holds (front ++ [element]) later
    (by rw [cut, List.append_assoc]; rfl)
  rwa [List.getLast?_concat] at ending

theorem Holds.prev_element (holds : links.Holds list)
    {front later : List α} {element : α}
    (cut : list = front ++ element :: later) :
    links.prev (some element) = front.getLast? :=
  holds.prev cut

/-! ## The operations -/

variable [DecidableEq α]

/-- Link a node in between two others. -/
def listAdd (links : Links α) (new before after : Option α) : Links α where
  next := Function.update (Function.update links.next new after) before new
  prev := Function.update (Function.update links.prev after new) new before

/-- `list_add_tail`. -/
def listAddTail (links : Links α) (element : α) : Links α :=
  links.listAdd (some element) (links.prev none) none

/-- `list_del_init`. -/
def listDelInit (links : Links α) (element : α) : Links α where
  next := Function.update
    (Function.update links.next (links.prev (some element))
      (links.next (some element)))
    (some element) (some element)
  prev := Function.update
    (Function.update links.prev (links.next (some element))
      (links.prev (some element)))
    (some element) (some element)

/-- `list_empty`, of an element's own link field. -/
def listEmpty (links : Links α) (element : α) : Bool :=
  links.next (some element) = some element

/-- The list made by appending elements. -/
def ofList (list : List α) : Links α :=
  list.foldl listAddTail init

/-- Appending an element that is not on the list. -/
theorem Holds.listAddTail (holds : links.Holds list) {element : α}
    (absent : element ∉ list) :
    (links.listAddTail element).Holds (list ++ [element]) where
  nodup := List.concat_eq_append ▸ holds.nodup.concat absent
  next {front later} cut := by
    simp only [Links.listAddTail, listAdd, holds.prev_head]
    rcases cut_concat cut with ⟨rfl, rfl⟩ | ⟨part, rfl, inner⟩
    · rw [List.getLast?_concat, Function.update_of_ne
        (getLast?_ne_some absent).symm]
      simp
    · cases part with
      | nil =>
          rw [List.append_nil] at inner
          subst front
          simp
      | cons first part =>
          have differs := getLast?_ne_append (inner ▸ holds.nodup)
            (List.cons_ne_nil first part)
          have front_absent : element ∉ front := fun member =>
            absent (inner ▸ List.mem_append_left _ member)
          rw [← inner] at differs
          rw [Function.update_of_ne differs, Function.update_of_ne
            (getLast?_ne_some front_absent), holds.next inner]
          simp
  prev {front later} cut := by
    simp only [Links.listAddTail, listAdd, holds.prev_head]
    rcases cut_concat cut with ⟨rfl, rfl⟩ | ⟨part, rfl, inner⟩
    · rw [Function.update_of_ne (by simp)]
      simp
    · cases part with
      | nil =>
          rw [List.append_nil] at inner
          subst front
          simp
      | cons first part =>
          have other : first ≠ element := by
            rintro rfl
            exact absent (inner ▸ by simp)
          rw [← holds.prev inner]
          simp [other]
  alone {other} missing := by
    rw [List.mem_append, List.mem_singleton, not_or] at missing
    obtain ⟨missing, differs⟩ := missing
    have last := (getLast?_ne_some missing).symm
    simp only [Links.listAddTail, listAdd, holds.prev_head]
    constructor
    · rw [Function.update_of_ne last,
        Function.update_of_ne (by simpa using differs)]
      exact (holds.alone missing).1
    · rw [Function.update_of_ne (by simpa using differs),
        Function.update_of_ne (by simp)]
      exact (holds.alone missing).2

/-- Taking an element out that is on the list. -/
theorem Holds.listDelInit_of_mem (holds : links.Holds list)
    {before after : List α} {element : α}
    (split : list = before ++ element :: after) :
    (links.listDelInit element).Holds (before ++ after) := by
  have nodup := holds.nodup
  rw [split, List.nodup_middle, List.nodup_cons, List.mem_append,
    not_or] at nodup
  obtain ⟨⟨notBefore, notAfter⟩, nodup⟩ := nodup
  have nextElement := holds.next_element split
  have prevElement := holds.prev_element split
  constructor
  · exact nodup
  · intro front later cut
    have free : element ∉ front := by
      intro member
      have : element ∈ before ++ after := cut ▸ List.mem_append_left _ member
      exact (List.mem_append.mp this).elim notBefore notAfter
    simp only [listDelInit, nextElement, prevElement]
    rw [Function.update_of_ne (getLast?_ne_some free)]
    rcases List.append_eq_append_iff.mp cut with
      ⟨part, rfl, rfl⟩ | ⟨part, rfl, rfl⟩
    · -- the cut is at or behind the place of the element
      cases part with
      | nil => simp
      | cons first part =>
          have differs := getLast?_ne_append
            (List.Nodup.of_append_left (by
              rw [List.append_assoc]; exact nodup))
            (List.cons_ne_nil first part)
          rw [Function.update_of_ne differs.symm]
          have old := @Holds.next _ _ _ holds
            (before ++ element :: first :: part) later (by simp [split])
          rw [← old]
          simp [List.getLast?_append]
    · cases part with
      | nil => simp
      | cons first part =>
          have differs := getLast?_ne_append
            (List.Nodup.of_append_left nodup) (List.cons_ne_nil first part)
          rw [Function.update_of_ne differs]
          have old := @Holds.next _ _ _ holds front
            (first :: part ++ element :: after) (by simp [split])
          rw [old]
          simp
  · intro front later cut
    have free : element ∉ later := by
      intro member
      have : element ∈ before ++ after := cut ▸ List.mem_append_right _ member
      exact (List.mem_append.mp this).elim notBefore notAfter
    simp only [listDelInit, nextElement, prevElement]
    rw [Function.update_of_ne (head?_ne_some free)]
    rcases List.append_eq_append_iff.mp cut with
      ⟨part, rfl, rfl⟩ | ⟨part, rfl, rfl⟩
    · cases part with
      | nil => simp
      | cons first part =>
          have differs := head?_ne_append
            (List.Nodup.of_append_right nodup) (List.cons_ne_nil first part)
          rw [Function.update_of_ne differs]
          have old := @Holds.prev _ _ _ holds
            (before ++ element :: first :: part) later (by simp [split])
          rw [old]
          simp [List.getLast?_append]
    · cases part with
      | nil => simp
      | cons first part =>
          have differs := head?_ne_append
            (List.Nodup.of_append_right (by
              rw [List.append_assoc] at nodup; exact nodup))
            (List.cons_ne_nil first part)
          rw [Function.update_of_ne differs.symm]
          have old := @Holds.prev _ _ _ holds front
            (first :: part ++ element :: after) (by simp [split])
          rw [← old]
          simp
  · intro other missing
    rw [List.mem_append, not_or] at missing
    simp only [listDelInit, nextElement, prevElement]
    by_cases same : other = element
    · subst other
      simp
    · have absent : other ∉ list := by
        rw [split]
        simp [missing, same]
      have apart : some other ≠ some element := by simpa using same
      rw [Function.update_of_ne apart, Function.update_of_ne apart,
        Function.update_of_ne (getLast?_ne_some missing.1).symm,
        Function.update_of_ne (head?_ne_some missing.2).symm]
      exact holds.alone absent

/-- Taking an element out that is on no list changes nothing. -/
theorem Holds.listDelInit_of_notMem (holds : links.Holds list) {element : α}
    (absent : element ∉ list) : links.listDelInit element = links := by
  obtain ⟨next, prev⟩ := holds.alone absent
  obtain ⟨nextOf, prevOf⟩ := links
  simp only at next prev
  simp only [listDelInit, next, prev, Function.update_idem, Links.mk.injEq]
  constructor
  · exact Function.update_eq_self_iff.mpr next.symm
  · exact Function.update_eq_self_iff.mpr prev.symm

theorem Holds.listDelInit (holds : links.Holds list) (element : α) :
    (links.listDelInit element).Holds (list.erase element) := by
  by_cases member : element ∈ list
  · obtain ⟨before, after, split⟩ := List.append_of_mem member
    have new : element ∉ before := notMem_front (split ▸ holds.nodup)
    rw [split, List.erase_append_right _ new, List.erase_cons_head]
    exact holds.listDelInit_of_mem split
  · rw [holds.listDelInit_of_notMem member,
      List.erase_of_not_mem member]
    exact holds

/-! ## Following the links -/

/-- The node behind a node of the ring is the first of what is ahead. -/
theorem Holds.next_eq (holds : links.Holds list) {cursor : Option α}
    (linked : ∀ element ∈ cursor, element ∈ list) :
    links.next cursor = (rest cursor list).head? := by
  cases cursor with
  | none => exact holds.next (List.nil_append list).symm
  | some element =>
      obtain ⟨front, later, split⟩ := List.append_of_mem (linked element rfl)
      rw [holds.next_element split, split,
        rest_append_cons (notMem_front (split ▸ holds.nodup))]

/-- `list_empty` tells whether an element is on the list. -/
theorem Holds.listEmpty_iff (holds : links.Holds list) (element : α) :
    links.listEmpty element = true ↔ element ∉ list := by
  rw [listEmpty, decide_eq_true_iff]
  constructor
  · intro self member
    obtain ⟨front, later, split⟩ := List.append_of_mem member
    have nodup := holds.nodup
    rw [split] at nodup
    rw [holds.next_element split] at self
    have later_mem := List.mem_of_head? self
    rw [List.nodup_append, List.nodup_cons] at nodup
    exact nodup.2.1.1 later_mem
  · intro absent
    exact (holds.alone absent).1

omit [DecidableEq α] in
theorem Holds.iterate (holds : links.Holds list) {hops : Nat}
    (within : hops ≤ list.length) :
    links.next^[hops] none = (list.take hops).getLast? := by
  induction hops with
  | zero => simp
  | succ hops induction =>
      rw [Function.iterate_succ_apply', induction (by omega),
        holds.next (List.take_append_drop hops list).symm, List.head?_drop,
        List.getLast?_take]
      have inside : hops < list.length := by omega
      simp [inside]

theorem Holds.onList_iff (holds : links.Holds list) {element : α} :
    links.OnList element ↔ element ∈ list := by
  constructor
  · rintro ⟨hops, met⟩
    have inside : ∀ hops, ∀ met ∈ links.next^[hops] none, met ∈ list := by
      intro hops
      induction hops with
      | zero => nofun
      | succ hops induction =>
          intro met found
          rw [Function.iterate_succ_apply', Option.mem_def,
            holds.next_eq induction] at found
          exact mem_of_mem_rest (List.mem_of_head? found)
    exact inside hops element met
  · intro member
    obtain ⟨front, later, split⟩ := List.append_of_mem member
    refine ⟨front.length + 1, ?_⟩
    rw [holds.iterate (by simp [split]), split, List.take_append]
    simp

theorem holds_ofList {list : List α} (nodup : list.Nodup) :
    (ofList list).Holds list := by
  induction list using List.reverseRecOn with
  | nil => exact holds_init
  | append_singleton list element induction =>
      rw [List.nodup_append] at nodup
      rw [ofList, List.foldl_append]
      apply (induction nodup.1).listAddTail
      intro member
      exact nodup.2.2 element member element (by simp) rfl

end Links

end Xpmem.Foundation
