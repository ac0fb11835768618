import Mathlib.Data.Option.Basic
import Mathlib.Logic.Function.Basic
import Mathlib.Order.Nat

/-!
# Objects that are looked up by name

Owners make objects and give each a name that no other object of the same
owner has; a name is made of the owner and of a number that the owner counts
up.  An object stays on the list on which its name is looked up until it is
given up.  `Sound` is what makes such a lookup find the object itself, and
nothing once the object is given up.
-/

namespace Xpmem.Foundation

universe u

/-- Objects, their owners, and the lists on which they are looked up. -/
structure Directory (κ : Type u) where
  /-- The objects and the owners made so far are those below. -/
  objects : Nat
  owners : Nat
  owner : Nat → Nat
  name : Nat → κ
  /-- The object is given up. -/
  gone : Nat → Bool
  /-- The list on which an owner's object of this name is looked up. -/
  listed : Nat → κ → List Nat
  /-- The last number an owner has used. -/
  count : Nat → Nat
  /-- The name an owner makes of a number. -/
  make : Nat → Nat → κ

namespace Directory

variable {κ : Type u} {d e : Directory κ}

/-- Lists and names agree with the objects. -/
structure Sound (d : Directory κ) : Prop where
  owner_lt : ∀ object < d.objects, d.owner object < d.owners
  listed : ∀ owner name, ∀ object ∈ d.listed owner name,
    object < d.objects ∧ d.owner object = owner
  present : ∀ object < d.objects, d.gone object = false →
    object ∈ d.listed (d.owner object) (d.name object)
  named : ∀ object < d.objects,
    ∃ number ≤ d.count (d.owner object),
      d.name object = d.make (d.owner object) number
  unique : ∀ object < d.objects, ∀ other < d.objects,
    d.owner object = d.owner other → d.name object = d.name other →
      object = other

/-- No object is made, and those taken off a list are given up. -/
structure Settles (d e : Directory κ) : Prop where
  objects : e.objects = d.objects
  owners : d.owners ≤ e.owners
  owner : ∀ object < d.objects, e.owner object = d.owner object
  name : ∀ object < d.objects, e.name object = d.name object
  gone : ∀ object < d.objects, d.gone object = true →
    e.gone object = true
  make : ∀ owner < d.owners, e.make owner = d.make owner
  count : ∀ owner < d.owners, d.count owner ≤ e.count owner
  listed : ∀ owner name, ∀ object ∈ e.listed owner name,
    object ∈ d.listed owner name
  kept : ∀ owner < d.owners, ∀ name, ∀ object ∈ d.listed owner name,
    object < d.objects → e.gone object = false →
      object ∈ e.listed owner name

theorem Sound.settles (sound : Sound d) (settles : Settles d e) :
    Sound e where
  owner_lt object used := by
    rw [settles.objects] at used
    rw [settles.owner object used]
    exact (sound.owner_lt object used).trans_le settles.owners
  listed owner name object member := by
    obtain ⟨used, owned⟩ :=
      sound.listed owner name object (settles.listed owner name object member)
    rw [settles.objects, settles.owner object used]
    exact ⟨used, owned⟩
  present object used here := by
    rw [settles.objects] at used
    have before : d.gone object = false := by
      by_contra flagged
      rw [settles.gone object used (by simpa using flagged)] at here
      cases here
    rw [settles.owner object used, settles.name object used]
    exact settles.kept _ (sound.owner_lt object used) _ object
      (sound.present object used before) used here
  named object used := by
    rw [settles.objects] at used
    have known := sound.owner_lt object used
    obtain ⟨number, below, same⟩ := sound.named object used
    rw [settles.owner object used, settles.name object used,
      settles.make _ known]
    exact ⟨number, below.trans (settles.count _ known), same⟩
  unique object used other otherUsed sameOwner sameName := by
    rw [settles.objects] at used otherUsed
    rw [settles.owner object used, settles.owner other otherUsed]
      at sameOwner
    rw [settles.name object used, settles.name other otherUsed] at sameName
    exact sound.unique object used other otherUsed sameOwner sameName

/-- An owner makes an object and gives it the next name. -/
structure Creates (d e : Directory κ) (maker : Nat) : Prop where
  known : maker < d.owners
  fresh : ∀ number ≤ d.count maker,
    d.make maker number ≠ d.make maker (d.count maker + 1)
  objects : e.objects = d.objects + 1
  owners : e.owners = d.owners
  owner : e.owner = Function.update d.owner d.objects maker
  name : e.name =
    Function.update d.name d.objects (d.make maker (d.count maker + 1))
  gone : e.gone = Function.update d.gone d.objects false
  make : e.make = d.make
  count : e.count = Function.update d.count maker (d.count maker + 1)
  listed : ∀ owner name, ∀ object ∈ e.listed owner name,
    object ∈ d.listed owner name ∨ object = d.objects ∧ owner = maker
  kept : ∀ owner name, ∀ object ∈ d.listed owner name,
    object ∈ e.listed owner name
  added : d.objects ∈ e.listed maker (d.make maker (d.count maker + 1))

theorem Sound.creates {maker : Nat} (sound : Sound d)
    (creates : Creates d e maker) : Sound e := by
  -- the new object, and what is the same for the others
  have made : e.owner d.objects = maker ∧
      e.name d.objects = d.make maker (d.count maker + 1) := by
    simp [creates.owner, creates.name]
  have old (object : Nat) (used : object < d.objects) :
      e.owner object = d.owner object ∧ e.name object = d.name object ∧
        e.gone object = d.gone object := by
    simp [creates.owner, creates.name, creates.gone, used.ne]
  have cases (object : Nat) (used : object < e.objects) :
      object < d.objects ∨ object = d.objects := by
    rw [creates.objects] at used
    omega
  have counts (owner : Nat) : d.count owner ≤ e.count owner := by
    rw [creates.count, Function.update_apply]
    split
    · subst owner
      exact Nat.le_succ _
    · exact le_rfl
  have differs (object : Nat) (used : object < d.objects)
      (same : d.owner object = maker) :
      d.name object ≠ d.make maker (d.count maker + 1) := by
    obtain ⟨number, below, named⟩ := sound.named object used
    rw [same] at below named
    rw [named]
    exact creates.fresh number below
  refine ⟨?_, ?_, ?_, ?_, ?_⟩
  · intro object used
    rw [creates.owners]
    rcases cases object used with before | rfl
    · rw [(old object before).1]
      exact sound.owner_lt object before
    · rw [made.1]
      exact creates.known
  · intro owner name object member
    rw [creates.objects]
    rcases creates.listed owner name object member with
      before | ⟨rfl, rfl⟩
    · obtain ⟨used, owned⟩ := sound.listed owner name object before
      rw [(old object used).1]
      exact ⟨used.trans (Nat.lt_succ_self _), owned⟩
    · exact ⟨Nat.lt_succ_self _, made.1⟩
  · intro object used here
    rcases cases object used with before | rfl
    · obtain ⟨owner, name, gone⟩ := old object before
      rw [gone] at here
      rw [owner, name]
      exact creates.kept _ _ _ (sound.present object before here)
    · rw [made.1, made.2]
      exact creates.added
  · intro object used
    rcases cases object used with before | rfl
    · obtain ⟨number, below, named⟩ := sound.named object before
      obtain ⟨owner, name, _⟩ := old object before
      rw [owner, name, creates.make]
      exact ⟨number, below.trans (counts _), named⟩
    · rw [made.1, made.2, creates.make]
      refine ⟨d.count maker + 1, ?_, rfl⟩
      rw [creates.count, Function.update_self]
  · intro object used other otherUsed sameOwner sameName
    rcases cases object used with before | rfl <;>
      rcases cases other otherUsed with otherBefore | rfl
    · obtain ⟨owner, name, _⟩ := old object before
      obtain ⟨otherOwner, otherName, _⟩ := old other otherBefore
      rw [owner, otherOwner] at sameOwner
      rw [name, otherName] at sameName
      exact sound.unique object before other otherBefore sameOwner sameName
    · obtain ⟨owner, name, _⟩ := old object before
      rw [owner, made.1] at sameOwner
      rw [name, made.2] at sameName
      exact (differs object before sameOwner sameName).elim
    · obtain ⟨owner, name, _⟩ := old other otherBefore
      rw [owner, made.1] at sameOwner
      rw [name, made.2] at sameName
      exact (differs other otherBefore sameOwner.symm sameName.symm).elim
    · rfl

/-! ## Lookup -/

/-- Whatever is on the object's list under its name is the object. -/
theorem Sound.eq_of_name (sound : Sound d) {object other : Nat}
    (used : object < d.objects)
    (member : other ∈ d.listed (d.owner object) (d.name object))
    (same : d.name other = d.name object) : other = object := by
  obtain ⟨otherUsed, owned⟩ := sound.listed _ _ other member
  exact sound.unique other otherUsed object used owned same

variable [DecidableEq κ]

/-- A lookup that passes over objects given up. -/
theorem Sound.find_eq (sound : Sound d) {object : Nat}
    (used : object < d.objects) :
    ((d.listed (d.owner object) (d.name object)).find? fun other =>
        d.name other = d.name object && !d.gone other) =
      if d.gone object then none else some object := by
  split
  · rename_i gone
    refine List.find?_eq_none.mpr fun other member => ?_
    simp only [Bool.and_eq_true, decide_eq_true_eq, not_and]
    intro same
    rw [sound.eq_of_name used member same, gone]
    simp
  · rename_i here
    have present := sound.present object used (by simpa using here)
    obtain ⟨other, found⟩ : ∃ other,
        ((d.listed (d.owner object) (d.name object)).find? fun other =>
          d.name other = d.name object && !d.gone other) = some other := by
      rw [← Option.isSome_iff_exists, List.find?_isSome]
      exact ⟨object, present, by simpa using here⟩
    have same := List.find?_some found
    simp only [Bool.and_eq_true, decide_eq_true_eq] at same
    rw [found, sound.eq_of_name used (List.mem_of_find?_eq_some found)
      same.1]

/-- A lookup that stops at the first object of the name. -/
theorem Sound.find_filter_eq (sound : Sound d) {object : Nat}
    (used : object < d.objects) :
    (((d.listed (d.owner object) (d.name object)).find? fun other =>
        d.name other = d.name object).filter fun other =>
          !d.gone other) =
      if d.gone object then none else some object := by
  cases found : (d.listed (d.owner object) (d.name object)).find?
      fun other => d.name other = d.name object with
  | none =>
      have absent := List.find?_eq_none.mp found
      split
      · rfl
      · rename_i here
        have present := sound.present object used (by simpa using here)
        simpa using absent object present
  | some other =>
      have same := List.find?_some found
      simp only [decide_eq_true_eq] at same
      rw [sound.eq_of_name used (List.mem_of_find?_eq_some found) same]
      cases gone : d.gone object <;> simp [Option.filter, gone]

end Directory

end Xpmem.Foundation
