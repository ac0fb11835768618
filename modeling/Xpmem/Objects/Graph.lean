import Mathlib.Data.Multiset.Count
import Mathlib.Data.Finset.Card
import Mathlib.Data.Finset.Range
import Xpmem.Driver.State
import Xpmem.Foundation.Registry

/-!
# The graph of driver objects

Groups, segments, permits and attachments as an abstract graph: who is on
which list, who records whom, and the two lifecycle flags.  The operations of
the graph are the eleven ways in which the driver changes it; `Graph.Sound`
is what all of them keep.

While an operation of the driver runs it holds `Token`s: references it has
counted, objects it has begun to destroy, and other debts it still has to
settle.  No operation ends with a token.
-/

namespace Xpmem.Objects

open Xpmem.Foundation Xpmem.Kernel Xpmem.Driver

/-- A pointer to an object of one of the four kinds. -/
inductive Ref where
  | tg (group : TgPtr)
  | seg (seg : SegPtr)
  | ap (permit : ApPtr)
  | att (att : AttPtr)
deriving DecidableEq, Repr

/-- What a running operation still has to settle. -/
inductive Token where
  /-- A reference that was counted. -/
  | ref (object : Ref)
  /-- An object that was flagged as being destroyed, and is still linked. -/
  | closing (object : Ref)
  /-- A linked attachment without an area. -/
  | bare (att : AttPtr)
  /-- A process whose group is destroyed, and which is not exiting yet. -/
  | leaving (tgid : Pid)
  /-- Frames of an address space that were changed without a callback. -/
  | stale (mm : MmPtr) (start stop : Nat)
  /-- A page that was pinned for a pte not yet made. -/
  | pin (group : TgPtr) (frame : Frame)
deriving DecidableEq, Repr

abbrev Held := Multiset Token

/-- The lists, records and flags of all objects. -/
@[ext]
structure Graph where
  bucketOf : TgPtr → Nat
  hash : Nat → List TgPtr
  segTg : SegPtr → TgPtr
  segs : TgPtr → List SegPtr
  apSeg : ApPtr → SegPtr
  permits : SegPtr → List ApPtr
  apSlot : ApPtr → TgPtr × Nat
  slots : TgPtr × Nat → List ApPtr
  attAp : AttPtr → ApPtr
  atts : ApPtr → List AttPtr
  destroying : Ref → Bool
  destroyed : Ref → Bool
  nextTg : TgPtr
  nextSeg : SegPtr
  nextAp : ApPtr
  nextAtt : AttPtr

namespace Graph

/-- The object was created at some time. -/
def Used (graph : Graph) : Ref → Prop
  | .tg group => group < graph.nextTg
  | .seg seg => seg < graph.nextSeg
  | .ap permit => permit < graph.nextAp
  | .att att => att < graph.nextAtt

/-- The object is on the list of its owner. -/
def Linked (graph : Graph) : Ref → Prop
  | .tg group => group ∈ graph.hash (graph.bucketOf group)
  | .seg seg => seg ∈ graph.segs (graph.segTg seg)
  | .ap permit => permit ∈ graph.permits (graph.apSeg permit)
  | .att att => att ∈ graph.atts (graph.attAp att)

instance (graph : Graph) (object : Ref) :
    Decidable (graph.Linked object) :=
  match object with
  | .tg _ => inferInstanceAs (Decidable (_ ∈ _))
  | .seg _ => inferInstanceAs (Decidable (_ ∈ _))
  | .ap _ => inferInstanceAs (Decidable (_ ∈ _))
  | .att _ => inferInstanceAs (Decidable (_ ∈ _))

/-- All lists of the object are empty. -/
def Blank (graph : Graph) : Ref → Prop
  | .tg group =>
      graph.segs group = [] ∧ ∀ index, graph.slots (group, index) = []
  | .seg seg => graph.permits seg = []
  | .ap permit => graph.atts permit = []
  | .att _ => True

/-- Nothing that keeps an object from being destroyed is linked to it. -/
def Childless (graph : Graph) : Ref → Prop
  | .tg group =>
      graph.segs group = [] ∧ ∀ index, graph.slots (group, index) = []
  | .ap permit => graph.atts permit = []
  | _ => True

/-- The destruction of the object is complete, as far as links go. -/
def Gone (graph : Graph) : Ref → Prop
  | .tg group => graph.destroyed (.tg group) = true
  | object => ¬ graph.Linked object

/-- The flag an unlinked object has. -/
def Over (graph : Graph) : Ref → Prop
  | .att att => graph.destroying (.att att) = true
  | object => graph.destroyed object = true

/-- What holds of the graph between any two steps of the driver. -/
structure Sound (graph : Graph) (held : Held) : Prop where
  hash : Registered graph.hash graph.bucketOf
  segs : Registered graph.segs graph.segTg
  permits : Registered graph.permits graph.apSeg
  slots : Registered graph.slots graph.apSlot
  atts : Registered graph.atts graph.attAp
  /-- A permit is on both its lists or on none. -/
  slot_iff : ∀ permit,
    permit ∈ graph.slots (graph.apSlot permit) ↔ graph.Linked (.ap permit)
  used : ∀ object, graph.Linked object → graph.Used object
  /-- Pointers not given out yet have no links and no flags. -/
  fresh : ∀ object, ¬ graph.Used object →
    graph.Blank object ∧ graph.destroying object = false ∧
      graph.destroyed object = false
  closing : ∀ object, graph.destroying object = true →
    graph.Gone object ∨ .closing object ∈ held
  marked : ∀ object, .closing object ∈ held →
    graph.destroying object = true ∧ graph.Linked object
  once : ∀ object, held.count (.closing object) ≤ 1
  ended : ∀ object, graph.Used object → ¬ graph.Linked object →
    graph.Over object
  done : ∀ object, graph.destroyed object = true →
    graph.destroying object = true ∧ graph.Childless object

/-! ## Operations -/

/-- A new group in a bucket of the hash table. -/
def addTg (graph : Graph) (bucket : Nat) : Graph :=
  { graph with
    bucketOf := Function.update graph.bucketOf graph.nextTg bucket
    hash := Function.update graph.hash bucket
      (graph.hash bucket ++ [graph.nextTg])
    nextTg := graph.nextTg + 1 }

/-- A new segment of a group. -/
def addSeg (graph : Graph) (group : TgPtr) : Graph :=
  { graph with
    segTg := Function.update graph.segTg graph.nextSeg group
    segs := Function.update graph.segs group
      (graph.segs group ++ [graph.nextSeg])
    nextSeg := graph.nextSeg + 1 }

/-- A new permit on a segment, in a bucket of a group. -/
def addAp (graph : Graph) (seg : SegPtr) (slot : TgPtr × Nat) : Graph :=
  { graph with
    apSeg := Function.update graph.apSeg graph.nextAp seg
    permits := Function.update graph.permits seg
      (graph.permits seg ++ [graph.nextAp])
    apSlot := Function.update graph.apSlot graph.nextAp slot
    slots := Function.update graph.slots slot
      (graph.slots slot ++ [graph.nextAp])
    nextAp := graph.nextAp + 1 }

/-- A new attachment of a permit. -/
def addAtt (graph : Graph) (permit : ApPtr) : Graph :=
  { graph with
    attAp := Function.update graph.attAp graph.nextAtt permit
    atts := Function.update graph.atts permit
      (graph.atts permit ++ [graph.nextAtt])
    nextAtt := graph.nextAtt + 1 }

/-- Set or clear the flag for the beginning of destruction. -/
def flag (graph : Graph) (object : Ref) (value : Bool) : Graph :=
  { graph with
    destroying := Function.update graph.destroying object value }

/-- Take a group out of the hash table. -/
def dropTg (graph : Graph) (group : TgPtr) : Graph :=
  { graph with
    hash := Function.update graph.hash (graph.bucketOf group)
      ((graph.hash (graph.bucketOf group)).erase group) }

/-- Mark the destruction of an object as complete. -/
def finish (graph : Graph) (object : Ref) : Graph :=
  { graph with
    destroyed := Function.update graph.destroyed object true }

/-- Take a segment off its group's list. -/
def dropSeg (graph : Graph) (seg : SegPtr) : Graph :=
  { graph with
    segs := Function.update graph.segs (graph.segTg seg)
      ((graph.segs (graph.segTg seg)).erase seg) }

/-- Take a permit off both its lists. -/
def dropAp (graph : Graph) (permit : ApPtr) : Graph :=
  { graph with
    permits := Function.update graph.permits (graph.apSeg permit)
      ((graph.permits (graph.apSeg permit)).erase permit)
    slots := Function.update graph.slots (graph.apSlot permit)
      ((graph.slots (graph.apSlot permit)).erase permit) }

/-- Take an attachment off its permit's list. -/
def dropAtt (graph : Graph) (att : AttPtr) : Graph :=
  { graph with
    atts := Function.update graph.atts (graph.attAp att)
      ((graph.atts (graph.attAp att)).erase att) }

variable {graph : Graph} {held : Held}

/-! ## Tokens -/

theorem Sound.mono (sound : graph.Sound held) {more : Held}
    (same : ∀ object,
      more.count (.closing object) = held.count (.closing object)) :
    graph.Sound more := by
  have member (object : Ref) :
      .closing object ∈ more ↔ .closing object ∈ held := by
    rw [← Multiset.count_pos, same, Multiset.count_pos]
  exact
    { sound with
      closing := fun object destroying =>
        (sound.closing object destroying).imp_right (member object).mpr
      marked := fun object token =>
        sound.marked object ((member object).mp token)
      once := fun object => (same object).trans_le (sound.once object) }

/-- A token for an object is the only one. -/
theorem Sound.not_mem_of_cons {object : Ref}
    (sound : graph.Sound (.closing object ::ₘ held)) :
    .closing object ∉ held := by
  intro member
  have count := sound.once object
  have positive := Multiset.count_pos.mpr member
  rw [Multiset.count_cons_self] at count
  omega

/-- The destruction of an object that is gone needs no token. -/
theorem Sound.settle {object : Ref}
    (sound : graph.Sound (.closing object ::ₘ held))
    (gone : graph.Gone object) :
    graph.Sound held :=
  { sound with
    closing := by
      intro other destroying
      rcases sound.closing other destroying with done | token
      · exact Or.inl done
      · rcases Multiset.mem_cons.mp token with equal | member
        · cases equal
          exact Or.inl gone
        · exact Or.inr member
    marked := fun other token =>
      sound.marked other (Multiset.mem_cons_of_mem token)
    once := fun other =>
      (Multiset.count_le_count_cons _ _ _).trans (sound.once other) }

/-! ## Following links -/

theorem Sound.linked_of_live (sound : graph.Sound held) {object : Ref}
    (used : graph.Used object) (live : graph.destroying object = false) :
    graph.Linked object := by
  by_contra unlinked
  have ended := sound.ended object used unlinked
  cases object with
  | tg | seg | ap =>
      have := (sound.done _ ended).1
      simp [live] at this
  | att =>
      rw [Over, live] at ended
      cases ended

/-- An object that something is linked to is linked itself. -/
theorem Sound.linked_of_children (sound : graph.Sound held) {object : Ref}
    (children : ¬ graph.Childless object) :
    graph.Linked object ∧ graph.destroyed object = false := by
  have used : graph.Used object := by
    by_contra unused
    have blank := (sound.fresh object unused).1
    cases object with
    | tg | ap => exact children blank
    | seg | att => exact children trivial
  have live : graph.destroyed object = false := by
    rw [Bool.eq_false_iff]
    intro destroyed
    exact children (sound.done object destroyed).2
  refine ⟨?_, live⟩
  by_contra unlinked
  have ended := sound.ended object used unlinked
  cases object with
  | tg | seg | ap => exact Bool.noConfusion (live.symm.trans ended)
  | att => exact children trivial

theorem Sound.linked_ap (sound : graph.Sound held) {att : AttPtr}
    (linked : graph.Linked (.att att)) :
    graph.Linked (.ap (graph.attAp att)) ∧
      graph.destroyed (.ap (graph.attAp att)) = false :=
  sound.linked_of_children fun empty =>
    List.ne_nil_of_mem linked empty

theorem Sound.linked_tg_of_ap (sound : graph.Sound held) {permit : ApPtr}
    (linked : graph.Linked (.ap permit)) :
    graph.Linked (.tg (graph.apSlot permit).1) ∧
      graph.destroyed (.tg (graph.apSlot permit).1) = false :=
  sound.linked_of_children fun empty =>
    List.ne_nil_of_mem ((sound.slot_iff permit).mpr linked) (empty.2 _)

theorem Sound.linked_tg_of_seg (sound : graph.Sound held) {seg : SegPtr}
    (linked : graph.Linked (.seg seg)) :
    graph.Linked (.tg (graph.segTg seg)) ∧
      graph.destroyed (.tg (graph.segTg seg)) = false :=
  sound.linked_of_children fun empty =>
    List.ne_nil_of_mem linked empty.1

/-- The segment of a linked permit exists. -/
theorem Sound.used_seg (sound : graph.Sound held) {permit : ApPtr}
    (linked : graph.Linked (.ap permit)) :
    graph.Used (.seg (graph.apSeg permit)) := by
  by_contra unused
  exact List.ne_nil_of_mem linked (sound.fresh _ unused).1

/-! ## Adding an object -/

/-- What the four ways to add an object have in common. -/
structure Grows (graph next : Graph) (new : Ref) : Prop where
  unused : ¬ graph.Used new
  linked : ∀ object, next.Linked object ↔ graph.Linked object ∨ object = new
  used : ∀ object, next.Used object ↔ graph.Used object ∨ object = new
  destroying : next.destroying = graph.destroying
  destroyed : next.destroyed = graph.destroyed
  blank : ∀ object, ¬ next.Used object → graph.Blank object →
    next.Blank object
  childless : ∀ object, graph.destroyed object = true →
    graph.Childless object → next.Childless object

theorem Sound.grow (sound : graph.Sound held) {next : Graph} {new : Ref}
    (grows : Grows graph next new)
    (hash : Registered next.hash next.bucketOf)
    (segs : Registered next.segs next.segTg)
    (permits : Registered next.permits next.apSeg)
    (slots : Registered next.slots next.apSlot)
    (atts : Registered next.atts next.attAp)
    (slot_iff : ∀ permit,
      permit ∈ next.slots (next.apSlot permit) ↔ next.Linked (.ap permit)) :
    next.Sound held where
  hash := hash
  segs := segs
  permits := permits
  slots := slots
  atts := atts
  slot_iff := slot_iff
  used object linked := by
    rw [grows.used]
    exact ((grows.linked object).mp linked).imp_left (sound.used object)
  fresh object unused := by
    rw [grows.destroying, grows.destroyed]
    have before : ¬ graph.Used object := fun used =>
      unused ((grows.used object).mpr (Or.inl used))
    obtain ⟨blank, flags⟩ := sound.fresh object before
    exact ⟨grows.blank object unused blank, flags⟩
  closing object destroying := by
    rw [grows.destroying] at destroying
    have old : object ≠ new := by
      intro equal
      have flags := (sound.fresh new grows.unused).2.1
      rw [← equal, destroying] at flags
      cases flags
    refine (sound.closing object destroying).imp_left ?_
    cases object with
    | tg group =>
        intro gone
        rw [Gone, grows.destroyed]
        exact gone
    | seg | ap | att =>
        intro gone linked
        rcases (grows.linked _).mp linked with before | equal
        · exact gone before
        · exact old equal
  marked object token := by
    obtain ⟨destroying, linked⟩ := sound.marked object token
    rw [grows.destroying, grows.linked]
    exact ⟨destroying, Or.inl linked⟩
  once := sound.once
  ended object used unlinked := by
    rw [grows.linked, not_or] at unlinked
    have before := ((grows.used object).mp used).resolve_right unlinked.2
    have ended := sound.ended object before unlinked.1
    cases object <;>
      simpa only [Over, grows.destroying, grows.destroyed] using ended
  done object destroyed := by
    rw [grows.destroyed] at destroyed
    rw [grows.destroying]
    obtain ⟨destroying, childless⟩ := sound.done object destroyed
    exact ⟨destroying, grows.childless object destroyed childless⟩

theorem Sound.next_absent (sound : graph.Sound held) :
    (∀ bucket, graph.nextTg ∉ graph.hash bucket) ∧
      (∀ group, graph.nextSeg ∉ graph.segs group) ∧
      (∀ seg, graph.nextAp ∉ graph.permits seg) ∧
      (∀ slot, graph.nextAp ∉ graph.slots slot) ∧
      ∀ permit, graph.nextAtt ∉ graph.atts permit := by
  refine ⟨fun bucket member => ?_, fun group member => ?_,
    fun seg member => ?_, fun slot member => ?_,
    fun permit member => ?_⟩
  · exact absurd (sound.used (.tg _) (sound.hash.mem_owner member))
      (lt_irrefl _)
  · exact absurd (sound.used (.seg _) (sound.segs.mem_owner member))
      (lt_irrefl _)
  · exact absurd (sound.used (.ap _) (sound.permits.mem_owner member))
      (lt_irrefl _)
  · exact absurd
      (sound.used (.ap _)
        ((sound.slot_iff _).mp (sound.slots.mem_owner member)))
      (lt_irrefl _)
  · exact absurd (sound.used (.att _) (sound.atts.mem_owner member))
      (lt_irrefl _)

theorem grows_addTg (bucket : Nat) :
    Grows graph (graph.addTg bucket) (.tg graph.nextTg) where
  unused := lt_irrefl _
  linked object := by
    cases object with
    | tg group =>
        simp only [Linked, addTg, Registered.mem_append_iff, Ref.tg.injEq]
        by_cases new : group = graph.nextTg
        · simp [new]
        · simp [new]
    | seg | ap | att => simp [Linked, addTg]
  used object := by
    cases object with
    | tg group =>
        simp only [Used, addTg, Ref.tg.injEq]
        exact Nat.lt_succ_iff_lt_or_eq
    | seg | ap | att => simp [Used, addTg]
  destroying := rfl
  destroyed := rfl
  blank object _ blank := by
    cases object <;> exact blank
  childless object _ childless := by
    cases object <;> exact childless

theorem Sound.addTg (sound : graph.Sound held) (bucket : Nat) :
    (graph.addTg bucket).Sound held :=
  sound.grow (grows_addTg bucket)
    (sound.hash.append sound.next_absent.1)
    sound.segs sound.permits sound.slots sound.atts sound.slot_iff

theorem grows_addSeg (group : TgPtr)
    (used : graph.Used (.tg group))
    (live : graph.destroyed (.tg group) = false) :
    Grows graph (graph.addSeg group) (.seg graph.nextSeg) where
  unused := lt_irrefl _
  linked object := by
    cases object with
    | seg seg =>
        simp only [Linked, addSeg, Registered.mem_append_iff,
          Ref.seg.injEq]
        by_cases new : seg = graph.nextSeg
        · simp [new]
        · simp [new]
    | tg | ap | att => simp [Linked, addSeg]
  used object := by
    cases object with
    | seg seg =>
        simp only [Used, addSeg, Ref.seg.injEq]
        exact Nat.lt_succ_iff_lt_or_eq
    | tg | ap | att => simp [Used, addSeg]
  destroying := rfl
  destroyed := rfl
  blank object unused blank := by
    cases object with
    | tg other =>
        have distinct : other ≠ group := by
          intro equal
          exact unused (equal ▸ used)
        simpa [Blank, addSeg, Function.update_of_ne distinct] using blank
    | seg | ap | att => exact blank
  childless object destroyed childless := by
    cases object with
    | tg other =>
        have distinct : other ≠ group := by
          intro equal
          rw [equal, live] at destroyed
          cases destroyed
        simpa [Childless, addSeg, Function.update_of_ne distinct]
          using childless
    | seg | ap | att => exact childless

theorem Sound.addSeg (sound : graph.Sound held) {group : TgPtr}
    (used : graph.Used (.tg group))
    (live : graph.destroyed (.tg group) = false) :
    (graph.addSeg group).Sound held :=
  sound.grow (grows_addSeg group used live)
    sound.hash
    (sound.segs.append sound.next_absent.2.1)
    sound.permits sound.slots sound.atts sound.slot_iff

theorem grows_addAp (seg : SegPtr) (slot : TgPtr × Nat)
    (segUsed : graph.Used (.seg seg))
    (used : graph.Used (.tg slot.1))
    (live : graph.destroyed (.tg slot.1) = false) :
    Grows graph (graph.addAp seg slot) (.ap graph.nextAp) where
  unused := lt_irrefl _
  linked object := by
    cases object with
    | ap permit =>
        simp only [Linked, addAp, Registered.mem_append_iff, Ref.ap.injEq]
        by_cases new : permit = graph.nextAp
        · simp [new]
        · simp [new]
    | tg | seg | att => simp [Linked, addAp]
  used object := by
    cases object with
    | ap permit =>
        simp only [Used, addAp, Ref.ap.injEq]
        exact Nat.lt_succ_iff_lt_or_eq
    | tg | seg | att => simp [Used, addAp]
  destroying := rfl
  destroyed := rfl
  blank object unused blank := by
    cases object with
    | tg other =>
        have distinct (index : Nat) : (other, index) ≠ slot := by
          intro equal
          exact unused (show other < graph.nextTg by
            rw [← equal] at used
            exact used)
        simpa [Blank, addAp, Function.update_of_ne (distinct _)]
          using blank
    | seg other =>
        have distinct : other ≠ seg := by
          intro equal
          exact unused (equal ▸ segUsed)
        simpa [Blank, addAp, Function.update_of_ne distinct] using blank
    | ap | att => exact blank
  childless object destroyed childless := by
    cases object with
    | tg other =>
        have distinct (index : Nat) : (other, index) ≠ slot := by
          intro equal
          rw [← equal, destroyed] at live
          cases live
        simpa [Childless, addAp, Function.update_of_ne (distinct _)]
          using childless
    | seg | ap | att => exact childless

theorem Sound.addAp (sound : graph.Sound held) {seg : SegPtr}
    {slot : TgPtr × Nat}
    (segUsed : graph.Used (.seg seg))
    (used : graph.Used (.tg slot.1))
    (live : graph.destroyed (.tg slot.1) = false) :
    (graph.addAp seg slot).Sound held := by
  obtain ⟨_, _, noPermit, noSlot, _⟩ := sound.next_absent
  refine sound.grow (grows_addAp seg slot segUsed used live)
    sound.hash sound.segs (sound.permits.append noPermit)
    (sound.slots.append noSlot) sound.atts ?_
  intro permit
  by_cases new : permit = graph.nextAp
  · simp [Linked, Graph.addAp, new]
  · have old := sound.slot_iff permit
    simp only [Linked] at old
    simp only [Linked, Graph.addAp, Registered.mem_append_iff,
      Function.update_of_ne new, old, new, and_false, or_false]

theorem grows_addAtt (permit : ApPtr)
    (used : graph.Used (.ap permit))
    (live : graph.destroyed (.ap permit) = false) :
    Grows graph (graph.addAtt permit) (.att graph.nextAtt) where
  unused := lt_irrefl _
  linked object := by
    cases object with
    | att att =>
        simp only [Linked, addAtt, Registered.mem_append_iff,
          Ref.att.injEq]
        by_cases new : att = graph.nextAtt
        · simp [new]
        · simp [new]
    | tg | seg | ap => simp [Linked, addAtt]
  used object := by
    cases object with
    | att att =>
        simp only [Used, addAtt, Ref.att.injEq]
        exact Nat.lt_succ_iff_lt_or_eq
    | tg | seg | ap => simp [Used, addAtt]
  destroying := rfl
  destroyed := rfl
  blank object unused blank := by
    cases object with
    | ap other =>
        have distinct : other ≠ permit := by
          intro equal
          exact unused (equal ▸ used)
        simpa [Blank, addAtt, Function.update_of_ne distinct] using blank
    | tg | seg | att => exact blank
  childless object destroyed childless := by
    cases object with
    | ap other =>
        have distinct : other ≠ permit := by
          intro equal
          rw [equal, live] at destroyed
          cases destroyed
        simpa [Childless, addAtt, Function.update_of_ne distinct]
          using childless
    | tg | seg | att => exact childless

theorem Sound.addAtt (sound : graph.Sound held) {permit : ApPtr}
    (used : graph.Used (.ap permit))
    (live : graph.destroyed (.ap permit) = false) :
    (graph.addAtt permit).Sound held :=
  sound.grow (grows_addAtt permit used live)
    sound.hash sound.segs sound.permits sound.slots
    (sound.atts.append sound.next_absent.2.2.2.2) sound.slot_iff

/-! ## Flags -/

theorem flag_destroying (graph : Graph) (object other : Ref)
    (value : Bool) :
    (graph.flag object value).destroying other =
      if other = object then value else graph.destroying other := by
  simp [flag, Function.update_apply]

theorem flag_blank_iff (graph : Graph) (object other : Ref)
    (value : Bool) :
    (graph.flag object value).Blank other ↔ graph.Blank other := by
  cases other <;> exact Iff.rfl

theorem flag_used_iff (graph : Graph) (object other : Ref)
    (value : Bool) :
    (graph.flag object value).Used other ↔ graph.Used other := by
  cases other <;> exact Iff.rfl

theorem finish_used_iff (graph : Graph) (object other : Ref) :
    (graph.finish object).Used other ↔ graph.Used other := by
  cases other <;> exact Iff.rfl

theorem finish_linked_iff (graph : Graph) (object other : Ref) :
    (graph.finish object).Linked other ↔ graph.Linked other := by
  cases other <;> exact Iff.rfl

theorem finish_destroyed (graph : Graph) (object other : Ref) :
    (graph.finish object).destroyed other =
      if other = object then true else graph.destroyed other := by
  simp [finish, Function.update_apply]

theorem finish_blank_iff (graph : Graph) (object other : Ref) :
    (graph.finish object).Blank other ↔ graph.Blank other := by
  cases other <;> exact Iff.rfl

theorem Sound.flag_true (sound : graph.Sound held) {object : Ref}
    (linked : graph.Linked object)
    (live : graph.destroying object = false) :
    (graph.flag object true).Sound (.closing object ::ₘ held) where
  hash := sound.hash
  segs := sound.segs
  permits := sound.permits
  slots := sound.slots
  atts := sound.atts
  slot_iff := sound.slot_iff
  used := sound.used
  fresh other unused := by
    have distinct : other ≠ object := by
      intro equal
      exact unused (equal ▸ sound.used object linked)
    rw [flag_blank_iff, flag_destroying, if_neg distinct]
    exact sound.fresh other unused
  closing other destroying := by
    by_cases equal : other = object
    · exact Or.inr (by simp [equal])
    · rw [flag_destroying, if_neg equal] at destroying
      rcases sound.closing other destroying with gone | token
      · exact Or.inl gone
      · exact Or.inr (Multiset.mem_cons_of_mem token)
  marked other token := by
    rw [flag_destroying]
    by_cases equal : other = object
    · rw [if_pos equal, equal]
      exact ⟨rfl, linked⟩
    · have before : .closing other ∈ held := by simpa [equal] using token
      rw [if_neg equal]
      exact sound.marked other before
  once other := by
    rw [Multiset.count_cons]
    by_cases equal : other = object
    · have absent : .closing object ∉ held := by
        intro member
        have marked := (sound.marked object member).1
        rw [live] at marked
        cases marked
      simp [equal, Multiset.count_eq_zero_of_notMem absent]
    · simpa [equal] using sound.once other
  ended other otherUsed unlinked := by
    have ended := sound.ended other otherUsed unlinked
    cases other with
    | att att =>
        by_cases equal : Ref.att att = object
        · simp [Over, flag, equal]
        · simpa [Over, flag, Function.update_of_ne equal] using ended
    | tg | seg | ap => exact ended
  done other destroyed := by
    obtain ⟨destroying, childless⟩ := sound.done other destroyed
    refine ⟨?_, childless⟩
    by_cases equal : other = object
    · simp [flag, equal]
    · simpa [flag, Function.update_of_ne equal] using destroying

/-- Take back the flag of a linked attachment. -/
theorem Sound.flag_false {att : AttPtr}
    (sound : graph.Sound (.closing (.att att) ::ₘ held))
    (live : graph.destroyed (.att att) = false) :
    (graph.flag (.att att) false).Sound held where
  hash := sound.hash
  segs := sound.segs
  permits := sound.permits
  slots := sound.slots
  atts := sound.atts
  slot_iff := sound.slot_iff
  used := sound.used
  fresh other unused := by
    have linked := (sound.marked (.att att) (by simp)).2
    have distinct : other ≠ .att att := by
      intro equal
      rw [equal] at unused
      exact unused (sound.used _ linked)
    rw [flag_blank_iff, flag_destroying, if_neg distinct]
    exact sound.fresh other unused
  closing other destroying := by
    by_cases equal : other = .att att
    · simp [flag, equal] at destroying
    · rw [flag_destroying, if_neg equal] at destroying
      rcases sound.closing other destroying with gone | token
      · exact Or.inl gone
      · rcases Multiset.mem_cons.mp token with same | member
        · cases same
          exact (equal rfl).elim
        · exact Or.inr member
  marked other token := by
    have distinct : other ≠ .att att := by
      intro equal
      exact sound.not_mem_of_cons (equal ▸ token)
    rw [flag_destroying, if_neg distinct]
    exact sound.marked other (Multiset.mem_cons_of_mem token)
  once other :=
    (Multiset.count_le_count_cons _ _ _).trans (sound.once other)
  ended other used unlinked := by
    have ended := sound.ended other used unlinked
    cases other with
    | att other =>
        have linked := (sound.marked (.att att) (by simp)).2
        have distinct : Ref.att other ≠ .att att := by
          intro equal
          exact unlinked (equal ▸ linked)
        simpa [Over, flag, Function.update_of_ne distinct] using ended
    | tg | seg | ap => exact ended
  done other destroyed := by
    obtain ⟨destroying, childless⟩ := sound.done other destroyed
    refine ⟨?_, childless⟩
    have distinct : other ≠ .att att := by
      intro equal
      rw [equal] at destroyed
      exact absurd (live.symm.trans destroyed) (by decide)
    simpa [flag, Function.update_of_ne distinct] using destroying

theorem Sound.finish (sound : graph.Sound held) {object : Ref}
    (token : .closing object ∈ held)
    (childless : graph.Childless object) :
    (graph.finish object).Sound held where
  hash := sound.hash
  segs := sound.segs
  permits := sound.permits
  slots := sound.slots
  atts := sound.atts
  slot_iff := sound.slot_iff
  used := sound.used
  fresh other unused := by
    have used := sound.used object (sound.marked object token).2
    have distinct : other ≠ object := by
      intro equal
      exact unused (equal ▸ used)
    rw [finish_blank_iff, finish_destroyed, if_neg distinct]
    exact sound.fresh other unused
  closing other closing := by
    refine (sound.closing other closing).imp_left ?_
    cases other with
    | tg group =>
        intro gone
        by_cases equal : Ref.tg group = object
        · simp [Gone, Graph.finish, equal]
        · simpa [Gone, Graph.finish, Function.update_of_ne equal]
            using gone
    | seg | ap | att => exact id
  marked := sound.marked
  once := sound.once
  ended other otherUsed unlinked := by
    have ended := sound.ended other otherUsed unlinked
    cases other with
    | att => exact ended
    | tg | seg | ap =>
        simp only [Over, Graph.finish, Function.update_apply]
        split
        · rfl
        · exact ended
  done other destroyed := by
    by_cases equal : other = object
    · subst equal
      exact ⟨(sound.marked other token).1, childless⟩
    · rw [finish_destroyed, if_neg equal] at destroyed
      exact sound.done other destroyed

/-! ## Taking an object off its list -/

/-- What the four ways to unlink an object have in common. -/
structure Shrinks (graph next : Graph) (old : Ref) : Prop where
  linked : ∀ object,
    next.Linked object ↔ graph.Linked object ∧ object ≠ old
  used : ∀ object, next.Used object ↔ graph.Used object
  destroying : next.destroying = graph.destroying
  destroyed : next.destroyed = graph.destroyed
  blank : ∀ object, graph.Blank object → next.Blank object
  childless : ∀ object, graph.Childless object → next.Childless object

/-- No token is left for an object that was taken off its list. -/
def Settles (before held : Held) (old : Ref) : Prop :=
  ∀ object, held.count (.closing object) =
    if object = old then 0 else before.count (.closing object)

theorem Sound.settles {object : Ref}
    (sound : graph.Sound (.closing object ::ₘ held)) :
    Settles (.closing object ::ₘ held) held object := by
  intro other
  by_cases equal : other = object
  · rw [if_pos equal, equal]
    exact Multiset.count_eq_zero_of_notMem sound.not_mem_of_cons
  · simp [equal]

theorem Sound.shrink {before : Held} (sound : graph.Sound before)
    {next : Graph} {old : Ref}
    (shrinks : Shrinks graph next old)
    (ended : graph.Over old)
    (settles : Settles before held old)
    (hash : Registered next.hash next.bucketOf)
    (segs : Registered next.segs next.segTg)
    (permits : Registered next.permits next.apSeg)
    (slots : Registered next.slots next.apSlot)
    (atts : Registered next.atts next.attAp)
    (slot_iff : ∀ permit,
      permit ∈ next.slots (next.apSlot permit) ↔ next.Linked (.ap permit)) :
    next.Sound held where
  hash := hash
  segs := segs
  permits := permits
  slots := slots
  atts := atts
  slot_iff := slot_iff
  used object linked :=
    (shrinks.used object).mpr
      (sound.used object ((shrinks.linked object).mp linked).1)
  fresh object unused := by
    rw [shrinks.destroying, shrinks.destroyed]
    rw [shrinks.used] at unused
    obtain ⟨blank, flags⟩ := sound.fresh object unused
    exact ⟨shrinks.blank object blank, flags⟩
  closing object destroying := by
    rw [shrinks.destroying] at destroying
    by_cases equal : object = old
    · subst equal
      left
      cases object with
      | tg group =>
          rw [Gone, shrinks.destroyed]
          exact ended
      | seg | ap | att =>
          exact fun linked => ((shrinks.linked _).mp linked).2 rfl
    · rcases sound.closing object destroying with gone | token
      · left
        cases object with
        | tg group =>
            rw [Gone, shrinks.destroyed]
            exact gone
        | seg | ap | att =>
            exact fun linked => gone ((shrinks.linked _).mp linked).1
      · right
        rw [← Multiset.count_pos, settles, if_neg equal,
          Multiset.count_pos]
        exact token
  marked object token := by
    rw [← Multiset.count_pos, settles] at token
    split at token
    · cases token
    · rename_i distinct
      obtain ⟨destroying, linked⟩ :=
        sound.marked object (Multiset.count_pos.mp token)
      rw [shrinks.destroying, shrinks.linked]
      exact ⟨destroying, linked, distinct⟩
  once object := by
    rw [settles]
    split
    · exact Nat.zero_le 1
    · exact sound.once object
  ended object used unlinked := by
    rw [shrinks.used] at used
    have before : graph.Over object := by
      by_cases equal : object = old
      · exact equal ▸ ended
      · exact sound.ended object used fun linked =>
          unlinked ((shrinks.linked object).mpr ⟨linked, equal⟩)
    cases object <;>
      simpa only [Over, shrinks.destroying, shrinks.destroyed] using before
  done object destroyed := by
    rw [shrinks.destroyed] at destroyed
    rw [shrinks.destroying]
    exact (sound.done object destroyed).imp_right
      (shrinks.childless object)

theorem shrinks_dropTg (sound : graph.Sound held) (group : TgPtr) :
    Shrinks graph (graph.dropTg group) (.tg group) where
  linked object := by
    cases object with
    | tg other =>
        simp only [Linked, dropTg, sound.hash.mem_erase_iff, ne_eq,
          Ref.tg.injEq]
        by_cases equal : other = group
        · simp [equal]
        · simp [equal]
    | seg | ap | att => simp [Linked, dropTg]
  used object := by cases object <;> exact Iff.rfl
  destroying := rfl
  destroyed := rfl
  blank object blank := by cases object <;> exact blank
  childless object childless := by cases object <;> exact childless

theorem Sound.dropTg (sound : graph.Sound held) {group : TgPtr}
    (ended : graph.destroyed (.tg group) = true)
    (absent : .closing (.tg group) ∉ held) :
    (graph.dropTg group).Sound held := by
  refine sound.shrink (shrinks_dropTg sound group) ended ?_
    (sound.hash.erase _ group)
    sound.segs sound.permits sound.slots sound.atts sound.slot_iff
  intro object
  split
  · rename_i equal
    rw [equal]
    exact Multiset.count_eq_zero_of_notMem absent
  · rfl

/-- An empty list stays empty when an element is taken off. -/
theorem update_erase_eq_nil {ι α : Type} [DecidableEq ι] [DecidableEq α]
    {list : ι → List α} {index other : ι} (element : α)
    (empty : list other = []) :
    Function.update list index ((list index).erase element) other = [] := by
  by_cases same : other = index
  · subst same
    simp [empty]
  · simp [same, empty]

theorem shrinks_dropSeg (sound : graph.Sound held) (seg : SegPtr) :
    Shrinks graph (graph.dropSeg seg) (.seg seg) where
  linked object := by
    cases object with
    | seg other =>
        simp only [Linked, dropSeg, sound.segs.mem_erase_iff, ne_eq,
          Ref.seg.injEq]
        by_cases equal : other = seg
        · simp [equal]
        · simp [equal]
    | tg | ap | att => simp [Linked, dropSeg]
  used object := by cases object <;> exact Iff.rfl
  destroying := rfl
  destroyed := rfl
  blank object blank := by
    cases object with
    | tg => exact ⟨update_erase_eq_nil seg blank.1, blank.2⟩
    | seg | ap | att => exact blank
  childless object childless := by
    cases object with
    | tg => exact ⟨update_erase_eq_nil seg childless.1, childless.2⟩
    | seg | ap | att => exact childless

theorem Sound.dropSeg {seg : SegPtr}
    (sound : graph.Sound (.closing (.seg seg) ::ₘ held))
    (ended : graph.destroyed (.seg seg) = true) :
    (graph.dropSeg seg).Sound held :=
  sound.shrink (shrinks_dropSeg sound seg) ended sound.settles
    sound.hash (sound.segs.erase _ seg)
    sound.permits sound.slots sound.atts sound.slot_iff

theorem shrinks_dropAp (sound : graph.Sound held) (permit : ApPtr) :
    Shrinks graph (graph.dropAp permit) (.ap permit) where
  linked object := by
    cases object with
    | ap other =>
        simp only [Linked, dropAp, sound.permits.mem_erase_iff, ne_eq,
          Ref.ap.injEq]
        by_cases equal : other = permit
        · simp [equal]
        · simp [equal]
    | tg | seg | att => simp [Linked, dropAp]
  used object := by cases object <;> exact Iff.rfl
  destroying := rfl
  destroyed := rfl
  blank object blank := by
    cases object with
    | tg =>
        exact ⟨blank.1, fun index =>
          update_erase_eq_nil permit (blank.2 index)⟩
    | seg => exact update_erase_eq_nil permit blank
    | ap | att => exact blank
  childless object childless := by
    cases object with
    | tg =>
        exact ⟨childless.1, fun index =>
          update_erase_eq_nil permit (childless.2 index)⟩
    | seg | ap | att => exact childless

theorem Sound.dropAp {permit : ApPtr}
    (sound : graph.Sound (.closing (.ap permit) ::ₘ held))
    (ended : graph.destroyed (.ap permit) = true) :
    (graph.dropAp permit).Sound held := by
  have shrinks := shrinks_dropAp sound permit
  refine sound.shrink shrinks ended sound.settles sound.hash sound.segs
    (sound.permits.erase _ permit) (sound.slots.erase _ permit)
    sound.atts ?_
  intro other
  rw [shrinks.linked, ← sound.slot_iff]
  simp only [Graph.dropAp, sound.slots.mem_erase_iff, ne_eq, Ref.ap.injEq]
  by_cases equal : other = permit
  · simp [equal]
  · simp [equal]

theorem shrinks_dropAtt (sound : graph.Sound held) (att : AttPtr) :
    Shrinks graph (graph.dropAtt att) (.att att) where
  linked object := by
    cases object with
    | att other =>
        simp only [Linked, dropAtt, sound.atts.mem_erase_iff, ne_eq,
          Ref.att.injEq]
        by_cases equal : other = att
        · simp [equal]
        · simp [equal]
    | tg | seg | ap => simp [Linked, dropAtt]
  used object := by cases object <;> exact Iff.rfl
  destroying := rfl
  destroyed := rfl
  blank object blank := by
    cases object with
    | ap => exact update_erase_eq_nil att blank
    | tg | seg | att => exact blank
  childless object childless := by
    cases object with
    | ap => exact update_erase_eq_nil att childless
    | tg | seg | att => exact childless

theorem Sound.dropAtt {att : AttPtr}
    (sound : graph.Sound (.closing (.att att) ::ₘ held)) :
    (graph.dropAtt att).Sound held :=
  sound.shrink (shrinks_dropAtt sound att)
    (sound.marked (.att att) (by simp)).1 sound.settles
    sound.hash sound.segs sound.permits sound.slots
    (sound.atts.erase _ att) sound.slot_iff

end Graph

end Xpmem.Objects
