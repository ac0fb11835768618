import Mathlib.Tactic.Ring
import Xpmem.Objects.Graph

/-!
# Reference counts

The graph owes every object a number of references: one for being linked,
and for segments and their groups one for each permit on them.  The count of
an object is what the graph owes it and what the running operation holds on
it; `Counted` says so for all objects at once.
-/

namespace Xpmem.Objects

open Xpmem.Foundation Xpmem.Kernel Xpmem.Driver

namespace Graph

variable {graph : Graph} {held : Held}

/-- The permits on segments of a group. -/
def permitsOn (graph : Graph) (group : TgPtr) : Finset ApPtr :=
  (Finset.range graph.nextAp).filter fun permit =>
    graph.Linked (.ap permit) ∧
      graph.segTg (graph.apSeg permit) = group

/-- One for a linked object. -/
def linkCount (graph : Graph) (object : Ref) : Nat :=
  if graph.Linked object then 1 else 0

/-- The references the links of the graph stand for. -/
def owed (graph : Graph) : Ref → Nat
  | .tg group =>
      graph.linkCount (.tg group) + (graph.permitsOn group).card
  | .seg seg =>
      graph.linkCount (.seg seg) + (graph.permits seg).length
  | .ap permit => graph.linkCount (.ap permit)
  | .att att => graph.linkCount (.att att)

theorem linkCount_le_owed (graph : Graph) (object : Ref) :
    graph.linkCount object ≤ graph.owed object := by
  cases object with
  | tg | seg => exact Nat.le_add_right _ _
  | ap | att => exact le_refl _

theorem owed_pos (graph : Graph) {object : Ref}
    (linked : graph.Linked object) :
    0 < graph.owed object := by
  have count : graph.linkCount object = 1 := if_pos linked
  have := graph.linkCount_le_owed object
  omega

theorem owed_flag (graph : Graph) (object : Ref) (value : Bool) :
    (graph.flag object value).owed = graph.owed := by
  funext other
  cases other <;> rfl

theorem owed_finish (graph : Graph) (object : Ref) :
    (graph.finish object).owed = graph.owed := by
  funext other
  cases other <;> rfl

theorem mem_permitsOn_iff (sound : graph.Sound held) {group : TgPtr}
    {permit : ApPtr} :
    permit ∈ graph.permitsOn group ↔
      graph.Linked (.ap permit) ∧
        graph.segTg (graph.apSeg permit) = group := by
  simp only [permitsOn, Finset.mem_filter, Finset.mem_range]
  exact ⟨And.right, fun both => ⟨sound.used _ both.1, both⟩⟩

/-- A linked permit is counted on its segment and on the segment's group. -/
theorem owed_pos_of_permit (sound : graph.Sound held) {permit : ApPtr}
    (linked : graph.Linked (.ap permit)) :
    0 < graph.owed (.seg (graph.apSeg permit)) ∧
      0 < graph.owed (.tg (graph.segTg (graph.apSeg permit))) := by
  constructor
  · have length := List.length_pos_of_mem linked
    simp only [owed]
    omega
  · have member :
        permit ∈ graph.permitsOn (graph.segTg (graph.apSeg permit)) :=
      (mem_permitsOn_iff sound).mpr ⟨linked, rfl⟩
    have card := Finset.card_pos.mpr ⟨permit, member⟩
    simp only [owed]
    omega

/-! ## What adding an object owes -/

theorem Grows.linkCount {next : Graph} {new : Ref}
    (sound : graph.Sound held) (grows : Grows graph next new)
    (object : Ref) :
    next.linkCount object =
      graph.linkCount object + if object = new then 1 else 0 := by
  have unlinked : ¬ graph.Linked new := fun linked =>
    grows.unused (sound.used new linked)
  by_cases equal : object = new
  · subst equal
    simp [Graph.linkCount, grows.linked, unlinked]
  · simp [Graph.linkCount, grows.linked, equal]

/-- The permits on a group stay when no permit and no used owner changes. -/
theorem permitsOn_congr {next : Graph} {group : TgPtr}
    (sound : graph.Sound held) (nextSound : next.Sound held)
    (linked : ∀ permit,
      next.Linked (.ap permit) ↔ graph.Linked (.ap permit))
    (owner : ∀ permit, graph.Linked (.ap permit) →
      next.segTg (next.apSeg permit) =
        graph.segTg (graph.apSeg permit)) :
    next.permitsOn group = graph.permitsOn group := by
  ext permit
  rw [mem_permitsOn_iff sound, mem_permitsOn_iff nextSound, linked]
  constructor
  · rintro ⟨present, equal⟩
    exact ⟨present, owner permit present ▸ equal⟩
  · rintro ⟨present, equal⟩
    exact ⟨present, (owner permit present).trans equal⟩

/-- A new object that is no permit owes one reference, to itself. -/
theorem Grows.owed {next : Graph} {new : Ref}
    (sound : graph.Sound held) (grows : Grows graph next new)
    (permits : next.permits = graph.permits)
    (on : ∀ group, next.permitsOn group = graph.permitsOn group)
    (object : Ref) :
    next.owed object =
      graph.owed object + if object = new then 1 else 0 := by
  have count := grows.linkCount sound object
  cases object with
  | tg group =>
      simp only [Graph.owed, count, on]
      omega
  | seg seg =>
      simp only [Graph.owed, count, permits]
      omega
  | ap | att => simp only [Graph.owed, count]

theorem owed_addTg (sound : graph.Sound held) (bucket : Nat)
    (object : Ref) :
    (graph.addTg bucket).owed object =
      graph.owed object + if object = .tg graph.nextTg then 1 else 0 :=
  (grows_addTg bucket).owed sound rfl
    (fun _ =>
      permitsOn_congr sound (sound.addTg bucket)
        (fun _ => Iff.rfl) (fun _ _ => rfl))
    object

theorem owed_addSeg (sound : graph.Sound held) {group : TgPtr}
    (used : graph.Used (.tg group))
    (live : graph.destroyed (.tg group) = false)
    (object : Ref) :
    (graph.addSeg group).owed object =
      graph.owed object +
        if object = .seg graph.nextSeg then 1 else 0 := by
  refine (grows_addSeg group used live).owed sound rfl ?_ object
  intro other
  refine permitsOn_congr sound (sound.addSeg used live)
    (fun _ => Iff.rfl) ?_
  intro permit linked
  have old : graph.apSeg permit ≠ graph.nextSeg := by
    intro equal
    have blank : graph.permits graph.nextSeg = [] :=
      (sound.fresh (.seg graph.nextSeg) (lt_irrefl _)).1
    rw [Linked, equal, blank] at linked
    cases linked
  simp [Graph.addSeg, Function.update_of_ne old]

theorem owed_addAtt (sound : graph.Sound held) {permit : ApPtr}
    (used : graph.Used (.ap permit))
    (live : graph.destroyed (.ap permit) = false)
    (object : Ref) :
    (graph.addAtt permit).owed object =
      graph.owed object +
        if object = .att graph.nextAtt then 1 else 0 :=
  (grows_addAtt permit used live).owed sound rfl
    (fun _ =>
      permitsOn_congr sound (sound.addAtt used live)
        (fun _ => Iff.rfl) (fun _ _ => rfl))
    object

/-- A permit owes itself, its segment and the segment's group one each. -/
def permitShare (graph : Graph) (permit : ApPtr) (object : Ref) : Nat :=
  (if object = .ap permit then 1 else 0) +
    (if object = .seg (graph.apSeg permit) then 1 else 0) +
    if object = .tg (graph.segTg (graph.apSeg permit)) then 1 else 0

theorem owed_addAp (sound : graph.Sound held) {seg : SegPtr}
    {slot : TgPtr × Nat}
    (segUsed : graph.Used (.seg seg))
    (used : graph.Used (.tg slot.1))
    (live : graph.destroyed (.tg slot.1) = false)
    (object : Ref) :
    (graph.addAp seg slot).owed object =
      graph.owed object +
        (graph.addAp seg slot).permitShare graph.nextAp object := by
  have grows := grows_addAp seg slot segUsed used live
  have count := grows.linkCount sound object
  have nextSound := sound.addAp segUsed used live
  have newSeg : (graph.addAp seg slot).apSeg graph.nextAp = seg := by
    simp [addAp]
  have sameTg : (graph.addAp seg slot).segTg = graph.segTg := rfl
  simp only [permitShare, newSeg, sameTg]
  cases object with
  | tg group =>
      have absent : graph.nextAp ∉ graph.permitsOn group := by
        simp [permitsOn]
      have old (permit : ApPtr) (distinct : permit ≠ graph.nextAp) :
          (graph.addAp seg slot).apSeg permit = graph.apSeg permit := by
        simp [addAp, Function.update_of_ne distinct]
      have permits :
          (graph.addAp seg slot).permitsOn group =
            if graph.segTg seg = group then
              insert graph.nextAp (graph.permitsOn group)
            else graph.permitsOn group := by
        ext permit
        rw [mem_permitsOn_iff nextSound, grows.linked, sameTg]
        by_cases new : permit = graph.nextAp
        · subst new
          rw [newSeg]
          split
          · simp_all
          · simp_all
        · rw [old permit new]
          split
          · simp [mem_permitsOn_iff sound, new]
          · simp [mem_permitsOn_iff sound, new]
      simp only [owed, count, permits]
      by_cases own : graph.segTg seg = group
      · rw [if_pos own, Finset.card_insert_of_notMem absent]
        simp [own]
        omega
      · rw [if_neg own]
        simp [Ne.symm own]
  | seg other =>
      simp only [owed, count]
      by_cases own : other = seg
      · subst own
        simp [addAp]
        omega
      · simp [addAp, own]
  | ap | att => simp [owed, count]

/-! ## What taking an object off its list gives back -/

theorem Shrinks.linkCount {next : Graph} {old : Ref}
    (shrinks : Shrinks graph next old) (linked : graph.Linked old)
    (object : Ref) :
    graph.linkCount object =
      next.linkCount object + if object = old then 1 else 0 := by
  by_cases equal : object = old
  · subst equal
    simp [Graph.linkCount, shrinks.linked, linked]
  · simp [Graph.linkCount, shrinks.linked, equal]

theorem Shrinks.owed {next : Graph} {old : Ref}
    (shrinks : Shrinks graph next old) (linked : graph.Linked old)
    (permits : next.permits = graph.permits)
    (on : ∀ group, next.permitsOn group = graph.permitsOn group)
    (object : Ref) :
    graph.owed object =
      next.owed object + if object = old then 1 else 0 := by
  have count := shrinks.linkCount linked object
  cases object with
  | tg group =>
      simp only [Graph.owed, count, on]
      omega
  | seg seg =>
      simp only [Graph.owed, count, permits]
      omega
  | ap | att => simp only [Graph.owed, count]

theorem owed_dropTg (sound : graph.Sound held) {group : TgPtr}
    (linked : graph.Linked (.tg group)) (object : Ref) :
    graph.owed object =
      (graph.dropTg group).owed object +
        if object = .tg group then 1 else 0 :=
  (shrinks_dropTg sound group).owed linked rfl (fun _ => rfl) object

theorem owed_dropSeg (sound : graph.Sound held) {seg : SegPtr}
    (linked : graph.Linked (.seg seg)) (object : Ref) :
    graph.owed object =
      (graph.dropSeg seg).owed object +
        if object = .seg seg then 1 else 0 :=
  (shrinks_dropSeg sound seg).owed linked rfl (fun _ => rfl) object

theorem owed_dropAtt (sound : graph.Sound held) {att : AttPtr}
    (linked : graph.Linked (.att att)) (object : Ref) :
    graph.owed object =
      (graph.dropAtt att).owed object +
        if object = .att att then 1 else 0 :=
  (shrinks_dropAtt sound att).owed linked rfl (fun _ => rfl) object

theorem owed_dropAp {permit : ApPtr}
    (sound : graph.Sound (.closing (.ap permit) ::ₘ held))
    (ended : graph.destroyed (.ap permit) = true)
    (linked : graph.Linked (.ap permit)) (object : Ref) :
    graph.owed object =
      (graph.dropAp permit).owed object +
        graph.permitShare permit object := by
  have shrinks := shrinks_dropAp sound permit
  have count := shrinks.linkCount linked object
  have nextSound := sound.dropAp ended
  simp only [permitShare]
  cases object with
  | tg group =>
      have permits :
          (graph.dropAp permit).permitsOn group =
            (graph.permitsOn group).erase permit := by
        ext other
        rw [mem_permitsOn_iff nextSound, shrinks.linked,
          Finset.mem_erase, mem_permitsOn_iff sound]
        simp only [ne_eq, Ref.ap.injEq]
        exact ⟨fun both => ⟨both.1.2, both.1.1, both.2⟩,
          fun both => ⟨⟨both.2.1, both.1⟩, both.2.2⟩⟩
      simp only [owed, count, permits]
      by_cases own : graph.segTg (graph.apSeg permit) = group
      · have member : permit ∈ graph.permitsOn group :=
          (mem_permitsOn_iff sound).mpr ⟨linked, own⟩
        have positive := Finset.card_pos.mpr ⟨permit, member⟩
        rw [Finset.card_erase_of_mem member]
        simp [own]
        omega
      · have absent : permit ∉ graph.permitsOn group := fun member =>
          own ((mem_permitsOn_iff sound).mp member).2
        rw [Finset.erase_eq_of_notMem absent]
        simp [Ne.symm own]
  | seg other =>
      simp only [owed, count]
      by_cases own : other = graph.apSeg permit
      · subst own
        have positive := List.length_pos_of_mem linked
        have length := List.length_erase_of_mem linked
        simp [dropAp, length]
        omega
      · simp [dropAp, own]
  | ap | att => simp [owed, count]

end Graph

/-! ## Counts -/

open Objects.Graph in
/-- The counts of all objects are exact, and say which are allocated. -/
structure Counted (refcnt : Ref → Int) (allocated : Ref → Bool)
    (graph : Graph) (held : Held) : Prop where
  exact : ∀ object,
    refcnt object = graph.owed object + held.count (.ref object)
  alive : ∀ object, allocated object = true ↔ 0 < refcnt object
  used : ∀ object, allocated object = true → graph.Used object

namespace Counted

variable {refcnt later : Ref → Int} {allocated still : Ref → Bool}
    {graph next : Graph} {held : Held}

theorem congr (counted : Counted refcnt allocated graph held)
    (count : later = refcnt) (alive : still = allocated)
    (owed : next.owed = graph.owed)
    (used : ∀ object, graph.Used object → next.Used object)
    {other : Held}
    (tokens : ∀ object,
      other.count (.ref object) = held.count (.ref object)) :
    Counted later still next other where
  exact object := by
    rw [count, owed, tokens]
    exact counted.exact object
  alive object := by
    rw [count, alive]
    exact counted.alive object
  used object present := by
    rw [alive] at present
    exact used object (counted.used object present)

/-- Nothing refers to a pointer that was not given out. -/
theorem refcnt_eq_zero (counted : Counted refcnt allocated graph held)
    {object : Ref} (unused : ¬ graph.Used object) :
    refcnt object = 0 := by
  have exact := counted.exact object
  have notPositive : ¬ 0 < refcnt object := fun positive =>
    unused (counted.used object ((counted.alive object).mpr positive))
  omega

theorem live_of_owed (counted : Counted refcnt allocated graph held)
    {object : Ref} (owed : 0 < graph.owed object) :
    allocated object = true := by
  rw [counted.alive, counted.exact]
  omega

theorem live_of_held (counted : Counted refcnt allocated graph held)
    {object : Ref} (member : .ref object ∈ held) :
    allocated object = true := by
  have positive := Multiset.count_pos.mpr member
  rw [counted.alive, counted.exact]
  omega

theorem ref (counted : Counted refcnt allocated graph held)
    {object : Ref} (live : allocated object = true)
    (count : ∀ other,
      later other = refcnt other + if other = object then 1 else 0)
    (same : ∀ other, still other = allocated other) :
    Counted later still graph (.ref object ::ₘ held) where
  exact other := by
    rw [count, counted.exact, Multiset.count_cons]
    by_cases equal : other = object
    · simp [equal]
      ring
    · simp [equal]
  alive other := by
    have before := counted.alive other
    rw [same, before, count]
    split
    · rename_i equal
      rw [equal, live] at before
      have positive := before.mp rfl
      rw [equal]
      omega
    · simp
  used other present := counted.used other (same other ▸ present)

theorem deref {object : Ref}
    (counted : Counted refcnt allocated graph (.ref object ::ₘ held))
    (count : ∀ other,
      later other = refcnt other - if other = object then 1 else 0)
    (freed : ∀ other, still other =
      if other = object ∧ refcnt object = 1 then false
      else allocated other) :
    Counted later still graph held where
  exact other := by
    rw [count, counted.exact, Multiset.count_cons]
    by_cases equal : other = object
    · simp [equal]
      ring
    · simp [equal]
  alive other := by
    have before := counted.alive other
    have owed := counted.exact other
    rw [Multiset.count_cons] at owed
    rw [freed, count]
    by_cases equal : other = object
    · subst equal
      simp only [true_and, if_true]
      simp only [if_true] at owed
      by_cases last : refcnt other = 1
      · simp [last]
      · have positive : 0 < refcnt other := by omega
        rw [if_neg last, before]
        omega
    · simpa [equal] using before
  used other present := by
    rw [freed] at present
    split at present
    · cases present
    · exact counted.used other present

/-- A new object with one reference. -/
theorem grow (counted : Counted refcnt allocated graph held) {new : Ref}
    (unused : ¬ graph.Used new)
    (used : ∀ object, next.Used object ↔ graph.Used object ∨ object = new)
    (owed : ∀ object, next.owed object =
      graph.owed object + if object = new then 1 else 0)
    (count : ∀ object, later object =
      if object = new then 1 else refcnt object)
    (alive : ∀ object, still object =
      if object = new then true else allocated object) :
    Counted later still next held where
  exact object := by
    rw [count, owed]
    have before := counted.exact object
    split
    · rename_i equal
      rw [equal, counted.refcnt_eq_zero unused] at before
      rw [equal]
      push_cast
      omega
    · simpa using before
  alive object := by
    rw [count, alive]
    split
    · simp
    · exact counted.alive object
  used object present := by
    rw [alive] at present
    rw [used]
    split at present
    · right
      assumption
    · exact Or.inl (counted.used object present)

/-- A new permit takes over the references to its segment and group. -/
theorem grow_ap {seg : SegPtr} {slot : TgPtr × Nat}
    (counted : Counted refcnt allocated graph
      (.ref (.seg seg) ::ₘ .ref (.tg (graph.segTg seg)) ::ₘ held))
    (sound : graph.Sound
      (.ref (.seg seg) ::ₘ .ref (.tg (graph.segTg seg)) ::ₘ held))
    (segUsed : graph.Used (.seg seg))
    (used : graph.Used (.tg slot.1))
    (live : graph.destroyed (.tg slot.1) = false)
    (count : ∀ object, later object =
      if object = .ap graph.nextAp then 1 else refcnt object)
    (alive : ∀ object, still object =
      if object = .ap graph.nextAp then true else allocated object) :
    Counted later still (graph.addAp seg slot) held where
  exact object := by
    have before := counted.exact object
    have unused : ¬ graph.Used (.ap graph.nextAp) := lt_irrefl _
    rw [count, Graph.owed_addAp sound segUsed used live,
      Graph.permitShare]
    simp only [Graph.addAp, Function.update_self]
    simp only [Multiset.count_cons, Token.ref.injEq] at before
    split
    · rename_i equal
      rw [equal, counted.refcnt_eq_zero unused] at before
      rw [equal]
      push_cast
      simp at before ⊢
      omega
    · rw [before]
      push_cast
      omega
  alive object := by
    rw [count, alive]
    split
    · simp
    · exact counted.alive object
  used object present := by
    rw [alive] at present
    rw [(Graph.grows_addAp seg slot segUsed used live).used]
    split at present
    · right
      assumption
    · exact Or.inl (counted.used object present)

/-- An object taken off its list leaves its reference to the operation. -/
theorem shrink (counted : Counted refcnt allocated graph held) {old : Ref}
    (used : ∀ object, next.Used object ↔ graph.Used object)
    (owed : ∀ object, graph.owed object =
      next.owed object + if object = old then 1 else 0) :
    Counted refcnt allocated next (.ref old ::ₘ held) where
  exact object := by
    rw [counted.exact, owed, Multiset.count_cons]
    by_cases equal : object = old
    · simp [equal]
      ring
    · simp [equal]
  alive := counted.alive
  used object present := (used object).mpr (counted.used object present)

/-- A permit taken off its lists leaves all its references. -/
theorem shrink_ap {permit : ApPtr}
    (counted : Counted refcnt allocated graph
      (.closing (.ap permit) ::ₘ held))
    (sound : (graph.finish (.ap permit)).Sound
      (.closing (.ap permit) ::ₘ held))
    (ended : (graph.finish (.ap permit)).destroyed (.ap permit) = true)
    (linked : graph.Linked (.ap permit)) :
    Counted refcnt allocated ((graph.finish (.ap permit)).dropAp permit)
      (.ref (.seg (graph.apSeg permit)) ::ₘ
        .ref (.tg (graph.segTg (graph.apSeg permit))) ::ₘ
          .ref (.ap permit) ::ₘ held) where
  exact object := by
    have owed := Graph.owed_dropAp sound ended linked object
    have share :
        (graph.finish (.ap permit)).permitShare permit object =
          graph.permitShare permit object := rfl
    rw [Graph.owed_finish, share, Graph.permitShare] at owed
    rw [counted.exact, owed]
    simp only [Multiset.count_cons, Token.ref.injEq, reduceCtorEq]
    push_cast
    ring
  alive := counted.alive
  used object present := by
    rw [(Graph.shrinks_dropAp sound permit).used,
      Graph.finish_used_iff]
    exact counted.used object present

end Counted

end Xpmem.Objects
