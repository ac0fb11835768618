import Xpmem.Driver.Recorded
import Xpmem.Objects.WellFormed

/-!
# Steps on objects

The steps of the driver that take and drop references, change lifecycle
flags, and link and unlink objects.  Each keeps `WellFormed`; the tokens say
what the step leaves to its operation and what it settles.
-/

namespace Xpmem.Driver

open Xpmem.Foundation Xpmem.Kernel Xpmem.Objects

variable {K : Platform} {s t : State K} {held : Held}

theorem State.allocated_eq_of_main (same : t.main = s.main) :
    t.allocated = s.allocated := by
  funext object
  cases object with
  | tg group => exact congrArg (fun u => (u.tg group).allocated) same
  | seg seg => exact congrArg (fun u => (u.seg seg).allocated) same
  | ap permit => exact congrArg (fun u => (u.ap permit).allocated) same
  | att att => exact congrArg (fun u => (u.att att).allocated) same

namespace WellFormed

/-! ## References and flags -/

/-- Nothing depends on logs, page references and pin counters. -/
theorem of_shape (formed : WellFormed s held) (same : t.shape = s.shape)
    (refcnt : t.refcnt = s.refcnt) (allocated : t.allocated = s.allocated) :
    WellFormed t held where
  graph := by
    rw [State.graph_eq_of_shape same]
    exact formed.graph
  counted := by
    rw [refcnt, allocated, State.graph_eq_of_shape same]
    exact formed.counted
  procs :=
    formed.procs.congr (.of_layout (State.layout_eq_of_shape same))
  laid :=
    formed.laid.of_layout (State.layout_eq_of_shape same)
      fun _ => Iff.rfl

theorem minor (formed : WellFormed s held) (same : t.main = s.main) :
    WellFormed t held := by
  refine formed.of_shape (State.shape_eq_of_main same) ?_ ?_
  · funext object
    cases object with
    | tg group => exact congrArg (fun u => (u.tg group).refcnt) same
    | seg seg => exact congrArg (fun u => (u.seg seg).refcnt) same
    | ap permit => exact congrArg (fun u => (u.ap permit).refcnt) same
    | att att => exact congrArg (fun u => (u.att att).refcnt) same
  · exact State.allocated_eq_of_main same

theorem ref (formed : WellFormed s held) {object : Ref}
    (live : s.allocated object = true) :
    WellFormed (s.ref object) (.ref object ::ₘ held) where
  graph := by
    rw [State.graph_eq_of_shape (s.shape_ref object)]
    exact formed.graph.mono (by simp)
  counted := by
    rw [State.graph_eq_of_shape (s.shape_ref object)]
    exact formed.counted.ref live (s.refcnt_ref object)
      (s.allocated_ref object)
  procs :=
    (formed.procs.mono (by simp)).congr
      (.of_layout (State.layout_eq_of_shape (s.shape_ref object)))
  laid :=
    formed.laid.of_layout
      (State.layout_eq_of_shape (s.shape_ref object)) (by simp)

theorem deref {object : Ref}
    (formed : WellFormed s (.ref object ::ₘ held)) :
    WellFormed (s.deref object) held where
  graph := by
    rw [State.graph_eq_of_shape (s.shape_deref object)]
    exact formed.graph.mono (by simp)
  counted := by
    rw [State.graph_eq_of_shape (s.shape_deref object)]
    exact formed.counted.deref (s.refcnt_deref object)
      (s.allocated_deref object)
  procs :=
    (formed.procs.mono (by simp)).congr
      (.of_layout (State.layout_eq_of_shape (s.shape_deref object)))
  laid :=
    formed.laid.of_layout
      (State.layout_eq_of_shape (s.shape_deref object)) (by simp)

theorem flag (formed : WellFormed s held) {object : Ref}
    (linked : s.graph.Linked object)
    (live : s.graph.destroying object = false) :
    WellFormed (s.flag object true) (.closing object ::ₘ held) where
  graph := by
    rw [State.graph_flag]
    exact formed.graph.flag_true linked live
  counted := by
    rw [State.graph_flag]
    refine formed.counted.congr (s.refcnt_flag object true)
      (s.allocated_flag object true) (Graph.owed_flag _ _ _)
      (fun other => (Graph.flag_used_iff _ _ other _).mpr) ?_
    simp
  procs :=
    (formed.procs.mono (by simp)).congr
      (.of_layout (s.layout_flag object true))
  laid := formed.laid.of_layout (s.layout_flag object true) (by simp)

theorem unflag {att : AttPtr}
    (formed : WellFormed s (.closing (.att att) ::ₘ held)) :
    WellFormed (s.flag (.att att) false) held where
  graph := by
    rw [State.graph_flag]
    exact formed.graph.flag_false rfl
  counted := by
    rw [State.graph_flag]
    refine formed.counted.congr (s.refcnt_flag _ false)
      (s.allocated_flag _ false) (Graph.owed_flag _ _ _)
      (fun other => (Graph.flag_used_iff _ _ other _).mpr) ?_
    simp
  procs :=
    (formed.procs.mono (by simp)).congr
      (.of_layout (s.layout_flag _ false))
  laid := formed.laid.of_layout (s.layout_flag _ false) (by simp)

end WellFormed

/-! ## New objects -/

theorem SameProcs.of_keeps (sound : s.graph.Sound held)
    (keeps : Recorded s t)
    (linked : ∀ group,
      t.graph.Linked (.tg group) ↔ s.graph.Linked (.tg group))
    (destroyed : ∀ group, s.graph.Linked (.tg group) →
      (t.tg group).destroyed = (s.tg group).destroyed)
    (notifiers : ∀ mm, (t.mm mm).notifiers = (s.mm mm).notifiers)
    (proc : t.proc = s.proc) (nextMm : t.nextMm = s.nextMm) :
    SameProcs s t where
  linked := linked
  tgid _ present := keeps.tg_tgid (sound.used _ present)
  mm _ present := keeps.tg_mm (sound.used _ present)
  destroyed := destroyed
  notifiers := notifiers
  proc := proc
  nextMm := nextMm

/-- Records say where attachments belong. -/
theorem SameMaps.of_keeps {more : Held} (sound : s.graph.Sound held)
    (keeps : Recorded s t)
    (bound : ∀ att, t.Bound more att ↔ s.Bound held att)
    (vmas : t.vmas = s.vmas) (pte : t.pte = s.pte)
    (nextVma : t.nextVma = s.nextVma)
    (place : ∀ att, s.Bound held att → t.place att = s.place att)
    (valid : ∀ att, s.Bound held att → t.valid att = s.valid att) :
    SameMaps s t held more := by
  constructor
  case segOf =>
    intro att present
    have permit : (s.att att).ap < s.nextAp :=
      sound.used _ (sound.linked_ap present.1).1
    rw [State.segOf, keeps.att_ap (sound.used _ present.1)]
    exact keeps.ap_seg permit
  case range =>
    intro att present
    have used := sound.used_seg (sound.linked_ap present.1).1
    exact ⟨keeps.seg_vaddr used, keeps.seg_size used⟩
  all_goals assumption

theorem Laid.of_keeps {more : Held} (laid : Laid s held)
    (sound : s.graph.Sound held) (keeps : Recorded s t)
    (same : SameMaps s t held more)
    (home : ∀ att, t.graph.Linked (.att att) →
      ¬ s.graph.Linked (.att att) →
        (t.att att).mm = (t.tg (t.ap (t.att att).ap).tg).mm)
    (ranges : ∀ seg, t.graph.Used (.seg seg) → ¬ s.graph.Used (.seg seg) →
      SegRange K (t.seg seg).vaddr (t.seg seg).size)
    (limit : ∀ group, t.graph.Used (.tg group) →
      ¬ s.graph.Used (.tg group) → (t.tg group).addrLimit = K.taskSize)
    (revoked : ∀ att, s.Bound held att →
      (t.seg (s.segOf att)).destroyed = true →
      s.Straight (s.segOf att) →
        (s.seg (s.segOf att)).destroyed = true ∨
          (s.place att).Unmapped s.pte) :
    Laid t more := by
  refine laid.congr same ?_ ?_ ?_ revoked
  · intro att present
    by_cases before : s.graph.Linked (.att att)
    · have used : att < s.nextAtt := sound.used _ before
      have linked := (sound.linked_ap before).1
      have permit : (s.att att).ap < s.nextAp := sound.used _ linked
      have group : (s.ap (s.att att).ap).tg < s.nextTg :=
        sound.used _ (sound.linked_tg_of_ap linked).1
      rw [keeps.att_mm used, keeps.att_ap used, keeps.ap_tg permit,
        keeps.tg_mm group]
      exact laid.home att before
    · exact home att present before
  · intro seg present
    by_cases before : s.graph.Used (.seg seg)
    · rw [keeps.seg_vaddr before, keeps.seg_size before]
      exact laid.ranges seg before
    · exact ranges seg present before
  · intro group present
    by_cases before : s.graph.Used (.tg group)
    · rw [keeps.tg_addrLimit before]
      exact laid.limit group before
    · exact limit group present before

/-- A new group of a running process. -/
theorem Procs.open (procs : Procs s held) (sound : s.graph.Sound held)
    (keeps : Recorded s t) {tgid : Pid} {mm : MmPtr}
    (linked : ∀ group, t.graph.Linked (.tg group) ↔
      s.graph.Linked (.tg group) ∨ group = s.nextTg)
    (destroyed : ∀ group, s.graph.Linked (.tg group) →
      (t.tg group).destroyed = (s.tg group).destroyed)
    (new : (t.tg s.nextTg).tgid = tgid ∧ (t.tg s.nextTg).mm = mm ∧
      (t.tg s.nextTg).destroyed = false)
    (notifiers : ∀ other, (t.mm other).notifiers =
      if other = mm then s.nextTg :: (s.mm mm).notifiers
      else (s.mm other).notifiers)
    (proc : t.proc = s.proc) (nextMm : t.nextMm = s.nextMm)
    (running : s.proc tgid = .running mm)
    (alone : ∀ group, s.graph.Linked (.tg group) →
      (s.tg group).tgid ≠ tgid) :
    Procs t held := by
  obtain ⟨newTgid, newMm, newLive⟩ := new
  have sameTgid (group : TgPtr) (present : s.graph.Linked (.tg group)) :=
    keeps.tg_tgid (sound.used _ present)
  have sameMm (group : TgPtr) (present : s.graph.Linked (.tg group)) :=
    keeps.tg_mm (sound.used _ present)
  constructor
  case running =>
    intro group present live
    rcases (linked group).mp present with before | equal
    · rw [destroyed group before] at live
      rw [proc, sameTgid group before, sameMm group before]
      exact procs.running group before live
    · rw [equal, proc, newTgid, newMm]
      exact running
  case leaving =>
    intro group present dead
    rcases (linked group).mp present with before | equal
    · rw [destroyed group before] at dead
      rw [proc, sameTgid group before]
      exact procs.leaving group before dead
    · rw [equal, newLive] at dead
      cases dead
  case unique =>
    intro group other present otherPresent same
    rcases (linked group).mp present with before | equal
    · rw [sameTgid group before] at same
      rcases (linked other).mp otherPresent with otherBefore | otherEqual
      · rw [sameTgid other otherBefore] at same
        exact procs.unique group other before otherBefore same
      · rw [otherEqual, newTgid] at same
        exact (alone group before same).elim
    · rw [equal, newTgid] at same
      rcases (linked other).mp otherPresent with otherBefore | otherEqual
      · rw [sameTgid other otherBefore] at same
        exact (alone other otherBefore same.symm).elim
      · rw [equal, otherEqual]
  case registered =>
    intro group present live
    rw [notifiers]
    rcases (linked group).mp present with before | equal
    · rw [destroyed group before] at live
      rw [sameMm group before]
      have member := procs.registered group before live
      split
      · rename_i here
        rw [← here]
        exact List.mem_cons_of_mem _ member
      · exact member
    · rw [equal, newMm, if_pos rfl]
      exact List.mem_cons_self
  case notifier =>
    intro other group member
    rw [notifiers] at member
    have known (before : group ∈ (s.mm other).notifiers) :
        (t.tg group).mm = other ∧ t.graph.Linked (.tg group) ∧
          t.proc (t.tg group).tgid = .running other ∧
          ((t.tg group).destroyed = true →
            .leaving (t.tg group).tgid ∈ held) := by
      obtain ⟨home, present, rest⟩ := procs.notifier other group before
      rw [sameMm group present, destroyed group present,
        sameTgid group present, proc]
      exact ⟨home, (linked group).mpr (Or.inl present), rest⟩
    split at member
    · rename_i here
      subst here
      rcases List.mem_cons.mp member with equal | before
      · rw [equal]
        refine ⟨newMm, (linked _).mpr (Or.inr rfl), ?_, ?_⟩
        · rw [proc, newTgid]
          exact running
        · rw [newLive]
          exact fun dead => Bool.noConfusion dead
      · exact known before
    · exact known member
  case injective =>
    rw [proc]
    exact procs.injective
  case mm_lt =>
    rw [proc, nextMm]
    exact procs.mm_lt

/-- The group of a leaving process is destroyed. -/
theorem Procs.finish (procs : Procs s held) {group : TgPtr}
    (linked : ∀ other,
      (s.modTg group fun tg =>
        { tg with destroyed := true }).graph.Linked (.tg other) ↔
        s.graph.Linked (.tg other))
    (leaving : .leaving (s.tg group).tgid ∈ held) :
    Procs (s.modTg group fun tg => { tg with destroyed := true })
      held := by
  have fields (other : TgPtr) :
      ((s.modTg group fun tg => { tg with destroyed := true }).tg
          other).tgid = (s.tg other).tgid ∧
        ((s.modTg group fun tg => { tg with destroyed := true }).tg
          other).mm = (s.tg other).mm ∧
        (((s.modTg group fun tg => { tg with destroyed := true }).tg
          other).destroyed = if other = group then true
            else (s.tg other).destroyed) := by
    by_cases equal : other = group
    · subst equal
      simp [State.modTg]
    · simp [State.modTg, equal]
  constructor
  case running =>
    intro other present live
    rw [(fields other).2.2] at live
    rw [(fields other).1, (fields other).2.1]
    split at live
    · cases live
    · exact procs.running other ((linked other).mp present) live
  case leaving =>
    intro other present dead
    rw [(fields other).2.2] at dead
    rw [(fields other).1]
    split at dead
    · rename_i equal
      rw [equal]
      exact Or.inr leaving
    · exact procs.leaving other ((linked other).mp present) dead
  case unique =>
    intro first second present otherPresent same
    rw [(fields first).1, (fields second).1] at same
    exact procs.unique first second ((linked first).mp present)
      ((linked second).mp otherPresent) same
  case registered =>
    intro other present live
    rw [(fields other).2.2] at live
    rw [(fields other).2.1]
    split at live
    · cases live
    · exact procs.registered other ((linked other).mp present) live
  case notifier =>
    intro mm other member
    obtain ⟨home, present, running, dead⟩ :=
      procs.notifier mm other member
    rw [(fields other).1, (fields other).2.1, (fields other).2.2]
    refine ⟨home, (linked other).mpr present, running, ?_⟩
    split
    · rename_i equal
      rw [equal]
      exact fun _ => leaving
    · exact dead
  case injective => exact procs.injective
  case mm_lt => exact procs.mm_lt

/-- A destroyed group without a notifier leaves the hash table. -/
theorem Procs.unhash (procs : Procs s held) {group : TgPtr}
    (linked : ∀ other, (unhashTg s group).graph.Linked (.tg other) ↔
      s.graph.Linked (.tg other) ∧ other ≠ group)
    (destroyed : (s.tg group).destroyed = true)
    (staying : .leaving (s.tg group).tgid ∉ held) :
    Procs (unhashTg s group) held where
  running other present :=
    procs.running other ((linked other).mp present).1
  leaving other present :=
    procs.leaving other ((linked other).mp present).1
  unique first second present otherPresent :=
    procs.unique first second ((linked first).mp present).1
      ((linked second).mp otherPresent).1
  registered other present :=
    procs.registered other ((linked other).mp present).1
  notifier mm other member := by
    obtain ⟨home, present, running, dead⟩ :=
      procs.notifier mm other member
    refine ⟨home, (linked other).mpr ⟨present, ?_⟩, running, dead⟩
    intro equal
    rw [equal] at dead
    exact staying (dead destroyed)
  injective := procs.injective
  mm_lt := procs.mm_lt

theorem counts_linkTg (s : State K) (tgid : Pid) (mm : MmPtr)
    (cred : Cred) (object : Ref) :
    (linkTg s tgid mm cred).refcnt object =
        (if object = .tg s.nextTg then 1 else s.refcnt object) ∧
      (linkTg s tgid mm cred).allocated object =
        (if object = .tg s.nextTg then true else s.allocated object) := by
  cases object <;>
    simp [linkTg, State.refcnt, State.allocated, State.modTg, State.modMm,
      Function.update_apply]
  grind

theorem counts_linkSeg (s : State K) (segTg : TgPtr) (segid : BitVec 64)
    (vaddr size : Nat) (permitType : BitVec 32) (permitValue : BitVec 64)
    (object : Ref) :
    (linkSeg s segTg segid vaddr size permitType permitValue).refcnt
          object =
        (if object = .seg s.nextSeg then 1 else s.refcnt object) ∧
      (linkSeg s segTg segid vaddr size permitType permitValue).allocated
          object =
        (if object = .seg s.nextSeg then true else s.allocated object) := by
  cases object <;>
    simp [linkSeg, State.refcnt, State.allocated, State.modTg,
      State.modSeg, Function.update_apply] <;>
    grind

theorem counts_linkAp (s : State K) (seg : SegPtr) (apTg : TgPtr)
    (apid : BitVec 64) (mode : BitVec 32) (object : Ref) :
    (linkAp s seg apTg apid mode).refcnt object =
        (if object = .ap s.nextAp then 1 else s.refcnt object) ∧
      (linkAp s seg apTg apid mode).allocated object =
        (if object = .ap s.nextAp then true else s.allocated object) := by
  cases object <;>
    simp [linkAp, State.refcnt, State.allocated, State.modTg,
      State.modSeg, State.modAp, Function.update_apply] <;>
    grind

theorem counts_attachLink (s : State K) (permit : ApPtr) (mm : MmPtr)
    (segVaddr size : Nat) (object : Ref) :
    (attachLink s permit mm segVaddr size).refcnt object =
        (if object = .att s.nextAtt then 1 else s.refcnt object) +
          (if object = .att s.nextAtt then 1 else 0) ∧
      (attachLink s permit mm segVaddr size).allocated object =
        (if object = .att s.nextAtt then true
          else s.allocated object) := by
  cases object <;>
    simp [attachLink, State.xpmemAttRef, State.refcnt, State.allocated,
      State.modAtt, State.modAp, Function.update_apply] <;>
    grind

namespace WellFormed

theorem openTg (formed : WellFormed s held) {tgid : Pid} {mm : MmPtr}
    (cred : Cred) (running : s.proc tgid = .running mm)
    (alone : ∀ group, s.graph.Linked (.tg group) →
      (s.tg group).tgid ≠ tgid) :
    WellFormed (linkTg s tgid mm cred) held := by
  have graph := State.graph_linkTg formed.graph tgid mm cred
  have grows : Graph.Grows s.graph
      (s.graph.addTg (xpmemTgHashtableIndex tgid)) (.tg s.nextTg) :=
    Graph.grows_addTg _
  have old (group : TgPtr) (used : s.graph.Used (.tg group)) :
      (linkTg s tgid mm cred).tg group = s.tg group := by
    have distinct : group ≠ s.nextTg := Nat.ne_of_lt used
    simp [linkTg, State.modTg, State.modMm, distinct]
  have new :
      ((linkTg s tgid mm cred).tg s.nextTg).tgid = tgid ∧
        ((linkTg s tgid mm cred).tg s.nextTg).mm = mm ∧
        ((linkTg s tgid mm cred).tg s.nextTg).destroyed = false ∧
        ((linkTg s tgid mm cred).tg s.nextTg).addrLimit = K.taskSize := by
    simp [linkTg, State.modTg, State.modMm]
  have notifiers (other : MmPtr) :
      ((linkTg s tgid mm cred).mm other).notifiers =
        if other = mm then s.nextTg :: (s.mm mm).notifiers
        else (s.mm other).notifiers := by
    simp only [linkTg, State.modTg, State.modMm, Function.update_apply]
    split <;> rfl
  have linked (group : TgPtr) :
      (linkTg s tgid mm cred).graph.Linked (.tg group) ↔
        s.graph.Linked (.tg group) ∨ group = s.nextTg := by
    rw [graph, grows.linked]
    simp [State.graph]
  have olds (group : TgPtr) (present : s.graph.Linked (.tg group)) :=
    old group (formed.graph.used _ present)
  refine ⟨?_, ?_, ?_, ?_⟩
  · rw [graph]
    exact formed.graph.addTg _
  · rw [graph]
    exact formed.counted.grow grows.unused grows.used
      (Graph.owed_addTg formed.graph _)
      (fun object => (counts_linkTg s tgid mm cred object).1)
      (fun object => (counts_linkTg s tgid mm cred object).2)
  · exact formed.procs.open formed.graph (.linkTg s tgid mm cred) linked
      (fun group present => by rw [olds group present])
      ⟨new.1, new.2.1, new.2.2.1⟩ notifiers rfl rfl running alone
  · have linkedAtt (att : AttPtr) :
        (linkTg s tgid mm cred).graph.Linked (.att att) ↔
          s.graph.Linked (.att att) := by
      rw [graph, grows.linked]
      simp
    refine formed.laid.of_keeps formed.graph (.linkTg s tgid mm cred)
      (.of_keeps formed.graph (.linkTg s tgid mm cred) ?_ ?_ ?_ rfl
        (fun _ _ => rfl) (fun _ _ => rfl)) ?_ ?_ ?_ ?_
    · intro att
      rw [State.Bound, State.Bound, linkedAtt]
    · funext other
      simp only [State.vmas, linkTg, State.modTg, State.modMm,
        Function.update_apply]
      split
      · rename_i here
        rw [here]
      · rfl
    · funext other page
      simp only [State.pte, linkTg, State.modTg, State.modMm,
        Function.update_apply]
      split
      · rename_i here
        rw [here]
      · rfl
    · intro att present unlinked
      exact (unlinked ((linkedAtt att).mp present)).elim
    · intro seg present unused
      exact (unused present).elim
    · intro group present unused
      rw [graph, grows.used] at present
      cases present.resolve_left unused
      exact new.2.2.2
    · exact fun _ _ destroyed _ => Or.inl destroyed

theorem makeSeg (formed : WellFormed s held) {group : TgPtr}
    {vaddr size : Nat} (segid : BitVec 64) (permitType : BitVec 32)
    (permitValue : BitVec 64)
    (linked : s.graph.Linked (.tg group))
    (live : (s.tg group).destroyed = false)
    (range : SegRange K vaddr size) :
    WellFormed
      (linkSeg s group segid vaddr size permitType permitValue) held := by
  have used := formed.graph.used _ linked
  have graph := State.graph_linkSeg formed.graph group segid vaddr size
    permitType permitValue
  have grows := Graph.grows_addSeg group used live
  have keeps := Recorded.linkSeg s group segid vaddr size permitType
    permitValue
  have counts := counts_linkSeg s group segid vaddr size permitType
    permitValue
  refine ⟨?_, ?_, ?_, ?_⟩
  · rw [graph]
    exact formed.graph.addSeg used live
  · rw [graph]
    exact formed.counted.grow grows.unused grows.used
      (Graph.owed_addSeg formed.graph used live)
      (fun object => (counts object).1) (fun object => (counts object).2)
  · refine formed.procs.congr (.of_keeps formed.graph keeps ?_ ?_
      (fun _ => rfl) rfl rfl)
    · intro other
      rw [graph, grows.linked]
      simp
    · intro other _
      exact congrFun (congrArg Graph.destroyed graph) (.tg other)
  · have linkedAtt (att : AttPtr) :
        (linkSeg s group segid vaddr size permitType
            permitValue).graph.Linked (.att att) ↔
          s.graph.Linked (.att att) := by
      rw [graph, grows.linked]
      simp
    refine formed.laid.of_keeps formed.graph keeps
      (.of_keeps formed.graph keeps ?_ rfl rfl rfl
        (fun _ _ => rfl) (fun _ _ => rfl)) ?_ ?_ ?_ ?_
    · intro att
      rw [State.Bound, State.Bound, linkedAtt]
    · intro att present unlinked
      exact (unlinked ((linkedAtt att).mp present)).elim
    · intro seg present unused
      rw [graph, grows.used] at present
      cases present.resolve_left unused
      simpa [linkSeg, State.modTg, State.modSeg, State.graph] using range
    · intro other present unused
      rw [graph, grows.used] at present
      cases present.resolve_left unused
    · intro att bound destroyed _
      exact Or.inl ((congrFun (congrArg Graph.destroyed graph)
        (.seg (s.segOf att))).symm.trans destroyed)

theorem getAp {seg : SegPtr}
    (formed : WellFormed s
      (.ref (.seg seg) ::ₘ .ref (.tg (s.seg seg).tg) ::ₘ held))
    {group : TgPtr} (apid : BitVec 64) (mode : BitVec 32)
    (linked : s.graph.Linked (.tg group))
    (live : (s.tg group).destroyed = false) :
    WellFormed (linkAp s seg group apid mode) held := by
  have used := formed.graph.used _ linked
  have segUsed : s.graph.Used (.seg seg) :=
    formed.counted.used _ (formed.counted.live_of_held (by simp))
  have graph := State.graph_linkAp formed.graph seg group apid mode
  have grows := Graph.grows_addAp seg
    (group, xpmemApHashtableIndex K apid) segUsed used live
  have keeps := Recorded.linkAp s seg group apid mode
  have counts := counts_linkAp s seg group apid mode
  refine ⟨?_, ?_, ?_, ?_⟩
  · rw [graph]
    have added : (s.graph.addAp seg (group, xpmemApHashtableIndex K
        apid)).Sound
          (.ref (.seg seg) ::ₘ .ref (.tg (s.seg seg).tg) ::ₘ held) :=
      formed.graph.addAp segUsed used live
    exact added.mono (by simp)
  · rw [graph]
    exact formed.counted.grow_ap formed.graph segUsed used live
      (fun object => (counts object).1) (fun object => (counts object).2)
  · refine (formed.procs.mono (by simp)).congr
      (.of_keeps formed.graph keeps ?_ ?_ (fun _ => rfl) rfl rfl)
    · intro other
      rw [graph, grows.linked]
      simp
    · intro other _
      exact congrFun (congrArg Graph.destroyed graph) (.tg other)
  · have linkedAtt (att : AttPtr) :
        (linkAp s seg group apid mode).graph.Linked (.att att) ↔
          s.graph.Linked (.att att) := by
      rw [graph, grows.linked]
      simp
    refine formed.laid.of_keeps formed.graph keeps
      (.of_keeps formed.graph keeps ?_ rfl rfl rfl
        (fun _ _ => rfl) (fun _ _ => rfl)) ?_ ?_ ?_ ?_
    · intro att
      simp [State.Bound, linkedAtt]
    · intro att present unlinked
      exact (unlinked ((linkedAtt att).mp present)).elim
    · intro other present unused
      rw [graph, grows.used] at present
      cases present.resolve_left unused
    · intro other present unused
      rw [graph, grows.used] at present
      cases present.resolve_left unused
    · intro att bound destroyed _
      exact Or.inl ((congrFun (congrArg Graph.destroyed graph)
        (.seg (s.segOf att))).symm.trans destroyed)

theorem linkAtt (formed : WellFormed s held) {permit : ApPtr} {mm : MmPtr}
    (segVaddr size : Nat)
    (linked : s.graph.Linked (.ap permit))
    (live : (s.ap permit).destroyed = false)
    (home : (s.tg (s.ap permit).tg).mm = mm) :
    WellFormed (attachLink s permit mm segVaddr size)
      (.ref (.att s.nextAtt) ::ₘ .bare s.nextAtt ::ₘ held) := by
  have used := formed.graph.used _ linked
  have graph := State.graph_attachLink formed.graph permit mm segVaddr
    size
  have grows := Graph.grows_addAtt permit used live
  have keeps := Recorded.attachLink s permit mm segVaddr size
  have counts := counts_attachLink s permit mm segVaddr size
  have linkedAtt (att : AttPtr) :
      (attachLink s permit mm segVaddr size).graph.Linked (.att att) ↔
        s.graph.Linked (.att att) ∨ att = s.nextAtt := by
    rw [graph, grows.linked]
    simp [State.graph]
  have absent : ¬ s.graph.Linked (.att s.nextAtt) := fun linked =>
    lt_irrefl _ (formed.graph.used _ linked)
  refine ⟨?_, ?_, ?_, ?_⟩
  · rw [graph]
    exact (formed.graph.addAtt used live).mono (by simp)
  · rw [graph]
    have grown := formed.counted.grow grows.unused grows.used
      (Graph.owed_addAtt formed.graph used live)
      (fun _ => rfl) (fun _ => rfl)
    refine (grown.ref (if_pos rfl) (fun object => (counts object).1)
      (fun object => (counts object).2)).congr rfl rfl rfl
        (fun _ => id) ?_
    intro object
    simp [Multiset.count_cons, State.graph]
  · refine (formed.procs.mono (by simp)).congr
      (.of_keeps formed.graph keeps ?_ (fun _ _ => rfl)
        (fun _ => rfl) rfl rfl)
    intro other
    rw [graph, grows.linked]
    simp
  · have old (att : AttPtr) (bound : s.Bound held att) :
        (attachLink s permit mm segVaddr size).att att = s.att att := by
      have distinct : att ≠ s.nextAtt :=
        Nat.ne_of_lt (formed.graph.used _ bound.1)
      simp [attachLink, State.xpmemAttRef, State.modAtt, State.modAp,
        distinct]
    refine formed.laid.of_keeps formed.graph keeps
      (.of_keeps formed.graph keeps ?_ rfl rfl rfl ?_ ?_) ?_
        (fun _ present unused => (unused present).elim)
        (fun _ present unused => (unused present).elim)
        (fun _ _ destroyed _ => Or.inl destroyed)
    · intro att
      by_cases equal : att = s.nextAtt
      · simp [State.Bound, equal, absent]
      · simp [State.Bound, linkedAtt, equal]
    · intro att bound
      simp only [State.place, old att bound]
    · intro att bound
      simp only [State.valid, old att bound]
    · intro att present unlinked
      rcases (linkedAtt att).mp present with before | equal
      · exact (unlinked before).elim
      · subst equal
        have group :
            ((attachLink s permit mm segVaddr size).ap permit).tg =
              (s.ap permit).tg :=
          keeps.ap_tg used
        have fields :
            ((attachLink s permit mm segVaddr size).att s.nextAtt).ap =
                permit ∧
              ((attachLink s permit mm segVaddr size).att s.nextAtt).mm =
                mm := by
          simp [attachLink, State.xpmemAttRef, State.modAtt, State.modAp]
        rw [fields.1, fields.2, group]
        exact home.symm

end WellFormed

/-! ## Taking objects off their lists -/

theorem counts_unlinkAtt (s : State K) (permit : ApPtr) (att : AttPtr) :
    (unlinkAtt s permit att).refcnt = s.refcnt ∧
      (unlinkAtt s permit att).allocated = s.allocated := by
  constructor <;> funext object <;> cases object <;>
    simp [unlinkAtt, State.refcnt, State.allocated, State.modAp,
      Function.update_apply] <;>
    grind

theorem counts_unlinkAp (s : State K) (apTg : TgPtr) (permit : ApPtr) :
    (unlinkAp s apTg permit).refcnt = s.refcnt ∧
      (unlinkAp s apTg permit).allocated = s.allocated := by
  constructor <;> funext object <;> cases object <;>
    simp [unlinkAp, State.refcnt, State.allocated, State.modTg,
      State.modSeg, State.modAp, Function.update_apply] <;>
    grind

theorem counts_unlinkSeg (s : State K) (segTg : TgPtr) (seg : SegPtr) :
    (unlinkSeg s segTg seg).refcnt = s.refcnt ∧
      (unlinkSeg s segTg seg).allocated = s.allocated := by
  constructor <;> funext object <;> cases object <;>
    simp [unlinkSeg, State.refcnt, State.allocated, State.modTg,
      State.modSeg, Function.update_apply] <;>
    grind

theorem counts_finishTg (s : State K) (group : TgPtr) :
    (s.modTg group fun tg => { tg with destroyed := true }).refcnt =
        s.refcnt ∧
      (s.modTg group fun tg => { tg with destroyed := true }).allocated =
        s.allocated := by
  constructor <;> funext object <;> cases object <;>
    simp [State.refcnt, State.allocated, State.modTg,
      Function.update_apply] <;>
    grind

namespace WellFormed

theorem unlinkBare {att : AttPtr}
    (formed : WellFormed s
      (.closing (.att att) ::ₘ .bare att ::ₘ held)) :
    WellFormed (unlinkAtt s (s.att att).ap att)
      (.ref (.att att) ::ₘ held) := by
  have linked := (formed.graph.marked (.att att) (by simp)).2
  have graph := State.graph_unlinkAtt s att
  have shrinks := Graph.shrinks_dropAtt formed.graph att
  have keeps := Recorded.unlinkAtt s (s.att att).ap att
  have counts := counts_unlinkAtt s (s.att att).ap att
  have linkedAtt (other : AttPtr) :
      (unlinkAtt s (s.att att).ap att).graph.Linked (.att other) ↔
        s.graph.Linked (.att other) ∧ other ≠ att := by
    rw [graph, shrinks.linked]
    simp
  refine ⟨?_, ?_, ?_, ?_⟩
  · rw [graph]
    exact formed.graph.dropAtt.mono (by simp)
  · rw [graph, counts.1, counts.2]
    refine (formed.counted.shrink shrinks.used
      (Graph.owed_dropAtt formed.graph linked)).congr rfl rfl rfl
        (fun _ => id) ?_
    intro object
    simp [Multiset.count_cons]
  · refine (formed.procs.mono (by simp)).congr
      (.of_keeps formed.graph keeps ?_ (fun _ _ => rfl)
        (fun _ => rfl) rfl rfl)
    intro other
    rw [graph, shrinks.linked]
    simp
  · refine formed.laid.of_keeps formed.graph keeps
      (.of_keeps formed.graph keeps ?_ rfl rfl rfl
        (fun _ _ => rfl) (fun _ _ => rfl)) ?_
        (fun _ present unused => (unused present).elim)
        (fun _ present unused => (unused present).elim)
        (fun _ _ destroyed _ => Or.inl destroyed)
    · intro other
      by_cases equal : other = att
      · simp [State.Bound, linkedAtt, equal]
      · simp [State.Bound, linkedAtt, equal]
    · intro other present unlinked
      exact (unlinked ((linkedAtt other).mp present).1).elim

theorem unlinkAp {permit : ApPtr}
    (formed : WellFormed s (.closing (.ap permit) ::ₘ held))
    (empty : (s.ap permit).attList = []) :
    WellFormed (unlinkAp s (s.ap permit).tg permit)
      (.ref (.seg (s.ap permit).seg) ::ₘ
        .ref (.tg (s.seg (s.ap permit).seg).tg) ::ₘ
          .ref (.ap permit) ::ₘ held) := by
  have linked := (formed.graph.marked (.ap permit) (by simp)).2
  have finished : (s.graph.finish (.ap permit)).Sound
      (.closing (.ap permit) ::ₘ held) :=
    formed.graph.finish (by simp) empty
  have ended :
      (s.graph.finish (.ap permit)).destroyed (.ap permit) = true := by
    rw [Graph.finish_destroyed, if_pos rfl]
  have graph := State.graph_unlinkAp s permit
  have shrinks := Graph.shrinks_dropAp finished permit
  have keeps := Recorded.unlinkAp s (s.ap permit).tg permit
  have counts := counts_unlinkAp s (s.ap permit).tg permit
  have linkedOthers (object : Ref) (distinct : object ≠ .ap permit) :
      (Driver.unlinkAp s (s.ap permit).tg permit).graph.Linked object ↔
        s.graph.Linked object := by
    rw [graph, shrinks.linked, Graph.finish_linked_iff]
    simp [distinct]
  have destroyed (object : Ref) (distinct : object ≠ .ap permit) :
      (Driver.unlinkAp s (s.ap permit).tg permit).graph.destroyed object =
        s.graph.destroyed object := by
    rw [graph, shrinks.destroyed, Graph.finish_destroyed,
      if_neg distinct]
  refine ⟨?_, ?_, ?_, ?_⟩
  · rw [graph]
    exact (finished.dropAp ended).mono (by simp)
  · rw [graph, counts.1, counts.2]
    exact formed.counted.shrink_ap finished ended linked
  · refine (formed.procs.mono (by simp)).congr
      (.of_keeps formed.graph keeps
        (fun other => linkedOthers (.tg other) (by simp)) ?_
        (fun _ => rfl) rfl rfl)
    exact fun other _ => destroyed (.tg other) (by simp)
  · refine formed.laid.of_keeps formed.graph keeps
      (.of_keeps formed.graph keeps ?_ rfl rfl rfl
        (fun _ _ => rfl) (fun _ _ => rfl)) ?_
        (fun _ present unused => (unused present).elim)
        (fun _ present unused => (unused present).elim) ?_
    · intro other
      simp [State.Bound, linkedOthers (.att other) (by simp)]
    · intro other present unlinked
      exact (unlinked
        ((linkedOthers (.att other) (by simp)).mp present)).elim
    · intro other _ gone _
      exact Or.inl
        ((destroyed (.seg (s.segOf other)) (by simp)).symm.trans gone)

theorem unlinkSeg {seg : SegPtr}
    (formed : WellFormed s (.closing (.seg seg) ::ₘ held))
    (cleared : s.Straight seg → ∀ att, s.Bound held att →
      s.segOf att = seg → (s.place att).Unmapped s.pte) :
    WellFormed (unlinkSeg s (s.seg seg).tg seg)
      (.ref (.seg seg) ::ₘ held) := by
  have linked := (formed.graph.marked (.seg seg) (by simp)).2
  have finished : (s.graph.finish (.seg seg)).Sound
      (.closing (.seg seg) ::ₘ held) :=
    formed.graph.finish (by simp) trivial
  have ended :
      (s.graph.finish (.seg seg)).destroyed (.seg seg) = true := by
    rw [Graph.finish_destroyed, if_pos rfl]
  have graph := State.graph_unlinkSeg s seg
  have shrinks := Graph.shrinks_dropSeg finished seg
  have keeps := Recorded.unlinkSeg s (s.seg seg).tg seg
  have counts := counts_unlinkSeg s (s.seg seg).tg seg
  have linkedOthers (object : Ref) (distinct : object ≠ .seg seg) :
      (Driver.unlinkSeg s (s.seg seg).tg seg).graph.Linked object ↔
        s.graph.Linked object := by
    rw [graph, shrinks.linked, Graph.finish_linked_iff]
    simp [distinct]
  have destroyed (object : Ref) (distinct : object ≠ .seg seg) :
      (Driver.unlinkSeg s (s.seg seg).tg seg).graph.destroyed object =
        s.graph.destroyed object := by
    rw [graph, shrinks.destroyed, Graph.finish_destroyed,
      if_neg distinct]
  refine ⟨?_, ?_, ?_, ?_⟩
  · rw [graph]
    exact (finished.dropSeg ended).mono (by simp)
  · rw [graph, counts.1, counts.2]
    have owed := Graph.owed_dropSeg finished linked
    rw [Graph.owed_finish] at owed
    refine (formed.counted.shrink ?_ owed).congr rfl rfl rfl
      (fun _ => id) ?_
    · intro object
      rw [shrinks.used, Graph.finish_used_iff]
    · intro object
      simp [Multiset.count_cons]
  · refine (formed.procs.mono (by simp)).congr
      (.of_keeps formed.graph keeps
        (fun other => linkedOthers (.tg other) (by simp)) ?_
        (fun _ => rfl) rfl rfl)
    exact fun other _ => destroyed (.tg other) (by simp)
  · refine formed.laid.of_keeps formed.graph keeps
      (.of_keeps formed.graph keeps ?_ rfl rfl rfl
        (fun _ _ => rfl) (fun _ _ => rfl)) ?_
        (fun _ present unused => (unused present).elim)
        (fun _ present unused => (unused present).elim) ?_
    · intro other
      simp [State.Bound, linkedOthers (.att other) (by simp)]
    · intro other present unlinked
      exact (unlinked
        ((linkedOthers (.att other) (by simp)).mp present)).elim
    · intro other bound gone straight
      by_cases equal : s.segOf other = seg
      · right
        rw [equal] at straight
        exact cleared straight other ⟨bound.1, by simpa using bound.2⟩
          equal
      · left
        exact (destroyed (.seg (s.segOf other)) (by simpa using equal)
          ).symm.trans gone

theorem finishTg {group : TgPtr}
    (formed : WellFormed s (.closing (.tg group) ::ₘ held))
    (childless : s.graph.Childless (.tg group))
    (leaving : .leaving (s.tg group).tgid ∈ held) :
    WellFormed (s.modTg group fun tg => { tg with destroyed := true })
      held := by
  have finished : (s.graph.finish (.tg group)).Sound
      (.closing (.tg group) ::ₘ held) :=
    formed.graph.finish (by simp) childless
  have graph := State.graph_finishTg s group
  have counts := counts_finishTg s group
  have keeps : Recorded s
      (s.modTg group fun tg => { tg with destroyed := true }) :=
    .modTg rfl id fun _ => rfl
  have linked (object : Ref) :
      (s.modTg group fun tg =>
          { tg with destroyed := true }).graph.Linked object ↔
        s.graph.Linked object := by
    rw [graph, Graph.finish_linked_iff]
  refine ⟨?_, ?_, ?_, ?_⟩
  · rw [graph]
    refine finished.settle ?_
    rw [Graph.Gone, Graph.finish_destroyed, if_pos rfl]
  · rw [graph, counts.1, counts.2]
    refine formed.counted.congr rfl rfl (Graph.owed_finish _ _)
      (fun _ => (Graph.finish_used_iff _ _ _).mpr) ?_
    simp
  · exact (formed.procs.mono (by simp)).finish
      (fun other => linked (.tg other)) leaving
  · refine formed.laid.of_keeps formed.graph keeps
      (.of_keeps formed.graph keeps ?_ rfl rfl rfl
        (fun _ _ => rfl) (fun _ _ => rfl)) ?_
        (fun _ present unused => (unused present).elim)
        (fun _ present unused => (unused present).elim)
        (fun _ _ destroyed _ => Or.inl destroyed)
    · intro other
      simp [State.Bound, linked]
    · intro other present unlinked
      exact (unlinked ((linked (.att other)).mp present)).elim

theorem unhash (formed : WellFormed s held) {group : TgPtr}
    (linked : s.graph.Linked (.tg group))
    (destroyed : (s.tg group).destroyed = true)
    (absent : .closing (.tg group) ∉ held)
    (staying : .leaving (s.tg group).tgid ∉ held) :
    WellFormed (unhashTg s group) (.ref (.tg group) ::ₘ held) := by
  have graph := State.graph_unhashTg s group
  have shrinks := Graph.shrinks_dropTg formed.graph group
  have keeps : Recorded s (unhashTg s group) :=
    .of_same rfl rfl rfl rfl rfl rfl rfl rfl
  have linkedTg (other : TgPtr) :
      (unhashTg s group).graph.Linked (.tg other) ↔
        s.graph.Linked (.tg other) ∧ other ≠ group := by
    rw [graph, shrinks.linked]
    simp
  refine ⟨?_, ?_, ?_, ?_⟩
  · rw [graph]
    exact (formed.graph.dropTg destroyed absent).mono (by simp)
  · rw [graph]
    exact formed.counted.shrink shrinks.used
      (Graph.owed_dropTg formed.graph linked)
  · refine (formed.procs.mono (by simp)).unhash linkedTg destroyed ?_
    simpa using staying
  · refine formed.laid.of_keeps formed.graph keeps
      (.of_keeps formed.graph keeps ?_ rfl rfl rfl
        (fun _ _ => rfl) (fun _ _ => rfl)) ?_
        (fun _ present unused => (unused present).elim)
        (fun _ present unused => (unused present).elim)
        (fun _ _ destroyed _ => Or.inl destroyed)
    · intro other
      have same : (unhashTg s group).graph.Linked (.att other) ↔
          s.graph.Linked (.att other) := Iff.rfl
      simp [State.Bound, same]
    · exact fun other present unlinked => (unlinked present).elim

end WellFormed

end Xpmem.Driver
