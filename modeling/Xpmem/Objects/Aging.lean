import Xpmem.Driver.Recorded
import Xpmem.Objects.Actions

/-!
# Objects do not come back

An action keeps the records of all objects that exist, links nothing but the
object it creates, and allocates nothing else.  So an object that was taken
off its lists stays off them, and an object that was freed is never freed
again.
-/

namespace Xpmem.Driver

open Xpmem.Foundation Xpmem.Kernel Xpmem.Objects

variable {K : Platform} {tidy : Prop} {s t u : State K} {held more : Held}

/-- Objects of `s` keep their records in `t`, and none of them comes back. -/
structure Ages (s t : State K) : Prop extends Recorded s t where
  linked : ∀ object, s.graph.Used object → t.graph.Linked object →
    s.graph.Linked object
  allocated : ∀ object, s.graph.Used object → t.allocated object = true →
    s.allocated object = true

namespace Ages

theorem used (ages : Ages s t) {object : Ref}
    (used : s.graph.Used object) : t.graph.Used object := by
  cases object with
  | tg => exact lt_of_lt_of_le used ages.nextTg
  | seg => exact lt_of_lt_of_le used ages.nextSeg
  | ap => exact lt_of_lt_of_le used ages.nextAp
  | att => exact lt_of_lt_of_le used ages.nextAtt

theorem refl (s : State K) : Ages s s where
  toRecorded := .refl s
  linked _ _ := id
  allocated _ _ := id

theorem trans (earlier : Ages s t) (later : Ages t u) : Ages s u where
  toRecorded := earlier.toRecorded.trans later.toRecorded
  linked object used linked :=
    earlier.linked object used
      (later.linked object (earlier.used used) linked)
  allocated object used alive :=
    earlier.allocated object used
      (later.allocated object (earlier.used used) alive)

/-- Address spaces, counters and page references are no objects. -/
theorem of_objects (same : t.objects = s.objects)
    (allocated : ∀ object, t.allocated object = true →
      s.allocated object = true) : Ages s t where
  tg group _ := congrArg (fun u => (u.tg group).record) same
  seg seg _ := congrArg (fun u => (u.seg seg).record) same
  ap permit _ := congrArg (fun u => (u.ap permit).record) same
  att att _ := congrArg (fun u => (u.att att).record) same
  nextTg := (congrArg State.nextTg same).ge
  nextSeg := (congrArg State.nextSeg same).ge
  nextAp := (congrArg State.nextAp same).ge
  nextAtt := (congrArg State.nextAtt same).ge
  tgDestroying group _ :=
    (congrArg (fun u => (u.tg group).destroying) same).trans
  tgDestroyed group _ :=
    (congrArg (fun u => (u.tg group).destroyed) same).trans
  segDestroying seg _ :=
    (congrArg (fun u => (u.seg seg).destroying) same).trans
  segDestroyed seg _ :=
    (congrArg (fun u => (u.seg seg).destroyed) same).trans
  apDestroying permit _ :=
    (congrArg (fun u => (u.ap permit).destroying) same).trans
  linked object _ linked := by
    rw [State.graph_eq_of_objects same] at linked
    exact linked
  allocated object _ := allocated object

theorem of_shape (same : t.shape = s.shape)
    (allocated : ∀ object, t.allocated object = true →
      s.allocated object = true) : Ages s t :=
  of_objects (objects_eq_of_shape same) allocated

theorem grow (recorded : Recorded s t) {new : Ref}
    (grows : Graph.Grows s.graph t.graph new)
    (allocated : ∀ object, t.allocated object =
      if object = new then true else s.allocated object) : Ages s t where
  toRecorded := recorded
  linked object used linked := by
    rcases (grows.linked object).mp linked with before | rfl
    · exact before
    · exact absurd used grows.unused
  allocated object used alive := by
    rw [allocated] at alive
    split at alive
    · rename_i equal
      exact absurd (equal ▸ used) grows.unused
    · exact alive

theorem shrink (recorded : Recorded s t)
    (linked : ∀ object, t.graph.Linked object → s.graph.Linked object)
    (allocated : t.allocated = s.allocated) : Ages s t where
  toRecorded := recorded
  linked object _ := linked object
  allocated _ _ alive := allocated ▸ alive

end Ages

theorem allocated_putPages (s : State K) (seg : SegPtr)
    (put : List (Nat × Frame)) :
    (putPages s seg put).allocated = s.allocated := by
  rw [putPages_eq]
  funext object
  cases object <;>
    simp [State.allocated, State.modTg, Function.update_apply]
  grind

theorem Recorded.flag (s : State K) {object : Ref} {value : Bool}
    (kind : value = true ∨ ∃ att, object = .att att) :
    Recorded s (s.flag object value) := by
  cases object with
  | tg group =>
      obtain rfl : value = true := by simpa using kind
      rw [State.flag]
      apply Recorded.modTg
      · rfl
      · exact fun _ => rfl
      · exact id
  | seg seg =>
      obtain rfl : value = true := by simpa using kind
      rw [State.flag]
      apply Recorded.modSeg
      · rfl
      · exact fun _ => rfl
      · exact id
  | ap permit =>
      obtain rfl : value = true := by simpa using kind
      rw [State.flag]
      apply Recorded.modAp
      · rfl
      · exact fun _ => rfl
  | att att =>
      rw [State.flag]
      apply Recorded.modAtt
      rfl

theorem Ages.flag (s : State K) {object : Ref} {value : Bool}
    (kind : value = true ∨ ∃ att, object = .att att) :
    Ages s (s.flag object value) where
  toRecorded := .flag s kind
  linked other _ linked := by
    rw [State.graph_flag] at linked
    cases other <;> exact linked
  allocated other _ alive := by
    rw [State.allocated_flag] at alive
    exact alive

theorem Ages.putPages (s : State K) (seg : SegPtr)
    (put : List (Nat × Frame)) : Ages s (putPages s seg put) :=
  .of_shape (shape_putPages s seg put) fun object alive => by
    rw [allocated_putPages] at alive
    exact alive

/-- Processes and notifiers are no objects. -/
theorem Ages.of_same (tg : t.tg = s.tg) (seg : t.seg = s.seg)
    (ap : t.ap = s.ap) (att : t.att = s.att)
    (nextTg : t.nextTg = s.nextTg) (nextSeg : t.nextSeg = s.nextSeg)
    (nextAp : t.nextAp = s.nextAp) (nextAtt : t.nextAtt = s.nextAtt)
    (hash : t.myPart.tgHashtable = s.myPart.tgHashtable) : Ages s t where
  toRecorded := .of_same tg seg ap att nextTg nextSeg nextAp nextAtt
  linked object _ linked := by
    cases object <;>
      simpa only [Graph.Linked, State.graph, tg, seg, ap, att, hash]
        using linked
  allocated object _ alive := by
    cases object <;>
      simpa only [State.allocated, tg, seg, ap, att] using alive

/-- Every action keeps what exists, and brings nothing back. -/
theorem Act.ages (act : Act tidy s held t more)
    (formed : WellFormed s held) : Ages s t := by
  have sound := formed.graph
  cases act with
  | minor same =>
      refine .of_shape (State.shape_eq_of_main same) fun object alive => ?_
      rw [State.allocated_eq_of_main same] at alive
      exact alive
  | ref object =>
      exact .of_shape (s.shape_ref object) fun other alive =>
        (s.allocated_ref object other).symm.trans alive
  | deref object =>
      refine .of_shape (s.shape_deref object) fun other alive => ?_
      rw [s.allocated_deref] at alive
      split at alive
      · cases alive
      · exact alive
  | flag object linked live => exact .flag s (Or.inl rfl)
  | unflag att => exact .flag s (Or.inr ⟨att, rfl⟩)
  | @openTg _ tgid mm cred =>
      refine .grow (.linkTg s tgid mm cred) ?_
        fun object => (counts_linkTg s tgid mm cred object).2
      rw [State.graph_linkTg sound]
      exact Graph.grows_addTg _
  | @makeSeg _ group vaddr size segid permitType permitValue linked live =>
      refine .grow (.linkSeg s group segid vaddr size permitType
        permitValue) ?_ fun object => (counts_linkSeg s group segid vaddr
          size permitType permitValue object).2
      rw [State.graph_linkSeg sound]
      exact Graph.grows_addSeg group (sound.used _ linked) live
  | @getAp _ seg group apid mode linked live =>
      refine .grow (.linkAp s seg group apid mode) ?_
        fun object => (counts_linkAp s seg group apid mode object).2
      rw [State.graph_linkAp sound]
      have alive := formed.counted.live_of_held
        (Multiset.mem_cons_self (Token.ref (.seg seg)) _)
      exact Graph.grows_addAp seg _ (formed.counted.used _ alive)
        (sound.used _ linked) live
  | @linkAtt _ permit mm segVaddr size linked live =>
      refine .grow (.attachLink s permit mm segVaddr size) ?_
        fun object => (counts_attachLink s permit mm segVaddr size
          object).2
      rw [State.graph_attachLink sound]
      exact Graph.grows_addAtt permit (sound.used _ linked) live
  | unlinkAtt att =>
      refine .shrink (.unlinkAtt s _ att) ?_ (counts_unlinkAtt s _ att).2
      intro object linked
      rw [State.graph_unlinkAtt,
        (Graph.shrinks_dropAtt sound att).linked] at linked
      exact linked.1
  | @unlinkAp _ permit empty =>
      refine .shrink (.unlinkAp s _ permit) ?_
        (counts_unlinkAp s _ permit).2
      intro object linked
      have finished : (s.graph.finish (.ap permit)).Sound _ :=
        sound.finish (by simp) empty
      rw [State.graph_unlinkAp,
        (Graph.shrinks_dropAp finished permit).linked,
        Graph.finish_linked_iff] at linked
      exact linked.1
  | @unlinkSeg _ seg cleared =>
      refine .shrink (.unlinkSeg s _ seg) ?_ (counts_unlinkSeg s _ seg).2
      intro object linked
      have finished : (s.graph.finish (.seg seg)).Sound _ :=
        sound.finish (by simp) trivial
      rw [State.graph_unlinkSeg,
        (Graph.shrinks_dropSeg finished seg).linked,
        Graph.finish_linked_iff] at linked
      exact linked.1
  | @finishTg _ group =>
      refine .shrink (.modTg rfl id fun _ => rfl) ?_
        (counts_finishTg s group).2
      intro object linked
      rw [State.graph_finishTg, Graph.finish_linked_iff] at linked
      exact linked
  | @unhash _ group =>
      refine .shrink (.of_same rfl rfl rfl rfl rfl rfl rfl rfl) ?_ rfl
      intro object linked
      rw [State.graph_unhashTg,
        (Graph.shrinks_dropTg sound group).linked] at linked
      exact linked.1
  | @bind _ att mm area =>
      refine .of_objects (s.objects_attachBind mm att _ area)
        fun object alive => ?_
      rw [(State.counts_attachBind s mm att _ area).2] at alive
      exact alive
  | @untie _ att area put =>
      exact .trans (.putPages s (s.segOf att) put)
        (.of_same rfl rfl rfl rfl rfl rfl rfl rfl rfl)
  | @clear _ att first count put =>
      exact .trans (.putPages s (s.segOf att) put)
        (.of_same rfl rfl rfl rfl rfl rfl rfl rfl rfl)
  | stray seg put => exact .putPages s seg put
  | setValid att value =>
      refine .of_objects (s.objects_modAtt att rfl) fun object alive => ?_
      rw [(s.counts_setValid att value).2] at alive
      exact alive
  | @pin _ group frame =>
      refine .of_shape (shape_countPin s group frame) fun object alive => ?_
      cases object <;>
        simp_all [State.countPin, State.allocated, State.modTg,
          Function.update_apply]
      grind
  | putBack seg page frame => exact .putPages s seg _
  | _ => exact .of_same rfl rfl rfl rfl rfl rfl rfl rfl rfl

end Xpmem.Driver
