import Xpmem.Driver.Make
import Xpmem.Foundation.Cursor
import Xpmem.Foundation.Threads

/-!
# The fork window

`xpmem_fork_begin` disallows the blocking of recalls and recalls the PFNs of
all segments of its thread group; until `xpmem_fork_end` a fault on one of
these segments waits.  `xpmem_fault_handler` gives up the block and the
segment's semaphore before it inserts its PTE and holds only `att->mutex`
then, while the recall looks at `XPMEM_FLAG_VALIDPTEs` before it asks for
that mutex.

The model is of one thread group and its segments, with threads of any
processes that make segments, get permits, attach, fault, detach and fork, a
lock-protected step at a time.  Calls that fail before they change anything
are left out, and the size of an attach is that rounded up to pages.  The
pages of an attachment are numbered from zero, and each attachment has an
area of its own.
-/

namespace Xpmem.Concurrent.ForkWindow

open Driver Foundation Kernel

universe u

/-- A segment. -/
structure Segment where
  vaddr : Nat := 0
  size : Nat := 0
  /-- `XPMEM_FLAG_RECALLINGPFNS`. -/
  recallingPFNs : Bool := false
  /-- `sema`: the number of readers, and whether there is a writer. -/
  readers : Nat := 0
  writer : Bool := false
  apList : List Nat := []

/-- An access permit. -/
structure AccessPermit where
  seg : Nat := 0
  attList : List Nat := []

/-- An attachment. -/
structure Attachment where
  ap : Nat := 0
  vaddr : Nat := 0
  atSize : Nat := 0
  mutex : Bool := false
  destroying : Bool := false
  validPTEs : Bool := false
  /-- There is an area whose `vm_private_data` is the attachment. -/
  mapped : Bool := false
  /-- The pages with a PTE. -/
  pte : Nat → Bool := fun _ => false

/-- What the threads share. -/
structure Shared where
  nRecallPFNs : Int := 0
  recallPFNsMutex : Bool := false
  segList : List Nat := []
  seg : Nat → Segment := fun _ => {}
  ap : Nat → AccessPermit := fun _ => {}
  att : Nat → Attachment := fun _ => {}
  /-- The objects made so far are those below. -/
  nextSeg : Nat := 0
  nextAp : Nat := 0
  nextAtt : Nat := 0

/-- What a fault leaves with. -/
inductive Outcome where
  /-- Without `att->mutex`. -/
  | bare
  /-- With the mutex, but without a PFN. -/
  | failed
  /-- With the mutex and a PFN. -/
  | pinned
deriving DecidableEq

/-- Where a thread is. -/
inductive Place where
  | idle
  -- `xpmem_attach` with the semaphore, and with the new attachment's mutex
  | attach (ap : Nat) (offset size : BitVec 64)
  | attachMap (att : Nat)
  | attachUpRead (seg : Nat)
  -- `xpmem_fault_handler`: about to block, with the block, with the
  -- semaphore, with the mutex; and giving these up again
  | fault (att page : Nat)
  | faultDownRead (att page : Nat)
  | faultLock (att page : Nat)
  | faultPin (att page : Nat)
  | faultUpRead (att page : Nat) (outcome : Outcome)
  | faultUnblock (att page : Nat) (outcome : Outcome)
  | faultInsert (att page : Nat) (outcome : Outcome)
  -- `xpmem_detach` with the mutex, before and after it marks the attachment,
  -- after it unlinked it, and at `vm_munmap`
  | detach (att : Nat)
  | detachOwner (att : Nat)
  | detachUnlock (att : Nat)
  | detachUnmap (att : Nat)
  | unlock (att : Nat)
  -- `xpmem_fork_begin`, and `xpmem_recall_PFNs_of_tg` from its mutex on
  | disallow
  | recallOfTg
  | recallSegs (cursor : Option Nat)
  | recallSeg (seg : Nat)
  | recallDownWrite (seg : Nat)
  -- `xpmem_clear_PTEs` of a segment, of a permit and of an attachment
  | clearAps (seg : Nat) (cursor : Option Nat)
  | clearAtts (seg ap : Nat) (cursor : Option Nat)
  | clearLock (seg ap att : Nat)
  | clear (seg ap att : Nat)
  | clearUnlock (seg ap att : Nat)
  -- between `xpmem_fork_begin` and `xpmem_fork_end`
  | window
deriving DecidableEq

/-- What a thread does next, where its place leaves that open. -/
inductive Choice where
  | make (vaddr size : BitVec 64)
  | get (seg : Nat)
  | attach (ap : Nat) (offset size : BitVec 64)
  | fault (att page : Nat)
  | detach (att : Nat)
  | forkBegin
  /-- Goes on; `yes` when a call succeeds that can fail. -/
  | go (yes : Bool)
deriving DecidableEq

namespace Shared

/-- Changes a segment. -/
def modSeg (s : Shared) (seg : Nat) (change : Segment → Segment) : Shared :=
  { s with seg := Function.update s.seg seg (change (s.seg seg)) }

/-- Changes a permit. -/
def modAp (s : Shared) (ap : Nat) (change : AccessPermit → AccessPermit) :
    Shared :=
  { s with ap := Function.update s.ap ap (change (s.ap ap)) }

/-- Changes an attachment. -/
def modAtt (s : Shared) (att : Nat) (change : Attachment → Attachment) :
    Shared :=
  { s with att := Function.update s.att att (change (s.att att)) }

/-- Adds to `n_recall_PFNs`. -/
def add (s : Shared) (change : Int) : Shared :=
  { s with nRecallPFNs := s.nRecallPFNs + change }

/-- The segment of an attachment. -/
def segOf (s : Shared) (att : Nat) : Nat :=
  (s.ap (s.att att).ap).seg

/-- `down_read` and `up_read` of a segment's semaphore. -/
def downRead (s : Shared) (seg : Nat) : Shared :=
  s.modSeg seg fun seg => { seg with readers := seg.readers + 1 }

@[inherit_doc downRead]
def upRead (s : Shared) (seg : Nat) : Shared :=
  s.modSeg seg fun seg => { seg with readers := seg.readers - 1 }

/-- `mutex_lock` and `mutex_unlock` of an attachment's mutex. -/
def lock (s : Shared) (att : Nat) : Shared :=
  s.modAtt att fun att => { att with mutex := true }

@[inherit_doc lock]
def unlock (s : Shared) (att : Nat) : Shared :=
  s.modAtt att fun att => { att with mutex := false }

/-- A new segment, at the end of the group's list. -/
def linkSeg (s : Shared) (vaddr size : Nat) : Shared :=
  { s with
    seg := Function.update s.seg s.nextSeg { vaddr, size }
    segList := s.segList ++ [s.nextSeg]
    nextSeg := s.nextSeg + 1 }

/-- A new permit, at the end of its segment's list. -/
def linkAp (s : Shared) (seg : Nat) : Shared :=
  { s.modSeg seg fun seg => { seg with apList := seg.apList ++ [s.nextAp] } with
    ap := Function.update s.ap s.nextAp { seg }
    nextAp := s.nextAp + 1 }

/-- A new attachment with its mutex locked, at the end of its permit's list. -/
def linkAtt (s : Shared) (ap vaddr size : Nat) : Shared :=
  { s.modAp ap fun ap => { ap with attList := ap.attList ++ [s.nextAtt] } with
    att := Function.update s.att s.nextAtt
      { ap, vaddr, atSize := size, mutex := true }
    nextAtt := s.nextAtt + 1 }

/-- Takes an attachment off its permit's list. -/
def unlinkAtt (s : Shared) (att : Nat) : Shared :=
  s.modAp (s.att att).ap fun ap => { ap with attList := ap.attList.erase att }

end Shared

/-- `xpmem_clear_PTEs_of_att` for the range of a segment. -/
def Attachment.clear (att : Attachment) (seg : Segment) : Attachment :=
  if !att.validPTEs then att
  else
    let attVaddrEnd := u64 (att.vaddr + att.atSize)
    let invalidateStart := max seg.vaddr att.vaddr
    let invalidateEnd := min (u64 (seg.vaddr + seg.size)) attVaddrEnd
    if attVaddrEnd ≤ invalidateStart ∨ invalidateEnd ≤ att.vaddr then att
    else
      let offsetStart := u64Sub invalidateStart att.vaddr
      let offsetEnd := u64Sub invalidateEnd att.vaddr
      let invalidateLen := u64Sub offsetEnd offsetStart
      { att with
        pte := fun page =>
          if offsetStart ≤ page * pageSize ∧
              page * pageSize < offsetStart + invalidateLen then false
          else att.pte page
        validPTEs :=
          if offsetStart = 0 ∧ att.atSize = invalidateLen then false
          else att.validPTEs }

/-- A thread calls into the driver or faults. -/
def call (K : Platform) (s : Shared) : Choice → Option (Shared × Place)
  | .make vaddr size =>
      match makeSize K.taskSize vaddr.toNat size.toNat with
      | none => none
      | some length =>
          if size = 0 ∨ offsetInPage vaddr.toNat ≠ 0 ∨
              offsetInPage length ≠ 0 then none
          else some (s.linkSeg vaddr.toNat length, .idle)
  | .get seg =>
      if seg ∈ s.segList then some (s.linkAp seg, .idle) else none
  | .attach ap offset size =>
      if ap < s.nextAp ∧ offsetInPage offset.toNat = 0 ∧
          offsetInPage size.toNat = 0 ∧
          (s.seg (s.ap ap).seg).writer = false then
        some (s.downRead (s.ap ap).seg, .attach ap offset size)
      else none
  | .fault att page =>
      if (s.att att).mapped ∧ page * pageSize < (s.att att).atSize then
        some (s, .fault att page)
      else none
  | .detach att =>
      if (s.att att).mapped ∧ (s.att att).mutex = false then
        some (s.lock att, .detach att)
      else none
  | .forkBegin => some (s, .disallow)
  | .go _ => none

/-- A thread goes on with what it does. -/
def work (K : Platform) (s : Shared) (yes : Bool) :
    Place → Option (Shared × Place)
  | .idle => none
  | .attach ap offset size =>
      if offset.toInt < 0 ∨ size = 0 ∨
          (s.seg (s.ap ap).seg).size < u64 (offset.toNat + size.toNat) then
        some (s, .attachUpRead (s.ap ap).seg)
      else
        some (s.linkAtt ap
          (u64 ((s.seg (s.ap ap).seg).vaddr + offset.toNat)) size.toNat,
          .attachMap s.nextAtt)
  | .attachMap att =>
      -- `vm_mmap` fails for a size above `TASK_SIZE`
      if yes ∧ (s.att att).atSize ≤ K.taskSize then
        some (s.modAtt att fun att =>
            { att with mapped := true, mutex := false },
          .attachUpRead (s.segOf att))
      else
        some ((s.unlinkAtt att).modAtt att fun att =>
            { att with destroying := true, mutex := false },
          .attachUpRead (s.segOf att))
  | .attachUpRead seg => some (s.upRead seg, .idle)
  | .fault att page =>
      if s.nRecallPFNs ≤ 0 then some (s.add (-1), .faultDownRead att page)
      else none
  | .faultDownRead att page =>
      if yes then
        if (s.seg (s.segOf att)).writer then none
        else some (s.downRead (s.segOf att), .faultLock att page)
      else some (s.add 1, .fault att page)
  | .faultLock att page =>
      if yes then
        if (s.att att).mutex then none
        else some (s.lock att, .faultPin att page)
      else some (s, .faultUpRead att page .bare)
  | .faultPin att page =>
      if yes ∧ (s.att att).destroying = false then
        some (s.modAtt att fun att => { att with validPTEs := true },
          .faultUpRead att page .pinned)
      else some (s, .faultUpRead att page .failed)
  | .faultUpRead att page outcome =>
      some (s.upRead (s.segOf att), .faultUnblock att page outcome)
  | .faultUnblock att page outcome =>
      some (s.add 1, .faultInsert att page outcome)
  | .faultInsert att page outcome =>
      match outcome with
      | .bare => some (s, .idle)
      | .failed => some (s, .unlock att)
      | .pinned =>
          if yes then
            some (s.modAtt att fun att =>
              { att with pte := Function.update att.pte page true },
              .unlock att)
          else some (s, .unlock att)
  | .unlock att => some (s.unlock att, .idle)
  | .detach att =>
      if (s.att att).destroying then some (s, .unlock att)
      else
        some (s.modAtt att fun att => { att with destroying := true },
          .detachOwner att)
  | .detachOwner att =>
      if yes then
        some ((s.unlinkAtt att).modAtt att fun att =>
            { att with validPTEs := false, mapped := false },
          .detachUnlock att)
      else
        some (s.modAtt att fun att => { att with destroying := false },
          .unlock att)
  | .detachUnlock att => some (s.unlock att, .detachUnmap att)
  | .detachUnmap att =>
      some (s.modAtt att fun att => { att with pte := fun _ => false }, .idle)
  | .disallow =>
      if 0 ≤ s.nRecallPFNs then some (s.add 1, .recallOfTg) else none
  | .recallOfTg =>
      if s.recallPFNsMutex then none
      else some ({ s with recallPFNsMutex := true }, .recallSegs none)
  | .recallSegs cursor =>
      match rest cursor s.segList with
      | [] => some ({ s with recallPFNsMutex := false }, .window)
      | seg :: _ => some (s, .recallSeg seg)
  | .recallSeg seg =>
      if (s.seg seg).recallingPFNs then none
      else
        some (s.modSeg seg fun seg => { seg with recallingPFNs := true },
          .recallDownWrite seg)
  | .recallDownWrite seg =>
      if (s.seg seg).readers = 0 ∧ (s.seg seg).writer = false then
        some (s.modSeg seg fun seg => { seg with writer := true },
          .clearAps seg none)
      else none
  | .clearAps seg cursor =>
      match rest cursor (s.seg seg).apList with
      | [] =>
          some (s.modSeg seg fun seg =>
              { seg with recallingPFNs := false, writer := false },
            .recallSegs (some seg))
      | ap :: _ => some (s, .clearAtts seg ap none)
  | .clearAtts seg ap cursor =>
      -- an attachment without the flag is passed over at once
      match (rest cursor (s.ap ap).attList).find? fun att =>
          (s.att att).validPTEs with
      | none => some (s, .clearAps seg (some ap))
      | some att => some (s, .clearLock seg ap att)
  | .clearLock seg ap att =>
      if (s.att att).mutex then none
      else some (s.lock att, .clear seg ap att)
  | .clear seg ap att =>
      some (s.modAtt att fun att => att.clear (s.seg seg),
        .clearUnlock seg ap att)
  | .clearUnlock seg ap att =>
      some (s.unlock att, .clearAtts seg ap (some att))
  | .window => some (s.add (-1), .idle)

/-- One step of a thread. -/
def act (K : Platform) (s : Shared) : Place → Choice → Option (Shared × Place)
  | .idle, choice => call K s choice
  | place, .go yes => work K s yes place
  | _, _ => none

variable {K : Platform} {s next : Shared} {place place' : Place}
    {choice : Choice}

namespace Shared

theorem att_modAtt (att : Nat) (change : Attachment → Attachment)
    (other : Nat) :
    (s.modAtt att change).att other =
      if other = att then change (s.att att) else s.att other :=
  Function.update_apply ..

theorem ap_modAp (ap : Nat) (change : AccessPermit → AccessPermit)
    (other : Nat) :
    (s.modAp ap change).ap other =
      if other = ap then change (s.ap ap) else s.ap other :=
  Function.update_apply ..

theorem seg_modSeg (seg : Nat) (change : Segment → Segment) (other : Nat) :
    (s.modSeg seg change).seg other =
      if other = seg then change (s.seg seg) else s.seg other :=
  Function.update_apply ..

end Shared

/-! ## The block and the mutexes -/

/-- The thread holds the block of recalls. -/
def Place.blocks : Place → Bool
  | .faultDownRead .. | .faultLock .. | .faultPin .. | .faultUpRead ..
  | .faultUnblock .. => true
  | _ => false

/-- The thread is from the recall of a fork to the end of the fork. -/
def Place.forks : Place → Bool
  | .recallOfTg | .recallSegs _ | .recallSeg _ | .recallDownWrite _
  | .clearAps .. | .clearAtts .. | .clearLock .. | .clear ..
  | .clearUnlock .. | .window => true
  | _ => false

theorem gate_act (moved : act K s place choice = some (next, place')) :
    Threads.GateStep s.nRecallPFNs place.forks place.blocks
      next.nRecallPFNs place'.forks place'.blocks := by
  revert moved
  fun_cases act K s place choice
  case case1 =>
    fun_cases call K s choice <;> intro moved <;>
      simp only [Option.some.injEq, Prod.mk.injEq, reduceCtorEq] at moved <;>
      obtain ⟨rfl, rfl⟩ := moved <;>
      exact .keep rfl Iff.rfl Iff.rfl
  case case2 yes _ =>
    fun_cases work K s yes place <;> intro moved <;>
      simp only [Option.some.injEq, Prod.mk.injEq, reduceCtorEq] at moved <;>
      obtain ⟨rfl, rfl⟩ := moved <;>
      rw [Threads.gateStep_iff] <;>
      simp only [Place.blocks, Place.forks, Shared.add, Shared.linkAtt,
        Shared.unlinkAtt, Shared.downRead, Shared.upRead, Shared.lock,
        Shared.unlock, Shared.modSeg, Shared.modAp, Shared.modAtt] <;>
      grind
  case case3 => simp

/-- The thread holds the mutex of an attachment. -/
def Place.locks (att : Nat) : Place → Prop
  | .attachMap other | .faultPin other _ | .detach other
  | .detachOwner other | .detachUnlock other | .unlock other
  | .clear _ _ other | .clearUnlock _ _ other => other = att
  | .faultUpRead other _ outcome | .faultUnblock other _ outcome
  | .faultInsert other _ outcome => other = att ∧ outcome ≠ .bare
  | _ => False

theorem Attachment.clear_mutex (att : Attachment) (seg : Segment) :
    (att.clear seg).mutex = att.mutex := by
  unfold Attachment.clear
  extract_lets
  split_ifs <;> rfl

theorem mutex_act (moved : act K s place choice = some (next, place'))
    (new : (s.att s.nextAtt).mutex = false) (att : Nat) :
    Threads.LockStep (s.att att).mutex (place.locks att)
      (next.att att).mutex (place'.locks att) := by
  revert moved
  fun_cases act K s place choice
  case case1 =>
    fun_cases call K s choice <;> intro moved <;>
      simp only [Option.some.injEq, Prod.mk.injEq, reduceCtorEq] at moved <;>
      obtain ⟨rfl, rfl⟩ := moved
    case case10 =>
      rw [Threads.lockStep_iff]
      simp only [Place.locks, Shared.lock, Shared.att_modAtt]
      grind
    all_goals exact .keep rfl id
  case case2 yes _ =>
    fun_cases work K s yes place <;> intro moved <;>
      simp only [Option.some.injEq, Prod.mk.injEq, reduceCtorEq] at moved <;>
      obtain ⟨rfl, rfl⟩ := moved <;>
      rw [Threads.lockStep_iff] <;>
      simp only [Place.locks, Shared.add, Shared.linkAtt, Shared.unlinkAtt,
        Shared.downRead, Shared.upRead, Shared.lock, Shared.unlock,
        Shared.modSeg, Shared.modAp, Shared.att_modAtt,
        Function.update_apply] <;>
      grind [Attachment.clear_mutex]
  case case3 => simp

/-! ## The lists -/

/-- What a segment is made with. -/
def Segment.range (seg : Segment) : Nat × Nat :=
  (seg.vaddr, seg.size)

/-- What an attachment is made with. -/
def Attachment.window (att : Attachment) : Nat × Nat × Nat :=
  (att.ap, att.vaddr, att.atSize)

/-- The objects a thread works on are there, and belong to each other. -/
def Place.Known (s : Shared) : Place → Prop
  | .attach ap _ _ => ap < s.nextAp
  | .attachMap att | .fault att _ | .faultDownRead att _ | .faultLock att _
  | .faultPin att _ | .faultUpRead att _ _ | .faultUnblock att _ _
  | .faultInsert att _ _ | .detach att | .detachOwner att
  | .detachUnlock att | .detachUnmap att | .unlock att => att < s.nextAtt
  | .recallSegs cursor => ∀ seg ∈ cursor, seg < s.nextSeg
  | .recallSeg seg | .recallDownWrite seg => seg < s.nextSeg
  | .clearAps seg cursor => seg < s.nextSeg ∧ ∀ ap ∈ cursor, ap < s.nextAp
  | .clearAtts seg ap cursor =>
      seg < s.nextSeg ∧ (ap < s.nextAp ∧ (s.ap ap).seg = seg) ∧
        ∀ att ∈ cursor, att < s.nextAtt
  | .clearLock seg ap att | .clear seg ap att | .clearUnlock seg ap att =>
      seg < s.nextSeg ∧ (ap < s.nextAp ∧ (s.ap ap).seg = seg) ∧
        att < s.nextAtt ∧ (s.att att).ap = ap
  | _ => True

/-- The lists hold what was made, and new objects are blank. -/
structure Listed (s : Shared) : Prop where
  segs : s.segList = List.range s.nextSeg
  aps (seg ap : Nat) :
    ap ∈ (s.seg seg).apList ↔ ap < s.nextAp ∧ (s.ap ap).seg = seg
  aps_nodup (seg : Nat) : (s.seg seg).apList.Nodup
  atts {ap att : Nat} (member : att ∈ (s.ap ap).attList) :
    att < s.nextAtt ∧ (s.att att).ap = ap
  atts_nodup (ap : Nat) : (s.ap ap).attList.Nodup
  ap_seg {ap : Nat} (made : ap < s.nextAp) : (s.ap ap).seg < s.nextSeg
  att_ap {att : Nat} (made : att < s.nextAtt) : (s.att att).ap < s.nextAp
  new_att {att : Nat} (new : s.nextAtt ≤ att) :
    (s.att att).mutex = false ∧ (s.att att).mapped = false ∧
      (s.att att).validPTEs = false ∧ ∀ page, (s.att att).pte page = false

/-- What a step does to the lists; what objects are made with stays. -/
structure Relists (s t : Shared) : Prop where
  seg_list : Relisted s.nextSeg s.segList t.segList
  ap_list (seg : Nat) :
    Relisted s.nextAp (s.seg seg).apList (t.seg seg).apList
  att_list (ap : Nat) :
    Relisted s.nextAtt (s.ap ap).attList (t.ap ap).attList
  range {seg : Nat} (made : seg < s.nextSeg) :
    (t.seg seg).range = (s.seg seg).range
  ap_seg {ap : Nat} (made : ap < s.nextAp) : (t.ap ap).seg = (s.ap ap).seg
  window {att : Nat} (made : att < s.nextAtt) :
    (t.att att).window = (s.att att).window
  nextSeg : s.nextSeg ≤ t.nextSeg
  nextAp : s.nextAp ≤ t.nextAp
  nextAtt : s.nextAtt ≤ t.nextAtt

theorem Relists.att_ap {t : Shared} (relists : Relists s t) {att : Nat}
    (made : att < s.nextAtt) : (t.att att).ap = (s.att att).ap :=
  congrArg Prod.fst (relists.window made)

theorem Place.Known.mono {t : Shared} (known : place.Known s)
    (relists : Relists s t) : place.Known t := by
  have segs := relists.nextSeg
  have aps := relists.nextAp
  have atts := relists.nextAtt
  have ap_seg (ap : Nat) (made : ap < s.nextAp) := relists.ap_seg made
  have att_ap (att : Nat) (made : att < s.nextAtt) := relists.att_ap made
  cases place <;> simp only [Place.Known] at known ⊢ <;> grind

theorem Attachment.clear_window (att : Attachment) (seg : Segment) :
    (att.clear seg).window = att.window := by
  unfold Attachment.clear Attachment.window
  extract_lets
  split_ifs <;> rfl

theorem Listed.modAtt (listed : Listed s) {att : Nat}
    {change : Attachment → Attachment} (made : att < s.nextAtt)
    (same : (change (s.att att)).window = (s.att att).window) :
    Listed (s.modAtt att change) ∧ Relists s (s.modAtt att change) := by
  have window (other : Nat) :
      ((s.modAtt att change).att other).window = (s.att other).window := by
    rw [Shared.att_modAtt]
    split_ifs with equal
    · rw [equal, same]
    · rfl
  have ap (other : Nat) :
      ((s.modAtt att change).att other).ap = (s.att other).ap :=
    congrArg Prod.fst (window other)
  refine ⟨⟨listed.segs, listed.aps, listed.aps_nodup, ?_,
    listed.atts_nodup, listed.ap_seg, ?_, ?_⟩,
    ⟨.same, fun _ => .same, fun _ => .same, fun _ => rfl, fun _ => rfl,
      fun _ => window _, le_rfl, le_rfl, le_rfl⟩⟩
  · intro permit other member
    rw [ap]
    exact listed.atts member
  · intro other below
    rw [ap]
    exact listed.att_ap below
  · intro other new
    rw [Shared.att_modAtt, if_neg (made.trans_le new).ne']
    exact listed.new_att new

theorem Listed.modSeg (listed : Listed s) {seg : Nat}
    {change : Segment → Segment}
    (same : (change (s.seg seg)).apList = (s.seg seg).apList)
    (range : (change (s.seg seg)).range = (s.seg seg).range) :
    Listed (s.modSeg seg change) ∧ Relists s (s.modSeg seg change) := by
  have list (other : Nat) :
      ((s.modSeg seg change).seg other).apList = (s.seg other).apList := by
    rw [Shared.seg_modSeg]
    split_ifs with equal
    · rw [equal, same]
    · rfl
  refine ⟨⟨listed.segs, fun other permit => ?_, fun other => ?_, listed.atts,
    listed.atts_nodup, listed.ap_seg, listed.att_ap, listed.new_att⟩,
    ⟨.same, fun other => ?_, fun _ => .same, fun {other} _ => ?_,
      fun _ => rfl, fun _ => rfl, le_rfl, le_rfl, le_rfl⟩⟩
  · rw [list]
    exact listed.aps other permit
  · rw [list]
    exact listed.aps_nodup other
  · rw [list]
    exact .same
  · rw [Shared.seg_modSeg]
    split_ifs with equal
    · rw [equal, range]
    · rfl

theorem Listed.add (listed : Listed s) (change : Int) :
    Listed (s.add change) ∧ Relists s (s.add change) :=
  ⟨⟨listed.segs, listed.aps, listed.aps_nodup, listed.atts,
    listed.atts_nodup, listed.ap_seg, listed.att_ap, listed.new_att⟩,
    ⟨.same, fun _ => .same, fun _ => .same, fun _ => rfl, fun _ => rfl,
      fun _ => rfl, le_rfl, le_rfl, le_rfl⟩⟩

theorem Listed.recallPFNsMutex (listed : Listed s) (held : Bool) :
    Listed { s with recallPFNsMutex := held } ∧
      Relists s { s with recallPFNsMutex := held } :=
  ⟨⟨listed.segs, listed.aps, listed.aps_nodup, listed.atts,
    listed.atts_nodup, listed.ap_seg, listed.att_ap, listed.new_att⟩,
    ⟨.same, fun _ => .same, fun _ => .same, fun _ => rfl, fun _ => rfl,
      fun _ => rfl, le_rfl, le_rfl, le_rfl⟩⟩

theorem Listed.downRead (listed : Listed s) (seg : Nat) :
    Listed (s.downRead seg) ∧ Relists s (s.downRead seg) :=
  listed.modSeg rfl rfl

theorem Listed.upRead (listed : Listed s) (seg : Nat) :
    Listed (s.upRead seg) ∧ Relists s (s.upRead seg) :=
  listed.modSeg rfl rfl

theorem Listed.lock (listed : Listed s) {att : Nat}
    (made : att < s.nextAtt) :
    Listed (s.lock att) ∧ Relists s (s.lock att) :=
  listed.modAtt made rfl

theorem Listed.unlock (listed : Listed s) {att : Nat}
    (made : att < s.nextAtt) :
    Listed (s.unlock att) ∧ Relists s (s.unlock att) :=
  listed.modAtt made rfl

theorem Listed.linkSeg (listed : Listed s) (vaddr size : Nat) :
    Listed (s.linkSeg vaddr size) ∧ Relists s (s.linkSeg vaddr size) := by
  have empty : (s.seg s.nextSeg).apList = [] :=
    List.eq_nil_iff_forall_not_mem.mpr fun permit member => by
      obtain ⟨made, same⟩ := (listed.aps s.nextSeg permit).mp member
      exact (listed.ap_seg made).ne same
  have list (other : Nat) :
      ((s.linkSeg vaddr size).seg other).apList = (s.seg other).apList := by
    simp only [Shared.linkSeg, Function.update_apply]
    split_ifs with equal
    · rw [equal, empty]
    · rfl
  refine ⟨⟨?_, fun other permit => ?_, fun other => ?_, listed.atts,
    listed.atts_nodup, fun made => Nat.lt_succ_of_lt (listed.ap_seg made),
    listed.att_ap, listed.new_att⟩,
    ⟨.append, fun other => ?_, fun _ => .same, fun below => ?_,
      fun _ => rfl, fun _ => rfl, Nat.le_succ _, le_rfl, le_rfl⟩⟩
  · simp only [Shared.linkSeg, listed.segs, List.range_succ]
  · rw [list]
    exact listed.aps other permit
  · rw [list]
    exact listed.aps_nodup other
  · rw [list]
    exact .same
  · simp only [Shared.linkSeg, Function.update_of_ne below.ne]

theorem Listed.linkAp (listed : Listed s) {seg : Nat}
    (made : seg ∈ s.segList) :
    Listed (s.linkAp seg) ∧ Relists s (s.linkAp seg) := by
  rw [listed.segs, List.mem_range] at made
  have empty : (s.ap s.nextAp).attList = [] :=
    List.eq_nil_iff_forall_not_mem.mpr fun att member => by
      obtain ⟨below, same⟩ := listed.atts member
      exact (listed.att_ap below).ne same
  have list (other : Nat) :
      ((s.linkAp seg).ap other).attList = (s.ap other).attList := by
    simp only [Shared.linkAp, Function.update_apply]
    split_ifs with equal
    · rw [equal, empty]
    · rfl
  have permits (other : Nat) : ((s.linkAp seg).seg other).apList =
      if other = seg then (s.seg seg).apList ++ [s.nextAp]
      else (s.seg other).apList := by
    simp only [Shared.linkAp, Shared.seg_modSeg, apply_ite Segment.apList]
  have ap (other : Nat) : ((s.linkAp seg).ap other).seg =
      if other = s.nextAp then seg else (s.ap other).seg := by
    simp only [Shared.linkAp, Function.update_apply,
      apply_ite AccessPermit.seg]
  have same {other : Nat} (below : other < s.nextAp) :
      ((s.linkAp seg).ap other).seg = (s.ap other).seg := by
    rw [ap, if_neg below.ne]
  have members := listed.aps
  refine ⟨⟨listed.segs, fun other permit => ?_, fun other => ?_, ?_,
    fun other => ?_, ?_, fun below => Nat.lt_succ_of_lt (listed.att_ap below),
    listed.new_att⟩,
    ⟨.same, fun other => ?_, fun other => ?_, fun {other} _ => ?_, same,
      fun _ => rfl, le_rfl, Nat.le_succ _, le_rfl⟩⟩
  · rw [permits, ap]
    change _ ↔ permit < s.nextAp + 1 ∧ _
    grind
  · rw [permits]
    split_ifs
    · rw [← List.concat_eq_append]
      exact (listed.aps_nodup seg).concat fun member =>
        ((members seg s.nextAp).mp member).1.false
    · exact listed.aps_nodup other
  · intro other att member
    rw [list] at member
    exact listed.atts member
  · rw [list]
    exact listed.atts_nodup other
  · intro other below
    rw [ap]
    split_ifs with equal
    · exact made
    · exact listed.ap_seg
        (lt_of_le_of_ne (Nat.le_of_lt_succ below) equal)
  · rw [permits]
    split_ifs with equal
    · rw [equal]
      exact .append
    · exact .same
  · rw [list]
    exact .same
  · simp only [Shared.linkAp, Shared.seg_modSeg]
    split_ifs with equal
    · rw [equal]
      rfl
    · rfl

theorem Listed.linkAtt (listed : Listed s) {ap : Nat}
    (made : ap < s.nextAp) (vaddr size : Nat) :
    Listed (s.linkAtt ap vaddr size) ∧
      Relists s (s.linkAtt ap vaddr size) := by
  have list (other : Nat) : ((s.linkAtt ap vaddr size).ap other).attList =
      if other = ap then (s.ap ap).attList ++ [s.nextAtt]
      else (s.ap other).attList := by
    simp only [Shared.linkAtt, Shared.ap_modAp,
      apply_ite AccessPermit.attList]
  have seg (other : Nat) : ((s.linkAtt ap vaddr size).ap other).seg =
      (s.ap other).seg := by
    simp only [Shared.linkAtt, Shared.ap_modAp]
    split_ifs with equal
    · rw [equal]
    · rfl
  have att {other : Nat} (old : other ≠ s.nextAtt) :
      (s.linkAtt ap vaddr size).att other = s.att other :=
    Function.update_of_ne old ..
  have new : ((s.linkAtt ap vaddr size).att s.nextAtt).ap = ap := by
    simp only [Shared.linkAtt, Function.update_self]
  refine ⟨⟨listed.segs, fun other permit => ?_, listed.aps_nodup, ?_,
    fun other => ?_, fun below => ?_, ?_, ?_⟩,
    ⟨.same, fun _ => .same, fun other => ?_, fun _ => rfl, fun _ => seg _,
      fun below => ?_, le_rfl, le_rfl, Nat.le_succ _⟩⟩
  · rw [seg]
    exact listed.aps other permit
  · intro other attached member
    change _ < s.nextAtt + 1 ∧ _
    by_cases equal : attached = s.nextAtt
    · have old : s.nextAtt ∉ (s.ap other).attList :=
        fun member => (listed.atts member).1.false
      rw [list, equal] at member
      rw [equal, new]
      grind
    · rw [att equal]
      have before : attached ∈ (s.ap other).attList := by
        rw [list] at member
        grind
      exact ⟨Nat.lt_succ_of_lt (listed.atts before).1,
        (listed.atts before).2⟩
  · rw [list]
    split_ifs
    · rw [← List.concat_eq_append]
      exact (listed.atts_nodup ap).concat fun member =>
        (listed.atts member).1.false
    · exact listed.atts_nodup other
  · rw [seg]
    exact listed.ap_seg below
  · intro other below
    by_cases equal : other = s.nextAtt
    · rw [equal, new]
      exact made
    · rw [att equal]
      exact listed.att_ap
        (lt_of_le_of_ne (Nat.le_of_lt_succ below) equal)
  · intro other above
    have old : s.nextAtt < other := above
    rw [att old.ne']
    exact listed.new_att old.le
  · rw [list]
    split_ifs with equal
    · rw [equal]
      exact .append
    · exact .same
  · rw [att below.ne]

theorem Listed.unlinkAtt (listed : Listed s) (att : Nat) :
    Listed (s.unlinkAtt att) ∧ Relists s (s.unlinkAtt att) := by
  have list (other : Nat) : ((s.unlinkAtt att).ap other).attList =
      if other = (s.att att).ap then (s.ap other).attList.erase att
      else (s.ap other).attList := by
    simp only [Shared.unlinkAtt, Shared.ap_modAp]
    grind
  have seg (other : Nat) : ((s.unlinkAtt att).ap other).seg =
      (s.ap other).seg := by
    simp only [Shared.unlinkAtt, Shared.ap_modAp]
    grind
  refine ⟨⟨listed.segs, fun other permit => ?_, listed.aps_nodup, ?_,
    fun other => ?_, fun below => ?_, listed.att_ap, listed.new_att⟩,
    ⟨.same, fun _ => .same, fun other => ?_, fun _ => rfl, fun _ => seg _,
      fun _ => rfl, le_rfl, le_rfl, le_rfl⟩⟩
  · rw [seg]
    exact listed.aps other permit
  · intro other attached member
    rw [list] at member
    split_ifs at member
    · exact listed.atts (List.mem_of_mem_erase member)
    · exact listed.atts member
  · rw [list]
    split_ifs
    · exact (listed.atts_nodup other).erase att
    · exact listed.atts_nodup other
  · rw [seg]
    exact listed.ap_seg below
  · rw [list]
    split_ifs
    · exact .erase att
    · exact .same

theorem Relists.refl (s : Shared) : Relists s s :=
  ⟨.same, fun _ => .same, fun _ => .same, fun _ => rfl, fun _ => rfl,
    fun _ => rfl, le_rfl, le_rfl, le_rfl⟩

/-- A change outside the lists after a change of the lists. -/
theorem Relists.modAtt {t : Shared} (relists : Relists s t) {att : Nat}
    {change : Attachment → Attachment}
    (same : (change (t.att att)).window = (t.att att).window) :
    Relists s (t.modAtt att change) where
  seg_list := relists.seg_list
  ap_list := relists.ap_list
  att_list := relists.att_list
  range := relists.range
  ap_seg := relists.ap_seg
  window {other} made := by
    rw [← relists.window made, Shared.att_modAtt]
    split_ifs with equal
    · rw [equal, same]
    · rfl
  nextSeg := relists.nextSeg
  nextAp := relists.nextAp
  nextAtt := relists.nextAtt

theorem listed_act (moved : act K s place choice = some (next, place'))
    (listed : Listed s) (known : place.Known s) :
    Listed next ∧ Relists s next ∧ place'.Known next := by
  have mapped {att : Nat} (mapped : (s.att att).mapped) :
      att < s.nextAtt := by
    by_contra above
    have new := (listed.new_att (not_lt.mp above)).2.1
    rw [new] at mapped
    cases mapped
  revert moved
  fun_cases act K s place choice
  case case1 =>
    fun_cases call K s choice <;> intro moved <;>
      simp only [Option.some.injEq, Prod.mk.injEq, reduceCtorEq] at moved <;>
      obtain ⟨rfl, rfl⟩ := moved
    case case3 =>
      obtain ⟨after, relists⟩ := listed.linkSeg _ _
      exact ⟨after, relists, trivial⟩
    case case4 seg member =>
      obtain ⟨after, relists⟩ := listed.linkAp member
      exact ⟨after, relists, trivial⟩
    case case6 ap _ _ guards =>
      obtain ⟨after, relists⟩ := listed.downRead (s.ap ap).seg
      exact ⟨after, relists, guards.1⟩
    case case8 guards => exact ⟨listed, .refl s, mapped guards.1⟩
    case case10 guards =>
      obtain ⟨after, relists⟩ := listed.lock (mapped guards.1)
      exact ⟨after, relists, mapped guards.1⟩
    case case12 => exact ⟨listed, .refl s, trivial⟩
  case case2 yes _ =>
    fun_cases work K s yes place <;> intro moved <;>
      simp only [Option.some.injEq, Prod.mk.injEq, reduceCtorEq] at moved <;>
      obtain ⟨rfl, rfl⟩ := moved
    case case3 =>
      obtain ⟨after, relists⟩ := listed.linkAtt known _ _
      exact ⟨after, relists, Nat.lt_succ_self _⟩
    case case5 | case26 =>
      obtain ⟨between, relists⟩ := listed.unlinkAtt _
      exact ⟨(between.modAtt known rfl).1, relists.modAtt rfl,
        by trivial⟩
    case case33 =>
      obtain ⟨after, relists⟩ := listed.recallPFNsMutex true
      exact ⟨after, relists, by simp [Place.Known]⟩
    case case34 =>
      obtain ⟨after, relists⟩ := listed.recallPFNsMutex false
      exact ⟨after, relists, trivial⟩
    case case35 seg _ left _ =>
      have member : seg ∈ s.segList :=
        mem_of_mem_rest (left ▸ List.mem_cons_self)
      rw [listed.segs, List.mem_range] at member
      exact ⟨listed, .refl s, member⟩
    case case41 seg _ ap _ left _ =>
      have member : ap ∈ (s.seg seg).apList :=
        mem_of_mem_rest (left ▸ List.mem_cons_self)
      exact ⟨listed, .refl s, known.1, (listed.aps _ _).mp member, by simp⟩
    case case42 => exact ⟨listed, .refl s, known.1, by simp [known.2.1]⟩
    case case43 found _ =>
      have member := mem_of_mem_rest (List.mem_of_find?_eq_some found)
      exact ⟨listed, .refl s, known.1, known.2.1, listed.atts member⟩
    case case45 =>
      obtain ⟨after, relists⟩ := listed.lock known.2.2.1
      exact ⟨after, relists, Place.Known.mono known relists⟩
    case case46 seg _ att _ =>
      have kept : Listed (s.modAtt att fun att => att.clear (s.seg seg)) ∧
          Relists s (s.modAtt att fun att => att.clear (s.seg seg)) :=
        listed.modAtt known.2.2.1 (Attachment.clear_window _ _)
      exact ⟨kept.1, kept.2, Place.Known.mono known kept.2⟩
    case case47 =>
      obtain ⟨after, relists⟩ := listed.unlock known.2.2.1
      exact ⟨after, relists, known.1, known.2.1,
        by rintro _ ⟨⟩; exact known.2.2.1⟩
    case case38 =>
      exact and_assoc.mp ⟨listed.modSeg rfl rfl, known, by simp⟩
    case case40 =>
      exact and_assoc.mp ⟨listed.modSeg rfl rfl, by rintro _ ⟨⟩; exact known.1⟩
    all_goals
      refine and_assoc.mp ⟨?_, by trivial⟩
      first
      | exact ⟨listed, .refl s⟩
      | exact listed.add _
      | exact listed.downRead _
      | exact listed.upRead _
      | exact listed.lock known
      | exact listed.unlock known
      | exact listed.modSeg rfl rfl
      | exact listed.modAtt known rfl
  case case3 => simp

end Xpmem.Concurrent.ForkWindow
