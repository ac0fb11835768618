import Xpmem.Foundation.Threads
import Xpmem.Concurrent.Mapping

/-!
# Attaching in several threads

Threads of one process run `xpmem_attach` at the same time.  The attachment
is linked, the requested range is searched for XPMEM areas, `vm_mmap` maps an
area, `find_vma` looks that area up and the attachment is tied to what was
found; between any two of these other threads run.  The steps are the
functions of `Driver.Attach`, on the state of the whole driver.
-/

namespace Xpmem.Concurrent.Attaching

open Foundation Kernel Driver

universe u

variable {K : Platform} {s t : State K} {mm : MmPtr}

/-! ## The steps -/

/-- Where a thread is in `xpmem_attach`. -/
inductive Place where
  | idle
  /-- The attachment is linked to its permit. -/
  | linked (permit : ApPtr) (att : AttPtr) (vaddr size : Nat)
  /-- No XPMEM area was found in the requested range. -/
  | checked (permit : ApPtr) (att : AttPtr) (vaddr size : Nat)
  /-- `vm_mmap` has returned the address. -/
  | mapped (att : AttPtr) (atVaddr : Nat)
  /-- `find_vma` has returned the area. -/
  | found (att : AttPtr) (atVaddr : Nat) (vma : Vma)
deriving DecidableEq

/-- What a thread does next. -/
inductive Choice where
  /-- `xpmem_attach`, past the checks of its arguments. -/
  | attach (permit : ApPtr) (segVaddr size vaddr : Nat)
  /-- Goes on; `place` is the address `vm_mmap` picks, if it succeeds. -/
  | go (place : Option Nat)
deriving DecidableEq

/-- The failing end of `xpmem_attach`. -/
def fail (s : State K) (permit : ApPtr) (att : AttPtr) : State K :=
  (attachUndo s permit att).xpmemAttDeref att

/-- One step of a thread of the process `current` with address space `mm`. -/
def act (current : Task) (mm : MmPtr) (s : State K) :
    Place → Choice → Option (State K × Place)
  | .idle, .attach permit segVaddr size vaddr =>
      let att := s.nextAtt
      let s := attachLink s permit mm segVaddr size
      if (s.ap permit).destroying then some (fail s permit att, .idle)
      else some (s, .linked permit att vaddr size)
  | .linked permit att vaddr size, .go _ =>
      if vaddr ≠ 0 ∧ xpmemVmaIn (s.mm mm) vaddr (u64 (vaddr + size)) then
        some (fail s permit att, .idle)
      else some (s, .checked permit att vaddr size)
  | .checked permit att vaddr size, .go place =>
      match vmMmap s current mm vaddr size (vaddr ≠ 0) place with
      | none => none
      | some (s, .error _) => some (fail s permit att, .idle)
      | some (s, .ok atVaddr) => some (s, .mapped att atVaddr)
  | .mapped att atVaddr, .go _ =>
      match (s.mm mm).findVma atVaddr with
      | none => none
      | some vma => some (s, .found att atVaddr vma)
  | .found att atVaddr vma, .go _ =>
      some ((attachBind s mm att atVaddr vma).xpmemAttDeref att, .idle)
  | _, _ => none

/-- The attachment a thread is making. -/
def Place.att : Place → Option AttPtr
  | .idle => none
  | .linked _ att _ _ => some att
  | .checked _ att _ _ => some att
  | .mapped att _ => some att
  | .found att _ _ => some att

/-- The attachment and the address of the area mapped for it. -/
def Place.reserved : Place → Option (AttPtr × Nat)
  | .mapped att atVaddr => some (att, atVaddr)
  | .found att atVaddr _ => some (att, atVaddr)
  | _ => none

/-- The attachment and the size of the area to be mapped for it. -/
def Place.wanted : Place → Option (AttPtr × Nat)
  | .linked _ att _ size => some (att, size)
  | .checked _ att _ size => some (att, size)
  | _ => none

/-- The attachment is one of the address space and not being destroyed. -/
def Live (s : State K) (mm : MmPtr) (att : AttPtr) : Prop :=
  att < s.nextAtt ∧ (s.att att).mm = mm ∧ (s.att att).destroying = false

instance (s : State K) (mm : MmPtr) (att : AttPtr) :
    Decidable (Live s mm att) :=
  inferInstanceAs (Decidable (_ ∧ _ ∧ _))

/-- The attachment has the area of which it keeps the structure. -/
structure Owns (s : State K) (mm : MmPtr) (att : AttPtr) (area : Vma) :
    Prop where
  member : area ∈ s.vmas mm
  ops : area.payload.xpmemOps = true
  start : area.start = (s.att att).atVaddr
  stop : area.stop = (s.att att).atVaddr + (s.att att).atSize
  vma : (s.att att).atVma = some area.payload.vma
  privateData : area.payload.privateData = some att

/-- The area is mapped for the attachment and tied to none. -/
structure Reserves (s : State K) (mm : MmPtr) (att : AttPtr)
    (atVaddr : Nat) (area : Vma) : Prop where
  member : area ∈ s.vmas mm
  ops : area.payload.xpmemOps = true
  start : area.start = atVaddr
  stop : area.stop = atVaddr + (s.att att).atSize
  privateData : area.payload.privateData = none

section Runs

variable {ι : Type u} [DecidableEq ι] {thread : ι → Place} {name : ι}
    {place : Place} {choice : Choice} {current : Task}

/-- What holds of the areas and attachments of the process. -/
structure Sound (s : State K) (mm : MmPtr) (thread : ι → Place) : Prop where
  distinct : Distinct s mm
  used {name : ι} {att : AttPtr} (making : (thread name).att = some att) :
    att < s.nextAtt
  wanted {name : ι} {att : AttPtr} {size : Nat}
    (here : (thread name).wanted = some (att, size)) :
    (s.att att).atSize = size
  reserved {name : ι} {att : AttPtr} {atVaddr : Nat}
    (mapped : (thread name).reserved = some (att, atVaddr)) :
    ∃ area, Reserves s mm att atVaddr area
  apart {name other : ι} {att otherAtt : AttPtr} {atVaddr : Nat}
    (mapped : (thread name).reserved = some (att, atVaddr))
    (also : (thread other).reserved = some (otherAtt, atVaddr)) :
    name = other
  found {name : ι} {att : AttPtr} {atVaddr : Nat} {vma : Vma}
    (here : thread name = .found att atVaddr vma) :
    vma ∈ s.vmas mm ∧ vma.start = atVaddr
  owned {att : AttPtr} (live : Live s mm att) :
    (∃ name, (thread name).att = some att) ∨ ∃ area, Owns s mm att area

/--
No attach maps over an XPMEM area: what its search for one has found is still
so when it calls `vm_mmap`.
-/
def Unobstructed (mm : MmPtr) (s : Threads ι (State K) Place)
    (move : ι × Choice) : Prop :=
  match s.thread move.1 with
  | .checked _ _ vaddr size =>
      vaddr ≠ 0 → Open s.shared mm vaddr (vaddr + size)
  | _ => True

instance (mm : MmPtr) (s : Threads ι (State K) Place) (move : ι × Choice) :
    Decidable (Unobstructed mm s move) := by
  unfold Unobstructed
  split <;> infer_instance

theorem spot_eq {att : AttPtr}
    (same : spot (t.att att) = spot (s.att att)) :
    (t.att att).atVaddr = (s.att att).atVaddr ∧
      (t.att att).atSize = (s.att att).atSize ∧
      (t.att att).atVma = (s.att att).atVma ∧
      (t.att att).destroying = (s.att att).destroying ∧
      (t.att att).mm = (s.att att).mm := by
  simpa [spot] using same

/-- What a thread keeps of what it does not work on. -/
structure Moves (s t : State K) (mm : MmPtr) (place : Place) : Prop where
  distinct : Distinct s mm → Distinct t mm
  kept : ∀ area ∈ s.vmas mm, area.payload.xpmemOps = true →
    (∀ att, place.reserved ≠ some (att, area.start)) → area ∈ t.vmas mm
  spot : ∀ att, att < s.nextAtt → place.att ≠ some att →
    spot (t.att att) = spot (s.att att)
  size : ∀ att, att < s.nextAtt → (t.att att).atSize = (s.att att).atSize
  nextAtt : s.nextAtt ≤ t.nextAtt

omit [DecidableEq ι] in
theorem Owns.moves (sound : Sound s mm thread)
    (moves : Moves s t mm (thread name)) {att : AttPtr} {area : Vma}
    (other : (thread name).att ≠ some att) (used : att < s.nextAtt)
    (owns : Owns s mm att area) : Owns t mm att area := by
  obtain ⟨atVaddr, atSize, atVma, _, _⟩ :=
    spot_eq (moves.spot att used other)
  have elsewhere (making : AttPtr) :
      (thread name).reserved ≠ some (making, area.start) := by
    intro mapped
    obtain ⟨mine, reserves⟩ := sound.reserved mapped
    have nonempty := RangeList.start_lt_stop reserves.member
    have here := RangeList.start_lt_stop owns.member
    have start := reserves.start
    have same := RangeList.eq_of_meets reserves.member owns.member
      ⟨by omega, by omega⟩
    have free := reserves.privateData
    rw [same, owns.privateData] at free
    cases free
  exact
    { member := moves.kept area owns.member owns.ops elsewhere
      ops := owns.ops
      start := owns.start.trans atVaddr.symm
      stop := by rw [owns.stop, atVaddr, atSize]
      vma := atVma.trans owns.vma
      privateData := owns.privateData }

omit [DecidableEq ι] in
theorem Reserves.moves (sound : Sound s mm thread)
    (moves : Moves s t mm (thread name)) {other : ι} (differs : other ≠ name)
    {att : AttPtr} {atVaddr : Nat} {area : Vma}
    (mapped : (thread other).reserved = some (att, atVaddr))
    (used : att < s.nextAtt) (reserves : Reserves s mm att atVaddr area) :
    Reserves t mm att atVaddr area where
  member := by
    refine moves.kept area reserves.member reserves.ops fun making mine => ?_
    rw [reserves.start] at mine
    exact differs (sound.apart mapped mine)
  ops := reserves.ops
  start := reserves.start
  stop := by rw [reserves.stop, moves.size att used]
  privateData := reserves.privateData

theorem att_of_wanted {att : AttPtr} {size : Nat}
    (here : place.wanted = some (att, size)) : place.att = some att := by
  cases place <;> simp_all [Place.wanted, Place.att]

theorem att_of_reserved {att : AttPtr} {atVaddr : Nat}
    (mapped : place.reserved = some (att, atVaddr)) :
    place.att = some att := by
  cases place <;> simp_all [Place.reserved, Place.att]

/-- A thread that keeps the rest has only its own part to see to. -/
theorem Sound.moves (sound : Sound s mm thread)
    (moves : Moves s t mm (thread name))
    (making : ∀ att, place.att = some att → att < t.nextAtt)
    (wanted : ∀ att size, place.wanted = some (att, size) →
      (t.att att).atSize = size)
    (reserved : ∀ att atVaddr, place.reserved = some (att, atVaddr) →
      (∃ area, Reserves t mm att atVaddr area) ∧
        ∀ other ≠ name, ∀ otherAtt,
          (thread other).reserved ≠ some (otherAtt, atVaddr))
    (found : ∀ att atVaddr vma, place = .found att atVaddr vma →
      vma ∈ t.vmas mm ∧ vma.start = atVaddr)
    (mine : ∀ att, Live t mm att →
      (thread name).att = some att ∨ s.nextAtt ≤ att →
        place.att = some att ∨ ∃ area, Owns t mm att area) :
    Sound t mm (Function.update thread name place) where
  distinct := moves.distinct sound.distinct
  used {other att} here := by
    by_cases same : other = name
    · rw [same, Function.update_self] at here
      exact making att here
    · rw [Function.update_of_ne same] at here
      exact (sound.used here).trans_le moves.nextAtt
  wanted {other att size} here := by
    by_cases same : other = name
    · rw [same, Function.update_self] at here
      exact wanted att size here
    · rw [Function.update_of_ne same] at here
      rw [moves.size att (sound.used (att_of_wanted here))]
      exact sound.wanted here
  reserved {other att atVaddr} mapped := by
    by_cases same : other = name
    · rw [same, Function.update_self] at mapped
      exact (reserved att atVaddr mapped).1
    · rw [Function.update_of_ne same] at mapped
      obtain ⟨area, reserves⟩ := sound.reserved mapped
      exact ⟨area, reserves.moves sound moves same mapped
        (sound.used (att_of_reserved mapped))⟩
  apart {left right leftAtt rightAtt atVaddr} mapped also := by
    by_cases leftSame : left = name <;> by_cases rightSame : right = name
    · exact leftSame.trans rightSame.symm
    · rw [leftSame, Function.update_self] at mapped
      rw [Function.update_of_ne rightSame] at also
      exact ((reserved _ _ mapped).2 right rightSame _ also).elim
    · rw [Function.update_of_ne leftSame] at mapped
      rw [rightSame, Function.update_self] at also
      exact ((reserved _ _ also).2 left leftSame _ mapped).elim
    · rw [Function.update_of_ne leftSame] at mapped
      rw [Function.update_of_ne rightSame] at also
      exact sound.apart mapped also
  found {other att atVaddr vma} here := by
    by_cases same : other = name
    · rw [same, Function.update_self] at here
      exact found att atVaddr vma here
    · rw [Function.update_of_ne same] at here
      have mapped : (thread other).reserved = some (att, atVaddr) := by
        rw [here]
        rfl
      obtain ⟨area, reserves⟩ := sound.reserved mapped
      obtain ⟨member, start⟩ := sound.found here
      -- the area that was found is the one that was reserved
      have nonempty := RangeList.start_lt_stop reserves.member
      have proper := RangeList.start_lt_stop member
      have begins := reserves.start
      have equal := RangeList.eq_of_meets member reserves.member
        ⟨by omega, by omega⟩
      rw [equal]
      exact ⟨(reserves.moves sound moves same mapped
        (sound.used (att_of_reserved mapped))).member, begins⟩
  owned {att} live := by
    by_cases own : (thread name).att = some att ∨ s.nextAtt ≤ att
    · refine (mine att live own).imp_left fun here => ⟨name, ?_⟩
      rw [Function.update_self]
      exact here
    · simp only [not_or, Nat.not_le] at own
      obtain ⟨other, used⟩ := own
      obtain ⟨_, _, _, flag, space⟩ := spot_eq (moves.spot att used other)
      have before : Live s mm att :=
        ⟨used, space.symm.trans live.2.1, flag.symm.trans live.2.2⟩
      rcases sound.owned before with ⟨maker, making⟩ | ⟨area, owns⟩
      · have differs : maker ≠ name := by
          rintro rfl
          exact other making
        refine .inl ⟨maker, ?_⟩
        rw [Function.update_of_ne differs]
        exact making
      · exact .inr ⟨area, owns.moves sound moves other used⟩

/-! ## The steps keep the invariant -/

theorem Moves.refl (s : State K) (mm : MmPtr) (place : Place) :
    Moves s s mm place :=
  ⟨id, fun _ member _ _ => member, fun _ _ _ => rfl, fun _ _ => rfl, le_rfl⟩

theorem Moves.of_spares (spares : Spares s t mm) (place : Place) :
    Moves s t mm place where
  distinct := spares.distinct
  kept area member ops _ := spares.kept area member ops
  spot att _ _ := spares.spot att
  size att _ := (spot_eq (spares.spot att)).2.1
  nextAtt := spares.nextAtt.ge

theorem shape_fail (s : State K) (permit : ApPtr) (att : AttPtr) :
    (fail s permit att).shape =
      (unlinkAtt (s.modAtt att fun att => { att with destroying := true })
        permit att).shape := by
  rw [fail, shape_xpmemAttDeref, attachUndo, shape_xpmemAttDeref]

/-- A failing attach leaves a flagged attachment, and areas as they were. -/
theorem Moves.fail {permit : ApPtr} {att : AttPtr}
    (mine : place.att = some att) :
    Moves s (fail s permit att) mm place := by
  have stays := Stays.of_shape (shape_fail s permit att)
  refine ⟨fun distinct => stays.distinct ⟨distinct.vma_lt,
    distinct.identity⟩, ?_, ?_, ?_, stays.nextAtt.ge⟩
  · intro area member _ _
    rw [stays.vmas]
    exact member
  · intro other _ differs
    have apart : other ≠ att := by
      rintro rfl
      exact differs mine
    rw [stays.spot]
    simp [unlinkAtt, State.modAtt, State.modAp, apart]
  · intro other _
    rw [(spot_eq (stays.spot other)).2.1]
    by_cases same : other = att <;>
      simp [unlinkAtt, State.modAtt, State.modAp, same]

theorem not_live_fail (s : State K) (permit : ApPtr) (att : AttPtr) :
    ¬ Live (fail s permit att) mm att := by
  rintro ⟨_, _, live⟩
  have stays := Stays.of_shape (shape_fail s permit att)
  rw [(spot_eq (stays.spot att)).2.2.2.1] at live
  simp [unlinkAtt, State.modAtt, State.modAp] at live

theorem nextAtt_fail (s : State K) (permit : ApPtr) (att : AttPtr) :
    (fail s permit att).nextAtt = s.nextAtt :=
  (Stays.of_shape (shape_fail s permit att)).nextAtt

theorem Sound.fail (sound : Sound s mm thread) {att : AttPtr}
    (mine : (thread name).att = some att) (permit : ApPtr) :
    Sound (fail s permit att) mm (Function.update thread name .idle) := by
  refine sound.moves (.fail mine) nofun nofun nofun nofun ?_
  rintro other live (same | new)
  · cases mine.symm.trans same
    exact (not_live_fail s permit att live).elim
  · have used := live.1
    rw [nextAtt_fail] at used
    exact (Nat.not_lt_of_le new used).elim

theorem moves_attachLink (permit : ApPtr) (segVaddr size : Nat) :
    Moves s (attachLink s permit mm segVaddr size) mm place := by
  refine ⟨fun distinct => ⟨distinct.vma_lt, distinct.identity⟩,
    fun _ member _ _ => member, ?_, ?_, Nat.le_succ _⟩
  · intro att used _
    simp [attachLink, State.modAtt, State.modAp, State.xpmemAttRef, used.ne]
  · intro att used
    simp [attachLink, State.modAtt, State.modAp, State.xpmemAttRef, used.ne]

theorem atSize_attachLink (permit : ApPtr) (segVaddr size : Nat) :
    ((attachLink s permit mm segVaddr size).att s.nextAtt).atSize =
      size := by
  simp [attachLink, State.modAtt, State.modAp, State.xpmemAttRef]

theorem Sound.attachLink (sound : Sound s mm thread)
    (idle : thread name = .idle) (permit : ApPtr)
    (segVaddr size vaddr : Nat) :
    Sound (attachLink s permit mm segVaddr size) mm
      (Function.update thread name
        (.linked permit s.nextAtt vaddr size)) := by
  refine sound.moves (moves_attachLink permit segVaddr size) ?_ ?_ nofun
    nofun ?_
  · rintro _ ⟨⟩
    exact Nat.lt_succ_self _
  · rintro _ _ ⟨⟩
    exact atSize_attachLink permit segVaddr size
  · rintro att live (same | new)
    · rw [idle] at same
      cases same
    · have used : att < s.nextAtt + 1 := live.1
      have last : s.nextAtt = att :=
        Nat.le_antisymm new (Nat.le_of_lt_succ used)
      rw [last]
      exact .inl rfl

theorem mem_attachBind {att : AttPtr} {atVaddr : Nat} {vma area : Vma} :
    area ∈ ((attachBind s mm att atVaddr vma).xpmemAttDeref att).vmas mm ↔
      ∃ old ∈ s.vmas mm,
        { old with
          payload :=
            if old.payload.vma = vma.payload.vma then
              { old.payload with
                privateData := some att, pfnmap := true, xpmemOps := true }
            else old.payload } = area := by
  have stays := Stays.of_shape
    (shape_xpmemAttDeref (attachBind s mm att atVaddr vma) att)
  rw [stays.vmas]
  simp only [attachBind, State.vmas, State.modMm, State.modAtt,
    Mm.updateVma, Function.update_self]
  exact RangeList.mem_mapPayload_iff

theorem Sound.attachBind (sound : Sound s mm thread) {att : AttPtr}
    {atVaddr : Nat} {vma : Vma}
    (here : thread name = .found att atVaddr vma) :
    Sound ((attachBind s mm att atVaddr vma).xpmemAttDeref att) mm
      (Function.update thread name .idle) := by
  have mapped : (thread name).reserved = some (att, atVaddr) := by
    rw [here]
    rfl
  obtain ⟨member, start⟩ := sound.found here
  obtain ⟨area, reserves⟩ := sound.reserved mapped
  have nonempty := RangeList.start_lt_stop reserves.member
  have proper := RangeList.start_lt_stop member
  have begins := reserves.start
  obtain rfl := RangeList.eq_of_meets member reserves.member
    ⟨by omega, by omega⟩
  have stays := Stays.of_shape
    (shape_xpmemAttDeref (Driver.attachBind s mm att atVaddr vma) att)
  have unique (other : Vma) (old : other ∈ s.vmas mm)
      (same : other.payload.vma = vma.payload.vma) : other = vma :=
    sound.distinct.identity vma member other old reserves.ops same
  refine sound.moves ⟨?_, ?_, ?_, ?_, stays.nextAtt.ge⟩ nofun nofun nofun
    nofun ?_
  · intro distinct
    constructor
    · intro piece found
      obtain ⟨old, oldMember, rfl⟩ := mem_attachBind.mp found
      have below := distinct.vma_lt old oldMember
      rw [stays.nextVma]
      dsimp only
      split <;> exact below
    · intro piece found other otherFound ops same
      obtain ⟨old, oldMember, rfl⟩ := mem_attachBind.mp found
      obtain ⟨left, leftMember, rfl⟩ := mem_attachBind.mp otherFound
      have identity := distinct.identity old oldMember left leftMember
      have uniqueOld := unique old oldMember
      have uniqueLeft := unique left leftMember
      dsimp only at ops same
      grind
  · intro other found _ elsewhere
    refine mem_attachBind.mpr ⟨other, found, ?_⟩
    have apart : other.payload.vma ≠ vma.payload.vma := by
      intro same
      rw [unique other found same, start] at elsewhere
      exact elsewhere att mapped
    rw [if_neg apart]
  · intro other _ differs
    have apart : other ≠ att := by
      rintro rfl
      exact differs (att_of_reserved mapped)
    rw [stays.spot]
    simp [Driver.attachBind, State.modAtt, State.modMm, apart]
  · intro other _
    rw [(spot_eq (stays.spot other)).2.1]
    by_cases same : other = att <;>
      simp [Driver.attachBind, State.modAtt, State.modMm, same]
  · rintro other live (same | new)
    · cases (att_of_reserved mapped).symm.trans same
      obtain ⟨vaddr, size, structureOf, _, _⟩ := spot_eq (stays.spot att)
      refine .inr ⟨_, mem_attachBind.mpr ⟨vma, member, rfl⟩, ?_, ?_, ?_, ?_,
        ?_⟩
      · simp
      · rw [vaddr]
        simp [Driver.attachBind, State.modAtt, State.modMm, start]
      · rw [vaddr, size]
        simp [Driver.attachBind, State.modAtt, State.modMm, reserves.stop]
      · rw [structureOf]
        simp [Driver.attachBind, State.modAtt, State.modMm]
      · simp
    · have used := live.1
      rw [stays.nextAtt] at used
      exact (Nat.not_lt_of_le new used).elim

theorem Sound.search (sound : Sound s mm thread) {permit : ApPtr}
    {att : AttPtr} {vaddr size : Nat}
    (here : thread name = .linked permit att vaddr size) :
    Sound s mm (Function.update thread name
      (.checked permit att vaddr size)) := by
  have mine : (thread name).att = some att := by rw [here]; rfl
  have wanted : (thread name).wanted = some (att, size) := by rw [here]; rfl
  refine sound.moves (.refl s mm _) ?_ ?_ nofun nofun ?_
  · rintro _ ⟨⟩
    exact sound.used mine
  · rintro _ _ ⟨⟩
    exact sound.wanted wanted
  · rintro other live (same | new)
    · exact .inl (mine.symm.trans same)
    · exact (Nat.not_lt_of_le new live.1).elim

theorem Sound.map (sound : Sound s mm thread) {permit : ApPtr}
    {att : AttPtr} {vaddr size atVaddr : Nat}
    (here : thread name = .checked permit att vaddr size)
    (fresh : Fresh s t mm atVaddr (atVaddr + size)) :
    Sound t mm (Function.update thread name (.mapped att atVaddr)) := by
  have mine : (thread name).att = some att := by rw [here]; rfl
  have wanted : (thread name).wanted = some (att, size) := by rw [here]; rfl
  have spares := fresh.spares
  have same := (spot_eq (spares.spot att)).2.1.trans (sound.wanted wanted)
  refine sound.moves (.of_spares spares _) ?_ nofun ?_ nofun ?_
  · rintro _ ⟨⟩
    rw [spares.nextAtt]
    exact sound.used mine
  · rintro _ _ ⟨⟩
    obtain ⟨area, member, start, stop, ops, free⟩ := fresh.area
    refine ⟨⟨area, member, ops, start, by rw [stop, same], free⟩, ?_⟩
    intro other _ otherAtt mapped
    obtain ⟨taken, reserves⟩ := sound.reserved mapped
    exact fresh.apart taken reserves.member reserves.ops reserves.start
  · rintro other live (equal | new)
    · exact .inl (mine.symm.trans equal)
    · have used := live.1
      rw [spares.nextAtt] at used
      exact (Nat.not_lt_of_le new used).elim

theorem Sound.find (sound : Sound s mm thread) {att : AttPtr}
    {atVaddr : Nat} {vma : Vma}
    (here : thread name = .mapped att atVaddr)
    (looked : (s.mm mm).findVma atVaddr = some vma) :
    Sound s mm (Function.update thread name (.found att atVaddr vma)) := by
  have mapped : (thread name).reserved = some (att, atVaddr) := by
    rw [here]
    rfl
  have mine := att_of_reserved mapped
  obtain ⟨area, reserves⟩ := sound.reserved mapped
  have nonempty := RangeList.start_lt_stop reserves.member
  have contains : area.Contains atVaddr :=
    ⟨reserves.start.le, reserves.start ▸ nonempty⟩
  have same : some area = some vma :=
    (RangeList.find_eq_some_of_contains reserves.member contains).symm.trans
      looked
  cases same
  refine sound.moves (.refl s mm _) ?_ nofun ?_ ?_ ?_
  · rintro _ ⟨⟩
    exact sound.used mine
  · rintro _ _ ⟨⟩
    exact ⟨⟨vma, reserves⟩, fun other differs _ also =>
      differs (sound.apart also mapped)⟩
  · rintro _ _ _ ⟨⟩
    exact ⟨reserves.member, reserves.start⟩
  · rintro other live (equal | new)
    · exact .inl (mine.symm.trans equal)
    · exact (Nat.not_lt_of_le new live.1).elim

theorem Sound.act (sound : Sound s mm thread)
    (unobstructed : Unobstructed mm ⟨s, thread⟩ (name, choice))
    (moved : act current mm s (thread name) choice = some (t, place)) :
    Sound t mm (Function.update thread name place) := by
  have isOpen (permit : ApPtr) (att : AttPtr) (vaddr size : Nat)
      (here : thread name = .checked permit att vaddr size)
      (fixed : decide (vaddr ≠ 0) = true) :
      Open s mm vaddr (vaddr + size) := by
    simp only [Unobstructed, here] at unobstructed
    exact unobstructed (of_decide_eq_true fixed)
  generalize here : thread name = before at moved
  revert moved
  fun_cases Attaching.act current mm s before choice <;> intro moved <;>
    simp only [Option.some.injEq, Prod.mk.injEq, reduceCtorEq] at moved <;>
    obtain ⟨rfl, rfl⟩ := moved
  case case1 permit segVaddr size vaddr _ _ _ =>
    have linked := sound.attachLink here permit segVaddr size vaddr
    have mine : (Function.update thread name
        (.linked permit s.nextAtt vaddr size) name).att =
          some s.nextAtt := by
      rw [Function.update_self]
      rfl
    have failed := linked.fail mine permit
    rw [Function.update_idem] at failed
    exact failed
  case case2 permit segVaddr size vaddr _ _ _ =>
    exact sound.attachLink here permit segVaddr size vaddr
  case case3 => exact sound.fail (by rw [here]; rfl) _
  case case4 => exact sound.search here
  case case6 returned =>
    have done := (vmMmap_fresh (isOpen _ _ _ _ here) _ current).of_eq
      returned
    obtain rfl := done.1 _ rfl
    exact sound.fail (by rw [here]; rfl) _
  case case7 returned =>
    have done := (vmMmap_fresh (isOpen _ _ _ _ here) _ current).of_eq
      returned
    exact sound.map here (done.2 _ rfl)
  case case9 looked => exact sound.find here looked
  case case10 => exact sound.attachBind here

/-- The runs of any number of threads of the process, all idle at first. -/
abbrev Runs (current : Task) (mm : MmPtr) (origin : State K)
    (allowed : Threads ι (State K) Place → ι × Choice → Prop)
    (events :
      List (Event (Threads ι (State K) Place) (ι × Choice) Unit))
    (s : Threads ι (State K) Place) : Prop :=
  Run (Threads.step fun _ : ι => act current mm) (.still origin .idle)
    allowed events s

/--
The areas of the process before the threads begin: structures are not shared,
and live attachments have the areas they are tied to.
-/
structure Settled (s : State K) (mm : MmPtr) : Prop where
  distinct : Distinct s mm
  owned : ∀ att, Live s mm att → ∃ area, Owns s mm att area

/-- Whenever no attach is under way, attachments own distinct areas. -/
theorem owns_of_idle {origin : State K}
    {events :
      List (Event (Threads ι (State K) Place) (ι × Choice) Unit)}
    {s : Threads ι (State K) Place}
    (run : Runs current mm origin (Unobstructed mm) events s)
    (settled : Settled origin mm)
    (idle : ∀ name, s.thread name = .idle) :
    (∀ att, Live s.shared mm att → ∃ area ∈ s.shared.vmas mm,
      (s.shared.att att).atVma = some area.payload.vma ∧
        area.payload.privateData = some att) ∧
    ∀ att other, Live s.shared mm att → Live s.shared mm other →
      att ≠ other →
        (s.shared.att att).atVma ≠ (s.shared.att other).atVma ∧
        ((s.shared.att att).atVaddr + (s.shared.att att).atSize ≤
            (s.shared.att other).atVaddr ∨
          (s.shared.att other).atVaddr + (s.shared.att other).atSize ≤
            (s.shared.att att).atVaddr) := by
  have sound : Sound s.shared mm s.thread := by
    refine Threads.invariant (fun s thread => Sound s mm thread) run
      ⟨settled.distinct, nofun, nofun, nofun, nofun, nofun,
        fun live => .inr (settled.owned _ live)⟩ ?_
    intro _ _ _ _ _ _ sound unobstructed moved
    exact sound.act unobstructed moved
  have owned (att : AttPtr) (live : Live s.shared mm att) :
      ∃ area, Owns s.shared mm att area := by
    rcases sound.owned live with ⟨name, making⟩ | owns
    · rw [idle name] at making
      cases making
    · exact owns
  constructor
  · intro att live
    obtain ⟨area, owns⟩ := owned att live
    exact ⟨area, owns.member, owns.vma, owns.privateData⟩
  · intro att other live otherLive differs
    obtain ⟨area, owns⟩ := owned att live
    obtain ⟨otherArea, otherOwns⟩ := owned other otherLive
    have apart : area ≠ otherArea := by
      rintro rfl
      have same := owns.privateData.symm.trans otherOwns.privateData
      cases same
      exact differs rfl
    constructor
    · rw [owns.vma, otherOwns.vma]
      intro same
      exact apart (sound.distinct.identity otherArea otherOwns.member area
        owns.member otherOwns.ops (Option.some.inj same))
    · have meets : ¬ area.Meets otherArea.start otherArea.stop :=
        fun meets => apart
          (RangeList.eq_of_meets owns.member otherOwns.member meets)
      rw [Range.Meets, owns.start, owns.stop, otherOwns.start,
        otherOwns.stop] at meets
      omega

/-- A process makes a segment, and another one gets a permit for it. -/
def prelude : List Op :=
  [.spawn 1, .openDev 1 {}, .mmap 1 0x10000 0x14000 false,
    .spawn 2, .openDev 2 {}, .ioctl 1 (.make 0x10000 0x4000 1 0o666) {},
    .ioctl 2 (.get 0x100000001 2 1 0) {}]

/-- Two threads attach at the same address, the second one too late. -/
theorem owns_of_idle_two :
    ∃ (origin : State fourLevel) (earlier : _) (events : _)
      (s : Threads (Fin 2) (State fourLevel) Place),
      Run Driver.step {} (fun _ _ => True) earlier origin ∧
      Runs ⟨2, some 1⟩ 1 origin (Unobstructed 1) events s ∧
      Live s.shared 1 0 ∧ ∃ area ∈ s.shared.vmas 1,
        (s.shared.att 0).atVma = some area.payload.vma ∧
          area.payload.privateData = some 0 := by
  obtain ⟨earlier, origin, before, unused, bare, checked⟩ := exists_run
    Driver.step ({} : State fourLevel) (fun _ _ => True) prelude
    (fun _ origin => origin.nextAtt = 0 ∧ (origin.mm 1).vmas.ranges = [] ∧
      ((execute (Threads.step fun _ : Fin 2 => act ⟨2, some 1⟩ 1)
        (.still origin .idle)
        [(0, .attach 0 0x10000 0x1000 0x30000), (0, .go none),
          (0, .go (some 0)),
          (1, .attach 0 0x11000 0x1000 0x30000), (1, .go none),
          (0, .go none), (0, .go none)]).any fun done =>
        done.1.all (fun event =>
          decide (Unobstructed 1 event.pre event.action)) &&
        decide ((∀ name, done.2.thread name = .idle) ∧
          Live done.2.shared 1 0)) = true)
    (by decide +kernel)
  obtain ⟨events, s, run, idle, live⟩ := exists_run _ _ (Unobstructed 1) _
    (fun _ s => (∀ name, s.thread name = .idle) ∧ Live s.shared 1 0) checked
  have none (area : Vma) : area ∉ origin.vmas 1 := by
    intro member
    have inside : area ∈ (origin.mm 1).vmas.ranges := member
    rw [bare] at inside
    cases inside
  have settled : Settled origin 1 := by
    refine ⟨⟨fun area member => (none area member).elim,
      fun area member => (none area member).elim⟩, fun att live => ?_⟩
    have used := live.1
    rw [unused] at used
    exact (Nat.not_lt_zero _ used).elim
  exact ⟨origin, earlier, events, s, before, run, live,
    (owns_of_idle run settled idle).1 0 live⟩

/-- The second attachment has taken the area of the first, which is live. -/
def Robbed (s : State K) (mm : MmPtr) (att other : AttPtr) : Prop :=
  Live s mm att ∧ Live s mm other ∧
    (s.att att).atVaddr = (s.att other).atVaddr ∧
    (s.att att).atVma = (s.att other).atVma ∧
    ∀ area ∈ (s.mm mm).vmas.ranges, area.payload.privateData ≠ some att

instance (s : State K) (mm : MmPtr) (att other : AttPtr) :
    Decidable (Robbed s mm att other) :=
  inferInstanceAs (Decidable (_ ∧ _ ∧ _ ∧ _ ∧ _))

/-- Two threads attach at one address, and both find the same area. -/
theorem robbed_of_two :
    ∃ (origin : State fourLevel) (earlier : _) (events : _)
      (s : Threads (Fin 2) (State fourLevel) Place),
      Run Driver.step {} (fun _ _ => True) earlier origin ∧
      Runs ⟨2, some 1⟩ 1 origin (fun _ _ => True) events s ∧
      (∀ name, s.thread name = .idle) ∧ Robbed s.shared 1 0 1 := by
  obtain ⟨earlier, origin, before, checked⟩ := exists_run
    Driver.step ({} : State fourLevel) (fun _ _ => True) prelude
    (fun _ origin =>
      ((execute (Threads.step fun _ : Fin 2 => act ⟨2, some 1⟩ 1)
        (.still origin .idle)
        [(0, .attach 0 0x10000 0x1000 0x30000),
          (1, .attach 0 0x11000 0x1000 0x30000),
          (0, .go none), (1, .go none),
          (0, .go (some 0)), (1, .go (some 0)),
          (0, .go none), (0, .go none), (1, .go none), (1, .go none)]).any
        fun done =>
          done.1.all (fun _ => decide True) &&
          decide ((∀ name, done.2.thread name = .idle) ∧
            Robbed done.2.shared 1 0 1)) = true)
    (by decide +kernel)
  obtain ⟨events, s, run, idle, robbed⟩ := exists_run _ _ (fun _ _ => True) _
    (fun _ (s : Threads (Fin 2) (State fourLevel) Place) =>
      (∀ name, s.thread name = .idle) ∧ Robbed s.shared 1 0 1)
    checked
  exact ⟨origin, earlier, events, s, before, run, idle, robbed⟩

end Runs

end Xpmem.Concurrent.Attaching
