import Xpmem.Foundation.Directory
import Xpmem.Foundation.Run
import Xpmem.Driver.Recorded

/-!
# Identifiers

The identifiers of segments and of permits are made of the thread group's
tgid and a number the group counts up.  In every run a group's identifiers
are distinct, and an object stays on the list on which its identifier is
looked up until it is being destroyed.  So a lookup finds the object that was
created with the identifier, as long as that object is not being destroyed.
-/

namespace Xpmem.Driver

open Xpmem.Foundation Xpmem.Kernel

variable {K : Platform}

/-! ## The members of an identifier -/

theorem idToTgid_packId (K : Platform) (tgid : Pid) (uniq : Nat) :
    idToTgid K (packId K tgid uniq) = tgid := by
  unfold idToTgid packId
  split
  · rw [BitVec.extractLsb'_append_eq_left]
  · rw [BitVec.extractLsb'_append_eq_right]

theorem idUniq_packId (K : Platform) (tgid : Pid) {uniq : Nat}
    (small : uniq < 2 ^ 32) :
    idUniq K (packId K tgid uniq) = uniq := by
  unfold idUniq packId
  split
  · rw [BitVec.extractLsb'_append_eq_right, BitVec.toNat_ofNat,
      Nat.mod_eq_of_lt small]
  · rw [BitVec.extractLsb'_append_eq_left, BitVec.toNat_ofNat,
      Nat.mod_eq_of_lt small]

theorem append_toInt_pos {high low : BitVec 32} (small : high.toNat < 2 ^ 31)
    (nonzero : 0 < high.toNat) : 0 < (high ++ low).toInt := by
  have value : (high ++ low).toNat = high.toNat * 2 ^ 32 + low.toNat := by
    rw [BitVec.toNat_append, ← Nat.shiftLeft_add_eq_or_of_lt low.isLt,
      Nat.shiftLeft_eq]
  have bound := low.isLt
  rw [BitVec.toInt_eq_toNat_of_lt (by omega), value]
  omega

theorem packId_toInt_pos (K : Platform) {tgid : Pid} {uniq : Nat}
    (positive : 0 < tgid.toInt) (nonzero : 0 < uniq)
    (bounded : uniq ≤ xpmemMaxUniqId) :
    0 < (packId K tgid uniq).toInt := by
  unfold packId xpmemMaxUniqId at *
  split
  · rw [BitVec.toInt_eq_toNat_cond] at positive
    have bound := tgid.isLt
    refine append_toInt_pos ?_ ?_ <;> split at positive <;> omega
  · have value : (BitVec.ofNat 32 uniq).toNat = uniq := by
      rw [BitVec.toNat_ofNat, Nat.mod_eq_of_lt (by omega)]
    exact append_toInt_pos (by omega) (by omega)

theorem packId_ne {tgid : Pid} {number uniq : Nat} (less : number < uniq)
    (bounded : uniq ≤ xpmemMaxUniqId) :
    packId K tgid number ≠ packId K tgid uniq := by
  unfold xpmemMaxUniqId at bounded
  intro same
  have equal := congrArg (idUniq K) same
  rw [idUniq_packId K tgid (by omega), idUniq_packId K tgid (by omega)]
    at equal
  omega

/-! ## The directories of segments and permits -/

namespace State

/-- The segments, on the lists of their groups. -/
def segs (s : State K) : Directory (BitVec 64) where
  objects := s.nextSeg
  owners := s.nextTg
  owner seg := (s.seg seg).tg
  name seg := (s.seg seg).segid
  gone seg := (s.seg seg).destroying
  listed group _ := (s.tg group).segList
  count group := (s.tg group).uniqSegid
  make group uniq := packId K (s.tg group).tgid uniq

/-- The permits, in the hash buckets of their groups. -/
def aps (s : State K) : Directory (BitVec 64) where
  objects := s.nextAp
  owners := s.nextTg
  owner permit := (s.ap permit).tg
  name permit := (s.ap permit).apid
  gone permit := (s.ap permit).destroying
  listed group apid :=
    (s.tg group).apHashtable (xpmemApHashtableIndex K apid)
  count group := (s.tg group).uniqApid
  make group uniq := packId K (s.tg group).tgid uniq

end State

/-- Groups in the hash table exist, and both directories are sound. -/
structure Named (s : State K) : Prop where
  hashed : ∀ index, ∀ group ∈ s.myPart.tgHashtable index,
    group < s.nextTg
  segs : s.segs.Sound
  aps : s.aps.Sound

section Changes

variable {s t : State K}

/-- The records of groups say all that a directory has from them. -/
theorem Recorded.make (recorded : Recorded s t) {group : TgPtr}
    (known : group < s.nextTg) :
    packId K (t.tg group).tgid = packId K (s.tg group).tgid := by
  rw [recorded.tg_tgid known]

theorem settles_segs (recorded : Recorded s t)
    (next : t.nextSeg = s.nextSeg)
    (count : ∀ group < s.nextTg,
      (s.tg group).uniqSegid ≤ (t.tg group).uniqSegid)
    (listed : ∀ group, ∀ seg ∈ (t.tg group).segList,
      seg ∈ (s.tg group).segList)
    (kept : ∀ group < s.nextTg, ∀ seg ∈ (s.tg group).segList,
      (t.seg seg).destroying = false → seg ∈ (t.tg group).segList) :
    s.segs.Settles t.segs where
  objects := next
  owners := recorded.nextTg
  owner _ used := recorded.seg_tg used
  name _ used := recorded.seg_segid used
  gone seg used := recorded.segDestroying seg used
  make _ known := recorded.make known
  count := count
  listed group _ := listed group
  kept group known _ seg member _ := kept group known seg member

theorem settles_aps (recorded : Recorded s t)
    (next : t.nextAp = s.nextAp)
    (count : ∀ group < s.nextTg,
      (s.tg group).uniqApid ≤ (t.tg group).uniqApid)
    (listed : ∀ group index, ∀ permit ∈ (t.tg group).apHashtable index,
      permit ∈ (s.tg group).apHashtable index)
    (kept : ∀ group < s.nextTg, ∀ index,
      ∀ permit ∈ (s.tg group).apHashtable index,
        (t.ap permit).destroying = false →
          permit ∈ (t.tg group).apHashtable index) :
    s.aps.Settles t.aps where
  objects := next
  owners := recorded.nextTg
  owner _ used := recorded.ap_tg used
  name _ used := recorded.ap_apid used
  gone permit used := recorded.apDestroying permit used
  make _ known := recorded.make known
  count := count
  listed group _ := listed group _
  kept group known _ permit member _ := kept group known _ permit member

theorem ThreadGroup.of_entry {tg other : ThreadGroup}
    (same : tg.entry = other.entry) :
    tg.segList = other.segList ∧ tg.apHashtable = other.apHashtable ∧
      tg.uniqSegid = other.uniqSegid ∧ tg.uniqApid = other.uniqApid := by
  simp only [ThreadGroup.entry, ThreadGroup.record,
    ThreadGroup.mk.injEq] at same
  tauto

/-- A change that leaves lists and counters of groups alone. -/
theorem Named.of_entry (named : Named s) (recorded : Recorded s t)
    (nextSeg : t.nextSeg = s.nextSeg) (nextAp : t.nextAp = s.nextAp)
    (entry : ∀ group, (t.tg group).entry = (s.tg group).entry)
    (hashed : ∀ index, ∀ group ∈ t.myPart.tgHashtable index,
      group ∈ s.myPart.tgHashtable index) :
    Named t := by
  have same (group : TgPtr) := ThreadGroup.of_entry (entry group)
  refine ⟨?_, named.segs.settles (settles_segs recorded nextSeg ?_ ?_ ?_),
    named.aps.settles (settles_aps recorded nextAp ?_ ?_ ?_)⟩
  · intro index group member
    exact (named.hashed index group (hashed index group member)).trans_le
      recorded.nextTg
  all_goals grind

theorem Named.makeSegid (named : Named s) (group : TgPtr) :
    Named (xpmemMakeSegid s group).1 := by
  have recorded := Recorded.makeSegid s group
  simp only [xpmemMakeSegid] at recorded ⊢
  split
  · exact named
  · rename_i below
    rw [if_neg below] at recorded
    refine ⟨named.hashed,
      named.segs.settles (settles_segs recorded rfl ?_ ?_ ?_),
      named.aps.settles (settles_aps recorded rfl ?_ ?_ ?_)⟩ <;>
      simp only [State.modTg, Function.update_apply] <;> grind

theorem Named.makeApid (named : Named s) (group : TgPtr) :
    Named (xpmemMakeApid s group).1 := by
  have recorded := Recorded.makeApid s group
  simp only [xpmemMakeApid] at recorded ⊢
  split
  · exact named
  · rename_i below
    rw [if_neg below] at recorded
    refine ⟨named.hashed,
      named.segs.settles (settles_segs recorded rfl ?_ ?_ ?_),
      named.aps.settles (settles_aps recorded rfl ?_ ?_ ?_)⟩ <;>
      simp only [State.modTg, Function.update_apply] <;> grind

theorem Named.unlinkSeg (named : Named s) (group : TgPtr) {seg : SegPtr}
    (flagged : (s.seg seg).destroying = true) :
    Named (unlinkSeg s group seg) := by
  have recorded := Recorded.unlinkSeg s group seg
  refine ⟨named.hashed,
    named.segs.settles (settles_segs recorded rfl ?_ ?_ ?_),
    named.aps.settles (settles_aps recorded rfl ?_ ?_ ?_)⟩ <;>
    simp only [Driver.unlinkSeg, State.modTg, State.modSeg,
      Function.update_apply] <;>
    grind [List.mem_of_mem_erase]

theorem apHashtable_unlinkAp (s : State K) (group owner : TgPtr)
    (permit : ApPtr) (index : Nat) :
    ((unlinkAp s group permit).tg owner).apHashtable index =
      if owner = group ∧
          index = xpmemApHashtableIndex K (s.ap permit).apid then
        ((s.tg owner).apHashtable index).erase permit
      else (s.tg owner).apHashtable index := by
  simp only [unlinkAp, State.modTg, State.modSeg, State.modAp,
    Function.update_apply]
  by_cases same : owner = group
  · subst owner
    by_cases here : index = xpmemApHashtableIndex K (s.ap permit).apid
    · simp [here]
    · simp [here]
  · simp [same]

theorem Named.unlinkAp (named : Named s) (group : TgPtr) {permit : ApPtr}
    (flagged : (s.ap permit).destroying = true) :
    Named (unlinkAp s group permit) := by
  have recorded := Recorded.unlinkAp s group permit
  have gone : ((Driver.unlinkAp s group permit).ap permit).destroying =
      true := by
    simp [Driver.unlinkAp, State.modTg, State.modSeg, State.modAp, flagged]
  refine ⟨named.hashed,
    named.segs.settles (settles_segs recorded rfl ?_ ?_ ?_),
    named.aps.settles (settles_aps recorded rfl ?_ ?_ ?_)⟩
  case refine_5 =>
    intro owner index other member
    rw [apHashtable_unlinkAp] at member
    split at member
    · exact List.mem_of_mem_erase member
    · exact member
  case refine_6 =>
    intro owner _ index other member here
    rw [apHashtable_unlinkAp]
    split
    · have differs : other ≠ permit := by
        rintro rfl
        rw [gone] at here
        cases here
      exact (List.mem_erase_of_ne differs).mpr member
    · exact member
  all_goals
    simp only [Driver.unlinkAp, State.modTg, State.modSeg, State.modAp,
      Function.update_apply]
    grind

theorem Named.linkTg (named : Named s) (tgid : Pid) (mm : MmPtr)
    (cred : Cred) : Named (linkTg s tgid mm cred) := by
  have recorded := Recorded.linkTg s tgid mm cred
  refine ⟨?_, named.segs.settles (settles_segs recorded rfl ?_ ?_ ?_),
    named.aps.settles (settles_aps recorded rfl ?_ ?_ ?_)⟩
  · intro index group member
    change group < s.nextTg + 1
    simp only [Driver.linkTg, State.modTg, State.modMm,
      Function.update_apply] at member
    have old := named.hashed index group
    grind
  all_goals
    simp only [Driver.linkTg, State.modTg, State.modMm,
      Function.update_apply]
    grind

/-- The next identifier of a group. -/
theorem makeSegid_eq {group : TgPtr} {segid : BitVec 64}
    (made : (xpmemMakeSegid s group).2 = some segid) :
    (s.tg group).uniqSegid + 1 ≤ xpmemMaxUniqId ∧
      segid = packId K (s.tg group).tgid ((s.tg group).uniqSegid + 1) ∧
      (xpmemMakeSegid s group).1 = s.modTg group fun tg =>
        { tg with uniqSegid := (s.tg group).uniqSegid + 1 } := by
  simp only [xpmemMakeSegid] at made ⊢
  split at made
  · cases made
  · rename_i below
    rw [if_neg below]
    cases made
    exact ⟨Nat.le_of_not_lt below, rfl, rfl⟩

theorem makeApid_eq {group : TgPtr} {apid : BitVec 64}
    (made : (xpmemMakeApid s group).2 = some apid) :
    (s.tg group).uniqApid + 1 ≤ xpmemMaxUniqId ∧
      apid = packId K (s.tg group).tgid ((s.tg group).uniqApid + 1) ∧
      (xpmemMakeApid s group).1 = s.modTg group fun tg =>
        { tg with uniqApid := (s.tg group).uniqApid + 1 } := by
  simp only [xpmemMakeApid] at made ⊢
  split at made
  · cases made
  · rename_i below
    rw [if_neg below]
    cases made
    exact ⟨Nat.le_of_not_lt below, rfl, rfl⟩

/-- `xpmem_make_segid` and the new segment make an entry. -/
theorem creates_segs {group : TgPtr} (known : group < s.nextTg)
    (bounded : (s.tg group).uniqSegid + 1 ≤ xpmemMaxUniqId)
    (vaddr size : Nat) (permitType : BitVec 32)
    (permitValue : BitVec 64) :
    s.segs.Creates (linkSeg (s.modTg group fun tg =>
        { tg with uniqSegid := (s.tg group).uniqSegid + 1 }) group
      (packId K (s.tg group).tgid ((s.tg group).uniqSegid + 1)) vaddr size
      permitType permitValue).segs group where
  known := known
  fresh number below := packId_ne (Nat.lt_succ_of_le below) bounded
  objects := rfl
  owners := rfl
  owner := by
    funext seg
    simp only [State.segs, linkSeg, State.modTg, State.modSeg,
      Function.update_apply]
    grind
  name := by
    funext seg
    simp only [State.segs, linkSeg, State.modTg, State.modSeg,
      Function.update_apply]
    grind
  gone := by
    funext seg
    simp only [State.segs, linkSeg, State.modTg, State.modSeg,
      Function.update_apply]
    grind
  make := by
    funext owner uniq
    simp only [State.segs, linkSeg, State.modTg, State.modSeg,
      Function.update_apply]
    grind
  count := by
    funext owner
    simp only [State.segs, linkSeg, State.modTg, State.modSeg,
      Function.update_apply]
    grind
  listed := by
    simp only [State.segs, linkSeg, State.modTg, State.modSeg,
      Function.update_apply]
    grind
  kept := by
    simp only [State.segs, linkSeg, State.modTg, State.modSeg,
      Function.update_apply]
    grind
  added := by
    simp [State.segs, linkSeg, State.modTg, State.modSeg]

theorem Named.linkSeg (named : Named s) {group : TgPtr} {index : Nat}
    (hashed : group ∈ s.myPart.tgHashtable index) {segid : BitVec 64}
    (made : (xpmemMakeSegid s group).2 = some segid) (vaddr size : Nat)
    (permitType : BitVec 32) (permitValue : BitVec 64) :
    Named (linkSeg (xpmemMakeSegid s group).1 group segid vaddr size
      permitType permitValue) := by
  have recorded := (Recorded.makeSegid s group).trans
    (.linkSeg _ group segid vaddr size permitType permitValue)
  obtain ⟨bounded, rfl, counted⟩ := makeSegid_eq made
  rw [counted] at recorded ⊢
  refine ⟨named.hashed, named.segs.creates (creates_segs
    (named.hashed index group hashed) bounded _ _ _ _),
    named.aps.settles (settles_aps recorded rfl ?_ ?_ ?_)⟩
  all_goals
    simp only [Driver.linkSeg, State.modTg, State.modSeg,
      Function.update_apply]
    grind

theorem apHashtable_linkAp (s : State K) (seg : SegPtr)
    (group owner : TgPtr) (apid : BitVec 64) (mode : BitVec 32)
    (index : Nat) :
    ((linkAp s seg group apid mode).tg owner).apHashtable index =
      if owner = group ∧ index = xpmemApHashtableIndex K apid then
        (s.tg owner).apHashtable index ++ [s.nextAp]
      else (s.tg owner).apHashtable index := by
  simp only [linkAp, State.modTg, State.modSeg, State.modAp,
    Function.update_apply]
  by_cases same : owner = group
  · subst owner
    by_cases here : index = xpmemApHashtableIndex K apid
    · simp [here]
    · simp [here]
  · simp [same]

/-- `xpmem_make_apid` and the new permit make an entry. -/
theorem creates_aps {group : TgPtr} (known : group < s.nextTg)
    (bounded : (s.tg group).uniqApid + 1 ≤ xpmemMaxUniqId)
    (seg : SegPtr) (mode : BitVec 32) :
    s.aps.Creates (linkAp (s.modTg group fun tg =>
        { tg with uniqApid := (s.tg group).uniqApid + 1 }) seg group
      (packId K (s.tg group).tgid ((s.tg group).uniqApid + 1)) mode).aps
      group := by
  have buckets (owner : TgPtr) (index : Nat) :
      ((s.modTg group fun tg =>
        { tg with uniqApid := (s.tg group).uniqApid + 1 }).tg
          owner).apHashtable index = (s.tg owner).apHashtable index := by
    simp only [State.modTg, Function.update_apply]
    grind
  exact
    { known := known
      fresh := fun number below =>
        packId_ne (Nat.lt_succ_of_le below) bounded
      objects := rfl
      owners := rfl
      owner := by
        funext permit
        simp only [State.aps, linkAp, State.modTg, State.modSeg,
          State.modAp, Function.update_apply]
        grind
      name := by
        funext permit
        simp only [State.aps, linkAp, State.modTg, State.modSeg,
          State.modAp, Function.update_apply]
        grind
      gone := by
        funext permit
        simp only [State.aps, linkAp, State.modTg, State.modSeg,
          State.modAp, Function.update_apply]
        grind
      make := by
        funext owner uniq
        simp only [State.aps, linkAp, State.modTg, State.modSeg,
          State.modAp, Function.update_apply]
        grind
      count := by
        funext owner
        simp only [State.aps, linkAp, State.modTg, State.modSeg,
          State.modAp, Function.update_apply]
        grind
      listed := by
        intro owner name permit member
        simp only [State.aps, apHashtable_linkAp, buckets] at member ⊢
        split at member
        · rename_i here
          rcases List.mem_append.mp member with old | new
          · exact .inl old
          · exact .inr ⟨List.mem_singleton.mp new, here.1⟩
        · exact .inl member
      kept := by
        intro owner name permit member
        simp only [State.aps, apHashtable_linkAp, buckets] at member ⊢
        split
        · exact List.mem_append_left _ member
        · exact member
      added := by
        simp [State.aps, apHashtable_linkAp, State.modTg] }

theorem Named.linkAp (named : Named s) {group : TgPtr} {index : Nat}
    (hashed : group ∈ s.myPart.tgHashtable index) {apid : BitVec 64}
    (made : (xpmemMakeApid s group).2 = some apid) (seg : SegPtr)
    (mode : BitVec 32) :
    Named (linkAp (xpmemMakeApid s group).1 seg group apid mode) := by
  have recorded := (Recorded.makeApid s group).trans
    (.linkAp _ seg group apid mode)
  obtain ⟨bounded, rfl, counted⟩ := makeApid_eq made
  rw [counted] at recorded ⊢
  refine ⟨named.hashed,
    named.segs.settles (settles_segs recorded rfl ?_ ?_ ?_),
    named.aps.creates (creates_aps (named.hashed index group hashed) bounded
      _ _)⟩
  all_goals
    simp only [Driver.linkAp, State.modTg, State.modSeg, State.modAp,
      Function.update_apply]
    grind

theorem Named.change {scope : Scope} (named : Named s)
    (change : Change scope s t) : Named t := by
  have recorded := change.recorded
  cases change with
  | rest tg seg ap att nextTg nextSeg nextAp nextAtt hashed =>
      exact named.of_entry recorded nextSeg nextAp (fun _ => by rw [tg])
        hashed
  | tg group entry destroying destroyed =>
      refine named.of_entry recorded rfl rfl (fun other => ?_)
        fun _ _ => id
      by_cases same : other = group
      · subst other
        simpa [State.modTg] using entry
      · simp [State.modTg, same]
  | seg | ap | att | attachLink =>
      exact named.of_entry recorded rfl rfl (fun _ => rfl) fun _ _ => id
  | makeApid _ group => exact named.makeApid group
  | linkAp _ hashed made seg mode => exact named.linkAp hashed made seg mode
  | unlinkAp _ group flagged => exact named.unlinkAp group flagged
  | makeSegid _ group => exact named.makeSegid group
  | linkSeg _ hashed made vaddr size permitType permitValue =>
      exact named.linkSeg hashed made vaddr size permitType permitValue
  | unlinkSeg _ group flagged => exact named.unlinkSeg group flagged
  | linkTg _ tgid mm cred => exact named.linkTg tgid mm cred

theorem Named.initial : Named ({} : State K) where
  hashed _ _ member := by cases member
  segs := ⟨nofun, nofun, nofun, nofun, nofun⟩
  aps := ⟨nofun, nofun, nofun, nofun, nofun⟩

end Changes

/-! ## Lookup -/

namespace State

/-- `xpmem_tg_ref_by_segid` and `xpmem_seg_ref_by_segid`. -/
def resolveSeg (s : State K) (segid : BitVec 64) : Option SegPtr :=
  (s.findTg (idToTgid K segid) false).bind fun group =>
    s.findSeg group segid

/-- `xpmem_tg_ref_by_apid` and `xpmem_ap_ref_by_apid`. -/
def resolveAp (s : State K) (apid : BitVec 64) : Option ApPtr :=
  (s.findTg (idToTgid K apid) false).bind fun group => s.findAp group apid

/-- The group is in its hash bucket. -/
def Hashed (s : State K) (group : TgPtr) : Prop :=
  group ∈ s.myPart.tgHashtable (xpmemTgHashtableIndex (s.tg group).tgid)

/-- No other group of the same process is live. -/
def Sole (s : State K) (group : TgPtr) : Prop :=
  ∀ index, ∀ other ∈ s.myPart.tgHashtable index,
    (s.tg other).tgid = (s.tg group).tgid →
      (s.tg other).destroying = false → other = group

end State

section Lookup

variable {s : State K}

theorem findTg_of_destroying {group : TgPtr} (sole : s.Sole group)
    (flagged : (s.tg group).destroying = true) :
    s.findTg (s.tg group).tgid false = none := by
  refine List.find?_eq_none.mpr fun other member => ?_
  simp only [Bool.false_or, Bool.and_eq_true, decide_eq_true_eq,
    Bool.not_eq_true', not_and, Bool.not_eq_false]
  intro same
  by_contra live
  have equal := sole _ other member same (by simpa using live)
  rw [equal, flagged] at live
  exact live rfl

theorem findTg_of_hashed {group : TgPtr} (sole : s.Sole group)
    (hashed : s.Hashed group) (live : (s.tg group).destroying = false) :
    s.findTg (s.tg group).tgid false = some group := by
  obtain ⟨other, found⟩ : ∃ other,
      s.findTg (s.tg group).tgid false = some other := by
    rw [← Option.isSome_iff_exists, State.findTg, List.find?_isSome]
    exact ⟨group, hashed, by simp [live]⟩
  have matching := List.find?_some found
  simp only [Bool.false_or, Bool.and_eq_true, decide_eq_true_eq,
    Bool.not_eq_true'] at matching
  rw [found, sole _ other (List.mem_of_find?_eq_some found) matching.1
    matching.2]

/-- A segid leads to the segment created with it, until that is flagged. -/
theorem Named.resolveSeg_eq (named : Named s) {seg : SegPtr}
    (used : seg < s.nextSeg) (sole : s.Sole (s.seg seg).tg)
    (hashed : (s.tg (s.seg seg).tg).destroying = false →
      s.Hashed (s.seg seg).tg) :
    s.resolveSeg (s.seg seg).segid =
      if (s.seg seg).destroying || (s.tg (s.seg seg).tg).destroying then
        none
      else some seg := by
  obtain ⟨uniq, _, name⟩ := named.segs.named seg used
  have decoded : idToTgid K (s.seg seg).segid =
      (s.tg (s.seg seg).tg).tgid := by
    rw [show (s.seg seg).segid = packId K (s.tg (s.seg seg).tg).tgid uniq
      from name, idToTgid_packId]
  rw [State.resolveSeg, decoded]
  cases flagged : (s.tg (s.seg seg).tg).destroying with
  | true => simp [findTg_of_destroying sole flagged]
  | false =>
      rw [findTg_of_hashed sole (hashed flagged) flagged, Option.bind_some,
        Bool.or_false]
      exact named.segs.find_eq used

/-- An apid leads to the permit created with it, until that is flagged. -/
theorem Named.resolveAp_eq (named : Named s) {permit : ApPtr}
    (used : permit < s.nextAp) (sole : s.Sole (s.ap permit).tg)
    (hashed : (s.tg (s.ap permit).tg).destroying = false →
      s.Hashed (s.ap permit).tg) :
    s.resolveAp (s.ap permit).apid =
      if (s.ap permit).destroying || (s.tg (s.ap permit).tg).destroying then
        none
      else some permit := by
  obtain ⟨uniq, _, name⟩ := named.aps.named permit used
  have decoded : idToTgid K (s.ap permit).apid =
      (s.tg (s.ap permit).tg).tgid := by
    rw [show (s.ap permit).apid = packId K (s.tg (s.ap permit).tg).tgid uniq
      from name, idToTgid_packId]
  rw [State.resolveAp, decoded]
  cases flagged : (s.tg (s.ap permit).tg).destroying with
  | true => simp [findTg_of_destroying sole flagged]
  | false =>
      rw [findTg_of_hashed sole (hashed flagged) flagged, Option.bind_some,
        Bool.or_false]
      exact named.aps.find_filter_eq used

end Lookup

/-! ## Runs -/

section Runs

variable {allowed : State K → Op → Prop}
    {events : List (Event (State K) Op Ret)} {s : State K}

theorem Named.of_run (run : Run step {} allowed events s) : Named s := by
  refine run.invariant Named .initial ?_
  intro pre op post ret named _ taken
  exact ((Keeps.step pre op).of_eq taken).invariant Named named
    fun _ _ named change => named.change change

/-- What an event leaves behind is recorded at the end of the run. -/
theorem Recorded.of_event (run : Run Driver.step {} allowed events s)
    {event : Event (State K) Op Ret} (member : event ∈ events) :
    Recorded event.post s := by
  refine run.persists (Recorded event.post) member (.refl _) ?_
  intro _ pre op post ret _ recorded _ taken
  exact recorded.trans ((Recorded.step pre op).of_eq taken)

theorem xpmemTgDeref_objects (s : State K) (group : TgPtr) :
    (s.xpmemTgDeref group).seg = s.seg ∧ (s.xpmemTgDeref group).ap = s.ap ∧
      (s.xpmemTgDeref group).nextSeg = s.nextSeg ∧
      (s.xpmemTgDeref group).nextAp = s.nextAp := by
  simp only [State.xpmemTgDeref]
  split <;> exact ⟨rfl, rfl, rfl, rfl⟩

theorem xpmemMakeSegid_nextSeg {group : TgPtr} {t : State K}
    {segid : Option (BitVec 64)}
    (made : xpmemMakeSegid s group = (t, segid)) :
    t.nextSeg = s.nextSeg := by
  simp only [xpmemMakeSegid] at made
  split at made <;> cases made <;> rfl

theorem xpmemMakeApid_nextAp {group : TgPtr} {t : State K}
    {apid : Option (BitVec 64)}
    (made : xpmemMakeApid s group = (t, apid)) :
    t.nextAp = s.nextAp := by
  simp only [xpmemMakeApid] at made
  split at made <;> cases made <;> rfl

theorem linkSeg_objects (s : State K) (group : TgPtr)
    (segid : BitVec 64) (vaddr size : Nat) (permitType : BitVec 32)
    (permitValue : BitVec 64) :
    let t := linkSeg s group segid vaddr size permitType permitValue
    s.nextSeg < t.nextSeg ∧ (t.seg s.nextSeg).segid = segid ∧
      (t.seg s.nextSeg).tg = group := by
  simp [linkSeg, State.modTg, State.modSeg]

theorem linkAp_objects (s : State K) (seg : SegPtr) (group : TgPtr)
    (apid : BitVec 64) (mode : BitVec 32) :
    let t := linkAp s seg group apid mode
    t.nextAp = s.nextAp + 1 ∧ (t.ap s.nextAp).record =
      { apid := apid, mode := mode, seg := seg, tg := group } := by
  simp [linkAp, State.modTg, State.modSeg, State.modAp,
    AccessPermit.record]

/-- The segment `xpmem_make` returns the identifier of. -/
theorem xpmemMake_eq_ok {current : Task} {vaddr size : BitVec 64}
    {permitType : BitVec 32} {permitValue segid : BitVec 64} {oom : Bool}
    {t : State K}
    (made : xpmemMake s current vaddr size permitType permitValue oom =
      (t, .ok segid)) :
    s.nextSeg < t.nextSeg ∧ (t.seg s.nextSeg).segid = segid ∧
      s.findTg current.tgid false = some (t.seg s.nextSeg).tg := by
  unfold xpmemMake at made
  split at made
  · cases made
  · split at made
    · cases made
    · rename_i segTg found
      dsimp only at made
      split at made
      · cases made
      · rename_i size _
        split at made
        · cases made
        · split at made
          · cases made
          · rename_i counted given equal
            split at made
            · cases made
            · cases made
              have same := xpmemMakeSegid_nextSeg equal
              change counted.nextSeg = s.nextSeg at same
              obtain ⟨seg, _, next, _⟩ := xpmemTgDeref_objects
                (linkSeg counted segTg segid vaddr.toNat size permitType
                  permitValue) segTg
              obtain ⟨used, id, owner⟩ := linkSeg_objects counted segTg
                segid vaddr.toNat size permitType permitValue
              rw [seg, next, found, ← same, owner]
              exact ⟨used, id, rfl⟩

/-- A reference to a group does not show in a lookup. -/
theorem findTg_xpmemTgRef (s : State K) (group : TgPtr) (tgid : Pid)
    (all : Bool) :
    (s.xpmemTgRef group).findTg tgid all = s.findTg tgid all := by
  have same (other : TgPtr) :
      ((s.xpmemTgRef group).tg other).tgid = (s.tg other).tgid ∧
        ((s.xpmemTgRef group).tg other).destroying =
          (s.tg other).destroying := by
    by_cases here : other = group
    · subst other
      simp [State.xpmemTgRef, State.modTg]
    · simp [State.xpmemTgRef, State.modTg, here]
  simp only [State.findTg, same]
  rfl

theorem findSeg_xpmemTgRef (s : State K) (group owner : TgPtr)
    (segid : BitVec 64) :
    (s.xpmemTgRef group).findSeg owner segid = s.findSeg owner segid := by
  have same : ((s.xpmemTgRef group).tg owner).segList =
      (s.tg owner).segList := by
    by_cases here : owner = group
    · subst owner
      simp [State.xpmemTgRef, State.modTg]
    · simp [State.xpmemTgRef, State.modTg, here]
  simp only [State.findSeg, same]
  rfl

/-- References do not show in the IPC rule. -/
theorem segPerms_refs (s : State K) (group : TgPtr) (ref seg : SegPtr)
    (cred : Cred) (flag : BitVec 32) :
    segPerms ((s.xpmemTgRef group).xpmemSegRef ref) cred seg flag =
      segPerms s cred seg flag := by
  simp only [segPerms, State.xpmemTgRef, State.xpmemSegRef, State.modTg,
    State.modSeg, Function.update_apply]
  split_ifs <;> simp_all

/-- The permit that is left when nothing fails after the permission check. -/
theorem getPermitted_eq_ok {current : Task} {seg : SegPtr} {segTg : TgPtr}
    {flags : BitVec 32} {oom : Bool} {apid : BitVec 64} {t : State K}
    (got : getPermitted s current seg segTg flags oom = (t, .ok apid)) :
    ∃ apTg, s.findTg current.tgid false = some apTg ∧
      t.nextAp = s.nextAp + 1 ∧ (t.ap s.nextAp).record =
        { apid := apid, mode := flags, seg := seg, tg := apTg } := by
  unfold getPermitted at got
  split at got
  · cases got
  · rename_i apTg found
    dsimp only at got
    split at got
    · cases got
    · rename_i counted given equal
      split at got
      · cases got
      · cases got
        have same := xpmemMakeApid_nextAp equal
        change counted.nextAp = s.nextAp at same
        obtain ⟨_, ap, _, next⟩ := xpmemTgDeref_objects
          (linkAp counted seg apTg apid flags) apTg
        rw [ap, next, ← same]
        exact ⟨apTg, found, linkAp_objects counted seg apTg apid flags⟩

/--
What `xpmem_get` has checked when it succeeds, and the permit it leaves: the
one at the pointer that was next.
-/
structure Granted (s : State K) (tgid : Pid) (cred : Cred)
    (segid : BitVec 64) (flags : BitVec 32) (apid : BitVec 64)
    (t : State K) : Prop where
  next : t.nextAp = s.nextAp + 1
  apid : (t.ap s.nextAp).apid = apid
  mode : (t.ap s.nextAp).mode = flags
  seg : s.resolveSeg segid = some (t.ap s.nextAp).seg
  group : s.findTg tgid false = some (t.ap s.nextAp).tg
  filtered : getFlagsInvalid flags = false
  checked :
    xpmemCheckPermitMode s cred flags (t.ap s.nextAp).seg = true

/-- The permit `xpmem_get` returns the identifier of. -/
theorem xpmemGet_eq_ok {current : Task} {cred : Cred} {segid : BitVec 64}
    {flags permitType : BitVec 32} {permitValue apid : BitVec 64}
    {oom : Bool} {t : State K}
    (got : xpmemGet s current cred segid flags permitType permitValue oom =
      (t, .ok apid)) :
    Granted s current.tgid cred segid flags apid t := by
  unfold xpmemGet at got
  split at got
  · cases got
  · split at got
    · cases got
    · rename_i filtered
      split at got
      · cases got
      · split at got
        · cases got
        · rename_i segTg owner
          dsimp only at got
          split at got
          · cases got
          · rename_i seg found
            split at got
            · rename_i checked
              obtain ⟨apTg, group, next, record⟩ := getPermitted_eq_ok got
              have here : (t.ap s.nextAp).seg = seg :=
                congrArg AccessPermit.seg record
              have holder : (t.ap s.nextAp).tg = apTg :=
                congrArg AccessPermit.tg record
              change (s.xpmemTgRef segTg).findTg current.tgid false =
                some apTg at group
              rw [findTg_xpmemTgRef] at group
              rw [findSeg_xpmemTgRef] at found
              simp only [xpmemCheckPermitMode, segPerms_refs] at checked
              exact
                { next := next
                  apid := congrArg AccessPermit.apid record
                  mode := congrArg AccessPermit.mode record
                  seg := by
                    rw [State.resolveSeg, owner, here]
                    exact found
                  group := by rw [group, holder]
                  filtered := by simpa using filtered
                  checked := by rw [here]; exact checked }
            · cases got

/-- The segment whose identifier `XPMEM_CMD_MAKE` hands out. -/
theorem step_make_eq {tgid : Pid} {vaddr size : BitVec 64}
    {permitType : BitVec 32} {permitValue segid : BitVec 64}
    {env : IoctlEnv} {t : State K}
    (taken : step s (.ioctl tgid (.make vaddr size permitType permitValue)
      env) = some (t, .value segid)) :
    s.nextSeg < t.nextSeg ∧ (t.seg s.nextSeg).segid = segid ∧
      s.findTg tgid false = some (t.seg s.nextSeg).tg := by
  simp only [Driver.step, asTask, xpmemIoctl, ioctlMake] at taken
  split at taken
  · split at taken
    · cases taken
    · split at taken
      · cases taken
      · rename_i made
        split at taken
        · cases taken
          exact xpmemMake_eq_ok made
        · simp at taken
  · cases taken

/-- The permit whose identifier `XPMEM_CMD_GET` hands out. -/
theorem step_get_eq {tgid : Pid} {segid : BitVec 64}
    {flags permitType : BitVec 32} {permitValue apid : BitVec 64}
    {env : IoctlEnv} {t : State K}
    (taken : step s (.ioctl tgid (.get segid flags permitType permitValue)
      env) = some (t, .value apid)) :
    s.nextAp < t.nextAp ∧ (t.ap s.nextAp).apid = apid ∧
      s.findTg tgid false = some (t.ap s.nextAp).tg := by
  simp only [Driver.step, asTask, xpmemIoctl, ioctlGet] at taken
  split at taken
  · split at taken
    · cases taken
    · split at taken
      · cases taken
      · rename_i got
        split at taken
        · cases taken
          have granted := xpmemGet_eq_ok got
          exact ⟨by rw [granted.next]; exact Nat.lt_succ_self _,
            granted.apid, granted.group⟩
        · simp at taken
  · cases taken

end Runs

end Xpmem.Driver
