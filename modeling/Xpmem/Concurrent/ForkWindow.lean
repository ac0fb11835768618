import Xpmem.Concurrent.Forking

/-!
# No PTE is present in the fork window

With the blocks of recalls counted out by the gate, a thread that forks finds
no fault that could still set `XPMEM_FLAG_VALIDPTEs`.  The flag tells of the
PTEs of an attachment and of a fault about to insert one, so an attachment
whose flag the recall finds or makes clear is clean for the rest of the fork.
That the recall makes it clear rests on the range of the segment: a range
that wraps around misses the windows behind the wrap.
-/

namespace Xpmem.Concurrent.ForkWindow

open Driver Foundation Kernel

universe u

variable {K : Platform} {s next : Shared} {place place' : Place}
    {choice : Choice}

/-! ## Windows inside their segments -/

/-- A window of a segment that does not wrap is cleared as a whole. -/
theorem Attachment.clear_of_inside {att : Attachment} {seg : Segment}
    (valid : att.validPTEs) (straight : seg.vaddr + seg.size < 2 ^ 64)
    (proper : 0 < att.atSize) (low : seg.vaddr ≤ att.vaddr)
    (high : att.vaddr + att.atSize ≤ seg.vaddr + seg.size) :
    (att.clear seg).validPTEs = false ∧
      ∀ page, page * pageSize < att.atSize →
        (att.clear seg).pte page = false := by
  have attEnd : u64 (att.vaddr + att.atSize) = att.vaddr + att.atSize :=
    u64_of_lt (high.trans_lt straight)
  have offsetStart : u64Sub (max seg.vaddr att.vaddr) att.vaddr = 0 := by
    rw [max_eq_right low, u64Sub_of_le le_rfl (by omega), Nat.sub_self]
  have offsetEnd : u64Sub (min (u64 (seg.vaddr + seg.size))
      (att.vaddr + att.atSize)) att.vaddr = att.atSize := by
    rw [u64_of_lt straight, min_eq_right high,
      u64Sub_of_le (Nat.le_add_right _ _) (by omega), Nat.add_sub_cancel_left]
  have length : u64Sub att.atSize 0 = att.atSize :=
    u64Sub_of_le (Nat.zero_le _) (by omega)
  have meets : ¬ (att.vaddr + att.atSize ≤ max seg.vaddr att.vaddr ∨
      min (u64 (seg.vaddr + seg.size)) (att.vaddr + att.atSize) ≤
        att.vaddr) := by
    rw [u64_of_lt straight, max_eq_right low, min_eq_right high]
    omega
  unfold Attachment.clear
  simp only [valid, attEnd, meets, offsetStart, offsetEnd, length,
    Bool.not_true, Bool.false_eq_true, if_false, and_self, if_true,
    Nat.zero_le, true_and, Nat.zero_add]
  intro page inside
  rw [if_pos inside]

/-- A fault is inside an area that could be mapped. -/
def Place.Inside (K : Platform) (s : Shared) : Place → Prop
  | .fault att page | .faultDownRead att page | .faultLock att page
  | .faultPin att page | .faultUpRead att page _ | .faultUnblock att page _
  | .faultInsert att page _ =>
      (s.att att).atSize ≤ K.taskSize ∧
        page * pageSize < (s.att att).atSize
  | _ => True

/-- Segments do not wrap, and windows are inside their segments. -/
structure Windowed (K : Platform) (s : Shared) : Prop where
  straight {seg : Nat} (made : seg < s.nextSeg) :
    (s.seg seg).vaddr + (s.seg seg).size < 2 ^ 64
  inside {att : Nat} (made : att < s.nextAtt)
      (small : (s.att att).atSize ≤ K.taskSize) :
    0 < (s.att att).atSize ∧
      (s.seg (s.segOf att)).vaddr ≤ (s.att att).vaddr ∧
      (s.att att).vaddr + (s.att att).atSize ≤
        (s.seg (s.segOf att)).vaddr + (s.seg (s.segOf att)).size
  small {att : Nat} (made : att < s.nextAtt)
      (used : (s.att att).mapped ∨ (s.att att).validPTEs) :
    (s.att att).atSize ≤ K.taskSize
  page {att page : Nat} (made : att < s.nextAtt)
      (present : (s.att att).pte page) :
    page * pageSize < (s.att att).atSize

/-- A segment that is made does not wrap. -/
def Choice.straight (K : Platform) : Choice → Prop
  | .make vaddr size =>
      ∀ length ∈ makeSize K.taskSize vaddr.toNat size.toNat,
        vaddr.toNat + length < 2 ^ 64
  | _ => True

instance : Decidable (choice.straight K) := by
  unfold Choice.straight
  split <;> infer_instance

theorem Relists.atSize {t : Shared} (relists : Relists s t) {att : Nat}
    (made : att < s.nextAtt) : (t.att att).atSize = (s.att att).atSize :=
  congrArg (fun window => window.2.2) (relists.window made)

theorem Relists.segOf {t : Shared} (relists : Relists s t)
    (listed : Listed s) {att : Nat} (made : att < s.nextAtt) :
    t.segOf att = s.segOf att := by
  unfold Shared.segOf
  rw [relists.att_ap made, relists.ap_seg (listed.att_ap made)]

theorem Relists.inside {t : Shared} (relists : Relists s t)
    (listed : Listed s) (windowed : Windowed K s) {att : Nat}
    (made : att < s.nextAtt) (small : (t.att att).atSize ≤ K.taskSize) :
    0 < (t.att att).atSize ∧
      (t.seg (t.segOf att)).vaddr ≤ (t.att att).vaddr ∧
      (t.att att).vaddr + (t.att att).atSize ≤
        (t.seg (t.segOf att)).vaddr + (t.seg (t.segOf att)).size := by
  have range := relists.range (listed.ap_seg (listed.att_ap made))
  have window := relists.window made
  simp only [Segment.range, Attachment.window, Prod.mk.injEq] at range window
  rw [relists.segOf listed made, window.2.1, window.2.2]
  unfold Shared.segOf
  rw [range.1, range.2]
  exact windowed.inside made (window.2.2 ▸ small)

/-- A step that makes no segment and no attachment. -/
theorem Windowed.keep {t : Shared} (windowed : Windowed K s)
    (listed : Listed s) (relists : Relists s t)
    (segs : t.nextSeg = s.nextSeg) (atts : t.nextAtt = s.nextAtt)
    (used : ∀ att, (t.att att).mapped ∨ (t.att att).validPTEs →
      (s.att att).mapped ∨ (s.att att).validPTEs ∨
        (s.att att).atSize ≤ K.taskSize)
    (present : ∀ att page, (t.att att).pte page →
      (s.att att).pte page ∨ page * pageSize < (s.att att).atSize) :
    Windowed K t where
  straight {seg} made := by
    rw [segs] at made
    have range := relists.range made
    simp only [Segment.range, Prod.mk.injEq] at range
    rw [range.1, range.2]
    exact windowed.straight made
  inside made small :=
    relists.inside listed windowed (atts ▸ made) small
  small {att} made flags := by
    rw [atts] at made
    rw [relists.atSize made]
    rcases used att flags with mapped | valid | small
    · exact windowed.small made (Or.inl mapped)
    · exact windowed.small made (Or.inr valid)
    · exact small
  page {att page} made pte := by
    rw [atts] at made
    rw [relists.atSize made]
    rcases present att page pte with before | inside
    · exact windowed.page made before
    · exact inside

theorem Windowed.linkSeg (windowed : Windowed K s) (listed : Listed s)
    {vaddr size : Nat} (straight : vaddr + size < 2 ^ 64) :
    Windowed K (s.linkSeg vaddr size) where
  straight {seg} made := by
    by_cases equal : seg = s.nextSeg
    · rw [equal]
      simpa only [Shared.linkSeg, Function.update_self] using straight
    · have old : seg < s.nextSeg :=
        lt_of_le_of_ne (Nat.le_of_lt_succ made) equal
      simp only [Shared.linkSeg, Function.update_of_ne equal]
      exact windowed.straight old
  inside made small :=
    (listed.linkSeg vaddr size).2.inside listed windowed made small
  small := windowed.small
  page := windowed.page

/-- What `xpmem_validate_access` accepts for a size that can be mapped. -/
theorem inside_of_valid {vaddr length : Nat} {offset size : BitVec 64}
    (straight : vaddr + length < 2 ^ 64)
    (valid : ¬ (offset.toInt < 0 ∨ size = 0 ∨
      length < u64 (offset.toNat + size.toNat)))
    (small : size.toNat ≤ K.taskSize) :
    0 < size.toNat ∧ vaddr ≤ u64 (vaddr + offset.toNat) ∧
      u64 (vaddr + offset.toNat) + size.toNat ≤ vaddr + length := by
  have bound := K.taskSize_le
  simp only [not_or, not_lt] at valid
  obtain ⟨positive, nonzero, fits⟩ := valid
  rw [BitVec.toInt_eq_toNat_cond] at positive
  have below : offset.toNat < 2 ^ 63 := by
    split at positive <;> omega
  rw [u64_of_lt (by omega)] at fits
  rw [u64_of_lt (by omega)]
  have proper : size.toNat ≠ 0 := by
    simpa [← BitVec.toNat_inj] using nonzero
  omega

theorem Windowed.linkAtt (windowed : Windowed K s) (listed : Listed s)
    {ap : Nat} {offset size : BitVec 64} (made : ap < s.nextAp)
    (valid : ¬ (offset.toInt < 0 ∨ size = 0 ∨
      (s.seg (s.ap ap).seg).size < u64 (offset.toNat + size.toNat))) :
    Windowed K (s.linkAtt ap (u64 ((s.seg (s.ap ap).seg).vaddr +
      offset.toNat)) size.toNat) := by
  have straight := windowed.straight (listed.ap_seg made)
  have relists := (listed.linkAtt made (u64 ((s.seg (s.ap ap).seg).vaddr +
    offset.toNat)) size.toNat).2
  have old {att : Nat} (made : att < s.nextAtt + 1)
      (new : att ≠ s.nextAtt) : att < s.nextAtt :=
    lt_of_le_of_ne (Nat.le_of_lt_succ made) new
  constructor
  · intro seg below
    exact windowed.straight below
  · intro att below small
    by_cases new : att = s.nextAtt
    · subst new
      simp only [Shared.linkAtt, Shared.segOf, Shared.modAp,
        Function.update_self] at small ⊢
      exact inside_of_valid straight valid small
    · exact relists.inside listed windowed (old below new) small
  · intro att below used
    by_cases new : att = s.nextAtt
    · subst new
      simp [Shared.linkAtt, Function.update_self] at used
    · simp only [Shared.linkAtt, Function.update_of_ne new] at used ⊢
      exact windowed.small (old below new) used
  · intro att page below present
    by_cases new : att = s.nextAtt
    · subst new
      simp [Shared.linkAtt, Function.update_self] at present
    · simp only [Shared.linkAtt, Function.update_of_ne new] at present ⊢
      exact windowed.page (old below new) present

theorem Attachment.clear_mapped (att : Attachment) (seg : Segment) :
    (att.clear seg).mapped = att.mapped := by
  unfold Attachment.clear
  extract_lets
  split_ifs <;> rfl

theorem Attachment.clear_destroying (att : Attachment) (seg : Segment) :
    (att.clear seg).destroying = att.destroying := by
  unfold Attachment.clear
  extract_lets
  split_ifs <;> rfl

theorem Attachment.validPTEs_of_clear {att : Attachment} {seg : Segment}
    (valid : (att.clear seg).validPTEs) : att.validPTEs := by
  unfold Attachment.clear at valid
  extract_lets at valid
  split_ifs at valid
  all_goals exact valid

theorem Attachment.pte_of_clear {att : Attachment} {seg : Segment}
    {page : Nat} (present : (att.clear seg).pte page) : att.pte page := by
  unfold Attachment.clear at present
  extract_lets _ _ _ offsetStart _ length at present
  have or_false {inside : Prop} [Decidable inside]
      (kept : (if inside then false else att.pte page) = true) :
      att.pte page = true := by
    split_ifs at kept
    exact kept
  split_ifs at present
  · exact present
  · exact present
  · exact or_false present
  · exact or_false present

/-- A step that leaves the attachments alone. -/
theorem Windowed.of_att_eq {t : Shared} (windowed : Windowed K s)
    (listed : Listed s) (relists : Relists s t)
    (segs : t.nextSeg = s.nextSeg) (atts : t.nextAtt = s.nextAtt)
    (same : t.att = s.att) : Windowed K t :=
  windowed.keep listed relists segs atts
    (fun _ used => by rw [same] at used; exact used.imp id Or.inl)
    (fun _ _ present => by rw [same] at present; exact Or.inl present)

/-- A step that changes one attachment, after a change of the lists. -/
theorem Windowed.modAtt {t : Shared} (windowed : Windowed K s)
    (listed : Listed s) {att : Nat} {change : Attachment → Attachment}
    (relists : Relists s (t.modAtt att change))
    (segs : t.nextSeg = s.nextSeg) (atts : t.nextAtt = s.nextAtt)
    (same : t.att = s.att)
    (used : (change (s.att att)).mapped ∨ (change (s.att att)).validPTEs →
      (s.att att).mapped ∨ (s.att att).validPTEs ∨
        (s.att att).atSize ≤ K.taskSize)
    (present : ∀ page, (change (s.att att)).pte page →
      (s.att att).pte page ∨ page * pageSize < (s.att att).atSize) :
    Windowed K (t.modAtt att change) := by
  refine windowed.keep listed relists segs atts ?_ ?_
  · intro other flags
    rw [Shared.att_modAtt, same] at flags
    split_ifs at flags with equal
    · exact equal ▸ used flags
    · exact flags.imp id Or.inl
  · intro other page pte
    rw [Shared.att_modAtt, same] at pte
    split_ifs at pte with equal
    · exact equal ▸ present page pte
    · exact Or.inl pte

theorem windowed_act (moved : act K s place choice = some (next, place'))
    (straight : choice.straight K) (listed : Listed s)
    (known : place.Known s) (windowed : Windowed K s)
    (inside : place.Inside K s) : Windowed K next := by
  have relists := (listed_act moved listed known).2.1
  revert moved
  fun_cases act K s place choice
  case case1 =>
    fun_cases call K s choice <;> intro moved <;>
      simp only [Option.some.injEq, Prod.mk.injEq, reduceCtorEq] at moved <;>
      obtain ⟨rfl, rfl⟩ := moved
    case case3 made _ => exact windowed.linkSeg listed (straight _ made)
    case case10 =>
      exact windowed.modAtt listed relists rfl rfl rfl
        (fun used => used.imp id Or.inl) (fun _ => Or.inl)
    all_goals exact windowed.of_att_eq listed relists rfl rfl rfl
  case case2 yes _ =>
    fun_cases work K s yes place <;> intro moved <;>
      simp only [Option.some.injEq, Prod.mk.injEq, reduceCtorEq] at moved <;>
      obtain ⟨rfl, rfl⟩ := moved
    case case3 valid _ => exact windowed.linkAtt listed known valid
    case case4 guards _ =>
      exact windowed.modAtt listed relists rfl rfl rfl
        (fun _ => Or.inr (Or.inr guards.2)) (fun _ => Or.inl)
    case case15 =>
      exact windowed.modAtt listed relists rfl rfl rfl
        (fun _ => Or.inr (Or.inr inside.1)) (fun _ => Or.inl)
    case case21 att page _ _ =>
      refine windowed.modAtt listed relists rfl rfl rfl
        (fun used => used.imp id Or.inl) fun other present => ?_
      by_cases equal : other = page
      · exact Or.inr (equal ▸ inside.2)
      · simp only [Function.update_of_ne equal] at present
        exact Or.inl present
    case case26 =>
      exact windowed.modAtt listed relists rfl rfl rfl
        (by rintro (⟨⟨⟩⟩ | ⟨⟨⟩⟩)) (fun _ => Or.inl)
    case case29 =>
      exact windowed.modAtt listed relists rfl rfl rfl
        (fun used => used.imp id Or.inl) (by rintro _ ⟨⟨⟩⟩)
    case case46 =>
      refine windowed.modAtt listed relists rfl rfl rfl ?_
        (fun _ present => Or.inl (Attachment.pte_of_clear present))
      rw [Attachment.clear_mapped]
      exact Or.imp id fun valid =>
        Or.inl (Attachment.validPTEs_of_clear valid)
    all_goals
      first
      | exact windowed.of_att_eq listed relists rfl rfl rfl
      | exact windowed.modAtt listed relists rfl rfl rfl
          (fun used => used.imp id Or.inl) (fun _ => Or.inl)
  case case3 => simp

theorem Place.Inside.mono {t : Shared} (inside : place.Inside K s)
    (known : place.Known s) (relists : Relists s t) : place.Inside K t := by
  cases place with
  | fault | faultDownRead | faultLock | faultPin | faultUpRead
  | faultUnblock | faultInsert =>
      have same := relists.atSize known
      simp only [Place.Inside] at inside ⊢
      rw [same]
      exact inside
  | _ => trivial

theorem inside_act (moved : act K s place choice = some (next, place'))
    (listed : Listed s) (known : place.Known s) (windowed : Windowed K s)
    (inside : place.Inside K s) : place'.Inside K next := by
  obtain ⟨after, relists, known'⟩ := listed_act moved listed known
  revert moved
  fun_cases act K s place choice
  case case1 =>
    fun_cases call K s choice <;> intro moved <;>
      simp only [Option.some.injEq, Prod.mk.injEq, reduceCtorEq] at moved <;>
      obtain ⟨rfl, rfl⟩ := moved
    case case8 guards =>
      exact ⟨windowed.small known' (Or.inl guards.1), guards.2⟩
    all_goals trivial
  case case2 yes _ =>
    fun_cases work K s yes place <;> intro moved <;>
      simp only [Option.some.injEq, Prod.mk.injEq, reduceCtorEq] at moved <;>
      obtain ⟨rfl, rfl⟩ := moved <;>
      first
      | trivial
      | exact Place.Inside.mono inside known relists
  case case3 => simp

/-! ## The flag -/

/-- The attachment is in the list of its permit. -/
def Shared.InList (s : Shared) (att : Nat) : Prop :=
  att ∈ (s.ap (s.att att).ap).attList

/-- The fault has set the flag and may insert a PTE. -/
def Place.pins (att : Nat) : Place → Prop
  | .faultUpRead other _ outcome | .faultUnblock other _ outcome
  | .faultInsert other _ outcome => other = att ∧ outcome = .pinned
  | _ => False

/-- What concerns one attachment is as before, but for PTEs unmapped. -/
structure Untouched (s t : Shared) (att : Nat) : Prop where
  validPTEs : (t.att att).validPTEs = (s.att att).validPTEs
  destroying : (t.att att).destroying = (s.att att).destroying
  pte {page : Nat} (present : (t.att att).pte page) : (s.att att).pte page
  inList : t.InList att ↔ s.InList att

theorem untouched_modAtt {t : Shared} {att other : Nat}
    {change : Attachment → Attachment} (differs : att ≠ other)
    (untouched : Untouched s t att) :
    Untouched s (t.modAtt other change) att := by
  have same : (t.modAtt other change).att att = t.att att := by
    rw [Shared.att_modAtt, if_neg differs]
  have list : (t.modAtt other change).InList att ↔ t.InList att := by
    unfold Shared.InList
    rw [same]
    rfl
  exact ⟨same ▸ untouched.validPTEs, same ▸ untouched.destroying,
    fun present => untouched.pte (same ▸ present),
    list.trans untouched.inList⟩

theorem untouched_of_eq {t : Shared} {att : Nat} (same : t.att = s.att)
    (list : t.InList att ↔ s.InList att) : Untouched s t att :=
  ⟨by rw [same], by rw [same], fun present => by rwa [same] at present, list⟩

/-- The change is of the mutex only, or removes PTEs. -/
theorem untouched_of_change {att other : Nat}
    {change : Attachment → Attachment}
    (ap : (change (s.att other)).ap = (s.att other).ap)
    (validPTEs : (change (s.att other)).validPTEs =
      (s.att other).validPTEs)
    (destroying : (change (s.att other)).destroying =
      (s.att other).destroying)
    (pte : ∀ page, (change (s.att other)).pte page →
      (s.att other).pte page) :
    Untouched s (s.modAtt other change) att := by
  by_cases equal : att = other
  · subst equal
    have same : (s.modAtt att change).att att = change (s.att att) := by
      rw [Shared.att_modAtt, if_pos rfl]
    refine ⟨same ▸ validPTEs, same ▸ destroying,
      fun present => pte _ (same ▸ present), ?_⟩
    unfold Shared.InList
    rw [same, ap]
    rfl
  · exact untouched_modAtt equal (untouched_of_eq rfl Iff.rfl)

theorem untouched_unlock {att other : Nat} :
    Untouched s (s.unlock other) att :=
  untouched_of_change rfl rfl rfl fun _ => id

theorem untouched_linkAp {att seg : Nat} (listed : Listed s)
    (made : att < s.nextAtt) : Untouched s (s.linkAp seg) att := by
  refine untouched_of_eq rfl ?_
  have old := (listed.att_ap made).ne
  simp only [Shared.InList, Shared.linkAp, Shared.modSeg,
    Function.update_of_ne old]

theorem untouched_linkAtt {att ap vaddr size : Nat}
    (made : att < s.nextAtt) :
    Untouched s (s.linkAtt ap vaddr size) att := by
  have same : (s.linkAtt ap vaddr size).att att = s.att att :=
    Function.update_of_ne made.ne ..
  refine ⟨by rw [same], by rw [same], fun present => by rwa [same] at present,
    ?_⟩
  unfold Shared.InList
  rw [same]
  simp only [Shared.linkAtt, Shared.ap_modAp]
  split_ifs with equal
  · rw [equal]
    simp [made.ne]
  · rfl

theorem untouched_unlinkAtt {att other : Nat} (differs : att ≠ other) :
    Untouched s (s.unlinkAtt other) att := by
  refine untouched_of_eq rfl ?_
  unfold Shared.InList Shared.unlinkAtt
  rw [Shared.ap_modAp]
  split_ifs with equal
  · rw [← equal]
    exact List.mem_erase_of_ne differs
  · rfl

theorem untouched_act (moved : act K s place choice = some (next, place'))
    (listed : Listed s) {att : Nat} (made : att < s.nextAtt)
    (free : ¬ place.locks att) :
    Untouched s next att := by
  revert moved
  fun_cases act K s place choice
  case case1 =>
    fun_cases call K s choice <;> intro moved <;>
      simp only [Option.some.injEq, Prod.mk.injEq, reduceCtorEq] at moved <;>
      obtain ⟨rfl, rfl⟩ := moved
    case case4 => exact untouched_linkAp listed made
    case case10 => exact untouched_of_change rfl rfl rfl fun _ => id
    all_goals exact untouched_of_eq rfl Iff.rfl
  case case2 yes _ =>
    fun_cases work K s yes place <;> intro moved <;>
      simp only [Option.some.injEq, Prod.mk.injEq, reduceCtorEq] at moved <;>
      obtain ⟨rfl, rfl⟩ := moved
    case case3 => exact untouched_linkAtt made
    case case5 | case26 =>
      exact untouched_modAtt (Ne.symm free)
        (untouched_unlinkAtt (Ne.symm free))
    case case21 =>
      exact untouched_modAtt (fun same => free ⟨same.symm, by simp⟩)
        (untouched_of_eq rfl Iff.rfl)
    case case29 => exact untouched_of_change rfl rfl rfl (by rintro _ ⟨⟨⟩⟩)
    all_goals
      first
      | exact untouched_of_eq rfl Iff.rfl
      | exact untouched_of_change rfl rfl rfl fun _ => id
      | exact untouched_modAtt (Ne.symm free) (untouched_of_eq rfl Iff.rfl)
  case case3 => simp

/-- The flag tells of the PTEs of an attachment that is listed. -/
structure Honest (s : Shared) (att : Nat) : Prop where
  present {page : Nat} (member : s.InList att)
    (pte : (s.att att).pte page) : (s.att att).validPTEs
  unlisted (gone : ¬ s.InList att) :
    (s.att att).destroying ∧ (s.att att).validPTEs = false

/-- What a thread that holds the mutex of an attachment relies on. -/
structure Place.Relies (s : Shared) (place : Place) (att : Nat) : Prop where
  pending (pins : place.pins att) : (s.att att).validPTEs
  marked (marks : place = .detachOwner att) :
    s.InList att ∧ (s.att att).destroying
  fresh (maps : place = .attachMap att) : (s.att att).validPTEs = false

theorem Honest.keep {t : Shared} {att : Nat} (honest : Honest s att)
    (untouched : Untouched s t att) : Honest t att := by
  constructor
  · intro page member pte
    rw [untouched.validPTEs]
    exact honest.present (untouched.inList.mp member) (untouched.pte pte)
  · intro gone
    rw [untouched.validPTEs, untouched.destroying]
    exact honest.unlisted (mt untouched.inList.mpr gone)

theorem Place.Relies.keep {t : Shared} {att : Nat}
    (relies : place.Relies s att) (untouched : Untouched s t att) :
    place.Relies t att := by
  refine ⟨fun pins => ?_, fun marks => ?_, fun maps => ?_⟩
  · rw [untouched.validPTEs]
    exact relies.pending pins
  · rw [untouched.inList, untouched.destroying]
    exact relies.marked marks
  · rw [untouched.validPTEs]
    exact relies.fresh maps

/-- A change of one attachment that leaves the lists alone. -/
theorem honest_modAtt {att : Nat} {change : Attachment → Attachment}
    (ap : (change (s.att att)).ap = (s.att att).ap)
    (present : ∀ page, s.InList att → (change (s.att att)).pte page →
      (change (s.att att)).validPTEs)
    (unlisted : ¬ s.InList att → (change (s.att att)).destroying ∧
      (change (s.att att)).validPTEs = false) :
    Honest (s.modAtt att change) att := by
  have same : (s.modAtt att change).att att = change (s.att att) := by
    rw [Shared.att_modAtt, if_pos rfl]
  have list : (s.modAtt att change).InList att ↔ s.InList att := by
    unfold Shared.InList
    rw [same, ap]
    rfl
  constructor
  · intro page member pte
    rw [same] at pte ⊢
    exact present page (list.mp member) pte
  · intro gone
    rw [same]
    exact unlisted (mt list.mpr gone)

theorem honest_unlink {att : Nat} (listed : Listed s)
    {change : Attachment → Attachment}
    (ap : (change (s.att att)).ap = (s.att att).ap)
    (destroying : (change (s.att att)).destroying)
    (invalid : (change (s.att att)).validPTEs = false) :
    Honest ((s.unlinkAtt att).modAtt att change) att := by
  have gone : ¬ (s.unlinkAtt att).InList att := by
    unfold Shared.InList Shared.unlinkAtt
    simp only [Shared.modAp, Function.update_self]
    exact (listed.atts_nodup _).not_mem_erase
  exact honest_modAtt ap (fun _ member => (gone member).elim)
    fun _ => ⟨destroying, invalid⟩

theorem Place.relies_of_free {att : Nat} (pins : ¬ place.pins att)
    (marks : place ≠ .detachOwner att) (maps : place ≠ .attachMap att) :
    place.Relies s att :=
  ⟨fun here => (pins here).elim, fun here => (marks here).elim,
    fun here => (maps here).elim⟩

/-- The recall clears the attachment it visits. -/
theorem Windowed.clear (windowed : Windowed K s) (listed : Listed s)
    {seg ap att : Nat} (known : (Place.clear seg ap att).Known s)
    (valid : (s.att att).validPTEs) :
    ((s.att att).clear (s.seg seg)).validPTEs = false ∧
      ∀ page, page * pageSize < (s.att att).atSize →
        ((s.att att).clear (s.seg seg)).pte page = false := by
  obtain ⟨_, ⟨_, rfl⟩, made, rfl⟩ := known
  obtain ⟨proper, low, high⟩ :=
    windowed.inside made (windowed.small made (Or.inr valid))
  exact Attachment.clear_of_inside valid
    (windowed.straight (listed.ap_seg (listed.att_ap made))) proper low high

/-- What a step of the thread with the mutex does to an attachment. -/
theorem honest_act (moved : act K s place choice = some (next, place'))
    (listed : Listed s) (known : place.Known s) (windowed : Windowed K s)
    {att : Nat} (locks : place.locks att) (honest : Honest s att)
    (relies : place.Relies s att) : Honest next att := by
  revert moved
  fun_cases act K s place choice
  case case1 => cases locks
  case case2 yes _ =>
    fun_cases work K s yes place <;> intro moved <;>
      simp only [Option.some.injEq, Prod.mk.injEq, reduceCtorEq] at moved <;>
      obtain ⟨rfl, rfl⟩ := moved
    case case4 =>
      cases locks
      exact honest_modAtt rfl (fun _ => honest.present) honest.unlisted
    case case5 =>
      cases locks
      exact honest_unlink listed rfl rfl (relies.fresh rfl)
    case case15 guards _ =>
      cases locks
      refine honest_modAtt rfl (fun _ _ _ => rfl) fun gone => ?_
      have marked := (honest.unlisted gone).1
      rw [guards.2] at marked
      cases marked
    case case21 =>
      obtain ⟨rfl, _⟩ := locks
      exact honest_modAtt rfl
        (fun _ _ _ => relies.pending ⟨rfl, rfl⟩) honest.unlisted
    case case25 =>
      cases locks
      exact honest_modAtt rfl (fun _ => honest.present)
        fun gone => ⟨rfl, (honest.unlisted gone).2⟩
    case case26 =>
      cases locks
      exact honest_unlink listed rfl (relies.marked rfl).2 rfl
    case case27 =>
      cases locks
      exact honest_modAtt rfl (fun _ => honest.present)
        fun gone => (gone (relies.marked rfl).1).elim
    case case46 =>
      cases locks
      refine honest_modAtt
        (congrArg Prod.fst (Attachment.clear_window _ _)) ?_ ?_
      · intro page member pte
        have before := Attachment.pte_of_clear pte
        have cleared := (windowed.clear listed known
          (honest.present member before)).2 page
          (windowed.page known.2.2.1 before)
        rw [cleared] at pte
        cases pte
      · intro gone
        obtain ⟨marked, invalid⟩ := honest.unlisted gone
        rw [Attachment.clear_destroying]
        refine ⟨marked, Bool.eq_false_iff.mpr fun valid => ?_⟩
        rw [Attachment.validPTEs_of_clear valid] at invalid
        cases invalid
    all_goals
      first
      | exact locks.elim
      | exact honest
      | exact honest.keep (untouched_of_eq rfl Iff.rfl)
      | exact honest.keep untouched_unlock
  case case3 => simp

/-- What a thread relies on after its step. -/
theorem relies_act (moved : act K s place choice = some (next, place'))
    {att : Nat} (honest : att < s.nextAtt → Honest s att)
    (known : place.Known s) (relies : place.Relies s att) :
    place'.Relies next att := by
  revert moved
  fun_cases act K s place choice
  case case1 =>
    fun_cases call K s choice <;> intro moved <;>
      simp only [Option.some.injEq, Prod.mk.injEq, reduceCtorEq] at moved <;>
      obtain ⟨rfl, rfl⟩ := moved <;>
      exact Place.relies_of_free (by simp [Place.pins]) (by simp) (by simp)
  case case2 yes _ =>
    fun_cases work K s yes place <;> intro moved <;>
      simp only [Option.some.injEq, Prod.mk.injEq, reduceCtorEq] at moved <;>
      obtain ⟨rfl, rfl⟩ := moved
    case case3 ap offset size _ _ =>
      refine ⟨fun pins => pins.elim, by simp, fun maps => ?_⟩
      cases maps
      simp only [Shared.linkAtt, Function.update_self]
    case case15 =>
      refine ⟨fun pins => ?_, by simp, by simp⟩
      rw [Shared.att_modAtt, if_pos pins.1.symm]
    case case17 | case18 => exact ⟨relies.pending, by simp, by simp⟩
    case case25 other free _ =>
      refine ⟨fun pins => pins.elim, fun marks => ?_, by simp⟩
      cases marks
      have member : s.InList att :=
        not_not.mp fun gone => free ((honest known).unlisted gone).1
      unfold Shared.InList
      simp only [Shared.modAtt, Function.update_self]
      exact ⟨member, trivial⟩
    all_goals
      exact Place.relies_of_free (by simp [Place.pins]) (by simp) (by simp)
  case case3 => simp

/-! ## The walk of the recall -/

/-- A walk that is in the list of a permit has the attachment ahead. -/
def Shared.AheadInSeg (s : Shared) (att seg ap : Nat)
    (cursor : Option Nat) : Prop :=
  ((s.att att).ap = ap ∧ att ∈ rest cursor (s.ap ap).attList) ∨
    (s.segOf att = seg ∧
      (s.att att).ap ∈ rest (some ap) (s.seg seg).apList) ∨
    s.segOf att ∈ rest (some seg) s.segList

/-- The thread is not in a recall, or will still come to the attachment. -/
def Place.Ahead (s : Shared) (att : Nat) : Place → Prop
  | .recallSegs cursor => s.segOf att ∈ rest cursor s.segList
  | .recallSeg seg | .recallDownWrite seg =>
      s.segOf att = seg ∨ s.segOf att ∈ rest (some seg) s.segList
  | .clearAps seg cursor =>
      (s.segOf att = seg ∧
        (s.att att).ap ∈ rest cursor (s.seg seg).apList) ∨
        s.segOf att ∈ rest (some seg) s.segList
  | .clearAtts seg ap cursor => s.AheadInSeg att seg ap cursor
  | .clearLock seg ap other | .clear seg ap other =>
      att = other ∨ s.AheadInSeg att seg ap (some other)
  | .clearUnlock seg ap other => s.AheadInSeg att seg ap (some other)
  | .window => False
  | _ => True

section Others

variable {t : Shared} {att : Nat} {cursor : Option Nat}
    (listed : Listed s) (listed' : Listed t) (relists : Relists s t)
    (made : att < s.nextAtt)

include listed listed' relists made

theorem segs_ahead (old : ∀ seg ∈ cursor, seg < s.nextSeg)
    (ahead : s.segOf att ∈ rest cursor s.segList) :
    t.segOf att ∈ rest cursor t.segList := by
  rw [relists.segOf listed made]
  refine relists.seg_list.mem_rest (listed.segs ▸ List.nodup_range)
    (fun same => (old _ same).false) ahead ?_
  rw [listed'.segs, List.mem_range]
  exact (listed.ap_seg (listed.att_ap made)).trans_le relists.nextSeg

theorem aps_ahead {seg : Nat} (old : ∀ ap ∈ cursor, ap < s.nextAp)
    (ahead : s.segOf att = seg ∧
      (s.att att).ap ∈ rest cursor (s.seg seg).apList) :
    t.segOf att = seg ∧ (t.att att).ap ∈ rest cursor (t.seg seg).apList := by
  have permit := listed.att_ap made
  rw [relists.segOf listed made, relists.att_ap made]
  refine ⟨ahead.1, (relists.ap_list seg).mem_rest (listed.aps_nodup seg)
    (fun same => (old _ same).false) ahead.2 ?_⟩
  rw [listed'.aps, relists.ap_seg permit]
  exact ⟨permit.trans_le relists.nextAp, ahead.1⟩

omit listed' in
theorem atts_ahead {ap : Nat} (member : t.InList att)
    (old : ∀ att ∈ cursor, att < s.nextAtt)
    (ahead : (s.att att).ap = ap ∧ att ∈ rest cursor (s.ap ap).attList) :
    (t.att att).ap = ap ∧ att ∈ rest cursor (t.ap ap).attList := by
  unfold Shared.InList at member
  rw [relists.att_ap made, ahead.1] at member
  rw [relists.att_ap made]
  exact ⟨ahead.1, (relists.att_list ap).mem_rest (listed.atts_nodup ap)
    (fun same => (old _ same).false) ahead.2 member⟩

theorem inSeg_ahead {seg ap : Nat} (member : t.InList att)
    (segs : seg < s.nextSeg) (aps : ap < s.nextAp)
    (atts : ∀ att ∈ cursor, att < s.nextAtt)
    (ahead : s.AheadInSeg att seg ap cursor) :
    t.AheadInSeg att seg ap cursor :=
  ahead.imp (atts_ahead listed relists made member atts)
    (Or.imp
      (aps_ahead listed listed' relists made (by rintro _ ⟨⟩; exact aps))
      (segs_ahead listed listed' relists made (by rintro _ ⟨⟩; exact segs)))

/-- What is listed stays ahead when others change the lists. -/
theorem Place.Ahead.mono (ahead : place.Ahead s att)
    (known : place.Known s) (member : t.InList att) :
    place.Ahead t att := by
  cases place with
  | recallSegs cursor =>
      exact segs_ahead listed listed' relists made known ahead
  | recallSeg seg | recallDownWrite seg =>
      refine ahead.imp (fun here => ?_)
        (segs_ahead listed listed' relists made
          (by rintro _ ⟨⟩; exact known))
      rw [relists.segOf listed made, here]
  | clearAps seg cursor =>
      exact ahead.imp (aps_ahead listed listed' relists made known.2)
        (segs_ahead listed listed' relists made
          (by rintro _ ⟨⟩; exact known.1))
  | clearAtts seg ap cursor =>
      exact inSeg_ahead listed listed' relists made member known.1
        known.2.1.1 known.2.2 ahead
  | clearLock seg ap other | clear seg ap other =>
      exact ahead.imp id (inSeg_ahead listed listed' relists made member
        known.1 known.2.1.1 (by rintro _ ⟨⟩; exact known.2.2.1))
  | clearUnlock seg ap other =>
      exact inSeg_ahead listed listed' relists made member
        known.1 known.2.1.1 (by rintro _ ⟨⟩; exact known.2.2.1) ahead
  | window => exact ahead
  | _ => trivial

end Others

/-- The walk moves on, past attachments without the flag only. -/
theorem ahead_act (moved : act K s place choice = some (next, place'))
    (listed : Listed s) (known : place.Known s) (windowed : Windowed K s)
    {att : Nat} (made : att < s.nextAtt) (member : s.InList att)
    (member' : next.InList att) (before : (s.att att).validPTEs)
    (valid : (next.att att).validPTEs) (ahead : place.Ahead s att) :
    place'.Ahead next att := by
  have permit := listed.att_ap made
  obtain ⟨listed', relists, known'⟩ := listed_act moved listed known
  revert moved
  fun_cases act K s place choice
  case case1 =>
    fun_cases call K s choice <;> intro moved <;>
      simp only [Option.some.injEq, Prod.mk.injEq, reduceCtorEq] at moved <;>
      obtain ⟨rfl, rfl⟩ := moved <;> trivial
  case case2 yes _ =>
    fun_cases work K s yes place <;> intro moved <;>
      simp only [Option.some.injEq, Prod.mk.injEq, reduceCtorEq] at moved <;>
      obtain ⟨rfl, rfl⟩ := moved
    case case33 =>
      change s.segOf att ∈ s.segList
      rw [listed.segs, List.mem_range]
      exact listed.ap_seg permit
    case case34 done _ =>
      change s.segOf att ∈ rest _ s.segList at ahead
      rw [done] at ahead
      cases ahead
    case case35 seg later left _ =>
      change s.segOf att ∈ rest _ s.segList at ahead
      have behind : rest (some seg) s.segList = later :=
        rest_of_rest_eq_cons (listed.segs ▸ List.nodup_range) left
      rw [left] at ahead
      change s.segOf att = seg ∨ s.segOf att ∈ rest (some seg) s.segList
      rw [behind]
      exact List.mem_cons.mp ahead
    case case38 seg _ _ =>
      refine ahead.imp (fun here => ?_) id
      exact aps_ahead listed listed' relists made (by simp)
        ⟨here, (listed.aps _ _).mpr ⟨permit, here⟩⟩
    case case40 done _ =>
      refine ahead.elim (fun here => ?_) id
      rw [done] at here
      cases here.2
    case case41 seg _ ap later left _ =>
      have behind : rest (some ap) (s.seg seg).apList = later :=
        rest_of_rest_eq_cons (listed.aps_nodup seg) left
      rcases ahead with ⟨here, ahead⟩ | ahead
      · rw [left] at ahead
        rcases List.mem_cons.mp ahead with current | ahead
        · exact Or.inl ⟨current, current ▸ member⟩
        · exact Or.inr (Or.inl ⟨here, behind ▸ ahead⟩)
      · exact Or.inr (Or.inr ahead)
    case case42 found _ =>
      refine ahead.elim (fun here => ?_) id
      exact (List.find?_eq_none.mp found att here.2 before).elim
    case case43 seg ap cursor other found _ =>
      obtain ⟨_, skipped, later, left, passed⟩ :=
        List.find?_eq_some_iff_append.mp found
      have behind : rest (some other) (s.ap ap).attList = later :=
        rest_of_rest_eq (listed.atts_nodup ap) left
      rcases ahead with ⟨here, ahead⟩ | ahead
      · rw [left] at ahead
        rcases List.mem_append.mp ahead with skip | ahead
        · have invalid := passed att skip
          rw [before] at invalid
          cases invalid
        · rcases List.mem_cons.mp ahead with current | ahead
          · exact Or.inl current
          · exact Or.inr (Or.inl ⟨here, behind ▸ ahead⟩)
      · exact Or.inr (Or.inr ahead)
    case case45 =>
      exact Place.Ahead.mono listed listed' relists made ahead known member'
    case case46 seg ap other _ =>
      refine inSeg_ahead listed listed' relists made member' known.1
        known.2.1.1 (by rintro _ ⟨⟩; exact known.2.2.1)
        (ahead.elim (fun here => ?_) id)
      -- the attachment visited has lost the flag
      subst here
      rw [Shared.att_modAtt, if_pos rfl,
        (windowed.clear listed known before).1] at valid
      cases valid
    case case47 =>
      exact inSeg_ahead listed listed' relists made member' known.1
        known.2.1.1 (by rintro _ ⟨⟩; exact known.2.2.1) ahead
    all_goals trivial
  case case3 => simp

theorem valid_act (moved : act K s place choice = some (next, place'))
    (free : place.blocks = false) {att : Nat}
    (valid : (next.att att).validPTEs) : (s.att att).validPTEs := by
  have modAtt {t : Shared} {other : Nat} {change : Attachment → Attachment}
      (valid : ((t.modAtt other change).att att).validPTEs)
      (same : t.att = s.att)
      (kept : (change (s.att other)).validPTEs → (s.att other).validPTEs) :
      (s.att att).validPTEs := by
    rw [Shared.att_modAtt, same] at valid
    split_ifs at valid with equal
    · exact equal ▸ kept valid
    · exact valid
  revert moved
  fun_cases act K s place choice
  case case1 =>
    fun_cases call K s choice <;> intro moved <;>
      simp only [Option.some.injEq, Prod.mk.injEq, reduceCtorEq] at moved <;>
      obtain ⟨rfl, rfl⟩ := moved
    case case10 => exact modAtt valid rfl id
    all_goals exact valid
  case case2 yes _ =>
    fun_cases work K s yes place <;> intro moved <;>
      simp only [Option.some.injEq, Prod.mk.injEq, reduceCtorEq] at moved <;>
      obtain ⟨rfl, rfl⟩ := moved
    case case3 =>
      by_cases equal : att = s.nextAtt
      · subst equal
        simp [Shared.linkAtt, Function.update_self] at valid
      · simpa only [Shared.linkAtt, Function.update_of_ne equal] using valid
    case case15 => cases free
    case case26 => exact modAtt valid rfl (by rintro ⟨⟨⟩⟩)
    case case46 => exact modAtt valid rfl Attachment.validPTEs_of_clear
    all_goals
      first
      | exact valid
      | exact modAtt valid rfl id
  case case3 => simp

/-! ## What a run keeps -/

section Runs

variable {ι : Type u} [DecidableEq ι] {thread : ι → Place} {name : ι}

/-- All that holds along a run in which no segment wraps. -/
structure Sound (K : Platform) (s : Shared) (thread : ι → Place) :
    Prop where
  gate : Threads.Gate s.nRecallPFNs (Place.forks · = true)
    (Place.blocks · = true) thread
  mutex (att : Nat) :
    Threads.Exclusive (s.att att).mutex (Place.locks att) thread
  listed : Listed s
  windowed : Windowed K s
  known (name : ι) : (thread name).Known s
  inside (name : ι) : (thread name).Inside K s
  honest {att : Nat} (made : att < s.nextAtt) : Honest s att
  relies (name : ι) (att : Nat) : (thread name).Relies s att
  ahead (name : ι) {att : Nat} (valid : (s.att att).validPTEs) :
    (thread name).Ahead s att

theorem Listed.made_of_validPTEs (listed : Listed s) {att : Nat}
    (valid : (s.att att).validPTEs) : att < s.nextAtt := by
  by_contra above
  rw [(listed.new_att (not_lt.mp above)).2.2.1] at valid
  cases valid

theorem Honest.inList {att : Nat} (honest : Honest s att)
    (valid : (s.att att).validPTEs) : s.InList att := by
  by_contra gone
  rw [(honest.unlisted gone).2] at valid
  cases valid

theorem Place.ahead_of_not_forks {att : Nat} (free : place.forks = false) :
    place.Ahead s att := by
  cases place <;> trivial

theorem Place.locks_of_relies {att : Nat}
    (needs : place.pins att ∨ place = .detachOwner att ∨
      place = .attachMap att) : place.locks att := by
  rcases needs with pins | rfl | rfl
  · cases place <;> simp_all [Place.pins, Place.locks]
  · rfl
  · rfl

theorem honest_linkAtt {ap vaddr size : Nat} :
    Honest (s.linkAtt ap vaddr size) s.nextAtt := by
  constructor
  · intro page _ pte
    simp [Shared.linkAtt] at pte
  · intro gone
    refine (gone ?_).elim
    simp [Shared.InList, Shared.linkAtt, Shared.modAp]

theorem honest_new (moved : act K s place choice = some (next, place'))
    {att : Nat} (new : s.nextAtt ≤ att) (made : att < next.nextAtt) :
    Honest next att := by
  revert moved
  fun_cases act K s place choice
  case case1 =>
    fun_cases call K s choice <;> intro moved <;>
      simp only [Option.some.injEq, Prod.mk.injEq, reduceCtorEq] at moved <;>
      obtain ⟨rfl, rfl⟩ := moved <;>
      exact (not_lt.mpr new made).elim
  case case2 yes _ =>
    fun_cases work K s yes place <;> intro moved <;>
      simp only [Option.some.injEq, Prod.mk.injEq, reduceCtorEq] at moved <;>
      obtain ⟨rfl, rfl⟩ := moved
    case case3 =>
      obtain rfl : att = s.nextAtt :=
        le_antisymm (Nat.le_of_lt_succ made) new
      exact honest_linkAtt
    all_goals exact (not_lt.mpr new made).elim
  case case3 => simp

theorem Place.Known.made_of_locks (known : place.Known s) {att : Nat}
    (locks : place.locks att) : att < s.nextAtt := by
  cases place <;> simp_all [Place.Known, Place.locks]

omit [DecidableEq ι] in
/-- A thread that forks after its step did not hold the block before. -/
theorem Sound.not_blocks (sound : Sound K s thread)
    (moved : act K s (thread name) choice = some (next, place'))
    (forks : place'.forks) : (thread name).blocks = false := by
  have step := gate_act moved
  rw [forks] at step
  rw [← Bool.not_eq_true]
  cases step with
  | keep same raises lowers =>
      exact sound.gate.not_lowers (raises.mp rfl)
  | raise free moved taken => exact free.2.2
  | unraise held moved gone => exact (gone.1 rfl).elim
  | lower free moved taken => exact (taken.2 rfl).elim
  | unlower held moved gone => exact (gone.1 rfl).elim

omit [DecidableEq ι] in
theorem Sound.honest_act (sound : Sound K s thread)
    (moved : act K s (thread name) choice = some (next, place'))
    {att : Nat} (made : att < next.nextAtt) : Honest next att := by
  by_cases old : att < s.nextAtt
  · by_cases locks : (thread name).locks att
    · exact ForkWindow.honest_act moved sound.listed (sound.known name)
        sound.windowed locks (sound.honest old) (sound.relies name att)
    · exact (sound.honest old).keep
        (untouched_act moved sound.listed old locks)
  · exact honest_new moved (not_lt.mp old) made

theorem Sound.relies_act (sound : Sound K s thread)
    (moved : act K s (thread name) choice = some (next, place'))
    (other : ι) (att : Nat) :
    (Function.update thread name place' other).Relies next att := by
  by_cases equal : other = name
  · rw [equal, Function.update_self]
    exact ForkWindow.relies_act moved sound.honest (sound.known name)
      (sound.relies name att)
  · rw [Function.update_of_ne equal]
    by_cases needs : (thread other).pins att ∨
        thread other = .detachOwner att ∨ thread other = .attachMap att
    · have locks := Place.locks_of_relies needs
      have free : ¬ (thread name).locks att :=
        fun also => equal ((sound.mutex att).unique locks also)
      exact (sound.relies other att).keep (untouched_act moved sound.listed
        ((sound.known other).made_of_locks locks) free)
    · simp only [not_or] at needs
      exact Place.relies_of_free needs.1 needs.2.1 needs.2.2

theorem Sound.ahead_act (sound : Sound K s thread)
    (moved : act K s (thread name) choice = some (next, place'))
    (other : ι) {att : Nat} (valid : (next.att att).validPTEs) :
    (Function.update thread name place' other).Ahead next att := by
  obtain ⟨listed', relists, _⟩ :=
    listed_act moved sound.listed (sound.known name)
  have member' := (sound.honest_act moved
    (listed'.made_of_validPTEs valid)).inList valid
  by_cases equal : other = name
  · rw [equal, Function.update_self]
    by_cases forks : place'.forks
    · have before := valid_act moved (sound.not_blocks moved forks) valid
      have made := sound.listed.made_of_validPTEs before
      exact ForkWindow.ahead_act moved sound.listed (sound.known name)
        sound.windowed made ((sound.honest made).inList before) member'
        before valid (sound.ahead name before)
    · exact Place.ahead_of_not_forks (Bool.eq_false_iff.mpr forks)
  · rw [Function.update_of_ne equal]
    by_cases forks : (thread other).forks
    · have before := valid_act moved
        (Bool.eq_false_iff.mpr (sound.gate.not_lowers forks)) valid
      have made := sound.listed.made_of_validPTEs before
      exact (sound.ahead other before).mono sound.listed listed' relists
        made (sound.known other) member'
    · exact Place.ahead_of_not_forks (Bool.eq_false_iff.mpr forks)

theorem Sound.act (sound : Sound K s thread)
    (straight : choice.straight K)
    (moved : act K s (thread name) choice = some (next, place')) :
    Sound K next (Function.update thread name place') := by
  obtain ⟨listed', relists, known'⟩ :=
    listed_act moved sound.listed (sound.known name)
  refine ⟨sound.gate.update (gate_act moved), fun att => ?_, listed', ?_,
    fun other => ?_, fun other => ?_, sound.honest_act moved,
    sound.relies_act moved, sound.ahead_act moved⟩
  · exact (sound.mutex att).update
      (mutex_act moved (sound.listed.new_att le_rfl).1 att)
  · exact windowed_act moved straight sound.listed (sound.known name)
      sound.windowed (sound.inside name)
  · by_cases equal : other = name
    · rw [equal, Function.update_self]
      exact known'
    · rw [Function.update_of_ne equal]
      exact (sound.known other).mono relists
  · by_cases equal : other = name
    · rw [equal, Function.update_self]
      exact inside_act moved sound.listed (sound.known name) sound.windowed
        (sound.inside name)
    · rw [Function.update_of_ne equal]
      exact (sound.inside other).mono (sound.known other) relists

omit [DecidableEq ι] in
theorem sound_still : Sound K {} fun _ : ι => Place.idle where
  gate := Threads.Gate.still (by simp [Place.forks, Place.blocks])
  mutex att := ⟨fun own => own.elim, fun own => own.elim⟩
  listed := by constructor <;> simp
  windowed := by constructor <;> simp
  known _ := trivial
  inside _ := trivial
  honest made := by cases made
  relies _ _ := Place.relies_of_free id (by simp) (by simp)
  ahead _ _ valid := by cases valid

/-- The runs of any number of threads, all idle at first. -/
abbrev Runs (K : Platform)
    (allowed : Threads ι Shared Place → ι × Choice → Prop)
    (events : List (Event (Threads ι Shared Place) (ι × Choice) Unit))
    (s : Threads ι Shared Place) : Prop :=
  Run (Threads.step fun _ : ι => ForkWindow.act K) (.still {} .idle) allowed
    events s

/--
From the return of `xpmem_fork_begin` to `xpmem_fork_end` no attachment that
is not being detached has a PTE, if no segment wraps.
-/
theorem absent_of_window
    {events : List (Event (Threads ι Shared Place) (ι × Choice) Unit)}
    {s : Threads ι Shared Place}
    (run : Runs K (fun _ move => move.2.straight K) events s)
    (window : s.thread name = .window) {att : Nat}
    (live : (s.shared.att att).destroying = false) (page : Nat) :
    (s.shared.att att).pte page = false := by
  have sound : Sound K s.shared s.thread :=
    Threads.invariant (Sound K) run sound_still
      fun _ _ _ _ _ _ sound straight moved => sound.act straight moved
  rw [← Bool.not_eq_true]
  intro present
  have made : att < s.shared.nextAtt := by
    by_contra above
    rw [(sound.listed.new_att (not_lt.mp above)).2.2.2] at present
    cases present
  have member : s.shared.InList att := by
    by_contra gone
    rw [((sound.honest made).unlisted gone).1] at live
    cases live
  have ahead := sound.ahead name ((sound.honest made).present member present)
  rw [window] at ahead
  exact ahead

/-- A fork meets a fault that is about to insert its PTE. -/
theorem absent_of_window_fault :
    ∃ events s, Runs (ι := Nat) fourLevel
      (fun _ move => move.2.straight fourLevel) events s ∧
      s.thread 1 = .window ∧ (s.shared.att 0).mapped ∧
      (s.shared.att 0).pte 0 = false := by
  obtain ⟨events, s, run, window, mapped, live⟩ := exists_run
    (Threads.step fun _ : Nat => act fourLevel) (.still {} .idle)
    (fun _ move => move.2.straight fourLevel)
    [(0, .make 0x10000 0x4000), (0, .get 0), (0, .attach 0 0x1000 0x1000),
      (0, .go true), (0, .go true), (0, .go true), (0, .fault 0 0),
      (0, .go true), (0, .go true), (0, .go true), (0, .go true),
      (0, .go true), (0, .go true), (1, .forkBegin), (1, .go true),
      (1, .go true), (1, .go true), (1, .go true), (1, .go true),
      (1, .go true), (1, .go true), (0, .go true), (0, .go true),
      (1, .go true), (1, .go true), (1, .go true), (1, .go true),
      (1, .go true), (1, .go true)]
    (fun _ s => s.thread 1 = .window ∧ (s.shared.att 0).mapped ∧
      (s.shared.att 0).destroying = false)
    (by decide +kernel)
  exact ⟨events, s, run, window, mapped, absent_of_window run window live 0⟩

/-- A segment that wraps keeps its PTEs in the fork window. -/
theorem present_of_window :
    ∃ events s, Runs (ι := Nat) fourLevel (fun _ _ => True) events s ∧
      s.thread 1 = .window ∧ (s.shared.att 0).destroying = false ∧
      (s.shared.att 0).pte 0 = true :=
  exists_run (Threads.step fun _ : Nat => act fourLevel) (.still {} .idle)
    (fun _ _ => True)
    [(0, .make 0xffffffffffffc000 0x18000), (0, .get 0),
      (0, .attach 0 0x14000 0x1000), (0, .go true), (0, .go true),
      (0, .go true), (0, .fault 0 0), (0, .go true), (0, .go true),
      (0, .go true), (0, .go true), (0, .go true), (0, .go true),
      (0, .go true), (0, .go true), (1, .forkBegin), (1, .go true),
      (1, .go true), (1, .go true), (1, .go true), (1, .go true),
      (1, .go true), (1, .go true), (1, .go true), (1, .go true),
      (1, .go true), (1, .go true), (1, .go true), (1, .go true)]
    (fun _ s => s.thread 1 = .window ∧
      (s.shared.att 0).destroying = false ∧ (s.shared.att 0).pte 0 = true)
    (by decide +kernel)

end Runs

end Xpmem.Concurrent.ForkWindow
