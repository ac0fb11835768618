import Xpmem.Runs.Dropping

/-!
# Releasing a permit

`xpmem_release` detaches the attachments of the permit one after the other,
and so does a process that calls `xpmem_detach` for each of them.  Every
detach is a `drop`, and what it drops does not depend on the drops before, so
the order and the function that is called do not matter.
-/

namespace Xpmem.Driver

open Xpmem.Foundation Xpmem.Kernel Xpmem.Objects

variable {K : Platform} {s t u : State K} {held : Held} {att : AttPtr}

/-! ## Drops do not depend on each other -/

/-- Two descriptions of a detach, with the same effect on the state. -/
structure Parting.Agrees (s : State K) (left right : Parting) : Prop where
  rest : { left with covered := right.covered } = right
  covered : ∀ att, s.valid att = true →
    (left.covered att ↔ right.covered att)

theorem Parting.Agrees.refl (s : State K) (parting : Parting) :
    Parting.Agrees s parting parting :=
  ⟨rfl, fun _ _ => Iff.rfl⟩

theorem Parting.Agrees.trans {left middle right : Parting}
    (earlier : Parting.Agrees t left middle)
    (later : Parting.Agrees s middle right)
    (falls : ∀ att, t.valid att = true → s.valid att = true) :
    Parting.Agrees t left right where
  rest := by
    rw [← later.rest, ← earlier.rest]
  covered att up :=
    (earlier.covered att up).trans (later.covered att (falls att up))

theorem Parting.Agrees.drop_eq {left right : Parting}
    (agrees : Parting.Agrees s left right) : s.drop left = s.drop right := by
  obtain ⟨rest, covered⟩ := agrees
  obtain ⟨gone, permit, seg, mm, start, stop, put, _⟩ := left
  cases right
  simp only [Parting.mk.injEq, and_true] at rest
  obtain ⟨rfl, rfl, rfl, rfl, rfl, rfl, rfl⟩ := rest
  unfold State.drop State.strip
  dsimp only at covered ⊢
  congr 2
  refine State.lowerFlags_eq_of_down fun att up => ?_
  change ((putPages s seg put).att att).validPTEs = true at up
  rw [putPages_att] at up
  exact or_congr_right (covered att up)

section Drop

variable (s) (parting : Parting)

theorem drop_read {α : Type} (read : Attachment → α)
    (blind : ∀ record, read { record with validPTEs := false } = read record)
    (kept : ∀ record, read
      { record with
        destroying := true, refcnt := record.refcnt - 1,
        allocated := false } = read record) (att : AttPtr) :
    read ((s.drop parting).att att) = read (s.att att) := by
  have before : read ((s.strip parting).att att) = read (s.att att) := by
    rw [strip_att]
    exact State.lowerFlags_read read blind att
  by_cases here : att = parting.att
  · subst here
    refine Eq.trans ?_ ((kept _).trans before)
    simp [State.drop, State.modAtt]
  · rw [← before]
    simp [State.drop, State.modAtt, here]

theorem place_drop : (s.drop parting).place = s.place := by
  funext att
  exact drop_read s parting (fun record =>
    (⟨record.mm, record.atVaddr, record.atSize, record.atVma,
      record.vaddr⟩ : Place)) (fun _ => rfl) (fun _ => rfl) att

theorem drop_seg : (s.drop parting).seg = s.seg := by
  unfold State.drop
  rw [strip_eq]
  rfl

theorem drop_ap (permit : ApPtr) :
    (s.drop parting).ap permit =
      { s.ap permit with
        attList := if permit = parting.permit then
            (s.ap permit).attList.erase parting.att
          else (s.ap permit).attList } := by
  unfold State.drop
  rw [strip_eq]
  by_cases here : permit = parting.permit
  · subst here
    simp [State.modAtt]
  · simp [State.modAtt, here]

theorem drop_tg (group : TgPtr) :
    ∃ count, (s.drop parting).tg group =
      { s.tg group with nPinned := count } := by
  unfold State.drop
  rw [strip_eq]
  by_cases here : group = (s.seg parting.seg).tg
  · subst here
    exact ⟨_, Function.update_self _ _ _⟩
  · exact ⟨_, Function.update_of_ne here _ _⟩

theorem drop_mm (mm : MmPtr) :
    ((s.drop parting).mm mm).notifiers = (s.mm mm).notifiers ∧
      ∀ page, ((s.drop parting).mm mm).table.pte page =
        if mm = parting.mm ∧ parting.start / pageSize ≤ page ∧
            page < parting.stop / pageSize then none
        else (s.mm mm).table.pte page := by
  unfold State.drop
  rw [strip_eq]
  by_cases here : mm = parting.mm
  · subst here
    simp [State.modAtt, PageTable.clear_pte]
  · simp [State.modAtt, here]

theorem drop_valid (att : AttPtr)
    (up : (s.drop parting).valid att = true) :
    att ≠ parting.att ∧ s.valid att = true := by
  have raised : (s.strip parting).valid att = true := by
    rw [← up]
    by_cases here : att = parting.att
    · subst here
      simp [State.drop, State.modAtt, State.valid]
    · simp [State.drop, State.modAtt, State.valid, here]
  rw [State.valid, strip_att] at raised
  by_cases lowered : att = parting.att ∨ parting.covered att
  · rw [State.lowerFlags_att_of_covered lowered] at raised
    cases raised
  · rw [State.lowerFlags_att_of_not lowered] at raised
    exact ⟨fun here => lowered (Or.inl here), raised⟩

theorem covered_drop {mm : MmPtr} {start stop : Nat}
    (apart : att ≠ parting.att) :
    Covered (s.drop parting) mm start stop att ↔
      Covered s mm start stop att := by
  apply covered_congr
  · exact (drop_mm s parting mm).1
  · intro group
    obtain ⟨count, record⟩ := drop_tg s parting group
    rw [record]
  · intro seg
    rw [drop_seg]
  · intro permit
    rw [drop_ap]
    dsimp only
    split
    · exact List.mem_erase_of_ne apart
    · rfl
  · rw [place_drop]

end Drop

theorem mappedPages_congr {table other : PageTable K} {page count : Nat}
    (same : ∀ leaf, page ≤ leaf → leaf < page + count →
      other.pte leaf = table.pte leaf) :
    mappedPages other page count = mappedPages table page count := by
  apply List.filterMap_congr
  intro leaf member
  obtain ⟨low, high⟩ := List.mem_range'_1.mp member
  rw [same leaf low high]

theorem parting_rest_eq (permit : (t.att att).ap = (s.att att).ap)
    (seg : t.segOf att = s.segOf att) (place : t.place att = s.place att)
    (put : t.putOf att = s.putOf att) :
    { t.parting att with covered := (s.parting att).covered } =
      s.parting att := by
  have space : (t.att att).mm = (s.att att).mm := congrArg Place.mm place
  have start : (t.att att).atVaddr = (s.att att).atVaddr :=
    congrArg Place.start place
  have size : (t.att att).atSize = (s.att att).atSize :=
    congrArg Place.size place
  simp only [State.parting, permit, seg, space, start, size, put]

/-- A detach does not change what the detach of another one takes away. -/
theorem WellFormed.agrees_drop (formed : WellFormed s held)
    (settled : Settled held) {other : AttPtr}
    (linked : s.graph.Linked (.att att))
    (otherLinked : s.graph.Linked (.att other)) (apart : other ≠ att) :
    Parting.Agrees (s.drop (s.parting att))
      ((s.drop (s.parting att)).parting other) (s.parting other) := by
  have present : s.Bound held att := ⟨linked, settled att⟩
  have otherPresent : s.Bound held other := ⟨otherLinked, settled other⟩
  have place := congrFun (place_drop s (s.parting att)) other
  have space : ((s.drop (s.parting att)).att other).mm = (s.att other).mm :=
    congrArg Place.mm place
  have start : ((s.drop (s.parting att)).att other).atVaddr =
      (s.att other).atVaddr := congrArg Place.start place
  have size : ((s.drop (s.parting att)).att other).atSize =
      (s.att other).atSize := congrArg Place.size place
  have permit : ((s.drop (s.parting att)).att other).ap =
      (s.att other).ap :=
    drop_read s _ Attachment.ap (fun _ => rfl) (fun _ => rfl) other
  have seg : (s.drop (s.parting att)).segOf other = s.segOf other := by
    rw [State.segOf, permit, drop_ap]
    rfl
  have put : (s.drop (s.parting att)).putOf other = s.putOf other := by
    rw [State.putOf, space, place]
    apply mappedPages_congr
    intro leaf low high
    rw [(drop_mm s (s.parting att) (s.att other).mm).2, if_neg]
    rintro ⟨here, above, below⟩
    have bounds := formed.bounds present
    have otherBounds := formed.bounds otherPresent
    have fewer := int32_toNat_le (s.place other).pages
    have inside : leaf - (s.place att).page < (s.place att).pages := by
      have first := bounds.start
      have length := bounds.size
      change (s.place att).start / pageSize ≤ leaf at above
      change leaf < ((s.place att).start + (s.place att).size) / pageSize
        at below
      unfold Place.page Place.pages
      unfold pageSize at *
      omega
    have otherInside : leaf - (s.place other).page <
        (s.place other).pages := by omega
    change (s.place att).page ≤ leaf at above
    exact apart (formed.eq_of_page present inside otherPresent otherInside
      here (by omega)).1
  constructor
  · exact parting_rest_eq permit seg place put
  · intro third up
    obtain ⟨differs, _⟩ := drop_valid s _ third up
    change Covered _ _ _ _ third ↔ Covered _ _ _ _ third
    rw [space, start, size]
    exact covered_drop s _ differs

/-! ## One drop after the other -/

/-- The task in which attachments of an address space are dropped. -/
structure Acting (s : State K) (current : Task) (mm : MmPtr) : Prop where
  running : s.proc current.tgid = .running mm
  task : current.mm = some mm

theorem normal_drop (normal : Normal s) (parting : Parting) :
    Normal (s.drop parting) := by
  have put := normal.putPages parting.seg parting.put
  exact ⟨put.group, put.unpinned⟩

theorem allStraight_drop (straight : AllStraight s) (parting : Parting) :
    AllStraight (s.drop parting) := by
  have next : (s.drop parting).nextSeg = s.nextSeg := by
    unfold State.drop
    rw [strip_eq]
    rfl
  intro seg used
  rw [next] at used
  rw [State.Straight, drop_seg]
  exact straight seg used

theorem Steady.drop (steady : Steady s held) (peaceful : Peaceful held)
    (reach : K.pgdOrder < 31) {current : Task}
    (acting : Acting s current (s.att att).mm)
    (linked : s.graph.Linked (.att att)) (free : .ref (.att att) ∉ held) :
    Steady (s.drop (s.parting att)) held ∧
      Unlinks s (s.drop (s.parting att)) (· = .att att) := by
  obtain ⟨detached, returned, dropped⟩ := Option.map_eq_some_iff.mp
    (steady.detachRound peaceful reach acting.running acting.task linked
      free)
  have same := shape_xpmemAttRef s att
  have record : ((s.xpmemAttRef att).att att).ap = (s.att att).ap := by
    simp [State.xpmemAttRef, State.modAtt]
  have home : AtHome (s.xpmemAttRef att) current
      ((s.xpmemAttRef att).ap (s.att att).ap).tg := by
    intro mm present
    rw [acting.task] at present
    cases present
    exact ⟨acting.running, (steady.formed.laid.home att linked).symm⟩
  have stays : (s.xpmemAttRef att).graph.Linked (.att att) := by
    rw [State.graph_eq_of_shape same]
    exact linked
  obtain ⟨reached, unlinks⟩ :=
    (((@Reaches.here _ False _ _ steady.formed).attRef linked).detachAtt
      home peaceful.calm.cons_ref peaceful.settled.cons_ref stays
      record).of_eq returned
  have finished := reached.attDeref
  have total : Unlinks s (detached.xpmemAttDeref att) (· = .att att) :=
    ((Unlinks.of_shape same _).trans unlinks).trans
      (.of_shape (shape_xpmemAttDeref _ _) _)
  rw [dropped] at finished total
  exact ⟨steady.reaches finished (allStraight_drop steady.straight _)
    (normal_drop steady.normal _), total⟩

/-- Some attachments were dropped on the way from `s` to `t`. -/
structure Follows (s t : State K) : Prop where
  winds : Winds s t
  place : t.place = s.place
  falls : ∀ att, t.valid att = true → s.valid att = true
  agrees : ∀ att, t.graph.Linked (.att att) →
    Parting.Agrees t (t.parting att) (s.parting att)

theorem findTg_drop (s : State K) (parting : Parting) (tgid : Pid)
    (all : Bool) : (s.drop parting).findTg tgid all = s.findTg tgid all := by
  have hash : (s.drop parting).myPart.tgHashtable =
      s.myPart.tgHashtable := by
    unfold State.drop
    rw [strip_eq]
    rfl
  have record (group : TgPtr) :
      ((s.drop parting).tg group).tgid = (s.tg group).tgid ∧
        ((s.drop parting).tg group).destroying =
          (s.tg group).destroying := by
    obtain ⟨count, same⟩ := drop_tg s parting group
    rw [same]
    exact ⟨rfl, rfl⟩
  simp only [State.findTg, hash, record]

theorem findAp_drop (s : State K) (parting : Parting) (group : TgPtr)
    (apid : BitVec 64) :
    (s.drop parting).findAp group apid = s.findAp group apid := by
  obtain ⟨count, same⟩ := drop_tg s parting group
  simp only [State.findAp, same, drop_ap]

theorem Follows.of_layout (same : t.layout = s.layout)
    (winds : Winds s t) : Follows s t where
  winds := winds
  place := by
    change t.layout.place = s.layout.place
    rw [same]
  falls att up := by
    change t.layout.valid att = true at up
    rw [same] at up
    exact up
  agrees att _ := by
    rw [parting_of_layout same]
    exact .refl t _

theorem linked_of_drop (formed : WellFormed s held) {other : AttPtr}
    (linked : (s.drop (s.parting att)).graph.Linked (.att other)) :
    other ≠ att ∧ s.graph.Linked (.att other) := by
  have owner : ((s.drop (s.parting att)).att other).ap = (s.att other).ap :=
    drop_read s _ Attachment.ap (fun _ => rfl) (fun _ => rfl) other
  change other ∈ ((s.drop (s.parting att)).ap
    ((s.drop (s.parting att)).att other).ap).attList at linked
  rw [owner, drop_ap] at linked
  dsimp only at linked
  split at linked
  · have nodup := formed.graph.atts.nodup (s.att other).ap
    exact nodup.mem_erase_iff.mp linked
  · rename_i elsewhere
    refine ⟨?_, linked⟩
    rintro rfl
    exact elsewhere rfl

theorem Follows.drop (follows : Follows s t) (steady : Steady t held)
    (peaceful : Peaceful held) (reach : K.pgdOrder < 31) {current : Task}
    (acting : Acting t current (t.att att).mm)
    (linked : t.graph.Linked (.att att)) (free : .ref (.att att) ∉ held) :
    Follows s (t.drop (s.parting att)) := by
  have agrees := follows.agrees att linked
  rw [← agrees.drop_eq]
  obtain ⟨later, unlinks⟩ :=
    steady.drop peaceful reach acting linked free
  refine ⟨follows.winds.trans unlinks.winds,
    (place_drop t _).trans follows.place, ?_, ?_⟩
  · intro other up
    exact follows.falls other (drop_valid t _ other up).2
  · intro other otherLinked
    obtain ⟨apart, before⟩ := linked_of_drop steady.formed otherLinked
    exact (steady.formed.agrees_drop peaceful.settled linked before
      apart).trans (follows.agrees other before)
        fun att up => (drop_valid t _ att up).2

/-! ## The loop of a release -/

/-- The attachments are dropped in this order. -/
noncomputable def State.dropAll (s : State K) (atts : List AttPtr)
    (t : State K) : State K :=
  atts.foldl (fun u att => u.drop (s.parting att)) t

theorem dropAll_nil (s t : State K) : s.dropAll [] t = t :=
  rfl

theorem dropAll_perm {atts other : List AttPtr} (same : atts.Perm other)
    (s t : State K) : s.dropAll atts t = s.dropAll other t :=
  List.Perm.foldl_eq' same
    (fun _ _ _ _ u => drop_drop u _ _) t

theorem Follows.detachAll {current : Task} {permit : ApPtr}
    (reach : K.pgdOrder < 31) (peaceful : Peaceful held)
    (free : ∀ att, .ref (.att att) ∉ held) {mm : MmPtr}
    {atts : List AttPtr} (follows : Follows s t) (steady : Steady t held)
    (acting : Acting t current mm)
    (listed : (t.ap permit).attList = atts)
    (home : ∀ att ∈ atts, (t.att att).mm = mm) :
    detachAll current permit atts.length t = some (s.dropAll atts t) := by
  induction atts generalizing t with
  | nil =>
      rw [List.length_nil, detachAll, if_pos listed]
      rfl
  | cons att rest induction =>
      have member : att ∈ (t.ap permit).attList := by
        rw [listed]
        exact List.mem_cons_self
      have owner : (t.att att).ap = permit :=
        steady.formed.graph.atts.owned permit att member
      have linked : t.graph.Linked (.att att) :=
        steady.formed.graph.atts.mem_owner member
      have space := home att List.mem_cons_self
      subst space
      obtain ⟨detached, returned, dropped⟩ := Option.map_eq_some_iff.mp
        (steady.detachRound peaceful reach acting.running acting.task linked
          (free att))
      have agrees := follows.agrees att linked
      obtain ⟨later, unlinks⟩ :=
        steady.drop peaceful reach acting linked (free att)
      have following := follows.drop steady peaceful reach acting linked
        (free att)
      rw [agrees.drop_eq] at dropped later unlinks
      rw [List.length_cons, Driver.detachAll, listed]
      dsimp only
      rw [← owner, returned, Option.bind_some, dropped, owner]
      refine induction following later ⟨?_, acting.task⟩ ?_ ?_
      · rw [unlinks.winds.proc]
        exact acting.running
      · have same : permit = (s.parting att).permit := by
          rw [← owner]
          exact follows.winds.att_ap att
        rw [drop_ap, if_pos same, listed]
        exact List.erase_cons_head att rest
      · intro other inside
        have place := congrFun (place_drop t (s.parting att)) other
        exact (congrArg Place.mm place).trans
          (home other (List.mem_cons_of_mem att inside))

/-! ## The whole release -/

/-- What a release does to the state before it detaches anything. -/
def State.closing (s : State K) (group : TgPtr) (permit : ApPtr) :
    State K :=
  ((s.xpmemTgRef group).xpmemApRef permit).flag (.ap permit) true

/-- What a release does after everything is detached. -/
def State.closed (s : State K) (group : TgPtr) (permit : ApPtr) : State K :=
  let s := unlinkAp s group permit
  let seg := (s.ap permit).seg
  let segTg := (s.seg seg).tg
  let s := s.xpmemSegDeref seg
  let s := s.xpmemTgDeref segTg
  ((s.xpmemApDeref permit).xpmemApDeref permit).xpmemTgDeref group

theorem drop_closing (s : State K) (parting : Parting) (group : TgPtr)
    (permit : ApPtr) :
    (s.closing group permit).drop parting =
      (s.drop parting).closing group permit := by
  have stripped : (s.closing group permit).strip parting =
      (s.strip parting).closing group permit := by
    unfold State.closing
    rw [← strip_tgRef, ← strip_apRef]
    exact @strip_modAp K _ parting
      (fun ap => { ap with destroying := true }) (fun _ => rfl) permit
  unfold State.drop
  rw [stripped]
  rfl

theorem dropAll_closing (s t : State K) (atts : List AttPtr)
    (group : TgPtr) (permit : ApPtr) :
    s.dropAll atts (t.closing group permit) =
      (s.dropAll atts t).closing group permit := by
  unfold State.dropAll
  induction atts generalizing t with
  | nil => rfl
  | cons att rest induction =>
      rw [List.foldl_cons, List.foldl_cons, drop_closing, induction]

theorem layout_closing (s : State K) (group : TgPtr) (permit : ApPtr) :
    (s.closing group permit).layout = s.layout :=
  (State.layout_flag _ _ _).trans
    ((State.layout_eq_of_shape (shape_xpmemApRef _ permit)).trans
      (State.layout_eq_of_shape (shape_xpmemTgRef s group)))

theorem Normal.tgRef (normal : Normal s) (group : TgPtr) :
    Normal (s.xpmemTgRef group) := by
  refine ⟨fun other => ?_, normal.unpinned⟩
  have same : ((s.xpmemTgRef group).tg other).nPinned =
      (s.tg other).nPinned := by
    by_cases here : other = group
    · subst here
      simp [State.xpmemTgRef, State.modTg]
    · simp [State.xpmemTgRef, State.modTg, here]
  rw [same]
  exact normal.group other

theorem Steady.closing (steady : Steady s held) {group : TgPtr}
    {permit : ApPtr} (hashed : s.graph.Linked (.tg group))
    (linked : s.graph.Linked (.ap permit))
    (live : (s.ap permit).destroying = false) :
    Steady (s.closing group permit)
      (.closing (.ap permit) ::ₘ .ref (.ap permit) ::ₘ
        .ref (.tg group) ::ₘ held) := by
  have counted := (@Reaches.here _ False _ _ steady.formed).tgRef hashed
  have stays : (s.xpmemTgRef group).graph.Linked (.ap permit) := by
    rw [State.graph_eq_of_shape (shape_xpmemTgRef s group)]
    exact linked
  have still : ((s.xpmemTgRef group).xpmemApRef permit).graph.Linked
      (.ap permit) := by
    rw [State.graph_eq_of_shape (shape_xpmemApRef _ permit)]
    exact stays
  have flagged := Reaches.act (counted.apRef stays)
    (.flag (.ap permit) still (by
      change (((s.xpmemTgRef group).xpmemApRef permit).ap
        permit).destroying = false
      simpa [State.xpmemApRef, State.modAp, State.xpmemTgRef,
        State.modTg] using live))
  have normal := steady.normal.tgRef group
  exact steady.reaches flagged steady.straight
    ⟨normal.group, normal.unpinned⟩

theorem peaceful_closing (group : TgPtr) (permit : ApPtr) :
    Peaceful (.closing (.ap permit) ::ₘ .ref (.ap permit) ::ₘ
      .ref (.tg group) ::ₘ 0) where
  calm := ⟨fun att => by simp, fun seg => by simp⟩
  settled att := by simp
  fresh mm start stop := by simp

/-- The attachments of a group are in the address space of its process. -/
theorem WellFormed.home_of_member (formed : WellFormed s held)
    {current : Task} {mm : MmPtr} (acting : Acting s current mm)
    {group : TgPtr} {permit : ApPtr} (hashed : s.graph.Linked (.tg group))
    (awake : (s.tg group).destroyed = false)
    (own : (s.tg group).tgid = current.tgid)
    (owner : (s.ap permit).tg = group)
    (member : att ∈ (s.ap permit).attList) : (s.att att).mm = mm := by
  have linked : s.graph.Linked (.att att) :=
    formed.graph.atts.mem_owner member
  have holder : (s.att att).ap = permit :=
    formed.graph.atts.owned permit att member
  have runs := formed.procs.running group hashed awake
  rw [own, acting.running] at runs
  cases runs
  rw [formed.laid.home att linked, holder, owner]

theorem Steady.xpmemRelease_eq (steady : Steady s 0)
    (reach : K.pgdOrder < 31) {current : Task} {mm : MmPtr}
    (acting : Acting s current mm) {apid : BitVec 64} {group : TgPtr}
    {permit : ApPtr} (positive : 0 < apid.toInt)
    (found : s.findTg (idToTgid K apid) false = some group)
    (own : (s.tg group).tgid = current.tgid)
    (named : s.findAp group apid = some permit) :
    xpmemRelease s current apid =
      some (((s.dropAll (s.ap permit).attList s).closing group
        permit).closed group permit, .ok ()) := by
  obtain ⟨hashed, _, unmarked⟩ := findTg_eq_some found
  have awake : (s.tg group).destroyed = false :=
    @WellFormed.destroyed_eq_false _ _ _ steady.formed (.tg group)
      (unmarked rfl)
  obtain ⟨linked, owner, live⟩ := steady.formed.findAp named
  have closing := steady.closing hashed linked live
  have record : ((s.closing group permit).ap permit).attList =
      (s.ap permit).attList := by
    simp [State.closing, State.flag, State.xpmemApRef, State.modAp,
      State.xpmemTgRef, State.modTg]
  have winds : Winds s (s.closing group permit) :=
    ((Winds.of_shape (shape_xpmemTgRef s group)).trans
      (.of_shape (shape_xpmemApRef _ permit))).flag (.ap permit) true
  have follows : Follows s (s.closing group permit) :=
    .of_layout (layout_closing s group permit) winds
  have home (att : AttPtr) (member : att ∈ (s.ap permit).attList) :
      (s.att att).mm = mm :=
    steady.formed.home_of_member acting hashed awake own owner member
  have detached := follows.detachAll reach (peaceful_closing group permit)
    (fun att => by simp) closing ⟨acting.running, acting.task⟩ record home
  rw [dropAll_closing] at detached
  have searched : (s.xpmemTgRef group).findAp group apid = some permit := by
    rw [← named]
    simp only [State.findAp, State.xpmemTgRef, State.modTg,
      Function.update_self]
    rfl
  have same : ((s.xpmemTgRef group).tg group).tgid = current.tgid := by
    simpa [State.xpmemTgRef, State.modTg] using own
  have unflagged : (((s.xpmemTgRef group).xpmemApRef permit).ap
      permit).destroying = false := by
    simpa [State.xpmemApRef, State.modAp, State.xpmemTgRef,
      State.modTg] using live
  unfold xpmemRelease
  rw [if_neg (not_le.mpr positive), found]
  dsimp only
  rw [same, if_neg (by simp), searched]
  dsimp only
  unfold xpmemReleaseAp
  rw [if_neg (by simp [unflagged])]
  have flagged : (((s.xpmemTgRef group).xpmemApRef permit).modAp permit
      fun record => { record with destroying := true }) =
        s.closing group permit := rfl
  dsimp only
  rw [flagged, record, detached]
  rfl

/-! ## Detaching by hand -/

/-- The system calls that detach at these addresses. -/
def detaches (tgid : Pid) (env : IoctlEnv)
    (chosen : List (AttPtr × BitVec 64)) : List Op :=
  chosen.map fun choice => .ioctl tgid (.detach choice.2) env

theorem peaceful_zero : Peaceful 0 where
  calm := ⟨fun att => by simp, fun seg => by simp⟩
  settled att := by simp
  fresh mm start stop := by simp

theorem step_ioctl {tgid : Pid} {mm : MmPtr} {cmd : Cmd} {env : IoctlEnv}
    (running : s.proc tgid = .running mm) :
    step s (.ioctl tgid cmd env) =
      xpmemIoctl s ⟨tgid, some mm⟩ mm cmd env := by
  simp only [step, asTask, running]

theorem Steady.step_detach (steady : Steady s 0)
    (reach : K.pgdOrder < 31) {tgid : Pid} {env : IoctlEnv}
    (copied : env.copyIn = true) (alive : env.killed = false) {mm : MmPtr}
    {vaddr : BitVec 64} (linked : s.graph.Linked (.att att))
    (running : s.proc tgid = .running mm) (space : (s.att att).mm = mm)
    (own : (s.tg (s.ap (s.att att).ap).tg).tgid = tgid)
    (inside : (s.att att).atVaddr ≤ vaddr.toNat ∧
      vaddr.toNat < (s.att att).atVaddr + (s.att att).atSize) :
    step s (.ioctl tgid (.detach vaddr) env) =
      some (s.drop (s.parting att), .value 0) := by
  subst space
  have detached := @Steady.xpmemDetach_eq K s 0 att steady peaceful_zero
    reach ⟨tgid, some (s.att att).mm⟩ running own linked (by simp)
    vaddr.toNat inside.1 inside.2
  rw [step_ioctl running, xpmemIoctl, if_neg (by simp [copied]), alive,
    detached]
  rfl

theorem Follows.execute_detaches (reach : K.pgdOrder < 31) {tgid : Pid}
    {env : IoctlEnv} (copied : env.copyIn = true)
    (alive : env.killed = false) {mm : MmPtr} {permit : ApPtr}
    (running : s.proc tgid = .running mm)
    (own : (s.tg (s.ap permit).tg).tgid = tgid)
    {chosen : List (AttPtr × BitVec 64)} (follows : Follows s t)
    (steady : Steady t 0) (nodup : (chosen.map Prod.fst).Nodup)
    (listed : ∀ choice ∈ chosen, choice.1 ∈ (t.ap permit).attList)
    (home : ∀ choice ∈ chosen, (s.att choice.1).mm = mm)
    (inside : ∀ choice ∈ chosen,
      (s.att choice.1).atVaddr ≤ choice.2.toNat ∧
        choice.2.toNat < (s.att choice.1).atVaddr +
          (s.att choice.1).atSize) :
    ∃ events,
      execute step t (detaches tgid env chosen) =
        some (events, s.dropAll (chosen.map Prod.fst) t) ∧
      (∀ event ∈ events, event.result = .value 0) ∧
      Follows s (s.dropAll (chosen.map Prod.fst) t) ∧
      Steady (s.dropAll (chosen.map Prod.fst) t) 0 := by
  induction chosen generalizing t with
  | nil => exact ⟨[], rfl, by simp, follows, steady⟩
  | cons choice rest induction =>
      obtain ⟨att, vaddr⟩ := choice
      obtain ⟨fresh, later⟩ := List.nodup_cons.mp nodup
      have member := listed (att, vaddr) List.mem_cons_self
      have owner : (t.att att).ap = permit :=
        steady.formed.graph.atts.owned permit att member
      have linked : t.graph.Linked (.att att) :=
        steady.formed.graph.atts.mem_owner member
      have place := congrFun follows.place att
      have space : (t.att att).mm = mm :=
        (congrArg Place.mm place).trans (home (att, vaddr) List.mem_cons_self)
      have runs : t.proc tgid = .running mm := by
        rw [follows.winds.proc]
        exact running
      have acting : Acting t ⟨tgid, some mm⟩ (t.att att).mm := by
        rw [space]
        exact ⟨runs, rfl⟩
      have start : (t.att att).atVaddr = (s.att att).atVaddr :=
        congrArg Place.start place
      have size : (t.att att).atSize = (s.att att).atSize :=
        congrArg Place.size place
      have within := inside (att, vaddr) List.mem_cons_self
      rw [← start, ← size] at within
      have taken := steady.step_detach reach copied alive linked runs space
        (by rw [owner, follows.winds.ap_tg, follows.winds.tgid]; exact own)
        within
      obtain ⟨settled, _⟩ :=
        steady.drop peaceful_zero reach acting linked (by simp)
      have following := follows.drop steady peaceful_zero reach acting
        linked (by simp)
      rw [(follows.agrees att linked).drop_eq] at taken settled
      have still (other : AttPtr × BitVec 64) (there : other ∈ rest) :
          other.1 ∈ ((t.drop (s.parting att)).ap permit).attList := by
        have apart : other.1 ≠ att := by
          intro same
          have listed := List.mem_map_of_mem (f := Prod.fst) there
          exact fresh (same ▸ listed)
        have before := listed other (List.mem_cons_of_mem _ there)
        rw [drop_ap]
        dsimp only
        split
        · exact (List.mem_erase_of_ne apart).mpr before
        · exact before
      obtain ⟨events, executed, results, last, calm⟩ :=
        induction following settled later still
          (fun other there => home other (List.mem_cons_of_mem _ there))
          (fun other there => inside other (List.mem_cons_of_mem _ there))
      refine ⟨⟨t, .ioctl tgid (.detach vaddr) env, .value 0,
        t.drop (s.parting att)⟩ :: events, ?_, ?_, last, calm⟩
      · rw [detaches, List.map_cons, execute, taken]
        change Option.map _ (execute step _ (detaches tgid env rest)) = _
        rw [executed]
        rfl
      · intro event there
        rcases List.mem_cons.mp there with rfl | there
        · rfl
        · exact results event there

/-! ## Releases of a run -/

theorem findTg_dropAll (s t : State K) (atts : List AttPtr) (tgid : Pid)
    (all : Bool) : (s.dropAll atts t).findTg tgid all = t.findTg tgid all := by
  unfold State.dropAll
  induction atts generalizing t with
  | nil => rfl
  | cons att rest induction =>
      rw [List.foldl_cons, induction, findTg_drop]

theorem findAp_dropAll (s t : State K) (atts : List AttPtr) (group : TgPtr)
    (apid : BitVec 64) :
    (s.dropAll atts t).findAp group apid = t.findAp group apid := by
  unfold State.dropAll
  induction atts generalizing t with
  | nil => rfl
  | cons att rest induction =>
      rw [List.foldl_cons, induction, findAp_drop]

theorem attList_dropAll {permit : ApPtr} {atts : List AttPtr}
    (owned : ∀ att ∈ atts, (s.att att).ap = permit) (t : State K) :
    ((s.dropAll atts t).ap permit).attList =
      atts.foldl List.erase (t.ap permit).attList := by
  unfold State.dropAll
  induction atts generalizing t with
  | nil => rfl
  | cons att rest induction =>
      obtain ⟨here, later⟩ := List.forall_mem_cons.mp owned
      have same : permit = (s.parting att).permit := here.symm
      rw [List.foldl_cons, List.foldl_cons, induction later, drop_ap,
        if_pos same]
      rfl

theorem foldl_erase_self (list : List AttPtr) :
    list.foldl List.erase list = [] := by
  induction list with
  | nil => rfl
  | cons att rest induction =>
      rw [List.foldl_cons, List.erase_cons_head]
      exact induction

theorem Steady.step_release (steady : Steady s 0)
    (reach : K.pgdOrder < 31) {tgid : Pid} {env : IoctlEnv}
    (copied : env.copyIn = true) {mm : MmPtr}
    (running : s.proc tgid = .running mm) {apid : BitVec 64}
    {group : TgPtr} {permit : ApPtr} (positive : 0 < apid.toInt)
    (found : s.findTg (idToTgid K apid) false = some group)
    (own : (s.tg group).tgid = tgid)
    (named : s.findAp group apid = some permit) :
    step s (.ioctl tgid (.release apid) env) =
      some (((s.dropAll (s.ap permit).attList s).closing group
        permit).closed group permit, .value 0) := by
  have released := steady.xpmemRelease_eq reach
    (⟨running, rfl⟩ : Acting s ⟨tgid, some mm⟩ mm) positive found own named
  rw [step_ioctl running, xpmemIoctl, if_neg (by simp [copied]), released]
  rfl

theorem steady_of_run {events : List (Event (State K) Op Ret)}
    (run : Run step {} (Orderly False) events s)
    (straight : AllStraight s) : Steady s 0 where
  formed := .of_run run
  coherent := .of_run run
  straight := straight
  normal := normal_of_run run

/--
In a state that was reached by whole operations, with short segments and
short top-level entries, it does not matter whether the attachments of a
permit are detached by hand, in any order and at any of their addresses,
before the permit is released.
-/
theorem release_eq_detach_release {events : List (Event (State K) Op Ret)}
    (run : Run step {} (Orderly False) events s)
    (straight : AllStraight s) (reach : K.pgdOrder < 31) {tgid : Pid}
    {mm : MmPtr} (running : s.proc tgid = .running mm) {apid : BitVec 64}
    {permit : ApPtr} (positive : 0 < apid.toInt)
    (named : s.resolveAp apid = some permit)
    (own : (s.tg (s.ap permit).tg).tgid = tgid) {env : IoctlEnv}
    (copied : env.copyIn = true) (alive : env.killed = false)
    {chosen : List (AttPtr × BitVec 64)}
    (all : (chosen.map Prod.fst).Perm (s.ap permit).attList)
    (inside : ∀ choice ∈ chosen,
      (s.att choice.1).atVaddr ≤ choice.2.toNat ∧
        choice.2.toNat < (s.att choice.1).atVaddr +
          (s.att choice.1).atSize) :
    (∃ calls detached released,
      execute step s (detaches tgid env chosen) = some (calls, detached) ∧
      (∀ event ∈ calls, event.result = .value 0) ∧
      step detached (.ioctl tgid (.release apid) env) =
        some (released, .value 0) ∧
      step s (.ioctl tgid (.release apid) env) =
        some (released, .value 0)) ∧
    (∀ choice ∈ chosen,
      xpmemDetach s ⟨tgid, some mm⟩ mm choice.2.toNat false =
        (xpmemDetachAtt (s.xpmemAttRef choice.1) ⟨tgid, some mm⟩ permit
          choice.1).map fun t => (t.xpmemAttDeref choice.1, .ok ())) ∧
    ∀ choice ∈ chosen, ∀ other ∈ chosen, choice.1 ≠ other.1 →
      ∃ calls back detached,
        execute step s (detaches tgid env [choice, other]) =
          some (calls, detached) ∧
        execute step s (detaches tgid env [other, choice]) =
          some (back, detached) := by
  have steady := steady_of_run run straight
  have formed := steady.formed
  obtain ⟨group, found, searched⟩ := Option.bind_eq_some_iff.mp named
  obtain ⟨linked, owner, live⟩ := formed.findAp searched
  obtain ⟨hashed, _, unmarked⟩ := findTg_eq_some found
  have awake : (s.tg group).destroyed = false :=
    @WellFormed.destroyed_eq_false _ _ _ formed (.tg group) (unmarked rfl)
  rw [owner] at own
  have acting : Acting s ⟨tgid, some mm⟩ mm := ⟨running, rfl⟩
  have member (choice : AttPtr × BitVec 64) (there : choice ∈ chosen) :
      choice.1 ∈ (s.ap permit).attList :=
    all.mem_iff.mp (List.mem_map_of_mem there)
  have home (choice : AttPtr × BitVec 64) (there : choice ∈ chosen) :
      (s.att choice.1).mm = mm :=
    formed.home_of_member acting hashed awake own owner (member choice there)
  have follows : Follows s s := .of_layout rfl (.refl s)
  have byHand (some : List (AttPtr × BitVec 64))
      (nodup : (some.map Prod.fst).Nodup)
      (there : ∀ choice ∈ some, choice ∈ chosen) :=
    follows.execute_detaches reach copied alive running (owner ▸ own) steady
      nodup (fun choice here => member choice (there choice here))
      (fun choice here => home choice (there choice here))
      (fun choice here => inside choice (there choice here))
  refine ⟨?_, ?_, ?_⟩
  · obtain ⟨calls, executed, results, following, settled⟩ := byHand chosen
      (all.nodup_iff.mpr (formed.graph.atts.nodup permit)) (fun _ => id)
    have before := steady.step_release reach copied running positive found
      own searched
    rw [dropAll_perm all] at executed settled following
    have empty :
        ((s.dropAll (s.ap permit).attList s).ap permit).attList = [] := by
      have owned : ∀ att ∈ (s.ap permit).attList,
          (s.att att).ap = permit :=
        fun att => formed.graph.atts.owned permit att
      rw [attList_dropAll owned, foldl_erase_self]
    have after := settled.step_release reach copied
      (by rw [following.winds.proc]; exact running) positive
      ((findTg_dropAll _ _ _ _ _).trans found)
      (by rw [following.winds.tgid]; exact own)
      ((findAp_dropAll _ _ _ _ _).trans searched)
    rw [empty, dropAll_nil] at after
    exact ⟨calls, _, _, executed, results, after, before⟩
  · intro choice there
    have holder : (s.att choice.1).ap = permit :=
      formed.graph.atts.owned permit _ (member choice there)
    have attLinked : s.graph.Linked (.att choice.1) :=
      formed.graph.atts.mem_owner (member choice there)
    have space := home choice there
    have detached := @Steady.xpmemDetach_eq K s 0 choice.1 steady
      peaceful_zero reach ⟨tgid, some mm⟩ (by rw [space]; exact running)
      (by rw [holder, owner]; exact own) attLinked (by simp)
      choice.2.toNat (inside choice there).1 (inside choice there).2
    have round := @Steady.detachRound K s 0 choice.1 steady peaceful_zero
      reach ⟨tgid, some mm⟩ (by rw [space]; exact running)
      (by rw [space]) attLinked (by simp)
    rw [space] at detached
    rw [holder] at round
    obtain ⟨last, returned, dropped⟩ := Option.map_eq_some_iff.mp round
    rw [detached, returned, Option.map_some, dropped]
  · intro choice there other also apart
    obtain ⟨calls, executed, _⟩ := byHand [choice, other] (by simpa)
      (by simp [there, also])
    obtain ⟨back, reversed, _⟩ := byHand [other, choice]
      (by simpa using Ne.symm apart) (by simp [there, also])
    rw [dropAll_perm (List.Perm.map _ (List.Perm.swap choice other []))]
      at reversed
    exact ⟨calls, back, _, executed, reversed⟩

/-- Two attachments of a permit, one of them in use. -/
theorem release_eq_of_two_attachments :
    ∃ (events : _) (s : State fourLevel),
      Run step {} (Orderly False) events s ∧ (s.ap 0).attList = [0, 1] ∧
      ∃ calls detached released,
        execute step s (detaches 2 {} [(1, 0x30fff), (0, 0x20000)]) =
          some (calls, detached) ∧
        step detached (.ioctl 2 (.release 0x100000002) {}) =
          some (released, .value 0) ∧
        step s (.ioctl 2 (.release 0x100000002) {}) =
          some (released, .value 0) := by
  obtain ⟨events, s, run, running, named, own, listed, segs, low, first,
    second⟩ := exists_run step ({} : State fourLevel) (fun _ op => op.Free)
    [.spawn 1, .openDev 1 {}, .mmap 1 0x10000 0x14000 false,
      .ioctl 1 (.make 0x10000 0x4000 1 0o666) {}, .spawn 2, .openDev 2 {},
      .ioctl 2 (.get 0x100000001 2 1 0) {},
      .ioctl 2 (.attach 0x100000002 0 0x1000 0) { place := some 0x20000 },
      .ioctl 2 (.attach 0x100000002 0 0x1000 0) { place := some 0x30000 },
      .fault 2 0x20000 ⟨false, false, .page 7, true, true⟩]
    (fun _ s => s.proc 2 = .running 1 ∧
      s.resolveAp 0x100000002 = some 0 ∧ (s.tg (s.ap 0).tg).tgid = 2 ∧
      (s.ap 0).attList = [0, 1] ∧ s.nextSeg = 1 ∧
      (s.seg 0).vaddr + (s.seg 0).size ≤ fourLevel.taskSize ∧
      ((s.att 0).atVaddr = 0x20000 ∧ (s.att 0).atSize = 0x1000) ∧
      (s.att 1).atVaddr = 0x30000 ∧ (s.att 1).atSize = 0x1000)
    (by decide +kernel)
  have orderly := run.mono fun pre _ free => free.orderly pre
  have straight : AllStraight s := by
    intro seg used
    rw [segs] at used
    rw [Nat.lt_one_iff.mp used]
    exact low
  have result := @release_eq_detach_release fourLevel s events orderly
    straight (by decide) 2 1 running 0x100000002 0 (by decide) named own {}
    rfl rfl [(1, 0x30fff), (0, 0x20000)]
    (by rw [listed]; exact List.Perm.swap 0 1 [])
    (by simp [first, second])
  obtain ⟨calls, detached, released, executed, _, after, before⟩ := result.1
  exact ⟨events, s, orderly, listed, calls, detached, released, executed,
    after, before⟩

/--
With five levels the walk over the first attachment, which lies in an absent
top-level entry, goes on to the page of the second one.  A release puts this
page twice; detaching the second attachment first puts it once.
-/
theorem release_ne_detach_release :
    ∃ (events : _) (s : State fiveLevel),
      Run step {} (fun _ op => op.Free) events s ∧
      (s.ap 0).attList = [0, 1] ∧
      (execute step s (detaches 2 {}
          [(1, BitVec.ofNat 64 (2 ^ 49)), (0, BitVec.ofNat 64 (2 ^ 48))] ++
            [.ioctl 2 (.release 0x100000002) {}])).map
        (fun done => ((done.2.tg 0).nPinned, done.2.pageRefs 7)) =
          some (0, 0) ∧
      (step s (.ioctl 2 (.release 0x100000002) {})).map
        (fun done => ((done.1.tg 0).nPinned, done.1.pageRefs 7)) =
          some (-1, -1) :=
  exists_run step ({} : State fiveLevel) (fun _ op => op.Free)
    [.spawn 1, .openDev 1 {}, .mmap 1 0x10000 0x14000 false,
      .spawn 2, .openDev 2 {}, .ioctl 1 (.make 0x10000 0x4000 1 0o666) {},
      .ioctl 2 (.get 0x100000001 2 1 0) {},
      .ioctl 2 (.attach 0x100000002 0 0x1000 (BitVec.ofNat 64 (2 ^ 48)))
        { place := some 0 },
      .ioctl 2 (.attach 0x100000002 0 0x1000 (BitVec.ofNat 64 (2 ^ 49)))
        { place := some 0 },
      .fault 2 (2 ^ 49) ⟨false, false, .page 7, true, true⟩]
    _ (by decide +kernel)

end Xpmem.Driver
