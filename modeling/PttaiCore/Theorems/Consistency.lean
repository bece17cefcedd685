import PttaiCore.Lemmas.Rebuild
import PttaiCore.Theorems.Journal

/-! # A round makes the tree consistent -/

namespace PttaiCore

open MerkleTreeLevel MerkleState KeyStore

structure NodeOK (Γ : Ctx) (m : Merkle) (db : KeyStore Bytes Value) (c : Cell) : Prop where
  missing : db.get (c.key m) = none ↔ c.children m db = []
  node : ∀ v, db.get (c.key m) = some v → ∃ n, v = .node n ∧ n.nChildren.toNat = (c.children m db).length ∧
    n.addr = Γ.addr ((c.children m db).flatMap (fun n => n.addr.1))

def LastReadable (m : Merkle) (db : KeyStore Bytes Value) (sec : Int64) : Prop :=
  ∀ (h : InRange sec.toInt) (n : MerkleNode), ((Cell.above h .hr MerkleTreeLevel.hr_mem_uppers).children m db).getLast? = some n →
    n.updateTS.nanoTs < Timestamp.billion

structure RoundGiven (Γ : Ctx) (m : Merkle) (now : Timestamp) (order : List Int64) (s : MerkleState) : Prop where
  idle : (isBusy m s now).1 = false
  isOrder : IsOrderOf order s.toUpdateTS
  ready : Ready m s
  tree : TreeOK m s.db.db
  count : ∀ c : Cell, c.level = .hr → (c.children m s.db.db).length < 2 ^ 32
  inRange : ∀ sec ∈ s.toUpdateTS, InRange sec.toInt
  clean : ∀ (x : Int) (h : InRange x), Timestamp.hours.floor x = x → Int64.ofInt x ∉ s.toUpdateTS →
    ∀ c ∈ Cell.path h, NodeOK Γ m s.db.db c

def FreshDays (m : Merkle) (s : MerkleState) : Prop :=
  ∀ sec ∈ s.toUpdateTS, (∀ h : InRange sec.toInt, s.db.db.get ((Cell.above h .day MerkleTreeLevel.day_mem_uppers).key m) = none) ∧
    ∀ sec' ∈ s.toUpdateTS, Timestamp.days.floor sec.toInt = Timestamp.days.floor sec'.toInt → sec = sec'

namespace ConsistencyAux

open Cell

variable {Γ : Ctx} {m : Merkle} {db db' : KeyStore Bytes Value} {c : Cell} {s : MerkleState}

/-! ## Consistent nodes and consistent cells -/

theorem consistent_of_nodeOK (h : TreeOK m db) (hc : NodeOK Γ m db c) : (sheet Γ m).Consistent db c := by
  change db.get (c.key m) = c.value Γ m db
  cases hget : db.get (c.key m) with
  | none => rw [value, hc.missing.1 hget]
  | some v =>
    obtain ⟨n, rfl, hcount, haddr⟩ := hc.node v hget
    have hne : c.children m db ≠ [] := fun hnil => absurd (hget.symm.trans (hc.missing.2 hnil)) (Option.some_ne_none _)
    have hkey := hget
    rw [Cell.key, marshalKey_eq] at hkey
    obtain ⟨sec, hsec, addr, nChildren, hn⟩ := h.upper c.level c.upper _ _ hkey
    have hts : sec = Int64.ofInt c.start := (marshal_sec_injective hsec).symm
    subst hts
    cases hn
    have hcount' : nChildren = UInt32.ofNat (c.children m db).length := by rw [← hcount, UInt32.ofNat_toNat]
    rw [value]
    generalize c.children m db = children at hne haddr hcount'
    cases children with
    | nil => exact absurd rfl hne
    | cons n ns =>
      rw [hcount', show addr = _ from haddr]
      rfl

theorem nodeOK_of_consistent (hlen : (c.children m db).length < 2 ^ 32) (h : (sheet Γ m).Consistent db c) : NodeOK Γ m db c := by
  have hget : db.get (c.key m) = c.value Γ m db := h
  rw [value] at hget
  cases hc : c.children m db with
  | nil =>
    rw [hc] at hget
    exact ⟨⟨fun _ => hc, fun _ => hget⟩, fun v hv => absurd (hget.symm.trans hv) (Option.some_ne_none v).symm⟩
  | cons n ns =>
    rw [hc] at hget hlen
    refine ⟨⟨fun hnone => ?_, fun hnil => ?_⟩, fun v hv => ?_⟩
    · exact absurd (hget.symm.trans hnone) (Option.some_ne_none _)
    · exact absurd (hc.symm.trans hnil) (List.cons_ne_nil n ns)
    · rw [hc]
      exact ⟨_, (Option.some.inj (hget.symm.trans hv)).symm, UInt32.toNat_ofNat_of_lt' hlen, rfl⟩

/-! ## Entries that do not matter -/

theorem inPart_of_startsWith {k : Bytes} (h : m.dbPrefix <+: k) : InPart .merkle k := by
  obtain ⟨r, rfl⟩ := h
  rw [Merkle.dbPrefix, List.append_assoc]
  exact inPart_partPrefix_append.2 rfl

theorem inPart_key (m : Merkle) (c : Cell) : InPart .merkle (c.key m) := inPart_merkleMarshalKey m _ _

theorem inPart_of_mem_deps {k : Bytes} (h : k ∈ c.deps m) : InPart .merkle k := by
  have hcons : ∀ ts, m.marshalKey c.level.child ts = m.dbPrefix ++ (c.level.child.toUInt8 :: ts.marshal) := marshalKey_eq m _
  obtain ⟨hlo, hhi⟩ := h
  rw [hcons] at hlo hhi
  exact inPart_of_startsWith (Bytes.prefix_of_between hlo hhi)

theorem children_congr (h : ∀ k ∈ c.deps m, db'.get k = db.get k) : c.children m db' = c.children m db := by
  rw [children, children, range_congr fun k h1 h2 => h k ⟨h1, h2⟩]

theorem key_not_mem_deps_hr (hhr : c.level = .hr) (c' : Cell) : c'.key m ∉ c.deps m := by
  intro hdep
  have hlevel := (key_mem_deps.1 hdep).1
  rw [hhr] at hlevel
  exact absurd (hlevel ▸ c'.upper) (by decide)

def SameLeaves (m : Merkle) (db db' : KeyStore Bytes Value) : Prop :=
  ∀ k, InPart .merkle k → (∀ c : Cell, c.key m ≠ k) → db'.get k = db.get k

theorem SameLeaves.trans {db'' : KeyStore Bytes Value} (h : SameLeaves m db db') (h' : SameLeaves m db' db'') :
    SameLeaves m db db'' := fun k hk hc => (h' k hk hc).trans (h k hk hc)

theorem SameLeaves.children_eq (h : SameLeaves m db db') (hhr : c.level = .hr) : c.children m db' = c.children m db :=
  children_congr fun k hk => h k (inPart_of_mem_deps hk) fun c' hc' => key_not_mem_deps_hr hhr c' (hc' ▸ hk)

variable {parts : List Part}

theorem sameLeaves_of_sameOff (h : SameOff parts db db') (hp : .merkle ∉ parts) : SameLeaves m db db' :=
  fun k hk _ => h k (not_inPart_of hk hp)

theorem sameLeaves_recalcAll (l : List Cell) : SameLeaves m db ((sheet Γ m).recalcAll db l) := fun _ _ hc =>
  Sheet.recalcAll_get fun i _ => hc i

theorem treeOK_of_sameOff (h : TreeOK m db) (hsame : SameOff parts db db') (hp : .merkle ∉ parts) :
    TreeOK m db' := by
  have hget : ∀ k, m.dbPrefix <+: k → db'.get k = db.get k := fun k hk => hsame k (not_inPart_of (inPart_of_startsWith hk) hp)
  constructor
  · intro k v hk hpre
    exact h.nodes k v (hget k hpre ▸ hk) hpre
  · intro level hl r v hk
    exact h.upper level hl r v (hget _ (List.prefix_append _ _) ▸ hk)

theorem consistent_of_sameOff (h : (sheet Γ m).Consistent db c) (hsame : SameOff parts db db')
    (hp : .merkle ∉ parts) : (sheet Γ m).Consistent db' c :=
  h.congr (hsame _ (not_inPart_of (inPart_key m c) hp)) fun k hk =>
    hsame k (not_inPart_of (inPart_of_mem_deps hk) hp)

theorem nodeOK_congr (hsame : SameOff parts db db') (hp : .merkle ∉ parts) :
    NodeOK Γ m db' c ↔ NodeOK Γ m db c := by
  have hget : db'.get (c.key m) = db.get (c.key m) := hsame _ (not_inPart_of (inPart_key m c) hp)
  have hchildren : c.children m db' = c.children m db :=
    children_congr fun k hk => hsame k (not_inPart_of (inPart_of_mem_deps hk) hp)
  constructor
  · rintro ⟨hmissing, hnode⟩
    rw [hget, hchildren] at hmissing hnode
    exact ⟨hmissing, hnode⟩
  · rintro ⟨hmissing, hnode⟩
    rw [← hget, ← hchildren] at hmissing hnode
    exact ⟨hmissing, hnode⟩

/-! ## The hours of a round -/

structure Pending (m : Merkle) (l : List Int64) (s : MerkleState) : Prop where
  ready : Ready m s
  tree : TreeOK m s.db.db
  count : ∀ c : Cell, c.level = .hr → (c.children m s.db.db).length < 2 ^ 32
  inRange : ∀ sec ∈ l, InRange sec.toInt

variable {sec : Int64} {l : List Int64}

theorem lastReadable_congr (h : SameLeaves m db db') (hread : LastReadable m db sec) : LastReadable m db' sec := by
  intro hr n hn
  rw [h.children_eq rfl] at hn
  exact hread hr n hn

theorem readable_hr (h : Pending m l s) (hread : LastReadable m s.db.db sec) (hr : InRange sec.toInt) :
    Readable m s.db.db (above hr .hr (by decide)) := ⟨h.count _ rfl, hread hr⟩

theorem saveMerkleTree_of_readable (Γ : Ctx) (h : Pending m (sec :: l) s) (hread : LastReadable m s.db.db sec) :
    ∃ s', saveMerkleTree Γ m s ⟨sec, 0⟩ = (.ok (), s') ∧ Pending m l s' ∧
      SameOff [.merkleMeta] ((sheet Γ m).recalcAll s.db.db (path (h.inRange sec (.head _)))) s'.db.db := by
  have hr := h.inRange sec List.mem_cons_self
  obtain ⟨t, hlevels⟩ := saveMerkleTreeLevels_eq (Γ := Γ) h.tree hr (readable_hr h hread hr)
  obtain ⟨s', hsave, hready, hsame⟩ := saveMerkleTree_of_ok h.ready hlevels
  have hleaves : SameLeaves m s.db.db s'.db.db := (sameLeaves_recalcAll _).trans (sameLeaves_of_sameOff hsame (by decide))
  refine ⟨s', hsave, ⟨hready, ?_, ?_, ?_⟩, hsame⟩
  · exact treeOK_of_sameOff (h.tree.recalcAll _) hsame (by decide)
  · intro c hc
    rw [hleaves.children_eq hc]
    exact h.count c hc
  · exact fun sec' hsec' => h.inRange sec' (List.mem_cons_of_mem sec hsec')

theorem saveMerkleTrees_consistent (h : Pending m l s) (hread : ∀ sec ∈ l, LastReadable m s.db.db sec)
    (hclean : ∀ c : Cell, (sheet Γ m).Consistent s.db.db c ∨ ∃ sec ∈ l, c.start = c.level.buckets.floor sec.toInt) :
    ∃ s', saveMerkleTrees Γ m l s = (.ok (), s') ∧ Pending m [] s' ∧ SameLeaves m s.db.db s'.db.db ∧
      ∀ c, (sheet Γ m).Consistent s'.db.db c := by
  induction l generalizing s with
  | nil =>
    refine ⟨s, rfl, h, fun _ _ _ => rfl, fun c => ?_⟩
    rcases hclean c with hc | ⟨sec, hsec, -⟩
    · exact hc
    · cases hsec
  | cons sec l ih =>
    obtain ⟨s', hsave, hpending, hsame⟩ := saveMerkleTree_of_readable Γ h (hread sec (.head _))
    have hpath := path_isPath (m := m) Γ (h.inRange sec (.head _))
    have hleaves : SameLeaves m s.db.db s'.db.db := (sameLeaves_recalcAll _).trans (sameLeaves_of_sameOff hsame (by decide))
    obtain ⟨s'', hsaves, hpending', hleaves', hcons⟩ := ih hpending
      (fun sec' hsec' => lastReadable_congr hleaves (hread sec' (List.mem_cons_of_mem sec hsec'))) fun c => by
        by_cases hc : c ∈ path (h.inRange sec (.head _))
        · exact .inl (consistent_of_sameOff (Sheet.consistent_recalcAll_of_mem hpath hc) hsame (by decide))
        · rcases hclean c with hcons | ⟨sec', hsec', hstart⟩
          · exact .inl (consistent_of_sameOff (Sheet.consistent_recalcAll_of_not_mem hpath hc hcons) hsame (by decide))
          · rcases List.mem_cons.1 hsec' with rfl | hmem
            · exact absurd (mem_path.2 hstart) hc
            · exact .inr ⟨sec', hmem, hstart⟩
    refine ⟨s'', ?_, hpending', hleaves.trans hleaves', hcons⟩
    simp only [saveMerkleTrees, hsave, hsaves]

theorem not_nodeOK_day (hr : InRange sec.toInt) {n : MerkleNode} (hday : db.get ((above hr .day (by decide)).key m) = none)
    (hhour : db.get ((above hr .hr (by decide)).key m) = some (.node n)) : ¬ NodeOK Γ m db (above hr .day (by decide)) := by
  intro hok
  have hdep : (above hr .hr (by decide)).key m ∈ (above hr .day (by decide)).deps m := by
    refine key_mem_deps.2 ⟨rfl, hours_refines_days.floor_le_floor _, ?_⟩
    calc Timestamp.hours.floor sec.toInt ≤ sec.toInt := Timestamp.hours.floor_le _
      _ < Timestamp.days.next sec.toInt := Timestamp.days.lt_next _
      _ = _ := (Timestamp.days.next_floor _).symm
  have hmem : n ∈ (above hr .day (by decide)).children m db :=
    List.mem_filterMap.2 ⟨(_, .node n), mem_range.2 ⟨hhour, hdep⟩, rfl⟩
  rw [hok.missing.1 hday] at hmem
  cases hmem

theorem saveMerkleTree_of_unreadable (Γ : Ctx) (h : Pending m (sec :: l) s) (hread : ¬ LastReadable m s.db.db sec)
    (hday : ∀ hr : InRange sec.toInt, s.db.db.get ((above hr .day (by decide)).key m) = none) :
    ∃ e s' c, saveMerkleTree Γ m s ⟨sec, 0⟩ = (.error e, s') ∧ ¬ NodeOK Γ m s'.db.db c := by
  unfold LastReadable at hread
  push Not at hread
  obtain ⟨hr, n, hlast, hnano⟩ := hread
  have hlevels := saveMerkleTreeLevels_of_unreadable (Γ := Γ) h.tree hr (h.count _ rfl) hlast (UInt32.not_lt.1 hnano)
  obtain ⟨s', hsave, hdb⟩ := saveMerkleTree_of_error h.ready hlevels
  have hne : (above hr .hr (by decide)).children m s.db.db ≠ [] := by
    intro hnil
    rw [hnil] at hlast
    exact absurd hlast (by simp)
  have hvalue : ∃ node, (above hr .hr (by decide)).value Γ m s.db.db = some (.node node) := by
    rw [value]
    generalize (above hr .hr (by decide)).children m s.db.db = children at hne
    cases children with
    | nil => exact absurd rfl hne
    | cons _ _ => exact ⟨_, rfl⟩
  obtain ⟨node, hnode⟩ := hvalue
  refine ⟨_, s', above hr .day (by decide), hsave, not_nodeOK_day (n := node) hr ?_ ?_⟩
  · rw [hdb, Sheet.recalc, get_set, if_neg, hday hr]
    intro heq
    have hlevel : MerkleTreeLevel.day = .hr := congrArg Cell.level (key_injective m heq)
    cases hlevel
  · rw [hdb, Sheet.recalc, get_set]
    exact (if_pos rfl).trans hnode

theorem saveMerkleTrees_stale (h : Pending m l s) (hnodup : l.Nodup)
    (hdays : ∀ sec ∈ l, ∀ sec' ∈ l, Timestamp.days.floor sec.toInt = Timestamp.days.floor sec'.toInt → sec = sec')
    (hday : ∀ sec ∈ l, ∀ hr : InRange sec.toInt, s.db.db.get ((above hr .day (by decide)).key m) = none)
    (hbad : ∃ sec ∈ l, ¬ LastReadable m s.db.db sec) :
    ∃ e s' c, saveMerkleTrees Γ m l s = (.error e, s') ∧ ¬ NodeOK Γ m s'.db.db c := by
  induction l generalizing s with
  | nil =>
    obtain ⟨sec, hsec, -⟩ := hbad
    cases hsec
  | cons sec l ih =>
    by_cases hread : LastReadable m s.db.db sec
    · obtain ⟨s', hsave, hpending, hsame⟩ := saveMerkleTree_of_readable Γ h hread
      have hleaves : SameLeaves m s'.db.db s.db.db := fun k hk hc =>
        ((sameLeaves_recalcAll _).trans (sameLeaves_of_sameOff hsame (by decide)) k hk hc).symm
      obtain ⟨hnot, hnodup'⟩ := List.nodup_cons.1 hnodup
      have hday' : ∀ sec' ∈ l, ∀ hr : InRange sec'.toInt, s'.db.db.get ((above hr .day (by decide)).key m) = none := by
        intro sec' hsec' hr
        have hmem := List.mem_cons_of_mem sec hsec'
        refine (hsame _ (not_inPart_of (inPart_key m _) (by decide))).trans ((Sheet.recalcAll_get ?_).trans (hday sec' hmem hr))
        -- the day of another hour of the round is another day
        intro i hi hkey
        obtain rfl := key_injective m hkey
        have heq := hdays sec' hmem sec (.head _) (mem_path.1 hi)
        exact hnot (heq ▸ hsec')
      have hbad' : ∃ sec' ∈ l, ¬ LastReadable m s'.db.db sec' := by
        obtain ⟨sec', hsec', hnot'⟩ := hbad
        rcases List.mem_cons.1 hsec' with rfl | hmem
        · exact absurd hread hnot'
        · exact ⟨sec', hmem, fun hread' => hnot' (lastReadable_congr hleaves hread')⟩
      have hdays' := fun a ha b hb => hdays a (List.mem_cons_of_mem sec ha) b (List.mem_cons_of_mem sec hb)
      obtain ⟨e, s'', c, hsaves, hc⟩ := ih hpending hnodup' hdays' hday' hbad'
      exact ⟨e, s'', c, by simp only [saveMerkleTrees, hsave, hsaves], hc⟩
    · obtain ⟨e, s', c, hsave, hc⟩ := saveMerkleTree_of_unreadable Γ h hread (hday sec (.head _))
      exact ⟨e, s', c, by simp only [saveMerkleTrees, hsave], hc⟩

/-! ## A round -/

theorem round_of_idle (Γ : Ctx) {now : Timestamp} (order : List Int64) (hidle : (isBusy m s now).1 = false) :
    ∃ s', s'.db.lockMap = s.db.lockMap ∧ SameOff [.merkleToUpdate, .merkleUpdating] s.db.db s'.db.db ∧
      SameOff [.merkleUpdating] (saveMerkleTrees Γ m order s').2.db.db
        (pmGenerateOplogMerkleTree Γ m .alive now order s).2.db.db := by
  have hdb := isBusy_db m s now
  unfold pmGenerateOplogMerkleTree
  rw [if_neg (by decide)]
  generalize isBusy m s now = r at hidle hdb
  obtain ⟨b, s₀⟩ := r
  obtain rfl : b = false := hidle
  have hsame := getAndReset_sameOff m { s₀ with busyGenerateTS := now } order
  refine ⟨{ s₀ with busyGenerateTS := now }.getAndResetToUpdateTSList m order, ?_, ?_, ?_⟩
  · change s₀.db.lockMap = s.db.lockMap
    rw [show s₀.db = s.db from hdb]
  · rw [← show s₀.db = s.db from hdb]
    exact hsame
  · dsimp only
    generalize saveMerkleTrees Γ m order _ = r
    obtain ⟨_ | _, s₁⟩ := r
    · exact SameOff.refl _ _
    · exact (SameOff.refl _ _).delete (inPart_updatingKey m) (by decide)

variable {now : Timestamp} {order : List Int64}

theorem pending_of_given (h : RoundGiven Γ m now order s) {s' : MerkleState} (hlock : s'.db.lockMap = s.db.lockMap)
    (hsame : SameOff [.merkleToUpdate, .merkleUpdating] s.db.db s'.db.db) : Pending m order s' where
  ready := h.ready.congr hlock (hsame _ (not_inPart_of (inPart_generateTimeKey m) (by decide)))
  tree := treeOK_of_sameOff h.tree hsame (by decide)
  count c hc := by
    rw [SameLeaves.children_eq (sameLeaves_of_sameOff hsame (by decide)) hc]
    exact h.count c hc
  inRange sec hsec := h.inRange sec (h.isOrder.2 ▸ List.mem_toFinset.2 hsec)

theorem clean_or_marked (h : RoundGiven Γ m now order s) (c : Cell) :
    NodeOK Γ m s.db.db c ∨ ∃ sec ∈ order, c.start = c.level.buckets.floor sec.toInt := by
  by_cases hmem : Int64.ofInt c.start ∈ s.toUpdateTS
  · refine .inr ⟨Int64.ofInt c.start, List.mem_toFinset.1 (h.isOrder.2.symm ▸ hmem), ?_⟩
    rw [toInt_ofInt c.start_bounds.1 c.start_bounds.2, c.isStart]
  · refine .inl (h.clean c.start c.inRange ?_ hmem c (mem_path.2 c.isStart.symm))
    have hstart := (hours_refines c.level).floor_of_floor c.start
    rwa [c.isStart] at hstart

end ConsistencyAux

open ConsistencyAux in
/-- If the newest oplog of every marked hour has less than a second of nanoseconds, a round makes every node consistent, and changes
nothing else in the tree. Where the marked hours are the first of their days, this is needed too. -/
theorem round_consistent (Γ : Ctx) (m : Merkle) (now : Timestamp) (order : List Int64) (s : MerkleState)
    (h : RoundGiven Γ m now order s) :
    ((∀ sec ∈ s.toUpdateTS, LastReadable m s.db.db sec) →
      (∀ c, NodeOK Γ m (pmGenerateOplogMerkleTree Γ m .alive now order s).2.db.db c) ∧
      ∀ k, InPart .merkle k → (∀ c : Cell, c.key m ≠ k) →
        (pmGenerateOplogMerkleTree Γ m .alive now order s).2.db.db.get k = s.db.db.get k) ∧
    (FreshDays m s → (∀ c, NodeOK Γ m (pmGenerateOplogMerkleTree Γ m .alive now order s).2.db.db c) →
      ∀ sec ∈ s.toUpdateTS, LastReadable m s.db.db sec) := by
  obtain ⟨s₁, hlock, hstart, hend⟩ := round_of_idle Γ order h.idle
  have hpending := pending_of_given h hlock hstart
  have hleaves : SameLeaves m s.db.db s₁.db.db := sameLeaves_of_sameOff hstart (by decide)
  have hmem : ∀ sec, sec ∈ order ↔ sec ∈ s.toUpdateTS := fun sec => h.isOrder.2 ▸ List.mem_toFinset.symm
  constructor
  · intro hread
    have hclean : ∀ c : Cell, (Cell.sheet Γ m).Consistent s₁.db.db c ∨
        ∃ sec ∈ order, c.start = c.level.buckets.floor sec.toInt := fun c =>
      (clean_or_marked h c).imp_left fun hc =>
        consistent_of_nodeOK hpending.tree ((nodeOK_congr hstart (by decide)).2 hc)
    obtain ⟨s₂, hsaves, hpending', hleaves', hcons⟩ := saveMerkleTrees_consistent hpending
      (fun sec hsec => lastReadable_congr hleaves (hread sec ((hmem sec).1 hsec))) hclean
    rw [hsaves] at hend
    refine ⟨fun c => (nodeOK_congr hend (by decide)).2 (nodeOK_of_consistent ?_ (hcons c)), ?_⟩
    · by_cases hhr : c.level = .hr
      · exact hpending'.count c hhr
      · exact Cell.length_children_lt hpending'.tree hhr
    · exact (hleaves.trans hleaves').trans (sameLeaves_of_sameOff hend (by decide))
  · intro hfresh hok
    by_contra hbad
    push Not at hbad
    obtain ⟨sec, hsec, hnot⟩ := hbad
    have hback : SameLeaves m s₁.db.db s.db.db := fun k hk hc => (hleaves k hk hc).symm
    obtain ⟨e, s₂, c, hsaves, hc⟩ := saveMerkleTrees_stale (Γ := Γ) hpending h.isOrder.1
      (fun a ha b hb => (hfresh a ((hmem a).1 ha)).2 b ((hmem b).1 hb))
      (fun a ha hr => (hstart _ (not_inPart_of (inPart_key m _) (by decide))).trans ((hfresh a ((hmem a).1 ha)).1 hr))
      ⟨sec, (hmem sec).2 hsec, fun hread => hnot (lastReadable_congr hback hread)⟩
    rw [hsaves] at hend
    exact hc ((nodeOK_congr hend (by decide)).1 (hok c))

namespace ConsistencyWitness

open SigningWitness ConvergenceWitness JournalWitness

def leaf (nanoTs : UInt32) : MerkleNode := ⟨.now, ⟨List.replicate 20 7, rfl⟩, ⟨4000, nanoTs⟩, 0, []⟩

def leafKey (nanoTs : UInt32) : Bytes := merkle.marshalKey .now ⟨4000, nanoTs⟩

def leafState (nanoTs : UInt32) : MerkleState :=
  (emptyState.withEntries (KeyStore.empty.put (leafKey nanoTs) (.node (leaf nanoTs)))).setUpdateTS merkle ⟨4000, nanoTs⟩

variable {nanoTs : UInt32}

theorem eq_of_get {k : Bytes} {v : Value} (h : (leafState nanoTs).db.db.get k = some v) (hk : ¬ InPart .merkleToUpdate k) :
    k = leafKey nanoTs ∧ v = .node (leaf nanoTs) := by
  change ((KeyStore.empty.put (leafKey nanoTs) (.node (leaf nanoTs))).put _ .valueTrue).get k = some v at h
  rw [get_put, if_neg, get_put] at h
  · split_ifs at h with heq
    · exact ⟨heq, (Option.some.inj h).symm⟩
    · exact nomatch h
  · rintro rfl
    exact hk (inPart_marshalToUpdateTSKey _ _)

theorem not_inPart_of_startsWith {k : Bytes} (h : merkle.dbPrefix <+: k) : ¬ InPart .merkleToUpdate k := fun hk =>
  ne_of_inPart (ConsistencyAux.inPart_of_startsWith h) hk (by decide) rfl

theorem get_key (c : Cell) : (leafState nanoTs).db.db.get (c.key merkle) = none := by
  by_contra hne
  obtain ⟨v, hv⟩ := Option.ne_none_iff_exists'.1 hne
  have hkey : c.key merkle = merkle.dbPrefix ++ (c.level.toUInt8 :: (Timestamp.ofSec c.start).marshal) := marshalKey_eq _ _ _
  obtain ⟨heq, -⟩ := eq_of_get hv (not_inPart_of_startsWith (hkey ▸ List.prefix_append _ _))
  rw [hkey, leafKey, marshalKey_eq, List.append_cancel_left_eq, List.cons.injEq] at heq
  exact absurd c.upper (toUInt8_injective heq.1 ▸ by decide)

theorem hour_of_mem_children {c : Cell} {n : MerkleNode} (h : n ∈ c.children merkle (leafState nanoTs).db.db) :
    n = leaf nanoTs ∧ c.level = .hr ∧ c.start = 3600 := by
  obtain ⟨e, he, hn⟩ := List.mem_filterMap.1 h
  have hpre := Cell.prefix_of_mem_entries he
  obtain ⟨hget, hlo, hhi⟩ := mem_range.1 he
  obtain ⟨hkey, hval⟩ := eq_of_get hget (not_inPart_of_startsWith ((List.prefix_append _ _).trans hpre))
  rw [hkey, leafKey, marshalKey_eq, List.prefix_append_right_inj] at hpre
  have hchild : c.level.child = .now := toUInt8_injective (List.cons_prefix_cons.1 hpre).1
  have hlevel : c.level = .hr := by
    cases hl : c.level <;> rw [hl] at hchild <;> first | rfl | exact absurd hchild (by decide)
  rw [hkey, leafKey, ← hchild] at hlo hhi
  obtain ⟨hge, hlt⟩ := Cell.mem_bucket_of_key hlo hhi
  have hsec : (4000 : Int64).toUInt64.toNat = 4000 := by decide
  rw [hsec] at hge hlt
  have hfloor : c.level.buckets.floor 4000 = c.level.buckets.floor c.start :=
    Buckets.floor_eq _ (by rw [c.isStart]; omega) (by change 4000 < c.next; omega)
  rw [hval] at hn
  refine ⟨(Option.some.inj hn).symm, hlevel, ?_⟩
  rw [← c.isStart, ← hfloor, hlevel]
  decide

theorem inRange_hour : InRange (3600 : Int64).toInt := by
  constructor <;> decide +kernel

theorem leafState_toUpdateTS : (leafState nanoTs).toUpdateTS = {3600} := by
  have hhour : (⟨4000, nanoTs⟩ : Timestamp).toHRTimestamp.1.ts = 3600 := by
    change (4000 : Int64) - 4000 % Timestamp.hrSeconds = 3600
    decide
  change insert (⟨4000, nanoTs⟩ : Timestamp).toHRTimestamp.1.ts ∅ = {3600}
  rw [hhour]
  rfl

theorem given (hlen : (leafState nanoTs).db.db.entries.length < 2 ^ 32) :
    RoundGiven ctx merkle now [3600] (leafState nanoTs) where
  idle := rfl
  isOrder := ⟨by decide, by rw [leafState_toUpdateTS]; rfl⟩
  ready := by
    refine ⟨rfl, rfl, fun v hv => ?_⟩
    have hpart := inPart_generateTimeKey merkle
    obtain ⟨heq, -⟩ := eq_of_get hv fun h => ne_of_inPart hpart h (by decide) rfl
    exact absurd heq (ne_of_inPart hpart (inPart_merkleMarshalKey merkle _ _) (by decide))
  tree := by
    constructor
    · intro k v hk hpre
      exact ⟨_, (eq_of_get hk (not_inPart_of_startsWith hpre)).2⟩
    · intro level hl r v hk
      obtain ⟨heq, -⟩ := eq_of_get hk (not_inPart_of_startsWith (List.prefix_append _ _))
      rw [leafKey, marshalKey_eq, List.append_cancel_left_eq, List.cons.injEq] at heq
      exact absurd hl (toUInt8_injective heq.1 ▸ by decide)
  count c _ := ((List.length_filterMap_le _ _).trans (List.length_filter_le _ _)).trans_lt hlen
  inRange sec hsec := by
    rw [leafState_toUpdateTS, Finset.mem_singleton] at hsec
    rw [hsec]
    exact inRange_hour
  clean x hx hhour hnot c hc := by
    refine ⟨⟨fun _ => List.eq_nil_iff_forall_not_mem.2 fun n hn => hnot ?_, fun _ => get_key c⟩, fun v hv =>
      absurd ((get_key c).symm.trans hv) (Option.some_ne_none v).symm⟩
    obtain ⟨-, hlevel, hstart⟩ := hour_of_mem_children hn
    rw [Cell.mem_path, hstart, hlevel] at hc
    obtain rfl : (3600 : Int) = x := hc.trans hhour
    rw [leafState_toUpdateTS]
    decide

def rebuilt (nanoTs : UInt32) : MerkleState := (pmGenerateOplogMerkleTree ctx merkle .alive now [3600] (leafState nanoTs)).2

end ConsistencyWitness

open ConsistencyWitness JournalWitness SigningWitness in
/-- An oplog of a full second: after the round the nodes of its hour and its year are consistent. -/
theorem round_consistent_leaf : RoundGiven ctx merkle now [3600] (leafState 0) ∧
    NodeOK ctx merkle (rebuilt 0).db.db (Cell.above inRange_hour .hr (by decide)) ∧
    NodeOK ctx merkle (rebuilt 0).db.db (Cell.above inRange_hour .year (by decide)) := by
  have hgiven : RoundGiven ctx merkle now [3600] (leafState 0) := given (by decide +kernel)
  have hread : ∀ sec ∈ (leafState 0).toUpdateTS, LastReadable merkle (leafState 0).db.db sec := by
    intro sec _ h n hn
    obtain ⟨hleaf, -⟩ := hour_of_mem_children (List.mem_of_getLast? hn)
    rw [hleaf]
    decide
  obtain ⟨hsuff, -⟩ := round_consistent ctx merkle now [3600] (leafState 0) hgiven
  obtain ⟨hok, -⟩ := hsuff hread
  exact ⟨hgiven, hok _, hok _⟩

open ConsistencyWitness JournalWitness SigningWitness ConsistencyAux in
/-- An oplog of a second and a billion nanoseconds: after the round the hour has a node, and its day has none. -/
theorem round_inconsistent : RoundGiven ctx merkle now [3600] (leafState 1000000000) ∧
    ¬ NodeOK ctx merkle (rebuilt 1000000000).db.db (Cell.above inRange_hour .day (by decide)) := by
  refine ⟨given (by decide +kernel), ?_⟩
  have hday : (rebuilt 1000000000).db.db.get ((Cell.above inRange_hour .day (by decide)).key merkle) = none := by
    decide +kernel
  have hhour : (rebuilt 1000000000).db.db.get ((Cell.above inRange_hour .hr (by decide)).key merkle) =
      some (.node ⟨.hr, ctx.addr (List.replicate 20 7), ⟨3600, 0⟩, 1, []⟩) := by decide +kernel
  exact not_nodeOK_day inRange_hour hday hhour

end PttaiCore
