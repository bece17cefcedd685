import PttaiCore.Theorems.Journal

/-! # Which dirty hours survive a crash while a round takes them -/

namespace PttaiCore

open MerkleState KeyStore List

namespace MerkleState

def crash (m : Merkle) (s : MerkleState) (l : List Int64) (n : Nat) : MerkleState where
  db := .ofDB (s.db.db.writeAll ((s.getAndResetWrites m l).take n))
  toUpdateTS := ∅
  busyGenerateTS := .zero
  lastGenerateTS := .zero

def hourKey (m : Merkle) (sec : Int64) : Bytes := m.marshalToUpdateTSKey ⟨sec, 0⟩

def KeysOK (m : Merkle) (s : MerkleState) : Prop :=
  ∀ k, s.db.db.get k ≠ none → m.toUpdatePrefixWithID.isPrefixOf k = true → ∃ sec, k = hourKey m sec

structure JournalOK (m : Merkle) (s : MerkleState) : Prop where
  keys : KeysOK m s
  mem : ∀ sec, sec ∈ s.toUpdateTS ↔ s.db.db.get (hourKey m sec) ≠ none
  hours : ∀ sec ∈ s.toUpdateTS, Timestamp.IsHour sec
  listHours : ∀ sec ∈ s.updatingTSList m, Timestamp.IsHour sec

end MerkleState

namespace CrashAux

variable {m : Merkle} {s : MerkleState}

theorem toUpdatePrefixWithID_length : m.toUpdatePrefixWithID.length = 45 := by
  simp [Merkle.toUpdatePrefixWithID, m.prefixID.2]

variable (sec : Int64) {l : List Int64} {n : Nat}

theorem tsFromToUpdateTSKey_hourKey : Merkle.tsFromToUpdateTSKey (hourKey m sec) = some sec := by
  have hdrop : (hourKey m sec).drop 45 = Bytes.be 8 sec.toUInt64.toNat := drop_left' toUpdatePrefixWithID_length
  have hlen : (Bytes.be 8 sec.toUInt64.toNat).length = 8 := Bytes.be_length _ _
  have hmod : sec.toUInt64.toNat % 256 ^ 8 = sec.toUInt64.toNat := Nat.mod_eq_of_lt sec.toUInt64.toNat_lt
  rw [Merkle.tsFromToUpdateTSKey, hdrop]
  simp only [hlen, lt_irrefl, if_false]
  rw [take_of_length_le hlen.le, Bytes.ofBE_be, hmod, UInt64.ofNat_toNat]
  rfl

theorem hourKey_injective {sec sec' : Int64} (h : hourKey m sec = hourKey m sec') : sec = sec' := by
  have := tsFromToUpdateTSKey_hourKey (m := m) sec
  rw [h, tsFromToUpdateTSKey_hourKey] at this
  exact (Option.some.inj this).symm

theorem isPrefixOf_hourKey : m.toUpdatePrefixWithID.isPrefixOf (hourKey m sec) = true :=
  List.isPrefixOf_iff_prefix.2 (prefix_append _ _)

theorem inPart_hourKey : InPart .merkleToUpdate (hourKey m sec) := inPart_marshalToUpdateTSKey m _

theorem loadToUpdateTSs_eq (h : KeysOK m s) : ∃ tss : List Int64,
    s.loadToUpdateTSs m = (.ok (), { s with toUpdateTS := s.toUpdateTS ∪ tss.toFinset }) ∧
      ∀ sec, sec ∈ tss ↔ s.db.db.get (hourKey m sec) ≠ none := by
  have hdecodes : ∀ k ∈ s.toUpdateKeys m, Merkle.tsFromToUpdateTSKey k ≠ none := by
    intro k hk
    obtain ⟨hget, hprefix⟩ := mem_toUpdateKeys.1 hk
    obtain ⟨sec, rfl⟩ := h k hget hprefix
    rw [tsFromToUpdateTSKey_hourKey]
    exact Option.some_ne_none sec
  refine ⟨_, by rw [loadToUpdateTSs, mapM_eq_filterMap hdecodes], fun sec => ?_⟩
  rw [mem_filterMap]
  constructor
  · rintro ⟨k, hk, hsec⟩
    obtain ⟨hget, hprefix⟩ := mem_toUpdateKeys.1 hk
    obtain ⟨sec', rfl⟩ := h k hget hprefix
    rw [tsFromToUpdateTSKey_hourKey] at hsec
    rwa [← Option.some.inj hsec]
  · intro hget
    exact ⟨hourKey m sec, mem_toUpdateKeys.2 ⟨hget, isPrefixOf_hourKey sec⟩, tsFromToUpdateTSKey_hourKey sec⟩

theorem foldl_setUpdateTS_toUpdateTS (l : List Int64) (h : ∀ sec ∈ l, Timestamp.IsHour sec) (s : MerkleState) :
    (l.foldl (fun s sec => s.setUpdateTS m ⟨sec, 0⟩) s).toUpdateTS = s.toUpdateTS ∪ l.toFinset := by
  induction l generalizing s with
  | nil => simp
  | cons sec l ih =>
    have hhour : (s.setUpdateTS m ⟨sec, 0⟩).toUpdateTS = insert sec s.toUpdateTS := by
      unfold setUpdateTS
      rw [Timestamp.toHRTimestamp_of_isHour (h sec mem_cons_self)]
    rw [foldl_cons, ih fun x hx => h x (mem_cons_of_mem sec hx), hhour, toFinset_cons]
    simp [Finset.insert_union]

theorem recover_eq (hkeys : KeysOK m s) (hlist : ∀ sec ∈ s.updatingTSList m, Timestamp.IsHour sec) :
    ∃ s', s.recover m = (.ok (), s') ∧ ∀ sec, sec ∈ s'.toUpdateTS ↔
      sec ∈ s.toUpdateTS ∨ s.db.db.get (hourKey m sec) ≠ none ∨ sec ∈ s.updatingTSList m := by
  obtain ⟨tss, hload, hmem⟩ := loadToUpdateTSs_eq hkeys
  rw [recover, hload]
  dsimp only
  have hsame : loadUpdatingTSList m { s with toUpdateTS := s.toUpdateTS ∪ tss.toFinset } = s.loadUpdatingTSList m := rfl
  rw [hsame]
  unfold updatingTSList at hlist ⊢
  cases hl : s.loadUpdatingTSList m with
  | error e =>
    refine ⟨_, rfl, fun sec => ?_⟩
    simp [hmem]
  | ok l =>
    rw [hl] at hlist
    refine ⟨_, rfl, fun sec => ?_⟩
    rw [foldl_setUpdateTS_toUpdateTS l hlist]
    simp [hmem]

/-! ### The database after a crash -/

theorem crash_get_of_le (hn : n ≤ (s.toUpdateKeys m).length) (k : Bytes) :
    (s.crash m l n).db.db.get k = if k ∈ (s.toUpdateKeys m).take n then none else s.db.db.get k := by
  have hlen : n ≤ ((s.toUpdateKeys m).map (KeyStore.Write.delete (V := Value))).length := by simpa using hn
  change (s.db.db.writeAll ((s.getAndResetWrites m l).take n)).get k = _
  rw [getAndResetWrites, take_append_of_le_length hlen, ← map_take, writeAll_delete,
    get_deleteAll]
  split_ifs <;> rfl

theorem crash_get_of_lt (hn : (s.toUpdateKeys m).length < n) (k : Bytes) :
    (s.crash m l n).db.db.get k = (s.getAndResetToUpdateTSList m l).db.db.get k := by
  have hlen : (s.getAndResetWrites m l).length ≤ n := by
    simp only [getAndResetWrites, length_append, length_map, length_singleton]
    omega
  change (s.db.db.writeAll ((s.getAndResetWrites m l).take n)).get k = _
  rw [take_of_length_le hlen]
  rfl

theorem inPart_of_isPrefixOf {k : Bytes} (h : m.toUpdatePrefixWithID.isPrefixOf k = true) : InPart .merkleToUpdate k := by
  obtain ⟨r, rfl⟩ := List.isPrefixOf_iff_prefix.1 h
  rw [Merkle.toUpdatePrefixWithID, append_assoc, inPart_partPrefix_append]

theorem ne_updatingKey {k : Bytes} (h : m.toUpdatePrefixWithID.isPrefixOf k = true) : k ≠ m.marshalUpdatingKey :=
  ne_of_inPart (inPart_of_isPrefixOf h) (inPart_updatingKey m) (by decide)

theorem keysOK_of_get {s' : MerkleState} (h : KeysOK m s)
    (hget : ∀ k, m.toUpdatePrefixWithID.isPrefixOf k = true → s'.db.db.get k ≠ none → s.db.db.get k ≠ none) : KeysOK m s' :=
  fun k hk hprefix => h k (hget k hprefix hk) hprefix

theorem recover_crash_of_le (h : JournalOK m s) (hn : n ≤ (s.toUpdateKeys m).length) :
    ∃ s', (s.crash m l n).recover m = (.ok (), s') ∧ ∀ sec, sec ∈ s'.toUpdateTS ↔
      (sec ∈ s.toUpdateTS ∧ hourKey m sec ∉ (s.toUpdateKeys m).take n) ∨ sec ∈ s.updatingTSList m := by
  have hlist : (s.crash m l n).updatingTSList m = s.updatingTSList m := by
    refine updatingTSList_congr ?_
    rw [crash_get_of_le hn, if_neg fun hmem => ne_updatingKey (mem_toUpdateKeys.1 (mem_of_mem_take hmem)).2 rfl]
  have hkeys : KeysOK m (s.crash m l n) := keysOK_of_get h.keys fun k _ hk => by
    rw [crash_get_of_le hn] at hk
    split_ifs at hk with hmem
    · exact absurd rfl hk
    · exact hk
  obtain ⟨s', hs', hmem⟩ := recover_eq hkeys (hlist ▸ h.listHours)
  refine ⟨s', hs', fun sec => ?_⟩
  rw [hmem, hlist, crash_get_of_le hn, h.mem]
  simp [crash, and_comm]

theorem recover_crash_of_lt (h : JournalOK m s) (horder : IsOrderOf l s.toUpdateTS)
    (hn : (s.toUpdateKeys m).length < n) :
    ∃ s', (s.crash m l n).recover m = (.ok (), s') ∧ ∀ sec, sec ∈ s'.toUpdateTS ↔ sec ∈ s.toUpdateTS := by
  have hlist : (s.crash m l n).updatingTSList m = l :=
    (updatingTSList_congr (crash_get_of_lt hn _)).trans (updatingTSList_getAndReset m s l)
  have hset : ∀ sec, sec ∈ l ↔ sec ∈ s.toUpdateTS := fun sec => by rw [← horder.2, mem_toFinset]
  have hgone : ∀ k, m.toUpdatePrefixWithID.isPrefixOf k = true → (s.crash m l n).db.db.get k = none := by
    intro k hk
    rw [crash_get_of_lt hn, getAndReset_get, if_neg (ne_updatingKey hk), if_pos hk]
  have hkeys : KeysOK m (s.crash m l n) := fun k hk hprefix => absurd (hgone k hprefix) hk
  obtain ⟨s', hs', hmem⟩ := recover_eq hkeys fun sec hsec => h.hours sec ((hset sec).1 (hlist ▸ hsec))
  refine ⟨s', hs', fun sec => ?_⟩
  rw [hmem, hlist, hgone _ (isPrefixOf_hourKey sec), hset]
  simp [crash]

end CrashAux

/-- After a crash while the dirty hours are taken, a restart recovers every hour that was marked in memory or in the list of an
earlier round exactly when: before the list is written, the hours whose keys are deleted already are in that earlier list; after
it, the earlier list has marked hours only. -/
theorem crash_recovers_iff (m : Merkle) {s : MerkleState} (h : JournalOK m s) {l : List Int64}
    (horder : IsOrderOf l s.toUpdateTS) (n : Nat) :
    ∃ s', (s.crash m l n).recover m = (.ok (), s') ∧
      ((∀ sec, sec ∈ s.toUpdateTS ∨ sec ∈ s.updatingTSList m → sec ∈ s'.toUpdateTS) ↔
        if n ≤ (s.toUpdateKeys m).length then
          ∀ sec ∈ s.toUpdateTS, hourKey m sec ∈ (s.toUpdateKeys m).take n → sec ∈ s.updatingTSList m
        else ∀ sec ∈ s.updatingTSList m, sec ∈ s.toUpdateTS) := by
  split_ifs with hn
  · obtain ⟨s', hs', hmem⟩ := CrashAux.recover_crash_of_le h (l := l) hn
    refine ⟨s', hs', ?_⟩
    constructor
    · intro hall sec hsec hdeleted
      rcases (hmem sec).1 (hall sec (Or.inl hsec)) with hleft | hlist
      · exact absurd hdeleted hleft.2
      · exact hlist
    · rintro hlist sec (hsec | hsec)
      · by_cases hdeleted : hourKey m sec ∈ (s.toUpdateKeys m).take n
        · exact (hmem sec).2 (Or.inr (hlist sec hsec hdeleted))
        · exact (hmem sec).2 (Or.inl ⟨hsec, hdeleted⟩)
      · exact (hmem sec).2 (Or.inr hsec)
  · obtain ⟨s', hs', hmem⟩ := CrashAux.recover_crash_of_lt h horder (not_le.1 hn)
    refine ⟨s', hs', ?_⟩
    constructor
    · intro hall sec hsec
      exact (hmem sec).1 (hall sec (Or.inr hsec))
    · rintro hlist sec (hsec | hsec)
      · exact (hmem sec).2 hsec
      · exact (hmem sec).2 (hlist sec hsec)

/-! ## Marking and rounds keep the journal in order -/

namespace CrashAux

variable {Γ : Ctx} {m : Merkle} {s : MerkleState}

theorem journalOK_put {sec : Int64} (h : JournalOK m s) (hhour : Timestamp.IsHour sec) :
    JournalOK m { s with db := s.db.put (hourKey m sec) .valueTrue, toUpdateTS := insert sec s.toUpdateTS } := by
  have hlist : updatingTSList m { s with
      db := s.db.put (hourKey m sec) .valueTrue, toUpdateTS := insert sec s.toUpdateTS } = s.updatingTSList m := by
    refine updatingTSList_congr ?_
    change (s.db.db.put (hourKey m sec) .valueTrue).get _ = _
    rw [get_put, if_neg (ne_of_inPart (inPart_updatingKey m) (inPart_hourKey sec) (by decide))]
  refine ⟨fun k hk hprefix => ?_, fun sec' => ?_, fun sec' hsec' => ?_, fun sec' hsec' => h.listHours sec' (hlist ▸ hsec')⟩
  · by_cases hkey : k = hourKey m sec
    · exact ⟨sec, hkey⟩
    · refine h.keys k (fun hnone => hk ?_) hprefix
      change (s.db.db.put (hourKey m sec) .valueTrue).get k = none
      rw [get_put, if_neg hkey, hnone]
  · change sec' ∈ insert sec s.toUpdateTS ↔ (s.db.db.put (hourKey m sec) .valueTrue).get (hourKey m sec') ≠ none
    rw [get_put, Finset.mem_insert]
    by_cases hsec : sec' = sec
    · simp [hsec]
    · rw [if_neg fun hkey => hsec (hourKey_injective hkey), h.mem]
      simp [hsec]
  · rcases Finset.mem_insert.1 hsec' with rfl | hmem
    · exact hhour
    · exact h.hours sec' hmem

theorem journalOK_setUpdateTS (h : JournalOK m s) (ts : Timestamp) : JournalOK m (s.setUpdateTS m ts) :=
  journalOK_put h (Timestamp.isHour_toHRTimestamp ts)

end CrashAux

namespace CrashWitness

open JournalWitness ConvergenceWitness

theorem emptyState_journalOK : JournalOK merkle emptyState where
  keys _ hk := absurd rfl hk
  mem _ := by simp [emptyState]
  hours _ hsec := absurd hsec (by simp [emptyState])
  listHours _ hsec := absurd hsec (by simp [emptyState, updatingTSList, loadUpdatingTSList, LDBDatabase.get])

theorem marked_journalOK : JournalOK merkle marked.merkle := CrashAux.journalOK_setUpdateTS emptyState_journalOK ⟨4000, 0⟩

end CrashWitness

open JournalWitness CrashWitness in
/-- The crash comes right after the list is written. -/
theorem crash_recovers_iff_two : ∃ s', (marked.merkle.crash merkle [3600] 2).recover merkle = (.ok (), s') ∧
    ((∀ sec, sec ∈ marked.merkle.toUpdateTS ∨ sec ∈ marked.merkle.updatingTSList merkle → sec ∈ s'.toUpdateTS) ↔
      if 2 ≤ (marked.merkle.toUpdateKeys merkle).length then
        ∀ sec ∈ marked.merkle.toUpdateTS, hourKey merkle sec ∈ (marked.merkle.toUpdateKeys merkle).take 2 →
          sec ∈ marked.merkle.updatingTSList merkle
      else ∀ sec ∈ marked.merkle.updatingTSList merkle, sec ∈ marked.merkle.toUpdateTS) :=
  crash_recovers_iff merkle marked_journalOK (by decide) 2

open JournalWitness in
/-- The crash comes after the key of the hour is deleted and before the list is written: the hour is lost. -/
theorem crash_loses_hour : JournalOK merkle marked.merkle ∧ IsOrderOf [3600] marked.merkle.toUpdateTS ∧
    (3600 : Int64) ∈ marked.merkle.toUpdateTS ∧
    (3600 : Int64) ∉ ((marked.merkle.crash merkle [3600] 1).recover merkle).2.toUpdateTS :=
  ⟨CrashWitness.marked_journalOK, by decide, by decide, by decide +kernel⟩

end PttaiCore
