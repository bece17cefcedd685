import PttaiCore.Merkle

/-! # What the operations on a merkle leave alone -/

namespace PttaiCore

open KeyStore

/-! ## The part of a key -/

def InPart (part : Part) (k : Bytes) : Prop := (k.drop 3).take 2 = part.bytes

instance (part : Part) (k : Bytes) : Decidable (InPart part k) := inferInstanceAs (Decidable (_ = _))

theorem Part.bytes_length (p : Part) : p.bytes.length = 2 := by cases p <;> rfl

theorem Part.bytes_injective {p q : Part} (h : p.bytes = q.bytes) : p = q := by
  revert h
  cases p <;> cases q <;> decide

@[simp] theorem Merkle.partPrefix_length (m : Merkle) (p : Part) : (m.partPrefix p).length = 5 := by
  simp [partPrefix, m.head.2, p.bytes_length]

@[simp] theorem inPart_partPrefix_append {m : Merkle} {p q : Part} {r : Bytes} : InPart q (m.partPrefix p ++ r) ↔ p = q := by
  have hdrop : (m.head.1 ++ (p.bytes ++ r)).drop 3 = p.bytes ++ r := List.drop_left' m.head.2
  have htake : (p.bytes ++ r).take 2 = p.bytes := List.take_left' p.bytes_length
  rw [InPart, Merkle.partPrefix, List.append_assoc, hdrop, htake]
  exact ⟨Part.bytes_injective, fun h => h ▸ rfl⟩

theorem not_inPart_nil (p : Part) : ¬ InPart p [] := by cases p <;> decide

theorem ne_of_inPart {p q : Part} {k k' : Bytes} (hk : InPart p k) (hk' : InPart q k') (h : p ≠ q) : k ≠ k' := by
  rintro rfl
  exact h (Part.bytes_injective (hk.symm.trans hk'))

theorem not_inPart_of {p : Part} {k : Bytes} (hk : InPart p k) {parts : List Part} (h : p ∉ parts) :
    ∀ q ∈ parts, ¬ InPart q k := by
  intro q hq hk'
  exact h (Part.bytes_injective (hk.symm.trans hk') ▸ hq)

def SameOff (parts : List Part) (db db' : KeyStore Bytes Value) : Prop :=
  ∀ k, (∀ p ∈ parts, ¬ InPart p k) → db'.get k = db.get k

namespace SameOff

variable {parts : List Part} {db db' db'' : KeyStore Bytes Value}

theorem refl (parts : List Part) (db : KeyStore Bytes Value) : SameOff parts db db := fun _ _ => rfl

theorem trans (h : SameOff parts db db') (h' : SameOff parts db' db'') : SameOff parts db db'' := fun k hk =>
  (h' k hk).trans (h k hk)

theorem put (h : SameOff parts db db') {p : Part} {k : Bytes} (hk : InPart p k) (hp : p ∈ parts) (v : Value) :
    SameOff parts db (db'.put k v) := by
  intro k' hk'
  have hne : k' ≠ k := by
    rintro rfl
    exact hk' p hp hk
  rw [get_put, if_neg hne, h k' hk']

theorem delete (h : SameOff parts db db') {p : Part} {k : Bytes} (hk : InPart p k) (hp : p ∈ parts) :
    SameOff parts db (db'.delete k) := by
  intro k' hk'
  have hne : k' ≠ k := by
    rintro rfl
    exact hk' p hp hk
  rw [get_delete, if_neg hne, h k' hk']

theorem mono (h : SameOff parts db db') (parts' : List Part) (hsub : ∀ p ∈ parts, p ∈ parts') : SameOff parts' db db' :=
  fun k hk => h k fun p hp => hk p (hsub p hp)

end SameOff

theorem inPart_marshalToUpdateTSKey (m : Merkle) (ts : Timestamp) : InPart .merkleToUpdate (m.marshalToUpdateTSKey ts) := by
  rw [Merkle.marshalToUpdateTSKey, Merkle.toUpdatePrefixWithID, List.append_assoc, inPart_partPrefix_append]

namespace MerkleState

variable (m : Merkle) (s : MerkleState)

theorem setUpdateTS_sameOff (ts : Timestamp) :
    SameOff [.merkleToUpdate] s.db.db (s.setUpdateTS m ts).db.db :=
  (SameOff.refl _ _).put (inPart_marshalToUpdateTSKey m _) (by simp) _

theorem setUpdateTS2_eq (ts ts2 : Timestamp) :
    s.setUpdateTS2 m ts ts2 = (s.setUpdateTS m ts).setUpdateTS m ts2 := by
  unfold setUpdateTS2 setUpdateTS
  dsimp only
  split_ifs with heq
  · have hhr : ts.toHRTimestamp.1 = ts2.toHRTimestamp.1 := by
      simpa [Timestamp.isEqual, Timestamp.toHRTimestamp] using heq
    rw [hhr]
    have hput : (s.db.put (m.marshalToUpdateTSKey ts2.toHRTimestamp.1) .valueTrue).put
        (m.marshalToUpdateTSKey ts2.toHRTimestamp.1) .valueTrue = s.db.put (m.marshalToUpdateTSKey ts2.toHRTimestamp.1) .valueTrue := by
      refine LDBDatabase.ext_of (ext_get fun k => ?_) rfl
      simp only [LDBDatabase.put, LDBDatabase.withDB_db, get_put]
      split_ifs <;> rfl
    rw [hput]
  · rfl

theorem setUpdateTS2_sameOff (ts ts2 : Timestamp) :
    SameOff [.merkleToUpdate] s.db.db (s.setUpdateTS2 m ts ts2).db.db := by
  rw [setUpdateTS2_eq]
  exact (setUpdateTS_sameOff m s ts).trans (setUpdateTS_sameOff m (s.setUpdateTS m ts) ts2)

@[simp] theorem setUpdateTS_lockMap (ts : Timestamp) :
    (s.setUpdateTS m ts).db.lockMap = s.db.lockMap := rfl

@[simp] theorem setUpdateTS2_lockMap (ts ts2 : Timestamp) :
    (s.setUpdateTS2 m ts ts2).db.lockMap = s.db.lockMap := by
  rw [setUpdateTS2_eq, setUpdateTS_lockMap, setUpdateTS_lockMap]

end MerkleState

/-! ## Rebuilding -/

section save

variable (Γ : Ctx) (m : Merkle)

theorem inPart_merkleMarshalKey (level : MerkleTreeLevel) (ts : Timestamp) : InPart .merkle (m.marshalKey level ts) :=
  inPart_partPrefix_append.2 rfl

theorem inPart_generateTimeKey : InPart .merkleMeta m.marshalGenerateTimeKey := inPart_partPrefix_append.2 rfl

theorem inPart_dbPrefix : InPart .merkle m.dbPrefix := inPart_partPrefix_append.2 rfl

theorem inPart_updatingKey : InPart .merkleUpdating m.marshalUpdatingKey := inPart_partPrefix_append.2 rfl

theorem saveMerkleTreeCore_sameOff (level : MerkleTreeLevel) (offsetTS nextTS : Timestamp) (db : KeyStore Bytes Value) :
    SameOff [.merkle] db (saveMerkleTreeCore Γ m level offsetTS nextTS db).2 := by
  unfold saveMerkleTreeCore
  split
  · exact SameOff.refl _ _
  · dsimp only
    split_ifs
    · exact (SameOff.refl _ _).delete (inPart_merkleMarshalKey m level offsetTS) (by simp)
    · exact (SameOff.refl _ _).put (inPart_merkleMarshalKey m level offsetTS) (by simp) _

variable (ts : Timestamp)

theorem saveMerkleTreeUp_sameOff (levels : List MerkleTreeLevel) (db : KeyStore Bytes Value) :
    SameOff [.merkle] db (saveMerkleTreeUp Γ m ts levels db).2 := by
  induction levels generalizing db with
  | nil => exact SameOff.refl _ _
  | cons level levels ih =>
    have hcore := saveMerkleTreeCore_sameOff Γ m level (level.bounds ts).1 (level.bounds ts).2 db
    rw [saveMerkleTreeUp]
    generalize saveMerkleTreeCore Γ m level (level.bounds ts).1 (level.bounds ts).2 db = r at hcore
    obtain ⟨_ | _, db'⟩ := r
    · exact hcore
    · exact hcore.trans (ih db')

theorem saveMerkleTreeLevels_sameOff (db : KeyStore Bytes Value) :
    SameOff [.merkle] db (saveMerkleTreeLevels Γ m ts db).2 := by
  have hcore := saveMerkleTreeCore_sameOff Γ m .hr (MerkleTreeLevel.hr.bounds ts).1 (MerkleTreeLevel.hr.bounds ts).2 db
  unfold saveMerkleTreeLevels
  generalize saveMerkleTreeCore Γ m .hr (MerkleTreeLevel.hr.bounds ts).1 (MerkleTreeLevel.hr.bounds ts).2 db = r at hcore
  obtain ⟨_ | _, db'⟩ := r
  · exact hcore
  · have hup := saveMerkleTreeUp_sameOff Γ m ts [.day, .month, .year] db'
    dsimp only
    generalize saveMerkleTreeUp Γ m ts [.day, .month, .year] db' = r at hup
    obtain ⟨_ | _, db''⟩ := r
    · exact hcore.trans hup
    · exact hcore.trans hup

namespace MerkleState

structure SameJournal (s s' : MerkleState) : Prop where
  toUpdateTS : s'.toUpdateTS = s.toUpdateTS
  entries : SameOff [.merkle, .merkleMeta] s.db.db s'.db.db

variable (s : MerkleState) (ts : Timestamp)

theorem saveGenerateTime_sameJournal : SameJournal s (s.saveGenerateTime m ts).2 := by
  have hput : SameOff [.merkle, .merkleMeta] s.db.db (s.db.tryPut m.marshalGenerateTimeKey (.dbable ts) ts).2.db := by
    rcases s.db.tryPut_cases m.marshalGenerateTimeKey (.dbable ts) ts with ⟨r, heq⟩ | ⟨e, heq, -⟩
    · rw [heq]
      exact (SameOff.refl _ s.db.db).put (inPart_generateTimeKey m) (by simp) (.dbable ts)
    · rw [heq]
      exact SameOff.refl _ _
  unfold saveGenerateTime
  split
  all_goals
    rename_i heq
    rw [heq] at hput
    exact ⟨rfl, hput⟩

theorem saveMerkleTreeLocked_sameJournal :
    SameJournal s (saveMerkleTreeLocked Γ m s ts).2 := by
  have hlevels : SameOff [.merkle, .merkleMeta] s.db.db (saveMerkleTreeLevels Γ m ts s.db.db).2 :=
    (saveMerkleTreeLevels_sameOff Γ m ts s.db.db).mono _ (by simp)
  unfold saveMerkleTreeLocked
  generalize saveMerkleTreeLevels Γ m ts s.db.db = r at hlevels
  obtain ⟨e | newestTS, db⟩ := r
  · exact ⟨rfl, hlevels⟩
  · have htime := saveGenerateTime_sameJournal m (s.withEntries db) newestTS
    exact ⟨htime.toUpdateTS, hlevels.trans htime.entries⟩

theorem saveMerkleTree_sameJournal : SameJournal s (saveMerkleTree Γ m s ts).2 := by
  have hdb := s.db.tryLockMap_db m.dbPrefix
  unfold saveMerkleTree
  generalize s.db.tryLockMap m.dbPrefix = r at hdb
  obtain ⟨e | _, db⟩ := r
  · refine ⟨rfl, ?_⟩
    rw [show db.db = s.db.db from hdb]
    exact SameOff.refl _ _
  · have hlocked := saveMerkleTreeLocked_sameJournal Γ m { s with db } ts
    refine ⟨hlocked.toUpdateTS, ?_⟩
    rw [LDBDatabase.unlockMap_db, ← show db.db = s.db.db from hdb]
    exact hlocked.entries

end MerkleState

end save

/-! ## The list of a round -/

namespace MerkleState

def updatingTSList (m : Merkle) (s : MerkleState) : List Int64 :=
  match s.loadUpdatingTSList m with
  | .ok l => l
  | .error _ => []

theorem updatingTSList_congr {m : Merkle} {s s' : MerkleState}
    (h : s'.db.db.get m.marshalUpdatingKey = s.db.db.get m.marshalUpdatingKey) : s'.updatingTSList m = s.updatingTSList m := by
  rw [updatingTSList, updatingTSList, loadUpdatingTSList, loadUpdatingTSList, LDBDatabase.get, LDBDatabase.get, h]

theorem mem_toUpdateKeys {m : Merkle} {s : MerkleState} {k : Bytes} :
    k ∈ s.toUpdateKeys m ↔ s.db.db.get k ≠ none ∧ m.toUpdatePrefixWithID.isPrefixOf k = true := by
  simp only [toUpdateKeys, List.mem_map, mem_select, Prod.exists, exists_and_right, exists_eq_right]
  simp [Option.ne_none_iff_exists']

theorem getAndReset_get (m : Merkle) (s : MerkleState) (l : List Int64) (k : Bytes) :
    (s.getAndResetToUpdateTSList m l).db.db.get k =
      if k = m.marshalUpdatingKey then some (.tsList l)
      else if m.toUpdatePrefixWithID.isPrefixOf k then none else s.db.db.get k := by
  change ((s.db.db.writeAll (s.getAndResetWrites m l)).get k) = _
  rw [getAndResetWrites, writeAll_append, writeAll_delete]
  change ((s.db.db.deleteAll (s.toUpdateKeys m)).put m.marshalUpdatingKey (.tsList l)).get k = _
  rw [get_put, get_deleteAll]
  split_ifs with h1 h2 h3 h3
  · rfl
  · rfl
  · exact absurd (mem_toUpdateKeys.1 h2).2 h3
  · by_contra hne
    exact h2 (mem_toUpdateKeys.2 ⟨hne, h3⟩)
  · rfl

theorem getAndReset_sameOff (m : Merkle) (s : MerkleState) (l : List Int64) :
    SameOff [.merkleToUpdate, .merkleUpdating] s.db.db (s.getAndResetToUpdateTSList m l).db.db := by
  intro k hk
  rw [getAndReset_get, if_neg, if_neg]
  · intro hpre
    obtain ⟨r, rfl⟩ := List.isPrefixOf_iff_prefix.1 hpre
    refine hk .merkleToUpdate (by decide) ?_
    rw [Merkle.toUpdatePrefixWithID, List.append_assoc]
    exact inPart_partPrefix_append.2 rfl
  · rintro rfl
    exact hk .merkleUpdating (by decide) (inPart_updatingKey m)

theorem updatingTSList_getAndReset (m : Merkle) (s : MerkleState) (l : List Int64) :
    (s.getAndResetToUpdateTSList m l).updatingTSList m = l := by
  rw [updatingTSList, loadUpdatingTSList, LDBDatabase.get, getAndReset_get, if_pos rfl]

/-! ## Rounds -/

section round

variable (Γ : Ctx) (m : Merkle)

theorem saveMerkleTrees_sameJournal (l : List Int64) (s : MerkleState) : SameJournal s (saveMerkleTrees Γ m l s).2 := by
  induction l generalizing s with
  | nil => exact ⟨rfl, SameOff.refl _ _⟩
  | cons sec l ih =>
    have hsave := saveMerkleTree_sameJournal Γ m s ⟨sec, 0⟩
    rw [saveMerkleTrees]
    generalize saveMerkleTree Γ m s ⟨sec, 0⟩ = r at hsave
    obtain ⟨e | _, s'⟩ := r
    · exact hsave
    · exact ⟨(ih s').toUpdateTS.trans hsave.toUpdateTS, hsave.entries.trans (ih s').entries⟩

theorem isBusy_db (s : MerkleState) (now : Timestamp) : (isBusy m s now).2.db = s.db := by
  unfold isBusy
  split_ifs <;> rfl

theorem pmGenerateOplogMerkleTree_sameOff (status : Status) (now : Timestamp) (l : List Int64) (s : MerkleState) :
    SameOff [.merkle, .merkleMeta, .merkleToUpdate, .merkleUpdating] s.db.db
      (pmGenerateOplogMerkleTree Γ m status now l s).2.db.db := by
  have hdb := isBusy_db m s now
  unfold pmGenerateOplogMerkleTree
  split_ifs
  · exact SameOff.refl _ _
  · generalize isBusy m s now = r at hdb
    obtain ⟨_ | _, s₀⟩ := r
    · have hstart := (getAndReset_sameOff m { s₀ with busyGenerateTS := now } l).mono
        [.merkle, .merkleMeta, .merkleToUpdate, .merkleUpdating] (by decide)
      have hsaves := ((saveMerkleTrees_sameJournal Γ m l
        ({ s₀ with busyGenerateTS := now }.getAndResetToUpdateTSList m l)).entries).mono
        [.merkle, .merkleMeta, .merkleToUpdate, .merkleUpdating] (by decide)
      rw [← show s₀.db = s.db from hdb]
      dsimp only
      generalize saveMerkleTrees Γ m l _ = r at hsaves
      obtain ⟨_ | _, s₁⟩ := r
      · exact hstart.trans hsaves
      · exact (hstart.trans hsaves).delete (inPart_updatingKey m) (by decide)
    · rw [← show s₀.db = s.db from hdb]
      exact SameOff.refl _ _

end round

end MerkleState

end PttaiCore
