import PttaiCore.Merkle
import PttaiCore.PttdbFaults

/-! # Puts that fail -/

namespace PttaiCore

open LDBDatabase

variable {V O : Type}

def PutAtomic (d : LDBDatabase V) (r : (Option O × Except Err Unit) × LDBDatabase V) : Prop :=
  ∀ e, r.1.2 = .error e → (∀ key, r.2.db.get key = d.db.get key) ∧ r.2.lockMap = d.lockMap

structure Faults.LosesRecords [DBValue V] (F : Faults) (d : LDBDatabase V) (idxKey : Bytes) (isDeleteOrig : Bool) (GoesOn : Index → Prop) :
    Prop where
  free : d.lockMap.get idxKey = none
  has : F.has = none
  get : F.get = none
  write : F.write ≠ none
  deletes : isDeleteOrig = true
  lost : ∃ i, indexAt d.db idxKey = some i ∧ GoesOn i ∧ ∃ n key, i.keys[n]? = some key ∧ F.delete n = none ∧ d.db.get key ≠ none

namespace PutFaultsAux

open Faults

variable {F : Faults} {db : KeyStore Bytes V} {d : LDBDatabase V}

/-! ## Keys one after another -/

theorem getOrigFrom_ok_iff (n : Nat) (keys : List Bytes) :
    (∃ l, F.getOrigFrom n keys db = .ok l) ↔ ∀ i key, keys[i]? = some key → F.getOrig (n + i) = none ∧ db.get key ≠ none := by
  induction keys generalizing n with
  | nil => simp [getOrigFrom]
  | cons k keys ih =>
    rw [← Nat.and_forall_add_one]
    simp only [List.getElem?_cons_succ, ← Nat.add_assoc, Nat.add_right_comm n _ 1, ← ih (n + 1)]
    simp only [List.getElem?_cons_zero, Option.some.injEq, forall_eq', Nat.add_zero, getOrigFrom]
    cases F.getOrig n with
    | some e => simp
    | none =>
      cases db.get k with
      | none => simp
      | some v =>
        cases F.getOrigFrom (n + 1) keys db with
        | error e => simp [Except.map]
        | ok l => simp [Except.map]

theorem get_deleteFrom_of_none {n : Nat} {keys : List Bytes} {key : Bytes} (h : db.get key = none) :
    (F.deleteFrom n keys db).get key = none := by
  induction keys generalizing n db with
  | nil => exact h
  | cons k keys ih =>
    refine ih ?_
    split_ifs
    · exact h
    · simp [h]

theorem get_deleteFrom_of_deleted {n i : Nat} {keys : List Bytes} {key : Bytes} (hi : keys[i]? = some key) (hdel : F.delete (n + i) = none) :
    (F.deleteFrom n keys db).get key = none := by
  induction keys generalizing n i db with
  | nil => simp at hi
  | cons k keys ih =>
    rw [deleteFrom]
    cases i with
    | zero =>
      have hk : k = key := by simpa using hi
      refine get_deleteFrom_of_none ?_
      rw [Nat.add_zero] at hdel
      simp [hdel, hk]
    | succ i => exact ih (by simpa using hi) (by rw [← hdel]; congr 1; omega)

theorem get_deleteFrom_of_kept {n : Nat} {keys : List Bytes} {key : Bytes} (h : ∀ i, keys[i]? = some key → F.delete (n + i) ≠ none) :
    (F.deleteFrom n keys db).get key = db.get key := by
  induction keys generalizing n db with
  | nil => rfl
  | cons k keys ih =>
    have htail : ∀ i, keys[i]? = some key → F.delete (n + 1 + i) ≠ none := by
      intro i hi
      have hdel := h (i + 1) (by simpa using hi)
      rwa [Nat.add_assoc, Nat.add_comm 1]
    rw [deleteFrom, ih htail]
    split_ifs with hk
    · rfl
    · have hne : key ≠ k := by
        rintro rfl
        refine h 0 rfl ?_
        simpa using hk
      rw [KeyStore.get_delete, if_neg hne]

theorem deleteFrom_unchanged_iff (keys : List Bytes) : (∀ key, (F.deleteFrom 0 keys db).get key = db.get key) ↔
    ¬ ∃ n key, keys[n]? = some key ∧ F.delete n = none ∧ db.get key ≠ none := by
  constructor
  · rintro h ⟨n, key, hn, hdel, hne⟩
    refine hne ?_
    rw [← h key]
    exact get_deleteFrom_of_deleted hn (by rwa [Nat.zero_add])
  · intro h key
    by_cases hreach : ∃ n, keys[n]? = some key ∧ F.delete n = none
    · obtain ⟨n, hn, hdel⟩ := hreach
      have hnone : db.get key = none := by
        by_contra hne
        exact h ⟨n, key, hn, hdel, hne⟩
      rw [hnone]
      exact get_deleteFrom_of_deleted hn (by rwa [Nat.zero_add])
    · refine get_deleteFrom_of_kept fun i hi hdel => hreach ⟨i, hi, ?_⟩
      rwa [Nat.zero_add] at hdel

theorem getOrigFrom_noFault (n : Nat) (keys : List Bytes) : noFault.getOrigFrom n keys db = LDBDatabase.getOrig keys db := by
  induction keys generalizing n with
  | nil => rfl
  | cons k keys ih =>
    rw [getOrigFrom, LDBDatabase.getOrig, List.mapM_cons]
    cases db.get k with
    | none => rfl
    | some v =>
      rw [ih]
      rfl

theorem deleteFrom_noFault (n : Nat) (keys : List Bytes) : noFault.deleteFrom n keys db = db.deleteAll keys := by
  induction keys generalizing n db with
  | nil => rfl
  | cons k keys ih => exact ih (n + 1)

/-! ## What the puts check -/

variable {idx : Index}

theorem tryPutAllCheck_ok_iff {isGetOrig : Bool} (i : Index) : (F.tryPutAllCheck idx isGetOrig i db).2 = .ok () ↔
    (isGetOrig = true → ∀ n key, i.keys[n]? = some key → F.getOrig n = none ∧ db.get key ≠ none) ∧
      idx.updateTS.isLess i.updateTS = false := by
  have hread : (∃ l, F.getOrigFrom 0 i.keys db = .ok l) ↔ _ := getOrigFrom_ok_iff 0 i.keys
  simp only [Nat.zero_add] at hread
  rw [← hread, tryPutAllCheck]
  cases isGetOrig with
  | false => cases idx.updateTS.isLess i.updateTS <;> simp
  | true =>
    rcases F.getOrigFrom 0 i.keys db with e | l
    · simp [Except.map]
    · cases idx.updateTS.isLess i.updateTS <;> simp [Except.map]

theorem tryPutAllSameUTCheck_ok_iff (i : Index) : (tryPutAllSameUTCheck idx i db).2 = .ok () ↔
    idx.updateTS.isLess i.updateTS = false ∧ (idx.updateTS = i.updateTS → i = idx) := by
  unfold tryPutAllSameUTCheck
  split_ifs with hless hsame
  · simp [hless]
  · simp only [false_iff, not_and, Classical.not_imp]
    exact fun _ => hsame
  · rw [not_and, not_not] at hsame
    simp only [true_iff]
    exact ⟨Bool.eq_false_iff.2 hless, hsame⟩

/-! ## The body of a put -/

variable [DBValue V] {idxKey : Bytes} {kvs : List (Bytes × V)} {isDeleteOrig : Bool}

theorem findIndex_eq_some_iff {i : Index} :
    F.findIndex idxKey db = .ok (some i) ↔ F.has = none ∧ F.get = none ∧ indexAt db idxKey = some i := by
  unfold findIndex indexAt
  cases F.has with
  | some e => simp
  | none =>
    cases db.get idxKey with
    | none => simp
    | some v =>
      cases F.get with
      | some e => simp
      | none => cases hi : DBValue.toIndex v <;> simp [hi]

theorem putAllCore_keeps_iff (idx : Index) (kvs : List (Bytes × V)) (check : Index → KeyStore Bytes V → Option O × Except Err Unit) :
    (∀ e, (F.putAllCore idxKey idx kvs isDeleteOrig check db).1.2 = .error e →
        ∀ key, (F.putAllCore idxKey idx kvs isDeleteOrig check db).2.get key = db.get key) ↔
      ¬ (F.write ≠ none ∧ isDeleteOrig = true ∧ ∃ i, F.findIndex idxKey db = .ok (some i) ∧ (check i db).2 = .ok () ∧
        ∃ n key, i.keys[n]? = some key ∧ F.delete n = none ∧ db.get key ≠ none) := by
  unfold putAllCore Faults.putAllWithKeyIndex
  rcases hfind : F.findIndex idxKey db with e | _ | i
  · simp
  · cases F.write <;> simp
  · rcases hcheck : check i db with ⟨found, e | u⟩
    · simp [hcheck]
    · cases F.write with
      | none => simp [hcheck]
      | some e =>
        cases isDeleteOrig with
        | false => simp [hcheck]
        | true =>
          have hdel : (∀ key, (F.deleteFrom 0 i.keys db).get key = db.get key) ↔ _ := deleteFrom_unchanged_iff i.keys
          simpa [hcheck] using hdel

theorem putAtomic_iff {GoesOn : Index → Prop} {check : Index → KeyStore Bytes V → Option O × Except Err Unit}
    (hcheck : ∀ i, (check i d.db).2 = .ok () ↔ GoesOn i) :
    PutAtomic d (lockedPut d idxKey (F.putAllCore idxKey idx kvs isDeleteOrig check)) ↔ ¬ F.LosesRecords d idxKey isDeleteOrig GoesOn := by
  have hlost : F.LosesRecords d idxKey isDeleteOrig GoesOn ↔ d.lockMap.get idxKey = none ∧ F.write ≠ none ∧ isDeleteOrig = true ∧
      ∃ i, F.findIndex idxKey d.db = .ok (some i) ∧ (check i d.db).2 = .ok () ∧
        ∃ n key, i.keys[n]? = some key ∧ F.delete n = none ∧ d.db.get key ≠ none := by
    simp only [findIndex_eq_some_iff, hcheck]
    constructor
    · rintro ⟨hfree, hhas, hget, hwrite, hdel, i, hi, hgoes, hkey⟩
      exact ⟨hfree, hwrite, hdel, i, ⟨hhas, hget, hi⟩, hgoes, hkey⟩
    · rintro ⟨hfree, hwrite, hdel, i, ⟨hhas, hget, hi⟩, hgoes, hkey⟩
      exact ⟨hfree, hhas, hget, hwrite, hdel, i, hi, hgoes, hkey⟩
  rw [hlost]
  by_cases hfree : d.lockMap.get idxKey = none
  · rw [and_iff_right hfree, ← putAllCore_keeps_iff idx kvs check, lockedPut, withLock_of_free hfree, PutAtomic]
    simp [foundOrBusy]
  · rw [lockedPut, withLock_of_taken hfree]
    exact ⟨fun _ hlost => hfree hlost.1, fun _ _ _ => ⟨fun _ => rfl, rfl⟩⟩

/-! ## Without faults -/

theorem findIndex_noFault : noFault.findIndex idxKey db =
    match db.get idxKey with
    | none => .ok none
    | some v => (DBValue.toIndex v).elim (.error .invalidDBable) fun i => .ok (some i) := by
  unfold findIndex
  dsimp only [noFault]
  cases db.get idxKey with
  | none => rfl
  | some v => cases hi : DBValue.toIndex v <;> simp [hi]

theorem tryPutAllCore_noFault (idx : Index) (kvs : List (Bytes × V)) (isDeleteOrig isGetOrig : Bool) :
    noFault.putAllCore idxKey idx kvs isDeleteOrig (noFault.tryPutAllCheck idx isGetOrig) db =
      tryPutAllCore idxKey idx kvs isDeleteOrig isGetOrig db := by
  rw [putAllCore, tryPutAllCore, findIndex_noFault]
  cases db.get idxKey with
  | none => rfl
  | some v =>
    dsimp only
    cases DBValue.toIndex v with
    | none => rfl
    | some i =>
      simp only [Option.elim_some, tryPutAllCheck, getOrigFrom_noFault, deleteFrom_noFault]
      rcases (if isGetOrig then (getOrig i.keys db).map some else .ok none) with e | origKVs
      · rfl
      · dsimp only
        split_ifs <;> rfl

theorem tryPutAllSameUTCore_noFault (idx : Index) (kvs : List (Bytes × V)) (isDeleteOrig : Bool) :
    noFault.putAllCore idxKey idx kvs isDeleteOrig (tryPutAllSameUTCheck idx) db = tryPutAllSameUTCore idxKey idx kvs isDeleteOrig db := by
  rw [putAllCore, tryPutAllSameUTCore, findIndex_noFault]
  cases db.get idxKey with
  | none => rfl
  | some v =>
    dsimp only
    cases DBValue.toIndex v with
    | none => rfl
    | some i =>
      simp only [Option.elim_some, tryPutAllSameUTCheck, deleteFrom_noFault]
      split_ifs <;> rfl

theorem forcePutAllCore_noFault (idx : Index) (kvs : List (Bytes × V)) :
    forcePutAllCore idxKey idx kvs db =
      ((noFault.putAllCore idxKey idx kvs true (fun i _ => (some i.keys, .ok ())) db).1.2.map fun _ =>
          (noFault.putAllCore idxKey idx kvs true (fun i _ => (some i.keys, .ok ())) db).1.1,
        (noFault.putAllCore idxKey idx kvs true (fun i _ => (some i.keys, .ok ())) db).2) := by
  rw [putAllCore, forcePutAllCore, findIndex_noFault]
  cases db.get idxKey with
  | none => rfl
  | some v =>
    dsimp only
    cases DBValue.toIndex v with
    | none => rfl
    | some i =>
      simp only [Option.elim_some, deleteFrom_noFault]
      rfl

end PutFaultsAux

section noFault

variable [DBValue V] (d : LDBDatabase V) (idxKey : Bytes) (idx : Index) (kvs : List (Bytes × V))

open Faults PutFaultsAux

theorem tryPutAll_noFault (isDeleteOrig isGetOrig : Bool) :
    noFault.tryPutAll d idxKey idx kvs isDeleteOrig isGetOrig = d.tryPutAll idxKey idx kvs isDeleteOrig isGetOrig := by
  simp only [Faults.tryPutAll, LDBDatabase.tryPutAll, lockedPut, tryPutAllCore_noFault]

theorem tryPutAllSameUT_noFault (isDeleteOrig : Bool) :
    noFault.tryPutAllSameUT d idxKey idx kvs isDeleteOrig = d.tryPutAllSameUT idxKey idx kvs isDeleteOrig := by
  simp only [Faults.tryPutAllSameUT, LDBDatabase.tryPutAllSameUT, lockedPut, tryPutAllSameUTCore_noFault]

theorem forcePutAll_noFault : d.forcePutAll idxKey idx kvs =
    ((noFault.forcePutAll d idxKey idx kvs).1.2.map fun _ => (noFault.forcePutAll d idxKey idx kvs).1.1,
      (noFault.forcePutAll d idxKey idx kvs).2) := by
  simp only [Faults.forcePutAll, LDBDatabase.forcePutAll, lockedPut]
  by_cases hfree : d.lockMap.get idxKey = none
  · rw [withLock_of_free hfree, withLock_of_free hfree, forcePutAllCore_noFault]
    rfl
  · rw [withLock_of_taken hfree, withLock_of_taken hfree]
    rfl

end noFault

open Faults PutFaultsAux in
/-- A put that fails leaves the entries and the locks as they were, except just when the batch fails after the put has deleted a record of the
index that was there: `tryPutAll` and `tryPutAllSameUT` if they are told to delete and the index passes their checks, `forcePutAll` always. -/
theorem failed_puts_atomic_iff [DBValue V] (F : Faults) (d : LDBDatabase V) (idxKey : Bytes) (idx : Index) (kvs : List (Bytes × V)) :
    (∀ isDeleteOrig isGetOrig, PutAtomic d (F.tryPutAll d idxKey idx kvs isDeleteOrig isGetOrig) ↔
      ¬ F.LosesRecords d idxKey isDeleteOrig fun i =>
        (isGetOrig = true → ∀ n key, i.keys[n]? = some key → F.getOrig n = none ∧ d.db.get key ≠ none) ∧
          idx.updateTS.isLess i.updateTS = false) ∧
    (∀ isDeleteOrig, PutAtomic d (F.tryPutAllSameUT d idxKey idx kvs isDeleteOrig) ↔
      ¬ F.LosesRecords d idxKey isDeleteOrig fun i => idx.updateTS.isLess i.updateTS = false ∧ (idx.updateTS = i.updateTS → i = idx)) ∧
    (PutAtomic d (F.forcePutAll d idxKey idx kvs) ↔ ¬ F.LosesRecords d idxKey true fun _ => True) := by
  refine ⟨fun isDeleteOrig isGetOrig => ?_, fun isDeleteOrig => ?_, ?_⟩
  · exact putAtomic_iff tryPutAllCheck_ok_iff
  · exact putAtomic_iff tryPutAllSameUTCheck_ok_iff
  · exact putAtomic_iff fun i => by simp

namespace PutFaultsWitness

def stored : LDBDatabase Value := ofDB ((KeyStore.empty.put [1] (DBValue.ofIndex ⟨[[2]], ⟨5, 0⟩⟩)).put [2] .valueTrue)

def noWrite : Faults := { Faults.noFault with write := some .notFound }

end PutFaultsWitness

open PutFaultsWitness in
/-- A newer version that cannot be written: the put fails and the record is gone, while its index is still there. -/
theorem failed_put_loses_record :
    (noWrite.tryPutAll stored [1] ⟨[[3]], ⟨6, 0⟩⟩ [([3], .valueTrue)] true false).1.2 = .error .notFound ∧
      stored.db.get [2] = some .valueTrue ∧
      (noWrite.tryPutAll stored [1] ⟨[[3]], ⟨6, 0⟩⟩ [([3], .valueTrue)] true false).2.db.get [2] = none ∧
      indexAt (noWrite.tryPutAll stored [1] ⟨[[3]], ⟨6, 0⟩⟩ [([3], .valueTrue)] true false).2.db [1] = some ⟨[[2]], ⟨5, 0⟩⟩ := by
  decide +kernel

end PttaiCore
