import PttaiCore.Lib.KeyStore
import PttaiCore.Types

/-! # The database: locks, single writes, and records reached through an index -/

namespace PttaiCore

open KeyStore

structure Index where
  keys : List Bytes
  updateTS : Timestamp
  deriving DecidableEq, Repr

class DBValue (V : Type) where
  /-- The stored form of an index. -/
  ofIndex : Index → V
  /-- Decoding a stored index. -/
  toIndex : V → Option Index
  /-- Decoding the update time of a stored record. -/
  toDBable : V → Option Timestamp
  toIndex_ofIndex (i : Index) : toIndex (ofIndex i) = some i

attribute [simp] DBValue.toIndex_ofIndex

variable {V α : Type}

structure LDBDatabase (V : Type) where
  db : KeyStore Bytes V
  lockMap : KeyStore Bytes Int
  /-- A lock nobody holds is not in the map. -/
  lockMap_ne_zero (key : Bytes) : lockMap.get key ≠ some 0

namespace LDBDatabase

def ofDB (db : KeyStore Bytes V) : LDBDatabase V := ⟨db, KeyStore.empty, by simp⟩

@[simp] theorem ofDB_db (db : KeyStore Bytes V) : (ofDB db).db = db := rfl

def withDB (d : LDBDatabase V) (db : KeyStore Bytes V) : LDBDatabase V := { d with db }

@[simp] theorem withDB_db (d : LDBDatabase V) (db : KeyStore Bytes V) : (d.withDB db).db = db := rfl

@[simp] theorem withDB_lockMap (d : LDBDatabase V) (db : KeyStore Bytes V) : (d.withDB db).lockMap = d.lockMap := rfl

@[simp] theorem withDB_self (d : LDBDatabase V) : d.withDB d.db = d := rfl

theorem ext_of {d d' : LDBDatabase V} (h : d.db = d'.db) (h' : d.lockMap = d'.lockMap) : d = d' := by
  cases d
  cases d'
  simp only at h h'
  subst h h'
  rfl

/-! ## Locks -/

def tryLockMap (d : LDBDatabase V) (key : Bytes) : Except Err Unit × LDBDatabase V :=
  match d.lockMap.get key with
  | some _ => (.error .busy, d)
  | none => (.ok (), { d with
      lockMap := d.lockMap.put key (-1)
      lockMap_ne_zero := fun k => by
        rw [KeyStore.get_put]
        split_ifs
        · decide
        · exact d.lockMap_ne_zero k })

def unlockMap (d : LDBDatabase V) (key : Bytes) : Except Err Unit × LDBDatabase V :=
  match d.lockMap.get key with
  | none => (.error .invalidLock, d)
  | some _ => (.ok (), { d with
      lockMap := d.lockMap.delete key
      lockMap_ne_zero := fun k => by
        rw [KeyStore.get_delete]
        split_ifs
        · simp
        · exact d.lockMap_ne_zero k })

def tryRLockMap (d : LDBDatabase V) (key : Bytes) : Except Err Unit × LDBDatabase V :=
  let i := (d.lockMap.get key).getD 0
  if h : i < 0 then (.error .busy, d)
  else (.ok (), { d with
    lockMap := d.lockMap.put key (i + 1)
    lockMap_ne_zero := fun k => by
      rw [KeyStore.get_put]
      split_ifs
      · simp only [ne_eq, Option.some.injEq]; omega
      · exact d.lockMap_ne_zero k })

def rUnlockMap (d : LDBDatabase V) (key : Bytes) : Except Err Unit × LDBDatabase V :=
  match d.lockMap.get key with
  | none => (.error .panic, d)
  | some i =>
    if h : i = 1 then (.ok (), { d with
      lockMap := d.lockMap.delete key
      lockMap_ne_zero := fun k => by
        rw [KeyStore.get_delete]
        split_ifs
        · simp
        · exact d.lockMap_ne_zero k })
    else (.ok (), { d with
      lockMap := d.lockMap.put key (i - 1)
      lockMap_ne_zero := fun k => by
        rw [KeyStore.get_put]
        split_ifs
        · simp only [ne_eq, Option.some.injEq]; omega
        · exact d.lockMap_ne_zero k })

@[simp] theorem tryLockMap_db (d : LDBDatabase V) (key : Bytes) : (d.tryLockMap key).2.db = d.db := by
  unfold tryLockMap
  split <;> rfl

@[simp] theorem unlockMap_db (d : LDBDatabase V) (key : Bytes) : (d.unlockMap key).2.db = d.db := by
  unfold unlockMap
  split <;> rfl

def withLock (d : LDBDatabase V) (key : Bytes) (body : KeyStore Bytes V → Except Err α × KeyStore Bytes V) :
    Except Err α × LDBDatabase V :=
  match d.tryLockMap key with
  | (.error e, d) => (.error e, d)
  | (.ok _, d) => ((body d.db).1, ((d.withDB (body d.db).2).unlockMap key).2)

def withRLock (d : LDBDatabase V) (key : Bytes) (body : KeyStore Bytes V → Except Err α) : Except Err α × LDBDatabase V :=
  match d.tryRLockMap key with
  | (.error e, d) => (.error e, d)
  | (.ok _, d) => (body d.db, (d.rUnlockMap key).2)

theorem withLock_of_free {d : LDBDatabase V} {key : Bytes} (h : d.lockMap.get key = none)
    (body : KeyStore Bytes V → Except Err α × KeyStore Bytes V) :
    d.withLock key body = ((body d.db).1, d.withDB (body d.db).2) := by
  simp only [withLock, tryLockMap, h]
  refine Prod.ext rfl (ext_of ?_ ?_)
  · simp [unlockMap]
  · simp [unlockMap, delete_put_of_get_eq_none h]

theorem withLock_of_taken {d : LDBDatabase V} {key : Bytes} (h : d.lockMap.get key ≠ none)
    (body : KeyStore Bytes V → Except Err α × KeyStore Bytes V) : d.withLock key body = (.error .busy, d) := by
  obtain ⟨i, hi⟩ := Option.ne_none_iff_exists'.1 h
  simp [withLock, tryLockMap, hi]

theorem withLock_db_cases (d : LDBDatabase V) (key : Bytes) (body : KeyStore Bytes V → Except Err α × KeyStore Bytes V) :
    (d.withLock key body).2.db = (body d.db).2 ∨ (d.withLock key body).2.db = d.db := by
  by_cases h : d.lockMap.get key = none
  · rw [withLock_of_free h]
    exact .inl rfl
  · rw [withLock_of_taken h]
    exact .inr rfl

theorem withRLock_eq (d : LDBDatabase V) (key : Bytes) (body : KeyStore Bytes V → Except Err α) :
    d.withRLock key body = (if (d.lockMap.get key).getD 0 < 0 then .error .busy else body d.db, d) := by
  simp only [withRLock, tryRLockMap]
  split_ifs with h
  · rfl
  · refine Prod.ext rfl ?_
    have hread : d.lockMap.get key = none ∨ ∃ i, d.lockMap.get key = some i ∧ i ≠ 0 := by
      cases hk : d.lockMap.get key with
      | none => exact .inl rfl
      | some i => exact .inr ⟨i, rfl, fun h0 => d.lockMap_ne_zero key (h0 ▸ hk)⟩
    simp only [rUnlockMap, get_put, if_true]
    split_ifs with h1
    · rcases hread with hk | ⟨i, hk, hi⟩
      · exact ext_of rfl (delete_put_of_get_eq_none hk _)
      · rw [hk, Option.getD_some] at h1
        exact absurd h1 (by omega)
    · rcases hread with hk | ⟨i, hk, hi⟩
      · rw [hk] at h1
        exact absurd rfl h1
      · refine ext_of rfl (ext_get fun k => ?_)
        simp only [get_put]
        split_ifs with hkk
        · rw [hkk, hk, Option.getD_some, add_sub_cancel_right]
        · rfl

def foundOrBusy {O : Type} : Except Err (Option O × Except Err Unit) × LDBDatabase V → (Option O × Except Err Unit) × LDBDatabase V
  | (.ok r, d) => (r, d)
  | (.error e, d) => ((none, .error e), d)

@[simp] theorem foundOrBusy_snd {O : Type} (r : Except Err (Option O × Except Err Unit) × LDBDatabase V) :
    (foundOrBusy r).2 = r.2 := by
  obtain ⟨_ | _, _⟩ := r <;> rfl

/-! ## Single writes -/

variable [DBValue V]

def put (d : LDBDatabase V) (key : Bytes) (value : V) : LDBDatabase V := d.withDB (d.db.put key value)

def delete (d : LDBDatabase V) (key : Bytes) : LDBDatabase V := d.withDB (d.db.delete key)

def get (d : LDBDatabase V) (key : Bytes) : Except Err V :=
  match d.db.get key with
  | some v => .ok v
  | none => .error .notFound

def tryPutCore (key : Bytes) (value : V) (updateTS : Timestamp) (db : KeyStore Bytes V) :
    Except Err (Option V) × KeyStore Bytes V :=
  match db.get key with
  | none => (.ok none, db.put key value)
  | some v =>
    match DBValue.toDBable v with
    | none => (.error .invalidDBable, db)
    | some t => if updateTS.isLess t then (.error .invalidUpdateTS, db) else (.ok (some v), db.put key value)

def tryPut (d : LDBDatabase V) (key : Bytes) (value : V) (updateTS : Timestamp) : Except Err (Option V) × LDBDatabase V :=
  d.withLock key (tryPutCore key value updateTS)

/-! ## Records with an index -/

def putAllWithKeyIndex (key : Bytes) (idx : Index) (kvs : List (Bytes × V)) (db : KeyStore Bytes V) : KeyStore Bytes V :=
  (db.put key (DBValue.ofIndex idx)).putAll kvs

def forcePutAllCore (idxKey : Bytes) (idx : Index) (kvs : List (Bytes × V)) (db : KeyStore Bytes V) :
    Except Err (Option (List Bytes)) × KeyStore Bytes V :=
  match db.get idxKey with
  | none => (.ok none, putAllWithKeyIndex idxKey idx kvs db)
  | some v =>
    match DBValue.toIndex v with
    | none => (.error .invalidDBable, db)
    | some i => (.ok (some i.keys), putAllWithKeyIndex idxKey idx kvs (db.deleteAll i.keys))

def forcePutAll (d : LDBDatabase V) (idxKey : Bytes) (idx : Index) (kvs : List (Bytes × V)) :
    Except Err (Option (List Bytes)) × LDBDatabase V :=
  d.withLock idxKey (forcePutAllCore idxKey idx kvs)

def getOrig (keys : List Bytes) (db : KeyStore Bytes V) : Except Err (List (Bytes × V)) :=
  keys.mapM fun key =>
    match db.get key with
    | some v => .ok (key, v)
    | none => .error .notFound

def tryPutAllCore (idxKey : Bytes) (idx : Index) (kvs : List (Bytes × V)) (isDeleteOrig isGetOrig : Bool) (db : KeyStore Bytes V) :
    (Option (List (Bytes × V)) × Except Err Unit) × KeyStore Bytes V :=
  match db.get idxKey with
  | none => ((none, .ok ()), putAllWithKeyIndex idxKey idx kvs db)
  | some v =>
    match DBValue.toIndex v with
    | none => ((none, .error .invalidDBable), db)
    | some i =>
      match if isGetOrig then (getOrig i.keys db).map some else .ok none with
      | .error e => ((none, .error e), db)
      | .ok origKVs =>
        if idx.updateTS.isLess i.updateTS then ((origKVs, .error .invalidUpdateTS), db)
        else ((origKVs, .ok ()), putAllWithKeyIndex idxKey idx kvs (if isDeleteOrig then db.deleteAll i.keys else db))

def tryPutAll (d : LDBDatabase V) (idxKey : Bytes) (idx : Index) (kvs : List (Bytes × V)) (isDeleteOrig isGetOrig : Bool) :
    (Option (List (Bytes × V)) × Except Err Unit) × LDBDatabase V :=
  foundOrBusy (d.withLock idxKey fun db =>
    (.ok (tryPutAllCore idxKey idx kvs isDeleteOrig isGetOrig db).1, (tryPutAllCore idxKey idx kvs isDeleteOrig isGetOrig db).2))

def tryPutAllSameUTCore (idxKey : Bytes) (idx : Index) (kvs : List (Bytes × V)) (isDeleteOrig : Bool) (db : KeyStore Bytes V) :
    (Option (List Bytes) × Except Err Unit) × KeyStore Bytes V :=
  match db.get idxKey with
  | none => ((none, .ok ()), putAllWithKeyIndex idxKey idx kvs db)
  | some v =>
    match DBValue.toIndex v with
    | none => ((none, .error .invalidDBable), db)
    | some i =>
      if idx.updateTS.isLess i.updateTS then ((some i.keys, .error .invalidUpdateTS), db)
      else if idx.updateTS = i.updateTS ∧ i ≠ idx then ((some i.keys, .error .invalidUpdateTS), db)
      else ((some i.keys, .ok ()), putAllWithKeyIndex idxKey idx kvs (if isDeleteOrig then db.deleteAll i.keys else db))

def tryPutAllSameUT (d : LDBDatabase V) (idxKey : Bytes) (idx : Index) (kvs : List (Bytes × V)) (isDeleteOrig : Bool) :
    (Option (List Bytes) × Except Err Unit) × LDBDatabase V :=
  foundOrBusy (d.withLock idxKey fun db =>
    (.ok (tryPutAllSameUTCore idxKey idx kvs isDeleteOrig db).1, (tryPutAllSameUTCore idxKey idx kvs isDeleteOrig db).2))

def deleteAllCore (idxKey : Bytes) (db : KeyStore Bytes V) : Except Err Unit × KeyStore Bytes V :=
  match db.get idxKey with
  | none => (.ok (), db)
  | some v =>
    match DBValue.toIndex v with
    | none => (.error .invalidDBable, db)
    | some i => (.ok (), (db.deleteAll i.keys).delete idxKey)

def deleteAll (d : LDBDatabase V) (idxKey : Bytes) : Except Err Unit × LDBDatabase V := d.withLock idxKey (deleteAllCore idxKey)

def getKeyByIdxKeyCore (idxKey : Bytes) (idx : Nat) (db : KeyStore Bytes V) : Except Err Bytes :=
  match db.get idxKey with
  | none => .error .notFound
  | some v =>
    match DBValue.toIndex v with
    | none => .error .invalidDBable
    | some i =>
      match i.keys[idx]? with
      | none | some [] => .error .invalidKeys
      | some key => .ok key

def getKeyByIdxKey (d : LDBDatabase V) (idxKey : Bytes) (idx : Nat) : Except Err Bytes × LDBDatabase V :=
  d.withRLock idxKey (getKeyByIdxKeyCore idxKey idx)

/-! ## What the operations do -/

section spec

variable {d : LDBDatabase V} {idxKey : Bytes}

def indexAt (db : KeyStore Bytes V) (key : Bytes) : Option Index := (db.get key).bind DBValue.toIndex

theorem indexAt_eq_some_iff {db : KeyStore Bytes V} {key : Bytes} {i : Index} :
    indexAt db key = some i ↔ ∃ v, db.get key = some v ∧ DBValue.toIndex v = some i := Option.bind_eq_some_iff

@[simp] theorem getKeyByIdxKey_snd (d : LDBDatabase V) (idxKey : Bytes) (idx : Nat) : (d.getKeyByIdxKey idxKey idx).2 = d := by
  rw [getKeyByIdxKey, withRLock_eq]

theorem getKeyByIdxKey_of_free (h : d.lockMap.get idxKey = none) (idx : Nat) :
    d.getKeyByIdxKey idxKey idx = (getKeyByIdxKeyCore idxKey idx d.db, d) := by
  simp [getKeyByIdxKey, withRLock_eq, h]

theorem tryPut_cases (d : LDBDatabase V) (key : Bytes) (value : V) (updateTS : Timestamp) :
    (∃ r, d.tryPut key value updateTS = (.ok r, d.withDB (d.db.put key value))) ∨
      ∃ e, d.tryPut key value updateTS = (.error e, d) ∧
        (e = .invalidUpdateTS → ∃ v t, d.db.get key = some v ∧ DBValue.toDBable v = some t ∧ updateTS.isLess t = true) := by
  by_cases hfree : d.lockMap.get key = none
  · rw [tryPut, withLock_of_free hfree, tryPutCore]
    cases hv : d.db.get key with
    | none => exact .inl ⟨none, rfl⟩
    | some v =>
      cases ht : DBValue.toDBable v with
      | none => exact .inr ⟨.invalidDBable, by simp [ht], fun h => by cases h⟩
      | some t =>
        cases hless : updateTS.isLess t with
        | true => exact .inr ⟨.invalidUpdateTS, by simp [ht, hless], fun _ => ⟨v, t, rfl, ht, hless⟩⟩
        | false => exact .inl ⟨some v, by simp [ht, hless]⟩
  · exact .inr ⟨.busy, withLock_of_taken hfree _, fun h => by cases h⟩

theorem forcePutAll_of_free (h : d.lockMap.get idxKey = none) (idx : Index) (kvs : List (Bytes × V)) :
    d.forcePutAll idxKey idx kvs =
      ((forcePutAllCore idxKey idx kvs d.db).1, d.withDB (forcePutAllCore idxKey idx kvs d.db).2) :=
  withLock_of_free h _

theorem forcePutAll_of_taken (h : d.lockMap.get idxKey ≠ none) (idx : Index) (kvs : List (Bytes × V)) :
    d.forcePutAll idxKey idx kvs = (.error .busy, d) :=
  withLock_of_taken h _

theorem deleteAll_of_free (h : d.lockMap.get idxKey = none) :
    d.deleteAll idxKey = ((deleteAllCore idxKey d.db).1, d.withDB (deleteAllCore idxKey d.db).2) :=
  withLock_of_free h _

theorem deleteAll_of_taken (h : d.lockMap.get idxKey ≠ none) : d.deleteAll idxKey = (.error .busy, d) :=
  withLock_of_taken h _

theorem getKeyByIdxKeyCore_ok_iff {db : KeyStore Bytes V} {idx : Nat} {key : Bytes} :
    getKeyByIdxKeyCore idxKey idx db = .ok key ↔
      ∃ v i, db.get idxKey = some v ∧ DBValue.toIndex v = some i ∧ i.keys[idx]? = some key ∧ key ≠ [] := by
  unfold getKeyByIdxKeyCore
  cases hv : db.get idxKey with
  | none => simp
  | some v =>
    cases hi : DBValue.toIndex v with
    | none => simp [hi]
    | some i =>
      simp only [hi, Option.some.injEq, exists_and_left, exists_eq_left']
      rcases hk : i.keys[idx]? with _ | k
      · simp
      · cases k with
        | nil => simp
        | cons b bs =>
          simp only [Except.ok.injEq, Option.some.injEq]
          exact ⟨fun h => h ▸ ⟨rfl, by simp⟩, fun h => h.1⟩

theorem getKeyByIdxKeyCore_notFound_iff {db : KeyStore Bytes V} {idx : Nat} :
    getKeyByIdxKeyCore idxKey idx db = .error .notFound ↔ db.get idxKey = none := by
  unfold getKeyByIdxKeyCore
  cases hv : db.get idxKey with
  | none => simp
  | some v =>
    simp only [reduceCtorEq, iff_false]
    cases hi : DBValue.toIndex v with
    | none => simp
    | some i =>
      dsimp only
      rcases hk : i.keys[idx]? with _ | k
      · simp
      · cases k <;> simp

end spec

end LDBDatabase

end PttaiCore
