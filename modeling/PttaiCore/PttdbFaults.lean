import PttaiCore.Pttdb

/-! # Puts on a database that can fail -/

namespace PttaiCore

variable {V O : Type}

structure Faults where
  /-- Looking up whether there is an index. -/
  has : Option Err
  /-- Reading the index. -/
  get : Option Err
  /-- Reading a record that the index lists. -/
  getOrig : Nat → Option Err
  /-- Deleting one. -/
  delete : Nat → Option Err
  /-- Writing the batch. -/
  write : Option Err

namespace Faults

def noFault : Faults := ⟨none, none, fun _ => none, fun _ => none, none⟩

variable (F : Faults)

def getOrigFrom : Nat → List Bytes → KeyStore Bytes V → Except Err (List (Bytes × V))
  | _, [], _ => .ok []
  | n, key :: keys, db =>
    match F.getOrig n with
    | some e => .error e
    | none =>
      match db.get key with
      | none => .error .notFound
      | some v => (getOrigFrom (n + 1) keys db).map ((key, v) :: ·)

def deleteFrom : Nat → List Bytes → KeyStore Bytes V → KeyStore Bytes V
  | _, [], db => db
  | n, key :: keys, db => deleteFrom (n + 1) keys (if (F.delete n).isSome then db else db.delete key)

variable [DBValue V]

def findIndex (idxKey : Bytes) (db : KeyStore Bytes V) : Except Err (Option Index) :=
  match F.has with
  | some e => .error e
  | none =>
    match db.get idxKey with
    | none => .ok none
    | some v =>
      match F.get with
      | some e => .error e
      | none =>
        match DBValue.toIndex v with
        | none => .error .invalidDBable
        | some i => .ok (some i)

def putAllWithKeyIndex (key : Bytes) (idx : Index) (kvs : List (Bytes × V)) (db : KeyStore Bytes V) : Except Err Unit × KeyStore Bytes V :=
  match F.write with
  | some e => (.error e, db)
  | none => (.ok (), LDBDatabase.putAllWithKeyIndex key idx kvs db)

def putAllCore (idxKey : Bytes) (idx : Index) (kvs : List (Bytes × V)) (isDeleteOrig : Bool)
    (check : Index → KeyStore Bytes V → Option O × Except Err Unit) (db : KeyStore Bytes V) :
    (Option O × Except Err Unit) × KeyStore Bytes V :=
  match F.findIndex idxKey db with
  | .error e => ((none, .error e), db)
  | .ok none =>
    let (r, db) := F.putAllWithKeyIndex idxKey idx kvs db
    ((none, r), db)
  | .ok (some d) =>
    match check d db with
    | (found, .error e) => ((found, .error e), db)
    | (found, .ok _) =>
      let db := if isDeleteOrig then F.deleteFrom 0 d.keys db else db
      match F.putAllWithKeyIndex idxKey idx kvs db with
      | (.error e, db) => ((none, .error e), db)
      | (.ok _, db) => ((found, .ok ()), db)

def tryPutAllCheck (idx : Index) (isGetOrig : Bool) (d : Index) (db : KeyStore Bytes V) : Option (List (Bytes × V)) × Except Err Unit :=
  match if isGetOrig then (F.getOrigFrom 0 d.keys db).map some else .ok none with
  | .error e => (none, .error e)
  | .ok origKVs => if idx.updateTS.isLess d.updateTS then (origKVs, .error .invalidUpdateTS) else (origKVs, .ok ())

def tryPutAllSameUTCheck (idx d : Index) (_ : KeyStore Bytes V) : Option (List Bytes) × Except Err Unit :=
  if idx.updateTS.isLess d.updateTS then (some d.keys, .error .invalidUpdateTS)
  else if idx.updateTS = d.updateTS ∧ d ≠ idx then (some d.keys, .error .invalidUpdateTS)
  else (some d.keys, .ok ())

def lockedPut (d : LDBDatabase V) (idxKey : Bytes) (body : KeyStore Bytes V → (Option O × Except Err Unit) × KeyStore Bytes V) :
    (Option O × Except Err Unit) × LDBDatabase V :=
  LDBDatabase.foundOrBusy (d.withLock idxKey fun db => (.ok (body db).1, (body db).2))

def tryPutAll (d : LDBDatabase V) (idxKey : Bytes) (idx : Index) (kvs : List (Bytes × V)) (isDeleteOrig isGetOrig : Bool) :
    (Option (List (Bytes × V)) × Except Err Unit) × LDBDatabase V :=
  lockedPut d idxKey (F.putAllCore idxKey idx kvs isDeleteOrig (F.tryPutAllCheck idx isGetOrig))

def tryPutAllSameUT (d : LDBDatabase V) (idxKey : Bytes) (idx : Index) (kvs : List (Bytes × V)) (isDeleteOrig : Bool) :
    (Option (List Bytes) × Except Err Unit) × LDBDatabase V :=
  lockedPut d idxKey (F.putAllCore idxKey idx kvs isDeleteOrig (tryPutAllSameUTCheck idx))

def forcePutAll (d : LDBDatabase V) (idxKey : Bytes) (idx : Index) (kvs : List (Bytes × V)) :
    (Option (List Bytes) × Except Err Unit) × LDBDatabase V :=
  lockedPut d idxKey (F.putAllCore idxKey idx kvs true fun i _ => (some i.keys, .ok ()))

end Faults

end PttaiCore
