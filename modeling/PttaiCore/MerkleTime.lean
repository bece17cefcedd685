import PttaiCore.MerkleList

/-! # The times of a merkle -/

namespace PttaiCore

def Timestamp.max : Timestamp := ⟨99999999999999999, 999999999⟩

def offsetMerkleSyncTime : Int64 := 3600

namespace Merkle

variable (m : Merkle)

def marshalSyncTimeKey : Bytes := m.partPrefix .merkleMeta ++ (ascii ['.', 'm', 't', 's', 't'] ++ m.prefixID.1)

def marshalFailSyncTimeKey : Bytes := m.partPrefix .merkleMeta ++ (ascii ['.', 'm', 't', 'f', 't'] ++ m.prefixID.1)

def getTime (db : LDBDatabase Value) (key : Bytes) : Except Err Timestamp :=
  match db.get key with
  | .error e => .error e
  | .ok v =>
    match DBValue.toDBable v with
    | none => .error .json
    | some t => .ok t

def orZero : Except Err Timestamp → Except Err Timestamp
  | .error .notFound => .ok .zero
  | r => r

def getGenerateTime (db : LDBDatabase Value) : Except Err Timestamp := getTime db m.marshalGenerateTimeKey

def getSyncTime (db : LDBDatabase Value) : Except Err Timestamp := orZero (getTime db m.marshalSyncTimeKey)

def getFailSyncTime (db : LDBDatabase Value) : Except Err Timestamp := orZero (getTime db m.marshalFailSyncTimeKey)

def toSyncTime (db : LDBDatabase Value) : Except Err Timestamp :=
  match m.getSyncTime db with
  | .error e => .error e
  | .ok ts => if ts.ts < offsetMerkleSyncTime * 3 then .ok .zero else .ok { ts with ts := ts.ts - offsetMerkleSyncTime }

end Merkle

structure MerkleTimes where
  state : MerkleState
  lastSyncTS : Timestamp
  lastFailSyncTS : Timestamp

namespace MerkleTimes

variable (Γ : Ctx) (m : Merkle)

def newMerkle (db : LDBDatabase Value) : Except Err MerkleTimes :=
  match Merkle.orZero (m.getGenerateTime db), m.getSyncTime db, m.getFailSyncTime db with
  | .ok generate, .ok sync, .ok failSync => .ok ⟨⟨db, ∅, .zero, generate⟩, sync, failSync⟩
  | .error e, _, _ => .error e
  | .ok _, .error e, _ => .error e
  | .ok _, .ok _, .error e => .error e

def withDatabase (s : MerkleTimes) (db : LDBDatabase Value) : MerkleTimes := { s with state := { s.state with db } }

def saveGenerateTime (s : MerkleTimes) (ts : Timestamp) : Except Err Unit × MerkleTimes :=
  let r := s.state.saveGenerateTime m ts
  (r.1, { s with state := r.2 })

def saveSyncTime (s : MerkleTimes) (ts : Timestamp) : Except Err Unit × MerkleTimes :=
  if ts.isLess s.lastSyncTS then
    (if s.lastSyncTS.ts - ts.ts < offsetMerkleSyncTime then .ok () else .error .invalidUpdateTS, s)
  else match s.state.db.tryPut m.marshalSyncTimeKey (.dbable ts) ts with
    | (.error e, db) => (.error e, s.withDatabase db)
    | (.ok _, db) => (.ok (), { s.withDatabase db with lastSyncTS := ts })

def forceSaveSyncTime (s : MerkleTimes) (ts : Timestamp) : MerkleTimes :=
  { s.withDatabase (s.state.db.put m.marshalSyncTimeKey (.dbable ts)) with lastSyncTS := ts }

def saveFailSyncTime (s : MerkleTimes) (ts : Timestamp) : Except Err Unit × MerkleTimes :=
  match s.state.db.tryPut m.marshalFailSyncTimeKey (.dbable ts) ts with
  | (.error e, db) => (.error e, s.withDatabase db)
  | (.ok _, db) => (.ok (), { s.withDatabase db with lastFailSyncTS := ts })

def saveMerkleTree (s : MerkleTimes) (ts : Timestamp) : Except Err Unit × MerkleTimes :=
  let r := s.state.saveMerkleTree Γ m ts
  (r.1, { s with state := r.2 })

def cleanLevel (level : MerkleTreeLevel) (db : KeyStore Bytes Value) : KeyStore Bytes Value :=
  db.deleteAll ((m.getMerkleIter db level .zero .max).map Prod.fst)

def clean (s : MerkleTimes) : MerkleTimes :=
  let db := [.now, .hr, .day, .month, .year].foldl (fun db level => cleanLevel m level db) s.state.db.db
  s.withDatabase (s.state.db.withDB
    (((db.delete m.marshalGenerateTimeKey).delete m.marshalSyncTimeKey).delete m.marshalFailSyncTimeKey))

end MerkleTimes

end PttaiCore
