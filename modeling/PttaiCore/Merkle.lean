import Mathlib.Data.Finset.Basic
import PttaiCore.OplogSign
import PttaiCore.Pttdb

/-! # The merkle tree over the time of the oplogs, and the journal of its dirty hours -/

namespace PttaiCore

/-! ## Keys and values -/

inductive MerkleTreeLevel where
  | invalid | now | hr | day | month | year
  deriving DecidableEq, Repr

def MerkleTreeLevel.toUInt8 (level : MerkleTreeLevel) : UInt8 := UInt8.ofNat level.ctorIdx

def MerkleTreeLevel.child : MerkleTreeLevel → MerkleTreeLevel
  | .year => .month
  | .month => .day
  | .day => .hr
  | .hr => .now
  | .now | .invalid => .invalid

structure MerkleNode where
  level : MerkleTreeLevel
  addr : ByteArrayOf 20
  updateTS : Timestamp
  nChildren : UInt32
  /-- The key of the oplog, at the level `now`. -/
  key : Bytes
  deriving DecidableEq, Repr

inductive Value where
  | index (i : Index)
  | oplog (o : BaseOplog)
  | node (n : MerkleNode)
  /-- The value of a key that only has to be there. -/
  | valueTrue
  | tsList (l : List Int64)
  | dbable (t : Timestamp)
  deriving DecidableEq

instance : DBValue Value where
  ofIndex := .index
  toIndex v := match v with
    | .index i => some i
    | _ => none
  toDBable v := match v with
    | .index i => some i.updateTS
    | .oplog o => some o.updateTS
    | .dbable t => some t
    | _ => none
  toIndex_ofIndex _ := rfl

def Value.toNode : Value → Option MerkleNode
  | .node n => some n
  | _ => none

def Value.toOplog : Value → Option BaseOplog
  | .oplog o => some o.reload
  | _ => none

inductive Part where
  | oplog | oplogInternal | oplogMaster | oplogIdx | merkle | merkleMeta | merkleToUpdate | merkleUpdating
  deriving DecidableEq, Repr

def Part.bytes : Part → Bytes
  | .oplog => ascii ['l', 'g']
  | .oplogInternal => ascii ['l', 'i']
  | .oplogMaster => ascii ['l', 'm']
  | .oplogIdx => ascii ['i', 'g']
  | .merkle => ascii ['m', 'k']
  | .merkleMeta => ascii ['m', 't']
  | .merkleToUpdate => ascii ['M', 't']
  | .merkleUpdating => ascii ['M', 'T']

structure Merkle where
  /-- The first three bytes of the prefixes. -/
  head : ByteArrayOf 3
  prefixID : PttID
  expireGenerateSeconds : Int64

namespace Merkle

variable (m : Merkle)

def partPrefix (p : Part) : Bytes := m.head.1 ++ p.bytes

def dbPrefix : Bytes := m.partPrefix .merkle ++ m.prefixID.1

def marshalKey (level : MerkleTreeLevel) (ts : Timestamp) : Bytes :=
  m.partPrefix .merkle ++ (m.prefixID.1 ++ (level.toUInt8 :: ts.marshal))

def marshalGenerateTimeKey : Bytes := m.partPrefix .merkleMeta ++ (ascii ['.', 'm', 't', 'g', 't'] ++ m.prefixID.1)

def toUpdatePrefixWithID : Bytes := m.partPrefix .merkleToUpdate ++ m.prefixID.1

def marshalToUpdateTSKey (ts : Timestamp) : Bytes := m.toUpdatePrefixWithID ++ Bytes.be 8 ts.ts.toUInt64.toNat

def marshalUpdatingKey : Bytes := m.partPrefix .merkleUpdating ++ m.prefixID.1

def tsFromToUpdateTSKey (key : Bytes) : Option Int64 :=
  let b := key.drop 45
  if b.length < 8 then none else some (UInt64.ofNat (Bytes.ofBE (b.take 8))).toInt64

end Merkle

/-! ## The state and the marking of hours -/

structure MerkleState where
  db : LDBDatabase Value
  toUpdateTS : Finset Int64
  busyGenerateTS : Timestamp
  lastGenerateTS : Timestamp

namespace MerkleState

def withEntries (s : MerkleState) (db : KeyStore Bytes Value) : MerkleState := { s with db := s.db.withDB db }

variable (m : Merkle) (s : MerkleState)

def setUpdateTS (ts : Timestamp) : MerkleState :=
  let hrTS := ts.toHRTimestamp.1
  { s with db := s.db.put (m.marshalToUpdateTSKey hrTS) .valueTrue, toUpdateTS := insert hrTS.ts s.toUpdateTS }

def setUpdateTS2 (ts ts2 : Timestamp) : MerkleState :=
  let hrTS := ts.toHRTimestamp.1
  let hrTS2 := ts2.toHRTimestamp.1
  let s := { s with
    db := s.db.put (m.marshalToUpdateTSKey hrTS) .valueTrue, toUpdateTS := insert hrTS2.ts (insert hrTS.ts s.toUpdateTS) }
  if hrTS.isEqual hrTS2 then s else { s with db := s.db.put (m.marshalToUpdateTSKey hrTS2) .valueTrue }

/-! ## The journal -/

def toUpdateKeys : List Bytes := (s.db.db.select (fun k => m.toUpdatePrefixWithID.isPrefixOf k)).map Prod.fst

def getAndResetWrites (toUpdateTSList : List Int64) : List (KeyStore.Write Bytes Value) :=
  (s.toUpdateKeys m).map .delete ++ [.put m.marshalUpdatingKey (.tsList toUpdateTSList)]

def getAndResetToUpdateTSList (toUpdateTSList : List Int64) : MerkleState :=
  { s.withEntries (s.db.db.writeAll (s.getAndResetWrites m toUpdateTSList)) with toUpdateTS := ∅ }

def IsOrderOf (l : List Int64) (set : Finset Int64) : Prop := l.Nodup ∧ l.toFinset = set

instance (l : List Int64) (set : Finset Int64) : Decidable (IsOrderOf l set) := inferInstanceAs (Decidable (_ ∧ _))

def loadToUpdateTSs : Except Err Unit × MerkleState :=
  match (s.toUpdateKeys m).mapM Merkle.tsFromToUpdateTSKey with
  | none => (.error .panic, s)
  | some tss => (.ok (), { s with toUpdateTS := s.toUpdateTS ∪ tss.toFinset })

def loadUpdatingTSList : Except Err (List Int64) :=
  match s.db.get m.marshalUpdatingKey with
  | .error e => .error e
  | .ok (.tsList l) => .ok l
  | .ok _ => .error .json

def resetUpdatingTSList : MerkleState := { s with db := s.db.delete m.marshalUpdatingKey }

def recover : Except Err Unit × MerkleState :=
  match s.loadToUpdateTSs m with
  | (.error e, s) => (.error e, s)
  | (.ok _, s) =>
    match s.loadUpdatingTSList m with
    | .error _ => (.ok (), s)
    | .ok tsList => (.ok (), tsList.foldl (fun s sec => s.setUpdateTS m ⟨sec, 0⟩) s)

end MerkleState

/-! ## Rebuilding the tree -/

section save

variable (Γ : Ctx) (m : Merkle)

def saveMerkleTreeCore (level : MerkleTreeLevel) (offsetTS nextTS : Timestamp) (db : KeyStore Bytes Value) :
    Except Err Timestamp × KeyStore Bytes Value :=
  match (db.range (m.marshalKey level.child offsetTS) (m.marshalKey level.child nextTS)).mapM (fun e => e.2.toNode) with
  | none => (.error .panic, db)
  | some children =>
    let nChildren := UInt32.ofNat children.length
    let tsBytes := children.getLast?.elim (List.replicate 12 0) (fun n => n.updateTS.marshal)
    let theKey := m.marshalKey level offsetTS
    if nChildren = 0 then (.ok .zero, db.delete theKey)
    else
      let theAddr := Γ.addr (children.flatMap (fun n => n.addr.1))
      (Timestamp.unmarshal tsBytes, db.put theKey (.node ⟨level, theAddr, offsetTS, nChildren, []⟩))

def MerkleTreeLevel.bounds (ts : Timestamp) : MerkleTreeLevel → Timestamp × Timestamp
  | .hr => ts.toHRTimestamp
  | .day => ts.toDayTimestamp
  | .month => ts.toMonthTimestamp
  | .year => ts.toYearTimestamp
  | .now | .invalid => (.zero, .zero)

def saveMerkleTreeUp (ts : Timestamp) : List MerkleTreeLevel → KeyStore Bytes Value → Except Err Unit × KeyStore Bytes Value
  | [], db => (.ok (), db)
  | level :: levels, db =>
    match saveMerkleTreeCore Γ m level (level.bounds ts).1 (level.bounds ts).2 db with
    | (.error e, db) => (.error e, db)
    | (.ok _, db) => saveMerkleTreeUp ts levels db

def saveMerkleTreeLevels (ts : Timestamp) (db : KeyStore Bytes Value) : Except Err Timestamp × KeyStore Bytes Value :=
  match saveMerkleTreeCore Γ m .hr (MerkleTreeLevel.hr.bounds ts).1 (MerkleTreeLevel.hr.bounds ts).2 db with
  | (.error e, db) => (.error e, db)
  | (.ok newestTS, db) =>
    match saveMerkleTreeUp Γ m ts [.day, .month, .year] db with
    | (.error e, db) => (.error e, db)
    | (.ok _, db) => (.ok newestTS, db)

namespace MerkleState

def saveGenerateTime (s : MerkleState) (ts : Timestamp) : Except Err Unit × MerkleState :=
  match s.db.tryPut m.marshalGenerateTimeKey (.dbable ts) ts with
  | (.ok _, db) | (.error .invalidUpdateTS, db) => (.ok (), { s with db, lastGenerateTS := ts })
  | (.error e, db) => (.error e, { s with db })

def saveMerkleTreeLocked (s : MerkleState) (ts : Timestamp) : Except Err Unit × MerkleState :=
  match saveMerkleTreeLevels Γ m ts s.db.db with
  | (.error e, db) => (.error e, s.withEntries db)
  | (.ok newestTS, db) => (s.withEntries db).saveGenerateTime m newestTS

def saveMerkleTree (s : MerkleState) (ts : Timestamp) : Except Err Unit × MerkleState :=
  match s.db.tryLockMap m.dbPrefix with
  | (.error e, db) => (.error e, { s with db })
  | (.ok _, db) =>
    let r := saveMerkleTreeLocked Γ m { s with db } ts
    (r.1, { r.2 with db := (r.2.db.unlockMap m.dbPrefix).2 })

def saveMerkleTrees : List Int64 → MerkleState → Except Err Unit × MerkleState
  | [], s => (.ok (), s)
  | sec :: l, s =>
    match saveMerkleTree Γ m s ⟨sec, 0⟩ with
    | (.error e, s) => (.error e, s)
    | (.ok _, s) => saveMerkleTrees l s

def isBusy (s : MerkleState) (now : Timestamp) : Bool × MerkleState :=
  if s.busyGenerateTS.isEqual .zero then (false, s)
  else if s.busyGenerateTS.isLess { now with ts := now.ts - m.expireGenerateSeconds } then
    (false, { s with busyGenerateTS := .zero })
  else (true, s)

def pmGenerateOplogMerkleTree (status : Status) (now : Timestamp) (toUpdateTSList : List Int64) (s : MerkleState) :
    Except Err Unit × MerkleState :=
  if status ≠ .alive then (.ok (), s)
  else match isBusy m s now with
    | (true, s) => (.error .busy, s)
    | (false, s) =>
      let s := { s with busyGenerateTS := now }
      let s := s.getAndResetToUpdateTSList m toUpdateTSList
      let r := saveMerkleTrees Γ m toUpdateTSList s
      let s := match r.1 with
        | .ok _ => r.2.resetUpdatingTSList m
        | .error _ => r.2
      (.ok (), { s with busyGenerateTS := .zero })

end MerkleState

end save

end PttaiCore
