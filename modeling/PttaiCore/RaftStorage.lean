import PttaiCore.Lib.Json
import PttaiCore.Types

/-! # The storage of the raft of a user's nodes -/

namespace PttaiCore

/-! ## The messages of raft -/

inductive RaftEntryType where
  | normal | confChange
  deriving DecidableEq, Repr

structure RaftEntry where
  term : UInt64
  index : UInt64
  type : RaftEntryType
  data : Bytes
  deriving DecidableEq, Repr

def RaftEntry.zero : RaftEntry := ⟨0, 0, .normal, []⟩

structure ConfState where
  nodes : List UInt64
  learners : List UInt64
  weights : List UInt32
  deriving DecidableEq, Repr

structure SnapshotMetadata where
  confState : ConfState
  index : UInt64
  term : UInt64
  deriving DecidableEq, Repr

structure RaftSnapshot where
  data : Bytes
  metadata : SnapshotMetadata
  deriving DecidableEq, Repr

def RaftSnapshot.zero : RaftSnapshot := ⟨[], ⟨⟨[], [], []⟩, 0, 0⟩⟩

structure HardState where
  term : UInt64
  vote : UInt64
  commit : UInt64
  deriving DecidableEq, Repr

def HardState.zero : HardState := ⟨0, 0, 0⟩

inductive RaftValue where
  | entry (e : RaftEntry)
  | hardState (h : HardState)
  | snapshot (s : RaftSnapshot)
  deriving DecidableEq

inductive RaftErr where
  | notFound | invalidEntry | snapOutOfDate | unmarshal | panic
  deriving DecidableEq, Repr

/-! ## Keys -/

def maxUint64 : UInt64 := 18446744073709551615

def raftMarshalKey (myID : PttID) (idx : UInt64) : Bytes := ascii ['.', 'r', 'f', 'd', 'b'] ++ (myID.1 ++ Bytes.be 8 idx.toNat)

def marshalKeyRaftHardState (myID : PttID) : Bytes := ascii ['.', 'r', 'f', 'h', 's'] ++ myID.1

def marshalKeyRaftSnapshot (myID : PttID) : Bytes := ascii ['.', 'r', 'f', 's', 'n'] ++ myID.1

def getIdxByKey (key : Bytes) : Except RaftErr UInt64 :=
  if (key.drop 45).length < 8 then .error .panic else .ok (UInt64.ofNat (Bytes.ofBE ((key.drop 45).take 8)))

def raftIter (myID : PttID) (db : KeyStore Bytes RaftValue) (idx : UInt64) : List (Bytes × RaftValue) :=
  db.range (raftMarshalKey myID idx) (raftMarshalKey myID maxUint64)

def raftPrevIter (myID : PttID) (db : KeyStore Bytes RaftValue) (idx : UInt64) : List (Bytes × RaftValue) :=
  (db.range (raftMarshalKey myID 0) (raftMarshalKey myID idx)).reverse

/-! ## The storage -/

structure RaftStorage where
  db : KeyStore Bytes RaftValue
  lastIdx : UInt64
  firstIdx : UInt64
  hardState : HardState
  snapshot : RaftSnapshot
  myID : PttID

namespace RaftStorage

variable (rs : RaftStorage)

def saveEntry (ent : RaftEntry) : RaftStorage := { rs with db := rs.db.put (raftMarshalKey rs.myID ent.index) (.entry ent) }

def setHardState (st : HardState) : RaftStorage :=
  { rs with db := rs.db.put (marshalKeyRaftHardState rs.myID) (.hardState st), hardState := st }

def compact (idx : UInt64) : RaftStorage :=
  if idx = 0 then rs
  else if idx < rs.firstIdx then rs
  else if idx > rs.lastIdx then rs
  else { rs with db := rs.db.deleteAll ((raftPrevIter rs.myID rs.db (idx - 1)).map Prod.fst) }

def applySnapshot (snap : RaftSnapshot) : Except RaftErr Unit × RaftStorage :=
  if rs.snapshot.metadata.index ≥ snap.metadata.index then (.error .snapOutOfDate, rs)
  else
    let rs' : RaftStorage := { rs with
      db := rs.db.put (marshalKeyRaftSnapshot rs.myID) (.snapshot snap), snapshot := snap
      firstIdx := snap.metadata.index + 1, lastIdx := snap.metadata.index }
    (.ok (), rs'.compact snap.metadata.index)

def append (ents : List RaftEntry) : Except RaftErr Unit × RaftStorage :=
  match ents with
  | [] => (.ok (), rs)
  | ent :: rest =>
    if ((ent :: rest).getLast (List.cons_ne_nil _ _)).index < rs.firstIdx then (.ok (), rs)
    else
      let kept := if rs.firstIdx > ent.index then (ent :: rest).drop (rs.firstIdx - ent.index).toNat else ent :: rest
      match kept.getLast? with
      | none => (.error .panic, rs)
      | some last => (.ok (), { kept.foldl saveEntry rs with lastIdx := last.index })

/-! ## Opening -/

def fresh (myID : PttID) (db : KeyStore Bytes RaftValue) : RaftStorage :=
  let rs : RaftStorage := saveEntry ⟨db, 0, 0, .zero, .zero, myID⟩ .zero
  ((setHardState { rs with firstIdx := 1, lastIdx := 0 } .zero).applySnapshot .zero).2

def cleanRaftStorage (myID : PttID) (db : KeyStore Bytes RaftValue) : KeyStore Bytes RaftValue :=
  db.deleteAll ((raftIter myID db 0).map Prod.fst)

def newRaftStorageWithClean (myID : PttID) (db : KeyStore Bytes RaftValue) : RaftStorage := fresh myID (cleanRaftStorage myID db)

def loadHardState (myID : PttID) (db : KeyStore Bytes RaftValue) : Except RaftErr HardState :=
  match db.get (marshalKeyRaftHardState myID) with
  | none => .error .notFound
  | some (.hardState h) => .ok h
  | some _ => .error .unmarshal

def loadSnapshot (myID : PttID) (db : KeyStore Bytes RaftValue) : Except RaftErr RaftSnapshot :=
  match db.get (marshalKeyRaftSnapshot myID) with
  | none => .error .notFound
  | some (.snapshot s) => .ok s
  | some _ => .error .unmarshal

def orZero {α : Type} (zero : α) : Except RaftErr α → Except RaftErr α
  | .error .notFound => .ok zero
  | r => r

def newRaftStorage (isClean : Bool) (myID : PttID) (db : KeyStore Bytes RaftValue) : Except RaftErr RaftStorage :=
  if isClean then .ok (newRaftStorageWithClean myID db)
  else match raftIter myID db 0 with
    | [] => .ok (fresh myID db)
    | first :: _ => do
      let idx ← getIdxByKey first.1
      match raftPrevIter myID db maxUint64 with
      | [] => .error .invalidEntry
      | last :: _ => do
        let lastIdx ← getIdxByKey last.1
        let hardState ← orZero .zero (loadHardState myID db)
        let snapshot ← orZero .zero (loadSnapshot myID db)
        .ok ⟨db, lastIdx, idx + 1, hardState, snapshot, myID⟩

/-! ## Answers -/

def initialState : HardState × ConfState := (rs.hardState, rs.snapshot.metadata.confState)

def entriesLoop (endIdx : UInt64) : UInt64 → List (Bytes × RaftValue) → Except RaftErr (List RaftEntry)
  | i, [] => if i ≠ endIdx then .error .invalidEntry else .ok []
  | i, (_, val) :: rest =>
    if i = endIdx then .ok []
    else match val with
      | .entry ent => if ent.index ≠ i then .error .invalidEntry else (entriesLoop endIdx (i + 1) rest).map (ent :: ·)
      | _ => .error .invalidEntry

def entries (startIdx endIdx : UInt64) (_maxSize : UInt64) : Except RaftErr (List RaftEntry) :=
  if endIdx ≤ startIdx then .ok [] else entriesLoop endIdx startIdx (raftIter rs.myID rs.db startIdx)

def term (idx : UInt64) : Except RaftErr UInt64 :=
  match rs.db.get (raftMarshalKey rs.myID idx) with
  | none => .error .notFound
  | some (.entry ent) => .ok ent.term
  | some _ => .error .unmarshal

def lastIndex : UInt64 := rs.lastIdx

def firstIndex : UInt64 := rs.firstIdx

end RaftStorage

end PttaiCore
