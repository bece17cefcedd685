import PttaiCore.Merkle

/-! # Saving, loading, deleting and accepting oplogs -/

namespace PttaiCore

structure OplogDB where
  merkle : Merkle
  hasMerklePrefix : Bool

def bytesToStatus (key : Bytes) : Option Status :=
  key[4]?.map fun b => if b = 'i'.toNat.toUInt8 then .internalPending else if b = 'm'.toNat.toUInt8 then .pending else .alive

def keyToUpdateTS (key : Bytes) : Except Err Timestamp :=
  if key.length < 57 then .error .panic else Timestamp.unmarshal ((key.drop 45).take 12)

namespace BaseOplog

variable (p : OplogDB)

def keyTail (o : BaseOplog) : Bytes := o.updateTS.marshal ++ (o.id.1 ++ Bytes.be 4 o.op.toNat)

def marshalKey (o : BaseOplog) (part : Part) : Bytes := p.merkle.partPrefix part ++ (p.merkle.prefixID.1 ++ o.keyTail)

def marshalMerkleKey (o : BaseOplog) : Bytes :=
  p.merkle.partPrefix .merkle ++ (p.merkle.prefixID.1 ++ (MerkleTreeLevel.now.toUInt8 :: o.keyTail))

def idxKey (id : PttID) : Bytes := p.merkle.partPrefix .oplogIdx ++ (p.merkle.prefixID.1 ++ id.1)

/-! ## Saving -/

structure SaveItem where
  idx : Index
  kvs : List (Bytes × Value)

def merkleKVs (o : BaseOplog) (key : Bytes) : Except Err (List (Bytes × Value)) :=
  if o.isSync && p.hasMerklePrefix then
    match hashToAddr o.hash with
    | none => .error .panic
    | some addr => .ok [(o.marshalMerkleKey p, .node ⟨.now, addr, o.updateTS, 0, key⟩)]
  else .ok []

def pendingKey (o : BaseOplog) : Bytes :=
  match o.toStatus with
  | .internalPending => o.marshalKey p .oplogInternal
  | .pending => o.marshalKey p .oplogMaster
  | _ => []

def saveCorePending (o : BaseOplog) (db : LDBDatabase Value) : Except Err SaveItem × LDBDatabase Value :=
  let item : SaveItem := ⟨⟨[o.pendingKey p], o.updateTS⟩, [(o.pendingKey p, .oplog o)]⟩
  match db.getKeyByIdxKey (idxKey p o.id) 0 with
  | (.error .notFound, db) => (.ok item, db)
  | (.error e, db) => (.error e, db)
  | (.ok origKey, db) =>
    match bytesToStatus origKey with
    | none => (.error .panic, db)
    | some origStatus =>
      if o.toStatus < origStatus then (.error .invalidOplog, db)
      else if origStatus < o.toStatus then (.ok item, (db.deleteAll (idxKey p o.id)).2)
      else (.ok item, db)

def saveCore (o : BaseOplog) (db : LDBDatabase Value) : Except Err SaveItem × LDBDatabase Value :=
  if o.masterLogID.isNone then saveCorePending p o db
  else
    let key := o.marshalKey p .oplog
    match o.merkleKVs p key with
    | .error e => (.error e, db)
    | .ok merkleKVs =>
      let kvs := (key, .oplog o) :: merkleKVs
      let item : SaveItem := ⟨⟨kvs.map Prod.fst, o.updateTS⟩, kvs⟩
      match db.getKeyByIdxKey (idxKey p o.id) 0 with
      | (.error .notFound, db) => (.ok item, db)
      | (.error e, db) => (.error e, db)
      | (.ok origKey, db) =>
        match bytesToStatus origKey with
        | none => (.error .panic, db)
        | some origStatus =>
          if origStatus ≠ .alive then (.ok item, (db.deleteAll (idxKey p o.id)).2) else (.ok item, db)

def setMerkleUpdateTS (o : BaseOplog) (origKeys : Option (List Bytes)) (merkle : Option Merkle) (s : MerkleState) :
    Except Err Unit × MerkleState :=
  match merkle with
  | none => (.ok (), s)
  | some m =>
    if o.masterLogID.isNone || !o.isSync then (.ok (), s)
    else match origKeys with
      | none => (.ok (), s.setUpdateTS m o.updateTS)
      | some [] => (.error .panic, s)
      | some (origKey :: _) =>
        match keyToUpdateTS origKey with
        | .error e => (.error e, s)
        | .ok origUpdateTS => (.ok (), s.setUpdateTS2 m o.updateTS origUpdateTS)

def notNewer (o : BaseOplog) : BaseOplog := { o with isNewer := false }

@[simp] theorem notNewer_id (o : BaseOplog) : o.notNewer.id = o.id := rfl

@[simp] theorem notNewer_updateTS (o : BaseOplog) : o.notNewer.updateTS = o.updateTS := rfl

def save (o : BaseOplog) (merkle : Option Merkle) (s : MerkleState) : Except Err Unit × MerkleState :=
  match o.notNewer.saveCore p s.db with
  | (.error e, db) => (.error e, { s with db })
  | (.ok item, db) =>
    match db.forcePutAll (idxKey p o.id) item.idx item.kvs with
    | (.error e, db) => (.error e, { s with db })
    | (.ok origKeys, db) => o.notNewer.setMerkleUpdateTS origKeys merkle { s with db }

/-! ## Loading and deleting -/

def get (id : PttID) (db : LDBDatabase Value) : Except Err BaseOplog :=
  match db.getKeyByIdxKey (idxKey p id) 0 with
  | (.error e, _) => .error e
  | (.ok key, db) =>
    match db.get key with
    | .error e => .error e
    | .ok v => v.toOplog.elim (.error .json) .ok

def load (db : LDBDatabase Value) (key : Bytes) : Except Err BaseOplog :=
  match db.get key with
  | .error e => .error e
  | .ok v => v.toOplog.elim (.error .json) .ok

def delete (o : BaseOplog) (s : MerkleState) : Except Err Unit × MerkleState :=
  ((s.db.deleteAll (idxKey p o.id)).1, { s with db := (s.db.deleteAll (idxKey p o.id)).2 })

/-! ## Accepting -/

structure Selected where
  result : Except Err (Bool × Bool)
  oplog : BaseOplog
  state : MerkleState

def takeOver (o orig : BaseOplog) : BaseOplog :=
  { o with
    updateTS := orig.updateTS, hash := orig.hash, masterLogID := orig.masterLogID, masterSigns := orig.masterSigns
    internalSigns := orig.internalSigns }

def selectExisting (o : BaseOplog) (merkle : Option Merkle) (s : MerkleState) : Selected :=
  match get p o.id s.db with
  | .error .notFound => ⟨.ok (false, true), o, s⟩
  | .error e => ⟨.error e, o, s⟩
  | .ok orig =>
    let oplogIsSync := o.isSync || (decide (o.toStatus ≤ orig.toStatus) && orig.isSync)
    let o' := { o with isNewer := false, extra := orig.extra, isSync := oplogIsSync || orig.isSync }
    let restore (o' : BaseOplog) : BaseOplog := { o' with isSync := oplogIsSync, isNewer := o.isNewer }
    let forceSave (isToBroadcast : Bool) : Selected :=
      let r := o'.save p merkle s
      ⟨r.1.map fun _ => (orig.isSync, isToBroadcast), restore o', r.2⟩
    let keep : Selected := ⟨.ok (orig.isSync, false), restore (o'.takeOver orig), s⟩
    if o.hash = orig.hash then ⟨.ok (orig.isSync, false), restore o', s⟩
    else if o.masterLogID.isNone then ⟨.error .invalidOplog, restore o', s⟩
    else if orig.masterLogID.isNone then { forceSave true with result := .ok (orig.isSync, true) }
    else if o.updateTS.isLess orig.updateTS then forceSave true
    else if orig.updateTS.isLess o.updateTS then keep
    else if o.hash < orig.hash then forceSave true
    else keep

structure Processed where
  origLogs : List BaseOplog
  err : Option Err
  oplog : BaseOplog

def Processed.toSave (done : Processed) : Except Err BaseOplog :=
  match done.err with
  | none => .ok done.oplog
  | some .newerOplog => .ok { done.oplog with isSync := true }
  | some e => .error e

def handleOplog (processLog : BaseOplog → Processed) (merkle : Option Merkle) (o : BaseOplog) (s : MerkleState) :
    Except Err (Bool × List BaseOplog) × MerkleState :=
  let sel := o.selectExisting p merkle s
  match sel.result with
  | .error e => (.error e, sel.state)
  | .ok (origIsSync, isToBroadcast) =>
    if sel.oplog.isSync then (.ok (isToBroadcast, []), sel.state)
    else
      let done := processLog sel.oplog
      match done.toSave with
      | .error e => (.error e, sel.state)
      | .ok o =>
        let o := { o with isSync := o.isSync || origIsSync }
        match o.save p merkle sel.state with
        | (.ok _, s) | (.error .invalidUpdateTS, s) => (.ok (done.oplog.isSync, done.origLogs), s)
        | (.error e, s) => (.error e, s)

end BaseOplog

end PttaiCore
