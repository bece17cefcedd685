import PttaiCore.ObjectAcks

/-! # A message with blocks of several objects -/

namespace PttaiCore

variable {δ : Type}

/-! ## Reading over an object -/

structure DataJson (δ : Type) where
  empty : δ
  readInto : δ → δ → δ
  readInto_empty (d : δ) : readInto empty d = d

def readMarks (old : Option (List (List Bool))) : Option (List (List Bool)) → Option (List (List Bool))
  | none | some [] => old
  | some (row :: rows) => some (row :: rows)

def BlockInfo.readInto (old b : BlockInfo) : BlockInfo :=
  { b with hashs := if b.hashs = [] then old.hashs else b.hashs, isGood := readMarks old.isGood b.isGood }

def readBlockInfo : Option BlockInfo → Option BlockInfo → Option BlockInfo
  | old, none => old
  | none, some b => some { b with isGood := readMarks none b.isGood }
  | some old, some b => some (old.readInto b)

def readSyncInfo : Option SyncInfo → Option SyncInfo → Option SyncInfo
  | old, none => old
  | none, some sync => some { sync with blockInfo := readBlockInfo none sync.blockInfo }
  | some old, some sync => some { sync with blockInfo := readBlockInfo old.blockInfo sync.blockInfo }

namespace Object

variable (C : DataJson δ)

def readInto (old obj : Object δ) : Object δ :=
  { obj with
    logID := obj.logID <|> old.logID
    updateLogID := obj.updateLogID <|> old.updateLogID
    blockInfo := readBlockInfo old.blockInfo obj.blockInfo
    syncInfo := readSyncInfo old.syncInfo obj.syncInfo
    data := C.readInto old.data obj.data }

def empty : Object δ :=
  { createTS := .zero, updateTS := .zero, creatorID := ByteArrayOf.replicate _ 0, updaterID := ByteArrayOf.replicate _ 0, logID := none
    updateLogID := none, status := .invalid, isGood := false, isAllGood := false, blockInfo := none, syncInfo := none, data := C.empty }

end Object

/-! ## The handlers, with the object in memory -/

def receiveInto (verify : Block → Bytes → Except Err Unit) (b : BlockInfo) (blocks : List Block) : Except Err (BlockInfo × Bool) :=
  match shrinkBlocks b blocks with
  | .error e => .error e
  | .ok (b, []) => .ok (b, false)
  | .ok (b, blocks) =>
    match verifyBlocks verify b blocks with
    | .error e => .error e
    | .ok _ => (saveBlocks b blocks).map fun b => (b, true)

def BlockAck.receivedInto (ack : BlockAck) (creatorID : PttID) : Option BlockInfo → Except Err (Option BlockInfo × Bool)
  | none => .ok (none, false)
  | some b =>
    match ack.blocks b.id with
    | none => .ok (some b, false)
    | some blocks => (receiveInto (ack.verify creatorID) b blocks).map fun r => (some r.1, r.2)

def syncCreateAckObject (signer : InternalSigner) (id : PttID) (obj : Object δ) (oplog : BaseOplog) (s : Books δ) : Object δ :=
  let oplog := if oplog.isSync then setOplogIsSync signer oplog else oplog
  if !oplog.isSync then obj
  else if obj.status = .alive then obj
  else if oplog.toStatus < .alive then obj
  else (s.saveNewObjectWithOplog id obj oplog).2.1

def syncUpdateAckObject (signer : InternalSigner) (id : PttID) (obj : Object δ) (sync : SyncInfo) (oplog : BaseOplog) (s : Books δ) :
    Object δ :=
  let oplog := if sync.isAllGood then setOplogIsSync signer oplog else oplog
  if oplog.toStatus < .alive then obj else (handleUpdateObjectSameLog id obj sync oplog s).2.1

abbrev AckStep (δ : Type) : Type := BlockAck → Object δ → Books δ → (Option Err × Object δ) × Books δ

def createBlockAckStep : AckStep δ := fun ack obj s =>
  if obj.isAllGood then ((none, obj), s)
  else
    match ack.receivedInto obj.creatorID obj.blockInfo with
    | .error e => ((some e, obj), s)
    | .ok (blockInfo, false) => ((none, { obj with blockInfo }), s)
    | .ok (blockInfo, true) =>
      let (isAllGood, obj) := { obj with blockInfo }.checkIsAllGood
      if !isAllGood then ((none, obj), s.saveObj ack.id obj)
      else
        match obj.logID with
        | none => ((some .panic, obj), s)
        | some logID =>
          match s.logs.get logID with
          | none => ((some .notFound, obj), s)
          | some oplog =>
            let (oplog, obj, s) := s.saveNewObjectWithOplog ack.id obj oplog
            let r := syncCreateAckSaveOplog ack.signer ack.id obj oplog s
            ((r.1, syncCreateAckObject ack.signer ack.id obj oplog s), r.2)

def updateBlockAckStep : AckStep δ := fun ack obj s =>
  match obj.syncInfo with
  | none => ((none, obj), s)
  | some sync =>
    if sync.isAllGood then ((none, obj), s)
    else
      match ack.receivedInto sync.updaterID sync.blockInfo with
      | .error e => ((some e, obj), s)
      | .ok (blockInfo, false) => ((none, { obj with syncInfo := some { sync with blockInfo } }), s)
      | .ok (blockInfo, true) =>
        let (isAllGood, sync) := { sync with blockInfo }.checkIsAllGood
        let obj := { obj with syncInfo := some sync }
        if !isAllGood then ((none, obj), s.saveObj ack.id obj)
        else
          match s.logs.get sync.logID with
          | none => ((some .notFound, obj), s)
          | some oplog =>
            let (sync, obj, oplog, s) := handleUpdateObjectSameLog ack.id obj sync oplog s
            let r := syncUpdateAckSaveOplog ack.signer ack.id obj sync oplog s
            ((r.1, syncUpdateAckObject ack.signer ack.id obj sync oplog s), r.2)

/-! ## Messages -/

def loadAndHandle (C : DataJson δ) (step : AckStep δ) (ack : BlockAck) (old : Object δ) (s : Books δ) : (Option Err × Object δ) × Books δ :=
  match s.objs.get ack.id with
  | none => ((some .notFound, old), s)
  | some obj => step ack (old.readInto C obj) s

def handleBlockAcks (C : DataJson δ) (step : AckStep δ) : Object δ → List BlockAck → Books δ → Option Err × Books δ
  | _, [], s => (none, s)
  | old, ack :: acks, s =>
    match loadAndHandle C step ack old s with
    | ((some e, _), s) => (some e, s)
    | ((none, obj), s) => handleBlockAcks C step obj acks s

def handleSyncCreateBlockAcks (C : DataJson δ) (acks : List BlockAck) (s : Books δ) : Option Err × Books δ :=
  handleBlockAcks C createBlockAckStep (Object.empty C) acks s

def handleSyncUpdateBlockAcks (C : DataJson δ) (acks : List BlockAck) (s : Books δ) : Option Err × Books δ :=
  handleBlockAcks C updateBlockAckStep (Object.empty C) acks s

end PttaiCore
