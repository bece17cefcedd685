import PttaiCore.ObjectLogs

/-! # Objects: the acknowledgements that bring their content -/

namespace PttaiCore

open Books

variable {δ : Type}

/-! ## Receiving blocks -/

namespace BlockInfo

def mark (good : List (List Bool)) (blockID : UInt32) (subBlockID : UInt8) : Option Bool :=
  good[blockID.toNat]?.bind (·[subBlockID.toNat]?)

def getIsGood (b : BlockInfo) (blockID : UInt32) (subBlockID : UInt8) : Except Err (Bool × BlockInfo) :=
  if UInt32.ofNat b.nBlock ≤ blockID then .ok (false, b)
  else if nSubBlock ≤ subBlockID.toNat then .ok (false, b)
  else
    match b.isGood with
    | none => .ok (false, b.initIsGood)
    | some good =>
      if good.length < b.nBlock then .ok (false, b.initIsGood)
      else (mark good blockID subBlockID).elim (.error .panic) fun m => .ok (m, b)

def setIsGood (b : BlockInfo) (blockID : UInt32) (subBlockID : UInt8) : Except Err BlockInfo :=
  let good := b.isGood.getD (noneGood b.nBlock)
  if (mark good blockID subBlockID).isNone then .error .panic
  else
    .ok { b with
      isGood := some (good.modify blockID.toNat fun row => row.set subBlockID.toNat true)
      isAllGood := b.isGood.isSome && b.isAllGood }

end BlockInfo

def shrinkBlocks (b : BlockInfo) : List Block → Except Err (BlockInfo × List Block)
  | [] => .ok (b, [])
  | block :: blocks =>
    match b.getIsGood block.blockID block.subBlockID with
    | .error e => .error e
    | .ok (isGood, b) =>
      match shrinkBlocks b blocks with
      | .error e => .error e
      | .ok (b, rest) => .ok (b, if isGood then rest else block :: rest)

def verifyBlocks (verify : Block → Bytes → Except Err Unit) (b : BlockInfo) : List Block → Except Err Unit
  | [] => .ok ()
  | block :: blocks =>
    match b.hashs[block.blockID.toNat]?.bind (·[block.subBlockID.toNat]?) with
    | none => .error .panic
    | some hash =>
      match verify block hash with
      | .error e => .error e
      | .ok _ => verifyBlocks verify b blocks

def saveBlocks (b : BlockInfo) : List Block → Except Err BlockInfo
  | [] => .ok b
  | block :: blocks =>
    match b.setIsGood block.blockID block.subBlockID with
    | .error e => .error e
    | .ok b => saveBlocks b blocks

def receiveBlocks (verify : Block → Bytes → Except Err Unit) (b : BlockInfo) (blocks : List Block) : Except Err (Option BlockInfo) :=
  match shrinkBlocks b blocks with
  | .error e => .error e
  | .ok (_, []) => .ok none
  | .ok (b, blocks) =>
    match verifyBlocks verify b blocks with
    | .error e => .error e
    | .ok _ => (saveBlocks b blocks).map some

/-! ## Marking the log as synced -/

structure InternalSigner where
  sign : BaseOplog → BaseOplog
  sign_id (o : BaseOplog) : (sign o).id = o.id
  sign_isSync (o : BaseOplog) : (sign o).isSync = o.isSync
  sign_of_alive (o : BaseOplog) : o.toStatus = .alive → sign o = o

def setOplogIsSync (signer : InternalSigner) (oplog : BaseOplog) : BaseOplog := signer.sign { oplog with isSync := true }

def syncCreateAckSaveOplog (signer : InternalSigner) (id : PttID) (obj : Object δ) (oplog : BaseOplog) (s : Books δ) : Option Err × Books δ :=
  let oplog := if oplog.isSync then setOplogIsSync signer oplog else oplog
  match s.saveLog oplog with
  | (.error e, s) => (some e, s)
  | (.ok _, s) =>
    if !oplog.isSync then (none, s)
    else if obj.status = .alive then (none, s)
    else if oplog.toStatus < .alive then (none, s)
    else (none, (s.saveNewObjectWithOplog id obj oplog).2.2)

def syncUpdateAckSaveOplog (signer : InternalSigner) (id : PttID) (obj : Object δ) (sync : SyncInfo) (oplog : BaseOplog) (s : Books δ) :
    Option Err × Books δ :=
  let oplog := if sync.isAllGood then setOplogIsSync signer oplog else oplog
  match s.saveLog oplog with
  | (.error e, s) => (some e, s)
  | (.ok _, s) =>
    if oplog.toStatus < .alive then (none, s) else (none, (handleUpdateObjectSameLog id obj sync oplog s).2.2.2)

/-! ## Creating -/

structure CreateAck (δ : Type) where
  signer : InternalSigner
  id : PttID
  logID : Option PttID
  updateCreateObject : Object δ → Except Err (Option BlockInfo × δ)

def CreateAck.received (ack : CreateAck δ) (obj : Object δ) : Except Err (Bool × Object δ) :=
  (ack.updateCreateObject obj).map fun r => { obj with blockInfo := r.1, data := r.2, isGood := true }.checkIsAllGood

def handleSyncCreateObjectAckCore (ack : CreateAck δ) (oplog : BaseOplog) (obj : Object δ) (s : Books δ) : Option Err × Books δ :=
  if oplog.isSync then (none, s)
  else if obj.isGood then
    if obj.isAllGood then syncCreateAckSaveOplog ack.signer ack.id obj oplog s else (none, s)
  else if obj.updateLogID = none ∧ obj.logID = some oplog.id then
    match ack.received obj with
    | .error e => (some e, s)
    | .ok (false, obj) => (none, s.saveObj ack.id obj)
    | .ok (true, obj) =>
      let (oplog, obj, s) := s.saveNewObjectWithOplog ack.id obj oplog
      syncCreateAckSaveOplog ack.signer ack.id obj oplog s
  else syncCreateAckSaveOplog ack.signer ack.id obj { oplog with isSync := true } s

def handleSyncCreateObjectAck (ack : CreateAck δ) (s : Books δ) : Option Err × Books δ :=
  match ack.logID with
  | none => (some .panic, s)
  | some logID =>
    match s.logs.get logID, s.objs.get ack.id with
    | none, _ => (none, s)
    | some _, none => (some .notFound, s)
    | some oplog, some obj => handleSyncCreateObjectAckCore ack oplog obj s

structure BlockAck where
  signer : InternalSigner
  id : PttID
  blocks : PttID → Option (List Block)
  verify : PttID → Block → Bytes → Except Err Unit

def BlockAck.received (ack : BlockAck) (creatorID : PttID) (blockInfo : Option BlockInfo) : Except Err (Option BlockInfo) :=
  match blockInfo with
  | none => .ok none
  | some b =>
    match ack.blocks b.id with
    | none => .ok none
    | some blocks => receiveBlocks (ack.verify creatorID) b blocks

def handleSyncCreateBlockAckCore (ack : BlockAck) (obj : Object δ) (s : Books δ) : Option Err × Books δ :=
  if obj.isAllGood then (none, s)
  else
    match ack.received obj.creatorID obj.blockInfo with
    | .error e => (some e, s)
    | .ok none => (none, s)
    | .ok (some b) =>
      let (isAllGood, obj) := { obj with blockInfo := some b }.checkIsAllGood
      if !isAllGood then (none, s.saveObj ack.id obj)
      else
        match obj.logID with
        | none => (some .panic, s)
        | some logID =>
          match s.logs.get logID with
          | none => (some .notFound, s)
          | some oplog =>
            let (oplog, obj, s) := s.saveNewObjectWithOplog ack.id obj oplog
            syncCreateAckSaveOplog ack.signer ack.id obj oplog s

def handleSyncCreateBlockAck (ack : BlockAck) (s : Books δ) : Option Err × Books δ :=
  match s.objs.get ack.id with
  | none => (some .notFound, s)
  | some obj => handleSyncCreateBlockAckCore ack obj s

/-! ## Updating -/

structure UpdateAck where
  signer : InternalSigner
  id : PttID
  logID : Option PttID
  updateSyncInfo : SyncInfo → BaseOplog → Except Err (Option BlockInfo)

def handleSyncUpdateObjectAckCore (ack : UpdateAck) (logID : PttID) (oplog : BaseOplog) (obj : Object δ) (s : Books δ) :
    Option Err × Books δ :=
  if oplog.isSync then (none, s)
  else if obj.updateLogID = some logID then (some .newerOplog, s)
  else
    match obj.syncInfo with
    | none => (some .newerOplog, s)
    | some sync =>
      if sync.logID ≠ logID then (some .newerOplog, s)
      else if sync.isGood then (none, s)
      else
        match ack.updateSyncInfo sync oplog with
        | .error e => (some e, s)
        | .ok blockInfo =>
          let (sync, obj, oplog, s) := handleUpdateObjectSameLog ack.id obj { sync with blockInfo, isGood := true } oplog s
          syncUpdateAckSaveOplog ack.signer ack.id obj sync oplog s

def handleSyncUpdateObjectAck (ack : UpdateAck) (s : Books δ) : Option Err × Books δ :=
  match ack.logID with
  | none => (some .panic, s)
  | some logID =>
    match s.logs.get logID, s.objs.get ack.id with
    | none, _ => (none, s)
    | some _, none => (some .notFound, s)
    | some oplog, some obj => handleSyncUpdateObjectAckCore ack logID oplog obj s

def handleSyncUpdateBlockAckCore (ack : BlockAck) (obj : Object δ) (sync : SyncInfo) (s : Books δ) : Option Err × Books δ :=
  if sync.isAllGood then (none, s)
  else
    match ack.received sync.updaterID sync.blockInfo with
    | .error e => (some e, s)
    | .ok none => (none, s)
    | .ok (some b) =>
      let (isAllGood, sync) := { sync with blockInfo := some b }.checkIsAllGood
      if !isAllGood then (none, s.saveObj ack.id { obj with syncInfo := some sync })
      else
        match s.logs.get sync.logID with
        | none => (some .notFound, s)
        | some oplog =>
          let (sync, obj, oplog, s) := handleUpdateObjectSameLog ack.id obj sync oplog s
          syncUpdateAckSaveOplog ack.signer ack.id obj sync oplog s

def handleSyncUpdateBlockAck (ack : BlockAck) (s : Books δ) : Option Err × Books δ :=
  match s.objs.get ack.id with
  | none => (some .notFound, s)
  | some obj =>
    match obj.syncInfo with
    | none => (none, s)
    | some sync => handleSyncUpdateBlockAckCore ack obj sync s

end PttaiCore
