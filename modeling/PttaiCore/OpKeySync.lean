import PttaiCore.Bip32
import PttaiCore.Lib.Heap
import PttaiCore.ObjectAcks
import PttaiCore.Peer

/-! # Operation keys that peers send -/

namespace PttaiCore

/-! ## Hashes of keys -/

theorem length_take_twenty (id : PttID) : (id.1.take 20).length = 20 := by
  rw [List.length_take, id.2]
  rfl

def keyInfoIDToHash (id : PttID) : Address := ⟨id.1.take 20, length_take_twenty id⟩

namespace KeyScheme

theorem length_drop_twelve (K : KeyScheme) (pubBytes : Bytes) : ((K.keccak256Hash pubBytes.tail).1.drop 12).length = 20 := by
  rw [List.length_drop, (K.keccak256Hash pubBytes.tail).2]

def pubkeyBytesToAddress (K : KeyScheme) (pubBytes : Bytes) : Address :=
  ⟨(K.keccak256Hash pubBytes.tail).1.drop 12, K.length_drop_twelve pubBytes⟩

def addressOf (K : KeyScheme) (keyBytes : Bytes) : Option Address :=
  (toECDSA keyBytes).map fun key => K.pubkeyBytesToAddress (K.fromECDSAPub (K.publicKey key))

end KeyScheme

/-! ## Keys -/

structure OpKeyData where
  hash : Option Address
  keyBytes : Bytes
  extra : Option KeyBIP32
  createLogID : Option PttID
  deriving DecidableEq

def OpKeyData.empty : OpKeyData := ⟨none, [], none, none⟩

def OpKeyData.removeMeta (d : OpKeyData) : OpKeyData := { d with hash := none, keyBytes := [], extra := none }

structure OpKey where
  id : PttID
  obj : Object OpKeyData
  deriving DecidableEq

def newEmptyOpKey : OpKey :=
  ⟨ByteArrayOf.replicate 40 0, ⟨.zero, .zero, ByteArrayOf.replicate 40 0, ByteArrayOf.replicate 40 0, none, none, .invalid, false, false, none, none,
    .empty⟩⟩

instance instInhabitedOpKey : Inhabited OpKey := ⟨newEmptyOpKey⟩

structure OpKeyObj where
  id : PttID
  logID : Option PttID
  hash : Option Address
  keyBytes : Bytes
  extra : Option KeyBIP32
  deriving DecidableEq

def updateCreateOpKey (toObj : OpKey) (fromObj : OpKeyObj) : Except Err OpKey :=
  match KeyScheme.toECDSA fromObj.keyBytes with
  | none => .error .invalidKey
  | some _ =>
    .ok ⟨toObj.id, { toObj.obj with
      data := { toObj.obj.data with hash := fromObj.hash, keyBytes := fromObj.keyBytes, extra := fromObj.extra } }⟩

structure OpKeyStore where
  books : Books OpKeyData
  heap : Heap OpKey
  opKeyInfos : KeyStore Address Nat

structure OpKeyEnv where
  signer : InternalSigner
  getData : BaseOplog → Except Err Unit
  myID : PttID

namespace OpKeyStore

/-! ## Records -/

def alloc (s : OpKeyStore) (k : OpKey) : OpKeyStore := { s with heap := s.heap.alloc k }

def getByID (s : OpKeyStore) (p : Nat) (id : PttID) : Option Err × OpKeyStore :=
  match s.books.objs.get id with
  | none => (some .notFound, { s with heap := s.heap.set p { s.heap.get p with id } })
  | some obj =>
    let s := { s with heap := s.heap.set p ⟨id, obj⟩ }
    if obj.data.keyBytes ≠ [] ∧ (KeyScheme.toECDSA obj.data.keyBytes).isNone then (some .invalidKey, s) else (none, s)

def registerOpKey (s : OpKeyStore) (p : Nat) : Except Err (Option Err × OpKeyStore) :=
  let keyInfo := s.heap.get p
  if keyInfo.obj.status ≠ .alive then .ok (none, s)
  else if keyInfo.obj.data.keyBytes = [] then .ok (some .invalidKeyInfo, s)
  else
    match keyInfo.obj.data.hash with
    | none => .error .panic
    | some hash => .ok (none, { s with opKeyInfos := s.opKeyInfos.put hash p })

def postcreateOpKey (s : OpKeyStore) (p : Nat) : Except Err OpKeyStore := (s.registerOpKey p).map Prod.snd

def removeOpKeyFromHash (s : OpKeyStore) (hash : Address) : OpKeyStore :=
  match s.opKeyInfos.get hash with
  | none => s
  | some p =>
    match (s.heap.get p).obj.data.hash with
    | none => s
    | some hash => { s with opKeyInfos := s.opKeyInfos.delete hash }

def saveNewObjectWithOplog (s : OpKeyStore) (isForceNot : Bool) (p : Nat) (oplog : BaseOplog) : Except Err (BaseOplog × OpKeyStore) :=
  let k := s.heap.get p
  let r := s.books.saveNewObjectWithOplog k.id k.obj oplog
  let s := { s with books := r.2.2, heap := s.heap.set p ⟨k.id, r.2.1⟩ }
  if isForceNot || !k.obj.isAllGood || oplog.toStatus != .alive then .ok (r.1, s)
  else (s.postcreateOpKey p).map fun s => (r.1, s)

/-! ## Acknowledgements -/

def syncCreateAckSaveOplog (env : OpKeyEnv) (s : OpKeyStore) (p : Nat) (oplog : BaseOplog) : Except Err OpKeyStore :=
  let oplog := if oplog.isSync then setOplogIsSync env.signer oplog else oplog
  match s.books.saveLog oplog with
  | (.error _, books) => .ok { s with books }
  | (.ok _, books) =>
    let s := { s with books }
    if !oplog.isSync then .ok s
    else if (s.heap.get p).obj.status = .alive then .ok s
    else if oplog.toStatus < .alive then .ok s
    else (s.saveNewObjectWithOplog false p oplog).map Prod.snd

def receiveOpKey (env : OpKeyEnv) (s : OpKeyStore) (p : Nat) (obj : OpKeyObj) (oplog : BaseOplog) : Except Err OpKeyStore :=
  match updateCreateOpKey (s.heap.get p) obj with
  | .error _ => .ok s
  | .ok k =>
    let r := { k.obj with isGood := true }.checkIsAllGood
    let s := { s with heap := s.heap.set p ⟨k.id, r.2⟩ }
    if !r.1 then .ok { s with books := s.books.saveObj k.id r.2 }
    else
      match s.saveNewObjectWithOplog false p oplog with
      | .error e => .error e
      | .ok (oplog, s) => s.syncCreateAckSaveOplog env p oplog

def handleSyncCreateObjectAck (env : OpKeyEnv) (s : OpKeyStore) (p : Nat) (obj : OpKeyObj) : Except Err OpKeyStore :=
  match obj.logID with
  | none => .error .panic
  | some logID =>
    match s.books.logs.get logID with
    | none => .ok s
    | some oplog =>
      match s.getByID p obj.id with
      | (some _, s) => .ok s
      | (none, s) =>
        let origObj := (s.heap.get p).obj
        if oplog.isSync then .ok s
        else if origObj.isGood then if origObj.isAllGood then s.syncCreateAckSaveOplog env p oplog else .ok s
        else if origObj.updateLogID = none ∧ origObj.logID = some oplog.id then s.receiveOpKey env p obj oplog
        else s.syncCreateAckSaveOplog env p { oplog with isSync := true }

def handleSyncCreateOpKeyAcks (env : OpKeyEnv) (p : Nat) : List OpKeyObj → OpKeyStore → Except Err OpKeyStore
  | [], s => .ok s
  | obj :: objs, s =>
    match s.handleSyncCreateObjectAck env p obj with
    | .error e => .error e
    | .ok s => handleSyncCreateOpKeyAcks env p objs s

def handleSyncCreateOpKeyAck (env : OpKeyEnv) (s : OpKeyStore) (objs : List OpKeyObj) : Except Err OpKeyStore :=
  handleSyncCreateOpKeyAcks env s.heap.next objs (s.alloc newEmptyOpKey)

def handleSyncCreateOpKeyAckObj (env : OpKeyEnv) (s : OpKeyStore) (opKey : OpKeyObj) : Except Err OpKeyStore :=
  (s.alloc newEmptyOpKey).handleSyncCreateObjectAck env s.heap.next opKey

def handleOpKeys (env : OpKeyEnv) : List OpKeyObj → OpKeyStore → Except Err OpKeyStore
  | [], s => .ok s
  | opKey :: opKeys, s =>
    match s.handleSyncCreateOpKeyAckObj env opKey with
    | .error e => .error e
    | .ok s => handleOpKeys env opKeys s

/-! ## Logs -/

structure Handled where
  err : Option Err
  oplog : BaseOplog
  deleteInfo : List PttID
  store : OpKeyStore

def handleCreateObjectNewLog (deleteInfo : List PttID) (id : PttID) (oplog : BaseOplog) (s : OpKeyStore) : Handled :=
  let r := PttaiCore.handleCreateObjectNewLog ⟨.ok (), .ok (deleteInfo.contains id), some .empty⟩ id oplog s.books
  ⟨r.1, r.2.1, deleteInfo, { s with books := r.2.2 }⟩

def handleCreateObjectSameLog (deleteInfo : List PttID) (p : Nat) (oplog : BaseOplog) (s : OpKeyStore) : Except Err Handled :=
  let origObj := (s.heap.get p).obj
  if origObj.status = .internalSync then .ok ⟨none, oplog, deleteInfo, s⟩
  else if oplog.toStatus < origObj.status ∨ oplog.toStatus = origObj.status ∧ origObj.updateTS.isLessEqual oplog.updateTS then
    .ok ⟨some .newerOplog, oplog, deleteInfo, s⟩
  else (s.saveNewObjectWithOplog (decide (oplog.toStatus = origObj.status)) p oplog).map fun r => ⟨none, r.1, deleteInfo, r.2⟩

def handleCreateOpKeyLog (env : OpKeyEnv) (deleteInfo : List PttID) (oplog : BaseOplog) (s : OpKeyStore) : Except Err Handled :=
  match env.getData oplog, oplog.objID with
  | .error e, _ => .ok ⟨some e, oplog, deleteInfo, s⟩
  | .ok _, none => .error .panic
  | .ok _, some id =>
    match (s.alloc newEmptyOpKey).getByID s.heap.next id with
    | (some e, s') => .ok (if e = .notFound then handleCreateObjectNewLog deleteInfo id oplog s' else ⟨some e, oplog, deleteInfo, s'⟩)
    | (none, s') =>
      let origObj := (s'.heap.get s.heap.next).obj
      if origObj.status = .failed ∧ oplog.masterLogID.isSome then
        .ok (handleCreateObjectNewLog deleteInfo id oplog { s' with books := s'.books.deleteObj id })
      else if origObj.newestLogID = some oplog.id then handleCreateObjectSameLog deleteInfo s.heap.next oplog s'
      else .ok ⟨some .newerOplog, oplog, deleteInfo, s'⟩

def deletedOpKey (obj : Object OpKeyData) (oplog : BaseOplog) : Object OpKeyData :=
  { obj with data := { obj.data.removeMeta with createLogID := oplog.preLogID } }

def handleRevokeOpKeyLog (env : OpKeyEnv) (deleteInfo : List PttID) (oplog : BaseOplog) (s : OpKeyStore) : Except Err Handled :=
  match env.getData oplog, oplog.objID with
  | .error e, _ => .ok ⟨some e, oplog, deleteInfo, s⟩
  | .ok _, none => .error .panic
  | .ok _, some id =>
    match (s.alloc newEmptyOpKey).getByID s.heap.next id with
    | (some _, s') => .ok ⟨some .newerOplog, oplog, deleteInfo, s'⟩
    | (none, s') =>
      let origObj := (s'.heap.get s.heap.next).obj
      if .deleted ≤ origObj.status then
        if oplog.updateTS.isLess origObj.updateTS then
          let r := s'.books.saveDeleteObjectWithOplog id { origObj with data := origObj.data.removeMeta } oplog .deleted
          .ok ⟨some .newerOplog, r.1, deleteInfo, { s' with books := r.2 }⟩
        else .ok ⟨some .newerOplog, oplog, deleteInfo, s'⟩
      else
        let r := handleDeleteObjectLogCore env.myID id (deletedOpKey origObj oplog) oplog s'.books
        let s' := { s' with books := r.2.2 }
        match r.1 with
        | some e => .ok ⟨some e, r.2.1, if e = .skipOplog then id :: deleteInfo else deleteInfo, s'⟩
        | none => .ok ⟨none, r.2.1, id :: deleteInfo, s'.removeOpKeyFromHash (keyInfoIDToHash id)⟩

def opKeyOpTypeCreateOpKey : UInt32 := 1

def opKeyOpTypeRevokeOpKey : UInt32 := 2

def processOpKeyLog (env : OpKeyEnv) (deleteInfo : List PttID) (oplog : BaseOplog) (s : OpKeyStore) : Except Err Handled :=
  if oplog.op = opKeyOpTypeCreateOpKey then handleCreateOpKeyLog env deleteInfo oplog s
  else if oplog.op = opKeyOpTypeRevokeOpKey then handleRevokeOpKeyLog env deleteInfo oplog s
  else .ok ⟨none, oplog, deleteInfo, s⟩

def saveHandled (origIsSync : Bool) (h : Handled) : Handled :=
  match if h.err = some .newerOplog then none else h.err with
  | some _ => h
  | none =>
    let oplog := { h.oplog with isSync := h.oplog.isSync || origIsSync || h.err == some .newerOplog }
    let r := h.store.books.saveLog oplog
    match r.1 with
    | .error e => ⟨if e = .invalidUpdateTS then none else some e, oplog, h.deleteInfo, { h.store with books := r.2 }⟩
    | .ok _ => ⟨none, oplog, h.deleteInfo, { h.store with books := r.2 }⟩

def handleOplog (env : OpKeyEnv) (deleteInfo : List PttID) (oplog : BaseOplog) (s : OpKeyStore) : Except Err Handled :=
  let sel := s.books.selectExisting oplog
  let s := { s with books := sel.books }
  match sel.result with
  | .error e => .ok ⟨some e, sel.oplog, deleteInfo, s⟩
  | .ok (origIsSync, _) =>
    if sel.oplog.isSync then .ok ⟨none, sel.oplog, deleteInfo, s⟩
    else (processOpKeyLog env deleteInfo sel.oplog s).map (saveHandled origIsSync)

def handleOplogs (env : OpKeyEnv) : List BaseOplog → List PttID → OpKeyStore → Except Err OpKeyStore
  | [], _, s => .ok s
  | oplog :: oplogs, deleteInfo, s =>
    match handleOplog env deleteInfo oplog s with
    | .error e => .error e
    | .ok h => if h.err = none ∨ h.err = some .skipOplog then handleOplogs env oplogs h.deleteInfo h.store else .ok h.store

def handleOpKeyOplogs (env : OpKeyEnv) (s : OpKeyStore) (oplogs : List BaseOplog) : Except Err OpKeyStore := handleOplogs env oplogs [] s

/-! ## Keys of one's own -/

def createOpKey (s : OpKeyStore) (k : OpKey) (oplog : BaseOplog) : Except Err OpKeyStore :=
  let s' := s.alloc ⟨k.id, { k.obj with isGood := true, isAllGood := true }⟩
  match s'.saveNewObjectWithOplog false s.heap.next oplog with
  | .error e => .error e
  | .ok (oplog, s') => .ok { s' with books := (s'.books.saveLog oplog).2 }

end OpKeyStore

/-! ## Messages -/

structure OpKeyEntity where
  status : Status
  store : OpKeyStore

structure OpKeyRouter where
  entities : PttID → Option OpKeyEntity

inductive OpKeyCall where
  | requestOpKey (userID : Option PttID) (entityID : Option PttID) (opKeyLogs : List BaseOplog) (opKeys : List OpKeyObj)
  | requestOpKeyAck (userID : Option PttID) (entityID : Option PttID) (logs : List BaseOplog) (opKeys : List OpKeyObj)
  | syncCreateOpKeyAck (entityID : PttID) (objs : List OpKeyObj)
  | createOpKey (entityID : PttID) (key : OpKey) (oplog : BaseOplog)

namespace OpKeyRouter

variable (env : OpKeyEnv) (r : OpKeyRouter)

def setStore (id : PttID) (e : OpKeyEntity) (store : OpKeyStore) : OpKeyRouter :=
  ⟨Function.update r.entities id (some { e with store })⟩

def handleLogsAndOpKeys (id : PttID) (e : OpKeyEntity) (logs : List BaseOplog) (opKeys : List OpKeyObj) : Except Err OpKeyRouter :=
  match e.store.handleOpKeyOplogs env logs with
  | .error err => .error err
  | .ok store => (store.handleOpKeys env opKeys).map (r.setStore id e)

def handleRequestOpKey (userID entityID : Option PttID) (opKeyLogs : List BaseOplog) (opKeys : List OpKeyObj) : Except Err OpKeyRouter :=
  match userID, entityID with
  | none, _ => .ok r
  | some _, none => .error .panic
  | some _, some id =>
    match r.entities id with
    | none => .ok r
    | some e => if .migrated ≤ e.status then .ok r else r.handleLogsAndOpKeys env id e opKeyLogs opKeys

def handleRequestOpKeyAck (userID entityID : Option PttID) (logs : List BaseOplog) (opKeys : List OpKeyObj) : Except Err OpKeyRouter :=
  match userID, entityID with
  | none, _ => .ok r
  | some _, none => .error .panic
  | some _, some id =>
    match r.entities id with
    | none => .ok r
    | some e => r.handleLogsAndOpKeys env id e logs opKeys

def handleEntityMessage (id : PttID) (handle : OpKeyStore → Except Err OpKeyStore) : Except Err OpKeyRouter :=
  match r.entities id with
  | none => .ok r
  | some e => (handle e.store).map (r.setStore id e)

def call : OpKeyCall → Except Err OpKeyRouter
  | .requestOpKey userID entityID opKeyLogs opKeys => r.handleRequestOpKey env userID entityID opKeyLogs opKeys
  | .requestOpKeyAck userID entityID logs opKeys => r.handleRequestOpKeyAck env userID entityID logs opKeys
  | .syncCreateOpKeyAck entityID objs => r.handleEntityMessage entityID fun s => s.handleSyncCreateOpKeyAck env objs
  | .createOpKey entityID key oplog => r.handleEntityMessage entityID fun s => s.createOpKey key oplog

def step (r : Except Err OpKeyRouter) (c : OpKeyCall) : Except Err OpKeyRouter := r.bind fun r => r.call env c

end OpKeyRouter

end PttaiCore
