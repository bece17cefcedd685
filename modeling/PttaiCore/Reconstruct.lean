import PttaiCore.MerkleTime
import PttaiCore.OplogStore

/-! # Reconstructing the leaves of a merkle -/

namespace PttaiCore

def SignInfo.decodeOver (old : Option SignInfo) (s : SignInfo) : SignInfo :=
  { s with extra := (s.extra.map KeyExtraInfo.reload).or (old.bind SignInfo.extra) }

def decodeSignsOver : List SignInfo → List SignInfo → List SignInfo
  | _, [] => []
  | [], s :: l => s.decodeOver none :: decodeSignsOver [] l
  | old :: array, s :: l => s.decodeOver (some old) :: decodeSignsOver array l

structure ReusedOplog where
  oplog : BaseOplog
  masterArray : List SignInfo
  internalArray : List SignInfo

namespace ReusedOplog

def fresh : ReusedOplog where
  oplog :=
    { v := 0, id := ByteArrayOf.replicate 40 0, creatorID := ByteArrayOf.replicate 40 0, createTS := .zero, objID := none, op := 0
      preLogID := none, data := none, creatorHash := [], salt := Salt.zero, sig := [], pubkey := [], keyExtra := none
      updateTS := .zero, hash := [], masterLogID := none, masterSigns := [], internalSigns := [], isSync := false
      isNewer := false, extra := none }
  masterArray := []
  internalArray := []

def bytesOver (old b : Bytes) : Bytes := if b = [] then old else b

def interfaceOver (old d : Option Json) : Option Json := if d.isNone then old else reloadInterface d

def signsOver (slice array l : List SignInfo) : List SignInfo × List SignInfo :=
  if l = [] then (slice, array) else (decodeSignsOver array l, decodeSignsOver array l ++ array.drop l.length)

def unmarshal (r : ReusedOplog) (o : BaseOplog) : ReusedOplog where
  oplog :=
    { o with
      preLogID := o.preLogID.or r.oplog.preLogID
      data := interfaceOver r.oplog.data o.data
      creatorHash := bytesOver r.oplog.creatorHash o.creatorHash
      sig := bytesOver r.oplog.sig o.sig
      pubkey := bytesOver r.oplog.pubkey o.pubkey
      keyExtra := (o.keyExtra.map KeyExtraInfo.reload).or r.oplog.keyExtra
      hash := bytesOver r.oplog.hash o.hash
      masterLogID := o.masterLogID.or r.oplog.masterLogID
      masterSigns := (signsOver r.oplog.masterSigns r.masterArray o.masterSigns).1
      internalSigns := (signsOver r.oplog.internalSigns r.internalArray o.internalSigns).1
      isNewer := o.isNewer || r.oplog.isNewer
      extra := interfaceOver r.oplog.extra o.extra }
  masterArray := (signsOver r.oplog.masterSigns r.masterArray o.masterSigns).2
  internalArray := (signsOver r.oplog.internalSigns r.internalArray o.internalSigns).2

def saved (r : ReusedOplog) : ReusedOplog := { r with oplog := r.oplog.notNewer }

end ReusedOplog

def Value.record : Value → Option BaseOplog
  | .oplog o => some o
  | _ => none

namespace BaseOplog

variable (p : OplogDB)

def alivePrefix : Bytes := p.merkle.partPrefix .oplog ++ p.merkle.prefixID.1

def aliveRecords (db : KeyStore Bytes Value) : List BaseOplog :=
  (db.select fun k => (alivePrefix p).isPrefixOf k).filterMap fun e => e.2.record

end BaseOplog

def forceReconstructMerkleLoop (p : OplogDB) (m : Merkle) : List BaseOplog → ReusedOplog → MerkleState → Option MerkleState
  | [], _, s => some s
  | o :: records, r, s =>
    let r := r.unmarshal o
    if !r.oplog.isSync then forceReconstructMerkleLoop p m records r s
    else
      let saved := r.oplog.save p (some m) s
      if saved.1 = .error .panic then none else forceReconstructMerkleLoop p m records r.saved saved.2

def forceReconstructMerkleCore (p : OplogDB) (merkle : Option Merkle) (s : MerkleTimes) : Option MerkleTimes :=
  match merkle with
  | none => some s
  | some m =>
    let s := s.clean m
    (forceReconstructMerkleLoop p m (BaseOplog.aliveRecords p s.state.db.db) .fresh s.state).map fun state => { s with state }

end PttaiCore
