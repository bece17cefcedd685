import PttaiCore.Context
import PttaiCore.Oplog

/-! # Signing and verifying oplogs -/

namespace PttaiCore

open JsonCodec Json

/-! ## Signed data -/

structure SignedData where
  salt : Salt
  hash : Bytes
  sig : Bytes
  pubBytes : Bytes

def signData (Γ : Ctx) (bytes : Bytes) (keyInfo : KeyInfo) (salt : Salt) : SignedData :=
  let hash := Γ.keccak256 (bytes ++ salt.1)
  ⟨salt, hash, Γ.cryptoSign hash keyInfo.key, keyInfo.pubKeyBytes⟩

namespace KeyExtraInfo

def isValidBIP32 (Γ : Ctx) (k : KeyExtraInfo) (pubKeyBytes : Bytes) (doerID : PttID) : Except Err Bool :=
  match (dec k.data : Option KeyBIP32) with
  | none => .ok false
  | some b =>
    if !Γ.isSamePubKey b.parent doerID then .ok false
    else match b.salt with
      | none => .error .panic
      | some salt => .ok (decide (Γ.childPubKey b.parent salt b.child = some pubKeyBytes))

def isValid (Γ : Ctx) (k : KeyExtraInfo) (pubKeyBytes : Bytes) (doerID : PttID) : Except Err Bool :=
  if k.keyType = keyTypeBIP32 then k.isValidBIP32 Γ pubKeyBytes doerID else .ok false

end KeyExtraInfo

def verifyDataCheckKey (Γ : Ctx) (pubKeyBytes : Bytes) (doerID : PttID) : Option KeyExtraInfo → Except Err Bool
  | none => .ok (Γ.isSamePubKey pubKeyBytes doerID)
  | some extra => extra.isValid Γ pubKeyBytes doerID

def verifyData (Γ : Ctx) (bytesWithSalt expectedHash sig pubKeyBytes : Bytes) (doerID : PttID) (extra : Option KeyExtraInfo) :
    Except Err Unit :=
  match verifyDataCheckKey Γ pubKeyBytes doerID extra with
  | .error e => .error e
  | .ok false => .error .invalidKey
  | .ok true =>
    let hash := Γ.keccak256 bytesWithSalt
    if hash ≠ expectedHash then .error .invalidData
    else if sig.length < 64 then .error .panic
    else if !Γ.verifySignature pubKeyBytes hash (sig.take 64) then .error .invalidData
    else .ok ()

/-! ## Oplogs -/

def sortSearchFrom (f : Nat → Bool) : Nat → Nat → Nat → Nat
  | 0, i, _ => i
  | fuel + 1, i, j =>
    if i < j then
      let h := (i + j) / 2
      if !f h then sortSearchFrom f fuel (h + 1) j else sortSearchFrom f fuel i h
    else i

def sortSearch (n : Nat) (f : Nat → Bool) : Nat := sortSearchFrom f n 0 n

def insertSign (s : SignInfo) (l : List SignInfo) : List SignInfo :=
  let idx := sortSearch l.length (fun i => match l[i]? with | some x => decide (s.id ≤ x.id) | none => true)
  l.take idx ++ s :: l.drop idx

def SignInfo.hashBytes (s : SignInfo) : Bytes := s.hash ++ s.salt.1 ++ s.sig ++ s.pubkey

namespace BaseOplog

def new (opID : PttID) (id : Option PttID) (ts : Timestamp) (doerID : PttID) (op : UInt32) (data : Option Json) : BaseOplog where
  v := 2
  id := opID
  creatorID := doerID
  createTS := ts
  updateTS := ts
  objID := id
  op := op
  preLogID := none
  data := data
  creatorHash := []
  salt := Salt.zero
  sig := []
  pubkey := []
  keyExtra := none
  hash := []
  masterLogID := none
  masterSigns := []
  internalSigns := []
  isSync := true
  isNewer := false
  extra := none

def signsHash (Γ : Ctx) (o : BaseOplog) : Bytes :=
  Γ.keccak256 ((o.masterLogID.elim [] Subtype.val) ++ (o.creatorHash ++ o.salt.1 ++ o.sig ++ o.pubkey) ++
    o.masterSigns.flatMap SignInfo.hashBytes ++ o.internalSigns.flatMap SignInfo.hashBytes)

def blankSigns (o : BaseOplog) : BaseOplog :=
  { o with
    updateTS := .zero, hash := [], masterLogID := none, masterSigns := [], internalSigns := [], isSync := false,
    isNewer := false, extra := none }

def blankCreator (o : BaseOplog) : BaseOplog := { o with creatorHash := [], sig := [], salt := Salt.zero, pubkey := [] }

def sign (Γ : Ctx) (o : BaseOplog) (keyInfo : KeyInfo) (salt : Salt) : BaseOplog :=
  let blank := o.blankSigns.blankCreator
  let s := signData Γ blank.marshal keyInfo salt
  let signed := { blank with
    creatorHash := s.hash, salt := s.salt, sig := s.sig, pubkey := s.pubBytes, keyExtra := keyInfo.extra.map KeyBIP32.toExtra
    updateTS := o.createTS }
  { signed with hash := signed.signsHash Γ, isSync := o.isSync, extra := o.extra }

def isExpired (Γ : Ctx) (o : BaseOplog) (ts : Timestamp) : Bool :=
  o.createTS.isLess { ts with ts := ts.ts - Γ.expireOplogSeconds }

def newSign (Γ : Ctx) (o : BaseOplog) (id : PttID) (keyInfo : KeyInfo) (ts : Timestamp) (salt : Salt) : SignInfo :=
  let s := signData Γ o.blankSigns.marshal keyInfo salt
  ⟨id, ts, s.hash, s.salt, s.sig, s.pubBytes, keyInfo.extra.map KeyBIP32.toExtra⟩

def masterSign (Γ : Ctx) (o : BaseOplog) (id : PttID) (keyInfo : KeyInfo) (ts : Timestamp) (salt : Salt) :
    Except Err BaseOplog :=
  if o.isExpired Γ ts then .error .invalidOplog
  else
    let blank := o.blankSigns
    let signed := { blank with masterSigns := insertSign (o.newSign Γ id keyInfo ts salt) o.masterSigns, updateTS := ts }
    .ok { signed with
      hash := signed.signsHash Γ, masterLogID := o.masterLogID, isSync := o.isSync, extra := o.extra }

def internalSign (Γ : Ctx) (o : BaseOplog) (id : PttID) (keyInfo : KeyInfo) (ts : Timestamp) (salt : Salt) :
    Except Err BaseOplog :=
  if o.isExpired Γ ts then .error .invalidOplog
  else
    let blank := o.blankSigns
    let signed := { blank with internalSigns := insertSign (o.newSign Γ id keyInfo ts salt) o.internalSigns, updateTS := ts }
    .ok { signed with
      hash := signed.signsHash Γ, masterLogID := o.masterLogID, masterSigns := o.masterSigns, isSync := o.isSync
      extra := o.extra }

def setMasterLogID (Γ : Ctx) (o : BaseOplog) (oplogID : PttID) : BaseOplog :=
  let o := { o with masterLogID := some oplogID, internalSigns := [] }
  { o with hash := o.signsHash Γ }

def verifySigns (Γ : Ctx) (bytes : Bytes) : List SignInfo → Except Err Unit
  | [] => .ok ()
  | s :: l =>
    match verifyData Γ (bytes ++ s.salt.1) s.hash s.sig s.pubkey s.id s.extra with
    | .error e => .error e
    | .ok _ => verifySigns Γ bytes l

def creatorBytes (o : BaseOplog) : Bytes := { o.blankSigns.blankCreator with keyExtra := none }.marshal

def verify (Γ : Ctx) (o : BaseOplog) : Except Err Unit × BaseOplog :=
  if o.updateTS.isLess o.createTS then (.error .invalidOplog, o)
  else if o.hash ≠ o.signsHash Γ then (.error .invalidData, o)
  else match verifyData Γ (o.creatorBytes ++ o.salt.1) o.creatorHash o.sig o.pubkey o.creatorID o.keyExtra with
    | .error e => (.error e, { o with keyExtra := none })
    | .ok _ =>
      match verifySigns Γ o.blankSigns.marshal o.masterSigns with
      | .error e => (.error e, o)
      | .ok _ => (verifySigns Γ o.blankSigns.marshal o.internalSigns, o)

def verifyBlank (o : BaseOplog) : BaseOplog :=
  { o with
    updateTS := .zero, hash := [], creatorHash := [], sig := [], salt := Salt.zero, pubkey := [], keyExtra := none
    masterLogID := none, masterSigns := [], internalSigns := [], isSync := false, isNewer := false, extra := none }

def verifyPutBack (orig o : BaseOplog) : BaseOplog :=
  { o with
    hash := [], creatorHash := orig.creatorHash, sig := orig.sig, salt := orig.salt, pubkey := orig.pubkey, keyExtra := orig.keyExtra }

def verifyDeferred (orig o : BaseOplog) : BaseOplog :=
  { o with
    updateTS := orig.updateTS, hash := orig.hash, creatorHash := orig.creatorHash, salt := orig.salt, sig := orig.sig
    pubkey := orig.pubkey, masterLogID := orig.masterLogID, masterSigns := orig.masterSigns, internalSigns := orig.internalSigns
    isSync := orig.isSync, isNewer := orig.isNewer, extra := orig.extra }

def verifyInPlace (Γ : Ctx) (o : BaseOplog) : Except Err Unit × BaseOplog :=
  if o.updateTS.isLess o.createTS then (.error .invalidOplog, o)
  else if o.hash ≠ o.signsHash Γ then (.error .invalidData, o)
  else
    let blank := o.verifyBlank
    match verifyData Γ (blank.marshal ++ o.salt.1) o.creatorHash o.sig o.pubkey blank.creatorID o.keyExtra with
    | .error e => (.error e, o.verifyDeferred blank)
    | .ok _ =>
      let signed := o.verifyPutBack blank
      match verifySigns Γ signed.marshal o.masterSigns with
      | .error e => (.error e, o.verifyDeferred signed)
      | .ok _ => (verifySigns Γ signed.marshal o.internalSigns, o.verifyDeferred signed)

theorem verifyInPlace_eq (Γ : Ctx) (o : BaseOplog) : o.verifyInPlace Γ = o.verify Γ := rfl

def toStatus (o : BaseOplog) : Status :=
  if o.masterLogID.isSome then .alive
  else if o.internalSigns.length > 0 then .internalPending
  else if o.masterSigns.length > 0 then .pending
  else .invalid

end BaseOplog

end PttaiCore
