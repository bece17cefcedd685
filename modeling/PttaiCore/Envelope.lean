import PttaiCore.Lib.Cfb
import PttaiCore.Router

/-! # The envelope of a message -/

namespace PttaiCore

open JsonCodec Json

structure CipherCtx extends Ctx where
  aes : Bytes → Bytes → ByteArrayOf 16

abbrev CodeType : Type := UInt64

namespace CodeType

def status : CodeType := 1
def join : CodeType := 2
def joinAck : CodeType := 3
def op : CodeType := 4
def opAck : CodeType := 5
def requireHash : CodeType := 6
def opFail : CodeType := 7
def requestOpKey : CodeType := 8
def requestOpKeyAck : CodeType := 9
def requestOpKeyFail : CodeType := 10
def entityDeleted : CodeType := 11
def identifyPeer : CodeType := 12
def identifyPeerAck : CodeType := 13
def identifyPeerFail : CodeType := 14
def identifyPeerWithMyID : CodeType := 15
def identifyPeerWithMyIDChallenge : CodeType := 16
def identifyPeerWithMyIDChallengeAck : CodeType := 17
def identifyPeerWithMyIDAck : CodeType := 18
def opCheckMember : CodeType := 19
def opCheckMemberAck : CodeType := 20

def handled : List CodeType :=
  [join, joinAck, op, opFail, requestOpKey, requestOpKeyFail, requestOpKeyAck, entityDeleted, opCheckMember, opCheckMemberAck,
    identifyPeer, identifyPeerFail, identifyPeerWithMyID, identifyPeerWithMyIDChallenge, identifyPeerWithMyIDChallengeAck,
    identifyPeerWithMyIDAck]

end CodeType

abbrev OpType : Type := UInt32

/-! ## Encryption -/

def aesBlockSize : Nat := 16

def aesPad (src : Bytes) : Bytes :=
  let padding := aesBlockSize - src.length % aesBlockSize
  src ++ List.replicate padding (UInt8.ofNat padding)

def aesUnpad (src : Bytes) : Except Err Bytes :=
  match src.getLast? with
  | none => .error .panic
  | some unpadding => if src.length < unpadding.toNat then .error .invalidData else .ok (src.take (src.length - unpadding.toNat))

namespace CipherCtx

variable (Γ : CipherCtx)

def newCipher (key : Bytes) : Except Err (Bytes → Bytes) :=
  if key.length = 16 ∨ key.length = 24 ∨ key.length = 32 then .ok fun b => (Γ.aes key b).1 else .error .keySize

def encryptData (op : OpType) (data : Bytes) (keyInfo : OpKeyInfo) (iv : ByteArrayOf 16) : Except Err Bytes :=
  let marshaled := Bytes.be 4 op.toNat ++ data
  match Γ.newCipher keyInfo.keyBytes with
  | .error e => .error e
  | .ok block => .ok (iv.1 ++ Cfb.encrypt block iv.1 (aesPad marshaled))

def decryptData (ciphertext : Bytes) (keyInfo : OpKeyInfo) : Except Err (OpType × Bytes) :=
  match Γ.newCipher keyInfo.keyBytes with
  | .error e => .error e
  | .ok block =>
    if ciphertext.length % aesBlockSize ≠ 0 then .error .invalidData
    else if ciphertext.length < aesBlockSize then .error .panic
    else
      match aesUnpad (Cfb.decrypt block (ciphertext.take aesBlockSize) (ciphertext.drop aesBlockSize)) with
      | .error e => .error e
      | .ok marshaled =>
        if marshaled.length < 4 then .error .panic
        else .ok (UInt32.ofNat (Bytes.ofBE (marshaled.take 4)), marshaled.drop 4)

end CipherCtx

/-! ## Events -/

structure RouterEventData where
  code : CodeType
  hash : Bytes
  encData : Bytes
  deriving DecidableEq

structure RouterData where
  node : Bytes
  code : CodeType
  hash : Bytes
  evWithSalt : Bytes
  checksum : Bytes
  relay : UInt8
  deriving DecidableEq

namespace RouterEventData

def fields (ev : RouterEventData) : List (PlainText × Option Json) :=
  [(fieldName ['C'], some (enc ev.code)), (fieldName ['H'], omitEmpty ev.hash), (fieldName ['D'], omitEmpty ev.encData)]

theorem fields_nodup (ev : RouterEventData) : (ev.fields.map Prod.fst).Nodup := by
  change [fieldName ['C'], fieldName ['H'], fieldName ['D']].Nodup
  decide

def toJson (ev : RouterEventData) : Json := record ev.fields

def ofJson (j : Json) : Option RouterEventData := do
  let code ← readField 0 dec (fieldName ['C']) j
  let hash ← readField [] dec (fieldName ['H']) j
  let encData ← readField [] dec (fieldName ['D']) j
  return ⟨code, hash, encData⟩

theorem ofJson_toJson (ev : RouterEventData) : ofJson ev.toJson = some ev := by
  rw [ofJson, toJson, readField_record ev.fields_nodup 0 rfl (OplogAux.elim_written _ _),
    readField_record ev.fields_nodup 1 rfl (OplogAux.elim_omitEmpty _),
    readField_record ev.fields_nodup 2 rfl (OplogAux.elim_omitEmpty _)]
  rfl

def marshal (ev : RouterEventData) : Bytes := ev.toJson.render

def unmarshal (b : Bytes) : Except Err RouterEventData :=
  match (Json.parse b).bind ofJson with
  | none => .error .json
  | some ev => .ok ev

theorem unmarshal_marshal (ev : RouterEventData) : unmarshal ev.marshal = .ok ev := by
  rw [unmarshal, marshal, parse_render, Option.bind_some, ofJson_toJson]

end RouterEventData

theorem length_copyToAddress (b : Bytes) : ((b ++ List.replicate 20 0).take 20).length = 20 := by simp

def copyToAddress (b : Bytes) : Address := ⟨(b ++ List.replicate 20 0).take 20, length_copyToAddress b⟩

namespace CipherCtx

variable (Γ : CipherCtx)

def checksumData (bytes : Bytes) (salt : Salt) : Bytes × Bytes := (bytes ++ salt.1, Γ.keccak256 (bytes ++ salt.1))

def checksumPttEventData (ev : RouterEventData) (salt : Salt) : Bytes × Bytes := Γ.checksumData ev.marshal salt

def marshalData (code : CodeType) (hash : Address) (encData : Bytes) (salt : Salt) : RouterData :=
  let r := Γ.checksumPttEventData ⟨code, hash.1, encData⟩ salt
  ⟨[], code, hash.1, r.1, r.2, 0⟩

def verifyChecksumData (bytesWithSalt checksum : Bytes) : Except Err Unit :=
  if Γ.keccak256 bytesWithSalt = checksum then .ok () else .error .invalidData

def verifyChecksumEventData (data : RouterData) : Except Err RouterEventData :=
  match Γ.verifyChecksumData data.evWithSalt data.checksum with
  | .error e => .error e
  | .ok () =>
    if data.evWithSalt.length < 32 then .error .panic
    else RouterEventData.unmarshal (data.evWithSalt.take (data.evWithSalt.length - 32))

def unmarshalData (data : RouterData) : Except Err (CodeType × Address × Bytes) :=
  match Γ.verifyChecksumEventData data with
  | .error e => .error e
  | .ok ev => .ok (ev.code, copyToAddress ev.hash, ev.encData)

/-! ## Sending and receiving -/

def sendDataToPeerWithCode (e : Entity) (now : Timestamp) (code : CodeType) (op : OpType) (data : Bytes) (peer : Option NodeID)
    (iv : ByteArrayOf 16) (salt : Salt) : Except Err (Option RouterData) × Entity :=
  match peer with
  | none => (.ok none, e)
  | some node =>
    match e.getOldestOpKey now with
    | (.error err, e) => (.error err, e)
    | (.ok opKeyInfo, e) =>
      match Γ.encryptData op data opKeyInfo iv with
      | .error err => (.error err, e)
      | .ok encData => (.ok (some { Γ.marshalData code opKeyInfo.hash encData salt with node := node.bytes.1 }), e)

def handleMessage (myNodeID : NodeID) (code : CodeType) (data : RouterData) : Except Err (Address × Bytes) :=
  if data.node ≠ myNodeID.bytes.1 then .error .invalidData
  else
    match Γ.unmarshalData data with
    | .error e => .error e
    | .ok (evCode, evHash, encData) =>
      if evCode ≠ code ∨ code < CodeType.requireHash ∧ evHash.1 ≠ data.hash then .error .invalidData
      else if code ∈ CodeType.handled then .ok (evHash, encData)
      else .error .invalidMsgCode

end CipherCtx

end PttaiCore
