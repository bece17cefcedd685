import PttaiCore.Oplog

/-! # The op-data types -/

namespace PttaiCore

open JsonCodec Json

inductive OpData where
  -- service
  | masterOpCreateMaster
  | memberOpAddMember
  | memberOpDeleteMember
  | opKeyOpCreateOpKey
  | opKeyOpRevokeOpKey
  | opDeleteMedia
  | opCreateMedia (blockInfoID : Option PttID) (hashs : List (List Bytes)) (nBlock : Int64)
  | personOpTransferPerson (toID : Option PttID)
  | opType (op : UInt32)
  -- account
  | userOpCreateProfile
  | userOpDeleteProfile
  | userOpCreateUserName
  | userOpCreateUserImg
  | userOpCreateNameCard
  | userOpUpdateUserName (hash : Bytes)
  | userOpUpdateUserImg (hash : Bytes)
  | userOpUpdateNameCard (hash : Bytes)
  | userOpAddUserNode (nodeID : Option NodeID)
  | userOpRemoveUserNode (nodeID : Option NodeID)
  -- me
  | meOpCreateMe (nodeID : Option NodeID) (nodeType : Int64) (nodeName : Bytes)
  | meOpEntity (logID : Option PttID)
  | meOpMigrateMe (id : Option PttID)
  | meOpDeleteMe
  | masterOpAddMaster (id : Option NodeID) (fromID : Option PttID) (masters : Option (KeyStore (ByteArrayOf 64) UInt32))
      (weight : UInt32)
  | masterOpRevokeMaster (id : Option NodeID) (fromID : Option PttID) (masters : Option (KeyStore (ByteArrayOf 64) UInt32))
  -- friend
  | friendOpCreateFriend (friendID : Option PttID)
  | friendOpDeleteFriend
  | friendOpCreateMessage (blockInfoID : Option PttID) (hashs : List (List Bytes)) (nBlock : Int64) (mediaIDs : List PttID)

namespace OpData

def encMasters : Option (KeyStore (ByteArrayOf 64) UInt32) → Json
  | none => .null
  | some m => .obj (m.entries.map (fun e => (Hex.encode e.1.1, enc e.2)))

def structFields : OpData → List (PlainText × Option Json)
  | masterOpCreateMaster | memberOpAddMember | memberOpDeleteMember | opKeyOpCreateOpKey | opKeyOpRevokeOpKey | opDeleteMedia
  | userOpCreateProfile | userOpDeleteProfile | userOpCreateUserName | userOpCreateUserImg | userOpCreateNameCard
  | meOpDeleteMe | friendOpDeleteFriend | opType _ => []
  | opCreateMedia blockInfoID hashs nBlock =>
    [(fieldName ['B', 'I', 'D'], some (enc blockInfoID)), (fieldName ['H'], some (enc hashs)),
      (fieldName ['N', 'B'], some (enc nBlock))]
  | personOpTransferPerson toID => [(fieldName ['t'], some (enc toID))]
  | userOpUpdateUserName hash | userOpUpdateUserImg hash | userOpUpdateNameCard hash => [(fieldName ['H'], some (enc hash))]
  | userOpAddUserNode nodeID | userOpRemoveUserNode nodeID => [(fieldName ['n'], some (enc nodeID))]
  | meOpCreateMe nodeID nodeType nodeName =>
    [(fieldName ['N', 'I', 'D'], some (enc nodeID)), (fieldName ['N', 'T'], some (enc nodeType)),
      (fieldName ['n'], some (enc nodeName))]
  | meOpEntity logID => [(fieldName ['l'], some (enc logID))]
  | meOpMigrateMe id => [(fieldName ['I', 'D'], some (enc id))]
  | masterOpAddMaster id fromID masters weight =>
    [(fieldName ['I', 'D'], some (enc id)), (fieldName ['f'], some (enc fromID)), (fieldName ['M'], some (encMasters masters)),
      (fieldName ['W'], some (enc weight))]
  | masterOpRevokeMaster id fromID masters =>
    [(fieldName ['I', 'D'], some (enc id)), (fieldName ['f'], some (enc fromID)), (fieldName ['M'], some (encMasters masters))]
  | friendOpCreateFriend friendID => [(fieldName ['F', 'r', 'i', 'e', 'n', 'd', 'I', 'D'], some (enc friendID))]
  | friendOpCreateMessage blockInfoID hashs nBlock mediaIDs =>
    [(fieldName ['B', 'I', 'D'], some (enc blockInfoID)), (fieldName ['H'], some (enc hashs)),
      (fieldName ['N', 'B'], some (enc nBlock)), (fieldName ['m', 's'], omitEmptyList enc mediaIDs)]

def toJson : OpData → Json
  | opType op => enc op
  | d => record d.structFields

end OpData

end PttaiCore
