import PttaiCore.Lib.KeyRange
import PttaiCore.Merkle

/-! # Friends by their last message -/

namespace PttaiCore

namespace Friend

def dbMessageCreateTSPrefix : Bytes := ascii ['.', 'f', 'r', 'm', 'c']

def dbMessageCreateTSIdxPrefix : Bytes := ascii ['.', 'm', 'c', 'i', 'x']

def dbMessageCreateTS2Prefix : Bytes := ascii ['.', 'm', 'c', 'd', 'b']

def marshalMessageCreateTSKey (id : PttID) : Bytes := dbMessageCreateTSPrefix ++ id.1

def marshalMessageCreateTSIdxKey (id : PttID) : Bytes := dbMessageCreateTSIdxPrefix ++ id.1

def marshalMessageCreateTSKey2 (ts : Timestamp) (id : PttID) : Bytes := dbMessageCreateTS2Prefix ++ (ts.marshal ++ id.1)

theorem length_entityID (key : Bytes) : ((key.drop 17 ++ List.replicate 40 0).take 40).length = 40 := by
  rw [List.length_take, List.length_append, List.length_replicate]
  omega

def msgCreateTSKeyToEntityID (key : Bytes) : PttID := ⟨(key.drop 17 ++ List.replicate 40 0).take 40, length_entityID key⟩

structure Service where
  dbFriend : LDBDatabase Value
  entities : KeyStore PttID Unit
  /-- The time of the last message in the record of each friend. -/
  messageCreateTS : PttID → Timestamp

namespace Service

variable (s : Service)

def putErr {α : Type} : Except Err α → Except Err Unit
  | .error .invalidUpdateTS | .ok _ => .ok ()
  | .error e => .error e

def saveMessageCreateTS2 (id : PttID) (ts : Timestamp) : Except Err Unit × Service :=
  let key := marshalMessageCreateTSKey2 ts id
  let r := s.dbFriend.tryPutAll (marshalMessageCreateTSIdxKey id) ⟨[key], ts⟩ [(key, .dbable ts)] true false
  (putErr r.1.2, { s with dbFriend := r.2, messageCreateTS := Function.update s.messageCreateTS id ts })

def saveMessageCreateTS (id : PttID) (ts : Timestamp) : Except Err Unit × Service :=
  let r := s.dbFriend.tryPut (marshalMessageCreateTSKey id) (.dbable ts) ts
  let s := { s with dbFriend := r.2, messageCreateTS := Function.update s.messageCreateTS id ts }
  match putErr r.1 with
  | .error e => (.error e, s)
  | .ok _ => s.saveMessageCreateTS2 id ts

def newIteratorWithPrefix (start pre : Bytes) (listOrder : ListOrder) : Except Err (List (Bytes × Value)) :=
  if start = [] then .ok (s.dbFriend.db.iterate pre (Bytes.prefixLimit pre) listOrder)
  else if !pre.isPrefixOf start then .error .invalidPrefix
  else match listOrder with
    | .prev => .ok (s.dbFriend.db.iterate pre (Bytes.prefixLimit start) .prev)
    | .next => .ok (s.dbFriend.db.iterate start (Bytes.prefixLimit pre) .next)

def getFriendIterMarshalKey (ts : Timestamp) (listOrder : ListOrder) : Bytes :=
  marshalMessageCreateTSKey2 ts (ByteArrayOf.replicate 40 (if listOrder = .prev then 255 else 0))

def getFriendByMsgCreateTSIter (startingTS : Timestamp) (listOrder : ListOrder) : Except Err (List (Bytes × Value)) :=
  if startingTS = .zero then s.newIteratorWithPrefix [] dbMessageCreateTS2Prefix listOrder
  else s.newIteratorWithPrefix (getFriendIterMarshalKey startingTS listOrder) dbMessageCreateTS2Prefix listOrder

def collect (limit : Int) : List (Bytes × Value) → Nat → Except Err (List PttID)
  | [], _ => .ok []
  | e :: rest, i =>
    if 0 < limit ∧ limit ≤ i then .ok []
    else
      let id := msgCreateTSKeyToEntityID e.1
      match s.entities.get id with
      | none => .error .panic
      | some _ =>
        match collect limit rest (i + 1) with
        | .error e => .error e
        | .ok friends => .ok (id :: friends)

def getFriendListByMsgCreateTS (startingTS : Timestamp) (limit : Int) (listOrder : ListOrder) : Except Err (List PttID) :=
  match s.getFriendByMsgCreateTSIter startingTS listOrder with
  | .error e => .error e
  | .ok iter => s.collect limit iter 0

def unregisterEntity (id : PttID) : Service := { s with entities := s.entities.delete id }

end Service

end Friend

end PttaiCore
