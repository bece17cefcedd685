import PttaiCore.Lib.MergeDiff
import PttaiCore.Merkle

/-! # Listing and comparing the nodes of the merkle tree -/

namespace PttaiCore

def Value.unmarshalNode (v : Value) : Option MerkleNode :=
  v.toNode.filter fun n => n.updateTS.nanoTs < Timestamp.billion

namespace Merkle

variable (m : Merkle) (db : KeyStore Bytes Value)

/-! ## Listing -/

def getMerkleIter (level : MerkleTreeLevel) (ts nextTS : Timestamp) : List (Bytes × Value) :=
  db.range (m.marshalKey level ts) (m.marshalKey level nextTS)

def getMerkleTreeListCore (level : MerkleTreeLevel) (ts nextTS : Timestamp) : List MerkleNode :=
  (m.getMerkleIter db level ts nextTS).filterMap fun e => e.2.unmarshalNode

def getMerkleTreeListByLevel (level : MerkleTreeLevel) (ts nextTS : Timestamp) : List MerkleNode :=
  m.getMerkleTreeListCore db level ts nextTS

def getMerkleTreeList (ts : Timestamp) (isNow : Bool) : List MerkleNode × List MerkleNode :=
  let offsetYearTS := ts.toYearTimestamp.1
  let yearMerkleTreeList := m.getMerkleTreeListCore db .year .zero offsetYearTS
  let offsetMonthTS := ts.toMonthTimestamp.1
  let monthMerkleTreeList := m.getMerkleTreeListCore db .month offsetYearTS offsetMonthTS
  let offsetDayTS := ts.toDayTimestamp.1
  let dayMerkleTreeList := m.getMerkleTreeListCore db .day offsetMonthTS offsetDayTS
  let offsetHourTS := ts.toHRTimestamp.1
  let hrMerkleTreeList := m.getMerkleTreeListCore db .hr offsetDayTS offsetHourTS
  let merkleTreeList := yearMerkleTreeList ++ (monthMerkleTreeList ++ (dayMerkleTreeList ++ hrMerkleTreeList))
  (merkleTreeList, if isNow then m.getMerkleTreeListCore db .now offsetHourTS ts else [])

def getNodeByLevelTS (level : MerkleTreeLevel) (ts : Timestamp) : Except Err MerkleNode :=
  if level = .now then .error .invalidMerkle
  else match db.get (m.marshalKey level ts) with
    | none => .error .notFound
    | some v =>
      match v.unmarshalNode with
      | none => .error .invalidTimestamp
      | some n => .ok n

def getChildNodes (level : MerkleTreeLevel) (ts : Timestamp) : List MerkleNode :=
  m.getMerkleTreeListCore db level.child (level.bounds ts).1 (level.bounds ts).2

end Merkle

/-! ## Comparing -/

def validateMerkleTreeTrimNodes (nodes : List MerkleNode) (ts : Timestamp) : List MerkleNode :=
  nodes.take (bisect nodes.length fun i => nodes[i]?.elim false fun n => ts.isLessEqual n.updateTS)

def diffVerdict (myNode theirNode : MerkleNode) : MergeVerdict :=
  if myNode.updateTS.isLess theirNode.updateTS then .left
  else if theirNode.updateTS.isLess myNode.updateTS then .right
  else if myNode.level.toUInt8 > theirNode.level.toUInt8 then .left
  else if myNode.level.toUInt8 < theirNode.level.toUInt8 then .right
  else if myNode.nChildren > theirNode.nChildren then .both true false
  else if myNode.nChildren < theirNode.nChildren then .both false true
  else .both (decide (myNode.addr ≠ theirNode.addr)) (decide (myNode.addr ≠ theirNode.addr))

def diffMerkleTree (myNodes theirNodes : List MerkleNode) (ts : Timestamp) : List MerkleNode × List MerkleNode :=
  if ts.isEqual .zero then mergeDiff diffVerdict myNodes theirNodes
  else mergeDiff diffVerdict (validateMerkleTreeTrimNodes myNodes ts) (validateMerkleTreeTrimNodes theirNodes ts)

def mergeKeysInMerkleNodes (myNodes theirNodes : List MerkleNode) : List Bytes × List Bytes :=
  mergeDiff keyVerdict (myNodes.map MerkleNode.key) (theirNodes.map MerkleNode.key)

end PttaiCore
