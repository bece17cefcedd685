import PttaiCore.Lib.KeyStore
import PttaiCore.Context

/-! # The nodes of a profile -/

namespace PttaiCore

namespace Account

structure UserNodeInfo where
  userNodeID : Option PttID
  nUserNode : Nat
  deriving DecidableEq

structure UserNodes where
  /-- The stored records, by identifier. -/
  nodes : KeyStore PttID Status
  userNodeInfo : Option UserNodeInfo
  /-- The stored summary. -/
  dbUserNodeInfo : Option UserNodeInfo
  deriving DecidableEq

namespace UserNodes

variable (s : UserNodes)

def initUserNode : UserNodes := { s with userNodeInfo := some (s.dbUserNodeInfo.getD ⟨none, 0⟩) }

def saveInfo (info : UserNodeInfo) : UserNodes := { s with userNodeInfo := some info, dbUserNodeInfo := some info }

def aliveIDs : List PttID := (s.nodes.entries.filter fun e => e.2 == .alive).map Prod.fst

def postcreateUserNode (id : PttID) (rand : Nat) : UserNodes :=
  let s := if s.userNodeInfo.isNone then s.initUserNode else s
  let info := s.userNodeInfo.getD ⟨none, 0⟩
  let nUserNode := info.nUserNode + 1
  s.saveInfo ⟨if rand % nUserNode = 0 then some id else info.userNodeID, nUserNode⟩

def postdeleteUserNode (id : PttID) (rand : Nat) : Except Err UserNodes :=
  match s.userNodeInfo with
  | none => .error .panic
  | some info =>
    let userNodes := s.aliveIDs
    let n := userNodes.length
    if n = 0 then .ok (s.saveInfo ⟨none, n⟩)
    else if info.userNodeID ≠ some id then .ok (s.saveInfo ⟨none, n⟩)
    else .ok (s.saveInfo ⟨userNodes[rand % n]?, n⟩)

def cleanUserNode : UserNodes :=
  { nodes := KeyStore.empty, userNodeInfo := none, dbUserNodeInfo := if s.userNodeInfo.isSome then none else s.dbUserNodeInfo }

end UserNodes

end Account

end PttaiCore
