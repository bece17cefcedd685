import PttaiCore.MerkleList

/-! # Walking through the nodes of two sides -/

namespace PttaiCore

structure WireNode where
  level : UInt8
  addr : Option Bytes
  updateTS : Timestamp
  nChildren : UInt32
  key : Bytes
  deriving DecidableEq, Repr

def MerkleNode.toWire (n : MerkleNode) : WireNode := ⟨n.level.toUInt8, some n.addr.1, n.updateTS, n.nChildren, n.key⟩

namespace WireNode

/-! ## Comparing nodes -/

def validateMerkleTreeTrimNodes (nodes : List WireNode) (ts : Timestamp) : List WireNode :=
  nodes.take (bisect nodes.length fun i => nodes[i]?.elim false fun n => ts.isLessEqual n.updateTS)

def diffLoop : Nat → List WireNode → List WireNode → List WireNode → List WireNode → List WireNode × List WireNode
  | rounds + 1, myNode :: pMyNodes, theirNode :: pTheirNodes, myNewNodes, theirNewNodes =>
    if myNode.updateTS.isLess theirNode.updateTS then
      diffLoop rounds pMyNodes (theirNode :: pTheirNodes) myNewNodes (theirNewNodes ++ [myNode])
    else if theirNode.updateTS.isLess myNode.updateTS then
      diffLoop rounds (myNode :: pMyNodes) pTheirNodes (myNewNodes ++ [theirNode]) theirNewNodes
    else if myNode.level > theirNode.level then
      diffLoop rounds pMyNodes (theirNode :: pTheirNodes) myNewNodes (theirNewNodes ++ [myNode])
    else if myNode.level < theirNode.level then
      diffLoop rounds (myNode :: pMyNodes) pTheirNodes (myNewNodes ++ [theirNode]) theirNewNodes
    else if myNode.nChildren > theirNode.nChildren then
      diffLoop rounds pMyNodes pTheirNodes myNewNodes (theirNewNodes ++ [myNode])
    else if myNode.nChildren < theirNode.nChildren then
      diffLoop rounds pMyNodes pTheirNodes (myNewNodes ++ [theirNode]) theirNewNodes
    else if myNode.addr ≠ theirNode.addr then
      diffLoop rounds pMyNodes pTheirNodes (myNewNodes ++ [theirNode]) (theirNewNodes ++ [myNode])
    else diffLoop rounds pMyNodes pTheirNodes myNewNodes theirNewNodes
  | _, pMyNodes, pTheirNodes, myNewNodes, theirNewNodes => (myNewNodes ++ pTheirNodes, theirNewNodes ++ pMyNodes)

def diffMerkleTree (myNodes theirNodes : List WireNode) (ts : Timestamp) : List WireNode × List WireNode :=
  let myNodes := if ts.isEqual .zero then myNodes else validateMerkleTreeTrimNodes myNodes ts
  let theirNodes := if ts.isEqual .zero then theirNodes else validateMerkleTreeTrimNodes theirNodes ts
  diffLoop (myNodes.length + theirNodes.length) myNodes theirNodes [] []

end WireNode

/-! ## Merging keys -/

structure KeyCursor where
  nodes : List WireNode
  idx : Nat
  key : Bytes
  deriving DecidableEq, Repr

namespace KeyCursor

def start (nodes : List WireNode) : Option KeyCursor := nodes.head?.map fun n => ⟨nodes, 0, n.key⟩

def next (c : KeyCursor) : Option KeyCursor :=
  match c.nodes with
  | _ :: n :: nodes => some { c with nodes := n :: nodes, key := n.key }
  | _ => none

def incr (c : KeyCursor) : KeyCursor := { c with idx := c.idx + 1 }

def nextWithin (len : Nat) (c : KeyCursor) : Option KeyCursor := if c.idx < len then c.next else some c

def drain (len : Nat) : Nat → KeyCursor → List Bytes → Option (List Bytes)
  | 0, _, newKeys => some newKeys
  | rounds + 1, c, newKeys =>
    if c.idx < len then
      if c.idx + 1 = len then some (newKeys ++ [c.key])
      else do
        let c' ← c.incr.next
        drain len rounds c' (newKeys ++ [c.key])
    else some newKeys

end KeyCursor

structure MergeKeys where
  my : KeyCursor
  their : KeyCursor
  myNewKeys : List Bytes
  theirNewKeys : List Bytes
  deriving DecidableEq, Repr

namespace MergeKeys

def loop (lenMyNodes lenTheirNodes : Nat) : Nat → MergeKeys → Option MergeKeys
  | 0, s => some s
  | rounds + 1, s =>
    if s.my.idx < lenMyNodes ∧ s.their.idx < lenTheirNodes then
      if s.my.key < s.their.key then
        let s := { s with theirNewKeys := s.theirNewKeys ++ [s.my.key], my := s.my.incr }
        if s.my.idx = lenMyNodes then some s
        else do
          let my ← s.my.next
          loop lenMyNodes lenTheirNodes rounds { s with my }
      else if s.their.key < s.my.key then
        let s := { s with myNewKeys := s.myNewKeys ++ [s.their.key], their := s.their.incr }
        if s.their.idx = lenTheirNodes then some s
        else do
          let their ← s.their.next
          loop lenMyNodes lenTheirNodes rounds { s with their }
      else do
        let my ← s.my.incr.nextWithin lenMyNodes
        let their ← s.their.incr.nextWithin lenTheirNodes
        loop lenMyNodes lenTheirNodes rounds { s with my, their }
    else some s

end MergeKeys

def WireNode.mergeKeysInMerkleNodes (myNodes theirNodes : List WireNode) : Option (List Bytes × List Bytes) :=
  let lenMyNodes := myNodes.length
  let lenTheirNodes := theirNodes.length
  if lenMyNodes = 0 ∧ lenTheirNodes = 0 then some ([], [])
  else if lenTheirNodes = 0 then some ([], myNodes.map WireNode.key)
  else if lenMyNodes = 0 then some (theirNodes.map WireNode.key, [])
  else do
    let my ← KeyCursor.start myNodes
    let their ← KeyCursor.start theirNodes
    let s ← MergeKeys.loop lenMyNodes lenTheirNodes (lenMyNodes + lenTheirNodes) ⟨my, their, [], []⟩
    let theirNewKeys ← s.my.drain lenMyNodes lenMyNodes s.theirNewKeys
    let myNewKeys ← s.their.drain lenTheirNodes lenTheirNodes s.myNewKeys
    some (myNewKeys, theirNewKeys)

/-! ## Keys by a hash map -/

def keyMapOf (keys : List Bytes) : KeyStore Bytes Bool := keys.foldl (fun keyMap key => keyMap.put key true) KeyStore.empty

def diffOplogKeys (myKeys theirKeys : List Bytes) : List Bytes × List Bytes :=
  let keyMap := keyMapOf theirKeys
  let myExtraKeys := myKeys.filter fun key => !(keyMap.get key).getD false
  let keyMap := keyMapOf myKeys
  let theirExtraKeys := theirKeys.filter fun key => !(keyMap.get key).getD false
  (myExtraKeys, theirExtraKeys)

end PttaiCore
