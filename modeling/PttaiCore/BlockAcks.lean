import PttaiCore.ObjectAcks

/-! # Blocks as they arrive -/

namespace PttaiCore

open JsonCodec Json

structure SignedBlock extends Block where
  v : UInt8
  salt : Salt
  sig : Bytes
  pub : Bytes
  keyExtra : Option KeyExtraInfo
  deriving DecidableEq

inductive BlocksOutcome where
  /-- An index outside a table: the source panics. -/
  | outOfRange
  | failed (e : Err)
  /-- All of them are here. -/
  | nothingNew
  /-- The block info afterwards, and whether a block was stored. -/
  | received (b : BlockInfo) (isSet : Bool)
  deriving DecidableEq

def BlockInfo.hashAt (b : BlockInfo) (blockID : UInt32) (subBlockID : UInt8) : Option Bytes :=
  b.hashs[blockID.toNat]?.bind (·[subBlockID.toNat]?)

namespace SignedBlock

def fields (b : SignedBlock) : List (PlainText × Option Json) :=
  [(fieldName ['V'], some (enc b.v)),
    (fieldName ['I', 'D'], some (enc b.id)),
    (fieldName ['b', 'I', 'D'], some (enc b.blockID)),
    (fieldName ['s', 'I', 'D'], some (enc b.subBlockID)),
    (fieldName ['B'], omitEmpty b.buf),
    (fieldName ['o'], some (enc b.objID)),
    (fieldName ['H'], omitEmpty b.hash),
    (fieldName ['s'], some (enc b.salt)),
    (fieldName ['S'], omitEmpty b.sig),
    (fieldName ['K'], omitEmpty b.pub),
    (fieldName ['k'], b.keyExtra.map KeyExtraInfo.toJson)]

def marshal (b : SignedBlock) : Bytes := (record b.fields).render

def blank (b : SignedBlock) : SignedBlock := { b with hash := [], salt := Salt.zero, sig := [], pub := [], keyExtra := none }

def verify (Γ : Ctx) (b : SignedBlock) (expectedHash : Bytes) (creatorID : PttID) : Except Err Unit :=
  verifyData Γ (b.blank.marshal ++ b.salt.1) expectedHash b.sig b.pub creatorID b.keyExtra

def shrinkBlocks (b : BlockInfo) : List SignedBlock → Option (BlockInfo × List SignedBlock)
  | [] => some (b, [])
  | block :: blocks =>
    match b.getIsGood block.blockID block.subBlockID with
    | .error _ => none
    | .ok (isGood, b) =>
      match shrinkBlocks b blocks with
      | none => none
      | some (b, rest) => some (b, if isGood then rest else block :: rest)

def verifyBlocks (Γ : Ctx) (b : BlockInfo) (creatorID : PttID) : List SignedBlock → Option (Except Err Unit)
  | [] => some (.ok ())
  | block :: blocks =>
    match b.hashAt block.blockID block.subBlockID with
    | none => none
    | some hash =>
      match block.verify Γ hash creatorID with
      | .error e => some (.error e)
      | .ok _ => verifyBlocks Γ b creatorID blocks

def saveBlocks (saves : Nat → Bool) (b : BlockInfo) : Nat → List SignedBlock → Option (BlockInfo × Bool)
  | _, [] => some (b, false)
  | n, block :: blocks =>
    if saves n then
      match b.setIsGood block.blockID block.subBlockID with
      | .error _ => none
      | .ok b => (saveBlocks saves b (n + 1) blocks).map fun r => (r.1, true)
    else saveBlocks saves b (n + 1) blocks

def receiveMissing (Γ : Ctx) (saves : Nat → Bool) (b : BlockInfo) (creatorID : PttID) (blocks : List SignedBlock) : BlocksOutcome :=
  if blocks = [] then .nothingNew
  else
    match verifyBlocks Γ b creatorID blocks with
    | none => .outOfRange
    | some (.error e) => .failed e
    | some (.ok _) =>
      match saveBlocks saves b 0 blocks with
      | none => .outOfRange
      | some (b, isSet) => .received b isSet

def receiveBlocks (Γ : Ctx) (saves : Nat → Bool) (b : BlockInfo) (creatorID : PttID) (blocks : List SignedBlock) : BlocksOutcome :=
  match shrinkBlocks b blocks with
  | none => .outOfRange
  | some (b, blocks) => receiveMissing Γ saves b creatorID blocks

end SignedBlock

end PttaiCore
