import PttaiCore.JsonCodec
import PttaiCore.Lib.Traverse
import Mathlib.Data.List.DropRight

/-! # Blocks: splitting a buffer and reading it back -/

namespace PttaiCore

def nSubBlock : Nat := 2

def nScrambleInBlock : Nat := 2

def nByteInBlock : Nat := 65535

def nLineInBlock : Nat := 20

structure Block where
  id : PttID
  blockID : UInt32
  subBlockID : UInt8
  buf : Bytes
  objID : PttID
  hash : Bytes
  deriving DecidableEq

structure BlockInfo where
  id : PttID
  nBlock : Nat
  hashs : List (List Bytes)
  /-- Absent until it is needed. -/
  isGood : Option (List (List Bool))
  isAllGood : Bool
  deriving DecidableEq

def marshalBufs (bufs : List Bytes) : Bytes := Json.render (.arr (bufs.map fun b => .str (Base64.encode b)))

structure BlockLib where
  /-- Reading a list of byte slices from its JSON text. -/
  unmarshalBufs : Bytes → Except Err (List Bytes)
  unmarshalBufs_marshalBufs (bufs : List Bytes) : unmarshalBufs (marshalBufs bufs) = .ok bufs
  /-- The two parity shards of two data shards. -/
  encode : Bytes × Bytes → Bytes × Bytes
  /-- The data shards from the parity shards alone. -/
  reconstruct : Bytes × Bytes → Except Err (Bytes × Bytes)
  length_encode (d : Bytes × Bytes) : d.1.length = d.2.length → (encode d).1.length = d.1.length ∧ (encode d).2.length = d.1.length
  reconstruct_encode (d : Bytes × Bytes) : d.1.length = d.2.length → d.1 ≠ [] → reconstruct (encode d) = .ok d
  /-- The hash that signing a block gives it. -/
  signBlock : Block → Except Err Bytes

namespace BlockInfo

def noneGood (nBlock : Nat) : List (List Bool) := List.replicate nBlock (List.replicate nSubBlock false)

def new (id : PttID) (hashs : List (List Bytes)) : BlockInfo :=
  { id, nBlock := hashs.length, hashs, isGood := some (noneGood hashs.length), isAllGood := false }

def initIsGood (b : BlockInfo) : BlockInfo := { b with isGood := some (noneGood b.nBlock), isAllGood := false }

def setIsAllGood (b : BlockInfo) : BlockInfo :=
  { b with isGood := some (List.replicate b.nBlock (List.replicate nSubBlock true)), isAllGood := true }

def getIsAllGood (b : BlockInfo) : Bool :=
  b.nBlock == 0 || b.isAllGood ||
    match b.isGood with
    | none => false
    | some good => (List.range b.nBlock).all fun i => (List.range nSubBlock).all fun j => ((good[i]?).bind (·[j]?)).getD false

end BlockInfo

/-! ## Scrambling -/

def pad (text : Bytes) : Bytes :=
  if text.length % nScrambleInBlock ≠ 0 then text ++ List.replicate (nScrambleInBlock - text.length % nScrambleInBlock) 0 else text

def dataShards (text : Bytes) : Bytes × Bytes :=
  let nBytesInScramble := text.length / nScrambleInBlock
  (text.take nBytesInScramble, (text.drop nBytesInScramble).take nBytesInScramble)

variable (L : BlockLib)

def scrambleBuf (bufs : List Bytes) : List Bytes :=
  let shards := L.encode (dataShards (pad (marshalBufs bufs)))
  [shards.1, shards.2]

def copyInto (n : Nat) (b : Bytes) : Bytes := b.take n ++ List.replicate (n - b.length) 0

def unscrambleBufUnpad (b : Bytes) : Bytes := b.rdropWhile (· == 0)

def unscrambleBuf (bufs : List Bytes) : Except Err (List Bytes) :=
  match bufs with
  | [b, b'] =>
    match L.reconstruct (b, b') with
    | .error e => .error e
    | .ok d => L.unmarshalBufs (unscrambleBufUnpad (copyInto b.length d.1 ++ copyInto b.length d.2))
  | _ => .error .invalidBlock

/-! ## Splitting -/

def mediaBlockLen (buf : Bytes) : Nat := if buf.length = nByteInBlock + 1 then buf.length else min nByteInBlock buf.length

theorem mediaBlockLen_pos {buf : Bytes} (h : buf ≠ []) : 0 < mediaBlockLen buf := by
  have := List.length_pos_iff.2 h
  unfold mediaBlockLen nByteInBlock
  split_ifs <;> omega

def mediaHalves (buf : Bytes) : Bytes × Bytes :=
  let half := (mediaBlockLen buf + 1) / 2
  (buf.take half, (buf.take (mediaBlockLen buf)).drop half)

def mediaBlocks (buf : Bytes) : List (Bytes × Bytes) :=
  if _h : buf = [] then [] else mediaHalves buf :: mediaBlocks (buf.drop (mediaBlockLen buf))
termination_by buf.length
decreasing_by
  have := List.length_pos_iff.2 _h
  have := mediaBlockLen_pos _h
  rw [List.length_drop]
  omega

def contentBlocks (n : Nat) (buf : List Bytes) : List (List Bytes) :=
  if _h : buf = [] then [] else buf.take (min n buf.length) :: contentBlocks nLineInBlock (buf.drop (min n buf.length))
termination_by 2 * buf.length + if n = 0 then 1 else 0
decreasing_by
  have := List.length_pos_iff.2 _h
  rw [List.length_drop, if_neg (by decide)]
  split_ifs with hn
  · rw [hn]
    omega
  · have hmin : 0 < min n buf.length := by omega
    omega

structure BlockPlace where
  dbBlockPrefix : Bytes
  objID : PttID
  id : PttID

namespace BlockPlace

variable (p : BlockPlace)

def keyStart : Bytes := p.dbBlockPrefix ++ (p.objID.1 ++ p.id.1)

def marshalKey (blockID : UInt32) (subBlockID : UInt8) : Bytes := p.keyStart ++ (Bytes.be 4 blockID.toNat ++ [subBlockID])

def newBlock (blockID : Nat) (subBlockID : Nat) (buf : Bytes) : Block :=
  { id := p.id, blockID := UInt32.ofNat blockID, subBlockID := UInt8.ofNat subBlockID, buf, objID := p.objID, hash := [] }

def saveBlock (blockID subBlockID : Nat) (buf : Bytes) (db : KeyStore Bytes Block) : Except Err Bytes × KeyStore Bytes Block :=
  let block := p.newBlock blockID subBlockID buf
  match L.signBlock block with
  | .error e => (.error e, db)
  | .ok hash => (.ok hash, db.put (p.marshalKey block.blockID block.subBlockID) { block with hash })

def saveMediaBlock (blockID : Nat) (halves : Bytes × Bytes) (db : KeyStore Bytes Block) :
    Except Err (List Bytes) × KeyStore Bytes Block :=
  Traverse.traverse (fun subBlockID buf db => p.saveBlock L blockID subBlockID buf db) 0 (scrambleBuf L [halves.1, halves.2]) db

def splitMediaBlocks (buf : Bytes) (db : KeyStore Bytes Block) : Except Err (List (List Bytes)) × KeyStore Bytes Block :=
  Traverse.traverse (fun blockID halves db => p.saveMediaBlock L blockID halves db) 0 (mediaBlocks buf) db

def saveContentBlock (blockID : Nat) (lines : List Bytes) (db : KeyStore Bytes Block) : Except Err (List Bytes) × KeyStore Bytes Block :=
  Traverse.traverse (fun subBlockID buf db => p.saveBlock L blockID subBlockID buf db) 0 (scrambleBuf L lines) db

def splitContentBlocks (buf : List Bytes) (nFirstLineInBlock : Nat) (db : KeyStore Bytes Block) :
    Except Err (List (List Bytes)) × KeyStore Bytes Block :=
  Traverse.traverse (fun blockID lines db => p.saveContentBlock L blockID lines db) 0 (contentBlocks nFirstLineInBlock buf) db

/-! ## Reading -/

def blocks (db : KeyStore Bytes Block) : List Block := (db.select fun k => p.keyStart.isPrefixOf k).map Prod.snd

end BlockPlace

def readBytes (b : Bytes) : Option Bytes := if b = [] then none else some b

def readBlocks (limit : Nat) : List Block → List (List (Option Bytes)) → Except Err (List (List (Option Bytes)))
  | [], rows => .ok rows
  | b :: rest, rows =>
    if limit ≤ b.blockID.toNat then .ok rows
    else if nSubBlock ≤ b.subBlockID.toNat then .error .panic
    else readBlocks limit rest (rows.modify b.blockID.toNat fun row => row.set b.subBlockID.toNat (readBytes b.buf))

def getContentBlockList (p : BlockPlace) (info : BlockInfo) (limit : UInt32) (db : KeyStore Bytes Block) :
    Except Err (List (List Bytes)) :=
  if info.getIsAllGood = false then .error .invalidBlock
  else
    let nBlock := UInt32.ofNat info.nBlock
    let limit := if limit = 0 then nBlock else limit
    let limit := (if limit > nBlock then nBlock else limit).toNat
    match readBlocks limit (p.blocks db) (List.replicate limit (List.replicate nSubBlock none)) with
    | .error e => .error e
    | .ok rows =>
      match rows.mapM fun row => row.mapM id with
      | none => .error .invalidBlock
      | some bufs =>
        match bufs.mapM (unscrambleBuf L) with
        | .error _ => .error .invalidBlock
        | .ok contents => .ok contents

structure ContentBlock where
  blockID : UInt32
  buf : List Bytes
  deriving DecidableEq

def newContentBlocks (contents : List (List Bytes)) : List ContentBlock := contents.mapIdx fun i buf => ⟨UInt32.ofNat i, buf⟩

def getContentBlocks (p : BlockPlace) (info : BlockInfo) (limit : UInt32) (db : KeyStore Bytes Block) : Except Err (List ContentBlock) :=
  (getContentBlockList L p info limit db).map newContentBlocks

def getBuf (p : BlockPlace) (info : BlockInfo) (db : KeyStore Bytes Block) : Except Err Bytes :=
  if info.isAllGood = false then .error .invalidBlock
  else match getContentBlockList L p info 0 db with
    | .error e => .error e
    | .ok contents => .ok contents.flatten.flatten

end PttaiCore
