import Mathlib.Data.BitVec

/-! # Bit vectors and counts of distinct items -/

namespace PttaiCore

abbrev Word : Type := BitVec 64

structure BitVector where
  words : List Word
  small : words.length < 2 ^ 58

namespace BitVector

theorem length_set_lt (b : BitVector) (i : Nat) (w : Word) : (b.words.set i w).length < 2 ^ 58 :=
  List.length_set.trans_lt b.small

def size (b : BitVector) : Nat := 64 * b.words.length

def setWord (b : BitVector) (i : Nat) (w : Word) : BitVector := ⟨b.words.set i w, b.length_set_lt i w⟩

theorem length_zeros_lt {n : Nat} (h : n < 2 ^ 58) : (List.replicate n (0 : Word)).length < 2 ^ 58 :=
  List.length_replicate.trans_lt h

def newBitVector (L : Nat) : Option BitVector :=
  let n := 1 + ((L + 2 ^ 64 - 1) % 2 ^ 64) >>> 6
  if h : n < 2 ^ 58 then some ⟨List.replicate n 0, length_zeros_lt h⟩ else none

def setWithIsNew (b : BitVector) (N : Nat) : Option (Bool × BitVector) := do
  let w ← b.words[N >>> 6]?
  if w &&& (1#64 <<< (N &&& 63)) = 1 then
    return (false, b)
  return (true, b.setWord (N >>> 6) (w ||| 1#64 <<< (N &&& 63)))

def get (b : BitVector) (N : Nat) : Option Word := do
  let w ← b.words[N >>> 6]?
  return (w >>> (N &&& 63)) &&& 1

def popWord (word : Word) : Word :=
  let word := word - (word >>> 1 &&& 0x5555555555555555#64)
  let word := (word &&& 0x3333333333333333#64) + (word >>> 2 &&& 0x3333333333333333#64)
  let word := (word + word >>> 4) &&& 0x0F0F0F0F0F0F0F0F#64
  let word := word + word >>> 8
  let word := word + word >>> 16
  let word := word + word >>> 32
  word &&& 255#64

def popCount (b : BitVector) : Word := b.words.foldl (fun total word => total + popWord word) 0

end BitVector

structure Count where
  bits : BitVector
  p : Nat

def newCount (p : Nat) : Option Count :=
  (BitVector.newBitVector (2 ^ p % 2 ^ 64)).map fun bits => ⟨bits, p⟩

section
variable {I : Type} (hash : I → Word)

def Count.bucket (c : Count) (item : I) : Nat := (hash item).toNat >>> ((64 + 2 ^ 64 - c.p) % 2 ^ 64)

def Count.addWithIsNew (c : Count) (item : I) : Option (Bool × Count) :=
  (c.bits.setWithIsNew (c.bucket hash item)).map fun r => (r.1, { c with bits := r.2 })

def Count.addItems (c : Count) : List I → Option (List Bool × Count)
  | [] => some ([], c)
  | item :: items => do
    let r ← c.addWithIsNew hash item
    let s ← r.2.addItems items
    return (r.1 :: s.1, s.2)

end

end PttaiCore
