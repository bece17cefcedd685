import Mathlib.Data.List.GetD
import Mathlib.Data.List.TakeWhile
import Mathlib.Data.Nat.Digits.Lemmas
import PttaiCore.Lib.JsonParse

/-! # Byte strings as plain text: hexadecimal, base 64, base 58 -/

structure Alphabet where
  symbols : List UInt8
  nodup : symbols.Nodup
  plain : symbols.all isPlain = true

namespace Alphabet

variable (A : Alphabet)

def symbol (d : Nat) : UInt8 := A.symbols.getD d 0x20

def value (c : UInt8) : Option Nat := if c ∈ A.symbols then some (A.symbols.idxOf c) else none

theorem symbol_mem {d : Nat} (h : d < A.symbols.length) : A.symbol d ∈ A.symbols := by
  rw [symbol, List.getD_eq_getElem _ _ h]
  exact List.getElem_mem h

@[simp] theorem value_symbol {d : Nat} (h : d < A.symbols.length) : A.value (A.symbol d) = some d := by
  rw [value, if_pos (A.symbol_mem h), symbol, List.getD_eq_getElem _ _ h, A.nodup.idxOf_getElem]

theorem plain_symbol (d : Nat) : isPlain (A.symbol d) = true := by
  by_cases h : d < A.symbols.length
  · exact List.all_eq_true.1 A.plain _ (A.symbol_mem h)
  · rw [symbol, List.getD_eq_default _ _ (not_lt.1 h)]
    rfl

end Alphabet

theorem UInt8.ofNat_eq {n : Nat} {a : UInt8} (h : n = a.toNat) : UInt8.ofNat n = a := by rw [h, UInt8.ofNat_toNat]

/-! ## Hexadecimal -/

namespace Hex

def alphabet : Alphabet where
  symbols := ascii ['0', '1', '2', '3', '4', '5', '6', '7', '8', '9', 'a', 'b', 'c', 'd', 'e', 'f']
  nodup := by decide
  plain := by decide

def encodeBytes : Bytes → Bytes
  | [] => []
  | b :: bs => alphabet.symbol (b.toNat / 16) :: alphabet.symbol (b.toNat % 16) :: encodeBytes bs

def decode : Bytes → Option Bytes
  | [] => some []
  | [_] => none
  | c :: d :: cs => do
    let x ← alphabet.value c
    let y ← alphabet.value d
    let bs ← decode cs
    return UInt8.ofNat (16 * x + y) :: bs

theorem encodeBytes_plain (b : Bytes) : (encodeBytes b).all isPlain = true := by
  induction b with
  | nil => rfl
  | cons b bs ih => simp [encodeBytes, Alphabet.plain_symbol, ih]

def encode (b : Bytes) : PlainText := ⟨encodeBytes b, encodeBytes_plain b⟩

theorem decode_encode (b : Bytes) : decode (encode b).1 = some b := by
  change decode (encodeBytes b) = some b
  induction b with
  | nil => rfl
  | cons b bs ih =>
    have hb := b.toNat_lt
    have h1 : b.toNat / 16 < alphabet.symbols.length := by change _ < 16; omega
    have h2 : b.toNat % 16 < alphabet.symbols.length := by change _ < 16; omega
    have hv : UInt8.ofNat (16 * (b.toNat / 16) + b.toNat % 16) = b := UInt8.ofNat_eq (by omega)
    simp only [encodeBytes, decode, Alphabet.value_symbol _ h1, Alphabet.value_symbol _ h2, ih, bind, Option.bind_some, pure, hv]

end Hex

/-! ## Base 64 -/

namespace Base64

open Alphabet UInt8

def alphabet : Alphabet where
  symbols := ascii ['A', 'B', 'C', 'D', 'E', 'F', 'G', 'H', 'I', 'J', 'K', 'L', 'M', 'N', 'O', 'P', 'Q', 'R', 'S', 'T', 'U', 'V',
    'W', 'X', 'Y', 'Z', 'a', 'b', 'c', 'd', 'e', 'f', 'g', 'h', 'i', 'j', 'k', 'l', 'm', 'n', 'o', 'p', 'q', 'r', 's', 't', 'u',
    'v', 'w', 'x', 'y', 'z', '0', '1', '2', '3', '4', '5', '6', '7', '8', '9', '+', '/']
  nodup := by decide
  plain := by decide

def encodeBytes : Bytes → Bytes
  | [] => []
  | [a] => [alphabet.symbol (a.toNat / 4), alphabet.symbol (a.toNat % 4 * 16), 61, 61]
  | [a, b] =>
    [alphabet.symbol (a.toNat / 4), alphabet.symbol (a.toNat % 4 * 16 + b.toNat / 16), alphabet.symbol (b.toNat % 16 * 4), 61]
  | a :: b :: c :: r =>
    alphabet.symbol (a.toNat / 4) :: alphabet.symbol (a.toNat % 4 * 16 + b.toNat / 16) ::
      alphabet.symbol (b.toNat % 16 * 4 + c.toNat / 64) :: alphabet.symbol (c.toNat % 64) :: encodeBytes r

def decode : Bytes → Option Bytes
  | [] => some []
  | s :: t :: u :: v :: r =>
    if v = 61 then
      if r ≠ [] then none
      else if u = 61 then do
        let w ← alphabet.value s
        let x ← alphabet.value t
        return [UInt8.ofNat (w * 4 + x / 16)]
      else do
        let w ← alphabet.value s
        let x ← alphabet.value t
        let y ← alphabet.value u
        return [UInt8.ofNat (w * 4 + x / 16), UInt8.ofNat (x % 16 * 16 + y / 4)]
    else do
      let w ← alphabet.value s
      let x ← alphabet.value t
      let y ← alphabet.value u
      let z ← alphabet.value v
      let bs ← decode r
      return UInt8.ofNat (w * 4 + x / 16) :: UInt8.ofNat (x % 16 * 16 + y / 4) :: UInt8.ofNat (y % 4 * 64 + z) :: bs
  | _ => none

theorem encodeBytes_plain (b : Bytes) : (encodeBytes b).all isPlain = true := by
  have hpad : isPlain 61 = true := rfl
  induction b using encodeBytes.induct with
  | case1 => rfl
  | case2 a => simp [encodeBytes, plain_symbol, hpad]
  | case3 a b => simp [encodeBytes, plain_symbol, hpad]
  | case4 a b c r ih => simp [encodeBytes, plain_symbol, ih]

def encode (b : Bytes) : PlainText := ⟨encodeBytes b, encodeBytes_plain b⟩

theorem symbol_ne_pad {d : Nat} (h : d < 64) : alphabet.symbol d ≠ 61 := by
  intro heq
  have := alphabet.symbol_mem (d := d) h
  rw [heq] at this
  exact absurd this (by decide)

theorem decode_encode (b : Bytes) : decode (encode b).1 = some b := by
  change decode (encodeBytes b) = some b
  induction b using encodeBytes.induct with
  | case1 => rfl
  | case2 a =>
    have ha := a.toNat_lt
    have h1 : a.toNat / 4 < alphabet.symbols.length := by change _ < 64; omega
    have h2 : a.toNat % 4 * 16 < alphabet.symbols.length := by change _ < 64; omega
    have hv : UInt8.ofNat (a.toNat / 4 * 4 + a.toNat % 4 * 16 / 16) = a := ofNat_eq (by omega)
    simp only [encodeBytes, decode, value_symbol _ h1, value_symbol _ h2, bind, Option.bind_some, pure, hv,
      if_true, ne_eq, not_true_eq_false, if_false]
  | case3 a b =>
    have ha := a.toNat_lt
    have hb := b.toNat_lt
    have h1 : a.toNat / 4 < alphabet.symbols.length := by change _ < 64; omega
    have h2 : a.toNat % 4 * 16 + b.toNat / 16 < alphabet.symbols.length := by change _ < 64; omega
    have h3 : b.toNat % 16 * 4 < alphabet.symbols.length := by change _ < 64; omega
    have hva : UInt8.ofNat (a.toNat / 4 * 4 + (a.toNat % 4 * 16 + b.toNat / 16) / 16) = a := ofNat_eq (by omega)
    have hvb : UInt8.ofNat ((a.toNat % 4 * 16 + b.toNat / 16) % 16 * 16 + b.toNat % 16 * 4 / 4) = b :=
      ofNat_eq (by omega)
    have hpad : alphabet.symbol (b.toNat % 16 * 4) ≠ 61 := symbol_ne_pad h3
    simp only [encodeBytes, decode, value_symbol _ h1, value_symbol _ h2, value_symbol _ h3, bind,
      Option.bind_some, pure, hva, hvb, hpad, if_true, ne_eq, not_true_eq_false, if_false]
  | case4 a b c r ih =>
    have ha := a.toNat_lt
    have hb := b.toNat_lt
    have hc := c.toNat_lt
    have h1 : a.toNat / 4 < alphabet.symbols.length := by change _ < 64; omega
    have h2 : a.toNat % 4 * 16 + b.toNat / 16 < alphabet.symbols.length := by change _ < 64; omega
    have h3 : b.toNat % 16 * 4 + c.toNat / 64 < alphabet.symbols.length := by change _ < 64; omega
    have h4 : c.toNat % 64 < alphabet.symbols.length := by change _ < 64; omega
    have hva : UInt8.ofNat (a.toNat / 4 * 4 + (a.toNat % 4 * 16 + b.toNat / 16) / 16) = a := ofNat_eq (by omega)
    have hvb : UInt8.ofNat ((a.toNat % 4 * 16 + b.toNat / 16) % 16 * 16 + (b.toNat % 16 * 4 + c.toNat / 64) / 4) = b :=
      ofNat_eq (by omega)
    have hvc : UInt8.ofNat ((b.toNat % 16 * 4 + c.toNat / 64) % 4 * 64 + c.toNat % 64) = c := ofNat_eq (by omega)
    have hpad : alphabet.symbol (c.toNat % 64) ≠ 61 := symbol_ne_pad h4
    simp only [encodeBytes, decode, value_symbol _ h1, value_symbol _ h2, value_symbol _ h3,
      value_symbol _ h4, bind, Option.bind_some, pure, hva, hvb, hvc, hpad, ih, if_false]

end Base64

/-! ## Base 58 -/

namespace Base58

open List

def alphabet : Alphabet where
  symbols := ascii ['1', '2', '3', '4', '5', '6', '7', '8', '9', 'A', 'B', 'C', 'D', 'E', 'F', 'G', 'H', 'J', 'K', 'L', 'M', 'N',
    'P', 'Q', 'R', 'S', 'T', 'U', 'V', 'W', 'X', 'Y', 'Z', 'a', 'b', 'c', 'd', 'e', 'f', 'g', 'h', 'i', 'j', 'k', 'm', 'n', 'o',
    'p', 'q', 'r', 's', 't', 'u', 'v', 'w', 'x', 'y', 'z']
  nodup := by decide
  plain := by decide

def digitsOf (base n : Nat) : List Nat := (Nat.digits base n).reverse

def ofDigits (base : Nat) (ds : List Nat) : Nat := Nat.ofDigits base ds.reverse

variable (b : Bytes)

def encodeBytes : Bytes :=
  List.replicate (b.takeWhile (· == 0)).length (alphabet.symbol 0) ++
    (digitsOf 58 (ofDigits 256 ((b.dropWhile (· == 0)).map UInt8.toNat))).map alphabet.symbol

def decode (t : Bytes) : Option Bytes := do
  let ds ← (t.dropWhile (· == alphabet.symbol 0)).mapM alphabet.value
  return List.replicate (t.takeWhile (· == alphabet.symbol 0)).length 0 ++ (digitsOf 256 (ofDigits 58 ds)).map UInt8.ofNat

theorem encodeBytes_plain : (encodeBytes b).all isPlain = true := by
  rw [all_eq_true]
  intro c hc
  rcases mem_append.1 hc with h | h
  · rw [(mem_replicate.1 h).2]
    exact alphabet.plain_symbol 0
  · obtain ⟨d, _, rfl⟩ := mem_map.1 h
    exact alphabet.plain_symbol d

def encode : PlainText := ⟨encodeBytes b, encodeBytes_plain b⟩

theorem digitsOf_ofDigits {base : Nat} (hbase : 1 < base) {ds : List Nat} (hlt : ∀ d ∈ ds, d < base)
    (hhead : ∀ d ∈ ds.head?, d ≠ 0) : digitsOf base (ofDigits base ds) = ds := by
  rw [digitsOf, ofDigits, Nat.digits_ofDigits base hbase, reverse_reverse]
  · exact fun d hd => hlt d (mem_reverse.1 hd)
  · intro hne
    refine hhead _ ?_
    rw [getLast_reverse]
    exact List.head?_eq_some_head _

theorem ofDigits_digitsOf (base n : Nat) : ofDigits base (digitsOf base n) = n := by
  rw [digitsOf, ofDigits, reverse_reverse, Nat.ofDigits_digits]

theorem head_digitsOf {base n : Nat} : ∀ d ∈ (digitsOf base n).head?, d ≠ 0 := by
  intro d hd
  rw [digitsOf, List.head?_reverse] at hd
  have hn : Nat.digits base n ≠ [] := by
    intro h
    rw [h] at hd
    simp at hd
  rw [List.getLast?_eq_some_getLast hn] at hd
  cases hd
  exact Nat.getLast_digit_ne_zero base (fun h => hn (by rw [h, Nat.digits_zero]))

theorem takeWhile_replicate_append {α : Type*} {p : α → Bool} {a : α} (ha : p a = true) (n : Nat) {l : List α}
    (hl : ∀ c ∈ l.head?, p c = false) :
    (List.replicate n a ++ l).takeWhile p = List.replicate n a ∧ (List.replicate n a ++ l).dropWhile p = l := by
  have hall : ∀ c ∈ List.replicate n a, p c = true := fun c hc => (mem_replicate.1 hc).2 ▸ ha
  rw [takeWhile_append_of_pos hall, dropWhile_append_of_pos hall]
  cases l with
  | nil => simp
  | cons c l => simp [hl c (by simp)]

theorem mapM_value {ds : List Nat} (h : ∀ d ∈ ds, d < 58) : (ds.map alphabet.symbol).mapM alphabet.value = some ds := by
  induction ds with
  | nil => rfl
  | cons d ds ih =>
    have hd : d < alphabet.symbols.length := h d mem_cons_self
    simp [mapM_cons, hd, ih fun e he => h e (mem_cons_of_mem d he)]

theorem decode_encode : decode (encode b).1 = some b := by
  change decode (encodeBytes b) = some b
  generalize hn : ofDigits 256 ((b.dropWhile (· == 0)).map UInt8.toNat) = n
  have hdigits : ∀ d ∈ digitsOf 58 n, d < 58 := fun d hd => Nat.digits_lt_base (by decide) (mem_reverse.1 hd)
  have hhead : ∀ c ∈ ((digitsOf 58 n).map alphabet.symbol).head?, (c == alphabet.symbol 0) = false := by
    intro c hc
    rw [List.head?_map, Option.mem_def, Option.map_eq_some_iff] at hc
    obtain ⟨d, hd, rfl⟩ := hc
    have hd0 := head_digitsOf d hd
    have hd58 := hdigits d (mem_of_mem_head? hd)
    rw [beq_eq_false_iff_ne]
    intro heq
    have h1 := alphabet.value_symbol (d := d) hd58
    rw [heq, alphabet.value_symbol (d := 0) (by decide)] at h1
    exact hd0 (Option.some.inj h1).symm
  have hsplit := takeWhile_replicate_append (p := (· == alphabet.symbol 0)) (a := alphabet.symbol 0) (by simp)
    (b.takeWhile (· == 0)).length hhead
  have hrest : digitsOf 256 n = (b.dropWhile (· == 0)).map UInt8.toNat := by
    rw [← hn]
    refine digitsOf_ofDigits (by decide) (fun d hd => ?_) (fun d hd => ?_)
    · obtain ⟨c, _, rfl⟩ := mem_map.1 hd
      exact c.toNat_lt
    · rw [List.head?_map, Option.mem_def, Option.map_eq_some_iff] at hd
      obtain ⟨c, hc, rfl⟩ := hd
      have hc0 := List.head?_dropWhile_not (p := fun c : UInt8 => c == 0) b
      rw [hc] at hc0
      simp only [beq_eq_false_iff_ne] at hc0
      exact fun h => hc0 (UInt8.toNat_inj.1 h)
  have hzeros : List.replicate (b.takeWhile (· == 0)).length (0 : UInt8) = b.takeWhile (· == 0) := by
    symm
    rw [eq_replicate_iff]
    exact ⟨rfl, fun c hc => by simpa using mem_takeWhile_imp hc⟩
  simp only [decode, encodeBytes, hn, hsplit.1, hsplit.2, mapM_value hdigits, ofDigits_digitsOf, hrest, length_replicate,
    map_map, bind, Option.bind_some, pure, hzeros]
  rw [show UInt8.ofNat ∘ UInt8.toNat = id by funext c; simp, map_id, takeWhile_append_dropWhile]

end Base58
