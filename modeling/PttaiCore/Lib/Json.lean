import Mathlib.Data.Nat.Digits.Defs
import Mathlib.Data.Nat.Log
import Mathlib.Tactic.IntervalCases
import PttaiCore.Lib.Bytes
import PttaiCore.Lib.KeyStore

/-! # JSON trees, their text, and generic re-encoding -/

/-! ## Integers as doubles -/

namespace Float64

def round (m : Nat) : Nat :=
  if m < 2 ^ 53 then m else
  let u := 2 ^ (Nat.log2 m - 52)
  let q := m / u
  let r := m % u
  if 2 * r < u ∨ 2 * r = u ∧ q % 2 = 0 then q * u else (q + 1) * u

def shortestAt (x p : Nat) : Option Nat :=
  let lo := x / p * p
  let hi := lo + p
  if round lo = x then
    if round hi = x ∧ (hi - x < x - lo ∨ hi - x = x - lo ∧ x / p % 2 = 1) then some hi else some lo
  else if round hi = x then some hi else none

def shortest (x : Nat) : Nat → Nat
  | 0 => x
  | k + 1 => (shortestAt x (10 ^ (k + 1))).getD (shortest x k)

def reencode (n : Int) : Int := n.sign * shortest (round n.natAbs) 20

theorem le_round {m : Nat} (h : 2 ^ 53 ≤ m) : 2 ^ 53 ≤ round m := by
  have hlog : 53 ≤ Nat.log2 m := (Nat.le_log2 (by omega)).2 h
  obtain ⟨e, he⟩ : ∃ e, Nat.log2 m = e + 53 := ⟨Nat.log2 m - 53, by omega⟩
  have hu : Nat.log2 m - 52 = e + 1 := by omega
  have hq : 2 ^ 52 ≤ m / 2 ^ (e + 1) := by
    rw [Nat.le_div_iff_mul_le (Nat.pow_pos (by decide)), ← Nat.pow_add]
    have := Nat.log2_self_le (n := m) (by omega)
    rwa [he, show e + 53 = 52 + (e + 1) by omega] at this
  have hpos : 2 ≤ 2 ^ (e + 1) := by
    rw [Nat.pow_succ]
    have : 0 < 2 ^ e := Nat.pow_pos (by decide)
    omega
  have hqu : 2 ^ 52 * 2 ≤ m / 2 ^ (e + 1) * 2 ^ (e + 1) := Nat.mul_le_mul hq hpos
  simp only [round, if_neg (not_lt.2 h), hu]
  split_ifs
  · exact hqu
  · exact hqu.trans (Nat.mul_le_mul_right _ (Nat.le_succ _))

theorem round_of_lt {m : Nat} (h : m < 2 ^ 53) : round m = m := if_pos h

theorem eq_of_round_eq {m x : Nat} (hx : x < 2 ^ 53) (h : round m = x) : m = x := by
  by_cases hm : m < 2 ^ 53
  · rwa [round_of_lt hm] at h
  · exact absurd (le_round (not_lt.1 hm)) (by omega)

theorem shortestAt_eq {x p c : Nat} (hx : x < 2 ^ 53) (h : shortestAt x p = some c) : c = x := by
  simp only [shortestAt] at h
  split_ifs at h with h1 h2 h3
  · exact Option.some.inj h ▸ eq_of_round_eq hx h2.1
  · exact Option.some.inj h ▸ eq_of_round_eq hx h1
  · exact Option.some.inj h ▸ eq_of_round_eq hx h3

theorem shortest_of_lt {x : Nat} (hx : x < 2 ^ 53) (k : Nat) : shortest x k = x := by
  induction k with
  | zero => rfl
  | succ k ih =>
    rw [shortest]
    cases h : shortestAt x (10 ^ (k + 1)) with
    | none => exact ih
    | some c => exact shortestAt_eq hx h

theorem reencode_of_lt {n : Int} (h : n.natAbs < 2 ^ 53) : reencode n = n := by
  rw [reencode, round_of_lt h, shortest_of_lt h, Int.sign_mul_natAbs]

example : reencode 9007199254740993 = 9007199254740992 := by decide

example : reencode 18446744073709551615 = 18446744073709552000 := by decide

end Float64

/-! ## Trees and their text -/

def ascii (cs : List Char) : Bytes := cs.map (fun c => UInt8.ofNat c.toNat)

def isPlain (c : UInt8) : Bool :=
  0x20 ≤ c && c ≤ 0x7e && c != 0x22 && c != 0x5c && c != 0x3c && c != 0x3e && c != 0x26

abbrev PlainText : Type := { b : Bytes // b.all isPlain = true }

inductive Json where
  | null
  | bool (b : Bool)
  | num (n : Int)
  | str (s : PlainText)
  | arr (l : List Json)
  | obj (l : List (PlainText × Json))

namespace Json

open List

def isNull : Json → Bool
  | .null => true
  | _ => false

theorem isNull_eq_false_iff {j : Json} : j.isNull = false ↔ j ≠ .null := by
  cases j <;> simp [isNull]

def decimal (n : Nat) : Bytes := if n = 0 then [48] else (Nat.digits 10 n).reverse.map (fun d => UInt8.ofNat (48 + d))

def renderInt (n : Int) : Bytes := if n < 0 then 45 :: decimal n.natAbs else decimal n.natAbs

def renderStr (s : PlainText) : Bytes := 34 :: (s.1 ++ [34])

mutual
def render : Json → Bytes
  | .null => [110, 117, 108, 108]
  | .bool true => [116, 114, 117, 101]
  | .bool false => [102, 97, 108, 115, 101]
  | .num n => renderInt n
  | .str s => renderStr s
  | .arr [] => [91, 93]
  | .arr (j :: l) => 91 :: (render j ++ renderElems l)
  | .obj [] => [123, 125]
  | .obj ((k, j) :: l) => 123 :: (renderStr k ++ 58 :: (render j ++ renderFields l))
termination_by structural j => j
def renderElems : List Json → Bytes
  | [] => [93]
  | j :: l => 44 :: (render j ++ renderElems l)
termination_by structural l => l
def renderFields : List (PlainText × Json) → Bytes
  | [] => [125]
  | (k, j) :: l => 44 :: (renderStr k ++ 58 :: (render j ++ renderFields l))
termination_by structural l => l
end

mutual
def generic : Json → Json
  | .null => .null
  | .bool b => .bool b
  | .num n => .num (Float64.reencode n)
  | .str s => .str s
  | .arr l => .arr (genericElems l)
  | .obj l => .obj ((KeyStore.empty : KeyStore PlainText Json).putAll (genericFields l)).entries
termination_by structural j => j
def genericElems : List Json → List Json
  | [] => []
  | j :: l => generic j :: genericElems l
termination_by structural l => l
def genericFields : List (PlainText × Json) → List (PlainText × Json)
  | [] => []
  | (k, j) :: l => (k, generic j) :: genericFields l
termination_by structural l => l
end

mutual
def Stable : Json → Prop
  | .num n => Float64.reencode n = n
  | .arr l => StableElems l
  | .obj l => (l.map Prod.fst).Pairwise (· < ·) ∧ StableFields l
  | .null | .bool _ | .str _ => True
termination_by structural j => j
def StableElems : List Json → Prop
  | [] => True
  | j :: l => Stable j ∧ StableElems l
termination_by structural l => l
def StableFields : List (PlainText × Json) → Prop
  | [] => True
  | (_, j) :: l => Stable j ∧ StableFields l
termination_by structural l => l
end

/-! ## Generic re-encoding -/

theorem genericFields_keys (l : List (PlainText × Json)) : (genericFields l).map Prod.fst = l.map Prod.fst := by
  induction l with
  | nil => rfl
  | cons e l ih =>
    obtain ⟨k, j⟩ := e
    simp [genericFields, ih]

theorem generic_of_stable (j : Json) : j.Stable → j.generic = j := by
  refine generic.induct (fun j => j.Stable → j.generic = j)
    (fun l => StableFields l → genericFields l = l)
    (fun l => StableElems l → genericElems l = l) ?_ ?_ ?_ ?_ ?_ ?_ ?_ ?_ ?_ ?_ j
  · exact fun _ => rfl
  · exact fun _ _ => rfl
  · intro n h
    rw [generic, h]
  · exact fun _ _ => rfl
  · intro l ih h
    rw [generic, ih h]
  · intro l ih h
    obtain ⟨hkeys, hfields⟩ := h
    rw [generic, ih hfields, KeyStore.putAll_entries]
    · rfl
    · exact pairwise_map.1 hkeys
  · exact fun _ => rfl
  · intro j l ihj ihl h
    rw [genericElems, ihj h.1, ihl h.2]
  · exact fun _ => rfl
  · intro k j l ihj ihl h
    rw [genericFields, ihj h.1, ihl h.2]

theorem stable_of_generic (j : Json) : j.generic = j → j.Stable := by
  refine generic.induct (fun j => j.generic = j → j.Stable)
    (fun l => genericFields l = l → StableFields l)
    (fun l => genericElems l = l → StableElems l) ?_ ?_ ?_ ?_ ?_ ?_ ?_ ?_ ?_ ?_ j
  · exact fun _ => trivial
  · exact fun _ _ => trivial
  · intro n h
    exact Json.num.inj h
  · exact fun _ _ => trivial
  · intro l ih h
    exact ih (Json.arr.inj h)
  · intro l ih h
    have hl := Json.obj.inj h
    -- what is written back is in key order, so the fields were; then they are written back one by one
    have hsorted : l.Pairwise (fun a b => a.1 < b.1) := by
      rw [← hl]
      exact KeyStore.sorted _
    have hkeys : (l.map Prod.fst).Pairwise (· < ·) := pairwise_map.2 hsorted
    have hgsorted : (genericFields l).Pairwise (fun a b => a.1 < b.1) := by
      refine pairwise_map.1 ?_
      rw [genericFields_keys]
      exact hkeys
    rw [KeyStore.putAll_entries _ _ hgsorted] at hl
    exact ⟨hkeys, ih hl⟩
  · exact fun _ => trivial
  · intro j l ihj ihl h
    rw [genericElems, List.cons.injEq] at h
    exact ⟨ihj h.1, ihl h.2⟩
  · exact fun _ => trivial
  · intro k j l ihj ihl h
    rw [genericFields, List.cons.injEq, Prod.mk.injEq] at h
    exact ⟨ihj h.1.2, ihl h.2⟩

theorem generic_eq_self_iff (j : Json) : j.generic = j ↔ j.Stable := ⟨stable_of_generic j, generic_of_stable j⟩

/-! ## How texts begin and go on -/

def isDigit (c : UInt8) : Bool := 48 ≤ c && c ≤ 57

def Delimited (x : Bytes) : Prop := ∀ c ∈ x.head?, isDigit c = false

theorem delimited_nil : Delimited [] := by simp [Delimited]

theorem delimited_cons {c : UInt8} (h : isDigit c = false) (x : Bytes) : Delimited (c :: x) := by simpa [Delimited] using h

theorem isDigit_ofNat {d : Nat} (h : d < 10) : isDigit (UInt8.ofNat (48 + d)) = true := by
  interval_cases d <;> rfl

theorem decimal_digits (n : Nat) : ∀ c ∈ decimal n, isDigit c = true := by
  unfold decimal
  split_ifs with h
  · simp [isDigit]
  · intro c hc
    simp only [mem_map, mem_reverse] at hc
    obtain ⟨d, hd, rfl⟩ := hc
    exact isDigit_ofNat (Nat.digits_lt_base (by decide) hd)

theorem decimal_ne_nil (n : Nat) : decimal n ≠ [] := by
  unfold decimal
  split_ifs with h
  · simp
  · simpa using Nat.digits_ne_nil_iff_ne_zero.2 h

def kind : Json → Nat
  | .null => 0
  | .bool _ => 1
  | .num _ => 2
  | .str _ => 3
  | .arr _ => 4
  | .obj _ => 5

def kindOfHead (c : UInt8) : Option Nat :=
  if c = 110 then some 0 else if c = 116 then some 1 else if c = 102 then some 1 else if c = 34 then some 3
  else if c = 91 then some 4 else if c = 123 then some 5 else if c = 45 || isDigit c then some 2 else none

theorem render_head (j : Json) : ∃ c x, render j = c :: x ∧ kindOfHead c = some (kind j) := by
  cases j with
  | null => exact ⟨_, _, rfl, rfl⟩
  | bool b => cases b <;> exact ⟨_, _, rfl, rfl⟩
  | num n =>
    rw [render]
    unfold renderInt
    split_ifs with h
    · exact ⟨45, _, rfl, rfl⟩
    · cases hd : decimal n.natAbs with
      | nil => exact absurd hd (decimal_ne_nil _)
      | cons c cs =>
        have hdigit := decimal_digits n.natAbs c (by rw [hd]; exact mem_cons_self)
        have hne : ∀ b, isDigit b = false → c ≠ b := by
          intro b hb hcb
          rw [hcb, hb] at hdigit
          exact absurd hdigit (by decide)
        refine ⟨c, cs, rfl, ?_⟩
        simp [kindOfHead, kind, hdigit, hne 110 rfl, hne 116 rfl, hne 102 rfl, hne 34 rfl, hne 91 rfl, hne 123 rfl]
  | str s => exact ⟨_, _, rfl, rfl⟩
  | arr l => cases l <;> exact ⟨_, _, rfl, rfl⟩
  | obj l => rcases l with _ | ⟨⟨k, j⟩, l⟩ <;> exact ⟨_, _, rfl, rfl⟩

theorem render_ne_cons (j : Json) {c : UInt8} (hc : kindOfHead c = none) (x y : Bytes) : render j ++ x ≠ c :: y := by
  obtain ⟨d, t, ht, hd⟩ := render_head j
  intro h
  rw [ht, cons_append, List.cons.injEq] at h
  rw [h.1, hc] at hd
  exact absurd hd (by simp)

theorem delimited_renderElems (l : List Json) (x : Bytes) : Delimited (renderElems l ++ x) := by
  cases l <;> exact delimited_cons rfl _

theorem delimited_renderFields (l : List (PlainText × Json)) (x : Bytes) : Delimited (renderFields l ++ x) := by
  rcases l with _ | ⟨⟨k, j⟩, l⟩ <;> exact delimited_cons rfl _

/-! ## Records -/

def fieldName (cs : List Char) : PlainText := ⟨(ascii cs).filter isPlain, List.all_eq_true.2 fun _ h => (List.mem_filter.1 h).2⟩

def record (fields : List (PlainText × Option Json)) : Json :=
  .obj (fields.filterMap (fun e => e.2.map (fun j => (e.1, j))))

def field? (k : PlainText) : Json → Option Json
  | .obj l => l.lookup k
  | _ => none

def readField {α : Type} (zero : α) (dec : Json → Option α) (k : PlainText) (j : Json) : Option α :=
  match j.field? k with
  | none => some zero
  | some v => dec v

theorem field?_record {fields : List (PlainText × Option Json)} (hnodup : (fields.map Prod.fst).Nodup) {i : Nat}
    {k : PlainText} {v : Option Json} (hi : fields[i]? = some (k, v)) : (record fields).field? k = v := by
  simp only [record, field?]
  induction fields generalizing i with
  | nil => simp at hi
  | cons e fields ih =>
    obtain ⟨k', v'⟩ := e
    obtain ⟨hnot, hrest⟩ := nodup_cons.1 hnodup
    cases i with
    | zero =>
      obtain ⟨rfl, rfl⟩ : k' = k ∧ v' = v := by simpa using hi
      cases v' with
      | none =>
        simp only [filterMap_cons_none, Option.map_none, lookup_eq_none_iff]
        intro e he
        obtain ⟨e', he', heq⟩ := mem_filterMap.1 he
        obtain ⟨j, _, rfl⟩ := Option.map_eq_some_iff.1 heq
        rw [bne_iff_ne]
        exact fun h => hnot (mem_map.2 ⟨e', he', h.symm⟩)
      | some j => simp
    | succ i =>
      rw [List.getElem?_cons_succ] at hi
      have hk : k ≠ k' := fun h => hnot (mem_map.2 ⟨(k, v), mem_of_getElem? hi, h⟩)
      have hbeq : (k == k') = false := beq_eq_false_iff_ne.2 hk
      cases v' with
      | none => simpa using ih hrest hi
      | some j => simpa [lookup_cons, hbeq] using ih hrest hi

theorem readField_record {fields : List (PlainText × Option Json)} (hnodup : (fields.map Prod.fst).Nodup) (i : Nat)
    {k : PlainText} {v : Option Json} (hi : fields[i]? = some (k, v)) {α : Type} {zero a : α} {dec : Json → Option α}
    (hv : v.elim (some zero) dec = some a) : readField zero dec k (record fields) = some a := by
  rw [readField, field?_record hnodup hi]
  cases v with
  | none => rw [← hv, Option.elim_none]
  | some j => rw [← hv, Option.elim_some]

end Json
