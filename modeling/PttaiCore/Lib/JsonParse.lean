import PttaiCore.Lib.Json

/-! # Reading the text of a JSON tree -/

namespace Json

open List

/-! ## Numbers, strings and words -/

def ofDecimal (ds : Bytes) : Nat := Nat.ofDigits 10 (ds.reverse.map fun c => c.toNat - 48)

variable (b : Bytes) (n : Nat) {x : Bytes} (j : Json)

def parseNat : Option (Nat × Bytes) :=
  if decimal (ofDecimal (b.takeWhile isDigit)) = b.takeWhile isDigit then some (ofDecimal (b.takeWhile isDigit), b.dropWhile isDigit)
  else none

def parseInt : Option (Int × Bytes) :=
  if b.head? = some 45 then (parseNat b.tail).map fun r => (-(r.1 : Int), r.2) else (parseNat b).map fun r => ((r.1 : Int), r.2)

def parseStr : Option (PlainText × Bytes) :=
  if b.head? = some 34 ∧ (b.tail.dropWhile isPlain).head? = some 34 then
    some (⟨b.tail.takeWhile isPlain, List.all_takeWhile⟩, (b.tail.dropWhile isPlain).tail)
  else none

def parseWord (w b : Bytes) : Option Bytes := if w.isPrefixOf b then some (b.drop w.length) else none

/-! ## Values -/

mutual
def parseValue : Nat → Bytes → Option (Json × Bytes)
  | 0, _ => none
  | n + 1, b =>
    match b.head?.bind kindOfHead with
    | some 0 => (parseWord (render .null) b).map fun r => (.null, r)
    | some 1 =>
      match parseWord (render (.bool true)) b with
      | some r => some (.bool true, r)
      | none => (parseWord (render (.bool false)) b).map fun r => (.bool false, r)
    | some 2 => (parseInt b).map fun r => (.num r.1, r.2)
    | some 3 => (parseStr b).map fun r => (.str r.1, r.2)
    | some 4 =>
      if b.tail.head? = some 93 then some (.arr [], b.tail.tail)
      else match parseValue n b.tail with
        | none => none
        | some (j, r) => (parseElems n r).map fun r => (.arr (j :: r.1), r.2)
    | some 5 =>
      if b.tail.head? = some 125 then some (.obj [], b.tail.tail)
      else match parseField n b.tail with
        | none => none
        | some (f, r) => (parseFields n r).map fun r => (.obj (f :: r.1), r.2)
    | _ => none
def parseElems : Nat → Bytes → Option (List Json × Bytes)
  | 0, _ => none
  | n + 1, b =>
    if b.head? = some 93 then some ([], b.tail)
    else if b.head? = some 44 then
      match parseValue n b.tail with
      | none => none
      | some (j, r) => (parseElems n r).map fun r => (j :: r.1, r.2)
    else none
def parseField : Nat → Bytes → Option ((PlainText × Json) × Bytes)
  | 0, _ => none
  | n + 1, b =>
    match parseStr b with
    | none => none
    | some (k, r) => if r.head? = some 58 then (parseValue n r.tail).map fun r => ((k, r.1), r.2) else none
def parseFields : Nat → Bytes → Option (List (PlainText × Json) × Bytes)
  | 0, _ => none
  | n + 1, b =>
    if b.head? = some 125 then some ([], b.tail)
    else if b.head? = some 44 then
      match parseField n b.tail with
      | none => none
      | some (f, r) => (parseFields n r).map fun r => (f :: r.1, r.2)
    else none
end

def parse : Option Json :=
  match parseValue b.length b with
  | some (j, []) => some j
  | _ => none

/-! ## Reading back -/

theorem ofDecimal_decimal : ofDecimal (decimal n) = n := by
  unfold decimal
  split_ifs with h
  · rw [h]
    rfl
  · have hdigits : ((Nat.digits 10 n).map fun d => (UInt8.ofNat (48 + d)).toNat - 48) = Nat.digits 10 n := by
      refine (map_congr_left fun d hd => ?_).trans (map_id _)
      have hlt := Nat.digits_lt_base (by norm_num) hd
      rw [UInt8.toNat_ofNat_of_lt' (by simp [UInt8.size]; omega)]
      simp
    rw [ofDecimal, ← map_reverse, reverse_reverse, map_map]
    exact (congrArg (Nat.ofDigits 10) hdigits).trans (Nat.ofDigits_digits 10 n)

theorem takeWhile_decimal (hx : Delimited x) : (decimal n ++ x).takeWhile isDigit = decimal n := by
  rw [takeWhile_append_of_pos (decimal_digits n)]
  cases x with
  | nil => simp
  | cons c x => simp [hx c (by simp)]

theorem dropWhile_decimal (hx : Delimited x) : (decimal n ++ x).dropWhile isDigit = x := by
  rw [dropWhile_append_of_pos (decimal_digits n)]
  cases x with
  | nil => simp
  | cons c x => simp [hx c (by simp)]

theorem parseNat_decimal (hx : Delimited x) : parseNat (decimal n ++ x) = some (n, x) := by
  rw [parseNat, takeWhile_decimal n hx, dropWhile_decimal n hx, ofDecimal_decimal, if_pos rfl]

theorem parseInt_renderInt (n : Int) (hx : Delimited x) : parseInt (renderInt n ++ x) = some (n, x) := by
  unfold renderInt
  split_ifs with h
  · have habs : -(n.natAbs : Int) = n := by omega
    rw [cons_append, parseInt, if_pos (by rfl), tail_cons, parseNat_decimal n.natAbs hx, Option.map_some, habs]
  · have habs : (n.natAbs : Int) = n := by omega
    have hhead : (decimal n.natAbs ++ x).head? ≠ some 45 := by
      cases hd : decimal n.natAbs with
      | nil => exact absurd hd (decimal_ne_nil _)
      | cons c cs =>
        have hdigit := decimal_digits n.natAbs c (by rw [hd]; exact mem_cons_self)
        rw [cons_append, List.head?_cons]
        rintro ⟨⟩
        exact absurd hdigit (by decide)
    rw [parseInt, if_neg hhead, parseNat_decimal n.natAbs hx, Option.map_some, habs]

theorem parseStr_renderStr (s : PlainText) (x : Bytes) : parseStr (renderStr s ++ x) = some (s, x) := by
  have hall : ∀ c ∈ s.1, isPlain c = true := all_eq_true.1 s.2
  have hquote : isPlain 34 = false := by decide
  have htake : (s.1 ++ 34 :: x).takeWhile isPlain = s.1 := by
    rw [takeWhile_append_of_pos hall, takeWhile_cons, hquote]
    simp
  have hdrop : (s.1 ++ 34 :: x).dropWhile isPlain = 34 :: x := by
    rw [dropWhile_append_of_pos hall, dropWhile_cons, hquote]
    rfl
  have htail : (renderStr s ++ x).tail = s.1 ++ 34 :: x := by simp [renderStr]
  have hcond : (renderStr s ++ x).head? = some 34 ∧ ((renderStr s ++ x).tail.dropWhile isPlain).head? = some 34 := by
    rw [htail, hdrop]
    exact ⟨rfl, rfl⟩
  rw [parseStr, if_pos hcond]
  simp only [htail, htake, hdrop, tail_cons]

theorem parseWord_append (w x : Bytes) : parseWord w (w ++ x) = some x := by
  rw [parseWord, if_pos (List.isPrefixOf_iff_prefix.2 (prefix_append w x)), drop_left]

theorem head_render (x : Bytes) : (render j ++ x).head?.bind kindOfHead = some (kind j) := by
  obtain ⟨c, r, hr, hc⟩ := render_head j
  rw [hr, cons_append, List.head?_cons, Option.bind_some, hc]

theorem length_render_pos : 0 < (render j).length := by
  obtain ⟨c, r, hr, -⟩ := render_head j
  rw [hr, length_cons]
  omega

theorem succ_of_render {j : Json} {n : Nat} (h : (render j).length ≤ n) : ∃ m, n = m + 1 :=
  ⟨n - 1, by have := length_render_pos j; omega⟩

theorem head_render_ne {c : UInt8} (hc : kindOfHead c = none) (x : Bytes) : (render j ++ x).head? ≠ some c := by
  intro h
  obtain ⟨y, hy⟩ : ∃ y, render j ++ x = c :: y := ⟨_, (List.head?_eq_some_iff.1 h).choose_spec⟩
  exact render_ne_cons j hc x y hy

theorem parseField_render {k : PlainText} {j : Json} {n : Nat} (hx : Delimited x)
    (ih : ∀ n x, (render j).length ≤ n → Delimited x → parseValue n (render j ++ x) = some (j, x)) (hn : (render j).length < n) :
    parseField n (renderStr k ++ 58 :: (render j ++ x)) = some ((k, j), x) := by
  obtain ⟨m, rfl⟩ : ∃ m, n = m + 1 := ⟨n - 1, by omega⟩
  rw [parseField, parseStr_renderStr]
  simp [ih m x (by omega) hx]

theorem parseValue_render : ∀ (n : Nat) (x : Bytes), (render j).length ≤ n → Delimited x →
    parseValue n (render j ++ x) = some (j, x) := by
  refine render.induct
    (fun j => ∀ (n : Nat) (x : Bytes), (render j).length ≤ n → Delimited x → parseValue n (render j ++ x) = some (j, x))
    (fun l => ∀ (n : Nat) (x : Bytes), (renderFields l).length ≤ n → parseFields n (renderFields l ++ x) = some (l, x))
    (fun l => ∀ (n : Nat) (x : Bytes), (renderElems l).length ≤ n → parseElems n (renderElems l ++ x) = some (l, x))
    ?null ?tt ?ff ?num ?str ?arrNil ?arrCons ?objNil ?objCons ?elemsNil ?elemsCons ?fieldsNil ?fieldsCons j
  case null =>
    intro n x hn _
    obtain ⟨m, rfl⟩ := succ_of_render hn
    rw [parseValue, head_render]
    simp only [kind]
    rw [parseWord_append, Option.map_some]
  case tt =>
    intro n x hn _
    obtain ⟨m, rfl⟩ := succ_of_render hn
    rw [parseValue, head_render]
    simp only [kind]
    rw [parseWord_append]
  case ff =>
    intro n x hn _
    obtain ⟨m, rfl⟩ := succ_of_render hn
    have htrue : parseWord (render (.bool true)) (render (.bool false) ++ x) = none := rfl
    rw [parseValue, head_render]
    simp only [kind]
    rw [htrue, parseWord_append]
    rfl
  case num =>
    intro i n x hn hx
    obtain ⟨m, rfl⟩ := succ_of_render hn
    rw [parseValue, head_render]
    simp only [kind]
    rw [render, parseInt_renderInt i hx, Option.map_some]
  case str =>
    intro s n x hn _
    obtain ⟨m, rfl⟩ := succ_of_render hn
    rw [parseValue, head_render]
    simp only [kind]
    rw [render, parseStr_renderStr, Option.map_some]
  case arrNil =>
    intro n x hn _
    obtain ⟨m, rfl⟩ := succ_of_render hn
    rw [parseValue, head_render]
    rfl
  case arrCons =>
    intro j l ihj ihl n x hn hx
    obtain ⟨m, rfl⟩ := succ_of_render hn
    rw [render, length_cons, length_append] at hn
    have htail : (render (.arr (j :: l)) ++ x).tail = render j ++ (renderElems l ++ x) := by simp [render]
    rw [parseValue, head_render]
    simp only [kind]
    rw [htail, if_neg (head_render_ne j (by decide) _), ihj m _ (by omega) (delimited_renderElems l x)]
    simp only [ihl m x (by omega), Option.map_some]
  case objNil =>
    intro n x hn _
    obtain ⟨m, rfl⟩ := succ_of_render hn
    rw [parseValue, head_render]
    rfl
  case objCons =>
    intro k j l ihj ihl n x hn hx
    obtain ⟨m, rfl⟩ := succ_of_render hn
    rw [render, length_cons, length_append, length_cons, length_append] at hn
    have htail : (render (.obj ((k, j) :: l)) ++ x).tail = renderStr k ++ 58 :: (render j ++ (renderFields l ++ x)) := by simp [render]
    have hquote : (renderStr k ++ 58 :: (render j ++ (renderFields l ++ x))).head? ≠ some 125 := by simp [renderStr]
    rw [parseValue, head_render]
    simp only [kind]
    rw [htail, if_neg hquote, parseField_render (delimited_renderFields l x) ihj (by omega)]
    simp only [ihl m x (by omega), Option.map_some]
  case elemsNil =>
    intro n x hn
    obtain ⟨m, rfl⟩ : ∃ m, n = m + 1 := ⟨n - 1, by simp [renderElems] at hn; omega⟩
    rfl
  case elemsCons =>
    intro j l ihj ihl n x hn
    rw [renderElems, length_cons, length_append] at hn
    obtain ⟨m, rfl⟩ : ∃ m, n = m + 1 := ⟨n - 1, by omega⟩
    have happ : renderElems (j :: l) ++ x = 44 :: (render j ++ (renderElems l ++ x)) := by simp [renderElems]
    rw [happ, parseElems]
    simp [ihj m _ (by omega) (delimited_renderElems l x), ihl m x (by omega)]
  case fieldsNil =>
    intro n x hn
    obtain ⟨m, rfl⟩ : ∃ m, n = m + 1 := ⟨n - 1, by simp [renderFields] at hn; omega⟩
    rfl
  case fieldsCons =>
    intro k j l ihj ihl n x hn
    rw [renderFields, length_cons, length_append, length_cons, length_append] at hn
    obtain ⟨m, rfl⟩ : ∃ m, n = m + 1 := ⟨n - 1, by omega⟩
    have happ : renderFields ((k, j) :: l) ++ x = 44 :: (renderStr k ++ 58 :: (render j ++ (renderFields l ++ x))) := by
      simp [renderFields]
    rw [happ, parseFields]
    simp [parseField_render (delimited_renderFields l x) ihj (show (render j).length < m by omega), ihl m x (by omega)]

theorem parse_render : parse (render j) = some j := by
  have h := parseValue_render j (render j).length [] le_rfl delimited_nil
  rw [append_nil] at h
  rw [parse, h]

theorem render_injective {a b : Json} (h : render a = render b) : a = b := by
  have hparse := parse_render a
  rw [h, parse_render b] at hparse
  exact (Option.some.inj hparse).symm

instance : DecidableEq Json := fun _ _ => decidable_of_iff _ ⟨render_injective, congrArg render⟩

end Json
