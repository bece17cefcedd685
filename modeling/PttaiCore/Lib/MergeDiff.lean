import Mathlib.Data.List.Basic
import Mathlib.Data.List.Forall2
import Mathlib.Data.List.Sort
import Mathlib.Order.Lattice

/-! # Comparing two lists by a merge -/

inductive MergeVerdict where
  /-- The head of the first list comes first. -/
  | left
  /-- The head of the second list comes first. -/
  | right
  /-- The heads are counterparts; the flags say whether the first is new for the second side, and the other way round. -/
  | both (newLeft newRight : Bool)
  deriving DecidableEq

section merge

open List

variable {α : Type*} (verdict : α → α → MergeVerdict)

def mergeDiffCons (x : α) (xs : List α) (rest : List α → List α × List α) : List α → List α × List α
  | [] => ([], x :: xs)
  | y :: ys =>
    match verdict x y with
    | .left => ((rest (y :: ys)).1, x :: (rest (y :: ys)).2)
    | .right => (y :: (mergeDiffCons x xs rest ys).1, (mergeDiffCons x xs rest ys).2)
    | .both newLeft newRight =>
      ((if newRight then [y] else []) ++ (rest ys).1, (if newLeft then [x] else []) ++ (rest ys).2)

def mergeDiff : List α → List α → List α × List α
  | [], ys => (ys, [])
  | x :: xs, ys => mergeDiffCons verdict x xs (mergeDiff xs) ys

@[simp] theorem mergeDiff_nil_left (ys : List α) : mergeDiff verdict [] ys = (ys, []) := rfl

@[simp] theorem mergeDiff_nil_right (xs : List α) : mergeDiff verdict xs [] = ([], xs) := by cases xs <;> rfl

theorem mergeDiff_cons_cons (x y : α) (xs ys : List α) : mergeDiff verdict (x :: xs) (y :: ys) =
    match verdict x y with
    | .left => ((mergeDiff verdict xs (y :: ys)).1, x :: (mergeDiff verdict xs (y :: ys)).2)
    | .right => (y :: (mergeDiff verdict (x :: xs) ys).1, (mergeDiff verdict (x :: xs) ys).2)
    | .both newLeft newRight =>
      ((if newRight then [y] else []) ++ (mergeDiff verdict xs ys).1, (if newLeft then [x] else []) ++ (mergeDiff verdict xs ys).2) := rfl

theorem mergeDiff_induction {P : List α → List α → List α × List α → Prop} (nil_left : ∀ ys, P [] ys (ys, []))
    (nil_right : ∀ x xs, P (x :: xs) [] ([], x :: xs))
    (left : ∀ x xs y ys r, verdict x y = .left → P xs (y :: ys) r → P (x :: xs) (y :: ys) (r.1, x :: r.2))
    (right : ∀ x xs y ys r, verdict x y = .right → P (x :: xs) ys r → P (x :: xs) (y :: ys) (y :: r.1, r.2))
    (both : ∀ x xs y ys r a b, verdict x y = .both a b → P xs ys r →
      P (x :: xs) (y :: ys) ((if b then [y] else []) ++ r.1, (if a then [x] else []) ++ r.2))
    (xs ys : List α) : P xs ys (mergeDiff verdict xs ys) := by
  induction xs generalizing ys with
  | nil => exact nil_left ys
  | cons x xs ihx =>
    induction ys with
    | nil => exact nil_right x xs
    | cons y ys ihy =>
      rw [mergeDiff_cons_cons]
      cases hv : verdict x y with
      | left => exact left x xs y ys _ hv (ihx (y :: ys))
      | right => exact right x xs y ys _ hv ihy
      | both a b => exact both x xs y ys _ a b hv (ihx ys)

variable {verdict}

theorem mergeDiff_sublist (xs ys : List α) : (mergeDiff verdict xs ys).1.Sublist ys ∧ (mergeDiff verdict xs ys).2.Sublist xs := by
  refine mergeDiff_induction verdict (P := fun xs ys r => r.1.Sublist ys ∧ r.2.Sublist xs) ?_ ?_ ?_ ?_ ?_ xs ys
  · exact fun ys => ⟨List.Sublist.refl _, List.Sublist.refl _⟩
  · exact fun x xs => ⟨List.Sublist.refl _, List.Sublist.refl _⟩
  · exact fun x xs y ys r _ ih => ⟨ih.1, ih.2.cons_cons x⟩
  · exact fun x xs y ys r _ ih => ⟨ih.1.cons_cons y, ih.2⟩
  · intro x xs y ys r a b _ ih
    refine ⟨?_, ?_⟩
    · cases b
      · exact ih.1.cons y
      · exact ih.1.cons_cons y
    · cases a
      · exact ih.2.cons x
      · exact ih.2.cons_cons x

theorem mergeDiff_subset (xs ys : List α) : (mergeDiff verdict xs ys).1 ⊆ ys ∧ (mergeDiff verdict xs ys).2 ⊆ xs :=
  ⟨(mergeDiff_sublist xs ys).1.subset, (mergeDiff_sublist xs ys).2.subset⟩

theorem mem_snd_of_forall {z : α} (xs ys : List α) (hz : z ∈ xs) (h : ∀ y ∈ ys, ∀ b, verdict z y ≠ .both false b) :
    z ∈ (mergeDiff verdict xs ys).2 := by
  refine mergeDiff_induction verdict (P := fun xs ys r => z ∈ xs → (∀ y ∈ ys, ∀ b, verdict z y ≠ .both false b) → z ∈ r.2)
    ?_ ?_ ?_ ?_ ?_ xs ys hz h
  · exact fun ys hz => absurd hz not_mem_nil
  · exact fun x xs hz _ => hz
  · intro x xs y ys r _ ih hz h
    rcases mem_cons.1 hz with rfl | hz
    · exact .head _
    · exact mem_cons_of_mem x (ih hz h)
  · exact fun x xs y ys r _ ih hz h => ih hz fun y' hy' => h y' (mem_cons_of_mem y hy')
  · intro x xs y ys r a b hv ih hz h
    rcases mem_cons.1 hz with rfl | hz
    · cases a with
      | false => exact absurd hv (h y (.head _) b)
      | true => exact mem_append_left _ mem_cons_self
    · exact mem_append_right _ (ih hz fun y' hy' => h y' (mem_cons_of_mem y hy'))

theorem mem_fst_of_forall {z : α} (xs ys : List α) (hz : z ∈ ys) (h : ∀ x ∈ xs, ∀ a, verdict x z ≠ .both a false) :
    z ∈ (mergeDiff verdict xs ys).1 := by
  refine mergeDiff_induction verdict (P := fun xs ys r => z ∈ ys → (∀ x ∈ xs, ∀ a, verdict x z ≠ .both a false) → z ∈ r.1)
    ?_ ?_ ?_ ?_ ?_ xs ys hz h
  · exact fun ys hz _ => hz
  · exact fun x xs hz => absurd hz not_mem_nil
  · exact fun x xs y ys r _ ih hz h => ih hz fun x' hx' => h x' (mem_cons_of_mem x hx')
  · intro x xs y ys r _ ih hz h
    rcases mem_cons.1 hz with rfl | hz
    · exact .head _
    · exact mem_cons_of_mem y (ih hz h)
  · intro x xs y ys r a b hv ih hz h
    rcases mem_cons.1 hz with rfl | hz
    · cases b with
      | false => exact absurd hv (h x (.head _) a)
      | true => exact mem_append_left _ mem_cons_self
    · exact mem_append_right _ (ih hz fun x' hx' => h x' (mem_cons_of_mem x hx'))

theorem mergeDiff_eq_nil_iff (xs ys : List α) :
    ((mergeDiff verdict xs ys).1 = [] ∧ (mergeDiff verdict xs ys).2 = []) ↔
      List.Forall₂ (fun x y => verdict x y = .both false false) xs ys := by
  refine mergeDiff_induction verdict
    (P := fun xs ys r => (r.1 = [] ∧ r.2 = []) ↔ List.Forall₂ (fun x y => verdict x y = .both false false) xs ys) ?_ ?_ ?_ ?_ ?_ xs ys
  · intro ys
    rw [forall₂_nil_left_iff]
    exact ⟨And.left, fun h => ⟨h, rfl⟩⟩
  · intro x xs
    rw [forall₂_nil_right_iff]
    exact ⟨And.right, fun h => ⟨rfl, h⟩⟩
  · intro x xs y ys r hv _
    rw [forall₂_cons, hv]
    exact ⟨fun h => absurd h.2 (cons_ne_nil _ _), fun h => (by cases h.1)⟩
  · intro x xs y ys r hv _
    rw [forall₂_cons, hv]
    exact ⟨fun h => absurd h.1 (cons_ne_nil _ _), fun h => (by cases h.1)⟩
  · intro x xs y ys r a b hv ih
    rw [forall₂_cons, hv, append_eq_nil_iff, append_eq_nil_iff, MergeVerdict.both.injEq, ← ih]
    cases a <;> cases b <;> simp

def MergeVerdict.swap : MergeVerdict → MergeVerdict
  | .left => .right
  | .right => .left
  | .both a b => .both b a

theorem mergeDiff_swap (h : ∀ x y, verdict y x = (verdict x y).swap) (xs ys : List α) :
    mergeDiff verdict ys xs = (mergeDiff verdict xs ys).swap := by
  refine mergeDiff_induction verdict (P := fun xs ys r => mergeDiff verdict ys xs = r.swap) ?_ ?_ ?_ ?_ ?_ xs ys
  · exact fun ys => mergeDiff_nil_right verdict ys
  · exact fun x xs => rfl
  · intro x xs y ys r hv ih
    rw [mergeDiff_cons_cons, h, hv, ih]
    rfl
  · intro x xs y ys r hv ih
    rw [mergeDiff_cons_cons, h, hv, ih]
    rfl
  · intro x xs y ys r a b hv ih
    rw [mergeDiff_cons_cons, h, hv, ih]
    rfl

theorem mergeDiff_map {β : Type*} (f : β → α) (xs ys : List β) :
    mergeDiff verdict (xs.map f) (ys.map f) = (mergeDiff (fun x y => verdict (f x) (f y)) xs ys).map (List.map f) (List.map f) := by
  refine mergeDiff_induction (fun x y => verdict (f x) (f y))
    (P := fun xs ys r => mergeDiff verdict (xs.map f) (ys.map f) = r.map (List.map f) (List.map f)) ?_ ?_ ?_ ?_ ?_ xs ys
  · exact fun ys => rfl
  · exact fun x xs => rfl
  · intro x xs y ys r hv ih
    rw [map_cons] at ih
    rw [map_cons, map_cons, mergeDiff_cons_cons, hv, ih]
    rfl
  · intro x xs y ys r hv ih
    rw [map_cons] at ih
    rw [map_cons, map_cons, mergeDiff_cons_cons, hv, ih]
    rfl
  · intro x xs y ys r a b hv ih
    rw [map_cons, map_cons, mergeDiff_cons_cons, hv, ih]
    cases a <;> cases b <;> rfl

end merge

/-! ## Keys in order -/

section keys

open List

variable {α κ : Type*} [LinearOrder κ]

structure MergeVerdict.Follows (verdict : α → α → MergeVerdict) (key : α → κ) : Prop where
  left : ∀ x y, verdict x y = .left → key x < key y
  right : ∀ x y, verdict x y = .right → key y < key x
  both : ∀ x y a b, verdict x y = .both a b → key x = key y

variable {verdict : α → α → MergeVerdict} {key : α → κ}

theorem not_mem_snd_of_known (hv : MergeVerdict.Follows verdict key) {xs ys : List α} (hxs : xs.Pairwise (key · < key ·))
    (hys : ys.Pairwise (key · < key ·)) {x y : α} {b : Bool} (hx : x ∈ xs) (hy : y ∈ ys) (hknown : verdict x y = .both false b) :
    x ∉ (mergeDiff verdict xs ys).2 := by
  have hxy : key x = key y := hv.both x y false b hknown
  refine (mergeDiff_induction verdict (P := fun xs ys r => r.2 ⊆ xs ∧
    (xs.Pairwise (key · < key ·) → ys.Pairwise (key · < key ·) → x ∈ xs → y ∈ ys → x ∉ r.2)) ?_ ?_ ?_ ?_ ?_ xs ys).2 hxs hys hx hy
  · exact fun ys => ⟨List.Subset.refl _, fun _ _ hx _ => absurd hx not_mem_nil⟩
  · exact fun x' xs => ⟨List.Subset.refl _, fun _ _ _ hy => absurd hy not_mem_nil⟩
  · intro x' xs y' ys r hleft ih
    refine ⟨cons_subset_cons x' ih.1, fun hxs hys hx hy => ?_⟩
    -- the first head is smaller than every key of the other list
    have hlt : key x' < key x := by
      rw [hxy]
      rcases mem_cons.1 hy with rfl | hy
      · exact hv.left _ _ hleft
      · exact (hv.left _ _ hleft).trans (rel_of_pairwise_cons hys hy)
    rw [mem_cons, not_or]
    rcases mem_cons.1 hx with rfl | hx
    · exact absurd hlt (lt_irrefl _)
    · exact ⟨fun heq => absurd (heq ▸ hlt) (lt_irrefl _), ih.2 hxs.of_cons hys hx hy⟩
  · intro x' xs y' ys r hright ih
    refine ⟨ih.1, fun hxs hys hx hy => ?_⟩
    have hlt : key y' < key y := by
      rw [← hxy]
      rcases mem_cons.1 hx with rfl | hx
      · exact hv.right _ _ hright
      · exact (hv.right _ _ hright).trans (rel_of_pairwise_cons hxs hx)
    rcases mem_cons.1 hy with rfl | hy
    · exact absurd hlt (lt_irrefl _)
    · exact ih.2 hxs hys.of_cons hx hy
  · intro x' xs y' ys r a b' hboth ih
    have hsub : ((if a then [x'] else []) ++ r.2) ⊆ x' :: xs :=
      append_subset.2 ⟨by cases a <;> simp, fun z hz => mem_cons_of_mem x' (ih.1 hz)⟩
    refine ⟨hsub, fun hxs hys hx hy => ?_⟩
    have heq : key x' = key y' := hv.both _ _ _ _ hboth
    rcases mem_cons.1 hx with rfl | hx
    · rcases mem_cons.1 hy with rfl | hy
      · -- the heads are the two counterparts
        rw [hknown] at hboth
        cases hboth
        exact fun hmem => lt_irrefl _ (rel_of_pairwise_cons hxs (ih.1 hmem))
      · exact absurd (heq.symm.trans hxy) (rel_of_pairwise_cons hys hy).ne
    · have hlt := rel_of_pairwise_cons hxs hx
      rcases mem_cons.1 hy with rfl | hy
      · exact absurd (heq.trans hxy.symm) hlt.ne
      · rw [mem_append, not_or]
        refine ⟨fun hmem => ?_, ih.2 hxs.of_cons hys.of_cons hx hy⟩
        cases a with
        | false => cases hmem
        | true => exact absurd (mem_singleton.1 hmem ▸ hlt) (lt_irrefl _)

theorem not_mem_fst_of_known (hv : MergeVerdict.Follows verdict key) (hswap : ∀ x y, verdict y x = (verdict x y).swap) {xs ys : List α}
    (hxs : xs.Pairwise (key · < key ·)) (hys : ys.Pairwise (key · < key ·)) {x y : α} {a : Bool} (hx : x ∈ xs) (hy : y ∈ ys)
    (hknown : verdict x y = .both a false) : y ∉ (mergeDiff verdict xs ys).1 := by
  have hknown' : verdict y x = .both false a := by rw [hswap, hknown]; rfl
  have hnot := not_mem_snd_of_known hv hys hxs hy hx hknown'
  rwa [mergeDiff_swap hswap] at hnot

def keyVerdict (x y : κ) : MergeVerdict := if x < y then .left else if y < x then .right else .both false false

theorem keyVerdict_self (x : κ) : keyVerdict x x = .both false false := by simp [keyVerdict]

theorem keyVerdict_swap (x y : κ) : keyVerdict y x = (keyVerdict x y).swap := by
  unfold keyVerdict
  rcases lt_trichotomy x y with h | rfl | h
  · simp [h, h.not_gt, MergeVerdict.swap]
  · simp [MergeVerdict.swap]
  · simp [h, h.not_gt, MergeVerdict.swap]

theorem keyVerdict_follows : MergeVerdict.Follows (keyVerdict (κ := κ)) fun x => x := by
  refine ⟨fun x y h => ?_, fun x y h => ?_, fun x y a b h => ?_⟩ <;> unfold keyVerdict at h <;> split_ifs at h with h1 h2
  · exact h1
  · exact h2
  · exact le_antisymm (not_lt.1 h2) (not_lt.1 h1)

theorem mem_mergeDiff_keys {xs ys : List κ} (hxs : xs.Pairwise (· < ·)) (hys : ys.Pairwise (· < ·)) (z : κ) :
    (z ∈ (mergeDiff keyVerdict xs ys).1 ↔ z ∈ ys ∧ z ∉ xs) ∧ (z ∈ (mergeDiff keyVerdict xs ys).2 ↔ z ∈ xs ∧ z ∉ ys) := by
  have hsub : (mergeDiff keyVerdict xs ys).1 ⊆ ys ∧ (mergeDiff keyVerdict xs ys).2 ⊆ xs := mergeDiff_subset xs ys
  obtain ⟨hsub1, hsub2⟩ := hsub
  refine ⟨⟨fun hz => ⟨hsub1 hz, fun hx => ?_⟩, fun h => ?_⟩, ⟨fun hz => ⟨hsub2 hz, fun hy => ?_⟩, fun h => ?_⟩⟩
  · exact not_mem_fst_of_known keyVerdict_follows keyVerdict_swap hxs hys hx (hsub1 hz) (keyVerdict_self z) hz
  · exact mem_fst_of_forall xs ys h.1 fun x hx a hv => h.2 (keyVerdict_follows.both x z a false hv ▸ hx)
  · exact not_mem_snd_of_known keyVerdict_follows hxs hys (hsub2 hz) hy (keyVerdict_self z) hz
  · exact mem_snd_of_forall xs ys h.1 fun y hy b hv => h.2 (keyVerdict_follows.both z y false b hv ▸ hy)

theorem mergeDiff_keys_eq_filter {xs ys : List κ} (hxs : xs.Pairwise (· < ·)) (hys : ys.Pairwise (· < ·)) {p q : κ → Bool}
    (hp : ∀ z, p z = true ↔ z ∉ xs) (hq : ∀ z, q z = true ↔ z ∉ ys) : mergeDiff keyVerdict xs ys = (ys.filter p, xs.filter q) := by
  have hsub : (mergeDiff keyVerdict xs ys).1.Sublist ys ∧ (mergeDiff keyVerdict xs ys).2.Sublist xs := mergeDiff_sublist xs ys
  obtain ⟨hsub1, hsub2⟩ := hsub
  have hmem := mem_mergeDiff_keys hxs hys
  refine Prod.ext ?_ ?_
  · refine (hys.sublist hsub1).eq_of_mem_iff (hys.filter _) fun z => ?_
    rw [(hmem z).1, mem_filter, hp]
  · refine (hxs.sublist hsub2).eq_of_mem_iff (hxs.filter _) fun z => ?_
    rw [(hmem z).2, mem_filter, hq]

end keys

/-! ## Halving -/

def bisectFrom (p : Nat → Bool) : Nat → Nat → Nat → Nat
  | 0, i, _ => i
  | fuel + 1, i, j => if i < j then if p ((i + j) / 2) then bisectFrom p fuel i ((i + j) / 2) else bisectFrom p fuel ((i + j) / 2 + 1) j else i

def bisect (n : Nat) (p : Nat → Bool) : Nat := bisectFrom p n 0 n

theorem bisectFrom_spec {n : Nat} {p : Nat → Bool} (hmono : ∀ i j, i ≤ j → j < n → p i = true → p j = true) (fuel i j : Nat) (hij : i ≤ j)
    (hj : j ≤ n) (hfuel : j - i ≤ fuel) (hlow : ∀ k < i, p k = false) (hhigh : ∀ k, j ≤ k → k < n → p k = true) :
    bisectFrom p fuel i j ≤ n ∧ (∀ k < bisectFrom p fuel i j, p k = false) ∧ ∀ k, bisectFrom p fuel i j ≤ k → k < n → p k = true := by
  induction fuel generalizing i j with
  | zero =>
    rw [bisectFrom]
    exact ⟨hij.trans hj, hlow, fun k hk => hhigh k (by omega)⟩
  | succ fuel ih =>
    rw [bisectFrom]
    split_ifs with hlt hp
    · exact ih i _ (by omega) (by omega) (by omega) hlow fun k hk hkn => hmono _ k hk hkn hp
    · refine ih _ j (by omega) hj (by omega) (fun k hk => ?_) hhigh
      rw [← Bool.not_eq_true]
      exact fun hpk => hp (hmono k _ (by omega) (by omega) hpk)
    · exact ⟨hij.trans hj, hlow, fun k hk => hhigh k (by omega)⟩

theorem bisect_spec {n : Nat} {p : Nat → Bool} (hmono : ∀ i j, i ≤ j → j < n → p i = true → p j = true) :
    bisect n p ≤ n ∧ (∀ k < bisect n p, p k = false) ∧ ∀ k, bisect n p ≤ k → k < n → p k = true :=
  bisectFrom_spec hmono n 0 n (Nat.zero_le n) le_rfl (by omega) (fun k hk => absurd hk (Nat.not_lt_zero k))
    fun k hk hkn => absurd hkn (Nat.not_lt.2 hk)

theorem bisect_of_forall_not {n : Nat} {p : Nat → Bool} (h : ∀ i < n, p i = false) : bisect n p = n := by
  have hmono : ∀ i j, i ≤ j → j < n → p i = true → p j = true := fun i j hij hj hi => by
    rw [h i (hij.trans_lt hj)] at hi
    cases hi
  obtain ⟨hle, -, hhigh⟩ := bisect_spec hmono
  refine hle.antisymm (Nat.le_of_not_lt fun hlt => ?_)
  have htrue := hhigh _ le_rfl hlt
  rw [h _ hlt] at htrue
  cases htrue

theorem take_bisect {α : Type*} {p : α → Bool} {l : List α} (hmono : l.Pairwise fun a b => p a = true → p b = true) :
    l.take (bisect l.length fun i => l[i]?.elim false p) = l.takeWhile fun a => !p a := by
  have hget : ∀ i (hi : i < l.length), (l[i]?.elim false p) = p l[i] := fun i hi => by rw [List.getElem?_eq_getElem hi]; rfl
  obtain ⟨hle, hlow, hhigh⟩ := bisect_spec (n := l.length) (p := fun i => l[i]?.elim false p) fun i j hij hj hi => by
    rcases hij.eq_or_lt with rfl | hlt
    · exact hi
    · rw [hget i (hij.trans_lt hj)] at hi
      rw [hget j hj]
      exact List.pairwise_iff_getElem.1 hmono i j (hij.trans_lt hj) hj hlt hi
  generalize bisect l.length (fun i => l[i]?.elim false p) = r at hle hlow hhigh
  have hbefore : ∀ a ∈ l.take r, (!p a) = true := by
    intro a ha
    obtain ⟨k, hk, rfl⟩ := List.mem_take_iff_getElem.1 ha
    have hlt : k < r ∧ k < l.length := ⟨by omega, by omega⟩
    rw [← hget k hlt.2, hlow k hlt.1]
    rfl
  have hafter : (l.drop r).takeWhile (fun a => !p a) = [] := by
    rcases hle.eq_or_lt with rfl | hlt
    · rw [List.drop_length]
      rfl
    · rw [List.drop_eq_getElem_cons hlt, List.takeWhile_cons, ← hget r hlt, hhigh r le_rfl hlt]
      rfl
  conv_rhs => rw [← List.take_append_drop r l]
  rw [List.takeWhile_append_of_pos hbefore, hafter, List.append_nil]
