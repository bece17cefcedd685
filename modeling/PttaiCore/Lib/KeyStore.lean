import Mathlib.Order.Lattice
import Mathlib.Order.Basic
import Mathlib.Order.Defs.LinearOrder
import Mathlib.Data.List.Nodup
import Mathlib.Algebra.GroupWithZero.Nat

/-! # Ordered key-value stores -/

@[ext]
structure KeyStore (K : Type*) (V : Type*) [LinearOrder K] where
  /-- The entries, in key order. -/
  entries : List (K × V)
  /-- No key occurs twice and the entries are in key order. -/
  sorted : entries.Pairwise (fun a b => a.1 < b.1)

namespace KeyStore

open List

variable {K V : Type*} [LinearOrder K]

instance [DecidableEq V] : DecidableEq (KeyStore K V) := fun s t =>
  decidable_of_iff (s.entries = t.entries) ⟨fun h => KeyStore.ext h, fun h => h ▸ rfl⟩

def empty : KeyStore K V := ⟨[], List.Pairwise.nil⟩

variable (k : K) (s : KeyStore K V) {e : K × V} {es : List (K × V)} (ks : List K) (kvs : List (K × V))

def get (k : K) : Option V := (s.entries.find? (fun e => decide (e.1 = k))).map Prod.snd

def insertEntry (k : K) (v : V) : List (K × V) → List (K × V)
  | [] => [(k, v)]
  | e :: es => if k < e.1 then (k, v) :: e :: es else if k = e.1 then (k, v) :: es else e :: insertEntry k v es

theorem mem_insertEntry_imp {k : K} {v : V} (h : e ∈ insertEntry k v es) :
    e = (k, v) ∨ e ∈ es := by
  induction es with
  | nil => simpa [insertEntry] using h
  | cons a es ih =>
    simp only [insertEntry] at h
    split_ifs at h
    · simpa using h
    · simp only [mem_cons] at h ⊢; tauto
    · simp only [mem_cons] at h ⊢
      rcases h with h | h
      · exact .inr (.inl h)
      · rcases ih h with h | h
        · exact .inl h
        · exact .inr (.inr h)

theorem insertEntry_sorted (v : V) (h : es.Pairwise (fun a b => a.1 < b.1)) :
    (insertEntry k v es).Pairwise (fun a b => a.1 < b.1) := by
  induction es with
  | nil => simp [insertEntry]
  | cons a es ih =>
    obtain ⟨ha, hes⟩ := pairwise_cons.1 h
    simp only [insertEntry]
    split_ifs with h1 h2
    · refine pairwise_cons.2 ⟨fun e he => ?_, h⟩
      rcases mem_cons.1 he with rfl | he
      · exact h1
      · exact lt_trans h1 (ha e he)
    · exact pairwise_cons.2 ⟨fun e he => h2 ▸ ha e he, hes⟩
    · refine pairwise_cons.2 ⟨fun e he => ?_, ih hes⟩
      rcases mem_insertEntry_imp he with rfl | he
      · exact lt_of_le_of_ne (not_lt.1 h1) (Ne.symm h2)
      · exact ha e he

def put (k : K) (v : V) : KeyStore K V := ⟨insertEntry k v s.entries, insertEntry_sorted k v s.sorted⟩

def delete (k : K) : KeyStore K V :=
  ⟨s.entries.filter (fun e => decide (e.1 ≠ k)), s.sorted.filter _⟩

def select (p : K → Bool) : List (K × V) := s.entries.filter (fun e => p e.1)

def range (lo hi : K) : List (K × V) := s.select (fun k => decide (lo ≤ k ∧ k < hi))

def deleteAll : KeyStore K V := ks.foldl delete s

def putAll : KeyStore K V := kvs.foldl (fun s e => s.put e.1 e.2) s

/-! ## Reading back -/

theorem get_eq_some_iff {s : KeyStore K V} {k : K} {v : V} : s.get k = some v ↔ (k, v) ∈ s.entries := by
  obtain ⟨es, hs⟩ := s
  simp only [get]
  induction es with
  | nil => simp
  | cons a es ih =>
    obtain ⟨ha, hes⟩ := pairwise_cons.1 hs
    by_cases hk : a.1 = k
    · have hnot : ∀ v', (k, v') ∉ es := fun v' hm => absurd (ha _ hm) (by rw [hk]; exact lt_irrefl _)
      obtain ⟨a1, a2⟩ := a
      simp only at hk
      subst hk
      simp [hnot, eq_comm]
    · rw [List.find?_cons_of_neg (by simpa using hk), ih hes, mem_cons]
      exact ⟨.inr, fun h => h.elim (fun h => absurd (h ▸ rfl) hk) id⟩

theorem get_eq_none_iff {s : KeyStore K V} {k : K} : s.get k = none ↔ ∀ v, (k, v) ∉ s.entries := by
  rw [Option.eq_none_iff_forall_ne_some]
  exact forall_congr' fun v => not_congr get_eq_some_iff

@[simp] theorem get_empty : (empty : KeyStore K V).get k = none := rfl

theorem entries_eq_of_mem_iff {l l' : List (K × V)} (hl : l.Pairwise (fun a b => a.1 < b.1))
    (hl' : l'.Pairwise (fun a b => a.1 < b.1)) (h : ∀ e, e ∈ l ↔ e ∈ l') : l = l' := by
  have nodup : ∀ {m : List (K × V)}, m.Pairwise (fun a b => a.1 < b.1) → m.Nodup := fun hm =>
    hm.imp fun hab heq => absurd (heq ▸ hab) (lt_irrefl _)
  exact ((perm_ext_iff_of_nodup (nodup hl) (nodup hl')).2 h).eq_of_pairwise
    (fun a b _ _ hab hba => absurd hab (lt_asymm hba)) hl hl'

theorem ext_get {s t : KeyStore K V} (h : ∀ k, s.get k = t.get k) : s = t := by
  apply KeyStore.ext
  refine entries_eq_of_mem_iff s.sorted t.sorted fun e => ?_
  rw [← get_eq_some_iff (s := s) (k := e.1) (v := e.2), ← get_eq_some_iff (s := t) (k := e.1) (v := e.2), h]

theorem mem_insertEntry {k : K} {v : V} (hs : es.Pairwise (fun a b => a.1 < b.1)) :
    e ∈ insertEntry k v es ↔ e = (k, v) ∨ e.1 ≠ k ∧ e ∈ es := by
  induction es with
  | nil => simp [insertEntry]
  | cons a es ih =>
    obtain ⟨ha, hes⟩ := pairwise_cons.1 hs
    simp only [insertEntry]
    split_ifs with h1 h2
    · simp only [mem_cons]
      have hne : ∀ e, e = a ∨ e ∈ es → e.1 ≠ k := by
        rintro e (rfl | he)
        · exact ne_of_gt h1
        · exact ne_of_gt (lt_trans h1 (ha e he))
      exact ⟨fun h => h.imp_right fun h => ⟨hne e h, h⟩, fun h => h.imp_right And.right⟩
    · simp only [mem_cons]
      have hne : ∀ e ∈ es, e.1 ≠ k := fun e he => ne_of_gt (h2 ▸ ha e he)
      constructor
      · rintro (h | h)
        · exact .inl h
        · exact .inr ⟨hne e h, .inr h⟩
      · rintro (h | ⟨h, rfl | h'⟩)
        · exact .inl h
        · exact absurd h2.symm h
        · exact .inr h'
    · simp only [mem_cons, ih hes]
      constructor
      · rintro (rfl | h | ⟨h, h'⟩)
        · exact .inr ⟨Ne.symm h2, .inl rfl⟩
        · exact .inl h
        · exact .inr ⟨h, .inr h'⟩
      · rintro (h | ⟨h, h' | h'⟩)
        · exact .inr (.inl h)
        · exact .inl h'
        · exact .inr (.inr ⟨h, h'⟩)

@[simp, grind =] theorem get_put (k k' : K) (v : V) :
    (s.put k v).get k' = if k' = k then some v else s.get k' := by
  apply Option.ext
  intro w
  rw [get_eq_some_iff, put, mem_insertEntry s.sorted]
  split_ifs with h
  · subst h
    simp [eq_comm]
  · rw [get_eq_some_iff]
    simp [h]

@[simp, grind =] theorem get_delete (k k' : K) :
    (s.delete k).get k' = if k' = k then none else s.get k' := by
  apply Option.ext
  intro w
  rw [get_eq_some_iff, delete]
  split_ifs with h
  · simp [h]
  · rw [get_eq_some_iff]
    simp [h]

theorem delete_put_of_get_eq_none {s : KeyStore K V} {k : K} (h : s.get k = none) (v : V) : (s.put k v).delete k = s := by
  apply ext_get
  intro k'
  rw [get_delete, get_put]
  split_ifs with hk
  · rw [hk, h]
  · rfl

theorem put_delete (k : K) (v : V) : (s.delete k).put k v = s.put k v := by
  refine ext_get fun k' => ?_
  rw [get_put, get_put, get_delete]
  split_ifs <;> rfl

@[simp] theorem get_deleteAll (k : K) :
    (s.deleteAll ks).get k = if k ∈ ks then none else s.get k := by
  unfold deleteAll
  induction ks generalizing s with
  | nil => simp
  | cons a ks ih =>
    rw [foldl_cons, ih, get_delete]
    by_cases h1 : k ∈ ks <;> by_cases h2 : k = a <;> simp [h1, h2]

theorem get_putAll_of_not_mem {s : KeyStore K V} {kvs : List (K × V)} {k : K} (h : k ∉ kvs.map Prod.fst) :
    (s.putAll kvs).get k = s.get k := by
  unfold putAll
  induction kvs generalizing s with
  | nil => rfl
  | cons a kvs ih =>
    simp only [map_cons, mem_cons, not_or] at h
    rw [foldl_cons, ih h.2, get_put, if_neg h.1]

theorem get_putAll_of_mem {s : KeyStore K V} {kvs : List (K × V)} {k : K} (h : k ∈ kvs.map Prod.fst) : (s.putAll kvs).get k ≠ none := by
  unfold putAll
  induction kvs generalizing s with
  | nil => cases h
  | cons a kvs ih =>
    rw [foldl_cons]
    by_cases hmem : k ∈ kvs.map Prod.fst
    · exact ih hmem
    · have hk : k = a.1 := (mem_cons.1 h).resolve_right hmem
      have hrest := get_putAll_of_not_mem (s := s.put a.1 a.2) hmem
      rw [putAll] at hrest
      rw [hrest, get_put, if_pos hk]
      exact Option.some_ne_none _

theorem get_putAll_ne_none {s : KeyStore K V} {k : K} (h : s.get k ≠ none) (kvs : List (K × V)) : (s.putAll kvs).get k ≠ none := by
  by_cases hmem : k ∈ kvs.map Prod.fst
  · exact get_putAll_of_mem hmem
  · rwa [get_putAll_of_not_mem hmem]

@[simp] theorem putAll_nil : s.putAll [] = s := rfl

@[simp] theorem putAll_cons (e : K × V) (kvs : List (K × V)) :
    s.putAll (e :: kvs) = (s.put e.1 e.2).putAll kvs := rfl

theorem putAll_entries (s : KeyStore K V)
    (h : (s.entries ++ kvs).Pairwise (fun a b => a.1 < b.1)) : (s.putAll kvs).entries = s.entries ++ kvs := by
  induction kvs generalizing s with
  | nil => simp
  | cons e kvs ih =>
    have hput : (s.put e.1 e.2).entries = s.entries ++ [e] := by
      have hlast : ∀ a ∈ s.entries, a.1 < e.1 := fun a ha =>
        (pairwise_append.1 h).2.2 a ha e mem_cons_self
      change insertEntry e.1 e.2 s.entries = _
      generalize s.entries = es at hlast
      induction es with
      | nil => rfl
      | cons a es ih' =>
        have ha := hlast a mem_cons_self
        rw [insertEntry, if_neg (not_lt.2 (le_of_lt ha)), if_neg (ne_of_gt ha),
          ih' fun b hb => hlast b (mem_cons_of_mem a hb), cons_append]
    rw [putAll_cons, ih, hput]
    · simp
    · rw [hput]
      simpa using h

def set (k : K) : Option V → KeyStore K V
  | some v => s.put k v
  | none => s.delete k

@[simp] theorem get_set (k k' : K) (o : Option V) : (s.set k o).get k' = if k' = k then o else s.get k' := by
  cases o with
  | none => exact get_delete s k k'
  | some v => exact get_put s k k' v

/-! ## Writes one after another -/

inductive Write (K V : Type*) where
  | put (k : K) (v : V)
  | delete (k : K)

def write : Write K V → KeyStore K V
  | .put k v => s.put k v
  | .delete k => s.delete k

def writeAll (ws : List (Write K V)) : KeyStore K V := ws.foldl write s

theorem writeAll_append (ws ws' : List (Write K V)) :
    s.writeAll (ws ++ ws') = (s.writeAll ws).writeAll ws' := foldl_append

theorem writeAll_delete : s.writeAll (ks.map .delete) = s.deleteAll ks := by
  unfold writeAll deleteAll
  rw [foldl_map]
  rfl

/-! ## Iterations -/

theorem mapM_eq_filterMap {α β : Type} {f : α → Option β} {l : List α} (h : ∀ a ∈ l, f a ≠ none) :
    l.mapM f = some (l.filterMap f) := by
  induction l with
  | nil => rfl
  | cons a l ih =>
    obtain ⟨b, hb⟩ := Option.ne_none_iff_exists'.1 (h a (.head _))
    simp [mapM_cons, hb, ih fun x hx => h x (mem_cons_of_mem a hx)]

theorem filterMap_of_mapM {α β : Type} {f : α → Option β} {l : List α} {r : List β} (h : l.mapM f = some r) : l.filterMap f = r := by
  induction l generalizing r with
  | nil => simpa using h
  | cons a l ih =>
    rw [mapM_cons] at h
    obtain ⟨b, hb, h⟩ := Option.bind_eq_some_iff.1 h
    obtain ⟨r', hr', h⟩ := Option.bind_eq_some_iff.1 h
    rw [filterMap_cons_some hb, ih hr']
    exact Option.some.inj h

theorem mem_select {s : KeyStore K V} {p : K → Bool} : e ∈ s.select p ↔ s.get e.1 = some e.2 ∧ p e.1 = true := by
  rw [get_eq_some_iff]
  simp [select]

theorem select_sorted (p : K → Bool) : (s.select p).Pairwise (fun a b => a.1 < b.1) :=
  s.sorted.filter _

theorem select_congr {s t : KeyStore K V} {p : K → Bool} (h : ∀ k, p k = true → s.get k = t.get k) :
    s.select p = t.select p := by
  refine entries_eq_of_mem_iff (select_sorted s p) (select_sorted t p) fun e => ?_
  rw [mem_select, mem_select]
  exact and_congr_left fun hp => by rw [h e.1 hp]

theorem mem_range {s : KeyStore K V} {lo hi : K} :
    e ∈ s.range lo hi ↔ s.get e.1 = some e.2 ∧ lo ≤ e.1 ∧ e.1 < hi := by
  simp [range, mem_select]

theorem range_sorted (lo hi : K) : (s.range lo hi).Pairwise (fun a b => a.1 < b.1) := select_sorted s _

theorem nodup_keys_range (lo hi : K) : ((s.range lo hi).map Prod.fst).Nodup :=
  pairwise_map.2 (List.Pairwise.imp (fun hlt => ne_of_lt hlt) (s.range_sorted lo hi))

theorem range_congr {s t : KeyStore K V} {lo hi : K} (h : ∀ k, lo ≤ k → k < hi → s.get k = t.get k) :
    s.range lo hi = t.range lo hi :=
  select_congr fun k hk => by
    obtain ⟨h1, h2⟩ := of_decide_eq_true hk
    exact h k h1 h2

theorem range_append {s : KeyStore K V} {lo mid hi : K} (h : lo ≤ mid) (h' : mid ≤ hi) :
    s.range lo mid ++ s.range mid hi = s.range lo hi := by
  refine entries_eq_of_mem_iff (pairwise_append.2 ⟨range_sorted s lo mid, range_sorted s mid hi, ?_⟩) (range_sorted s lo hi) fun e => ?_
  · intro a ha b hb
    exact (mem_range.1 ha).2.2.trans_le (mem_range.1 hb).2.1
  · rw [mem_append, mem_range, mem_range, mem_range]
    constructor
    · rintro (⟨hget, hlo, hhi⟩ | ⟨hget, hlo, hhi⟩)
      · exact ⟨hget, hlo, hhi.trans_le h'⟩
      · exact ⟨hget, h.trans hlo, hhi⟩
    · rintro ⟨hget, hlo, hhi⟩
      rcases lt_or_ge e.1 mid with hlt | hge
      · exact .inl ⟨hget, hlo, hlt⟩
      · exact .inr ⟨hget, hge, hhi⟩

theorem range_cons {s : KeyStore K V} {lo mid hi : K} {v : V} (hget : s.get lo = some v) (hlo : lo < mid) (hmid : mid ≤ hi)
    (hnext : ∀ k, lo < k → k < mid → s.get k = none) : s.range lo hi = (lo, v) :: s.range mid hi := by
  have hone : s.range lo mid = [(lo, v)] := by
    refine entries_eq_of_mem_iff (range_sorted s lo mid) (pairwise_singleton _ _) fun e => ?_
    rw [mem_range, mem_singleton]
    constructor
    · rintro ⟨he, hle, hlt⟩
      rcases hle.lt_or_eq with hlt' | heq
      · rw [hnext e.1 hlt' hlt] at he
        cases he
      · rw [← heq, hget] at he
        exact Prod.ext heq.symm (Option.some.inj he).symm
    · rintro rfl
      exact ⟨hget, le_rfl, hlo⟩
  rw [← range_append hlo.le hmid, hone]
  rfl

/-! ## Sums over a store -/

def sumOn (f : K → V → Nat) : Nat := (s.entries.map fun e => f e.1 e.2).sum

theorem delete_of_get_eq_none {s : KeyStore K V} {k : K} (h : s.get k = none) : s.delete k = s := by
  refine ext_get fun k' => ?_
  rw [get_delete]
  split_ifs with hk
  · rw [hk, h]
  · rfl

theorem delete_put (k : K) (v : V) : (s.put k v).delete k = s.delete k := by
  refine ext_get fun k' => ?_
  rw [get_delete, get_delete, get_put]
  split_ifs with hk <;> rfl

theorem nodup_keys : (s.entries.map Prod.fst).Nodup :=
  pairwise_map.2 (List.Pairwise.imp (fun hlt => ne_of_lt hlt) s.sorted)

theorem nodup_entries : s.entries.Nodup := s.nodup_keys.of_map

theorem entries_perm_delete {s : KeyStore K V} {k : K} {v : V} (h : s.get k = some v) :
    s.entries.Perm ((k, v) :: (s.delete k).entries) := by
  have hnot : (k, v) ∉ (s.delete k).entries := by
    rw [← get_eq_some_iff, get_delete, if_pos rfl]
    exact Option.some_ne_none _ |>.symm
  refine (perm_ext_iff_of_nodup s.nodup_entries (nodup_cons.2 ⟨hnot, (s.delete k).nodup_entries⟩)).2 ?_
  rintro ⟨k', v'⟩
  rw [mem_cons, ← get_eq_some_iff, ← get_eq_some_iff, get_delete]
  by_cases hk : k' = k
  · subst hk
    simp [h, eq_comm]
  · simp [hk]

theorem sumOn_of_get {s : KeyStore K V} {k : K} {v : V} (h : s.get k = some v) (f : K → V → Nat) :
    s.sumOn f = f k v + (s.delete k).sumOn f := by
  rw [sumOn, ((entries_perm_delete h).map _).sum_nat, map_cons, sum_cons, sumOn]

theorem sumOn_put (k : K) (v : V) (f : K → V → Nat) : (s.put k v).sumOn f = f k v + (s.delete k).sumOn f := by
  rw [sumOn_of_get (get_put s k k v ▸ if_pos rfl) f, delete_put]

theorem sumOn_congr {s : KeyStore K V} {f g : K → V → Nat} (h : ∀ k v, s.get k = some v → f k v = g k v) : s.sumOn f = s.sumOn g :=
  congrArg List.sum (map_congr_left fun e he => h e.1 e.2 (get_eq_some_iff.2 he))

end KeyStore
