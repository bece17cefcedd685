import PttaiCore.Lib.Bytes
import PttaiCore.Lib.KeyStore

/-! # Iterating over the keys that begin alike -/

namespace Bytes

open List

def prefixLimit : Bytes → Option Bytes
  | [] => none
  | c :: p =>
    match prefixLimit p with
    | some l => some (c :: l)
    | none => if c < 255 then some [c + 1] else none

def below (limit : Option Bytes) (k : Bytes) : Bool := limit.all fun l => decide (k < l)

theorem lt_add_one_iff {c d : UInt8} (h : c < 255) : d < c + 1 ↔ d ≤ c := by
  rw [UInt8.lt_iff_toNat_lt, UInt8.le_iff_toNat_le, UInt8.toNat_add]
  rw [UInt8.lt_iff_toNat_lt] at h
  have h255 : (255 : UInt8).toNat = 255 := rfl
  have h1 : (1 : UInt8).toNat = 1 := rfl
  omega

theorem le_of_not_lt_max {c d : UInt8} (h : ¬ c < 255) : d ≤ c := by
  rw [UInt8.lt_iff_toNat_lt] at h
  rw [UInt8.le_iff_toNat_le]
  have h255 : (255 : UInt8).toNat = 255 := rfl
  have := d.toNat_lt
  omega

theorem below_prefixLimit_iff (p k : Bytes) : below (prefixLimit p) k = true ↔ k < p ∨ p <+: k := by
  induction p generalizing k with
  | nil => simp [prefixLimit, below]
  | cons c p ih =>
    cases k with
    | nil =>
      rw [prefixLimit]
      cases prefixLimit p with
      | some l => simp [below]
      | none =>
        split_ifs <;> simp [below]
    | cons d k =>
      have hcons : d :: k < c :: p ∨ c :: p <+: d :: k ↔ d < c ∨ d = c ∧ (k < p ∨ p <+: k) := by
        rw [cons_lt_cons_iff, cons_prefix_cons]
        constructor
        · rintro ((h | ⟨h, h'⟩) | ⟨h, h'⟩)
          · exact .inl h
          · exact .inr ⟨h, .inl h'⟩
          · exact .inr ⟨h.symm, .inr h'⟩
        · rintro (h | ⟨h, h' | h'⟩)
          · exact .inl (.inl h)
          · exact .inl (.inr ⟨h, h'⟩)
          · exact .inr ⟨h.symm, h'⟩
      rw [hcons, ← ih k, prefixLimit]
      cases prefixLimit p with
      | some l => simp [below, cons_lt_cons_iff]
      | none =>
        have hnone : (d = c ∧ below none k = true) ↔ d = c := and_iff_left rfl
        rw [hnone]
        dsimp only
        split_ifs with hc
        · simp [below, cons_lt_cons_iff, lt_add_one_iff hc, le_iff_lt_or_eq]
        · exact iff_of_true rfl (lt_or_eq_of_le (le_of_not_lt_max hc))

theorem prefixLimit_ne_none {p : Bytes} (h : ∃ c ∈ p, c < 255) : (prefixLimit p) ≠ none := by
  induction p with
  | nil =>
    obtain ⟨c, hc, -⟩ := h
    cases hc
  | cons c p ih =>
    rw [prefixLimit]
    cases hp : prefixLimit p with
    | some l => simp
    | none =>
      obtain ⟨d, hd, hlt⟩ := h
      rcases mem_cons.1 hd with rfl | hd
      · simp [hlt]
      · exact absurd hp (ih ⟨d, hd, hlt⟩)

theorem replicate_zero_le {n : Nat} {k : Bytes} (h : k.length = n) : List.replicate n 0 ≤ k := by
  subst h
  induction k with
  | nil => exact le_rfl
  | cons c k ih =>
    rw [length_cons, replicate_succ, ← not_lt, cons_lt_cons_iff]
    rintro (hlt | ⟨-, hlt⟩)
    · exact not_lt.2 UInt8.zero_le hlt
    · exact not_lt.2 ih hlt

theorem le_replicate_max {n : Nat} {k : Bytes} (h : k.length = n) : k ≤ List.replicate n 255 := by
  subst h
  induction k with
  | nil => exact le_rfl
  | cons c k ih =>
    rw [length_cons, replicate_succ, ← not_lt, cons_lt_cons_iff]
    rintro (hlt | ⟨-, hlt⟩)
    · exact not_lt.2 (le_of_not_lt_max (lt_irrefl 255)) hlt
    · exact not_lt.2 ih hlt

theorem le_of_begins {p k : Bytes} (h : p <+: k) : p ≤ k := by
  obtain ⟨r, rfl⟩ := h
  have := append_le_append_left p [] r
  rw [append_nil] at this
  exact this.2 (not_lt.1 (not_lt_nil r))

theorem between_prefixLimit_iff (p k : Bytes) : (p ≤ k ∧ below (prefixLimit p) k = true) ↔ p <+: k := by
  rw [below_prefixLimit_iff]
  constructor
  · rintro ⟨hle, hlt | hpre⟩
    · exact absurd hlt (not_lt.2 hle)
    · exact hpre
  · intro hpre
    exact ⟨le_of_begins hpre, .inr hpre⟩

end Bytes

inductive ListOrder where
  | next | prev
  deriving DecidableEq, Repr

def ListOrder.Before {α : Type*} [LT α] (o : ListOrder) (a b : α) : Prop :=
  match o with
  | .next => a < b
  | .prev => b < a

namespace KeyStore

variable {V : Type*} (s : KeyStore Bytes V)

def between (lo : Bytes) (limit : Option Bytes) : List (Bytes × V) := s.select fun k => decide (lo ≤ k) && Bytes.below limit k

def iterate (lo : Bytes) (limit : Option Bytes) : ListOrder → List (Bytes × V)
  | .next => s.between lo limit
  | .prev => if limit = none then [] else (s.between lo limit).reverse

variable {s}

theorem mem_between {lo : Bytes} {limit : Option Bytes} {e : Bytes × V} :
    e ∈ s.between lo limit ↔ s.get e.1 = some e.2 ∧ lo ≤ e.1 ∧ Bytes.below limit e.1 = true := by
  rw [between, mem_select, Bool.and_eq_true, decide_eq_true_iff]

theorem between_sorted (lo : Bytes) (limit : Option Bytes) : (s.between lo limit).Pairwise fun a b => a.1 < b.1 := select_sorted s _

theorem mem_iterate {lo : Bytes} {limit : Option Bytes} (hlimit : limit ≠ none) (o : ListOrder) {e : Bytes × V} :
    e ∈ s.iterate lo limit o ↔ s.get e.1 = some e.2 ∧ lo ≤ e.1 ∧ Bytes.below limit e.1 = true := by
  rw [← mem_between]
  cases o with
  | next => rfl
  | prev => rw [iterate, if_neg hlimit, List.mem_reverse]

theorem iterate_sorted (lo : Bytes) (limit : Option Bytes) (o : ListOrder) :
    (s.iterate lo limit o).Pairwise fun a b => o.Before a.1 b.1 := by
  cases o with
  | next => exact between_sorted lo limit
  | prev =>
    rw [iterate]
    split_ifs
    · exact List.Pairwise.nil
    · exact List.pairwise_reverse.2 (between_sorted lo limit)

end KeyStore
