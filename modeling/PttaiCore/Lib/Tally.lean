import Mathlib.Algebra.Order.BigOperators.Group.Finset
import Mathlib.Algebra.BigOperators.Group.Finset.Piecewise
import Mathlib.Algebra.Order.Ring.Nat
import Mathlib.Data.List.Duplicate
import PttaiCore.Lib.KeyStore

/-! # Counting votes -/

namespace Tally

variable {α : Type*} (w : α → ℕ) (l : List α)

def total : ℕ := (l.map w).sum

@[simp] theorem total_cons (a : α) : total w (a :: l) = w a + total w l := by
  rw [total, List.map_cons, List.sum_cons, total]

variable [DecidableEq α]

def distinct : ℕ := ∑ a ∈ l.toFinset, w a

def repeated : List α → ℕ
  | [] => 0
  | a :: l => (if a ∈ l then w a else 0) + repeated l

def missing (S : Finset α) : ℕ := ∑ a ∈ S \ l.toFinset, w a

theorem total_eq : total w l = distinct w l + repeated w l := by
  induction l with
  | nil => rfl
  | cons a l ih =>
    rw [total_cons, ih, repeated, distinct, distinct, List.toFinset_cons]
    by_cases ha : a ∈ l
    · rw [if_pos ha, Finset.insert_eq_of_mem (List.mem_toFinset.2 ha)]
      omega
    · rw [if_neg ha, Finset.sum_insert fun h => ha (List.mem_toFinset.1 h)]
      omega

variable {w l}

theorem repeated_eq_zero (h : ∀ a, l.Duplicate a → w a = 0) : repeated w l = 0 := by
  induction l with
  | nil => rfl
  | cons a l ih =>
    have hrest : repeated w l = 0 := by
      refine ih ?_
      intro b hb
      exact h b (hb.duplicate_cons a)
    rw [repeated, hrest, Nat.add_zero, ite_eq_right_iff]
    intro ha
    exact h a (List.Mem.duplicate_cons_self ha)

section weighted

variable {S : Finset α} (hS : ∀ a, a ∉ S → w a = 0)

include hS

theorem distinct_eq_inter : distinct w l = ∑ a ∈ S ∩ l.toFinset, w a := by
  rw [distinct]
  refine (Finset.sum_subset Finset.inter_subset_right ?_).symm
  intro a ha hnot
  refine hS a ?_
  intro hmem
  exact hnot (Finset.mem_inter.2 ⟨hmem, ha⟩)

theorem distinct_add_missing : distinct w l + missing w l S = ∑ a ∈ S, w a := by
  rw [distinct_eq_inter hS, missing, Finset.sum_inter_add_sum_sdiff]

theorem exists_common {l' : List α} (h : ∑ a ∈ S, w a < 2 * distinct w l) (h' : ∑ a ∈ S, w a < 2 * distinct w l') :
    ∃ a ∈ l, a ∈ l' ∧ a ∈ S := by
  by_contra hnone
  have hdisj : Disjoint (S ∩ l.toFinset) (S ∩ l'.toFinset) := by
    rw [Finset.disjoint_left]
    intro a ha ha'
    obtain ⟨hmem, hl⟩ := Finset.mem_inter.1 ha
    exact hnone ⟨a, List.mem_toFinset.1 hl, List.mem_toFinset.1 (Finset.mem_inter.1 ha').2, hmem⟩
  have hle : distinct w l + distinct w l' ≤ ∑ a ∈ S, w a := by
    rw [distinct_eq_inter hS, distinct_eq_inter hS, ← Finset.sum_union hdisj]
    exact Finset.sum_le_sum_of_subset (Finset.union_subset Finset.inter_subset_left Finset.inter_subset_left)
  omega

end weighted

end Tally

namespace KeyStore

variable {K V : Type*} [LinearOrder K] (s : KeyStore K V)

def keySet : Finset K := (s.entries.map Prod.fst).toFinset

variable {s}

theorem mem_keySet {k : K} : k ∈ s.keySet ↔ s.get k ≠ none := by
  rw [keySet, List.mem_toFinset, List.mem_map, Option.ne_none_iff_exists']
  constructor
  · rintro ⟨e, he, rfl⟩
    exact ⟨e.2, get_eq_some_iff.2 he⟩
  · rintro ⟨v, hv⟩
    exact ⟨(k, v), get_eq_some_iff.1 hv, rfl⟩

theorem sum_keySet (f : V → ℕ) : ∑ k ∈ s.keySet, ((s.get k).elim 0 f) = s.sumOn fun _ v => f v := by
  rw [keySet, List.sum_toFinset _ s.nodup_keys, sumOn, List.map_map]
  refine congrArg List.sum (List.map_congr_left ?_)
  intro e he
  rw [Function.comp_apply, get_eq_some_iff.2 he, Option.elim_some]

theorem card_keySet : s.keySet.card = s.entries.length := by
  rw [keySet, List.toFinset_card_of_nodup s.nodup_keys, List.length_map]

end KeyStore
