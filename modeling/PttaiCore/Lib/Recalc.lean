import Mathlib.Data.Set.Basic
import PttaiCore.Lib.KeyStore

/-! # Entries that are computed from other entries -/

structure Sheet (ι K V : Type*) [LinearOrder K] where
  key : ι → K
  key_injective : Function.Injective key
  deps : ι → Set K
  value : ι → KeyStore K V → Option V
  /-- The computation reads the dependencies only. -/
  value_congr (i : ι) {s t : KeyStore K V} : (∀ k ∈ deps i, s.get k = t.get k) → value i s = value i t

namespace Sheet

variable {ι K V : Type*} [LinearOrder K] (S : Sheet ι K V)

def Consistent (s : KeyStore K V) (i : ι) : Prop := s.get (S.key i) = S.value i s

def recalc (s : KeyStore K V) (i : ι) : KeyStore K V := s.set (S.key i) (S.value i s)

def recalcAll (s : KeyStore K V) (l : List ι) : KeyStore K V := l.foldl S.recalc s

structure IsPath (l : List ι) : Prop where
  later : l.Pairwise fun i j => S.key j ∉ S.deps i ∧ S.key j ≠ S.key i
  self : ∀ i ∈ l, S.key i ∉ S.deps i
  closed : ∀ i ∈ l, ∀ j, S.key i ∈ S.deps j → j ∈ l

variable {S} {s t : KeyStore K V} {i j : ι} {l : List ι}

theorem Consistent.congr (h : S.Consistent s i) (hkey : t.get (S.key i) = s.get (S.key i))
    (hdeps : ∀ k ∈ S.deps i, t.get k = s.get k) : S.Consistent t i := by
  rw [Consistent, hkey, S.value_congr i hdeps]
  exact h

theorem recalcAll_get {k : K} (h : ∀ i ∈ l, S.key i ≠ k) : (S.recalcAll s l).get k = s.get k := by
  induction l generalizing s with
  | nil => rfl
  | cons a l ih =>
    change (S.recalcAll (S.recalc s a) l).get k = _
    rw [ih fun i hi => h i (List.mem_cons_of_mem a hi), recalc, KeyStore.get_set, if_neg (h a List.mem_cons_self).symm]

theorem Consistent.recalcAll (h : S.Consistent s i) (hl : ∀ j ∈ l, S.key j ∉ S.deps i ∧ S.key j ≠ S.key i) :
    S.Consistent (S.recalcAll s l) i := by
  refine h.congr (recalcAll_get fun j hj => (hl j hj).2) fun k hk => recalcAll_get fun j hj => ?_
  rintro rfl
  exact (hl j hj).1 hk

theorem consistent_recalc (h : S.key i ∉ S.deps i) : S.Consistent (S.recalc s i) i := by
  have hdeps : ∀ k ∈ S.deps i, (S.recalc s i).get k = s.get k := by
    intro k hk
    rw [recalc, KeyStore.get_set, if_neg]
    rintro rfl
    exact h hk
  rw [Consistent, S.value_congr i hdeps, recalc, KeyStore.get_set, if_pos rfl]

theorem consistent_recalcAll_of_mem (hl : S.IsPath l) (hi : i ∈ l) : S.Consistent (S.recalcAll s l) i := by
  obtain ⟨hlater, hself, -⟩ := hl
  induction l generalizing s with
  | nil => exact absurd hi (by simp)
  | cons a l ih =>
    obtain ⟨hhead, htail⟩ := List.pairwise_cons.1 hlater
    rcases List.mem_cons.1 hi with rfl | hi
    · exact (consistent_recalc (hself i (.head _))).recalcAll hhead
    · exact ih hi htail fun j hj => hself j (List.mem_cons_of_mem a hj)

theorem consistent_recalcAll_of_not_mem (hl : S.IsPath l) (hi : i ∉ l) (h : S.Consistent s i) :
    S.Consistent (S.recalcAll s l) i := by
  refine h.recalcAll fun j hj => ⟨fun hdep => hi (hl.closed j hj i hdep), fun hkey => hi ?_⟩
  exact S.key_injective hkey ▸ hj

end Sheet
