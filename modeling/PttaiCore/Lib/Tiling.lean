import Mathlib.Order.Interval.Set.Defs
import Mathlib.Order.Lattice
import Mathlib.Data.List.Basic

/-! # Lists of half-open windows -/

section tiling

variable {α : Type*} [LinearOrder α]

inductive Within : α → α → List (α × α) → Prop where
  | nil {a b : α} : a ≤ b → Within a b []
  | cons {a b s e : α} {l : List (α × α)} : a ≤ s → s ≤ e → Within e b l → Within a b ((s, e) :: l)

def Covers (a b : α) (l : List (α × α)) : Prop := ∀ t ∈ Set.Ico a b, ∃ w ∈ l, t ∈ Set.Ico w.1 w.2

namespace Within

variable {a a' b c : α} {l l' : List (α × α)} {w : α × α}

theorem le (h : Within a b l) : a ≤ b := by
  induction h with
  | nil h => exact h
  | cons h1 h2 _ ih => exact h1.trans (h2.trans ih)

theorem single (h : a ≤ b) : Within a b [(a, b)] := .cons le_rfl h (.nil le_rfl)

theorem mono (h : Within a b l) (ha : a' ≤ a) : Within a' b l := by
  cases h with
  | nil h => exact .nil (ha.trans h)
  | cons h1 h2 h3 => exact .cons (ha.trans h1) h2 h3

theorem append (h : Within a b l) (h' : Within b c l') : Within a c (l ++ l') := by
  induction h with
  | nil h => exact h'.mono h
  | cons h1 h2 _ ih => exact .cons h1 h2 (ih h')

theorem mem (h : Within a b l) (hw : w ∈ l) : a ≤ w.1 ∧ w.1 ≤ w.2 ∧ w.2 ≤ b := by
  induction h with
  | nil => cases hw
  | cons h1 h2 h3 ih =>
    rcases List.mem_cons.1 hw with rfl | hw
    · exact ⟨h1, h2, h3.le⟩
    · obtain ⟨hs, he, hb⟩ := ih hw
      exact ⟨h1.trans (h2.trans hs), he, hb⟩

theorem disjoint (h : Within a b l) : l.Pairwise fun v w => ∀ t, t ∈ Set.Ico v.1 v.2 → t ∉ Set.Ico w.1 w.2 := by
  induction h with
  | nil => exact .nil
  | cons _ _ h3 ih =>
    refine .cons (fun w hw t hv hw' => ?_) ih
    exact absurd (hv.2.trans_le (h3.mem hw).1) (not_lt.2 hw'.1)

theorem mem_Ico (h : Within a b l) (hw : w ∈ l) {t : α} (ht : t ∈ Set.Ico w.1 w.2) : t ∈ Set.Ico a b :=
  ⟨(h.mem hw).1.trans ht.1, ht.2.trans_le (h.mem hw).2.2⟩

end Within

variable {a b c : α} {l l' : List (α × α)}

theorem covers_single (a b : α) : Covers a b [(a, b)] := fun _ ht => ⟨_, (.head _), ht⟩

theorem covers_append_iff (h : Within a b l) (hcov : Covers a b l) : Covers a c (l ++ l') ↔ Covers b c l' := by
  constructor
  · intro hall t ht
    obtain ⟨w, hw, htw⟩ := hall t ⟨h.le.trans ht.1, ht.2⟩
    rcases List.mem_append.1 hw with hw | hw
    · exact absurd (h.mem_Ico hw htw).2 (not_lt.2 ht.1)
    · exact ⟨w, hw, htw⟩
  · intro hrest t ht
    rcases lt_or_ge t b with hlt | hge
    · obtain ⟨w, hw, htw⟩ := hcov t ⟨ht.1, hlt⟩
      exact ⟨w, List.mem_append_left _ hw, htw⟩
    · obtain ⟨w, hw, htw⟩ := hrest t ⟨hge, ht.2⟩
      exact ⟨w, List.mem_append_right _ hw, htw⟩

theorem not_covers_of_lt (h : Within b c l) (hlt : a < b) : ¬ Covers a c l := by
  intro hcov
  obtain ⟨w, hw, htw⟩ := hcov a ⟨le_rfl, hlt.trans_le h.le⟩
  exact absurd htw.1 (not_le.2 (hlt.trans_le (h.mem hw).1))

theorem not_covers_nil (hlt : a < b) : ¬ Covers a b [] := by
  intro hcov
  obtain ⟨w, hw, -⟩ := hcov a ⟨le_rfl, hlt⟩
  cases hw

theorem covers_nil : Covers a a [] := fun _ ht => absurd ht.2 (not_lt.2 ht.1)

end tiling
