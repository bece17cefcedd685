import Mathlib.Order.Lattice
import Mathlib.Order.Basic

/-! # The best of those that qualify -/

namespace Best

variable {α β : Type*} [LinearOrder β] (rank : α → β)

def better (qualifies : α → Bool) (cur : Option α) (v : α) : Option α :=
  if qualifies v then
    match cur with
    | none => some v
    | some c => if rank v < rank c then some v else some c
  else cur

inductive Bounds (s t : α → Prop) : Option α → Prop where
  | none : (∀ a, ¬ s a) → Bounds s t none
  | some {c : α} : t c → (∀ a, s a → rank c ≤ rank a) → Bounds s t (some c)

variable {rank} {s s' t t' : α → Prop} {o : Option α} {qualifies : α → Bool}

theorem Bounds.mono (h : Bounds rank s t o) (hs : ∀ a, s' a → s a) (ht : ∀ a, t a → t' a) : Bounds rank s' t' o := by
  cases h with
  | none hnone => exact .none fun a ha => hnone a (hs a ha)
  | some hc hle => exact .some (ht _ hc) fun a ha => hle a (hs a ha)

theorem Bounds.look (h : Bounds rank s t o) (v : α) (ht : qualifies v = true → t v) :
    Bounds rank (fun a => s a ∨ a = v ∧ qualifies v = true) t (better rank qualifies o v) := by
  unfold better
  by_cases hv : qualifies v = true
  · rw [if_pos hv]
    cases h with
    | none hnone =>
      refine .some (ht hv) ?_
      rintro a (ha | ⟨rfl, -⟩)
      · exact absurd ha (hnone a)
      · exact le_rfl
    | @some c hc hle =>
      dsimp only
      split_ifs with hlt
      · refine .some (ht hv) ?_
        rintro a (ha | ⟨rfl, -⟩)
        · exact hlt.le.trans (hle a ha)
        · exact le_rfl
      · refine .some hc ?_
        rintro a (ha | ⟨rfl, -⟩)
        · exact hle a ha
        · exact not_lt.1 hlt
  · rw [if_neg hv]
    refine h.mono ?_ fun _ => id
    rintro a (ha | ⟨-, h⟩)
    · exact ha
    · exact absurd h hv

variable (rank qualifies) in
theorem bounds_foldl (l : List α) : Bounds rank (fun a => a ∈ l ∧ qualifies a = true) (fun a => a ∈ l ∧ qualifies a = true)
    (l.foldl (better rank qualifies) none) := by
  suffices h : ∀ (l : List α) (o : Option α) (s t : α → Prop), (∀ a ∈ l, qualifies a = true → t a) → Bounds rank s t o →
      Bounds rank (fun a => s a ∨ a ∈ l ∧ qualifies a = true) t (l.foldl (better rank qualifies) o) by
    refine (h l none (fun _ => False) _ (fun a ha hq => ⟨ha, hq⟩) (.none fun _ => id)).mono (fun a ha => .inr ha) fun _ => id
  intro l
  induction l with
  | nil =>
    intro o s t _ ho
    exact ho.mono (fun a ha => ha.resolve_right fun h => List.not_mem_nil h.1) fun _ => id
  | cons v l ih =>
    intro o s t ht ho
    refine (ih _ _ t (fun a ha => ht a (List.mem_cons_of_mem v ha)) (ho.look v (ht v (.head _)))).mono ?_ fun _ => id
    rintro a (ha | ⟨ha, hq⟩)
    · exact .inl (.inl ha)
    · rcases List.mem_cons.1 ha with rfl | ha
      · exact .inl (.inr ⟨rfl, hq⟩)
      · exact .inr ⟨ha, hq⟩

end Best
