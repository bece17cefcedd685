import Mathlib.Order.Lattice
import Mathlib.Data.List.Perm.Basic
import Mathlib.Order.Basic

/-! # Selecting one of several candidates that arrive one by one -/

namespace Select

open List

variable {α β γ δ : Type*} [LinearOrder β] [DecidableEq γ] (rank : α → β) (tag : α → γ)

def select (cur v : α) : α := if tag v = tag cur then cur else if rank v < rank cur then v else cur

def selectAll (v : α) (l : List α) : α := l.foldl (select rank tag) v

theorem select_mem (cur v : α) : select rank tag cur v = cur ∨ select rank tag cur v = v := by
  unfold select
  split_ifs
  · exact .inl rfl
  · exact .inr rfl
  · exact .inl rfl

theorem selectAll_mem (v : α) (l : List α) : selectAll rank tag v l = v ∨ selectAll rank tag v l ∈ l := by
  induction l generalizing v with
  | nil => exact .inl rfl
  | cons a l ih =>
    rcases ih (select rank tag v a) with h | h
    · rcases select_mem rank tag v a with h' | h'
      · exact .inl (h.trans h')
      · exact .inr (mem_cons.2 (.inl (h.trans h')))
    · exact .inr (mem_cons_of_mem a h)

variable {rank tag}

theorem selectAll_of_tag_eq {v : α} {l : List α} (h : ∀ a ∈ l, tag a = tag v) : selectAll rank tag v l = v := by
  induction l with
  | nil => rfl
  | cons a l ih =>
    have hstep : select rank tag v a = v := if_pos (h a (.head _))
    change selectAll rank tag (select rank tag v a) l = v
    rw [hstep, ih fun b hb => h b (mem_cons_of_mem a hb)]

theorem selectAll_of_least {obs : α → δ} {m : α} (hrank : ∀ a b, obs a = obs b → rank a = rank b) {v : α} {l : List α}
    (hv : obs v = obs m) (hleast : ∀ a ∈ l, rank m ≤ rank a) : selectAll rank tag v l = v := by
  induction l with
  | nil => rfl
  | cons a l ih =>
    have hstep : select rank tag v a = v := by
      unfold select
      have hle : rank v ≤ rank a := (hrank v m hv).trans_le (hleast a (.head _))
      rw [if_neg (not_lt.2 hle), ite_self]
    change selectAll rank tag (select rank tag v a) l = v
    rw [hstep, ih fun b hb => hleast b (mem_cons_of_mem a hb)]

theorem selectAll_obs {obs : α → δ} {m : α} (hrank : ∀ a b, obs a = obs b → rank a = rank b)
    (htag : ∀ a b, rank a = rank b → tag a = tag b) {v : α} {l : List α}
    (hm : m ∈ v :: l) (hleast : ∀ a ∈ v :: l, rank m ≤ rank a) (hsame : ∀ a ∈ v :: l, tag a = tag m → obs a = obs m) :
    obs (selectAll rank tag v l) = obs m := by
  induction l generalizing v with
  | nil =>
    rw [mem_singleton] at hm
    rw [hm]
    rfl
  | cons a l ih =>
    by_cases hv : tag v = tag m
    · have hobs := hsame v (.head _) hv
      rw [selectAll_of_least hrank hobs fun b hb => hleast b (mem_cons_of_mem v hb), hobs]
    · -- the current candidate is not the least one, which is still to arrive
      have hma : m = a ∨ m ∈ l := by
        rcases mem_cons.1 hm with h | h
        · exact absurd (congrArg tag h.symm) hv
        · exact mem_cons.1 h
      have hmem : ∀ b ∈ select rank tag v a :: l, b ∈ v :: a :: l := by
        intro b hb
        rcases mem_cons.1 hb with h | h
        · rcases select_mem rank tag v a with h' | h' <;> simp [h, h']
        · simp [h]
      refine ih (v := select rank tag v a) ?_ (fun b hb => hleast b (hmem b hb)) (fun b hb => hsame b (hmem b hb))
      rcases hma with rfl | h
      · have hlt : rank m < rank v :=
          lt_of_le_of_ne (hleast v (.head _)) fun h => hv (htag m v h).symm
        simp [select, Ne.symm hv, hlt]
      · exact .tail _ h

variable (rank tag) in
theorem selectAll_eq_iff (obs : α → δ) {m : α} (hrank : ∀ a b, obs a = obs b → rank a = rank b)
    (htag : ∀ a b, rank a = rank b → tag a = tag b) {vs : List α} (hm : m ∈ vs) (hleast : ∀ a ∈ vs, rank m ≤ rank a) :
    (∀ v l, (v :: l).Perm vs → obs (selectAll rank tag v l) = obs m) ↔ ∀ a ∈ vs, tag a = tag m → obs a = obs m := by
  classical
  constructor
  · intro h a ha hta
    -- `a` first, then the others with the tag, then the rest
    let same := (vs.filter fun b => tag b = tag m).erase a
    let rest := vs.filter fun b => !decide (tag b = tag m)
    have hperm : (a :: (same ++ rest)).Perm vs := by
      have hmem : a ∈ vs.filter fun b => tag b = tag m := by simp [ha, hta]
      have hcons : (a :: same).Perm (vs.filter fun b => tag b = tag m) := (perm_cons_erase hmem).symm
      simpa using (hcons.append_right rest).trans (filter_append_perm (fun b => tag b = tag m) vs)
    have hsame : ∀ b ∈ same, tag b = tag a := fun b hb => by
      have := (mem_filter.1 (mem_of_mem_erase hb)).2
      rw [hta]
      simpa using this
    have hleft : selectAll rank tag a (same ++ rest) = selectAll rank tag a rest := by
      change (same ++ rest).foldl (select rank tag) a = _
      rw [foldl_append]
      exact congrArg (fun x => selectAll rank tag x rest) (selectAll_of_tag_eq hsame)
    have hobs := h a (same ++ rest) hperm
    rw [hleft] at hobs
    rcases selectAll_mem rank tag a rest with hr | hr
    · rw [← hobs, hr]
    · have hne : ¬ tag (selectAll rank tag a rest) = tag m := by simpa using (mem_filter.1 hr).2
      exact absurd (htag _ _ (hrank _ _ hobs)) hne
  · intro h v l hperm
    refine selectAll_obs hrank htag (hperm.mem_iff.2 hm) (fun a ha => hleast a (hperm.mem_iff.1 ha)) ?_
    exact fun a ha => h a (hperm.mem_iff.1 ha)

end Select
