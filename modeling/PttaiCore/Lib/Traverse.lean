import Mathlib.Data.List.Basic

/-! # A loop over a list that changes a state and may fail -/

namespace Traverse

variable {α β σ ε : Type*} (f : Nat → α → σ → Except ε β × σ)

def traverse : Nat → List α → σ → Except ε (List β) × σ
  | _, [], s => (.ok [], s)
  | i, a :: l, s =>
    match f i a s with
    | (.error e, s') => (.error e, s')
    | (.ok b, s') =>
      match traverse (i + 1) l s' with
      | (.error e, s'') => (.error e, s'')
      | (.ok bs, s'') => (.ok (b :: bs), s'')

variable {f}

variable {l : List α} {r : List β}

theorem traverse_cons_ok {i : Nat} {a : α} {s t : σ} (h : traverse f i (a :: l) s = (.ok r, t)) :
    ∃ b s' bs, f i a s = (.ok b, s') ∧ traverse f (i + 1) l s' = (.ok bs, t) ∧ r = b :: bs := by
  rw [traverse] at h
  match hf : f i a s, h with
  | (.error e, s'), h => simp at h
  | (.ok b, s'), h =>
    dsimp only at h
    match hl : traverse f (i + 1) l s', h with
    | (.error e, s''), h => simp at h
    | (.ok bs, s''), h =>
      simp only [Prod.mk.injEq, Except.ok.injEq] at h
      exact ⟨b, s', bs, rfl, by rw [hl, h.2], h.1.symm⟩

theorem length_traverse {i : Nat} {s t : σ} (h : traverse f i l s = (.ok r, t)) : r.length = l.length := by
  induction l generalizing i s r with
  | nil =>
    simp only [traverse, Prod.mk.injEq, Except.ok.injEq] at h
    rw [← h.1]
    rfl
  | cons a l ih =>
    obtain ⟨b, s', bs, -, hl, rfl⟩ := traverse_cons_ok h
    rw [List.length_cons, List.length_cons, ih hl]

theorem traverse_isOk (h : ∀ i a s, ∃ b s', f i a s = (.ok b, s')) (i : Nat) (l : List α) (s : σ) :
    ∃ r t, traverse f i l s = (.ok r, t) := by
  induction l generalizing i s with
  | nil => exact ⟨[], s, rfl⟩
  | cons a l ih =>
    obtain ⟨b, s', hf⟩ := h i a s
    obtain ⟨bs, t, hl⟩ := ih (i + 1) s'
    exact ⟨b :: bs, t, by rw [traverse, hf]; dsimp only; rw [hl]⟩

theorem invariant {I : List α → σ → Prop} {s t : σ} (h : traverse f 0 l s = (.ok r, t)) (h0 : I [] s)
    (hstep : ∀ done a s b s', I done s → f done.length a s = (.ok b, s') → I (done ++ [a]) s') : I l t := by
  suffices hgen : ∀ (l done : List α) (s : σ) (r : List β), traverse f done.length l s = (.ok r, t) → I done s → I (done ++ l) t by
    exact hgen l [] s r h h0
  intro l
  induction l with
  | nil =>
    intro done s r h hI
    simp only [traverse, Prod.mk.injEq] at h
    rwa [List.append_nil, ← h.2]
  | cons a l ih =>
    intro done s r h hI
    obtain ⟨b, s', bs, hf, hl, -⟩ := traverse_cons_ok h
    have hlen : done.length + 1 = (done ++ [a]).length := by simp
    rw [hlen] at hl
    have := ih (done ++ [a]) s' bs hl (hstep done a s b s' hI hf)
    rwa [List.append_assoc] at this

end Traverse
