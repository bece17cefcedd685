import Mathlib.Data.List.Basic

/-! # Runs of a labelled step relation -/

inductive Run {σ α : Type*} (step : σ → α → σ → Prop) : σ → List α → σ → Prop where
  | nil (s : σ) : Run step s [] s
  | snoc {s t u : σ} {as : List α} {a : α} : Run step s as t → step t a u → Run step s (as ++ [a]) u

namespace Run

variable {σ α : Type*} {step step' : σ → α → σ → Prop} {s t : σ} {as : List α}

theorem invariantTrace {I : List α → σ → Prop} (h : Run step s as t) (h0 : I [] s)
    (hstep : ∀ as t a u, I as t → step t a u → I (as ++ [a]) u) : I as t := by
  induction h with
  | nil => exact h0
  | snoc _ hst ih => exact hstep _ _ _ _ ih hst

theorem invariant {I : σ → Prop} (h : Run step s as t) (h0 : I s) (hstep : ∀ t a u, I t → step t a u → I u) : I t :=
  h.invariantTrace (I := fun _ u => I u) h0 fun _ t a u => hstep t a u

theorem simulate {σ' α' : Type*} {step' : σ' → α' → σ' → Prop} (f : σ → σ') (g : α → α')
    (hstep : ∀ s a t, step s a t → step' (f s) (g a) (f t)) (h : Run step s as t) : Run step' (f s) (as.map g) (f t) := by
  induction h with
  | nil => exact Run.nil _
  | snoc _ ha ih =>
    rw [List.map_append, List.map_singleton]
    exact ih.snoc (hstep _ _ _ ha)

theorem append {as' : List α} {u : σ} (h : Run step s as t) (h' : Run step t as' u) : Run step s (as ++ as') u := by
  induction h' with
  | nil => rwa [List.append_nil]
  | snoc _ ha ih =>
    rw [← List.append_assoc]
    exact ih.snoc ha

theorem single {a : α} (h : step s a t) : Run step s [a] t := (Run.nil s).snoc h

end Run
