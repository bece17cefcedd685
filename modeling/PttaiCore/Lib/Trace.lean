import Mathlib.Data.List.Induction

/-! # Traces of a deterministic system -/

namespace Trace

open List

variable {σ α : Type*} (step : σ → α → σ) (s : σ) (calls : List α)

def after (calls : List α) : σ := calls.foldl step s

def Always (P : σ → α → Prop) : Prop := ∀ before c rest, calls = before ++ c :: rest → P (after step s before) c

def Between (R : σ → σ → Prop) : Prop :=
  ∀ before later rest, calls = before ++ later ++ rest → R (after step s before) (after step s (before ++ later))

def Everywhere (P : σ → Prop) : Prop := ∀ before rest, calls = before ++ rest → P (after step s before)

variable {step s calls}

theorem after_append (l l' : List α) : after step s (l ++ l') = after step (after step s l) l' := foldl_append

@[simp] theorem after_snoc (l : List α) (c : α) : after step s (l ++ [c]) = step (after step s l) c := after_append l [c]

theorem always_nil {P : σ → α → Prop} : Always step s [] P := by
  intro before c rest heq
  simp at heq

theorem always_cons {P : σ → α → Prop} {c : α} : Always step s (c :: calls) P ↔ P s c ∧ Always step (step s c) calls P := by
  constructor
  · intro h
    exact ⟨h [] c calls rfl, fun before c' rest heq => h (c :: before) c' rest (by rw [heq]; rfl)⟩
  · rintro ⟨hc, h⟩ before c' rest heq
    cases before with
    | nil =>
      obtain ⟨rfl, -⟩ := List.cons.inj heq
      exact hc
    | cons b before =>
      obtain ⟨rfl, hrest⟩ := List.cons.inj heq
      exact h before c' rest hrest

theorem Always.mono {P Q : σ → α → Prop} (h : Always step s calls P) (hPQ : ∀ s c, P s c → Q s c) : Always step s calls Q :=
  fun before c rest heq => hPQ _ _ (h before c rest heq)

theorem always_and {P Q : σ → α → Prop} :
    Always step s calls (fun s c => P s c ∧ Q s c) ↔ Always step s calls P ∧ Always step s calls Q :=
  ⟨fun h => ⟨h.mono fun _ _ => And.left, h.mono fun _ _ => And.right⟩,
    fun h before c rest heq => ⟨h.1 before c rest heq, h.2 before c rest heq⟩⟩

theorem between_iff_always {R : σ → σ → Prop} (hrefl : ∀ s, R s s) (htrans : ∀ s t u, R s t → R t u → R s u) :
    Between step s calls R ↔ Always step s calls fun s c => R s (step s c) := by
  constructor
  · intro h before c rest heq
    have := h before [c] rest (by rw [heq, append_assoc, singleton_append])
    rwa [after_snoc] at this
  · intro h before later
    induction later using List.reverseRecOn with
    | nil =>
      intro rest _
      rw [append_nil]
      exact hrefl _
    | append_singleton later c ih =>
      intro rest heq
      have hlater : calls = before ++ later ++ (c :: rest) := by
        rw [heq]
        simp only [append_assoc, singleton_append]
      have hc := h (before ++ later) c rest hlater
      rw [← append_assoc, after_snoc]
      exact htrans _ _ _ (ih (c :: rest) hlater) hc

theorem Always.invariant {I : σ → Prop} {Fits : σ → α → Prop} (h : Always step s calls Fits) (h0 : I s)
    (hstep : ∀ s c, I s → Fits s c → I (step s c)) : Everywhere step s calls I := by
  intro before
  induction before using List.reverseRecOn with
  | nil => exact fun _ _ => h0
  | append_singleton before c ih =>
    intro rest heq
    rw [append_assoc, singleton_append] at heq
    rw [after_snoc]
    exact hstep _ _ (ih _ heq) (h before c rest heq)

theorem everywhere_iff_always_of_legal {I Right : σ → Prop} {Legal Fits : σ → α → Prop} (hlegal : Always step s calls Legal) (h0 : I s)
    (hright : Right s) (hiff : ∀ s c, I s → Legal s c → (Right (step s c) ↔ Fits s c)) (hstep : ∀ s c, I s → Legal s c → Fits s c → I (step s c)) :
    Everywhere step s calls Right ↔ Always step s calls Fits := by
  constructor
  · intro h
    -- the invariant is carried along the calls, each of which fits since it leaves a right state
    have hinv : Everywhere step s calls I := by
      intro before
      induction before using List.reverseRecOn with
      | nil => exact fun _ _ => h0
      | append_singleton before c ih =>
        intro rest heq
        have heq' : calls = before ++ c :: rest := by rw [heq, append_assoc, singleton_append]
        have hbefore : I (after step s before) := ih (c :: rest) heq'
        have hc := hlegal before c rest heq'
        have hafter := h (before ++ [c]) rest heq
        rw [after_snoc] at hafter ⊢
        exact hstep _ _ hbefore hc ((hiff _ _ hbefore hc).1 hafter)
    intro before c rest heq
    have hafter := h (before ++ [c]) rest (by rw [heq, append_assoc, singleton_append])
    rw [after_snoc] at hafter
    exact (hiff _ _ (hinv before (c :: rest) heq) (hlegal before c rest heq)).1 hafter
  · intro h before
    have hinv := (always_and.2 ⟨hlegal, h⟩).invariant h0 fun s c hI hc => hstep s c hI hc.1 hc.2
    induction before using List.reverseRecOn with
    | nil => exact fun _ _ => hright
    | append_singleton before c _ =>
      intro rest heq
      rw [append_assoc, singleton_append] at heq
      rw [after_snoc]
      exact (hiff _ _ (hinv before (c :: rest) heq) (hlegal before c rest heq)).2 (h before c rest heq)

theorem everywhere_iff_always {I Right : σ → Prop} {Fits : σ → α → Prop} (h0 : I s) (hright : Right s)
    (hiff : ∀ s c, I s → (Right (step s c) ↔ Fits s c)) (hstep : ∀ s c, I s → Fits s c → I (step s c)) :
    Everywhere step s calls Right ↔ Always step s calls Fits :=
  everywhere_iff_always_of_legal (fun _ _ _ _ => trivial) h0 hright (fun s c hI (_ : True) => hiff s c hI)
    fun s c hI (_ : True) hc => hstep s c hI hc

end Trace
