import Mathlib.Data.Set.Basic
import PttaiCore.Lib.Run

/-! # Handing work over from a queue to a list -/

namespace Handover

variable {α : Type*}

structure State (α : Type*) where
  /-- What has to be cleaned. -/
  dirty : Set α
  queued : Set α
  /-- The list of the last round. -/
  listed : Set α
  /-- What the current round still has to do. -/
  todo : Option (List α)

inductive Event (α : Type*) where
  | mark (xs : List α)
  | take (order : List α)
  | done (x : α)
  | abort
  | finish
  | idle

inductive Step : State α → Event α → State α → Prop where
  | mark (s : State α) (xs : List α) :
      Step s (.mark xs) { s with dirty := s.dirty ∪ {x | x ∈ xs}, queued := s.queued ∪ {x | x ∈ xs} }
  | take (s : State α) (order : List α) (htodo : s.todo = none) (horder : ∀ x, x ∈ order ↔ x ∈ s.queued) :
      Step s (.take order) { s with queued := ∅, listed := {x | x ∈ order}, todo := some order }
  | done (s : State α) (x : α) (l : List α) (htodo : s.todo = some (x :: l)) :
      Step s (.done x) { s with dirty := s.dirty \ {x}, todo := some l }
  | abort (s : State α) (x : α) (l : List α) (htodo : s.todo = some (x :: l)) : Step s .abort { s with todo := none }
  | finish (s : State α) (htodo : s.todo = some []) : Step s .finish { s with listed := ∅, todo := none }
  | idle (s : State α) : Step s .idle s

def Event.Safe (s : State α) : Event α → Prop
  | .take _ => ∀ x ∈ s.listed, x ∈ s.dirty → x ∈ s.queued
  | _ => True

structure Inv (s : State α) : Prop where
  kept : ∀ x ∈ s.dirty, x ∈ s.queued ∨ x ∈ s.listed
  round : ∀ l, s.todo = some l → (∀ x ∈ s.dirty, x ∈ s.queued ∨ x ∈ l) ∧ ∀ x ∈ l, x ∈ s.listed

theorem Inv.step {s t : State α} {e : Event α} (h : Inv s) (hstep : Step s e t) (hsafe : e.Safe s) : Inv t := by
  cases hstep with
  | mark xs =>
    refine ⟨?_, fun l hl => ⟨?_, (h.round l hl).2⟩⟩
    · rintro x (hx | hx)
      · exact (h.kept x hx).imp_left .inl
      · exact .inl (.inr hx)
    · rintro x (hx | hx)
      · exact ((h.round l hl).1 x hx).imp_left .inl
      · exact .inl (.inr hx)
  | take order htodo horder =>
    -- everything dirty is queued, so the round takes it
    have hqueued : ∀ x ∈ s.dirty, x ∈ order := by
      intro x hx
      rcases h.kept x hx with hq | hl
      · exact (horder x).2 hq
      · exact (horder x).2 (hsafe x hl hx)
    refine ⟨fun x hx => .inr (hqueued x hx), ?_⟩
    rintro l hl
    cases hl
    exact ⟨fun x hx => .inr (hqueued x hx), fun x hx => hx⟩
  | done x l htodo =>
    obtain ⟨hround, hlisted⟩ := h.round _ htodo
    refine ⟨fun y hy => h.kept y hy.1, ?_⟩
    intro l' hl'
    cases hl'
    refine ⟨?_, fun y hy => hlisted y (List.mem_cons_of_mem x hy)⟩
    rintro y ⟨hy, hne⟩
    refine (hround y hy).imp_right fun hmem => ?_
    exact (List.mem_cons.1 hmem).resolve_left hne
  | abort x l htodo => exact ⟨h.kept, fun l hl => nomatch hl⟩
  | finish htodo =>
    refine ⟨fun x hx => ?_, fun l hl => nomatch hl⟩
    rcases (h.round [] htodo).1 x hx with hq | hmem
    · exact .inl hq
    · exact absurd hmem (by simp)
  | idle => exact h

theorem dirty_subset_of_run {s t : State α} {es : List (Event α)} (hrun : Run (fun s e t => Step s e t ∧ e.Safe s) s es t)
    (h0 : Inv s) : ∀ x ∈ t.dirty, x ∈ t.queued ∨ x ∈ t.listed :=
  (hrun.invariant h0 fun _ _ _ hinv hstep => hinv.step hstep.1 hstep.2).kept

end Handover
