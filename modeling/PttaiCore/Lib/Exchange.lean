import PttaiCore.Lib.Run

/-! # Exchanges of messages -/

structure Exchange (M : Type*) where
  sent : List M
  pending : List M

namespace Exchange

open List

variable {M : Type*} (handler : M → List M)

def start (l : List M) : Exchange M := ⟨l, l⟩

def Deliver (s : Exchange M) (x : M) (t : Exchange M) : Prop :=
  ∃ before after, s.pending = before ++ x :: after ∧ t = ⟨s.sent ++ handler x, before ++ handler x ++ after⟩

inductive Derived (l : List M) : M → Prop where
  | start {x : M} : x ∈ l → Derived l x
  | reply {x y : M} : Derived l x → y ∈ handler x → Derived l y

variable {handler} {l : List M} {s t : Exchange M} {x : M}

theorem closed_of_run {as : List M} (h : Run (Deliver handler) (start l) as t) :
    l ⊆ t.sent ∧ ∀ x ∈ t.sent, x ∈ t.pending ∨ handler x ⊆ t.sent := by
  refine h.invariant (I := fun t => l ⊆ t.sent ∧ ∀ x ∈ t.sent, x ∈ t.pending ∨ handler x ⊆ t.sent)
    ⟨List.Subset.refl _, fun x hx => .inl hx⟩ ?_
  rintro t a u ⟨hl, hclosed⟩ ⟨before, after, hpending, rfl⟩
  refine ⟨fun x hx => mem_append_left _ (hl hx), fun x hx => ?_⟩
  rcases mem_append.1 hx with hx | hx
  · rcases hclosed x hx with hx | hx
    · rw [hpending, mem_append, mem_cons] at hx
      rcases hx with hx | rfl | hx
      · exact .inl (mem_append_left _ (mem_append_left _ hx))
      · exact .inr fun y hy => mem_append_right _ hy
      · exact .inl (mem_append_right _ hx)
    · exact .inr fun y hy => mem_append_left _ (hx hy)
  · exact .inl (mem_append_left _ (mem_append_right _ hx))

theorem sent_of_derived {as : List M} (h : Run (Deliver handler) (start l) as t) (hend : t.pending = []) (hx : Derived handler l x) :
    x ∈ t.sent := by
  obtain ⟨hl, hclosed⟩ := closed_of_run h
  induction hx with
  | start hx => exact hl hx
  | reply _ hy ih =>
    rcases hclosed _ ih with hpending | hsub
    · rw [hend] at hpending
      cases hpending
    · exact hsub hy

theorem le_foldr_max (rank : M → Nat) (hx : x ∈ l) : rank x ≤ l.foldr (fun x n => max (rank x) n) 0 := by
  induction l with
  | nil => cases hx
  | cons y l ih =>
    rw [foldr_cons]
    rcases mem_cons.1 hx with rfl | hx
    · exact Nat.le_max_left _ _
    · exact Nat.le_trans (ih hx) (Nat.le_max_right _ _)

theorem foldr_max_le (rank : M → Nat) {n : Nat} (h : ∀ x ∈ l, rank x ≤ n) : l.foldr (fun x n => max (rank x) n) 0 ≤ n := by
  induction l with
  | nil => exact Nat.zero_le n
  | cons y l ih => exact Nat.max_le.2 ⟨h y (.head _), ih fun x hx => h x (mem_cons_of_mem y hx)⟩

theorem exists_run (Good : M → Prop) (rank : M → Nat) (hrank : ∀ x, Good x → ∀ y ∈ handler x, Good y ∧ rank y < rank x)
    (hl : ∀ x ∈ l, Good x) : ∃ as t, Run (Deliver handler) (start l) as t ∧ t.pending = [] := by
  have hdeliver : ∀ n, ∀ p rest sent, (∀ x ∈ p, Good x ∧ rank x < n) →
      ∃ as sent', Run (Deliver handler) ⟨sent, p ++ rest⟩ as ⟨sent', rest⟩ := by
    intro n
    induction n with
    | zero =>
      intro p rest sent hp
      cases p with
      | nil => exact ⟨[], sent, .nil _⟩
      | cons x p => exact absurd (hp x (.head _)).2 (Nat.not_lt_zero _)
    | succ n ih =>
      -- The messages one after another, each followed by all that it brings about.
      intro p
      induction p with
      | nil => exact fun rest sent _ => ⟨[], sent, .nil _⟩
      | cons x p ihp =>
        intro rest sent hp
        obtain ⟨hx, hlt⟩ := hp x mem_cons_self
        have hstep : Deliver handler ⟨sent, x :: p ++ rest⟩ x ⟨sent ++ handler x, handler x ++ (p ++ rest)⟩ :=
          ⟨[], p ++ rest, rfl, rfl⟩
        obtain ⟨as, sent', hrun⟩ := ih (handler x) (p ++ rest) (sent ++ handler x) fun y hy =>
          ⟨(hrank x hx y hy).1, Nat.lt_of_lt_of_le (hrank x hx y hy).2 (Nat.le_of_lt_succ hlt)⟩
        obtain ⟨as', sent'', hrun'⟩ := ihp rest sent' fun y hy => hp y (mem_cons_of_mem x hy)
        exact ⟨_, sent'', ((Run.single hstep).append hrun).append hrun'⟩
  obtain ⟨n, hn⟩ : ∃ n, ∀ x ∈ l, rank x < n :=
    ⟨l.foldr (fun x n => max (rank x) n) 0 + 1, fun x hx => Nat.lt_succ_of_le (le_foldr_max rank hx)⟩
  obtain ⟨as, sent', hrun⟩ := hdeliver n l [] l fun x hx => ⟨hl x hx, hn x hx⟩
  rw [append_nil] at hrun
  exact ⟨as, _, hrun, rfl⟩

end Exchange
