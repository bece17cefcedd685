import PttaiCore.Lib.Best
import Mathlib.Data.Prod.Lex
import Mathlib.Order.OrderDual
import Mathlib.Data.List.Perm.Basic

/-! # Replacement with lowered classes -/

namespace Replace

variable {α C K : Type*} [LinearOrder C] [LinearOrder K] (cls : α → C) (key : α → K) (lower : C → C)

def Replaces (cur v : α) : Prop := lower (cls cur) < cls v ∨ lower (cls cur) = cls v ∧ key v < key cur

instance (cur v : α) : Decidable (Replaces cls key lower cur v) := inferInstanceAs (Decidable (_ ∨ _))

def Clash (a b : α) : Prop :=
  lower (cls a) < cls a ∧ cls b ≤ cls a ∧ (lower (cls a) < cls b ∨ lower (cls a) = cls b ∧ key b < key a)

def survivor (l : List α) : Option α :=
  l.foldl (fun cur v => match cur with
    | none => some v
    | some c => if Replaces cls key lower c v then some v else some c) none

structure Orderly (l : List α) : Prop where
  exactlyOne : ∀ a ∈ l, ∀ b ∈ l, a ≠ b → Xor (Replaces cls key lower a b) (Replaces cls key lower b a)
  trans : ∀ a ∈ l, ∀ b ∈ l, ∀ c ∈ l, Replaces cls key lower a b → Replaces cls key lower b c → Replaces cls key lower a c
  survivor : ∀ l', l'.Perm l → survivor cls key lower l' = survivor cls key lower l

variable {cls key lower} {a b : α} {l : List α}

theorem Clash.replaces (h : Clash cls key lower a b) (hlower : ∀ c, lower c ≤ c) :
    Replaces cls key lower a b ∧ Replaces cls key lower b a := by
  obtain ⟨hlow, hle, hrepl⟩ := h
  refine ⟨hrepl, .inl ?_⟩
  rcases hle.lt_or_eq with hlt | heq
  · exact (hlower _).trans_lt hlt
  · rw [heq]
    exact hlow

def rank (cls : α → C) (key : α → K) (a : α) : (C ×ₗ Kᵒᵈ)ᵒᵈ := OrderDual.toDual (toLex (cls a, OrderDual.toDual (key a)))

theorem rank_lt_iff : rank cls key b < rank cls key a ↔ cls a < cls b ∨ cls a = cls b ∧ key b < key a := by
  rw [rank, rank, OrderDual.toDual_lt_toDual, Prod.Lex.toLex_lt_toLex]
  rfl

theorem replaces_iff_rank (hlower : ∀ c, lower c ≤ c) (hab : ¬ Clash cls key lower a b) :
    Replaces cls key lower a b ↔ rank cls key b < rank cls key a := by
  rw [rank_lt_iff]
  constructor
  · intro h
    rcases (hlower (cls a)).lt_or_eq with hlow | hsame
    · -- the class of `a` is lowered, so `b` is above it
      rcases lt_or_ge (cls a) (cls b) with hlt | hle
      · exact .inl hlt
      · exact absurd ⟨hlow, hle, h⟩ hab
    · rwa [Replaces, hsame] at h
  · rintro (hlt | ⟨heq, hkey⟩)
    · exact .inl ((hlower _).trans_lt hlt)
    · rcases (hlower (cls a)).lt_or_eq with hlow | hsame
      · exact .inl (hlow.trans_eq heq)
      · exact .inr ⟨hsame.trans heq, hkey⟩

omit [LinearOrder C] [LinearOrder K] in
theorem rank_injective_of_key (hkey : key a ≠ key b) : rank cls key a ≠ rank cls key b := fun h =>
  hkey (congrArg (fun x : (C ×ₗ Kᵒᵈ)ᵒᵈ => OrderDual.ofDual (ofLex (OrderDual.ofDual x)).2) h)

section noClash

variable (hlower : ∀ c, lower c ≤ c) (hclash : ∀ a ∈ l, ∀ b ∈ l, a ≠ b → ¬ Clash cls key lower a b)
  (hkey : ∀ a ∈ l, ∀ b ∈ l, key a = key b → a = b)

include hlower hclash

theorem replaces_iff_of_mem (ha : a ∈ l) (hb : b ∈ l) (hne : a ≠ b) : Replaces cls key lower a b ↔ rank cls key b < rank cls key a :=
  replaces_iff_rank hlower (hclash a ha b hb hne)

theorem survivor_eq_best {l' : List α} (hnodup : l'.Nodup) (hmem : ∀ a ∈ l', a ∈ l) :
    survivor cls key lower l' = l'.foldl (Best.better (rank cls key) fun _ => true) none := by
  -- the current candidate is one of those that have arrived
  suffices hgen : ∀ (l' : List α) (cur : Option α), l'.Nodup → (∀ a ∈ l', a ∈ l) → (∀ c, cur = some c → c ∈ l ∧ c ∉ l') →
      l'.foldl (fun cur v => match cur with
        | none => some v
        | some c => if Replaces cls key lower c v then some v else some c) cur =
      l'.foldl (Best.better (rank cls key) fun _ => true) cur from hgen l' none hnodup hmem fun c hc => by cases hc
  intro l'
  induction l' with
  | nil => exact fun _ _ _ _ => rfl
  | cons v l' ih =>
    intro cur hnodup hmem hcur
    obtain ⟨hv, hnodup⟩ := List.nodup_cons.1 hnodup
    have hvl := hmem v List.mem_cons_self
    have hmem' : ∀ a ∈ l', a ∈ l := fun a ha => hmem a (List.mem_cons_of_mem v ha)
    rw [List.foldl_cons, List.foldl_cons]
    cases cur with
    | none => exact ih (some v) hnodup hmem' fun c hc => by cases hc; exact ⟨hvl, hv⟩
    | some c =>
      obtain ⟨hc, hcv⟩ := hcur c rfl
      have hne : c ≠ v := fun h => hcv (h ▸ (.head _))
      have hstep : (if Replaces cls key lower c v then some v else some c) = Best.better (rank cls key) (fun _ => true) (some c) v := by
        unfold Best.better
        rw [if_pos rfl]
        exact if_congr (replaces_iff_of_mem hlower hclash hc hvl hne) rfl rfl
      dsimp only
      rw [hstep]
      refine ih _ hnodup hmem' fun d hd => ?_
      rw [← hstep] at hd
      split_ifs at hd <;> cases hd
      · exact ⟨hvl, hv⟩
      · exact ⟨hc, fun h => hcv (List.mem_cons_of_mem v h)⟩

include hkey in
theorem survivor_eq_of_perm (hnodup : l.Nodup) {l' : List α} (hperm : l'.Perm l) :
    survivor cls key lower l' = survivor cls key lower l := by
  have hmem : ∀ a ∈ l', a ∈ l := fun a ha => hperm.mem_iff.1 ha
  rw [survivor_eq_best hlower hclash (hperm.nodup_iff.2 hnodup) hmem, survivor_eq_best hlower hclash hnodup fun _ => id]
  have h' := Best.bounds_foldl (rank cls key) (fun _ => true) l'
  have h := Best.bounds_foldl (rank cls key) (fun _ => true) l
  revert h h'
  generalize l'.foldl (Best.better (rank cls key) fun _ => true) none = o'
  generalize l.foldl (Best.better (rank cls key) fun _ => true) none = o
  intro h' h
  cases h with
  | none hnone =>
    cases h' with
    | none => rfl
    | some hc' => exact absurd ⟨hmem _ hc'.1, rfl⟩ (hnone _)
  | some hc hle =>
    cases h' with
    | none hnone => exact absurd ⟨hperm.mem_iff.2 hc.1, rfl⟩ (hnone _)
    | some hc' hle' =>
      have hrank := le_antisymm (hle' _ ⟨hperm.mem_iff.2 hc.1, rfl⟩) (hle _ ⟨hmem _ hc'.1, rfl⟩)
      by_contra hne
      refine rank_injective_of_key (fun heq => hne ?_) hrank
      rw [hkey _ (hmem _ hc'.1) _ hc.1 heq]

end noClash

theorem orderly_iff (hlower : ∀ c, lower c ≤ c) (hnodup : l.Nodup) (hkey : ∀ a ∈ l, ∀ b ∈ l, key a = key b → a = b) :
    Orderly cls key lower l ↔ ∀ a ∈ l, ∀ b ∈ l, a ≠ b → ¬ Clash cls key lower a b := by
  constructor
  · intro h a ha b hb hne hclash
    obtain ⟨hab, hba⟩ := hclash.replaces hlower
    rcases h.exactlyOne a ha b hb hne with ⟨-, hno⟩ | ⟨-, hno⟩
    · exact hno hba
    · exact hno hab
  · intro hclash
    have hrank : ∀ a ∈ l, ∀ b ∈ l, a ≠ b → (Replaces cls key lower a b ↔ rank cls key b < rank cls key a) :=
      fun a ha b hb => replaces_iff_of_mem hlower hclash ha hb
    refine ⟨fun a ha b hb hne => ?_, fun a ha b hb c hc hab hbc => ?_, fun l' hperm => ?_⟩
    · rw [hrank a ha b hb hne, hrank b hb a ha hne.symm]
      have hne' : rank cls key a ≠ rank cls key b := rank_injective_of_key fun heq => hne (hkey a ha b hb heq)
      rcases lt_or_gt_of_ne hne' with hlt | hlt
      · exact .inr ⟨hlt, hlt.asymm⟩
      · exact .inl ⟨hlt, hlt.asymm⟩
    · by_cases h1 : a = b
      · exact h1 ▸ hbc
      by_cases h2 : b = c
      · exact h2 ▸ hab
      have hlt := ((hrank b hb c hc h2).1 hbc).trans ((hrank a ha b hb h1).1 hab)
      have h3 : a ≠ c := fun h => (h ▸ hlt).false
      exact (hrank a ha c hc h3).2 hlt
    · exact survivor_eq_of_perm hlower hclash hkey hnodup hperm

end Replace
