import Mathlib.Data.List.Perm.Subperm
import PttaiCore.OplogSigns

/-! # Putting signatures together -/

namespace PttaiCore

open List

def SignsSorted (signInfos : List SignInfo) : Prop := signInfos.Pairwise fun s t => s.id < t.id

instance (signInfos : List SignInfo) : Decidable (SignsSorted signInfos) :=
  inferInstanceAs (Decidable (signInfos.Pairwise fun s t => s.id < t.id))

def signerIDs (signInfos : List SignInfo) : List PttID := signInfos.map SignInfo.id

structure Integrated (signInfos origSignInfos : List SignInfo) (r : List SignInfo × Bool × Bool) : Prop where
  sorted : SignsSorted r.1
  mem_iff : ∀ id, id ∈ signerIDs r.1 ↔ id ∈ signerIDs signInfos ∨ id ∈ signerIDs origSignInfos
  isAll_iff : r.2.1 = true ↔ ∀ id ∈ signerIDs origSignInfos, id ∈ signerIDs signInfos
  isAllOrig_iff : r.2.2 = true ↔ ∀ id ∈ signerIDs signInfos, id ∈ signerIDs origSignInfos

namespace SignInfosAux

variable {s t : SignInfo} {l m : List SignInfo}

@[simp] theorem mem_signerIDs_cons {id : PttID} : id ∈ signerIDs (s :: l) ↔ id = s.id ∨ id ∈ signerIDs l := mem_cons

@[simp] theorem not_mem_signerIDs_nil {id : PttID} : id ∉ signerIDs [] := not_mem_nil

theorem lt_of_mem_tail (h : SignsSorted (s :: l)) {id : PttID} (hid : id ∈ signerIDs l) : s.id < id := by
  obtain ⟨t, ht, rfl⟩ := mem_map.1 hid
  exact (pairwise_cons.1 h).1 t ht

theorem le_of_mem (h : SignsSorted (s :: l)) {id : PttID} (hid : id ∈ signerIDs (s :: l)) : s.id ≤ id := by
  rcases mem_signerIDs_cons.1 hid with rfl | hid
  · exact le_refl _
  · exact (lt_of_mem_tail h hid).le

theorem SignsSorted.tail (h : SignsSorted (s :: l)) : SignsSorted l := (pairwise_cons.1 h).2

theorem SignsSorted.nodup (h : SignsSorted l) : (signerIDs l).Nodup := (pairwise_map.2 h).imp fun hlt => ne_of_lt hlt

/-! ## The loop -/

theorem loop_cons_cons (s t : SignInfo) (l m : List SignInfo) : integrateSignInfosLoop (s :: l) (t :: m) =
    if s.id < t.id then s :: integrateSignInfosLoop l (t :: m)
    else if t.id < s.id then t :: integrateSignInfosLoop (s :: l) m
    else s :: integrateSignInfosLoop l m := rfl

theorem loop_induction {P : List SignInfo → List SignInfo → List SignInfo → Prop} (nil_left : ∀ m, P [] m [])
    (nil_right : ∀ s l, P (s :: l) [] [])
    (lt : ∀ s l t m r, s.id < t.id → P l (t :: m) r → P (s :: l) (t :: m) (s :: r))
    (gt : ∀ s l t m r, t.id < s.id → P (s :: l) m r → P (s :: l) (t :: m) (t :: r))
    (eq : ∀ s l t m r, s.id = t.id → P l m r → P (s :: l) (t :: m) (s :: r))
    (l m : List SignInfo) : P l m (integrateSignInfosLoop l m) := by
  induction l generalizing m with
  | nil => exact nil_left m
  | cons s l ihl =>
    induction m with
    | nil => exact nil_right s l
    | cons t m ihm =>
      rw [loop_cons_cons]
      split_ifs with hlt hgt
      · exact lt s l t m _ hlt (ihl (t :: m))
      · exact gt s l t m _ hgt ihm
      · exact eq s l t m _ (le_antisymm (not_lt.1 hgt) (not_lt.1 hlt)) (ihl m)

def Reaches (l : List SignInfo) (id : PttID) : Prop := ∃ id' ∈ signerIDs l, id ≤ id'

theorem Reaches.cons {id : PttID} (h : Reaches l id) : Reaches (s :: l) id := by
  obtain ⟨id', hmem, hle⟩ := h
  exact ⟨id', mem_signerIDs_cons.2 (.inr hmem), hle⟩

theorem reaches_of_mem {id : PttID} (h : id ∈ signerIDs l) : Reaches l id := ⟨id, h, le_refl id⟩

theorem reaches_head {id : PttID} (h : id ≤ s.id) : Reaches (s :: l) id := ⟨s.id, mem_signerIDs_cons.2 (.inl rfl), h⟩

theorem Reaches.tail {id : PttID} (h : Reaches (s :: l) id) (hlt : s.id < id) : Reaches l id := by
  obtain ⟨id', hmem, hle⟩ := h
  rcases mem_signerIDs_cons.1 hmem with rfl | hmem
  · exact absurd hle (not_le.2 hlt)
  · exact ⟨id', hmem, hle⟩

theorem mem_loop_iff (l m : List SignInfo) : SignsSorted l → SignsSorted m → ∀ id,
    id ∈ signerIDs (integrateSignInfosLoop l m) ↔ (id ∈ signerIDs l ∨ id ∈ signerIDs m) ∧ Reaches l id ∧ Reaches m id := by
  refine loop_induction (P := fun l m r => SignsSorted l → SignsSorted m → ∀ id,
    id ∈ signerIDs r ↔ (id ∈ signerIDs l ∨ id ∈ signerIDs m) ∧ Reaches l id ∧ Reaches m id) ?_ ?_ ?_ ?_ ?_ l m
  · intro m _ _ id
    simp [Reaches]
  · intro s l _ _ id
    simp [Reaches]
  · intro s l t m r hlt ih hl hm id
    rw [mem_signerIDs_cons, ih (SignsSorted.tail hl) hm id]
    constructor
    · rintro (rfl | ⟨hmem, hreach, hreach'⟩)
      · exact ⟨.inl (mem_signerIDs_cons.2 (.inl rfl)), reaches_head (le_refl _), reaches_head hlt.le⟩
      · exact ⟨hmem.imp_left fun h => mem_signerIDs_cons.2 (.inr h), hreach.cons, hreach'⟩
    · rintro ⟨hmem, hreach, hreach'⟩
      rcases hmem with hmem | hmem
      · rcases mem_signerIDs_cons.1 hmem with rfl | hmem
        · exact .inl rfl
        · exact .inr ⟨.inl hmem, reaches_of_mem hmem, hreach'⟩
      · exact .inr ⟨.inr hmem, hreach.tail (hlt.trans_le (le_of_mem hm hmem)), hreach'⟩
  · intro s l t m r hgt ih hl hm id
    rw [mem_signerIDs_cons, ih hl (SignsSorted.tail hm) id]
    constructor
    · rintro (rfl | ⟨hmem, hreach, hreach'⟩)
      · exact ⟨.inr (mem_signerIDs_cons.2 (.inl rfl)), reaches_head hgt.le, reaches_head (le_refl _)⟩
      · exact ⟨hmem.imp_right fun h => mem_signerIDs_cons.2 (.inr h), hreach, hreach'.cons⟩
    · rintro ⟨hmem, hreach, hreach'⟩
      rcases hmem with hmem | hmem
      · exact .inr ⟨.inl hmem, hreach, hreach'.tail (hgt.trans_le (le_of_mem hl hmem))⟩
      · rcases mem_signerIDs_cons.1 hmem with rfl | hmem
        · exact .inl rfl
        · exact .inr ⟨.inr hmem, hreach, reaches_of_mem hmem⟩
  · intro s l t m r heq ih hl hm id
    rw [mem_signerIDs_cons, ih (SignsSorted.tail hl) (SignsSorted.tail hm) id]
    constructor
    · rintro (rfl | ⟨hmem, hreach, hreach'⟩)
      · exact ⟨.inl (mem_signerIDs_cons.2 (.inl rfl)), reaches_head (le_refl _), reaches_head heq.le⟩
      · exact ⟨hmem.imp (fun h => mem_signerIDs_cons.2 (.inr h)) fun h => mem_signerIDs_cons.2 (.inr h), hreach.cons,
          hreach'.cons⟩
    · rintro ⟨hmem, hreach, hreach'⟩
      by_cases hid : id = s.id
      · exact .inl hid
      · have htail : id ∈ signerIDs l ∨ id ∈ signerIDs m :=
          hmem.imp (fun h => (mem_signerIDs_cons.1 h).resolve_left hid)
            fun h => (mem_signerIDs_cons.1 h).resolve_left fun h => hid (h.trans heq.symm)
        have hlt : s.id < id :=
          htail.elim (lt_of_mem_tail hl) fun h => heq ▸ lt_of_mem_tail hm h
        exact .inr ⟨htail, hreach.tail hlt, hreach'.tail (heq ▸ hlt)⟩

theorem sorted_loop (l m : List SignInfo) : SignsSorted l → SignsSorted m → SignsSorted (integrateSignInfosLoop l m) := by
  have key : ∀ (s : SignInfo) (l m : List SignInfo), SignsSorted l → SignsSorted m → (∀ id ∈ signerIDs l, s.id < id) →
      (∀ id ∈ signerIDs m, s.id < id) → SignsSorted (integrateSignInfosLoop l m) →
      SignsSorted (s :: integrateSignInfosLoop l m) := by
    intro s l m hl hm hafter hafter' hsorted
    refine pairwise_cons.2 ⟨?_, hsorted⟩
    intro t ht
    have hmem := ((mem_loop_iff l m hl hm t.id).1 (mem_map_of_mem ht)).1
    exact hmem.elim (hafter _) (hafter' _)
  induction l generalizing m with
  | nil => exact fun _ _ => List.Pairwise.nil
  | cons s l ihl =>
    induction m with
    | nil => exact fun _ _ => List.Pairwise.nil
    | cons t m ihm =>
      intro hl hm
      rw [loop_cons_cons]
      split_ifs with hlt hgt
      · refine key s l (t :: m) (SignsSorted.tail hl) hm (fun _ => lt_of_mem_tail hl) ?_ (ihl (t :: m) (SignsSorted.tail hl) hm)
        exact fun id hid => hlt.trans_le (le_of_mem hm hid)
      · refine key t (s :: l) m hl (SignsSorted.tail hm) ?_ (fun _ => lt_of_mem_tail hm) (ihm hl (SignsSorted.tail hm))
        exact fun id hid => hgt.trans_le (le_of_mem hl hid)
      · have heq : s.id = t.id := le_antisymm (not_lt.1 hgt) (not_lt.1 hlt)
        refine key s l m (SignsSorted.tail hl) (SignsSorted.tail hm) (fun _ => lt_of_mem_tail hl) ?_
          (ihl m (SignsSorted.tail hl) (SignsSorted.tail hm))
        exact fun id hid => heq ▸ lt_of_mem_tail hm hid

/-! ## The last signers -/

theorem reaches_iff_le_last (h : SignsSorted l) (hlast : l.getLast? = some s) (id : PttID) : Reaches l id ↔ id ≤ s.id := by
  obtain ⟨l', rfl⟩ := List.getLast?_eq_some_iff.1 hlast
  constructor
  · rintro ⟨id', hmem, hle⟩
    obtain ⟨t, ht, rfl⟩ := mem_map.1 hmem
    rcases mem_append.1 ht with ht | ht
    · exact hle.trans ((pairwise_append.1 h).2.2 t ht s (.head _)).le
    · rwa [mem_singleton.1 ht] at hle
  · intro hle
    exact ⟨s.id, mem_map_of_mem (mem_append_right l' (.head _)), hle⟩

theorem mem_signerIDs_of_getLast? (hlast : l.getLast? = some s) : s.id ∈ signerIDs l :=
  mem_map_of_mem (mem_of_getLast? hlast)

theorem forall_mem_loop_iff (hl : SignsSorted l) (hm : SignsSorted m) (hlast : l.getLast? = some s) (hlast' : m.getLast? = some t) :
    (∀ id, id ∈ signerIDs (integrateSignInfosLoop l m) ↔ id ∈ signerIDs l ∨ id ∈ signerIDs m) ↔ s.id = t.id := by
  have hmem : ∀ id, id ∈ signerIDs (integrateSignInfosLoop l m) ↔
      (id ∈ signerIDs l ∨ id ∈ signerIDs m) ∧ id ≤ s.id ∧ id ≤ t.id := by
    intro id
    rw [mem_loop_iff l m hl hm id, reaches_iff_le_last hl hlast, reaches_iff_le_last hm hlast']
  constructor
  · intro h
    have hs := ((hmem s.id).1 ((h s.id).2 (.inl (mem_signerIDs_of_getLast? hlast)))).2.2
    have ht := ((hmem t.id).1 ((h t.id).2 (.inr (mem_signerIDs_of_getLast? hlast')))).2.1
    exact le_antisymm hs ht
  · intro heq id
    rw [hmem, ← heq, and_self]
    refine and_iff_left_of_imp ?_
    rintro (hid | hid)
    · exact (reaches_iff_le_last hl hlast id).1 (reaches_of_mem hid)
    · rw [heq]
      exact (reaches_iff_le_last hm hlast' id).1 (reaches_of_mem hid)

theorem length_eq_iff_subset (hl : SignsSorted l) (hm : SignsSorted m) (h : signerIDs m ⊆ signerIDs l) :
    l.length = m.length ↔ signerIDs l ⊆ signerIDs m := by
  have hlen : ∀ l : List SignInfo, (signerIDs l).length = l.length := fun l => length_map _
  have hsub : List.Subperm (signerIDs m) (signerIDs l) := subperm_of_subset (SignsSorted.nodup hm) h
  constructor
  · intro heq
    refine ((hsub.perm_of_length_le ?_).symm).subset
    rw [hlen, hlen, heq]
  · intro hsub'
    have hperm := hsub.antisymm (subperm_of_subset (SignsSorted.nodup hl) hsub')
    rw [← hlen l, ← hlen m, hperm.length_eq]

theorem integrated_loop (hl : SignsSorted l) (hm : SignsSorted m)
    (h : ∀ id, id ∈ signerIDs (integrateSignInfosLoop l m) ↔ id ∈ signerIDs l ∨ id ∈ signerIDs m) :
    Integrated l m (integrateSignInfosLoop l m, (integrateSignInfosLoop l m).length == l.length,
      (integrateSignInfosLoop l m).length == m.length) := by
  have hsorted := sorted_loop l m hl hm
  refine ⟨hsorted, h, ?_, ?_⟩
  · rw [beq_iff_eq, length_eq_iff_subset hsorted hl fun id hid => (h id).2 (Or.inl hid)]
    exact ⟨fun hsub id hid => hsub ((h id).2 (.inr hid)), fun hsub id hid => ((h id).1 hid).elim (fun h => h) (hsub id)⟩
  · rw [beq_iff_eq, length_eq_iff_subset hsorted hm fun id hid => (h id).2 (Or.inr hid)]
    exact ⟨fun hsub id hid => hsub ((h id).2 (.inl hid)), fun hsub id hid => ((h id).1 hid).elim (hsub id) fun h => h⟩

/-! ## Empty lists -/

theorem forall_mem_nil_iff : (∀ id ∈ signerIDs l, id ∈ signerIDs []) ↔ l = [] := by
  cases l with
  | nil => simp
  | cons s l =>
    refine iff_of_false ?_ (cons_ne_nil s l)
    intro h
    exact not_mem_signerIDs_nil (h s.id (mem_signerIDs_cons.2 (.inl rfl)))

theorem integrated_nil_left (hm : SignsSorted m) : Integrated [] m (integrateSignInfos [] m) := by
  have hr : integrateSignInfos [] m = (m, decide (m = []), true) := by
    cases m <;> rfl
  rw [hr]
  exact ⟨hm, by simp, by rw [decide_eq_true_iff, forall_mem_nil_iff], by simp⟩

theorem integrated_nil_right (hl : SignsSorted l) : Integrated l [] (integrateSignInfos l []) := by
  have hr : integrateSignInfos l [] = (l, true, decide (l = [])) := by
    cases l <;> rfl
  rw [hr]
  exact ⟨hl, by simp, by simp, by rw [decide_eq_true_iff, forall_mem_nil_iff]⟩

end SignInfosAux

open SignInfosAux in
/-- Two sorted lists are put together as they should exactly if one of them is empty or their last signers are the same. -/
theorem integrateSignInfos_right_iff (signInfos origSignInfos : List SignInfo) (hsorted : SignsSorted signInfos)
    (hsorted' : SignsSorted origSignInfos) :
    Integrated signInfos origSignInfos (integrateSignInfos signInfos origSignInfos) ↔
      signInfos = [] ∨ origSignInfos = [] ∨
        signInfos.getLast?.map SignInfo.id = origSignInfos.getLast?.map SignInfo.id := by
  rcases signInfos.eq_nil_or_concat' with rfl | ⟨l, s, rfl⟩
  · exact iff_of_true (integrated_nil_left hsorted') (Or.inl rfl)
  · rcases origSignInfos.eq_nil_or_concat' with rfl | ⟨m, t, rfl⟩
    · exact iff_of_true (integrated_nil_right hsorted) (Or.inr (Or.inl rfl))
    · have hne : ∀ (l : List SignInfo) (s : SignInfo), l ++ [s] ≠ [] := by simp
      have hlast : ∀ (l : List SignInfo) (s : SignInfo), (l ++ [s]).getLast? = some s := by simp
      have hloop := forall_mem_loop_iff hsorted hsorted' (hlast l s) (hlast m t)
      rw [integrateSignInfos, if_neg fun h => hne l s h.1, if_neg (hne m t), if_neg (hne l s), hlast, hlast, Option.map_some,
        Option.map_some, Option.some.injEq]
      constructor
      · intro h
        exact Or.inr (Or.inr (hloop.1 h.mem_iff))
      · rintro (h | h | h)
        · exact absurd h (hne l s)
        · exact absurd h (hne m t)
        · exact integrated_loop hsorted hsorted' (hloop.2 h)

namespace SignInfosWitness

def sign (b : UInt8) : SignInfo := ⟨ByteArrayOf.replicate 40 b, .zero, [], .zero, [], [], none⟩

end SignInfosWitness

open SignInfosWitness in
theorem integrateSignInfos_right_iff_three :
    Integrated [sign 1, sign 3] [sign 2, sign 3] (integrateSignInfos [sign 1, sign 3] [sign 2, sign 3]) :=
  (integrateSignInfos_right_iff [sign 1, sign 3] [sign 2, sign 3] (by decide +kernel) (by decide +kernel)).2
    (Or.inr (Or.inr (by decide +kernel)))

open SignInfosWitness in
/-- The second of two signers is lost, and both flags say that nothing was new. -/
theorem second_signature_is_lost : SignsSorted [sign 1] ∧ SignsSorted [sign 2] ∧
    (sign 2).id ∉ signerIDs (integrateSignInfos [sign 1] [sign 2]).1 ∧
    (integrateSignInfos [sign 1] [sign 2]).2 = (true, true) ∧ (sign 2).id ∉ signerIDs [sign 1] := by
  refine ⟨by decide +kernel, by decide +kernel, by decide +kernel, by decide +kernel, by decide +kernel⟩

end PttaiCore
