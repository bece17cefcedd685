import Mathlib.Data.List.Basic
import Mathlib.Data.Set.Lattice
import Mathlib.Order.CompletePartialOrder

/-! # Actions with a footprint -/

namespace Local

variable {σ ι ν ρ τ α ε : Type*}

structure LocalTo (look : σ → ι → ν) (I : σ → Prop) (F : Set ι) (P : σ → ρ × σ) : Prop where
  keeps : ∀ s, I s → I (P s).2
  frame : ∀ s, I s → ∀ i ∉ F, look (P s).2 i = look s i
  depends : ∀ s t, I s → I t → (∀ i ∈ F, look s i = look t i) → (P s).1 = (P t).1 ∧ ∀ i ∈ F, look (P s).2 i = look (P t).2 i

section closure

variable {look : σ → ι → ν} {I : σ → Prop} {F G : Set ι}

theorem LocalTo.pure (r : ρ) : LocalTo look I F fun s => (r, s) :=
  ⟨fun _ h => h, fun _ _ _ _ => rfl, fun _ _ _ _ h => ⟨rfl, h⟩⟩

theorem LocalTo.mono {P : σ → ρ × σ} (h : LocalTo look I F P) (hFG : F ⊆ G) : LocalTo look I G P where
  keeps := h.keeps
  frame s hs i hi := h.frame s hs i fun hF => hi (hFG hF)
  depends s t hs ht hst := by
    obtain ⟨hr, hF⟩ := h.depends s t hs ht fun i hi => hst i (hFG hi)
    refine ⟨hr, fun i hi => ?_⟩
    by_cases hiF : i ∈ F
    · exact hF i hiF
    · rw [h.frame s hs i hiF, h.frame t ht i hiF, hst i hi]

theorem LocalTo.congr {P Q : σ → ρ × σ} (h : LocalTo look I F P) (hPQ : ∀ s, P s = Q s) : LocalTo look I F Q :=
  (funext hPQ : P = Q) ▸ h

theorem LocalTo.bind {P : σ → ρ × σ} {Q : ρ → σ → τ × σ} (hP : LocalTo look I F P) (hQ : ∀ s, I s → LocalTo look I F (Q (P s).1)) :
    LocalTo look I F fun s => Q (P s).1 (P s).2 where
  keeps s hs := (hQ s hs).keeps _ (hP.keeps s hs)
  frame s hs i hi := ((hQ s hs).frame _ (hP.keeps s hs) i hi).trans (hP.frame s hs i hi)
  depends s t hs ht hst := by
    obtain ⟨hr, hF⟩ := hP.depends s t hs ht hst
    rw [← hr]
    exact (hQ s hs).depends _ _ (hP.keeps s hs) (hP.keeps t ht) hF

def andThen (P : σ → Except ε Unit × σ) (Q : σ → Option ε × σ) (s : σ) : Option ε × σ :=
  match P s with
  | (.error e, s) => (some e, s)
  | (.ok _, s) => Q s

theorem LocalTo.andThen {P : σ → Except ε Unit × σ} {Q : σ → Option ε × σ} (hP : LocalTo look I F P) (hQ : LocalTo look I F Q) :
    LocalTo look I F (andThen P Q) where
  keeps s hs := by
    have hPs := hP.keeps s hs
    unfold Local.andThen
    rcases hP : P s with ⟨e | u, t⟩
    · rwa [hP] at hPs
    · rw [hP] at hPs
      exact hQ.keeps t hPs
  frame s hs i hi := by
    have hPs := hP.keeps s hs
    have hframe := hP.frame s hs i hi
    unfold Local.andThen
    rcases hP : P s with ⟨e | u, t⟩
    · rwa [hP] at hframe
    · rw [hP] at hframe hPs
      exact (hQ.frame t hPs i hi).trans hframe
  depends s t hs ht hst := by
    obtain ⟨hr, hF⟩ := hP.depends s t hs ht hst
    have hPs := hP.keeps s hs
    have hPt := hP.keeps t ht
    unfold Local.andThen
    rcases hs' : P s with ⟨e | u, s'⟩
    · rcases ht' : P t with ⟨e' | u', t'⟩
      · rw [hs', ht'] at hr hF
        cases hr
        exact ⟨rfl, hF⟩
      · rw [hs', ht'] at hr
        cases hr
    · rcases ht' : P t with ⟨e' | u', t'⟩
      · rw [hs', ht'] at hr
        cases hr
      · rw [hs', ht'] at hF
        rw [hs'] at hPs
        rw [ht'] at hPt
        exact hQ.depends s' t' hPs hPt hF

end closure

/-! ## Runs -/

section run

variable (P : α → σ → Option ε × σ)

def runAll : List α → σ → Option ε × σ
  | [], s => (none, s)
  | a :: l, s =>
    match P a s with
    | (some e, s) => (some e, s)
    | (none, s) => runAll l s

variable {P}

theorem runAll_cons_of_none {a : α} {s : σ} (h : (P a s).1 = none) (l : List α) : runAll P (a :: l) s = runAll P l (P a s).2 := by
  rw [runAll]
  rcases hP : P a s with ⟨_ | e, t⟩
  · rfl
  · rw [hP] at h
    cases h

theorem fst_of_runAll_cons {a : α} {l : List α} {s s' : σ} (h : runAll P (a :: l) s = (none, s')) : (P a s).1 = none := by
  rw [runAll] at h
  rcases hP : P a s with ⟨_ | e, t⟩
  · rfl
  · simp [hP] at h

variable {look : σ → ι → ν} {I : σ → Prop} {F : α → Set ι} {l l' : List α} {s s' : σ}

theorem runAll_spec (hlocal : ∀ a ∈ l, LocalTo look I (F a) (P a)) (hdisj : l.Pairwise fun a b => Disjoint (F a) (F b)) (hs : I s)
    (hrun : runAll P l s = (none, s')) :
    (∀ a ∈ l, (P a s).1 = none ∧ ∀ i ∈ F a, look s' i = look (P a s).2 i) ∧ ∀ i, (∀ a ∈ l, i ∉ F a) → look s' i = look s i := by
  induction l generalizing s with
  | nil =>
    cases hrun
    exact ⟨by simp, fun _ _ => rfl⟩
  | cons a l ih =>
    have hnone := fst_of_runAll_cons hrun
    rw [runAll_cons_of_none hnone] at hrun
    rw [List.forall_mem_cons] at hlocal
    rw [List.pairwise_cons] at hdisj
    obtain ⟨hla, hl⟩ := hlocal
    obtain ⟨hcells, hothers⟩ := ih hl hdisj.2 (hla.keeps s hs) hrun
    have hoff : ∀ b ∈ l, ∀ i ∈ F b, look (P a s).2 i = look s i :=
      fun b hb i hi => hla.frame s hs i fun hia => Set.disjoint_left.1 (hdisj.1 b hb) hia hi
    refine ⟨List.forall_mem_cons.2 ⟨⟨hnone, fun i hi => ?_⟩, fun b hb => ?_⟩, fun i hi => ?_⟩
    · exact hothers i fun b hb hib => Set.disjoint_left.1 (hdisj.1 b hb) hi hib
    · -- the first action did not touch the cells of the others
      obtain ⟨hanswer, hsame⟩ := (hl b hb).depends _ s (hla.keeps s hs) hs (hoff b hb)
      obtain ⟨hb1, hb2⟩ := hcells b hb
      exact ⟨hanswer ▸ hb1, fun i hi => (hb2 i hi).trans (hsame i hi)⟩
    · rw [List.forall_mem_cons] at hi
      rw [hothers i hi.2, hla.frame s hs i hi.1]

theorem exists_runAll (hlocal : ∀ a ∈ l, LocalTo look I (F a) (P a)) (hdisj : l.Pairwise fun a b => Disjoint (F a) (F b)) (hs : I s)
    (hnone : ∀ a ∈ l, (P a s).1 = none) : ∃ s', runAll P l s = (none, s') := by
  induction l generalizing s with
  | nil => exact ⟨s, rfl⟩
  | cons a l ih =>
    rw [List.forall_mem_cons] at hlocal hnone
    rw [List.pairwise_cons] at hdisj
    rw [runAll_cons_of_none hnone.1]
    refine ih hlocal.2 hdisj.2 (hlocal.1.keeps s hs) fun b hb => ?_
    have hoff : ∀ i ∈ F b, look (P a s).2 i = look s i :=
      fun i hi => hlocal.1.frame s hs i fun hia => Set.disjoint_left.1 (hdisj.1 b hb) hia hi
    rw [((hlocal.2 b hb).depends _ s (hlocal.1.keeps s hs) hs hoff).1]
    exact hnone.2 b hb

theorem runAll_perm (hext : ∀ s t, look s = look t → s = t) (hlocal : ∀ a ∈ l, LocalTo look I (F a) (P a))
    (hdisj : l.Pairwise fun a b => Disjoint (F a) (F b)) (hs : I s) (hperm : l.Perm l') (hrun : runAll P l s = (none, s')) :
    runAll P l' s = (none, s') := by
  have hlocal' : ∀ a ∈ l', LocalTo look I (F a) (P a) := fun a ha => hlocal a (hperm.mem_iff.2 ha)
  have hdisj' : l'.Pairwise fun a b => Disjoint (F a) (F b) := hperm.pairwise hdisj fun h => h.symm
  obtain ⟨hcells, hothers⟩ := runAll_spec hlocal hdisj hs hrun
  obtain ⟨t, ht⟩ := exists_runAll hlocal' hdisj' hs fun a ha => (hcells a (hperm.mem_iff.2 ha)).1
  obtain ⟨hcells', hothers'⟩ := runAll_spec hlocal' hdisj' hs ht
  have heq : t = s' := by
    refine hext t s' (funext fun i => ?_)
    by_cases hi : ∃ a ∈ l, i ∈ F a
    · obtain ⟨a, ha, hia⟩ := hi
      rw [(hcells a ha).2 i hia, (hcells' a (hperm.mem_iff.1 ha)).2 i hia]
    · push Not at hi
      rw [hothers i hi, hothers' i fun a ha => hi a (hperm.mem_iff.2 ha)]
  rw [ht, heq]

end run

end Local
