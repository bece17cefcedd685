import PttaiCore.RaftEntries
import PttaiCore.Theorems.RaftLog
import PttaiCore.Theorems.Weights

/-! # Entries are applied once -/

namespace PttaiCore

open List

namespace Me

def Consecutive (ents : List RaftEntry) : Prop := ∀ e ∈ ents.head?, ContiguousFrom e.index.toNat ents

def Connects (a : Nat) (ents : List RaftEntry) : Prop := ∀ e ∈ ents.head?, e.index.toNat ≤ a + 1 ∧ (a + 1 = 2 ^ 64 → e.index ≠ 0)

instance instDecidableConnects (a : Nat) (ents : List RaftEntry) : Decidable (Connects a ents) :=
  inferInstanceAs (Decidable (∀ e ∈ ents.head?, e.index.toNat ≤ a + 1 ∧ (a + 1 = 2 ^ 64 → e.index ≠ 0)))

def Publishable (env : RaftEnv) (e : RaftEntry) : Prop :=
  e.type = .confChange →
    (((env.unmarshal e.data).type = .addNode ∨ (env.unmarshal e.data).type = .removeNode) →
      sizeNodeID ≤ (env.unmarshal e.data).context.length) ∧
    ((env.unmarshal e.data).type = .unexpected → (env.unmarshal e.data).nodeID = 0)

def highest (a : Nat) (ents : List RaftEntry) : Nat := ents.foldl (fun n e => max n e.index.toNat) a

def BatchesFit (env : RaftEnv) : Nat → List (List RaftEntry) → Prop
  | _, [] => True
  | a, ents :: rest =>
    Connects a ents ∧ (∀ e ∈ ents, a < e.index.toNat → Publishable env e) ∧ BatchesFit env (highest a ents) rest

structure BatchesCover (a n : Nat) (batches : List (List RaftEntry)) : Prop where
  le : a ≤ n
  complete : ∀ i, a < i → i ≤ n → ∃ ents ∈ batches, ∃ e ∈ ents, e.index.toNat = i
  within : ∀ ents ∈ batches, ∀ e ∈ ents, e.index.toNat ≤ n

def RaftReady.ofBatch (ents : List RaftEntry) : RaftReady := ⟨.zero, ents⟩

namespace RaftService

def CutsRight (s : RaftService) (ents : List RaftEntry) : Prop :=
  s.raftEntriesToApply ents = ents.filter fun e => s.raftAppliedIndex < e.index

def serveBatches (Γ : NodeCtx) (env : RaftEnv) (s : RaftService) (batches : List (List RaftEntry)) : Option RaftService :=
  s.serveReadies Γ env (batches.map .ofBatch)

structure AppliesOnce (Γ : NodeCtx) (env : RaftEnv) (s : RaftService) (batches : List (List RaftEntry)) (n : Nat) : Prop where
  cut : ∀ before ents rest s', batches = before ++ ents :: rest → s.serveBatches Γ env before = some s' → s'.CutsRight ents
  done : ∃ s', s.serveBatches Γ env batches = some s' ∧ s'.raftAppliedIndex.toNat = n ∧
    s'.published.map (·.index.toNat) =
      s.published.map (·.index.toNat) ++ List.range' (s.raftAppliedIndex.toNat + 1) (n - s.raftAppliedIndex.toNat)

end RaftService

namespace RaftEntriesAux

open RaftService RaftLogAux

variable {Γ : NodeCtx} {env : RaftEnv} {s s' : RaftService} {a i n : Nat} {e : RaftEntry} {l ents : List RaftEntry}
  {batches rest : List (List RaftEntry)}

/-! ## Consecutive entries -/

theorem indices_of_contiguous (h : ContiguousFrom i l) : l.map (·.index.toNat) = List.range' i l.length := by
  induction l generalizing i with
  | nil => rfl
  | cons e l ih => rw [map_cons, h.1, ih h.2, length_cons, range'_succ]

theorem filter_of_contiguous (h : ContiguousFrom i l) (a : Nat) :
    (l.filter fun e => decide (a < e.index.toNat)) = l.drop (a + 1 - i) := by
  induction l generalizing i with
  | nil => simp
  | cons e l ih =>
    by_cases hlt : a < e.index.toNat
    · have hi : a + 1 - i = 0 := by have := h.1; omega
      have hi' : a + 1 - (i + 1) = 0 := by omega
      rw [filter_cons_of_pos (by simpa using hlt), ih h.2, hi, hi']
      rfl
    · have hi : a + 1 - i = a + 1 - (i + 1) + 1 := by have := h.1; omega
      rw [filter_cons_of_neg (by simpa using hlt), ih h.2, hi, drop_succ_cons]

theorem length_le_of_contiguous (h : ContiguousFrom i l) (hne : l ≠ []) : i + l.length ≤ 2 ^ 64 := by
  have hlast := index_getLast h hne
  have hlt := (l.getLast hne).index.toNat_lt
  omega

theorem highest_of_contiguous (h : ContiguousFrom i l) : highest a l = if l = [] then a else max a (i + l.length - 1) := by
  induction l generalizing a i with
  | nil => rfl
  | cons e l ih =>
    rw [if_neg (cons_ne_nil e l)]
    change highest (max a e.index.toNat) l = _
    rw [ih h.2, h.1, length_cons]
    split_ifs with hl
    · rw [hl]
      simp
    · have := length_pos_iff.2 hl
      omega

/-! ## The cut -/

theorem toNat_newFirstIdx (applied first : UInt64) :
    (applied - first + 1).toNat = (2 ^ 64 - first.toNat + applied.toNat + 1) % 2 ^ 64 := by
  rw [UInt64.toNat_add, UInt64.toNat_sub]
  simp

theorem filter_new_eq (hents : Consecutive (e :: l)) :
    ((e :: l).filter fun x => decide (s.raftAppliedIndex < x.index)) = (e :: l).drop (s.raftAppliedIndex.toNat + 1 - e.index.toNat) :=
  filter_of_contiguous (hents e rfl) s.raftAppliedIndex.toNat

theorem cutsRight_iff (hents : Consecutive ents) : s.CutsRight ents ↔ Connects s.raftAppliedIndex.toNat ents := by
  cases ents with
  | nil => exact ⟨fun _ e he => (by cases he), fun _ => rfl⟩
  | cons e l =>
    have hlen := length_le_of_contiguous (hents e rfl) (cons_ne_nil e l)
    have hpos : 0 < (e :: l).length := length_pos_iff.2 (cons_ne_nil e l)
    have ha := s.raftAppliedIndex.toNat_lt
    have hzero : e.index = 0 ↔ e.index.toNat = 0 := by rw [← UInt64.toNat_inj]; rfl
    unfold CutsRight
    rw [filter_new_eq hents, raftEntriesToApply]
    simp only [toNat_newFirstIdx]
    constructor
    · rintro hcut e' ⟨⟩
      refine ⟨?_, fun hmax hidx => ?_⟩
      · -- after a gap the position is beyond the end of the batch, all of which is new
        by_contra hgap
        rw [if_neg (by omega), show s.raftAppliedIndex.toNat + 1 - e.index.toNat = 0 by omega] at hcut
        cases hcut
      · rw [hzero] at hidx
        rw [if_pos (by omega), show (2 ^ 64 - e.index.toNat + s.raftAppliedIndex.toNat + 1) % 2 ^ 64 = 0 by omega,
          drop_eq_nil_of_le (i := s.raftAppliedIndex.toNat + 1 - e.index.toNat) (by omega)] at hcut
        cases hcut
    · intro hconn
      obtain ⟨hle, hmax⟩ := hconn e rfl
      rw [ne_eq, hzero] at hmax
      have hpos : (2 ^ 64 - e.index.toNat + s.raftAppliedIndex.toNat + 1) % 2 ^ 64 = s.raftAppliedIndex.toNat + 1 - e.index.toNat := by
        omega
      rw [hpos]
      split_ifs with hlt
      · rfl
      · rw [drop_eq_nil_of_le (Nat.le_of_not_lt hlt)]

theorem indices_to_apply (hents : Consecutive ents) (hconn : Connects s.raftAppliedIndex.toNat ents) :
    (s.raftEntriesToApply ents).map (·.index.toNat) =
      List.range' (s.raftAppliedIndex.toNat + 1) (highest s.raftAppliedIndex.toNat ents - s.raftAppliedIndex.toNat) := by
  rw [(cutsRight_iff hents).2 hconn]
  cases ents with
  | nil =>
    rw [highest, foldl_nil, Nat.sub_self]
    rfl
  | cons e l =>
    have hcont := hents e rfl
    have hle := (hconn e rfl).1
    rw [filter_new_eq hents, highest_of_contiguous hcont, if_neg (cons_ne_nil e l)]
    by_cases hlen : s.raftAppliedIndex.toNat + 1 - e.index.toNat ≤ (e :: l).length
    · rw [indices_of_contiguous (contiguous_drop hcont hlen), length_drop]
      congr 1 <;> omega
    · rw [drop_eq_nil_of_le (by omega), map_nil, show max s.raftAppliedIndex.toNat (e.index.toNat + (e :: l).length - 1) -
        s.raftAppliedIndex.toNat = 0 by omega]
      rfl

/-! ## Publishing -/

theorem publishRaftEntry_cases (Γ : NodeCtx) (env : RaftEnv) (s : RaftService) (e : RaftEntry) :
    (Publishable env e ∧ ∃ s', s.publishRaftEntry Γ env e = some s' ∧ s'.raftAppliedIndex = e.index ∧ s'.published = s.published ++ [e]) ∨
      (¬ Publishable env e ∧ s.publishRaftEntry Γ env e = none) := by
  cases htype : e.type with
  | normal =>
    refine .inl ⟨fun hconf => ?_, { s.setRaftAppliedIndex e.index with published := s.published ++ [e] }, ?_, rfl, rfl⟩
    · rw [htype] at hconf
      cases hconf
    · rw [publishRaftEntry, htype]
  | confChange =>
    unfold publishRaftEntry publishConfChange applyConfChange RaftConfChange.split Publishable
    rw [htype]
    generalize env.unmarshal e.data = cc
    cases hcc : cc.type <;> by_cases hlen : sizeNodeID ≤ cc.context.length <;> by_cases hid : cc.nodeID = 0 <;>
      simp [hcc, hlen, hid, setRaftAppliedIndex]

theorem publishRaftEntries_cons : s.publishRaftEntries Γ env (e :: l) = (s.publishRaftEntry Γ env e).bind fun s' => s'.publishRaftEntries Γ env l :=
  foldlM_cons

def lastIndexOf (a : Nat) (l : List RaftEntry) : Nat := l.foldl (fun _ e => e.index.toNat) a

theorem publishRaftEntries_of_publishable (h : ∀ e ∈ l, Publishable env e) : ∃ s', s.publishRaftEntries Γ env l = some s' := by
  induction l generalizing s with
  | nil => exact ⟨s, rfl⟩
  | cons e l ih =>
    rcases publishRaftEntry_cases Γ env s e with ⟨-, s₁, hs₁, -, -⟩ | ⟨hnot, -⟩
    · rw [publishRaftEntries_cons, hs₁]
      exact ih fun e' he' => h e' (mem_cons_of_mem e he')
    · exact absurd (h e (.head _)) hnot

theorem publishRaftEntries_eq_some (h : s.publishRaftEntries Γ env l = some s') : (∀ e ∈ l, Publishable env e) ∧
    s'.published = s.published ++ l ∧ s'.raftAppliedIndex.toNat = lastIndexOf s.raftAppliedIndex.toNat l := by
  induction l generalizing s with
  | nil =>
    cases h
    exact ⟨fun e he => (by cases he), (append_nil _).symm, rfl⟩
  | cons e l ih =>
    rw [publishRaftEntries_cons] at h
    rcases publishRaftEntry_cases Γ env s e with ⟨he, s₁, hs₁, happlied, hpub⟩ | ⟨-, hnone⟩
    · rw [hs₁] at h
      obtain ⟨hall, hpub', happlied'⟩ := ih h
      refine ⟨forall_mem_cons.2 ⟨he, hall⟩, ?_, ?_⟩
      · rw [hpub', hpub, append_assoc, singleton_append]
      · rw [happlied', happlied]
        rfl
    · rw [hnone] at h
      cases h

theorem lastIndexOf_of_indices {k : Nat} (h : l.map (·.index.toNat) = List.range' (a + 1) k) : lastIndexOf a l = a + k := by
  induction l generalizing a k with
  | nil =>
    rw [map_nil, eq_comm, range'_eq_nil_iff] at h
    rw [h]
    rfl
  | cons e l ih =>
    cases k with
    | zero => cases h
    | succ k =>
      rw [map_cons, range'_succ] at h
      obtain ⟨hidx, hrest⟩ := List.cons.inj h
      change lastIndexOf e.index.toNat l = _
      rw [hidx, ih hrest]
      omega

/-! ## One round -/

theorem le_highest (a : Nat) (l : List RaftEntry) : a ≤ highest a l := by
  induction l generalizing a with
  | nil => exact le_rfl
  | cons e l ih => exact (le_max_left a e.index.toNat).trans (ih _)

theorem serveReady_ofBatch : s.serveReady Γ env (.ofBatch ents) = s.publishRaftEntries Γ env (s.raftEntriesToApply ents) := rfl

theorem serveBatches_cons :
    s.serveBatches Γ env (ents :: rest) = (s.serveReady Γ env (.ofBatch ents)).bind fun s' => s'.serveBatches Γ env rest :=
  foldlM_cons

theorem round_eq_some (hents : Consecutive ents) (hcut : s.CutsRight ents) (h : s.serveReady Γ env (.ofBatch ents) = some s') :
    (∀ e ∈ ents, s.raftAppliedIndex.toNat < e.index.toNat → Publishable env e) ∧
      s'.raftAppliedIndex.toNat = highest s.raftAppliedIndex.toNat ents ∧
      s'.published.map (·.index.toNat) = s.published.map (·.index.toNat) ++
        List.range' (s.raftAppliedIndex.toNat + 1) (highest s.raftAppliedIndex.toNat ents - s.raftAppliedIndex.toNat) := by
  have hindices := indices_to_apply hents ((cutsRight_iff hents).1 hcut)
  rw [serveReady_ofBatch] at h
  obtain ⟨hpub, hlist, hlast⟩ := publishRaftEntries_eq_some h
  refine ⟨fun e he hlt => ?_, ?_, ?_⟩
  · refine hpub e ?_
    rw [hcut]
    exact mem_filter.2 ⟨he, decide_eq_true (UInt64.lt_iff_toNat_lt.2 hlt)⟩
  · rw [hlast, lastIndexOf_of_indices hindices]
    exact Nat.add_sub_of_le (le_highest _ _)
  · rw [hlist, map_append, hindices]

theorem round_of_fits (hents : Consecutive ents) (hconn : Connects s.raftAppliedIndex.toNat ents)
    (hpub : ∀ e ∈ ents, s.raftAppliedIndex.toNat < e.index.toNat → Publishable env e) :
    ∃ s', s.serveReady Γ env (.ofBatch ents) = some s' := by
  rw [serveReady_ofBatch]
  refine publishRaftEntries_of_publishable fun e he => ?_
  rw [(cutsRight_iff hents).2 hconn] at he
  obtain ⟨hmem, hlt⟩ := mem_filter.1 he
  exact hpub e hmem (UInt64.lt_iff_toNat_lt.1 (of_decide_eq_true hlt))

/-! ## All rounds -/

def highestOf (a : Nat) (batches : List (List RaftEntry)) : Nat := batches.foldl highest a

theorem le_highestOf (a : Nat) (batches : List (List RaftEntry)) : a ≤ highestOf a batches := by
  induction batches generalizing a with
  | nil => exact le_rfl
  | cons ents rest ih => exact (le_highest a ents).trans (ih _)

theorem rounds_of_fits (hcons : ∀ ents ∈ batches, Consecutive ents) (hfit : BatchesFit env s.raftAppliedIndex.toNat batches) :
    s.AppliesOnce Γ env batches (highestOf s.raftAppliedIndex.toNat batches) := by
  induction batches generalizing s with
  | nil =>
    refine ⟨fun before ents rest s' heq => ?_, s, rfl, rfl, ?_⟩
    · simp at heq
    · rw [highestOf, foldl_nil, Nat.sub_self, range'_zero, append_nil]
  | cons ents rest ih =>
    obtain ⟨hconn, hpub, hrest⟩ := hfit
    have hents := hcons ents mem_cons_self
    have hcut := (cutsRight_iff (s := s) hents).2 hconn
    obtain ⟨s₁, hs₁⟩ := round_of_fits (Γ := Γ) hents hconn hpub
    obtain ⟨-, happlied, hindices⟩ := round_eq_some hents hcut hs₁
    rw [← happlied] at hrest
    obtain ⟨hcuts, s₂, hs₂, happlied₂, hindices₂⟩ := ih (fun ents' h => hcons ents' (mem_cons_of_mem ents h)) hrest
    refine ⟨fun before ents' rest' s' heq hs' => ?_, s₂, ?_, ?_, ?_⟩
    · cases before with
      | nil =>
        cases heq
        cases hs'
        exact hcut
      | cons b before =>
        obtain ⟨rfl, hbefore⟩ := List.cons.inj heq
        rw [serveBatches_cons, hs₁] at hs'
        exact hcuts before ents' rest' s' hbefore hs'
    · rw [serveBatches_cons, hs₁]
      exact hs₂
    · rw [happlied₂, happlied]
      rfl
    · have h₁ := le_highest s.raftAppliedIndex.toNat ents
      have h₂ := le_highestOf (highest s.raftAppliedIndex.toNat ents) rest
      rw [hindices₂, hindices, happlied, append_assoc]
      change _ ++ (_ ++ List.range' _ (highestOf (highest s.raftAppliedIndex.toNat ents) rest - _)) =
        _ ++ List.range' _ (highestOf (highest s.raftAppliedIndex.toNat ents) rest - _)
      rw [show highest s.raftAppliedIndex.toNat ents + 1 =
          s.raftAppliedIndex.toNat + 1 + (highest s.raftAppliedIndex.toNat ents - s.raftAppliedIndex.toNat) by omega,
        range'_append_1]
      congr 2
      omega

theorem fits_of_rounds (hcons : ∀ ents ∈ batches, Consecutive ents)
    (hcut : ∀ before ents rest s', batches = before ++ ents :: rest → s.serveBatches Γ env before = some s' → s'.CutsRight ents)
    (hsome : ∃ s', s.serveBatches Γ env batches = some s') : BatchesFit env s.raftAppliedIndex.toNat batches := by
  induction batches generalizing s with
  | nil => trivial
  | cons ents rest ih =>
    have hents := hcons ents mem_cons_self
    have hcut₁ := hcut [] ents rest s rfl rfl
    obtain ⟨s', hs'⟩ := hsome
    rw [serveBatches_cons] at hs'
    obtain ⟨s₁, hs₁, hs₁'⟩ := Option.bind_eq_some_iff.1 hs'
    obtain ⟨hpub, happlied, -⟩ := round_eq_some hents hcut₁ hs₁
    refine ⟨(cutsRight_iff hents).1 hcut₁, hpub, ?_⟩
    rw [← happlied]
    refine ih (fun ents' h => hcons ents' (mem_cons_of_mem ents h)) (fun before ents' rest' t heq ht => ?_) ⟨s', hs₁'⟩
    refine hcut (ents :: before) ents' rest' t (by rw [heq]; rfl) ?_
    rw [serveBatches_cons, hs₁]
    exact ht

/-! ## The highest index -/

theorem highest_le_iff : highest a l ≤ n ↔ a ≤ n ∧ ∀ e ∈ l, e.index.toNat ≤ n := by
  induction l generalizing a with
  | nil => simp [highest]
  | cons e l ih =>
    change highest (max a e.index.toNat) l ≤ n ↔ _
    rw [ih, max_le_iff, forall_mem_cons, and_assoc]

theorem highestOf_le_iff : highestOf a batches ≤ n ↔ a ≤ n ∧ ∀ ents ∈ batches, ∀ e ∈ ents, e.index.toNat ≤ n := by
  induction batches generalizing a with
  | nil => simp [highestOf]
  | cons ents rest ih =>
    change highestOf (highest a ents) rest ≤ n ↔ _
    rw [ih, highest_le_iff, forall_mem_cons, and_assoc]

theorem highestOf_of_cover (h : BatchesCover a n batches) : highestOf a batches = n := by
  refine le_antisymm (highestOf_le_iff.2 ⟨h.le, h.within⟩) ?_
  obtain ⟨hle, hall⟩ := highestOf_le_iff.1 (le_refl (highestOf a batches))
  rcases h.le.eq_or_lt with rfl | hlt
  · exact hle
  · obtain ⟨ents, hents, e, he, rfl⟩ := h.complete n hlt le_rfl
    exact hall ents hents e he

end RaftEntriesAux

open RaftEntriesAux RaftService in
/-- A batch of consecutive entries is cut right exactly if it connects to the last entry applied. Over batches that cover the indices
after that entry up to `n`, every batch is cut right and each of these indices is published once, in order, exactly if the batches
fit. -/
theorem raftEntries_applied_once_iff (Γ : NodeCtx) (env : RaftEnv) (s : RaftService) :
    (∀ ents, Consecutive ents → (s.CutsRight ents ↔ Connects s.raftAppliedIndex.toNat ents)) ∧
      ∀ batches n, (∀ ents ∈ batches, Consecutive ents) → BatchesCover s.raftAppliedIndex.toNat n batches →
        (s.AppliesOnce Γ env batches n ↔ BatchesFit env s.raftAppliedIndex.toNat batches) := by
  refine ⟨fun ents hents => cutsRight_iff hents, fun batches n hcons hcover => ⟨fun h => ?_, fun h => ?_⟩⟩
  · obtain ⟨s', hs', -⟩ := h.done
    exact fits_of_rounds hcons h.cut ⟨s', hs'⟩
  · have happlies := rounds_of_fits (Γ := Γ) hcons h
    rwa [highestOf_of_cover hcover] at happlies

namespace RaftEntriesWitness

open RaftLogWitness (entry)

def unmarshal (data : Bytes) : RaftConfChange :=
  if data = [1] then
    ⟨.addNode, (toRaftID WeightsWitness.nodeCtx (WeightsWitness.nodeOf 2)).toOption.getD 0, 3,
      (WeightsWitness.nodeOf 2).bytes.1 ++ WeightsWitness.myID.1⟩
  else ⟨.addNode, 0, 0, []⟩

def env : RaftEnv := ⟨unmarshal, fun _ _ => WeightsWitness.answers, fun _ _ => ⟨[], [], []⟩⟩

def begun : RaftService := ⟨WeightsWitness.created, 0, 0, ⟨[], [], []⟩, []⟩

def adding : RaftEntry := ⟨1, 2, .confChange, [1]⟩

def overlapping : List (List RaftEntry) := [[entry 1 1, adding], [adding, entry 3 1]]

def gap : List (List RaftEntry) := [[entry 2 1], [entry 1 1]]

theorem overlapping_consecutive : ∀ ents ∈ overlapping, Consecutive ents := by
  intro ents hents e he
  rcases mem_cons.1 hents with rfl | hents
  · cases he
    exact ⟨rfl, rfl, trivial⟩
  · cases mem_singleton.1 hents
    cases he
    exact ⟨rfl, rfl, trivial⟩

theorem overlapping_cover : BatchesCover 0 3 overlapping := by
  refine ⟨by decide, fun i hpos hle => ?_, by decide⟩
  interval_cases i
  · exact ⟨_, (.head _), entry 1 1, by decide, rfl⟩
  · exact ⟨_, (.head _), adding, by decide, rfl⟩
  · exact ⟨_, .tail _ (.head _), entry 3 1, by decide, rfl⟩

theorem adding_publishable : Publishable env adding := fun _ => ⟨fun _ => by decide +kernel, fun h => (by cases h)⟩

theorem overlapping_fits : BatchesFit env 0 overlapping := by
  have hnormal : ∀ idx, Publishable env (entry idx 1) := fun idx h => (by cases h)
  refine ⟨by decide, fun e he _ => ?_, by decide, fun e he _ => ?_, trivial⟩
  · rcases mem_cons.1 he with rfl | he
    · exact hnormal 1
    · rw [mem_singleton.1 he]
      exact adding_publishable
  · rcases mem_cons.1 he with rfl | he
    · exact adding_publishable
    · rw [mem_singleton.1 he]
      exact hnormal 3

end RaftEntriesWitness

open RaftEntriesWitness in
/-- Two batches that overlap in an entry that adds a node. -/
theorem raftEntries_applied_once_three : BatchesCover 0 3 overlapping ∧ begun.AppliesOnce WeightsWitness.nodeCtx env overlapping 3 :=
  ⟨overlapping_cover,
    ((raftEntries_applied_once_iff WeightsWitness.nodeCtx env begun).2 overlapping 3 overlapping_consecutive overlapping_cover).2
      overlapping_fits⟩

open RaftEntriesWitness RaftLogWitness in
/-- A batch that begins after a gap is dropped: with the first entry in a later batch, the second one is never applied. -/
theorem raftEntries_after_gap_dropped : Consecutive [entry 2 1] ∧ begun.raftEntriesToApply [entry 2 1] = [] ∧
    ([entry 2 1].filter fun e => begun.raftAppliedIndex < e.index) = [entry 2 1] ∧
    BatchesCover 0 2 gap ∧ (∀ ents ∈ gap, Consecutive ents) ∧
    ∃ s', begun.serveBatches WeightsWitness.nodeCtx env gap = some s' ∧ s'.raftAppliedIndex = 1 ∧ s'.published = [entry 1 1] := by
  have hone : ∀ idx, Consecutive [entry idx 1] := by
    rintro idx e ⟨⟩
    exact ⟨rfl, trivial⟩
  refine ⟨hone 2, by decide +kernel, by decide +kernel, ⟨by decide, fun i hpos hle => ?_, by decide⟩, ?_, ?_⟩
  · interval_cases i
    · exact ⟨_, List.mem_cons_of_mem _ List.mem_cons_self, entry 1 1, by decide, rfl⟩
    · exact ⟨_, List.mem_cons_self, entry 2 1, by decide, rfl⟩
  · intro ents hents
    rcases List.mem_cons.1 hents with rfl | hents
    · exact hone 2
    · rw [List.mem_singleton.1 hents]
      exact hone 1
  · exact ⟨⟨WeightsWitness.created, 1, 0, ⟨[], [], []⟩, [entry 1 1]⟩, rfl, rfl, rfl⟩

end Me

end PttaiCore
