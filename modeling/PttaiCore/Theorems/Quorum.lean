import PttaiCore.Lib.Tally
import PttaiCore.OplogSigns
import PttaiCore.Lemmas.MyNodes

/-! # Signatures are counted, not signers -/

namespace PttaiCore

open KeyStore Tally

/-! ## Masters -/

section masters

variable {μ : Type} (masters : KeyStore PttID μ) (signInfos : List SignInfo)

def masterVote (id : PttID) : ℕ := (masters.get id).elim 0 fun _ => 1

def unsignedMasters : ℕ := Tally.missing (masterVote masters) (signInfos.map SignInfo.id) masters.keySet

def repeatedSigns : ℕ := Tally.repeated (masterVote masters) (signInfos.map SignInfo.id)

namespace QuorumAux

variable {masters}

theorem masterVote_eq_zero {id : PttID} (h : id ∉ masters.keySet) : masterVote masters id = 0 := by
  rw [mem_keySet, not_not] at h
  rw [masterVote, h, Option.elim_none]

theorem masterVote_eq_one {id : PttID} (h : id ∈ masters.keySet) : masterVote masters id = 1 := by
  obtain ⟨v, hv⟩ := Option.ne_none_iff_exists'.1 (mem_keySet.1 h)
  rw [masterVote, hv, Option.elim_some]

theorem length_filter_masters : (signInfos.filter fun signInfo => (masters.get signInfo.id).isSome).length =
    Tally.total (masterVote masters) (signInfos.map SignInfo.id) := by
  induction signInfos with
  | nil => rfl
  | cons s l ih =>
    rw [List.map_cons, total_cons, ← ih, List.filter_cons, masterVote]
    cases masters.get s.id with
    | none => simp
    | some v => simp [Nat.add_comm]

theorem unsignedMasters_eq_zero_iff :
    unsignedMasters masters signInfos = 0 ↔ ∀ id, masters.get id ≠ none → id ∈ signInfos.map SignInfo.id := by
  rw [unsignedMasters, Tally.missing, Finset.sum_eq_zero_iff]
  constructor
  · intro h id hid
    by_contra hnot
    have hmem : id ∈ masters.keySet := mem_keySet.2 hid
    have hzero := h id (Finset.mem_sdiff.2 ⟨hmem, fun hin => hnot (List.mem_toFinset.1 hin)⟩)
    rw [masterVote_eq_one hmem] at hzero
    exact one_ne_zero hzero
  · intro h id hid
    obtain ⟨hmem, hnot⟩ := Finset.mem_sdiff.1 hid
    exact absurd (List.mem_toFinset.2 (h id (mem_keySet.1 hmem))) hnot

theorem distinct_add_unsignedMasters :
    Tally.distinct (masterVote masters) (signInfos.map SignInfo.id) + unsignedMasters masters signInfos = masters.entries.length := by
  rw [unsignedMasters, distinct_add_missing fun id => masterVote_eq_zero, ← card_keySet, Finset.card_eq_sum_ones]
  exact Finset.sum_congr rfl fun id hid => masterVote_eq_one hid

theorem defaultIsValidOplog_eq_true_iff (newestMasterLogID : Option PttID) :
    (defaultIsValidOplog masters newestMasterLogID signInfos).2.2 = true ↔
      unsignedMasters masters signInfos ≤ repeatedSigns masters signInfos := by
  have hcount := total_eq (masterVote masters) (signInfos.map SignInfo.id)
  have hall : Tally.distinct (masterVote masters) (signInfos.map SignInfo.id) + unsignedMasters masters signInfos = masters.entries.length :=
    distinct_add_unsignedMasters signInfos
  rw [defaultIsValidOplog, length_filter_masters, repeatedSigns]
  split_ifs with hlt
  · simp only [false_iff]
    omega
  · simp only [true_iff]
    omega

end QuorumAux

/-- The test tells whether all masters have signed exactly if they have or fewer signatures are repeated than masters are missing. -/
theorem defaultIsValidOplog_right_iff (newestMasterLogID : Option PttID) :
    ((defaultIsValidOplog masters newestMasterLogID signInfos).2.2 = true ↔
        ∀ id, masters.get id ≠ none → id ∈ signInfos.map SignInfo.id) ↔
      unsignedMasters masters signInfos = 0 ∨ repeatedSigns masters signInfos < unsignedMasters masters signInfos := by
  rw [QuorumAux.defaultIsValidOplog_eq_true_iff, ← QuorumAux.unsignedMasters_eq_zero_iff]
  omega

end masters

namespace QuorumWitness

def sign (b : UInt8) : SignInfo := ⟨ByteArrayOf.replicate 40 b, .zero, [], .zero, [], [], none⟩

def masters : KeyStore PttID Unit := (KeyStore.empty.put (sign 1).id ()).put (sign 2).id ()

end QuorumWitness

open QuorumWitness in
/-- One of two masters signs twice. -/
theorem one_master_signs_for_two : (defaultIsValidOplog masters none [sign 1, sign 1]).2.2 = true ∧
    masters.get (sign 2).id ≠ none ∧ (sign 2).id ∉ [sign 1, sign 1].map SignInfo.id := by
  refine ⟨by decide +kernel, by decide +kernel, by decide +kernel⟩

/-! ## The nodes of a user -/

namespace Me

namespace ProtocolManager

variable (pm : ProtocolManager) (signers : List PttID)

def nodeVote (id : PttID) : ℕ := (pm.myNodeByNodeSignIDs.get id).elim 0 fun p => (pm.heap.get p).weight.toNat

def signedWeight : ℕ := Tally.distinct pm.nodeVote signers

def repeatedWeight : ℕ := Tally.repeated pm.nodeVote signers

def RepeatsHarmless : Prop :=
  (pm.signedWeight signers < pm.totalWeight.toNat / 2 + 1 →
      (pm.signedWeight signers + pm.repeatedWeight signers) % 2 ^ 32 < pm.totalWeight.toNat / 2 + 1) ∧
    (pm.totalWeight.toNat / 2 + 1 ≤ pm.signedWeight signers →
      pm.totalWeight.toNat / 2 + 1 ≤ (pm.signedWeight signers + pm.repeatedWeight signers) % 2 ^ 32)

end ProtocolManager

namespace InternalQuorumAux

variable (pm : ProtocolManager) (signers : List PttID)

theorem nodeVote_eq_zero {id : PttID} (h : id ∉ pm.myNodeByNodeSignIDs.keySet) : pm.nodeVote id = 0 := by
  rw [mem_keySet, not_not] at h
  rw [ProtocolManager.nodeVote, h, Option.elim_none]

theorem toNat_quorum : pm.quorum.toNat = pm.totalWeight.toNat / 2 + 1 := by
  have hlt := pm.totalWeight.toNat_lt
  rw [ProtocolManager.quorum, UInt32.toNat_add, UInt32.toNat_div]
  change (pm.totalWeight.toNat / 2 + 1) % 2 ^ 32 = pm.totalWeight.toNat / 2 + 1
  omega

theorem toNat_signWeight : (pm.signWeight signers).toNat = (pm.signedWeight signers + pm.repeatedWeight signers) % 2 ^ 32 := by
  have hsum : ((signers.filterMap fun id => (pm.myNodeByNodeSignIDs.get id).map fun p => (pm.heap.get p).weight).map UInt32.toNat).sum =
      Tally.total pm.nodeVote signers := by
    induction signers with
    | nil => rfl
    | cons id l ih =>
      rw [total_cons, ← ih, List.filterMap_cons, ProtocolManager.nodeVote]
      cases pm.myNodeByNodeSignIDs.get id with
      | none => simp
      | some p => simp
  rw [ProtocolManager.signWeight, ProtocolManager.addUp_eq, hsum, UInt32.toNat_ofNat', total_eq, ProtocolManager.signedWeight,
    ProtocolManager.repeatedWeight]

theorem isValidInternalOplog_eq_true_iff : pm.isValidInternalOplog signers = true ↔
    pm.totalWeight.toNat / 2 + 1 ≤ (pm.signedWeight signers + pm.repeatedWeight signers) % 2 ^ 32 := by
  rw [ProtocolManager.isValidInternalOplog, decide_eq_true_iff, UInt32.le_iff_toNat_le, toNat_quorum, toNat_signWeight]

variable {pm signers}

section total

variable (htotal : (pm.myNodeByNodeSignIDs.sumOn fun _ p => (pm.heap.get p).weight.toNat) = pm.totalWeight.toNat)

include htotal

theorem sum_nodeVote : ∑ id ∈ pm.myNodeByNodeSignIDs.keySet, pm.nodeVote id = pm.totalWeight.toNat := by
  rw [← htotal]
  exact sum_keySet fun p => (pm.heap.get p).weight.toNat

theorem repeatsHarmless_of_not_duplicate (h : ∀ id, pm.myNodeByNodeSignIDs.get id ≠ none → ¬ signers.Duplicate id) :
    pm.RepeatsHarmless signers := by
  have hrep : pm.repeatedWeight signers = 0 := by
    refine repeated_eq_zero ?_
    intro id htwice
    refine nodeVote_eq_zero pm ?_
    intro hmem
    exact h id (mem_keySet.1 hmem) htwice
  have hle : pm.signedWeight signers ≤ pm.totalWeight.toNat := by
    rw [← sum_nodeVote htotal, ← distinct_add_missing fun _ => nodeVote_eq_zero pm, ProtocolManager.signedWeight]
    exact Nat.le_add_right _ _
  have hlt := pm.totalWeight.toNat_lt
  rw [ProtocolManager.RepeatsHarmless, hrep]
  omega

end total

end InternalQuorumAux

/-- The test tells whether the nodes that signed weigh more than half of the total exactly if the repeated signatures are harmless, as
they are if no node signs twice. Two lists that are accepted and harmless have a node in common. -/
theorem isValidInternalOplog_right_iff (pm : ProtocolManager)
    (htotal : (pm.myNodeByNodeSignIDs.sumOn fun _ p => (pm.heap.get p).weight.toNat) = pm.totalWeight.toNat) :
    (∀ signInfos : List SignInfo,
        ((pm.isValidInternalOplog (signInfos.map SignInfo.id) = true ↔
            pm.totalWeight.toNat < 2 * pm.signedWeight (signInfos.map SignInfo.id)) ↔
          pm.RepeatsHarmless (signInfos.map SignInfo.id)) ∧
        ((∀ id, pm.myNodeByNodeSignIDs.get id ≠ none → ¬ (signInfos.map SignInfo.id).Duplicate id) →
          pm.RepeatsHarmless (signInfos.map SignInfo.id))) ∧
      ∀ signInfos signInfos' : List SignInfo, pm.RepeatsHarmless (signInfos.map SignInfo.id) →
        pm.RepeatsHarmless (signInfos'.map SignInfo.id) → pm.isValidInternalOplog (signInfos.map SignInfo.id) = true →
        pm.isValidInternalOplog (signInfos'.map SignInfo.id) = true →
        ∃ id ∈ signInfos.map SignInfo.id, id ∈ signInfos'.map SignInfo.id ∧ pm.myNodeByNodeSignIDs.get id ≠ none := by
  have hright : ∀ signers, (pm.isValidInternalOplog signers = true ↔ pm.totalWeight.toNat < 2 * pm.signedWeight signers) ↔
      pm.RepeatsHarmless signers := by
    intro signers
    rw [InternalQuorumAux.isValidInternalOplog_eq_true_iff, ProtocolManager.RepeatsHarmless]
    omega
  refine ⟨?_, ?_⟩
  · intro signInfos
    exact ⟨hright _, InternalQuorumAux.repeatsHarmless_of_not_duplicate htotal⟩
  · intro signInfos signInfos' hfit hfit' hvalid hvalid'
    have hmajor := ((hright _).2 hfit).1 hvalid
    have hmajor' := ((hright _).2 hfit').1 hvalid'
    rw [← InternalQuorumAux.sum_nodeVote htotal] at hmajor hmajor'
    obtain ⟨id, hid, hid', hmem⟩ := Tally.exists_common (fun _ => InternalQuorumAux.nodeVote_eq_zero pm) hmajor hmajor'
    exact ⟨id, hid, hid', KeyStore.mem_keySet.1 hmem⟩

namespace InternalQuorumWitness

open QuorumWitness

def node : MyNode := { (default : MyNode) with weight := 2 }

def manager : ProtocolManager where
  myID := (sign 9).id
  myNodeID := node.nodeID
  status := .alive
  heap := (Heap.empty.alloc node).alloc node
  myNodes := KeyStore.empty
  myNodeByNodeSignIDs := (KeyStore.empty.put (sign 1).id 0).put (sign 2).id 1
  totalWeight := 4
  dbMyNodes := KeyStore.empty
  masterOplogs := KeyStore.empty

end InternalQuorumWitness

open InternalQuorumWitness QuorumWitness in
/-- Both nodes sign, in one order and in the other: both lists are accepted. -/
theorem isValidInternalOplog_right_iff_two : manager.isValidInternalOplog ([sign 1, sign 2].map SignInfo.id) = true ∧
    ∃ id ∈ [sign 1, sign 2].map SignInfo.id, id ∈ [sign 2, sign 1].map SignInfo.id ∧ manager.myNodeByNodeSignIDs.get id ≠ none := by
  have h := isValidInternalOplog_right_iff manager (by decide +kernel)
  have hvalid : manager.isValidInternalOplog ([sign 1, sign 2].map SignInfo.id) = true := by decide +kernel
  have hfit : ∀ l : List SignInfo, (l.map SignInfo.id).Nodup → manager.RepeatsHarmless (l.map SignInfo.id) := by
    intro l hl
    refine (h.1 l).2 ?_
    intro id _
    exact List.nodup_iff_forall_not_duplicate.1 hl id
  exact ⟨hvalid, h.2 _ _ (hfit _ (by decide +kernel)) (hfit _ (by decide +kernel)) hvalid (by decide +kernel)⟩

open InternalQuorumWitness QuorumWitness in
/-- Each of two nodes of equal weight signs twice: both lists are accepted, and no node is in both. -/
theorem half_of_the_weight_is_accepted :
    (manager.myNodeByNodeSignIDs.sumOn fun _ p => (manager.heap.get p).weight.toNat) = manager.totalWeight.toNat ∧
      manager.isValidInternalOplog ([sign 1, sign 1].map SignInfo.id) = true ∧
      manager.isValidInternalOplog ([sign 2, sign 2].map SignInfo.id) = true ∧
      2 * manager.signedWeight ([sign 1, sign 1].map SignInfo.id) = manager.totalWeight.toNat ∧
      ¬ ∃ id ∈ [sign 1, sign 1].map SignInfo.id, id ∈ [sign 2, sign 2].map SignInfo.id := by
  refine ⟨by decide +kernel, by decide +kernel, by decide +kernel, by decide +kernel, by decide +kernel⟩

end Me

end PttaiCore
