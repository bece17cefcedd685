import PttaiCore.BitVector
import PttaiCore.Lib.Lanes

/-!
# Bit vectors: the counted bits and the fresh ones
-/

namespace PttaiCore.BitVectorAux

open Lanes List

variable (b : BitVector) {N : Nat} (w : Word)

def bit (N : Nat) : Bool := (b.words.getD (N / 64) 0).getLsbD (N % 64)

theorem shift_six (N : Nat) : N >>> 6 = N / 64 ∧ N &&& 63 = N % 64 :=
  ⟨Nat.shiftRight_eq_div_pow N 6, Nat.and_two_pow_sub_one_eq_mod N 6⟩

theorem getElem?_word {b : BitVector} (h : N < b.size) : b.words[N >>> 6]? = some (b.words.getD (N / 64) 0) := by
  rw [(shift_six N).1, getD_eq_getElem?_getD]
  have hlt : N / 64 < b.words.length := by
    simp only [BitVector.size] at h
    omega
  simp [hlt]

theorem shift_and_one (k : Nat) : (w >>> k) &&& 1 = if w.getLsbD k then 1 else 0 := by
  have h := BitVec.and_one_eq_setWidth_ofBool_getLsbD (x := w >>> k)
  rw [BitVec.getLsbD_ushiftRight, Nat.add_zero] at h
  refine h.trans ?_
  cases w.getLsbD k <;> decide

theorem get_eq {b : BitVector} (h : N < b.size) : b.get N = some (if bit b N then 1 else 0) := by
  simp only [BitVector.get, getElem?_word h, (shift_six N).2, shift_and_one, bit]
  rfl

theorem get_eq_one {b : BitVector} (h : N < b.size) : b.get N = some 1 ↔ bit b N = true := by
  rw [get_eq h]
  cases bit b N <;> decide

theorem get_eq_zero {b : BitVector} (h : N < b.size) : b.get N = some 0 ↔ bit b N = false := by
  rw [get_eq h]
  cases bit b N <;> decide

theorem masked_eq_one {k : Nat} (hk : k < 64) : w &&& (1#64 <<< k) = 1 ↔ k = 0 ∧ w.getLsbD k = true := by
  have h := BitVec.and_twoPow w k
  rw [BitVec.twoPow_eq] at h
  rw [h]
  cases hw : w.getLsbD k with
  | false => simp
  | true =>
    have : ∀ k : Fin 64, ((1#64 <<< k.val) = 1 ↔ k.val = 0) := by decide
    simpa using this ⟨k, hk⟩

theorem setWithIsNew_eq {b : BitVector} (h : N < b.size) :
    ∃ b', b.setWithIsNew N = some (!(decide (N % 64 = 0) && bit b N), b') ∧ b'.size = b.size ∧
      ∀ M, bit b' M = (decide (M = N) || bit b M) := by
  have hlen : N / 64 < b.words.length := by
    simp only [BitVector.size] at h
    omega
  rw [BitVector.setWithIsNew, getElem?_word h]
  simp only [Option.bind_eq_bind, Option.bind_some, (shift_six N).1, (shift_six N).2]
  by_cases hm : b.words.getD (N / 64) 0 &&& (1#64 <<< (N % 64)) = 1
  · obtain ⟨h0, hb⟩ := (masked_eq_one _ (Nat.mod_lt _ (by decide))).mp hm
    rw [if_pos hm]
    refine ⟨b, ?_, rfl, fun M => ?_⟩
    · rw [show bit b N = true from hb, decide_eq_true h0]
      rfl
    · by_cases hM : M = N
      · simp [hM, show bit b N = true from hb]
      · simp [hM]
  · rw [if_neg hm]
    refine ⟨b.setWord (N / 64) (b.words.getD (N / 64) 0 ||| 1#64 <<< (N % 64)), ?_, ?_, fun M => ?_⟩
    · have hn := (masked_eq_one (b.words.getD (N / 64) 0) (Nat.mod_lt N (by decide))).not.mp hm
      have : (decide (N % 64 = 0) && bit b N) = false := by simpa [bit] using hn
      rw [this]
      rfl
    · simp [BitVector.size, BitVector.setWord]
    · have hone : (1#64 <<< (N % 64)).getLsbD (M % 64) = decide (M % 64 = N % 64) := by
        have := BitVec.getLsbD_twoPow (w := 64) (N % 64) (M % 64)
        rw [BitVec.twoPow_eq] at this
        refine this.trans ?_
        simp [Nat.mod_lt N (show 0 < 64 by decide), eq_comm]
      simp only [bit, BitVector.setWord, getD_eq_getElem?_getD, List.getElem?_set]
      by_cases hd : N / 64 = M / 64
      · rw [if_pos hd, if_pos (hd ▸ hlen), Option.getD_some, BitVec.getLsbD_or, hone, ← hd, Bool.or_comm]
        congr 1
        exact decide_eq_decide.mpr (by omega)
      · rw [if_neg hd, decide_eq_false (by rintro rfl; exact hd rfl), Bool.false_or]

/-! ## The bits counted -/

theorem toNat_pairs : (w - (w >>> 1 &&& 0x5555555555555555#64)).toNat = pairSums 1 32 w.toNat := by
  have hx := evens_add 1 32 w.isLt
  have hm := and_laneMask 1 32 (w.toNat / 2 ^ 1)
  have ht : (w >>> 1 &&& 0x5555555555555555#64).toNat = evens 1 32 (w.toNat / 2 ^ 1) := by
    rw [← hm, BitVec.toNat_and, BitVec.toNat_ushiftRight, Nat.shiftRight_eq_div_pow]
    rfl
  rw [BitVec.toNat_sub_of_le (BitVec.le_def.mpr (by omega)), ht, pairSums]
  omega

theorem toNat_nibbles : ((w &&& 0x3333333333333333#64) + (w >>> 2 &&& 0x3333333333333333#64)).toNat = pairSums 2 16 w.toNat := by
  rw [pairSums, ← and_laneMask, ← and_laneMask, BitVec.toNat_add, BitVec.toNat_and, BitVec.toNat_and, BitVec.toNat_ushiftRight,
    Nat.shiftRight_eq_div_pow]
  have h1 : w.toNat &&& 0x3333333333333333 ≤ 0x3333333333333333 := Nat.and_le_right
  have h2 : w.toNat / 2 ^ 2 &&& 0x3333333333333333 ≤ 0x3333333333333333 := Nat.and_le_right
  exact Nat.mod_eq_of_lt (lt_of_le_of_lt (Nat.add_le_add h1 h2) (by decide))

theorem toNat_bytes (h : Small 4 16 w.toNat) :
    ((w + w >>> 4) &&& 0x0F0F0F0F0F0F0F0F#64).toNat = pairSums 4 8 w.toNat := by
  rw [← evens_add_shift 8 h, ← and_laneMask, BitVec.toNat_and, BitVec.toNat_add, BitVec.toNat_ushiftRight, Nat.shiftRight_eq_div_pow]
  have hm : w.toNat + w.toNat / 2 ^ 4 &&& 0x0F0F0F0F0F0F0F0F ≤ 0x0F0F0F0F0F0F0F0F := Nat.and_le_right
  refine (Nat.and_mod_two_pow (n := 64)).symm.trans (Nat.mod_eq_of_lt (lt_of_le_of_lt hm (by decide)))

theorem popWord_toNat : (BitVector.popWord w).toNat = laneSum 1 64 w.toNat := by
  obtain ⟨s1, k1⟩ := laneSum_pairSums 1 32 (small_one 64 w.toNat)
  rw [← toNat_pairs] at s1 k1
  obtain ⟨s2, k2⟩ := laneSum_pairSums 2 16 k1
  rw [← toNat_nibbles] at s2 k2
  obtain ⟨s4, k4⟩ := laneSum_pairSums 4 8 k2
  rw [← toNat_bytes _ k2] at s4 k4
  rw [← s1, ← s2, ← s4, ← laneSum_eight k4 (BitVec.isLt _)]
  simp only [BitVector.popWord, BitVec.toNat_and, BitVec.toNat_add, BitVec.toNat_ushiftRight, Nat.shiftRight_eq_div_pow]
  exact Nat.and_two_pow_sub_one_eq_mod _ 8

def ones : Finset Nat := (Finset.range b.size).filter fun N => bit b N = true

theorem ones_cons (ws : List Word) (h : (w :: ws).length < 2 ^ 58) :
    (ones ⟨w :: ws, h⟩).card = laneSum 1 64 w.toNat + (ones ⟨ws, Nat.lt_of_succ_lt h⟩).card := by
  have hz : ∀ N < 64, bit ⟨w :: ws, h⟩ N = w.toNat.testBit N := by
    intro N hN
    simp only [bit, Nat.div_eq_of_lt hN, Nat.mod_eq_of_lt hN]
    rfl
  have hs : ∀ N, bit ⟨w :: ws, h⟩ (64 + N) = bit ⟨ws, Nat.lt_of_succ_lt h⟩ N := by
    intro N
    simp only [bit, Nat.add_mod_left, show (64 + N) / 64 = N / 64 + 1 by omega]
    rfl
  simp only [ones, BitVector.size, length_cons, laneSum_one_eq_card, Finset.card_filter,
    show 64 * (ws.length + 1) = 64 + 64 * ws.length by omega, Finset.sum_range_add]
  refine congrArg₂ (· + ·) (Finset.sum_congr rfl fun N hN => ?_) (by simp only [hs])
  rw [hz N (Finset.mem_range.mp hN)]

theorem foldl_popWord (ws : List Word) (total : Word) (h : ws.length < 2 ^ 58) :
    (ws.foldl (fun total word => total + BitVector.popWord word) total).toNat = (total.toNat + (ones ⟨ws, h⟩).card) % 2 ^ 64 := by
  induction ws generalizing total with
  | nil => exact (Nat.mod_eq_of_lt total.isLt).symm
  | cons w ws ih =>
    rw [foldl_cons, ih _ (Nat.lt_of_succ_lt h), ones_cons, BitVec.toNat_add, popWord_toNat, Nat.mod_add_mod, Nat.add_assoc]

theorem popCount_eq : b.popCount.toNat = (ones b).card := by
  have hle : (ones b).card < 2 ^ 64 := by
    have := Finset.card_filter_le (Finset.range b.size) fun N => bit b N = true
    have hs := b.small
    rw [Finset.card_range, BitVector.size] at this
    simp only [ones, BitVector.size]
    omega
  rw [BitVector.popCount, foldl_popWord b.words 0 b.small]
  simpa using Nat.mod_eq_of_lt hle

theorem card_ones_set {b b' : BitVector} (h : N < b.size) (hs : b'.size = b.size)
    (hb : ∀ M, bit b' M = (decide (M = N) || bit b M)) : (ones b').card = (ones b).card + if bit b N then 0 else 1 := by
  have hi : ones b' = insert N (ones b) := by
    ext M
    simp only [ones, Finset.mem_filter, Finset.mem_range, Finset.mem_insert, hs, hb, Bool.or_eq_true, decide_eq_true_eq]
    constructor
    · rintro ⟨hM, rfl | hM'⟩
      · exact .inl rfl
      · exact .inr ⟨hM, hM'⟩
    · rintro (rfl | ⟨hM, hM'⟩)
      · exact ⟨h, .inl rfl⟩
      · exact ⟨hM, .inr hM'⟩
  rw [hi]
  by_cases hN : bit b N = true
  · rw [Finset.insert_eq_of_mem (by simp [ones, h, hN]), if_pos hN, Nat.add_zero]
  · rw [Finset.card_insert_of_notMem (by simp [ones, hN]), if_neg hN]

/-! ## A run of calls -/

section
variable {I : Type} (hash : I → Word)

def Fits (c : Count) : Prop := 2 ^ c.p ≤ c.bits.size ∧ c.p < 64

theorem bucket_lt {c : Count} (h : Fits c) (item : I) : c.bucket hash item < c.bits.size := by
  have hx := (hash item).isLt
  have hp : (64 + 2 ^ 64 - c.p) % 2 ^ 64 = 64 - c.p ∧ 2 ^ c.p * 2 ^ (64 - c.p) = 2 ^ 64 := by
    refine ⟨?_, ?_⟩
    · have := h.2
      omega
    · rw [← pow_add, Nat.add_sub_cancel' h.2.le]
  rw [Count.bucket, hp.1, Nat.shiftRight_eq_div_pow]
  refine lt_of_lt_of_le ?_ h.1
  rw [Nat.div_lt_iff_lt_mul (Nat.two_pow_pos _), hp.2]
  exact hx

def Settled (N M : Nat) : Prop := N = M → N % 64 = 0

theorem addItems_eq {c : Count} (h : Fits c) (items : List I) :
    ∃ r c', c.addItems hash items = some (r, c') ∧ (ones c'.bits).card ≤ (ones c.bits).card + r.count true ∧
      ((ones c.bits).card + r.count true = (ones c'.bits).card ↔
        (∀ item ∈ items, bit c.bits (c.bucket hash item) = true → c.bucket hash item % 64 = 0) ∧
          (items.map (c.bucket hash)).Pairwise Settled) := by
  induction items generalizing c with
  | nil => exact ⟨[], c, rfl, by simp, by simp⟩
  | cons item items ih =>
    obtain ⟨b', hset, hs, hb⟩ := setWithIsNew_eq (bucket_lt hash h item)
    obtain ⟨r, c', hr, hle, hiff⟩ := ih (c := { c with bits := b' }) ⟨hs.symm ▸ h.1, h.2⟩
    have hc := card_ones_set (bucket_lt hash h item) hs hb
    have hR : (∀ i ∈ items, bit b' (c.bucket hash i) = true → c.bucket hash i % 64 = 0) ↔
        (∀ i ∈ items, bit c.bits (c.bucket hash i) = true → c.bucket hash i % 64 = 0) ∧
          ∀ i ∈ items, Settled (c.bucket hash item) (c.bucket hash i) := by
      simp only [hb, Bool.or_eq_true, decide_eq_true_eq, Settled, ← forall_and]
      refine forall₂_congr fun i _ => ⟨fun hi => ⟨fun hc => hi (.inr hc), fun he => he ▸ hi (.inl he.symm)⟩, ?_⟩
      rintro ⟨h1, h2⟩ (he | hc)
      · exact he ▸ h2 he.symm
      · exact h1 hc
    refine ⟨(!(decide (c.bucket hash item % 64 = 0) && bit c.bits (c.bucket hash item))) :: r, c', ?_, ?_⟩
    · simp only [Count.addItems, Count.addWithIsNew, hset, Option.map_some, Option.bind_eq_bind, Option.bind_some, hr]
      rfl
    rw [hc] at hle
    replace hiff : (ones b').card + r.count true = _ ↔ _ := hiff.trans (and_congr_left' hR)
    rw [hc] at hiff
    simp only [count_cons, map_cons, pairwise_cons, forall_mem_cons, forall_mem_map]
    cases ht : bit c.bits (c.bucket hash item) with
    | false =>
      rw [ht] at hle hiff
      simp only [Bool.and_false, Bool.not_false, Bool.false_eq_true, if_false, beq_self_eq_true, if_true] at *
      refine ⟨by omega, ?_⟩
      rw [show (ones c.bits).card + (r.count true + 1) = (ones c.bits).card + 1 + r.count true by omega, hiff]
      tauto
    | true =>
      rw [ht] at hle hiff
      by_cases h0 : c.bucket hash item % 64 = 0
      · simp only [h0, decide_true, Bool.and_true, Bool.not_true, if_true, Nat.add_zero] at *
        refine ⟨hle, hiff.trans ?_⟩
        tauto
      · simp only [h0, decide_false, Bool.false_and, Bool.not_false, beq_self_eq_true, if_true, Nat.add_zero] at *
        refine ⟨by omega, ⟨fun he => by omega, fun hf => absurd (hf.1.1 trivial) (by simp)⟩⟩

end

-- With the length a variable: the kernel does not stop on the length `newBitVector` computes.
theorem bit_zeros {n : Nat} (h : (List.replicate n (0 : Word)).length < 2 ^ 58) (N : Nat) :
    bit ⟨List.replicate n 0, h⟩ N = false := by
  simp [bit]

theorem fits_newCount {p : Nat} {c : Count} (h : newCount p = some c) : Fits c ∧ ∀ N, bit c.bits N = false := by
  simp only [newCount, BitVector.newBitVector, Option.map_eq_some_iff, Option.dite_none_right_eq_some, Option.some.injEq] at h
  obtain ⟨b, ⟨hn, rfl⟩, rfl⟩ := h
  rw [Nat.shiftRight_eq_div_pow] at hn
  have hp : p < 64 := by
    by_contra hp
    rw [Nat.mod_eq_zero_of_dvd (pow_dvd_pow 2 (Nat.le_of_not_lt hp))] at hn
    omega
  have hlt : 2 ^ p < 2 ^ 64 := Nat.pow_lt_pow_right (by decide) hp
  refine ⟨⟨?_, hp⟩, fun N => ?_⟩
  · have := Nat.two_pow_pos p
    simp only [BitVector.size, length_replicate, Nat.shiftRight_eq_div_pow, Nat.mod_eq_of_lt hlt]
    omega
  · exact bit_zeros _ N

end PttaiCore.BitVectorAux

namespace PttaiCore

open BitVectorAux

/-- `PopCount` is the number of positions at which `Get` answers 1. -/
theorem popCount_eq_card (b : BitVector) :
    b.popCount.toNat = ((Finset.range (64 * b.words.length)).filter fun N => b.get N = some 1).card := by
  rw [popCount_eq, ones, BitVector.size]
  congr 1
  refine Finset.filter_congr fun N hN => ?_
  rw [get_eq_one (Finset.mem_range.mp hN)]

/-- `SetWithIsNew` answers right where the position is the lowest of its word or the bit was clear: the masked word is compared with 1. What
it leaves in the vector is always right. The answers of a run of `AddWithIsNew` on a fresh count add up to `PopCount` where no other
position is named twice. -/
theorem setWithIsNew_new_iff {I : Type} (hash : I → Word) :
    (∀ (b : BitVector) (N : Nat), N < 64 * b.words.length → ∃ isNew b', b.setWithIsNew N = some (isNew, b') ∧
      (((isNew = true ↔ b.get N = some 0) ∧ b'.get N = some 1 ∧ ∀ M < 64 * b.words.length, M ≠ N → b'.get M = b.get M) ↔
        N % 64 = 0 ∨ b.get N = some 0)) ∧
    ∀ (p : Nat) (c : Count), newCount p = some c → ∀ items : List I,
      ∃ r c', c.addItems hash items = some (r, c') ∧
        (r.count true = c'.bits.popCount.toNat ↔ (items.map (c.bucket hash)).Pairwise fun N M => N = M → N % 64 = 0) := by
  refine ⟨fun b N h => ?_, fun p c hc items => ?_⟩
  · obtain ⟨b', hset, hs, hb⟩ := setWithIsNew_eq h
    have h' : ∀ {M}, M < b.size → M < b'.size := fun hM => hs ▸ hM
    refine ⟨_, b', hset, ?_⟩
    have hN : b'.get N = some 1 := (get_eq_one (h' h)).mpr (by simp [hb])
    have hM : ∀ M < 64 * b.words.length, M ≠ N → b'.get M = b.get M := by
      intro M hM hne
      rw [get_eq (h' hM), get_eq hM, hb, decide_eq_false hne, Bool.false_or]
    rw [get_eq_zero h, and_iff_left ⟨hN, hM⟩]
    cases hbit : bit b N <;> simp
  · obtain ⟨hf, hz⟩ := fits_newCount hc
    obtain ⟨r, c', hr, -, hiff⟩ := addItems_eq hash hf items
    have h0 : ones c.bits = ∅ := Finset.filter_eq_empty_iff.mpr fun N _ => by simp [hz]
    refine ⟨r, c', hr, ?_⟩
    rw [h0, Finset.card_empty, Nat.zero_add, ← popCount_eq] at hiff
    rw [hiff]
    simp only [hz]
    exact and_iff_right fun _ _ h => absurd h (by decide)

namespace BitVectorWitness

def second : BitVector := ⟨[2], by decide⟩

def toSecond (_ : Unit) : Word := 2 ^ 58

end BitVectorWitness

open BitVectorWitness

/-- A bit that is set is called new, and a run answers so twice for one bit. -/
theorem second_bit_called_new :
    (second.get 1 = some 1 ∧ (second.setWithIsNew 1).map Prod.fst = some true) ∧
      ((newCount 6).bind fun c => (c.addItems toSecond [(), ()]).map fun r => (r.1, r.2.bits.popCount)) = some ([true, true], 1) := by
  decide +kernel

theorem setWithIsNew_new_iff_second :
    (∃ isNew b', second.setWithIsNew 0 = some (isNew, b') ∧ isNew = true ∧ b'.get 0 = some 1 ∧ b'.get 1 = some 1) ∧
      ∃ c, newCount 6 = some c ∧ ∃ r c', c.addItems toSecond [()] = some (r, c') ∧ r.count true = c'.bits.popCount.toNat := by
  refine ⟨?_, ?_⟩
  · obtain ⟨isNew, b', hs, hi⟩ := (setWithIsNew_new_iff toSecond).1 second 0 (by decide)
    obtain ⟨hn, h0, hM⟩ := hi.mpr (Or.inl rfl)
    exact ⟨isNew, b', hs, hn.mpr (by decide), h0, (hM 1 (by decide) (by decide)).trans (by decide)⟩
  · have hsome : (newCount 6).isSome = true := by decide
    obtain ⟨c, hc⟩ := Option.isSome_iff_exists.mp hsome
    obtain ⟨r, c', hr, hi⟩ := (setWithIsNew_new_iff toSecond).2 6 c hc [()]
    exact ⟨c, hc, r, c', hr, hi.mpr (List.pairwise_singleton _ _)⟩

end PttaiCore
