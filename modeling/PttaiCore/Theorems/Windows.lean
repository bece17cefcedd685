import PttaiCore.Lemmas.Windows
import PttaiCore.Theorems.Cover

/-! # The windows of an answer tile the time until now -/

namespace PttaiCore

open SyncPeer MerkleTreeLevel WindowsAux Timestamp List

def Timestamp.IsClock (now : Timestamp) : Prop := 0 ≤ now.ts.toInt ∧ now.ts.toInt + 3600 < 2 ^ 63

def Merkle.LeafIn (m : Merkle) (db : KeyStore Bytes Value) (offset now : Timestamp) (n : MerkleNode) : Prop :=
  n ∈ m.leaves db ∧ n.updateTS.order ∈ Set.Ico offset.order now.order

def Merkle.keysIn (m : Merkle) (db : KeyStore Bytes Value) (offset now : Timestamp) : Set Bytes :=
  {key | ∃ n, m.LeafIn db offset now n ∧ n.key = key}

structure WindowsTile (m : Merkle) (db : KeyStore Bytes Value) (offset now : Timestamp) : Prop where
  disjoint : ((syncOplogAckFrom m db offset now).map SyncOplogAck.window).Pairwise
    fun v w => ∀ t, t ∈ Set.Ico v.1 v.2 → t ∉ Set.Ico w.1 w.2
  cover : ∀ t : Timestamp, t.order ∈ Set.Ico offset.order now.order ↔
    ∃ a ∈ syncOplogAckFrom m db offset now, t.order ∈ Set.Ico a.window.1 a.window.2
  nodes : ∀ a ∈ syncOplogAckFrom m db offset now, a.Exact (· ∈ m.leaves db)
  difference : ∀ db', TreeShape m db' → (∀ n, m.LeafIn db' offset now n → n.isReadable = true) → ∀ key,
    ((∃ a ∈ syncOplogAckFrom m db offset now, key ∈ (syncOplogAckKeys m db' a).1) ↔
      key ∈ m.keysIn db offset now \ m.keysIn db' offset now) ∧
    ((∃ a ∈ syncOplogAckFrom m db offset now, key ∈ (syncOplogAckKeys m db' a).2) ↔
      key ∈ m.keysIn db' offset now \ m.keysIn db offset now)

def hoursFrom (m : Merkle) (db : KeyStore Bytes Value) (now : Timestamp) : Nat → Timestamp → List AckHour
  | 0, _ => []
  | fuel + 1, cur =>
    if cur.isLess now then
      ⟨cur, ackNextHourTS cur now, m.getMerkleTreeListByLevel db .now cur (ackNextHourTS cur now)⟩ ::
        hoursFrom m db now fuel (ackNextHourTS cur now)
    else []

def ackHoursOf (m : Merkle) (db : KeyStore Bytes Value) (offset now : Timestamp) : List AckHour :=
  hoursFrom m db now (ackFuel offset now) offset

structure WindowsFit (m : Merkle) (db : KeyStore Bytes Value) (offset now : Timestamp) : Prop where
  start : offset.order < now.order → 0 ≤ offset.ts.toInt
  readable : ∀ n, m.LeafIn db offset now n → n.isReadable = true
  noGap : NoGap 0 ((ackHoursOf m db offset now).map AckHour.count)
  blocksEnd : BlocksEnd 0 (ackHoursOf m db offset now)

namespace WindowsAux

variable {m : Merkle} {db : KeyStore Bytes Value} {offset now cur : Timestamp} {fuel : Nat} {n : MerkleNode}

/-! ## The hours of the loop -/

def IsHourTS (t : Timestamp) : Prop := t.nanoTs = 0 ∧ t.ts.toInt % 3600 = 0

theorem isHourTS_toHRTimestamp (t : Timestamp) : IsHourTS t.toHRTimestamp.1 := by
  refine ⟨rfl, ?_⟩
  change (t.ts - t.ts % Timestamp.hrSeconds).toInt % 3600 = 0
  have h3600 : Timestamp.hrSeconds.toInt = 3600 := by decide
  rw [toInt_sub_mod, h3600]
  have hmul := Int.mul_tdiv_add_tmod t.ts.toInt 3600
  omega

def Fits (now : Timestamp) (fuel : Nat) (cur : Timestamp) : Prop :=
  1 ≤ fuel ∧ (cur.order < now.order → now.ts.toInt - cur.ts.toInt < 3600 * (fuel - 1))

theorem toInt_le_of_order {t u : Timestamp} (h : t.order < u.order) : t.ts.toInt ≤ u.ts.toInt := by
  rw [Timestamp.order, Timestamp.order, Prod.Lex.lt_iff] at h
  simp only [ofLex_toLex] at h
  omega

theorem toInt_le_of_order_le {t u : Timestamp} (h : t.order ≤ u.order) : t.ts.toInt ≤ u.ts.toInt := by
  rcases h.lt_or_eq with hlt | heq
  · exact toInt_le_of_order hlt
  · rw [order_injective heq]

theorem toInt_nextHourTS (hlt : cur.ts.toInt + 3600 < 2 ^ 63) : cur.nextHourTS.ts.toInt = cur.ts.toInt + 3600 := by
  have h3600 : (3600 : Int64).toInt = 3600 := by decide
  have hlow := cur.ts.le_toInt
  have hadd : cur.nextHourTS.ts.toInt = (cur.ts.toInt + (3600 : Int64).toInt).bmod (2 ^ 64) := Int64.toInt_add _ _
  rw [hadd, h3600, Int.bmod_eq_of_le] <;> omega

theorem isHourTS_nextHourTS (hlt : cur.ts.toInt + 3600 < 2 ^ 63) (hcur : IsHourTS cur) : IsHourTS cur.nextHourTS := by
  constructor
  · rw [Timestamp.nextHourTS]
    exact hcur.1
  · rw [toInt_nextHourTS hlt]
    have hmod := hcur.2
    omega

theorem next_spec (hnow : now.IsClock) (hcur : IsHourTS cur) (hlt : cur.order < now.order) :
    cur.order < (ackNextHourTS cur now).order ∧ (ackNextHourTS cur now).order ≤ now.order ∧
      (ackNextHourTS cur now = now ∨ IsHourTS (ackNextHourTS cur now) ∧ (ackNextHourTS cur now).ts.toInt = cur.ts.toInt + 3600) := by
  have hle := toInt_le_of_order hlt
  have hlt' : cur.ts.toInt + 3600 < 2 ^ 63 := by have := hnow.2; omega
  have hsec := toInt_nextHourTS hlt'
  unfold ackNextHourTS
  split_ifs with hless
  · exact ⟨hlt, le_rfl, .inl rfl⟩
  · have hge := (isLess_eq_false_iff _ _).1 (Bool.not_eq_true _ ▸ hless)
    refine ⟨?_, hge, .inr ⟨isHourTS_nextHourTS hlt' hcur, hsec⟩⟩
    rw [Timestamp.order, Timestamp.order, Prod.Lex.lt_iff]
    refine .inl ?_
    simp only [ofLex_toLex]
    omega

theorem fits_next (hnow : now.IsClock) (hcur : IsHourTS cur) (hlt : cur.order < now.order) (hfits : Fits now (fuel + 1) cur) :
    Fits now fuel (ackNextHourTS cur now) := by
  have hleft := hfits.2 hlt
  have hle := toInt_le_of_order hlt
  refine ⟨by omega, fun hlt' => ?_⟩
  rcases (next_spec hnow hcur hlt).2.2 with heq | ⟨-, hsec⟩
  · rw [heq] at hlt'
    exact absurd hlt' (lt_irrefl _)
  · rw [hsec]
    omega

structure HourOK (m : Merkle) (db : KeyStore Bytes Value) (now : Timestamp) (g : AckHour) : Prop where
  cur : IsHourTS g.cur
  next : g.next = now ∨ IsHourTS g.next
  nodes : g.nodes = m.getMerkleTreeListCore db .now g.cur g.next

theorem HourOK.ordered (h : TreeShape m db) {g : AckHour} (hg : HourOK m db now g) (hlt : g.cur.order < g.next.order) : g.Ordered := by
  have hle := toInt_le_of_order hlt
  by_cases hsign : g.cur.ts.toInt < 0 ↔ g.next.ts.toInt < 0
  · have hmem : ∀ n ∈ g.nodes, n.updateTS.order ∈ Set.Ico g.cur.order g.next.order := by
      intro n hn
      rw [hg.nodes, h.mem_list_now hsign] at hn
      exact hn.2.2
    refine ⟨hlt, hmem, ?_⟩
    have hpair : g.nodes.Pairwise fun a b => a.updateTS.keyOrder ≤ b.updateTS.keyOrder := by
      rw [hg.nodes, getMerkleTreeListCore_eq]
      exact ((h.pairwise_nodesBetween (.head _)).imp And.left).filter _
    refine hpair.imp_of_mem fun {a b} ha hb hkey => ?_
    have hsec : ∀ n ∈ g.nodes, g.cur.ts.toInt ≤ n.updateTS.ts.toInt ∧ n.updateTS.ts.toInt ≤ g.next.ts.toInt := by
      intro n hn
      obtain ⟨hlo, hhi⟩ := hmem n hn
      exact ⟨toInt_le_of_order_le hlo, toInt_le_of_order hhi⟩
    have ha' := hsec a ha
    have hb' := hsec b hb
    rw [← not_lt, ← keyOrder_lt_iff_of_sign (by omega), not_lt]
    exact hkey
  · have hnil : g.nodes = [] := by
      rw [hg.nodes]
      exact h.list_now_nil (by omega) (by omega)
    refine ⟨hlt, fun n hn => ?_, ?_⟩
    · rw [hnil] at hn
      cases hn
    · rw [hnil]
      exact .nil

theorem hoursFrom_cons (hlt : cur.order < now.order) : hoursFrom m db now (fuel + 1) cur =
    ⟨cur, ackNextHourTS cur now, m.getMerkleTreeListCore db .now cur (ackNextHourTS cur now)⟩ ::
      hoursFrom m db now fuel (ackNextHourTS cur now) := by
  rw [hoursFrom, if_pos ((isLess_iff _ _).2 hlt)]
  rfl

theorem hoursFrom_nil (hge : now.order ≤ cur.order) : hoursFrom m db now fuel cur = [] := by
  cases fuel with
  | zero => rfl
  | succ fuel =>
    rw [hoursFrom, (isLess_eq_false_iff _ _).2 hge]
    rfl

theorem core_eq (s : AckState) : syncOplogAckCore m db s cur offset now =
    AckHour.step offset ⟨cur, ackNextHourTS cur now, m.getMerkleTreeListCore db .now cur (ackNextHourTS cur now)⟩ s := by
  unfold syncOplogAckCore
  generalize ackNextHourTS cur now = next
  rfl

theorem loop_eq (hnow : now.IsClock) (hcur : cur = now ∨ IsHourTS cur) (hfits : Fits now fuel cur) (s : AckState) :
    syncOplogAckLoop m db offset now fuel cur s = ackHours offset now (hoursFrom m db now fuel cur) s := by
  induction fuel generalizing cur s with
  | zero => exact absurd hfits.1 (by decide)
  | succ fuel ih =>
    rcases lt_or_ge cur.order now.order with hlt | hge
    · have hcur' : IsHourTS cur := hcur.resolve_left fun heq => absurd hlt (by rw [heq]; exact lt_irrefl _)
      have hnext := (next_spec hnow hcur' hlt).2.2.imp_right And.left
      rw [syncOplogAckLoop, if_pos ((isLess_iff _ _).2 hlt), hoursFrom_cons hlt, ackHours,
        ih hnext (fits_next hnow hcur' hlt hfits), core_eq]
    · rw [syncOplogAckLoop, (isLess_eq_false_iff _ _).2 hge, hoursFrom_nil hge]
      rfl

theorem hourOK_of_mem (hnow : now.IsClock) (hcur : cur = now ∨ IsHourTS cur) {g : AckHour} (hg : g ∈ hoursFrom m db now fuel cur) :
    HourOK m db now g := by
  induction fuel generalizing cur with
  | zero => cases hg
  | succ fuel ih =>
    rcases lt_or_ge cur.order now.order with hlt | hge
    · have hcur' : IsHourTS cur := hcur.resolve_left fun heq => absurd hlt (by rw [heq]; exact lt_irrefl _)
      have hnext := (next_spec hnow hcur' hlt).2.2.imp_right And.left
      rw [hoursFrom_cons hlt] at hg
      generalize ackNextHourTS cur now = next at hnext hg
      rcases mem_cons.1 hg with rfl | hg
      · exact ⟨hcur', hnext, rfl⟩
      · exact ih hnext hg
    · rw [hoursFrom_nil hge] at hg
      cases hg

theorem hoursFrom_chain (h : TreeShape m db) (hnow : now.IsClock) (hcur : cur = now ∨ IsHourTS cur) (hle : cur.order ≤ now.order)
    (hfits : Fits now fuel cur) : HourChain cur now (hoursFrom m db now fuel cur) := by
  induction fuel generalizing cur with
  | zero => exact absurd hfits.1 (by decide)
  | succ fuel ih =>
    rcases hle.lt_or_eq with hlt | heq
    · have hcur' : IsHourTS cur := hcur.resolve_left fun heq => absurd hlt (by rw [heq]; exact lt_irrefl _)
      obtain ⟨hlt', hle', hnext⟩ := next_spec hnow hcur' hlt
      have hfits' := fits_next hnow hcur' hlt hfits
      rw [hoursFrom_cons hlt]
      generalize ackNextHourTS cur now = next at hlt' hle' hnext hfits'
      have hok : HourOK m db now ⟨cur, next, m.getMerkleTreeListCore db .now cur next⟩ := ⟨hcur', hnext.imp_right And.left, rfl⟩
      exact .cons (hok.ordered h hlt') (ih (hnext.imp_right And.left) hle' hfits')
    · rw [hoursFrom_nil heq.ge, order_injective heq]
      exact .nil _

theorem list_append_of_keyOrder (m : Merkle) (db : KeyStore Bytes Value) {t u v : Timestamp} (htu : t.keyOrder ≤ u.keyOrder)
    (huv : u.keyOrder ≤ v.keyOrder) :
    m.getMerkleTreeListCore db .now t u ++ m.getMerkleTreeListCore db .now u v = m.getMerkleTreeListCore db .now t v := by
  have hkey : ∀ {a b : Timestamp}, a.keyOrder ≤ b.keyOrder → m.marshalKey .now a ≤ m.marshalKey .now b := by
    intro a b hab
    rw [← not_lt, marshalKey_lt_marshalKey, not_lt]
    exact hab
  rw [Merkle.getMerkleTreeListCore, Merkle.getMerkleTreeListCore, ← filterMap_append, Merkle.getMerkleIter, Merkle.getMerkleIter,
    KeyStore.range_append (hkey htu) (hkey huv)]
  rfl

theorem list_append (m : Merkle) (db : KeyStore Bytes Value) {t u v : Timestamp} (ht : 0 ≤ t.ts.toInt) (htu : t.order ≤ u.order) (huv : u.order ≤ v.order) :
    m.getMerkleTreeListCore db .now t u ++ m.getMerkleTreeListCore db .now u v = m.getMerkleTreeListCore db .now t v := by
  have hu := ht.trans (toInt_le_of_order_le htu)
  have hv := hu.trans (toInt_le_of_order_le huv)
  exact list_append_of_keyOrder m db ((keyOrder_le_iff ht hu).2 htu) ((keyOrder_le_iff hu hv).2 huv)

theorem flatMap_hoursFrom (hnow : now.IsClock) (hcur : cur = now ∨ IsHourTS cur) (h0 : 0 ≤ cur.ts.toInt) (hle : cur.order ≤ now.order)
    (hfits : Fits now fuel cur) : (hoursFrom m db now fuel cur).flatMap AckHour.nodes = m.getMerkleTreeListCore db .now cur now := by
  induction fuel generalizing cur with
  | zero => exact absurd hfits.1 (by decide)
  | succ fuel ih =>
    rcases hle.lt_or_eq with hlt | heq
    · have hcur' : IsHourTS cur := hcur.resolve_left fun heq => absurd hlt (by rw [heq]; exact lt_irrefl _)
      obtain ⟨hlt', hle', hnext⟩ := next_spec hnow hcur' hlt
      rw [hoursFrom_cons hlt, flatMap_cons, ih (hnext.imp_right And.left) (h0.trans (toInt_le_of_order hlt')) hle'
        (fits_next hnow hcur' hlt hfits)]
      exact list_append m db h0 hlt'.le hle'
    · rw [hoursFrom_nil heq.ge, order_injective heq, flatMap_nil]
      have hself := list_append m db (u := now) (v := now) hnow.1 le_rfl le_rfl
      exact (append_right_eq_self.1 hself).symm

/-! ## The receiver -/

section receiver

variable {db' : KeyStore Bytes Value} {a : SyncOplogAck} {key : Bytes}

theorem mem_filterTS (h : TreeShape m db') (hstart : 0 ≤ a.startHourTS.ts.toInt) (hend : 0 ≤ a.endHourTS.ts.toInt)
    (hlo : a.startHourTS.order ≤ a.startTS.order) (hhi : a.endTS.order ≤ a.endHourTS.order)
    (hread : ∀ n ∈ m.leaves db', n.updateTS.order ∈ Set.Ico a.window.1 a.window.2 → n.isReadable = true) :
    n ∈ handleSyncOplogAckFilterTS (m.getMerkleTreeListByLevel db' .now a.startHourTS a.endHourTS) a.startTS a.endTS ↔
      n ∈ m.leaves db' ∧ n.updateTS.order ∈ Set.Ico a.window.1 a.window.2 := by
  rw [handleSyncOplogAckFilterTS, mem_filter, Merkle.getMerkleTreeListByLevel, h.mem_list_now (by omega), Bool.and_eq_true,
    isLessEqual_iff, isLess_iff]
  constructor
  · rintro ⟨⟨hn, -⟩, hwin⟩
    exact ⟨hn, hwin⟩
  · rintro ⟨hn, hwin⟩
    exact ⟨⟨hn, hread n hn hwin, hlo.trans hwin.1, hwin.2.trans_le hhi⟩, hwin⟩

theorem mem_syncOplogAckKeys (h : TreeShape m db') (hstart : 0 ≤ a.startHourTS.ts.toInt) (hend : 0 ≤ a.endHourTS.ts.toInt)
    (hlo : a.startHourTS.order ≤ a.startTS.order) (hhi : a.endTS.order ≤ a.endHourTS.order)
    (hread : ∀ n ∈ m.leaves db', n.updateTS.order ∈ Set.Ico a.window.1 a.window.2 → n.isReadable = true)
    (hsorted : a.nodes.Pairwise fun x y => x.key < y.key) :
    (key ∈ (syncOplogAckKeys m db' a).1 ↔ (∃ n ∈ a.nodes, n.key = key) ∧
      ¬ ∃ n, (n ∈ m.leaves db' ∧ n.updateTS.order ∈ Set.Ico a.window.1 a.window.2) ∧ n.key = key) ∧
    (key ∈ (syncOplogAckKeys m db' a).2 ↔
      (∃ n, (n ∈ m.leaves db' ∧ n.updateTS.order ∈ Set.Ico a.window.1 a.window.2) ∧ n.key = key) ∧ ¬ ∃ n ∈ a.nodes, n.key = key) := by
  have hmy : ((handleSyncOplogAckFilterTS (m.getMerkleTreeListByLevel db' .now a.startHourTS a.endHourTS) a.startTS a.endTS).map
      MerkleNode.key).Pairwise (· < ·) := pairwise_map.2 (h.pairwise_key.filter _)
  have hdiff := mem_mergeDiff_keys hmy (pairwise_map.2 hsorted) key
  have hkey : (∃ n, (n ∈ m.leaves db' ∧ n.updateTS.order ∈ Set.Ico a.window.1 a.window.2) ∧ n.key = key) ↔
      key ∈ (handleSyncOplogAckFilterTS (m.getMerkleTreeListByLevel db' .now a.startHourTS a.endHourTS) a.startTS a.endTS).map
        MerkleNode.key := by
    rw [mem_map]
    exact exists_congr fun n => and_congr_left fun _ => (mem_filterTS h hstart hend hlo hhi hread).symm
  rw [hkey, ← mem_map]
  exact hdiff

end receiver

/-! ## The messages of the loop -/

theorem covers_iff {l : List SyncOplogAck} : Covers offset.order now.order (l.map SyncOplogAck.window) ↔
    ∀ t : Timestamp, t.order ∈ Set.Ico offset.order now.order → ∃ a ∈ l, t.order ∈ Set.Ico a.window.1 a.window.2 := by
  constructor
  · intro hcov t ht
    obtain ⟨w, hw, htw⟩ := hcov _ ht
    obtain ⟨a, ha, rfl⟩ := mem_map.1 hw
    exact ⟨a, ha, htw⟩
  · rintro hcov p ⟨hlo, hhi⟩
    -- The last time that is not after the point is in the same windows as the point.
    obtain ⟨s, k⟩ := p
    have hle : ∀ {t : Timestamp}, t.order ≤ toLex (s, k) ↔ t.ts.toInt < s ∨ t.ts.toInt = s ∧ t.nanoTs.toNat ≤ k := by
      intro t
      rw [Timestamp.order, Prod.Lex.le_iff]
      rfl
    have hlt : ∀ {t : Timestamp}, toLex (s, k) < t.order ↔ s < t.ts.toInt ∨ s = t.ts.toInt ∧ k < t.nanoTs.toNat := by
      intro t
      rw [Timestamp.order, Prod.Lex.lt_iff]
      rfl
    have hlo' := hle.1 hlo
    have hhi' := hlt.1 hhi
    have hbound := offset.ts.le_toInt
    have hbound' := now.ts.toInt_lt
    have hnano : ∀ t : Timestamp, t.nanoTs.toNat < 2 ^ 32 := fun t => t.nanoTs.toNat_lt
    have hsec : (Int64.ofInt s).toInt = s := Int64.toInt_ofInt_of_le (by omega) (by omega)
    have hk : (UInt32.ofNat (min k (2 ^ 32 - 1))).toNat = min k (2 ^ 32 - 1) := UInt32.toNat_ofNat_of_lt' (by
      change min k (2 ^ 32 - 1) < 2 ^ 32
      omega)
    have hq : (⟨Int64.ofInt s, UInt32.ofNat (min k (2 ^ 32 - 1))⟩ : Timestamp).order = toLex (s, min k (2 ^ 32 - 1)) := by
      rw [Timestamp.order, hsec, hk]
    have hqlo : ∀ {t : Timestamp}, t.order ≤ toLex (s, k) ↔ t.order ≤ toLex (s, min k (2 ^ 32 - 1)) := by
      intro t
      have := hnano t
      rw [hle, Timestamp.order, Prod.Lex.le_iff]
      simp only [ofLex_toLex]
      omega
    have hqhi : ∀ {t : Timestamp}, toLex (s, k) < t.order ↔ toLex (s, min k (2 ^ 32 - 1)) < t.order := by
      intro t
      rw [← not_le, ← not_le, not_le, not_le, hlt, Timestamp.order, Prod.Lex.lt_iff]
      have := hnano t
      simp only [ofLex_toLex]
      omega
    obtain ⟨a, ha, hwin⟩ := hcov ⟨Int64.ofInt s, UInt32.ofNat (min k (2 ^ 32 - 1))⟩ (by
      rw [hq]
      exact ⟨hqlo.1 hlo, hqhi.1 hhi⟩)
    rw [hq] at hwin
    exact ⟨a.window, mem_map_of_mem ha, hqlo.2 hwin.1, hqhi.2 hwin.2⟩

theorem fits_start (offset now : Timestamp) : Fits now (ackFuel offset now) offset := by
  unfold ackFuel
  refine ⟨by omega, fun hlt => ?_⟩
  have hle := toInt_le_of_order hlt
  omega

theorem syncOplogAckFrom_eq (hnow : now.IsClock) (hoff : IsHourTS offset) :
    syncOplogAckFrom m db offset now = ackHours offset now (ackHoursOf m db offset now) ⟨[], offset⟩ :=
  loop_eq hnow (.inr hoff) (fits_start offset now) _

theorem ackHoursOf_chain (h : TreeShape m db) (hnow : now.IsClock) (hoff : IsHourTS offset) (hlt : offset.order < now.order) :
    HourChain offset now (ackHoursOf m db offset now) := hoursFrom_chain h hnow (.inr hoff) hlt.le (fits_start offset now)

theorem from_within (h : TreeShape m db) (hnow : now.IsClock) (hoff : IsHourTS offset) (hlt : offset.order < now.order) :
    Within offset.order now.order ((syncOplogAckFrom m db offset now).map SyncOplogAck.window) := by
  rw [syncOplogAckFrom_eq hnow hoff]
  exact hours_within (s := ⟨[], offset⟩) (ackHoursOf_chain h hnow hoff hlt) le_rfl

theorem from_msgOK (h : TreeShape m db) (hnow : now.IsClock) (hoff : IsHourTS offset) (hlt : offset.order < now.order) {a : SyncOplogAck}
    (ha : a ∈ syncOplogAckFrom m db offset now) : MsgOK ⟨[], offset⟩ now (ackHoursOf m db offset now) a := by
  rw [syncOplogAckFrom_eq hnow hoff] at ha
  exact mem_hours (ackHoursOf_chain h hnow hoff hlt) ha

theorem from_bounds (h : TreeShape m db) (hnow : now.IsClock) (hoff : IsHourTS offset) (hlt : offset.order < now.order) {a : SyncOplogAck}
    (ha : a ∈ syncOplogAckFrom m db offset now) : offset.order ≤ a.startHourTS.order ∧ offset.order ≤ a.endHourTS.order ∧
      a.startHourTS.order ≤ a.startTS.order ∧ a.endTS.order ≤ a.endHourTS.order := by
  obtain ⟨hstart, hle, -⟩ := (from_within h hnow hoff hlt).mem (mem_map_of_mem ha)
  cases (from_msgOK h hnow hoff hlt ha).kind with
  | waiting h1 h2 _ _ =>
    rw [h1, h2]
    exact ⟨hstart, hstart.trans hle, le_rfl, le_rfl⟩
  | block g h1 _ h3 h4 h5 h6 =>
    obtain ⟨hcur, hord⟩ := (ackHoursOf_chain h hnow hoff hlt).mem h1
    rw [h3, h4]
    exact ⟨hcur, hcur.trans hord.lt.le, h5, h6⟩

theorem from_difference (h : TreeShape m db) (hnow : now.IsClock) (hoff : IsHourTS offset) (hlt : offset.order < now.order)
    (h0 : 0 ≤ offset.ts.toInt) (hcover : ∀ t : Timestamp, t.order ∈ Set.Ico offset.order now.order ↔
      ∃ a ∈ syncOplogAckFrom m db offset now, t.order ∈ Set.Ico a.window.1 a.window.2)
    (hexact : ∀ a ∈ syncOplogAckFrom m db offset now, a.Exact (· ∈ m.leaves db)) {db' : KeyStore Bytes Value} (h' : TreeShape m db')
    (hread : ∀ n, m.LeafIn db' offset now n → n.isReadable = true) (key : Bytes) :
    ((∃ a ∈ syncOplogAckFrom m db offset now, key ∈ (syncOplogAckKeys m db' a).1) ↔
      key ∈ m.keysIn db offset now \ m.keysIn db' offset now) ∧
    ((∃ a ∈ syncOplogAckFrom m db offset now, key ∈ (syncOplogAckKeys m db' a).2) ↔
      key ∈ m.keysIn db' offset now \ m.keysIn db offset now) := by
  have htime : ∀ {x y : MerkleNode}, x ∈ m.leaves db → y ∈ m.leaves db' → x.key = y.key → x.updateTS = y.updateTS := by
    intro x y hx hy hkey
    obtain ⟨r, hget⟩ := mem_leaves.1 hx
    obtain ⟨r', hget'⟩ := mem_leaves.1 hy
    exact (h.leaf r x hget).updateTS_eq (h'.leaf r' y hget') hkey
  have hbetween : ∀ {a}, a ∈ syncOplogAckFrom m db offset now → ∀ {t : Timestamp}, t.order ∈ Set.Ico a.window.1 a.window.2 →
      t.order ∈ Set.Ico offset.order now.order := fun ha t ht => (hcover t).2 ⟨_, ha, ht⟩
  have hkeys : ∀ a ∈ syncOplogAckFrom m db offset now,
      (key ∈ (syncOplogAckKeys m db' a).1 ↔ (∃ n ∈ a.nodes, n.key = key) ∧
        ¬ ∃ n, (n ∈ m.leaves db' ∧ n.updateTS.order ∈ Set.Ico a.window.1 a.window.2) ∧ n.key = key) ∧
      (key ∈ (syncOplogAckKeys m db' a).2 ↔
        (∃ n, (n ∈ m.leaves db' ∧ n.updateTS.order ∈ Set.Ico a.window.1 a.window.2) ∧ n.key = key) ∧
          ¬ ∃ n ∈ a.nodes, n.key = key) := by
    intro a ha
    obtain ⟨hstart, hend, hlo, hhi⟩ := from_bounds h hnow hoff hlt ha
    have hsub := (from_msgOK h hnow hoff hlt ha).sublist
    have hlist : (ackHoursOf m db offset now).flatMap AckHour.nodes = m.getMerkleTreeListCore db .now offset now :=
      flatMap_hoursFrom hnow (.inr hoff) h0 hlt.le (fits_start offset now)
    rw [nil_append, hlist] at hsub
    exact mem_syncOplogAckKeys h' (h0.trans (toInt_le_of_order_le hstart)) (h0.trans (toInt_le_of_order_le hend)) hlo hhi
      (fun n hn hwin => hread n ⟨hn, hbetween ha hwin⟩) (h.pairwise_key.sublist hsub)
  constructor
  · constructor
    · rintro ⟨a, ha, hkey⟩
      obtain ⟨⟨n, hn, rfl⟩, hnot⟩ := (hkeys a ha).1.1 hkey
      obtain ⟨hleaf, hwin⟩ := (hexact a ha n).1 hn
      refine ⟨⟨n, ⟨hleaf, hbetween ha hwin⟩, rfl⟩, ?_⟩
      rintro ⟨n', ⟨hleaf', -⟩, heq⟩
      refine hnot ⟨n', ⟨hleaf', ?_⟩, heq⟩
      rwa [← htime hleaf hleaf' heq.symm]
    · rintro ⟨⟨n, ⟨hleaf, hin⟩, rfl⟩, hnot⟩
      obtain ⟨a, ha, hwin⟩ := (hcover n.updateTS).1 hin
      refine ⟨a, ha, (hkeys a ha).1.2 ⟨⟨n, (hexact a ha n).2 ⟨hleaf, hwin⟩, rfl⟩, ?_⟩⟩
      rintro ⟨n', ⟨hleaf', hwin'⟩, heq⟩
      exact hnot ⟨n', ⟨hleaf', hbetween ha hwin'⟩, heq⟩
  · constructor
    · rintro ⟨a, ha, hkey⟩
      obtain ⟨⟨n, ⟨hleaf, hwin⟩, rfl⟩, hnot⟩ := (hkeys a ha).2.1 hkey
      refine ⟨⟨n, ⟨hleaf, hbetween ha hwin⟩, rfl⟩, ?_⟩
      rintro ⟨n', ⟨hleaf', -⟩, heq⟩
      refine hnot ⟨n', (hexact a ha n').2 ⟨hleaf', ?_⟩, heq⟩
      rwa [htime hleaf' hleaf heq]
    · rintro ⟨⟨n, ⟨hleaf, hin⟩, rfl⟩, hnot⟩
      obtain ⟨a, ha, hwin⟩ := (hcover n.updateTS).1 hin
      refine ⟨a, ha, (hkeys a ha).2.2 ⟨⟨n, ⟨hleaf, hwin⟩, rfl⟩, ?_⟩⟩
      rintro ⟨n', hn', heq⟩
      obtain ⟨hleaf', hwin'⟩ := (hexact a ha n').1 hn'
      exact hnot ⟨n', ⟨hleaf', hbetween ha hwin'⟩, heq⟩

theorem readable_of_tile (h : TreeShape m db) (hnow : now.IsClock) (hoff : IsHourTS offset) (hlt : offset.order < now.order)
    (htile : WindowsTile m db offset now) (hn : m.LeafIn db offset now n) : n.isReadable = true := by
  obtain ⟨a, ha, hwin⟩ := (htile.cover n.updateTS).1 hn.2
  have hmem := (from_msgOK h hnow hoff hlt ha).sublist.subset ((htile.nodes a ha n).2 ⟨hn.1, hwin⟩)
  rw [nil_append, mem_flatMap] at hmem
  obtain ⟨g, hg, hng⟩ := hmem
  rw [(hourOK_of_mem hnow (Or.inr hoff) hg).nodes, getMerkleTreeListCore_eq, mem_filter] at hng
  exact hng.2

theorem toInt_nonneg_of_hour {t : Timestamp} (hnow : now.IsClock) (ht : t = now ∨ IsHourTS t)
    (hlt : (⟨-1, 0⟩ : Timestamp).order < t.order) : 0 ≤ t.ts.toInt := by
  rcases ht with rfl | ht
  · exact hnow.1
  · have hle : (-1 : Int64).toInt ≤ t.ts.toInt := toInt_le_of_order hlt
    have h1 : (-1 : Int64).toInt = -1 := by decide
    have hmod := ht.2
    omega

theorem start_of_tile (h : TreeShape m db) (hnow : now.IsClock) (hoff : IsHourTS offset) (hlt : offset.order < now.order)
    (htile : WindowsTile m db offset now) : 0 ≤ offset.ts.toInt := by
  by_contra hneg
  have h1 : (-1 : Int64).toInt = -1 := by decide
  have hmod := hoff.2
  have hclock := hnow.1
  have hin : (⟨-1, 0⟩ : Timestamp).order ∈ Set.Ico offset.order now.order := by
    constructor
    · refine le_of_lt ?_
      rw [Timestamp.order, Timestamp.order, Prod.Lex.lt_iff]
      refine .inl ?_
      simp only [ofLex_toLex, h1]
      omega
    · rw [Timestamp.order, Timestamp.order, Prod.Lex.lt_iff]
      refine .inl ?_
      simp only [ofLex_toLex, h1]
      omega
  obtain ⟨a, ha, hlo, hhi⟩ := (htile.cover _).1 hin
  have hok := from_msgOK h hnow hoff hlt ha
  have hneg' : ∀ {t : Timestamp}, t.order ≤ (⟨-1, 0⟩ : Timestamp).order → t.ts.toInt < 0 := by
    intro t ht
    have hle : t.ts.toInt ≤ (-1 : Int64).toInt := toInt_le_of_order_le ht
    omega
  cases hok.kind with
  | waiting h1 h2 _ h4 =>
    have hend : 0 ≤ a.endTS.ts.toInt := by
      refine toInt_nonneg_of_hour hnow ?_ hhi
      rcases h4 with h4 | ⟨g, hg, h4⟩
      · exact .inl h4
      · rw [h4]
        exact .inr (hourOK_of_mem hnow (.inr hoff) hg).cur
    have hnil : m.getMerkleTreeListByLevel db .now a.startHourTS a.endHourTS = [] := by
      rw [h1, h2]
      exact h.list_now_nil (hneg' hlo) hend
    obtain ⟨n, rest, hnodes⟩ := exists_cons_of_ne_nil hok.ne_nil
    have hkey : n.key ∈ (syncOplogAckKeys m db a).1 := by
      rw [syncOplogAckKeys, hnil]
      exact mem_map_of_mem (by rw [hnodes]; exact mem_cons_self)
    have hdiff := ((htile.difference db h (fun _ => readable_of_tile h hnow hoff hlt htile) n.key).1.1 ⟨a, ha, hkey⟩)
    exact hdiff.2 hdiff.1
  | block g hg hsub _ _ h5 h6 =>
    have hg' := hourOK_of_mem hnow (.inr hoff) hg
    have hnil : g.nodes = [] := by
      rw [hg'.nodes]
      exact h.list_now_nil (hneg' (h5.trans hlo)) (toInt_nonneg_of_hour hnow hg'.next (hhi.trans_le h6))
    rw [hnil] at hsub
    exact hok.ne_nil (sublist_nil.1 hsub)

section fits

variable (h : TreeShape m db) (hnow : now.IsClock) (hoff : IsHourTS offset) (hlt : offset.order < now.order)
include h hnow hoff hlt

theorem from_covers_iff : Covers offset.order now.order ((syncOplogAckFrom m db offset now).map SyncOplogAck.window) ↔
    NoGap 0 ((ackHoursOf m db offset now).map AckHour.count) := by
  rw [syncOplogAckFrom_eq hnow hoff]
  refine (hours_covers_iff (s := ⟨[], offset⟩) (ackHoursOf_chain h hnow hoff hlt) le_rfl (show 0 < maxSyncOplogAck by decide)).trans ?_
  exact and_iff_left fun _ hlt' => absurd hlt' (lt_irrefl _)

theorem from_exact_iff (h0 : 0 ≤ offset.ts.toInt) (hread : ∀ n, m.LeafIn db offset now n → n.isReadable = true) :
    (∀ a ∈ syncOplogAckFrom m db offset now, a.Exact (· ∈ m.leaves db)) ↔ BlocksEnd 0 (ackHoursOf m db offset now) := by
  have hchain := ackHoursOf_chain h hnow hoff hlt
  rw [syncOplogAckFrom_eq hnow hoff]
  refine hours_exact_iff (s := ⟨[], offset⟩) hchain le_rfl (fun g hg n => ?_) fun n =>
    iff_of_false not_mem_nil fun hn => absurd hn.2.2 (not_lt.2 hn.2.1)
  obtain ⟨hcur, hord⟩ := hchain.mem hg
  have hle := toInt_le_of_order_le hcur
  have hle' := toInt_le_of_order hord.lt
  rw [(hourOK_of_mem hnow (Or.inr hoff) hg).nodes, h.mem_list_now (by omega)]
  refine and_congr_right fun hleaf => ⟨And.right, fun hin => ⟨hread n ⟨hleaf, hcur.trans hin.1, hin.2.trans_le ?_⟩, hin⟩⟩
  exact hchain.next_le hg

theorem tile_of_fit (hfit : WindowsFit m db offset now) : WindowsTile m db offset now := by
  have hwithin := from_within h hnow hoff hlt
  have hcover : ∀ t : Timestamp, t.order ∈ Set.Ico offset.order now.order ↔
      ∃ a ∈ syncOplogAckFrom m db offset now, t.order ∈ Set.Ico a.window.1 a.window.2 := by
    refine fun t => ⟨covers_iff.1 ((from_covers_iff h hnow hoff hlt).2 hfit.noGap) t, ?_⟩
    rintro ⟨a, ha, ht⟩
    exact hwithin.mem_Ico (mem_map_of_mem ha) ht
  have hexact := (from_exact_iff h hnow hoff hlt (hfit.start hlt) hfit.readable).2 hfit.blocksEnd
  exact ⟨hwithin.disjoint, hcover, hexact, fun db' h' hread => from_difference h hnow hoff hlt (hfit.start hlt) hcover hexact h' hread⟩

theorem fit_of_tile (htile : WindowsTile m db offset now) : WindowsFit m db offset now := by
  have h0 := start_of_tile h hnow hoff hlt htile
  have hread : ∀ n, m.LeafIn db offset now n → n.isReadable = true := fun n => readable_of_tile h hnow hoff hlt htile
  exact ⟨fun _ => h0, hread, (from_covers_iff h hnow hoff hlt).1 (covers_iff.2 fun t => (htile.cover t).1),
    (from_exact_iff h hnow hoff hlt h0 hread).1 htile.nodes⟩

end fits

end WindowsAux

/-- The windows of an answer tile the time from the hour of the start until now, and the receiver finds what either side lacks in it,
if and only if the hours of the oplogs fit the messages. -/
theorem windowsTile_iff {m : Merkle} {db : KeyStore Bytes Value} (h : TreeShape m db) (start : Timestamp) {now : Timestamp}
    (hnow : now.IsClock) : WindowsTile m db start.toHRTimestamp.1 now ↔ WindowsFit m db start.toHRTimestamp.1 now := by
  have hoff := isHourTS_toHRTimestamp start
  generalize start.toHRTimestamp.1 = offset at hoff
  rcases lt_or_ge offset.order now.order with hlt | hge
  · exact ⟨fit_of_tile h hnow hoff hlt, tile_of_fit h hnow hoff hlt⟩
  · -- Nothing is sent if the start is not before now.
    have hempty : ∀ t : Int ×ₗ Nat, t ∉ Set.Ico offset.order now.order := fun t ht => absurd (ht.1.trans_lt ht.2) (not_lt.2 hge)
    have hhours : ackHoursOf m db offset now = [] := hoursFrom_nil hge
    have hsent : syncOplogAckFrom m db offset now = [] := by
      rw [syncOplogAckFrom_eq hnow hoff, hhours]
      rfl
    have hkeys : ∀ db', m.keysIn db' offset now = ∅ := by
      intro db'
      rw [Set.eq_empty_iff_forall_notMem]
      rintro key ⟨n, hn, -⟩
      exact hempty _ hn.2
    refine iff_of_true ⟨?_, fun t => ?_, ?_, fun db' _ _ key => ?_⟩ ⟨fun hlt => absurd hlt (not_lt.2 hge), fun n hn => ?_, ?_, ?_⟩
    · rw [hsent]
      exact .nil
    · rw [hsent]
      exact iff_of_false (hempty _) fun ⟨a, ha, _⟩ => absurd ha List.not_mem_nil
    · rw [hsent]
      exact fun a ha => absurd ha List.not_mem_nil
    · rw [hsent, hkeys, hkeys]
      simp
    · exact absurd hn.2 (hempty _)
    · rw [hhours]
      exact fun pre post hpre => absurd hpre (by simp)
    · rw [hhours]
      exact fun pre g post hpre => absurd hpre (by simp)

open CoverWitness SigningWitness JournalWitness in
/-- An oplog of the second hour of 1970, which is the hour of the start, in the third hour. -/
theorem windowsTile_iff_treeAt : TreeShape merkle (treeAt 5000) ∧ (⟨9000, 0⟩ : Timestamp).IsClock ∧
    WindowsTile merkle (treeAt 5000) (⟨3700, 0⟩ : Timestamp).toHRTimestamp.1 ⟨9000, 0⟩ := by
  have hshape : TreeShape merkle (treeAt 5000) := (consistent_treeAt (by decide)).toTreeShape
  have hclock : (⟨9000, 0⟩ : Timestamp).IsClock := by
    unfold Timestamp.IsClock
    decide
  have hcounts : (ackHoursOf merkle (treeAt 5000) (⟨3700, 0⟩ : Timestamp).toHRTimestamp.1 ⟨9000, 0⟩).map AckHour.count = [1, 0] := by
    decide +kernel
  refine ⟨hshape, hclock, (windowsTile_iff hshape ⟨3700, 0⟩ hclock).2 ⟨fun _ => by decide, fun n hn => ?_, ?_, ?_⟩⟩
  · rw [mem_leaves_treeAt.1 hn.1]
    decide
  · rw [hcounts, noGap_cons, noGap_cons]
    refine ⟨fun h1 _ => absurd h1 (by decide), fun _ hwaiting => absurd hwaiting (by decide), ?_⟩
    exact fun pre post hpre => absurd hpre (by simp)
  · intro pre g post hhours _ hmany
    have hg := List.mem_map_of_mem (f := AckHour.count) (hhours ▸ List.mem_append_right pre List.mem_cons_self)
    rw [hcounts] at hg
    have hfew : ∀ k ∈ [1, 0], k < maxSyncObjectAck := by decide
    exact absurd hmany (not_le.2 (hfew _ hg))

open CoverWitness SigningWitness JournalWitness in
/-- The sender has no oplog in the third hour of 1970 and the receiver has one: nothing is sent, no window covers the hour, and the
receiver does not learn that the sender lacks its oplog. -/
theorem nothing_sent_in_empty_hour : TreeShape merkle (treeAt 5000) ∧ TreeShape merkle (treeAt 8000) ∧
    syncOplogAckFrom merkle (treeAt 5000) (⟨8500, 0⟩ : Timestamp).toHRTimestamp.1 ⟨9000, 0⟩ = [] ∧
    (leafAt 8000).key ∈ merkle.keysIn (treeAt 8000) (⟨8500, 0⟩ : Timestamp).toHRTimestamp.1 ⟨9000, 0⟩ \
      merkle.keysIn (treeAt 5000) (⟨8500, 0⟩ : Timestamp).toHRTimestamp.1 ⟨9000, 0⟩ ∧
    ¬ WindowsTile merkle (treeAt 5000) (⟨8500, 0⟩ : Timestamp).toHRTimestamp.1 ⟨9000, 0⟩ := by
  have hsent : syncOplogAckFrom merkle (treeAt 5000) (⟨8500, 0⟩ : Timestamp).toHRTimestamp.1 ⟨9000, 0⟩ = [] := by decide +kernel
  have hin : (leafAt 8000).updateTS.order ∈
      Set.Ico (⟨8500, 0⟩ : Timestamp).toHRTimestamp.1.order (⟨9000, 0⟩ : Timestamp).order :=
    ⟨(Timestamp.isLessEqual_iff _ _).1 (by decide), (Timestamp.isLess_iff _ _).1 (by decide)⟩
  refine ⟨(consistent_treeAt (by decide)).toTreeShape, (consistent_treeAt (by decide)).toTreeShape, hsent,
    ⟨⟨_, ⟨mem_leaves_treeAt.2 rfl, hin⟩, rfl⟩, ?_⟩, fun htile => ?_⟩
  · rintro ⟨n, ⟨hn, hlo, -⟩, -⟩
    rw [mem_leaves_treeAt.1 hn, ← Timestamp.isLessEqual_iff] at hlo
    exact absurd hlo (by decide)
  · obtain ⟨a, ha, -⟩ := (htile.cover _).1 hin
    rw [hsent] at ha
    exact absurd ha List.not_mem_nil

end PttaiCore
