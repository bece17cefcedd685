import Mathlib.Algebra.Group.Action.Defs
import Mathlib.Algebra.Order.BigOperators.Group.List
import PttaiCore.Blocks

/-! # Lemmas about blocks -/

namespace PttaiCore

open List

namespace BlocksAux

/-! ## Scrambling -/

theorem renderElems_end (l : List Json) : ∃ t, Json.renderElems l = t ++ [93] := by
  induction l with
  | nil => exact ⟨[], rfl⟩
  | cons j l ih =>
    obtain ⟨t, ht⟩ := ih
    exact ⟨44 :: (Json.render j ++ t), by rw [Json.renderElems, ht]; simp⟩

variable (bufs : List Bytes) {n : Nat} {buf : Bytes}

theorem marshalBufs_end : ∃ t, marshalBufs bufs = t ++ [93] := by
  unfold marshalBufs
  cases bufs with
  | nil => exact ⟨[91], rfl⟩
  | cons b bufs =>
    obtain ⟨t, ht⟩ := renderElems_end (bufs.map fun b => .str (Base64.encode b))
    refine ⟨91 :: (Json.render (.str (Base64.encode b)) ++ t), ?_⟩
    change 91 :: (Json.render (.str (Base64.encode b)) ++ Json.renderElems (bufs.map fun b => .str (Base64.encode b))) = _
    rw [ht]
    simp

theorem pad_length_even (text : Bytes) : (pad text).length % 2 = 0 := by
  unfold pad nScrambleInBlock
  split_ifs with h
  · rw [length_append, length_replicate]
    omega
  · omega

theorem unpad_pad {t : Bytes} {c : UInt8} (hc : c ≠ 0) : unscrambleBufUnpad (pad (t ++ [c])) = t ++ [c] := by
  have hunpad : unscrambleBufUnpad (t ++ [c]) = t ++ [c] := by
    unfold unscrambleBufUnpad
    rw [rdropWhile_concat_neg]
    simpa using hc
  unfold pad nScrambleInBlock
  split_ifs with h
  · have hone : 2 - (t ++ [c]).length % 2 = 1 := by omega
    rw [hone]
    change unscrambleBufUnpad (t ++ [c] ++ [0]) = _
    unfold unscrambleBufUnpad
    rw [rdropWhile_concat_pos _ _ _ (by rfl)]
    exact hunpad
  · exact hunpad

theorem dataShards_append {text : Bytes} (h : text.length % 2 = 0) :
    (dataShards text).1 ++ (dataShards text).2 = text ∧ (dataShards text).1.length = (dataShards text).2.length := by
  have htwo : text.length / 2 + text.length / 2 = text.length := by omega
  have hrest : (text.drop (text.length / 2)).take (text.length / 2) = text.drop (text.length / 2) :=
    take_of_length_le (by rw [length_drop]; omega)
  simp only [dataShards, nScrambleInBlock, hrest]
  refine ⟨take_append_drop _ _, ?_⟩
  rw [length_take, length_drop]
  omega

theorem copyInto_self (b : Bytes) : copyInto b.length b = b := by simp [copyInto]

theorem dataShards_ne_nil : (dataShards (pad (marshalBufs bufs))).1 ≠ [] := by
  intro hnil
  obtain ⟨t, ht⟩ := marshalBufs_end bufs
  obtain ⟨happend, hlen⟩ := dataShards_append (pad_length_even (marshalBufs bufs))
  rw [hnil, length_nil] at hlen
  rw [hnil, eq_nil_of_length_eq_zero hlen.symm, append_nil] at happend
  have hunpad := unpad_pad (t := t) (c := 93) (by decide)
  rw [← ht, ← happend] at hunpad
  exact absurd (hunpad.trans ht) (by simp [unscrambleBufUnpad])

theorem unscrambleBuf_scrambleBuf (L : BlockLib) (bufs : List Bytes) : unscrambleBuf L (scrambleBuf L bufs) = .ok bufs := by
  obtain ⟨t, ht⟩ := marshalBufs_end bufs
  obtain ⟨happend, hlen⟩ := dataShards_append (pad_length_even (marshalBufs bufs))
  obtain ⟨hlen1, hlen2⟩ := L.length_encode _ hlen
  have hcopy1 : copyInto (L.encode (dataShards (pad (marshalBufs bufs)))).1.length (dataShards (pad (marshalBufs bufs))).1 =
      (dataShards (pad (marshalBufs bufs))).1 := by rw [hlen1, copyInto_self]
  have hcopy2 : copyInto (L.encode (dataShards (pad (marshalBufs bufs)))).1.length (dataShards (pad (marshalBufs bufs))).2 =
      (dataShards (pad (marshalBufs bufs))).2 := by rw [hlen1, hlen, copyInto_self]
  simp only [scrambleBuf, unscrambleBuf, L.reconstruct_encode _ hlen (dataShards_ne_nil bufs), hcopy1, hcopy2, happend]
  rw [ht, unpad_pad (by decide), ← ht, L.unmarshalBufs_marshalBufs]

theorem ne_nil_of_mem_scrambleBuf {L : BlockLib} {bufs : List Bytes} {b : Bytes} (h : b ∈ scrambleBuf L bufs) : b ≠ [] := by
  obtain ⟨-, hlen⟩ := dataShards_append (pad_length_even (marshalBufs bufs))
  obtain ⟨hlen1, hlen2⟩ := L.length_encode _ hlen
  have hpos := length_pos_iff.2 (dataShards_ne_nil bufs)
  simp only [scrambleBuf, mem_cons, not_mem_nil, or_false] at h
  rw [← length_pos_iff]
  rcases h with rfl | rfl
  · rw [hlen1]
    exact hpos
  · rw [hlen2]
    exact hpos

/-! ## Cutting -/

theorem length_flatten_le {α : Type} {l : List (List α)} (h : ∀ x ∈ l, x.length ≤ n) : l.flatten.length ≤ n * l.length := by
  have hle : ∀ m ∈ l.map List.length, m ≤ n := by
    intro m hm
    obtain ⟨x, hx, rfl⟩ := mem_map.1 hm
    exact h x hx
  have hsum := sum_le_card_nsmul _ _ hle
  rwa [length_map, smul_eq_mul, Nat.mul_comm, ← length_flatten] at hsum

theorem mediaBlocks_nil : mediaBlocks [] = [] := by rw [mediaBlocks, dif_pos rfl]

theorem mediaBlocks_of_ne (h : buf ≠ []) :
    mediaBlocks buf = mediaHalves buf :: mediaBlocks (buf.drop (mediaBlockLen buf)) := by rw [mediaBlocks, dif_neg h]

theorem mediaBlocks_induction {P : Bytes → Prop} (hnil : P [])
    (hcons : ∀ buf, buf ≠ [] → P (buf.drop (mediaBlockLen buf)) → P buf) (buf : Bytes) : P buf := by
  induction buf using mediaBlocks.induct with
  | case1 => exact hnil
  | case2 buf h ih => exact hcons buf h ih

theorem mediaBlockLen_cases (buf : Bytes) :
    mediaBlockLen buf = buf.length ∧ buf.length ≤ nByteInBlock + 1 ∨ mediaBlockLen buf = nByteInBlock ∧ nByteInBlock + 1 < buf.length := by
  unfold mediaBlockLen
  split_ifs with h
  · exact .inl ⟨rfl, h.le⟩
  · omega

theorem mediaHalves_append (buf : Bytes) : (mediaHalves buf).1 ++ (mediaHalves buf).2 = buf.take (mediaBlockLen buf) := by
  have hhalf : min ((mediaBlockLen buf + 1) / 2) (mediaBlockLen buf) = (mediaBlockLen buf + 1) / 2 := by omega
  have htake : buf.take ((mediaBlockLen buf + 1) / 2) = (buf.take (mediaBlockLen buf)).take ((mediaBlockLen buf + 1) / 2) := by
    rw [take_take, hhalf]
  simp only [mediaHalves]
  rw [htake, take_append_drop]

theorem flatten_mediaBlocks (buf : Bytes) : ((mediaBlocks buf).map fun h => [h.1, h.2]).flatten.flatten = buf := by
  induction buf using mediaBlocks_induction with
  | hnil => simp [mediaBlocks_nil]
  | hcons buf h ih =>
    rw [mediaBlocks_of_ne h, map_cons, flatten_cons, flatten_append, ih, flatten_cons, flatten_cons,
      flatten_nil, append_nil, mediaHalves_append, take_append_drop]

theorem length_le_of_mem_mediaBlocks {h : Bytes × Bytes} (hmem : h ∈ mediaBlocks buf) :
    h.1.length + h.2.length ≤ nByteInBlock + 1 := by
  induction buf using mediaBlocks_induction with
  | hnil => simp [mediaBlocks_nil] at hmem
  | hcons buf hne ih =>
    rw [mediaBlocks_of_ne hne, mem_cons] at hmem
    rcases hmem with rfl | hmem
    · rw [← length_append, mediaHalves_append, length_take]
      rcases mediaBlockLen_cases buf with h | h <;> omega
    · exact ih hmem

theorem length_of_second_half_nil {buf : Bytes} {h : Bytes × Bytes} (hmem : h ∈ mediaBlocks buf) (hnil : h.2 = []) :
    buf.length = 1 := by
  -- what is left of a longer buffer is not one byte
  suffices hgen : ∀ buf : Bytes, ∀ h ∈ mediaBlocks buf, h.2 = [] → buf.length = 1 from hgen buf h hmem hnil
  clear hmem hnil h buf
  intro buf
  induction buf using mediaBlocks_induction with
  | hnil => simp [mediaBlocks_nil]
  | hcons buf hne ih =>
    intro h hmem hnil
    have hpos := length_pos_iff.2 hne
    have hcases := mediaBlockLen_cases buf
    rw [mediaBlocks_of_ne hne, mem_cons] at hmem
    rcases hmem with rfl | hmem
    · have hlen := congrArg List.length hnil
      simp only [mediaHalves, length_drop, length_take, length_nil] at hlen
      unfold nByteInBlock at hcases
      omega
    · have hrest := ih h hmem hnil
      rw [length_drop] at hrest
      omega

theorem length_mediaBlocks_le_iff (buf : Bytes) {n : Nat} (hn : 0 < n) :
    (mediaBlocks buf).length ≤ n ↔ buf.length ≤ nByteInBlock * n + 1 := by
  suffices hgen : ∀ buf : Bytes, ∀ n, 0 < n → ((mediaBlocks buf).length ≤ n ↔ buf.length ≤ nByteInBlock * n + 1) from hgen buf n hn
  clear hn n buf
  intro buf
  induction buf using mediaBlocks_induction with
  | hnil => simp [mediaBlocks_nil]
  | hcons buf hne ih =>
    intro n hn
    have hpos := length_pos_iff.2 hne
    rw [mediaBlocks_of_ne hne, length_cons]
    rcases mediaBlockLen_cases buf with ⟨hblock, hlast⟩ | ⟨hblock, hlast⟩
    · have hrest : buf.drop (mediaBlockLen buf) = [] := drop_eq_nil_of_le hblock.ge
      rw [hrest, mediaBlocks_nil, length_nil]
      unfold nByteInBlock at *
      constructor <;> intro <;> omega
    · have hdrop : (buf.drop (mediaBlockLen buf)).length = buf.length - nByteInBlock := by rw [length_drop, hblock]
      rcases Nat.lt_or_ge 1 n with h1 | h1
      · have := ih (n - 1) (by omega)
        rw [hdrop] at this
        unfold nByteInBlock at *
        constructor <;> intro <;> omega
      · have hrest : buf.drop (mediaBlockLen buf) ≠ [] := by
          intro hnil
          rw [hnil, length_nil] at hdrop
          omega
        rw [mediaBlocks_of_ne hrest, length_cons]
        unfold nByteInBlock at *
        constructor <;> intro <;> omega

theorem contentBlocks_nil (n : Nat) : contentBlocks n [] = [] := by rw [contentBlocks, dif_pos rfl]

theorem contentBlocks_of_ne {buf : List Bytes} (n : Nat) (h : buf ≠ []) :
    contentBlocks n buf = buf.take (min n buf.length) :: contentBlocks nLineInBlock (buf.drop (min n buf.length)) := by
  rw [contentBlocks, dif_neg h]

theorem flatten_contentBlocks (n : Nat) (buf : List Bytes) : (contentBlocks n buf).flatten = buf := by
  induction n, buf using contentBlocks.induct with
  | case1 n => rw [contentBlocks_nil, flatten_nil]
  | case2 n buf h ih => rw [contentBlocks_of_ne n h, flatten_cons, ih, take_append_drop]

theorem length_le_of_mem_contentBlocks {buf x : List Bytes} (hx : x ∈ contentBlocks nLineInBlock buf) : x.length ≤ nLineInBlock := by
  suffices hgen : ∀ n buf, n = nLineInBlock → x ∈ contentBlocks n buf → x.length ≤ n from hgen nLineInBlock buf rfl hx
  clear hx buf
  intro n buf
  induction n, buf using contentBlocks.induct with
  | case1 n => simp [contentBlocks_nil]
  | case2 n buf h ih =>
    intro hn hx
    rw [contentBlocks_of_ne n h, mem_cons] at hx
    rcases hx with rfl | hx
    · rw [length_take]
      omega
    · rw [hn]
      exact ih rfl hx

theorem length_contentBlocks_le_iff (n : Nat) (buf : List Bytes) {m : Nat} :
    (contentBlocks n buf).length ≤ m + 1 ↔ buf.length ≤ n + nLineInBlock * m := by
  induction n, buf using contentBlocks.induct generalizing m with
  | case1 n => simp [contentBlocks_nil]
  | case2 n buf h ih =>
    rw [contentBlocks_of_ne n h, length_cons, Nat.add_le_add_iff_right]
    cases m with
    | zero =>
      -- there is nothing after the block
      rw [Nat.le_zero, length_eq_zero_iff]
      constructor
      · intro hnil
        have hdrop := flatten_contentBlocks nLineInBlock (buf.drop (min n buf.length))
        rw [hnil, flatten_nil, eq_comm, drop_eq_nil_iff] at hdrop
        omega
      · intro hle
        rw [drop_eq_nil_of_le (by omega), contentBlocks_nil]
    | succ m =>
      rw [ih, length_drop, Nat.mul_succ]
      omega

/-! ## What is stored -/

def lastBlock : Nat → UInt32 → Option Nat
  | 0, _ => none
  | n + 1, i => if UInt32.ofNat n = i then some n else lastBlock n i

theorem lastBlock_some {i : UInt32} {m : Nat} (h : lastBlock n i = some m) : m < n ∧ UInt32.ofNat m = i := by
  induction n with
  | zero => simp [lastBlock] at h
  | succ n ih =>
    rw [lastBlock] at h
    split_ifs at h with hi
    · cases h
      exact ⟨Nat.lt_succ_self _, hi⟩
    · exact ⟨Nat.lt_succ_of_lt (ih h).1, (ih h).2⟩

theorem lastBlock_of_lt {n m : Nat} (hn : n ≤ 2 ^ 32) (hm : m < n) : lastBlock n (UInt32.ofNat m) = some m := by
  induction n with
  | zero => omega
  | succ n ih =>
    rw [lastBlock]
    by_cases hmn : m = n
    · rw [hmn, if_pos rfl]
    · have hne : UInt32.ofNat n ≠ UInt32.ofNat m := by
        intro heq
        have := congrArg UInt32.toNat heq
        rw [UInt32.toNat_ofNat', UInt32.toNat_ofNat'] at this
        omega
      rw [if_neg hne]
      exact ih (by omega) (by omega)

variable {L : BlockLib} {p : BlockPlace}

theorem subBlock_iff {j : UInt8} : j.toNat < nSubBlock ↔ j = 0 ∨ j = 1 := by
  rw [← UInt8.toNat_inj, ← UInt8.toNat_inj]
  change j.toNat < 2 ↔ j.toNat = 0 ∨ j.toNat = 1
  omega

theorem marshalKey_inj {i i' : UInt32} {j j' : UInt8} : p.marshalKey i j = p.marshalKey i' j' ↔ i = i' ∧ j = j' := by
  constructor
  · intro h
    have h := append_cancel_left h
    obtain ⟨hi, hj⟩ := append_inj h (by simp)
    exact ⟨UInt32.toNat_inj.1 (Bytes.be_injective i.toNat_lt i'.toNat_lt hi), by simpa using hj⟩
  · rintro ⟨rfl, rfl⟩
    rfl

theorem keyStart_marshalKey (i : UInt32) (j : UInt8) : p.keyStart <+: p.marshalKey i j := prefix_append _ _

structure StoredBlocks (L : BlockLib) (p : BlockPlace) (done : List (List Bytes)) (db : KeyStore Bytes Block) : Prop where
  keyed : ∀ k, p.keyStart <+: k → db.get k ≠ none → ∃ i j, k = p.marshalKey i j
  found : ∀ i j b, db.get (p.marshalKey i j) = some b → b.blockID = i ∧ b.subBlockID = j ∧
    ∃ m h, lastBlock done.length i = some m ∧ done[m]? = some h ∧ (scrambleBuf L h)[j.toNat]? = some b.buf
  present : ∀ i m j, lastBlock done.length i = some m → j.toNat < nSubBlock → db.get (p.marshalKey i j) ≠ none

theorem StoredBlocks.of_fresh {db : KeyStore Bytes Block} (h : ∀ k, p.keyStart <+: k → db.get k = none) : StoredBlocks L p [] db where
  keyed k hk hget := absurd (h k hk) hget
  found i j b hget := by simp [h _ (keyStart_marshalKey i j)] at hget
  present i m j hlast := by simp [lastBlock] at hlast

theorem saveBlock_ok {i j : Nat} {buf hash : Bytes} {db db' : KeyStore Bytes Block} (h : p.saveBlock L i j buf db = (.ok hash, db')) :
    ∃ b, db' = db.put (p.marshalKey (UInt32.ofNat i) (UInt8.ofNat j)) b ∧ b.blockID = UInt32.ofNat i ∧
      b.subBlockID = UInt8.ofNat j ∧ b.buf = buf := by
  simp only [BlockPlace.saveBlock] at h
  match hs : L.signBlock (p.newBlock i j buf), h with
  | .error e, h => simp at h
  | .ok hash', h =>
    simp only [Prod.mk.injEq] at h
    exact ⟨{ p.newBlock i j buf with hash := hash' }, h.2.symm, rfl, rfl, rfl⟩

theorem saveContentBlock_ok {h : List Bytes} {hashs : List Bytes} {db db' : KeyStore Bytes Block}
    (hsave : p.saveContentBlock L n h db = (.ok hashs, db')) :
    ∃ b : UInt8 → Block,
      (∀ j, j.toNat < nSubBlock → (b j).blockID = UInt32.ofNat n ∧ (b j).subBlockID = j ∧
        (scrambleBuf L h)[j.toNat]? = some (b j).buf) ∧
      (∀ i j, db'.get (p.marshalKey i j) =
        if i = UInt32.ofNat n ∧ j.toNat < nSubBlock then some (b j) else db.get (p.marshalKey i j)) ∧
      ∀ k, (∀ i j, k ≠ p.marshalKey i j) → db'.get k = db.get k := by
  obtain ⟨_, db1, _, h0, hrest, -⟩ := Traverse.traverse_cons_ok hsave
  obtain ⟨_, db2, _, h1, hrest, -⟩ := Traverse.traverse_cons_ok hrest
  obtain ⟨b0, rfl, hb0, hj0, hbuf0⟩ := saveBlock_ok h0
  obtain ⟨b1, rfl, hb1, hj1, hbuf1⟩ := saveBlock_ok h1
  simp only [Traverse.traverse, Prod.mk.injEq] at hrest
  obtain ⟨-, rfl⟩ := hrest
  have hzero : UInt8.ofNat 0 = 0 := rfl
  have hone : UInt8.ofNat (0 + 1) = 1 := rfl
  rw [hzero] at hj0
  rw [hone] at hj1
  refine ⟨fun j => if j = 0 then b0 else b1, fun j hj => ?_, fun i j => ?_, fun k hk => ?_⟩
  · rcases subBlock_iff.1 hj with rfl | rfl
    · exact ⟨hb0, hj0, by simp [hbuf0, scrambleBuf]⟩
    · exact ⟨hb1, hj1, by simp [hbuf1, scrambleBuf]⟩
  · simp only [hzero, hone, KeyStore.get_put, marshalKey_inj, subBlock_iff]
    by_cases hi : i = UInt32.ofNat n
    · by_cases hj0 : j = 0
      · simp [hi, hj0]
      · by_cases hj1 : j = 1 <;> simp [hi, hj0, hj1]
    · simp [hi]
  · rw [KeyStore.get_put, KeyStore.get_put, if_neg (hk _ _), if_neg (hk _ _)]

theorem StoredBlocks.step {done : List (List Bytes)} {h : List Bytes} {hashs : List Bytes} {db db' : KeyStore Bytes Block}
    (hstored : StoredBlocks L p done db) (hsave : p.saveContentBlock L done.length h db = (.ok hashs, db')) :
    StoredBlocks L p (done ++ [h]) db' := by
  obtain ⟨b, hb, hget, hframe⟩ := saveContentBlock_ok hsave
  have hlast : ∀ i, lastBlock (done ++ [h]).length i =
      if UInt32.ofNat done.length = i then some done.length else lastBlock done.length i := by
    intro i
    rw [length_append, length_singleton, lastBlock]
  refine ⟨fun k hk hne => ?_, fun i j b' hfound => ?_, fun i m j hm hj => ?_⟩
  · by_contra hno
    push Not at hno
    rw [hframe k hno] at hne
    obtain ⟨i, j, hkey⟩ := hstored.keyed k hk hne
    exact hno i j hkey
  · rw [hget] at hfound
    rw [hlast]
    split_ifs at hfound with hnew
    · obtain ⟨rfl, hj⟩ := hnew
      obtain ⟨hbi, hbj, hbuf⟩ := hb j hj
      cases hfound
      exact ⟨hbi, hbj, done.length, h, if_pos rfl, by simp, hbuf⟩
    · obtain ⟨hbi, hbj, m, h', hm, hh, hbuf⟩ := hstored.found i j b' hfound
      -- no record has another sub-block number
      have hj : j.toNat < nSubBlock := (List.getElem?_eq_some_iff.1 hbuf).1
      have hi : UInt32.ofNat done.length ≠ i := fun hi => hnew ⟨hi.symm, hj⟩
      refine ⟨hbi, hbj, m, h', by rw [if_neg hi, hm], ?_, hbuf⟩
      rw [List.getElem?_append_left (lastBlock_some hm).1, hh]
  · rw [hget]
    split_ifs with hnew
    · simp
    · have hi : UInt32.ofNat done.length ≠ i := fun hi => hnew ⟨hi.symm, hj⟩
      rw [hlast, if_neg hi] at hm
      exact hstored.present i m j hm hj

def mediaLines (buf : Bytes) : List (List Bytes) := (mediaBlocks buf).map fun h => [h.1, h.2]

theorem storedBlocks_of_split {hashs : List (List Bytes)} {db db' : KeyStore Bytes Block}
    (hfresh : ∀ k, p.keyStart <+: k → db.get k = none) (h : p.splitMediaBlocks L buf db = (.ok hashs, db')) :
    StoredBlocks L p (mediaLines buf) db' := by
  refine Traverse.invariant (I := fun done db => StoredBlocks L p (done.map fun h => [h.1, h.2]) db) h (StoredBlocks.of_fresh hfresh) ?_
  intro done h db hashs db' hstored hsave
  have hsave' : p.saveContentBlock L (done.map fun h => [h.1, h.2]).length [h.1, h.2] db = (.ok hashs, db') := by
    rw [length_map]
    exact hsave
  rw [map_append]
  exact hstored.step hsave'

theorem storedBlocks_of_splitContent {buf : List Bytes} {nFirst : Nat} {hashs : List (List Bytes)} {db db' : KeyStore Bytes Block}
    (hfresh : ∀ k, p.keyStart <+: k → db.get k = none) (h : p.splitContentBlocks L buf nFirst db = (.ok hashs, db')) :
    StoredBlocks L p (contentBlocks nFirst buf) db' :=
  Traverse.invariant h (StoredBlocks.of_fresh hfresh) fun _ _ _ _ _ hstored hsave => hstored.step hsave

end BlocksAux

end PttaiCore
