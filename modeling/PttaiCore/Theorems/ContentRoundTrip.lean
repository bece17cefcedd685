import PttaiCore.Theorems.MediaRoundTrip

/-! # Lines are read back as they were stored -/

namespace PttaiCore

open List

structure ContentOf (nFirstLineInBlock : Nat) (buf : List Bytes) (blocks : List ContentBlock) : Prop where
  numbered : ∀ i (b : ContentBlock), blocks[i]? = some b → b.blockID.toNat = i
  lines : (blocks.map ContentBlock.buf).flatten = buf
  first : ∀ b, blocks.head? = some b → b.buf.length = min nFirstLineInBlock buf.length
  later : ∀ b ∈ blocks.tail, b.buf.length ≤ nLineInBlock

def ContentReadsBack (L : BlockLib) (p : BlockPlace) (info : BlockInfo) (nFirstLineInBlock : Nat) (buf : List Bytes)
    (db : KeyStore Bytes Block) : Prop :=
  ∃ blocks, getContentBlocks L p info 0 db = .ok blocks ∧ ContentOf nFirstLineInBlock buf blocks ∧
    ∀ limit, limit ≠ 0 → ∃ first, getContentBlocks L p info limit db = .ok first ∧ first <+: blocks ∧
      first.length = min limit.toNat info.nBlock

namespace ContentAux

open BlocksAux

variable {L : BlockLib} {p : BlockPlace} {db : KeyStore Bytes Block} {buf : List Bytes} {nFirst : Nat} {info : BlockInfo}

theorem map_buf_newContentBlocks (contents : List (List Bytes)) : (newContentBlocks contents).map ContentBlock.buf = contents := by
  apply ext_getElem?
  intro i
  simp [newContentBlocks, Function.comp_def]

theorem newContentBlocks_take (contents : List (List Bytes)) (n : Nat) : newContentBlocks (contents.take n) <+: newContentBlocks contents := by
  have htake : newContentBlocks (contents.take n) = (newContentBlocks contents).take n := by
    apply ext_getElem?
    intro i
    simp only [newContentBlocks, List.getElem?_mapIdx, List.getElem?_take]
    split_ifs <;> rfl
  rw [htake]
  exact List.take_prefix _ _

theorem contentOf_contentBlocks (hfits : (contentBlocks nFirst buf).length < 2 ^ 32) :
    ContentOf nFirst buf (newContentBlocks (contentBlocks nFirst buf)) where
  numbered i b hb := by
    rw [newContentBlocks, List.getElem?_mapIdx, Option.map_eq_some_iff] at hb
    obtain ⟨x, hx, rfl⟩ := hb
    have hi := (List.getElem?_eq_some_iff.1 hx).1
    rw [UInt32.toNat_ofNat']
    omega
  lines := by rw [map_buf_newContentBlocks, flatten_contentBlocks]
  first b hb := by
    by_cases hnil : buf = []
    · rw [hnil, contentBlocks_nil] at hb
      cases hb
    · rw [contentBlocks_of_ne nFirst hnil, newContentBlocks, mapIdx_cons, List.head?_cons] at hb
      cases hb
      rw [length_take]
      omega
  later b hb := by
    by_cases hnil : buf = []
    · rw [hnil, contentBlocks_nil] at hb
      cases hb
    · have hbuf := mem_map_of_mem (f := ContentBlock.buf) hb
      rw [map_tail, map_buf_newContentBlocks, contentBlocks_of_ne nFirst hnil, tail_cons] at hbuf
      exact length_le_of_mem_contentBlocks hbuf

theorem readsBack_of_fits (hstored : StoredBlocks L p (contentBlocks nFirst buf) db) (hfits : (contentBlocks nFirst buf).length < 2 ^ 32)
    (hgood : info.getIsAllGood = true) (hn : info.nBlock = (contentBlocks nFirst buf).length) :
    ContentReadsBack L p info nFirst buf db := by
  have hread : ∀ limit, getContentBlocks L p info limit db =
      .ok (newContentBlocks ((contentBlocks nFirst buf).take (expected limit (contentBlocks nFirst buf).length))) := by
    intro limit
    rw [getContentBlocks, getContentBlockList_of_fits hstored hfits hgood hn]
    rfl
  refine ⟨newContentBlocks (contentBlocks nFirst buf), ?_, contentOf_contentBlocks hfits, fun limit hlimit => ?_⟩
  · rw [hread, expected_of_fits hfits, if_pos rfl, take_length]
  · refine ⟨_, hread limit, newContentBlocks_take _ _, ?_⟩
    rw [newContentBlocks, length_mapIdx, length_take, expected_of_fits hfits, if_neg hlimit, hn]
    omega

theorem length_le_of_contentOf {blocks : List ContentBlock} (h : ContentOf nFirst buf blocks) :
    buf.length ≤ nFirst + nLineInBlock * (blocks.length - 1) := by
  have hlines := congrArg List.length h.lines
  cases blocks with
  | nil =>
    rw [← hlines]
    simp
  | cons b blocks =>
    have hfirst := h.first b rfl
    have hlater : (blocks.map ContentBlock.buf).flatten.length ≤ _ := length_flatten_le fun x hx => by
      obtain ⟨c, hc, rfl⟩ := mem_map.1 hx
      exact h.later c hc
    rw [length_map] at hlater
    rw [map_cons, flatten_cons, length_append] at hlines
    rw [length_cons, Nat.add_sub_cancel]
    omega

theorem length_of_getContentBlocks {done : List (List Bytes)} (hstored : StoredBlocks L p done db) {limit : UInt32}
    {blocks : List ContentBlock} (h : getContentBlocks L p info limit db = .ok blocks) : blocks.length = expected limit info.nBlock := by
  rcases getContentBlockList_cases hstored info limit with ⟨e, he⟩ | ⟨hs, hlen, -, hok⟩
  · rw [getContentBlocks, he] at h
    cases h
  · rw [getContentBlocks, hok] at h
    cases h
    rw [newContentBlocks, length_mapIdx, hlen]

theorem splitContentBlocks_isOk (buf : List Bytes) (nFirst : Nat) (db : KeyStore Bytes Block) (hsign : ∀ b, ∃ hash, L.signBlock b = .ok hash) :
    ∃ hashs db', p.splitContentBlocks L buf nFirst db = (.ok hashs, db') := by
  refine Traverse.traverse_isOk (fun i lines db => Traverse.traverse_isOk (fun j b db => ?_) 0 (scrambleBuf L lines) db) 0 _ db
  obtain ⟨hash, hhash⟩ := hsign (p.newBlock i j b)
  exact ⟨hash, _, by rw [BlockPlace.saveBlock, hhash]⟩

end ContentAux

open BlocksAux ContentAux

end PttaiCore
