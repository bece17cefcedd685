import PttaiCore.Lemmas.BlockReads

/-! # A media is read back as it was stored -/

namespace PttaiCore

namespace MediaAux

open BlocksAux

variable {L : BlockLib} {p : BlockPlace} {db : KeyStore Bytes Block} {buf : Bytes}

theorem length_mediaLines (buf : Bytes) : (mediaLines buf).length = (mediaBlocks buf).length := List.length_map _

theorem getBuf_cases (hstored : StoredBlocks L p (mediaLines buf) db) (info : BlockInfo) :
    (∃ e, getBuf L p info db = .error e) ∨ ∃ hs : List (List Bytes), hs.length = expected 0 info.nBlock ∧ (∀ h ∈ hs, h ∈ mediaLines buf) ∧
      getBuf L p info db = .ok hs.flatten.flatten := by
  unfold getBuf
  by_cases hgood : info.isAllGood = false
  · exact .inl ⟨_, if_pos hgood⟩
  rw [if_neg hgood]
  rcases getContentBlockList_cases hstored info 0 with ⟨e, he⟩ | ⟨hs, hlen, hmem, hok⟩
  · rw [he]
    exact .inl ⟨e, rfl⟩
  · rw [hok]
    exact .inr ⟨hs, hlen, hmem, rfl⟩

theorem getBuf_of_fits (hstored : StoredBlocks L p (mediaLines buf) db) (hfits : (mediaBlocks buf).length < 2 ^ 32) {info : BlockInfo}
    (hgood : info.isAllGood = true) (hn : info.nBlock = (mediaBlocks buf).length) : getBuf L p info db = .ok buf := by
  rw [← length_mediaLines] at hfits hn
  have hall : info.getIsAllGood = true := by simp [BlockInfo.getIsAllGood, hgood]
  have hexp : expected 0 (mediaLines buf).length = (mediaLines buf).length := by rw [expected_of_fits hfits, if_pos rfl]
  unfold getBuf
  rw [if_neg (by simp [hgood]), getContentBlockList_of_fits hstored hfits hall hn, hexp, List.take_length]
  dsimp only
  rw [mediaLines, flatten_mediaBlocks]

theorem length_le_of_mem_mediaLines {x : List Bytes} (hx : x ∈ mediaLines buf) : x.flatten.length ≤ nByteInBlock + 1 := by
  obtain ⟨h, hmem, rfl⟩ := List.mem_map.1 hx
  have hlen := length_le_of_mem_mediaBlocks hmem
  simpa using hlen

theorem getBuf_ne_of_overflow (hstored : StoredBlocks L p (mediaLines buf) db) (hover : 2 ^ 32 ≤ (mediaBlocks buf).length)
    {info : BlockInfo} (hn : info.nBlock = (mediaBlocks buf).length) : getBuf L p info db ≠ .ok buf := by
  intro hget
  rcases getBuf_cases hstored info with ⟨e, he⟩ | ⟨hs, hlen, hmem, hok⟩
  · rw [he] at hget
    cases hget
  · rw [hok] at hget
    have hlt : hs.length < 2 ^ 32 := hlen ▸ expected_lt 0 info.nBlock
    -- as many blocks as are expected are shorter than the buffer
    have hshort : (hs.map List.flatten).flatten.length ≤ _ := length_flatten_le fun x hx => by
      obtain ⟨h, hh, rfl⟩ := List.mem_map.1 hx
      exact length_le_of_mem_mediaLines (hmem h hh)
    rw [← List.flatten_flatten, Except.ok.inj hget, List.length_map] at hshort
    have hlong := (not_congr (length_mediaBlocks_le_iff buf (n := 2 ^ 32 - 1) (by decide))).1 (by omega)
    have hmod : hs.length = (mediaBlocks buf).length % 2 ^ 32 := by rw [hlen, hn, expected_zero]
    have hlong' := (not_congr (length_mediaBlocks_le_iff buf (n := (mediaBlocks buf).length - 1) (by omega))).1 (by omega)
    unfold nByteInBlock at *
    omega

end MediaAux

open BlocksAux MediaAux

namespace MediaWitness

theorem marshalBufs_injective {b b' : List Bytes} (h : marshalBufs b = marshalBufs b') : b = b' := by
  have hstr : Function.Injective fun b => Json.str (Base64.encode b) := by
    intro x y hxy
    have hdecode := congrArg (fun t : PlainText => Base64.decode t.1) (Json.str.inj hxy)
    simpa only [Base64.decode_encode, Option.some.injEq] using hdecode
  exact List.map_injective_iff.2 hstr (Json.arr.inj (Json.render_injective h))

open Classical in
noncomputable def readBufs (text : Bytes) : Except Err (List Bytes) :=
  if h : ∃ bufs, marshalBufs bufs = text then .ok h.choose else .error .json

noncomputable def lib : BlockLib where
  unmarshalBufs := readBufs
  unmarshalBufs_marshalBufs bufs := by
    have h : ∃ bufs', marshalBufs bufs' = marshalBufs bufs := ⟨bufs, rfl⟩
    rw [readBufs, dif_pos h, marshalBufs_injective h.choose_spec]
  encode d := d
  reconstruct d := .ok d
  length_encode d h := ⟨rfl, h.symm⟩
  reconstruct_encode d _ _ := rfl
  signBlock b := .ok b.buf

def place : BlockPlace where
  dbBlockPrefix := [46, 98, 107, 100, 98]
  objID := ByteArrayOf.replicate 40 0
  id := ByteArrayOf.replicate 40 1

theorem split_isOk (buf : Bytes) (db : KeyStore Bytes Block) : ∃ hashs db', place.splitMediaBlocks lib buf db = (.ok hashs, db') := by
  refine Traverse.traverse_isOk (fun i h db => ?_) 0 (mediaBlocks buf) db
  exact Traverse.traverse_isOk (fun j b db => ⟨b, _, rfl⟩) 0 (scrambleBuf lib [h.1, h.2]) db

end MediaWitness

end PttaiCore
