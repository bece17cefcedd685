import PttaiCore.Envelope

/-! # The envelope gives the operation back -/

namespace PttaiCore

open List

/-! ## Padding -/

theorem padding_bounds (src : Bytes) :
    0 < aesBlockSize - src.length % aesBlockSize ∧ aesBlockSize - src.length % aesBlockSize ≤ 16 := by
  have := Nat.mod_lt src.length (show 0 < aesBlockSize by decide)
  simp only [aesBlockSize] at *
  omega

theorem aesUnpad_aesPad (src : Bytes) : aesUnpad (aesPad src) = .ok src := by
  obtain ⟨hpos, hle⟩ := padding_bounds src
  unfold aesPad
  set padding := aesBlockSize - src.length % aesBlockSize
  have hlast : (src ++ List.replicate padding (UInt8.ofNat padding)).getLast? = some (UInt8.ofNat padding) := by
    rw [List.getLast?_append, List.getLast?_replicate, if_neg (by omega), Option.some_or]
  have hnat : (UInt8.ofNat padding).toNat = padding := UInt8.toNat_ofNat_of_lt' (by simp [UInt8.size]; omega)
  have hlen : (src ++ List.replicate padding (UInt8.ofNat padding)).length = src.length + padding := by simp
  rw [aesUnpad, hlast]
  simp only [hnat, hlen]
  rw [if_neg (by omega), Nat.add_sub_cancel, take_left]

theorem length_aesPad_mod (src : Bytes) : (aesPad src).length % aesBlockSize = 0 := by
  have hlt := Nat.mod_lt src.length (show 0 < aesBlockSize by decide)
  simp only [aesPad, length_append, length_replicate, aesBlockSize] at *
  omega

namespace CipherCtx

variable {Γ : CipherCtx}

/-! ## Encryption -/

def ValidKey (key : Bytes) : Prop := key.length = 16 ∨ key.length = 24 ∨ key.length = 32

theorem newCipher_of_valid {key : Bytes} (h : ValidKey key) : Γ.newCipher key = .ok fun b => (Γ.aes key b).1 := if_pos h

theorem aes_ne_nil (key b : Bytes) : (Γ.aes key b).1 ≠ [] := by
  intro h
  have hlen := (Γ.aes key b).2
  rw [h] at hlen
  cases hlen

theorem encryptData_of_valid {keyInfo : OpKeyInfo} (h : ValidKey keyInfo.keyBytes) (op : OpType) (data : Bytes) (iv : ByteArrayOf 16) :
    Γ.encryptData op data keyInfo iv =
      .ok (iv.1 ++ Cfb.encrypt (fun b => (Γ.aes keyInfo.keyBytes b).1) iv.1 (aesPad (Bytes.be 4 op.toNat ++ data))) := by
  rw [encryptData, newCipher_of_valid h]

theorem ofBE_take_be (op : OpType) (data : Bytes) : UInt32.ofNat (Bytes.ofBE ((Bytes.be 4 op.toNat ++ data).take 4)) = op := by
  have hlt : op.toNat < 256 ^ 4 := op.toNat_lt
  rw [take_left' (Bytes.be_length 4 op.toNat), Bytes.ofBE_be, Nat.mod_eq_of_lt hlt, UInt32.ofNat_toNat]

theorem decryptData_encryptData {keyInfo : OpKeyInfo} (h : ValidKey keyInfo.keyBytes) (op : OpType) (data : Bytes) (iv : ByteArrayOf 16) :
    Γ.decryptData (iv.1 ++ Cfb.encrypt (fun b => (Γ.aes keyInfo.keyBytes b).1) iv.1 (aesPad (Bytes.be 4 op.toNat ++ data))) keyInfo =
      .ok (op, data) := by
  set block := fun b => (Γ.aes keyInfo.keyBytes b).1 with hblock
  have hne : ∀ b, block b ≠ [] := fun b => aes_ne_nil keyInfo.keyBytes b
  set marshaled := Bytes.be 4 op.toNat ++ data with hmarshaled
  have hlen : (iv.1 ++ Cfb.encrypt block iv.1 (aesPad marshaled)).length = aesBlockSize + (aesPad marshaled).length := by
    rw [length_append, iv.2, Cfb.length_encrypt hne, aesBlockSize]
  have hmod : ¬ (iv.1 ++ Cfb.encrypt block iv.1 (aesPad marshaled)).length % aesBlockSize ≠ 0 := by
    rw [hlen, Nat.add_mod_left, length_aesPad_mod]
    simp
  have htake : (iv.1 ++ Cfb.encrypt block iv.1 (aesPad marshaled)).take aesBlockSize = iv.1 := take_left' iv.2
  have hdrop : (iv.1 ++ Cfb.encrypt block iv.1 (aesPad marshaled)).drop aesBlockSize = Cfb.encrypt block iv.1 (aesPad marshaled) :=
    drop_left' iv.2
  have hlong : ¬ marshaled.length < 4 := by
    rw [hmarshaled, length_append, Bytes.be_length]
    omega
  rw [decryptData, newCipher_of_valid h, ← hblock]
  dsimp only
  rw [if_neg hmod, if_neg (by omega), htake, hdrop, Cfb.decrypt_encrypt hne, aesUnpad_aesPad]
  dsimp only
  rw [if_neg hlong, ofBE_take_be, drop_left' (Bytes.be_length 4 _)]

/-! ## Events -/

theorem copyToAddress_val (a : Address) : copyToAddress a.1 = a := Subtype.ext (take_left' a.2)

theorem unmarshalData_marshalData (code : CodeType) (hash : Address) (encData : Bytes) (salt : Salt) (node : Bytes) :
    Γ.unmarshalData { Γ.marshalData code hash encData salt with node := node } = .ok (code, hash, encData) := by
  have hcut : ((⟨code, hash.1, encData⟩ : RouterEventData).marshal ++ salt.1).take
      (((⟨code, hash.1, encData⟩ : RouterEventData).marshal ++ salt.1).length - 32) = (⟨code, hash.1, encData⟩ : RouterEventData).marshal := by
    rw [length_append, salt.2, Nat.add_sub_cancel, take_left]
  have hlong : ¬ ((⟨code, hash.1, encData⟩ : RouterEventData).marshal ++ salt.1).length < 32 := by
    rw [length_append, salt.2]
    omega
  simp only [unmarshalData, verifyChecksumEventData, verifyChecksumData, marshalData, checksumPttEventData, checksumData, if_true, if_neg hlong,
    hcut, RouterEventData.unmarshal_marshal, copyToAddress_val]

theorem handleMessage_other {node other : NodeID} (h : other ≠ node) (code : CodeType) {data : RouterData} (hdata : data.node = node.bytes.1) :
    Γ.handleMessage other code data = .error .invalidData := by
  have hne : data.node ≠ other.bytes.1 := by
    rw [hdata]
    intro heq
    exact h (congrArg NodeID.mk (Subtype.ext heq.symm))
  rw [handleMessage, if_pos hne]

theorem handleMessage_marshalData {code : CodeType} (hcode : code ∈ CodeType.handled) (hash : Address) (encData : Bytes) (salt : Salt)
    (node : NodeID) :
    Γ.handleMessage node code { Γ.marshalData code hash encData salt with node := node.bytes.1 } = .ok (hash, encData) := by
  rw [handleMessage, if_neg (by simp), unmarshalData_marshalData]
  have hsame : ¬ (code ≠ code ∨ code < CodeType.requireHash ∧ hash.1 ≠ (Γ.marshalData code hash encData salt).hash) := by
    simp [marshalData]
  dsimp only
  rw [if_neg hsame, if_pos hcode]

/-- An operation that is sent with a key of a valid length, in a message of operations or of the identification of a peer: the node it is
for accepts the message, and decrypting what it carries with the key gives the operation and its payload; every other node rejects it. -/
theorem sendDataToPeerWithCode_round_trip (e : Entity) (now : Timestamp) (code : CodeType)
    (hcode : code = CodeType.op ∨ code = CodeType.identifyPeer) (op : OpType) (payload : Bytes) (k : OpKeyInfo)
    (hk : (e.getOldestOpKey now).1 = .ok k) (hkey : ValidKey k.keyBytes) (node : NodeID) (iv : ByteArrayOf 16) (salt : Salt) :
    ∃ data, (Γ.sendDataToPeerWithCode e now code op payload (some node) iv salt).1 = .ok (some data) ∧
      (∃ encData, Γ.handleMessage node data.code data = .ok (k.hash, encData) ∧ Γ.decryptData encData k = .ok (op, payload)) ∧
      ∀ other, other ≠ node → Γ.handleMessage other data.code data = .error .invalidData := by
  have hhandled : code ∈ CodeType.handled := by
    rcases hcode with rfl | rfl
    · decide
    · decide
  have hsend : (Γ.sendDataToPeerWithCode e now code op payload (some node) iv salt).1 = .ok (some
      { Γ.marshalData code k.hash (iv.1 ++ Cfb.encrypt (fun b => (Γ.aes k.keyBytes b).1) iv.1 (aesPad (Bytes.be 4 op.toNat ++ payload))) salt
        with node := node.bytes.1 }) := by
    rw [sendDataToPeerWithCode]
    rcases hres : e.getOldestOpKey now with ⟨res, e'⟩
    rw [hres] at hk
    simp only at hk
    rw [hk]
    dsimp only
    rw [encryptData_of_valid hkey]
  refine ⟨_, hsend, ⟨_, handleMessage_marshalData hhandled k.hash _ salt node, decryptData_encryptData hkey op payload iv⟩, ?_⟩
  intro other hother
  exact handleMessage_other hother _ rfl

end CipherCtx

namespace EnvelopeWitness

def ctx : CipherCtx where
  keccak256Hash _ := ByteArrayOf.replicate 32 0
  cryptoSign _ _ := []
  verifySignature _ _ _ := false
  isSamePubKey _ _ := false
  childPubKey _ _ _ := none
  expireOplogSeconds := 0
  aes _ _ := ByteArrayOf.replicate 16 7

def key : OpKeyInfo := ⟨ByteArrayOf.replicate 20 1, List.replicate 32 2, .zero, .alive⟩

def entity : Entity :=
  ⟨ByteArrayOf.replicate 40 0, .base, .alive, fun _ => none, fun _ => none, [], fun _ => none, [], [key], some key, 0, 0, .ok []⟩

def node (b : UInt8) : NodeID := ⟨ByteArrayOf.replicate 64 b⟩

end EnvelopeWitness

open EnvelopeWitness CipherCtx in
/-- Operation 5 with three bytes of payload, for the node 1. -/
theorem sendDataToPeerWithCode_round_trip_three :
    ∃ data, (ctx.sendDataToPeerWithCode entity .zero CodeType.op 5 [1, 2, 3] (some (node 1)) (ByteArrayOf.replicate 16 9)
        (ByteArrayOf.replicate 32 8)).1 = .ok (some data) ∧
      (∃ encData, ctx.handleMessage (node 1) data.code data = .ok (key.hash, encData) ∧ ctx.decryptData encData key = .ok (5, [1, 2, 3])) ∧
      ∀ other, other ≠ node 1 → ctx.handleMessage other data.code data = .error .invalidData :=
  sendDataToPeerWithCode_round_trip entity .zero CodeType.op (Or.inl rfl) 5 [1, 2, 3] key rfl (Or.inr (Or.inr rfl)) (node 1)
    (ByteArrayOf.replicate 16 9) (ByteArrayOf.replicate 32 8)

end PttaiCore
