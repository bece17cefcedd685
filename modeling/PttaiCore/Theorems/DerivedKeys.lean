import Mathlib.Data.ZMod.Basic
import PttaiCore.Bip32
import PttaiCore.Lemmas.Verify

/-! # Derived keys commute -/

namespace PttaiCore

open Bytes KeyScheme

namespace KeyScheme

variable {K : KeyScheme}

/-! ## Keys as bytes -/

theorem secp256k1N_lt : secp256k1N < 256 ^ 32 := by decide +kernel

theorem ofBE_fromECDSA (k : PrivateKey) : Bytes.ofBE (fromECDSA k) = k.d := by
  rw [fromECDSA, ofBE_be, Nat.mod_eq_of_lt (k.valid.2.trans secp256k1N_lt)]

theorem toECDSA_fromECDSA (k : PrivateKey) : toECDSA (fromECDSA k) = some k := by
  have hlen : (fromECDSA k).length = 32 := be_length 32 k.d
  rw [toECDSA, if_neg (not_not.2 hlen), dif_pos (by rw [ofBE_fromECDSA]; exact k.valid)]
  simp only [ofBE_fromECDSA]

theorem nsmul_G_ne_zero {n : Nat} (hpos : 0 < n) (hlt : n < secp256k1N) : n • K.G ≠ 0 := by
  intro h
  have hdvd := addOrderOf_dvd_iff_nsmul_eq_zero.2 h
  rw [K.addOrderOf_G] at hdvd
  exact absurd (Nat.le_of_dvd hpos hdvd) (not_le.2 hlt)

theorem publicKey_ne_zero (k : PrivateKey) : K.publicKey k ≠ 0 := nsmul_G_ne_zero k.valid.1 k.valid.2

theorem length_fromECDSAPub (P : K.Point) : (K.fromECDSAPub P).length = 65 := by simp [fromECDSAPub]

theorem unmarshalPubkey_fromECDSAPub {P : K.Point} (h : P ≠ 0) : K.unmarshalPubkey (K.fromECDSAPub P) = some P := by
  obtain ⟨⟨-, hx⟩, -, hy⟩ := K.coordinates P h
  rw [unmarshalPubkey, if_pos ⟨length_fromECDSAPub P, rfl⟩, fromECDSAPub, List.tail_cons, List.take_left' (be_length 32 _),
    List.drop_left' (be_length 32 _), ofBE_be, ofBE_be, Nat.mod_eq_of_lt hx, Nat.mod_eq_of_lt hy]
  exact K.ofCoordinates_eq P h

/-! ## Descendants -/

structure Twin (K : KeyScheme) (priv pub : ExtendedKey) (k : PrivateKey) : Prop where
  isPrivate : priv.isPrivate = true
  isPublic : pub.isPrivate = false
  privKey : priv.key = fromECDSA k
  pubKey : pub.key = K.fromECDSAPub (K.publicKey k)
  chainCode : pub.chainCode = priv.chainCode

theorem twin_extKey (K : KeyScheme) (k : PrivateKey) (c : Bytes) :
    Twin K (privKeyToExtKey k c) (K.pubKeyToExtKey (K.publicKey k) c) k := ⟨rfl, rfl, rfl, rfl, rfl⟩

variable {priv pub : ExtendedKey} {k : PrivateKey}

theorem Twin.pubkeyBytes_priv (h : Twin K priv pub k) : K.pubkeyBytes priv = .ok (K.fromECDSAPub (K.publicKey k)) := by
  simp [pubkeyBytes, h.isPrivate, h.privKey, toECDSA_fromECDSA]

theorem Twin.pubkeyBytes_pub (h : Twin K priv pub k) : K.pubkeyBytes pub = .ok (K.fromECDSAPub (K.publicKey k)) := by
  simp [pubkeyBytes, h.isPublic, h.pubKey]

theorem add_publicKey (il : Nat) (k k' : PrivateKey) (h : k'.d = (il + k.d) % secp256k1N) : il • K.G + K.publicKey k = K.publicKey k' := by
  rw [publicKey, publicKey, h, ← K.addOrderOf_G, mod_addOrderOf_nsmul, add_nsmul]

theorem exists_privateKey {n : Nat} (h : (Bytes.minimal (n % secp256k1N)).length * 8 = 256) :
    ∃ k : PrivateKey, k.d = n % secp256k1N ∧ Bytes.minimal (n % secp256k1N) = fromECDSA k := by
  have hlen : (Bytes.minimal (n % secp256k1N)).length = 32 := by omega
  have hpos : 0 < n % secp256k1N := by
    rw [Nat.pos_iff_ne_zero]
    intro hzero
    rw [hzero] at hlen
    exact absurd hlen (by decide)
  exact ⟨⟨n % secp256k1N, hpos, Nat.mod_lt n (by decide +kernel)⟩, rfl, minimal_eq_be hlen⟩

theorem Twin.child (h : Twin K priv pub k) {idx : UInt32} {priv' : ExtendedKey} (hchild : K.child priv idx = .ok priv') :
    ∃ pub' k', K.child pub idx = .ok pub' ∧ Twin K priv' pub' k' := by
  have hlong : ¬ (K.fromECDSAPub (K.publicKey k)).length < 33 := by rw [length_fromECDSAPub]; omega
  rw [KeyScheme.child, h.pubkeyBytes_priv] at hchild
  rw [KeyScheme.child, h.pubkeyBytes_pub, h.chainCode]
  simp only [if_neg hlong, h.isPrivate, h.isPublic, h.privKey, h.pubKey, ofBE_fromECDSA, if_true, Bool.false_eq_true, if_false] at hchild ⊢
  set ilr := (K.hmacSha512 priv.chainCode ((K.fromECDSAPub (K.publicKey k)).take 33 ++ Bytes.be 4 idx.toNat)).1
  by_cases hil : secp256k1N ≤ Bytes.ofBE (ilr.take 32) ∨ Bytes.ofBE (ilr.take 32) = 0
  · rw [if_pos hil] at hchild
    cases hchild
  · by_cases hbytes : (Bytes.minimal ((Bytes.ofBE (ilr.take 32) + k.d) % secp256k1N)).length * 8 = 256
    · rw [if_neg hil, if_neg (not_not.2 hbytes)] at hchild
      cases hchild
      obtain ⟨k', hk', hkey⟩ := exists_privateKey hbytes
      -- the number is below the order, so that its multiple of the base point has coordinates
      rw [not_or, not_le] at hil
      have hne : Bytes.ofBE (ilr.take 32) • K.G ≠ 0 := nsmul_G_ne_zero (Nat.pos_of_ne_zero hil.2) hil.1
      obtain ⟨⟨hx, -⟩, hy, -⟩ := K.coordinates _ hne
      refine ⟨⟨K.fromECDSAPub (K.publicKey k'), ilr.drop 32, idx, false⟩, k', ?_, ⟨rfl, rfl, hkey, rfl, rfl⟩⟩
      rw [if_neg (by rw [not_or, not_le]; exact hil), if_neg (by omega), unmarshalPubkey_fromECDSAPub (publicKey_ne_zero k)]
      dsimp only
      rw [add_publicKey _ k k' hk']
    · rw [if_neg hil, if_pos hbytes] at hchild
      cases hchild

theorem Twin.derive (h : Twin K priv pub k) {path : List UInt32} {priv' : ExtendedKey} (hpath : K.derive priv path = .ok priv') :
    ∃ pub' k', K.derive pub path = .ok pub' ∧ Twin K priv' pub' k' := by
  induction path generalizing priv pub k with
  | nil =>
    cases hpath
    exact ⟨pub, k, rfl, h⟩
  | cons idx path ih =>
    rw [KeyScheme.derive] at hpath ⊢
    cases hchild : K.child priv idx with
    | error e =>
      rw [hchild] at hpath
      cases hpath
    | ok c =>
      rw [hchild] at hpath
      obtain ⟨c', k', hc', htwin⟩ := h.child hchild
      rw [hc']
      exact ih htwin hpath

/-! ## Signatures -/

theorem child_of_bip32Key {idx : UInt32} {newSalt : Except Err Salt} {r : ExtendedKey × Salt} (h : K.bip32Key k idx newSalt = .ok r) :
    K.child (privKeyToExtKey k r.2.1) idx = .ok r.1 := by
  unfold bip32Key at h
  cases newSalt with
  | error e => cases h
  | ok salt =>
    dsimp only at h
    cases hchild : K.child (privKeyToExtKey k salt.1) idx with
    | error e =>
      rw [hchild] at h
      cases h
    | ok c =>
      rw [hchild] at h
      cases h
      exact hchild

theorem child_of_deriveKeyBIP32From {newSalt : Nat → Except Err Salt} {left idx : Nat} {err : Err} {key : ExtendedKey} {extra : KeyBIP32}
    (h : K.deriveKeyBIP32From k newSalt left idx err = .ok (key, extra)) :
    ∃ salt, extra.parent = K.fromECDSAPub (K.publicKey k) ∧ extra.salt = some salt ∧
      K.child (privKeyToExtKey k salt.1) extra.child = .ok key := by
  induction left generalizing idx err with
  | zero => cases h
  | succ left ih =>
    rw [deriveKeyBIP32From] at h
    cases hkey : K.bip32Key k (UInt32.ofNat idx) (newSalt idx) with
    | error e =>
      rw [hkey] at h
      exact ih h
    | ok r =>
      rw [hkey] at h
      cases h
      exact ⟨r.2, rfl, rfl, child_of_bip32Key hkey⟩

theorem newSignKeyInfo_eq {newSalt : Nat → Except Err Salt} {keyInfo : KeyInfo} (h : K.newSignKeyInfo k newSalt = .ok keyInfo) :
    ∃ k' salt extra, keyInfo = ⟨fromECDSA k', K.fromECDSAPub (K.publicKey k'), some extra⟩ ∧
      extra.parent = K.fromECDSAPub (K.publicKey k) ∧ extra.salt = some salt ∧
      ∃ pub, K.child (K.pubKeyToExtKey (K.publicKey k) salt.1) extra.child = .ok pub ∧ pub.key = K.fromECDSAPub (K.publicKey k') := by
  rw [newSignKeyInfo, deriveKeyBIP32] at h
  cases hderive : K.deriveKeyBIP32From k newSalt maxIterDeriveKeyBIP32 0 .invalidChild with
  | error e =>
    rw [hderive] at h
    cases h
  | ok r =>
    obtain ⟨key, extra⟩ := r
    rw [hderive] at h
    obtain ⟨salt, hparent, hsalt, hchild⟩ := child_of_deriveKeyBIP32From hderive
    obtain ⟨pub, k', hpub, htwin⟩ := (twin_extKey K k salt.1).child hchild
    have hpriv : toPrivkey key = .ok k' := by simp [toPrivkey, htwin.isPrivate, htwin.privKey, toECDSA_fromECDSA]
    dsimp only at h
    rw [newKeyInfo, hpriv, htwin.pubkeyBytes_priv] at h
    cases h
    exact ⟨k', salt, extra, rfl, hparent, hsalt, pub, hpub, htwin.pubKey⟩

theorem verifyDataCheckKey_derived {k' : PrivateKey} {salt : Salt} {extra : KeyBIP32} {doerID : PttID}
    (hid : K.isSamePubKey (K.publicKey k) doerID = true) (hparent : extra.parent = K.fromECDSAPub (K.publicKey k))
    (hsalt : extra.salt = some salt)
    (hpub : ∃ pub, K.child (K.pubKeyToExtKey (K.publicKey k) salt.1) extra.child = .ok pub ∧ pub.key = K.fromECDSAPub (K.publicKey k')) :
    verifyDataCheckKey K.toCtx (K.fromECDSAPub (K.publicKey k')) doerID (some extra.toExtra) = .ok true := by
  obtain ⟨pub, hchild, hkey⟩ := hpub
  have hunmarshal := unmarshalPubkey_fromECDSAPub (publicKey_ne_zero (K := K) k)
  simp [verifyDataCheckKey, KeyExtraInfo.isValid, KeyBIP32.toExtra, KeyExtraInfo.isValidBIP32, toCtx, hparent, hsalt, hunmarshal, hid, hchild,
    hkey]

/-- Along every list of numbers, where a private key has a descendant its public key has one too, with the public key and the chain code of
the former; and what is signed with a key from `newSignKeyInfo` is accepted for an identity with the address of the master key. -/
theorem derived_keys_commute (K : KeyScheme) (k : PrivateKey) :
    (∀ (c : Bytes) (path : List UInt32) (priv : ExtendedKey), K.derive (privKeyToExtKey k c) path = .ok priv →
      ∃ pub, K.derive (K.pubKeyToExtKey (K.publicKey k) c) path = .ok pub ∧ K.pubkeyBytes pub = K.pubkeyBytes priv ∧
        pub.isPrivate = false ∧ pub.chainCode = priv.chainCode) ∧
    ∀ (doerID : PttID), K.isSamePubKey (K.publicKey k) doerID = true → ∀ (newSalt : Nat → Except Err Salt) (keyInfo : KeyInfo),
      K.newSignKeyInfo k newSalt = .ok keyInfo → ∀ (bytes : Bytes) (salt : Salt),
        verifyData K.toCtx (bytes ++ (signData K.toCtx bytes keyInfo salt).salt.1) (signData K.toCtx bytes keyInfo salt).hash
          (signData K.toCtx bytes keyInfo salt).sig (signData K.toCtx bytes keyInfo salt).pubBytes doerID
          (keyInfo.extra.map KeyBIP32.toExtra) = .ok () := by
  refine ⟨?_, ?_⟩
  · intro c path priv hpath
    obtain ⟨pub, k', hpub, htwin⟩ := (twin_extKey K k c).derive hpath
    exact ⟨pub, hpub, htwin.pubkeyBytes_pub.trans htwin.pubkeyBytes_priv.symm, htwin.isPublic, htwin.chainCode⟩
  · intro doerID hid newSalt keyInfo hnew bytes salt
    obtain ⟨k', s, extra, rfl, hparent, hsalt, hpub⟩ := newSignKeyInfo_eq hnew
    obtain ⟨hlen, hverify⟩ := K.verify_sign k' (K.keccak256Hash (bytes ++ salt.1))
    exact (VerifyAux.verifyData_ok_iff _ _ _ _ _ _ _).2 ⟨verifyDataCheckKey_derived hid hparent hsalt hpub, rfl, hlen, hverify⟩

end KeyScheme

namespace DerivedKeysWitness

theorem order_pos : 0 < secp256k1N := by decide +kernel

instance neZero_order : NeZero secp256k1N := ⟨order_pos.ne'⟩

def ofCoordinates (a b : Nat) : Option (ZMod secp256k1N) := if b = 1 then some (a : ZMod secp256k1N) else none

theorem coordinates (P : ZMod secp256k1N) (hP : P ≠ 0) : (0 < P.val ∧ P.val < 256 ^ 32) ∧ 0 < 1 ∧ 1 < 256 ^ 32 :=
  ⟨⟨ZMod.val_pos.2 hP, (ZMod.val_lt P).trans secp256k1N_lt⟩, by decide, by decide⟩

theorem ofCoordinates_eq (P : ZMod secp256k1N) (_ : P ≠ 0) : ofCoordinates P.val 1 = some P := by
  rw [ofCoordinates, if_pos rfl, ZMod.natCast_zmod_val]

def curve : Secp256k1 where
  Point := ZMod secp256k1N
  G := 1
  x := ZMod.val
  y _ := 1
  ofCoordinates := ofCoordinates
  addOrderOf_G := ZMod.addOrderOf_one secp256k1N
  coordinates := coordinates
  ofCoordinates_eq := ofCoordinates_eq

def added : ByteArrayOf 64 := ⟨Bytes.be 64 (2 ^ 506), Bytes.be_length 64 (2 ^ 506)⟩

theorem verify_sign (_ : PrivateKey) (_ : ByteArrayOf 32) : 64 ≤ (List.replicate 65 (0 : UInt8)).length ∧ true = true :=
  ⟨by decide, rfl⟩

def scheme : KeyScheme where
  toSecp256k1 := curve
  hmacSha512 _ _ := added
  keccak256Hash _ := ByteArrayOf.replicate 32 0
  cryptoSign _ _ := List.replicate 65 0
  verifySignature _ _ _ := true
  expireOplogSeconds := 0
  verify_sign := verify_sign

theorem one_valid : 0 < 1 ∧ 1 < secp256k1N := by decide +kernel

def one : PrivateKey := ⟨1, one_valid⟩

theorem sum_valid : 0 < 2 ^ 250 + 1 ∧ 2 ^ 250 + 1 < secp256k1N := by decide +kernel

def childOfOne : PrivateKey := ⟨2 ^ 250 + 1, sum_valid⟩

theorem child_one (c : Bytes) (idx : UInt32) :
    scheme.child (KeyScheme.privKeyToExtKey one c) idx = .ok ⟨KeyScheme.fromECDSA childOfOne, added.1.drop 32, idx, true⟩ := by
  have hlong : ¬ (scheme.fromECDSAPub (scheme.publicKey one)).length < 33 := by rw [length_fromECDSAPub]; omega
  have hil : Bytes.ofBE (added.1.take 32) = 2 ^ 250 := by decide +kernel
  have hrange : ¬ (secp256k1N ≤ 2 ^ 250 ∨ 2 ^ 250 = 0) := by decide +kernel
  have hkey : Bytes.minimal ((2 ^ 250 + one.d) % secp256k1N) = KeyScheme.fromECDSA childOfOne := by decide +kernel
  have hlen : ¬ (KeyScheme.fromECDSA childOfOne).length * 8 ≠ 256 := by decide +kernel
  have hseed : ∀ a b, scheme.hmacSha512 a b = added := fun _ _ => rfl
  rw [KeyScheme.child, (twin_extKey scheme one c).pubkeyBytes_priv]
  simp only [if_neg hlong, hseed, hil, if_neg hrange, KeyScheme.privKeyToExtKey, ofBE_fromECDSA, hkey, if_neg hlen, if_true]

theorem newSignKeyInfo_one : scheme.newSignKeyInfo one (fun _ => .ok Salt.zero) =
    .ok ⟨KeyScheme.fromECDSA childOfOne, scheme.fromECDSAPub (scheme.publicKey childOfOne),
      some ⟨scheme.fromECDSAPub (scheme.publicKey one), some Salt.zero, 0⟩⟩ := by
  have hkey : scheme.bip32Key one (UInt32.ofNat 0) (.ok Salt.zero) =
      .ok (⟨KeyScheme.fromECDSA childOfOne, added.1.drop 32, 0, true⟩, Salt.zero) := by
    unfold KeyScheme.bip32Key
    dsimp only
    rw [child_one]
    rfl
  have hderive : scheme.deriveKeyBIP32 one (fun _ => .ok Salt.zero) =
      .ok (⟨KeyScheme.fromECDSA childOfOne, added.1.drop 32, 0, true⟩, ⟨scheme.fromECDSAPub (scheme.publicKey one), some Salt.zero, 0⟩) := by
    rw [KeyScheme.deriveKeyBIP32, KeyScheme.maxIterDeriveKeyBIP32, KeyScheme.deriveKeyBIP32From, hkey]
    rfl
  rw [KeyScheme.newSignKeyInfo, hderive]
  simp [KeyScheme.newKeyInfo, KeyScheme.toPrivkey, KeyScheme.pubkeyBytes, toECDSA_fromECDSA]

end DerivedKeysWitness

open DerivedKeysWitness in
/-- The private key one: its child, and what is signed with its signing key. -/
theorem derived_keys_commute_one :
    (∃ pub, scheme.derive (scheme.pubKeyToExtKey (scheme.publicKey one) []) [0] = .ok pub ∧
      scheme.pubkeyBytes pub = scheme.pubkeyBytes ⟨KeyScheme.fromECDSA childOfOne, added.1.drop 32, 0, true⟩ ∧
      pub.isPrivate = false ∧ pub.chainCode = added.1.drop 32) ∧
    ∃ keyInfo, scheme.newSignKeyInfo one (fun _ => .ok Salt.zero) = .ok keyInfo ∧
      verifyData scheme.toCtx ([1, 2, 3] ++ (signData scheme.toCtx [1, 2, 3] keyInfo Salt.zero).salt.1)
        (signData scheme.toCtx [1, 2, 3] keyInfo Salt.zero).hash (signData scheme.toCtx [1, 2, 3] keyInfo Salt.zero).sig
        (signData scheme.toCtx [1, 2, 3] keyInfo Salt.zero).pubBytes (ByteArrayOf.replicate 40 0)
        (keyInfo.extra.map KeyBIP32.toExtra) = .ok () := by
  have hderive : scheme.derive (KeyScheme.privKeyToExtKey one []) [0] =
      .ok ⟨KeyScheme.fromECDSA childOfOne, added.1.drop 32, 0, true⟩ := by
    rw [KeyScheme.derive, child_one]
    rfl
  have hid : scheme.isSamePubKey (scheme.publicKey one) (ByteArrayOf.replicate 40 0) = true := rfl
  exact ⟨(KeyScheme.derived_keys_commute scheme one).1 [] [0] _ hderive, _, newSignKeyInfo_one,
    (KeyScheme.derived_keys_commute scheme one).2 _ hid _ _ newSignKeyInfo_one [1, 2, 3] Salt.zero⟩

end PttaiCore
