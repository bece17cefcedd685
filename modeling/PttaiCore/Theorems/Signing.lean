import PttaiCore.Lemmas.Verify
import PttaiCore.Lib.Run

/-! # Signing chains verify -/

namespace PttaiCore

structure Signer (Γ : Ctx) where
  id : PttID
  keyInfo : KeyInfo
  accepted (bytes : Bytes) (salt : Salt) :
    verifyData Γ (bytes ++ (signData Γ bytes keyInfo salt).salt.1) (signData Γ bytes keyInfo salt).hash
      (signData Γ bytes keyInfo salt).sig (signData Γ bytes keyInfo salt).pubBytes id
      (keyInfo.extra.map KeyBIP32.toExtra) = .ok ()

inductive SignLabel (Γ : Ctx) where
  | internalSign (signer : Signer Γ) (ts : Timestamp) (salt : Salt)
  | masterSign (signer : Signer Γ) (ts : Timestamp) (salt : Salt)
  | setMasterLogID (oplogID : PttID)

structure SignState where
  oplog : BaseOplog
  clock : Timestamp
  ended : Bool

def orSame (r : Except Err BaseOplog) (o : BaseOplog) : BaseOplog :=
  match r with
  | .ok o' => o'
  | .error _ => o

def SignStep (Γ : Ctx) (s : SignState) : SignLabel Γ → SignState → Prop
  | .internalSign g ts salt, t =>
    s.ended = false ∧ ts.isLess s.clock = false ∧ g.id ∉ s.oplog.internalSigns.map SignInfo.id ∧
      t = ⟨orSame (s.oplog.internalSign Γ g.id g.keyInfo ts salt) s.oplog, ts, false⟩
  | .masterSign g ts salt, t =>
    s.ended = false ∧ ts.isLess s.clock = false ∧ g.id ∉ s.oplog.masterSigns.map SignInfo.id ∧
      t = ⟨orSame (s.oplog.masterSign Γ g.id g.keyInfo ts salt) s.oplog, ts, false⟩
  | .setMasterLogID oplogID, t => s.ended = false ∧ t = ⟨s.oplog.setMasterLogID Γ oplogID, s.clock, true⟩

def SignStart (Γ : Ctx) (data : Option Json) (s : SignState) : Prop :=
  ∃ (creator : Signer Γ) (opID : PttID) (id : Option PttID) (ts : Timestamp) (op : UInt32) (salt : Salt),
    s = ⟨(BaseOplog.new opID id ts creator.id op data).sign Γ creator.keyInfo salt, ts, false⟩

def SignLabel.BeforeMasters {Γ : Ctx} (s : SignState) : SignLabel Γ → Prop
  | .internalSign _ _ _ => s.oplog.masterSigns = []
  | .masterSign _ _ _ => True
  | .setMasterLogID _ => True

def BaseOplog.CreatorRefused (Γ : Ctx) (o : BaseOplog) : Prop :=
  verifyDataCheckKey Γ o.pubkey o.creatorID o.keyExtra = .ok false ∨
    verifyDataCheckKey Γ o.pubkey o.creatorID o.keyExtra = .ok true ∧
      (Γ.keccak256 (o.creatorBytes ++ o.salt.1) ≠ o.creatorHash ∨
        64 ≤ o.sig.length ∧ Γ.verifySignature o.pubkey (Γ.keccak256 (o.creatorBytes ++ o.salt.1)) (o.sig.take 64) = false)

namespace SigningAux

open VerifyAux

structure Inv (Γ : Ctx) (s : SignState) : Prop where
  accepted : (s.oplog.verify Γ).1 = .ok ()
  clock : s.clock.isLess s.oplog.createTS = false
  noMasterLog : s.ended = false → s.oplog.masterLogID = none

variable {Γ : Ctx} (g : Signer Γ)

theorem inv_start {data : Option Json} {s : SignState} (h : SignStart Γ data s) : Inv Γ s := by
  obtain ⟨creator, opID, id, ts, op, salt, rfl⟩ := h
  refine ⟨(verify_ok_iff_signaturesOk Γ _).2 ⟨Timestamp.isLess_self ts, rfl, ?_, ?_⟩, Timestamp.isLess_self ts, fun _ => rfl⟩
  · exact creator.accepted _ salt
  · exact fun s hs => absurd hs (List.not_mem_nil)

theorem isLess_trans_false {a b c : Timestamp} (h1 : b.isLess a = false) (h2 : c.isLess b = false) : c.isLess a = false := by
  rw [Timestamp.isLess_eq_false_iff] at *
  exact h1.trans h2

theorem newSign_ok (o : BaseOplog) (ts : Timestamp) (salt : Salt) :
    verifyData Γ (o.blankSigns.marshal ++ (o.newSign Γ g.id g.keyInfo ts salt).salt.1)
      (o.newSign Γ g.id g.keyInfo ts salt).hash (o.newSign Γ g.id g.keyInfo ts salt).sig
      (o.newSign Γ g.id g.keyInfo ts salt).pubkey (o.newSign Γ g.id g.keyInfo ts salt).id
      (o.newSign Γ g.id g.keyInfo ts salt).extra = .ok () :=
  g.accepted _ salt

theorem masterSign_accepted {o o' : BaseOplog} {ts : Timestamp} {salt : Salt}
    (h : (o.verify Γ).1 = .ok ()) (hts : ts.isLess o.createTS = false) (hlog : o.masterLogID = none)
    (hsign : o.masterSign Γ g.id g.keyInfo ts salt = .ok o') :
    (o'.verify Γ).1 = .ok () ∧ o'.createTS = o.createTS ∧ o'.masterLogID = none := by
  unfold BaseOplog.masterSign at hsign
  split_ifs at hsign with hexp
  obtain rfl := Except.ok.inj hsign
  obtain ⟨-, -, hsigs⟩ := (verify_ok_iff_signaturesOk Γ o).1 h
  refine ⟨(verify_ok_iff_signaturesOk Γ _).2 ⟨hts, ?_, ?_⟩, rfl, hlog⟩
  · simp only [BaseOplog.signsHash, BaseOplog.blankSigns, hlog]
  · have hmasters : SignaturesOk Γ o o.masterSigns := hsigs.congr rfl fun s hs => List.mem_append_left _ hs
    refine (hmasters.insert (newSign_ok g o ts salt)).congr rfl fun s hs => ?_
    simpa [BaseOplog.blankSigns] using hs

theorem internalSign_accepted {o o' : BaseOplog} {ts : Timestamp} {salt : Salt}
    (h : (o.verify Γ).1 = .ok ()) (hts : ts.isLess o.createTS = false) (hlog : o.masterLogID = none)
    (hmasters : o.masterSigns = []) (hsign : o.internalSign Γ g.id g.keyInfo ts salt = .ok o') :
    (o'.verify Γ).1 = .ok () ∧ o'.createTS = o.createTS ∧ o'.masterLogID = none := by
  unfold BaseOplog.internalSign at hsign
  split_ifs at hsign with hexp
  obtain rfl := Except.ok.inj hsign
  obtain ⟨-, -, hsigs⟩ := (verify_ok_iff_signaturesOk Γ o).1 h
  refine ⟨(verify_ok_iff_signaturesOk Γ _).2 ⟨hts, ?_, ?_⟩, rfl, hlog⟩
  · simp only [BaseOplog.signsHash, BaseOplog.blankSigns, hlog, hmasters]
  · have hinternal : SignaturesOk Γ o o.internalSigns := hsigs.congr rfl fun s hs => List.mem_append_right _ hs
    refine (hinternal.insert (newSign_ok g o ts salt)).congr rfl fun s hs => ?_
    simpa [hmasters] using hs

theorem setMasterLogID_accepted {o : BaseOplog} (oplogID : PttID) (h : (o.verify Γ).1 = .ok ()) :
    ((o.setMasterLogID Γ oplogID).verify Γ).1 = .ok () := by
  obtain ⟨hts, -, hsigs⟩ := (verify_ok_iff_signaturesOk Γ o).1 h
  refine (verify_ok_iff_signaturesOk Γ _).2 ⟨hts, rfl, hsigs.congr rfl fun s hs => ?_⟩
  exact List.mem_append_left _ (by simpa [BaseOplog.setMasterLogID] using hs)

theorem inv_step {s t : SignState} {l : SignLabel Γ} (hinv : Inv Γ s) (hstep : SignStep Γ s l t)
    (hbefore : l.BeforeMasters s) : Inv Γ t := by
  cases l with
  | internalSign g ts salt =>
    obtain ⟨hended, hclock, -, rfl⟩ := hstep
    have hts := isLess_trans_false hinv.clock hclock
    cases hr : s.oplog.internalSign Γ g.id g.keyInfo ts salt with
    | error e => exact ⟨hinv.accepted, hts, fun _ => hinv.noMasterLog hended⟩
    | ok o' =>
      obtain ⟨hacc, hcreate, hlog⟩ :=
        internalSign_accepted g hinv.accepted hts (hinv.noMasterLog hended) hbefore hr
      exact ⟨hacc, hcreate ▸ hts, fun _ => hlog⟩
  | masterSign g ts salt =>
    obtain ⟨hended, hclock, -, rfl⟩ := hstep
    have hts := isLess_trans_false hinv.clock hclock
    cases hr : s.oplog.masterSign Γ g.id g.keyInfo ts salt with
    | error e => exact ⟨hinv.accepted, hts, fun _ => hinv.noMasterLog hended⟩
    | ok o' =>
      obtain ⟨hacc, hcreate, hlog⟩ := masterSign_accepted g hinv.accepted hts (hinv.noMasterLog hended) hr
      exact ⟨hacc, hcreate ▸ hts, fun _ => hlog⟩
  | setMasterLogID oplogID =>
    obtain ⟨-, rfl⟩ := hstep
    exact ⟨setMasterLogID_accepted oplogID hinv.accepted, hinv.clock, fun h => absurd h (by simp)⟩

theorem verifyDataCheckKey_error {pub : Bytes} {id : PttID} {extra : Option KeyExtraInfo} {e : Err}
    (h : verifyDataCheckKey Γ pub id extra = .error e) : e = .panic := by
  cases extra with
  | none => cases h
  | some k =>
    simp only [verifyDataCheckKey, KeyExtraInfo.isValid, KeyExtraInfo.isValidBIP32] at h
    split at h
    · split at h
      · cases h
      · split_ifs at h
        split at h
        · cases h; rfl
        · cases h
    · cases h

theorem verifyData_refused_iff (Γ : Ctx) (bytes hash sig pub : Bytes) (id : PttID) (extra : Option KeyExtraInfo) :
    (∃ e, e ≠ .panic ∧ verifyData Γ bytes hash sig pub id extra = .error e) ↔
      verifyDataCheckKey Γ pub id extra = .ok false ∨ verifyDataCheckKey Γ pub id extra = .ok true ∧
        (Γ.keccak256 bytes ≠ hash ∨ 64 ≤ sig.length ∧ Γ.verifySignature pub (Γ.keccak256 bytes) (sig.take 64) = false) := by
  unfold verifyData
  rcases hkey : verifyDataCheckKey Γ pub id extra with e | b
  · have he : e = .panic := verifyDataCheckKey_error hkey
    simp [he]
  · cases b with
    | false => simp
    | true =>
      by_cases hhash : Γ.keccak256 bytes = hash
      · by_cases hlen : sig.length < 64
        · simp [hhash, hlen]
        · cases hsig : Γ.verifySignature pub hash (sig.take 64) <;> simp [hhash, hlen, hsig, not_lt.1 hlen]
      · simp [hhash]

theorem dropKeyExtra_eq_iff (o : BaseOplog) : { o with keyExtra := none } = o ↔ o.keyExtra = none := by
  constructor
  · intro h
    exact (congrArg BaseOplog.keyExtra h).symm
  · intro h
    cases o
    cases h
    rfl

theorem verify_keeps_iff {o : BaseOplog} (hts : o.updateTS.isLess o.createTS = false) (hhash : o.hash = o.signsHash Γ) :
    ((o.verify Γ).1 ≠ .error .panic → (o.verify Γ).2 = o) ↔ o.keyExtra = none ∨ ¬ o.CreatorRefused Γ := by
  have hrefused := verifyData_refused_iff Γ (o.creatorBytes ++ o.salt.1) o.creatorHash o.sig o.pubkey o.creatorID o.keyExtra
  rw [BaseOplog.CreatorRefused, ← hrefused]
  unfold BaseOplog.verify
  rw [if_neg (by simp [hts]), if_neg (not_not.2 hhash)]
  rcases verifyData Γ (o.creatorBytes ++ o.salt.1) o.creatorHash o.sig o.pubkey o.creatorID o.keyExtra with e | u
  · -- the deferred restoration is all there is
    simp only [dropKeyExtra_eq_iff, ne_eq, Except.error.injEq, exists_eq_right']
    exact imp_iff_or_not
  · rcases BaseOplog.verifySigns Γ o.blankSigns.marshal o.masterSigns with e | u <;> simp

end SigningAux

namespace SigningWitness

def sigOf (hash key : Bytes) : Bytes := (hash ++ key ++ List.replicate 65 0).take 65

def ctx : Ctx where
  keccak256Hash b := ⟨Bytes.be 32 (b.foldl (fun acc x => (acc * 257 + x.toNat + 1) % 2 ^ 256) 0), Bytes.be_length _ _⟩
  cryptoSign hash key := sigOf hash key
  verifySignature pub hash sig := sig == (sigOf hash pub).take 64
  isSamePubKey pub id := pub == id.1.take 20
  childPubKey parent salt child := some (parent ++ salt.1.take 1 ++ Bytes.be 4 child.toNat)
  expireOplogSeconds := 300

def idOf (b : UInt8) : PttID := ByteArrayOf.replicate 40 b

def saltOf (b : UInt8) : Salt := ByteArrayOf.replicate 32 b

def signer (b : UInt8) : Signer ctx where
  id := idOf b
  keyInfo := ⟨List.replicate 20 b, List.replicate 20 b, none⟩
  accepted bytes salt := by
    refine (VerifyAux.verifyData_ok_iff ctx _ _ _ _ _ _).2 ⟨?_, rfl, ?_, ?_⟩
    · simp [verifyDataCheckKey, signData, ctx, idOf, ByteArrayOf.replicate]
    · simp [signData, ctx, sigOf]
    · simp [signData, ctx]

def start : SignState :=
  ⟨(BaseOplog.new (idOf 9) none ⟨1000, 0⟩ (signer 1).id 1 none).sign ctx (signer 1).keyInfo (saltOf 5), ⟨1000, 0⟩, false⟩

def next (s : SignState) : SignLabel ctx → SignState
  | .internalSign g ts salt => ⟨orSame (s.oplog.internalSign ctx g.id g.keyInfo ts salt) s.oplog, ts, false⟩
  | .masterSign g ts salt => ⟨orSame (s.oplog.masterSign ctx g.id g.keyInfo ts salt) s.oplog, ts, false⟩
  | .setMasterLogID oplogID => ⟨s.oplog.setMasterLogID ctx oplogID, s.clock, true⟩

theorem start_isStart : SignStart ctx none start := ⟨signer 1, idOf 9, none, ⟨1000, 0⟩, 1, saltOf 5, rfl⟩

def internalFirst : SignLabel ctx := .internalSign (signer 3) ⟨1001, 0⟩ (saltOf 6)

def masterNext : SignLabel ctx := .masterSign (signer 2) ⟨1002, 0⟩ (saltOf 7)

def logLast : SignLabel ctx := .setMasterLogID (idOf 8)

def done : SignState := next (next (next start internalFirst) masterNext) logLast

def masterLabel : SignLabel ctx := .masterSign (signer 2) ⟨1001, 0⟩ (saltOf 6)

def internalLabel : SignLabel ctx := .internalSign (signer 3) ⟨1002, 0⟩ (saltOf 7)

def derivedKey : KeyInfo :=
  ⟨List.replicate 20 1 ++ [5, 0, 0, 0, 7], List.replicate 20 1 ++ [5, 0, 0, 0, 7], some ⟨List.replicate 20 1, some (saltOf 5), 7⟩⟩

def forged : BaseOplog :=
  let signed := (BaseOplog.new (idOf 9) none ⟨1000, 0⟩ (idOf 1) 1 none).sign ctx derivedKey (saltOf 6)
  let o := { signed with sig := List.replicate 65 0 }
  { o with hash := o.signsHash ctx }

end SigningWitness

/-- Every state of a signing chain in which internal signers sign before masters do is accepted by verification. -/
theorem verify_of_signing_run (Γ : Ctx) {data : Option Json} {s t : SignState} {ls : List (SignLabel Γ)}
    (h0 : SignStart Γ data s) (hrun : Run (fun s l t => SignStep Γ s l t ∧ l.BeforeMasters s) s ls t) : (t.oplog.verify Γ).1 = .ok () :=
  (hrun.invariant (SigningAux.inv_start h0) fun _ _ _ hinv hstep => SigningAux.inv_step hinv hstep.1 hstep.2).accepted

open SigningWitness in
/-- A chain of an internal signature, a master's and the master log. -/
theorem verify_of_signing_run_three :
    Run (fun s l t => SignStep ctx s l t ∧ l.BeforeMasters s) start [internalFirst, masterNext, logLast] done ∧
      (done.oplog.verify ctx).1 = .ok () := by
  have h1 : SignStep ctx start internalFirst (next start internalFirst) := ⟨rfl, by decide, by decide, rfl⟩
  have h2 : SignStep ctx (next start internalFirst) masterNext (next (next start internalFirst) masterNext) :=
    ⟨rfl, by decide, by decide, rfl⟩
  have h3 : SignStep ctx (next (next start internalFirst) masterNext) logLast done := ⟨rfl, rfl⟩
  have hrun : Run (fun s l t => SignStep ctx s l t ∧ l.BeforeMasters s) start [internalFirst, masterNext, logLast] done :=
    (((Run.nil start).snoc ⟨h1, rfl⟩).snoc ⟨h2, trivial⟩).snoc ⟨h3, trivial⟩
  exact ⟨hrun, verify_of_signing_run ctx start_isStart hrun⟩

open SigningWitness in
/-- A chain that verification does not accept: the creator signs, then a master, then an internal signer. -/
theorem internalSign_after_masterSign_false :
    ∃ t, SignStart ctx none start ∧ Run (SignStep ctx) start [masterLabel, internalLabel] t ∧
      (t.oplog.verify ctx).1 = .error .invalidData := by
  refine ⟨next (next start masterLabel) internalLabel, start_isStart, ?_, by decide +kernel⟩
  have h1 : SignStep ctx start masterLabel (next start masterLabel) := ⟨rfl, by decide, by decide, rfl⟩
  have h2 : SignStep ctx (next start masterLabel) internalLabel (next (next start masterLabel) internalLabel) :=
    ⟨rfl, by decide, by decide, rfl⟩
  exact (Run.single h1).snoc h2

/-- A verification that returns leaves the oplog as it was just if there is no extra data of the creator's key to lose, or the oplog is
turned away for its times or its hash, or its creator's signature is not refused. -/
theorem verifyInPlace_restores_iff (Γ : Ctx) (o : BaseOplog) :
    ((o.verifyInPlace Γ).1 ≠ .error .panic → (o.verifyInPlace Γ).2 = o) ↔
      o.keyExtra = none ∨ o.updateTS.isLess o.createTS = true ∨ o.hash ≠ o.signsHash Γ ∨ ¬ o.CreatorRefused Γ := by
  rw [BaseOplog.verifyInPlace_eq]
  by_cases hts : o.updateTS.isLess o.createTS = true
  · have hkept : (o.verify Γ).2 = o := by rw [BaseOplog.verify, if_pos hts]
    exact ⟨fun _ => Or.inr (Or.inl hts), fun _ _ => hkept⟩
  · by_cases hhash : o.hash = o.signsHash Γ
    · rw [SigningAux.verify_keeps_iff (Bool.eq_false_iff.2 hts) hhash]
      simp [hts, hhash]
    · have hkept : (o.verify Γ).2 = o := by rw [BaseOplog.verify, if_neg hts, if_pos hhash]
      exact ⟨fun _ => Or.inr (Or.inr (Or.inl hhash)), fun _ _ => hkept⟩

open SigningWitness in
/-- An oplog signed with a derived key, whose signature is then replaced: after the verification that refuses it, the oplog does not
say any more what the key was derived from. -/
theorem verifyInPlace_forged_false :
    (forged.verifyInPlace ctx).1 = .error .invalidData ∧ forged.keyExtra ≠ none ∧ (forged.verifyInPlace ctx).2.keyExtra = none := by
  decide +kernel

end PttaiCore
