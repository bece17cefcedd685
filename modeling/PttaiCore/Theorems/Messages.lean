import PttaiCore.Messages
import PttaiCore.Theorems.Envelope

/-! # Which messages crash a node -/

namespace PttaiCore

/-! ## The messages that crash -/

def CipherCtx.BadCipher (Γ : CipherCtx) (key : OpKeyInfo) (c : Bytes) : Prop :=
  ValidKey key.keyBytes ∧ c.length % 16 = 0 ∧ (c.length < 32 ∨
    ∃ last, (Cfb.decrypt (fun b => (Γ.aes key.keyBytes b).1) (c.take 16) (c.drop 16)).getLast? = some last ∧
      last.toNat ≤ c.length - 16 ∧ c.length - 16 < last.toNat + 4)

def BadSignature (Γ : Ctx) (ackChallenge : Bytes) (data : IdentifyPeerAck) (id : PttID) : Prop :=
  verifyDataCheckKey Γ data.pubBytes id data.extra = .error .panic ∨
    verifyDataCheckKey Γ data.pubBytes id data.extra = .ok true ∧ Γ.keccak256 ackChallenge = data.hash ∧ data.sig.length < 64

def BadAck (Γ : MessageCtx) (p : PttPeer) (data : IdentifyPeerAck) : Prop :=
  ∃ challenge ackChallenge, p.idChallenge = some challenge ∧ data.ackChallenge = some ackChallenge ∧
    (ackChallenge.length + data.spare < 32 ∨ challenge.1 = (ackChallenge ++ List.replicate data.spare 0).take 32 ∧
      (data.myID = none ∧ Γ.reachesDoer data.pubBytes data.extra = true ∨
        ∃ id, data.myID = some id ∧ BadSignature Γ.toCtx ackChallenge data id))

def Router.CanSign (r : Router) : Prop := ∃ me, r.myEntity = some me ∧ me.signKey ≠ none

def BadLog (log : Option ReceivedOplog) : Prop := log = none ∨ ∃ o, log = some o ∧ o.verify = .error .panic

def NoLog (x : Below) (e : Entity) (id : Option PttID) : Prop := id = none ∨ ∃ i, id = some i ∧ x.memberLog e i = .ok none

def Crash (Γ : MessageCtx) (x : Below) (r : Router) (p : PttPeer) (hash : Address) (encData : Bytes) : CodeHandler → Prop
  | .join => ∃ key, x.joinKey hash = .ok key ∧ Γ.BadCipher key encData
  | .joinAck => r.myEntity = none ∨ ∃ key, x.joinRequest hash = .ok key ∧ Γ.BadCipher key encData
  | .op | .identifyPeer => ∃ e key, r.getEntityFromHash (some hash) = .ok e ∧ e.getOpKeyFromHash hash = .ok key ∧
    (Γ.BadCipher key encData ∨
      ∃ d, Γ.decryptData encData key = .ok d ∧
        (d.1 = identifyPeerMsg ∧ Γ.challenge d.2 = some none ∧ ¬ .alive < e.status ∧ r.CanSign ∨
          d.1 = identifyPeerAckMsg ∧ ∃ data, Γ.ack d.2 = some data ∧ BadAck Γ p data))
  | .opFail => p.userID ≠ none ∧ Γ.hash encData = some none
  | .requestOpKey => p.userID ≠ none ∧ Γ.entityID .requestOpKey encData = some none
  | .requestOpKeyAck => p.userID ≠ none ∧ Γ.entityID .requestOpKeyAck encData = some none
  | .entityDeleted => p.userID ≠ none ∧ Γ.entityID .entityDeleted encData = some none
  | .requestOpKeyFail => ∃ userID entityID, p.userID = some userID ∧ Γ.entityID .requestOpKeyFail encData = some entityID ∧
    (entityID = none ∨ ∃ id e, entityID = some id ∧ r.entities id = some e ∧
      (r.myEntity = none ∨ ∃ me l l', r.myEntity = some me ∧ x.memberLog e me.id = .ok l ∧ x.memberLog e userID = .ok l' ∧
        (l = none ∨ l' = none)))
  | .opCheckMember => ∃ data, Γ.checkMember encData = some data ∧
    (data.entityID = none ∨ ∃ id e, data.entityID = some id ∧ r.entities id = some e ∧
      (BadLog data.myLog ∨ ∃ myLog, Router.verifyLog data.myLog = .ok myLog ∧
        (BadLog data.theirLog ∨ ∃ theirLog, Router.verifyLog data.theirLog = .ok theirLog ∧
          (e.status ≤ .alive ∧ NoLog x e p.userID ∨
            Router.checkTheirLog x p e myLog = .ok () ∧ NoLog x e (r.myEntity.map MyEntity.id)))))
  | .opCheckMemberAck => ∃ data, Γ.checkMemberAck encData = some data ∧
    (data.entityID = none ∨ ∃ id e, data.entityID = some id ∧ r.entities id = some e ∧ BadLog data.log)
  | .identifyPeerFail => False
  | .identifyPeerWithMyID => ∃ data, Γ.withMyID encData = some data ∧
    p.userID ≠ none ∧ data.id = p.userID ∧ data.challenge = none ∧ r.CanSign
  | .identifyPeerWithMyIDChallenge => Γ.challenge encData = some none ∧ r.CanSign
  | .identifyPeerWithMyIDChallengeAck => ∃ me data, r.myEntity = some me ∧ Γ.challengeAck encData = some data ∧
    (data.ackData = none ∧ p.idChallenge ≠ none ∨ ∃ ack, data.ackData = some ack ∧
      (BadAck Γ p ack ∨ ack.myID ≠ none ∧ data.challenge = none ∧ me.signKey ≠ none ∧
        ∃ p', Router.handleIdentifyPeerAck Γ.toCtx (some me.id) ack p x.identify = (.ok (), p') ∧ p'.peerType ≠ .random))
  | .identifyPeerWithMyIDAck => r.myEntity ≠ none ∧ ∃ data, Γ.ack encData = some data ∧ BadAck Γ p data

namespace MessagesAux

variable {α β : Type} {Γ : MessageCtx} {x : Below} {r : Router} {p : PttPeer}

/-! ## Where a sequence of steps panics -/

theorem bind_panics {a : Except Err α} {f : α → Except Err β} :
    (a >>= f) = .error .panic ↔ a = .error .panic ∨ ∃ b, a = .ok b ∧ f b = .error .panic := by
  cases a with
  | error e => simp [bind, Except.bind]
  | ok b => simp [bind, Except.bind]

variable {a : Option α} {challenge : Option Salt} {i : IdentifyInput} {e : Entity} {encData : Bytes} {hash : Address}

theorem orError_ok {e : Err} {b : α} : orError e a = .ok b ↔ a = some b := by
  cases a <;> simp [orError]

theorem orError_panics {e : Err} : orError e a = .error .panic ↔ a = none ∧ e = .panic := by
  cases a <;> simp [orError]

theorem deref_ok {b : α} : deref a = .ok b ↔ a = some b := orError_ok

theorem deref_panics : deref a = .error .panic ↔ a = none := by simp [deref, orError_panics]

/-! ## Decryption, answers and logs -/

theorem decryptData_panics {Γ : CipherCtx} {c : Bytes} {key : OpKeyInfo} :
    Γ.decryptData c key = .error .panic ↔ Γ.BadCipher key c := by
  have hblock : aesBlockSize = 16 := rfl
  by_cases hkey : CipherCtx.ValidKey key.keyBytes
  · have hlen : (Cfb.decrypt (fun b => (Γ.aes key.keyBytes b).1) (c.take 16) (c.drop 16)).length = c.length - 16 := by
      rw [Cfb.decrypt, Cfb.length_xorKeyStream (CipherCtx.aes_ne_nil key.keyBytes), List.length_drop]
    unfold CipherCtx.decryptData CipherCtx.BadCipher
    rw [CipherCtx.newCipher_of_valid hkey, hblock]
    dsimp only
    generalize Cfb.decrypt (fun b => (Γ.aes key.keyBytes b).1) (c.take 16) (c.drop 16) = msg at hlen
    split_ifs with hmod hshort
    · simp [hmod]
    · simp only [hkey, true_and, true_iff]
      exact ⟨not_not.1 hmod, .inl (by omega)⟩
    · simp only [hkey, not_not.1 hmod, true_and]
      unfold aesUnpad
      cases hlast : msg.getLast? with
      | none =>
        rw [List.getLast?_eq_none_iff.1 hlast, List.length_nil] at hlen
        simp only [true_iff]
        exact .inl (by omega)
      | some last =>
        have hpos : 0 < msg.length := List.length_pos_iff.2 (by rintro rfl; cases hlast)
        simp only [Option.some.injEq, exists_eq_left']
        by_cases hlong : msg.length < last.toNat
        · simp only [if_pos hlong, Except.error.injEq, reduceCtorEq, false_iff]
          omega
        · simp only [if_neg hlong, List.length_take]
          split_ifs with h4
          · simp only [true_iff]
            omega
          · simp only [false_iff]
            omega
  · have hnew : Γ.newCipher key.keyBytes = .error .keySize := if_neg hkey
    simp [CipherCtx.decryptData, CipherCtx.BadCipher, hnew, hkey]

theorem identifyPeerAck_panics {Γ : Ctx} :
    r.identifyPeerAck Γ challenge i = .error .panic ↔ challenge = none ∧ r.CanSign := by
  unfold Router.identifyPeerAck Router.CanSign
  cases r.myEntity with
  | none => simp
  | some me =>
    cases hkey : me.signKey with
    | none => simp [hkey]
    | some key => cases challenge <;> simp [hkey]

theorem verifyData_panics {Γ : Ctx} {ackChallenge : Bytes} {data : IdentifyPeerAck} {id : PttID} :
    verifyData Γ ackChallenge data.hash data.sig data.pubBytes id data.extra = .error .panic ↔
      BadSignature Γ ackChallenge data id := by
  unfold verifyData BadSignature
  cases hcheck : verifyDataCheckKey Γ data.pubBytes id data.extra with
  | error e => simp
  | ok b =>
    cases b with
    | false => simp
    | true =>
      by_cases hhash : Γ.keccak256 ackChallenge = data.hash
      · by_cases hsig : data.sig.length < 64
        · simp [hhash, hsig]
        · simp only [hhash, hsig, ne_eq, not_true_eq_false, if_false, reduceCtorEq, false_or, and_false, iff_false]
          split_ifs <;> simp
      · simp [hhash]

theorem finishIdentifyPeer_ne (x : Below) (p : PttPeer) : (p.finishIdentifyPeer x.identify).1 ≠ .error .panic := by
  unfold PttPeer.finishIdentifyPeer
  split_ifs
  · simp
  · exact x.finish_ne

theorem ackResult_panics {entityID : PttID} {data : IdentifyPeerAck} :
    Router.ackResult Γ x p entityID data = .error .panic ↔ BadAck Γ p data := by
  unfold Router.ackResult Router.handleIdentifyPeerAck BadAck
  cases hc : p.idChallenge with
  | none => split_ifs <;> simp
  | some challenge =>
    cases ha : data.ackChallenge with
    | none => split_ifs <;> simp
    | some a =>
      simp only [Option.some.injEq, exists_and_left, exists_eq_left', ne_eq]
      by_cases hshort : a.length + data.spare < 32
      · simp [hshort]
      · by_cases hprefix : challenge.1 = (a ++ List.replicate data.spare 0).take 32
        · simp only [hshort, hprefix, not_true_eq_false, if_false, false_or, true_and]
          cases hid : data.myID with
          | none => simp
          | some id =>
            simp only [Option.isSome_some, if_true, reduceCtorEq, false_and, false_or, Option.some.injEq, exists_eq_left']
            rw [← verifyData_panics]
            cases hv : verifyData Γ.toCtx a data.hash data.sig data.pubBytes id data.extra with
            | error e => simp
            | ok u =>
              simp only [reduceCtorEq, iff_false]
              split_ifs
              · simp
              · exact finishIdentifyPeer_ne x _
        · simp [hshort, hprefix]

theorem verifyLog_panics {log : Option ReceivedOplog} : Router.verifyLog log = .error .panic ↔ BadLog log := by
  unfold Router.verifyLog BadLog
  simp [bind_panics, deref_panics, deref_ok]

theorem checkMemberLog_panics {id : Option PttID} {log : ReceivedOplog} :
    Router.checkMemberLog x e id log = .error .panic ↔ NoLog x e id := by
  have hrest : ∀ stored : Bytes × Timestamp, (if stored.1 = log.hash then (.ok () : Except Err Unit)
      else if stored.2.isLess log.updateTS then x.call .opCheckMember e else .ok ()) ≠ .error .panic := by
    intro stored
    split_ifs
    · simp
    · exact x.call_ne _ _
    · simp
  unfold Router.checkMemberLog NoLog
  simp [bind_panics, deref_panics, deref_ok, x.memberLog_ne, hrest]

theorem checkTheirLog_panics {log : ReceivedOplog} :
    Router.checkTheirLog x p e log = .error .panic ↔ e.status ≤ .alive ∧ NoLog x e p.userID := by
  unfold Router.checkTheirLog
  split_ifs with h
  · simp [h, checkMemberLog_panics]
  · simp [h]

theorem getOpKeyFromHash_ne (e : Entity) (hash : Address) : e.getOpKeyFromHash hash ≠ .error .panic := by
  unfold Entity.getOpKeyFromHash
  split <;> simp

theorem getEntityFromHash_panics {hash : Option Address} : r.getEntityFromHash hash = .error .panic ↔ hash = none := by
  cases hash with
  | none => simp [Router.getEntityFromHash]
  | some a =>
    simp only [Router.getEntityFromHash, reduceCtorEq, iff_false]
    split <;> simp

/-! ## The handlers -/

theorem pmHandleIdentifyPeer_panics {Γ : Ctx} :
    (r.pmHandleIdentifyPeer Γ e challenge p i).result = .error .panic ↔ challenge = none ∧ ¬ .alive < e.status ∧ r.CanSign := by
  unfold Router.pmHandleIdentifyPeer Router.pmIdentifyPeerAck
  split_ifs with hstatus
  · simp [PttPeer.give, hstatus]
  · rw [← and_left_comm, and_comm (a := ¬ _), ← identifyPeerAck_panics (Γ := Γ) (i := i)]
    cases r.identifyPeerAck Γ challenge i with
    | error e => simp [PttPeer.give, hstatus]
    | ok a =>
      have hok : (Router.pmIdentifyPeer e p i).result = .ok () := by
        unfold Router.pmIdentifyPeer
        split_ifs <;> rfl
      simp [hok]

theorem wrapper_panics {h : CodeHandler} :
    Router.pmHandleMessageWrapper Γ x r p h e hash encData = .error .panic ↔ ∃ key, e.getOpKeyFromHash hash = .ok key ∧
      (Γ.BadCipher key encData ∨
        ∃ d, Γ.decryptData encData key = .ok d ∧
          (d.1 = identifyPeerMsg ∧ Γ.challenge d.2 = some none ∧ ¬ .alive < e.status ∧ r.CanSign ∨
            d.1 = identifyPeerAckMsg ∧ ∃ data, Γ.ack d.2 = some data ∧ BadAck Γ p data)) := by
  unfold Router.pmHandleMessageWrapper
  simp only [bind_panics, getOpKeyFromHash_ne, false_or, decryptData_panics]
  refine exists_congr fun key => and_congr_right fun _ => or_congr_right (exists_congr fun d => and_congr_right fun _ => ?_)
  have hmsgs : identifyPeerAckMsg ≠ identifyPeerMsg := by decide
  split_ifs with hask hack
  · simp [hask, hmsgs.symm, bind_panics, orError_panics, orError_ok, pmHandleIdentifyPeer_panics]
  · simp [hack, hmsgs, bind_panics, orError_panics, orError_ok, ackResult_panics]
  · simp [hask, hack, x.call_ne]

theorem handleForEntity_panics {h : CodeHandler} {f : Entity → PttID → Except Err Unit} :
    Router.handleForEntity Γ r p h encData f = .error .panic ↔
      ∃ userID entityID, p.userID = some userID ∧ Γ.entityID h encData = some entityID ∧
        (entityID = none ∨ ∃ id e, entityID = some id ∧ r.entities id = some e ∧ f e userID = .error .panic) := by
  unfold Router.handleForEntity
  simp [bind_panics, orError_panics, orError_ok, deref_panics, deref_ok]

theorem identifyPeerWithMyIDAck_panics {Γ : Ctx} :
    (r.identifyPeerWithMyIDAck Γ challenge p i).result = .error .panic ↔ challenge = none ∧ r.CanSign := by
  rw [← identifyPeerAck_panics (Γ := Γ) (i := i), Router.identifyPeerWithMyIDAck]
  cases r.identifyPeerAck Γ challenge i <;> simp [PttPeer.give]

theorem handleIdentifyPeerWithMyIDChallenge_panics {Γ : Ctx} :
    (r.handleIdentifyPeerWithMyIDChallenge Γ challenge p i).result = .error .panic ↔ challenge = none ∧ r.CanSign := by
  rw [← identifyPeerAck_panics (Γ := Γ) (i := i), Router.handleIdentifyPeerWithMyIDChallenge]
  cases r.identifyPeerAck Γ challenge i <;> simp [PttPeer.give]

theorem challengeAck_panics {me : MyEntity} (hme : r.myEntity = some me) {ack : IdentifyPeerAck}
    (hid : ack.myID ≠ none) :
    (r.handleIdentifyPeerWithMyIDChallengeAck Γ.toCtx challenge (some ack) p x.identify).result = .error .panic ↔
      BadAck Γ p ack ∨ challenge = none ∧ me.signKey ≠ none ∧
        ∃ p', Router.handleIdentifyPeerAck Γ.toCtx (some me.id) ack p x.identify = (.ok (), p') ∧ p'.peerType ≠ .random := by
  have hack : Router.ackResult Γ x p me.id ack = .error .panic ↔ BadAck Γ p ack := ackResult_panics
  rw [Router.ackResult, if_pos (Option.isSome_iff_ne_none.2 hid)] at hack
  have hsign : r.CanSign ↔ me.signKey ≠ none := by simp [Router.CanSign, hme]
  unfold Router.handleIdentifyPeerWithMyIDChallengeAck
  rw [hme, ← hack]
  dsimp only
  generalize Router.handleIdentifyPeerAck Γ.toCtx (some me.id) ack p x.identify = y
  obtain ⟨e | u, p'⟩ := y
  · simp [PttPeer.give]
  · simp only [reduceCtorEq, false_or, Prod.mk.injEq, true_and, exists_eq_left', ← hsign]
    split_ifs with hrandom
    · simp [PttPeer.give, hrandom]
    · simp [identifyPeerWithMyIDAck_panics, hrandom]

theorem handleForKey_panics {h : CodeHandler} :
    Router.handleForKey Γ x r p h hash encData = .error .panic ↔ Crash Γ x r p hash encData .op := by
  unfold Router.handleForKey
  cases he : r.getEntityFromHash (some hash) with
  | error e => simp [Crash, he]
  | ok e => simp [Crash, he, wrapper_panics]

theorem opCheckMember_panics {userID : PttID} : Router.opCheckMember x r e userID = .error .panic ↔
    r.myEntity = none ∨ ∃ me l l', r.myEntity = some me ∧ x.memberLog e me.id = .ok l ∧ x.memberLog e userID = .ok l' ∧
      (l = none ∨ l' = none) := by
  unfold Router.opCheckMember
  simp only [bind_panics, deref_panics, deref_ok, x.memberLog_ne, false_or, reduceCtorEq, and_false, exists_false, or_false]
  refine or_congr_right ⟨?_, ?_⟩
  · rintro ⟨me, hme, l, hl, l', hl', hnone⟩
    refine ⟨me, l, l', hme, hl, hl', hnone.imp_right ?_⟩
    rintro ⟨-, -, h⟩
    exact h
  · rintro ⟨me, l, l', hme, hl, hl', hnone⟩
    refine ⟨me, hme, l, hl, l', hl', ?_⟩
    cases l with
    | none => exact .inl rfl
    | some a => exact .inr ⟨a, rfl, hnone.resolve_left (by simp)⟩

theorem identifyPeerWithMyID_ne (i : IdentifyInput) : (r.identifyPeerWithMyID p i).result ≠ .error .panic := by
  unfold Router.identifyPeerWithMyID
  cases r.myEntity with
  | none => simp [PttPeer.give]
  | some me =>
    rcases p.initID_cases (some me.id) true i.challengeSalt with h | ⟨h, -⟩
    · simp [h, PttPeer.give]
    · simp [h]

theorem handleIdentifyPeerWithMyID_panics {Γ : Ctx} {id : Option PttID} :
    (r.handleIdentifyPeerWithMyID Γ id challenge p i).result = .error .panic ↔
      p.userID ≠ none ∧ id = p.userID ∧ challenge = none ∧ r.CanSign := by
  unfold Router.handleIdentifyPeerWithMyID
  cases hu : p.userID with
  | none =>
    unfold Router.identifyPeer
    rcases p.initID_cases id true i.challengeSalt with h | ⟨h, -⟩
    · simp [h, PttPeer.give]
    · simp [h]
  | some userID =>
    dsimp only
    split_ifs with hne
    · simp [PttPeer.give, Ne.symm hne]
    · rw [identifyPeerWithMyIDAck_panics]
      simp [(not_not.1 hne).symm]

theorem handleCode_panics (h : CodeHandler) :
    r.handleCode Γ x p hash encData h = .error .panic ↔ Crash Γ x r p hash encData h := by
  cases h with
  | op => exact handleForKey_panics
  | identifyPeer => exact handleForKey_panics
  | join => simp [Router.handleCode, Crash, bind_panics, x.joinKey_ne, decryptData_panics]
  | joinAck =>
    simp only [Router.handleCode, Crash, bind_panics, x.joinRequest_ne, decryptData_panics, deref_panics, deref_ok]
    cases r.myEntity <;> simp
  | opFail =>
    simp only [Router.handleCode, Crash, bind_panics, orError_panics, orError_ok, getEntityFromHash_panics, x.call_ne]
    cases p.userID <;> simp
  | requestOpKey =>
    rw [Router.handleCode, handleForEntity_panics]
    cases hu : p.userID <;> simp [Crash, hu, x.call_ne]
  | requestOpKeyAck =>
    rw [Router.handleCode, handleForEntity_panics]
    cases hu : p.userID <;> simp [Crash, hu, x.call_ne]
  | entityDeleted =>
    rw [Router.handleCode, handleForEntity_panics]
    cases hu : p.userID <;> simp [Crash, hu, x.call_ne]
  | requestOpKeyFail =>
    rw [Router.handleCode, handleForEntity_panics]
    simp only [Crash, opCheckMember_panics]
  | opCheckMember =>
    simp [Router.handleCode, Router.handleOpCheckMember, Crash, bind_panics, orError_panics, orError_ok, deref_panics, deref_ok,
      verifyLog_panics, checkMemberLog_panics, checkTheirLog_panics, Unique.exists_iff]
  | opCheckMemberAck =>
    simp [Router.handleCode, Router.handleOpCheckMemberAck, Crash, bind_panics, orError_panics, orError_ok, deref_panics, deref_ok,
      verifyLog_panics, x.call_ne]
  | identifyPeerFail => simp [Router.handleCode, Crash, bind_panics, orError_panics, identifyPeerWithMyID_ne]
  | identifyPeerWithMyID =>
    simp [Router.handleCode, Crash, bind_panics, orError_panics, orError_ok, handleIdentifyPeerWithMyID_panics]
  | identifyPeerWithMyIDChallenge =>
    simp [Router.handleCode, Crash, bind_panics, orError_panics, orError_ok,
      handleIdentifyPeerWithMyIDChallenge_panics]
  | identifyPeerWithMyIDChallengeAck =>
    simp only [Router.handleCode, Crash, bind_panics, orError_panics, orError_ok, reduceCtorEq, and_false, false_or, ← exists_and_left]
    refine exists_congr fun me => exists_congr fun data => and_congr_right fun hme => and_congr_right fun _ => ?_
    cases hack : data.ackData with
    | none =>
      cases hc : p.idChallenge <;> simp [hme, hc, Router.handleIdentifyPeerWithMyIDChallengeAck, PttPeer.give]
    | some ack =>
      cases hid : ack.myID with
      | none => simp [hid, bind_panics, deref, orError, ackResult_panics]
      | some id =>
        have hne : ack.myID ≠ none := by simp [hid]
        simp [hid, challengeAck_panics hme hne]
  | identifyPeerWithMyIDAck =>
    simp only [Router.handleCode, Crash, bind_panics, orError_panics, orError_ok, ackResult_panics]
    cases r.myEntity <;> simp

/-! ## Opening -/

theorem openMessage_panics {myNodeID : NodeID} {code : CodeType} {data : RouterData} :
    Γ.openMessage myNodeID code data = .error .panic ↔
      data.node = myNodeID.bytes.1 ∧ Γ.keccak256 data.evWithSalt = data.checksum ∧ data.evWithSalt.length < 32 := by
  unfold MessageCtx.openMessage
  split_ifs with hnode hsum hshort
  · simp [hnode]
  · simp [hsum]
  · simp [not_not.1 hnode, not_not.1 hsum, hshort]
  · simp only [hshort, and_false, iff_false]
    cases Γ.event (data.evWithSalt.take (data.evWithSalt.length - 32)) with
    | none => simp
    | some ev =>
      dsimp only
      split_ifs <;> simp

end MessagesAux

theorem MessageCtx.openMessage_eq (Γ : MessageCtx) (h : ∀ b, Γ.event b = (RouterEventData.unmarshal b).toOption) (myNodeID : NodeID)
    {code : CodeType} (hcode : code ∈ CodeType.handled) (data : RouterData) :
    Γ.openMessage myNodeID code data = Γ.handleMessage myNodeID code data := by
  unfold openMessage CipherCtx.handleMessage CipherCtx.unmarshalData CipherCtx.verifyChecksumEventData CipherCtx.verifyChecksumData
  rw [h, RouterEventData.unmarshal]
  cases (Json.parse (data.evWithSalt.take (data.evWithSalt.length - 32))).bind RouterEventData.ofJson with
  | none => split_ifs <;> simp_all [Except.toOption]
  | some ev =>
    by_cases hsum : Γ.keccak256 data.evWithSalt = data.checksum
    · by_cases hshort : data.evWithSalt.length < 32 <;> simp [hsum, hshort, hcode, Except.toOption]
    · simp [hsum]

namespace MessagesWitness

open EnvelopeWitness

def blank : MessageCtx :=
  { ctx with
    unmarshalPubkey := fun _ => false
    event := fun b => (RouterEventData.unmarshal b).toOption
    hash := fun _ => some none
    entityID := fun _ _ => some none
    challenge := fun _ => some none
    ack := fun _ => none
    withMyID := fun _ => none
    challengeAck := fun _ => none
    checkMember := fun _ => none
    checkMemberAck := fun _ => none }

theorem ok_ne {α : Type} (a : α) : (.ok a : Except Err α) ≠ .error .panic := by simp

def below : Below where
  identify := ⟨Salt.zero, Salt.zero, none, .ok (), .random, true⟩
  call _ _ := .ok ()
  memberLog _ _ := .ok none
  joinKey _ := .ok key
  joinRequest _ := .ok key
  finish_ne := ok_ne ()
  call_ne _ _ := ok_ne ()
  memberLog_ne _ _ := ok_ne none
  joinKey_ne _ := ok_ne key
  joinRequest_ne _ := ok_ne key

theorem no_entities (id : PttID) (e : Entity) (h : none = some e) : e.id = id := by cases h

def router : Router := ⟨some ⟨ByteArrayOf.replicate 40 0, .alive, some ⟨[], [], none⟩⟩, fun _ => none, fun _ => none, no_entities⟩

def emptyObject : Bytes := [123, 125]

def challengeless : RouterData :=
  { ctx.marshalData CodeType.identifyPeerWithMyIDChallenge (ByteArrayOf.replicate 20 0) emptyObject Salt.zero with
    node := (node 1).bytes.1 }

end MessagesWitness

end PttaiCore
