import PttaiCore.OpData
import PttaiCore.Theorems.Signing

/-! # Signatures and serialisation -/

namespace PttaiCore

open JsonCodec Json

namespace OpData

def SurvivesJson : OpData → Prop
  | opCreateMedia _ _ nBlock | friendOpCreateMessage _ _ nBlock _ => Float64.reencode nBlock.toInt = nBlock.toInt
  | meOpCreateMe _ nodeType _ => Float64.reencode nodeType.toInt = nodeType.toInt
  | masterOpAddMaster _ _ _ _ | masterOpRevokeMaster _ _ _ => False
  | _ => True

end OpData

namespace SerialisationAux

/-! ## Which encodings are stable -/

theorem stable_enc_bytes (b : Bytes) : (enc b).Stable := by
  change Json.Stable (if b = [] then .null else .str (Base64.encode b))
  split_ifs <;> trivial

theorem stable_enc_id {n : Nat} (p : Option (ByteArrayOf n)) : (enc p).Stable := by
  cases p <;> trivial

theorem stable_enc_nodeID (p : Option NodeID) : (enc p).Stable := by
  cases p <;> trivial

theorem stable_enc_uint32 (n : UInt32) : (enc n).Stable := by
  have h : ((n.toNat : Int)).natAbs < 2 ^ 53 := by
    have := n.toNat_lt
    rw [Int.natAbs_natCast]
    omega
  exact Float64.reencode_of_lt h

theorem stableElems_map {α : Type} (f : α → Json) (hf : ∀ a, (f a).Stable) (l : List α) : StableElems (l.map f) := by
  induction l with
  | nil => trivial
  | cons a l ih => exact ⟨hf a, ih⟩

theorem stable_enc_list {α : Type} [JsonCodec α] (h : ∀ a : α, (enc a).Stable) (l : List α) : (enc l).Stable := by
  change Json.Stable (if l = [] then .null else .arr (l.map enc))
  split_ifs
  · trivial
  · exact stableElems_map enc h l

theorem stable_enc_keyBIP32 (k : KeyBIP32) : (enc k).Stable := by
  refine ⟨?_, stable_enc_bytes _, stable_enc_id _, stable_enc_uint32 _, trivial⟩
  change [fieldName ['P'], fieldName ['S'], fieldName ['c']].Pairwise (· < ·)
  decide

theorem toJson_stable_iff (d : OpData) : d.toJson.Stable ↔ d.SurvivesJson := by
  have hhashs : ∀ hashs : List (List Bytes), (enc hashs).Stable :=
    stable_enc_list (stable_enc_list stable_enc_bytes)
  cases d with
  | masterOpCreateMaster | memberOpAddMember | memberOpDeleteMember | opKeyOpCreateOpKey | opKeyOpRevokeOpKey | opDeleteMedia
  | userOpCreateProfile | userOpDeleteProfile | userOpCreateUserName | userOpCreateUserImg | userOpCreateNameCard
  | meOpDeleteMe | friendOpDeleteFriend => exact iff_of_true ⟨List.Pairwise.nil, trivial⟩ trivial
  | opType op => exact iff_of_true (stable_enc_uint32 op) trivial
  | personOpTransferPerson p | meOpEntity p | meOpMigrateMe p | friendOpCreateFriend p =>
    exact iff_of_true ⟨List.pairwise_singleton _ _, stable_enc_id p, trivial⟩ trivial
  | userOpUpdateUserName b | userOpUpdateUserImg b | userOpUpdateNameCard b =>
    exact iff_of_true ⟨List.pairwise_singleton _ _, stable_enc_bytes b, trivial⟩ trivial
  | userOpAddUserNode p | userOpRemoveUserNode p =>
    exact iff_of_true ⟨List.pairwise_singleton _ _, stable_enc_nodeID p, trivial⟩ trivial
  | opCreateMedia p hashs n =>
    have hkeys : [fieldName ['B', 'I', 'D'], fieldName ['H'], fieldName ['N', 'B']].Pairwise (· < ·) := by decide
    exact ⟨fun h => h.2.2.2.1, fun h => ⟨hkeys, stable_enc_id p, hhashs hashs, h, trivial⟩⟩
  | meOpCreateMe p n b =>
    have hkeys : [fieldName ['N', 'I', 'D'], fieldName ['N', 'T'], fieldName ['n']].Pairwise (· < ·) := by decide
    exact ⟨fun h => h.2.2.1, fun h => ⟨hkeys, stable_enc_nodeID p, h, stable_enc_bytes b, trivial⟩⟩
  | masterOpAddMaster nodeID fromID masters weight =>
    have hkeys : ¬[fieldName ['I', 'D'], fieldName ['f'], fieldName ['M'], fieldName ['W']].Pairwise (· < ·) := by decide
    exact iff_of_false (fun h => hkeys h.1) id
  | masterOpRevokeMaster nodeID fromID masters =>
    have hkeys : ¬[fieldName ['I', 'D'], fieldName ['f'], fieldName ['M']].Pairwise (· < ·) := by decide
    exact iff_of_false (fun h => hkeys h.1) id
  | friendOpCreateMessage p hashs n ms =>
    cases ms with
    | nil =>
      have hkeys : [fieldName ['B', 'I', 'D'], fieldName ['H'], fieldName ['N', 'B']].Pairwise (· < ·) := by decide
      exact ⟨fun h => h.2.2.2.1, fun h => ⟨hkeys, stable_enc_id p, hhashs hashs, h, trivial⟩⟩
    | cons m ms =>
      have hkeys : [fieldName ['B', 'I', 'D'], fieldName ['H'], fieldName ['N', 'B'], fieldName ['m', 's']].Pairwise
          (· < ·) := by decide
      have hms : StableElems ((m :: ms).map enc) := stableElems_map enc (fun a => stable_enc_id (some a)) (m :: ms)
      exact ⟨fun h => h.2.2.2.1, fun h => ⟨hkeys, stable_enc_id p, hhashs hashs, h, hms, trivial⟩⟩

theorem toJson_ne_null (d : OpData) : d.toJson.isNull = false := by
  cases d <;> rfl

/-! ## What a chain leaves in the oplog -/

def Derived (k : Option KeyExtraInfo) : Prop := ∃ b : Option KeyBIP32, k = b.map KeyBIP32.toExtra

theorem Derived.reload {k : Option KeyExtraInfo} (h : Derived k) : k.map KeyExtraInfo.reload = k := by
  obtain ⟨b, rfl⟩ := h
  cases b with
  | none => rfl
  | some b =>
    have hdata : (enc b).generic = enc b := (generic_eq_self_iff _).2 (stable_enc_keyBIP32 b)
    simp [KeyBIP32.toExtra, KeyExtraInfo.reload, hdata]

structure KeysDerived (data : Option Json) (o : BaseOplog) : Prop where
  data_eq : o.data = data
  keyExtra : Derived o.keyExtra
  masterSigns : ∀ s ∈ o.masterSigns, Derived s.extra
  internalSigns : ∀ s ∈ o.internalSigns, Derived s.extra

theorem KeysDerived.insertSign {signs : List SignInfo} (h : ∀ s ∈ signs, Derived s.extra) {s : SignInfo}
    (hs : Derived s.extra) : ∀ x ∈ PttaiCore.insertSign s signs, Derived x.extra := by
  intro x hx
  rcases VerifyAux.mem_insertSign.1 hx with rfl | hx
  · exact hs
  · exact h x hx

theorem keysDerived_start {Γ : Ctx} {data : Option Json} {s : SignState} (h : SignStart Γ data s) :
    KeysDerived data s.oplog := by
  obtain ⟨creator, opID, id, ts, op, salt, rfl⟩ := h
  exact ⟨rfl, ⟨creator.keyInfo.extra, rfl⟩, fun s hs => absurd hs List.not_mem_nil, fun s hs => absurd hs List.not_mem_nil⟩

theorem keysDerived_step {Γ : Ctx} {data : Option Json} {s t : SignState} {l : SignLabel Γ} (h : KeysDerived data s.oplog)
    (hstep : SignStep Γ s l t) : KeysDerived data t.oplog := by
  cases l with
  | internalSign g ts salt =>
    obtain ⟨-, -, -, rfl⟩ := hstep
    simp only [BaseOplog.internalSign]
    split_ifs
    · exact h
    · exact ⟨h.data_eq, h.keyExtra, h.masterSigns, KeysDerived.insertSign h.internalSigns ⟨g.keyInfo.extra, rfl⟩⟩
  | masterSign g ts salt =>
    obtain ⟨-, -, -, rfl⟩ := hstep
    simp only [BaseOplog.masterSign]
    split_ifs
    · exact h
    · exact ⟨h.data_eq, h.keyExtra, KeysDerived.insertSign h.masterSigns ⟨g.keyInfo.extra, rfl⟩,
        fun s hs => absurd hs List.not_mem_nil⟩
  | setMasterLogID oplogID =>
    obtain ⟨-, rfl⟩ := hstep
    exact ⟨h.data_eq, h.keyExtra, h.masterSigns, fun s hs => absurd hs List.not_mem_nil⟩

theorem map_reload {signs : List SignInfo} (h : ∀ s ∈ signs, Derived s.extra) : signs.map SignInfo.reload = signs := by
  refine List.map_congr_left (fun s hs => ?_) |>.trans (List.map_id _)
  change { s with extra := s.extra.map KeyExtraInfo.reload } = s
  rw [(h s hs).reload]

theorem reload_eq {d : OpData} {o : BaseOplog} (h : KeysDerived (some d.toJson) o) :
    o.reload = { o with data := some d.toJson.generic, extra := reloadInterface o.extra } := by
  have hdata : reloadInterface o.data = some d.toJson.generic := by
    rw [h.data_eq, reloadInterface, Option.bind_some, if_neg (by simp [toJson_ne_null])]
  rw [BaseOplog.reload, hdata, h.keyExtra.reload, map_reload h.masterSigns, map_reload h.internalSigns]

theorem data_eq_of_marshal_eq {o o' : BaseOplog} (h : o.marshal = o'.marshal) : o.data = o'.data := by
  have hjson : o.toJson = o'.toJson := render_injective h
  have hfield : ∀ o : BaseOplog, o.toJson.field? (fieldName ['D']) = o.data := fun o =>
    field?_record o.fields_nodup (i := 7) rfl
  rw [← hfield o, hjson, hfield o']

end SerialisationAux

/-- An oplog that was signed along a chain and verifies still verifies after it was encoded and decoded exactly when its data
survives generic re-encoding, provided the hash does not collide on the creator's bytes before and after. -/
theorem verify_reload_iff (Γ : Ctx) (d : OpData) {s t : SignState} {ls : List (SignLabel Γ)}
    (h0 : SignStart Γ (some d.toJson) s) (hrun : Run (SignStep Γ) s ls t) (hverify : (t.oplog.verify Γ).1 = .ok ())
    (hcollision : Γ.keccak256 (t.oplog.reload.creatorBytes ++ t.oplog.salt.1) =
      Γ.keccak256 (t.oplog.creatorBytes ++ t.oplog.salt.1) → t.oplog.reload.creatorBytes = t.oplog.creatorBytes) :
    ∃ o, BaseOplog.ofJson t.oplog.toJson = some o ∧ ((o.verify Γ).1 = .ok () ↔ d.SurvivesJson) := by
  refine ⟨t.oplog.reload, BaseOplog.ofJson_toJson _, ?_⟩
  have hkeys : SerialisationAux.KeysDerived (some d.toJson) t.oplog :=
    hrun.invariant (I := fun s => SerialisationAux.KeysDerived (some d.toJson) s.oplog)
      (SerialisationAux.keysDerived_start h0) fun _ _ _ h hstep => SerialisationAux.keysDerived_step h hstep
  have hreload := SerialisationAux.reload_eq hkeys
  obtain ⟨hts, hhash, hsigs⟩ := (VerifyAux.verify_ok_iff_signaturesOk Γ t.oplog).1 hverify
  rw [← SerialisationAux.toJson_stable_iff, ← generic_eq_self_iff]
  constructor
  · intro h
    -- both verifications hash the creator's bytes to the same value
    obtain ⟨-, -, hsigs'⟩ := (VerifyAux.verify_ok_iff_signaturesOk Γ _).1 h
    have hold := ((VerifyAux.verifyData_ok_iff Γ _ _ _ _ _ _).1 hsigs.creator).2.1
    have hnew := ((VerifyAux.verifyData_ok_iff Γ _ _ _ _ _ _).1 hsigs'.creator).2.1
    have hbytes := hcollision (by rw [hold]; exact hnew)
    have hdata := SerialisationAux.data_eq_of_marshal_eq hbytes
    simp only [hreload, BaseOplog.blankCreator, BaseOplog.blankSigns, hkeys.data_eq, Option.some.injEq] at hdata
    exact hdata
  · intro h
    rw [h, ← hkeys.data_eq] at hreload
    rw [hreload]
    exact (VerifyAux.verify_ok_iff_signaturesOk Γ _).2 ⟨hts, hhash, hsigs.congr rfl fun s hs => hs⟩

namespace SerialisationWitness

open SigningWitness

def addMaster : OpData := .masterOpAddMaster (some ⟨ByteArrayOf.replicate 64 7⟩) (some (idOf 1)) none 1

def signed : SignState :=
  ⟨(BaseOplog.new (idOf 9) (some (idOf 2)) ⟨1000, 0⟩ (signer 1).id 1 (some addMaster.toJson)).sign ctx (signer 1).keyInfo
    (saltOf 5), ⟨1000, 0⟩, false⟩

theorem signed_isStart : SignStart ctx (some addMaster.toJson) signed :=
  ⟨signer 1, idOf 9, some (idOf 2), ⟨1000, 0⟩, 1, saltOf 5, rfl⟩

theorem signed_no_collision : ctx.keccak256 (signed.oplog.reload.creatorBytes ++ signed.oplog.salt.1) ≠
    ctx.keccak256 (signed.oplog.creatorBytes ++ signed.oplog.salt.1) := by
  decide +kernel

end SerialisationWitness

open SigningWitness SerialisationWitness in
/-- The addition of a master, signed by its creator. -/
theorem verify_reload_iff_addMaster : (signed.oplog.verify ctx).1 = .ok () ∧
    ∃ o, BaseOplog.ofJson signed.oplog.toJson = some o ∧ ((o.verify ctx).1 = .ok () ↔ addMaster.SurvivesJson) := by
  have hverify : (signed.oplog.verify ctx).1 = .ok () := by decide +kernel
  exact ⟨hverify, verify_reload_iff ctx addMaster signed_isStart (.nil signed) hverify
    fun h => absurd h signed_no_collision⟩

open SigningWitness SerialisationWitness in
/-- The addition of a master verifies where it was signed, and no longer once it was encoded and decoded. -/
theorem verify_reload_addMaster_false : SignStart ctx (some addMaster.toJson) signed ∧
    (signed.oplog.verify ctx).1 = .ok () ∧
    (BaseOplog.ofJson signed.oplog.toJson).map (fun o => (o.verify ctx).1) = some (.error .invalidData) := by
  refine ⟨signed_isStart, by decide +kernel, ?_⟩
  rw [BaseOplog.ofJson_toJson]
  decide +kernel

end PttaiCore
