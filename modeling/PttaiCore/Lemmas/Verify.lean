import PttaiCore.OplogSign

/-! # What verification accepts -/

namespace PttaiCore

namespace VerifyAux

theorem verifyData_ok_iff (Γ : Ctx) (bytes hash sig pub : Bytes) (id : PttID) (extra : Option KeyExtraInfo) :
    verifyData Γ bytes hash sig pub id extra = .ok () ↔
      verifyDataCheckKey Γ pub id extra = .ok true ∧ Γ.keccak256 bytes = hash ∧ 64 ≤ sig.length ∧
        Γ.verifySignature pub (Γ.keccak256 bytes) (sig.take 64) = true := by
  unfold verifyData
  cases verifyDataCheckKey Γ pub id extra with
  | error e => simp
  | ok b =>
    cases b with
    | false => simp
    | true =>
      by_cases h1 : Γ.keccak256 bytes = hash
      · by_cases h2 : sig.length < 64
        · simp [h1, h2]
        · cases h3 : Γ.verifySignature pub (Γ.keccak256 bytes) (sig.take 64) with
          | false => rw [h1] at h3; simp [h1, h2, h3]
          | true => rw [h1] at h3; simp [h1, h2, h3, not_lt.1 h2]
      · simp [h1]

theorem verifySigns_ok_iff (Γ : Ctx) (bytes : Bytes) (l : List SignInfo) : BaseOplog.verifySigns Γ bytes l = .ok () ↔
    ∀ s ∈ l, verifyData Γ (bytes ++ s.salt.1) s.hash s.sig s.pubkey s.id s.extra = .ok () := by
  induction l with
  | nil => simp [BaseOplog.verifySigns]
  | cons s l ih =>
    rw [BaseOplog.verifySigns, List.forall_mem_cons, ← ih]
    cases h : verifyData Γ (bytes ++ s.salt.1) s.hash s.sig s.pubkey s.id s.extra with
    | error e => simp
    | ok u => simp

theorem verify_ok_iff (Γ : Ctx) (o : BaseOplog) : (o.verify Γ).1 = .ok () ↔
    o.updateTS.isLess o.createTS = false ∧ o.hash = o.signsHash Γ ∧
      verifyData Γ (o.creatorBytes ++ o.salt.1) o.creatorHash o.sig o.pubkey o.creatorID o.keyExtra = .ok () ∧
      (∀ s ∈ o.masterSigns,
        verifyData Γ (o.blankSigns.marshal ++ s.salt.1) s.hash s.sig s.pubkey s.id s.extra = .ok ()) ∧
      ∀ s ∈ o.internalSigns,
        verifyData Γ (o.blankSigns.marshal ++ s.salt.1) s.hash s.sig s.pubkey s.id s.extra = .ok () := by
  rw [← verifySigns_ok_iff, ← verifySigns_ok_iff]
  unfold BaseOplog.verify
  by_cases hts : o.updateTS.isLess o.createTS = true
  · simp [hts]
  · by_cases hh : o.hash = o.signsHash Γ
    · simp only [hts, hh, ne_eq, not_true_eq_false, if_false, true_and]
      cases hc : verifyData Γ (o.creatorBytes ++ o.salt.1) o.creatorHash o.sig o.pubkey o.creatorID o.keyExtra with
      | error e => simp
      | ok u =>
        cases hm : BaseOplog.verifySigns Γ o.blankSigns.marshal o.masterSigns with
        | error e => simp
        | ok u => simp
    · simp [hts, hh]

theorem mem_insertSign {s x : SignInfo} {l : List SignInfo} : x ∈ insertSign s l ↔ x = s ∨ x ∈ l := by
  simp only [insertSign, List.mem_append, List.mem_cons]
  constructor
  · rintro (h | h | h)
    · exact .inr (List.mem_of_mem_take h)
    · exact .inl h
    · exact .inr (List.mem_of_mem_drop h)
  · rintro (h | h)
    · exact .inr (.inl h)
    · rw [← List.take_append_drop (sortSearch l.length _) l] at h
      rcases List.mem_append.1 h with h | h
      · exact .inl h
      · exact .inr (.inr h)

structure SignaturesOk (Γ : Ctx) (o : BaseOplog) (signs : List SignInfo) : Prop where
  creator : verifyData Γ (o.creatorBytes ++ o.salt.1) o.creatorHash o.sig o.pubkey o.creatorID o.keyExtra = .ok ()
  others : ∀ s ∈ signs, verifyData Γ (o.blankSigns.marshal ++ s.salt.1) s.hash s.sig s.pubkey s.id s.extra = .ok ()

theorem verify_ok_iff_signaturesOk (Γ : Ctx) (o : BaseOplog) : (o.verify Γ).1 = .ok () ↔
    o.updateTS.isLess o.createTS = false ∧ o.hash = o.signsHash Γ ∧ SignaturesOk Γ o (o.masterSigns ++ o.internalSigns) := by
  rw [verify_ok_iff]
  constructor
  · rintro ⟨hts, hh, hc, hm, hi⟩
    refine ⟨hts, hh, hc, fun s hs => ?_⟩
    rcases List.mem_append.1 hs with h | h
    · exact hm s h
    · exact hi s h
  · rintro ⟨hts, hh, hc, ho⟩
    exact ⟨hts, hh, hc, fun s hs => ho s (List.mem_append_left _ hs), fun s hs => ho s (List.mem_append_right _ hs)⟩

theorem SignaturesOk.congr {Γ : Ctx} {o o' : BaseOplog} {signs signs' : List SignInfo} (h : SignaturesOk Γ o signs)
    (hcore : o'.blankSigns = o.blankSigns) (hsub : ∀ s ∈ signs', s ∈ signs) : SignaturesOk Γ o' signs' := by
  have hbytes : o'.creatorBytes = o.creatorBytes := by rw [BaseOplog.creatorBytes, BaseOplog.creatorBytes, hcore]
  have hfield : ∀ {β : Type} (f : BaseOplog → β), (∀ o, f o.blankSigns = f o) → f o' = f o := by
    intro β f hf
    rw [← hf o', hcore, hf o]
  refine ⟨?_, fun s hs => ?_⟩
  · rw [hbytes, hfield (·.salt) fun _ => rfl, hfield (·.creatorHash) fun _ => rfl, hfield (·.sig) fun _ => rfl,
      hfield (·.pubkey) fun _ => rfl, hfield (·.creatorID) fun _ => rfl, hfield (·.keyExtra) fun _ => rfl]
    exact h.creator
  · rw [hcore]
    exact h.others s (hsub s hs)

theorem SignaturesOk.insert {Γ : Ctx} {o : BaseOplog} {signs : List SignInfo} (h : SignaturesOk Γ o signs) {s : SignInfo}
    (hs : verifyData Γ (o.blankSigns.marshal ++ s.salt.1) s.hash s.sig s.pubkey s.id s.extra = .ok ()) :
    SignaturesOk Γ o (insertSign s signs) := by
  refine ⟨h.creator, fun x hx => ?_⟩
  rcases mem_insertSign.1 hx with rfl | hx
  · exact hs
  · exact h.others x hx

end VerifyAux

end PttaiCore
