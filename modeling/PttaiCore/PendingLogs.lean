import PttaiCore.ObjectLogs
import PttaiCore.OplogSigns

/-! # Pending oplogs -/

namespace PttaiCore

/-! ## The signatures of the own node -/

def idInOplogSigns (id : PttID) (signs : List SignInfo) : Bool :=
  let idx := sortSearch signs.length fun i => match signs[i]? with | some x => decide (id ≤ x.id) | none => true
  signs[idx]?.any fun x => decide (x.id = id)

structure OwnKeys where
  myID : PttID
  signKey : KeyInfo
  nodeSignID : PttID
  nodeSignKey : KeyInfo
  isMaster : Bool
  isValidInternalOplog : List SignInfo → Bool
  isValidOplog : List SignInfo → Option PttID × UInt32 × Bool
  internalTS : Timestamp
  internalSalt : Salt
  masterTS : Timestamp
  masterSalt : Salt

namespace BaseOplog

def validateMasterSigns (Γ : Ctx) (own : OwnKeys) (o : BaseOplog) : BaseOplog :=
  match own.isValidOplog o.masterSigns with
  | (_, _, false) => o
  | (some masterLogID, _, true) => o.setMasterLogID Γ masterLogID
  | (none, _, true) =>
    let o := { o with masterLogID := none, internalSigns := [] }
    { o with hash := o.signsHash Γ }

def defaultValidateIntegrateSign (Γ : Ctx) (own : OwnKeys) (o : BaseOplog) : Except Err BaseOplog :=
  if own.isValidInternalOplog o.internalSigns then
    (o.masterSign Γ own.myID own.signKey own.masterTS own.masterSalt).map (validateMasterSigns Γ own)
  else .ok (o.validateMasterSigns Γ own)

def defaultInternalSign (Γ : Ctx) (own : OwnKeys) (o : BaseOplog) : Except Err BaseOplog :=
  if o.masterLogID.isSome then .ok o
  else if own.myID ≠ o.creatorID ∧ own.isMaster = false then .ok o
  else if idInOplogSigns own.myID o.masterSigns then .ok o
  else if idInOplogSigns own.nodeSignID o.internalSigns then .ok o
  else
    match o.internalSign Γ own.nodeSignID own.nodeSignKey own.internalTS own.internalSalt with
    | .error e => .error e
    | .ok o =>
      if !own.isValidInternalOplog o.internalSigns then .ok o
      else (o.masterSign Γ own.myID own.signKey own.masterTS own.masterSalt).map (validateMasterSigns Γ own)

def SameContent (o o' : BaseOplog) : Prop := o'.blankSigns = o.blankSigns ∧ o'.isSync = o.isSync

theorem SameContent.trans {o o' o'' : BaseOplog} (h : SameContent o o') (h' : SameContent o' o'') : SameContent o o'' :=
  ⟨h'.1.trans h.1, h'.2.trans h.2⟩

theorem sameContent_masterSign {Γ : Ctx} {o o' : BaseOplog} {id : PttID} {key : KeyInfo} {ts : Timestamp} {salt : Salt}
    (h : o.masterSign Γ id key ts salt = .ok o') : SameContent o o' := by
  unfold masterSign at h
  split_ifs at h
  cases h
  exact ⟨rfl, rfl⟩

theorem sameContent_internalSign {Γ : Ctx} {o o' : BaseOplog} {id : PttID} {key : KeyInfo} {ts : Timestamp} {salt : Salt}
    (h : o.internalSign Γ id key ts salt = .ok o') : SameContent o o' := by
  unfold internalSign at h
  split_ifs at h
  cases h
  exact ⟨rfl, rfl⟩

theorem sameContent_validateMasterSigns (Γ : Ctx) (own : OwnKeys) (o : BaseOplog) : SameContent o (o.validateMasterSigns Γ own) := by
  unfold validateMasterSigns
  split <;> exact ⟨rfl, rfl⟩

theorem sameContent_ownMasterSign {Γ : Ctx} {own : OwnKeys} {o o' : BaseOplog}
    (h : (o.masterSign Γ own.myID own.signKey own.masterTS own.masterSalt).map (validateMasterSigns Γ own) = .ok o') :
    SameContent o o' := by
  cases hsign : o.masterSign Γ own.myID own.signKey own.masterTS own.masterSalt with
  | error e =>
    rw [hsign] at h
    cases h
  | ok signed =>
    rw [hsign] at h
    cases h
    exact (sameContent_masterSign hsign).trans (sameContent_validateMasterSigns Γ own signed)

theorem sameContent_defaultValidateIntegrateSign (Γ : Ctx) (own : OwnKeys) (o o' : BaseOplog)
    (h : o.defaultValidateIntegrateSign Γ own = .ok o') : SameContent o o' := by
  unfold defaultValidateIntegrateSign at h
  split_ifs at h
  · exact sameContent_ownMasterSign h
  · cases h
    exact sameContent_validateMasterSigns Γ own o

theorem sameContent_defaultInternalSign (Γ : Ctx) (own : OwnKeys) (o o' : BaseOplog) (h : o.defaultInternalSign Γ own = .ok o') :
    SameContent o o' := by
  unfold defaultInternalSign at h
  split_ifs at h
  · cases h
    exact ⟨rfl, rfl⟩
  · cases h
    exact ⟨rfl, rfl⟩
  · cases h
    exact ⟨rfl, rfl⟩
  · cases h
    exact ⟨rfl, rfl⟩
  · cases hsign : o.internalSign Γ own.nodeSignID own.nodeSignKey own.internalTS own.internalSalt with
    | error e =>
      rw [hsign] at h
      cases h
    | ok signed =>
      rw [hsign] at h
      dsimp only at h
      split_ifs at h
      · cases h
        exact sameContent_internalSign hsign
      · exact (sameContent_internalSign hsign).trans (sameContent_ownMasterSign h)

end BaseOplog

structure PendingSigner where
  validateIntegrateSign : BaseOplog → Except Err BaseOplog
  internalSign : BaseOplog → Except Err BaseOplog
  validateIntegrateSign_content (o o' : BaseOplog) : validateIntegrateSign o = .ok o' → o.SameContent o'
  internalSign_content (o o' : BaseOplog) : internalSign o = .ok o' → o.SameContent o'

def PendingSigner.default (Γ : Ctx) (own : OwnKeys) : PendingSigner where
  validateIntegrateSign := BaseOplog.defaultValidateIntegrateSign Γ own
  internalSign := BaseOplog.defaultInternalSign Γ own
  validateIntegrateSign_content := BaseOplog.sameContent_defaultValidateIntegrateSign Γ own
  internalSign_content := BaseOplog.sameContent_defaultInternalSign Γ own

namespace Books

variable {δ : Type} (s : Books δ)

/-! ## Integrating -/

def integrateSigns (o orig : BaseOplog) : BaseOplog :=
  { o with
    masterSigns := (integrateSignInfos o.masterSigns orig.masterSigns).1
    internalSigns := (integrateSignInfos o.internalSigns orig.internalSigns).1 }

def newSigned (Γ : Ctx) (now : Timestamp) (o orig : BaseOplog) : BaseOplog :=
  { integrateSigns o orig with hash := (integrateSigns o orig).signsHash Γ, updateTS := now }

def integrateExisting (Γ : Ctx) (now : Timestamp) (o : BaseOplog) : Selected δ :=
  match s.getLog o.id with
  | .error .notFound => ⟨.ok (false, false), o, s⟩
  | .error e => ⟨.error e, o, s⟩
  | .ok orig =>
    let o' := { o with isSync := if o.toStatus ≤ orig.toStatus then orig.isSync else o.isSync, extra := orig.extra }
    if o.hash = orig.hash then ⟨.ok (orig.isSync, false), o', s⟩
    else if o.masterLogID.isSome then
      let sel := s.selectExisting o'
      { sel with result := sel.result.map fun _ => (orig.isSync, false) }
    else if orig.masterLogID.isSome then ⟨.ok (orig.isSync, false), o'.takeOver orig, s⟩
    else
      let masters := integrateSignInfos o.masterSigns orig.masterSigns
      let internals := integrateSignInfos o.internalSigns orig.internalSigns
      if masters.2.2 && internals.2.2 then
        ⟨.ok (orig.isSync, false), { integrateSigns o' orig with updateTS := orig.updateTS, hash := orig.hash }, s⟩
      else if masters.2.1 && internals.2.1 then
        let r := s.saveLog (integrateSigns o' orig)
        ⟨r.1.map fun _ => (orig.isSync, false), integrateSigns o' orig, r.2⟩
      else ⟨.ok (orig.isSync, true), newSigned Γ now o' orig, s⟩

def integrateOplog (Γ : Ctx) (signer : PendingSigner) (now : Timestamp) (o : BaseOplog) : Selected δ :=
  let r := s.integrateExisting Γ now o
  match r.result with
  | .ok (origIsSync, true) =>
    match signer.validateIntegrateSign r.oplog with
    | .error e => ⟨.error e, r.oplog, r.books⟩
    | .ok o =>
      let saved := r.books.saveLog { o with isSync := o.isSync || origIsSync }
      ⟨saved.1.map fun _ => (origIsSync, true), o, saved.2⟩
  | _ => r

/-! ## Accepting a pending oplog -/

abbrev PendingHandler (δ : Type) : Type := BaseOplog → Books δ → Option Err × Bool × BaseOplog × Books δ

def processAndSign (signer : PendingSigner) (processPendingLog : PendingHandler δ) (origIsSync : Bool) (o : BaseOplog) :
    Option Err × Books δ :=
  match processPendingLog o s with
  | (some e, _, _, s) => (some (if e = .newerOplog then .skipOplog else e), s)
  | (none, isToSign, o, s) =>
    match (if isToSign then signer.internalSign o else .ok o) with
    | .error e => (some e, s)
    | .ok o =>
      let r := s.saveLog { o with isSync := o.isSync || origIsSync }
      match r.1 with
      | .error .invalidUpdateTS | .ok _ => (none, r.2)
      | .error e => (some e, r.2)

def handlePendingOplog (Γ : Ctx) (signer : PendingSigner) (now : Timestamp) (processPendingLog : PendingHandler δ)
    (processLog : Handler δ) (o : BaseOplog) : Option Err × Books δ :=
  let r := s.integrateOplog Γ signer now o
  match r.result with
  | .error e => (some e, r.books)
  | .ok (origIsSync, isNewSign) =>
    if r.oplog.isSync then
      if isNewSign then
        match r.books.saveLog r.oplog with
        | (.error e, s) => (some e, s)
        | (.ok _, s) => (none, s)
      else (none, r.books)
    else if r.oplog.masterLogID.isSome then
      let (err, _, s) := processLog r.oplog r.books
      (if err = some .newerOplog then none else err, s)
    else r.books.processAndSign signer processPendingLog origIsSync r.oplog

end Books

/-! ## Pending oplogs on objects -/

open Books

variable {δ : Type}

def handlePendingUpdateObjectLog (inp : UpdateInput) : PendingHandler δ := fun oplog s =>
  let r := handleUpdateObjectCore false inp oplog s
  (r.1, r.1.isNone && r.2.1.isSync, r.2)

def signPendingDeleteObjectLog : PendingHandler δ := fun oplog s =>
  let r := handlePendingDeleteObjectLog oplog s
  (r.1, r.1.isNone, r.2)

end PttaiCore
