import PttaiCore.OplogSign

/-! # Peers -/

namespace PttaiCore

inductive PeerType where
  | err | removed | random | pending | member | important | hub | me
  deriving DecidableEq, Repr

def PeerType.toNat (t : PeerType) : Nat := t.ctorIdx

instance : LE PeerType := ⟨fun a b => a.toNat ≤ b.toNat⟩

instance : LT PeerType := ⟨fun a b => a.toNat < b.toNat⟩

instance (a b : PeerType) : Decidable (a ≤ b) := inferInstanceAs (Decidable (a.toNat ≤ b.toNat))

instance (a b : PeerType) : Decidable (a < b) := inferInstanceAs (Decidable (a.toNat < b.toNat))

theorem PeerType.not_lt {a b : PeerType} : ¬ a < b ↔ b ≤ a := Nat.not_lt

abbrev Address : Type := ByteArrayOf 20

structure PttPeer where
  id : NodeID
  peerType : PeerType
  /-- The user at the other end, once known. -/
  userID : Option PttID
  /-- The entity the pending identification was begun for. -/
  idEntityID : Option PttID
  /-- The challenge of the pending identification. -/
  idChallenge : Option Salt
  isRegistered : Bool
  deriving DecidableEq

namespace PttPeer

def new (id : NodeID) : PttPeer := ⟨id, .err, none, none, none, false⟩

def resetInitID (p : PttPeer) : PttPeer := { p with idEntityID := none, idChallenge := none }

def initID (p : PttPeer) (entityID : Option PttID) (isForce : Bool) (salt : Salt) : Except Err Salt × PttPeer :=
  if p.userID.isSome then (.error .alreadyExists, p)
  else
    let p := if isForce && p.idEntityID.isSome then p.resetInitID else p
    if p.idEntityID.isSome then (.error .alreadyExists, p)
    else (.ok salt, { p with idEntityID := entityID, idChallenge := some salt })

def finishID (p : PttPeer) (entityID : Option PttID) : PttPeer :=
  if entityID = p.idEntityID then p.resetInitID else p

@[simp] theorem userID_resetInitID (p : PttPeer) : p.resetInitID.userID = p.userID := rfl

@[simp] theorem idChallenge_resetInitID (p : PttPeer) : p.resetInitID.idChallenge = none := rfl

@[simp] theorem userID_finishID (p : PttPeer) (entityID : Option PttID) : (p.finishID entityID).userID = p.userID := by
  unfold finishID
  split <;> rfl

theorem idChallenge_finishID (p : PttPeer) (entityID : Option PttID) :
    (p.finishID entityID).idChallenge = p.idChallenge ∨ (p.finishID entityID).idChallenge = none := by
  unfold finishID
  split
  · exact .inr rfl
  · exact .inl rfl

theorem initID_cases (p : PttPeer) (entityID : Option PttID) (isForce : Bool) (salt : Salt) :
    p.initID entityID isForce salt = (.error .alreadyExists, p) ∨
      p.initID entityID isForce salt = (.ok salt, { p with idEntityID := entityID, idChallenge := some salt }) ∧
        p.userID = none := by
  unfold initID
  cases hu : p.userID with
  | some u => exact .inl (by simp)
  | none =>
    cases he : p.idEntityID with
    | none => exact .inr (by simp [he, hu])
    | some e =>
      cases isForce with
      | true => exact .inr (by simp [resetInitID, hu])
      | false => exact .inl (by simp [he])

end PttPeer

end PttaiCore
