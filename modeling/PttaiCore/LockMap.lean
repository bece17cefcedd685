import PttaiCore.Lib.RWLock
import PttaiCore.Pttdb

/-! # The lock map of identifiers, beside that of the database -/

namespace PttaiCore

structure LockMap where
  lockMap : KeyStore PttID Int
  /-- A lock nobody holds is not in the map. -/
  lockMap_ne_zero (id : PttID) : lockMap.get id ≠ some 0

structure LockRequest where
  op : RWLock.Op
  id : Option PttID
  deriving DecidableEq

namespace LockMap

def new : LockMap := ⟨KeyStore.empty, by simp⟩

def set (l : LockMap) (id : PttID) (i : Int) (hi : i ≠ 0) : LockMap where
  lockMap := l.lockMap.put id i
  lockMap_ne_zero k := by
    rw [KeyStore.get_put]
    split_ifs
    · simpa using hi
    · exact l.lockMap_ne_zero k

def delete (l : LockMap) (id : PttID) : LockMap where
  lockMap := l.lockMap.delete id
  lockMap_ne_zero k := by
    rw [KeyStore.get_delete]
    split_ifs
    · simp
    · exact l.lockMap_ne_zero k

def tryLock (l : LockMap) : Option PttID → Except Err Unit × LockMap
  | none => (.ok (), l)
  | some id =>
    match l.lockMap.get id with
    | some _ => (.error .busy, l)
    | none => (.ok (), l.set id (-1) (Int.neg_ne_zero.2 Int.one_ne_zero))

def unlock (l : LockMap) : Option PttID → Except Err Unit × LockMap
  | none => (.ok (), l)
  | some id =>
    match l.lockMap.get id with
    | none => (.error .invalidLock, l)
    | some val => if 0 ≤ val then (.error .invalidLock, l) else (.ok (), l.delete id)

def tryRLock (l : LockMap) : Option PttID → Except Err Unit × LockMap
  | none => (.ok (), l)
  | some id =>
    let val := (l.lockMap.get id).getD 0
    if h : val < 0 then (.error .busy, l) else (.ok (), l.set id (val + 1) (by omega))

def rUnlock (l : LockMap) : Option PttID → Except Err Unit × LockMap
  | none => (.ok (), l)
  | some id =>
    match l.lockMap.get id with
    | none => (.error .invalidLock, l)
    | some val =>
      if val ≤ 0 then (.error .invalidLock, l)
      else if h : val = 1 then (.ok (), l.delete id)
      else (.ok (), l.set id (val - 1) (by omega))

def answer (l : LockMap) (r : LockRequest) : Except Err Unit × LockMap :=
  match r.op with
  | .tryLock => l.tryLock r.id
  | .unlock => l.unlock r.id
  | .tryRLock => l.tryRLock r.id
  | .rUnlock => l.rUnlock r.id

def entry (l : LockMap) (id : Option PttID) : Option Int := id.bind l.lockMap.get

end LockMap

def lockKey (id : Option PttID) : Bytes := id.elim [] Subtype.val

namespace LDBDatabase

variable {V : Type}

def answer (d : LDBDatabase V) (r : LockRequest) : Except Err Unit × LDBDatabase V :=
  match r.op with
  | .tryLock => d.tryLockMap (lockKey r.id)
  | .unlock => d.unlockMap (lockKey r.id)
  | .tryRLock => d.tryRLockMap (lockKey r.id)
  | .rUnlock => d.rUnlockMap (lockKey r.id)

def entry (d : LDBDatabase V) (id : Option PttID) : Option Int := d.lockMap.get (lockKey id)

end LDBDatabase

end PttaiCore
