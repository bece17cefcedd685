import Mathlib.Data.List.DropRight
import PttaiCore.MerkleTime
import PttaiCore.OplogStore

/-! # Oplogs that are received -/

namespace PttaiCore

def expireTS (db : LDBDatabase Value) (merkle : Option Merkle) : Except Err Timestamp :=
  match merkle.elim (.ok .zero) fun m => m.getSyncTime db with
  | .error e => .error e
  | .ok ts => if offsetMerkleSyncTime ≤ ts.ts then .ok { ts with ts := ts.ts - offsetMerkleSyncTime } else .ok .zero

def timelyOplogs (now expireTS : Timestamp) (isPending : Bool) (oplogs : List BaseOplog) : List BaseOplog :=
  let oplogs := if isPending then oplogs.dropWhile fun o => !expireTS.isLess o.updateTS else oplogs
  (oplogs.rdropWhile fun o => !o.updateTS.isLess now).map fun o => { o with isSync := false }

def verifyOplogs (Γ : Ctx) : List BaseOplog → Except Err Unit
  | [] => .ok ()
  | o :: oplogs =>
    match (o.verify Γ).1 with
    | .error e => .error e
    | .ok _ => verifyOplogs Γ oplogs

section check

variable (p : OplogDB) (db : LDBDatabase Value)

def checkPreOplog (oplog : BaseOplog) (prelog : Option PttID) (existIDs : KeyStore PttID BaseOplog) :
    Except Err (Option PttID × KeyStore PttID BaseOplog) :=
  match oplog.preLogID with
  | none => .ok (prelog, existIDs.put oplog.id oplog)
  | some id =>
    if (existIDs.get id).any fun log => log.masterLogID.isSome then .ok (prelog, existIDs.put oplog.id oplog)
    else match BaseOplog.get p id db with
      | .error _ => .error .invalidOplog
      | .ok stored =>
        let prelog := stored.masterLogID <|> prelog
        if prelog.isNone then .error .invalidOplog else .ok (prelog, existIDs.put oplog.id oplog)

def checkPreOplogs : List BaseOplog → Option PttID → KeyStore PttID BaseOplog → List BaseOplog
  | [], _, _ => []
  | oplog :: oplogs, prelog, existIDs =>
    match checkPreOplog p db oplog prelog existIDs with
    | .error _ => []
    | .ok (prelog, existIDs) => oplog :: checkPreOplogs oplogs prelog existIDs

def preprocessOplogs (Γ : Ctx) (now : Timestamp) (merkle : Option Merkle) (isPending : Bool) (oplogs : List BaseOplog) :
    Except Err (List BaseOplog) :=
  match expireTS db merkle with
  | .error e => .error e
  | .ok expireTS =>
    let oplogs := timelyOplogs now expireTS isPending oplogs
    match verifyOplogs Γ oplogs with
    | .error e => .error e
    | .ok _ => .ok (checkPreOplogs p db oplogs none KeyStore.empty)

end check

end PttaiCore
