import PttaiCore.Router

/-! # The operation keys of an entity -/

namespace PttaiCore

structure OpKeyManager extends Entity where
  newestOpKeyInfo : Option OpKeyInfo

namespace OpKeyManager

def checkNewestOpKeyInfo (expireRenewTS : Timestamp) (newest : Option OpKeyInfo) (keyInfo : OpKeyInfo) : Option OpKeyInfo :=
  if keyInfo.updateTS.isLess expireRenewTS then newest
  else if keyInfo.status ≠ .alive then newest
  else match newest with
    | none => some keyInfo
    | some n => if n.updateTS.isLess keyInfo.updateTS then some keyInfo else some n

def getNewestOpKeyFullScan (m : OpKeyManager) (now : Timestamp) : Except Err OpKeyInfo × OpKeyManager :=
  match m.opKeyInfos.foldl (checkNewestOpKeyInfo (m.getExpireRenewOpKeyTS now)) none with
  | none => (.error .invalidKey, { m with newestOpKeyInfo := none })
  | some k => (.ok k, { m with newestOpKeyInfo := some k })

def getNewestOpKey (m : OpKeyManager) (now : Timestamp) : Except Err OpKeyInfo × OpKeyManager :=
  match m.newestOpKeyInfo with
  | none => m.getNewestOpKeyFullScan now
  | some n => if n.updateTS.isLess (m.getExpireRenewOpKeyTS now) then (.error .invalidKey, m) else (.ok n, m)

def getOldestOpKey (m : OpKeyManager) (now : Timestamp) : Except Err OpKeyInfo × OpKeyManager :=
  ((m.toEntity.getOldestOpKey now).1, { m with toEntity := (m.toEntity.getOldestOpKey now).2 })

def getOldestOpKeyFullScan (m : OpKeyManager) (now : Timestamp) : Except Err OpKeyInfo × OpKeyManager :=
  ((m.toEntity.getOldestOpKeyFullScan now).1, { m with toEntity := (m.toEntity.getOldestOpKeyFullScan now).2 })

def registerOpKey (m : OpKeyManager) (now : Timestamp) (keyInfo : OpKeyInfo) : Except Err Unit × OpKeyManager :=
  if keyInfo.status ≠ .alive then (.ok (), m)
  else if keyInfo.keyBytes = [] then (.error .invalidKeyInfo, m)
  else
    let expireRenewTS := m.getExpireRenewOpKeyTS now
    (.ok (), { m with
      opKeyInfos := keyInfo :: m.opKeyInfos.filter fun k => k.hash != keyInfo.hash
      newestOpKeyInfo := checkNewestOpKeyInfo expireRenewTS m.newestOpKeyInfo keyInfo
      oldestOpKeyInfo := match m.oldestOpKeyInfo with
        | none => Entity.checkOldestOpKeyInfo expireRenewTS none keyInfo
        | some o => some o })

def removeOpKey (m : OpKeyManager) (now now' : Timestamp) (keyInfo : OpKeyInfo) : OpKeyManager :=
  let m : OpKeyManager := { m with opKeyInfos := m.opKeyInfos.filter fun k => k.hash != keyInfo.hash }
  ((m.getNewestOpKeyFullScan now).2.getOldestOpKeyFullScan now').2

def removeOpKeyFromHash (m : OpKeyManager) (now now' : Timestamp) : Option Address → OpKeyManager
  | none => m
  | some hash =>
    match m.opKeyInfos.find? fun k => k.hash == hash with
    | none => m
    | some keyInfo => m.removeOpKey now now' keyInfo

end OpKeyManager

end PttaiCore
