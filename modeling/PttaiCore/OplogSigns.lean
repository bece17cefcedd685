import PttaiCore.Oplog
import PttaiCore.Context

/-! # The signatures of an oplog -/

namespace PttaiCore

def defaultIsValidOplog {μ : Type} (masters : KeyStore PttID μ) (newestMasterLogID : Option PttID) (signInfos : List SignInfo) :
    Option PttID × UInt32 × Bool :=
  let count := (signInfos.filter fun signInfo => (masters.get signInfo.id).isSome).length
  if count < masters.entries.length then (none, 0, false) else (newestMasterLogID, UInt32.ofNat count, true)

def integrateSignInfosCons (signInfo : SignInfo) (rest : List SignInfo → List SignInfo) : List SignInfo → List SignInfo
  | [] => []
  | orig :: origs =>
    if signInfo.id < orig.id then signInfo :: rest (orig :: origs)
    else if orig.id < signInfo.id then orig :: integrateSignInfosCons signInfo rest origs
    else signInfo :: rest origs

def integrateSignInfosLoop : List SignInfo → List SignInfo → List SignInfo
  | [], _ => []
  | signInfo :: signInfos, origs => integrateSignInfosCons signInfo (integrateSignInfosLoop signInfos) origs

def integrateSignInfos (signInfos origSignInfos : List SignInfo) : List SignInfo × Bool × Bool :=
  if signInfos = [] ∧ origSignInfos = [] then ([], true, true)
  else if origSignInfos = [] then (signInfos, true, false)
  else if signInfos = [] then (origSignInfos, false, true)
  else
    let newSignInfos := integrateSignInfosLoop signInfos origSignInfos
    (newSignInfos, newSignInfos.length == signInfos.length, newSignInfos.length == origSignInfos.length)

end PttaiCore
