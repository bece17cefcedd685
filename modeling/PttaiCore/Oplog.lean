import PttaiCore.JsonCodec

/-! # Oplogs and their JSON form -/

namespace PttaiCore

open JsonCodec Json

structure KeyBIP32 where
  parent : Bytes
  salt : Option Salt
  child : UInt32
  deriving DecidableEq

structure KeyExtraInfo where
  keyType : UInt8
  data : Json
  deriving DecidableEq

structure KeyInfo where
  key : Bytes
  pubKeyBytes : Bytes
  extra : Option KeyBIP32
  deriving DecidableEq

structure SignInfo where
  id : PttID
  createTS : Timestamp
  hash : Bytes
  salt : Salt
  sig : Bytes
  pubkey : Bytes
  extra : Option KeyExtraInfo
  deriving DecidableEq

structure BaseOplog where
  v : UInt8
  id : PttID
  creatorID : PttID
  createTS : Timestamp
  objID : Option PttID
  op : UInt32
  preLogID : Option PttID
  data : Option Json
  creatorHash : Bytes
  salt : Salt
  sig : Bytes
  pubkey : Bytes
  keyExtra : Option KeyExtraInfo
  updateTS : Timestamp
  hash : Bytes
  masterLogID : Option PttID
  masterSigns : List SignInfo
  internalSigns : List SignInfo
  isSync : Bool
  isNewer : Bool
  extra : Option Json
  deriving DecidableEq

/-! ## JSON -/

def omitEmpty (b : Bytes) : Option Json := if b = [] then none else some (enc b)

def omitEmptyList {α : Type} (f : α → Json) (l : List α) : Option Json := if l = [] then none else some (.arr (l.map f))

namespace OplogAux

theorem elim_written {α : Type} [JsonCodec α] (zero a : α) : (some (enc a)).elim (some zero) dec = some a := by
  rw [Option.elim_some, dec_enc]

theorem elim_omitEmpty (b : Bytes) : (omitEmpty b).elim (some []) dec = some b := by
  unfold omitEmpty
  split_ifs with h
  · rw [h, Option.elim_none]
  · rw [Option.elim_some, dec_enc]

theorem elim_omitNil {α : Type} [JsonPointee α] (p : Option α) : (p.map enc).elim (some none) dec = some p := by
  cases p with
  | none => rfl
  | some a => exact dec_enc (some a)

theorem elim_generic (j : Json) : (some j).elim (some .null) (fun d => some d.generic) = some j.generic := rfl

end OplogAux

def Timestamp.fields (t : Timestamp) : List (PlainText × Option Json) :=
  [(fieldName ['T'], some (enc t.ts)), (fieldName ['N', 'T'], some (enc t.nanoTs))]

theorem Timestamp.fields_nodup (t : Timestamp) : (t.fields.map Prod.fst).Nodup := by
  change [fieldName ['T'], fieldName ['N', 'T']].Nodup
  decide

instance : JsonCodec Timestamp where
  enc t := record t.fields
  dec j := do
    let ts ← readField 0 dec (fieldName ['T']) j
    let nanoTs ← readField 0 dec (fieldName ['N', 'T']) j
    return ⟨ts, nanoTs⟩
  dec_enc t := by
    rw [readField_record t.fields_nodup 0 rfl (OplogAux.elim_written _ _),
      readField_record t.fields_nodup 1 rfl (OplogAux.elim_written _ _)]
    rfl

def KeyBIP32.fields (k : KeyBIP32) : List (PlainText × Option Json) :=
  [(fieldName ['P'], some (enc k.parent)), (fieldName ['S'], some (enc k.salt)), (fieldName ['c'], some (enc k.child))]

theorem KeyBIP32.fields_nodup (k : KeyBIP32) : (k.fields.map Prod.fst).Nodup := by
  change [fieldName ['P'], fieldName ['S'], fieldName ['c']].Nodup
  decide

instance : JsonCodec KeyBIP32 where
  enc k := record k.fields
  dec j := do
    let parent ← readField [] dec (fieldName ['P']) j
    let salt ← readField none dec (fieldName ['S']) j
    let child ← readField 0 dec (fieldName ['c']) j
    return ⟨parent, salt, child⟩
  dec_enc k := by
    rw [readField_record k.fields_nodup 0 rfl (OplogAux.elim_written _ _),
      readField_record k.fields_nodup 1 rfl (OplogAux.elim_written _ _),
      readField_record k.fields_nodup 2 rfl (OplogAux.elim_written _ _)]
    rfl

def keyTypeBIP32 : UInt8 := 1

def KeyBIP32.toExtra (k : KeyBIP32) : KeyExtraInfo := ⟨keyTypeBIP32, enc k⟩

namespace KeyExtraInfo

def fields (k : KeyExtraInfo) : List (PlainText × Option Json) :=
  [(fieldName ['T'], some (enc k.keyType)), (fieldName ['D'], some k.data)]

theorem fields_nodup (k : KeyExtraInfo) : (k.fields.map Prod.fst).Nodup := by
  change [fieldName ['T'], fieldName ['D']].Nodup
  decide

def toJson (k : KeyExtraInfo) : Json := record k.fields

def ofJson (j : Json) : Option KeyExtraInfo := do
  let keyType ← readField 0 dec (fieldName ['T']) j
  let data ← readField .null (fun d => some d.generic) (fieldName ['D']) j
  return ⟨keyType, data⟩

def reload (k : KeyExtraInfo) : KeyExtraInfo := { k with data := k.data.generic }

theorem ofJson_toJson (k : KeyExtraInfo) : ofJson k.toJson = some k.reload := by
  rw [ofJson, toJson, readField_record k.fields_nodup 0 rfl (OplogAux.elim_written _ _),
    readField_record k.fields_nodup 1 rfl (OplogAux.elim_generic _)]
  rfl

end KeyExtraInfo

def decKeyExtra (j : Json) : Option (Option KeyExtraInfo) := if j.isNull then some none else (KeyExtraInfo.ofJson j).map some

theorem OplogAux.elim_keyExtra (k : Option KeyExtraInfo) :
    (k.map KeyExtraInfo.toJson).elim (some none) decKeyExtra = some (k.map KeyExtraInfo.reload) := by
  cases k with
  | none => rfl
  | some k =>
    rw [Option.map_some, Option.elim_some, decKeyExtra, if_neg (by simp [KeyExtraInfo.toJson, record, isNull]),
      KeyExtraInfo.ofJson_toJson]
    rfl

namespace SignInfo

def fields (s : SignInfo) : List (PlainText × Option Json) :=
  [(fieldName ['I', 'D'], some (enc s.id)), (fieldName ['C', 'T'], some (enc s.createTS)),
    (fieldName ['H'], some (enc s.hash)), (fieldName ['s'], some (enc s.salt)), (fieldName ['S'], some (enc s.sig)),
    (fieldName ['K'], some (enc s.pubkey)), (fieldName ['e'], s.extra.map KeyExtraInfo.toJson)]

theorem fields_nodup (s : SignInfo) : (s.fields.map Prod.fst).Nodup := by
  change [fieldName ['I', 'D'], fieldName ['C', 'T'], fieldName ['H'], fieldName ['s'], fieldName ['S'], fieldName ['K'],
    fieldName ['e']].Nodup
  decide

def toJson (s : SignInfo) : Json := record s.fields

def ofJson (j : Json) : Option SignInfo := do
  let id ← (j.field? (fieldName ['I', 'D'])).bind dec
  let createTS ← readField .zero dec (fieldName ['C', 'T']) j
  let hash ← readField [] dec (fieldName ['H']) j
  let salt ← readField Salt.zero dec (fieldName ['s']) j
  let sig ← readField [] dec (fieldName ['S']) j
  let pubkey ← readField [] dec (fieldName ['K']) j
  let extra ← readField none decKeyExtra (fieldName ['e']) j
  return ⟨id, createTS, hash, salt, sig, pubkey, extra⟩

def reload (s : SignInfo) : SignInfo := { s with extra := s.extra.map KeyExtraInfo.reload }

theorem ofJson_toJson (s : SignInfo) : ofJson s.toJson = some s.reload := by
  have hid : (s.toJson.field? (fieldName ['I', 'D'])).bind dec = some s.id := by
    rw [toJson, field?_record s.fields_nodup (i := 0) rfl, Option.bind_some, dec_enc]
  rw [ofJson, hid, toJson, readField_record s.fields_nodup 1 rfl (OplogAux.elim_written _ _),
    readField_record s.fields_nodup 2 rfl (OplogAux.elim_written _ _),
    readField_record s.fields_nodup 3 rfl (OplogAux.elim_written _ _),
    readField_record s.fields_nodup 4 rfl (OplogAux.elim_written _ _),
    readField_record s.fields_nodup 5 rfl (OplogAux.elim_written _ _),
    readField_record s.fields_nodup 6 rfl (OplogAux.elim_keyExtra _)]
  rfl

end SignInfo

def decSigns : Json → Option (List SignInfo)
  | .null => some []
  | .arr l => l.mapM SignInfo.ofJson
  | _ => none

theorem OplogAux.elim_signs (l : List SignInfo) :
    (omitEmptyList SignInfo.toJson l).elim (some []) decSigns = some (l.map SignInfo.reload) := by
  have hmap : (l.map SignInfo.toJson).mapM SignInfo.ofJson = some (l.map SignInfo.reload) := by
    induction l with
    | nil => rfl
    | cons s l ih => simp [List.mapM_cons, ih, SignInfo.ofJson_toJson]
  unfold omitEmptyList
  split_ifs with h
  · rw [h]
    rfl
  · rw [Option.elim_some, decSigns, hmap]

def decInterface (j : Json) : Option (Option Json) := if j.isNull then some none else some (some j.generic)

def reloadInterface (d : Option Json) : Option Json := d.bind fun j => if j.isNull then none else some j.generic

theorem OplogAux.elim_interface (d : Option Json) : d.elim (some none) decInterface = some (reloadInterface d) := by
  cases d with
  | none => rfl
  | some j =>
    rw [Option.elim_some, decInterface, reloadInterface, Option.bind_some]
    split_ifs <;> rfl

namespace BaseOplog

def fields (o : BaseOplog) : List (PlainText × Option Json) :=
  [(fieldName ['V'], some (enc o.v)),
    (fieldName ['I', 'D'], some (enc o.id)),
    (fieldName ['C', 'I', 'D'], some (enc o.creatorID)),
    (fieldName ['C', 'T'], some (enc o.createTS)),
    (fieldName ['O', 'I', 'D'], some (enc o.objID)),
    (fieldName ['O'], some (enc o.op)),
    (fieldName ['p'], o.preLogID.map enc),
    (fieldName ['D'], o.data),
    (fieldName ['c', 'H'], omitEmpty o.creatorHash),
    (fieldName ['s'], some (enc o.salt)),
    (fieldName ['S'], omitEmpty o.sig),
    (fieldName ['K'], omitEmpty o.pubkey),
    (fieldName ['k'], o.keyExtra.map KeyExtraInfo.toJson),
    (fieldName ['U', 'T'], some (enc o.updateTS)),
    (fieldName ['H'], omitEmpty o.hash),
    (fieldName ['m', 'I', 'D'], o.masterLogID.map enc),
    (fieldName ['m'], omitEmptyList SignInfo.toJson o.masterSigns),
    (fieldName ['i'], omitEmptyList SignInfo.toJson o.internalSigns),
    (fieldName ['y'], some (enc o.isSync)),
    (fieldName ['n'], if o.isNewer then some (enc true) else none),
    (fieldName ['e'], o.extra)]

theorem fields_nodup (o : BaseOplog) : (o.fields.map Prod.fst).Nodup := by
  change [fieldName ['V'], fieldName ['I', 'D'], fieldName ['C', 'I', 'D'], fieldName ['C', 'T'], fieldName ['O', 'I', 'D'],
    fieldName ['O'], fieldName ['p'], fieldName ['D'], fieldName ['c', 'H'], fieldName ['s'], fieldName ['S'], fieldName ['K'],
    fieldName ['k'], fieldName ['U', 'T'], fieldName ['H'], fieldName ['m', 'I', 'D'], fieldName ['m'], fieldName ['i'],
    fieldName ['y'], fieldName ['n'], fieldName ['e']].Nodup
  decide

def toJson (o : BaseOplog) : Json := record o.fields

def marshal (o : BaseOplog) : Bytes := o.toJson.render

def ofJson (j : Json) : Option BaseOplog := do
  let v ← readField 0 dec (fieldName ['V']) j
  let id ← (j.field? (fieldName ['I', 'D'])).bind dec
  let creatorID ← (j.field? (fieldName ['C', 'I', 'D'])).bind dec
  let createTS ← readField .zero dec (fieldName ['C', 'T']) j
  let objID ← readField none dec (fieldName ['O', 'I', 'D']) j
  let op ← readField 0 dec (fieldName ['O']) j
  let preLogID ← readField none dec (fieldName ['p']) j
  let data ← readField none decInterface (fieldName ['D']) j
  let creatorHash ← readField [] dec (fieldName ['c', 'H']) j
  let salt ← readField Salt.zero dec (fieldName ['s']) j
  let sig ← readField [] dec (fieldName ['S']) j
  let pubkey ← readField [] dec (fieldName ['K']) j
  let keyExtra ← readField none decKeyExtra (fieldName ['k']) j
  let updateTS ← readField .zero dec (fieldName ['U', 'T']) j
  let hash ← readField [] dec (fieldName ['H']) j
  let masterLogID ← readField none dec (fieldName ['m', 'I', 'D']) j
  let masterSigns ← readField [] decSigns (fieldName ['m']) j
  let internalSigns ← readField [] decSigns (fieldName ['i']) j
  let isSync ← readField false dec (fieldName ['y']) j
  let isNewer ← readField false dec (fieldName ['n']) j
  let extra ← readField none decInterface (fieldName ['e']) j
  return { v, id, creatorID, createTS, objID, op, preLogID, data, creatorHash, salt, sig, pubkey, keyExtra, updateTS, hash,
           masterLogID, masterSigns, internalSigns, isSync, isNewer, extra }

def reload (o : BaseOplog) : BaseOplog :=
  { o with
    data := reloadInterface o.data
    keyExtra := o.keyExtra.map KeyExtraInfo.reload
    masterSigns := o.masterSigns.map SignInfo.reload
    internalSigns := o.internalSigns.map SignInfo.reload
    extra := reloadInterface o.extra }

theorem elim_isNewer (b : Bool) : (if b then some (enc true) else none).elim (some false) dec = some b := by
  cases b with
  | false => rfl
  | true => exact dec_enc true

theorem ofJson_toJson (o : BaseOplog) : ofJson o.toJson = some o.reload := by
  have hid : (o.toJson.field? (fieldName ['I', 'D'])).bind dec = some o.id := by
    rw [toJson, field?_record o.fields_nodup (i := 1) rfl, Option.bind_some, dec_enc]
  have hcid : (o.toJson.field? (fieldName ['C', 'I', 'D'])).bind dec = some o.creatorID := by
    rw [toJson, field?_record o.fields_nodup (i := 2) rfl, Option.bind_some, dec_enc]
  rw [ofJson, hid, hcid, toJson,
    readField_record o.fields_nodup 0 rfl (OplogAux.elim_written _ _),
    readField_record o.fields_nodup 3 rfl (OplogAux.elim_written _ _),
    readField_record o.fields_nodup 4 rfl (OplogAux.elim_written _ _),
    readField_record o.fields_nodup 5 rfl (OplogAux.elim_written _ _),
    readField_record o.fields_nodup 6 rfl (OplogAux.elim_omitNil _),
    readField_record o.fields_nodup 7 rfl (OplogAux.elim_interface _),
    readField_record o.fields_nodup 8 rfl (OplogAux.elim_omitEmpty _),
    readField_record o.fields_nodup 9 rfl (OplogAux.elim_written _ _),
    readField_record o.fields_nodup 10 rfl (OplogAux.elim_omitEmpty _),
    readField_record o.fields_nodup 11 rfl (OplogAux.elim_omitEmpty _),
    readField_record o.fields_nodup 12 rfl (OplogAux.elim_keyExtra _),
    readField_record o.fields_nodup 13 rfl (OplogAux.elim_written _ _),
    readField_record o.fields_nodup 14 rfl (OplogAux.elim_omitEmpty _),
    readField_record o.fields_nodup 15 rfl (OplogAux.elim_omitNil _),
    readField_record o.fields_nodup 16 rfl (OplogAux.elim_signs _),
    readField_record o.fields_nodup 17 rfl (OplogAux.elim_signs _),
    readField_record o.fields_nodup 18 rfl (OplogAux.elim_written _ _),
    readField_record o.fields_nodup 19 rfl (elim_isNewer _),
    readField_record o.fields_nodup 20 rfl (OplogAux.elim_interface _)]
  rfl

end BaseOplog

end PttaiCore
