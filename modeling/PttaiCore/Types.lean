import Mathlib.Data.Prod.Lex
import PttaiCore.Lib.Buckets
import PttaiCore.Lib.Bytes

/-! # Common types: timestamps, identifiers, statuses, errors -/

namespace PttaiCore

inductive Err where
  | busy | notFound | invalidLock | invalidDBable | invalidKeys | invalidUpdateTS
  | invalidTimestamp | invalidOplog | newerOplog | invalidData | invalidKey | invalidKeyInfo | invalidID | invalidEntity
  | invalidStatus | invalidMerkle | alreadyExists | alreadyDeleted | alreadyPending | invalidPreLog | skipOplog | invalidBlock
  | invalidPrefix | keySize | invalidMsgCode | toClose | peerUserID | alreadyRegistered | notRegistered | tooManyPeers
  | invalidChild | json | panic
  deriving DecidableEq, Repr

inductive Status where
  | invalid | init | internalSync | internalPending | pending | sync | toBeSynced | alive | failed
  | internalDeleted | internalRevoke | internalTransfer | internalMigrate | internalTerminal
  | pendingDeleted | pendingRevoke | pendingTransfer | pendingMigrate | pendingTerminal
  | deleted | revoked | transferred | migrated | terminal
  deriving DecidableEq, Repr

def Status.toNat (s : Status) : Nat := s.ctorIdx

instance : LE Status := ⟨fun a b => a.toNat ≤ b.toNat⟩

instance : LT Status := ⟨fun a b => a.toNat < b.toNat⟩

instance (a b : Status) : Decidable (a ≤ b) := inferInstanceAs (Decidable (a.toNat ≤ b.toNat))

instance (a b : Status) : Decidable (a < b) := inferInstanceAs (Decidable (a.toNat < b.toNat))

theorem Status.lt_irrefl (a : Status) : ¬ a < a := Nat.lt_irrefl a.toNat

theorem Status.lt_asymm {a b : Status} (h : a < b) : ¬ b < a := Nat.lt_asymm h

theorem Status.toNat_injective {a b : Status} (h : a.toNat = b.toNat) : a = b := by
  revert h
  cases a <;> cases b <;> decide

theorem Status.eq_of_not_lt {a b : Status} (h : ¬ a < b) (h' : ¬ b < a) : a = b :=
  Status.toNat_injective (Nat.le_antisymm (Nat.not_lt.1 h') (Nat.not_lt.1 h))

theorem Status.lt_of_le_of_ne {a b : Status} (h : a ≤ b) (hne : a ≠ b) : a < b :=
  Nat.lt_of_le_of_ne h fun heq => hne (Status.toNat_injective heq)

abbrev ByteArrayOf (n : Nat) : Type := { b : Bytes // b.length = n }

def ByteArrayOf.replicate (n : Nat) (b : UInt8) : ByteArrayOf n := ⟨List.replicate n b, List.length_replicate⟩

abbrev PttID : Type := ByteArrayOf 40

abbrev Salt : Type := ByteArrayOf 32

def Salt.zero : Salt := ByteArrayOf.replicate 32 0

structure Timestamp where
  /-- Seconds since 1 January 1970. -/
  ts : Int64
  /-- Nanoseconds. The type allows more than a second of them. -/
  nanoTs : UInt32
  deriving DecidableEq, Repr

namespace Timestamp

def zero : Timestamp := ⟨0, 0⟩

def hrSeconds : Int64 := 3600

def daySeconds : Int64 := 86400

def billion : UInt32 := 1000000000

def toHRTimestamp (t : Timestamp) : Timestamp × Timestamp :=
  let ts := t.ts - t.ts % hrSeconds
  (⟨ts, 0⟩, ⟨ts + hrSeconds, 0⟩)

def toDayTimestamp (t : Timestamp) : Timestamp × Timestamp :=
  let ts := t.ts - t.ts % daySeconds
  (⟨ts, 0⟩, ⟨ts + daySeconds, 0⟩)

def hours : Buckets := .uniform 3600 (by decide)

def days : Buckets := .uniform 86400 (by decide)

def months : Buckets := Buckets.months.scale 86400 (by decide)

def years : Buckets := Buckets.years.scale 86400 (by decide)

def unixSeconds (t : Timestamp) : Int := t.ts.toInt + (t.nanoTs / billion).toNat

def toMonthTimestamp (t : Timestamp) : Timestamp × Timestamp :=
  (⟨Int64.ofInt (months.floor t.unixSeconds), 0⟩, ⟨Int64.ofInt (months.next t.unixSeconds), 0⟩)

def toYearTimestamp (t : Timestamp) : Timestamp × Timestamp :=
  (⟨Int64.ofInt (years.floor t.unixSeconds), 0⟩, ⟨Int64.ofInt (years.next t.unixSeconds), 0⟩)

def marshal (t : Timestamp) : Bytes := Bytes.be 8 t.ts.toUInt64.toNat ++ Bytes.be 4 t.nanoTs.toNat

def unmarshal (b : Bytes) : Except Err Timestamp :=
  if b.length < 12 then .error .panic else
  let ts := UInt64.ofNat (Bytes.ofBE (b.take 8))
  let nanoTs := UInt32.ofNat (Bytes.ofBE ((b.drop 8).take 4))
  if billion ≤ nanoTs then .error .invalidTimestamp else .ok ⟨ts.toInt64, nanoTs⟩

def isEqual (t t2 : Timestamp) : Bool := t.ts == t2.ts && t.nanoTs == t2.nanoTs

def isLess (t t2 : Timestamp) : Bool :=
  if t.ts < t2.ts then true else if t.ts > t2.ts then false
  else if t.nanoTs < t2.nanoTs then true else if t.nanoTs > t2.nanoTs then false
  else false

def isLessEqual (t t2 : Timestamp) : Bool :=
  if t.ts < t2.ts then true else if t.ts > t2.ts then false
  else if t.nanoTs < t2.nanoTs then true else if t.nanoTs > t2.nanoTs then false
  else true

def unsigned (t : Timestamp) : Nat := t.ts.toUInt64.toNat

theorem marshal_length (t : Timestamp) : t.marshal.length = 12 := by simp [marshal]

theorem unmarshal_marshal (t : Timestamp) :
    unmarshal t.marshal = if billion ≤ t.nanoTs then .error .invalidTimestamp else .ok t := by
  have htake : t.marshal.take 8 = Bytes.be 8 t.ts.toUInt64.toNat := List.take_left' (Bytes.be_length _ _)
  have hdrop : (t.marshal.drop 8).take 4 = Bytes.be 4 t.nanoTs.toNat := by
    rw [marshal, List.drop_left' (Bytes.be_length _ _), List.take_of_length_le (Bytes.be_length _ _).le]
  have hsec : t.ts.toUInt64.toNat % 256 ^ 8 = t.ts.toUInt64.toNat := Nat.mod_eq_of_lt t.ts.toUInt64.toNat_lt
  have hnano : t.nanoTs.toNat % 256 ^ 4 = t.nanoTs.toNat := Nat.mod_eq_of_lt t.nanoTs.toNat_lt
  rw [unmarshal, marshal_length, if_neg (by decide), htake, hdrop, Bytes.ofBE_be, Bytes.ofBE_be, hsec, hnano,
    UInt64.ofNat_toNat, UInt32.ofNat_toNat]
  rfl

/-! ## The hour of a time -/

theorem toInt_sub_mod (a b : Int64) : (a - a % b).toInt = a.toInt - a.toInt.tmod b.toInt := by
  have habs : (a.toInt.tmod b.toInt).natAbs ≤ a.toInt.natAbs := by
    rw [Int.natAbs_tmod]
    exact Nat.mod_le _ _
  have hnonneg : 0 ≤ a.toInt → 0 ≤ a.toInt.tmod b.toInt := fun h => Int.tmod_nonneg _ h
  have hnonpos : a.toInt ≤ 0 → a.toInt.tmod b.toInt ≤ 0 := by
    intro h
    have := Int.tmod_nonneg b.toInt (neg_nonneg.2 h)
    rw [Int.neg_tmod] at this
    omega
  have hlt := a.toInt_lt
  have hle := a.le_toInt
  rw [Int64.toInt_sub, Int64.toInt_mod]
  apply Int.bmod_eq_of_le <;> omega

def IsHour (sec : Int64) : Prop := sec % hrSeconds = 0

theorem isHour_toHRTimestamp (t : Timestamp) : IsHour t.toHRTimestamp.1.ts := by
  change (t.ts - t.ts % hrSeconds) % hrSeconds = 0
  rw [← Int64.toInt_inj, Int64.toInt_mod, toInt_sub_mod]
  have hmul : t.ts.toInt - t.ts.toInt.tmod hrSeconds.toInt = hrSeconds.toInt * t.ts.toInt.tdiv hrSeconds.toInt := by
    have := Int.mul_tdiv_add_tmod t.ts.toInt hrSeconds.toInt
    omega
  rw [hmul, Int.mul_tmod_right]
  rfl

theorem toHRTimestamp_of_isHour {sec : Int64} (h : IsHour sec) : (⟨sec, 0⟩ : Timestamp).toHRTimestamp.1 = ⟨sec, 0⟩ := by
  change (⟨sec - sec % hrSeconds, 0⟩ : Timestamp) = _
  rw [show sec % hrSeconds = 0 from h, Int64.sub_zero]

/-! ## The order of time -/

def order (t : Timestamp) : Int ×ₗ Nat := toLex (t.ts.toInt, t.nanoTs.toNat)

theorem order_injective {t t2 : Timestamp} (h : t.order = t2.order) : t = t2 := by
  obtain ⟨a, n⟩ := t
  obtain ⟨b, m⟩ := t2
  simp only [order, EmbeddingLike.apply_eq_iff_eq, Prod.mk.injEq] at h
  rw [Int64.toInt_inj.1 h.1, UInt32.toNat_inj.1 h.2]

theorem isLess_iff (t t2 : Timestamp) : t.isLess t2 = true ↔ t.order < t2.order := by
  simp only [isLess, order, Prod.Lex.lt_iff, ofLex_toLex, ← Int64.lt_iff_toInt_lt, Int64.toInt_inj,
    ← UInt32.lt_iff_toNat_lt, gt_iff_lt]
  by_cases h1 : t.ts < t2.ts
  · simp [h1]
  · by_cases h2 : t2.ts < t.ts
    · simp only [h1, h2, if_true, if_false, Bool.false_eq_true, false_or, false_iff, not_and]
      exact fun h => absurd h2 (by rw [h]; exact Int64.lt_irrefl)
    · have heq : t.ts = t2.ts := by
        rw [← Int64.toInt_inj]
        rw [Int64.lt_iff_toInt_lt] at h1 h2
        omega
      simp [heq, Int64.lt_irrefl]

theorem isLess_eq_false_iff (t t2 : Timestamp) : t.isLess t2 = false ↔ t2.order ≤ t.order := by
  rw [← Bool.not_eq_true, isLess_iff, not_lt]

theorem isLessEqual_eq (t t2 : Timestamp) : t.isLessEqual t2 = !t2.isLess t := by
  unfold isLessEqual isLess
  rcases Int.lt_trichotomy t.ts.toInt t2.ts.toInt with h | h | h
  · have h1 : t.ts < t2.ts := Int64.lt_iff_toInt_lt.2 h
    have h2 : ¬ t2.ts < t.ts := fun h' => absurd (Int64.lt_iff_toInt_lt.1 h') (by omega)
    simp [h1, h2]
  · rw [Int64.toInt_inj.1 h]
    rcases Nat.lt_trichotomy t.nanoTs.toNat t2.nanoTs.toNat with h | h | h
    · have h1 : t.nanoTs < t2.nanoTs := h
      have h2 : ¬ t2.nanoTs < t.nanoTs := Nat.lt_asymm h
      simp [Int64.lt_irrefl, h1, h2]
    · rw [UInt32.toNat_inj.1 h]
      simp [Int64.lt_irrefl]
    · have h1 : t2.nanoTs < t.nanoTs := h
      have h2 : ¬ t.nanoTs < t2.nanoTs := Nat.lt_asymm h
      simp [Int64.lt_irrefl, h1, h2]
  · have h1 : t2.ts < t.ts := Int64.lt_iff_toInt_lt.2 h
    have h2 : ¬ t.ts < t2.ts := fun h' => absurd (Int64.lt_iff_toInt_lt.1 h') (by omega)
    simp [h1, h2]

theorem isLessEqual_iff (t t2 : Timestamp) : t.isLessEqual t2 = true ↔ t.order ≤ t2.order := by
  rw [isLessEqual_eq, Bool.not_eq_true', isLess_eq_false_iff]

@[simp] theorem isLess_self (t : Timestamp) : t.isLess t = false := (isLess_eq_false_iff t t).2 le_rfl

theorem eq_of_not_isLess {t t2 : Timestamp} (h : t.isLess t2 = false) (h' : t2.isLess t = false) : t = t2 :=
  order_injective (le_antisymm ((isLess_eq_false_iff _ _).1 h') ((isLess_eq_false_iff _ _).1 h))

end Timestamp

end PttaiCore
