import PttaiCore.Lib.Replace
import PttaiCore.SyncInfo

/-! # Which pending log is kept -/

namespace PttaiCore

open Timestamp

namespace SyncInfo

def statusClass (s : SyncInfo) : StatusClass := statusToStatusClass s.status

def key (s : SyncInfo) : (Int ×ₗ Nat) ×ₗ Bytes := toLex (s.updateTS.order, s.logID.1)

def replacedBy (isReplace : Option SyncInfo → Status → Timestamp → PttID → Bool) (cur : Option SyncInfo) (v : SyncInfo) : Bool :=
  isReplace cur v.status v.updateTS v.logID

def surviving (isReplace : Option SyncInfo → Status → Timestamp → PttID → Bool) (logs : List SyncInfo) : Option SyncInfo :=
  logs.foldl (fun cur v => if replacedBy isReplace cur v then some v else cur) none

structure WinnerFixed (isReplace : Option SyncInfo → Status → Timestamp → PttID → Bool) (logs : List SyncInfo) : Prop where
  exactlyOne : ∀ a ∈ logs, ∀ b ∈ logs, a.logID ≠ b.logID →
    Xor (replacedBy isReplace (some a) b = true) (replacedBy isReplace (some b) a = true)
  trans : ∀ a ∈ logs, ∀ b ∈ logs, ∀ c ∈ logs, replacedBy isReplace (some a) b = true → replacedBy isReplace (some b) c = true →
    replacedBy isReplace (some a) c = true
  survivor : ∀ order, order.Perm logs → surviving isReplace order = surviving isReplace logs

def Rivals (lower : StatusClass → StatusClass) (a b : SyncInfo) : Prop :=
  lower a.statusClass < a.statusClass ∧ b.statusClass ≤ a.statusClass ∧
    (lower a.statusClass < b.statusClass ∨ lower a.statusClass = b.statusClass ∧ b.key < a.key)

end SyncInfo

namespace PendingWinnerAux

open SyncInfo

variable {lower : StatusClass → StatusClass} {a b : SyncInfo}

theorem isReplaced_iff : replacedBy (isReplaced lower) (some a) b = true ↔ Replace.Replaces statusClass key lower a b := by
  have hkey : key b < key a ↔ b.updateTS.isLess a.updateTS = true ∨ (a.updateTS.isLess b.updateTS = false ∧
      b.updateTS.isLess a.updateTS = false ∧ b.logID.1 < a.logID.1) := by
    rw [key, key, Prod.Lex.toLex_lt_toLex, isLess_iff, isLess_eq_false_iff, isLess_eq_false_iff]
    constructor
    · rintro (h | ⟨h, h'⟩)
      · exact .inl h
      · exact .inr ⟨h.le, h.ge, h'⟩
    · rintro (h | ⟨h, h', hid⟩)
      · exact .inl h
      · exact .inr ⟨le_antisymm h h', hid⟩
  simp only [Replace.Replaces, hkey, replacedBy, isReplaced, statusClass]
  rcases lt_trichotomy (statusToStatusClass b.status) (lower (statusToStatusClass a.status)) with h | h | h
  · simp [h, h.ne', h.not_gt]
  · rw [if_neg h.not_lt, if_neg h.not_gt]
    by_cases h1 : a.updateTS.isLess b.updateTS = true
    · have h2 : b.updateTS.isLess a.updateTS = false := by
        rw [isLess_eq_false_iff]
        exact ((isLess_iff _ _).1 h1).le
      simp [h, h1, h2]
    · by_cases h2 : b.updateTS.isLess a.updateTS = true
      · simp [h, h1, h2]
      · simp [h, h1, h2]
  · simp [h, h.not_gt]

theorem surviving_eq (logs : List SyncInfo) : surviving (isReplaced lower) logs = Replace.survivor statusClass key lower logs := by
  unfold surviving Replace.survivor
  congr 1
  funext cur v
  cases cur with
  | none => rfl
  | some c =>
    by_cases h : Replace.Replaces statusClass key lower c v
    · rw [if_pos (isReplaced_iff.2 h)]
      exact (if_pos h).symm
    · rw [if_neg fun h' => h (isReplaced_iff.1 h')]
      exact (if_neg h).symm

variable {logs : List SyncInfo}

theorem winnerFixed_iff (hlower : ∀ c, lower c ≤ c) (hids : (logs.map logID).Nodup) :
    WinnerFixed (isReplaced lower) logs ↔ ∀ a ∈ logs, ∀ b ∈ logs, a.logID ≠ b.logID → ¬ Rivals lower a b := by
  have hid : ∀ a ∈ logs, ∀ b ∈ logs, (a.logID ≠ b.logID ↔ a ≠ b) := fun a ha b hb =>
    ⟨fun h heq => h (congrArg logID heq), fun h heq => h (List.inj_on_of_nodup_map hids ha hb heq)⟩
  have hkey : ∀ a ∈ logs, ∀ b ∈ logs, key a = key b → a = b := fun a ha b hb h =>
    List.inj_on_of_nodup_map hids ha hb (Subtype.ext (congrArg (fun k : (Int ×ₗ Nat) ×ₗ Bytes => (ofLex k).2) h))
  have horderly : Replace.Orderly statusClass key lower logs ↔ _ := Replace.orderly_iff hlower hids.of_map hkey
  constructor
  · intro h a ha b hb hne
    refine horderly.1 ⟨fun a ha b hb hne => ?_, fun a ha b hb c hc => ?_, fun order hperm => ?_⟩ a ha b hb ((hid a ha b hb).1 hne)
    · have := h.exactlyOne a ha b hb ((hid a ha b hb).2 hne)
      rwa [isReplaced_iff, isReplaced_iff] at this
    · have := h.trans a ha b hb c hc
      rwa [isReplaced_iff, isReplaced_iff, isReplaced_iff] at this
    · rw [← surviving_eq, ← surviving_eq]
      exact h.survivor order hperm
  · intro h
    have horderly := horderly.2 fun a ha b hb hne => h a ha b hb ((hid a ha b hb).2 hne)
    refine ⟨fun a ha b hb hne => ?_, fun a ha b hb c hc => ?_, fun order hperm => ?_⟩
    · rw [isReplaced_iff, isReplaced_iff]
      exact horderly.exactlyOne a ha b hb ((hid a ha b hb).1 hne)
    · rw [isReplaced_iff, isReplaced_iff, isReplaced_iff]
      exact horderly.trans a ha b hb c hc
    · rw [surviving_eq, surviving_eq]
      exact horderly.survivor order hperm

end PendingWinnerAux

open SyncInfo

/-- Of pending logs with different identifiers, any two replace one another in one direction, transitively, and the one that is kept
does not depend on the order of arrival, exactly when no two of them are rivals: for objects and entities, and for persons. -/
theorem pendingWinner_iff {logs : List SyncInfo} (hids : (logs.map logID).Nodup) :
    (WinnerFixed isReplaceOrigSyncInfo logs ↔ ∀ a ∈ logs, ∀ b ∈ logs, a.logID ≠ b.logID → ¬ Rivals lowerTerminal a b) ∧
      (WinnerFixed isReplaceOrigSyncPersonInfo logs ↔ ∀ a ∈ logs, ∀ b ∈ logs, a.logID ≠ b.logID → ¬ Rivals lowerDelete a b) :=
  ⟨PendingWinnerAux.winnerFixed_iff lowerTerminal_le hids, PendingWinnerAux.winnerFixed_iff lowerDelete_le hids⟩

namespace PendingWinnerWitness

def info (id : UInt8) (sec : Int64) (status : Status) : SyncInfo :=
  { logID := ByteArrayOf.replicate 40 id, updateTS := ⟨sec, 0⟩, updaterID := ByteArrayOf.replicate 40 0, status
    blockInfo := none, isGood := true, isAllGood := true }

end PendingWinnerWitness

open PendingWinnerWitness in
/-- An update and a deletion of an object that are both pending: the deletion is kept in either order. -/
theorem pendingWinner_iff_two :
    let logs := [info 1 10 .pending, info 2 20 .pendingDeleted]
    surviving isReplaceOrigSyncInfo logs.reverse = surviving isReplaceOrigSyncInfo logs := by
  intro logs
  have hids : (logs.map logID).Nodup := by decide
  refine ((pendingWinner_iff hids).1.2 ?_).survivor _ logs.reverse_perm
  have hlow : ∀ a ∈ logs, ¬ lowerTerminal a.statusClass < a.statusClass := by decide
  exact fun a ha b hb _ hrivals => hlow a ha hrivals.1

open PendingWinnerWitness in
/-- Two pending terminal logs on an entity replace each other, and so do two pending deletions of a person: the last one to arrive is
kept. -/
theorem last_to_arrive_is_kept :
    (surviving isReplaceOrigSyncInfo [info 1 10 .pendingTerminal, info 2 20 .pendingTerminal] = some (info 2 20 .pendingTerminal) ∧
      surviving isReplaceOrigSyncInfo [info 2 20 .pendingTerminal, info 1 10 .pendingTerminal] = some (info 1 10 .pendingTerminal)) ∧
    surviving isReplaceOrigSyncPersonInfo [info 1 10 .pendingDeleted, info 2 20 .pendingDeleted] = some (info 2 20 .pendingDeleted) ∧
      surviving isReplaceOrigSyncPersonInfo [info 2 20 .pendingDeleted, info 1 10 .pendingDeleted] =
        some (info 1 10 .pendingDeleted) := by
  decide +kernel

end PttaiCore
