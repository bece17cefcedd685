import PttaiCore.Theorems.Windows

/-! # How long a forced synchronisation takes -/

namespace PttaiCore

namespace SyncPeer

variable (m : Merkle) (db : KeyStore Bytes Value)

def forceSyncOplogAckLoop (offsetHourTS toTS : Timestamp) : Nat → Timestamp → AckState → Option (Nat × List SyncOplogAck)
  | 0, _, _ => none
  | fuel + 1, currentHourTS, s =>
    if currentHourTS.isLess toTS then
      let r := syncOplogAckCore m db s currentHourTS offsetHourTS toTS
      (forceSyncOplogAckLoop offsetHourTS toTS fuel (ackNextHourTS currentHourTS toTS) r.2).map fun q => (q.1 + 1, r.1 ++ q.2)
    else some (0, if s.nodes.isEmpty then [] else [⟨offsetHourTS, s.nodes, s.startHourTS, toTS, s.startHourTS, toTS⟩])

def handleForceSyncOplog (fuel : Nat) (fromTS toTS : Timestamp) : Option (Nat × List SyncOplogAck) :=
  let offsetHourTS := fromTS.toHRTimestamp.1
  forceSyncOplogAckLoop m db offsetHourTS toTS fuel offsetHourTS ⟨[], offsetHourTS⟩

end SyncPeer

def Timestamp.lastHour : Timestamp := ⟨9223372036854774000, 0⟩

namespace ForceSyncAux

open SyncPeer WindowsAux

variable {m : Merkle} {db : KeyStore Bytes Value} {offset cur toTS : Timestamp} {s : AckState}

theorem hour_le_lastHour (h : IsHourTS cur) : cur.ts.toInt ≤ 9223372036854774000 := by
  have hmod := h.2
  have hlt := cur.ts.toInt_lt
  omega

theorem order_lt_iff (h : IsHourTS cur) : cur.order < toTS.order ↔
    cur.ts.toInt < toTS.ts.toInt ∨ cur.ts.toInt = toTS.ts.toInt ∧ 0 < toTS.nanoTs.toNat := by
  have hn : cur.nanoTs.toNat = 0 := by rw [h.1]; rfl
  rw [Timestamp.order, Timestamp.order, Prod.Lex.lt_iff]
  simp only [ofLex_toLex, hn]

theorem lastHour_lt_iff : Timestamp.lastHour.order < toTS.order ↔
    9223372036854774000 < toTS.ts.toInt ∨ 9223372036854774000 = toTS.ts.toInt ∧ 0 < toTS.nanoTs.toNat :=
  order_lt_iff ⟨rfl, by decide⟩

theorem loop_succ (m : Merkle) (db : KeyStore Bytes Value) (offset : Timestamp) (s : AckState) (fuel : Nat) (h : cur.order < toTS.order) :
    ∃ s' l, forceSyncOplogAckLoop m db offset toTS (fuel + 1) cur s =
      (forceSyncOplogAckLoop m db offset toTS fuel (ackNextHourTS cur toTS) s').map fun q => (q.1 + 1, l ++ q.2) :=
  ⟨_, _, by rw [forceSyncOplogAckLoop, if_pos ((Timestamp.isLess_iff _ _).mpr h)]⟩

theorem loop_end (m : Merkle) (db : KeyStore Bytes Value) (offset : Timestamp) (s : AckState) (fuel : Nat)
    (h : ¬ cur.order < toTS.order) :
    ∃ l, forceSyncOplogAckLoop m db offset toTS (fuel + 1) cur s = some (0, l) :=
  ⟨_, by rw [forceSyncOplogAckLoop, if_neg fun hless => h ((Timestamp.isLess_iff _ _).mp hless)]⟩

theorem next_of_lt (hcur : IsHourTS cur) (hlast : cur.ts.toInt < 9223372036854774000) :
    IsHourTS cur.nextHourTS ∧ cur.nextHourTS.ts.toInt = cur.ts.toInt + 3600 := by
  have hmod := hcur.2
  exact ⟨isHourTS_nextHourTS (by omega) hcur, toInt_nextHourTS (by omega)⟩

theorem loop_ends (m : Merkle) (db : KeyStore Bytes Value) (offset : Timestamp) (s : AckState)
    (hto : ¬ Timestamp.lastHour.order < toTS.order) (k : Nat) (hcur : IsHourTS cur)
    (hk : toTS.ts.toInt - cur.ts.toInt < 3600 * k) :
    ∃ visits l, forceSyncOplogAckLoop m db offset toTS (k + 1) cur s = some (visits, l) ∧ visits ≤ k := by
  induction k generalizing cur s with
  | zero =>
    have hend : ¬ cur.order < toTS.order := by
      rw [order_lt_iff hcur]
      omega
    obtain ⟨l, heq⟩ := loop_end m db offset s 0 hend
    exact ⟨0, l, heq, le_rfl⟩
  | succ k ih =>
    by_cases hlt : cur.order < toTS.order
    · obtain ⟨s', l, heq⟩ := loop_succ m db offset s (k + 1) hlt
      rw [heq, ackNextHourTS]
      split_ifs with hclamp
      · obtain ⟨l', hend⟩ := loop_end m db offset s' k (lt_irrefl toTS.order)
        exact ⟨1, l ++ l', by rw [hend]; rfl, by omega⟩
      · rw [lastHour_lt_iff] at hto
        rw [order_lt_iff hcur] at hlt
        obtain ⟨hhour, hsec⟩ := next_of_lt hcur (by omega)
        obtain ⟨visits, l', hloop, hle⟩ := ih s' hhour (by push_cast at hk; omega)
        exact ⟨visits + 1, l ++ l', by rw [hloop]; rfl, by omega⟩
    · obtain ⟨l, heq⟩ := loop_end m db offset s (k + 1) hlt
      exact ⟨0, l, heq, by omega⟩

theorem nextHourTS_lastHour (hlast : cur.ts.toInt = 9223372036854774000) : cur.nextHourTS.ts.toInt < 0 := by
  have hts : cur.ts = 9223372036854774000 := Int64.toInt_inj.mp (hlast.trans (by decide))
  rw [Timestamp.nextHourTS, hts]
  change (9223372036854774000 + 3600 : Int64).toInt < 0
  decide

theorem loop_goes_on (hto : Timestamp.lastHour.order < toTS.order) (fuel : Nat) (hcur : IsHourTS cur) {visits : Nat} {l : List SyncOplogAck}
    (h : forceSyncOplogAckLoop m db offset toTS fuel cur s = some (visits, l)) :
    (9223372036854774000 - cur.ts.toInt) / 3600 + 2 ≤ visits := by
  induction fuel generalizing cur s visits l with
  | zero => cases h
  | succ fuel ih =>
    have hle := hour_le_lastHour hcur
    have hto' := lastHour_lt_iff.mp hto
    have hlt : cur.order < toTS.order := (order_lt_iff hcur).mpr (by omega)
    obtain ⟨s', l', heq⟩ := loop_succ m db offset s fuel hlt
    rw [heq, Option.map_eq_some_iff] at h
    obtain ⟨⟨v, w⟩, hloop, hv⟩ := h
    rw [← (Prod.mk.inj hv).1]
    have hnano : cur.nextHourTS.nanoTs = 0 := by rw [Timestamp.nextHourTS]; exact hcur.1
    -- no hour is after the time asked for
    have hclamp : ackNextHourTS cur toTS = cur.nextHourTS := by
      rw [ackNextHourTS, if_neg]
      rw [Timestamp.isLess_iff, Timestamp.order, Timestamp.order, Prod.Lex.lt_iff]
      simp only [ofLex_toLex, hnano]
      have hnext : cur.nextHourTS.ts.toInt ≤ 9223372036854774000 := by
        rcases hle.lt_or_eq with hlast | hlast
        · have := (next_of_lt hcur hlast)
          exact hour_le_lastHour this.1
        · have := nextHourTS_lastHour hlast
          omega
      have hz : (0 : UInt32).toNat = 0 := rfl
      omega
    rw [hclamp] at hloop
    rcases hle.lt_or_eq with hlast | hlast
    · obtain ⟨hhour, hsec⟩ := next_of_lt hcur hlast
      have := ih hhour hloop
      rw [hsec] at this
      push_cast
      omega
    · have hneg := nextHourTS_lastHour hlast
      have hv1 : 1 ≤ v := by
        cases fuel with
        | zero => cases hloop
        | succ fuel =>
          have hlt' : cur.nextHourTS.order < toTS.order := by
            rw [Timestamp.order, Timestamp.order, Prod.Lex.lt_iff]
            exact .inl (by simp only [ofLex_toLex]; omega)
          obtain ⟨s₂, l₂, heq₂⟩ := loop_succ m db offset s' fuel hlt'
          rw [heq₂, Option.map_eq_some_iff] at hloop
          obtain ⟨q, -, hq⟩ := hloop
          have := (Prod.mk.inj hq).1
          omega
      push_cast
      omega

end ForceSyncAux

open SyncPeer ForceSyncAux WindowsAux in
/-- A forced synchronisation ends after one hour more than lie between the hour of the first time and the second time, where the second
is not after the last hour that begins. -/
theorem handleForceSyncOplog_ends_iff (m : Merkle) (db : KeyStore Bytes Value) (fromTS toTS : Timestamp) :
    (∃ fuel visits sent, handleForceSyncOplog m db fuel fromTS toTS = some (visits, sent) ∧
      visits ≤ 1 + ((toTS.ts.toInt - fromTS.toHRTimestamp.1.ts.toInt) / 3600).toNat) ↔ toTS.isLessEqual .lastHour = true := by
  have hhour := isHourTS_toHRTimestamp fromTS
  rw [Timestamp.isLessEqual_iff, ← not_lt]
  constructor
  · rintro ⟨fuel, visits, sent, hrun, hle⟩ hto
    have hge := loop_goes_on hto fuel hhour hrun
    have hmod := hhour.2
    have hlt := toTS.ts.toInt_lt
    have hmax := hour_le_lastHour hhour
    generalize fromTS.toHRTimestamp.1.ts.toInt = h at *
    omega
  · intro hto
    obtain ⟨visits, sent, hrun, hle⟩ := loop_ends m db fromTS.toHRTimestamp.1 ⟨[], fromTS.toHRTimestamp.1⟩ hto
       (((toTS.ts.toInt - fromTS.toHRTimestamp.1.ts.toInt) / 3600).toNat + 1) hhour (by omega)
    exact ⟨((toTS.ts.toInt - fromTS.toHRTimestamp.1.ts.toInt) / 3600).toNat + 1 + 1, visits, sent, hrun, by omega⟩

def Timestamp.never : Timestamp := ⟨9223372036854775807, 1⟩

open SyncPeer in
/-- Asked for the hours until after the last second, the loop never ends: every hour is before that, the one after the last too. -/
theorem forceSync_never_ends :
    ¬ ∃ fuel r, handleForceSyncOplog JournalWitness.merkle KeyStore.empty fuel .zero .never = some r := by
  have hrun : ∀ fuel (cur : Timestamp) (s : AckState), cur.nanoTs = 0 →
      forceSyncOplogAckLoop JournalWitness.merkle KeyStore.empty .zero .never fuel cur s = none := by
    intro fuel
    induction fuel with
    | zero => exact fun _ _ _ => rfl
    | succ fuel ih =>
      intro cur s hnano
      have hbefore : ∀ t : Timestamp, t.nanoTs = 0 → t.order < Timestamp.never.order := by
        intro t ht
        have hlt := t.ts.toInt_lt
        have hmax : Timestamp.never.ts.toInt = 2 ^ 63 - 1 := by decide
        have hone : Timestamp.never.nanoTs.toNat = 1 := rfl
        have hz : t.nanoTs.toNat = 0 := by rw [ht]; rfl
        rw [Timestamp.order, Timestamp.order, Prod.Lex.lt_iff]
        simp only [ofLex_toLex]
        omega
      have hnext : ackNextHourTS cur .never = cur.nextHourTS := by
        rw [ackNextHourTS, if_neg]
        rw [Timestamp.isLess_iff]
        exact (hbefore _ (by rw [Timestamp.nextHourTS]; exact hnano)).le.not_gt
      rw [forceSyncOplogAckLoop, if_pos ((Timestamp.isLess_iff _ _).mpr (hbefore cur hnano)), hnext]
      dsimp only
      rw [ih _ _ (by rw [Timestamp.nextHourTS]; exact hnano)]
      rfl
  rintro ⟨fuel, r, h⟩
  cases h.symm.trans (hrun fuel _ _ rfl)

end PttaiCore
