import PttaiCore.Lemmas.PendingLogs
import PttaiCore.UpdateRuns

/-! # What the logs about an object keep covered -/

namespace PttaiCore

open Books

variable {δ : Type}

namespace UpdateTarget

variable (t : UpdateTarget)

/-! ## What is covered -/

def Covers (look : PttID → Option BaseOplog) (obj : Object δ) (ts : Timestamp) : Prop :=
  ts.order ≤ obj.updateTS.order ∨
    ∃ sync u, obj.syncInfo = some sync ∧ look sync.logID = some u ∧ t.Valid u ∧ ts.order ≤ u.updateTS.order

structure Inv (s : Books δ) : Prop where
  keyed (i : PttID) (o : BaseOplog) : s.logs.get i = some o → o.id = i
  /-- A deleted object has nothing that waits. -/
  closed (obj : Object δ) : s.objs.get t.id = some obj → .deleted ≤ obj.status → obj.status = .deleted ∧ obj.syncInfo = none
  covered (obj : Object δ) : s.objs.get t.id = some obj → ¬ .deleted ≤ obj.status →
    ∀ i o, s.logs.get i = some o → t.Valid o → o.isSync = true → t.Covers s.logs.get obj o.updateTS

def seen (l : BaseOplog) (s : Books δ) (i : PttID) : Option BaseOplog := if i = l.id then some l else s.logs.get i

def OpenAt (s : Books δ) (obj : Object δ) : Prop := s.objs.get t.id = some obj ∧ ¬ .deleted ≤ obj.status

def SyncedAt (s : Books δ) (i : PttID) (w : BaseOplog) : Prop := s.logs.get i = some w ∧ t.Valid w ∧ w.isSync = true

end UpdateTarget

namespace SyncedUpdatesAux

open UpdateTarget

variable {t : UpdateTarget} {s s' : Books δ} {obj obj' : Object δ} {o l u v w : BaseOplog} {ts : Timestamp} {i : PttID} {inp : UpdateInput}
  {sel r : Selected δ}

/-! ### Covering -/

theorem seen_self (l : BaseOplog) (s : Books δ) : seen l s l.id = some l := if_pos rfl

theorem seen_of_ne (h : i ≠ l.id) : seen l s i = s.logs.get i := if_neg h

theorem get_put_eq_seen (v : BaseOplog) (s : Books δ) (i : PttID) : (s.logs.put v.id v).get i = seen v s i := by
  rw [KeyStore.get_put, seen]
  split_ifs <;> rfl

theorem seen_congr (h : ∀ i, i ≠ l.id → s'.logs.get i = s.logs.get i) : seen l s' = seen l s := by
  funext i
  unfold seen
  split_ifs with hi
  · rfl
  · exact h i hi

theorem Covers.earlier {look : PttID → Option BaseOplog} {ts' : Timestamp} (h : t.Covers look obj ts) (hle : ts'.order ≤ ts.order) :
    t.Covers look obj ts' := by
  rcases h with h | ⟨sync, u, hsync, hu, hvalid, h⟩
  · exact .inl (hle.trans h)
  · exact .inr ⟨sync, u, hsync, hu, hvalid, hle.trans h⟩

theorem Covers.of_look {look look' : PttID → Option BaseOplog} (h : t.Covers look obj ts)
    (hlook : ∀ sync u, obj.syncInfo = some sync → look sync.logID = some u → t.Valid u →
      ∃ u', look' sync.logID = some u' ∧ t.Valid u' ∧ u.updateTS.order ≤ u'.updateTS.order) : t.Covers look' obj ts := by
  rcases h with h | ⟨sync, u, hsync, hu, hvalid, h⟩
  · exact .inl h
  · obtain ⟨u', hu', hvalid', hle⟩ := hlook sync u hsync hu hvalid
    exact .inr ⟨sync, u', hsync, hu', hvalid', h.trans hle⟩

theorem Covers.put (h : t.Covers s.logs.get obj ts) (hput : ∀ sync u, obj.syncInfo = some sync → sync.logID = v.id →
    s.logs.get v.id = some u → t.Valid u → t.Valid v ∧ u.updateTS.order ≤ v.updateTS.order) : t.Covers (seen v s) obj ts := by
  refine Covers.of_look h fun sync u hsync hu hu' => ?_
  by_cases hi : sync.logID = v.id
  · obtain ⟨hvalid, hle⟩ := hput sync u hsync hi (hi ▸ hu) hu'
    exact ⟨v, hi ▸ seen_self v s, hvalid, hle⟩
  · exact ⟨u, (seen_of_ne hi).trans hu, hu', le_refl _⟩

theorem Covers.le_of_noneWaits (h : t.Covers s.logs.get obj ts) (hnone : t.NoneWaits obj s) : ts.order ≤ obj.updateTS.order := by
  rcases h with h | ⟨sync, u, hsync, hu, hvalid, -⟩
  · exact h
  · exact absurd hvalid (hnone sync u hsync hu)

theorem Covers.le_of_le {look : PttID → Option BaseOplog} (h : t.Covers look obj ts) (hobj : obj.updateTS.order ≤ l.updateTS.order)
    (hwaiting : ∀ sync u, obj.syncInfo = some sync → look sync.logID = some u → t.Valid u → u.updateTS.order ≤ l.updateTS.order) :
    ts.order ≤ l.updateTS.order := by
  rcases h with h | ⟨sync, u, hsync, hu, hvalid, h⟩
  · exact h.trans hobj
  · exact h.trans (hwaiting sync u hsync hu hvalid)

theorem covers_of_taken (hvalid : t.Valid l) (htaken : Taken l obj obj') (hle : ts.order ≤ l.updateTS.order) :
    t.Covers (seen l s) obj' ts := by
  rcases htaken with ⟨-, hts, -, -⟩ | ⟨-, -, sync, hsync, hid⟩
  · exact .inl (hts ▸ hle)
  · exact .inr ⟨sync, l, hsync, hid ▸ seen_self l s, hvalid, hle⟩

theorem updates_of_content (hv : v.blankSigns = o.blankSigns) (h : t.Updates o) : t.Updates v :=
  ⟨(BaseOplog.op_eq_of_content hv).trans h.1, (BaseOplog.objID_eq_of_content hv).trans h.2⟩

/-! ### The object -/

theorem openAt_congr (h : s'.objs = s.objs) : t.OpenAt s' obj ↔ t.OpenAt s obj := by
  unfold OpenAt
  rw [h]

theorem openAt_saveObj (h : ¬ .deleted ≤ obj.status) : t.OpenAt (s.saveObj t.id obj) obj :=
  ⟨(KeyStore.get_put _ _ _ _).trans (if_pos rfl), h⟩

theorem taken_open (htaken : Taken l obj obj') (hopen : ¬ .deleted ≤ obj.status) : ¬ .deleted ≤ obj'.status := by
  rcases htaken with ⟨-, -, hstatus, -⟩ | ⟨-, hstatus, -⟩
  · rw [hstatus]
    decide
  · rw [hstatus]
    exact hopen

theorem Inv.covers (h : t.Inv s) (hobj : t.OpenAt s obj) (hw : t.SyncedAt s i w) : t.Covers s.logs.get obj w.updateTS :=
  h.covered obj hobj.1 hobj.2 i w hw.1 hw.2.1 hw.2.2

theorem inv_of_open (hkeyed : s.LogsKeyed) (hobj : t.OpenAt s obj)
    (hcovers : ∀ i w, t.SyncedAt s i w → t.Covers s.logs.get obj w.updateTS) : t.Inv s := by
  refine ⟨hkeyed, fun obj₂ h₂ hdel => ?_, fun obj₂ h₂ _ i w hw hvalid hs => ?_⟩ <;> cases hobj.1.symm.trans h₂
  · exact absurd hdel hobj.2
  · exact hcovers i w ⟨hw, hvalid, hs⟩

/-! ### Saving a log -/

theorem keyed_put (h : s.LogsKeyed) (v : BaseOplog) : ({ s with logs := s.logs.put v.id v } : Books δ).LogsKeyed := by
  intro i o ho
  rw [KeyStore.get_put] at ho
  split_ifs at ho with hi
  · cases ho
    exact hi.symm
  · exact h i o ho

theorem inv_put_of_open (hkeyed : s.LogsKeyed) (hobj : t.OpenAt s obj)
    (hothers : ∀ i w, i ≠ v.id → t.SyncedAt s i w → t.Covers (seen v s) obj w.updateTS)
    (hown : t.Valid v → v.isSync = true → t.Covers (seen v s) obj v.updateTS) : t.Inv { s with logs := s.logs.put v.id v } := by
  refine inv_of_open (keyed_put hkeyed v) hobj fun i w ⟨hw, hvalid, hs⟩ => ?_
  rw [funext (get_put_eq_seen v s)]
  rw [get_put_eq_seen, seen] at hw
  split_ifs at hw with hi
  · cases hw
    exact hown hvalid hs
  · exact hothers i w hi ⟨hw, hvalid, hs⟩

theorem Inv.put (h : t.Inv s) (hput : ∀ obj sync u, t.OpenAt s obj → obj.syncInfo = some sync → sync.logID = v.id →
      s.logs.get v.id = some u → t.Valid u → t.Valid v ∧ u.updateTS.order ≤ v.updateTS.order)
    (hown : ∀ obj, t.OpenAt s obj → t.Valid v → v.isSync = true → t.Covers (seen v s) obj v.updateTS) :
    t.Inv { s with logs := s.logs.put v.id v } := by
  by_cases hopen : ∃ obj, t.OpenAt s obj
  · obtain ⟨obj, hobj⟩ := hopen
    exact inv_put_of_open h.keyed hobj (fun i w _ hw => Covers.put (Inv.covers h hobj hw) fun sync u => hput obj sync u hobj) (hown obj hobj)
  · exact ⟨keyed_put h.keyed v, h.closed, fun obj hobj hop => absurd ⟨obj, hobj, hop⟩ hopen⟩

theorem inv_saveLog_closed (h : t.Inv s) (hclosed : ∀ obj, ¬ t.OpenAt s obj) (o : BaseOplog) : t.Inv (s.saveLog o).2 := by
  rcases saveLog_cases s o with ⟨heq, -⟩ | ⟨heq, -⟩ <;> rw [heq]
  · exact h
  · exact Inv.put h (v := o.notNewer) (fun obj _ _ hobj => absurd hobj (hclosed obj)) fun obj hobj => absurd hobj (hclosed obj)

theorem Covers.of_version (h : t.Covers (seen l s) obj ts) (hid : v.id = l.id) (hvalid : t.Valid l → t.Valid v)
    (hts : v.updateTS = l.updateTS) : t.Covers (seen v s) obj ts := by
  refine Covers.of_look h fun sync u _ hu hu' => ?_
  by_cases hi : sync.logID = l.id
  · rw [hi, seen_self] at hu
    cases hu
    exact ⟨v, by rw [hi, ← hid, seen_self], hvalid hu', hts ▸ le_refl _⟩
  · rw [seen_of_ne hi] at hu
    exact ⟨u, by rw [seen_of_ne (hid ▸ hi), hu], hu', le_refl _⟩

theorem inv_saveLog_alive {b : Bool} (hvalid : t.Valid l) (hkeyed : s.LogsKeyed) (hobj : t.OpenAt s obj)
    (hothers : ∀ i w, i ≠ l.id → t.SyncedAt s i w → t.Covers (seen l s) obj w.updateTS)
    (hown : b = true → t.Covers (seen l s) obj l.updateTS) : t.Inv (s.saveLog { l with isSync := b }).2 := by
  rw [saveLog_of_alive (s := s) (o := { l with isSync := b }) hvalid.2]
  refine inv_put_of_open (v := ({ l with isSync := b } : BaseOplog).notNewer) hkeyed hobj (fun i w hi hw => ?_) fun _ hsync => ?_
  · exact Covers.of_version (hothers i w hi hw) rfl (fun _ => hvalid) rfl
  · exact Covers.of_version (hown hsync) rfl (fun _ => hvalid) rfl

theorem inv_saveLog_pending (h : t.Inv s) (hne : o.toStatus ≠ .alive) : t.Inv (s.saveLog o).2 := by
  rcases saveLog_cases s o with ⟨heq, -⟩ | ⟨heq, hpending⟩ <;> rw [heq]
  · exact h
  · exact Inv.put h (v := o.notNewer) (fun _ _ u _ _ _ hu hu' => absurd hu'.2 (hpending hne u hu)) fun _ _ hvalid => absurd hvalid.2 hne

theorem inv_saveLog_other (h : t.Inv s) (hother : ¬ t.Updates o) (hstored : ∀ v, s.logs.get o.id = some v → ¬ t.Valid v) :
    t.Inv (s.saveLog o).2 := by
  rcases saveLog_cases s o with ⟨heq, -⟩ | ⟨heq, -⟩ <;> rw [heq]
  · exact h
  · exact Inv.put h (v := o.notNewer) (fun _ _ u _ _ _ hu hu' => absurd hu' (hstored u hu)) fun _ _ hvalid => absurd hvalid.1 hother

/-! ### Valid updating logs -/

theorem keyed_of_kept {b : Bool} (hkeyed : s.LogsKeyed) (hkept : LogsKept b l s s') : s'.LogsKeyed := by
  intro i o h
  obtain ⟨o₀, hget, rfl | ⟨-, rfl, -⟩⟩ := hkept.kept i o h
  · exact hkeyed i o hget
  · exact hkeyed i o₀ hget

theorem handleUpdateObjectCore_of_closed (b : Bool) (inp : UpdateInput) (hobj : l.objID = some t.id) (hclosed : ∀ obj, ¬ t.OpenAt s obj) :
    handleUpdateObjectCore b inp l s = (some .newerOplog, l, s) := by
  unfold handleUpdateObjectCore
  rw [hobj]
  dsimp only
  cases hget : s.objs.get t.id with
  | none => rfl
  | some obj =>
    dsimp only
    rw [if_pos (not_not.1 fun hopen => hclosed obj ⟨hget, hopen⟩)]

theorem update_taken (inp : UpdateInput) (hkeyed : s.LogsKeyed) (hobj : t.OpenAt s obj) (hvalid : t.Valid l)
    (hlast : obj.updateLogID ≠ some l.id) (hcovered : ∀ i w, i ≠ l.id → t.SyncedAt s i w → t.Covers (seen l s) obj w.updateTS)
    (hwaiting : ∀ sync u, obj.syncInfo = some sync → sync.logID ≠ l.id → s.logs.get sync.logID = some u → t.Valid u →
      obj.updateTS.order ≤ l.updateTS.order → u.updateTS.order ≤ l.updateTS.order) :
    (∃ e, handleUpdateObjectCore true inp l s = (some e, l, s) ∧ UpdateRefused inp l obj s e) ∨
      ∃ m s' obj', handleUpdateObjectCore true inp l s = (none, { l with isSync := m }, s') ∧ s'.LogsKeyed ∧
        s'.logs.get l.id = s.logs.get l.id ∧ t.OpenAt s' obj' ∧
        (∀ ts : Timestamp, ts.order ≤ l.updateTS.order → t.Covers (seen l s') obj' ts) ∧
        ∀ i w, i ≠ l.id → t.SyncedAt s' i w → w.updateTS.order ≤ l.updateTS.order := by
  rcases handleUpdateObjectCore_cases true inp hvalid.1.2 hobj.1 hobj.2 hlast hkeyed with h | ⟨hold, s', obj', l', hr, hkept, htaken, m, rfl, -⟩
  · exact .inl h
  · have hle : obj.updateTS.order ≤ l.updateTS.order := (Timestamp.isLess_eq_false_iff _ _).1 hold
    refine .inr ⟨m, s'.saveObj t.id obj', obj', hr, fun i o => keyed_of_kept hkeyed hkept i o, hkept.own, openAt_saveObj (taken_open htaken hobj.2),
      fun ts hts => covers_of_taken hvalid htaken hts, fun i w hi ⟨hw, hw', hs⟩ => ?_⟩
    obtain ⟨w₀, hw₀, rfl | ⟨-, rfl, hless⟩⟩ := hkept.kept i w hw
    · refine Covers.le_of_le (hcovered i w hi ⟨hw₀, hw', hs⟩) hle fun sync u hsync hu hu' => ?_
      by_cases hown : sync.logID = l.id
      · rw [hown, seen_self] at hu
        cases hu
        exact le_refl _
      · exact hwaiting sync u hsync hown ((seen_of_ne hown).symm.trans hu) hu' hle
    · exact le_of_lt ((Timestamp.isLess_iff _ _).1 hless)

theorem get_selected_of_ne (hchosen : Chosen s o sel) (hi : i ≠ o.id) : sel.books.logs.get i = s.logs.get i := by
  rcases hchosen.stored with hbooks | ⟨orig, v, -, hbooks, -⟩ <;> rw [hbooks]
  exact (KeyStore.get_put _ _ _ _).trans (if_neg hi)

theorem keyed_selected (h : t.Inv s) (hchosen : Chosen s o sel) : sel.books.LogsKeyed := by
  rcases hchosen.stored with hbooks | ⟨orig, v, -, hbooks, hcontent, -⟩ <;> rw [hbooks]
  · exact h.keyed
  · rw [← BaseOplog.id_eq_of_content hcontent]
    exact keyed_put h.keyed v

theorem covers_selected (hchosen : Chosen s o sel) (hlegal : t.Updates o) (hfits : t.FitsUpdate inp o obj s)
    (h : t.Covers s.logs.get obj ts) : t.Covers (seen sel.oplog sel.books) obj ts := by
  have hid : sel.oplog.id = o.id := BaseOplog.id_eq_of_content hchosen.content
  rw [seen_congr fun i hi => get_selected_of_ne hchosen (hid ▸ hi)]
  refine Covers.put h fun sync u hsync hi hu hu' => ⟨⟨updates_of_content hchosen.content hlegal, hchosen.alive⟩, ?_⟩
  obtain ⟨hle, hle'⟩ := hfits.waiting sync u hsync (hi ▸ hu) hu' (.inl (hi.trans hid))
  rcases hchosen.time with hts | ⟨orig, hget, horig, hts, -⟩ <;> rw [hts]
  · exact hle
  · exact hle' orig hget horig

theorem inv_selected (h : t.Inv s) (hchosen : Chosen s o sel) (hfits : ∀ obj, t.OpenAt s obj → t.FitsUpdate inp o obj s)
    (hlegal : t.LegalUpdate s inp o)
    (hown : ∀ obj orig, t.OpenAt s obj → sel.books ≠ s → s.logs.get o.id = some orig → orig.isSync = true → orig.toStatus ≠ .alive →
      o.updateTS.order ≤ obj.updateTS.order) : t.Inv sel.books := by
  by_cases hsame : sel.books = s
  · rw [hsame]
    exact h
  obtain ⟨orig, v, hget, hbooks, hcontent, halive, hts, hsync, -, hle⟩ := hchosen.stored.resolve_left hsame
  have hid : v.id = o.id := BaseOplog.id_eq_of_content hcontent
  have hvalid : t.Valid v := ⟨updates_of_content hcontent hlegal.1, halive⟩
  -- what the stored version covers, the new one covers
  have hput : ∀ obj sync u, t.OpenAt s obj → obj.syncInfo = some sync → sync.logID = v.id → s.logs.get v.id = some u → t.Valid u →
      t.Valid v ∧ u.updateTS.order ≤ v.updateTS.order := by
    intro obj sync u hobj hsync hi hu hu'
    rw [hts]
    exact ⟨hvalid, ((hfits obj hobj).waiting sync u hsync (hi ▸ hu) hu' (.inl (hi.trans hid))).1⟩
  rw [hbooks, ← hid]
  refine Inv.put h hput fun obj hobj _ hs => ?_
  rw [hsync] at hs
  rw [hts]
  by_cases horig : orig.toStatus = .alive
  · have hcovers := Inv.covers h hobj ⟨hget, ⟨hlegal.2.2.2.2.2 orig hget, horig⟩, hs⟩
    exact Covers.earlier (Covers.put hcovers fun sync u => hput obj sync u hobj) (hle horig)
  · exact .inl (hown obj orig hobj hsame hget hs horig)

theorem newer_le (hchosen : Chosen s o sel) (hlegal : t.LegalUpdate s inp o) (hfits : t.FitsUpdate inp o obj s)
    (hrefused : UpdateRefused inp sel.oplog obj sel.books .newerOplog) : sel.oplog.updateTS.order ≤ obj.updateTS.order := by
  obtain ⟨-, -, hnewer, hdata, hcontent, -⟩ := hlegal
  rcases hrefused.newer rfl with h | h | ⟨sync, hsync, h⟩ | h | h
  · exact le_of_lt ((Timestamp.isLess_iff _ _).1 h)
  · rw [hchosen.isNewer, hnewer] at h
    cases h
  · have hle : o.updateTS.order ≤ obj.updateTS.order :=
      (hfits.deleting sync hsync).resolve_left (not_lt_alive_of_not_replaced hchosen.alive h)
    rcases hchosen.time with hts | ⟨orig, -, -, hts, hle', -⟩ <;> rw [hts]
    · exact hle
    · exact hle'.trans hle
  · exact absurd h hdata
  · exact absurd h hcontent

theorem inv_processed (h : t.Inv s) (hchosen : Chosen s o sel) (hobjs : sel.books.objs = s.objs) (hunsynced : ¬ s.Synced o.id)
    (hlegal : t.LegalUpdate s inp o) (hfits : ∀ obj, t.OpenAt s obj → t.FitsUpdate inp o obj s) {err : Option Err} {l' : BaseOplog}
    (hf : handleUpdateObjectCore true inp sel.oplog sel.books = (err, l', s')) (b : Bool) :
    (err = some .newerOplog → t.Inv (s'.saveLog { l' with isSync := true }).2) ∧
      (∀ e, err = some e → e ≠ .newerOplog → t.Inv s') ∧
      (err = none → t.Inv (s'.saveLog { l' with isSync := l'.isSync || b }).2) := by
  have hid : sel.oplog.id = o.id := BaseOplog.id_eq_of_content hchosen.content
  have hvalid : t.Valid sel.oplog := ⟨updates_of_content hchosen.content hlegal.1, hchosen.alive⟩
  have hkeyed := keyed_selected h hchosen
  by_cases hopen : ∃ obj, t.OpenAt s obj
  · obtain ⟨obj, hobj⟩ := hopen
    have hfit := hfits obj hobj
    have hobj' : t.OpenAt sel.books obj := (openAt_congr hobjs).2 hobj
    have hcovered : ∀ i w, i ≠ sel.oplog.id → t.SyncedAt sel.books i w → t.Covers (seen sel.oplog sel.books) obj w.updateTS := by
      intro i w hi hw
      rw [SyncedAt, get_selected_of_ne hchosen (hid ▸ hi)] at hw
      exact covers_selected hchosen hlegal.1 hfit (Inv.covers h hobj hw)
    have hwaiting : ∀ sync u, obj.syncInfo = some sync → sync.logID ≠ sel.oplog.id → sel.books.logs.get sync.logID = some u → t.Valid u →
        obj.updateTS.order ≤ sel.oplog.updateTS.order → u.updateTS.order ≤ sel.oplog.updateTS.order := by
      intro sync u hsync hi hu hu' hle
      rw [get_selected_of_ne hchosen (hid ▸ hi)] at hu
      rcases hchosen.time with hts | ⟨orig, horig, horig', hts, hle', -⟩ <;> rw [hts] at hle ⊢
      · exact (hfit.waiting sync u hsync hu hu' (.inr hle)).1
      · exact (hfit.waiting sync u hsync hu hu' (.inr (hle.trans hle'))).2 orig horig horig'
    have hlast : obj.updateLogID ≠ some sel.oplog.id := fun hl => hunsynced (hfit.last (hid ▸ hl))
    rcases update_taken inp hkeyed hobj' hvalid hlast hcovered hwaiting with ⟨e, hr, hrefused⟩ |
        ⟨m, s'', obj', hr, hkeyed', -, hobj'', hcovers, hle⟩ <;> rw [hr] at hf <;> cases hf
    · refine ⟨fun he => ?_, fun e' he' hne => ?_, fun h => by cases h⟩
      · cases he
        exact inv_saveLog_alive hvalid hkeyed hobj' hcovered fun _ => .inl (newer_le hchosen hlegal hfit hrefused)
      · cases he'
        refine inv_selected h hchosen hfits hlegal fun obj' orig hobj' hnew horig hs hpending => ?_
        cases hobj.1.symm.trans hobj'.1
        -- a log that is newer than the object would have been processed
        by_contra hlt
        obtain ⟨hpre, hdata, hcontent, hmissing⟩ := hfit.readable orig horig hpending hs (not_le.1 hlt)
        obtain ⟨sync, hsync, hnone⟩ := hrefused.other hne ((BaseOplog.preLogID_eq_of_content hchosen.content).symm ▸ hpre) hdata hcontent
        by_cases hi : sync.logID = o.id
        · obtain ⟨orig', v, -, hbooks, -⟩ := hchosen.stored.resolve_left hnew
          rw [hbooks, hi] at hnone
          rw [KeyStore.get_put, if_pos rfl] at hnone
          cases hnone
        · rw [get_selected_of_ne hchosen hi] at hnone
          exact hmissing sync hsync hnone
    · refine ⟨fun h => (by cases h), fun e he => (by cases he), fun _ => ?_⟩
      exact inv_saveLog_alive (l := sel.oplog) hvalid hkeyed' hobj'' (fun i w hi hw => hcovers _ (hle i w hi hw)) fun _ => hcovers _ (le_refl _)
  · have hclosed : ∀ obj, ¬ t.OpenAt sel.books obj := fun obj hobj => hopen ⟨obj, (openAt_congr hobjs).1 hobj⟩
    rw [handleUpdateObjectCore_of_closed true inp hvalid.1.2 hclosed] at hf
    cases hf
    refine ⟨fun _ => ?_, fun e he hne => absurd (Option.some.inj he).symm hne, fun h => by cases h⟩
    exact inv_saveLog_closed (inv_selected h hchosen hfits hlegal fun obj _ hobj => absurd ⟨obj, hobj⟩ hopen) hclosed _

theorem inv_updateLog (h : t.Inv s) (hlegal : t.LegalUpdate s inp o) (halive : o.toStatus = .alive)
    (hfits : ∀ obj, t.OpenAt s obj → t.FitsUpdate inp o obj s) : t.Inv (s.handleOplog (handleUpdateObjectCore true inp) o).2 := by
  have hchosen := selectExisting_chosen s halive hlegal.2.1
  obtain ⟨b, b', hresult, -⟩ := hchosen.result
  cases hsync : (s.selectExisting o).oplog.isSync with
  | true =>
    -- the stored version is valid and synced
    rw [handleOplog_books_of_isSync hresult hsync]
    refine inv_selected h hchosen hfits hlegal fun obj orig _ _ hget _ hne => ?_
    exact absurd (hchosen.isSync.1 hsync) (not_synced_of_ne_alive hget hne)
  | false =>
    have hunsynced : ¬ s.Synced o.id := fun hs => by
      rw [hchosen.isSync.2 hs] at hsync
      cases hsync
    rcases hf : handleUpdateObjectCore true inp (s.selectExisting o).oplog (s.selectExisting o).books with ⟨err, l', s'⟩
    obtain ⟨hnewer, hother, hnone⟩ := handleOplog_books hresult hsync hf
    obtain ⟨hnewer', hother', hnone'⟩ := inv_processed h hchosen (selectExisting_objs s o) hunsynced hlegal hfits hf b
    cases herr : err with
    | none =>
      rw [hnone herr]
      exact hnone' herr
    | some e =>
      by_cases he : e = .newerOplog
      · rw [hnewer (he ▸ herr)]
        exact hnewer' (he ▸ herr)
      · rw [hother e herr he]
        exact hother' e herr he

/-! ### Pending updating logs -/

theorem get_integrated_of_ne (hint : OplogIntegrated s o r) (hi : i ≠ o.id) : r.books.logs.get i = s.logs.get i := by
  rcases hint.stored with hbooks | ⟨orig, w, -, -, hbooks, -⟩ <;> rw [hbooks]
  exact (KeyStore.get_put _ _ _ _).trans (if_neg hi)

theorem objs_integrated (hint : OplogIntegrated s o r) : r.books.objs = s.objs := by
  rcases hint.stored with hbooks | ⟨orig, w, -, -, hbooks, -⟩ <;> rw [hbooks]

theorem stored_integrated (hint : OplogIntegrated s o r) (halive : r.oplog.toStatus = .alive) :
    ∃ v, r.books.logs.get o.id = some v ∧ v.toStatus = .alive ∧ v.updateTS = r.oplog.updateTS ∧
      (v.blankSigns = o.blankSigns ∨ s.logs.get o.id = some v) := by
  rcases hint.stored with hbooks | ⟨orig, w, -, -, hbooks, hcontent, hstatus, hts, -⟩
  · obtain ⟨orig, hget, horig, hts, -⟩ := hint.alive halive hbooks
    exact ⟨orig, by rw [hbooks, hget], horig, hts.symm, Or.inr hget⟩
  · refine ⟨w, ?_, hstatus.trans halive, hts, .inl hcontent⟩
    rw [hbooks]
    exact (KeyStore.get_put _ _ _ _).trans (if_pos rfl)

theorem inv_integrated (h : t.Inv s) (hint : OplogIntegrated s o r)
    (hpending : ∀ obj orig, t.OpenAt s obj → t.Updates o → s.logs.get o.id = some orig → orig.toStatus ≠ .alive → orig.isSync = true →
      r.oplog.toStatus ≠ .alive) : t.Inv r.books := by
  rcases hint.stored with hbooks | ⟨orig, w, hget, horig, hbooks, hcontent, hstatus, -, hsync⟩
  · rw [hbooks]
    exact h
  · have hid : w.id = o.id := BaseOplog.id_eq_of_content hcontent
    rw [hbooks, ← hid]
    refine Inv.put h (fun obj sync u _ _ _ hu hu' => ?_) fun obj hobj hvalid hs => ?_
    · -- the version that has been replaced was not valid
      rw [hid, hget] at hu
      cases hu
      exact absurd hu'.2 horig
    · exact absurd (hstatus.symm.trans hvalid.2)
        (hpending obj orig hobj (updates_of_content hcontent.symm hvalid.1) hget horig (hsync hs))

theorem inv_pendingUpdate (h : t.Inv s) (hupdates : t.Updates l) (hne : l.toStatus ≠ .alive)
    (hlast : ∀ obj, t.OpenAt s obj → obj.updateLogID ≠ some l.id)
    (hwaiting : ∀ obj sync u, t.OpenAt s obj → obj.syncInfo = some sync → sync.logID ≠ l.id → s.logs.get sync.logID = some u →
      ¬ t.Valid u) :
    t.Inv (handleUpdateObjectCore false inp l s).2.2 ∧ (handleUpdateObjectCore false inp l s).2.1 = l := by
  by_cases hopen : ∃ obj, t.OpenAt s obj
  · obtain ⟨obj, hobj⟩ := hopen
    rcases handleUpdateObjectCore_cases false inp hupdates.2 hobj.1 hobj.2 (hlast obj hobj) h.keyed with
      ⟨e, hr, -⟩ | ⟨-, s', obj', l', hr, hkept, htaken, m, rfl, hm⟩ <;> rw [hr]
    · exact ⟨h, rfl⟩
    · refine ⟨?_, by rw [hm hne]⟩
      have hobj' : t.OpenAt (s'.saveObj t.id obj') obj' := openAt_saveObj (taken_open htaken hobj.2)
      obtain ⟨hts, -, sync, hsync, hid⟩ := htaken.resolve_left fun h => hne h.1
      refine inv_of_open (fun i o => keyed_of_kept h.keyed hkept i o) hobj' fun i w ⟨hw, hvalid, hs⟩ => ?_
      obtain ⟨w₀, hw₀, rfl | ⟨hfalse, -⟩⟩ := hkept.kept i w hw
      · rcases Inv.covers h hobj ⟨hw₀, hvalid, hs⟩ with hle | ⟨sync₀, u, hsync₀, hu, hu', hle⟩
        · exact .inl (hts ▸ hle)
        · -- the log that waits is a valid version of this one
          have hown : sync₀.logID = l.id := not_not.1 fun hi => hwaiting obj sync₀ u hobj hsync₀ hi hu hu'
          refine .inr ⟨sync, u, hsync, ?_, hu', hle⟩
          rw [hid]
          exact hkept.own.trans (hown ▸ hu)
      · cases hfalse
  · rw [handleUpdateObjectCore_of_closed false inp hupdates.2 fun obj hobj => hopen ⟨obj, hobj⟩]
    exact ⟨h, rfl⟩

theorem inv_integratedUpdate (hint : OplogIntegrated s o r) (hinv : t.Inv r.books) (hupdates : t.Updates o)
    (hstored : ∀ v, s.logs.get o.id = some v → t.Updates v) (halive : r.oplog.toStatus = .alive)
    (hlast : ∀ obj, t.OpenAt s obj → obj.updateLogID ≠ some o.id)
    (hwaiting : ∀ obj sync u, t.OpenAt s obj → obj.syncInfo = some sync → sync.logID ≠ o.id → s.logs.get sync.logID = some u →
      ¬ t.Valid u) : t.Inv (handleUpdateObjectCore true inp r.oplog r.books).2.2 := by
  have hid : r.oplog.id = o.id := BaseOplog.id_eq_of_content hint.content
  have hobjs := objs_integrated hint
  have hvalid : t.Valid r.oplog := ⟨updates_of_content hint.content hupdates, halive⟩
  by_cases hopen : ∃ obj, t.OpenAt s obj
  · obtain ⟨obj, hobj⟩ := hopen
    have hobj' : t.OpenAt r.books obj := (openAt_congr hobjs).2 hobj
    obtain ⟨v, hv, hvalive, hvts, hvsame⟩ := stored_integrated hint halive
    have hvvalid : t.Valid v := ⟨hvsame.elim (fun hc => updates_of_content hc hupdates) (hstored v), hvalive⟩
    have hcovered : ∀ i w, i ≠ r.oplog.id → t.SyncedAt r.books i w → t.Covers (seen r.oplog r.books) obj w.updateTS := by
      intro i w _ hw
      refine Covers.put (Inv.covers hinv hobj' hw) fun sync u _ _ hu _ => ⟨hvalid, ?_⟩
      rw [hid, hv] at hu
      cases hu
      rw [hvts]
    rcases update_taken inp hinv.keyed hobj' hvalid (hid ▸ hlast obj hobj) hcovered fun sync u hsync hi hu hu' _ =>
        absurd hu' (hwaiting obj sync u hobj hsync (hid ▸ hi) (get_integrated_of_ne hint (hid ▸ hi) ▸ hu)) with ⟨e, hr, -⟩ |
        ⟨m, s', obj', hr, hkeyed', hown, hobj'', hcovers, hle⟩ <;> rw [hr]
    · exact hinv
    · refine inv_of_open hkeyed' hobj'' fun i w hw => ?_
      have hv' : s'.logs.get r.oplog.id = some v := by rw [hown, hid, hv]
      have hwle : w.updateTS.order ≤ r.oplog.updateTS.order := by
        by_cases hi : i = r.oplog.id
        · cases hv'.symm.trans (hi ▸ hw.1)
          rw [hvts]
        · exact hle i w hi hw
      refine Covers.of_look (hcovers _ hwle) fun sync u _ hu hu' => ?_
      by_cases hi : sync.logID = r.oplog.id
      · rw [hi, seen_self] at hu
        cases hu
        exact ⟨v, hi ▸ hv', hvvalid, hvts ▸ le_refl _⟩
      · exact ⟨u, (seen_of_ne hi).symm.trans hu, hu', le_refl _⟩
  · rw [handleUpdateObjectCore_of_closed true inp hvalid.1.2 fun obj hobj => hopen ⟨obj, (openAt_congr hobjs).1 hobj⟩]
    exact hinv

theorem inv_pendingUpdateLog {Γ : Ctx} {signer : PendingSigner} {now : Timestamp} (h : t.Inv s) (hlegal : t.LegalUpdate s inp o)
    (hne : o.toStatus ≠ .alive) (hfits : ∀ obj, t.OpenAt s obj → t.FitsPendingUpdate Γ signer now o obj s) :
    t.Inv (s.handlePendingOplog Γ signer now (handlePendingUpdateObjectLog inp) (handleUpdateObjectCore true inp) o).2 := by
  have hint := integrateOplog_integrated s Γ signer now hne hlegal.2.1
  have hnewSign : ∀ b, (s.integrateOplog Γ signer now o).result = .ok (b, true) → _ := fun b => integrateOplog_newSign hne hlegal.2.1
  have hpending := fun obj hobj => (hfits obj hobj).pending
  generalize hr : s.integrateOplog Γ signer now o = r at hint hnewSign hpending
  have hid : r.oplog.id = o.id := BaseOplog.id_eq_of_content hint.content
  have hobjs := fun obj => (openAt_congr (objs_integrated hint) : t.OpenAt r.books obj ↔ t.OpenAt s obj)
  have hinv := inv_integrated h hint fun obj orig hobj _ => hpending obj hobj orig
  cases hsync : r.oplog.isSync with
  | true =>
    rcases handlePendingOplog_books_of_isSync hr hsync with heq | ⟨⟨b, hnew⟩, heq⟩ <;> rw [heq]
    · exact hinv
    · obtain ⟨orig, hget, horig⟩ := hnewSign b hnew
      obtain ⟨orig', hget', hs⟩ := hint.isSync hsync
      cases hget.symm.trans hget'
      by_cases halive : r.oplog.toStatus = .alive
      · -- only the logs of an object that is not open can have become valid
        exact inv_saveLog_closed hinv (fun obj hobj => hpending obj ((hobjs obj).1 hobj) orig hget horig hs halive) _
      · exact inv_saveLog_pending hinv halive
  | false =>
    have hlast : ∀ obj, t.OpenAt s obj → obj.updateLogID ≠ some o.id := by
      intro obj hobj hl
      rw [hint.synced ((hfits obj hobj).last hl)] at hsync
      cases hsync
    have hwaiting := fun obj sync u hobj => (hfits obj hobj).waiting sync u
    by_cases halive : r.oplog.toStatus = .alive
    · rcases handlePendingOplog_books_of_alive hr hsync halive with heq | heq <;> rw [heq]
      · exact hinv
      · exact inv_integratedUpdate hint hinv hlegal.1 hlegal.2.2.2.2.2 halive hlast hwaiting
    · obtain ⟨hprocessed, hsame⟩ : t.Inv (handleUpdateObjectCore false inp r.oplog r.books).2.2 ∧
          (handleUpdateObjectCore false inp r.oplog r.books).2.1 = r.oplog := by
        refine inv_pendingUpdate hinv (updates_of_content hint.content hlegal.1) halive (fun obj hobj => ?_) fun obj sync u hobj hsync' hi hu => ?_
        · rw [hid]
          exact hlast obj ((hobjs obj).1 hobj)
        · rw [hid] at hi
          rw [get_integrated_of_ne hint hi] at hu
          exact hwaiting obj sync u ((hobjs obj).1 hobj) hsync' hi hu
      rcases handlePendingOplog_books_of_pending (g := handlePendingUpdateObjectLog inp) (f := handleUpdateObjectCore true inp) hr hsync halive
        with heq | heq | ⟨b, isToSign, l', s', hg, m, hm, heq⟩ <;> rw [heq]
      · exact hinv
      · exact hprocessed
      · simp only [handlePendingUpdateObjectLog, Prod.mk.injEq] at hg
        obtain ⟨herr, hsign, hrest⟩ := hg
        -- the log is not synced, so the own node does not sign it
        have hnot : isToSign = false := by
          rw [← hsign, hsame, hsync, Bool.and_false]
        rw [hnot, if_neg Bool.false_ne_true] at hm
        cases hm
        rw [hrest] at hprocessed hsame
        cases hsame
        exact inv_saveLog_pending hprocessed halive

/-! ### Deleting logs -/

theorem inv_of_deleted (hkeyed : s.LogsKeyed)
    (hdeleted : ∀ obj, s.objs.get t.id = some obj → obj.status = .deleted ∧ obj.syncInfo = none) : t.Inv s := by
  refine ⟨hkeyed, fun obj hobj _ => hdeleted obj hobj, fun obj hobj hopen => ?_⟩
  rw [(hdeleted obj hobj).1] at hopen
  exact absurd (Nat.le_refl _) hopen

theorem inv_deleteLog (getData : Except Err Unit) (myID : PttID) (h : t.Inv s) (hobj : l.objID = some t.id) :
    t.Inv (handleDeleteObjectLog getData myID l s).2.2 := by
  unfold handleDeleteObjectLog
  rw [hobj]
  rcases getData with e | u
  · exact h
  dsimp only
  cases hget : s.objs.get t.id with
  | none => exact h
  | some obj =>
    have hsaved : ∀ s' : Books δ, s'.LogsKeyed → t.Inv (s'.saveDeleteObjectWithOplog t.id obj l .deleted).2 := by
      intro s' hkeyed
      refine inv_of_deleted hkeyed fun obj' hobj' => ?_
      change (s'.objs.put t.id _).get t.id = some obj' at hobj'
      rw [KeyStore.get_put, if_pos rfl] at hobj'
      cases hobj'
      exact ⟨rfl, rfl⟩
    dsimp only
    split_ifs with hdel hold
    · exact hsaved s h.keyed
    · exact h
    · -- the sync info that is there is removed first
      have hreplace : (∃ s', s.replaceSyncInfo isReplaceOrigSyncInfo obj l (deleteStatus l) true = (.ok (), s') ∧ LogsKept true l s s') ∨
          ∃ e, s.replaceSyncInfo isReplaceOrigSyncInfo obj l (deleteStatus l) true = (.error e, s) := by
        unfold replaceSyncInfo
        cases hsync : obj.syncInfo with
        | none => exact .inl ⟨s, rfl, LogsKept.refl true l s⟩
        | some sync =>
          dsimp only
          split_ifs with hreplaced
          · have hne : sync.logID ≠ l.id := by
              rintro heq
              simp [heq] at hreplaced
            rcases removeBlockAndMediaInfoBySyncInfo_cases true sync hne h.keyed with hok | ⟨-, e, herr, -⟩
            · exact .inl hok
            · exact .inr ⟨e, herr⟩
          · exact .inl ⟨s, rfl, LogsKept.refl true l s⟩
      unfold handleDeleteObjectLogCore
      rcases hreplace with ⟨s', hr, hkept⟩ | ⟨e, hr⟩ <;> rw [hr]
      · dsimp only
        have hkeyed := keyed_of_kept h.keyed hkept
        split_ifs
        · refine inv_of_deleted hkeyed fun obj' hobj' => ?_
          change (s'.objs.delete t.id).get t.id = some obj' at hobj'
          rw [KeyStore.get_delete, if_pos rfl] at hobj'
          cases hobj'
        · exact hsaved s' hkeyed
      · exact h

theorem inv_pendingDelete (h : t.Inv s) (hobj : l.objID = some t.id) (hnone : ∀ obj, s.objs.get t.id = some obj → t.NoneWaits obj s) :
    t.Inv (handlePendingDeleteObjectLog l s).2.2 ∧ (handlePendingDeleteObjectLog l s).2.1 = l ∧
      (handlePendingDeleteObjectLog l s).2.2.logs.get l.id = s.logs.get l.id := by
  unfold handlePendingDeleteObjectLog
  rw [hobj]
  dsimp only
  cases hget : s.objs.get t.id with
  | none => exact ⟨h, rfl, rfl⟩
  | some obj =>
    dsimp only
    split_ifs with hdel
    · exact ⟨h, rfl, rfl⟩
    have hopen : ¬ .deleted ≤ obj.status := fun hle => hdel (h.closed obj hget hle).1
    -- the object keeps its time, and that covers all logs that are left
    have hsaved : ∀ s' : Books δ, LogsKept false l s s' →
        t.Inv (s'.saveObj t.id { obj with syncInfo := some (SyncInfo.initWithOplog (deleteStatus l) l) }) := by
      intro s' hkept
      refine inv_of_open (fun i o => keyed_of_kept h.keyed hkept i o) (openAt_saveObj hopen) fun i w ⟨hw, hvalid, hs⟩ => ?_
      obtain ⟨w₀, hw₀, rfl | ⟨hfalse, -⟩⟩ := hkept.kept i w hw
      · have hle := Covers.le_of_noneWaits (Inv.covers h ⟨hget, hopen⟩ ⟨hw₀, hvalid, hs⟩) (hnone obj hget)
        exact .inl hle
      · cases hfalse
    unfold handlePendingDeleteObjectLogCore
    split_ifs with hreplaced
    · exact ⟨h, rfl, rfl⟩
    cases hsync : obj.syncInfo with
    | none => exact ⟨hsaved s (LogsKept.refl false l s), rfl, rfl⟩
    | some sync =>
      dsimp only
      split_ifs with hsame
      · exact ⟨hsaved s (LogsKept.refl false l s), rfl, rfl⟩
      · rcases removeBlockAndMediaInfoBySyncInfo_cases false sync hsame h.keyed with ⟨s', hr, hkept⟩ | ⟨-, e, hr, -⟩ <;> rw [hr]
        · exact ⟨hsaved s' hkept, rfl, hkept.own⟩
        · exact ⟨h, rfl, rfl⟩

theorem inv_pendingDeleteLog {Γ : Ctx} {signer : PendingSigner} {now : Timestamp} (getData : Except Err Unit) (myID : PttID) (h : t.Inv s)
    (hobj : o.objID = some t.id) (hop : o.op ≠ t.op) (hisSync : o.isSync = false) (hne : o.toStatus ≠ .alive)
    (hstored : ∀ v, s.logs.get o.id = some v → ¬ t.Updates v) (hfits : ∀ obj, s.objs.get t.id = some obj → t.NoneWaits obj s) :
    t.Inv (s.handlePendingOplog Γ signer now signPendingDeleteObjectLog (handleDeleteObjectLog getData myID) o).2 := by
  have hint := integrateOplog_integrated s Γ signer now hne hisSync
  generalize hr : s.integrateOplog Γ signer now o = r at hint
  have hid : r.oplog.id = o.id := BaseOplog.id_eq_of_content hint.content
  have hother : ∀ v : BaseOplog, v.blankSigns = o.blankSigns → ¬ t.Updates v :=
    fun v hv hu => hop ((BaseOplog.op_eq_of_content hv).symm.trans hu.1)
  have hinv := inv_integrated h hint fun obj _ _ hu => absurd hu (hother o rfl)
  have hobj' : r.oplog.objID = some t.id := (BaseOplog.objID_eq_of_content hint.content).trans hobj
  -- what is stored of the log is no updating log
  have hstored' : ∀ v, r.books.logs.get o.id = some v → ¬ t.Valid v := by
    intro v hv hvalid
    rcases hint.stored with hbooks | ⟨orig, w, -, -, hbooks, hcontent, -⟩ <;> rw [hbooks] at hv
    · exact hstored v hv hvalid.1
    · change (s.logs.put o.id w).get o.id = some v at hv
      rw [KeyStore.get_put, if_pos rfl] at hv
      cases hv
      exact hother _ hcontent hvalid.1
  have hnone : ∀ obj, r.books.objs.get t.id = some obj → t.NoneWaits obj r.books := by
    intro obj hget sync u hsync hu
    by_cases hi : sync.logID = o.id
    · exact hstored' u (hi ▸ hu)
    · rw [get_integrated_of_ne hint hi] at hu
      exact hfits obj (objs_integrated hint ▸ hget) sync u hsync hu
  cases hsync : r.oplog.isSync with
  | true =>
    rcases handlePendingOplog_books_of_isSync hr hsync with heq | ⟨-, heq⟩ <;> rw [heq]
    · exact hinv
    · exact inv_saveLog_other hinv (hother _ hint.content) (hid ▸ hstored')
  | false =>
    by_cases halive : r.oplog.toStatus = .alive
    · rcases handlePendingOplog_books_of_alive hr hsync halive with heq | heq <;> rw [heq]
      · exact hinv
      · exact inv_deleteLog getData myID hinv hobj'
    · obtain ⟨hprocessed, hsame, hown⟩ := inv_pendingDelete hinv hobj' hnone
      rcases handlePendingOplog_books_of_pending (g := signPendingDeleteObjectLog) (f := handleDeleteObjectLog getData myID) hr hsync halive
        with heq | heq | ⟨b, isToSign, l', s', hg, m, hm, heq⟩ <;> rw [heq]
      · exact hinv
      · exact hprocessed
      · simp only [signPendingDeleteObjectLog, Prod.mk.injEq] at hg
        obtain ⟨-, -, hrest⟩ := hg
        rw [hrest] at hprocessed hsame hown
        dsimp only at hprocessed hsame hown
        have hcontent : m.blankSigns = l'.blankSigns := by
          split_ifs at hm
          · exact (signer.internalSign_content l' m hm).1
          · cases hm
            rfl
        rw [hsame] at hcontent
        have hmid : m.id = o.id := (BaseOplog.id_eq_of_content hcontent).trans hid
        refine inv_saveLog_other hprocessed (hother _ (hcontent.trans hint.content)) fun v hv => ?_
        rw [hmid, ← hid, hown, hid] at hv
        exact hstored' v hv

/-! ### Failed logs -/

theorem inv_failedLog (h : t.Inv s) (hobj : o.objID = some t.id)
    (hfits : ∀ obj, s.objs.get t.id = some obj → (∃ sync, obj.syncInfo = some sync ∧ sync.logID = o.id) → t.NoneWaits obj s) :
    t.Inv (handleFailedUpdateObjectLog o s).2 := by
  unfold handleFailedUpdateObjectLog
  rw [hobj]
  dsimp only
  cases hget : s.objs.get t.id with
  | none => exact h
  | some obj =>
    dsimp only
    cases hsync : obj.syncInfo with
    | none => exact h
    | some sync =>
      have hopen : ¬ .deleted ≤ obj.status := fun hdel => by
        rw [(h.closed obj hget hdel).2] at hsync
        cases hsync
      dsimp only
      split_ifs with hother hold
      · exact h
      · exact h
      · refine inv_of_open h.keyed (openAt_saveObj hopen) fun i w hw => ?_
        have hle := Covers.le_of_noneWaits (Inv.covers h ⟨hget, hopen⟩ hw) (hfits obj hget ⟨sync, hsync, not_not.1 hother⟩)
        exact .inl hle

end SyncedUpdatesAux

end PttaiCore
