import SyncForge.Store.Frame

/-!
# `Store.Conflicts` — the rows of `conflicts`

A conflict is inserted once and never deleted. What it says about the two sides does not change afterwards;
its status, the strategy and the operator's name do, until it is dismissed.
-/

namespace SyncForge

open Relational
open Table (mem_upsert)

namespace ConflictRecord

structure Same (c c' : ConflictRecord) : Prop where
  id : c'.id = c.id
  key : c'.key = c.key
  payloadA : c'.payloadA = c.payloadA
  payloadB : c'.payloadB = c.payloadB

theorem Same.refl (c : ConflictRecord) : Same c c := ⟨rfl, rfl, rfl, rfl⟩

theorem Same.trans {c c' c'' : ConflictRecord} (h : Same c c') (h' : Same c' c'') : Same c c'' :=
  ⟨h'.id.trans h.id, h'.key.trans h.key, h'.payloadA.trans h.payloadA, h'.payloadB.trans h.payloadB⟩

end ConflictRecord

namespace Database

open ConflictRecord (Same)

variable {db : Database} {c c' : ConflictRecord} {tenantID id : String} {status : ConflictStatus}
  {strategy : Conflict.Strategy} {by_ : String}

theorem mem_recordConflict (h : c' ∈ db.conflicts.rows) : c' ∈ (db.recordConflict c).conflicts.rows := by
  unfold recordConflict
  cases hkey : db.conflicts.get? c.key with
  | some _ => exact h
  | none =>
    refine mem_upsert.mpr (.inr ⟨h, fun heq => ?_⟩)
    have hget := Table.get?_of_mem h
    rw [heq] at hget
    exact absurd (hkey.symm.trans hget) (Option.some_ne_none c').symm

theorem exists_recordConflict : ∃ c' ∈ (db.recordConflict c).conflicts.rows, c'.key = c.key := by
  unfold recordConflict
  cases hkey : db.conflicts.get? c.key with
  | some c' => exact ⟨c', Table.mem_of_get? hkey, Table.get?_key hkey⟩
  | none => exact ⟨_, mem_upsert.mpr (.inl rfl), rfl⟩

theorem mem_setConflict (h : c ∈ db.conflicts.rows) :
    ∃ c' ∈ (db.setConflict tenantID id status strategy by_).conflicts.rows, Same c c' ∧
    (c' = c ∨ c.status ≠ .dismissed ∧ c.tenantID = tenantID ∧ c.id = id ∧ c'.status = status) := by
  unfold setConflict
  cases hrow : db.conflicts.rows.find? (fun c => c.tenantID = tenantID ∧ c.id = id ∧
    c.status ≠ .dismissed) with
  | none => exact ⟨c, h, Same.refl c, .inl rfl⟩
  | some c0 =>
    have hmem := List.mem_of_find?_eq_some hrow
    have hmatch := List.find?_some hrow
    obtain ⟨htenant, hid, hstatus⟩ := of_decide_eq_true hmatch
    by_cases hkey : c.key = c0.key
    · have hget := Table.get?_of_mem h
      rw [hkey, Table.get?_of_mem hmem] at hget
      cases hget
      exact ⟨_, mem_upsert.mpr (.inl rfl), ⟨rfl, rfl, rfl, rfl⟩, .inr ⟨hstatus, htenant, hid, rfl⟩⟩
    · exact ⟨c, mem_upsert.mpr (.inr ⟨h, hkey⟩), Same.refl c, .inl rfl⟩

/-- **A conflict stays**, and only `SetConflictStatus` changes its status, unless it is dismissed. -/
theorem exec_conflicts {now : Time} {pick : Nat} {o : StoreOp} (h : c ∈ db.conflicts.rows) :
    ∃ c' ∈ (exec now pick o db).2.conflicts.rows, Same c c' ∧ (c' = c ∨ c.status ≠ .dismissed ∧
      ∃ strategy by_, o = .setConflictStatus c.tenantID c.id c'.status strategy by_) := by
  cases o with
  | insertConflict c0 => exact ⟨c, mem_recordConflict h, Same.refl c, .inl rfl⟩
  | setConflictStatus tenantID id status strategy by_ =>
    obtain ⟨c', hc', hsame, hchange⟩ := @mem_setConflict db c tenantID id status strategy by_ h
    refine ⟨c', hc', hsame, hchange.imp_right ?_⟩
    rintro ⟨hstatus, rfl, rfl, rfl⟩
    exact ⟨hstatus, strategy, by_, rfl⟩
  | _ => exact ⟨c, h, Same.refl c, .inl rfl⟩

def DistinctConflicts (db : Database) : Prop :=
  ∀ c ∈ db.conflicts.rows, ∀ c' ∈ db.conflicts.rows, c.tenantID = c'.tenantID → c.id = c'.id → c = c'

theorem DistinctConflicts.recordConflict (h : db.DistinctConflicts) :
    (db.recordConflict c).DistinctConflicts := by
  unfold DistinctConflicts Database.recordConflict
  cases hkey : db.conflicts.get? c.key with
  | some _ => exact h
  | none =>
    -- the new row has an id that no row of the tenant has
    have hnew : ∀ c' ∈ db.conflicts.rows, c'.tenantID = c.tenantID →
        c'.id ≠ newID ((db.conflicts.rows.filter (fun c' => c'.tenantID = c.tenantID)).map ConflictRecord.id) := by
      intro c' hc' htenant hid
      refine newID_not_mem ((db.conflicts.rows.filter (fun c' => c'.tenantID = c.tenantID)).map ConflictRecord.id) ?_
      rw [← hid]
      exact List.mem_map_of_mem (List.mem_filter.mpr ⟨hc', decide_eq_true htenant⟩)
    intro c1 hc1 c2 hc2 htenant hid
    rcases mem_upsert.mp hc1 with rfl | ⟨hold1, _⟩ <;> rcases mem_upsert.mp hc2 with rfl | ⟨hold2, _⟩
    · rfl
    · exact absurd hid.symm (hnew c2 hold2 htenant.symm)
    · exact absurd hid (hnew c1 hold1 htenant)
    · exact h c1 hold1 c2 hold2 htenant hid

theorem DistinctConflicts.setConflict (h : db.DistinctConflicts) :
    (db.setConflict tenantID id status strategy by_).DistinctConflicts := by
  unfold DistinctConflicts Database.setConflict
  cases hrow : db.conflicts.rows.find? (fun c => c.tenantID = tenantID ∧ c.id = id ∧
    c.status ≠ .dismissed) with
  | none => exact h
  | some c0 =>
    have hmem := List.mem_of_find?_eq_some hrow
    intro c1 hc1 c2 hc2 htenant hid
    rcases mem_upsert.mp hc1 with rfl | ⟨hold1, hne1⟩ <;> rcases mem_upsert.mp hc2 with rfl | ⟨hold2, hne2⟩
    · rfl
    · exact absurd (congrArg ConflictRecord.key (h c2 hold2 c0 hmem htenant.symm hid.symm)) hne2
    · exact absurd (congrArg ConflictRecord.key (h c1 hold1 c0 hmem htenant hid)) hne1
    · exact h c1 hold1 c2 hold2 htenant hid

/-- `SetConflictStatus` reaches the conflict with the id, unless it is dismissed. -/
theorem DistinctConflicts.status_setConflict (h : db.DistinctConflicts) (hc : c ∈ db.conflicts.rows)
    (hstatus : c.status ≠ .dismissed) : ∃ c'
    ∈ (db.setConflict c.tenantID c.id status strategy by_).conflicts.rows, Same c c' ∧
    c'.status = status := by
  unfold Database.setConflict
  cases hrow : db.conflicts.rows.find? (fun c' => c'.tenantID = c.tenantID ∧ c'.id = c.id ∧
    c'.status ≠ .dismissed) with
  | none =>
    have hno := List.find?_eq_none.mp hrow c hc
    exact absurd (decide_eq_true ⟨rfl, rfl, hstatus⟩) hno
  | some c0 =>
    have hmatch := List.find?_some hrow
    obtain ⟨htenant, hid, _⟩ := of_decide_eq_true hmatch
    obtain rfl := h c0 (List.mem_of_find?_eq_some hrow) c hc htenant hid
    exact ⟨_, mem_upsert.mpr (.inl rfl), ⟨rfl, rfl, rfl, rfl⟩, rfl⟩

theorem DistinctConflicts.exec {now : Time} {pick : Nat} {o : StoreOp} (h : db.DistinctConflicts) :
    (Database.exec now pick o db).2.DistinctConflicts := by
  cases o with
  | insertConflict c => exact h.recordConflict
  | setConflictStatus tenantID id status strategy by_ => exact h.setConflict
  | _ => exact h

theorem DistinctConflicts.find?_eq (h : db.DistinctConflicts) (hc : c ∈ db.conflicts.rows) :
    db.conflicts.rows.find? (fun c' => c'.tenantID = c.tenantID ∧ c'.id = c.id) = some c := by
  cases hfind : db.conflicts.rows.find? (fun c' => c'.tenantID = c.tenantID ∧ c'.id = c.id) with
  | none => exact absurd ⟨rfl, rfl⟩ (of_decide_eq_false
      (Bool.eq_false_of_not_eq_true (List.find?_eq_none.mp hfind c hc)))
  | some c' =>
    have hmatch := List.find?_some hfind
    obtain ⟨htenant, hid⟩ := of_decide_eq_true hmatch
    rw [h c' (List.mem_of_find?_eq_some hfind) c hc htenant hid]

end Database

namespace World

open ConflictRecord (Same)

variable {env : Env} {w : World} {c : ConflictRecord}

theorem handle_conflicts {o : Call} (h : c ∈ w.db.conflicts.rows) :
    ∃ c' ∈ (handle env o w).2.db.conflicts.rows, Same c c' ∧ (c' = c ∨ c.status ≠ .dismissed ∧
      ∃ strategy by_, o = .store (.setConflictStatus c.tenantID c.id c'.status strategy by_)) := by
  rcases @handle_db env w o with hdb | ⟨s, pick, rfl, _, hdb⟩
  · rw [hdb]
    exact ⟨c, h, Same.refl c, .inl rfl⟩
  · rw [hdb]
    obtain ⟨c', hc', hsame, hchange⟩ := @Database.exec_conflicts w.db c w.now pick s h
    refine ⟨c', hc', hsame, hchange.imp_right ?_⟩
    rintro ⟨hstatus, strategy, by_, rfl⟩
    exact ⟨hstatus, strategy, by_, rfl⟩

theorem handle_distinct {o : Call} (h : w.db.DistinctConflicts) :
    (handle env o w).2.db.DistinctConflicts := by
  rcases @handle_db env w o with hdb | ⟨s, pick, rfl, _, hdb⟩
  · rwa [hdb]
  · rw [hdb]
    exact h.exec

theorem run_distinct {α : Type} {p : Sync α} (h : w.db.DistinctConflicts) :
    (Effect.Prog.run (World.handle env) p w).2.db.DistinctConflicts := by
  induction p generalizing w with
  | pure | throw => exact h
  | call o k ih => exact ih _ (handle_distinct h)

def Recorded (key : ConflictKey) (w : World) : Prop := ∃ c ∈ w.db.conflicts.rows, c.key = key

end World
end SyncForge
