import SyncForge.Conflict.History
import SyncForge.Deployment
import SyncForge.Job.Runner
import SyncForge.Ordering.Fate

/-!
# `Job.Backfill` — a full sync and the edits of other sources

The runner stamps the event it makes of a record with its own clock, not with the time the record was
modified, so a record that has not changed for long beats every edit of another source made before the job
came to it. `backfill_keeps` says exactly which edits stay.
-/

namespace SyncForge.Job

open Effect Effect.Prog Store Relational
open SyncForge.Ordering
open Deployment (policy record sweepJob tenant world)

variable {env : Env} {w : World} {a : Adapter} {ev : Event} {c c0 : CanonicalRecord} {T : CanonicalTable}
  {key : CanonicalKey} {f : Field} {x : String} {p : Conflict.Provenance}

def Shows (key : CanonicalKey) (f : Field) (x : String) (T : CanonicalTable) : Prop :=
  ∃ c, T.get? key = some c ∧ c.fields f = some (.str x)

def Later (policies : List SyncPolicy) : Prop := strategyOf policies = .lastWriteWins ∨
    strategyOf policies = .fieldMerge

/-- The stamp of the event beats the edit: it is later, or as late and of a source that goes first. -/
def Beats (policies : List SyncPolicy) (p : Conflict.Provenance) (now : Time) : Prop :=
  p.occurredAt < now ∨ p.occurredAt = now ∧ priorityOf policies < p.priority

/-- The event comes to the merge with the record `c`, which stands under `key`: it is neither stale nor an
    echo. -/
def Merges (env : Env) (w : World) (a : Adapter) (ev : Event) (key : CanonicalKey) (c : CanonicalRecord) :
    Prop :=
  (∃ T, Resolution w a ev c T) ∧ c.key = key ∧ c.sourceVersions ev.source < ev.sourceVersion ∧
    ¬ Echoes env w a ev c

/-- The merge leaves the value: the event brings the same, or the record is the row itself and the edit is not
    beaten. -/
def Spares (w : World) (a : Adapter) (ev : Event) (c : CanonicalRecord) (f : Field) (x : String)
    (p : Conflict.Provenance) : Prop :=
  (customerOf a ev).get f = x ∨ c.fieldProvenance f = some p ∧ ¬ Beats (policiesFor w a ev) p ev.occurredAt

/-! ## The merge -/

section Merge

variable (hlast : Later (policiesFor w a ev))
include hlast

theorem merged_auto : (mergedInto w a ev c).manual = false := by
  rw [Bool.eq_false_iff]
  intro hmanual
  have hstrategy := (Conflict.merge_manual.mp hmanual).2
  rcases hlast with h | h <;> cases hstrategy.symm.trans h

theorem mergedCustomer_get : (mergedCustomer w a ev c).get f
    = (Conflict.outcome (strategyOf (policiesFor w a ev)) c.fields
    c.fieldProvenance ⟨ev.source, ev.sourceVersion, ev.occurredAt, priorityOf (policiesFor w a ev)⟩ f
      (Any.str ((customerOf a ev).get f))).1.text := by
  have hfields := (Conflict.merge_of_lookup (merged_auto (c := c) hlast)
    (@Customer.lookup_fieldEntries LinearOrder.toDecidableEq (customerOf a ev) f)).1
  unfold mergedCustomer
  rw [Customer.get_fromFields, mergedInto, mergedWith, hfields, Option.getD_some]

theorem overrules_iff {by_ : Conflict.Provenance} (hby : by_.priority = priorityOf (policiesFor w a ev)) :
    Conflict.Overrules (Conflict.normalizeStrategy (strategyOf (policiesFor w a ev))) p by_ ↔
      Beats (policiesFor w a ev) p by_.occurredAt := by
  unfold Beats
  rw [← hby]
  rcases hlast with h | h <;> rw [h] <;> exact Iff.rfl

theorem mergedCustomer_new (hnone : c.fieldProvenance f = none) :
    (mergedCustomer w a ev c).get f = (customerOf a ev).get f := by
  rw [mergedCustomer_get hlast, Conflict.outcome_new hnone]
  rfl

/-- **The merge** gives a field that another source owns the event's value where the event beats the edit, and
    leaves it otherwise. -/
theorem mergedCustomer_owned (hvalue : c.fields f = some (.str x)) (hp : c.fieldProvenance f = some p)
    (hsource : p.source ≠ ev.source) :
    (Beats (policiesFor w a ev) p ev.occurredAt → (mergedCustomer w a ev c).get f = (customerOf a ev).get f) ∧
      (¬ Beats (policiesFor w a ev) p ev.occurredAt → (mergedCustomer w a ev c).get f = x) := by
  have hold : (c.fields f).getD default = .str x := by rw [hvalue]; rfl
  have hmanual : strategyOf (policiesFor w a ev) ≠ .manual := by
    rcases hlast with h | h <;> rw [h] <;> nofun
  rw [mergedCustomer_get hlast]
  constructor
  · intro hbeats
    rw [Conflict.outcome_taken hold hp (.inr (.inr ((overrules_iff hlast rfl).mpr hbeats)))]
    rfl
  · intro hbeats
    by_cases hsame : Any.str x = Any.str ((customerOf a ev).get f)
    · rw [Conflict.outcome_taken hold hp (.inr (.inl hsame)), ← hsame]
      rfl
    · rw [Conflict.outcome_kept hmanual hold hp]
      · rfl
      · rintro (h | h | h)
        · exact hsource h
        · exact hsame h
        · exact hbeats ((overrules_iff hlast rfl).mp h)

end Merge

/-! ## The row -/

theorem resolution_keeps_row (h : Resolution w a ev c T) (hrow : w.db.canonical.get? key = some c0) :
    (∃ c1, T.get? key = some c1 ∧ c1.fields = c0.fields) ∧
      (c.key = key → c.fields = c0.fields ∧ c.fieldProvenance = c0.fieldProvenance ∨ c.fieldProvenance = fun _ => none) := by
  cases h with
  | byID hc =>
    refine ⟨⟨c0, hrow, rfl⟩, fun hkey => .inl ?_⟩
    have hget := Table.get?_of_mem (List.mem_filter.mp hc).1
    rw [hkey, hrow] at hget
    rw [Option.some.inj hget]
    exact ⟨rfl, rfl⟩
  | @byEmail c' _ hlink =>
    have hget := linkable_row hlink
    have hkey' : (c'.setProviderID ev.source ev.entityID).key = c'.key := rfl
    by_cases hkey : key = c'.key
    · rw [← hkey, hrow] at hget
      cases hget
      refine ⟨⟨c0.setProviderID ev.source ev.entityID, ?_, rfl⟩, fun _ => .inl ⟨rfl, rfl⟩⟩
      rw [hkey, ← hkey', Table.get?_upsert_self]
    · have hne : key ≠ (c'.setProviderID ev.source ev.entityID).key := hkey
      exact ⟨⟨c0, (Table.get?_upsert_ne hne).trans hrow, rfl⟩, fun h => absurd h.symm hkey⟩
  | fresh _ _ => exact ⟨⟨c0, hrow, rfl⟩, fun _ => .inr rfl⟩

theorem resolution_eq {c' : CanonicalRecord} {T' : CanonicalTable} (h : Resolution w a ev c T)
    (h' : Resolution w a ev c' T') (hkey : c.key = c'.key) : c = c' := by
  cases h with
  | byID hc =>
    cases h' with
    | byID hc' =>
      have hget := Table.get?_of_mem (List.mem_filter.mp hc).1
      rw [hkey, Table.get?_of_mem (List.mem_filter.mp hc').1] at hget
      exact (Option.some.inj hget).symm
    | byEmail hnone | fresh hnone => exact absurd (hnone ▸ hc) List.not_mem_nil
  | byEmail hnone hlink =>
    cases h' with
    | byID hc' => exact absurd (hnone ▸ hc') List.not_mem_nil
    | byEmail _ hlink' => rw [Option.some.inj (hlink.symm.trans hlink')]
    | fresh _ hlink' => cases hlink.symm.trans hlink'
  | fresh hnone hlink =>
    cases h' with
    | byID hc' => exact absurd (hnone ▸ hc') List.not_mem_nil
    | byEmail _ hlink' => cases hlink'.symm.trans hlink
    | fresh _ _ => rfl

/-- **What the merge leaves of the row's field**: its value, exactly if it spares it. -/
theorem merged_spares (hlast : Later (policiesFor w a ev)) (hres : Resolution w a ev c T) (hkey : c.key = key)
    (hrow : w.db.canonical.get? key = some c0) (hvalue : c0.fields f = some (.str x))
    (hp : c0.fieldProvenance f = some p) (hsource : p.source ≠ ev.source) :
    (mergedCustomer w a ev c).get f = x ↔ Spares w a ev c f x p := by
  unfold Spares
  rcases (resolution_keeps_row hres hrow).2 hkey with ⟨hfields, hprovenance⟩ | hnone
  · rw [← hfields] at hvalue
    rw [← hprovenance] at hp
    obtain ⟨hbeaten, hleft⟩ := mergedCustomer_owned hlast hvalue hp hsource
    by_cases hbeats : Beats (policiesFor w a ev) p ev.occurredAt
    · rw [hbeaten hbeats]
      exact ⟨.inl, fun h => h.resolve_right (fun h => h.2 hbeats)⟩
    · exact ⟨fun _ => .inr ⟨hp, hbeats⟩, fun _ => hleft hbeats⟩
  · rw [mergedCustomer_new hlast (congrFun hnone f), hnone]
    exact ⟨.inl, fun h => h.resolve_right (fun h => nomatch h.1)⟩

theorem shows_applied {c' : CanonicalRecord} {cust : Customer}
    (hkey' : (appliedRecord ev cust c').key = c.key) (hkey : key = c.key) :
    Shows key f x (T.upsert (appliedRecord ev cust c')) ↔ cust.get f = x := by
  have hget : (T.upsert (appliedRecord ev cust c')).get? key = some (appliedRecord ev cust c') := by
    rw [hkey, ← hkey']
    exact Table.get?_upsert_self
  have hfield : (appliedRecord ev cust c').fields f = some (.str (cust.get f)) := rfl
  unfold Shows
  rw [hget]
  constructor
  · rintro ⟨c1, hc1, hx⟩
    rw [← Option.some.inj hc1, hfield] at hx
    exact Any.str.inj (Option.some.inj hx)
  · rintro rfl
    exact ⟨_, rfl, hfield⟩

/-! ## The record -/

section Fate

variable {v : Verdict} {w' : World} (hfate : Fate env w ev v w') (hupsert : ev.eventType ≠ .deleted)
  (ha : env.registry ev.source = some a) (hlast : Later (policiesFor w a ev))
    (hrow : w.db.canonical.get? key = some c0)
  (hvalue : c0.fields f = some (.str x)) (hp : c0.fieldProvenance f = some p) (hsource : p.source ≠ ev.source)
include hfate hupsert ha hlast hrow hvalue hp hsource

/-- **An event of a source** leaves the field of another unless it is applied, comes to the merge and does not
    spare it. -/
theorem fate_shows (hspares : v = .applied → ∀ c, Merges env w a ev key c → Spares w a ev c f x p) :
    Shows key f x w'.db.canonical := by
  have htable : ∀ {a c T}, Resolution w a ev c T → Shows key f x T := by
    intro a c T hres
    obtain ⟨⟨c1, hc1, hfields⟩, _⟩ := resolution_keeps_row hres hrow
    exact ⟨c1, hc1, by rw [hfields]; exact hvalue⟩
  cases hfate with
  | idle _ hstill => exact ⟨c0, by rw [hstill.canonical]; exact hrow, hvalue⟩
  | dropped _ _ hres hT => exact hT ▸ htable hres
  | interrupted _ _ hres _ hT => exact hT ▸ htable hres
  | @applied _ a' c c' T ha' _ hres hnew _ hwritten hT _ hecho =>
    obtain rfl : a' = a := Option.some.inj (ha'.symm.trans ha)
    rw [hT]
    have hkey' : (appliedRecord ev (mergedCustomer w a' ev c) c').key = c.key := hwritten.applied_key
    by_cases hkey : key = c.key
    · refine (shows_applied hkey' hkey).mpr ((merged_spares hlast hres hkey.symm hrow hvalue hp hsource).mpr ?_)
      exact hspares rfl c ⟨⟨T, hres⟩, hkey.symm, hnew, hecho⟩
    · obtain ⟨c1, hc1, hshows⟩ := htable hres
      exact ⟨c1, (Table.get?_upsert_ne (by rw [hkey']; exact hkey)).trans hc1, hshows⟩
  | ignored _ htype | undeleted _ htype | deleted _ htype => exact absurd htype hupsert

/-- **An event that was handled** and came to the merge has left the field only if it spared it. -/
theorem fate_spares (hv : v.Answers (.ok .applied))
    (hunique : ∀ c T c' T', Resolution w a ev c T → Resolution w a ev c' T' → c.key = c'.key)
    (hshows : Shows key f x w'.db.canonical) (hmerges : Merges env w a ev key c) : Spares w a ev c f x p := by
  obtain ⟨⟨T, hres⟩, hkey, hnew, hecho⟩ := hmerges
  obtain ⟨hfailed, hduplicate, hnoPolicy⟩ := Verdict.answers_applied hv
  have hsame : ∀ {a' c' T'}, env.registry ev.source = some a' → Resolution w a' ev c' T' → a' = a ∧
    c' = c := by
    intro a' c' T' ha' hres'
    obtain rfl : a' = a := Option.some.inj (ha'.symm.trans ha)
    exact ⟨rfl, resolution_eq hres' hres (hunique _ _ _ _ hres' hres)⟩
  cases hfate with
  | idle hidle _ => exact absurd hidle (by simp [hfailed, hduplicate, hnoPolicy])
  | dropped ha' _ hres' _ _ _ hwhy =>
    obtain ⟨rfl, rfl⟩ := hsame ha' hres'
    rcases hwhy with h | ⟨_, hstale⟩ | ⟨_, _, h⟩ | ⟨_, _, hmanual⟩
    · exact absurd h hfailed
    · exact absurd hnew (not_lt.mpr hstale)
    · exact absurd h hecho
    · rw [merged_auto hlast] at hmanual
      cases hmanual
  | interrupted => exact absurd rfl hfailed
  | applied ha' _ hres' _ _ hwritten hT _ _ =>
    obtain ⟨rfl, rfl⟩ := hsame ha' hres'
    rw [hT] at hshows
    exact (merged_spares hlast hres hkey hrow hvalue hp hsource).mp
      ((shows_applied hwritten.applied_key hkey.symm).mp hshows)
  | ignored _ htype | undeleted _ htype | deleted _ htype => exact absurd htype hupsert

end Fate

/-- The record is handed to `Process`, which returns `nil`, and not because it finds the event claimed. -/
def Handled (env : Env) (job : SyncJob) (src : Remote) (rec : ProviderRecord) (w : World) : Prop :=
  rec.deleted = false ∧ src.adapter.validate rec = .ok () ∧ (run (World.handle env)
    (process env (recordEvent job src.adapter.canonicalEntityType rec w.now)) w.called).1 = .ok .applied

theorem resolution_called (h : Resolution w.called a ev c T) : Resolution w a ev c T := by
  cases h with
  | byID hc => exact .byID hc
  | byEmail hnone hlink => exact .byEmail hnone hlink
  | fresh hnone hlink => exact .fresh hnone hlink

theorem called_resolution (h : Resolution w a ev c T) : Resolution w.called a ev c T := by
  cases h with
  | byID hc => exact .byID hc
  | byEmail hnone hlink => exact .byEmail hnone hlink
  | fresh hnone hlink => exact .fresh hnone hlink

section Record

variable {job : SyncJob} {src : Remote} {rec : ProviderRecord} {counts : Int × Int}

/-- **The value stays** unless the record is handled, comes to the merge and is not spared there. -/
theorem applyRecord_shows_iff (ha : env.registry job.source = some a)
    (hlast : Later (policiesFor w a (recordEvent job src.adapter.canonicalEntityType rec w.now)))
    (hunique : ∀ c T c' T', Resolution w a (recordEvent job src.adapter.canonicalEntityType rec w.now) c T →
      Resolution w a (recordEvent job src.adapter.canonicalEntityType rec w.now) c' T' → c.key = c'.key)
    (hrow : w.db.canonical.get? key = some c0) (hvalue : c0.fields f = some (.str x))
    (hp : c0.fieldProvenance f = some p) (hsource : p.source ≠ job.source) :
    Shows key f x (run (World.handle env) (applyRecord env job src rec counts) w).2.db.canonical ↔
      (Handled env job src rec w → ∀ c, Merges env w a (recordEvent job src.adapter.canonicalEntityType rec w.now) key c →
        Spares w a (recordEvent job src.adapter.canonicalEntityType rec w.now) c f x p) := by
  have hsame : Shows key f x w.db.canonical := ⟨c0, hrow, hvalue⟩
  have hstill : ∀ {w' : World}, Still w w' → Shows key f x w'.db.canonical := fun h => h.canonical ▸ hsame
  unfold applyRecord
  split_ifs with hdeleted
  · exact ⟨fun _ hhandled => absurd (hdeleted.symm.trans hhandled.1) Bool.noConfusion, fun _ => hsame⟩
  · cases hvalid : src.adapter.validate rec with
    | error e =>
      have hpark : OnlyInert (Api.parkProviderRecord (malformedEvent job rec) e.error) := only_tryStmt rfl
      have htriple : Triple (World.handle env) (Still w) (do
          Api.parkProviderRecord (malformedEvent job rec) e.error
          Pure.pure (counts.1, counts.2 + 1)) (fun _ => Still w) :=
        triple_bind (triple_still hpark) (fun _ => triple_return (fun _ h => h)) (fun _ _ h => h)
      exact ⟨fun _ hhandled => absurd (hvalid.symm.trans hhandled.2.1) nofun, fun _ => hstill (htriple w (Still.refl w))⟩
    | ok _ =>
      have hends := @process_fate env (recordEvent job src.adapter.canonicalEntityType rec w.now) w.called rfl rfl w.called
        (Still.refl _)
      dsimp only
      rw [run_bind, run_perform]
      show Shows key f x (run (World.handle env) (attempt _ >>= _) w.called).2.db.canonical ↔ _
      rw [run_bind, run_attempt]
      have hmerges : ∀ {c}, Merges env w.called a (recordEvent job src.adapter.canonicalEntityType rec w.now) key c →
          Merges env w a (recordEvent job src.adapter.canonicalEntityType rec w.now) key c :=
        fun ⟨⟨T, hres⟩, hkey, hnew, hecho⟩ => ⟨⟨T, resolution_called hres⟩, hkey, hnew, hecho⟩
      cases hr : (run (World.handle env) (process env (recordEvent job src.adapter.canonicalEntityType rec w.now))
          w.called).1 with
      | ok o =>
        rw [hr] at hends
        obtain ⟨v, hfate, hv⟩ := hends
        constructor
        · rintro hshows ⟨-, -, hok⟩ c ⟨⟨T, hres⟩, hkey, hnew, hecho⟩
          rw [Except.ok.inj (hr.symm.trans hok)] at hv
          exact fate_spares (w := w.called) hfate nofun ha hlast hrow hvalue hp hsource hv
            (fun c T c' T' h h' => hunique c T c' T' (resolution_called h) (resolution_called h')) hshows
            ⟨⟨T, called_resolution hres⟩, hkey, hnew, hecho⟩
        · intro hspares
          refine fate_shows (w := w.called) hfate nofun ha hlast hrow hvalue hp hsource (fun happlied c hc => ?_)
          subst happlied
          exact hspares ⟨Bool.eq_false_of_not_eq_true hdeleted, hvalid, hr.trans (congrArg _ (Except.ok.inj hv))⟩ c (hmerges hc)
      | error e =>
        rw [hr] at hends
        refine ⟨fun _ hhandled => absurd (hr.symm.trans hhandled.2.2) nofun, fun _ => ?_⟩
        exact fate_shows (w := w.called) hends nofun ha hlast hrow hvalue hp hsource nofun

/-- **A backfill and an edit of another source**, under last-write-wins and field-merge. A record that is
    skipped or fails changes no field. One that is handled keeps the edit exactly where it belongs to another
    row, is stale or an echo, brings the same value, or is stamped by the runner's clock no later than the
    edit: whatever time the record itself was modified at. The record belongs to one canonical record. -/
theorem backfill_keeps (ha : env.registry job.source = some a)
    (hlast : Later (policiesFor w a (recordEvent job src.adapter.canonicalEntityType rec w.now)))
    (hunique : ∀ c T c' T', Resolution w a (recordEvent job src.adapter.canonicalEntityType rec w.now) c T →
      Resolution w a (recordEvent job src.adapter.canonicalEntityType rec w.now) c' T' → c.key = c'.key)
    (hrow : w.db.canonical.get? key = some c0) (hvalue : c0.fields f = some (.str x))
    (hp : c0.fieldProvenance f = some p) (hsource : p.source ≠ job.source) :
    (¬ Handled env job src rec w →
      Shows key f x (run (World.handle env) (applyRecord env job src rec counts) w).2.db.canonical) ∧
    (Handled env job src rec w →
      (Shows key f x (run (World.handle env) (applyRecord env job src rec counts) w).2.db.canonical ↔
        ∀ c, Merges env w a (recordEvent job src.adapter.canonicalEntityType rec w.now) key c →
          Spares w a (recordEvent job src.adapter.canonicalEntityType rec w.now) c f x p)) := by
  rw [applyRecord_shows_iff ha hlast hunique hrow hvalue hp hsource]
  exact ⟨fun hnot h => absurd h hnot, fun hhandled => ⟨fun h => h hhandled, fun h _ => h⟩⟩

end Record

/-! ## An old record -/

def annOld : SimRecord := ⟨"sf-1", 2, 1, false, record salesforce "Ann" "Lee" "ann@x"⟩

def annRow (time : Time) : CanonicalRecord where
  tenantID := tenant
  entityType := "customer"
  entityID := "sf-1"
  providerIDs := Function.update (fun _ => none) "salesforce" (some "sf-1")
  fields := ({ firstName := "Ann", lastName := "Roe", email := "ann@x" } : Customer).fields
  fieldProvenance := fun _ => some ⟨"hubspot", 1, time, 100⟩

def firstJob : SyncJob := { sweepJob with type := .initial }

/-- The edit of the last name was made at `time`, the job comes to the record at time 10. -/
def edited (time : Time) : World :=
  { world [policy "salesforce" "hubspot"] with
    now := 10
    db := { (world [policy "salesforce" "hubspot"]).db with
      canonical := Table.empty.upsert (annRow time) } }

def oldEvent : Event := recordEvent firstJob "customer" (SimServer.providerRecord annOld) 10

def backfilled (time : Time) : World :=
  (run (World.handle Deployment.env) (applyRecord Deployment.env firstJob ⟨salesforce, Deployment.sf⟩
    (SimServer.providerRecord annOld) (0, 0)) (edited time)).2

theorem edited_resolution (h : Resolution (edited 11) salesforce oldEvent c T) : c = annRow 11 := by
  have hid : (matched (edited 11) salesforce oldEvent).map (·.key) = [(annRow 11).key] := by
    decide +kernel
  cases h with
  | byID hc =>
    have hkey : c.key = (annRow 11).key := List.mem_singleton.mp (hid ▸ List.mem_map_of_mem hc)
    have hget := Table.get?_of_mem (List.mem_filter.mp hc).1
    rw [hkey] at hget
    exact Option.some.inj (hget.symm.trans Table.get?_upsert_self)
  | byEmail hnone | fresh hnone => rw [hnone] at hid; cases hid

theorem backfill_keeps_ann : Shows (annRow 11).key .lastName "Roe" (backfilled 11).db.canonical := by
  refine Iff.mpr ((backfill_keeps (w := edited 11) (a := salesforce) (p := ⟨"hubspot", 1, 11, 100⟩) rfl
    (.inl (by decide +kernel)) (fun c T c' T' h h' => ?_) Table.get?_upsert_self rfl rfl (by decide)).2
    ⟨rfl, rfl, by decide +kernel⟩) ?_
  · rw [edited_resolution h, edited_resolution h']
  · rintro c ⟨⟨T, hres⟩, -⟩
    rw [edited_resolution hres]
    refine .inr ⟨rfl, ?_⟩
    rintro (hlater | ⟨hequal, -⟩)
    · exact absurd hlater (by decide)
    · exact absurd hequal (by decide)

/-- **A backfill loses an edit**: HubSpot's name, set after Salesforce's record was last changed, is
    overwritten with the old one. -/
theorem backfill_overwrites : annOld.updatedAt = 1 ∧
    (annRow 5).fieldProvenance .lastName = some ⟨"hubspot", 1, 5, 100⟩ ∧
    (annRow 5).fields .lastName = some (.str "Roe") ∧
    Shows (annRow 5).key .lastName "Lee" (backfilled 5).db.canonical := by
  refine ⟨rfl, rfl, rfl, ?_⟩
  have htest : ((backfilled 5).db.canonical.get? (annRow 5).key).map (fun c => c.fields .lastName)
    = some (some (.str "Lee")) := by
    decide +kernel
  obtain ⟨c, hc, hfields⟩ := Option.map_eq_some_iff.mp htest
  exact ⟨c, hc, hfields⟩

end SyncForge.Job
