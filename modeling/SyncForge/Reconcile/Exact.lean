import SyncForge.Effect.Watch
import SyncForge.Reconcile.Missing
import SyncForge.Worker.Success

/-!
# `Reconcile.Exact` — a manual sweep reports the divergences, and nothing else

A manual run changes neither a provider nor a canonical record, so what it compares is fixed when it starts:
`Diverges` says what there is to report. The walk is followed page by page; `Reported` says which findings
have been stored so far, as a list of kinds and ids, and each lemma below says what a part of the sweep adds
to that list.
-/

namespace SyncForge.Reconcile

open Effect Effect.Prog Store
open Deployment (annRow policy sf sweepJob sweepOf tenant)
open Database (anyRow anyRow_mem rowOrNotFound_ok)
open SimServer (mem_sorted providerRecord)

/-! ## The divergences -/

def Owned (a : Adapter) (tenantID : String) (db : Database) (c : CanonicalRecord) : Prop :=
  c ∈ db.canonical.rows ∧ c.tenantID = tenantID ∧ c.entityType = a.canonicalEntityType

inductive Diverges (a : Adapter) (tenantID source : String) (sim : SimServer) (db : Database) :
    FindingKind → String → Prop
  /-- A live record no canonical record maps. -/
  | missed {r : SimRecord} (hr : r ∈ sim.records.rows) (hlive : r.deleted = false)
      (hfree : ∀ c, Owned a tenantID db c → c.providerIDs source ≠ some r.id) : Diverges a tenantID source sim db .missed r.id
  /-- A live record that a tombstoned canonical record maps. -/
  | deleted {r : SimRecord} {c : CanonicalRecord} (hr : r ∈ sim.records.rows) (hlive : r.deleted = false)
      (hc : Owned a tenantID db c) (hmap : c.providerIDs source = some r.id) (htomb : c.tombstone = true) :
      Diverges a tenantID source sim db .deleted r.id
  /-- A live record that a live canonical record maps, with another text in some field. -/
  | drift {r : SimRecord} {c : CanonicalRecord} {f : Field} {v : Any} (hr : r ∈ sim.records.rows) (hlive : r.deleted = false)
      (hc : Owned a tenantID db c) (hmap : c.providerIDs source = some r.id) (htomb : c.tombstone = false)
      (hv : c.fields f = some v) (hne : v.sprint ≠ (a.normalize (providerRecord r)).get f) :
      Diverges a tenantID source sim db .drift r.id
  /-- A live canonical record that maps an id the provider has no live record of. -/
  | missing {c : CanonicalRecord} {id : String} (hc : Owned a tenantID db c) (hmap : c.providerIDs source = some id)
      (htomb : c.tombstone = false) (hid : id ≠ "") (hlive : live sim id = false) :
      Diverges a tenantID source sim db .missing id

def reportKey (f : ReconciliationFinding) : FindingKind × String := (f.kind, f.providerID)

/-! ## What has been reported so far -/

/-- Since `w0` the run has stored findings with these keys, in this order; the provider, the canonical records
    and the runs are as they were. -/
structure Reported (run : ReconciliationRun) (job : SyncJob) (w0 : World) (keys : List (FindingKind × String))
    (w : World) : Prop where
  sims : w.sims = w0.sims
  canonical : w.db.canonical = w0.db.canonical
  runs : w.db.runs = w0.db.runs
  findings : ∃ new, w.db.findings = w0.db.findings ++ new ∧ new.map reportKey = keys ∧
    ∀ f ∈ new, f.runID = run.id ∧ f.tenantID = job.tenantID ∧ f.status = .pending

variable {env : Env} {run : ReconciliationRun} {job : SyncJob} {w0 w : World}
  {keys : List (FindingKind × String)} {kind : FindingKind} {providerID : String} {version : Int}
    {canonical : Option CanonicalRecord} {fields : FieldMap}
  {entityType : String} {deletePolicy : DeletePolicy} {fuel : Nat}

theorem Reported.called (h : Reported run job w0 keys w) : Reported run job w0 keys w.called :=
  ⟨h.sims, h.canonical, h.runs, h.findings⟩

theorem Reported.sameFinding (h : Reported run job w0 keys w) (hnew : ∀ f ∈ w0.db.findings, f.runID ≠ run.id)
    (hkey : (kind, providerID) ∉ keys) : w.db.sameFinding
    (finding run job kind providerID version canonical fields) = none := by
  obtain ⟨new, hfindings, hkeys, _⟩ := h.findings
  refine List.find?_eq_none.mpr (fun f hf hsame => ?_)
  obtain ⟨hrun, hkind, hid⟩ := of_decide_eq_true hsame
  rw [hfindings] at hf
  rcases List.mem_append.mp hf with hold | hmem
  · exact hnew f hold hrun
  · refine hkey (hkeys ▸ List.mem_map.mpr ⟨f, hmem, ?_⟩)
    show (f.kind, f.providerID) = _
    rw [hkind, hid]
    rfl

theorem record_reported (hmode : run.mode = .manual)
    (hnew : ∀ f ∈ w0.db.findings, f.runID ≠ run.id) (hkey : (kind, providerID) ∉ keys) (h : Reported run job w0 keys w) :
    Returns env (record env run job entityType kind providerID version canonical fields deletePolicy) w
      (fun _ w' => Reported run job w0 (keys ++ [(kind, providerID)]) w') := by
  have hinsert : Returns env (stmt (.insertReconciliationFinding
    (finding run job kind providerID version canonical fields))) w
      (fun _ w' => Reported run job w0 (keys ++ [(kind, providerID)]) w') := by
    refine returns_stmt rfl (fun pick _ _ => ?_)
    obtain ⟨new, hfindings, hkeys, hall⟩ := h.findings
    refine ⟨h.sims, h.canonical, h.runs, new ++ [w.db.newFinding (finding run job kind providerID version canonical fields)],
      ?_, ?_, ?_⟩
    · show (w.db.insertFinding _).findings = _
      rw [Database.insertFinding, h.sameFinding hnew hkey, ← List.append_assoc, ← hfindings]
    · rw [List.map_append, hkeys]
      rfl
    · intro f hf
      rcases List.mem_append.mp hf with hf | hf
      · exact hall f hf
      · rw [List.mem_singleton.mp hf]
        exact ⟨rfl, rfl, rfl⟩
  refine yields_bind hinsert (fun stored w' h' => ?_)
  unfold settle
  -- a manual run leaves the finding for an operator
  rw [if_neg (fun hauto => by rw [hmode] at hauto; exact absurd hauto.1 (by decide))]
  exact yields_return h'

theorem Reported.findingsOf (h : Reported run job w0 keys w) (hnew : ∀ f ∈ w0.db.findings, f.runID ≠ run.id)
    (kinds : List FindingKind) : (w.db.findingsOf job.tenantID run.id kinds).length
    = (keys.filter (fun k => k.1 ∈ kinds)).length := by
  obtain ⟨new, hfindings, hkeys, hall⟩ := h.findings
  have hold : w0.db.findings.filter (fun f => f.tenantID = job.tenantID ∧ f.runID = run.id ∧ f.kind ∈ kinds)
    = [] :=
    List.filter_eq_nil_iff.mpr (fun f hf hmem => hnew f hf (of_decide_eq_true hmem).2.1)
  have hmine : new.filter (fun f => f.tenantID = job.tenantID ∧ f.runID = run.id ∧ f.kind ∈ kinds)
      = new.filter (fun f => f.kind ∈ kinds) := by
    refine List.filter_congr (fun f hf => decide_eq_decide.mpr ⟨fun h => h.2.2, fun h => ?_⟩)
    exact ⟨(hall f hf).2.1, (hall f hf).1, h⟩
  rw [Database.findingsOf, hfindings, List.filter_append, hold, hmine, List.nil_append, ← hkeys,
    List.filter_map, List.length_map]
  rfl

def completed (run : ReconciliationRun) (total : Int) (keys : List (FindingKind × String)) :
    ReconciliationRun :=
  { run with
    total := total
    drift := (keys.filter (fun k => k.1 ∈ [FindingKind.drift])).length
    missed := (keys.filter (fun k => k.1 ∈ [FindingKind.missed, .missing])).length
    deleted := (keys.filter (fun k => k.1 ∈ [FindingKind.deleted])).length
    status := .completed
    error := none }

structure Completed (run : ReconciliationRun) (job : SyncJob) (w0 : World)
    (keys : List (FindingKind × String)) (w : World) : Prop where
  findings : ∃ new, w.db.findings = w0.db.findings ++ new ∧ new.map reportKey = keys ∧
    ∀ f ∈ new, f.runID = run.id ∧ f.tenantID = job.tenantID ∧ f.status = .pending
  row : ∃ total, completed run total keys ∈ w.db.runs

/-! ## What each part of the sweep reports -/

theorem returns_orAbort {α : Type} {p : Sync α} {post : α → World → Prop} (hp : Returns env p w post) :
    Returns env (orAbort job p) w post :=
  yields_attempt hp (fun _ _ h => yields_return h)

def mappedBy (db : Database) (tenantID entityType source id : String) : Option CanonicalRecord :=
  (db.canonicalsWithProvider tenantID entityType source id).head?

namespace Sweep

variable {s : Sweep} {p : Progress} {recs : List ProviderRecord}
  {db : Database} {c : CanonicalRecord} {id cursor : String} {rec : ProviderRecord} {sim : SimServer}
  {limit : Int} {page : Page} {fuel : Nat}

def reportOf (s : Sweep) (db : Database) (rec : ProviderRecord) : Option (FindingKind × String) :=
  if rec.deleted then none
  else
    (classify (mappedBy db s.job.tenantID s.entityType s.run.source rec.id)
      (s.src.adapter.normalize rec).fields).map (fun kind => (kind, rec.id))

def reportsMissing (s : Sweep) (seen : List String) (c : CanonicalRecord) : Bool :=
  !(c.tombstone ∨ c.providerID s.run.source = "" ∨ c.providerID s.run.source ∈ seen)

structure Fresh (s : Sweep) (w0 : World) : Prop where
  manual : s.run.mode = .manual
  new : ∀ f ∈ w0.db.findings, f.runID ≠ s.run.id
  unique : ∀ c c' id, Owned s.src.adapter s.job.tenantID w0.db c →
    Owned s.src.adapter s.job.tenantID w0.db c' → c.providerIDs s.run.source = some id →
      c'.providerIDs s.run.source = some id → c = c'
  valid : ∀ r ∈ (w0.sims s.src.endpoint).records.rows, r.deleted = false →
    s.src.adapter.validate (providerRecord r) = .ok ()

theorem mem_canonicalsWithProvider : c ∈ db.canonicalsWithProvider s.job.tenantID s.entityType s.run.source id
      ↔ Owned s.src.adapter s.job.tenantID db c ∧ c.providerIDs s.run.source = some id := by
  constructor
  · intro h
    obtain ⟨hmem, hrow⟩ := List.mem_filter.mp h
    obtain ⟨htenant, htype, hmap⟩ := of_decide_eq_true hrow
    exact ⟨⟨hmem, htenant, htype⟩, hmap⟩
  · rintro ⟨⟨hmem, htenant, htype⟩, hmap⟩
    exact List.mem_filter.mpr ⟨hmem, decide_eq_true ⟨htenant, htype, hmap⟩⟩

theorem Fresh.length_le (hs : s.Fresh w0) (id : String) :
    (w0.db.canonicalsWithProvider s.job.tenantID s.entityType s.run.source id).length ≤ 1 := by
  have hnodup : (w0.db.canonicalsWithProvider s.job.tenantID s.entityType s.run.source id).Nodup :=
    (List.Nodup.of_map _ w0.db.canonical.nodup).filter _
  have hall : ∀ c ∈ w0.db.canonicalsWithProvider s.job.tenantID s.entityType s.run.source id,
      ∀ c' ∈ w0.db.canonicalsWithProvider s.job.tenantID s.entityType s.run.source id, c = c' := by
    intro c hc c' hc'
    obtain ⟨howned, hmap⟩ := mem_canonicalsWithProvider.mp hc
    obtain ⟨howned', hmap'⟩ := mem_canonicalsWithProvider.mp hc'
    exact hs.unique c c' id howned howned' hmap hmap'
  rcases hrows : w0.db.canonicalsWithProvider s.job.tenantID s.entityType s.run.source id with _ |
    ⟨c, _ | ⟨c', rest⟩⟩
  · exact Nat.zero_le _
  · exact le_rfl
  · rw [hrows] at hnodup hall
    have heq := hall c (.head _) c' (.tail _ (.head _))
    exact absurd (heq ▸ (.head _)) (List.nodup_cons.mp hnodup).1

theorem anyRow_eq_head? {α : Type} {l : List α} (h : l.length ≤ 1) (pick : Nat) :
    anyRow pick l = l.head? := by
  match l, h with
  | [], _ => rfl
  | [a], _ => exact anyRow_singleton pick a

theorem compare_reported (hs : s.Fresh w0) (hkey : ∀ kind, (kind, rec.id) ∉ keys)
    (h : Reported s.run s.job w0 keys w) :
    Returns env (s.compare env rec canonical p) w (fun p' w' => p'.seen = p.seen ∧
      Reported s.run s.job w0 (keys ++ ((classify canonical (s.src.adapter.normalize rec).fields).map
        (fun kind => (kind, rec.id))).toList) w') := by
  unfold compare
  dsimp only
  cases classify canonical (s.src.adapter.normalize rec).fields with
  | none =>
    refine yields_return ⟨rfl, ?_⟩
    rwa [Option.map_none, Option.toList_none, List.append_nil]
  | some kind =>
    refine yields_attempt (record_reported hs.manual hs.new (hkey kind) h) (fun _ w' h' => ?_)
    exact yields_return ⟨rfl, h'⟩

theorem liveIDs_deleted (h : rec.deleted = true) : liveIDs [rec] = [] := by
  simp only [liveIDs, List.filter_cons, h, Bool.not_true, Bool.false_eq_true, if_false, List.filter_nil,
    List.map_nil]

theorem liveIDs_live (h : rec.deleted = false) : liveIDs [rec] = [rec.id] := by
  simp only [liveIDs, List.filter_cons, h, Bool.not_false, if_true, List.filter_nil, List.map_cons,
    List.map_nil]

theorem sweepRecord_reported (hs : s.Fresh w0)
    (hvalid : rec.deleted = false → s.src.adapter.validate rec = .ok ())
    (hkey : ∀ kind, (kind, rec.id) ∉ keys) (h : Reported s.run s.job w0 keys w) :
    Returns env (s.sweepRecord env rec p) w (fun p' w' => p'.seen = (liveIDs [rec]).reverse ++ p.seen ∧
      Reported s.run s.job w0 (keys ++ (s.reportOf w0.db rec).toList) w') := by
  unfold sweepRecord reportOf
  split_ifs with hdeleted
  · rw [liveIDs_deleted hdeleted, Option.toList_none, List.append_nil]
    exact yields_return ⟨rfl, h⟩
  · have hlive : rec.deleted = false := Bool.eq_false_of_not_eq_true hdeleted
    rw [hvalid hlive, liveIDs_live hlive]
    -- the lookup answers with the only record that maps the id
    have hrow : ∀ pick, anyRow pick (w.db.canonicalsWithProvider s.job.tenantID s.entityType s.run.source
        rec.id) = mappedBy w0.db s.job.tenantID s.entityType s.run.source rec.id := by
      intro pick
      have hsame : w.db.canonicalsWithProvider s.job.tenantID s.entityType s.run.source rec.id
          = w0.db.canonicalsWithProvider s.job.tenantID s.entityType s.run.source rec.id := by
        simp only [Database.canonicalsWithProvider, h.canonical]
      rw [hsame, anyRow_eq_head? (hs.length_le _)]
      rfl
    refine returns_lookup (fun pick c hc => ?_) (fun pick hc => ?_)
    · have hmapped := rowOrNotFound_ok hc
      rw [hrow pick] at hmapped
      rw [hmapped]
      exact compare_reported hs hkey h.called
    · have hmapped : mappedBy w0.db s.job.tenantID s.entityType s.run.source rec.id = none := by
        have hanswer : Database.rowOrNotFound (anyRow pick
            (w.db.canonicalsWithProvider s.job.tenantID s.entityType s.run.source rec.id)) = .error .notFound := hc
        rw [hrow pick] at hanswer
        cases hfound : mappedBy w0.db s.job.tenantID s.entityType s.run.source rec.id with
        | none => rfl
        | some c =>
          rw [hfound] at hanswer
          cases hanswer
      rw [hmapped]
      exact compare_reported hs hkey h.called

def reports (s : Sweep) (db : Database) (recs : List ProviderRecord) : List (FindingKind × String) :=
  recs.filterMap (s.reportOf db)

theorem reports_cons (db : Database) (rec : ProviderRecord) (recs : List ProviderRecord) :
    s.reports db (rec :: recs) = (s.reportOf db rec).toList ++ s.reports db recs := by
  unfold reports
  rw [List.filterMap_cons]
  cases s.reportOf db rec <;> rfl

theorem reportOf_id {k : FindingKind × String} (h : s.reportOf db rec = some k) : k.2 = rec.id := by
  unfold reportOf at h
  split_ifs at h
  obtain ⟨kind, _, rfl⟩ := Option.map_eq_some_iff.mp h
  rfl

theorem liveIDs_append (recs recs' : List ProviderRecord) :
    liveIDs (recs ++ recs') = liveIDs recs ++ liveIDs recs' := by
  rw [liveIDs, List.filter_append, List.map_append]
  rfl

theorem liveIDs_cons (rec : ProviderRecord) (recs : List ProviderRecord) :
    (liveIDs (rec :: recs)).reverse = (liveIDs recs).reverse ++ (liveIDs [rec]).reverse := by
  rw [← List.reverse_append, ← liveIDs_append, List.singleton_append]

theorem sweepPage_reported (hs : s.Fresh w0)
    (hvalid : ∀ rec ∈ recs, rec.deleted = false → s.src.adapter.validate rec = .ok ())
    (hkey : ∀ rec ∈ recs, ∀ kind, (kind, rec.id) ∉ keys) (hids : (recs.map ProviderRecord.id).Nodup)
    (h : Reported s.run s.job w0 keys w) :
    Returns env (s.sweepPage env recs p) w (fun p' w' => p'.seen = (liveIDs recs).reverse ++ p.seen ∧
      Reported s.run s.job w0 (keys ++ s.reports w0.db recs) w') := by
  induction recs generalizing p keys w with
  | nil =>
    refine yields_return ⟨rfl, ?_⟩
    rwa [reports, List.filterMap_nil, List.append_nil]
  | cons rec recs ih =>
    obtain ⟨hfirst, hrest⟩ := List.nodup_cons.mp hids
    refine yields_bind (sweepRecord_reported hs (hvalid rec (.head _)) (hkey rec (.head _)) h) ?_
    rintro p' w' ⟨hseen, h'⟩
    have hkey' : ∀ rec' ∈ recs, ∀ kind, (kind, rec'.id) ∉ keys ++ (s.reportOf w0.db rec).toList := by
      intro rec' hrec' kind hmem
      rcases List.mem_append.mp hmem with hold | hreport
      · exact hkey rec' (.tail _ hrec') kind hold
      · -- what was just reported is about another id
        have hid := reportOf_id (Option.mem_toList.mp hreport)
        exact hfirst (hid ▸ List.mem_map_of_mem hrec')
    refine yields_mono (ih (fun r hr => hvalid r (.tail _ hr)) hkey' hrest h') ?_
    rintro p'' w'' ⟨hseen', h''⟩
    refine ⟨?_, ?_⟩
    · rw [hseen', hseen, ← List.append_assoc, ← liveIDs_cons]
    · rwa [List.append_assoc, ← reports_cons] at h''

def ahead (sim : SimServer) (cursor : String) : List ProviderRecord :=
  (SimServer.after cursor sim.sorted).map providerRecord

theorem mem_ahead (h : rec ∈ ahead sim cursor) : ∃ r ∈ sim.records.rows, providerRecord r = rec := by
  obtain ⟨r, hr, rfl⟩ := List.mem_map.mp h
  exact ⟨r, mem_sorted.mp ((SimServer.after_suffix cursor sim.sorted).subset hr), rfl⟩

theorem nodup_ahead (sim : SimServer) (cursor : String) :
    ((ahead sim cursor).map ProviderRecord.id).Nodup := by
  rw [ahead, List.map_map]
  refine List.pairwise_map.mpr ((SimServer.after_sorted_lt sim cursor).imp ?_)
  intro r r' hlt
  exact ne_of_lt hlt

theorem ahead_page (h : World.page sim cursor limit = .ok page) :
    ahead sim cursor = page.records ++ (if nextCursor page = "" then [] else ahead sim (nextCursor page)) := by
  obtain ⟨hids, hrecords, hnext⟩ := page_eq h
  rw [hrecords, hnext]
  split_ifs with hlast
  · rw [List.append_nil, SimServer.list_last hids hlast]
    rfl
  · rw [ahead, ahead, ← List.map_append, SimServer.list_append hlast]

theorem page_pos (h : World.page sim cursor limit = .ok page) (hmore : nextCursor page ≠ "") :
    page.records ≠ [] := by
  obtain ⟨_, hrecords, hnext⟩ := page_eq h
  rw [hnext] at hmore
  obtain ⟨hlength, _⟩ := SimServer.list_next hmore
  intro hnil
  rw [hrecords, List.map_eq_nil_iff] at hnil
  rw [hnil] at hlength
  exact absurd hlength.symm (Nat.pos_iff_ne_zero.mp (SimServer.pageSize_pos limit))

/-- **The walk**, by induction on the fuel: every page but the last takes records off what is ahead. -/
theorem walk_reported (hs : s.Fresh w0) (hfuel : (ahead (w0.sims s.src.endpoint) cursor).length < fuel)
    (hkey : ∀ rec ∈ ahead (w0.sims s.src.endpoint) cursor, ∀ kind, (kind, rec.id) ∉ keys)
    (h : Reported s.run s.job w0 keys w) :
      Returns env (s.walk env fuel cursor p) w (fun p' w' => ∃ q, p' = some q ∧
      q.seen = (liveIDs (ahead (w0.sims s.src.endpoint) cursor)).reverse ++ p.seen ∧
      Reported s.run s.job w0 (keys ++ s.reports w0.db (ahead (w0.sims s.src.endpoint) cursor)) w') := by
  induction fuel generalizing cursor p keys w with
  | zero => exact absurd hfuel (Nat.not_lt_zero _)
  | succ fuel ih =>
    unfold walk
    have hlist : Returns env (orAbort s.job
      (perform (S := sig) (.list s.src.endpoint cursor s.job.batchSize))) w
        (fun page w' => World.page (w0.sims s.src.endpoint) cursor s.job.batchSize = .ok page ∧
          Reported s.run s.job w0 keys w') := by
      refine returns_orAbort (returns_list (fun page hpage => ⟨?_, h.called⟩))
      rwa [← h.sims]
    refine yields_bind hlist (fun page w1 => ?_)
    rintro ⟨hpage, h1⟩
    have hahead := ahead_page hpage
    have hsub : ∀ rec ∈ page.records, rec ∈ ahead (w0.sims s.src.endpoint) cursor := fun rec hrec =>
      hahead ▸ List.mem_append_left _ hrec
    have hnodup : (page.records.map ProviderRecord.id).Nodup := by
      have hall := nodup_ahead (w0.sims s.src.endpoint) cursor
      rw [hahead, List.map_append] at hall
      exact hall.of_append_left
    have hvalid : ∀ rec ∈ page.records, rec.deleted = false → s.src.adapter.validate rec = .ok () := by
      intro rec hrec hlive
      obtain ⟨r, hr, rfl⟩ := mem_ahead (hsub rec hrec)
      exact hs.valid r hr hlive
    refine yields_bind (sweepPage_reported hs hvalid (fun rec hrec => hkey rec (hsub rec hrec)) hnodup h1)
      (fun p2 w2 => ?_)
    rintro ⟨hseen, h2⟩
    have hprogress : Returns env (orAbort s.job (stmt (.updateSyncJobProgress s.job.id s.job.tenantID
        (nullablePtr (nextCursor page)) p2.processed p2.failed p2.total))) w2
        (fun _ w' => Reported s.run s.job w0 (keys ++ s.reports w0.db page.records) w') :=
      returns_orAbort (returns_stmt rfl (fun _ _ _ => ⟨h2.sims, h2.canonical, h2.runs, h2.findings⟩))
    refine yields_bind hprogress (fun _ w3 h3 => ?_)
    split_ifs with hlast
    · rw [if_pos hlast, List.append_nil] at hahead
      rw [hahead]
      exact yields_return ⟨p2, rfl, hseen, h3⟩
    · rw [if_neg hlast] at hahead
      have hlength : (ahead (w0.sims s.src.endpoint) (nextCursor page)).length < fuel := by
        have hpos := List.length_pos_iff.mpr (page_pos hpage hlast)
        rw [hahead, List.length_append] at hfuel
        omega
      have hkey' : ∀ rec ∈ ahead (w0.sims s.src.endpoint) (nextCursor page), ∀ kind,
          (kind, rec.id) ∉ keys ++ s.reports w0.db page.records := by
        intro rec hrec kind hmem
        rcases List.mem_append.mp hmem with hold | hreport
        · exact hkey rec (hahead ▸ List.mem_append_right _ hrec) kind hold
        · -- the ids of the page are not those that follow
          obtain ⟨rec', hrec', hreport⟩ := List.mem_filterMap.mp hreport
          have hid : rec.id = rec'.id := reportOf_id hreport
          have hall := nodup_ahead (w0.sims s.src.endpoint) cursor
          rw [hahead, List.map_append] at hall
          exact List.disjoint_of_nodup_append hall (List.mem_map_of_mem hrec') (hid ▸ List.mem_map_of_mem hrec)
      refine yields_mono (ih hlength hkey' h3) ?_
      rintro p' w' ⟨q, rfl, hseen', h'⟩
      refine ⟨q, rfl, ?_, ?_⟩
      · rw [hseen', hseen, hahead, liveIDs_append, List.reverse_append, List.append_assoc]
      · rwa [hahead, reports, List.filterMap_append, ← List.append_assoc]

theorem sweepMissing_reported (hs : s.Fresh w0) {seen : List String} {cs : List CanonicalRecord}
    (hkey : ∀ c ∈ cs, s.reportsMissing seen c = true → (.missing, c.providerID s.run.source) ∉ keys)
    (hids : ((cs.filter (s.reportsMissing seen)).map (fun c => c.providerID s.run.source)).Nodup)
    (h : Reported s.run s.job w0 keys w) : Returns env (s.sweepMissing env seen cs) w (fun _ w' => Reported s.run s.job w0
      (keys ++ (cs.filter (s.reportsMissing seen)).map (fun c => (.missing, c.providerID s.run.source))) w') := by
  induction cs generalizing keys w with
  | nil =>
    refine yields_return ?_
    rwa [List.filter_nil, List.map_nil, List.append_nil]
  | cons c cs ih =>
    unfold sweepMissing
    have hrest : ∀ c' ∈ cs, s.reportsMissing seen c' = true → (.missing, c'.providerID s.run.source) ∉ keys :=
      fun c' hc' => hkey c' (.tail _ hc')
    split_ifs with hskip
    · have hnot : s.reportsMissing seen c = false := by
        unfold reportsMissing
        rw [decide_eq_true hskip]
        rfl
      rw [List.filter_cons_of_neg (by rw [hnot]; exact Bool.false_ne_true)] at hids ⊢
      exact ih hrest hids h
    · have hreport : s.reportsMissing seen c = true := by
        unfold reportsMissing
        rw [decide_eq_false hskip]
        rfl
      rw [List.filter_cons_of_pos hreport] at hids ⊢
      obtain ⟨hfirst, hids⟩ := List.nodup_cons.mp hids
      refine yields_attempt (record_reported hs.manual hs.new (hkey c (.head _) hreport) h) (fun _ w' h' => ?_)
      have hkey' : ∀ c' ∈ cs, s.reportsMissing seen c' = true →
          (.missing, c'.providerID s.run.source) ∉ keys ++ [(.missing, c.providerID s.run.source)] := by
        intro c' hc' hreport' hmem
        rcases List.mem_append.mp hmem with hold | hlast
        · exact hrest c' hc' hreport' hold
        · have hid := (Prod.mk.inj (List.mem_singleton.mp hlast)).2
          exact hfirst (List.mem_map.mpr ⟨c', List.mem_filter.mpr ⟨hc', hreport'⟩, hid⟩)
      refine yields_mono (ih hkey' hids h') (fun _ w'' h'' => ?_)
      rw [List.map_cons]
      rwa [List.append_assoc, List.singleton_append] at h''

theorem mem_updateRun {r : ReconciliationRun} {g : ReconciliationRun → ReconciliationRun} (hr : r ∈ db.runs) :
    g r ∈ (db.updateRun r.id g).runs :=
  List.mem_map.mpr ⟨r, hr, if_pos rfl⟩

theorem finish_reported (hs : s.Fresh w0) (hrun : s.run ∈ w0.db.runs) {total : Int}
    (h : Reported s.run s.job w0 keys w) :
    Returns env (s.finish total) w (fun _ w' => Completed s.run s.job w0 keys w') := by
  have hcount : Returns env (orAbort s.job (stmt (.countReconciliationFindings s.job.tenantID s.run.id))) w
      (fun counts w' => counts = w.db.countFindings s.job.tenantID s.run.id ∧ Reported s.run s.job w0 keys w') := by
    refine returns_orAbort (returns_stmt rfl (fun _ counts hcounts => ⟨?_, h.called⟩))
    exact (Except.ok.inj hcounts).symm
  refine yields_bind hcount (fun counts w1 => ?_)
  rintro ⟨hcounts, h1⟩
  -- the run's row takes the counters, then the status
  let counted : ReconciliationRun :=
    { s.run with total, drift := counts.drift, missed := counts.missed, deleted := counts.deleted }
  have hcounters : Returns env (orAbort s.job
    (stmt (.updateReconciliationCounters s.run.id total counts.drift counts.missed
      counts.deleted))) w1 (fun _ w' => counted ∈ w'.db.runs ∧ w'.db.findings = w1.db.findings) := by
    refine returns_orAbort (returns_stmt rfl (fun _ _ _ => ⟨?_, rfl⟩))
    exact mem_updateRun (h1.runs ▸ hrun)
  refine yields_bind hcounters (fun _ w2 => ?_)
  rintro ⟨hrow2, hfindings2⟩
  have hfinish : Returns env (orAbort s.job (stmt (.finishReconciliationRun s.run.id .completed none))) w2
      (fun _ w' => { counted with status := .completed, error := none } ∈ w'.db.runs ∧ w'.db.findings = w1.db.findings) :=
    returns_orAbort (returns_stmt rfl (fun _ _ _ => ⟨mem_updateRun (r := counted) hrow2, hfindings2⟩))
  refine yields_bind hfinish (fun _ w3 => ?_)
  rintro ⟨hrow3, hfindings3⟩
  refine returns_stmt rfl (fun _ _ _ => ⟨?_, total, ?_⟩)
  · show ∃ new, w3.db.findings = _ ∧ _
    rw [hfindings3]
    exact h1.findings
  · have hcompleted : completed s.run total keys = { counted with status := .completed, error := none } := by
      simp only [completed, counted, hcounts, Database.countFindings, h.findingsOf hs.new]
    rwa [hcompleted]

theorem mem_seen : id ∈ liveIDs (ahead sim "") ↔ live sim id = true := by
  have hahead : ahead sim "" = sim.sorted.map providerRecord := rfl
  unfold live liveIDs
  rw [hahead, Option.any_eq_true]
  constructor
  · intro h
    obtain ⟨rec, hrec, hid⟩ := List.mem_map.mp h
    obtain ⟨hmem, hlive⟩ := List.mem_filter.mp hrec
    obtain ⟨r, hr, rfl⟩ := List.mem_map.mp hmem
    refine ⟨r, ?_, hlive⟩
    rw [← hid]
    exact Relational.Table.get?_of_mem (mem_sorted.mp hr)
  · rintro ⟨r, hr, hlive⟩
    have hid : r.id = id := Relational.Table.get?_key hr
    refine List.mem_map.mpr ⟨providerRecord r, List.mem_filter.mpr ⟨?_, hlive⟩, hid⟩
    exact List.mem_map_of_mem (mem_sorted.mpr (Relational.Table.mem_of_get? hr))

/-! ### What is reported is what diverges -/

theorem mappedBy_eq_some (hs : s.Fresh w0) :
      mappedBy w0.db s.job.tenantID s.entityType s.run.source id = some c ↔
      Owned s.src.adapter s.job.tenantID w0.db c ∧ c.providerIDs s.run.source = some id := by
  unfold mappedBy
  rw [← mem_canonicalsWithProvider]
  constructor
  · exact List.mem_of_head?
  · intro hc
    have hlength := hs.length_le id
    rcases hrows : w0.db.canonicalsWithProvider s.job.tenantID s.entityType s.run.source id with _ |
      ⟨c', _ | ⟨_, _⟩⟩
    · rw [hrows] at hc
      cases hc
    · rw [hrows] at hc
      rw [List.mem_singleton.mp hc]
      rfl
    · rw [hrows] at hlength
      exact absurd hlength (by simp)

theorem sprintAt_fields (cust : Customer) (f : Field) : sprintAt cust.fields f = cust.get f := rfl

theorem sameFields_eq_false {cust : Customer} (hfields : ∀ f, (c.fields f).isSome = true) :
    sameFields c.fields cust.fields = false ↔ ∃ f v, c.fields f = some v ∧ v.sprint ≠ cust.get f := by
  unfold sameFields
  rw [List.all_eq_false]
  constructor
  · rintro ⟨f, _, hne⟩
    obtain ⟨v, hv⟩ := Option.isSome_iff_exists.mp (hfields f)
    refine ⟨f, v, hv, fun heq => hne (decide_eq_true ?_)⟩
    rwa [sprintAt_fields, sprintAt, hv]
  · rintro ⟨f, v, hv, hne⟩
    refine ⟨f, Field.mem_all f, fun heq => hne ?_⟩
    have htext := of_decide_eq_true heq
    rwa [sprintAt_fields, sprintAt, hv] at htext

theorem reportOf_live {r : SimRecord} (hlive : r.deleted = false) : s.reportOf db (providerRecord r)
      = (classify (mappedBy db s.job.tenantID s.entityType s.run.source r.id)
          (s.src.adapter.normalize (providerRecord r)).fields).map (fun kind => (kind, r.id)) :=
  if_neg (Bool.not_eq_true _ ▸ hlive)

theorem mem_reports (hs : s.Fresh w0)
    (hfields : ∀ c, Owned s.src.adapter s.job.tenantID w0.db c → ∀ f, (c.fields f).isSome = true) :
    (kind, id) ∈ s.reports w0.db (ahead (w0.sims s.src.endpoint) "")
      ↔ kind ≠ .missing ∧ Diverges s.src.adapter s.job.tenantID s.run.source
      (w0.sims s.src.endpoint) w0.db kind id := by
  unfold reports
  rw [List.mem_filterMap]
  constructor
  · rintro ⟨rec, hrec, hreport⟩
    obtain ⟨r, hr, rfl⟩ := mem_ahead hrec
    unfold reportOf at hreport
    split_ifs at hreport with hdeleted
    have hlive : r.deleted = false := Bool.eq_false_of_not_eq_true hdeleted
    obtain ⟨kind', hclass, hkey⟩ := Option.map_eq_some_iff.mp hreport
    cases hkey
    refine ⟨classify_ne_missing hclass, ?_⟩
    cases hmapped : mappedBy w0.db s.job.tenantID s.entityType s.run.source (providerRecord r).id with
    | none =>
      rw [hmapped] at hclass
      cases hclass
      refine .missed hr hlive (fun c hc hmap => ?_)
      cases hmapped.symm.trans ((mappedBy_eq_some hs).mpr ⟨hc, hmap⟩)
    | some c =>
      obtain ⟨hc, hmap⟩ := (mappedBy_eq_some hs).mp hmapped
      rw [hmapped] at hclass
      unfold classify at hclass
      dsimp only at hclass
      split_ifs at hclass with htomb hsame
      · cases hclass
        exact .deleted hr hlive hc hmap htomb
      · cases hclass
        obtain ⟨f, v, hv, hne⟩ := (sameFields_eq_false (hfields c hc)).mp (Bool.not_eq_true _ ▸ hsame)
        exact .drift hr hlive hc hmap (Bool.not_eq_true _ ▸ htomb) hv hne
  · have hlisted : ∀ {r : SimRecord}, r ∈ (w0.sims s.src.endpoint).records.rows →
        providerRecord r ∈ ahead (w0.sims s.src.endpoint) "" := fun hr =>
      List.mem_map_of_mem (mem_sorted.mpr hr)
    rintro ⟨hkind, hdiverges⟩
    cases hdiverges with
    | @missed r hr hlive hfree =>
      refine ⟨_, hlisted hr, ?_⟩
      have hmapped : mappedBy w0.db s.job.tenantID s.entityType s.run.source r.id = none := by
        rw [Option.eq_none_iff_forall_not_mem]
        intro c hc
        obtain ⟨hc, hmap⟩ := (mappedBy_eq_some hs).mp hc
        exact hfree c hc hmap
      rw [reportOf_live hlive, hmapped]
      rfl
    | @deleted r c hr hlive hc hmap htomb =>
      refine ⟨_, hlisted hr, ?_⟩
      rw [reportOf_live hlive, (mappedBy_eq_some hs).mpr ⟨hc, hmap⟩, classify, if_pos htomb]
      rfl
    | @drift r c f v hr hlive hc hmap htomb hv hne =>
      refine ⟨_, hlisted hr, ?_⟩
      have hsame := (sameFields_eq_false (hfields c hc)).mpr ⟨f, v, hv, hne⟩
      rw [reportOf_live hlive, (mappedBy_eq_some hs).mpr ⟨hc, hmap⟩, classify,
        if_neg (Bool.not_eq_true _ ▸ htomb), if_neg (Bool.not_eq_true _ ▸ hsame)]
      rfl
    | missing => exact absurd rfl hkind

theorem nodup_reports (hids : (recs.map ProviderRecord.id).Nodup) : (s.reports db recs).Nodup := by
  have hsub : ((s.reports db recs).map Prod.snd).Sublist (recs.map ProviderRecord.id) := by
    unfold reports
    clear hids
    induction recs with
    | nil => exact List.Sublist.refl _
    | cons rec recs ih =>
      rw [List.filterMap_cons, List.map_cons]
      cases hreport : s.reportOf db rec with
      | none => exact ih.cons _
      | some k =>
        rw [List.map_cons, reportOf_id hreport]
        exact ih.cons_cons _
  exact List.Nodup.of_map _ (hids.sublist hsub)

section Missing

variable {cs : List CanonicalRecord} {seen : List String}

theorem mem_missing (hcs : cs.Perm (w0.db.canonicalsAt s.job.tenantID s.entityType s.run.source)) :
    c ∈ cs.filter (s.reportsMissing seen) ↔ Owned s.src.adapter s.job.tenantID w0.db c ∧ c.tombstone = false ∧
      ∃ id, c.providerIDs s.run.source = some id ∧ id ≠ "" ∧ id ∉ seen := by
  rw [List.mem_filter, hcs.mem_iff]
  unfold reportsMissing
  simp only [Bool.not_eq_true', decide_eq_false_iff_not, not_or, Bool.not_eq_true]
  constructor
  · rintro ⟨hmem, htomb, hid, hseen⟩
    obtain ⟨hrows, hrow⟩ := List.mem_filter.mp hmem
    obtain ⟨htenant, htype, hsome⟩ := of_decide_eq_true hrow
    obtain ⟨id, hmap⟩ := Option.isSome_iff_exists.mp hsome
    unfold CanonicalRecord.providerID at hid hseen
    rw [hmap] at hid hseen
    exact ⟨⟨hrows, htenant, htype⟩, htomb, id, hmap, hid, hseen⟩
  · rintro ⟨⟨hrows, htenant, htype⟩, htomb, id, hmap, hid, hseen⟩
    unfold CanonicalRecord.providerID
    rw [hmap]
    refine ⟨List.mem_filter.mpr ⟨hrows, decide_eq_true ⟨htenant, htype, ?_⟩⟩, htomb, hid, hseen⟩
    rw [hmap]
    rfl

theorem nodup_missing (hs : s.Fresh w0)
    (hcs : cs.Perm (w0.db.canonicalsAt s.job.tenantID s.entityType s.run.source)) :
    ((cs.filter (s.reportsMissing seen)).map (fun c => c.providerID s.run.source)).Nodup := by
  have hnodup : (w0.db.canonicalsAt s.job.tenantID s.entityType s.run.source).Nodup :=
    (List.Nodup.of_map _ w0.db.canonical.nodup).filter _
  refine List.Nodup.map_on (fun c hc c' hc' heq => ?_) ((hcs.nodup_iff.mpr hnodup).filter _)
  obtain ⟨howned, _, id, hmap, _, _⟩ := (mem_missing hcs).mp hc
  obtain ⟨howned', _, id', hmap', _, _⟩ := (mem_missing hcs).mp hc'
  simp only [CanonicalRecord.providerID, hmap, hmap', Option.getD_some] at heq
  exact hs.unique c c' id howned howned' hmap (heq ▸ hmap')

end Missing

theorem sweep_reported (hs : s.Fresh w0) (hrun : s.run ∈ w0.db.runs) (hcursor : s.job.cursor.getD "" = "")
    (hfields : ∀ c, Owned s.src.adapter s.job.tenantID w0.db c → ∀ f, (c.fields f).isSome = true)
    (hfuel : (w0.sims s.src.endpoint).records.rows.length < fuel) (h : Reported s.run s.job w0 [] w) :
    Returns env (s.sweep env fuel) w (fun done w' => done = true ∧ ∃ keys, keys.Nodup ∧ (∀ kind id, (kind, id) ∈ keys ↔
        Diverges s.src.adapter s.job.tenantID s.run.source (w0.sims s.src.endpoint) w0.db kind id) ∧
      Completed s.run s.job w0 keys w') := by
  let sim := w0.sims s.src.endpoint
  have hlength : (ahead sim "").length < fuel := by
    show (sim.sorted.map providerRecord).length < fuel
    rwa [List.length_map, SimServer.sorted, List.length_insertionSort]
  unfold sweep
  rw [hcursor]
  refine yields_bind (walk_reported hs hlength (fun _ _ _ => List.not_mem_nil) h) ?_
  rintro _ w1 ⟨p, rfl, hseen, h1⟩
  rw [List.nil_append] at h1
  have hlist : Returns env (orAbort s.job
    (stmt (.listCanonicalByProvider s.job.tenantID s.entityType s.run.source))) w1
      (fun cs w' => cs.Perm (w0.db.canonicalsAt s.job.tenantID s.entityType s.run.source) ∧
        Reported s.run s.job w0 (s.reports w0.db (ahead sim "")) w') := by
    refine returns_orAbort (returns_stmt rfl (fun pick cs hcs => ⟨?_, h1.called⟩))
    cases hcs
    rw [show w0.db.canonicalsAt s.job.tenantID s.entityType s.run.source
      = w1.db.canonicalsAt s.job.tenantID s.entityType s.run.source by simp only [Database.canonicalsAt, h1.canonical]]
    exact anyOrder_perm _ _
  refine yields_bind hlist (fun cs w2 => ?_)
  rintro ⟨hcs, h2⟩
  -- no key of the walk is one of the second pass
  have hkinds : ∀ k ∈ s.reports w0.db (ahead sim ""), k.1 ≠ .missing :=
    fun k hk => ((mem_reports hs hfields).mp hk).1
  have hids : ((cs.filter (s.reportsMissing p.seen)).map (fun c => c.providerID s.run.source)).Nodup :=
    nodup_missing hs hcs
  refine yields_bind (sweepMissing_reported hs (fun _ _ _ hmem => hkinds _ hmem rfl) hids h2)
    (fun _ w3 h3 => ?_)
  refine yields_bind (finish_reported hs hrun h3)
    (fun _ w4 h4 => yields_return ⟨rfl, _, ?_, fun kind id => ?_, h4⟩)
  · refine List.nodup_append'.mpr ⟨nodup_reports (nodup_ahead sim ""), ?_, ?_⟩
    · have hpairs : ((cs.filter (s.reportsMissing p.seen)).map (fun c => c.providerID s.run.source)).map
          (fun id => (FindingKind.missing, id))
          = (cs.filter (s.reportsMissing p.seen)).map (fun c => (.missing, c.providerID s.run.source)) := by
        rw [List.map_map]
        rfl
      rw [← hpairs]
      exact hids.map (fun _ _ h => (Prod.mk.inj h).2)
    · intro k hk hmissing
      obtain ⟨c, _, rfl⟩ := List.mem_map.mp hmissing
      exact hkinds _ hk rfl
  · have hlive : ∀ id, id ∉ p.seen ↔ live sim id = false := by
      intro id
      rw [hseen, Sweep.resume, List.append_nil, List.mem_reverse, mem_seen, Bool.not_eq_true]
    rw [List.mem_append, mem_reports hs hfields]
    constructor
    · rintro (hwalk | hmissing)
      · exact hwalk.2
      · obtain ⟨c, hc, hkey⟩ := List.mem_map.mp hmissing
        obtain ⟨howned, htomb, id', hmap, hid, hnot⟩ := (mem_missing hcs).mp hc
        cases hkey
        rw [CanonicalRecord.providerID, hmap]
        exact .missing howned hmap htomb hid ((hlive id').mp hnot)
    · intro hdiverges
      by_cases hkind : kind = .missing
      · subst hkind
        cases hdiverges with
        | @missing c _ howned hmap htomb hid hnot =>
          have hc := (mem_missing hcs).mpr ⟨howned, htomb, id, hmap, hid, (hlive id).mpr hnot⟩
          refine .inr (List.mem_map.mpr ⟨c, hc, ?_⟩)
          rw [CanonicalRecord.providerID, hmap]
          rfl
      · exact .inl ⟨hkind, hdiverges⟩

end Sweep
/-! ## The whole run -/

theorem record_manual_only {P : Call → Prop} (hmode : run.mode = .manual)
    (hinsert : ∀ f, P (.store (.insertReconciliationFinding f))) :
    Only P (record env run job entityType kind providerID version canonical fields deletePolicy) := by
  refine only_bind (only_stmt (hinsert _)) (fun stored => ?_)
  unfold settle
  rw [if_neg (fun hauto => by rw [hmode] at hauto; exact absurd hauto.1 (by decide))]
  exact only_return _

def idle (o : Call) : Prop := o.isProvider = false ∧ o.writesCanonical = false

theorem idle_of_isSweep {o : Call} (ho : o.isSweep = true) : idle o := by
  cases o with
  | store s => cases s <;> first | exact ⟨rfl, rfl⟩ | cases ho
  | list => exact ⟨rfl, rfl⟩
  | _ => cases ho

theorem readRun_cases {jobID : String} (hruns : ∀ r ∈ w.db.runs, r.jobID = some jobID → r = run)
    {r : Except GoError ReconciliationRun}
    (hr : r = (World.handle env (.store (.getReconciliationRunByJobID jobID)) w).1) :
    r = .ok run ∨ ∃ e, r = .error e := by
  rcases World.handle_store env w (.getReconciliationRunByJobID jobID) with ⟨text, _, h⟩ | ⟨pick, _, h⟩
  · rw [h] at hr
    exact .inr ⟨_, hr⟩
  · rw [h] at hr
    cases r with
    | error e => exact .inr ⟨e, rfl⟩
    | ok found =>
      obtain ⟨hmem, hjob⟩ := List.mem_filter.mp (anyRow_mem (rowOrNotFound_ok hr.symm))
      rw [hruns found hmem (of_decide_eq_true hjob)]
      exact .inl rfl

theorem run_idle {fuel : Nat} (hruns : ∀ r ∈ w.db.runs, r.jobID = some job.id → r = run)
    (hmode : run.mode = .manual) : (watching (World.handle env) idle).wp (Reconcile.run env fuel job)
      (fun w' _ => w'.sims = w.sims ∧ w'.db.canonical = w.db.canonical) w := by
  have hkeep : ∀ (u : World) (o : Call), idle o → u.sims = w.sims ∧ u.db.canonical = w.db.canonical →
      (World.handle env o u).2.sims = w.sims ∧ (World.handle env o u).2.db.canonical = w.db.canonical := by
    intro u o ho hu
    exact ⟨(World.handle_sims ho.1).trans hu.1, (World.handle_canonical ho.2).trans hu.2⟩
  have hread : (watching (World.handle env) idle).wp (stmt (.getReconciliationRunByJobID job.id)) (fun w' r =>
      (r = .ok run ∨ ∃ e, r = .error e) ∧ w'.sims = w.sims ∧ w'.db.canonical = w.db.canonical) w := by
    refine (Monitor.wp_perform _).mpr ⟨idle_of_isSweep rfl, fun r hr => ⟨readRun_cases hruns hr, ?_⟩⟩
    exact hkeep w _ (idle_of_isSweep rfl) ⟨rfl, rfl⟩
  refine Monitor.wp_seq_attempt hread (fun w' r hr => watch_of_only ?_ hkeep hr.2)
  rcases hr.1 with rfl | ⟨e, rfl⟩
  · show Only (S := sig) idle (ite _ _ _)
    split_ifs
    · exact only_return _
    · exact sweepRun_only (fun _ ho => idle_of_isSweep (Call.isSweep_of_isOwn ho)) (fun _ _ _ _ _ _ _ => record_manual_only hmode (fun _ => ⟨rfl, rfl⟩))
  · cases e with
    | notFound => exact abort_only (fun _ ho => idle_of_isSweep (Call.isSweep_of_isOwn ho))
    | _ => exact only_throw _

theorem sweepRun_returns {a : Adapter} {ep : Endpoint} {post : Bool → World → Prop}
    (hconnected : ∀ conn ∈ w.db.connectionsOf job.tenantID run.source, ⟨conn.provider, conn.baseURL⟩ = ep)
    (hregistered : env.registry run.source = some a)
    (hsweep : Returns env (Sweep.sweep env ⟨run, job, ⟨a, ep⟩, deletePolicyFor (w.db.policiesOf job.tenantID) run.source⟩ fuel)
      w.called.called post) : Returns env (sweepRun env fuel job run) w post := by
  have hconn : Returns env (orAbort job (stmt (.getConnectionByProvider job.tenantID run.source))) w
      (fun conn w' => adapterFor env conn = .ok ⟨a, ep⟩ ∧ w' = w.called) := by
    refine returns_orAbort (returns_stmt rfl (fun pick conn hconn => ⟨?_, rfl⟩))
    have hmem := anyRow_mem (rowOrNotFound_ok hconn)
    have hprovider : conn.provider = run.source := (of_decide_eq_true (List.mem_filter.mp hmem).2).2
    unfold adapterFor
    rw [hprovider, hregistered, ← hconnected conn hmem, hprovider]
  refine yields_bind hconn (fun conn w1 => ?_)
  rintro ⟨hadapter, rfl⟩
  have hsrc : Returns env (orAbort job (ofExcept (adapterFor env conn))) w.called
      (fun src w' => src = ⟨a, ep⟩ ∧ w' = w.called) :=
    returns_orAbort (yields_ofExcept hadapter ⟨rfl, rfl⟩)
  refine yields_bind hsrc ?_
  rintro _ _ ⟨rfl, rfl⟩
  have hpolicies : Returns env (orAbort job (stmt (.listPolicies job.tenantID))) w.called
      (fun policies w' => policies = w.db.policiesOf job.tenantID ∧ w' = w.called.called) :=
    returns_orAbort (returns_stmt rfl (fun _ _ h => ⟨(Except.ok.inj h).symm, rfl⟩))
  refine yields_bind hpolicies ?_
  rintro _ _ ⟨rfl, rfl⟩
  exact hsweep

theorem run_returns {post : Bool → World → Prop}
    (hruns : ∀ r ∈ w.db.runs, r.jobID = some job.id → r = run) (hstatus : run.status = .running)
    (hrun : run ∈ w.db.runs → Returns env (sweepRun env fuel job run) w.called post) :
    Returns env (Reconcile.run env fuel job) w post := by
  have hread : Returns env (stmt (.getReconciliationRunByJobID job.id)) w
      (fun r w' => r = run ∧ run ∈ w.db.runs ∧ w' = w.called) := by
    refine returns_stmt rfl (fun pick found hfound => ?_)
    obtain ⟨hmem, hjob⟩ := List.mem_filter.mp (anyRow_mem (rowOrNotFound_ok hfound))
    obtain rfl := hruns found hmem (of_decide_eq_true hjob)
    exact ⟨rfl, hmem, rfl⟩
  refine yields_attempt hread ?_
  rintro _ _ ⟨rfl, hmem, rfl⟩
  show Returns env (ite _ _ _) _ _
  rw [if_neg (by rw [hstatus]; decide)]
  exact hrun hmem

/-- **A manual sweep finds exactly the divergences**, whatever the provider holds and whatever the page size
    is: it returns, it makes no request that changes a provider and changes no canonical record, and the
    findings it adds are the divergences, each once. The run's row counts them. -/
theorem manual_sweep_exact {fuel : Nat} {a : Adapter} {ep : Endpoint}
    (hmeets : meets (World.handle env) succeeds (Reconcile.run env fuel job) w = true)
    (hruns : ∀ r ∈ w.db.runs, r.jobID = some job.id → r = run) (hmode : run.mode = .manual)
    (hstatus : run.status = .running) (hcursor : job.cursor.getD "" = "") (hnew : ∀ f ∈ w.db.findings, f.runID ≠ run.id)
    (hconnected : ∀ conn ∈ w.db.connectionsOf job.tenantID run.source, ⟨conn.provider, conn.baseURL⟩ = ep)
    (hregistered : env.registry run.source = some a)
    (hvalid : ∀ r ∈ (w.sims ep).records.rows, r.deleted = false → a.validate (providerRecord r) = .ok ())
    (hunique : ∀ c c' id, Owned a job.tenantID w.db c → Owned a job.tenantID w.db c' →
      c.providerIDs run.source = some id → c'.providerIDs run.source = some id → c = c')
    (hfields : ∀ c, Owned a job.tenantID w.db c → ∀ f, (c.fields f).isSome = true)
    (hfuel : (w.sims ep).records.rows.length < fuel) :
    (Prog.run (World.handle env) (Reconcile.run env fuel job) w).1 = .ok true ∧
    (∀ e ∈ trace (World.handle env) (Reconcile.run env fuel job) w, e.op.isProvider = false) ∧
    (Prog.run (World.handle env) (Reconcile.run env fuel job) w).2.sims = w.sims ∧
    (Prog.run (World.handle env) (Reconcile.run env fuel job) w).2.db.canonical = w.db.canonical ∧
    ∃ new, (Prog.run (World.handle env) (Reconcile.run env fuel job) w).2.db.findings = w.db.findings ++ new ∧
      (∀ f ∈ new, f.runID = run.id ∧ f.tenantID = job.tenantID ∧ f.status = .pending) ∧ (new.map reportKey).Nodup ∧
      (∀ kind id, (kind, id) ∈ new.map reportKey ↔ Diverges a job.tenantID run.source (w.sims ep) w.db kind id) ∧
      ∃ total, completed run total (new.map reportKey)
        ∈ (Prog.run (World.handle env) (Reconcile.run env fuel job) w).2.db.runs := by
  obtain ⟨hidle, hsims, hcanonical⟩ := trace_of_wp (@run_idle env run job w fuel hruns hmode)
  have hreturns : Returns env (Reconcile.run env fuel job) w (fun done w' => done = true ∧
    ∃ keys, keys.Nodup ∧
      (∀ kind id, (kind, id) ∈ keys ↔ Diverges a job.tenantID run.source (w.sims ep) w.db kind id) ∧
      Completed run job w keys w') := by
    refine run_returns hruns hstatus (fun hmem => sweepRun_returns hconnected hregistered ?_)
    have hreported : Reported run job w [] w.called.called.called :=
      ⟨rfl, rfl, rfl, [], (List.append_nil _).symm, rfl, fun _ hf => absurd hf List.not_mem_nil⟩
    exact Sweep.sweep_reported ⟨hmode, hnew, hunique, hvalid⟩ hmem hcursor hfields hfuel hreported
  obtain ⟨_, hdone, rfl, keys, hnodup, hkeys, ⟨new, hfindings, rfl, hall⟩, hrow⟩ :=
    run_of_yields hreturns hmeets
  exact ⟨hdone, fun e he => (hidle e he).1, hsims, hcanonical, new, hfindings, hall, hnodup, hkeys, hrow⟩

/-! ## A sweep with a drifted and a missing record -/

def astray : World :=
  swept .manual [policy "salesforce" "hubspot"] [{ annRow with fields := bobRow.fields }, bobRow]

def smallPages : SyncJob := { sweepJob with batchSize := 1 }

theorem manual_sweep_exact_astray :
    (Prog.run (World.handle Deployment.env) (Reconcile.run Deployment.env 2 smallPages)
        astray).2.db.findings.map reportKey = [(.drift, "sf-1"), (.missing, "sf-9")] ∧
      ∃ new, (Prog.run (World.handle Deployment.env) (Reconcile.run Deployment.env 2 smallPages)
          astray).2.db.findings = astray.db.findings ++ new ∧ (∀ kind id, (kind, id) ∈ new.map reportKey ↔
          Diverges salesforce tenant "salesforce" (astray.sims sf) astray.db kind id) ∧
        ∃ total, completed (sweepOf .manual) total (new.map reportKey)
          ∈ (Prog.run (World.handle Deployment.env) (Reconcile.run Deployment.env 2 smallPages) astray).2.db.runs := by
  refine ⟨by decide +kernel, ?_⟩
  have hrows : ∀ c ∈ astray.db.canonical.rows, c = { annRow with fields := bobRow.fields } ∨ c = bobRow := by
    intro c hc
    have hc : c ∈ [{ annRow with fields := bobRow.fields }, bobRow] := hc
    simpa using hc
  obtain ⟨_, _, _, _, new, hfindings, _, _, hkeys, hrow⟩ :=
    @manual_sweep_exact Deployment.env (sweepOf .manual) smallPages astray 2 salesforce sf (by decide +kernel)
      (fun r hr _ => List.mem_singleton.mp hr) rfl rfl rfl
    (fun _ hf => absurd hf List.not_mem_nil) (by decide) rfl (by decide)
    (by
      intro c c' id hc hc' hmap hmap'
      rcases hrows c hc.1 with rfl | rfl <;> rcases hrows c' hc'.1 with rfl | rfl
      · rfl
      · exact absurd (hmap.trans hmap'.symm) (by decide)
      · exact absurd (hmap.trans hmap'.symm) (by decide)
      · rfl)
    (by
      intro c hc f
      rcases hrows c hc.1 with rfl | rfl <;> rfl)
    (by decide)
  exact ⟨new, hfindings, hkeys, hrow⟩

end SyncForge.Reconcile
