import SyncForge.Reconcile.Policy
import SyncForge.Simulator.Paging

/-!
# `Reconcile.Missing` — missing findings and what the provider had

A missing finding says that a walk over the whole provider did not meet an id. Records come and go meanwhile,
but one that stays is met or still ahead of the cursor (`covers_page`). The cursor survives a crash, the ids
seen before it do not (`missing_though_live`).
-/

namespace SyncForge.Reconcile

open Effect Effect.Prog Store
open Deployment (annRow linked policy sf sweepJob sweepOf tenant)
open Transition (Run)

def live (sim : SimServer) (id : String) : Bool := (sim.records.get? id).any (fun r => !r.deleted)

structure Serves (tenantID source id : String) (ep : Endpoint) (w : World) : Prop where
  connected : ∀ conn ∈ w.db.connectionsOf tenantID source, ⟨conn.provider, conn.baseURL⟩ = ep
  live : live (w.sims ep) id = true

def Maps (tenantID entityID source id : String) (db : Database) : Prop :=
  ∀ c ∈ db.canonical.rows, c.tenantID = tenantID → c.entityID = entityID → c.providerIDs source = some id

/-! ## A record that stays is met -/

section

variable {sim : SimServer} {id cursor : String} {limit : Int} {p : Page} {seen : List String}

def covers (id cursor : String) (seen : List String) : Prop := id ∈ seen ∨ cursor = "" ∨ cursor < id

theorem covers_page (hlive : live sim id = true) (h : World.page sim cursor limit = .ok p)
    (hcovers : covers id cursor seen) :
    if Sweep.nextCursor p = "" then id ∈ (liveIDs p.records).reverse ++ seen
    else covers id (Sweep.nextCursor p) ((liveIDs p.records).reverse ++ seen) := by
  obtain ⟨hids, hrecords, hnext⟩ := page_eq h
  have hcover : id ∈ (liveIDs p.records).reverse ++ seen ∨ Sweep.nextCursor p ≠ "" ∧
    Sweep.nextCursor p < id := by
    rcases hcovers with hseen | hcursor
    · exact .inl (List.mem_append_right _ hseen)
    · obtain ⟨r, hr, hdeleted⟩ := (Option.any_eq_true _ _).mp hlive
      have hid : r.id = id := Relational.Table.get?_key hr
      rw [← hid] at hcursor ⊢
      rcases SimServer.list_covers (Relational.Table.mem_of_get? hr) hcursor hids with hmem | hbeyond
      · refine .inl (List.mem_append_left _ (List.mem_reverse.mpr ?_))
        rw [hrecords]
        exact List.mem_map.mpr ⟨SimServer.providerRecord r, List.mem_filter.mpr ⟨List.mem_map_of_mem hmem, hdeleted⟩, rfl⟩
      · rw [hnext]
        exact .inr hbeyond
  split_ifs with hlast
  · exact hcover.resolve_right (fun h => h.1 hlast)
  · exact hcover.imp_right (fun h => .inr h.2)

end

/-! ## No false missing finding -/

/-- What the findings of a run say when the id is live all along and the entity is mapped to it all along:
    none says the id is missing, and those about the entity are about the id. -/
def truthful (id : String) (entityID : Option String) (kind : FindingKind) (providerID canonicalID : String) :
    Prop :=
  (kind = .missing → providerID ≠ id) ∧ (kind ≠ .missed → entityID = some canonicalID → providerID = id)

def evidence (S : Subject) (id : String) (entityID : Option String) (ep : Endpoint)
    (hS : S.legit = truthful id entityID) :
    Evidence S (fun _ w => Serves S.tenantID S.source id ep w ∧
      ∀ e, entityID = some e → Maps S.tenantID e S.source id w.db) where
  reaches ep' := ep' = ep
  covers := covers id
  complete seen := id ∈ seen
  connected h hconn := h.1.connected _ hconn
  page := by
    rintro u _ cursor limit p seen rfl h hpage hcovers
    exact covers_page h.1.live hpage hcovers
  unmapped id' := by
    rw [hS]
    exact ⟨fun h => absurd h (by decide), fun h => absurd rfl h⟩
  mapped := by
    intro u entityType id' c kind h hc hkind
    rw [hS]
    refine ⟨fun h => absurd h hkind, fun _ hentity => ?_⟩
    obtain ⟨hmem, hrow⟩ := List.mem_filter.mp hc
    obtain ⟨htenant, _, hmap⟩ := of_decide_eq_true hrow
    have hid := h.2 c.entityID hentity c hmem htenant rfl
    rw [hmap] at hid
    exact Option.some.inj hid
  missing := by
    intro u entityType c seen h hc hcomplete hseen
    rw [hS]
    refine ⟨fun _ heq => hseen (heq ▸ hcomplete), fun _ hentity => ?_⟩
    obtain ⟨hmem, hrow⟩ := List.mem_filter.mp hc
    have hid := h.2 c.entityID hentity c hmem (of_decide_eq_true hrow).1 rfl
    unfold CanonicalRecord.providerID
    rw [hid]
    rfl

/-- **No false missing finding**, when no sweep of the run begins at a saved cursor that has passed the id. If
    the provider serves the id as a live record at every moment of the run, no finding says it is missing; and
    if moreover the entity is mapped to it at every moment, and no update of the record was answered that it
    is not there, then whatever a sweep creates at the source is created for another entity. Sweeps of any
    jobs and any other programs, ingestion among them, run interleaved; calls fail at will, and everything but
    policies, runs and findings may change in between. -/
theorem no_false_missing {env : Env} {w0 : World} {acts : List (Act Task World)}
    {c : Pool sig GoError Task World} {run : ReconciliationRun} {tenantID jobID id : String} {ep : Endpoint}
    (hrun : Run (Pool.step (setup env)) (fun c _ => Serves tenantID run.source id ep c.state) ⟨[], w0⟩ acts c)
    (hothers : ∀ p, .start (.other p) ∈ acts → Only (fun o => decides run.id o = false) p)
    (hjobs : ∀ fuel job, .start (.sweep fuel job) ∈ acts → job.id = jobID →
      job.tenantID = tenantID ∧ (job.cursor.getD "" = "" ∨ job.cursor.getD "" < id))
    (hundecided : Undecided run tenantID w0.db) (hjob : run.jobID = some jobID)
    (hnew : ∀ f ∈ w0.db.findings, f.runID ≠ run.id) :
    (∀ f ∈ c.state.db.findings, f.runID = run.id → f.kind = .missing → f.providerID ≠ id) ∧
    ∀ entityID, Run (Pool.step (setup env)) (fun c _ => Serves tenantID run.source id ep c.state ∧
        Maps tenantID entityID run.source id c.state.db) ⟨[], w0⟩ acts c →
      ∀ t ∈ c.threads, ∀ fuel job, t.task = .sweep fuel job → job.id = jobID → ¬ Refused t.log run.source id →
      ∀ pre ep' data r post, t.log = pre ++ ⟨.create ep' data, r⟩ :: post → ep'.provider = run.source →
        ∃ f, Repairing pre f ∧ f.canonicalID ≠ entityID := by
  let subject (entityID : Option String) : Subject :=
    ⟨tenantID, jobID, run.id, run.source, w0.db.policiesOf tenantID, truthful id entityID⟩
  have hsteady : ∀ entityID, (subject entityID).Steady w0.db := fun entityID =>
    hundecided.steady hjob (fun f hf h => absurd h (hnew f hf))
  have hstart : ∀ fuel job, .start (.sweep fuel job) ∈ acts → job.id = jobID →
      job.tenantID = tenantID ∧ covers id (job.cursor.getD "") [] := by
    intro fuel job hmem h
    obtain ⟨htenant, hcursor⟩ := hjobs fuel job hmem h
    exact ⟨htenant, .inr hcursor⟩
  constructor
  · intro f hf hf'
    have hsweeps := sweeps_of_run (evidence (subject none) id none ep rfl)
      (Z := Serves tenantID run.source id ep) hrun (fun _ _ h => ⟨h, fun _ h => nomatch h⟩) hothers hstart (hsteady none)
    exact (hsweeps.1.findings f hf hf').2.1
  · intro entityID hmaps t ht fuel job htask hj hrefused pre ep' data r post hlog hsource
    have hsweeps := sweeps_of_run (evidence (subject (some entityID)) id (some entityID) ep rfl)
      (Z := fun w => Serves tenantID run.source id ep w ∧ Maps tenantID entityID run.source id w.db) hmaps
      (fun _ _ h => ⟨h.1, fun _ he => Option.some.inj he ▸ h.2⟩) hothers hstart (hsteady _)
    have hmay := hsweeps.2 t ht fuel job htask hj pre _ post hlog
    have hmay : if ep'.provider = run.source then
        ∃ f, Repairing pre f ∧ (subject (some entityID)).recreates pre f else _ := hmay
    rw [if_pos hsource] at hmay
    obtain ⟨f, hf, _, ⟨hmissing, hentity⟩, hkind⟩ := hmay
    refine ⟨f, hf, fun heq => ?_⟩
    rcases hkind with ⟨hkind, _⟩ | ⟨hkind, ep, data, e, hmem, hrest⟩
    · exact hmissing hkind (hentity (by rw [hkind]; decide) (by rw [heq]))
    · -- the update was one of the id itself
      have hid : f.providerID = id := hentity (by rw [hkind]; decide) (by rw [heq])
      rw [hid] at hmem
      exact hrefused ⟨ep, data, e, by rw [hlog]; exact List.mem_append_left _ hmem, hrest⟩

/-! ## Two runs -/

/-- Salesforce serves Ann's record `sf-1`, and whatever canonical record she has maps it. -/
def annStays (w : World) : Bool :=
  (w.db.connectionsOf tenant "salesforce").all (fun conn =>
    (⟨conn.provider, conn.baseURL⟩ : Endpoint) = sf) &&
  live (w.sims sf) "sf-1" &&
  w.db.canonical.rows.all (fun c =>
    c.tenantID = tenant → c.entityID = "sf-1" → c.providerIDs "salesforce" = some "sf-1")

theorem annStays_iff {w : World} : annStays w = true ↔ Serves tenant "salesforce" "sf-1" sf w ∧
      Maps tenant "sf-1" "salesforce" "sf-1" w.db := by
  simp only [annStays, Bool.and_eq_true, List.all_eq_true, decide_eq_true_eq]
  exact ⟨fun h => ⟨⟨h.1.1, h.1.2⟩, h.2⟩, fun h => ⟨⟨h.1.1, h.1.2⟩, h.2⟩⟩

def annRuns (acts : List (Act Task World)) : Pool sig GoError Task World →
    Option (Pool sig GoError Task World) :=
  Transition.exec (Pool.step (setup Deployment.env)) (fun c _ => annStays c.state) acts

theorem run_of_annRuns {acts : List (Act Task World)} {c c' : Pool sig GoError Task World}
    (h : annRuns acts c = some c') :
    Run (Pool.step (setup Deployment.env)) (fun c _ => Serves tenant "salesforce" "sf-1" sf c.state ∧
        Maps tenant "sf-1" "salesforce" "sf-1" c.state.db) c acts c' :=
  (Transition.run_of_exec h).mono (fun _ _ _ hok => annStays_iff.mp hok)

def undoing : SyncPolicy := { policy "salesforce" "hubspot" with deletePolicy := .ignore }

theorem no_false_missing_bob : ∃ c, Run (Pool.step (setup Deployment.env)) (fun c _ =>
        Serves tenant "salesforce" "sf-1" sf c.state ∧ Maps tenant "sf-1" "salesforce" "sf-1" c.state.db)
        ⟨[], swept .auto [undoing] [annRow, bobRow]⟩ (oneSweep 20) c ∧
      c.state.db.findings.map (fun f => (f.kind, f.providerID)) = [(.missing, "sf-9")] ∧
      ((c.state.sims sf).records.rows.map SimRecord.id = ["sf-1", "sf-000002"]) ∧
      (∀ f ∈ c.state.db.findings, f.runID = "r1" → f.kind = .missing → f.providerID ≠ "sf-1") ∧
      ∀ t ∈ c.threads, ∀ fuel job, t.task = .sweep fuel job → job.id = "j1" → ¬ Refused t.log "salesforce" "sf-1" →
        ∀ pre ep' data r post, t.log = pre ++ ⟨.create ep' data, r⟩ :: post → ep'.provider = "salesforce" →
          ∃ f, Repairing pre f ∧ f.canonicalID ≠ "sf-1" := by
  have hexec : (annRuns (oneSweep 20) ⟨[], swept .auto [undoing] [annRow, bobRow]⟩).map (fun c =>
      (c.state.db.findings.map (fun f => (f.kind, f.providerID)), (c.state.sims sf).records.rows.map SimRecord.id))
        = some ([(.missing, "sf-9")], ["sf-1", "sf-000002"]) := by
    decide +kernel
  obtain ⟨c, hc, hfacts⟩ := Option.map_eq_some_iff.mp hexec
  obtain ⟨hfindings, hrecords⟩ := Prod.mk.inj hfacts
  have hrun := run_of_annRuns hc
  have hjobs : ∀ fuel job, .start (.sweep fuel job) ∈ oneSweep 20 → job.id = "j1" →
      job.tenantID = tenant ∧ (job.cursor.getD "" = "" ∨ job.cursor.getD "" < "sf-1") := by
    intro fuel job hmem _
    simp only [oneSweep, List.mem_cons, List.mem_replicate, reduceCtorEq, and_false, or_false, Act.start.injEq,
      Task.sweep.injEq] at hmem
    rw [hmem.2]
    exact ⟨rfl, .inl rfl⟩
  have hserves : Run (Pool.step (setup Deployment.env)) (fun c _ => Serves tenant
      (sweepOf .auto).source "sf-1" sf c.state) _ _ c := hrun.mono (fun _ _ _ h => h.1)
  obtain ⟨hmissing, hcreates⟩ := no_false_missing hserves (fun p hp => absurd hp (by simp [oneSweep])) hjobs
    undecided_swept rfl (fun _ hf => absurd hf List.not_mem_nil)
  exact ⟨c, hrun, hfindings, hrecords, hmissing, hcreates "sf-1" hrun⟩

/-- Salesforce holds Ann as `sf-1` and a deleted record after her; it is swept one record at a time. -/
def twoPages : World :=
  { swept .auto [undoing] [annRow] with
    db := { (swept .auto [undoing] [annRow]).db with jobs := [{ sweepJob with batchSize := 1 }] }
    sims := fun ep => { (linked false).sims ep with
      records := ((linked false).sims ep).records.upsert ⟨"sf-2", 1, 1, true, ∅⟩, nextID := 2 } }

def resumedJob : SyncJob :=
  { sweepJob with batchSize := 1, cursor := some "sf-1", processed := 1, total := 1 }

/-- **A sweep that is resumed finds live records missing**: the runner crashes after the first page, which was
    Ann's; the next one begins at the saved cursor, finds Ann missing and creates her a second time. She was
    live, and mapped, all along. -/
theorem missing_though_live : ∃ c1 c2, Run (Pool.step (setup Deployment.env)) (fun c _ =>
        Serves tenant "salesforce" "sf-1" sf c.state ∧ Maps tenant "sf-1" "salesforce" "sf-1" c.state.db) ⟨[], twoPages⟩
        (.start (.sweep 3 { sweepJob with batchSize := 1 }) :: List.replicate 6 (.fire 0)) c1 ∧
      c1.state.db.jobs = [resumedJob] ∧
      Run (Pool.step (setup Deployment.env)) (fun c _ =>
        Serves tenant "salesforce" "sf-1" sf c.state ∧
          Maps tenant "sf-1" "salesforce" "sf-1" c.state.db) c1
        (.start (.sweep 3 resumedJob) :: List.replicate 18 (.fire 1)) c2 ∧
      c2.state.db.findings.map (fun f => (f.kind, f.providerID)) = [(.missing, "sf-1")] ∧
      ((c2.state.sims sf).records.rows.filter (fun r =>
        !r.deleted && decide (r.data.get "email" = .str "ann@x"))).map SimRecord.id = ["sf-1", "sf-000003"] := by
  have hexec : ((annRuns (.start (.sweep 3 { sweepJob with batchSize := 1 }) :: List.replicate 6 (.fire 0))
      ⟨[], twoPages⟩).bind (fun c1 => (annRuns (.start (.sweep 3 resumedJob) :: List.replicate 18 (.fire 1)) c1).map (fun c2 =>
        (c1.state.db.jobs, c2.state.db.findings.map (fun f => (f.kind, f.providerID)),
          ((c2.state.sims sf).records.rows.filter (fun r =>
            !r.deleted && decide (r.data.get "email" = .str "ann@x"))).map SimRecord.id))))
        = some ([resumedJob], [(.missing, "sf-1")], ["sf-1", "sf-000003"]) := by
    decide +kernel
  obtain ⟨c1, hc1, hmap⟩ := Option.bind_eq_some_iff.mp hexec
  obtain ⟨c2, hc2, hfacts⟩ := Option.map_eq_some_iff.mp hmap
  obtain ⟨hjobs, hrest⟩ := Prod.mk.inj hfacts
  obtain ⟨hfindings, hrecords⟩ := Prod.mk.inj hrest
  exact ⟨c1, c2, run_of_annRuns hc1, hjobs, run_of_annRuns hc2, hfindings, hrecords⟩

end SyncForge.Reconcile
