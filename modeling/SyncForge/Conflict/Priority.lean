import SyncForge.Api.Decision
import SyncForge.Conflict.History
import SyncForge.Deployment
import SyncForge.Worker.Rewrites

/-!
# `Conflict.Priority` — the priorities on record

A field's owner is stored with a priority, which `Resolve` compares with that of the incoming event's policy.
`Merge` stores the priorities of the policies; a resolution keeps the number beside the field, whoever owned
it, and an adopted record gets 100 everywhere.
-/

namespace SyncForge.Priority

open Effect
open Effect.Prog (run)
open Transition Rewrite
open Deployment (annCreated annRow linked policy record sf sims sweepOf tenant world)

abbrev Priorities := String → String → Int

def Configures (priority : Priorities) (db : Database) : Prop :=
  ∀ p ∈ db.policies.rows, p.sourcePriority = priority p.tenantID p.source

def Configured (priority : Priorities) (c : CanonicalRecord) : Prop :=
  ∀ f prov, c.fieldProvenance f = some prov → prov.priority = priority c.tenantID prov.source

def keptPriority (c : CanonicalRecord) (f : Field) : Int := ((c.fieldProvenance f).map (·.priority)).getD 100

def Resolves (ev : Event) : Prop := ev.provenance.reconcileFindingID = "" ∧
    ev.provenance.resolvedConflictID ≠ ""

def Fits (priority : Priorities) (ev : Event) (c : CanonicalRecord) : Prop :=
  Resolves ev → c.tenantID = ev.tenantID → c.entityID = ev.entityID → ∀ data f, ev.fields = some data →
    canonicalFields data f ≠ none → keptPriority c f = priority ev.tenantID ev.source

def Adoptable (priority : Priorities) (ev : Event) (runs : List ReconciliationRun)
    (f : ReconciliationFinding) : Prop :=
  f.tenantID = ev.tenantID → f.id = ev.provenance.reconcileFindingID → f.status = .pending →
    f.direction = .adoptProvider → ∀ r ∈ runs, r.tenantID = ev.tenantID → r.id = f.runID →
      priority ev.tenantID r.source = 100

structure Neutral (priority : Priorities) (ev : Event) (db : Database) : Prop where
  resolution : ∀ c ∈ db.canonical.rows, Fits priority ev c
  adoption : ∀ f ∈ db.findings, Adoptable priority ev db.runs f

/-! ## Runs -/

def Sequential (w : World) : Act → Prop
  | .event _ => True
  | .change w' => w'.db.canonical = w.db.canonical ∧ w'.db.policies = w.db.policies

def NeutralRun (priority : Priorities) (w : World) (a : Act) : Prop :=
  Sequential w a ∧ match a with
    | .event ev => Neutral priority ev w.db
    | .change _ => True

/-! ## The five rewrites -/

variable {priority : Priorities} {ev : Event} {c c' : CanonicalRecord}
  {runs : List ReconciliationRun} {entityType id : String}

def known (priority : Priorities) (ev : Event) (runs : List ReconciliationRun) : Known where
  row c := Configured priority c ∧ Fits priority ev c
  policy p := p.sourcePriority = priority p.tenantID p.source
  finding := Adoptable priority ev runs
  run r := r ∈ runs

theorem row_congr (h : (known priority ev runs).row c) (htenant : c'.tenantID = c.tenantID)
    (hid : c'.entityID = c.entityID) (howners : c'.fieldProvenance = c.fieldProvenance) :
    (known priority ev runs).row c' := by
  refine ⟨fun f prov hf => ?_, fun hev ht he data f hdata hf => ?_⟩
  · rw [howners] at hf
    rw [htenant]
    exact h.1 f prov hf
  · unfold keptPriority
    rw [howners]
    exact h.2 hev (htenant ▸ ht) (hid ▸ he) data f hdata hf

theorem priorityOf_targets {ps : List SyncPolicy} (hne : targets ev entityType ps ≠ [])
    (hps : ∀ p ∈ ps, p.sourcePriority = priority p.tenantID p.source ∧ p.tenantID = ev.tenantID) :
    priorityOf (targets ev entityType ps) = priority ev.tenantID ev.source := by
  cases htargets : targets ev entityType ps with
  | nil => exact absurd htargets hne
  | cons p rest =>
    have hp : p ∈ targets ev entityType ps := htargets ▸ (.head _)
    obtain ⟨hmem, hmatch⟩ := List.mem_filter.mp hp
    obtain ⟨hpriority, htenant⟩ := hps p hmem
    rwa [htenant, (of_decide_eq_true hmatch).1] at hpriority

theorem found_row {source email : String}
    (h : Found (known priority ev runs) ev.tenantID entityType source id email c) :
    Configured priority c ∧ c.tenantID = ev.tenantID := by
  cases h with
  | mapped hrow htenant => exact ⟨hrow.1, htenant⟩
  | sharing hrow htenant => exact ⟨hrow.1, htenant⟩
  | fresh => exact ⟨nofun, rfl⟩

theorem rewrites_row (h : Rewrites (known priority ev runs) ev c) : (known priority ev runs).row c := by
  cases h with
  | @applied entityType ps cust c0 c' hreconcile htype hresolution hps htargets hfound hnewer hauto
      hrelinked =>
    refine ⟨fun f prov hprov => ?_, fun hev => absurd hresolution hev.2⟩
    obtain ⟨hconfigured, htenant⟩ := found_row hfound
    rw [hrelinked] at hprov ⊢
    show prov.priority = priority c0.tenantID prov.source
    rw [htenant]
    rcases Conflict.merge_owner hauto hprov with rfl | hold
    · exact priorityOf_targets htargets hps
    · exact htenant ▸ hconfigured f prov hold
  | @resolved entityType data c0 c' hreconcile htype hresolution hdata hrow hkey hrelinked =>
    have hkey' : c0.tenantID = ev.tenantID ∧ c0.entityID = ev.entityID :=
      ⟨congrArg CanonicalKey.tenantID hkey, congrArg CanonicalKey.entityID hkey⟩
    have hfits := hrow.2 ⟨hreconcile, hresolution⟩ hkey'.1 hkey'.2
    rw [hrelinked]
    refine ⟨fun f prov hprov => ?_, fun _ _ _ data' f hdata' hf => ?_⟩
    · show prov.priority = priority c0.tenantID prov.source
      change resolutionProvenance ev c0.fieldProvenance (canonicalFields data) f = some prov at hprov
      by_cases hf : canonicalFields data f = none
      · rw [resolutionProvenance_absent hf] at hprov
        exact hrow.1 f prov hprov
      · rw [resolutionProvenance_carried hf] at hprov
        cases hprov
        rw [hkey'.1]
        exact hfits data f hdata hf
    · -- the number beside the field is the one that was there
      cases hdata.symm.trans hdata'
      show ((resolutionProvenance ev c0.fieldProvenance (canonicalFields data) f).map (·.priority)).getD 100 = _
      rw [resolutionProvenance_carried hf]
      exact hfits data f hdata hf
  | deleted _ _ hrow => exact row_congr hrow rfl rfl rfl
  | pushed _ _ hrow => exact row_congr hrow rfl rfl rfl
  | @adopted finding run entityType email c0 c' hrepairs hdirection hfound hrelinked =>
    refine ⟨fun f prov hprov => ?_, fun hev => absurd hev.1 hrepairs.marked⟩
    cases hprov
    have htenant : (named finding c0).tenantID = ev.tenantID := by
      unfold named
      split_ifs <;> exact (found_row hfound).2
    rw [hrelinked]
    show 100 = priority (named finding c0).tenantID run.source
    rw [htenant]
    exact (hrepairs.known hrepairs.id.1 hrepairs.id.2 hrepairs.pending hdirection run hrepairs.knownRun
      hrepairs.runID.1 hrepairs.runID.2).symm

theorem kept : Kept (known priority ev runs) ev where
  rewrites _ := rewrites_row
  links _ _ _ _ _ _ hrow _ := row_congr hrow rfl rfl rfl
  findings _ _ _ _ hstatus := fun _ _ hpending => absurd hpending hstatus

/-! ## Reachable states -/

variable {env : Env} {w w' : World}

structure Good (priority : Priorities) (db : Database) : Prop where
  policies : Configures priority db
  rows : ∀ c ∈ db.canonical.rows, Configured priority c

theorem Good.event (h : Good priority w.db) (hneutral : Neutral priority ev w.db) :
    Good priority (run (World.handle env) (process env ev) w).2.db := by
  have hknown : (known priority ev w.db.runs).Holds w.db :=
    ⟨fun c hc => ⟨h.rows c hc, hneutral.resolution c hc⟩, h.policies, hneutral.adoption, fun _ hr => hr⟩
  have hafter : (known priority ev w.db.runs).Holds (run (World.handle env) (process env ev) w).2.db :=
    process_keeps kept hknown
  exact ⟨hafter.policy, fun c hc => (hafter.row c hc).1⟩

theorem Good.run {as : List Act} (h : Good priority w.db)
    (hrun : Run (step env) (NeutralRun priority) w as w') : Good priority w'.db := by
  refine hrun.invariant (P := fun _ u => Good priority u.db) h (fun _ u a u' hu hok hstep => ?_)
  cases a with
  | event ev =>
    cases hstep
    exact hu.event hok.2
  | change v =>
    cases hstep
    obtain ⟨⟨hcanonical, hpolicies⟩, _⟩ := hok
    refine ⟨?_, ?_⟩
    · unfold Configures
      rw [hpolicies]
      exact hu.policies
    · rw [hcanonical]
      exact hu.rows

/-- **The stored priorities are the configured ones**, along any run whose events are neutral; and every
    conflict a merge detects compares configured priorities. -/
theorem stored_priorities_configured {as : List Act} (hpolicies : Configures priority w.db)
    (hrows : ∀ c ∈ w.db.canonical.rows, Configured priority c)
      (hrun : Run (step env) (NeutralRun priority) w as w') :
    (∀ c ∈ w'.db.canonical.rows, Configured priority c) ∧
      ∀ (ev : Event) (entityType : String) (cust : Customer), targets ev entityType (w'.db.policiesOf ev.tenantID) ≠ [] →
        ∀ c ∈ w'.db.canonical.rows, c.tenantID = ev.tenantID →
          ∀ d ∈ (mergedWith ev (targets ev entityType (w'.db.policiesOf ev.tenantID)) cust c).detected,
            d.a.priority = priority ev.tenantID d.a.source ∧ d.b.priority = priority ev.tenantID d.b.source := by
  have hgood := Good.run ⟨hpolicies, hrows⟩ hrun
  refine ⟨hgood.rows, fun ev entityType cust htargets c hc htenant d hd => ?_⟩
  unfold mergedWith at hd
  rw [Conflict.merge_detected, Conflict.mem_detect] at hd
  obtain ⟨v, _, hfield⟩ := hd
  obtain ⟨prov, howner, _, _, heq⟩ := Conflict.detectField_eq_some hfield
  rw [heq]
  refine ⟨htenant ▸ hgood.rows c hc d.field prov howner, priorityOf_targets htargets (fun p hp => ?_)⟩
  obtain ⟨hmem, hmatch⟩ := List.mem_filter.mp hp
  exact ⟨hgood.policies p hmem, (of_decide_eq_true hmatch).1⟩

/-! ## Ann, whose fields belong to two systems of different priority -/

instance {db : Database} : Decidable (Configures priority db) := List.decidableBAll _ _

instance : Decidable (Configured priority c) :=
  decidable_of_iff (∀ f ∈ Field.all, ∀ prov ∈ (c.fieldProvenance f).toList,
    prov.priority = priority c.tenantID prov.source)
    ⟨fun h f prov hprov => h f (Field.mem_all f) prov (Option.mem_toList.mpr hprov),
      fun h f _ prov hprov => h f prov (Option.mem_toList.mp hprov)⟩

def annPriority : Priorities := fun _ source => if source = "salesforce" then 1 else 2

def ranked : World :=
  { world
      [{ policy "salesforce" "hubspot" with sourcePriority := 1, conflictStrategy := .manual },
       { policy "hubspot" "salesforce" with sourcePriority := 2, conflictStrategy := .manual }] with
    sims := fun ep => if ep = sf then (linked false).sims ep else sims ep }

def annRenamed : Event where
  eventID := "h1"
  tenantID := tenant
  source := "hubspot"
  entityType := "contact"
  entityID := "hub-000001"
  eventType := .updated
  sourceVersion := 5
  occurredAt := 5
  fields := some (record hubspot "Anna" "Lee" "ann@x")

def after (w : World) (events : List Event) : World :=
  events.foldl (fun w ev => (run (World.handle Deployment.env) (process Deployment.env ev) w).2) w

theorem neutral_of_unmarked {db : Database} (hresolution : ev.provenance.resolvedConflictID = "")
    (hfindings : db.findings = []) : Neutral priority ev db where
  resolution _ _ := fun hev => absurd hresolution hev.2
  adoption f hf := by
    rw [hfindings] at hf
    cases hf

theorem stored_priorities_ann : (after ranked [annCreated, annRenamed]).db.conflicts.rows.length = 1 ∧
    (after ranked [annCreated, annRenamed]).db.canonical.rows.length = 1 ∧
    ∀ c ∈ (after ranked [annCreated, annRenamed]).db.canonical.rows, Configured annPriority c := by
  have hrun : Run (step Deployment.env) (NeutralRun annPriority) ranked [.event annCreated, .event annRenamed]
      (after ranked [annCreated, annRenamed]) := by
    have hfindings : (after ranked [annCreated]).db.findings = [] :=
      List.eq_nil_of_length_eq_zero (by decide +kernel)
    exact .head ⟨trivial, neutral_of_unmarked rfl rfl⟩ rfl
      (.single ⟨trivial, neutral_of_unmarked rfl hfindings⟩ rfl)
  exact ⟨by decide +kernel, by decide +kernel, (stored_priorities_configured (by decide) (by decide) hrun).1⟩

theorem handleResolveConflict_only {tenant : String} {body : Option String} :
    Prog.Only (fun o : Call => o.writesCanonical = false) (Api.handleResolveConflict env tenant id body) := by
  refine Prog.only_bind (Prog.only_attempt (only_stmt rfl)) (fun r => ?_)
  split
  · trivial
  · trivial
  · split_ifs
    · trivial
    · cases body with
      | none => trivial
      | some side =>
        dsimp only
        split_ifs
        · trivial
        · refine Prog.only_bind (Prog.only_perform rfl) (fun now => ?_)
          refine Prog.only_bind (Prog.only_attempt (only_stmt rfl)) (fun r => ?_)
          split <;> trivial

def decided : World :=
  (run (World.handle Deployment.env) (Api.handleResolveConflict Deployment.env tenant "u" (some "b"))
    (after ranked [annCreated, annRenamed])).2

theorem decided_canonical : decided.db.canonical = (after ranked [annCreated, annRenamed]).db.canonical ∧
    decided.db.policies = (after ranked [annCreated, annRenamed]).db.policies :=
  Prog.run_invariant
    (I := fun u : World => u.db.canonical = (after ranked [annCreated, annRenamed]).db.canonical ∧
      u.db.policies = (after ranked [annCreated, annRenamed]).db.policies)
    handleResolveConflict_only
    (fun _ _ ho hu => ⟨(World.handle_canonical ho).trans hu.1, World.handle_policies.trans hu.2⟩) ⟨rfl, rfl⟩

def queued : Option Event := decided.db.retryQueue.rows.head?.bind (fun r => r.state.unmarshal.toOption)

def annResolved : Event := queued.getD annRenamed

theorem queued_eq : queued = some annResolved := by
  have hsome : queued.isSome = true := by decide +kernel
  obtain ⟨ev, hev⟩ := Option.isSome_iff_exists.mp hsome
  unfold annResolved
  rw [hev]
  rfl

def missed : ReconciliationFinding :=
  { id := "f1", runID := "r1", tenantID := tenant, kind := .missed, providerID := "sf-1", canonicalID := ""
    providerFields := annRow.fields, providerVersion := 1, direction := .adoptProvider, status := .pending }

def reported : World := { ranked with db := { ranked.db with runs := [sweepOf .auto], findings := [missed] } }

def annAdopted : Event := Api.applyEvent tenant (sweepOf .auto) missed 0

/-- **Stored priorities differ from the configured ones.** HubSpot's side is chosen in a conflict, and HubSpot
    owns the fields with Salesforce's priority 1; or a record of Salesforce is adopted, and Salesforce owns
    its fields with priority 100. -/
theorem stored_priorities_differ : Configures annPriority ranked.db ∧ (queued = some annResolved ∧
      ∃ w', Run (step Deployment.env) Sequential ranked
          [.event annCreated, .event annRenamed, .change decided, .event annResolved] w' ∧
        ¬ ∀ c ∈ w'.db.canonical.rows, Configured annPriority c) ∧
    ∃ w', Run (step Deployment.env) Sequential reported [.event annAdopted] w' ∧
      ¬ ∀ c ∈ w'.db.canonical.rows, Configured annPriority c := by
  refine ⟨by decide, ⟨queued_eq, after decided [annResolved], ?_, by decide +kernel⟩,
    after reported [annAdopted], .single trivial rfl, by decide +kernel⟩
  exact .head trivial rfl (.head trivial rfl (.head decided_canonical rfl (.single trivial rfl)))

end SyncForge.Priority
