import SyncForge.Deployment
import SyncForge.Reconcile.Sweeps

/-!
# `Reconcile.Policy` — automatic repairs and the delete policy of the swept entity

The engine gates a finding by a delete policy, the worker later picks the direction and the destinations, and
neither looks at the entity of a policy. So repairs obey the policies of the swept entity only where no policy
of another one mentions the source, and no update is answered with "not found".
-/

namespace SyncForge.Reconcile

open Effect Effect.Prog Store
open Deployment (annRow hub linked policy sf sweepJob sweepOf tenant world)
open Transition (Run)

/-- The delete policy of a source and an entity: that of the first policy of the entity from the source, or
    else that of the first policy of the entity to the source; where there is neither, deletes propagate. -/
def policyFor (policies : List SyncPolicy) (source entity : String) : DeletePolicy :=
  match policies.find? (fun p => p.source = source ∧ p.entity = entity) with
  | some p => p.deletePolicy
  | none =>
    match policies.find? (fun p => p.destination = source ∧ p.entity = entity) with
    | some p => p.deletePolicy
    | none => .propagate

def goesTo (policies : List SyncPolicy) (source entity provider : String) : Bool :=
  policies.any (fun p => p.source = source ∧ p.entity = entity ∧ p.destination = provider)

def obeys (policies : List SyncPolicy) (source entity : String) : Call → Bool
  | .create ep _ =>
    if ep.provider = source then
      policyFor policies source entity = .tombstoneOnly ∨ policyFor policies source entity = .ignore
    else goesTo policies source entity ep.provider
  | .update ep _ _ => ep.provider = source ∨ goesTo policies source entity ep.provider
  | .delete ep _ => ep.provider = source ∧ policyFor policies source entity = .propagate
  | _ => true

variable {policies : List SyncPolicy} {source entity : String} {log : List (Entry sig GoError)}

theorem find_entity {q : SyncPolicy → Prop} [DecidablePred q] (hq : ∀ p ∈ policies, q p → p.entity = entity) :
    policies.find? (fun p => q p ∧ p.entity = entity) = policies.find? q := by
  induction policies with
  | nil => rfl
  | cons p ps ih =>
    obtain ⟨hp, hps⟩ := List.forall_mem_cons.mp hq
    have hsame : decide (q p ∧ p.entity = entity) = decide (q p) :=
      decide_eq_decide.mpr (and_iff_left_of_imp hp)
    rw [List.find?_cons, List.find?_cons, hsame, ih hps]

/-- **The rule of the engine is that of the entity** where every policy that mentions the source is one of the
    entity. -/
theorem deletePolicyFor_eq (hentity : ∀ p ∈ policies, p.source = source ∨ p.destination = source →
    p.entity = entity) : deletePolicyFor policies source = policyFor policies source entity := by
  unfold policyFor
  rw [find_entity (fun p hp h => hentity p hp (.inl h)), find_entity (fun p hp h => hentity p hp (.inr h))]
  rfl

theorem obeys_of_may {S : Subject} {o : Call}
    (hentity : ∀ p ∈ S.policies, p.source = S.source ∨ p.destination = S.source → p.entity = entity)
    (hfound : ∀ id, ¬ Refused log S.source id) (ho : S.may log o) :
    obeys S.policies S.source entity o = true := by
  have hpolicy : S.deletePolicy = policyFor S.policies S.source entity := deletePolicyFor_eq hentity
  have hgoes : ∀ provider, S.destination provider → goesTo S.policies S.source entity provider = true := by
    rintro provider ⟨p, hp, hsource, hdestination⟩
    exact List.any_eq_true.mpr ⟨p, hp, decide_eq_true ⟨hsource, hentity p hp (.inl hsource), hdestination⟩⟩
  cases o with
  | create ep data =>
    simp only [Subject.may, obeys] at ho ⊢
    split_ifs at ho ⊢ with hsource
    · obtain ⟨f, _, _, _, ⟨_, hrecreate⟩ | ⟨_, hrefused⟩⟩ := ho
      · rwa [hpolicy] at hrecreate
      · exact absurd hrefused (hfound _)
    · exact hgoes _ ho
  | update ep id data =>
    rcases ho with hsource | hdestination
    · exact decide_eq_true (.inl hsource)
    · exact decide_eq_true (.inr (hgoes _ hdestination))
  | delete ep id => exact decide_eq_true ⟨ho.1, hpolicy ▸ ho.2⟩
  | _ => rfl

/-- **Automatic repairs obey the delete policy of the swept source and entity**, where every policy that
    mentions the source is one of the entity, and no update at the source was answered that the record is not
    there. Sweeps of any jobs and any other programs run interleaved, calls fail at will, and everything but
    policies, runs and findings may change in between; only nobody overrides a finding's direction. -/
theorem repairs_obey_policy {env : Env} {w0 : World} {acts : List (Act Task World)}
    {c : Pool sig GoError Task World} {run : ReconciliationRun} {job : SyncJob} {t : Thread sig GoError Task}
    {fuel : Nat} {entity : String} (hrun : Run (Pool.step (setup env)) (fun _ _ => True) ⟨[], w0⟩ acts c)
    (hothers : ∀ p, .start (.other p) ∈ acts → Only (fun o => decides run.id o = false) p)
    (hjobs : ∀ fuel job', .start (.sweep fuel job') ∈ acts → job'.id = job.id → job'.tenantID = job.tenantID)
    (hundecided : Undecided run job.tenantID w0.db) (hjob : run.jobID = some job.id)
    (ht : t ∈ c.threads) (htask : t.task = .sweep fuel job)
    (hentity : ∀ p ∈ w0.db.policiesOf job.tenantID, p.source = run.source ∨ p.destination = run.source →
      p.entity = entity) (hfound : ∀ id, ¬ Refused t.log run.source id) :
    ∀ e ∈ t.log, obeys (w0.db.policiesOf job.tenantID) run.source entity e.op = true := by
  let S : Subject := ⟨job.tenantID, job.id, run.id, run.source, w0.db.policiesOf job.tenantID,
    fun _ _ _ => True⟩
  let E : Evidence S (fun _ _ => True) :=
    { reaches := fun _ => True
      covers := fun _ _ => True
      complete := fun _ => True
      connected := fun _ _ => trivial
      page := fun _ _ _ _ => by split_ifs
      unmapped := fun _ => trivial
      mapped := fun _ _ _ => trivial
      missing := fun _ _ _ _ => trivial }
  have hsteady : S.Steady w0.db := hundecided.steady hjob (fun _ _ _ => trivial)
  intro e he
  obtain ⟨pre, post, hlog⟩ := List.append_of_mem he
  have hmay := (sweeps_of_run E (Z := fun _ => True) hrun (fun _ _ _ => trivial) hothers
    (fun fuel job' hstart h => ⟨hjobs fuel job' hstart h, trivial⟩) hsteady).2 t ht fuel job htask rfl pre e
      post hlog
  refine obeys_of_may hentity (fun id hrefused => hfound id ?_) hmay
  obtain ⟨ep, data, err, hmem, hrest⟩ := hrefused
  exact ⟨ep, data, err, by rw [hlog]; exact List.mem_append_left _ hmem, hrest⟩

/-! ## Where they do not -/

def orders : SyncPolicy := { policy "salesforce" "hubspot" with entity := "order", deletePolicy := .ignore }

/-- Bob was `sf-9` in Salesforce. -/
def bobRow : CanonicalRecord :=
  { annRow with
    entityID := "sf-9"
    fields := fun f => some (.str (if f = .email then "bob@x" else "Bob"))
    providerIDs := fun provider => if provider = "salesforce" then some "sf-9" else none }

/-- An installation in which Salesforce holds Ann as `sf-1` and is about to be swept. -/
def swept (mode : RunMode) (policies : List SyncPolicy) (rows : List CanonicalRecord) : World :=
  { world policies with
    db := { (world policies).db with
      runs := [sweepOf mode], canonical := rows.foldl Relational.Table.upsert .empty }
    sims := (linked false).sims }

def oneSweep (calls : Nat) : List (Act Task World) :=
  .start (.sweep 2 sweepJob) :: List.replicate calls (.fire 0)

def drifted : World :=
  swept .auto [policy "salesforce" "hubspot"] [{ annRow with fields := bobRow.fields }]

def refusing : World :=
  { drifted with
    providerTape := fun n => if n = 14 then some ⟨.notFound, "", 0, none⟩ else none }

theorem undecided_swept {mode : RunMode} {rows : List CanonicalRecord} :
    Undecided (sweepOf mode) tenant (swept mode policies rows).db where
  sole _ hr _ := List.mem_singleton.mp hr
  ids := List.nodup_nil
  directed _ h := absurd h List.not_mem_nil

def sweepLog (w : World) (acts : List (Act Task World)) : Option (List (Entry sig GoError)) :=
  (Transition.exec (Pool.step (setup Deployment.env)) (fun _ _ => true) acts ⟨[], w⟩).bind (fun c =>
    c.threads.findSome? (fun t =>
      match t.task with
      | .sweep _ job => if job = sweepJob then some t.log else none
      | .other _ => none))

theorem exists_sweep {w : World} {acts : List (Act Task World)} {Q : List (Entry sig GoError) → Bool}
    (h : (sweepLog w acts).any Q = true) :
    ∃ c t fuel, Run (Pool.step (setup Deployment.env)) (fun _ _ => True) ⟨[], w⟩ acts c ∧ t ∈ c.threads ∧
      t.task = .sweep fuel sweepJob ∧ Q t.log = true := by
  obtain ⟨log, hlog, hQ⟩ := (Option.any_eq_true _ _).mp h
  obtain ⟨c, hc, hfind⟩ := Option.bind_eq_some_iff.mp hlog
  obtain ⟨t, ht, hsome⟩ := List.exists_of_findSome?_eq_some hfind
  split at hsome
  · rename_i fuel job htask
    split_ifs at hsome with hjob
    cases hsome
    exact ⟨c, t, fuel, Transition.exec_run hc, ht, by rw [htask, hjob], hQ⟩
  · cases hsome

def refused : Entry sig GoError → Bool
  | ⟨.update _ _ _, .error e⟩ => e.isKind .notFound
  | _ => false

theorem not_refused (h : log.any refused = false) (provider id : String) : ¬ Refused log provider id := by
  rintro ⟨ep, data, e, hmem, _, hkind⟩
  have hany : log.any refused = true := List.any_eq_true.mpr ⟨_, hmem, hkind⟩
  rw [h] at hany
  cases hany

/-- A request the delete policy of Salesforce is asked about. -/
def isGated : Call → Bool
  | .create ep _ => ep.provider = "salesforce"
  | .delete _ _ => true
  | _ => false

def reviving : SyncPolicy := { policy "salesforce" "hubspot" with deletePolicy := .tombstoneOnly }

/-- Two sweeps that make a gated request each: Bob is created again where deletions at Salesforce are not
    taken over, and Ann, deleted elsewhere, is deleted where deletes propagate. -/
theorem repairs_obey_policy_gated :
    (∃ c t fuel, Run (Pool.step (setup Deployment.env)) (fun _ _ => True) ⟨[], swept .auto [reviving] [bobRow]⟩
        (oneSweep 43) c ∧ t ∈ c.threads ∧ t.task = .sweep fuel sweepJob ∧ t.log.any (fun e => isGated e.op) = true ∧
      ∀ e ∈ t.log, obeys [reviving] "salesforce" "customer" e.op = true) ∧
    ∃ c t fuel, Run (Pool.step (setup Deployment.env)) (fun _ _ => True)
        ⟨[], swept .auto [policy "salesforce" "hubspot"] [{ annRow with tombstone := true }]⟩ (oneSweep 23) c ∧
      t ∈ c.threads ∧ t.task = .sweep fuel sweepJob ∧ t.log.any (fun e => isGated e.op) = true ∧
      ∀ e ∈ t.log, obeys [policy "salesforce" "hubspot"] "salesforce" "customer" e.op = true := by
  have hobeys : ∀ (p : SyncPolicy) (rows : List CanonicalRecord) (calls : Nat), p.entity = "customer" →
      (swept .auto [p] rows).db.policiesOf tenant = [p] →
      (sweepLog (swept .auto [p] rows) (oneSweep calls)).any
        (fun log => log.any (fun e => isGated e.op) && !log.any refused) = true →
      ∃ c t fuel, Run (Pool.step (setup Deployment.env)) (fun _ _ => True) ⟨[], swept .auto [p] rows⟩
          (oneSweep calls) c ∧ t ∈ c.threads ∧ t.task = .sweep fuel sweepJob ∧ t.log.any (fun e => isGated e.op) = true ∧
        ∀ e ∈ t.log, obeys [p] "salesforce" "customer" e.op = true := by
    intro p rows calls hentity hpolicies hlog
    obtain ⟨c, t, fuel, hrun, ht, htask, hcalls⟩ := exists_sweep hlog
    obtain ⟨hwrites, hrefused⟩ := Bool.and_eq_true_iff.mp hcalls
    refine ⟨c, t, fuel, hrun, ht, htask, hwrites, ?_⟩
    rw [← hpolicies]
    refine @repairs_obey_policy _ _ _ _ (sweepOf .auto) sweepJob _ _ _ hrun (fun q hq => ?_) (fun fuel job' hjob' _ => ?_)
      undecided_swept rfl ht htask (fun q hq _ => ?_) (not_refused (by simpa using hrefused) _)
    · simp [oneSweep] at hq
    · simp only [oneSweep, List.mem_cons, List.mem_replicate, reduceCtorEq, and_false, or_false, Act.start.injEq,
        Task.sweep.injEq] at hjob'
      rw [hjob'.2]
    · have hq : q ∈ (swept .auto [p] rows).db.policiesOf tenant := hq
      rw [hpolicies] at hq
      rw [List.mem_singleton.mp hq, hentity]
  exact ⟨hobeys _ _ _ rfl rfl (by decide +kernel), hobeys _ _ _ rfl rfl (by decide +kernel)⟩

/-- **Repairs that do not**: with a policy for orders only, a customer Salesforce holds is created in HubSpot
    and one it lost is created there again; and where deletes propagate, a record that an update does not find
    is created again. -/
theorem repairs_disobey_policy : (∃ c t fuel, Run (Pool.step (setup Deployment.env)) (fun _ _ => True)
        ⟨[], swept .auto [orders] [bobRow]⟩ (oneSweep 43) c ∧ t ∈ c.threads ∧ t.task = .sweep fuel sweepJob ∧
      (t.log.filter (fun e => !obeys [orders] "salesforce" "customer" e.op)).map (fun e => e.op.endpoint?)
        = [some hub, some sf]) ∧
    ∃ c t fuel, Run (Pool.step (setup Deployment.env)) (fun _ _ => True) ⟨[], refusing⟩ (oneSweep 29) c ∧
      t ∈ c.threads ∧ t.task = .sweep fuel sweepJob ∧
      (t.log.filter (fun e => !obeys [policy "salesforce" "hubspot"] "salesforce" "customer" e.op)).map
        (fun e => e.op.endpoint?) = [some sf] := by
  constructor
  · have hlog : (sweepLog (swept .auto [orders] [bobRow]) (oneSweep 43)).any (fun log =>
        (log.filter (fun e => !obeys [orders] "salesforce" "customer" e.op)).map (fun e => e.op.endpoint?)
          = [some hub, some sf]) = true := by
      decide +kernel
    obtain ⟨c, t, fuel, hrun, ht, htask, hcalls⟩ := exists_sweep hlog
    exact ⟨c, t, fuel, hrun, ht, htask, of_decide_eq_true hcalls⟩
  · have hlog : (sweepLog refusing (oneSweep 29)).any (fun log =>
        (log.filter (fun e => !obeys [policy "salesforce" "hubspot"] "salesforce" "customer" e.op)).map
          (fun e => e.op.endpoint?) = [some sf]) = true := by
      decide +kernel
    obtain ⟨c, t, fuel, hrun, ht, htask, hcalls⟩ := exists_sweep hlog
    exact ⟨c, t, fuel, hrun, ht, htask, of_decide_eq_true hcalls⟩

end SyncForge.Reconcile
