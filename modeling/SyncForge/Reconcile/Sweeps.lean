import SyncForge.Reconcile.Writes

/-!
# `Reconcile.Sweeps` — whole sweeps among other programs

The walk over the pages, the pass over the missing records and the threads of the pool, on top of what
`Reconcile.Writes` says of one divergence. What makes a run's findings legit is given as `Evidence`: how a
page carries what is known of the ids seen from one cursor to the next, and what is known when the walk is
over.
-/

namespace SyncForge.Reconcile

open Effect Effect.Prog Store
open Rely (safe_attempt safe_bind safe_return safe_seq)

variable {env : Env} {S : Subject} {ok : Call → World → Prop} {w : World} {log : List (Entry sig GoError)}
  {α : Type} {o : Call} {job : SyncJob} {sim : SimServer} {cursor : String} {limit : Int} {fuel : Nat}

/-! ## The sweep -/

def liveIDs (recs : List ProviderRecord) : List String :=
    (recs.filter (fun r => !r.deleted)).map ProviderRecord.id

structure Evidence (S : Subject) (ok : Call → World → Prop) where
  reaches : Endpoint → Prop
  covers : String → List String → Prop
  complete : List String → Prop
  connected : ∀ {u : World} {conn : Connection},
    ok (.store (.getConnectionByProvider S.tenantID S.source)) u →
      conn ∈ u.db.connectionsOf S.tenantID S.source → reaches ⟨conn.provider, conn.baseURL⟩
  page : ∀ {u : World} {ep : Endpoint} {cursor : String} {limit : Int} {p : Page} {seen : List String},
    reaches ep → ok (.list ep cursor limit) u → World.page (u.sims ep) cursor limit = .ok p →
      covers cursor seen → if Sweep.nextCursor p = "" then complete ((liveIDs p.records).reverse ++ seen)
      else covers (Sweep.nextCursor p) ((liveIDs p.records).reverse ++ seen)
  unmapped : ∀ id, S.legit .missed id ""
  mapped : ∀ {u : World} {entityType id : String} {c : CanonicalRecord} {kind : FindingKind},
    ok (.store (.getCanonicalByProvider S.tenantID entityType S.source id)) u →
      c ∈ u.db.canonicalsWithProvider S.tenantID entityType S.source id → kind ≠ .missing → S.legit kind id c.entityID
  missing : ∀ {u : World} {entityType : String} {c : CanonicalRecord} {seen : List String},
    ok (.store (.listCanonicalByProvider S.tenantID entityType S.source)) u →
      c ∈ u.db.canonicalsAt S.tenantID entityType S.source → complete seen → c.providerID S.source ∉ seen →
        S.legit .missing (c.providerID S.source) c.entityID

theorem anyOrder_perm (pick : Nat) (l : List α) : (Database.anyOrder pick l).Perm l := by
  induction l generalizing pick with
  | nil => exact List.Perm.nil
  | cons a as ih =>
    have hle : pick % (as.length + 1) ≤ (Database.anyOrder (pick / (as.length + 1)) as).length := by
      rw [(ih _).length_eq]
      exact Nat.lt_succ_iff.mp (Nat.mod_lt _ (Nat.succ_pos _))
    exact (List.perm_insertIdx a _ hle).trans ((ih _).cons a)

theorem classify_ne_missing {canonical : Option CanonicalRecord} {fields : FieldMap} {kind : FindingKind}
    (h : classify canonical fields = some kind) : kind ≠ .missing := by
  unfold classify at h
  split at h
  · cases h
    decide
  · split_ifs at h
    · cases h
      decide
    · cases h
      decide

theorem free_of_isSweep (ho : o.isSweep = true) (log : List (Entry sig GoError)) : S.may log o := by
  cases o with
  | store s => cases s <;> trivial
  | list ep cursor limit => trivial
  | _ => cases ho

theorem abort_safe {cause : GoError}
    {post : List (Entry sig GoError) → Except GoError α → World →
      Prop} (herror : ∀ log e t, post log (.error e) t) (hw : S.Steady w.db) :
      Safely env S ok (abort job cause) post log w := by
  have hfinish : ∀ log t, S.Steady t.db → Safely env S ok
      (do tryStmt (.finishSyncJob job.id job.tenantID .failed (some cause.error)); (.throw cause : Sync α)) post log t := by
    intro log t ht
    refine safe_bind (free_safe (only_tryStmt (free_of_isSweep rfl))) (fun log _ t _ _ => ?_)
      (fun _ _ _ _ => herror _ _ _) ht
    exact fun _ _ => herror _ _ _
  refine safe_attempt (free_safe (only_stmt (free_of_isSweep rfl))) (fun log r t _ ht => ?_) hw
  split
  · exact hfinish log t ht
  · exact safe_bind (free_safe (only_tryStmt (free_of_isSweep rfl))) (fun log _ t _ ht => hfinish log t ht)
      (fun _ _ _ _ => herror _ _ _) ht

theorem orAbort_safe {p : Sync α} {Q : α → Prop}
    (hp : Safely env S ok p (fun _ r _ => ∀ a, r = .ok a → Q a) log w) (hw : S.Steady w.db) :
    Safely env S ok (orAbort job p) (fun _ r _ => ∀ a, r = .ok a → Q a) log w := by
  refine safe_attempt hp (fun log r t hr ht => ?_) hw
  split
  · exact safe_return (fun _ _ a ha => hr a (by rw [Except.ok.inj ha]))
  · exact abort_safe (fun _ _ _ _ h => nomatch h) ht

theorem page_eq {p : Page} (h : World.page sim cursor limit = .ok p) :
      (∀ r ∈ (sim.list cursor limit).1, r.id ≠ "") ∧
      p.records = (sim.list cursor limit).1.map SimServer.providerRecord ∧
      Sweep.nextCursor p = (sim.list cursor limit).2 := by
  unfold World.page at h
  dsimp only at h
  split_ifs at h with hany
  cases h
  refine ⟨fun r hr hid => hany (List.any_eq_true.mpr ⟨r, hr, decide_eq_true hid⟩), rfl, ?_⟩
  unfold Sweep.nextCursor
  split_ifs with hmore
  · rfl
  · have hempty : (sim.list cursor limit).2 = "" := by simpa using hmore
    exact hempty.symm

theorem page_ids {p : Page} (h : World.page sim cursor limit = .ok p) : ∀ r ∈ p.records, r.id ≠ "" := by
  obtain ⟨hids, hrecords, _⟩ := page_eq h
  rw [hrecords]
  intro r hr
  obtain ⟨r', hr', rfl⟩ := List.mem_map.mp hr
  exact hids r' hr'

namespace Sweep

variable {s : Sweep} {p : Progress} {rec : ProviderRecord} {cursor : String} {seen : List String} {fuel : Nat}

structure Of (s : Sweep) (S : Subject) : Prop where
  run : s.run.id = S.runID
  source : s.run.source = S.source
  tenant : s.job.tenantID = S.tenantID
  policy : s.deletePolicy = S.deletePolicy

theorem compare_safe {canonical : Option CanonicalRecord} (hs : s.Of S) (hid : rec.id ≠ "")
    (hlegit : ∀ kind, classify canonical (s.src.adapter.normalize rec).fields = some kind →
      S.legit kind rec.id ((canonical.map (·.entityID)).getD "")) (hw : S.Steady w.db) :
    Safely env S ok (s.compare env rec canonical p) (fun _ r _ => ∀ p', r = .ok p' →
      p'.seen = p.seen) log w := by
  unfold compare
  dsimp only
  split
  · exact safe_return (fun _ _ p' hp' => by rw [← Except.ok.inj hp']; rfl)
  · rename_i kind hkind
    rw [hs.policy]
    refine safe_attempt (record_safe hs.run hs.tenant (hlegit kind hkind) (fun _ => hid) hw)
      (fun log r t _ _ => ?_) hw
    split
    · exact safe_return (fun _ _ p' hp' => by rw [← Except.ok.inj hp']; rfl)
    · exact safe_return (fun _ _ p' hp' => by rw [← Except.ok.inj hp']; rfl)

theorem sweepRecord_safe (E : Evidence S ok) (hs : s.Of S) (hid : rec.id ≠ "") (hw : S.Steady w.db) :
    Safely env S ok (s.sweepRecord env rec p)
      (fun _ r _ => ∀ p', r = .ok p' → p'.seen = (liveIDs [rec]).reverse ++ p.seen) log w := by
  unfold sweepRecord
  split_ifs with hdeleted
  · refine safe_return (fun _ _ p' hp' => ?_)
    rw [← Except.ok.inj hp']
    simp [liveIDs, hdeleted]
  · have hsee : (liveIDs [rec]).reverse ++ p.seen = (p.see rec.id).seen := by
      simp [liveIDs, hdeleted, Progress.see]
    rw [hsee]
    split
    · exact safe_return (fun _ _ p' hp' => by rw [← Except.ok.inj hp']; rfl)
    · have hread : Safely env S ok
          (stmt (.getCanonicalByProvider s.job.tenantID s.entityType s.run.source rec.id))
          (fun _ r _ => ∀ c : CanonicalRecord, r = .ok c → ∀ kind, kind ≠ .missing → S.legit kind rec.id c.entityID) log w := by
        rw [hs.tenant, hs.source]
        refine stmt_safe trivial (fun _ _ _ h => nomatch h) (fun u pick c v _ hgo hanswer _ c' hc' kind hkind => ?_)
        cases hc'
        exact E.mapped hgo (Database.anyRow_mem (Database.rowOrNotFound_ok hanswer)) hkind
      refine safe_attempt hread (fun log r t hr ht => ?_) hw
      split
      · rename_i c
        exact compare_safe hs hid (fun kind hkind => hr c rfl kind (classify_ne_missing hkind)) ht
      · refine compare_safe hs hid (fun kind hkind => ?_) ht
        cases hkind
        exact E.unmapped rec.id
      · exact abort_safe (fun _ _ _ _ h => nomatch h) ht

theorem sweepPage_safe (E : Evidence S ok) {recs : List ProviderRecord} (hs : s.Of S)
    (hids : ∀ rec ∈ recs, rec.id ≠ "") (hw : S.Steady w.db) : Safely env S ok (s.sweepPage env recs p)
      (fun _ r _ => ∀ p', r = .ok p' → p'.seen = (liveIDs recs).reverse ++ p.seen) log w := by
  induction recs generalizing p log w with
  | nil => exact safe_return (fun _ _ p' hp' => by rw [← Except.ok.inj hp']; rfl)
  | cons rec recs ih =>
    obtain ⟨hid, hids⟩ := List.forall_mem_cons.mp hids
    refine safe_bind (sweepRecord_safe E hs hid hw) (fun log p1 t hp1 ht => ?_)
      (fun _ _ _ _ _ h => nomatch h) hw
    refine Rely.safe_mono (ih hids ht) (fun _ r _ hr p' hp' => ?_)
    have happend : liveIDs (rec :: recs) = liveIDs [rec] ++ liveIDs recs := by
      simp only [liveIDs, ← List.map_append, ← List.filter_append, List.singleton_append]
    rw [hr p' hp', hp1 p1 rfl, happend, List.reverse_append, List.append_assoc]

theorem list_safe (E : Evidence S ok) {ep : Endpoint} {limit : Int}
    (hreach : E.reaches ep) (hcovers : E.covers cursor seen) :
    Safely env S ok (perform (S := sig) (.list ep cursor limit))
      (fun _ r _ => ∀ page : Page, r = .ok page → (∀ rec ∈ page.records, rec.id ≠ "") ∧
        if nextCursor page = "" then E.complete ((liveIDs page.records).reverse ++ seen)
        else E.covers (nextCursor page) ((liveIDs page.records).reverse ++ seen)) log w := by
  refine Rely.safe_perform (fun u hu hgo => ⟨trivial, handle_steady trivial hu.2, fun v _ page hpage => ?_⟩)
  have hpage : (World.handle env (.list ep cursor limit) u).1 = .ok page := hpage
  rw [World.handle_list] at hpage
  cases htape : u.providerTape u.calls with
  | some e =>
    rw [htape] at hpage
    cases hpage
  | none =>
    rw [htape] at hpage
    exact ⟨page_ids hpage, E.page hreach hgo hpage hcovers⟩

theorem walk_safe (E : Evidence S ok) (hs : s.Of S) (hreach : E.reaches s.src.endpoint)
    (hcovers : E.covers cursor p.seen) (hw : S.Steady w.db) : Safely env S ok (s.walk env fuel cursor p)
      (fun _ r _ => ∀ p', r = .ok (some p') → E.complete p'.seen) log w := by
  induction fuel generalizing cursor p log w with
  | zero => exact safe_return (fun _ _ _ h => by cases h)
  | succ fuel ih =>
    unfold walk
    refine safe_bind (orAbort_safe (list_safe E hreach hcovers) hw) (fun log page t hpage ht => ?_)
      (fun _ _ _ _ _ h => by cases h) hw
    obtain ⟨hids, hcovers⟩ := hpage page rfl
    refine safe_bind (sweepPage_safe E hs hids ht) (fun log p1 t hp1 ht => ?_)
      (fun _ _ _ _ _ h => by cases h) ht
    rw [← hp1 p1 rfl] at hcovers
    refine safe_bind (free_safe (orAbort_only (fun _ ho => free_of_isSweep (Call.isSweep_of_isOwn ho))
      (only_stmt (free_of_isSweep rfl)))) (fun log _ t _ ht => ?_) (fun _ _ _ _ _ h => by cases h) ht
    split_ifs at hcovers ⊢
    · refine safe_return (fun _ _ p' hp' => ?_)
      rwa [← Option.some.inj (Except.ok.inj hp')]
    · exact ih hcovers ht

theorem sweepMissing_safe {cs : List CanonicalRecord} (hs : s.Of S)
    (hlegit : ∀ c ∈ cs, c.providerID S.source ∉ seen → S.legit .missing (c.providerID S.source) c.entityID)
    (hw : S.Steady w.db) : Safely env S ok (s.sweepMissing env seen cs) (fun _ _ _ => True) log w := by
  induction cs generalizing log w with
  | nil => exact fun _ _ => trivial
  | cons c cs ih =>
    obtain ⟨hc, hcs⟩ := List.forall_mem_cons.mp hlegit
    unfold sweepMissing
    rw [hs.source, hs.policy]
    split_ifs with hskip
    · exact ih hcs hw
    · have hseen : c.providerID S.source ∉ seen := fun h => hskip (.inr (.inr h))
      refine safe_attempt (record_safe hs.run hs.tenant (hc hseen) (fun h => absurd rfl h) hw)
        (fun log r t _ ht => ?_) hw
      exact ih hcs ht

theorem sweep_safe (E : Evidence S ok) (hs : s.Of S) (hreach : E.reaches s.src.endpoint)
    (hcovers : E.covers (s.job.cursor.getD "") []) (hw : S.Steady w.db) :
    Safely env S ok (s.sweep env fuel) (fun _ _ _ => True) log w := by
  refine safe_seq (walk_safe E (p := resume s.job) hs hreach hcovers hw) (fun log r t hr ht => ?_) hw
  split
  · exact fun _ _ => trivial
  · rename_i p
    have hlist : Safely env S ok
        (stmt (.listCanonicalByProvider s.job.tenantID s.entityType s.run.source))
        (fun _ r _ => ∀ cs : List CanonicalRecord, r = .ok cs → ∀ c ∈ cs, c.providerID S.source ∉ p.seen →
          S.legit .missing (c.providerID S.source) c.entityID) log t := by
      rw [hs.tenant, hs.source]
      refine stmt_safe trivial (fun _ _ _ h => nomatch h) (fun u pick cs v _ hgo hanswer _ cs' hcs' c hc hseen => ?_)
      cases hcs'
      cases hanswer
      exact E.missing hgo ((anyOrder_perm _ _).mem_iff.mp hc) (hr p rfl) hseen
    refine safe_seq (orAbort_safe hlist ht) (fun log cs t hcs ht => ?_) ht
    refine safe_seq (sweepMissing_safe hs (hcs cs rfl) ht) (fun log _ t _ ht => ?_) ht
    exact free_safe (only_bind (finish_only (fun _ ho => free_of_isSweep (Call.isSweep_of_isOwn ho)))
      (fun _ => only_return _))

end Sweep

theorem readPolicies_safe : Safely env S ok (stmt (.listPolicies S.tenantID))
      (fun _ r _ => ∀ ps : List SyncPolicy, r = .ok ps → ps = S.policies) log w := by
  refine stmt_safe trivial (fun _ _ _ h => nomatch h) (fun u pick ps v hu _ hanswer hv ps' hps' => ?_)
  cases hps'
  cases hanswer
  exact hu.2.policies

theorem readConnection_safe (E : Evidence S ok) :
    Safely env S ok (stmt (.getConnectionByProvider S.tenantID S.source))
      (fun _ r _ => ∀ conn : Connection, r = .ok conn → E.reaches ⟨conn.provider, conn.baseURL⟩) log w := by
  refine stmt_safe trivial (fun _ _ _ h => nomatch h) (fun u pick conn v _ hgo hanswer _ conn' hconn' => ?_)
  cases hconn'
  exact E.connected hgo (Database.anyRow_mem (Database.rowOrNotFound_ok hanswer))

theorem readRun_safe {jobID : String} : Safely env S ok (stmt (.getReconciliationRunByJobID jobID))
      (fun _ r _ => ∀ run : ReconciliationRun, r = .ok run → (jobID = S.jobID → run.id = S.runID ∧ run.source = S.source) ∧
        (jobID ≠ S.jobID → run.id ≠ S.runID)) log w := by
  refine stmt_safe trivial (fun _ _ _ h => nomatch h) (fun u pick run v hu _ hanswer _ run' hrun' => ?_)
  cases hrun'
  obtain ⟨hmem, hjob⟩ := List.mem_filter.mp (Database.anyRow_mem (Database.rowOrNotFound_ok hanswer))
  have hjob : run.jobID = some jobID := of_decide_eq_true hjob
  refine ⟨fun h => hu.2.job run hmem (by rw [hjob, h]), fun hne hid => ?_⟩
  have hsame := (hu.2.other run hmem hid).1
  rw [hjob] at hsame
  exact hne (Option.some.inj hsame)

theorem run_safe (E : Evidence S ok) (hjob : job.id = S.jobID)
    (htenant : job.tenantID = S.tenantID) (hcovers : E.covers (job.cursor.getD "") []) (hw : S.Steady w.db) :
    Safely env S ok (run env fuel job) (fun _ _ _ => True) log w := by
  refine safe_attempt readRun_safe (fun log r t hr ht => ?_) hw
  split
  · exact abort_safe (fun _ _ _ => trivial) ht
  · exact fun _ _ => trivial
  · rename_i run
    obtain ⟨hid, hsource⟩ := (hr run rfl).1 hjob
    split_ifs
    · exact fun _ _ => trivial
    · unfold sweepRun
      rw [htenant, hsource]
      refine safe_seq (orAbort_safe (readConnection_safe E) ht) (fun log conn t hconn ht => ?_) ht
      have hadapter : Safely env S ok (ofExcept (adapterFor env conn))
          (fun _ r _ => ∀ src : Remote, r = .ok src → E.reaches src.endpoint) log t := by
        refine Rely.safe_ofExcept (fun _ _ src hsrc => ?_)
        rw [adapterFor_endpoint hsrc]
        exact hconn conn rfl
      refine safe_seq (orAbort_safe hadapter ht) (fun log src t hsrc ht => ?_) ht
      refine safe_seq (orAbort_safe readPolicies_safe ht) (fun log ps t hps ht => ?_) ht
      have hs : Sweep.Of ⟨run, job, src, deletePolicyFor ps S.source⟩ S := by
        refine ⟨hid, hsource, htenant, ?_⟩
        show deletePolicyFor ps S.source = deletePolicyFor S.policies S.source
        rw [hps ps rfl]
      exact Sweep.sweep_safe E hs (hsrc src rfl) hcovers ht

/-! ## Other programs -/

theorem harmless_of_isProcess (ho : o.isProcess = true) : S.harmless o := by
  cases o with
  | store s => cases s <;> trivial
  | _ => trivial

theorem harmless_safe {p : Sync α} (hp : Only S.harmless p) :
    (rely env S ok).safe (fun _ o _ => S.harmless o) p (fun _ _ _ => True) log w := by
  refine Rely.safe_of_only (I := fun _ _ => True) hp (fun _ _ _ _ _ => trivial)
    (fun log o u ho hu _ _ => ?_) trivial
  exact ⟨ho, handle_steady ho hu, trivial⟩

theorem other_run_safe (hjob : job.id ≠ S.jobID) (hw : S.Steady w.db) :
    (rely env S ok).safe (fun _ o _ => S.harmless o) (run env fuel job) (fun _ _ _ => True) log w := by
  have hown : ∀ o : Call, o.isOwn = true → S.harmless o := fun o ho =>
    harmless_of_may (free_of_isSweep (Call.isSweep_of_isOwn ho) [])
  have hread := Rely.safe_weaken (@readRun_safe env S ok w log job.id) (fun log o u ho => harmless_of_may ho)
  refine safe_attempt hread (fun log r t hr ht => ?_) hw
  split
  · exact harmless_safe (abort_only hown)
  · exact fun _ _ => trivial
  · rename_i run
    have hne : run.id ≠ S.runID := (hr run rfl).2 hjob
    split_ifs
    · exact fun _ _ => trivial
    · refine harmless_safe (sweepRun_only hown (fun _ _ _ _ _ _ _ => record_only ?_ (fun _ _ => trivial) trivial ?_))
      · exact fun h => absurd h hne
      · exact fun f now => only_mono process_only (fun _ => harmless_of_isProcess)

/-! ## Together -/

def promise (S : Subject) (task : Task) : Promise sig GoError World Unit where
  may log o _ := match task with
    | .sweep _ job => if job.id = S.jobID then S.may log o else S.harmless o
    | .other _ => S.harmless o
  post _ _ _ := True

def starts (S : Subject) {ok : Call → World → Prop} (E : Evidence S ok) : Task → Prop
  | .sweep _ job => job.id = S.jobID → job.tenantID = S.tenantID ∧ E.covers (job.cursor.getD "") []
  | .other p => Only S.harmless p

/-- Sweeps and other programs keep their promises, whatever the others do in between. -/
theorem body_safe (E : Evidence S ok) {task : Task} (htask : starts S E task) (hw : S.Steady w.db) :
    (rely env S ok).safe (promise S task).may (task.body env) (promise S task).post [] w := by
  cases task with
  | other p => exact harmless_safe htask
  | sweep fuel job =>
    by_cases hjob : job.id = S.jobID
    · obtain ⟨htenant, hcovers⟩ := htask hjob
      have hmay : (promise S (.sweep fuel job)).may = fun log o _ => S.may log o := by
        funext log o w
        exact if_pos hjob
      rw [hmay]
      exact safe_seq (run_safe E hjob htenant hcovers hw) (fun _ _ _ _ _ _ _ => trivial) hw
    · have hmay : (promise S (.sweep fuel job)).may = fun _ o _ => S.harmless o := by
        funext log o w
        exact if_neg hjob
      rw [hmay]
      exact safe_seq (other_run_safe hjob hw) (fun _ _ _ _ _ _ _ => trivial) hw

def decides (runID : String) : Call → Bool
  | .store (.setReconciliationFindingDirection _ _ _) => true
  | .store (.insertReconciliationFinding f) => f.runID = runID
  | _ => false

theorem harmless_of_decides (ho : decides S.runID o = false) : S.harmless o := by
  cases o with
  | store s =>
    cases s with
    | setReconciliationFindingDirection tenantID id direction => cases ho
    | insertReconciliationFinding f => exact fun h => absurd h (of_decide_eq_false ho)
    | _ => trivial
  | _ => trivial

structure Undecided (run : ReconciliationRun) (tenantID : String) (db : Database) : Prop where
  sole : ∀ r ∈ db.runs, r.id = run.id ∨ r.jobID = run.jobID → r = run
  ids : ((db.findings.filter (fun f => f.tenantID = tenantID)).map ReconciliationFinding.id).Nodup
  directed : ∀ f ∈ db.findings, f.runID = run.id → f.direction = Database.reconcileDirection f.kind

theorem Undecided.steady {run : ReconciliationRun} {tenantID jobID : String} {db : Database}
    {legit : FindingKind → String → String → Prop} (h : Undecided run tenantID db)
    (hjob : run.jobID = some jobID)
    (hlegit : ∀ f ∈ db.findings, f.runID = run.id → legit f.kind f.providerID f.canonicalID) :
      Subject.Steady ⟨tenantID, jobID, run.id, run.source, db.policiesOf tenantID, legit⟩ db := by
  refine ⟨rfl, fun r hr hr' => ?_, fun r hr hr' => ?_, h.ids,
    fun f hf hf' => ⟨h.directed f hf hf', hlegit f hf hf'⟩⟩
  · rw [h.sole r hr (.inr (hr'.trans hjob.symm))]
    exact ⟨rfl, rfl⟩
  · rw [h.sole r hr (.inl hr')]
    exact ⟨hjob, rfl⟩

/-- **What sweeps do together**: in every state the run's findings say what they may, and every call of a
    sweep of it is one it may make after its earlier calls. -/
theorem sweeps_of_run (E : Evidence S ok) {Z : World → Prop} {w0 : World} {acts : List (Act Task World)}
    {c : Pool sig GoError Task World}
    (hrun : Transition.Run (Pool.step (setup env)) (fun c _ => Z c.state) ⟨[], w0⟩ acts c)
    (hok : ∀ o w, Z w → ok o w)
    (hothers : ∀ p, .start (.other p) ∈ acts → Only (fun o => decides S.runID o = false) p)
    (hjobs : ∀ fuel job, .start (.sweep fuel job) ∈ acts → job.id = S.jobID →
      job.tenantID = S.tenantID ∧ E.covers (job.cursor.getD "") []) (hw : S.Steady w0.db) :
    S.Steady c.state.db ∧ ∀ t ∈ c.threads, ∀ fuel job, t.task = .sweep fuel job → job.id = S.jobID →
      ∀ pre e post, t.log = pre ++ e :: post → S.may pre e.op := by
  have hstarts : Transition.Run (Pool.step (setup env)) (Pool.permits ok (fun _ => starts S E))
    ⟨[], w0⟩ acts c := by
    refine hrun.mono (fun c a ha hZ => ?_)
    cases a with
    | start task =>
      cases task with
      | sweep fuel job => exact hjobs fuel job ha
      | other p => exact only_mono (hothers p ha) (fun _ => harmless_of_decides)
    | fire i => exact fun _ o _ _ => hok o c.state hZ
    | move m => trivial
  have hsafe : Pool.Safe (rely env S ok) (promise S) c := by
    refine Pool.safe_run rfl (fun s task hs htask => body_safe E htask hs)
      (fun w' s s' hs hmove => ?_) hstarts (Pool.safe_nil hw)
    rw [← Option.some.inj hmove]
    exact ⟨fun f hf => ⟨f, hf, rfl⟩, hs.policies, hs.job, hs.other, hs.ids, hs.findings⟩
  refine ⟨hsafe.inv, fun t ht fuel job htask hjob pre e post hlog => ?_⟩
  obtain ⟨_, _, hmay, _⟩ := hsafe.made t ht pre e post hlog
  rw [htask] at hmay
  exact (if_pos hjob).mp hmay

end SyncForge.Reconcile
