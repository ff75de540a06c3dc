import SyncForge.Job.Calls
import SyncForge.Worker.Interference

/-!
# `Reconcile.Writes` — what the writes of a sweep are for

Sweeps run interleaved with any other programs. As long as nobody else decides about the findings of a run,
every request a sweep sends to a provider belongs to the finding it is repairing. What a run's findings say is
a parameter (`Subject.legit`).
-/

namespace SyncForge.Reconcile

open Effect Effect.Prog Store
open Database (exec rowOrNotFound_ok)
open Rely (safe_attempt safe_bind safe_return safe_seq)

/-! ## The system -/

inductive Task where
  | sweep (fuel : Nat) (job : SyncJob)
  | other (p : Sync Unit)

def Task.body (env : Env) : Task → Sync Unit
  | .sweep fuel job => do
    let _ ← run env fuel job
    return ()
  | .other p => p

def setup (env : Env) : Pool.Setup sig GoError Task World World where
  handle := World.handle env
  body := Task.body env
  move w' w := some { w' with
    db := { w'.db with policies := w.db.policies, runs := w.db.runs, findings := w.db.findings } }

/-! ## One run -/

structure Identity where
  id : String
  runID : String
  tenantID : String
  kind : FindingKind
  providerID : String
  canonicalID : String
  direction : Direction

def identity (f : ReconciliationFinding) : Identity :=
  ⟨f.id, f.runID, f.tenantID, f.kind, f.providerID, f.canonicalID, f.direction⟩

structure Subject where
  tenantID : String
  jobID : String
  runID : String
  source : String
  policies : List SyncPolicy
  legit : FindingKind → String → String → Prop

namespace Subject

variable (S : Subject)

def deletePolicy : DeletePolicy := deletePolicyFor S.policies S.source

def destination (provider : String) : Prop := ∃ p ∈ S.policies, p.source = S.source ∧ p.destination = provider

structure Steady (db : Database) : Prop where
  policies : db.policiesOf S.tenantID = S.policies
  job : ∀ r ∈ db.runs, r.jobID = some S.jobID → r.id = S.runID ∧ r.source = S.source
  other : ∀ r ∈ db.runs, r.id = S.runID → r.jobID = some S.jobID ∧ r.source = S.source
  ids : ((db.findings.filter (fun f => f.tenantID = S.tenantID)).map ReconciliationFinding.id).Nodup
  findings : ∀ f ∈ db.findings, f.runID = S.runID →
    f.direction = Database.reconcileDirection f.kind ∧ S.legit f.kind f.providerID f.canonicalID

def harmless : Call → Prop
  | .store (.setReconciliationFindingDirection _ _ _) => False
  | .store (.insertReconciliationFinding f) =>
    f.runID = S.runID → f.direction = .other "" ∧ S.legit f.kind f.providerID f.canonicalID
  | _ => True

end Subject

def Kept (db db' : Database) : Prop := ∀ f ∈ db.findings, ∃ f' ∈ db'.findings, identity f' = identity f

def Recorded (f : ReconciliationFinding) (db : Database) :
    Prop := ∃ f' ∈ db.findings, identity f' = identity f

/-- What the threads rely on; `ok` says in which states a call is made at all. -/
def rely (env : Env) (S : Subject) (ok : Call → World → Prop) : Rely sig GoError World where
  handle := World.handle env
  ok := ok
  inv w := S.Steady w.db
  change w w' := Kept w.db w'.db
  refl _ f hf := ⟨f, hf, rfl⟩
  trans s t u hst htu f hf := by
    obtain ⟨f', hf', h⟩ := hst f hf
    obtain ⟨f'', hf'', h'⟩ := htu f' hf'
    exact ⟨f'', hf'', h'.trans h⟩

variable {f : ReconciliationFinding} {α : Type} {db : Database}

theorem Kept.recorded {db' : Database} (h : Kept db db') (hf : Recorded f db) : Recorded f db' := by
  obtain ⟨f', hf', hid⟩ := hf
  obtain ⟨f'', hf'', hid'⟩ := h f' hf'
  exact ⟨f'', hf'', hid'.trans hid⟩

/-! ## What the calls keep -/

section

variable {S : Subject} {db : Database} {now : Time} {pick : Nat}
  {g : ReconciliationFinding → ReconciliationFinding}

theorem map_steady (hg : ∀ f, identity (g f) = identity f) (hdb : S.Steady db) :
    S.Steady { db with findings := db.findings.map g } := by
  have htenant : ∀ f, (g f).tenantID = f.tenantID := fun f => congrArg Identity.tenantID (hg f)
  refine ⟨hdb.policies, hdb.job, hdb.other, ?_, fun f hf hrun => ?_⟩
  · have hsame : ((db.findings.map g).filter (fun f => f.tenantID = S.tenantID)).map ReconciliationFinding.id
        = (db.findings.filter (fun f => f.tenantID = S.tenantID)).map ReconciliationFinding.id := by
      rw [List.filter_map, List.map_map]
      simp only [Function.comp_def, htenant]
      exact List.map_congr_left (fun f _ => congrArg Identity.id (hg f))
    show (((db.findings.map g).filter _).map _).Nodup
    rw [hsame]
    exact hdb.ids
  · obtain ⟨f', hf', rfl⟩ := List.mem_map.mp hf
    have hkind : (g f').kind = f'.kind := congrArg Identity.kind (hg f')
    have hprovider : (g f').providerID = f'.providerID := congrArg Identity.providerID (hg f')
    have hcanonical : (g f').canonicalID = f'.canonicalID := congrArg Identity.canonicalID (hg f')
    have hdirection : (g f').direction = f'.direction := congrArg Identity.direction (hg f')
    have hrun' : f'.runID = S.runID := (congrArg Identity.runID (hg f')).symm.trans hrun
    rw [hkind, hprovider, hcanonical, hdirection]
    exact hdb.findings f' hf' hrun'

theorem map_kept (hg : ∀ f, identity (g f) = identity f) :
    Kept db { db with findings := db.findings.map g } :=
  fun f hf => ⟨g f, List.mem_map_of_mem hf, hg f⟩

theorem runs_steady {g : ReconciliationRun → ReconciliationRun}
    (hg : ∀ r, (g r).id = r.id ∧ (g r).jobID = r.jobID ∧ (g r).source = r.source) (hdb : S.Steady db)
    {id : String} : S.Steady (db.updateRun id g) := by
  have hmem : ∀ r ∈ (db.updateRun id g).runs, ∃ r' ∈ db.runs, r.id = r'.id ∧ r.jobID = r'.jobID ∧
    r.source = r'.source := by
    intro r hr
    obtain ⟨r', hr', rfl⟩ := List.mem_map.mp hr
    refine ⟨r', hr', ?_⟩
    split_ifs
    · exact hg r'
    · exact ⟨rfl, rfl, rfl⟩
  refine ⟨hdb.policies, fun r hr hjob => ?_, fun r hr hid => ?_, hdb.ids, hdb.findings⟩
  · obtain ⟨r', hr', h1, h2, h3⟩ := hmem r hr
    rw [h1, h3]
    exact hdb.job r' hr' (h2.symm.trans hjob)
  · obtain ⟨r', hr', h1, h2, h3⟩ := hmem r hr
    rw [h2, h3]
    exact hdb.other r' hr' (h1.symm.trans hid)

theorem insert_steady (hf : S.harmless (.store (.insertReconciliationFinding f)))
    (hdb : S.Steady db) : Kept db (db.insertFinding f) ∧ S.Steady (db.insertFinding f) := by
  unfold Database.insertFinding
  split
  · exact ⟨fun f hf => ⟨f, hf, rfl⟩, hdb⟩
  · refine ⟨fun f' hf' => ⟨f', List.mem_append_left _ hf', rfl⟩, hdb.policies, hdb.job, hdb.other, ?_, ?_⟩
    · rw [List.filter_append, List.map_append, List.nodup_append]
      refine ⟨hdb.ids, ?_, ?_⟩
      · exact List.Nodup.map_on (fun _ h _ h' _ => by
          rw [List.mem_singleton.mp (List.mem_of_mem_filter h), List.mem_singleton.mp (List.mem_of_mem_filter h')])
          ((List.nodup_singleton _).filter _)
      · rintro a ha b hb rfl
        obtain ⟨f', hf', rfl⟩ := List.mem_map.mp hb
        obtain ⟨hnew, htenant⟩ := List.mem_filter.mp hf'
        obtain rfl := List.mem_singleton.mp hnew
        have htenant : f.tenantID = S.tenantID := of_decide_eq_true htenant
        rw [← htenant] at ha
        exact Database.newID_not_mem _ ha
    · intro f' hf' hrun
      rcases List.mem_append.mp hf' with hold | hnew
      · exact hdb.findings f' hold hrun
      · obtain rfl := List.mem_singleton.mp hnew
        obtain ⟨hdirection, hlegit⟩ := hf hrun
        exact ⟨if_pos hdirection, hlegit⟩

theorem exec_steady {s : StoreOp} (hs : S.harmless (.store s)) (hdb : S.Steady db) :
    Kept db (exec now pick s db).2 ∧ S.Steady (exec now pick s db).2 := by
  cases s with
  | insertReconciliationFinding f => exact insert_steady hs hdb
  | setReconciliationFindingDirection tenantID id direction => exact False.elim hs
  | setReconciliationFindingStatus tenantID id status error =>
    have hsame : ∀ f : ReconciliationFinding, identity (if f.tenantID = tenantID ∧ f.id = id ∧
        (f.status = .pending ∨ f.status = .failed ∧ status = .pending) then { f with status := status, error := error } else f)
          = identity f := by
      intro f
      split_ifs <;> rfl
    exact ⟨map_kept hsame, map_steady hsame hdb⟩
  | updateReconciliationCounters runID total drift missed deleted =>
    refine ⟨fun f hf => ⟨f, hf, rfl⟩, ?_⟩
    exact runs_steady (g := fun r => { r with total, drift, missed, deleted }) (fun _ => ⟨rfl, rfl, rfl⟩) hdb
  | finishReconciliationRun runID status error =>
    refine ⟨fun f hf => ⟨f, hf, rfl⟩, ?_⟩
    exact runs_steady (g := fun r => { r with status, error }) (fun _ => ⟨rfl, rfl, rfl⟩) hdb
  | _ => exact ⟨fun f hf => ⟨f, hf, rfl⟩, hdb.policies, hdb.job, hdb.other, hdb.ids, hdb.findings⟩

end

variable {env : Env} {S : Subject} {ok : Call → World → Prop} {w : World} {log : List (Entry sig GoError)}

theorem handle_steady {o : Call} (ho : S.harmless o) (hw : S.Steady w.db) : (rely env S ok).keeps o w := by
  show Kept w.db (World.handle env o w).2.db ∧ S.Steady (World.handle env o w).2.db
  rcases @World.handle_db env w o with h | ⟨s, pick, rfl, _, h⟩
  · rw [h]
    exact ⟨fun f hf => ⟨f, hf, rfl⟩, hw⟩
  · rw [h]
    exact exec_steady ho hw

/-! ## What a sweep may do -/

def readsFinding : Call → Bool
  | .store (.getReconciliationFinding _ _) => true
  | _ => false

def Repairing (log : List (Entry sig GoError)) (f : ReconciliationFinding) : Prop :=
  ∃ pre tenantID id mid, log = pre ++ ⟨.store (.getReconciliationFinding tenantID id), .ok f⟩ :: mid ∧
    ∀ e ∈ mid, readsFinding e.op = false

def Refused (log : List (Entry sig GoError)) (provider id : String) : Prop :=
  ∃ ep data e, (⟨.update ep id data, .error e⟩ : Entry sig GoError) ∈ log ∧ ep.provider = provider ∧
    e.isKind .notFound = true

def Subject.recreates (S : Subject) (log : List (Entry sig GoError)) (f : ReconciliationFinding) : Prop :=
  f.runID = S.runID ∧ S.legit f.kind f.providerID f.canonicalID ∧
    (f.kind = .missing ∧ shouldRecreateMissing S.deletePolicy = true ∨
      f.kind = .drift ∧ Refused log S.source f.providerID)

def Subject.may (S : Subject) (log : List (Entry sig GoError)) : Call → Prop
  | .create ep _ =>
    if ep.provider = S.source then ∃ f, Repairing log f ∧ S.recreates log f else S.destination ep.provider
  | .update ep _ _ => ep.provider = S.source ∨ S.destination ep.provider
  | .delete ep _ => ep.provider = S.source ∧ S.deletePolicy = .propagate
  | o => S.harmless o

abbrev Safely {α : Type} (env : Env) (S : Subject) (ok : Call → World → Prop) (p : Sync α)
    (post : List (Entry sig GoError) → Except GoError α → World → Prop) (log : List (Entry sig GoError))
    (w : World) : Prop :=
  (rely env S ok).safe (fun log o _ => S.may log o) p post log w

theorem harmless_of_may {o : Call} (ho : S.may log o) : S.harmless o := by
  cases o with
  | store s => exact ho
  | _ => trivial

theorem may_of_isStoreWork {o : Call} (ho : o.isStoreWork = true) : S.may log o := by
  cases o with
  | store s => cases s <;> trivial
  | _ => cases ho

theorem repairing_read {tenantID id : String} :
    Repairing (log ++ [⟨.store (.getReconciliationFinding tenantID id), .ok f⟩]) f :=
  ⟨log, tenantID, id, [], rfl, fun _ h => absurd h List.not_mem_nil⟩

theorem Repairing.snoc {f : ReconciliationFinding} {e : Entry sig GoError} (h : Repairing log f)
    (he : readsFinding e.op = false) : Repairing (log ++ [e]) f := by
  obtain ⟨pre, tenantID, id, mid, rfl, hmid⟩ := h
  refine ⟨pre, tenantID, id, mid ++ [e], by rw [List.append_assoc, List.cons_append], fun e' he' => ?_⟩
  rcases List.mem_append.mp he' with h | h
  · exact hmid e' h
  · rwa [List.mem_singleton.mp h]

/-! ## Rules -/

/-- **Statement rule**: an error says nothing; an answer comes from a steady database. -/
theorem stmt_safe {s : StoreOp} {post : List (Entry sig GoError) → Except GoError s.Res → World → Prop}
    (hmay : S.may log (.store s)) (herror : ∀ e v, post (log ++ [⟨.store s, .error e⟩]) (.error e) v)
    (hok : ∀ u pick a v, (rely env S ok).later w u → ok (.store s) u → (exec u.now pick s u.db).1 = .ok a →
      (rely env S ok).later (u.executed pick s) v → post (log ++ [⟨.store s, .ok a⟩]) (.ok a) v) :
    Safely env S ok (stmt s) post log w := by
  have htolerant : Tolerant env (rely env S ok) := ⟨rfl, fun u hu => ⟨fun f hf => ⟨f, hf, rfl⟩, hu⟩⟩
  refine safe_stmt htolerant (fun v e _ => herror e v) (fun _ _ _ => hmay)
    (fun u pick hu hgo => ⟨exec_steady hmay hu.2, fun v hv => ?_⟩)
  cases hanswer : (exec u.now pick s u.db).1 with
  | error e => exact herror e v
  | ok a => exact hok u pick a v hu hgo hanswer hv

/-- **Invariant rule** for a program all of whose calls are allowed whatever happened before. -/
theorem only_safe {p : Sync α} (hp : Only (fun o => ∀ log, S.may log o) p) {g : ReconciliationFinding}
    (hg : Recorded g w.db) : Safely env S ok p (fun _ _ v => Recorded g v.db) log w := by
  refine Rely.safe_of_only (I := fun _ v => Recorded g (World.db v)) hp
    (fun _ u v hu hv => Kept.recorded hv.1 hu) ?_ hg
  intro log o u ho hu _ hrec
  have hkeep : (rely env S ok).keeps o u := handle_steady (harmless_of_may (ho log)) hu
  exact ⟨ho log, hkeep, Kept.recorded hkeep.1 hrec⟩

theorem free_safe {p : Sync α} (hp : Only (fun o => ∀ log, S.may log o) p) :
    Safely env S ok p (fun _ _ _ => True) log w := by
  refine Rely.safe_of_only (I := fun _ _ => True) hp (fun _ _ _ _ _ => trivial)
    (fun log o u ho hu _ _ => ?_) trivial
  exact ⟨ho log, handle_steady (harmless_of_may (ho log)) hu, trivial⟩

theorem storeWork_safe {p : Sync α} (hp : OnlyStoreWork p) : Safely env S ok p (fun _ _ _ => True) log w :=
  free_safe (only_mono hp (fun _ ho _ => may_of_isStoreWork ho))

theorem request_safe {o : Call} {post : List (Entry sig GoError) → Except GoError (sig.Res o) → World → Prop}
    (hmay : S.may log o) (hpost : ∀ r v, post (log ++ [⟨o, r⟩]) r v) :
    Safely env S ok (perform o) post log w :=
  Rely.safe_perform (fun _ hu _ => ⟨hmay, handle_steady (harmless_of_may hmay) hu.2, fun v _ => hpost _ v⟩)

theorem connect_safe {provider : String} (hw : S.Steady w.db) :
    Safely env S ok (connect env S.tenantID provider)
      (fun log' r _ => (∃ e, log' = log ++ [e] ∧ readsFinding e.op = false) ∧
        ∀ dst, r = .ok dst → dst.endpoint.provider = provider) log w := by
  have hconn : Safely env S ok (stmt (.getConnectionByProvider S.tenantID provider))
      (fun log' r _ => (∃ e, log' = log ++ [e] ∧ readsFinding e.op = false) ∧
        ∀ conn : Connection, r = .ok conn → conn.provider = provider) log w := by
    refine stmt_safe trivial (fun e _ => ⟨⟨_, rfl, rfl⟩, fun _ h => nomatch h⟩) ?_
    intro u pick conn v _ _ hanswer _
    refine ⟨⟨_, rfl, rfl⟩, fun conn' h => ?_⟩
    cases h
    have hmem := Database.anyRow_mem (rowOrNotFound_ok hanswer)
    exact (of_decide_eq_true (List.mem_filter.mp hmem).2).2
  refine safe_bind hconn (fun log' conn t hmid _ => ?_)
    (fun log' e t hmid => ⟨hmid.1, fun _ h => nomatch h⟩) hw
  refine Rely.safe_ofExcept (fun v _ => ⟨hmid.1, fun dst hdst => ?_⟩)
  rw [(adapterFor_ok hdst).1]
  exact hmid.2 conn rfl

/-! ## Repairs -/

section

variable {ev : Event} {entityType : String} {f : ReconciliationFinding} {src : Remote} {cust : Customer}

theorem repairDelete_safe (hsrc : src.endpoint.provider = S.source) (hpolicy : S.deletePolicy = .propagate)
    (hw : S.Steady w.db) : Safely env S ok (repairDelete ev entityType f S.source src)
    (fun _ _ _ => True) log w := by
  refine safe_attempt (Q := fun _ _ _ => True) (request_safe ⟨hsrc, hpolicy⟩ (fun _ _ => trivial))
    (fun log r t _ _ => storeWork_safe ?_) hw
  split
  · exact only_bind (only_tryStmt rfl) (fun _ => only_tryStmt rfl)
  · split
    · exact only_bind (only_tryStmt rfl) (fun _ => only_tryStmt rfl)
    · exact reconcileFail_only

variable {canonical : CanonicalRecord}

theorem repairCreate_safe (hsrc : src.endpoint.provider = S.source)
    (hf : Repairing log f) (hrecreates : S.recreates log f) (hw : S.Steady w.db) :
    Safely env S ok (repairCreate env ev entityType f S.source src cust canonical)
    (fun _ _ _ => True) log w := by
  have hmay : S.may log (.create src.endpoint (src.adapter.denormalize cust).data) := by
    show ite _ _ _
    rw [if_pos hsrc]
    exact ⟨f, hf, hrecreates⟩
  refine safe_attempt (Q := fun _ _ _ => True) (request_safe hmay (fun _ _ => trivial))
    (fun log r t _ _ => storeWork_safe ?_) hw
  split
  · exact reconcileFail_only
  · exact pushed_only

theorem repairPush_safe (hsrc : src.endpoint.provider = S.source) (hf : Repairing log f)
    (hrun : f.runID = S.runID) (hlegit : S.legit f.kind f.providerID f.canonicalID)
    (hkind : f.kind = .missing ∧ shouldRecreateMissing S.deletePolicy = true ∨ f.kind = .drift ∧
      f.providerID ≠ "") (hw : S.Steady w.db) :
      Safely env S ok (repairPush env ev entityType f S.source src) (fun _ _ _ => True) log w := by
  have hread : Safely env S ok (stmt (.getCanonical ⟨ev.tenantID, entityType, f.canonicalID⟩))
      (fun log _ _ => Repairing log f) log w :=
    stmt_safe trivial (fun _ _ => hf.snoc rfl) (fun _ _ _ _ _ _ _ _ => hf.snoc rfl)
  refine safe_attempt hread (fun log r t hf ht => ?_) hw
  split
  · exact storeWork_safe (only_tryStmt rfl)
  · exact fun _ _ => trivial
  · dsimp only
    split_ifs with hcreate
    · have hmissing : f.kind = .missing ∧ shouldRecreateMissing S.deletePolicy = true := by
        rcases hkind with h | ⟨hdrift, hne⟩
        · exact h
        · rcases hcreate with h | h
          · rw [hdrift] at h
            cases h
          · exact absurd h hne
      exact repairCreate_safe hsrc hf ⟨hrun, hlegit, .inl hmissing⟩ ht
    · have hdrift : f.kind = .drift := by
        rcases hkind with ⟨h, _⟩ | ⟨h, _⟩
        · exact absurd (.inl h) hcreate
        · exact h
      -- what the log says after the update was answered
      have hupdate : ∀ data, Safely env S ok
          (perform (S := sig) (.update src.endpoint f.providerID data))
          (fun log r _ => Repairing log f ∧ ∀ e, r = .error e → e.isKind .notFound = true →
            Refused log S.source f.providerID) log t := by
        intro data
        refine request_safe (.inl hsrc) (fun r v => ⟨hf.snoc rfl, fun e he hkind => ?_⟩)
        rw [he]
        exact ⟨src.endpoint, data, e, List.mem_concat_self, hsrc, hkind⟩
      refine safe_attempt (hupdate _) (fun log r t hmid ht => ?_) ht
      split
      · exact storeWork_safe pushed_only
      · split_ifs with hnotFound
        · exact repairCreate_safe hsrc hmid.1 ⟨hrun, hlegit, .inr ⟨hdrift, hmid.2 _ rfl hnotFound⟩⟩ ht
        · exact storeWork_safe reconcileFail_only

theorem writeDestination_safe {destination : String}
    (hdestination : S.destination destination) (hid : canonical.providerID S.source ≠ "")
    (hw : S.Steady w.db) : Safely env S ok (writeDestination env S.tenantID destination cust canonical)
      (fun _ r _ => ∀ c : CanonicalRecord, r = .ok c → c.providerID S.source ≠ "") log w := by
  refine safe_bind (connect_safe hw) (fun log dst t hdst ht => ?_) (fun _ _ _ _ _ h => nomatch h) hw
  have hdst : dst.endpoint.provider = destination := hdst.2 dst rfl
  dsimp only
  split_ifs with hempty
  · have hne : destination ≠ S.source := fun h => hid (h ▸ hempty)
    have hmay : ∀ data, S.may log (.create dst.endpoint data) := by
      intro data
      show ite _ _ _
      rwa [hdst, if_neg hne]
    refine safe_bind (Q := fun _ _ _ => True) (request_safe (hmay _) (fun _ _ => trivial))
      (fun log created t _ _ => ?_) (fun _ _ _ _ _ h => nomatch h) ht
    refine safe_return (fun v _ c hc => ?_)
    cases hc
    unfold CanonicalRecord.providerID
    rwa [CanonicalRecord.setProviderID_ne _ (Ne.symm hne)]
  · have hmay : ∀ data, S.may log (.update dst.endpoint (canonical.providerID destination) data) := fun _ =>
      .inr (hdst.symm ▸ hdestination)
    refine safe_bind (Q := fun _ _ _ => True) (request_safe (hmay _) (fun _ _ => trivial))
      (fun log _ t _ _ => ?_) (fun _ _ _ _ _ h => nomatch h) ht
    refine safe_return (fun v _ c hc => ?_)
    cases hc
    exact hid

theorem propagateNow_safe {eventID source : String} {version : Int} {policies : List SyncPolicy}
    (hpolicies : ∀ p ∈ policies, S.destination p.destination)
    (hid : canonical.providerID S.source ≠ "") (hw : S.Steady w.db) : Safely env S ok
      (propagateNow env S.tenantID entityType eventID source version cust policies canonical) (fun _ _ _ => True) log w := by
  induction policies generalizing canonical log w with
  | nil => exact fun _ _ => trivial
  | cons p ps ih =>
    obtain ⟨hp, hps⟩ := List.forall_mem_cons.mp hpolicies
    refine safe_seq (writeDestination_safe hp hid hw) (fun log c t hc ht => ?_) hw
    refine safe_seq (storeWork_safe (only_stmt rfl)) (fun log _ t _ ht => ?_) ht
    refine safe_seq (storeWork_safe (only_tryStmt rfl)) (fun log _ t _ ht => ?_) ht
    exact ih hps (hc c rfl) ht

theorem adoptCanonical_safe (hid : f.providerID ≠ "") (hw : S.Steady w.db) :
    Safely env S ok (adoptCanonical ev entityType f S.source cust)
      (fun _ r _ => ∀ c : CanonicalRecord, r = .ok c → c.providerID S.source ≠ "") log w := by
  have hset : ∀ c : CanonicalRecord, (c.setProviderID S.source f.providerID).providerID S.source ≠ "" := by
    intro c
    unfold CanonicalRecord.providerID
    rwa [CanonicalRecord.setProviderID_self]
  have hread : Safely env S ok
      (stmt (.getCanonicalByProvider ev.tenantID entityType S.source f.providerID))
      (fun _ r _ => ∀ c : CanonicalRecord, r = .ok c → c.providerID S.source ≠ "") log w := by
    refine stmt_safe trivial (fun _ _ _ h => nomatch h) (fun u pick c v _ _ hanswer _ c' hc' => ?_)
    cases hc'
    have hmem := Database.anyRow_mem (rowOrNotFound_ok hanswer)
    unfold CanonicalRecord.providerID
    rwa [(of_decide_eq_true (List.mem_filter.mp hmem).2).2.2]
  refine safe_attempt hread (fun log r t hr ht => ?_) hw
  split
  · exact safe_return (fun _ _ c hc => hr c (by rw [Except.ok.inj hc]))
  · refine safe_attempt (storeWork_safe (only_stmt rfl)) (fun log r t _ ht => ?_) ht
    split
    · refine safe_bind (storeWork_safe (only_stmt rfl)) (fun log _ t _ ht => ?_) (fun _ _ _ _ _ h => nomatch h) ht
      refine safe_return (fun _ _ c hc => ?_)
      cases hc
      exact hset _
    · refine safe_return (fun _ _ c hc => ?_)
      cases hc
      show (Function.update (fun _ => none) S.source (some f.providerID) S.source).getD "" ≠ ""
      rwa [Function.update_self]
    · exact fun _ _ _ h => nomatch h
  · exact fun _ _ _ h => nomatch h

theorem applyAdoptProvider_safe (hev : ev.tenantID = S.tenantID) (hid : f.providerID ≠ "")
    (hw : S.Steady w.db) : Safely env S ok (applyAdoptProvider env ev entityType S.policies f S.source)
    (fun _ _ _ => True) log w := by
  have hpolicies : ∀ p ∈ S.policies.filter (fun p => p.source = S.source), S.destination p.destination := by
    intro p hp
    obtain ⟨hmem, hsource⟩ := List.mem_filter.mp hp
    exact ⟨p, hmem, of_decide_eq_true hsource, rfl⟩
  unfold applyAdoptProvider
  rw [hev]
  refine safe_seq (adoptCanonical_safe hid hw) (fun log found t hfound ht => ?_) hw
  have hcanonical : CanonicalRecord.providerID
      (if found.entityID = "" then { found with entityID := f.providerID } else found) S.source ≠ "" := by
    split_ifs <;> exact hfound found rfl
  refine safe_seq (propagateNow_safe hpolicies hcanonical ht) (fun log c t _ ht => ?_) ht
  exact storeWork_safe (only_bind (only_stmt rfl) (fun _ => only_tryStmt rfl))

end

/-! ## The finding under repair -/

structure Actionable (S : Subject) (g : ReconciliationFinding) : Prop where
  tenant : g.tenantID = S.tenantID
  run : g.runID = S.runID
  listed : g.kind ≠ .missing → g.providerID ≠ ""
  repairable : repairable g S.deletePolicy = true

theorem eq_of_id (hdb : S.Steady db) {f' : ReconciliationFinding} (hf : f ∈ db.findings)
    (hf' : f' ∈ db.findings) (htenant : f.tenantID = S.tenantID) (htenant' : f'.tenantID = S.tenantID)
    (hid : f.id = f'.id) : f = f' :=
  List.inj_on_of_nodup_map hdb.ids (List.mem_filter.mpr ⟨hf, decide_eq_true htenant⟩)
    (List.mem_filter.mpr ⟨hf', decide_eq_true htenant'⟩) hid

theorem read_finding_safe {g : ReconciliationFinding} (hg : Actionable S g) (hrec : Recorded g w.db) :
    Safely env S ok (stmt (.getReconciliationFinding S.tenantID g.id))
      (fun log r _ => ∀ f : ReconciliationFinding, r = .ok f → Repairing log f ∧ identity f = identity g ∧
        f.direction = Database.reconcileDirection f.kind ∧ S.legit f.kind f.providerID f.canonicalID) log w := by
  refine stmt_safe trivial (fun _ _ _ h => nomatch h) (fun u pick f v hu _ hanswer _ f' hf' => ?_)
  cases hf'
  have hfind := rowOrNotFound_ok hanswer
  have hmem := List.mem_of_find?_eq_some hfind
  have hcond := List.find?_some hfind
  obtain ⟨htenant, hid⟩ : f.tenantID = S.tenantID ∧ f.id = g.id := of_decide_eq_true hcond
  obtain ⟨g', hg', hsame⟩ := Kept.recorded hu.1 hrec
  have htenant' : g'.tenantID = S.tenantID := (congrArg Identity.tenantID hsame).trans hg.tenant
  have hid' : g'.id = g.id := congrArg Identity.id hsame
  obtain rfl := eq_of_id hu.2 hmem hg' htenant htenant' (hid.trans hid'.symm)
  have hrun : f.runID = S.runID := (congrArg Identity.runID hsame).trans hg.run
  exact ⟨repairing_read, hsame, hu.2.findings _ hmem hrun⟩

theorem read_run_safe (hf : Repairing log f) (hrun : f.runID = S.runID) :
    Safely env S ok (stmt (.getReconciliationRun S.tenantID f.runID))
      (fun log r _ => Repairing log f ∧ ∀ run : ReconciliationRun, r = .ok run → run.source = S.source) log w := by
  refine stmt_safe trivial (fun _ _ => ⟨hf.snoc rfl, fun _ h => nomatch h⟩)
    (fun u pick run v hu _ hanswer _ => ?_)
  refine ⟨hf.snoc rfl, fun run' hrun' => ?_⟩
  cases hrun'
  have hfind := rowOrNotFound_ok hanswer
  have hcond := List.find?_some hfind
  have hid : run.id = f.runID := (of_decide_eq_true hcond).2
  exact (hu.2.other run (List.mem_of_find?_eq_some hfind) (hid.trans hrun)).2

theorem applyReconcileFinding_safe {ev : Event} {entityType : String} {g : ReconciliationFinding}
    (hg : Actionable S g) (hrec : Recorded g w.db) (hev : ev.tenantID = S.tenantID)
    (hid : ev.provenance.reconcileFindingID = g.id) (hw : S.Steady w.db) :
      Safely env S ok (applyReconcileFinding env ev entityType S.policies) (fun _ _ _ => True) log w := by
  unfold applyReconcileFinding
  rw [hid]
  have hread := @read_finding_safe env S ok w log g hg hrec
  rw [← hev] at hread
  refine safe_attempt hread (fun log r t hr ht => ?_) hw
  split
  · exact fun _ _ => trivial
  · exact fun _ _ => trivial
  · rename_i f
    split
    · exact fun _ _ => trivial
    · obtain ⟨hf, hsame, hdirection, hlegit⟩ := hr f rfl
      have hrun : f.runID = S.runID := (congrArg Identity.runID hsame).trans hg.run
      have hkind : f.kind = g.kind := congrArg Identity.kind hsame
      have hprovider : f.providerID = g.providerID := congrArg Identity.providerID hsame
      have hrepairable : repairable f S.deletePolicy = true := by
        unfold repairable
        rw [hkind]
        exact hg.repairable
      rw [hev]
      refine safe_seq (read_run_safe hf hrun) (fun log run t hmid ht => ?_) ht
      have hsource : run.source = S.source := hmid.2 run rfl
      have hf := hmid.1
      rw [hsource]
      refine safe_seq (connect_safe ht) (fun log src t hmid ht => ?_) ht
      obtain ⟨⟨e, rfl, he⟩, hsrc⟩ := hmid
      have hf := hf.snoc he
      have hsrc := hsrc src rfl
      rw [hdirection]
      cases hk : f.kind with
      | deleted =>
        have hpolicy : S.deletePolicy = .propagate := by simpa [repairable, hk] using hrepairable
        exact repairDelete_safe hsrc hpolicy ht
      | missed =>
        have hne : f.providerID ≠ "" := hprovider ▸ hg.listed (by rw [← hkind, hk]; decide)
        exact applyAdoptProvider_safe hev hne ht
      | drift =>
        have hne : f.providerID ≠ "" := hprovider ▸ hg.listed (by rw [← hkind, hk]; decide)
        exact repairPush_safe hsrc hf hrun hlegit (.inr ⟨hk, hne⟩) ht
      | missing =>
        have hpolicy : shouldRecreateMissing S.deletePolicy = true := by simpa [repairable, hk] using hrepairable
        exact repairPush_safe hsrc hf hrun hlegit (.inl ⟨hk, hpolicy⟩) ht

theorem free_of_claim {o : StoreOp} (ho : (Call.store o).isProcess = true) (log : List (Entry sig GoError)) :
    S.may log (.store o) := by
  cases o <;> trivial

theorem listPolicies_safe {g : ReconciliationFinding} (hrec : Recorded g w.db) :
    Safely env S ok (stmt (.listPolicies S.tenantID))
      (fun _ r v => ∀ ps : List SyncPolicy, r = .ok ps → ps = S.policies ∧ Recorded g v.db) log w := by
  refine stmt_safe trivial (fun _ _ _ h => nomatch h) (fun u pick ps v hu _ hanswer hv ps' hps' => ?_)
  cases hps'
  cases hanswer
  exact ⟨hu.2.policies, Kept.recorded hv.1 (Kept.recorded hu.1 hrec)⟩

section

variable {run : ReconciliationRun} {job : SyncJob} {entityType : String}
  {now : Time} {kind : FindingKind} {providerID : String} {version : Int} {providerFields : FieldMap}

theorem dispatch_safe {g : ReconciliationFinding} (hg : Actionable S g) (hrec : Recorded g w.db)
    (hjob : job.tenantID = S.tenantID) (hw : S.Steady w.db) :
    Safely env S ok (dispatch env (repairEvent run job entityType g now)) (fun _ _ _ => True) log w := by
  unfold dispatch
  have hread := @listPolicies_safe env S ok w log g hrec
  rw [← hjob] at hread
  refine safe_seq hread (fun log policies t hmid ht => ?_) hw
  obtain ⟨rfl, hrec⟩ := hmid policies rfl
  have htype : OnlyStoreWork (canonicalEntityType env (repairEvent run job entityType g now)) :=
    only_bind connect_only_store (fun _ => only_return _)
  refine safe_seq (only_safe (only_mono htype (fun _ ho _ => may_of_isStoreWork ho)) hrec)
    (fun log entity t hrec ht => ?_) ht
  split_ifs with hfinding htargets hdeleted
  · refine safe_seq (applyReconcileFinding_safe hg hrec hjob rfl ht) (fun _ _ _ _ _ => ?_) ht
    exact fun _ _ => trivial
  · exact fun _ _ => trivial
  · cases hdeleted
  · -- a synthetic event carries no fields, so a finding without an id repairs nothing
    exact fun _ _ => trivial

theorem process_safe {g : ReconciliationFinding} (hg : Actionable S g) (hrec : Recorded g w.db)
    (hjob : job.tenantID = S.tenantID) (hw : S.Steady w.db) :
    Safely env S ok (process env (repairEvent run job entityType g now)) (fun _ _ _ => True) log w := by
  have hmark : ∀ ev status, Only (fun o => ∀ log, S.may log o) (mark ev status) := fun ev status =>
    only_tryStmt (free_of_claim rfl)
  have hrelease : ∀ ev status, Only (fun o => ∀ log, S.may log o) (release ev status) := fun ev status =>
    only_bind (only_tryStmt (free_of_claim rfl)) (fun _ => hmark ev status)
  refine safe_seq (only_safe (only_stmt (free_of_claim rfl)) hrec) (fun log claimed t hrec ht => ?_) hw
  split_ifs
  · refine safe_attempt (dispatch_safe hg hrec hjob ht) (fun log r t _ ht => free_safe ?_) ht
    split
    · exact only_bind (hrelease _ _) (fun _ => only_throw _)
    · exact only_bind (hrelease _ _) (fun _ => only_return _)
    · exact only_bind (hmark _ _) (fun _ => only_return _)
    · exact only_bind (hmark _ _) (fun _ => only_return _)
  · exact fun _ _ => trivial

variable {canonical : Option CanonicalRecord}

section

variable (hrun : run.id = S.runID) (hjob : job.tenantID = S.tenantID)
  (hlegit : S.legit kind providerID ((canonical.map (·.entityID)).getD ""))
include hrun hjob hlegit

theorem insert_safe : Safely env S ok
      (stmt (.insertReconciliationFinding (finding run job kind providerID version canonical providerFields)))
      (fun _ r v => ∀ g : ReconciliationFinding, r = .ok g → Recorded g v.db ∧ g.tenantID = S.tenantID ∧
        g.runID = S.runID ∧ g.kind = kind ∧ g.providerID = providerID) log w := by
  refine stmt_safe (fun _ => ⟨rfl, hlegit⟩) (fun _ _ _ h => nomatch h)
    (fun u pick g v hu _ hanswer hv g' hg' => ?_)
  cases hg'
  have hanswer : u.db.insertedFinding (finding run job kind providerID version canonical providerFields)
    = .ok g := hanswer
  have hkept : Kept (u.db.insertFinding (finding run job kind providerID version canonical providerFields))
    v.db := hv.1
  unfold Database.insertedFinding at hanswer
  unfold Database.insertFinding at hkept
  split at hanswer
  · rename_i old hold
    rw [hold] at hkept
    split_ifs at hanswer with htenant
    cases hanswer
    have hcond := List.find?_some hold
    obtain ⟨h1, h2, h3⟩ := of_decide_eq_true hcond
    exact ⟨hkept g (List.mem_of_find?_eq_some hold), htenant.trans hjob, h1.trans hrun, h2, h3⟩
  · rename_i hnone
    rw [hnone] at hkept
    cases hanswer
    exact ⟨hkept _ (List.mem_concat_self), hjob, hrun, rfl, rfl⟩

/-- **One divergence**: recording it, and repairing it when that is allowed. -/
theorem record_safe (hlisted : kind ≠ .missing → providerID ≠ "") (hw : S.Steady w.db) : Safely env S ok
      (record env run job entityType kind providerID version canonical providerFields S.deletePolicy)
      (fun _ _ _ => True) log w := by
  refine safe_seq (insert_safe hrun hjob hlegit) (fun log g t hg ht => ?_) hw
  obtain ⟨hrec, htenant, hrunID, hkind, hprovider⟩ := hg g rfl
  unfold settle
  split_ifs with hauto hrepairable
  · have hg : Actionable S g := ⟨htenant, hrunID, by rwa [hkind, hprovider], hrepairable⟩
    refine safe_attempt (Q := fun _ _ _ => True) ?_ (fun _ _ _ _ _ _ _ => trivial) ht
    refine safe_seq (only_safe (only_perform (S := sig) (o := .timeNow) (fun _ => trivial)) hrec)
      (fun log now t hrec ht => ?_) ht
    refine safe_seq (process_safe hg hrec hjob ht) (fun _ _ _ _ _ => ?_) ht
    exact fun _ _ => trivial
  · exact storeWork_safe (only_tryStmt rfl)
  · exact fun _ _ => trivial

end

end

end SyncForge.Reconcile
