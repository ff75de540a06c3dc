import SyncForge.Api.Decision
import SyncForge.Conflict.Parking
import SyncForge.Worker.Rewrites

/-!
# `Conflict.Resolution` — what an operator's choice does to the record

A conflict stores the two field maps as they were when it was parked. `applyResolution` writes the chosen one
over whatever the canonical record has become, under the version its side had then, and compares nothing.
-/

namespace SyncForge.Resolution

open Effect
open Effect.Prog (run run_bind run_bind_ok run_attempt run_perform)
open ConflictRecord (Same)
open Transition Rewrite Store

variable {env : Env} {w : World} {c : ConflictRecord} {tenant id side : String}
  {o : Call} {α : Type} {r : CanonicalRecord}

/-! ## The request -/

theorem canonicalFields_foldl {fields : FieldMap} {ins : Data → Field → Data}
    (hins : ∀ d f g, canonicalFields (ins d f) g = if f = g ∧ fields f ≠ none then fields f else canonicalFields d g)
    (fs : List Field) (d : Data) (g : Field) :
    canonicalFields (fs.foldl ins d) g = if g ∈ fs ∧ fields g ≠ none then fields g else canonicalFields d g := by
  induction fs generalizing d with
  | nil => simp
  | cons f fs ih =>
    rw [List.foldl_cons, ih, hins]
    by_cases heq : f = g
    · subst heq
      by_cases hnone : fields f = none <;> simp [hnone]
    · have hne : g ≠ f := fun h => heq h.symm
      simp [heq, hne]

theorem canonicalFields_decodedPayload (fields : FieldMap) :
    canonicalFields (Api.decodedPayload fields) = fields := by
  funext g
  refine (@canonicalFields_foldl fields _ (fun d f g => ?_) Field.all ∅ g).trans ?_
  · cases hf : fields f with
    | none => simp
    | some v =>
      by_cases heq : f = g
      · subst heq
        simp [canonicalFields]
      · have hname : g.name ≠ f.name := by
          intro h
          revert heq h
          cases f <;> cases g <;> decide
        simp [canonicalFields, heq, AList.lookup_insert_ne hname]
  · by_cases hnone : fields g = none
    · rw [if_neg (fun h => h.2 hnone), hnone]
      rfl
    · rw [if_pos ⟨Field.mem_all g, hnone⟩]

theorem request_accepted {text : String}
    (h : (run (World.handle env) (Api.handleResolveConflict env tenant id (some side)) w).1
      = .ok ⟨202, text⟩) :
    ∃ c, w.db.conflicts.rows.find? (fun c => c.tenantID = tenant ∧ c.id = id) = some c ∧ c.status = .pending ∧
      (side = "a" ∨ side = "b") ∧
      ∃ row ∈ (run (World.handle env) (Api.handleResolveConflict env tenant id (some side)) w).2.db.retryQueue.rows,
        row.key = ⟨tenant, "resolve:" ++ c.id⟩ ∧
          row.state = .marshal (Api.resolutionEvent tenant c (side = "a") w.now) := by
  unfold Api.handleResolveConflict at h ⊢
  have hget : run (World.handle env) (Prog.attempt (stmt (.getConflict tenant id))) w
      = (.ok (World.handle env (.store (.getConflict tenant id)) w).1, (World.handle env (.store (.getConflict tenant id)) w).2) := by
    rw [run_attempt, run_perform]
  rw [run_bind_ok _ hget] at h ⊢
  rcases World.handle_store env w (.getConflict tenant id) with ⟨text, _, hrow⟩ | ⟨pick, _, hrow⟩
  · rw [hrow] at h
    cases h
  · rw [hrow] at h ⊢
    cases hfind : w.db.conflicts.rows.find? (fun c => c.tenantID = tenant ∧ c.id = id) with
    | none =>
      simp only [Database.exec, hfind] at h
      cases h
    | some c =>
      simp only [Database.exec, hfind, Database.rowOrNotFound] at h ⊢
      refine ⟨c, rfl, ?_⟩
      split_ifs at h ⊢ with hpending hside
      · cases h
      · cases h
      · have hnow := Api.decide_queued h
        refine ⟨not_ne_iff.mp hpending, ?_, hnow⟩
        by_contra hno
        exact hside ⟨fun ha => hno (.inl ha), fun hb => hno (.inr hb)⟩

/-! ## The conflict until the request -/

def Filed (c : ConflictRecord) (w : World) : Prop := w.db.DistinctConflicts ∧
    ∃ c' ∈ w.db.conflicts.rows, Same c c'

theorem Filed.handle (h : Filed c w) : Filed c (World.handle env o w).2 := by
  obtain ⟨hdistinct, c', hc', hsame⟩ := h
  obtain ⟨c'', hc'', hsame', _⟩ := @World.handle_conflicts env w c' o hc'
  exact ⟨World.handle_distinct hdistinct, c'', hc'', hsame.trans hsame'⟩

theorem Filed.run {p : Sync α} (h : Filed c w) : Filed c (run (World.handle env) p w).2 := by
  induction p generalizing w with
  | pure | throw => exact h
  | call o k ih => exact ih _ h.handle

def Later (w : World) : Act → Prop
  | .event _ => True
  | .change w' => w'.db.DistinctConflicts ∧ ∀ c ∈ w.db.conflicts.rows, ∃ c' ∈ w'.db.conflicts.rows, Same c c'

theorem Filed.later {as : List Act} {w' : World} (h : Filed c w) (hrun : Run (step env) Later w as w') :
    Filed c w' := by
  refine hrun.invariant (P := fun _ u => Filed c u) h (fun _ u a u' hu hok hstep => ?_)
  cases a with
  | event ev =>
    cases hstep
    exact hu.run
  | change v =>
    cases hstep
    obtain ⟨_, c', hc', hsame⟩ := hu
    obtain ⟨c'', hc'', hsame'⟩ := hok.2 c' hc'
    exact ⟨hok.1, c'', hc'', hsame.trans hsame'⟩

/-! ## The resolution itself -/

def chosenSource (c : ConflictRecord) (side : String) : String := if side = "a" then c.sourceA else c.sourceB

def chosenVersion (c : ConflictRecord) (side : String) : Int := if side = "a" then c.versionA else c.versionB

structure UpToDate (c : ConflictRecord) (side : String) (r : CanonicalRecord) : Prop where
  fields : ∀ f, c.payloadA f = c.payloadB f → r.fields f = some (.str ((c.payloadA f).getD .nil).text)
  version : r.sourceVersions (chosenSource c side) ≤ chosenVersion c side

theorem UpToDate.same {c' : ConflictRecord} (h : UpToDate c side r) (hsame : Same c c') :
    UpToDate c' side r := by
  obtain ⟨_, _, _, hsourceA, hsourceB, hversionA, hversionB⟩ := ConflictKey.mk.inj hsame.key
  refine ⟨fun f hagree => ?_, ?_⟩
  · rw [hsame.payloadA, hsame.payloadB] at hagree
    rw [hsame.payloadA]
    exact h.fields f hagree
  · unfold chosenSource chosenVersion
    rw [hsourceA, hsourceB, hversionA, hversionB]
    exact h.version

structure Keeps (c : ConflictRecord) (r r' : CanonicalRecord) : Prop where
  key : r'.key = r.key
  fields : ∀ f, c.payloadA f = c.payloadB f → r'.fields f = r.fields f
  versions : ∀ source, r.sourceVersions source ≤ r'.sourceVersions source

theorem Keeps.refl (r : CanonicalRecord) : Keeps c r r := ⟨rfl, fun _ _ => rfl, fun _ => le_refl _⟩

section

variable {rows : List CanonicalRecord}

def known (c : ConflictRecord) (rows : List CanonicalRecord) : Known where
  row r' := ∃ r ∈ rows, Keeps c r r'

variable {now : Time} (hid : c.id ≠ "")
  (hrows : ∀ r ∈ rows, r.tenantID = tenant → r.entityID = c.entityID → UpToDate c side r)

include hid hrows

theorem resolved_row {r' : CanonicalRecord}
    (h : Rewrites (known c rows) (Api.resolutionEvent tenant c (side = "a") now) r') :
    (known c rows).row r' := by
  cases h with
  | applied _ _ hnone => exact absurd hnone hid
  | deleted _ htype => cases htype
  | pushed hrepairs => exact absurd rfl hrepairs.marked
  | adopted hrepairs => exact absurd rfl hrepairs.marked
  | @resolved entityType data r0 r1 _ _ _ hdata hrow hkey hrelinked =>
    obtain ⟨r, hr, hkeeps⟩ := hrow
    obtain ⟨htenant, _, hentity⟩ := CanonicalKey.mk.inj (hkeeps.key.symm.trans hkey)
    have hfresh := hrows r hr htenant hentity
    rw [hrelinked]
    refine ⟨r, hr, hkeeps.key, fun f hagree => ?_, fun source => ?_⟩
    · -- the payload has the value the record has
      cases hdata
      rw [hfresh.fields f hagree]
      show some (Any.str (Customer.get _ f)) = _
      rw [Customer.get_fromFields, canonicalFields_decodedPayload]
      split_ifs
      · rfl
      · rw [hagree]
    · show r.sourceVersions source
        ≤ Function.update r0.sourceVersions (Api.resolutionEvent tenant c (side = "a") now).source
            (Api.resolutionEvent tenant c (side = "a") now).sourceVersion source
      have hversion := hfresh.version
      unfold chosenSource chosenVersion at hversion
      by_cases heq : source = (Api.resolutionEvent tenant c (side = "a") now).source
      · subst heq
        rw [Function.update_self]
        by_cases hside : side = "a"
        · simpa [Api.resolutionEvent, hside] using hversion
        · simpa [Api.resolutionEvent, hside] using hversion
      · rw [Function.update_of_ne heq]
        exact hkeeps.versions source

theorem kept : Kept (known c rows) (Api.resolutionEvent tenant c (side = "a") now) where
  rewrites _ := resolved_row hid hrows
  links _ _ _ _ _ _ hrow _ := by
    obtain ⟨r, hr, hkeeps⟩ := hrow
    exact ⟨r, hr, hkeeps.key, hkeeps.fields, hkeeps.versions⟩
  findings _ _ _ _ _ := trivial

end

theorem handle_rows (h : ∃ r' ∈ w.db.canonical.rows, r'.key = r.key) :
    ∃ r' ∈ (World.handle env o w).2.db.canonical.rows, r'.key = r.key := by
  have hupsert : ∀ r0, ∃ r' ∈ (w.db.canonical.upsert r0).rows, r'.key = r.key := by
    intro r0
    obtain ⟨r', hr', hkey⟩ := h
    by_cases heq : r'.key = r0.key
    · exact ⟨r0, Relational.Table.mem_upsert.mpr (.inl rfl), heq.symm.trans hkey⟩
    · exact ⟨r', Relational.Table.mem_upsert.mpr (.inr ⟨hr', heq⟩), hkey⟩
  rcases @World.handle_db env w o with hdb | ⟨s, pick, rfl, _, hdb⟩
  · rwa [hdb]
  · rw [hdb]
    cases s with
    | upsertCanonical r0 => exact hupsert r0
    | persistApplyState r0 outbound ops => exact hupsert r0
    | addProviderID key provider providerID =>
      show ∃ r' ∈ (w.db.linkProvider key provider providerID).canonical.rows, r'.key = r.key
      unfold Database.linkProvider
      cases w.db.canonical.get? key with
      | none => exact h
      | some r0 => exact hupsert _
    | _ => exact h

theorem run_rows {p : Sync α} (h : ∃ r' ∈ w.db.canonical.rows, r'.key = r.key) :
    ∃ r' ∈ (run (World.handle env) p w).2.db.canonical.rows, r'.key = r.key := by
  induction p generalizing w with
  | pure | throw => exact h
  | call o k ih => exact ih _ (handle_rows h)

theorem processRetry_canonical {row : RetryEntry} {ev : Event} (hstate : row.state = .marshal ev) :
    (run (World.handle env) (Retry.processRetry env row) w).2.db.canonical
      = (run (World.handle env) (process env ev) w).2.db.canonical := by
  have hbookkeeping : ∀ {α : Type} {p : Sync α} {u : World}, OnlyBookkeeping p →
      (run (World.handle env) p u).2.db.canonical = u.db.canonical := by
    intro α p u hp
    refine Prog.run_invariant (I := fun v : World => v.db.canonical = u.db.canonical) hp
      (fun v o ho hv => ?_) rfl
    refine (World.handle_canonical ?_).trans hv
    cases o with
    | store s => cases s <;> first | rfl | cases ho
    | _ => rfl
  unfold Retry.processRetry
  rw [hstate]
  show (run (World.handle env) (Prog.attempt (process env ev) >>= _) w).2.db.canonical = _
  rw [run_bind, run_attempt]
  cases (run (World.handle env) (process env ev) w).1 with
  | ok outcome => exact hbookkeeping (Retry.settle_only row)
  | error e => exact hbookkeeping (Retry.reschedule_only row e)

/-- **A resolution keeps what is up to date.** A conflict is on file; whatever happens afterwards, an
    operator's request for one side is accepted, and the queued event is run in whatever state the records are
    by then. A record that still is what the conflict remembers keeps the fields on which the payloads agree,
    and no version of it goes back. -/
theorem resolution_keeps {as : List Act} {w' v : World} {text : String} {row : RetryEntry}
    (hdistinct : w.db.DistinctConflicts) (hc : c ∈ w.db.conflicts.rows) (hid : c.id ≠ "")
    (hrun : Run (step env) Later w as w')
    (hanswer : (run (World.handle env) (Api.handleResolveConflict env c.tenantID c.id (some side)) w').1
      = .ok ⟨202, text⟩)
    (hrow : row ∈ (run (World.handle env) (Api.handleResolveConflict env c.tenantID c.id (some side))
      w').2.db.retryQueue.rows)
    (hkey : row.key = ⟨c.tenantID, "resolve:" ++ c.id⟩)
    (hrecords : ∀ r ∈ v.db.canonical.rows, r.tenantID = c.tenantID → r.entityID = c.entityID → UpToDate c side r) :
    ∀ r ∈ v.db.canonical.rows, ∃ r' ∈ (run (World.handle env) (Retry.processRetry env row) v).2.db.canonical.rows,
      r'.key = r.key ∧ (∀ f, c.payloadA f = c.payloadB f → r'.fields f = r.fields f) ∧
        ∀ source, r.sourceVersions source ≤ r'.sourceVersions source := by
  obtain ⟨hdistinct', c', hc', hsame⟩ := Filed.later ⟨hdistinct, c, hc, Same.refl c⟩ hrun
  have htenant : c'.tenantID = c.tenantID := congrArg ConflictKey.tenantID hsame.key
  have hentity : c'.entityID = c.entityID := congrArg ConflictKey.entityID hsame.key
  -- the request read the conflict, and the row in the queue is its event
  obtain ⟨c1, hfind, _, _, row0, hrow0, hkey0, hstate⟩ := request_accepted hanswer
  rw [← htenant, ← hsame.id, hdistinct'.find?_eq hc'] at hfind
  cases hfind
  obtain rfl : row = row0 := by
    rw [hsame.id] at hkey0
    have hget := Relational.Table.get?_of_mem hrow
    rw [hkey, ← hkey0, Relational.Table.get?_of_mem hrow0] at hget
    exact (Option.some.inj hget).symm
  -- what is known while the event is processed
  have hknown : (known c' v.db.canonical.rows).Holds v.db :=
    ⟨fun r hr => ⟨r, hr, Keeps.refl r⟩, fun _ _ => trivial, fun _ _ => trivial, fun _ _ => trivial⟩
  have hfresh : ∀ r ∈ v.db.canonical.rows, r.tenantID = c.tenantID → r.entityID = c'.entityID →
    UpToDate c' side r :=
    fun r hr ht he => (hrecords r hr ht (he.trans hentity)).same hsame
  let event := Api.resolutionEvent c.tenantID c' (side = "a") w'.now
  have hafter : (known c' v.db.canonical.rows).Holds (run (World.handle env) (process env event) v).2.db :=
    process_keeps (kept (hsame.id ▸ hid) hfresh) hknown
  intro r hr
  have hrow : ∃ r' ∈ (run (World.handle env) (process env event) v).2.db.canonical.rows, r'.key = r.key :=
    run_rows ⟨r, hr, rfl⟩
  rw [processRetry_canonical hstate]
  obtain ⟨r', hr', hsamekey⟩ := hrow
  obtain ⟨r1, hr1, hkeeps⟩ := hafter.row r' hr'
  obtain rfl : r1 = r := by
    have hget := Relational.Table.get?_of_mem hr1
    rw [show CanonicalRecord.key r1 = r.key from hkeeps.key.symm.trans hsamekey, Relational.Table.get?_of_mem hr] at hget
    exact (Option.some.inj hget).symm
  refine ⟨r', hr', hsamekey, fun f hagree => hkeeps.fields f ?_, hkeeps.versions⟩
  rwa [hsame.payloadA, hsame.payloadB]

/-! ## Ann's conflict -/

instance {r : CanonicalRecord} : Decidable (UpToDate c side r) :=
  decidable_of_iff
    ((∀ f ∈ Field.all, c.payloadA f = c.payloadB f → r.fields f = some (.str ((c.payloadA f).getD .nil).text)) ∧
      r.sourceVersions (chosenSource c side) ≤ chosenVersion c side)
    ⟨fun h => ⟨fun f => h.1 f (Field.mem_all f), h.2⟩, fun h => ⟨fun f _ => h.fields f, h.version⟩⟩

def shared : World :=
  { Parking.parkingWorld Deployment.annRow with
    db := { (Parking.parkingWorld Deployment.annRow).db with
      policies := ([Deployment.policy "salesforce" "hubspot", Parking.parking].foldl Relational.Table.upsert .empty) } }

def parked : World := (run (World.handle Deployment.env) (process Deployment.env Parking.annRenamed) shared).2

theorem parked_distinct : parked.db.DistinctConflicts := World.run_distinct nofun

def annMarried : Event := Deployment.sfEvent "e2" .updated 2 6
    (Deployment.record salesforce "Ann" "Lind" "ann@x")

def married : World := (run (World.handle Deployment.env) (process Deployment.env annMarried) parked).2

def requestSide (side : String) (w : World) : Except GoError Api.Response × World :=
  run (World.handle Deployment.env) (Api.handleResolveConflict Deployment.env Deployment.tenant "u"
    (some side)) w

def drained (w : World) : World :=
  (run (World.handle Deployment.env) (Retry.drainRows Deployment.env w.db.retryQueue.rows) w).2

theorem resolution_keeps_ann : ∃ c ∈ parked.db.conflicts.rows,
    ∃ row ∈ (requestSide "b" parked).2.db.retryQueue.rows,
    (requestSide "b" parked).2.db.canonical.rows.length = 1 ∧ ∀ r ∈ (requestSide "b" parked).2.db.canonical.rows,
        ∃ r' ∈ (run (World.handle Deployment.env) (Retry.processRetry Deployment.env row) (requestSide "b" parked).2).2.db.canonical.rows,
          r'.key = r.key ∧ (∀ f, c.payloadA f = c.payloadB f → r'.fields f = r.fields f) ∧
            ∀ source, r.sourceVersions source ≤ r'.sourceVersions source := by
  have hrow : ∃ c ∈ parked.db.conflicts.rows, c.tenantID = Deployment.tenant ∧ c.id = "u" ∧
      ∀ r ∈ (requestSide "b" parked).2.db.canonical.rows, UpToDate c "b" r := by
    decide +kernel
  obtain ⟨c, hc, htenant, hid, hfresh⟩ := hrow
  have hanswer : (requestSide "b" parked).1.toOption = some ⟨202, "resolution_queued"⟩ := by decide +kernel
  have hok : (requestSide "b" parked).1 = .ok ⟨202, "resolution_queued"⟩ := by
    cases hresult : (requestSide "b" parked).1 with
    | ok a =>
      rw [hresult] at hanswer
      exact congrArg Except.ok (Option.some.inj hanswer)
    | error e =>
      rw [hresult] at hanswer
      cases hanswer
  have hqueued : ∃ row ∈ (requestSide "b" parked).2.db.retryQueue.rows,
    row.key = ⟨Deployment.tenant, "resolve:u"⟩ := by
    decide +kernel
  obtain ⟨row, hrow, hkey⟩ := hqueued
  refine ⟨c, hc, row, hrow, by decide +kernel, ?_⟩
  unfold requestSide at hok hrow
  rw [← htenant, ← hid] at hok hrow
  exact resolution_keeps parked_distinct hc (by rw [hid]; decide) .refl hok hrow
    (by rw [hkey, htenant, hid]; rfl)
    (fun r hr _ _ => hfresh r hr)

/-- **A resolution undoes newer updates.** Salesforce's later change of the last name, on which the payloads
    agree, is reverted by either side; and with Salesforce's own side its version goes back from 2 to 1. -/
theorem resolution_undoes : (∃ c ∈ parked.db.conflicts.rows, c.id = "u" ∧
    c.payloadA .lastName = c.payloadB .lastName) ∧
    (∃ r ∈ married.db.canonical.rows, r.key = ⟨Deployment.tenant, "customer", "sf-1"⟩ ∧
      r.fields .lastName = some (.str "Lind") ∧ r.sourceVersions "salesforce" = 2) ∧
    (requestSide "b" married).1.toOption = some ⟨202, "resolution_queued"⟩ ∧
    (∃ r ∈ (drained (requestSide "b" married).2).db.canonical.rows, r.key = ⟨Deployment.tenant, "customer", "sf-1"⟩ ∧
      r.fields .lastName = some (.str "Lee")) ∧ (requestSide "a" married).1.toOption = some ⟨202, "resolution_queued"⟩ ∧
    ∃ r ∈ (drained (requestSide "a" married).2).db.canonical.rows, r.key = ⟨Deployment.tenant, "customer", "sf-1"⟩ ∧
      r.fields .lastName = some (.str "Lee") ∧ r.sourceVersions "salesforce" = 1 := by
  decide +kernel

end SyncForge.Resolution
