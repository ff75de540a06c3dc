import SyncForge.Deployment
import SyncForge.Ingestion.Processor
import SyncForge.Worker.Interference

/-!
# `Ingestion.Delivery` — every stored webhook reaches the topic

Webhook inserts and any number of `drain`s, interleaved call by call. A row that is no longer `received` has
been published, if no two rows of one tenant share an event id. Rows are unique per tenant, *source* and event
id only, and two that differ in the source are marked together.
-/

namespace SyncForge.Ingestion

open Effect Effect.Prog Store
open Database (exec insertSource)
open Transition (Run)

inductive Task where
  | insert (se : SourceEvent)
  | drain

def Task.body : Task → Sync Unit
  | .insert se => tryStmt (.insertSourceEvent se)
  | .drain => Ingestion.drain

def setup (env : Env) : Pool.Setup sig GoError Task World Empty where
  handle := World.handle env
  body := Task.body
  move := nofun

/-- The row has left `received`. -/
def taken (w : World) (se : SourceEvent) : Prop := w.db.sourceEvents se.key ≠ some .received

def DistinctIDs (rows : List SourceEvent) : Prop :=
  ∀ se ∈ rows, ∀ se' ∈ rows, se.tenantID = se'.tenantID → se.eventID = se'.eventID → se.source = se'.source

structure Delivered (w : World) : Prop where
  status : ∀ se ∈ w.db.ingested, (w.db.sourceEvents se.key).isSome = true
  keys : (w.db.ingested.map SourceEvent.key).Nodup
  published : DistinctIDs w.db.ingested → ∀ se ∈ w.db.ingested, taken w se → message se ∈ w.topic

structure Grows (w w' : World) : Prop where
  rows : ∀ se ∈ w.db.ingested, se ∈ w'.db.ingested
  topic : ∀ m ∈ w.topic, m ∈ w'.topic

theorem Grows.trans {w w' w'' : World} (h : Grows w w') (h' : Grows w' w'') : Grows w w'' :=
  ⟨fun se hse => h'.rows se (h.rows se hse), fun m hm => h'.topic m (h.topic m hm)⟩

def rely (env : Env) : Rely sig GoError World where
  handle := World.handle env
  ok _ _ := True
  inv := Delivered
  change := Grows
  refl _ := ⟨fun _ h => h, fun _ h => h⟩
  trans _ _ _ h h' := h.trans h'

def anyCall (_ : List (Entry sig GoError)) (_ : Call) (_ : World) : Prop := True

variable {rows : List SourceEvent}

theorem DistinctIDs.mono {rows' : List SourceEvent} (h : DistinctIDs rows') (hsub : ∀ se ∈ rows, se ∈ rows') :
    DistinctIDs rows :=
  fun se hse se' hse' => h se (hsub se hse) se' (hsub se' hse')

variable {env : Env} {w : World} {se : SourceEvent}

/-! ## What the calls keep -/

theorem called_keeps (hw : Delivered w) : Grows w w.called ∧ Delivered w.called :=
  ⟨⟨fun _ h => h, fun _ h => h⟩, ⟨hw.status, hw.keys, hw.published⟩⟩

theorem tolerant : Tolerant env (rely env) := ⟨rfl, fun _ => called_keeps⟩

theorem published_keeps (hw : Delivered w) (key : String) (value : Bytes) :
    Grows w (w.published key value) ∧ Delivered (w.published key value) := by
  refine ⟨⟨fun _ h => h, fun m hm => List.mem_append_left _ hm⟩, hw.status, hw.keys, ?_⟩
  intro hids se hse htaken
  exact List.mem_append_left _ (hw.published hids se hse htaken)

/-- An insert adds the row as `received`, or leaves everything alone. -/
theorem insert_keeps (hw : Delivered w) (pick : Nat) (se : SourceEvent) :
    Grows w (w.executed pick (.insertSourceEvent se)) ∧
    Delivered (w.executed pick (.insertSourceEvent se)) := by
  cases hold : w.db.sourceEvents se.key with
  | some status =>
    have hdb : w.executed pick (.insertSourceEvent se) = w.called := by
      simp only [World.executed, exec, insertSource, hold]
      rfl
    rw [hdb]
    exact called_keeps hw
  | none =>
    have hrows : (w.executed pick (.insertSourceEvent se)).db.ingested = w.db.ingested ++ [se] := by
      simp only [World.executed, exec, insertSource, hold]
    have hstatus : (w.executed pick (.insertSourceEvent se)).db.sourceEvents
        = Function.update w.db.sourceEvents se.key (some .received) := by
      simp only [World.executed, exec, insertSource, hold]
    -- the key is new, so no older row has it
    have hnew : ∀ se' ∈ w.db.ingested, se'.key ≠ se.key := by
      intro se' hse' heq
      have hsome := hw.status se' hse'
      rw [heq, hold] at hsome
      cases hsome
    refine ⟨⟨fun se' hse' => ?_, fun _ h => h⟩, ?_, ?_, ?_⟩
    · rw [hrows]
      exact List.mem_append_left _ hse'
    · intro se' hse'
      rw [hrows] at hse'
      rw [hstatus]
      rcases List.mem_append.mp hse' with hse' | hse'
      · rw [Function.update_of_ne (hnew se' hse')]
        exact hw.status se' hse'
      · rw [List.mem_singleton.mp hse', Function.update_self]
        rfl
    · rw [hrows, List.map_append, List.map_singleton]
      refine List.Nodup.append hw.keys (List.nodup_singleton _) ?_
      intro k hk hk'
      obtain ⟨se', hse', rfl⟩ := List.mem_map.mp hk
      exact hnew se' hse' (List.mem_singleton.mp hk')
    · intro hids se' hse' htaken
      rw [hrows] at hids hse'
      rw [taken, hstatus] at htaken
      rcases List.mem_append.mp hse' with hse' | hse'
      · rw [Function.update_of_ne (hnew se' hse')] at htaken
        exact hw.published (hids.mono (fun _ h => List.mem_append_left _ h)) se' hse' htaken
      · rw [List.mem_singleton.mp hse', Function.update_self] at htaken
        exact absurd rfl htaken

theorem mark_keeps (hw : Delivered w) (pick : Nat) (hse : se ∈ w.db.ingested) (hpub : message se ∈ w.topic) :
    Grows w (w.executed pick (.setSourceEventStatus se.tenantID se.eventID .received .validated)) ∧
      Delivered (w.executed pick (.setSourceEventStatus se.tenantID se.eventID .received .validated)) := by
  refine ⟨⟨fun _ h => h, fun _ h => h⟩, ?_, hw.keys, ?_⟩
  · intro se' hse'
    have hsome := hw.status se' hse'
    simp only [World.executed, exec, Database.setStatus]
    split
    · rwa [Option.isSome_map]
    · exact hsome
  · intro hids se' hse' htaken
    by_cases hsame : se'.tenantID = se.tenantID ∧ se'.eventID = se.eventID
    · have hsource := hids se' hse' se hse hsame.1 hsame.2
      have hkey : se'.key = se.key := by
        simp only [SourceEvent.key, hsame.1, hsame.2, hsource]
      rwa [List.inj_on_of_nodup_map hw.keys hse' hse hkey]
    · refine hw.published hids se' hse' ?_
      have hstatus : (w.executed pick (.setSourceEventStatus se.tenantID se.eventID .received
          .validated)).db.sourceEvents se'.key = w.db.sourceEvents se'.key := if_neg hsame
      rwa [taken, hstatus] at htaken

/-! ## What the tasks keep -/

theorem insert_safe (hw : Delivered w) : (rely env).safe anyCall (tryStmt (.insertSourceEvent se))
    (fun _ _ _ => True) [] w :=
  safe_tryStmt tolerant hw (fun _ _ _ => trivial) (fun _ _ _ => trivial)
    (fun _ pick hu _ => ⟨insert_keeps hu.2 pick se, fun _ _ => trivial⟩)

theorem rows_later {u : World} (hrows : ∀ r ∈ rows, r ∈ w.db.ingested) (hu : (rely env).later w u) :
    ∀ r ∈ rows, r ∈ u.db.ingested :=
  fun r hr => hu.1.rows r (hrows r hr)

theorem drainRows_safe {log : List (Entry sig GoError)} (hw : Delivered w)
    (hrows : ∀ r ∈ rows, r ∈ w.db.ingested) : (rely env).safe anyCall (drainRows rows) (fun _ _ _ => True) log w := by
  induction rows generalizing log w with
  | nil => exact fun _ _ => trivial
  | cons se rest ih =>
    -- a message that was accepted is on the topic from then on
    have hpublish : (rely env).safe anyCall (perform (S := sig) (.publish (message se).1 (message se).2))
        (fun _ r u => (∀ r ∈ se :: rest, r ∈ u.db.ingested) ∧ (r = .ok () → message se ∈ u.topic)) log w := by
      refine safe_publish tolerant (fun v _ hv => ⟨rows_later hrows hv, nofun⟩) (fun _ _ _ => trivial)
        (fun u hu _ => ?_)
      have hkeep := published_keeps hu.2 (message se).1 (message se).2
      refine ⟨hkeep, fun v hv => ⟨rows_later hrows (Rely.later_trans (hu.1.trans hkeep.1) hv), fun _ => ?_⟩⟩
      exact hv.1.topic _ (List.mem_concat_self)
    refine Rely.safe_attempt hpublish ?_ hw
    rintro log r u ⟨hmem, hpub⟩ hu
    obtain ⟨hse, hrest⟩ := List.forall_mem_cons.mp hmem
    cases r with
    | error e => exact ih hu hrest
    | ok _ =>
      -- published, and so the row may be marked
      have hmark : (rely env).safe anyCall (tryStmt (.setSourceEventStatus se.tenantID se.eventID .received .validated))
          (fun _ _ v => ∀ r ∈ rest, r ∈ v.db.ingested) log u := by
        refine safe_tryStmt tolerant hu (fun v _ hv => rows_later hrest hv) (fun _ _ _ => trivial)
          (fun v pick hv _ => ?_)
        have hkeep := mark_keeps hv.2 pick (hv.1.rows se hse) (hv.1.topic _ (hpub rfl))
        exact ⟨hkeep, fun v' hv' => rows_later hrest (Rely.later_trans (hv.1.trans hkeep.1) hv')⟩
      exact Rely.safe_seq hmark (fun log _ v hv hv' => ih hv' hv) hu

theorem drain_safe (hw : Delivered w) : (rely env).safe anyCall drain (fun _ _ _ => True) [] w := by
  refine Rely.safe_attempt (Q := fun _ r u => ∀ pending, r = .ok pending → ∀ se ∈ pending, se ∈ u.db.ingested) ?_ ?_ hw
  · refine safe_stmt tolerant (fun _ _ _ _ => nofun) (fun _ _ _ => trivial) (fun u pick hu _ => ⟨called_keeps hu.2, ?_⟩)
    rintro v hv pending hpending se hse
    rw [← Except.ok.inj hpending] at hse
    exact hv.1.rows se (List.mem_of_mem_filter (List.mem_of_mem_take hse))
  · intro log r u hmid hu
    cases r with
    | error e => exact fun _ _ => trivial
    | ok pending => exact drainRows_safe hu (hmid pending rfl)

/-! ## Together -/

/-- **A row that is no longer `received` has been published**, as long as no two rows of one tenant share an
    event id. -/
theorem published_of_taken {w0 : World} {acts : List (Act Task Empty)} {c : Pool sig GoError Task World}
    (hrun : Run (Pool.step (setup env)) (fun _ _ => True) ⟨[], w0⟩ acts c) (hempty : w0.db.ingested = [])
    (hids : DistinctIDs c.state.db.ingested) :
    ∀ se ∈ c.state.db.ingested, c.state.db.sourceEvents se.key ≠ some .received →
    message se ∈ c.state.topic := by
  have hinit : Delivered w0 := by
    refine ⟨?_, ?_, ?_⟩
    · rw [hempty]
      exact nofun
    · rw [hempty]
      exact List.nodup_nil
    · rw [hempty]
      exact fun _ => nofun
  have hsafe := Pool.safe_run (R := rely env) (D := fun _ => ⟨anyCall, fun _ _ _ => True⟩) rfl
    (fun s task hs _ => by
      cases task with
      | insert se => exact insert_safe hs
      | drain => exact drain_safe hs)
    nofun (Pool.permits_of_run hrun) (Pool.safe_nil hinit)
  intro se hse htaken
  exact hsafe.inv.published hids se hse htaken

/-! ## Two sources with one event id -/

def stored (source eventID : String) : SourceEvent where
  tenantID := Deployment.tenant
  source := source
  eventID := eventID
  entityType := "customer"
  entityID := "1"
  eventType := "created"
  sourceVersion := 1
  occurredAt := none
  provenance := []
  raw := []

def twoRows (eventID : String) : List (Act Task Empty) :=
  [.start (.insert (stored "salesforce" "e1")), .start (.insert (stored "hubspot" eventID)), .start .drain,
    .fire 0, .fire 1, .fire 2, .fire 2, .fire 2, .fire 2]

def flakyBus : World :=
  { Deployment.world [] with busTape := fun n => if n = 5 then some "broker unavailable" else none }

/-- With ids of their own, the row whose message failed stays `received`, and the other was published. -/
theorem published_of_taken_two :
    ∃ c, Run (Pool.step (setup Deployment.env)) (fun _ _ => True) ⟨[], flakyBus⟩ (twoRows "e2") c ∧
      c.state.db.ingested.map (fun se => c.state.db.sourceEvents se.key) = [some .validated, some .received] ∧
      ∀ se ∈ c.state.db.ingested, c.state.db.sourceEvents se.key ≠ some .received →
      message se ∈ c.state.topic := by
  refine Transition.exists_run (b := fun _ _ => true) (f := fun c => decide (
    c.state.db.ingested.map (fun se => (se.source, se.eventID)) = [("salesforce", "e1"), ("hubspot", "e2")] ∧
      c.state.db.ingested.map (fun se => c.state.db.sourceEvents se.key) = [some .validated, some .received])) (by decide +kernel)
    (fun _ _ _ => trivial) (fun c hreach hfacts => ?_)
  obtain ⟨hids, hstatus⟩ := of_decide_eq_true hfacts
  refine ⟨hstatus, published_of_taken hreach rfl ?_⟩
  intro se hse se' hse' _ hid
  have hmem : ∀ se ∈ c.state.db.ingested,
    (se.source, se.eventID) ∈ [("salesforce", "e1"), ("hubspot", "e2")] := by
    intro se hse
    rw [← hids]
    exact List.mem_map_of_mem hse
  have h := hmem se hse
  have h' := hmem se' hse'
  simp only [List.mem_cons, Prod.mk.injEq, List.not_mem_nil, or_false] at h h'
  rcases h with ⟨h1, h2⟩ | ⟨h1, h2⟩ <;> rcases h' with ⟨h3, h4⟩ | ⟨h3, h4⟩
  · rw [h1, h3]
  · rw [h2, h4] at hid
    exact absurd hid (by decide)
  · rw [h2, h4] at hid
    exact absurd hid (by decide)
  · rw [h1, h3]

/-- **A lost webhook.** HubSpot's webhook has the event id of Salesforce's. Its message failed, but the mark
    of the other row marks it too, and no later `drain` takes it up. -/
theorem taken_not_published :
    ∃ c, Run (Pool.step (setup Deployment.env)) (fun _ _ => True) ⟨[], flakyBus⟩ (twoRows "e1") c ∧
      ∃ se ∈ c.state.db.ingested, c.state.db.sourceEvents se.key = some .validated ∧
      message se ∉ c.state.topic := by
  exact Transition.exists_run (b := fun _ _ => true) (f := fun c => decide (∃ se ∈ c.state.db.ingested,
    c.state.db.sourceEvents se.key = some .validated ∧ message se ∉ c.state.topic)) (by decide +kernel)
      (fun _ _ _ => trivial)
    (fun _ _ hfacts => of_decide_eq_true hfacts)

end SyncForge.Ingestion
