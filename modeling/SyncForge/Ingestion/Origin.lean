import SyncForge.Api.Webhook
import SyncForge.Deployment
import SyncForge.Ingestion.Processor
import SyncForge.Worker.Interference

/-!
# `Ingestion.Origin` — whom a webhook speaks for

Deliveries to the gateway and `drain`s, interleaved call by call. Whatever a body contains, its event belongs
to the tenant of the URL, carries no mark of an operator's decision, and was signed with the secret of a
connection of that tenant. A body that names another source speaks for that source.
-/

namespace SyncForge.Ingestion

open Database (connectionsOf exec insertSource)
open Transition (Run)
namespace Origin

open Effect Effect.Prog Store
open Api (Gateway WebhookRequest)

inductive Task where
  | webhook (r : WebhookRequest)
  | drain

def Task.body (g : Gateway) : Task → Sync Unit
  | .webhook r => do
    let _ ← Api.handleWebhook g r
    return ()
  | .drain => Ingestion.drain

def setup (g : Gateway) (env : Env) : Pool.Setup sig GoError Task World Empty where
  handle := World.handle env
  body := Task.body g
  move := nofun

def bodySource (g : Gateway) (r : WebhookRequest) : Option String :=
  (r.body.bind (Api.decodeWebhook g)).map Api.ProviderWebhook.source

/-- The event speaks for the delivery `r`. -/
structure Authentic (g : Gateway) (db : Database) (r : WebhookRequest) (ev : Event) : Prop where
  tenant : ∃ t ∈ db.tenants, t.slug = r.tenantSlug ∧ t.id = ev.tenantID
  signed : ∃ conn ∈ db.connectionsOf ev.tenantID r.provider, ∃ body, r.body = some body ∧
    Api.verifySignature g body conn.webhookSecret r.signature = true
  source : bodySource g r = some "" ∨ bodySource g r = some r.provider → ev.source = r.provider
  resolvedConflictID : ev.provenance.resolvedConflictID = ""
  reconcileFindingID : ev.provenance.reconcileFindingID = ""

def accepted (row : SourceEvent) : Entry sig GoError := ⟨.store (.insertSourceEvent row), .ok true⟩

def promise (g : Gateway) (db : Database) (task : Task) : Promise sig GoError World Unit where
  may _ o _ := ∀ row, o = .store (.insertSourceEvent row) →
    ∃ r, task = .webhook r ∧ Authentic g db r (fromSourceEvent row)
  post _ _ _ := True

structure Inv (db : Database) (w : World) : Prop where
  tenants : w.db.tenants = db.tenants
  connections : w.db.connections = db.connections
  topic : ∀ m ∈ w.topic, ∃ se ∈ w.db.ingested, m = message se

def Grows (w w' : World) : Prop := ∀ se ∈ w.db.ingested, se ∈ w'.db.ingested

def rely (env : Env) (db : Database) : Rely sig GoError World where
  handle := World.handle env
  ok _ _ := True
  inv := Inv db
  change := Grows
  refl _ _ h := h
  trans _ _ _ h h' se hse := h' se (h se hse)

variable {g : Gateway} {env : Env} {db : Database} {w : World} {task : Task} {r : WebhookRequest}
  {tenant : Tenant} {conn : Connection} {log : List (Entry sig GoError)}

theorem tolerant : Tolerant env (rely env db) :=
    ⟨rfl, fun _ hw => ⟨fun _ h => h, ⟨hw.tenants, hw.connections, hw.topic⟩⟩⟩

/-! ## What the calls keep -/

theorem executed_grows (pick : Nat) (s : StoreOp) : Grows w (w.executed pick s) := by
  intro se hse
  cases s with
  | insertSourceEvent row =>
    simp only [World.executed, exec, insertSource]
    split
    · exact hse
    · exact List.mem_append_left _ hse
  | _ => exact hse

theorem executed_keeps (hw : Inv db w) (pick : Nat) (s : StoreOp) :
    (rely env db).change w (w.executed pick s) ∧ (rely env db).inv (w.executed pick s) := by
  have hgrows := executed_grows (w := w) pick s
  refine ⟨hgrows, Database.exec_tenants.trans hw.tenants, Database.exec_connections.trans hw.connections, ?_⟩
  intro m hm
  obtain ⟨se, hse, rfl⟩ := hw.topic m hm
  exact ⟨se, hgrows se hse, rfl⟩

/-! ## What the tasks keep -/

theorem provenance_fromSourceEvent (se : SourceEvent) :
    (fromSourceEvent se).provenance.resolvedConflictID = "" ∧
    (fromSourceEvent se).provenance.reconcileFindingID = "" :=
  ⟨rfl, rfl⟩

theorem authentic_row {body : String} {wh : Api.ProviderWebhook}
    (htenant : tenant ∈ db.tenants ∧ tenant.slug = r.tenantSlug)
    (hconn : conn ∈ db.connectionsOf tenant.id r.provider) (hbody : r.body = some body)
    (hsigned : Api.verifySignature g body conn.webhookSecret r.signature = true)
    (hwh : Api.decodeWebhook g body = some wh) :
    Authentic g db r (fromSourceEvent (Api.webhookRow g r tenant body wh)) where
  tenant := ⟨tenant, htenant.1, htenant.2, rfl⟩
  signed := ⟨conn, hconn, body, hbody, hsigned⟩
  source := by
    have hsource : bodySource g r = some wh.source := by
      simp only [bodySource, hbody, Option.bind_some, hwh, Option.map_some]
    rw [hsource]
    show _ → (if wh.source = "" then r.provider else wh.source) = r.provider
    rintro (h | h)
    · rw [if_pos (Option.some.inj h)]
    · rw [Option.some.inj h, ite_self]
  resolvedConflictID := (provenance_fromSourceEvent _).1
  reconcileFindingID := (provenance_fromSourceEvent _).2

theorem receive_safe (hw : Inv db w) (htask : task = .webhook r)
    (htenant : tenant ∈ db.tenants ∧ tenant.slug = r.tenantSlug)
    (hconn : conn ∈ db.connectionsOf tenant.id r.provider) :
    (rely env db).safe (promise g db task).may (Api.receive g r tenant conn) (fun _ _ _ => True) log w := by
  unfold Api.receive
  split
  · exact fun _ _ => trivial
  · rename_i body hbody
    split_ifs with hsigned
    · exact fun _ _ => trivial
    · split
      · exact fun _ _ => trivial
      · rename_i wh hwh
        split_ifs with hmissing
        · exact fun _ _ => trivial
        · -- the one call that stores a row
          refine Rely.safe_attempt (Q := fun _ _ _ => True) ?_ (fun _ r _ _ _ => ?_) hw
          · refine safe_stmt tolerant (fun _ _ _ => trivial) (fun u _ _ row hrow => ?_)
              (fun u pick hu _ => ⟨executed_keeps hu.2 pick _, fun _ _ => trivial⟩)
            cases hrow
            exact ⟨r, htask, authentic_row htenant hconn hbody (Bool.not_eq_false _ ▸ hsigned) hwh⟩
          · split <;> exact fun _ _ => trivial

theorem handleWebhook_safe (hw : Inv db w) (htask : task = .webhook r) :
    (rely env db).safe (promise g db task).may (Api.handleWebhook g r) (fun _ _ _ => True) [] w := by
  refine Rely.safe_attempt
    (Q := fun _ res _ => ∀ tenant, res = .ok tenant → tenant ∈ db.tenants ∧
      tenant.slug = r.tenantSlug) ?_ ?_ hw
  · refine safe_stmt tolerant (fun _ _ _ _ h => by cases h) (fun _ _ _ _ h => by cases h)
      (fun u pick hu _ => ⟨executed_keeps hu.2 pick _, fun v _ tenant htenant => ?_⟩)
    simp only [exec, hu.2.tenants] at htenant
    cases hrow : db.tenants.find? (fun t => t.slug = r.tenantSlug) with
    | none => rw [hrow] at htenant; cases htenant
    | some t =>
      rw [hrow] at htenant
      rw [← Except.ok.inj htenant]
      have hslug := List.find?_some hrow
      exact ⟨List.mem_of_find?_eq_some hrow, of_decide_eq_true hslug⟩
  · intro log res u hmid hu
    split
    · exact fun _ _ => trivial
    · exact fun _ _ => trivial
    · rename_i tenant
      refine Rely.safe_attempt
        (Q := fun _ res _ => ∀ conn, res = .ok conn → conn ∈ db.connectionsOf tenant.id r.provider) ?_ ?_ hu
      · refine safe_stmt tolerant (fun _ _ _ _ h => by cases h) (fun _ _ _ _ h => by cases h)
          (fun v pick hv _ => ⟨executed_keeps hv.2 pick _, fun _ _ conn hconn => ?_⟩)
        simp only [exec, connectionsOf, hv.2.connections] at hconn
        cases hrow : Database.anyRow pick (db.connectionsOf tenant.id r.provider) with
        | none => rw [connectionsOf] at hrow; rw [hrow] at hconn; cases hconn
        | some c =>
          rw [connectionsOf] at hrow
          rw [hrow] at hconn
          rw [← Except.ok.inj hconn]
          exact List.mem_of_getElem? hrow
      · intro log res v hmid' hv
        split
        · exact fun _ _ => trivial
        · exact fun _ _ => trivial
        · exact receive_safe hv htask (hmid tenant rfl) (hmid' _ rfl)

theorem drainRows_safe {rows : List SourceEvent} (hw : Inv db w) (hrows : ∀ se ∈ rows, se ∈ w.db.ingested) :
    (rely env db).safe (promise g db task).may (drainRows rows) (fun _ _ _ => True) log w := by
  induction rows generalizing log w with
  | nil => exact fun _ _ => trivial
  | cons se rest ih =>
    have hpublish : (rely env db).safe (promise g db task).may
        (perform (S := sig) (.publish (message se).1 (message se).2))
        (fun _ _ u => ∀ se ∈ rest, se ∈ u.db.ingested) log w := by
      refine safe_publish tolerant (fun v _ hv r hr => hv.1 r (hrows r (.tail _ hr))) (fun _ _ _ _ => nofun)
        (fun u hu _ => ?_)
      refine ⟨⟨fun _ h => h, hu.2.tenants, hu.2.connections, fun m hm => ?_⟩, fun v hv r hr => ?_⟩
      · rcases List.mem_append.mp hm with hm | hm
        · exact hu.2.topic m hm
        · rw [List.mem_singleton.mp hm]
          exact ⟨se, hu.1 se (hrows se (.head _)), rfl⟩
      · exact hv.1 r (hu.1 r (hrows r (.tail _ hr)))
    refine Rely.safe_attempt hpublish (fun log r u hmem hu => ?_) hw
    cases r with
    | error e => exact ih hu hmem
    | ok _ =>
      refine Rely.safe_seq (Q := fun _ _ v => ∀ se ∈ rest, se ∈ v.db.ingested) ?_
        (fun log _ v hv hv' => ih hv' hv) hu
      refine safe_tryStmt tolerant hu (fun v _ hv r hr => hv.1 r (hmem r hr)) (fun _ _ _ _ => nofun) (fun v pick hv _ => ?_)
      refine ⟨executed_keeps hv.2 pick _, fun v' hv' r hr => ?_⟩
      exact hv'.1 r (hv.1 r (hmem r hr))

theorem drain_safe (hw : Inv db w) : (rely env db).safe (promise g db task).may drain (fun _ _ _ => True)
    [] w := by
  refine Rely.safe_attempt (Q := fun _ r u => ∀ pending, r = .ok pending →
    ∀ se ∈ pending, se ∈ u.db.ingested) ?_ ?_ hw
  · refine safe_stmt tolerant (fun _ _ _ _ => nofun) (fun _ _ _ _ => nofun)
      (fun u pick hu _ => ⟨executed_keeps hu.2 pick _, ?_⟩)
    intro v hv pending hpending se hse
    rw [← Except.ok.inj hpending] at hse
    exact hv.1 se (List.mem_of_mem_filter (List.mem_of_mem_take hse))
  · intro log r u hmid hu
    cases r with
    | error e => exact fun _ _ => trivial
    | ok pending => exact drainRows_safe hu (hmid pending rfl)

/-! ## Together -/

theorem inserted_of_new {row : SourceEvent} {o : Call} (hold : row ∉ w.db.ingested)
    (hnew : row ∈ (World.handle env o w).2.db.ingested) :
    (⟨o, (World.handle env o w).1⟩ : Entry sig GoError) = accepted row := by
  rcases @World.handle_db env w o with h | ⟨s, pick, rfl, hpick, h⟩
  · rw [h] at hnew
    exact absurd hnew hold
  · rw [h] at hnew
    cases s with
    | insertSourceEvent se =>
      cases hkey : w.db.sourceEvents se.key with
      | some status =>
        simp only [exec, insertSource, hkey] at hnew
        exact absurd hnew hold
      | none =>
        simp only [exec, insertSource, hkey] at hnew
        rcases List.mem_append.mp hnew with hnew | hnew
        · exact absurd hnew hold
        · rw [List.mem_singleton.mp hnew]
          simp only [accepted, World.handle, hpick, exec, hkey, Option.isNone_none]
    | _ => exact absurd hnew hold

/-- **A webhook speaks for its tenant, and for its provider unless its body says otherwise.** Every message on
    the topic is the event of a row that some accepted delivery stored, and every such event is authentic for
    its delivery. -/
theorem messages_authentic {w0 : World} {acts : List (Act Task Empty)} {c : Pool sig GoError Task World}
    (hrun : Run (Pool.step (setup g env)) (fun _ _ => True) ⟨[], w0⟩ acts c) (hrows : w0.db.ingested = [])
    (htopic : w0.topic = []) : (∀ t ∈ c.threads, ∀ row, accepted row ∈ t.log →
      ∃ r, t.task = .webhook r ∧ Authentic g w0.db r (fromSourceEvent row)) ∧
    ∀ m ∈ c.state.topic, ∃ t ∈ c.threads, ∃ row, accepted row ∈ t.log ∧
    m.2 = .marshal (fromSourceEvent row) := by
  have hinit : Inv w0.db w0 := by
    refine ⟨rfl, rfl, ?_⟩
    rw [htopic]
    exact nofun
  have hsafe := Pool.safe_run (R := rely env w0.db) (D := promise g w0.db) rfl
    (fun s task hs _ => by
      cases task with
      | webhook r => exact Rely.safe_seq (handleWebhook_safe hs rfl) (fun _ _ _ _ _ _ _ => trivial) hs
      | drain => exact drain_safe hs)
    nofun (Pool.permits_of_run hrun) (Pool.safe_nil hinit)
  constructor
  · intro t ht row hrow
    obtain ⟨pre, post, hlog⟩ := List.append_of_mem hrow
    obtain ⟨s, _, hmay, _⟩ := hsafe.made t ht pre _ post hlog
    exact hmay row rfl
  · intro m hm
    obtain ⟨row, hrow, rfl⟩ := hsafe.inv.topic m hm
    have hauthor := Pool.exists_author (Q := fun w => row ∈ w.db.ingested)
      (A := fun e => e = accepted row) hrun
      (fun o s hold hnew => inserted_of_new hold hnew) nofun (by rw [hrows]; exact List.not_mem_nil) hrow
    obtain ⟨t, ht, e, he, rfl⟩ := hauthor
    exact ⟨t, ht, row, he, rfl⟩

/-! ## A body that names another source -/

def gateway (source : String) : Gateway where
  parse _ := some (.obj [("source", .str source), ("entity_type", .str "customer"),
    ("entity_id", .str "1")] "" "")
  parseTime _ := none
  hmac _ _ := [171]

def delivery : WebhookRequest where
  provider := "salesforce"
  tenantSlug := "acme"
  body := some "body"
  signature := "sha256=ab"
  fresh := "e1"

def installed : World :=
  { Deployment.world [] with
    db :=
      { tenants := [⟨Deployment.tenant, "acme"⟩]
        connections := [⟨Deployment.tenant, "salesforce", "http://sf", "s1"⟩, ⟨Deployment.tenant, "hubspot", "http://hub", "s2"⟩] } }

def deliverAndDrain : List (Act Task Empty) :=
  [.start (.webhook delivery), .start .drain, .fire 0, .fire 0, .fire 0, .fire 1, .fire 1]

def onlyEvent : List (String × Bytes) → Option Event
  | [(_, .event ev)] => some ev
  | _ => none

theorem messages_authentic_unnamed :
    ∃ c, Run (Pool.step (setup (gateway "") Deployment.env)) (fun _ _ => True)
      ⟨[], installed⟩ deliverAndDrain c ∧ ((∀ t ∈ c.threads, ∀ row, accepted row ∈ t.log →
          ∃ r, t.task = .webhook r ∧ Authentic (gateway "") installed.db r (fromSourceEvent row)) ∧
        ∀ m ∈ c.state.topic, ∃ t ∈ c.threads, ∃ row, accepted row ∈ t.log ∧ m.2 = .marshal (fromSourceEvent row)) ∧
      (onlyEvent c.state.topic).map Event.source = some delivery.provider := by
  exact Transition.exists_run (b := fun _ _ => true)
    (f := fun c => decide ((onlyEvent c.state.topic).map Event.source = some delivery.provider))
      (by decide +kernel)
    (fun _ _ _ => trivial) (fun _ hrun hsource =>
      ⟨messages_authentic hrun rfl rfl, of_decide_eq_true hsource⟩)

/-- **A forged source.** Salesforce signs a delivery on its own URL whose body names HubSpot, and the event
    that goes to the worker is one of HubSpot. -/
theorem source_forged :
    ∃ c, Run (Pool.step (setup (gateway "hubspot") Deployment.env)) (fun _ _ => True) ⟨[], installed⟩
        deliverAndDrain c ∧ c.threads.map (fun t => match t.task with | .webhook r => some r.provider | .drain => none)
        = [some "salesforce", none] ∧ (onlyEvent c.state.topic).map Event.source = some "hubspot" := by
  exact Transition.exists_run (b := fun _ _ => true) (f := fun c => decide (c.threads.map (fun t =>
      match t.task with | .webhook r => some r.provider | .drain => none) = [some "salesforce", none] ∧
    (onlyEvent c.state.topic).map Event.source = some "hubspot")) (by decide +kernel) (fun _ _ _ => trivial)
    (fun _ _ hfacts => of_decide_eq_true hfacts)

end Origin
end SyncForge.Ingestion
