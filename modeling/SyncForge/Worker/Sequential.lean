import SyncForge.Effect.Runs
import SyncForge.Worker.Process

/-!
# `Worker.Sequential` — one worker alone, when every call succeeds

What `Process` does when nobody else is running and no call fails. States are compared through `World.core`,
which forgets the number of calls and the tables that `Process` never reads. `Does env p w r w'` is a run of
`p` seen that way.
-/

namespace SyncForge

open Effect Effect.Prog Store Relational
open Database (anyRow exec rowOrNotFound)
open Function (update)

namespace World

/-- The part of the world that decides what `Process` does. -/
def core (w : World) : World :=
  { w with
    calls := 0
    db :=
      { w.db with
        sourceEvents := fun _ => none
        syncOps := []
        conflicts := .empty
        retryQueue := .empty
        deadLetters := fun _ => none } }

structure Fair (w : World) : Prop where
  store : ∀ n, ∃ pick, w.storeTape n = .ok pick
  provider : ∀ n, w.providerTape n = none

end World

/-- `p` alone, run from `w`, answers `r` and leaves `w'`. -/
abbrev Does {α : Type} (env : Env) (p : Sync α) (w : World) (r : Except GoError α) (w' : World) : Prop :=
  Runs (World.handle env) World.core p w r w'

def deliver (env : Env) (ev : Event) (w : World) :
    World := (run (World.handle env) (handle env (.event ev)) w).2

section Core

variable {u w : World}

theorem core_proj {β : Type} (f : World → β) (hf : ∀ x : World, f x.core = f x) (h : u.core = w.core) :
    f u = f w := by
  rw [← hf u, h, hf w]

section

variable (h : u.core = w.core)
include h

theorem core_policies : u.db.policies = w.db.policies :=
  core_proj (fun x => x.db.policies) (fun _ => rfl) h

theorem core_connections : u.db.connections = w.db.connections :=
  core_proj (fun x => x.db.connections) (fun _ => rfl) h

theorem core_processed : u.db.processed = w.db.processed :=
  core_proj (fun x => x.db.processed) (fun _ => rfl) h

theorem core_canonical : u.db.canonical = w.db.canonical :=
  core_proj (fun x => x.db.canonical) (fun _ => rfl) h

theorem core_outbound : u.db.outbound = w.db.outbound :=
  core_proj (fun x => x.db.outbound) (fun _ => rfl) h

theorem core_sims : u.sims = w.sims := core_proj World.sims (fun _ => rfl) h

theorem core_outbox : u.outbox = w.outbox := core_proj World.outbox (fun _ => rfl) h

theorem core_emitted : u.emitted = w.emitted := core_proj World.emitted (fun _ => rfl) h

theorem core_mutations : u.mutations = w.mutations :=
  core_proj World.mutations (fun _ => rfl) h

theorem core_fair (hw : w.Fair) : u.Fair := by
  have hs : u.storeTape = w.storeTape := core_proj World.storeTape (fun _ => rfl) h
  have hp : u.providerTape = w.providerTape := core_proj World.providerTape (fun _ => rfl) h
  exact ⟨by rw [hs]; exact hw.store, by rw [hp]; exact hw.provider⟩

end

end Core

variable {env : Env} {w w' : World}
  {s : StoreOp} {tenant : String} {c c' : CanonicalRecord} {cust : Customer} {dst : Remote}
  {entityType id d : String} {outbound : List OutboundWrite} {ops : List SyncOperation} {ep : Endpoint}
    {data : Data}
  {ps : List SyncPolicy}

/-! ## Statements -/

theorem does_stmt {r : Except GoError s.Res} (hw : w.Fair)
    (h : ∀ (u : World) pick, u.core = w.core → (exec u.now pick s u.db).1 = r ∧
      ({ u with db := (exec u.now pick s u.db).2 } : World).core = w'.core) :
    Does env (stmt s) w r w' := by
  refine runs_perform (fun u hu => ?_)
  obtain ⟨pick, hpick⟩ := (core_fair hu hw).store u.calls
  simp only [World.handle, hpick]
  exact h u pick hu

def StoreOp.hidden : StoreOp → Bool
  | .setSourceEventStatus _ _ _ _ | .setSourceEventStatusTo _ _ _ | .insertSyncOperation _ | .insertConflict _
  | .setConflictStatus _ _ _ _ _ | .enqueueRetry _ _ | .deleteRetry _ | .insertDeadLetter _
  | .resolveDeadLetterForEvent _ => true
  | _ => false

theorem exec_hidden (hs : s.hidden = true) (u : World) (pick : Nat) :
    ({ u with db := (exec u.now pick s u.db).2 } : World).core = u.core := by
  cases s <;> first | rfl | cases hs

theorem does_tryStmt (hw : w.Fair) (hs : s.hidden = true) : Does env (tryStmt s) w (.ok ()) w := by
  intro u hu
  obtain ⟨pick, hpick⟩ := (core_fair hu hw).store u.calls
  have hrun : run (World.handle env) (tryStmt s) u
      = (.ok (), { u.called with db := (exec u.now pick s u.db).2 }) := by
    rw [tryStmt, run_bind_ok (World.handle env) (run_attempt (World.handle env) (stmt s) u)]
    show (Except.ok (), (run (World.handle env) (stmt s) u).2) = _
    rw [run_perform]
    simp only [World.handle, hpick]
  rw [hrun]
  exact ⟨rfl, (exec_hidden hs u pick).trans hu⟩

theorem does_listPolicies (hw : w.Fair) (tenant : String) :
    Does env (stmt (.listPolicies tenant)) w (.ok (w.db.policiesOf tenant)) w := by
  refine does_stmt hw (fun u pick hu => ⟨?_, hu⟩)
  simp only [exec, Database.policiesOf, core_policies hu]

theorem anyRow_singleton {α : Type} (pick : Nat) (a : α) : anyRow pick [a] = some a := by
  simp [anyRow, Nat.mod_one]

theorem does_connect {provider : String} {conn : Connection} {adapter : Adapter} (hw : w.Fair)
    (hconn : w.db.connectionsOf tenant provider = [conn]) (hreg : env.registry conn.provider = some adapter) :
    Does env (connect env tenant provider) w (.ok ⟨adapter, ⟨conn.provider, conn.baseURL⟩⟩) w := by
  have hget : Does env (stmt (.getConnectionByProvider tenant provider)) w (.ok conn) w := by
    refine does_stmt hw (fun u pick hu => ⟨?_, hu⟩)
    have hrows : u.db.connectionsOf tenant provider = [conn] := by
      rw [← hconn, Database.connectionsOf, Database.connectionsOf, core_connections hu]
    simp only [exec, hrows, anyRow_singleton, rowOrNotFound]
  refine runs_bind hget ?_
  have hadapter : adapterFor env conn = .ok ⟨adapter, ⟨conn.provider, conn.baseURL⟩⟩ := by
    simp only [adapterFor, hreg]
  rw [hadapter]
  exact runs_ofExcept _ _

theorem does_getCanonicalByProvider {provider : String} {c? : Option CanonicalRecord}
    (hw : w.Fair) (hrows : w.db.canonicalsWithProvider tenant entityType provider id = c?.toList) :
    Does env (stmt (.getCanonicalByProvider tenant entityType provider id)) w (rowOrNotFound c?) w := by
  refine does_stmt hw (fun u pick hu => ⟨?_, hu⟩)
  have hu' : u.db.canonicalsWithProvider tenant entityType provider id = c?.toList := by
    rw [← hrows, Database.canonicalsWithProvider, Database.canonicalsWithProvider, core_canonical hu]
  simp only [exec, hu']
  cases c? with
  | none => rfl
  | some c => rw [Option.toList_some, anyRow_singleton]

theorem does_getCanonicalByEmail {tenant entityType email : String} (hw : w.Fair) :
    Does env (stmt (.getCanonicalByEmail tenant entityType email)) w
      (rowOrNotFound (w.db.canonicalsWithEmail tenant entityType email).head?) w := by
  refine does_stmt hw (fun u pick hu => ⟨?_, hu⟩)
  simp only [exec, Database.canonicalsWithEmail, core_canonical hu]

theorem does_getOutboundWrite {key : OutboundKey} (hw : w.Fair) :
    Does env (stmt (.getOutboundWrite key)) w (rowOrNotFound (w.db.outbound key)) w := by
  refine does_stmt hw (fun u pick hu => ⟨?_, hu⟩)
  simp only [exec, core_outbound hu]

/-- The world once `key` is claimed. -/
def World.claimed (w : World) (key : EventKey) : World :=
  { w with db := { w.db with processed := update w.db.processed key true } }

theorem core_setProcessed {u : World} (hu : u.core = w.core) (key : EventKey) (b : Bool) :
    ({ u with db := { u.db with processed := update u.db.processed key b } } : World).core
      = ({ w with db := { w.db with processed := update w.db.processed key b } } : World).core := by
  rw [core_processed hu]
  exact congrArg (fun x : World => ({ x with db := { x.db with processed := update w.db.processed key b }
    } : World)) hu

theorem does_claim {key : EventKey} (hw : w.Fair) :
    Does env (stmt (.claimProcessedEvent key)) w (.ok (!w.db.processed key)) (w.claimed key) := by
  refine does_stmt hw (fun u pick hu => ⟨?_, core_setProcessed hu key true⟩)
  simp only [exec, core_processed hu]

def World.persisted (w : World) (c : CanonicalRecord) (outbound : List OutboundWrite)
    (ops : List SyncOperation) : World := { w with db := w.db.applyState c outbound ops }

theorem does_persist (hw : w.Fair) : Does env (stmt (.persistApplyState c outbound ops)) w (.ok ())
    (w.persisted c outbound ops) := by
  refine does_stmt hw (fun u pick hu => ⟨rfl, ?_⟩)
  have hcan := core_canonical hu
  have hout := core_outbound hu
  show ({ u with db := u.db.applyState c outbound ops } : World).core = (w.persisted c outbound ops).core
  simp only [World.persisted, Database.applyState, hcan, hout]
  have hset := congrArg (fun x : World =>
    ({ x with db := { x.db with
        outbound := outbound.foldl Database.writeOutbound w.db.outbound
        canonical := w.db.canonical.upsert c } } : World)) hu
  exact hset

/-! ## Provider requests -/

/-- The world after a successful request of the worker: the provider's new state, its webhook, and the record
    of the request. -/
def World.wrote (env : Env) (w : World) (ep : Endpoint) (m : Mutation) (type : EventType)
    (r : SimRecord × SimServer) : World := (w.announce env ep type r).mutated ep m

theorem wrote_core {u : World} (hu : u.core = w.core) (ep : Endpoint) (m : Mutation) (type : EventType)
    (r : SimRecord × SimServer) : (u.called.wrote env ep m type r).core = (w.wrote env ep m type r).core := by
  have hs := core_sims hu
  have ho := core_outbox hu
  have he := core_emitted hu
  have hm := core_mutations hu
  have hset := congrArg (fun x : World =>
    ({ x with
        sims := update w.sims ep r.2
        outbox := w.outbox ++ [r.2.webhook (env.uuid w.emitted) type r.1]
        emitted := w.emitted + 1
        mutations := w.mutations ++ [(ep, m)] } : World)) hu
  simp only [World.wrote, World.announce, World.mutated, World.called, hs, ho, he, hm]
  exact hset

theorem does_create (hw : w.Fair) :
    Does env (perform (S := sig) (.create ep data)) w
      (.ok (SimServer.providerRecord ((w.sims ep).insert data).1))
      (w.wrote env ep .create .created ((w.sims ep).insert data)) := by
  refine runs_perform (fun u hu => ?_)
  have hfair := (core_fair hu hw).provider u.calls
  have hs := core_sims hu
  simp only [World.handle, hfair, World.request, Except.map, hs]
  exact ⟨trivial, wrote_core hu _ _ _ _⟩

theorem does_update {r : SimRecord × SimServer} (hw : w.Fair)
    (hr : (w.sims ep).update id data = some r) :
    Does env (perform (S := sig) (.update ep id data)) w (.ok (SimServer.providerRecord r.1))
      (w.wrote env ep .update .updated r) := by
  refine runs_perform (fun u hu => ?_)
  have hfair := (core_fair hu hw).provider u.calls
  have hs := core_sims hu
  simp only [World.handle, hfair, World.request, Except.map, hs, hr]
  exact ⟨trivial, wrote_core hu _ _ _ _⟩

/-! ## Propagation -/

/-- The tenant has one connection to the provider, and it leads to `remote`. -/
def Reaches (env : Env) (db : Database) (tenant provider : String) (remote : Remote) : Prop :=
  ∃ conn, db.connectionsOf tenant provider = [conn] ∧ env.registry conn.provider = some remote.adapter ∧
    remote.endpoint = ⟨conn.provider, conn.baseURL⟩

theorem Reaches.provider {db : Database} {provider : String} {remote : Remote}
    (h : Reaches env db tenant provider remote) : remote.endpoint.provider = provider := by
  obtain ⟨conn, hconn, _, hep⟩ := h
  have hmem : conn ∈ db.connectionsOf tenant provider := by
    rw [hconn]
    exact .head _
  rw [hep]
  exact (of_decide_eq_true (List.mem_filter.mp hmem).2).2

theorem does_connect_reaches {provider : String} {remote : Remote} (hw : w.Fair)
    (h : Reaches env w.db tenant provider remote) :
    Does env (connect env tenant provider) w (.ok remote) w := by
  obtain ⟨conn, hconn, hreg, hep⟩ := h
  have hremote : remote = ⟨remote.adapter, ⟨conn.provider, conn.baseURL⟩⟩ := by rw [← hep]
  rw [hremote]
  exact does_connect hw hconn hreg

def World.delivered (env : Env) (cust : Customer) (dst : Remote) (destination : String)
    (canonical : CanonicalRecord) (w : World) : Option (CanonicalRecord × World) :=
  if canonical.providerID destination = "" then
    let r := (w.sims dst.endpoint).insert (dst.adapter.denormalize cust).data
    some (canonical.setProviderID destination r.1.id, w.wrote env dst.endpoint .create .created r)
  else
    ((w.sims dst.endpoint).update (canonical.providerID destination) (dst.adapter.denormalize cust).data).map
      (fun r => (canonical, w.wrote env dst.endpoint .update .updated r))

theorem does_writeDestination {destination : String} {canonical : CanonicalRecord}
    (hw : w.Fair) (hreach : Reaches env w.db tenant destination dst)
    (h : w.delivered env cust dst destination canonical = some (c', w')) :
    Does env (writeDestination env tenant destination cust canonical) w (.ok c') w' := by
  refine runs_bind (does_connect_reaches hw hreach) ?_
  unfold World.delivered at h
  show Does env (ite _ _ _) w (.ok c') w'
  split at h
  · -- no id there yet: a create
    rename_i hnew
    rw [if_pos hnew]
    cases Option.some.inj h
    exact runs_bind (does_create hw) (runs_return _ _)
  · rename_i hold
    rw [if_neg hold]
    obtain ⟨r, hr, hpair⟩ := Option.map_eq_some_iff.mp h
    cases hpair
    exact runs_bind (does_update hw hr) (runs_return _ _)

def World.propagated (env : Env) (cust : Customer) (remote : String → Remote) :
    List SyncPolicy → CanonicalRecord → World → Option (CanonicalRecord × World)
  | [], canonical, w => some (canonical, w)
  | p :: ps, canonical, w =>
    (w.delivered env cust (remote p.destination) p.destination canonical).bind
      (fun next => World.propagated env cust remote ps next.1 next.2)

def outboundWrite (env : Env) (ev : Event) (entityType entityID : String) (cust : Customer)
    (p : SyncPolicy) : OutboundWrite :=
  { tenantID := ev.tenantID, entityType, entityID, targetSource := p.destination
    fingerprint := cust.fingerprint env.hash, appliedVersion := ev.sourceVersion }

def syncOperation (env : Env) (ev : Event) (entityType entityID : String) (cust : Customer)
    (p : SyncPolicy) : SyncOperation :=
  { tenantID := ev.tenantID, entityType, entityID, source := ev.source, targetSource := p.destination
    eventID := ev.eventID, appliedVersion := ev.sourceVersion, fingerprint := cust.fingerprint env.hash }

theorem delivered_entityID (h : w.delivered env cust dst d c = some (c', w')) : c'.entityID = c.entityID := by
  unfold World.delivered at h
  split at h
  · cases Option.some.inj h
    rfl
  · obtain ⟨r, _, hpair⟩ := Option.map_eq_some_iff.mp h
    cases hpair
    rfl

theorem delivered_db (h : w.delivered env cust dst d c = some (c', w')) :
    w'.db = w.db ∧ (w.Fair → w'.Fair) := by
  unfold World.delivered at h
  split at h
  · obtain ⟨_, rfl⟩ := Prod.mk.inj (Option.some.inj h)
    exact ⟨rfl, fun hw => ⟨hw.store, hw.provider⟩⟩
  · obtain ⟨r, _, hpair⟩ := Option.map_eq_some_iff.mp h
    obtain ⟨_, rfl⟩ := Prod.mk.inj hpair
    exact ⟨rfl, fun hw => ⟨hw.store, hw.provider⟩⟩

theorem propagated_db {remote : String → Remote} (h : w.propagated env cust remote ps c = some (c', w')) :
    w'.db = w.db ∧ c'.entityID = c.entityID ∧ (w.Fair → w'.Fair) := by
  induction ps generalizing c w with
  | nil =>
    cases Option.some.inj h
    exact ⟨rfl, rfl, id⟩
  | cons p ps ih =>
    obtain ⟨⟨c1, w1⟩, h1, hrest⟩ := Option.bind_eq_some_iff.mp h
    obtain ⟨hdb, hid, hfair⟩ := ih hrest
    obtain ⟨hdb1, hfair1⟩ := delivered_db h1
    exact ⟨hdb.trans hdb1, hid.trans (delivered_entityID h1), fun hw => hfair (hfair1 hw)⟩

theorem does_propagate {ev : Event} {remote : String → Remote}
   
    (hw : w.Fair) (hreach : ∀ p ∈ ps, Reaches env w.db ev.tenantID p.destination (remote p.destination))
    (h : w.propagated env cust remote ps c = some (c', w')) :
    Does env (propagate env ev entityType cust ps c outbound ops) w
      (.ok (c', outbound ++ ps.map (outboundWrite env ev entityType c.entityID cust),
        ops ++ ps.map (syncOperation env ev entityType c.entityID cust))) w' := by
  induction ps generalizing c w outbound ops with
  | nil =>
    cases Option.some.inj h
    simp only [List.map_nil, List.append_nil]
    exact runs_return _ _
  | cons p ps ih =>
    obtain ⟨⟨c1, w1⟩, h1, hrest⟩ := Option.bind_eq_some_iff.mp h
    obtain ⟨hdb1, hfair1⟩ := delivered_db h1
    have hid := delivered_entityID h1
    refine runs_bind (does_writeDestination hw (hreach p (by simp)) h1) ?_
    -- the accumulators have grown by this destination; its entity id is the one of the record before
    have hrun := @ih w1 c1 (outbound ++ [outboundWrite env ev entityType c1.entityID cust p])
      (ops ++ [syncOperation env ev entityType c1.entityID cust p]) (hfair1 hw)
      (fun q hq => by rw [hdb1]; exact hreach q (.tail _ hq)) hrest
    simp only [List.map_cons]
    rw [hid, List.append_assoc, List.append_assoc] at hrun
    rw [← hid]
    rwa [← hid] at hrun

/-! ## One upsert -/

section Upsert

variable {ev : Event} {entityType : String} {policies : List SyncPolicy} {cust : Customer}
variable {canonical c' : CanonicalRecord} {remote : String → Remote}

theorem does_recordConflict (hw : w.Fair) (incoming : FieldMap)
    (detected : List (Conflict.FieldConflict Field Any)) (status : ConflictStatus)
    (strategy : Conflict.Strategy) : Does env
    (recordConflict ev entityType canonical incoming detected status strategy) w (.ok ()) w := by
  cases detected with
  | nil => exact runs_return _ _
  | cons c cs => exact does_tryStmt hw rfl

def mergedWith (ev : Event) (policies : List SyncPolicy) (cust : Customer) (canonical : CanonicalRecord) :
    Conflict.Merged Field Any :=
  Conflict.merge (strategyOf policies) canonical.fields canonical.fieldProvenance cust.fieldEntries
    ⟨ev.source, ev.sourceVersion, ev.occurredAt, priorityOf policies⟩

theorem does_mergeAndApply (hw : w.Fair) (hauto : (mergedWith ev policies cust canonical).manual = false)
    (hreach : ∀ p ∈ policies, Reaches env w.db ev.tenantID p.destination (remote p.destination))
    (h : w.propagated env (cust.fromFields (mergedWith ev policies cust canonical).fields) remote policies
      { canonical with fieldProvenance := (mergedWith ev policies cust canonical).provenance }
      = some (c', w')) :
    Does env (mergeAndApply env ev entityType policies cust canonical) w (.ok ())
      (w'.persisted (appliedRecord ev (cust.fromFields (mergedWith ev policies cust canonical).fields) c')
        (policies.map (outboundWrite env ev entityType canonical.entityID
          (cust.fromFields (mergedWith ev policies cust canonical).fields)))
        (policies.map (syncOperation env ev entityType canonical.entityID
          (cust.fromFields (mergedWith ev policies cust canonical).fields)))) := by
  show Does env (ite _ _ _) w (.ok ()) _
  rw [if_neg (by
    have hfalse := hauto
    unfold mergedWith at hfalse
    rw [hfalse]
    exact Bool.false_ne_true)]
  exact runs_bind (does_recordConflict hw _ _ _ _)
    (runs_bind (does_propagate hw hreach h) (does_persist ((propagated_db h).2.2 hw)))

def eventCustomer (adapter : Adapter) (ev : Event) (fields : Data) : Customer :=
  adapter.normalize { id := ev.entityID, sourceVersion := ev.sourceVersion, data := fields }

variable {fields : Data} {src : Remote}

theorem does_invalid {e : GoError} (hw : w.Fair) (hsrc : Reaches env w.db ev.tenantID ev.source src)
    (hinvalid : src.adapter.validate { id := ev.entityID, sourceVersion := ev.sourceVersion, data := fields }
      = .error e) : Does env (applySourceEvent env ev entityType policies fields) w (.error e) w := by
  refine runs_bind (does_connect_reaches hw hsrc) ?_
  refine runs_bind_error ?_
  rw [hinvalid]
  exact runs_ofExcept _ _

theorem does_applySourceEvent {r : Except GoError Unit} {w1 : World} (hw : w.Fair)
    (hsrc : Reaches env w.db ev.tenantID ev.source src)
    (hvalid : src.adapter.validate { id := ev.entityID, sourceVersion := ev.sourceVersion, data := fields }
      = .ok ())
    (hresolve : Does env (resolveCanonical ev entityType (eventCustomer src.adapter ev fields)) w
      (.ok canonical) w1)
    (hrest : Does env
      (if ev.sourceVersion ≤ canonical.sourceVersions ev.source then Pure.pure ()
       else do
        let echo ← isEcho env ev.tenantID entityType canonical.entityID ev.source
          (eventCustomer src.adapter ev fields)
        if echo then Pure.pure ()
        else mergeAndApply env ev entityType policies (eventCustomer src.adapter ev fields) canonical) w1 r w') :
    Does env (applySourceEvent env ev entityType policies fields) w r w' := by
  have hok : Does env (ofExcept (src.adapter.validate
      { id := ev.entityID, sourceVersion := ev.sourceVersion, data := fields })) w (.ok ()) w := by
    rw [hvalid]
    exact runs_ofExcept _ _
  exact runs_bind (does_connect_reaches hw hsrc) (runs_bind hok (runs_bind hresolve hrest))

theorem does_resolve_found (hw : w.Fair)
    (hrows : w.db.canonicalsWithProvider ev.tenantID entityType ev.source ev.entityID = [canonical]) :
    Does env (resolveCanonical ev entityType cust) w (.ok canonical) w := by
  have hget : Does env (stmt (.getCanonicalByProvider ev.tenantID entityType ev.source ev.entityID)) w
      (.ok canonical) w :=
    does_getCanonicalByProvider hw (show _ = (some canonical).toList from hrows)
  exact runs_bind (runs_attempt hget) (runs_return _ _)

theorem does_resolve_fresh (hw : w.Fair)
    (hrows : w.db.canonicalsWithProvider ev.tenantID entityType ev.source ev.entityID = [])
    (hemail : w.db.canonicalsWithEmail ev.tenantID entityType cust.email = []) :
    Does env (resolveCanonical ev entityType cust) w
      (.ok { tenantID := ev.tenantID, entityType, entityID := ev.entityID
             providerIDs := update (fun _ => none) ev.source (some ev.entityID) }) w := by
  have hget : Does env (stmt (.getCanonicalByProvider ev.tenantID entityType ev.source ev.entityID)) w
      (.error .notFound) w :=
    does_getCanonicalByProvider hw (show _ = (none : Option CanonicalRecord).toList from hrows)
  refine runs_bind (runs_attempt hget) ?_
  show Does env (ite _ _ _) w _ w
  split
  · -- the address is looked up only if there is one
    have hlook : Does env (stmt (.getCanonicalByEmail ev.tenantID entityType cust.email)) w
      (.error .notFound) w := by
      have h := @does_getCanonicalByEmail env w ev.tenantID entityType cust.email hw
      rwa [hemail] at h
    exact runs_bind (runs_attempt hlook) (runs_return _ _)
  · exact runs_return _ _

theorem does_isEcho (hw : w.Fair) {tenant entityID source : String} :
    Does env (isEcho env tenant entityType entityID source cust) w
      (.ok (decide ((w.db.outbound ⟨tenant, entityType, entityID, source⟩).map OutboundWrite.fingerprint
        = some (cust.fingerprint env.hash)))) w := by
  refine runs_bind (runs_attempt (does_getOutboundWrite hw)) ?_
  cases w.db.outbound ⟨tenant, entityType, entityID, source⟩ with
  | none => exact runs_return _ _
  | some outbound =>
    have hsome : decide ((some outbound).map OutboundWrite.fingerprint = some (cust.fingerprint env.hash))
        = decide (outbound.fingerprint = cust.fingerprint env.hash) := by
      simp only [Option.map_some, Option.some.injEq]
    rw [hsome]
    exact runs_return _ _

end Upsert

/-! ## One event -/

section Event

variable {ev : Event} {src : Remote}

/-- The world once the claim of `key` is given up. -/
def World.unclaimed (w : World) (key : EventKey) : World :=
  { w with db := { w.db with processed := update w.db.processed key false } }

section

variable (hw : w.Fair)
include hw

theorem does_release (key : EventKey) : Does env (tryStmt (.releaseProcessedEvent key)) w (.ok ())
    (w.unclaimed key) := by
  have hstmt : Does env (stmt (.releaseProcessedEvent key)) w (.ok ()) (w.unclaimed key) :=
    does_stmt hw (fun u pick hu => ⟨rfl, core_setProcessed hu key false⟩)
  exact runs_bind (runs_attempt hstmt) (runs_return _ _)

theorem does_giveUp (status : SourceEventStatus) : Does env (release ev status) w (.ok ())
    (w.unclaimed ev.key) :=
  runs_bind (does_release hw ev.key) (does_tryStmt ⟨hw.store, hw.provider⟩ rfl)

theorem claimed_fair (key : EventKey) : (w.claimed key).Fair := ⟨hw.store, hw.provider⟩

theorem does_dispatch {r : Except GoError Dispatched}
    (hrec : ev.provenance.reconcileFindingID = "") (hsrc : Reaches env w.db ev.tenantID ev.source src)
    (hrest : Does env
      (if targets ev src.adapter.canonicalEntityType (w.db.policiesOf ev.tenantID) = [] then Pure.pure .noPolicy
       else if ev.eventType = .deleted then do
        applyDelete env ev src.adapter.canonicalEntityType
          (targets ev src.adapter.canonicalEntityType (w.db.policiesOf ev.tenantID))
        Pure.pure .applied
       else do
        applyUpsert env ev src.adapter.canonicalEntityType
          (targets ev src.adapter.canonicalEntityType (w.db.policiesOf ev.tenantID))
        Pure.pure .applied) w r w') :
    Does env (dispatch env ev) w r w' := by
  refine runs_bind (does_listPolicies hw _) ?_
  refine runs_bind (runs_bind (does_connect_reaches hw hsrc) (runs_return _ _)) ?_
  show Does env (ite _ _ _) w r w'
  rwa [if_neg (not_not.mpr hrec)]

theorem does_dispatch_upsert {r : Except GoError Unit} {ps : List SyncPolicy} {fields : Data}
    (hprov : ev.provenance = {}) (hsrc : Reaches env w.db ev.tenantID ev.source src)
    (hps : targets ev src.adapter.canonicalEntityType (w.db.policiesOf ev.tenantID) = ps) (hne : ps ≠ [])
    (htype : ev.eventType ≠ .deleted) (hfields : ev.fields = some fields) (hentries : fields.entries ≠ [])
    (h : Does env (applySourceEvent env ev src.adapter.canonicalEntityType ps fields) w r w') :
    Does env (dispatch env ev) w (r.map (fun _ => .applied)) w' := by
  apply does_dispatch hw (by rw [hprov]) hsrc
  rw [hps, if_neg hne, if_neg htype]
  have hup : applyUpsert env ev src.adapter.canonicalEntityType ps
      = applySourceEvent env ev src.adapter.canonicalEntityType ps fields := by
    unfold applyUpsert
    rw [hfields]
    simp only [if_neg hentries]
    rw [if_neg (by rw [hprov]; exact not_not.mpr rfl)]
  rw [hup]
  cases r with
  | ok a => exact runs_bind h (runs_return _ _)
  | error e => exact runs_bind_error h

section

variable (hnew : w.db.processed ev.key = false)
include hnew

theorem does_claimed {r : Except GoError Outcome}
    (hrest : Does env (processClaimed env ev) (w.claimed ev.key) r w') :
    Does env (process env ev) w r w' := by
  have hclaim : Does env (stmt (.claimProcessedEvent ev.key)) w (.ok true) (w.claimed ev.key) := by
    have h := @does_claim env w ev.key hw
    rwa [hnew] at h
  exact runs_bind hclaim hrest

theorem does_process_applied (hdispatch : Does env (dispatch env ev) (w.claimed ev.key) (.ok .applied) w')
    (hw' : w'.Fair) : Does env (process env ev) w (.ok .applied) w' := by
  refine does_claimed hw hnew (runs_bind (runs_attempt hdispatch) ?_)
  exact runs_bind (does_tryStmt hw' rfl) (runs_return _ _)

theorem does_process_failed {e : GoError}
    (hdispatch : Does env (dispatch env ev) (w.claimed ev.key) (.error e) w') (hw' : w'.Fair) :
    Does env (process env ev) w (.error e) (w'.unclaimed ev.key) := by
  refine does_claimed hw hnew (runs_bind (runs_attempt hdispatch) ?_)
  exact runs_bind (does_giveUp hw' .failed) (runs_throw _ _)

end

theorem does_process_duplicate (hold : w.db.processed ev.key = true) :
    Does env (process env ev) w (.ok .duplicate) w := by
  have hclaim : Does env (stmt (.claimProcessedEvent ev.key)) w (.ok false) (w.claimed ev.key) := by
    have h := @does_claim env w ev.key hw
    rwa [hold] at h
  -- claiming a row that is there changes nothing
  have hsame : w.claimed ev.key = w := by
    unfold World.claimed
    rw [← hold, Function.update_eq_self]
  rw [hsame] at hclaim
  exact runs_bind hclaim (runs_return _ _)

end

theorem does_random {α : Type} {f : Nat → Sync α} {r : Except GoError α}
    (h : ∀ jitter, Does env (f jitter) w r w') : Does env (perform (S := sig) .random >>= f) w r w' := by
  intro u hu
  have hrun : run (World.handle env) (perform (S := sig) .random) u
    = (.ok (u.randomTape u.calls), u.called) := by
    rw [run_perform]
    rfl
  rw [run_bind_ok (World.handle env) hrun]
  exact h _ _ hu

theorem does_hidden (hw : w.Fair) (hs : s.hidden = true) {r : Except GoError s.Res}
    (hr : ∀ now pick db, (exec now pick s db).1 = r) : Does env (stmt s) w r w :=
  does_stmt hw (fun u pick hu => ⟨hr _ _ _, (exec_hidden hs u pick).trans hu⟩)

theorem does_dispatchFailure (hw : w.Fair) (e : GoError) :
    Does env (dispatchFailure env ev e) w (.ok ()) w := by
  show Does env (ite _ _ _) w (.ok ()) w
  split
  · exact does_random (fun jitter => does_hidden hw rfl (fun _ _ _ => rfl))
  · exact runs_bind (does_hidden hw rfl (fun _ _ _ => rfl)) (does_tryStmt hw rfl)

/-- **`Handle`** does what `Process` does, as far as the core goes. -/
theorem does_handle {r : Except GoError Outcome} (hw' : w'.Fair) (h : Does env (process env ev) w r w') :
    Does env (handle env (.event ev)) w (.ok ()) w' := by
  refine runs_bind (runs_ofExcept (.ok ev) w) (runs_bind (runs_attempt h) ?_)
  -- a failed event is handed off to tables that the core does not show
  cases r with
  | ok outcome => exact runs_return _ _
  | error e => exact does_dispatchFailure hw' e

end Event

end SyncForge
