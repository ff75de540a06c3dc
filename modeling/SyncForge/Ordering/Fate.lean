import SyncForge.Worker.Calls
import SyncForge.Worker.Sequential

/-!
# `Ordering.Fate` — everything one webhook event can do

A webhook event, created, updated or deleted, is handled alone, and any call may fail. `Fate` lists what can
have become of it, with what each case says about the canonical records before and after; `process_fate` and
`deliver_fate` say that the list is complete. Properties of runs are read off this list, so nothing else looks
into the worker's functions.
-/

namespace SyncForge.Ordering

open Effect Effect.Prog Store Relational
open Database (anyRow exec)
open CanonicalRecord (key providerID setProviderID setProviderID_ne)
open Function (update update_of_ne update_self)

abbrev CanonicalTable := Table CanonicalRecord CanonicalKey key

/-! ## Which record an event is about -/

def matched (w : World) (a : Adapter) (ev : Event) : List CanonicalRecord :=
  w.db.canonicalsWithProvider ev.tenantID a.canonicalEntityType ev.source ev.entityID

def linkable (w : World) (a : Adapter) (ev : Event) : Option CanonicalRecord :=
  ev.fields.bind (fun data =>
    (w.db.canonicalsWithEmail ev.tenantID a.canonicalEntityType (eventCustomer a ev data).email).head?)

def ownKey (a : Adapter) (ev : Event) : CanonicalKey := ⟨ev.tenantID, a.canonicalEntityType, ev.entityID⟩

def freshRecord (a : Adapter) (ev : Event) : CanonicalRecord where
  tenantID := ev.tenantID
  entityType := a.canonicalEntityType
  entityID := ev.entityID
  providerIDs := update (fun _ => none) ev.source (some ev.entityID)

/-- The record an upsert goes on with, and the canonical records at that moment: the id of a record that was
    found by its e-mail address has been added to it. -/
inductive Resolution (w : World) (a : Adapter) (ev : Event) : CanonicalRecord → CanonicalTable → Prop where
  | byID {c : CanonicalRecord} : c ∈ matched w a ev → Resolution w a ev c w.db.canonical
  | byEmail {c : CanonicalRecord} : matched w a ev = [] → linkable w a ev = some c →
      Resolution w a ev (c.setProviderID ev.source ev.entityID)
        (w.db.canonical.upsert (c.setProviderID ev.source ev.entityID))
  | fresh : matched w a ev = [] → linkable w a ev = none → Resolution w a ev (freshRecord a ev) w.db.canonical

/-! ## Writing to the destinations -/

abbrev Sims := Endpoint → SimServer

/-- A connection of the tenant to the provider leads to `remote`. -/
def Connected (env : Env) (db : Database) (tenant provider : String) (remote : Remote) : Prop :=
  ∃ conn ∈ db.connectionsOf tenant provider, adapterFor env conn = .ok remote

inductive WrittenTo (cust : Customer) (dst : Remote) (d : String) (c : CanonicalRecord) (sims : Sims) :
    CanonicalRecord → Sims → Prop where
  | created : c.providerID d = "" →
      WrittenTo cust dst d c sims (c.setProviderID d (sims dst.endpoint).genID)
        (update sims dst.endpoint ((sims dst.endpoint).insert (dst.adapter.denormalize cust).data).2)
  | updated {r : SimRecord × SimServer} : c.providerID d ≠ "" →
      (sims dst.endpoint).update (c.providerID d) (dst.adapter.denormalize cust).data = some r →
      WrittenTo cust dst d c sims c (update sims dst.endpoint r.2)

inductive Written (env : Env) (db : Database) (tenant : String) (cust : Customer) (c : CanonicalRecord)
    (sims : Sims) :
    List SyncPolicy → CanonicalRecord → Sims → Prop where
  | nil : Written env db tenant cust c sims [] c sims
  | snoc {ps : List SyncPolicy} {p : SyncPolicy} {dst : Remote} {c' c'' : CanonicalRecord} {sims' sims'' : Sims} :
      Written env db tenant cust c sims ps c' sims' → Connected env db tenant p.destination dst →
      WrittenTo cust dst p.destination c' sims' c'' sims'' →
      Written env db tenant cust c sims (ps ++ [p]) c'' sims''

/-- `c'` is `c` with the ids of records created meanwhile at destinations where `c` had none. -/
structure Extended (sims sims' : Sims) (c c' : CanonicalRecord) : Prop where
  columns : c' = { c with providerIDs := c'.providerIDs }
  ids : ∀ d, c'.providerIDs d = c.providerIDs d ∨ c.providerID d = "" ∧ ∃ ep : Endpoint, ep.provider = d ∧
    c'.providerIDs d = some (sims ep).genID ∧ (sims ep).nextID < (sims' ep).nextID

section Written

variable {env : Env} {db : Database} {tenant name : String} {cust : Customer} {dst : Remote}
variable {c c' : CanonicalRecord} {sims sims' : Sims} {ps : List SyncPolicy}

theorem Connected.adapter (h : Connected env db tenant name dst) : env.registry name = some dst.adapter := by
  obtain ⟨conn, hconn, hadapter⟩ := h
  rw [← (of_decide_eq_true (List.mem_filter.mp hconn).2).2]
  exact (adapterFor_ok hadapter).2

theorem Connected.provider (h : Connected env db tenant name dst) : dst.endpoint.provider = name := by
  obtain ⟨conn, hconn, hadapter⟩ := h
  rw [(adapterFor_ok hadapter).1]
  exact (of_decide_eq_true (List.mem_filter.mp hconn).2).2

theorem ids_update {ep ep' : Endpoint} {id : String} {data : Data} {r : SimRecord × SimServer}
    (h : (sims ep).update id data = some r) : (update sims ep r.2 ep').genID = (sims ep').genID ∧
      (update sims ep r.2 ep').nextID = (sims ep').nextID := by
  obtain ⟨rec_, s'⟩ := r
  obtain ⟨old, _, _, hs'⟩ := SimServer.update_eq_some h
  by_cases hep : ep' = ep
  · rw [hep, update_self, hs']
    exact ⟨rfl, rfl⟩
  · rw [update_of_ne hep]
    exact ⟨rfl, rfl⟩

theorem nextID_created (cust : Customer) (ep : Endpoint) : (sims ep).nextID ≤ (update sims dst.endpoint
    ((sims dst.endpoint).insert (dst.adapter.denormalize cust).data).2 ep).nextID := by
  by_cases hep : ep = dst.endpoint
  · rw [hep, update_self]
    exact Nat.le_succ _
  · rw [update_of_ne hep]

theorem Written.extended (h : Written env db tenant cust c sims ps c' sims') : Extended sims sims' c c' ∧
    ∀ ep : Endpoint, (sims ep).nextID ≤ (sims' ep).nextID ∧
      (c'.providerID ep.provider = "" → (sims' ep).genID = (sims ep).genID) := by
  induction h with
  | nil => exact ⟨⟨rfl, fun _ => .inl rfl⟩, fun _ => ⟨le_rfl, fun _ => rfl⟩⟩
  | @snoc ps p dst c1 c2 sims1 sims2 _ hdst hto ih =>
    obtain ⟨hext, hnext⟩ := ih
    cases hto with
    | updated _ hupdate =>
      refine ⟨⟨hext.columns, fun d => ?_⟩, fun ep => ⟨?_, fun hep => ?_⟩⟩
      · refine (hext.ids d).imp_right (fun ⟨hnone, ep, hd, hid, hlt⟩ => ⟨hnone, ep, hd, hid, ?_⟩)
        rwa [(ids_update hupdate).2]
      · rw [(ids_update hupdate).2]
        exact (hnext ep).1
      · exact (ids_update hupdate).1.trans ((hnext ep).2 hep)
    | created hempty =>
      have hcreated := fun ep => @nextID_created dst sims1 cust ep
      rw [← hdst.provider] at hempty ⊢
      have hid := c1.setProviderID_self dst.endpoint.provider (sims1 dst.endpoint).genID
      refine ⟨⟨?_, fun d => ?_⟩, fun ep => ⟨(hnext ep).1.trans (hcreated ep), fun hep => ?_⟩⟩
      · show c1.setProviderID _ _ = _
        rw [setProviderID, hext.columns]
      · by_cases hd : d = dst.endpoint.provider
        · subst hd
          refine .inr ⟨?_, dst.endpoint, rfl, by rw [hid, (hnext dst.endpoint).2 hempty], ?_⟩
          -- an id it got on the way would not be empty
          · rcases hext.ids dst.endpoint.provider with hsame | ⟨hnone, _⟩
            · rwa [providerID, ← hsame]
            · exact hnone
          · rw [update_self]
            exact Nat.lt_succ_of_le (hnext dst.endpoint).1
        · rw [setProviderID_ne _ hd]
          refine (hext.ids d).imp_right (fun ⟨hnone, ep, hep, hgen, hlt⟩ => ⟨hnone, ep, hep, hgen, ?_⟩)
          exact hlt.trans_le (hcreated ep)
      · have hne : ep.provider ≠ dst.endpoint.provider := by
          intro heq
          rw [heq, providerID, hid] at hep
          exact SimServer.genID_ne_empty _ hep
        rw [providerID, setProviderID_ne _ hne] at hep
        rw [update_of_ne (fun heq => hne (congrArg Endpoint.provider heq))]
        exact (hnext ep).2 hep

theorem Written.key (h : Written env db tenant cust c sims ps c' sims') : c'.key = c.key := by
  rw [h.extended.1.columns]
  rfl

theorem Written.applied_key {fp : Field → Option Conflict.Provenance} {ev : Event} {cust' : Customer}
    (h : Written env db tenant cust { c with fieldProvenance := fp } sims ps c' sims') :
    (appliedRecord ev cust' c').key = c.key := h.key

end Written

/-! ## The cases -/

structure Still (w0 w : World) : Prop where
  canonical : w.db.canonical = w0.db.canonical
  outbound : w.db.outbound = w0.db.outbound
  policies : w.db.policies = w0.db.policies
  connections : w.db.connections = w0.db.connections
  sims : w.sims = w0.sims

theorem Still.refl (w : World) : Still w w := ⟨rfl, rfl, rfl, rfl, rfl⟩

variable {w0 w w' : World} {α : Type}

theorem Still.trans (h : Still w0 w) (h' : Still w w') : Still w0 w' :=
  ⟨h'.canonical.trans h.canonical, h'.outbound.trans h.outbound, h'.policies.trans h.policies,
    h'.connections.trans h.connections, h'.sims.trans h.sims⟩

inductive Verdict where
  | failed | duplicate | noPolicy | stale | echo | parked | applied | unknown | gone | deleted
deriving DecidableEq, Repr

/-- What `Process` returns for each verdict. -/
def Verdict.Answers : Verdict → Except GoError Outcome → Prop
  | .failed, r => ∃ e, r = .error e
  | .duplicate, r => r = .ok .duplicate
  | .noPolicy, r => r = .ok .noPolicy
  | _, r => r = .ok .applied

variable {v : Verdict}

theorem Verdict.answers_applied (h : v.Answers (.ok .applied)) : v ≠ .failed ∧ v ≠ .duplicate ∧
    v ≠ .noPolicy := by
  cases v <;> simp [Verdict.Answers] at h ⊢

def customerOf (a : Adapter) (ev : Event) : Customer := eventCustomer a ev (ev.fields.getD ∅)

def policiesFor (w : World) (a : Adapter) (ev : Event) : List SyncPolicy :=
  targets ev a.canonicalEntityType (w.db.policiesOf ev.tenantID)

def mergedInto (w : World) (a : Adapter) (ev : Event) (c : CanonicalRecord) : Conflict.Merged Field Any :=
  mergedWith ev (policiesFor w a ev) (customerOf a ev) c

def mergedCustomer (w : World) (a : Adapter) (ev : Event) (c : CanonicalRecord) : Customer :=
  (customerOf a ev).fromFields (mergedInto w a ev c).fields

/-- The source's own copy was last written with the values the event brings. -/
def Echoes (env : Env) (w : World) (a : Adapter) (ev : Event) (c : CanonicalRecord) : Prop :=
  (w.db.outbound ⟨ev.tenantID, a.canonicalEntityType, c.entityID, ev.source⟩).map OutboundWrite.fingerprint
    = some ((customerOf a ev).fingerprint env.hash)

def recordKey (k : OutboundKey) : CanonicalKey := ⟨k.tenantID, k.entityType, k.entityID⟩

inductive Fate (env : Env) (w0 : World) (ev : Event) : Verdict → World → Prop where
  /-- Turned away, or failed before anything happened. -/
  | idle {v : Verdict} {w : World} : v = .failed ∨ v = .duplicate ∨ v = .noPolicy → Still w0 w →
      Fate env w0 ev v w
  /-- An upsert that came no further than its record. -/
  | dropped {v : Verdict} {w : World} {a : Adapter} {c : CanonicalRecord} {T : CanonicalTable} :
      env.registry ev.source = some a → ev.eventType ≠ .deleted → Resolution w0 a ev c T →
      w.db.canonical = T → w.db.outbound = w0.db.outbound → w.sims = w0.sims →
      (v = .failed ∨ v = .stale ∧ ev.sourceVersion ≤ c.sourceVersions ev.source ∨
        v = .echo ∧ c.sourceVersions ev.source < ev.sourceVersion ∧ Echoes env w0 a ev c ∨
        v = .parked ∧ c.sourceVersions ev.source < ev.sourceVersion ∧
          (mergedInto w0 a ev c).manual = true) → Fate env w0 ev v w
  /-- An upsert that failed while it was being written to the destinations. -/
  | interrupted {w : World} {a : Adapter} {c : CanonicalRecord} {T : CanonicalTable} :
      env.registry ev.source = some a → ev.eventType ≠ .deleted → Resolution w0 a ev c T →
      c.sourceVersions ev.source < ev.sourceVersion → w.db.canonical = T → w.db.outbound = w0.db.outbound →
      Fate env w0 ev .failed w
  /-- An upsert that went through. -/
  | applied {w : World} {a : Adapter} {c c' : CanonicalRecord} {T : CanonicalTable} :
      env.registry ev.source = some a → ev.eventType ≠ .deleted → Resolution w0 a ev c T →
      c.sourceVersions ev.source < ev.sourceVersion → (mergedInto w0 a ev c).manual = false →
      Written env w0.db ev.tenantID (mergedCustomer w0 a ev c)
        { c with fieldProvenance := (mergedInto w0 a ev c).provenance } w0.sims (policiesFor w0 a ev) c' w.sims →
      w.db.canonical = T.upsert (appliedRecord ev (mergedCustomer w0 a ev c) c') →
      (∀ k, recordKey k ≠ c.key → w.db.outbound k = w0.db.outbound k) → ¬ Echoes env w0 a ev c →
      Fate env w0 ev .applied w
  /-- A delete of a record nobody knows, or that is deleted already. -/
  | ignored {v : Verdict} {w : World} {a : Adapter} :
      env.registry ev.source = some a → ev.eventType = .deleted →
      v = .unknown ∧ matched w0 a ev = [] ∨
        v = .gone ∧ (∃ c ∈ matched w0 a ev, c.tombstone = true) →
      Still w0 w → Fate env w0 ev v w
  /-- A delete that failed at a destination. -/
  | undeleted {w : World} {a : Adapter} {c : CanonicalRecord} :
      env.registry ev.source = some a → ev.eventType = .deleted → c ∈ matched w0 a ev →
      c.tombstone = false → w.db.canonical = w0.db.canonical → w.db.outbound = w0.db.outbound →
      Fate env w0 ev .failed w
  /-- A delete that went through. -/
  | deleted {w : World} {a : Adapter} {c : CanonicalRecord} :
      env.registry ev.source = some a → ev.eventType = .deleted → c ∈ matched w0 a ev →
      c.tombstone = false → w.db.canonical = w0.db.canonical.upsert (tombstoned ev c) →
      w.db.outbound = w0.db.outbound → Fate env w0 ev .deleted w

/-- A fate is about what `Still` is about. -/
theorem fate_congr {env : Env} {ev : Event} (hw : Still w w') (h : Fate env w0 ev v w) :
    Fate env w0 ev v w' := by
  have ⟨hc, ho, _, _, hs⟩ := hw
  cases h with
  | idle hv hstill => exact .idle hv (hstill.trans hw)
  | dropped ha htype hres hT hout hsims hv =>
    exact .dropped ha htype hres (hc.trans hT) (ho.trans hout) (hs.trans hsims) hv
  | interrupted ha htype hres hnew hT hout => exact .interrupted ha htype hres hnew (hc.trans hT) (ho.trans hout)
  | applied ha htype hres hnew hauto hwritten hT hout hecho =>
    rw [← hs] at hwritten
    exact .applied ha htype hres hnew hauto hwritten (hc.trans hT)
      (fun k hk => by rw [ho]; exact hout k hk) hecho
  | ignored ha htype hv hstill => exact .ignored ha htype hv (hstill.trans hw)
  | undeleted ha htype hm hlive hT hout => exact .undeleted ha htype hm hlive (hc.trans hT) (ho.trans hout)
  | deleted ha htype hm hlive hT hout => exact .deleted ha htype hm hlive (hc.trans hT) (ho.trans hout)

/-! ## Calls that change nothing that matters -/

def isInert (o : Call) : Bool := !o.writesCanonical && !o.writesOutbound && !o.isProvider

abbrev OnlyInert {α : Type} (p : Sync α) : Prop := Only (fun o : Call => isInert o = true) p

variable {env : Env} {ev : Event} {entityType tenant provider : String} {canonical : CanonicalRecord}

theorem handle_still {o : Call} (ho : isInert o = true) (w : World) : Still w (World.handle env o w).2 := by
  have hinert : (o.writesCanonical = false ∧ o.writesOutbound = false) ∧ o.isProvider = false := by
    simpa [isInert] using ho
  exact ⟨World.handle_canonical hinert.1.1, World.handle_outbound hinert.1.2, World.handle_policies,
    World.handle_connections, World.handle_sims hinert.2⟩

/-- What only depends on what `Still` is about is kept by inert calls. -/
theorem triple_inert {p : Sync α} (hp : OnlyInert p) {I : World → Prop}
    (hI : ∀ w w' : World, Still w w' → I w → I w') : Triple (World.handle env) I p (fun _ => I) :=
  triple_of_only hp (fun w _ ho hw => hI w _ (handle_still ho w) hw)

theorem triple_still {p : Sync α} (hp : OnlyInert p) :
    Triple (World.handle env) (Still w0) p (fun _ => Still w0) :=
  triple_inert hp (fun _ _ hw h => h.trans hw)

theorem recordConflict_inert {incoming : FieldMap} {detected : List (Conflict.FieldConflict Field Any)}
    {status : ConflictStatus} {strategy : Conflict.Strategy} :
    OnlyInert (recordConflict ev entityType canonical incoming detected status strategy) := by
  cases detected with
  | nil => exact trivial
  | cons c cs => exact only_tryStmt rfl

theorem inert_of_bookkeeping {p : Sync α} (h : OnlyBookkeeping p) : OnlyInert p := by
  refine only_mono h (fun o ho => ?_)
  cases o with
  | store s => cases s <;> first | rfl | cases ho
  | random => rfl
  | _ => cases ho

theorem release_inert {status : SourceEventStatus} : OnlyInert (release ev status) :=
  only_bind (only_tryStmt rfl) (fun _ => only_tryStmt rfl)

/-! ## Reading -/

section Reading

variable {w0 : World} {a : Adapter}

theorem triple_read {s : StoreOp} {K : Except GoError s.Res → Prop} (hs : isInert (.store s) = true)
    (hfail : ∀ text, K (.error (.plain text))) (hok : ∀ w pick, Still w0 w → K (exec w.now pick s w.db).1) :
    Triple (World.handle env) (Still w0) (stmt s) (fun r w => Still w0 w ∧ K r) := by
  have hanswer : Triple (World.handle env) (Still w0) (stmt s) (fun r _ => K r) :=
    triple_stmt (fun _ text _ => hfail text) (fun w pick hw => hok w pick hw)
  intro w hw
  exact ⟨triple_still (only_stmt (P := fun o => isInert o = true) hs) w hw, hanswer w hw⟩

theorem triple_getByProvider : Triple (World.handle env) (Still w0)
      (stmt (.getCanonicalByProvider ev.tenantID a.canonicalEntityType ev.source ev.entityID))
      (fun r w => Still w0 w ∧ (∀ c, r = .ok c → c ∈ matched w0 a ev) ∧
        (r = .error .notFound → matched w0 a ev = [])) := by
  refine triple_read (s := .getCanonicalByProvider _ _ _ _) rfl (fun text => ⟨fun c h => ?_, fun h => ?_⟩) ?_
  · cases h
  · cases h
  · intro w pick hw
    have hrows : w.db.canonicalsWithProvider ev.tenantID a.canonicalEntityType ev.source ev.entityID
        = matched w0 a ev := by
      rw [matched, Database.canonicalsWithProvider, Database.canonicalsWithProvider, hw.canonical]
    simp only [exec, hrows]
    cases hrow : anyRow pick (matched w0 a ev) with
    | none => exact ⟨fun c h => (by cases h), fun _ => Database.anyRow_none hrow⟩
    | some c =>
      refine ⟨fun c' h => ?_, fun h => by cases h⟩
      cases h
      exact Database.anyRow_mem hrow

theorem triple_getByEmail {email : String} :
    Triple (World.handle env) (Still w0) (stmt (.getCanonicalByEmail ev.tenantID a.canonicalEntityType email))
      (fun r w => Still w0 w ∧ (∀ c, r = .ok c →
          (w0.db.canonicalsWithEmail ev.tenantID a.canonicalEntityType email).head? = some c) ∧ (r = .error .notFound →
          (w0.db.canonicalsWithEmail ev.tenantID a.canonicalEntityType email).head? = none)) := by
  refine triple_read (s := .getCanonicalByEmail _ _ _) rfl (fun text => ⟨fun c h => ?_, fun h => ?_⟩) ?_
  · cases h
  · cases h
  · intro w pick hw
    have hrows : w.db.canonicalsWithEmail ev.tenantID a.canonicalEntityType email
        = w0.db.canonicalsWithEmail ev.tenantID a.canonicalEntityType email := by
      rw [Database.canonicalsWithEmail, Database.canonicalsWithEmail, hw.canonical]
    simp only [exec, hrows]
    cases (w0.db.canonicalsWithEmail ev.tenantID a.canonicalEntityType email).head? with
    | none => exact ⟨fun c h => (by cases h), fun _ => rfl⟩
    | some c =>
      refine ⟨fun c' h => ?_, fun h => by cases h⟩
      rw [Except.ok.inj h]

theorem triple_listPolicies : Triple (World.handle env) (Still w0) (stmt (.listPolicies tenant))
      (fun r w => Still w0 w ∧ ∀ ps, r = .ok ps → ps = w0.db.policiesOf tenant) := by
  refine triple_read (s := .listPolicies _) rfl (fun text ps h => by cases h) (fun w pick hw ps h => ?_)
  have hps : w.db.policiesOf tenant = ps := Except.ok.inj h
  rw [← hps, Database.policiesOf, Database.policiesOf, hw.policies]

theorem triple_connect {I : World → Prop} (hI : ∀ w w' : World, Still w w' → I w → I w')
    (hconns : ∀ w, I w → w.db.connections = w0.db.connections) : Triple (World.handle env) I (connect env tenant provider)
      (fun r w => I w ∧ ∀ remote, r = .ok remote → Connected env w0.db tenant provider remote) := by
  have hget : Triple (World.handle env) I (stmt (.getConnectionByProvider tenant provider))
      (fun r w => I w ∧ ∀ conn, r = .ok conn → conn ∈ w0.db.connectionsOf tenant provider) := by
    intro w hw
    refine ⟨triple_inert (only_stmt (P := fun o => isInert o = true) rfl) hI w hw, fun conn h => ?_⟩
    have hrows : w.db.connectionsOf tenant provider = w0.db.connectionsOf tenant provider := by
      rw [Database.connectionsOf, Database.connectionsOf, hconns w hw]
    rw [run_perform] at h
    rcases World.handle_store env w (.getConnectionByProvider tenant provider) with ⟨_, _, hcall⟩ | ⟨pick, _, hcall⟩
    · rw [hcall] at h
      cases h
    · rw [hcall] at h
      simp only [exec, hrows] at h
      cases hrow : anyRow pick (w0.db.connectionsOf tenant provider) with
      | none =>
        rw [hrow] at h
        cases h
      | some conn' =>
        rw [hrow] at h
        cases h
        exact Database.anyRow_mem hrow
  refine triple_bind hget (fun conn => triple_ofExcept ?_) ?_
  · rintro w ⟨hw, hconn⟩
    exact ⟨hw, fun remote hremote => ⟨conn, hconn conn rfl, hremote⟩⟩
  · rintro e w ⟨hw, _⟩
    exact ⟨hw, fun remote h => by cases h⟩

theorem triple_connect_still : Triple (World.handle env) (Still w0) (connect env tenant provider)
      (fun r w => Still w0 w ∧ ∀ remote, r = .ok remote → Connected env w0.db tenant provider remote) :=
  triple_connect (fun _ _ hw h => h.trans hw) (fun _ h => h.connections)

end Reading

/-! ## Upserts -/

/-- A program of the worker ends with the event in one of the cases; `out` is what `Process` makes of its
    result. -/
def Ends (env : Env) (w0 : World) (ev : Event) {α : Type} (out : α → Outcome) :
    Except GoError α → World → Prop
  | .ok x, w => ∃ v, Fate env w0 ev v w ∧ v.Answers (.ok (out x))
  | .error _, w => Fate env w0 ev .failed w

section Upsert

variable {w0 : World} {a : Adapter} {c : CanonicalRecord} {T : CanonicalTable} {w : World} {data : Data}

theorem Still.failed (h : Still w0 w) : Fate env w0 ev .failed w := .idle (.inl rfl) h

structure Found (w0 : World) (a : Adapter) (ev : Event) (c : CanonicalRecord) (w : World) : Prop where
  resolution : Resolution w0 a ev c w.db.canonical
  outbound : w.db.outbound = w0.db.outbound
  connections : w.db.connections = w0.db.connections
  sims : w.sims = w0.sims

theorem found_congr (w w' : World) (hw : Still w w') (h : Found w0 a ev c w) : Found w0 a ev c w' :=
  ⟨by rw [hw.canonical]; exact h.resolution, hw.outbound.trans h.outbound, hw.connections.trans h.connections,
    hw.sims.trans h.sims⟩

theorem found_still (h : Still w0 w) (hres : Resolution w0 a ev c w0.db.canonical) : Found w0 a ev c w :=
  ⟨by rw [h.canonical]; exact hres, h.outbound, h.connections, h.sims⟩

theorem Resolution.key (h : Resolution w0 a ev c T) :
    c.key = ⟨ev.tenantID, a.canonicalEntityType, c.entityID⟩ := by
  cases h with
  | byID hc =>
    obtain ⟨ht, he, _⟩ := of_decide_eq_true (List.mem_filter.mp hc).2
    rw [key, ht, he]
  | byEmail _ hlink =>
    obtain ⟨data, _, hhead⟩ := Option.bind_eq_some_iff.mp hlink
    have hmem := List.mem_of_mem_head? (Option.mem_def.mpr hhead)
    obtain ⟨ht, he, _⟩ := of_decide_eq_true (List.mem_filter.mp hmem).2
    show CanonicalKey.mk _ _ _ = _
    rw [setProviderID, ht, he]
  | fresh => rfl

theorem linkable_row (h : linkable w0 a ev = some c) : w0.db.canonical.get? c.key = some c := by
  obtain ⟨data, _, hhead⟩ := Option.bind_eq_some_iff.mp h
  exact Table.get?_of_mem (List.mem_filter.mp (List.mem_of_mem_head? (Option.mem_def.mpr hhead))).1

theorem resolveCanonical_fate (hdata : ev.fields = some data)
    (hemail : (eventCustomer a ev data).email ≠ "") :
    Triple (World.handle env) (Still w0) (resolveCanonical ev a.canonicalEntityType (eventCustomer a ev data))
      (fun r w => match r with
        | .ok c => Found w0 a ev c w
        | .error _ => Still w0 w) := by
  have hlink : linkable w0 a ev = (w0.db.canonicalsWithEmail ev.tenantID a.canonicalEntityType
      (eventCustomer a ev data).email).head? := by
    rw [linkable, hdata]
    rfl
  refine triple_attempt triple_getByProvider (fun r => ?_)
  cases r with
  | ok c => exact triple_return (fun w hw => found_still hw.1 (.byID (hw.2.1 c rfl)))
  | error e =>
    cases e with
    | notFound =>
      refine triple_fact (fun w hw => hw.2.2 rfl) (fun hnone => ?_)
      show Triple _ _ (ite _ _ _) _
      rw [if_pos hemail]
      refine triple_attempt (triple_pre triple_getByEmail (fun w hw => hw.1)) (fun r => ?_)
      cases r with
      | ok c =>
        -- the id is added to the record before anything else is known about the event
        refine triple_bind (R := fun r w => match r with
            | .ok _ => Found w0 a ev (c.setProviderID ev.source ev.entityID) w
            | .error _ => Still w0 w) (triple_stmt ?_ ?_) (fun _ => triple_return (fun w hw => hw)) (fun e w h => h)
        · rintro w text ⟨hw, _, _⟩
          exact ⟨hw.canonical, hw.outbound, hw.policies, hw.connections, hw.sims⟩
        · rintro w pick ⟨hw, hfound, _⟩
          have hc : linkable w0 a ev = some c := hlink.trans (hfound c rfl)
          simp only [exec, World.executed]
          have htable : (w.db.linkProvider c.key ev.source ev.entityID).canonical
              = w0.db.canonical.upsert (c.setProviderID ev.source ev.entityID) := by
            simp only [Database.linkProvider, hw.canonical, linkable_row hc]
          refine ⟨?_, hw.outbound, hw.connections, hw.sims⟩
          rw [htable]
          exact .byEmail hnone hc
      | error e =>
        cases e with
        | notFound =>
          exact triple_return (fun w hw => found_still hw.1 (.fresh hnone (hlink.trans (hw.2.2 rfl))))
        | plain text => exact triple_throw (fun w hw => hw.1)
        | connector e => exact triple_throw (fun w hw => hw.1)
    | plain text => exact triple_throw (fun w hw => hw.1)
    | connector e => exact triple_throw (fun w hw => hw.1)

/-- `isEcho` finds the event's own fingerprint or goes on. -/
theorem isEcho_fate {cust : Customer} :
    Triple (World.handle env) (Found w0 a ev c) (isEcho env ev.tenantID a.canonicalEntityType c.entityID ev.source cust)
      (fun r w => Found w0 a ev c w ∧ ∀ echo, r = .ok echo → (echo = true ↔
        (w0.db.outbound ⟨ev.tenantID, a.canonicalEntityType, c.entityID, ev.source⟩).map OutboundWrite.fingerprint
          = some (cust.fingerprint env.hash))) := by
  have hinert : OnlyInert (isEcho env ev.tenantID a.canonicalEntityType c.entityID ev.source cust) := by
    refine only_lookup rfl (fun r => ?_)
    split <;> exact trivial
  intro w hw
  refine ⟨triple_inert hinert found_congr w hw, fun echo h => ?_⟩
  rw [← hw.outbound]
  exact isEcho_answer h

/-! ### Writing to the destinations -/

/-- The destinations of the policies `ps` are written: `c1` has become `c`. -/
structure Writing (env : Env) (w0 : World) (tenant : String) (cust : Customer) (T : CanonicalTable)
    (c1 : CanonicalRecord) (ps : List SyncPolicy) (c : CanonicalRecord) (w : World) : Prop where
  table : w.db.canonical = T
  outbound : w.db.outbound = w0.db.outbound
  connections : w.db.connections = w0.db.connections
  written : Written env w0.db tenant cust c1 w0.sims ps c w.sims

variable {cust : Customer} {c1 : CanonicalRecord} {ps : List SyncPolicy}

theorem writing_congr (w w' : World) (hw : Still w w') (h : Writing env w0 tenant cust T c1 ps c w) :
    Writing env w0 tenant cust T c1 ps c w' :=
  ⟨hw.canonical.trans h.table, hw.outbound.trans h.outbound, hw.connections.trans h.connections,
    by rw [hw.sims]; exact h.written⟩

def Unstored (w0 : World) (T : CanonicalTable) (w : World) : Prop :=
  w.db.canonical = T ∧ w.db.outbound = w0.db.outbound

theorem writeDestination_fate (p : SyncPolicy) :
    Triple (World.handle env) (Writing env w0 tenant cust T c1 ps c)
      (writeDestination env tenant p.destination cust c) (fun r w => match r with
        | .ok c' => Writing env w0 tenant cust T c1 (ps ++ [p]) c' w
        | .error _ => Unstored w0 T w) := by
  refine triple_bind (triple_connect writing_congr (fun _ h => h.connections)) (fun dst => ?_)
    (fun _ _ h => ⟨h.1.table, h.1.outbound⟩)
  refine triple_fact (fun w hw => hw.2 dst rfl) (fun hdst => ?_)
  refine triple_pre (P := Writing env w0 tenant cust T c1 ps c) ?_ (fun w hw => hw.1)
  show Triple _ _ (ite _ _ _) _
  by_cases hempty : c.providerID p.destination = ""
  · -- created; whether the request fails or not, nothing is stored yet
    rw [if_pos hempty]
    refine triple_bind (R := fun r w => match r with
        | .ok created => Writing env w0 tenant cust T c1 (ps ++ [p]) (c.setProviderID p.destination created.id) w
        | .error _ => Unstored w0 T w) (triple_perform (fun w hw => ?_)) (fun created => triple_return (fun _ h => h))
      (fun _ _ h => h)
    rw [World.handle_create_eq]
    rcases World.requested_cases env w dst.endpoint .create .created SimServer.providerRecord
      (some ((w.sims dst.endpoint).insert (dst.adapter.denormalize cust).data)) with ⟨e, h⟩ | ⟨x, hx, h⟩
    · rw [h]
      exact ⟨hw.table, hw.outbound⟩
    · rw [h, ← Option.some.inj hx]
      exact ⟨hw.table, hw.outbound, hw.connections, .snoc hw.written hdst (.created hempty)⟩
  · rw [if_neg hempty]
    refine triple_bind (R := fun r w => match r with
        | .ok _ => Writing env w0 tenant cust T c1 (ps ++ [p]) c w
        | .error _ => Unstored w0 T w) (triple_perform (fun w hw => ?_)) (fun _ => triple_return (fun _ h => h))
      (fun _ _ h => h)
    rw [World.handle_update_eq]
    rcases World.requested_cases env w dst.endpoint .update .updated SimServer.providerRecord
      ((w.sims dst.endpoint).update (c.providerID p.destination) (dst.adapter.denormalize cust).data)
      with ⟨e, h⟩ | ⟨x, hx, h⟩
    · rw [h]
      exact ⟨hw.table, hw.outbound⟩
    · rw [h]
      exact ⟨hw.table, hw.outbound, hw.connections, .snoc hw.written hdst (.updated hempty hx)⟩

theorem propagate_fate {rest : List SyncPolicy} {outbound : List OutboundWrite} {ops : List SyncOperation}
    (hkey : c1.key = ⟨ev.tenantID, entityType, c1.entityID⟩)
    (hout : ∀ o ∈ outbound, recordKey o.key = c1.key) : Triple (World.handle env)
    (Writing env w0 ev.tenantID cust T c1 ps c)
      (propagate env ev entityType cust rest c outbound ops) (fun r w => match r with
        | .ok out => Writing env w0 ev.tenantID cust T c1 (ps ++ rest) out.1 w ∧ ∀ o ∈ out.2.1, recordKey o.key = c1.key
        | .error _ => Unstored w0 T w) := by
  induction rest generalizing c ps outbound ops with
  | nil =>
    refine triple_return (fun w hw => ⟨?_, hout⟩)
    rwa [List.append_nil]
  | cons p rest ih =>
    refine triple_bind (writeDestination_fate p) (fun c' => ?_) (fun _ _ h => h)
    refine triple_fact (fun w (hw : Writing env w0 ev.tenantID cust T c1 (ps ++ [p]) c' w) => hw.written.key)
      (fun hc' => ?_)
    rw [List.append_cons ps p rest]
    refine ih (fun o ho => ?_)
    rcases List.mem_append.mp ho with ho | ho
    · exact hout o ho
    · have hentity : c'.entityID = c1.entityID := congrArg CanonicalKey.entityID hc'
      rw [List.mem_singleton.mp ho, hkey, ← hentity]
      rfl

structure Applicable (env : Env) (w0 : World) (a : Adapter) (ev : Event) (c : CanonicalRecord)
    (T : CanonicalTable) : Prop where
  adapter : env.registry ev.source = some a
  upsert : ev.eventType ≠ .deleted
  resolution : Resolution w0 a ev c T
  newer : c.sourceVersions ev.source < ev.sourceVersion
  foreign : ¬ Echoes env w0 a ev c

theorem Applicable.interrupted (h : Applicable env w0 a ev c T) (hw : Unstored w0 T w) :
    Fate env w0 ev .failed w :=
  .interrupted h.adapter h.upsert h.resolution h.newer hw.1 hw.2

theorem applyMerged_fate (happ : Applicable env w0 a ev c T) (hauto : (mergedInto w0 a ev c).manual = false) :
    Triple (World.handle env) (Writing env w0 ev.tenantID (mergedCustomer w0 a ev c) T
        { c with fieldProvenance := (mergedInto w0 a ev c).provenance } []
        { c with fieldProvenance := (mergedInto w0 a ev c).provenance })
      (applyMerged env ev a.canonicalEntityType (policiesFor w0 a ev) (mergedCustomer w0 a ev c)
        { c with fieldProvenance := (mergedInto w0 a ev c).provenance })
      (Ends env w0 ev (fun _ => .applied)) := by
  refine triple_bind (propagate_fate happ.resolution.key (fun o ho => by cases ho)) (fun out => ?_)
    (fun _ _ h => happ.interrupted h)
  obtain ⟨c', outbound, ops⟩ := out
  refine triple_stmt ?_ ?_
  · -- the destinations have the new values, and no table does
    rintro w text ⟨hwriting, _⟩
    exact happ.interrupted ⟨hwriting.table, hwriting.outbound⟩
  · rintro w pick ⟨hwriting, hout⟩
    refine ⟨.applied, .applied happ.adapter happ.upsert happ.resolution happ.newer hauto
      hwriting.written ?_ ?_ happ.foreign, rfl⟩
    · rw [← hwriting.table]
      rfl
    · intro k hk
      rw [← hwriting.outbound]
      refine Database.foldl_writeOutbound_ne (fun o ho heq => hk ?_) _
      rw [← heq]
      exact hout o ho

theorem mergeAndApply_fate (happ : Applicable env w0 a ev c T) :
    Triple (World.handle env) (fun w => Found w0 a ev c w ∧ w.db.canonical = T)
      (mergeAndApply env ev a.canonicalEntityType (policiesFor w0 a ev) (customerOf a ev) c)
      (Ends env w0 ev (fun _ => .applied)) := by
  have hconflict : ∀ status, Triple (World.handle env) (fun w => Found w0 a ev c w ∧ w.db.canonical = T)
      (recordConflict ev a.canonicalEntityType c (customerOf a ev).fields
        (mergedInto w0 a ev c).detected status (strategyOf (policiesFor w0 a ev)))
      (fun _ w => Found w0 a ev c w ∧ w.db.canonical = T) := by
    intro status
    refine triple_inert recordConflict_inert (fun w w' hw h => ?_)
    exact ⟨found_congr w w' hw h.1, hw.canonical.trans h.2⟩
  have hdropped : ∀ w v, Found w0 a ev c w →
      v = .failed ∨ v = .parked ∧ (mergedInto w0 a ev c).manual = true → Fate env w0 ev v w := by
    intro w v h hv
    refine .dropped happ.adapter happ.upsert h.resolution rfl h.outbound h.sims ?_
    rcases hv with hv | ⟨hv, hmanual⟩
    · exact .inl hv
    · exact .inr (.inr (.inr ⟨hv, happ.newer, hmanual⟩))
  show Triple _ _ (if (mergedInto w0 a ev c).manual = true then _ else _) _
  by_cases hmanual : (mergedInto w0 a ev c).manual = true
  · -- parked: `Process` goes on as if the event had been applied
    rw [if_pos hmanual]
    refine triple_mono (hconflict .pending) (fun _ h => h) (fun r w h => ?_)
    cases r with
    | ok _ => exact ⟨.parked, hdropped w _ h.1 (.inr ⟨rfl, hmanual⟩), rfl⟩
    | error e => exact hdropped w _ h.1 (.inl rfl)
  · rw [if_neg hmanual]
    refine triple_bind (hconflict .autoResolved) (fun _ => ?_) (fun _ w h => hdropped w _ h.1 (.inl rfl))
    refine triple_pre (applyMerged_fate happ (by simpa using hmanual)) (fun w hw => ?_)
    exact ⟨hw.2, hw.1.outbound, hw.1.connections, by rw [hw.1.sims]; exact .nil⟩

theorem applySourceEvent_fate (ha : env.registry ev.source = some a) (htype : ev.eventType ≠ .deleted)
    (hdata : ev.fields = some data) : Triple (World.handle env) (Still w0)
      (applySourceEvent env ev a.canonicalEntityType (policiesFor w0 a ev) data)
      (Ends env w0 ev (fun _ => .applied)) := by
  refine triple_bind triple_connect_still (fun src => ?_) (fun _ _ h => h.1.failed)
  refine triple_fact (fun w hw => (hw.2 src rfl).adapter) (fun hsrc => ?_)
  obtain rfl : src.adapter = a := Option.some.inj (hsrc.symm.trans ha)
  refine triple_bind (R := fun r w => Still w0 w ∧ r = src.adapter.validate
    { id := ev.entityID, sourceVersion := ev.sourceVersion, data := data })
    (triple_ofExcept (fun w hw => ⟨hw.1, rfl⟩)) (fun _ => ?_) (fun _ _ h => h.1.failed)
  refine triple_fact (fun w hw => hw.2.symm) (fun hvalid => ?_)
  -- a valid record has an e-mail address
  have hemail : (eventCustomer src.adapter ev data).email ≠ "" := by
    have hpresent := Adapter.validate_eq_ok.mp hvalid .email (by decide)
    exact Adapter.present_iff.mp hpresent
  have hcust : customerOf src.adapter ev = eventCustomer src.adapter ev data := by rw [customerOf, hdata]; rfl
  refine triple_bind (triple_pre (resolveCanonical_fate hdata hemail) (fun w hw => hw.1))
    (fun c => ?_) (fun _ _ h => h.failed)
  show Triple _ (Found w0 src.adapter ev c) (ite _ _ _) _
  by_cases hstale : ev.sourceVersion ≤ c.sourceVersions ev.source
  · rw [if_pos hstale]
    refine triple_return (fun w h => ⟨.stale, ?_, rfl⟩)
    exact .dropped ha htype h.resolution rfl h.outbound h.sims (.inr (.inl ⟨rfl, hstale⟩))
  · rw [if_neg hstale]
    have hnewer := not_le.mp hstale
    refine triple_bind isEcho_fate (fun echo => ?_) (fun _ _ h => ?_)
    · cases echo with
      | true =>
        refine triple_return (fun w h => ⟨.echo, ?_, rfl⟩)
        refine .dropped ha htype h.1.resolution rfl h.1.outbound h.1.sims (.inr (.inr (.inl ⟨rfl, hnewer, ?_⟩)))
        rw [Echoes, hcust]
        exact (h.2 true rfl).mp rfl
      | false =>
        intro w hw
        have hforeign : ¬ Echoes env w0 src.adapter ev c := by
          rw [Echoes, hcust]
          exact fun h => Bool.false_ne_true ((hw.2 false rfl).mpr h)
        have happ : Applicable env w0 src.adapter ev c w.db.canonical := ⟨ha, htype, hw.1.resolution, hnewer, hforeign⟩
        have htriple := mergeAndApply_fate happ
        rw [hcust] at htriple
        exact htriple w ⟨hw.1, rfl⟩
    · exact .dropped ha htype h.1.resolution rfl h.1.outbound h.1.sims (.inl rfl)

end Upsert

/-! ## Deletes -/

section Delete

variable {w0 : World} {a : Adapter}

theorem propagateDelete_frame {policies : List SyncPolicy} :
    Only (fun o : Call => o.writesCanonical = false ∧ o.writesOutbound = false)
      (propagateDelete env ev entityType canonical policies) := by
  induction policies with
  | nil => exact trivial
  | cons p ps ih =>
    unfold propagateDelete
    split
    · refine only_bind (only_bind (only_stmt ⟨rfl, rfl⟩) (fun _ => only_ofExcept _)) (fun dst => ?_)
      refine only_bind (only_perform ⟨rfl, rfl⟩) (fun _ => ?_)
      exact only_bind (only_tryStmt ⟨rfl, rfl⟩) (fun _ => ih)
    · exact ih

theorem applyDelete_fate (ha : env.registry ev.source = some a) (htype : ev.eventType = .deleted)
    (policies : List SyncPolicy) :
    Triple (World.handle env) (Still w0) (applyDelete env ev a.canonicalEntityType policies)
      (Ends env w0 ev (fun _ => .applied)) := by
  refine triple_attempt triple_getByProvider (fun r => ?_)
  cases r with
  | error e =>
    cases e with
    | notFound =>
      exact triple_return (fun _ h => ⟨.unknown, .ignored ha htype (.inl ⟨rfl, h.2.2 rfl⟩) h.1, rfl⟩)
    | plain text => exact triple_throw (fun _ h => h.1.failed)
    | connector e => exact triple_throw (fun _ h => h.1.failed)
  | ok c =>
    refine triple_fact (fun w hw => hw.2.1 c rfl) (fun hc => ?_)
    show Triple _ _ (ite _ _ _) _
    split
    · rename_i hgone
      exact triple_return (fun _ h => ⟨.gone, .ignored ha htype (.inr ⟨rfl, c, hc, hgone⟩) h.1, rfl⟩)
    · rename_i hlive
      have hlive : c.tombstone = false := by simpa using hlive
      refine triple_mono (P := fun w => w.db.canonical = w0.db.canonical ∧ w.db.outbound = w0.db.outbound)
        (Q := Ends env w0 ev (fun _ => .applied)) ?_ (fun w hw => ⟨hw.1.canonical, hw.1.outbound⟩) (fun _ _ h => h)
      refine triple_bind (triple_of_only propagateDelete_frame (fun w o ho hw => ?_)) (fun _ => ?_) ?_
      · exact ⟨(World.handle_canonical ho.1).trans hw.1, (World.handle_outbound ho.2).trans hw.2⟩
      · refine triple_stmt (fun w text hw => .undeleted ha htype hc hlive hw.1 hw.2) (fun w pick hw => ?_)
        exact ⟨.deleted, .deleted ha htype hc hlive (by rw [← hw.1]; rfl) hw.2, rfl⟩
      · exact fun e w hw => .undeleted ha htype hc hlive hw.1 hw.2

end Delete

/-! ## One event -/

section Event

variable {w0 : World}

def Dispatched.outcome : Dispatched → Outcome
  | .reconciled => .reconciled
  | .noPolicy => .noPolicy
  | .applied => .applied

theorem dispatch_fate (hfinding : ev.provenance.reconcileFindingID = "")
    (hplain : ev.provenance.resolvedConflictID = "") :
    Triple (World.handle env) (Still w0) (dispatch env ev) (Ends env w0 ev Dispatched.outcome) := by
  refine triple_bind triple_listPolicies (fun policies => ?_) (fun _ _ h => h.1.failed)
  refine triple_fact (fun w hw => hw.2 policies rfl) (fun hpolicies => ?_)
  subst hpolicies
  refine triple_pre (P := Still w0) ?_ (fun w hw => hw.1)
  have htype : Triple (World.handle env) (Still w0) (canonicalEntityType env ev)
      (fun r w => Still w0 w ∧ ∀ entityType, r = .ok entityType →
        ∃ a, env.registry ev.source = some a ∧ entityType = a.canonicalEntityType) := by
    refine triple_bind triple_connect_still (fun src => triple_return ?_) ?_
    · rintro w ⟨hw, hsrc⟩
      refine ⟨hw, fun entityType h => ⟨src.adapter, (hsrc src rfl).adapter, ?_⟩⟩
      exact (Except.ok.inj h).symm
    · rintro e w ⟨hw, _⟩
      exact ⟨hw, fun _ h => by cases h⟩
  refine triple_bind htype (fun entityType => ?_) (fun _ _ h => h.1.failed)
  refine triple_fact (fun w hw => hw.2 entityType rfl) (fun ⟨a, ha, hentity⟩ => ?_)
  subst hentity
  refine triple_pre (P := Still w0) ?_ (fun w hw => hw.1)
  rw [if_neg (not_not.mpr hfinding)]
  split_ifs with htargets hdeleted
  · exact triple_return (fun _ h => ⟨.noPolicy, .idle (.inr (.inr rfl)) h, rfl⟩)
  · exact triple_bind (applyDelete_fate ha hdeleted _) (fun _ => triple_return (fun _ h => h))
      (fun _ _ h => h)
  · refine triple_bind (R := Ends env w0 ev (fun _ => .applied)) ?_ (fun _ => triple_return (fun _ h => h))
      (fun _ _ h => h)
    unfold applyUpsert
    cases hfields : ev.fields with
    | none => exact triple_throw (fun _ h => h.failed)
    | some data =>
      show Triple _ _ (ite _ _ _) _
      split_ifs with hempty hresolved
      · exact triple_throw (fun _ h => h.failed)
      · exact absurd hplain hresolved
      · exact applySourceEvent_fate ha hdeleted hfields

theorem triple_ends {α : Type} {out : α → Outcome} {r : Except GoError α} {p : Sync Unit} (hp : OnlyInert p)
    (hok : ∀ w, (run (World.handle env) p w).1 = .ok ()) :
    Triple (World.handle env) (Ends env w0 ev out r) p (fun r' w => r' = .ok () ∧
      Ends env w0 ev out r w) := by
  refine fun w hw => ⟨hok w, triple_inert hp (fun w w' hstill h => ?_) w hw⟩
  cases r with
  | ok x =>
    obtain ⟨v, hfate, hanswer⟩ := h
    exact ⟨v, fate_congr hstill hfate, hanswer⟩
  | error e => exact fate_congr hstill h

theorem run_tryStmt_ok (o : StoreOp) (w : World) : (run (World.handle env) (tryStmt o) w).1 = .ok () := by
  rw [tryStmt, run_bind_ok _ (run_attempt _ _ _)]
  rfl

theorem run_release_ok (status : SourceEventStatus) (w : World) :
    (run (World.handle env) (release ev status) w).1 = .ok () := by
  rw [release, run_bind_ok _ (Prod.ext (run_tryStmt_ok _ _) rfl)]
  exact run_tryStmt_ok _ _

theorem process_fate (hfinding : ev.provenance.reconcileFindingID = "")
    (hplain : ev.provenance.resolvedConflictID = "") :
    Triple (World.handle env) (Still w0) (process env ev) (Ends env w0 ev id) := by
  refine triple_bind (R := fun _ => Still w0) (triple_still (only_stmt rfl)) (fun claimed => ?_)
    (fun _ _ h => h.failed)
  cases claimed with
  | false => exact triple_return (fun _ h => ⟨.duplicate, .idle (.inr (.inl rfl)) h, rfl⟩)
  | true =>
    refine triple_attempt (dispatch_fate hfinding hplain) (fun r => ?_)
    cases r with
    | error e =>
      exact triple_bind (triple_ends release_inert (run_release_ok _))
        (fun _ => triple_throw (fun _ h => h.2)) (fun _ _ h => by cases h.1)
    | ok x =>
      cases x with
      | noPolicy =>
        exact triple_bind (triple_ends release_inert (run_release_ok _))
          (fun _ => triple_return (fun _ h => h.2)) (fun _ _ h => by cases h.1)
      | reconciled =>
        exact triple_bind (triple_ends (only_tryStmt rfl) (run_tryStmt_ok _))
          (fun _ => triple_return (fun _ h => h.2)) (fun _ _ h => by cases h.1)
      | applied =>
        exact triple_bind (triple_ends (only_tryStmt rfl) (run_tryStmt_ok _))
          (fun _ => triple_return (fun _ h => h.2)) (fun _ _ h => by cases h.1)

/-- **How an upsert ends that `Process` finishes**: dropped because it is stale, an echo or parked, or
    applied. -/
theorem upsert_finished {a : Adapter} (hwebhook : ev.provenance = {}) (hupsert : ev.eventType ≠ .deleted)
    (ha : env.registry ev.source = some a) {w' : World}
    (hrun : run (World.handle env) (process env ev) w0 = (.ok .applied, w')) : ∃ c T, Resolution w0 a ev c T ∧
      (w'.db.canonical = T ∧ (ev.sourceVersion ≤ c.sourceVersions ev.source ∨
          (w0.db.outbound ⟨ev.tenantID, a.canonicalEntityType, c.entityID, ev.source⟩).map OutboundWrite.fingerprint
            = some ((customerOf a ev).fingerprint env.hash) ∨ (mergedInto w0 a ev c).manual = true) ∨
        c.sourceVersions ev.source < ev.sourceVersion ∧ ∃ c', Written env w0.db ev.tenantID (mergedCustomer w0 a ev c)
            { c with fieldProvenance := (mergedInto w0 a ev c).provenance } w0.sims (policiesFor w0 a ev) c' w'.sims ∧
          w'.db.canonical = T.upsert (appliedRecord ev (mergedCustomer w0 a ev c) c')) := by
  have hends := @process_fate env ev w0 (by rw [hwebhook]) (by rw [hwebhook]) w0 (Still.refl w0)
  rw [hrun] at hends
  obtain ⟨v, hfate, hanswer⟩ := hends
  obtain ⟨hfailed, hduplicate, hnoPolicy⟩ := Verdict.answers_applied hanswer
  have hsame : ∀ {a' : Adapter}, env.registry ev.source = some a' → a' = a := fun ha' =>
    Option.some.inj (ha'.symm.trans ha)
  cases hfate with
  | idle hv _ => exact absurd hv (by simp [hfailed, hduplicate, hnoPolicy])
  | ignored _ htype _ _ => exact absurd htype hupsert
  | undeleted _ htype _ _ _ _ => exact absurd htype hupsert
  | deleted _ htype _ _ _ _ => exact absurd htype hupsert
  | interrupted _ _ _ _ _ _ => exact absurd rfl hfailed
  | dropped ha' _ hres hT _ _ hv =>
    obtain rfl := hsame ha'
    refine ⟨_, _, hres, .inl ⟨hT, ?_⟩⟩
    rcases hv with rfl | ⟨_, hstale⟩ | ⟨_, _, hecho⟩ | ⟨_, _, hmanual⟩
    · exact absurd rfl hfailed
    · exact .inl hstale
    · exact .inr (.inl hecho)
    · exact .inr (.inr hmanual)
  | applied ha' _ hres hnewer _ hwritten hT _ _ =>
    obtain rfl := hsame ha'
    exact ⟨_, _, hres, .inr ⟨hnewer, _, hwritten, hT⟩⟩

theorem deliver_fate (hwebhook : ev.provenance = {}) : ∃ v, Fate env w0 ev v (deliver env ev w0) := by
  have htriple : Triple (World.handle env) (Still w0) (handle env (.event ev)) (fun _ w => ∃ v,
    Fate env w0 ev v w) := by
    refine triple_bind (R := fun r w => Still w0 w ∧ r = .ok ev) (triple_ofExcept (fun w hw => ⟨hw, rfl⟩))
      (fun ev' => ?_) (fun _ _ h => ⟨_, h.1.failed⟩)
    refine triple_fact (fun w hw => Except.ok.inj hw.2) (fun hev => ?_)
    subst hev
    refine triple_attempt (triple_pre (process_fate (by rw [hwebhook]) (by rw [hwebhook])) (fun w hw => hw.1))
      (fun r => ?_)
    cases r with
    | ok outcome => exact triple_return (fun _ ⟨v, hfate, _⟩ => ⟨v, hfate⟩)
    | error e =>
      refine triple_mono (triple_inert (inert_of_bookkeeping dispatchFailure_only) ?_) (fun _ h => h)
        (fun _ _ h => ⟨.failed, h⟩)
      exact fun w w' hstill h => fate_congr hstill h
  exact htriple w0 (Still.refl w0)

end Event

end SyncForge.Ordering
