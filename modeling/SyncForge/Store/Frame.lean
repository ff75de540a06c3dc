import SyncForge.World
import Mathlib.Algebra.Order.BigOperators.Group.List

/-!
# `Store.Frame` — which tables a call leaves alone

Every statement writes one table, `PersistApplyState` three. For each table that a property is about, a
predicate names the calls that can write it, and one lemma says that every other call leaves it as it was;
`tenants`, `sync_policies` and `connections` are never written. Proofs about runs use these instead of opening
`exec`.
-/

namespace SyncForge

open Function (update_of_ne)

/-! ## Statements -/

namespace StoreOp

def writesCanonical : StoreOp → Bool
  | .addProviderID _ _ _ | .upsertCanonical _ | .persistApplyState _ _ _ => true
  | _ => false

def writesOutbound : StoreOp → Bool
  | .upsertOutboundWrite _ | .persistApplyState _ _ _ => true
  | _ => false

def writesClaim (key : EventKey) : StoreOp → Bool
  | .claimProcessedEvent k | .releaseProcessedEvent k => k = key
  | _ => false

def writesRetry (key : RowKey) : StoreOp → Bool
  | .enqueueRetry e _ => e.key = key
  | .deleteRetry k => k = key
  | _ => false

def writesDeadLetter (key : RowKey) : StoreOp → Bool
  | .insertDeadLetter d => d.key = key
  | .resolveDeadLetterForEvent k => k = key
  | .setDeadLetterStatus k _ => k = key
  | _ => false

end StoreOp

namespace Database

open Relational

variable {db : Database} {now : Time} {pick : Nat} {o : StoreOp}
  {α : Type} {tenantID eventID : String} {new : SourceEventStatus} {k : EventKey}

@[simp] theorem exec_policies : (exec now pick o db).2.policies = db.policies := by
  cases o <;> rfl

@[simp] theorem exec_tenants : (exec now pick o db).2.tenants = db.tenants := by
  cases o <;> rfl

@[simp] theorem exec_connections : (exec now pick o db).2.connections = db.connections := by
  cases o <;> rfl

theorem exec_canonical (h : o.writesCanonical = false) : (exec now pick o db).2.canonical = db.canonical := by
  cases o <;> first | rfl | cases h

theorem exec_outbound (h : o.writesOutbound = false) : (exec now pick o db).2.outbound = db.outbound := by
  cases o <;> first | rfl | cases h

theorem exec_processed {key : EventKey} (h : o.writesClaim key = false) :
    (exec now pick o db).2.processed key = db.processed key := by
  cases o with
  | claimProcessedEvent k =>
    have hk : k ≠ key := by simpa [StoreOp.writesClaim] using h
    exact update_of_ne (Ne.symm hk) _ _
  | releaseProcessedEvent k =>
    have hk : k ≠ key := by simpa [StoreOp.writesClaim] using h
    exact update_of_ne (Ne.symm hk) _ _
  | _ => rfl

theorem retryRow_key (e : RetryEntry) (delay : Duration) : (db.retryRow now e delay).key = e.key := by
  unfold retryRow
  split <;> rfl

theorem retryRow_state (e : RetryEntry) (delay : Duration) : (db.retryRow now e delay).state = e.state := by
  unfold retryRow
  split <;> rfl

theorem exec_retryQueue {key : RowKey} (h : o.writesRetry key = false) :
    (exec now pick o db).2.retryQueue.get? key = db.retryQueue.get? key := by
  cases o with
  | enqueueRetry e delay =>
    have hk : e.key ≠ key := by simpa [StoreOp.writesRetry] using h
    exact Table.get?_upsert_ne (by rw [retryRow_key]; exact Ne.symm hk)
  | deleteRetry k =>
    have hk : k ≠ key := by simpa [StoreOp.writesRetry] using h
    exact Table.get?_delete_ne (Ne.symm hk)
  | _ => rfl

theorem exec_deadLetters {key : RowKey} (h : o.writesDeadLetter key = false) :
    (exec now pick o db).2.deadLetters key = db.deadLetters key := by
  cases o with
  | insertDeadLetter d =>
    have hk : d.key ≠ key := by simpa [StoreOp.writesDeadLetter] using h
    exact update_of_ne (Ne.symm hk) _ _
  | resolveDeadLetterForEvent k =>
    have hk : k ≠ key := by simpa [StoreOp.writesDeadLetter] using h
    exact update_of_ne (Ne.symm hk) _ _
  | setDeadLetterStatus k status =>
    have hk : k ≠ key := by simpa [StoreOp.writesDeadLetter] using h
    exact update_of_ne (Ne.symm hk) _ _
  | _ => rfl

/-! ### Rows a query returns, ids a statement makes up -/

theorem find?_map {u : ReconciliationFinding → ReconciliationFinding} {f : ReconciliationFinding}
    {db : Database} {tenantID id : String}
    (h : db.findings.find? (fun g => g.tenantID = tenantID ∧ g.id = id) = some f)
    (hu : ∀ g, (u g).tenantID = g.tenantID ∧ (u g).id = g.id) :
    (db.findings.map u).find? (fun g => g.tenantID = tenantID ∧ g.id = id) = some (u f) := by
  rw [List.find?_map]
  simp only [Function.comp_def, (hu _).1, (hu _).2, h, Option.map_some]

theorem rowOrNotFound_ok {row : Option α} {a : α} (h : rowOrNotFound row = .ok a) : row = some a := by
  cases row with
  | some b =>
    cases h
    rfl
  | none => cases h

theorem anyRow_mem {l : List α} {r : α} (h : anyRow pick l = some r) : r ∈ l :=
  List.mem_of_getElem? h

theorem anyRow_none {l : List α} (h : anyRow pick l = none) : l = [] := by
  by_contra hne
  have hpos : 0 < l.length := List.length_pos_iff.mpr hne
  have hle := List.getElem?_eq_none_iff.mp h
  have hlt := Nat.mod_lt pick hpos
  omega

theorem newID_not_mem (ids : List String) : newID ids ∉ ids := by
  intro h
  have hle : (newID ids).length ≤ (ids.map String.length).sum :=
    List.le_sum_of_mem (List.mem_map_of_mem h)
  have hlen : (newID ids).length = (ids.map String.length).sum + 1 := by
    simp only [newID, String.length_ofList, List.length_replicate]
  omega

theorem foldl_writeOutbound_ne {writes : List OutboundWrite} {key : OutboundKey}
    (h : ∀ o ∈ writes, o.key ≠ key) (outbound : OutboundKey → Option OutboundWrite) :
    writes.foldl writeOutbound outbound key = outbound key := by
  induction writes generalizing outbound with
  | nil => rfl
  | cons o writes ih =>
    rw [List.foldl_cons, ih (fun o' ho' => h o' (.tail _ ho'))]
    exact update_of_ne (Ne.symm (h o (.head _))) _ _

variable {guard : SourceEventStatus → Bool}

theorem setStatus_self (h : k.tenantID = tenantID ∧ k.eventID = eventID) :
    (db.setStatus tenantID eventID guard new).sourceEvents k
      = (db.sourceEvents k).map (fun s => if guard s then new else s) := if_pos h

theorem setStatus_other (h : ¬ (k.tenantID = tenantID ∧ k.eventID = eventID)) :
    (db.setStatus tenantID eventID guard new).sourceEvents k = db.sourceEvents k := if_neg h

end Database

/-! ## Calls -/

namespace Call

def isProvider : Call → Bool
  | .create _ _ | .update _ _ _ | .delete _ _ => true
  | _ => false

def endpoint? : Call → Option Endpoint
  | .create ep _ | .update ep _ _ | .delete ep _ => some ep
  | _ => none

/-- A call that can write `canonical_records`. -/
def writesCanonical : Call → Bool
  | .store o => o.writesCanonical
  | _ => false

def writesOutbound : Call → Bool
  | .store o => o.writesOutbound
  | _ => false

def writesClaim (key : EventKey) : Call → Bool
  | .store o => o.writesClaim key
  | _ => false

def writesRetry (key : RowKey) : Call → Bool
  | .store o => o.writesRetry key
  | _ => false

def writesDeadLetter (key : RowKey) : Call → Bool
  | .store o => o.writesDeadLetter key
  | _ => false

end Call

namespace World

variable {env : Env} {w : World} {o : Call}

/-! ### What one call can do -/

def executed (w : World) (pick : Nat) (s : StoreOp) : World :=
  { w.called with db := (Database.exec w.now pick s w.db).2 }

def requested {ρ : Type} (env : Env) (w : World) (ep : Endpoint) (m : Mutation) (type : EventType)
    (answer : SimRecord → ρ) (r : Option (SimRecord × SimServer)) : Except GoError ρ × World :=
  match w.providerTape w.calls with
  | some e => (.error (.connector e), w.called)
  | none => ((w.request env ep m type r).1.map answer, (w.request env ep m type r).2)

theorem handle_create_eq (ep : Endpoint) (data : Data) : handle env (.create ep data) w
    = requested env w ep .create .created SimServer.providerRecord (some ((w.sims ep).insert data)) := rfl

theorem handle_update_eq (ep : Endpoint) (id : String) (data : Data) : handle env (.update ep id data) w
    = requested env w ep .update .updated SimServer.providerRecord ((w.sims ep).update id data) := rfl

theorem handle_delete_eq (ep : Endpoint) (id : String) : handle env (.delete ep id) w
    = requested env w ep .delete .deleted (fun _ => ()) ((w.sims ep).softDelete id) := rfl

/-- **A statement** fails and changes nothing, or it is executed. -/
theorem handle_store (env : Env) (w : World) (s : StoreOp) :
    (∃ text, w.storeTape w.calls = .error text ∧ handle env (.store s) w = (.error (.plain text), w.called)) ∨
      ∃ pick, w.storeTape w.calls = .ok pick ∧
        handle env (.store s) w = ((Database.exec w.now pick s w.db).1, w.executed pick s) := by
  cases h : w.storeTape w.calls with
  | error text => exact .inl ⟨text, rfl, by simp only [handle, h]⟩
  | ok pick => exact .inr ⟨pick, rfl, by simp only [handle, h, executed]⟩

/-- **A provider request** fails and changes nothing, or the provider makes and announces the write. -/
theorem requested_cases {ρ : Type} (env : Env) (w : World) (ep : Endpoint) (m : Mutation) (type : EventType)
    (answer : SimRecord → ρ) (r : Option (SimRecord × SimServer)) :
    (∃ e, requested env w ep m type answer r = (.error e, w.called)) ∨
      ∃ x, r = some x ∧ requested env w ep m type answer r
        = (.ok (answer x.1), (w.called.announce env ep type x).mutated ep m) := by
  unfold requested
  cases w.providerTape w.calls with
  | some e => exact .inl ⟨.connector e, rfl⟩
  | none =>
    cases r with
    | none => exact .inl ⟨noSuchRecord, rfl⟩
    | some x => exact .inr ⟨x, rfl, rfl⟩

/-- **A message** fails and changes nothing, or it is on the topic. -/
theorem handle_publish (env : Env) (w : World) (key : String) (value : Bytes) :
    (∃ text, handle env (.publish key value) w = (.error (.plain text), w.called)) ∨
      handle env (.publish key value) w = (.ok (), w.published key value) := by
  cases h : w.busTape w.calls with
  | some text => exact .inl ⟨text, by simp only [handle, h]⟩
  | none => exact .inr (by simp only [handle, h])

theorem handle_list (env : Env) (w : World) (ep : Endpoint) (cursor : String) (limit : Int) :
    handle env (.list ep cursor limit) w
      = ((w.providerTape w.calls).elim (page (w.sims ep) cursor limit) (fun e => .error (.connector e)), w.called) := by
  cases h : w.providerTape w.calls <;> simp only [handle, h, Option.elim]

theorem handle_health (env : Env) (w : World) (ep : Endpoint) : (handle env (.health ep) w).2 = w.called := by
  cases h : w.providerTape w.calls <;> simp only [handle, h]

/-- **What a call leaves behind**: nothing but the count of calls, what its statement made of the database,
    the write of the provider it went to, or a message on the topic. -/
theorem handle_cases (env : Env) (w : World) (o : Call) : (handle env o w).2 = w.called ∨
      (∃ s pick, o = .store s ∧ w.storeTape w.calls = .ok pick ∧ (handle env o w).2 = w.executed pick s) ∨
      (∃ ep m type x, o.endpoint? = some ep ∧ (handle env o w).2 = (w.called.announce env ep type x).mutated ep m) ∨
      ∃ key value, o = .publish key value ∧ (handle env o w).2 = w.published key value := by
  have hrequest : ∀ {ρ : Type} (ep : Endpoint) (m : Mutation) (type : EventType) (answer : SimRecord → ρ)
      (r : Option (SimRecord × SimServer)), (requested env w ep m type answer r).2 = w.called ∨
        ∃ x, (requested env w ep m type answer r).2 = (w.called.announce env ep type x).mutated ep m := by
    intro ρ ep m type answer r
    rcases requested_cases env w ep m type answer r with ⟨e, h⟩ | ⟨x, _, h⟩
    · exact .inl (by rw [h])
    · exact .inr ⟨x, by rw [h]⟩
  cases o with
  | store s =>
    rcases handle_store env w s with ⟨text, _, h⟩ | ⟨pick, hpick, h⟩
    · exact .inl (by rw [h])
    · exact .inr (.inl ⟨s, pick, rfl, hpick, by rw [h]⟩)
  | create ep data =>
    exact (hrequest ep _ _ _ _).imp_right (fun ⟨x, h⟩ => .inr (.inl ⟨ep, _, _, x, rfl, h⟩))
  | update ep id data =>
    exact (hrequest ep _ _ _ _).imp_right (fun ⟨x, h⟩ => .inr (.inl ⟨ep, _, _, x, rfl, h⟩))
  | delete ep id =>
    exact (hrequest ep _ _ _ _).imp_right (fun ⟨x, h⟩ => .inr (.inl ⟨ep, _, _, x, rfl, h⟩))
  | random => exact .inl rfl
  | list ep cursor limit => exact .inl (by rw [handle_list])
  | health ep => exact .inl (handle_health env w ep)
  | publish key value =>
    rcases handle_publish env w key value with ⟨text, h⟩ | h
    · exact .inl (by rw [h])
    · exact .inr (.inr (.inr ⟨key, value, rfl, by rw [h]⟩))
  | timeNow => exact .inl rfl

/-! ### What it leaves alone -/

theorem handle_db : (handle env o w).2.db = w.db ∨ ∃ s pick, o = .store s ∧ w.storeTape w.calls = .ok pick ∧
        (handle env o w).2.db = (Database.exec w.now pick s w.db).2 := by
  rcases handle_cases env w o with h | ⟨s, pick, ho, hpick, h⟩ | ⟨ep, m, type, x, _, h⟩ | ⟨key, value, _, h⟩
  · exact .inl (by rw [h]; rfl)
  · exact .inr ⟨s, pick, ho, hpick, by rw [h]; rfl⟩
  · exact .inl (by rw [h]; rfl)
  · exact .inl (by rw [h]; rfl)

theorem handle_tapes : (handle env o w).2.calls = w.calls + 1 ∧ (handle env o w).2.storeTape = w.storeTape ∧
      (handle env o w).2.providerTape = w.providerTape ∧ (handle env o w).2.randomTape = w.randomTape := by
  rcases handle_cases env w o with h | ⟨s, pick, _, _, h⟩ | ⟨ep, m, type, x, _, h⟩ | ⟨key, value, _, h⟩
  · rw [h]
    exact ⟨rfl, rfl, rfl, rfl⟩
  · rw [h]
    exact ⟨rfl, rfl, rfl, rfl⟩
  · rw [h]
    exact ⟨rfl, rfl, rfl, rfl⟩
  · rw [h]
    exact ⟨rfl, rfl, rfl, rfl⟩

theorem handle_frame {β : Type} (f : Database → β)
    (h : ∀ s now pick, o = .store s → f (Database.exec now pick s w.db).2 = f w.db) :
    f (handle env o w).2.db = f w.db := by
  rcases @handle_db env w o with hdb | ⟨s, pick, rfl, _, hdb⟩
  · rw [hdb]
  · rw [hdb, h s _ _ rfl]

@[simp] theorem handle_policies : (handle env o w).2.db.policies = w.db.policies :=
  handle_frame (fun db => db.policies) (fun _ _ _ _ => Database.exec_policies)

@[simp] theorem handle_connections : (handle env o w).2.db.connections = w.db.connections :=
  handle_frame (fun db => db.connections) (fun _ _ _ _ => Database.exec_connections)

theorem handle_canonical (h : o.writesCanonical = false) :
    (handle env o w).2.db.canonical = w.db.canonical := by
  apply handle_frame (fun db => db.canonical)
  rintro s now pick rfl
  exact Database.exec_canonical h

theorem handle_outbound (h : o.writesOutbound = false) : (handle env o w).2.db.outbound = w.db.outbound := by
  apply handle_frame (fun db => db.outbound)
  rintro s now pick rfl
  exact Database.exec_outbound h

theorem handle_sims_at {ep : Endpoint} (h : o.endpoint? ≠ some ep) :
    (handle env o w).2.sims ep = w.sims ep := by
  rcases handle_cases env w o with hw | ⟨s, pick, _, _, hw⟩ | ⟨ep', m, type, x, hep, hw⟩ | ⟨key, value, _, hw⟩
  · rw [hw]
    rfl
  · rw [hw]
    rfl
  · rw [hw]
    exact update_of_ne (fun heq => h (by rw [hep, heq])) _ _
  · rw [hw]
    rfl

theorem handle_sims (h : o.isProvider = false) : (handle env o w).2.sims = w.sims := by
  funext ep
  apply handle_sims_at
  cases o with
  | create ep data => cases h
  | update ep id data => cases h
  | delete ep id => cases h
  | _ => exact nofun

theorem handle_processed {key : EventKey} (h : o.writesClaim key = false) :
    (handle env o w).2.db.processed key = w.db.processed key := by
  apply handle_frame (fun db => db.processed key)
  rintro s now pick rfl
  exact Database.exec_processed h

theorem handle_retryQueue {key : RowKey} (h : o.writesRetry key = false) :
    (handle env o w).2.db.retryQueue.get? key = w.db.retryQueue.get? key := by
  apply handle_frame (fun db => db.retryQueue.get? key)
  rintro s now pick rfl
  exact Database.exec_retryQueue h

theorem handle_deadLetters {key : RowKey} (h : o.writesDeadLetter key = false) :
    (handle env o w).2.db.deadLetters key = w.db.deadLetters key := by
  apply handle_frame (fun db => db.deadLetters key)
  rintro s now pick rfl
  exact Database.exec_deadLetters h

theorem handle_claim (key : EventKey) :
    (∃ e, handle env (.store (.claimProcessedEvent key)) w = (.error e, w.called)) ∨
      (handle env (.store (.claimProcessedEvent key)) w).1 = .ok (!w.db.processed key) ∧
      (handle env (.store (.claimProcessedEvent key)) w).2.db.processed key = true := by
  rcases handle_store env w (.claimProcessedEvent key) with ⟨text, _, h⟩ | ⟨pick, _, h⟩
  · exact .inl ⟨.plain text, h⟩
  · right
    rw [h]
    exact ⟨rfl, Function.update_self _ _ _⟩

end World

end SyncForge
