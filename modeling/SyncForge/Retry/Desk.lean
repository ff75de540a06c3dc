import SyncForge.Api.DeadLetter
import SyncForge.Cluster.Durable

/-!
# `Retry.Desk` — one worker, one retry engine and the operators, one step at a time

Everything that reads or writes `retry_queue` and `dead_letter`, as a state machine whose steps run a program
to the end. A `drain` is a poll and as many re-runs as it returned rows (`drain_run`). A step writes nothing
but one payload under one row key (`step_frame`,
`holds_step`).
-/

namespace SyncForge.Desk

open Effect Effect.Prog Store Relational
open Transition (Run)
open Cluster (Keeps)
open Deployment (annCreated policy record tenant)
open Function (update update_of_ne update_self)
open Retry (drainRows processRetry)

/-! ## The machine -/

/-- The rows the engine has been given and not yet re-run, the deliveries that were acknowledged, and the
    events some execution brought to an end. -/
structure State where
  world : World
  batch : List RetryEntry := []
  acknowledged : List Event := []
  concluded : List Event := []

inductive Act where
  | deliver (ev : Event)
  | poll (limit : Int)
  | next
  | retry (key : RowKey)
  | discard (key : RowKey)
  | decide (ev : Event) (lastError errorClass : String)
  | park (ev : Event) (reason : String)
  | tick (d : Nat)

/-- `Process` returned `nil` on its own account. Finding the event claimed is not an end of it. -/
def concludes : Except GoError Outcome → Bool
  | .ok .duplicate => false
  | .ok _ => true
  | .error _ => false

/-- The row of a conflict is stored. -/
def recorded (o : Call) (r : Except GoError (sig.Res o)) : Bool :=
  match o, r with
  | .store (.insertConflict _), .error _ => false
  | _, _ => true

/-- The event was applied or dropped, its conflict parked and the row of it stored, its finding handled, or
    there was no policy for it. `Process` also returns `nil` where the row of a parked conflict could not be
    stored: that is no end. -/
def endedBy (env : Env) (ev : Event) (w : World) : Bool :=
  concludes (run (World.handle env) (process env ev) w).1 && meets (World.handle env) recorded
    (process env ev) w

def concludedBy (env : Env) (b : Bytes) (w : World) : List Event :=
  match b with
  | .event ev => if endedBy env ev w then [ev] else []
  | .garbage _ => []

def State.after {α : Type} (env : Env) (p : Sync α) (s : State) : State :=
  { s with world := (run (World.handle env) p s.world).2 }

def step (env : Env) (s : State) : Act → Option State
  | .deliver ev =>
    let r := run (World.handle env) (handle env (.marshal ev)) s.world
    some { s with
      world := r.2
      acknowledged := if r.1.isOk then ev :: s.acknowledged else s.acknowledged
      concluded := concludedBy env (.event ev) s.world ++ s.concluded }
  | .poll limit =>
    if s.batch = [] then
      let r := World.handle env (.store (.claimDueRetries limit)) s.world
      some { s with world := r.2, batch := r.1.toOption.getD [] }
    else none
  | .next =>
    match s.batch with
    | [] => none
    | r :: rest =>
      some { s.after env (processRetry env r) with
        batch := rest
        concluded := concludedBy env r.state s.world ++ s.concluded }
  | .retry key => some (s.after env (Api.handleDLQRetry env key))
  | .discard key => some (s.after env (Api.handleDLQDiscard key))
  | .decide ev lastError errorClass => some (s.after env (Api.enqueueDecision env ev lastError errorClass))
  | .park ev reason => some (s.after env (Api.parkProviderRecord ev reason))
  | .tick d => some { s with world := { s.world with now := s.world.now + d } }

variable {env : Env} {s t u : State} {a : Act} {α : Type} {k : RowKey}

theorem step_poll {limit : Int} (h : step env s (.poll limit) = some u) :
    s.batch = [] ∧ u = { s with
      world := (World.handle env (.store (.claimDueRetries limit)) s.world).2
      batch := (World.handle env (.store (.claimDueRetries limit)) s.world).1.toOption.getD [] } := by
  simp only [step] at h
  split at h
  · rename_i hbatch
    exact ⟨hbatch, (Option.some.inj h).symm⟩
  · cases h

theorem step_next (h : step env s .next = some u) :
    ∃ r rest, s.batch = r :: rest ∧ u = { s.after env (processRetry env r) with
      batch := rest
      concluded := concludedBy env r.state s.world ++ s.concluded } := by
  cases hbatch : s.batch with
  | nil =>
    simp only [step, hbatch] at h
    cases h
  | cons r rest =>
    simp only [step, hbatch] at h
    exact ⟨r, rest, rfl, (Option.some.inj h).symm⟩

/-! ## A drain is a poll and its re-runs -/

def Returns {α : Type} (env : Env) (p : Sync α) : Prop := ∀ w, ∃ r, (run (World.handle env) p w).1 = .ok r

theorem returns_bind {β : Type} {p : Sync α} {f : α → Sync β} (hp : Returns env p)
    (hf : ∀ r, Returns env (f r)) : Returns env (p >>= f) := by
  intro w
  obtain ⟨r, hr⟩ := hp w
  rw [run_bind_ok _ (Prod.ext hr rfl)]
  exact hf r _

theorem returns_attempt (p : Sync α) : Returns env p.attempt := fun w => ⟨_, by rw [run_attempt]⟩

theorem returns_return (r : α) : Returns env (Pure.pure r) := fun _ => ⟨r, rfl⟩

theorem returns_tryStmt (o : StoreOp) : Returns env (tryStmt o) :=
  returns_bind (returns_attempt _) (fun _ => returns_return ())

theorem deadLetter_returns (r : RetryEntry) (reason errorClass : String) :
    Returns env (Retry.deadLetter r reason errorClass) := by
  refine returns_bind (returns_attempt _) (fun res => ?_)
  split
  · exact returns_return ()
  · exact returns_tryStmt _

theorem processRetry_returns (r : RetryEntry) : Returns env (processRetry env r) := by
  unfold processRetry
  split
  · exact returns_bind (deadLetter_returns _ _ _) (fun _ => returns_tryStmt _)
  · refine returns_bind (returns_attempt _) (fun res => ?_)
    split
    · exact returns_bind (returns_tryStmt _) (fun _ => returns_tryStmt _)
    · show Returns env (ite _ _ _)
      split
      · exact returns_bind (deadLetter_returns _ _ _) (fun _ => returns_tryStmt _)
      · exact returns_bind (fun w => ⟨_, rfl⟩) (fun _ => returns_tryStmt _)

theorem drainRows_run (rows : List RetryEntry) (hbatch : s.batch = rows) :
    ∃ t, Run (step env) (fun _ _ => True) s (List.replicate rows.length .next) t ∧ t.batch = [] ∧
      run (World.handle env) (drainRows env rows) s.world = (.ok (), t.world) := by
  induction rows generalizing s with
  | nil => exact ⟨s, .refl, hbatch, rfl⟩
  | cons r rest ih =>
    have hstep : step env s .next = some { s.after env (processRetry env r) with
        batch := rest
        concluded := concludedBy env r.state s.world ++ s.concluded } := by
      simp only [step, hbatch]
    obtain ⟨t, hrun, hdone, hworld⟩ := ih (s := { s.after env (processRetry env r) with
        batch := rest
        concluded := concludedBy env r.state s.world ++ s.concluded }) rfl
    refine ⟨t, .head trivial hstep hrun, hdone, ?_⟩
    obtain ⟨_, hok⟩ := @processRetry_returns env r s.world
    rwa [drainRows, run_bind_ok _ (Prod.ext hok rfl)]

/-- **A `drain` is a run of the machine**: one poll, and one step for each row it returned. -/
theorem drain_run (limit : Int) (hbatch : s.batch = []) :
    ∃ n t, Run (step env) (fun _ _ => True) s (.poll limit :: List.replicate n .next) t ∧ t.batch = [] ∧
      run (World.handle env) (Retry.drain env limit) s.world = (.ok n, t.world) := by
  have hpoll : step env s (.poll limit) = some { s with
      world := (World.handle env (.store (.claimDueRetries limit)) s.world).2
      batch := (World.handle env (.store (.claimDueRetries limit)) s.world).1.toOption.getD [] } := by
    simp only [step, if_pos hbatch]
  have hcall : run (World.handle env) (stmt (.claimDueRetries limit)).attempt s.world
      = (.ok (World.handle env (.store (.claimDueRetries limit)) s.world).1,
        (World.handle env (.store (.claimDueRetries limit)) s.world).2) := by
    rw [run_attempt, run_perform]
  rw [Retry.drain, run_bind_ok _ hcall]
  cases hanswer : World.handle env (.store (.claimDueRetries limit)) s.world with
  | mk r w =>
    rw [hanswer] at hpoll
    cases r with
    | error e =>
      -- the poll failed: the drain is over, with nothing re-run
      exact ⟨0, _, .single trivial hpoll, rfl, rfl⟩
    | ok due =>
      obtain ⟨t, hrun, hdone, hworld⟩ := @drainRows_run env { s with world := w, batch := due } due rfl
      refine ⟨due.length, t, .head trivial hpoll hrun, hdone, ?_⟩
      show run (World.handle env) (drainRows env due >>= fun _ => Pure.pure due.length) w = _
      rw [run_bind_ok _ hworld]
      rfl

/-! ## What a step does to the rows -/

def logical : Bytes → Option EventKey
  | .event ev => some ev.key
  | .garbage _ => none

def handles (s : State) : Act → Option (Bytes × RowKey)
  | .deliver ev | .decide ev _ _ | .park ev _ => some (.event ev, ev.rowKey)
  | .next => s.batch.head?.map (fun r => (r.state, r.key))
  | .retry key | .discard key => (s.world.db.deadLetters key).map (fun d => (d.payload, key))
  | .poll _ | .tick _ => none

def pendingAt (s : State) (k : RowKey) : List Bytes :=
  ((s.world.db.retryQueue.get? k).toList.map RetryEntry.state ++ (s.world.db.deadLetters k).toList.map
    DeadLetter.payload) ++ (s.batch.filter (fun r => r.key = k)).map RetryEntry.state

theorem mem_pendingAt {b : Bytes} :
    b ∈ pendingAt s k ↔ (∃ r, s.world.db.retryQueue.get? k = some r ∧ r.state = b) ∨
      (∃ d, s.world.db.deadLetters k = some d ∧ d.payload = b) ∨ ∃ r ∈ s.batch, r.key = k ∧ r.state = b := by
  simp only [pendingAt, List.mem_append, List.mem_map, Option.mem_toList, List.mem_filter,
    decide_eq_true_eq, or_assoc, and_assoc]

/-- `Q` of everything that stands under a row key. -/
structure Holds (Q : Bytes → RowKey → Prop) (s : State) : Prop where
  rows : ∀ r ∈ s.world.db.retryQueue.rows, Q r.state r.key
  dead : ∀ k d, s.world.db.deadLetters k = some d → d.key = k ∧ Q d.payload k
  batch : ∀ r ∈ s.batch, Q r.state r.key

variable {Q : Bytes → RowKey → Prop} {b : Bytes} {key : RowKey}

theorem Holds.pending (h : Holds Q s) (hb : b ∈ pendingAt s k) : Q b k := by
  rcases mem_pendingAt.mp hb with ⟨r, hr, rfl⟩ | ⟨d, hd, rfl⟩ | ⟨r, hr, rfl, rfl⟩
  · have hkey : r.key = k := Table.get?_key hr
    rw [← hkey]
    exact h.rows r (Table.mem_of_get? hr)
  · exact (h.dead k d hd).2
  · exact h.batch r hr

theorem holds_of_pending (hkeyed : ∀ k d, s.world.db.deadLetters k = some d → d.key = k)
    (h : ∀ k, ∀ b ∈ pendingAt s k, Q b k) : Holds Q s where
  rows r hr := h r.key _ (mem_pendingAt.mpr (.inl ⟨r, Table.get?_of_mem hr, rfl⟩))
  dead k d hd := ⟨hkeyed k d hd, h k _ (mem_pendingAt.mpr (.inr (.inl ⟨d, hd, rfl⟩)))⟩
  batch r hr := h r.key _ (mem_pendingAt.mpr (.inr (.inr ⟨r, hr, rfl, rfl⟩)))

theorem dead_update {f : RowKey → Option DeadLetter} {g : DeadLetter → DeadLetter}
    (hdead : ∀ k d, f k = some d → d.key = k ∧ Q d.payload k)
    (hg : ∀ d, (g d).key = d.key ∧ (g d).payload = d.payload) (k0 : RowKey) :
    ∀ k d, update f k0 ((f k0).map g) k = some d → d.key = k ∧
      Q d.payload k := by
  intro k d hd
  by_cases hk : k = k0
  · subst hk
    rw [update_self] at hd
    obtain ⟨d', hd', rfl⟩ := Option.map_eq_some_iff.mp hd
    rw [(hg d').1, (hg d').2]
    exact hdead k d' hd'
  · rw [update_of_ne hk] at hd
    exact hdead k d hd

theorem dead_handle {w : World} {o : Call}
    (hdead : ∀ k d, w.db.deadLetters k = some d → d.key = k ∧ Q d.payload k)
    (hQ : Q b key) (ho : Keeps b key o) : ∀ k d, (World.handle env o w).2.db.deadLetters k = some d → d.key = k ∧ Q d.payload k := by
  rcases @World.handle_db env w o with hdb | ⟨st, pick, rfl, _, hdb⟩
  · rwa [hdb]
  · rw [hdb]
    cases st with
    | insertDeadLetter d0 =>
      obtain ⟨hpayload, hkey⟩ := ho
      intro k d hd
      by_cases hk : k = d0.key
      · subst hk
        have hrow : update w.db.deadLetters d0.key (some { d0 with status := .open }) d0.key = some d := hd
        rw [update_self] at hrow
        cases hrow
        refine ⟨rfl, ?_⟩
        show Q d0.payload d0.key
        rwa [hpayload, hkey]
      · have hrow : update w.db.deadLetters d0.key (some { d0 with status := .open }) k = some d := hd
        rw [update_of_ne hk] at hrow
        exact hdead k d hrow
    | resolveDeadLetterForEvent k0 =>
      refine dead_update hdead (fun d => ?_) k0
      split <;> exact ⟨rfl, rfl⟩
    | setDeadLetterStatus k0 status =>
      exact dead_update (g := fun d => { d with status := status }) hdead (fun d => ⟨rfl, rfl⟩) k0
    | _ => exact hdead

/-! ### The programs of the steps -/

def claimsOnly (b : Bytes) (o : Call) : Prop := ∀ K, logical b ≠ some K → o.writesClaim K = false

theorem process_claimsOnly (ev : Event) : Only (claimsOnly (.event ev)) (process env ev) :=
  only_mono process_claims (fun _ ho K hK => ho K (fun h => hK (by rw [h]; rfl)))

def Own (b : Bytes) (key : RowKey) (o : Call) : Prop := Keeps b key o ∧ claimsOnly b o

theorem own_handsOff : HandsOff (Own b key) b key :=
  ⟨⟨trivial, fun _ _ => rfl⟩, fun _ _ h => ⟨h, fun _ _ => rfl⟩, fun _ h => ⟨h, fun _ _ => rfl⟩,
    fun _ _ => ⟨trivial, fun _ _ => rfl⟩⟩

theorem process_own (ev : Event) : Only (Own (.event ev) key) (process env ev) :=
  only_and Cluster.process_keeps (process_claimsOnly ev)

theorem handle_own (ev : Event) : Only (Own (.event ev) ev.rowKey) (handle env (.marshal ev)) :=
    own_handsOff.handle (process_own ev)

theorem processRetry_own (r : RetryEntry) : Only (Own r.state r.key) (processRetry env r) := by
  refine own_handsOff.processRetry ⟨rfl, fun _ _ => rfl⟩ ⟨rfl, fun _ _ => rfl⟩ (fun ev hev => ?_)
  have hstate : r.state = .event ev := by
    cases hb : r.state with
    | event e => rw [hb] at hev; cases hev; rfl
    | garbage text => rw [hb] at hev; cases hev
  rw [hstate]
  exact process_own ev

theorem decision_own (ev : Event) (lastError errorClass : String) :
    Only (Own (.event ev) ev.rowKey) (Api.enqueueDecision env ev lastError errorClass) :=
  only_stmt ⟨⟨rfl, rfl⟩, fun _ _ => rfl⟩

theorem parkRecord_own (ev : Event) (reason : String) :
    Only (Own (.event ev) ev.rowKey) (Api.parkProviderRecord ev reason) :=
  only_tryStmt ⟨⟨rfl, rfl⟩, fun _ _ => rfl⟩

theorem retryItem_own {item : DeadLetter} (hkey : item.key = key) :
    Only (Own item.payload key) (Api.retryItem env key item) := by
  refine only_lookup ⟨⟨rfl, nofun⟩, fun _ _ => rfl⟩ (fun r => ?_)
  split
  · exact trivial
  · refine only_lookup ⟨⟨rfl, hkey⟩, fun _ _ => rfl⟩ (fun r => ?_)
    split <;> exact trivial

theorem discardItem_own : Only (Own b key) (Api.discardItem key) := by
  refine only_lookup ⟨⟨rfl, nofun⟩, fun _ _ => rfl⟩ (fun r => ?_)
  split <;> exact trivial

theorem run_withItem (next : DeadLetter → Sync Api.Response) (w : World) :
    (run (World.handle env) (Api.withItem key next) w).2.db = w.db ∨
      ∃ item, w.db.deadLetters key = some item ∧
        run (World.handle env) (Api.withItem key next) w = run (World.handle env) (next item) w.called := by
  have hload : run (World.handle env) (stmt (.getDeadLetter key)).attempt w
      = (.ok (World.handle env (.store (.getDeadLetter key)) w).1,
        (World.handle env (.store (.getDeadLetter key)) w).2) := by
    rw [run_attempt, run_perform]
  rw [Api.withItem, run_bind_ok _ hload]
  rcases World.handle_store env w (.getDeadLetter key) with ⟨text, _, h⟩ | ⟨pick, _, h⟩
  · left
    rw [h]
    rfl
  · rw [h]
    simp only [Database.exec, World.executed]
    cases hitem : w.db.deadLetters key with
    | none => exact .inl rfl
    | some item => exact .inr ⟨item, rfl, rfl⟩

/-! ### One step -/

def Writes (env : Env) (b : Bytes) (key : RowKey) (db : Database) (w' : World) : Prop :=
  ∃ (α : Type) (p : Sync α) (w : World), Only (Own b key) p ∧ w.db = db ∧ w' = (run (World.handle env) p w).2

theorem writes_after {p : Sync α} (hp : Only (Own b key) p) (w : World) :
    Writes env b key w.db (run (World.handle env) p w).2 := ⟨α, p, w, hp, rfl, rfl⟩

theorem writes_withItem {next : DeadLetter → Sync Api.Response}
    (hkeyed : ∀ k d, s.world.db.deadLetters k = some d → d.key = k)
    (hnext : ∀ item : DeadLetter, item.key = key → Only (Own item.payload key) (next item)) :
    (s.after env (Api.withItem key next)).world.db = s.world.db ∨
      ∃ item, s.world.db.deadLetters key = some item ∧
        Writes env item.payload key s.world.db (s.after env (Api.withItem key next)).world := by
  rcases @run_withItem env key next s.world with h | ⟨item, hitem, hrun⟩
  · exact .inl h
  · refine .inr ⟨item, hitem, _, _, s.world.called, hnext item (hkeyed key item hitem), rfl, ?_⟩
    show (run (World.handle env) (Api.withItem key next) s.world).2 = _
    rw [hrun]

/-- **What a step does to the database**: nothing, or it writes by calls of its own. -/
theorem step_writes (hkeyed : ∀ k d, s.world.db.deadLetters k = some d → d.key = k)
    (h : step env s a = some u) : u.world.db = s.world.db ∨ ∃ b key, handles s a = some (b, key) ∧
    Writes env b key s.world.db u.world := by
  cases a with
  | deliver ev =>
    cases h
    exact .inr ⟨_, _, rfl, writes_after (handle_own ev) s.world⟩
  | poll limit =>
    -- `ClaimDueRetries` only reads: a row stays in the table until its re-run is over
    obtain ⟨_, rfl⟩ := step_poll h
    exact .inl (World.handle_frame (fun db => db) (fun st now pick hst => by cases hst; rfl))
  | next =>
    obtain ⟨r, rest, hbatch, rfl⟩ := step_next h
    exact .inr ⟨_, _, by simp only [handles, hbatch]; rfl, writes_after (processRetry_own r) s.world⟩
  | retry k =>
    cases h
    refine (writes_withItem hkeyed (fun item hkey => retryItem_own hkey)).imp id (fun ⟨item, hitem, hw⟩ => ?_)
    exact ⟨_, _, by simp only [handles, hitem]; rfl, hw⟩
  | discard k =>
    cases h
    refine (writes_withItem hkeyed (fun item _ => discardItem_own)).imp id (fun ⟨item, hitem, hw⟩ => ?_)
    exact ⟨_, _, by simp only [handles, hitem]; rfl, hw⟩
  | decide ev lastError errorClass =>
    cases h
    exact .inr ⟨_, _, rfl, writes_after (decision_own ev lastError errorClass) s.world⟩
  | park ev reason =>
    cases h
    exact .inr ⟨_, _, rfl, writes_after (parkRecord_own ev reason) s.world⟩
  | tick d =>
    cases h
    exact .inl rfl

theorem step_batch (h : step env s a = some u) : ∀ r ∈ u.batch, r ∈ s.batch ∨
    r ∈ s.world.db.retryQueue.rows := by
  intro r hr
  cases a with
  | poll limit =>
    obtain ⟨_, rfl⟩ := step_poll h
    cases hdue : (World.handle env (.store (.claimDueRetries limit)) s.world).1 with
    | error e =>
      simp only [hdue] at hr
      cases hr
    | ok due =>
      simp only [hdue] at hr
      exact .inr (Cluster.rows_poll hdue r hr)
  | next =>
    obtain ⟨r', rest, hbatch, rfl⟩ := step_next h
    rw [hbatch]
    exact .inl (.tail _ hr)
  | _ => cases h; exact .inl hr

/-- **Step lemma**: `Q` of everything pending, if of what the step handles. -/
theorem holds_step (hs : Holds Q s) (hhandled : ∀ b key, handles s a = some (b, key) → Q b key)
    (h : step env s a = some u) : Holds Q u := by
  have hbatch : ∀ r ∈ u.batch, Q r.state r.key := fun r hr =>
    (step_batch h r hr).elim (hs.batch r) (hs.rows r)
  rcases step_writes (fun k d hd => (hs.dead k d hd).1) h with hdb | ⟨b, key, hb, _, p, w, hp, hw, hu⟩
  · exact ⟨by rw [hdb]; exact hs.rows, by rw [hdb]; exact hs.dead, hbatch⟩
  · have hQ := hhandled b key hb
    have hrun := run_invariant (h := World.handle env) (s := w) (I := fun w : World =>
        (∀ r ∈ w.db.retryQueue.rows, Q r.state r.key) ∧
          ∀ k d, w.db.deadLetters k = some d → d.key = k ∧ Q d.payload k) hp
      (fun w o ho hw => ⟨Cluster.rows_handle hw.1 hQ ho.1, dead_handle hw.2 hQ ho.1⟩)
      (by rw [hw]; exact ⟨hs.rows, hs.dead⟩)
    rw [← hu] at hrun
    exact ⟨hrun.1, hrun.2, hbatch⟩

def brings : Act → Option Event
  | .deliver ev | .decide ev _ _ | .park ev _ => some ev
  | _ => none

theorem handles_cases (hb : handles s a = some (b, key)) :
    (∃ ev, brings a = some ev ∧ b = .event ev ∧ key = ev.rowKey) ∨ brings a = none ∧ b ∈ pendingAt s key := by
  cases a with
  | deliver ev => cases hb; exact .inl ⟨ev, rfl, rfl, rfl⟩
  | decide ev e c => cases hb; exact .inl ⟨ev, rfl, rfl, rfl⟩
  | park ev r => cases hb; exact .inl ⟨ev, rfl, rfl, rfl⟩
  | next =>
    obtain ⟨r, hr, hpair⟩ := Option.map_eq_some_iff.mp hb
    cases hpair
    exact .inr ⟨rfl, mem_pendingAt.mpr (.inr (.inr ⟨r, List.mem_of_mem_head? hr, rfl, rfl⟩))⟩
  | retry k =>
    obtain ⟨d, hd, hpair⟩ := Option.map_eq_some_iff.mp hb
    cases hpair
    exact .inr ⟨rfl, mem_pendingAt.mpr (.inr (.inl ⟨d, hd, rfl⟩))⟩
  | discard k =>
    obtain ⟨d, hd, hpair⟩ := Option.map_eq_some_iff.mp hb
    cases hpair
    exact .inr ⟨rfl, mem_pendingAt.mpr (.inr (.inl ⟨d, hd, rfl⟩))⟩
  | poll limit => cases hb
  | tick d => cases hb

/-- **A step writes nothing under other keys** than the one it handles. -/
theorem step_frame (hkeyed : ∀ k d, s.world.db.deadLetters k = some d → d.key = k) (h : step env s a = some u)
    (hk : ∀ b key, handles s a = some (b, key) → key ≠ k) :
    u.world.db.retryQueue.get? k = s.world.db.retryQueue.get? k ∧
      u.world.db.deadLetters k = s.world.db.deadLetters k := by
  rcases step_writes hkeyed h with hdb | ⟨b, key, hb, _, p, w, hp, hw, hu⟩
  · rw [hdb]
    exact ⟨rfl, rfl⟩
  · have hne := hk b key hb
    have hrun := run_invariant (h := World.handle env) (s := w) (I := fun w : World =>
        w.db.retryQueue.get? k = s.world.db.retryQueue.get? k ∧ w.db.deadLetters k = s.world.db.deadLetters k) hp
      (fun w o ho hw => ⟨(World.handle_retryQueue (ho.1.writesRetry hne)).trans hw.1,
        (World.handle_deadLetters (ho.1.writesDeadLetter hne)).trans hw.2⟩)
      (by rw [hw]; exact ⟨rfl, rfl⟩)
    rwa [← hu] at hrun

/-! ## Logical events kept apart -/

def subject (s : State) (a : Act) : Option EventKey := (handles s a).bind (fun x => logical x.1)

def Sorted (s : State) : Prop := ∃ owner : RowKey → Option EventKey, Holds (fun b k => logical b = owner k) s

def apart (s : State) (a : Act) : Bool :=
  match brings a with
  | some ev => (pendingAt s ev.rowKey).all (fun b => logical b = some ev.key)
  | none => true

theorem exists_owner (hs : Sorted s) (ha : apart s a = true) :
    ∃ owner : RowKey → Option EventKey, Holds (fun b k => logical b = owner k) s ∧
      ∀ b key, handles s a = some (b, key) → logical b = owner key := by
  obtain ⟨owner, hold⟩ := hs
  cases hbrings : brings a with
  | none =>
    refine ⟨owner, hold, fun b key hb => ?_⟩
    rcases handles_cases hb with ⟨ev, hev, _⟩ | ⟨_, hmem⟩
    · rw [hbrings] at hev
      cases hev
    · exact hold.pending hmem
  | some ev =>
    -- the key of the event it brings is given to that event; what stands there is its own
    have hown : ∀ b ∈ pendingAt s ev.rowKey, logical b = some ev.key := by
      intro b hb
      simp only [apart, hbrings, List.all_eq_true, decide_eq_true_eq] at ha
      exact ha b hb
    refine ⟨update owner ev.rowKey (some ev.key), ?_, fun b key hb => ?_⟩
    · refine holds_of_pending (fun k d hd => (hold.dead k d hd).1) (fun k b hb => ?_)
      by_cases hk : k = ev.rowKey
      · subst hk
        rw [update_self]
        exact hown b hb
      · rw [update_of_ne hk]
        exact hold.pending hb
    · rcases handles_cases hb with ⟨ev', hev', rfl, rfl⟩ | ⟨hnone, _⟩
      · rw [hbrings] at hev'
        cases hev'
        rw [update_self]
        rfl
      · rw [hbrings] at hnone
        cases hnone

theorem sorted_step (hs : Sorted s) (ha : apart s a = true) (h : step env s a = some u) : Sorted u := by
  obtain ⟨owner, hold, hhandled⟩ := exists_owner hs ha
  exact ⟨owner, holds_step hold hhandled h⟩

structure Untouched (K : EventKey) (db db' : Database) : Prop where
  queue : ∀ k r, db.retryQueue.get? k = some r → logical r.state = some K → db'.retryQueue.get? k = some r
  dead : ∀ k d, db.deadLetters k = some d → logical d.payload = some K → db'.deadLetters k = some d

/-- **Step lemma**: an action about one event leaves the others alone. -/
theorem untouched_step (hs : Sorted s) (ha : apart s a = true) (h : step env s a = some u) {K : EventKey}
    (hK : subject s a ≠ some K) : Untouched K s.world.db u.world.db := by
  obtain ⟨owner, hold, hhandled⟩ := exists_owner hs ha
  -- a row of `K` stands under a key that the step does not handle
  have hframe : ∀ k b, b ∈ pendingAt s k → logical b = some K →
      u.world.db.retryQueue.get? k = s.world.db.retryQueue.get? k ∧
        u.world.db.deadLetters k = s.world.db.deadLetters k := by
    intro k b hb hlogical
    refine step_frame (fun k d hd => (hold.dead k d hd).1) h (fun b' key hb' hkey => hK ?_)
    subst hkey
    rwa [subject, hb', Option.bind_some, hhandled b' key hb', ← hold.pending hb]
  constructor
  · intro k r hr hlogical
    rwa [(hframe k r.state (mem_pendingAt.mpr (.inl ⟨r, hr, rfl⟩)) hlogical).1]
  · intro k d hd hlogical
    rwa [(hframe k d.payload (mem_pendingAt.mpr (.inr (.inl ⟨d, hd, rfl⟩))) hlogical).2]

/-- **Logical events do not share rows.** In a run in which no event comes in whose tenant and event id are
    those of a row of another logical event, no step for one logical event changes a retry row or a dead
    letter of another. -/
theorem rows_kept_apart {as : List Act} {K : EventKey} (hs : Sorted s)
    (hrun : Run (step env) (fun s a => apart s a = true) s as t) (ha : apart t a = true)
    (h : step env t a = some u) (hK : subject t a ≠ some K) : Untouched K t.world.db u.world.db := by
  have ht : Sorted t := hrun.invariant (P := fun _ t => Sorted t) hs
    (fun _ _ _ _ ht ha h => sorted_step ht ha h)
  exact untouched_step ht ha h hK

/-! ### Concrete runs -/

def bothDown : World :=
  { Deployment.world [policy "salesforce" "hubspot", policy "hubspot" "salesforce"] with
    providerTape := fun _ => some ⟨.transient, "down", 0, none⟩ }

def bobCreated (id : String) : Event where
  eventID := id
  tenantID := tenant
  source := "hubspot"
  entityType := "contact"
  entityID := "hub-1"
  eventType := .created
  sourceVersion := 1
  occurredAt := 1
  fields := some (record hubspot "Bob" "Ray" "bob@x")

theorem sorted_bothDown : Sorted ⟨bothDown, [], [], []⟩ := by
  refine ⟨fun _ => none, ?_, ?_, ?_⟩
  · intro r hr
    cases hr
  · intro k d hd
    cases hd
  · intro r hr
    cases hr

theorem rows_kept_apart_two :
    ∃ t u, Run (step Deployment.env) (fun s a => apart s a = true) ⟨bothDown, [], [], []⟩
        [.deliver annCreated, .deliver (bobCreated "e2"), .tick 2000000000, .poll 100] t ∧
      step Deployment.env t .next = some u ∧ subject t .next = some annCreated.key ∧
      (t.world.db.retryQueue.get? (bobCreated "e2").rowKey).map (fun r => logical r.state)
        = some (some (bobCreated "e2").key) ∧
      Untouched (bobCreated "e2").key t.world.db u.world.db := by
  have hrun : (Transition.exec (step Deployment.env) apart
      [.deliver annCreated, .deliver (bobCreated "e2"), .tick 2000000000, .poll 100]
      ⟨bothDown, [], [], []⟩).map (fun t => ((step Deployment.env t .next).isSome, subject t .next,
        (t.world.db.retryQueue.get? (bobCreated "e2").rowKey).map (fun r => logical r.state)))
      = some (true, some annCreated.key, some (some (bobCreated "e2").key)) := by
    decide +kernel
  obtain ⟨t, ht, hfacts⟩ := Option.map_eq_some_iff.mp hrun
  simp only [Prod.mk.injEq] at hfacts
  obtain ⟨hnext, hsubject, hrow⟩ := hfacts
  obtain ⟨u, hu⟩ := Option.isSome_iff_exists.mp hnext
  have hreach := Transition.run_of_exec ht
  refine ⟨t, u, hreach, hu, hsubject, hrow, rows_kept_apart sorted_bothDown hreach rfl hu ?_⟩
  rw [hsubject]
  decide

/-- **A shared row.** Two providers of one tenant use the same event id: the failure of HubSpot's event
    overwrites the retry row of Salesforce's and counts one more attempt on it. -/
theorem other_event_overwritten :
    ∃ t u, Run (step Deployment.env) (fun _ _ => True) ⟨bothDown, [], [], []⟩ [.deliver annCreated] t ∧
      step Deployment.env t (.deliver (bobCreated "e1")) = some u ∧
      subject t (.deliver (bobCreated "e1")) ≠ some annCreated.key ∧
      (t.world.db.retryQueue.get? annCreated.rowKey).map (fun r => (logical r.state, r.attempt))
        = some (some annCreated.key, 1) ∧
      (u.world.db.retryQueue.get? annCreated.rowKey).map (fun r => (logical r.state, r.attempt))
        = some (some (bobCreated "e1").key, 2) ∧
      ¬ Untouched annCreated.key t.world.db u.world.db := by
  have hrun : ((Transition.exec (step Deployment.env) (fun _ _ => true) [.deliver annCreated]
      ⟨bothDown, [], [], []⟩).bind (fun t => (step Deployment.env t (.deliver (bobCreated "e1"))).map (fun u =>
        ((t.world.db.retryQueue.get? annCreated.rowKey).map (fun r => (logical r.state, r.attempt)),
          (u.world.db.retryQueue.get? annCreated.rowKey).map (fun r => (logical r.state, r.attempt))))))
      = some (some (some annCreated.key, 1), some (some (bobCreated "e1").key, 2)) := by
    decide +kernel
  obtain ⟨t, ht, hstep⟩ := Option.bind_eq_some_iff.mp hrun
  obtain ⟨u, hu, hfacts⟩ := Option.map_eq_some_iff.mp hstep
  obtain ⟨hbefore, hafter⟩ := Prod.mk.inj hfacts
  have hreach : Run (step Deployment.env) (fun _ _ => True) ⟨bothDown, [], [], []⟩ [.deliver annCreated] t :=
    (Transition.run_of_exec ht).mono (fun _ _ _ _ => trivial)
  have hother : subject t (.deliver (bobCreated "e1")) ≠ some annCreated.key := by
    simp only [subject, handles, Option.bind_some]
    decide
  refine ⟨t, u, hreach, hu, hother, hbefore, hafter, ?_⟩
  intro h
  obtain ⟨r, hr, hlogical⟩ := Option.map_eq_some_iff.mp hbefore
  rw [h.queue _ r hr (Prod.mk.inj hlogical).1, Option.map_some, hlogical] at hafter
  revert hafter
  decide

end SyncForge.Desk
