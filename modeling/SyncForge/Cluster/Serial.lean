import SyncForge.Effect.Serial
import SyncForge.Cluster.Claim

/-!
# `Cluster.Serial` — two executions at once, and one after the other

`PersistApplyState` overwrites the whole canonical row with what was made of the row read earlier. Two
executions leave the canonical records of a serial run when one makes no call that conflicts with a call the
other has made: that writes a region which the other touches.
-/

namespace SyncForge.Cluster

open Effect Effect.Prog Store Relational
open Deployment (linked record sfEvent tenant)
open Database (exec)
open Thread (program start)

/-! ## Regions of the world -/

/-- What the answers of `Process` and of its callers depend on, in parts. -/
inductive Region where
  | policies
  | connections
  | runs
  | findings
  | canonical
  | outbound
  | claim (key : EventKey)
  | provider (ep : Endpoint)
deriving DecidableEq

namespace Region

@[reducible] def Val : Region → Type
  | .policies => Table SyncPolicy PolicyKey SyncPolicy.key
  | .connections => List Connection
  | .runs => List ReconciliationRun
  | .findings => List ReconciliationFinding
  | .canonical => Table CanonicalRecord CanonicalKey CanonicalRecord.key
  | .outbound => OutboundKey → Option OutboundWrite
  | .claim _ => Bool
  | .provider _ => SimServer

def get : (ρ : Region) → World → ρ.Val
  | .policies, w => w.db.policies
  | .connections, w => w.db.connections
  | .runs, w => w.db.runs
  | .findings, w => w.db.findings
  | .canonical, w => w.db.canonical
  | .outbound, w => w.db.outbound
  | .claim key, w => w.db.processed key
  | .provider ep, w => w.sims ep

end Region

/-- The regions a call writes. Event status, ledger, conflicts, retry rows and dead letters are no regions: no
    answer to `Process` or to its callers depends on them. -/
def writeSet : Call → List Region
  | .store (.claimProcessedEvent key) | .store (.releaseProcessedEvent key) => [.claim key]
  | .store (.addProviderID _ _ _) | .store (.upsertCanonical _) => [.canonical]
  | .store (.persistApplyState _ _ _) => [.canonical, .outbound]
  | .store (.upsertOutboundWrite _) => [.outbound]
  | .store (.setReconciliationFindingStatus _ _ _ _) | .store (.insertReconciliationFinding _)
  | .store (.setReconciliationFindingDirection _ _ _) => [.findings]
  | .store (.updateReconciliationCounters _ _ _ _ _) | .store (.finishReconciliationRun _ _ _) => [.runs]
  | .create ep _ | .update ep _ _ | .delete ep _ => [.provider ep]
  | _ => []

def readSet : Call → List Region
  | .store (.listPolicies _) => [.policies]
  | .store (.getConnectionByProvider _ _) => [.connections]
  | .store (.getReconciliationRun _ _) => [.runs]
  | .store (.getReconciliationFinding _ _) => [.findings]
  | .store (.getCanonical _) | .store (.getCanonicalByProvider _ _ _ _) |
      .store (.getCanonicalByEmail _ _ _) =>
    [.canonical]
  | .store (.getOutboundWrite _) => [.outbound]
  | _ => []

def touchSet (o : Call) : List Region := writeSet o ++ readSet o

def conflicting (o o' : Call) : Bool :=
  (writeSet o).any (fun ρ => ρ ∈ touchSet o') || (writeSet o').any (fun ρ => ρ ∈ touchSet o)

/-! ## The footprint of a call -/

structure Input where
  store : Except String Nat
  provider : Option ConnectorError
  random : Nat

/-- What is decided about call number `n`. -/
def inputAt (w : World) (n : Nat) : Input := ⟨w.storeTape n, w.providerTape n, w.randomTape n⟩

def given (x : Input) (w : World) : World :=
  { w with storeTape := fun _ => x.store, providerTape := fun _ => x.provider, randomTape := fun _ => x.random }

@[simp] theorem get_given (x : Input) (w : World) (ρ : Region) : ρ.get (given x w) = ρ.get w := by
  cases ρ <;> rfl

variable {env : Env} {w w' : World} {o : Call} {ep : Endpoint} {type : EventType} {xs : List Input}

/-- The calls of `Process` and of its callers. -/
def known (o : Call) : Prop := o.isProcess = true ∨ o.isBookkeeping = true

theorem handle_runs (h : .runs ∉ writeSet o) : (World.handle env o w).2.db.runs = w.db.runs := by
  apply World.handle_frame (fun db => db.runs)
  rintro s now pick rfl
  cases s <;> first | rfl | exact absurd (.head _) h

theorem handle_findings (h : .findings ∉ writeSet o) :
    (World.handle env o w).2.db.findings = w.db.findings := by
  apply World.handle_frame (fun db => db.findings)
  rintro s now pick rfl
  cases s <;> first | rfl | exact absurd (.head _) h

theorem writesCanonical_of_not_mem (h : .canonical ∉ writeSet o) : o.writesCanonical = false := by
  cases o with
  | store s => cases s <;> first | rfl | exact absurd (.head _) h
  | _ => rfl

theorem writesOutbound_of_not_mem (h : .outbound ∉ writeSet o) : o.writesOutbound = false := by
  cases o with
  | store s => cases s <;> first | rfl | exact absurd (by simp [writeSet]) h
  | _ => rfl

theorem writesClaim_of_not_mem {key : EventKey} (h : .claim key ∉ writeSet o) :
    o.writesClaim key = false := by
  cases o with
  | store s =>
    cases s with
    | claimProcessedEvent k => simpa [writeSet, Call.writesClaim, StoreOp.writesClaim, eq_comm] using h
    | releaseProcessedEvent k => simpa [writeSet, Call.writesClaim, StoreOp.writesClaim, eq_comm] using h
    | _ => rfl
  | _ => rfl

theorem endpoint?_ne_of_not_mem (h : .provider ep ∉ writeSet o) : o.endpoint? ≠ some ep := by
  intro hep
  apply h
  cases o with
  | create ep' data => rw [Option.some.inj hep]; exact .head _
  | update ep' id data => rw [Option.some.inj hep]; exact .head _
  | delete ep' id => rw [Option.some.inj hep]; exact .head _
  | _ => cases hep

theorem handle_region {ρ : Region} (h : ρ ∉ writeSet o) : ρ.get (World.handle env o w).2 = ρ.get w := by
  cases ρ with
  | policies => exact World.handle_policies
  | connections => exact World.handle_connections
  | runs => exact handle_runs h
  | findings => exact handle_findings h
  | canonical => exact World.handle_canonical (writesCanonical_of_not_mem h)
  | outbound => exact World.handle_outbound (writesOutbound_of_not_mem h)
  | claim key => exact World.handle_processed (writesClaim_of_not_mem h)
  | provider ep => exact World.handle_sims_at (endpoint?_ne_of_not_mem h)

theorem exec_determined {s : StoreOp} (hs : known (.store s)) (pick : Nat)
    (h : ∀ ρ ∈ touchSet (.store s), ρ.get w = ρ.get w') :
    (exec w.now pick s w.db).1 = (exec w'.now pick s w'.db).1 ∧
      ∀ ρ ∈ writeSet (.store s), ρ.get { w with db := (exec w.now pick s w.db).2 }
        = ρ.get { w' with db := (exec w'.now pick s w'.db).2 } := by
  have hcanonical : .canonical ∈ touchSet (.store s) → w.db.canonical = w'.db.canonical := h .canonical
  have houtbound : .outbound ∈ touchSet (.store s) → w.db.outbound = w'.db.outbound := h .outbound
  have hfindings : .findings ∈ touchSet (.store s) → w.db.findings = w'.db.findings := h .findings
  cases s with
  | claimProcessedEvent k =>
    have hk : w.db.processed k = w'.db.processed k := h (.claim k) (.head _)
    refine ⟨by simp only [exec, hk], fun ρ hρ => ?_⟩
    rw [List.mem_singleton.mp hρ]
    simp only [Region.get, exec, Function.update_self]
  | releaseProcessedEvent k =>
    refine ⟨rfl, fun ρ hρ => ?_⟩
    rw [List.mem_singleton.mp hρ]
    simp only [Region.get, exec, Function.update_self]
  -- reads: the answer is a function of the region
  | listPolicies tenantID =>
    have hpolicies : w.db.policies = w'.db.policies := h .policies (.head _)
    exact ⟨by simp only [exec, Database.policiesOf, hpolicies], fun ρ hρ => by cases hρ⟩
  | getConnectionByProvider tenantID provider =>
    have hconnections : w.db.connections = w'.db.connections := h .connections (.head _)
    exact ⟨by simp only [exec, Database.connectionsOf, hconnections], fun ρ hρ => by cases hρ⟩
  | getReconciliationRun tenantID id =>
    have hruns : w.db.runs = w'.db.runs := h .runs (.head _)
    exact ⟨by simp only [exec, hruns], fun ρ hρ => by cases hρ⟩
  | getReconciliationFinding tenantID id =>
    exact ⟨by simp only [exec, hfindings (.head _)], fun ρ hρ => by cases hρ⟩
  | getCanonical key =>
    exact ⟨by simp only [exec, hcanonical (.head _)], fun ρ hρ => by cases hρ⟩
  | getCanonicalByProvider tenantID entityType provider providerID =>
    exact ⟨by simp only [exec, Database.canonicalsWithProvider, hcanonical (.head _)],
      fun ρ hρ => by cases hρ⟩
  | getCanonicalByEmail tenantID entityType email =>
    exact ⟨by simp only [exec, Database.canonicalsWithEmail, hcanonical (.head _)],
      fun ρ hρ => by cases hρ⟩
  | getOutboundWrite key =>
    exact ⟨by simp only [exec, houtbound (.head _)], fun ρ hρ => by cases hρ⟩
  -- writes: they answer nothing, and what they make of a region is a function of the region
  | addProviderID key provider providerID =>
    refine ⟨rfl, fun ρ hρ => ?_⟩
    rw [List.mem_singleton.mp hρ]
    simp only [Region.get, exec, Database.linkProvider, hcanonical (.head _)]
  | upsertCanonical c =>
    refine ⟨rfl, fun ρ hρ => ?_⟩
    rw [List.mem_singleton.mp hρ]
    simp only [Region.get, exec, hcanonical (.head _)]
  | persistApplyState c outbound ops =>
    refine ⟨rfl, fun ρ hρ => ?_⟩
    rcases List.mem_pair.mp hρ with rfl | rfl
    · simp only [Region.get, exec, Database.applyState, hcanonical (.head _)]
    · simp only [Region.get, exec, Database.applyState,
        houtbound (.tail _ (.head _))]
  | upsertOutboundWrite write =>
    refine ⟨rfl, fun ρ hρ => ?_⟩
    rw [List.mem_singleton.mp hρ]
    simp only [Region.get, exec, houtbound (.head _)]
  | setReconciliationFindingStatus tenantID id status error =>
    refine ⟨rfl, fun ρ hρ => ?_⟩
    rw [List.mem_singleton.mp hρ]
    simp only [Region.get, exec, Database.setFinding, hfindings (.head _)]
  -- the others write no region; where their answer depends on a table that is none, nobody here calls them
  | _ => first | (rcases hs with hs | hs <;> cases hs <;> done) | exact ⟨rfl, fun ρ hρ => by cases hρ⟩

theorem requested_determined {ρ : Type} {m : Mutation} {answer : SimRecord → ρ}
    (x : Input) (r : SimServer → Option (SimRecord × SimServer)) (hsims : w.sims ep = w'.sims ep) :
    ((given x w).requested env ep m type answer (r (w.sims ep))).1
        = ((given x w').requested env ep m type answer (r (w'.sims ep))).1 ∧
      ∀ ρ ∈ [Region.provider ep], ρ.get ((given x w).requested env ep m type answer (r (w.sims ep))).2
        = ρ.get ((given x w').requested env ep m type answer (r (w'.sims ep))).2 := by
  rw [← hsims]
  refine ⟨?_, fun ρ hρ => ?_⟩
  · simp only [World.requested, given]
    cases x.provider with
    | some e => rfl
    | none => cases r (w.sims ep) <;> rfl
  · rw [List.mem_singleton.mp hρ]
    simp only [World.requested, given]
    cases x.provider with
    | some e => exact hsims
    | none =>
      cases r (w.sims ep) with
      | none => exact hsims
      | some y =>
        show Function.update w.sims ep y.2 ep = Function.update w'.sims ep y.2 ep
        rw [Function.update_self, Function.update_self]

theorem handle_determined (x : Input) (ho : known o) (h : ∀ ρ ∈ touchSet o, ρ.get w = ρ.get w') :
    (World.handle env o (given x w)).1 = (World.handle env o (given x w')).1 ∧
      ∀ ρ ∈ writeSet o, ρ.get (World.handle env o (given x w)).2
      = ρ.get (World.handle env o (given x w')).2 := by
  cases o with
  | store s =>
    obtain ⟨store, provider, random⟩ := x
    cases store with
    | error text =>
      -- a failed statement writes nothing, so the regions it would have written stay alike
      refine ⟨rfl, fun ρ hρ => ?_⟩
      have hρ' := h ρ (List.mem_append_left _ hρ)
      cases ρ <;> exact hρ'
    | ok pick =>
      obtain ⟨hanswer, hwrites⟩ := @exec_determined w w' s ho pick h
      refine ⟨hanswer, fun ρ hρ => ?_⟩
      have hρ' := hwrites ρ hρ
      cases ρ <;> exact hρ'
  | random => exact ⟨rfl, fun ρ hρ => by cases hρ⟩
  | list ep cursor limit => rcases ho with ho | ho <;> cases ho
  | health ep => rcases ho with ho | ho <;> cases ho
  | publish key value => rcases ho with ho | ho <;> cases ho
  | timeNow => rcases ho with ho | ho <;> cases ho
  | create ep data =>
    exact requested_determined x (fun s => some (s.insert data)) (h (.provider ep) (.head _))
  | update ep id data =>
    exact requested_determined x (fun s => s.update id data) (h (.provider ep) (.head _))
  | delete ep id =>
    exact requested_determined x (fun s => s.softDelete id) (h (.provider ep) (.head _))

def footprint (env : Env) : Footprint sig GoError World Input where
  handle x o w := World.handle env o (given x w)
  Region := Region
  Val := Region.Val
  get := Region.get
  known := known
  touches o ρ := ρ ∈ touchSet o
  writes o ρ := ρ ∈ writeSet o
  touches_of_writes _ _ h := List.mem_append_left _ h
  frame x _ w ρ _ h := (handle_region h).trans (get_given x w ρ)
  determined x _ _ _ ho h := handle_determined x ho h

theorem independent_of_not_conflicting {o' : Call} (h : conflicting o o' = false) :
    (footprint env).Independent o o' := by
  simp only [conflicting, Bool.or_eq_false_iff, List.any_eq_false, decide_eq_true_eq] at h
  exact fun ρ => ⟨h.1 ρ, h.2 ρ⟩

theorem requested_given {ρ : Type} {m : Mutation} {answer : SimRecord → ρ}
    (r : Option (SimRecord × SimServer)) : (given (inputAt w w.calls) w).requested env ep m type answer r
      = ((w.requested env ep m type answer r).1, given (inputAt w w.calls) (w.requested env ep m type answer r).2) := by
  simp only [World.requested, given, inputAt]
  cases w.providerTape w.calls with
  | some e => rfl
  | none => cases r <;> rfl

theorem handle_given : World.handle env o (given (inputAt w w.calls) w)
    = ((World.handle env o w).1, given (inputAt w w.calls) (World.handle env o w).2) := by
  cases o with
  | store s =>
    simp only [World.handle, given, inputAt]
    cases w.storeTape w.calls <;> rfl
  | random => rfl
  | list ep cursor limit =>
    simp only [World.handle, given, inputAt]
    cases w.providerTape w.calls <;> rfl
  | health ep =>
    simp only [World.handle, given, inputAt]
    cases w.providerTape w.calls <;> rfl
  | publish key value =>
    simp only [World.handle, given, inputAt]
    cases w.busTape w.calls <;> rfl
  | timeNow => rfl
  | create ep data => exact requested_given _
  | update ep id data => exact requested_given _
  | delete ep id => exact requested_given _

theorem reads_tapes : Footprint.Reads (footprint env) (World.handle env) (fun w => inputAt w w.calls) where
  handle o w _ := by
    show (World.handle env o w).1 = (World.handle env o (given (inputAt w w.calls) w)).1 ∧
      ∀ ρ : Region, ρ.get (World.handle env o w).2 = ρ.get (World.handle env o (given (inputAt w w.calls) w)).2
    rw [handle_given]
    exact ⟨rfl, fun ρ => (get_given _ _ ρ).symm⟩

/-! ## The tapes -/

theorem inputAt_handle (n : Nat) : inputAt (World.handle env o w).2 n = inputAt w n := by
  obtain ⟨_, hstore, hprovider, hrandom⟩ := @World.handle_tapes env w o
  simp only [inputAt, hstore, hprovider, hrandom]

def retaped (w : World) (f : Nat → Input) : World :=
  { w with
    storeTape := fun n => (f n).store
    providerTape := fun n => (f n).provider
    randomTape := fun n => (f n).random }

theorem retaped_self : retaped w (inputAt w) = w := rfl

/-- The inputs `xs` from the next call on. -/
def tapeOf (w : World) (xs : List Input) (n : Nat) : Input :=
  if w.calls ≤ n then (xs[n - w.calls]?).getD (inputAt w n) else inputAt w n

theorem follows_of_tape (h : ∀ i x, xs[i]? = some x → inputAt w (w.calls + i) = x) :
    Footprint.Follows (World.handle env) (fun w => inputAt w w.calls) xs w := by
  induction xs generalizing w with
  | nil => exact trivial
  | cons x xs ih =>
    refine ⟨h 0 x rfl, fun o => ih (fun i y hi => ?_)⟩
    rw [inputAt_handle, World.handle_tapes.1, Nat.add_assoc, Nat.add_comm 1 i]
    exact h (i + 1) y (by simpa using hi)

theorem follows_retaped (w : World) (xs : List Input) :
    Footprint.Follows (World.handle env) (fun w => inputAt w w.calls) xs (retaped w (tapeOf w xs)) := by
  apply follows_of_tape
  intro i x hi
  show tapeOf w xs (w.calls + i) = x
  simp [tapeOf, hi]

theorem retaped_uniform (huniform : ∀ m n, inputAt w m = inputAt w n)
    (hxs : ∀ x ∈ xs, ∃ n, x = inputAt w n) : retaped w (tapeOf w xs) = w := by
  have hsame : tapeOf w xs = inputAt w := by
    funext n
    unfold tapeOf
    split
    · cases hx : xs[n - w.calls]? with
      | none => rfl
      | some x =>
        obtain ⟨m, hm⟩ := hxs x (List.mem_of_getElem? hx)
        rw [Option.getD_some, hm]
        exact huniform m n
    · rfl
  rw [hsame, retaped_self]

/-! ## Two executions -/

def pair (env : Env) (w : World) (tasks : Fin 2 → Task) : Config where
  world := w
  threads := [start env (tasks 0), start env (tasks 1)]

def isTurn : Label → Bool
  | .fire _ | .tick _ => true
  | _ => false

/-- When execution `i` is about to make a call, the call conflicts with none that the other one has made. -/
def inOrder (i : Fin 2) (c : Config) : Label → Bool
  | .fire k =>
    if k = i.val then
      match c.threads[i.val]?.bind Thread.nextCall, c.threads[(i + 1).val]? with
      | some o, some u => u.log.all (fun e => !conflicting o e.op)
      | _, _ => true
    else true
  | _ => true

def alone (env : Env) (task : Task) (w : World) : Except GoError Unit × World :=
  Prog.run (World.handle env) ((start env task).program env) w

def returned (env : Env) (t : Thread) : Option (Except GoError Unit) :=
  match t.program env with
  | .pure a => some (.ok a)
  | .throw e => some (.error e)
  | .call _ _ => none

theorem returned_ofExcept {t : Thread} {r : Except GoError Unit} (h : t.program env = ofExcept r) :
    returned env t = some r := by
  unfold returned
  rw [h]
  cases r <;> rfl

/-- An execution makes no other calls than `Process` and its callers. -/
theorem start_known (task : Task) : Only known ((start env task).program env) := by
  have hbook : ∀ {p : Sync Unit}, OnlyBookkeeping p → Only known p :=
    fun hp => only_mono hp (fun _ ho => .inr ho)
  cases hev : task.bytes.unmarshal with
  | ok ev =>
    have hevent : task.event? = some ev := by
      simp only [Task.event?, hev]
      rfl
    rw [Thread.program_start hevent]
    refine only_bind (only_attempt (only_mono process_only (fun _ ho => .inl ho))) (fun r => ?_)
    exact hbook (finish_only task ev r)
  | error e =>
    simp only [program, start, hev]
    exact hbook (reject_only task e)

/-- The two executions under way, `i` before the other in the serial order. -/
structure Paired (env : Env) (w : World) (tasks : Fin 2 → Task) (i : Fin 2) (c : Config) (t u : Thread)
    (xs ys : List Input) : Prop where
  length : c.threads.length = 2
  first : c.threads[i.val]? = some t
  second : c.threads[(i + 1).val]? = some u
  tapes : ∀ n, inputAt c.world n = inputAt w n
  inputs : ∀ x ∈ xs ++ ys, ∃ n, x = inputAt w n
  serialized : Footprint.Serialized (footprint env) ((start env (tasks i)).program env)
    ((start env (tasks (i + 1))).program env) w xs ys (u.log.map Entry.op) (t.program env)
      (u.program env) c.world

variable {tasks : Fin 2 → Task} {i : Fin 2} {c c' : Config} {t u : Thread} {xs ys : List Input}

theorem paired_start (env : Env) (w : World) (tasks : Fin 2 → Task) (i : Fin 2) :
    ∃ t u, Paired env w tasks i (pair env w tasks) t u [] [] := by
  have hthread : ∀ k : Fin 2, (pair env w tasks).threads[k.val]? = some (start env (tasks k)) := by
    intro k
    match k with
    | 0 => rfl
    | 1 => rfl
  refine ⟨_, _, rfl, hthread i, hthread (i + 1), fun _ => rfl, ?_, Footprint.Serialized.start _ _ _⟩
  intro x hx
  cases hx

theorem other_ne (i : Fin 2) : i.val ≠ (i + 1).val := by
  match i with
  | 0 => decide
  | 1 => decide

section

variable (h : Paired env w tasks i c t u xs ys)
include h

theorem Paired.tick (d : Nat) : Paired env w tasks i
    { c with world := { c.world with now := c.world.now + d } } t u xs ys :=
  ⟨h.length, h.first, h.second, h.tapes, h.inputs, h.serialized.congr (fun ρ => by cases ρ <;> rfl)⟩

/-- When the first execution is about to call `o`, the call is independent of all that the other one has
    made. -/
theorem Paired.independent (hord : inOrder i c (.fire i.val) = true)
    (hnext : t.nextCall = some o) : ∀ o' ∈ u.log.map Entry.op, (footprint env).Independent o o' := by
  intro o' ho'
  obtain ⟨e, he, rfl⟩ := List.mem_map.mp ho'
  simp only [inOrder, if_true, h.first, h.second, Option.bind_some, hnext, List.all_eq_true,
    Bool.not_eq_true'] at hord
  exact independent_of_not_conflicting (hord e he)

theorem Paired.fire_first {t' : Thread} (hf : Fire env t c.world t' w')
    (hord : inOrder i c (.fire i.val) = true) :
    ∃ xs', Paired env w tasks i { c with threads := c.threads.set i.val t', world := w' } t' u xs' ys := by
  have hlt : i.val < c.threads.length := (List.getElem?_eq_some_iff.mp h.first).1
  have hlength : (c.threads.set i.val t').length = 2 := by rw [List.length_set]; exact h.length
  have hfirst : (c.threads.set i.val t')[i.val]? = some t' := List.getElem?_set_self hlt
  have hsecond : (c.threads.set i.val t')[(i + 1).val]? = some u := by
    rw [List.getElem?_set_ne (other_ne i)]
    exact h.second
  obtain ⟨_, ⟨hp, rfl, _⟩ | ⟨o, k, hnext, hp, hp', rfl, _⟩⟩ := hf.program
  · -- the thread only moved on to its next stage
    refine ⟨xs, hlength, hfirst, hsecond, h.tapes, h.inputs, ?_⟩
    rw [hp]
    exact h.serialized
  · refine ⟨xs ++ [inputAt c.world c.world.calls], hlength, hfirst, hsecond, ?_, ?_, ?_⟩
    · exact fun n => (inputAt_handle n).trans (h.tapes n)
    · intro x hx
      rw [List.append_assoc, List.mem_append, List.mem_append, List.mem_singleton] at hx
      rcases hx with hx | rfl | hx
      · exact h.inputs x (List.mem_append_left _ hx)
      · exact ⟨_, h.tapes _⟩
      · exact h.inputs x (List.mem_append_right _ hx)
    · have hser := h.serialized
      rw [hp] at hser
      rw [hp']
      exact hser.turn_left reads_tapes (start_known _) (start_known _) (h.independent hord hnext)

theorem Paired.fire_second {u' : Thread} (hf : Fire env u c.world u' w') :
    ∃ ys', Paired env w tasks i { c with threads := c.threads.set (i + 1).val u', world := w' } t u' xs ys' := by
  have hlt : (i + 1).val < c.threads.length := (List.getElem?_eq_some_iff.mp h.second).1
  have hlength : (c.threads.set (i + 1).val u').length = 2 := by rw [List.length_set]; exact h.length
  have hsecond : (c.threads.set (i + 1).val u')[(i + 1).val]? = some u' := List.getElem?_set_self hlt
  have hfirst : (c.threads.set (i + 1).val u')[i.val]? = some t := by
    rw [List.getElem?_set_ne (other_ne i).symm]
    exact h.first
  obtain ⟨_, ⟨hp, rfl, hlog⟩ | ⟨o, k, _, hp, hp', rfl, hlog⟩⟩ := hf.program
  · refine ⟨ys, hlength, hfirst, hsecond, h.tapes, h.inputs, ?_⟩
    rw [hp, hlog]
    exact h.serialized
  · refine ⟨ys ++ [inputAt c.world c.world.calls], hlength, hfirst, hsecond, ?_, ?_, ?_⟩
    · exact fun n => (inputAt_handle n).trans (h.tapes n)
    · intro x hx
      rw [← List.append_assoc, List.mem_append, List.mem_singleton] at hx
      rcases hx with hx | rfl
      · exact h.inputs x hx
      · exact ⟨_, h.tapes _⟩
    · have hser := h.serialized
      rw [hp] at hser
      rw [hp', hlog, List.map_append]
      exact hser.turn_right reads_tapes (start_known _)

/-- **Step lemma**: each step of the cluster is matched by one of the run in sequence. -/
theorem paired_step {l : Label} (hl : isTurn l = true)
    (hord : inOrder i c l = true) (hs : Step env c l c') :
    ∃ t' u' xs' ys', Paired env w tasks i c' t' u' xs' ys' := by
  cases hs with
  | tick d => exact ⟨t, u, xs, ys, h.tick d⟩
  | @fire k v v' w' hk hf =>
    have hlt : k < 2 := by
      rw [← h.length]
      exact (List.getElem?_eq_some_iff.mp hk).1
    -- there are two threads: the one that comes first, and the other
    have hcases : k = i.val ∨ k = (i + 1).val := by
      match i with
      | 0 => show k = 0 ∨ k = 1; omega
      | 1 => show k = 1 ∨ k = 0; omega
    rcases hcases with rfl | rfl
    · rw [h.first] at hk
      cases hk
      obtain ⟨xs', h'⟩ := h.fire_first hf hord
      exact ⟨v', u, xs', ys, h'⟩
    · rw [h.second] at hk
      cases hk
      obtain ⟨ys', h'⟩ := h.fire_second hf
      exact ⟨t, v', xs, ys', h'⟩
  | _ => cases hl

end

theorem program_done (h : t.Done) : ∃ r, t.program env = ofExcept r := by
  unfold Thread.Done at h
  split at h
  · rename_i a hstage
    exact ⟨.ok a, by simp only [program, hstage]; rfl⟩
  · rename_i e hstage
    exact ⟨.error e, by simp only [program, hstage]; rfl⟩
  · cases h

/-- **Canonical updates are serializable as long as conflicting calls come in one order.** Two executions take
    turns, one call at a time, and any of their calls may fail. If execution `i` never makes a call that
    conflicts with one the other has already made, then the canonical records in the end are those of running
    `i` alone and then the other, from a world that differs at most in what it decides about its calls (and is
    the very same if that is the same for all calls, so that none fails), and each execution returns what it
    returned. -/
theorem canonical_serializable
    (hreach : Reach env (fun c l => isTurn l = true ∧ inOrder i c l = true) (pair env w tasks) c)
    (hdone : ∀ t ∈ c.threads, t.Done) : ∃ f :
      Nat → Input, ((∀ m n, inputAt w m = inputAt w n) → retaped w f = w) ∧
      (let first := alone env (tasks i) (retaped w f)
       let second := alone env (tasks (i + 1)) first.2
       c.world.db.canonical = second.2.db.canonical ∧ c.threads[i.val]?.bind (returned env) = some first.1 ∧
         c.threads[(i + 1).val]?.bind (returned env) = some second.1) := by
  have hpaired : ∃ t u xs ys, Paired env w tasks i c t u xs ys := by
    clear hdone
    induction hreach with
    | refl =>
      obtain ⟨t, u, h⟩ := paired_start env w tasks i
      exact ⟨t, u, [], [], h⟩
    | tail l _ hl hstep ih =>
      obtain ⟨t, u, xs, ys, h⟩ := ih
      exact paired_step h hl.1 hl.2 (step_inv hstep)
  obtain ⟨t, u, xs, ys, h⟩ := hpaired
  obtain ⟨r, hr⟩ := @program_done env t (hdone t (List.mem_of_getElem? h.first))
  obtain ⟨r', hr'⟩ := @program_done env u (hdone u (List.mem_of_getElem? h.second))
  -- the serial run is made on tapes that hold the inputs the two executions got, the first one's first
  have hser := h.serialized
  rw [hr, hr'] at hser
  have halike : (footprint env).Alike (retaped w (tapeOf w (xs ++ ys))) w := fun ρ => by cases ρ <;> rfl
  obtain ⟨hfirst, hsecond, hfinal⟩ :=
    hser.run reads_tapes (start_known _) (start_known _) halike (follows_retaped w _)
  refine ⟨tapeOf w (xs ++ ys), fun huniform => retaped_uniform huniform h.inputs, (hfinal .canonical).symm,
    ?_, ?_⟩
  · rw [h.first, Option.bind_some, returned_ofExcept hr]
    exact congrArg some hfirst.symm
  · rw [h.second, Option.bind_some, returned_ofExcept hr']
    exact congrArg some hsecond.symm

/-! ### Concrete runs -/

def annRenamed : Event :=
  sfEvent "e2" .updated 2 2 (record salesforce "Anna" "Lee" "ann@x")

def annMarried : Event where
  eventID := "e3"
  tenantID := tenant
  source := "hubspot"
  entityType := "contact"
  entityID := "hub-1"
  eventType := .updated
  sourceVersion := 2
  occurredAt := 3
  fields := some (record hubspot "Ann" "Li" "ann@x")

def edits : Fin 2 → Task
  | 0 => .handle (.event annRenamed)
  | 1 => .handle (.event annMarried)

/-- The first worker makes `m` calls, the second `n`; then the first ends, and the second. -/
def schedule (m n : Nat) : List Label :=
  List.replicate m (.fire 0) ++ List.replicate n (.fire 1) ++ List.replicate (11 - m) (.fire 0)
    ++ List.replicate (12 - n) (.fire 1)

theorem isTurn_schedule (m n : Nat) : ∀ l ∈ schedule m n, isTurn l = true := by
  intro l hl
  simp only [schedule, List.mem_append, List.mem_replicate] at hl
  rcases hl with ((⟨_, rfl⟩ | ⟨_, rfl⟩) | ⟨_, rfl⟩) | ⟨_, rfl⟩ <;> rfl

def versions (w : World) : List (Int × Int) :=
  w.db.canonical.rows.map (fun r => (r.version, r.sourceVersions "salesforce"))

theorem canonical_serializable_edits : ∃ c, Reach Deployment.env (fun c l => isTurn l = true ∧
    inOrder 0 c l = true)
        (pair Deployment.env (linked false) edits) c ∧ (∀ t ∈ c.threads, t.Done) ∧ versions c.world = [(3, 2)] ∧
      ∃ f : Nat → Input, retaped (linked false) f = linked false ∧ c.world.db.canonical = (alone Deployment.env (edits 1)
          (alone Deployment.env (edits 0) (retaped (linked false) f)).2).2.db.canonical := by
  have hrun : (checkedRun Deployment.env (inOrder 0) (schedule 4 4)
      (pair Deployment.env (linked false) edits)).map
      (fun c => (c.threads.all (fun t => t.Done), versions c.world)) = some (true, [(3, 2)]) := by
    decide +kernel
  obtain ⟨c, hc, hfacts⟩ := Option.map_eq_some_iff.mp hrun
  simp only [Prod.mk.injEq, List.all_eq_true, decide_eq_true_eq] at hfacts
  obtain ⟨hdone, hversions⟩ := hfacts
  have hreach := reach_of_checkedRun (isTurn_schedule 4 4) hc
  obtain ⟨f, hf, hcanonical, _⟩ := canonical_serializable hreach hdone
  exact ⟨c, hreach, hdone, hversions, f, hf (fun _ _ => rfl), hcanonical⟩

/-- **A lost update.** Both workers read the row at version 1 before either writes it. Both return `nil`, and
    the row ends at version 2 with Salesforce's old version, while either order of the two edits gives version
    3. -/
theorem update_lost : ∃ c, Reach Deployment.env (fun _ l => isTurn l = true)
        (pair Deployment.env (linked false) edits) c ∧
      (∀ t ∈ c.threads, t.Done ∧ (returned Deployment.env t).any Except.isOk = true) ∧
      versions c.world = [(2, 1)] ∧ ∀ i : Fin 2, c.world.db.canonical ≠ (alone Deployment.env (edits (i + 1))
        (alone Deployment.env (edits i) (linked false)).2).2.db.canonical := by
  have hrun : (checkedRun Deployment.env (fun _ _ => true) (schedule 5 5)
      (pair Deployment.env (linked false) edits)).map
      (fun c => (c.threads.all (fun t => t.Done ∧ (returned Deployment.env t).any Except.isOk = true),
        versions c.world)) = some (true, [(2, 1)]) := by
    decide +kernel
  have hserial : ∀ i : Fin 2, versions (alone Deployment.env (edits (i + 1))
      (alone Deployment.env (edits i) (linked false)).2).2 = [(3, 2)] := by
    decide +kernel
  obtain ⟨c, hc, hfacts⟩ := Option.map_eq_some_iff.mp hrun
  simp only [Prod.mk.injEq, List.all_eq_true, decide_eq_true_eq] at hfacts
  obtain ⟨hdone, hversions⟩ := hfacts
  have hreach := reach_of_checkedRun (isTurn_schedule 5 5) hc
  refine ⟨c, hreach.mono (fun _ _ h => h.1), hdone, hversions, fun i heq => ?_⟩
  have hsame := hserial i
  unfold versions at hsame hversions
  rw [← heq, hversions] at hsame
  revert hsame
  decide

end SyncForge.Cluster
