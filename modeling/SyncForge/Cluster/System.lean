import SyncForge.Effect.Monitor
import SyncForge.Retry.Engine
import SyncForge.Store.Frame
import Mathlib.Order.Defs.LinearOrder

/-!
# `Cluster.System` — many workers and retry engines on one world

Any number of bus workers run `Handle`, any number of retry engines run `drain`, and other components may call
`Process` directly: each is a thread, and they take turns call by call. An engine starts the next row of its
batch when the previous one has ended. `program` is what is left of a thread.
-/

namespace SyncForge.Cluster

open Effect
open Effect.Prog (attempt)

/-! ## Threads -/

inductive Task where
  | handle (value : Bytes)
  | invoke (ev : Event)
  | retry (r : RetryEntry)

namespace Task

def bytes : Task → Bytes
  | .handle value => value
  | .invoke ev => .marshal ev
  | .retry r => r.state

def event? (task : Task) : Option Event := task.bytes.unmarshal.toOption

theorem unmarshal_of_event? {task : Task} {ev : Event} (h : task.event? = some ev) :
    task.bytes.unmarshal = .ok ev := by
  unfold event? at h
  cases hb : task.bytes.unmarshal with
  | ok e => rw [hb] at h; cases h; rfl
  | error e => rw [hb] at h; cases h

/-- What the caller of `Process` does with its result. -/
def finish (env : Env) (task : Task) (ev : Event) : Except GoError Outcome → Sync Unit
  | .ok _ =>
    match task with
    | .retry r => Retry.settle r
    | _ => pure ()
  | .error e =>
    match task with
    | .handle _ => dispatchFailure env ev e
    | .invoke _ => .throw e
    | .retry r => Retry.reschedule env r e

def reject (task : Task) (e : GoError) : Sync Unit :=
  match task with
  | .retry r => do
    Retry.deadLetter r "corrupt retry state" ErrorKind.schema.string
    Retry.discard r
  | _ => .throw e

end Task

/-- Inside `Process`, or after it with its result (`none`: there was no event to process). -/
inductive Stage where
  | processing (ev : Event) (p : Sync Outcome)
  | finishing (result : Option (Event × Except GoError Outcome)) (p : Sync Unit)

structure Thread where
  task : Task
  stage : Stage
  log : List (Entry sig GoError) := []

namespace Thread

def start (env : Env) (task : Task) : Thread where
  task := task
  stage :=
    match task.bytes.unmarshal with
    | .ok ev => .processing ev (process env ev)
    | .error e => .finishing none (task.reject e)

def program (env : Env) (t : Thread) : Sync Unit :=
  match t.stage with
  | .processing ev p => do
    let r ← attempt p
    t.task.finish env ev r
  | .finishing _ p => p

/-- A fresh thread of an event: `Process`, and then its caller. -/
theorem program_start {env : Env} {task : Task} {ev : Event} (hev : task.event? = some ev) :
    (start env task).program env = attempt (process env ev) >>= task.finish env ev := by
  simp only [program, start, Task.unmarshal_of_event? hev]

theorem program_handle (env : Env) (value : Bytes) :
    (start env (.handle value)).program env = handle env value := by
  cases value with
  | event ev =>
    show (attempt (process env ev) >>= Task.finish env (.handle (.event ev)) ev) = _
    unfold handle
    simp only [Bytes.unmarshal, Prog.ofExcept, Prog.pure_bind]
    rfl
  | garbage text => rfl

theorem program_processRetry (env : Env) (r : RetryEntry) :
    (start env (.retry r)).program env = Retry.processRetry env r := by
  obtain ⟨tenantID, eventID, attempt, maxAttempts, nextAttemptAt, lastError, errorClass, state⟩ := r
  cases state with
  | event ev => rfl
  | garbage text => rfl

/-- The thread's `Process` has returned this. -/
def result (t : Thread) : Option (Except GoError Outcome) :=
  match t.stage with
  | .processing _ _ => none
  | .finishing res _ => res.map Prod.snd

def Done (t : Thread) : Prop :=
  match t.stage with
  | .finishing _ (.pure _) => True
  | .finishing _ (.throw _) => True
  | _ => False

instance (t : Thread) : Decidable t.Done := by
  unfold Done
  split <;> infer_instance

def nextCall (t : Thread) : Option Call :=
  match t.stage with
  | .processing _ (.call o _) => some o
  | .finishing _ (.call o _) => some o
  | _ => none

/-- One step: the next call, or the turn from `Process` to its caller. -/
def fire (env : Env) (t : Thread) (w : World) : Option (Thread × World) :=
  match t.stage with
  | .processing ev (.call o k) =>
    let r := World.handle env o w
    some (⟨t.task, .processing ev (k r.1), t.log ++ [⟨o, r.1⟩]⟩, r.2)
  | .processing ev (.pure a) =>
    some (⟨t.task, .finishing (some (ev, .ok a)) (t.task.finish env ev (.ok a)), t.log⟩, w)
  | .processing ev (.throw e) =>
    some (⟨t.task, .finishing (some (ev, .error e)) (t.task.finish env ev (.error e)), t.log⟩, w)
  | .finishing res (.call o k) =>
    let r := World.handle env o w
    some (⟨t.task, .finishing res (k r.1), t.log ++ [⟨o, r.1⟩]⟩, r.2)
  | .finishing _ (.pure _) => none
  | .finishing _ (.throw _) => none

end Thread

/-! ## The cluster -/

structure Engine where
  batch : List RetryEntry := []
  running : Option Nat := none

structure Config where
  world : World
  threads : List Thread := []
  engines : List Engine := []

inductive Label where
  | deliver (value : Bytes)
  | invoke (ev : Event)
  | startEngine
  | poll (engine : Nat) (batchSize : Int)
  | next (engine : Nat)
  | fire (thread : Nat)
  | tick (d : Nat)

def Config.idle (c : Config) (e : Engine) : Prop :=
  match e.running with
  | none => True
  | some i => ∀ t, c.threads[i]? = some t → t.Done

instance (c : Config) (e : Engine) : Decidable (c.idle e) := by
  unfold Config.idle
  split
  · infer_instance
  · rename_i i _
    cases h : c.threads[i]? with
    | none => exact isTrue (by simp)
    | some t => exact decidable_of_iff t.Done (by simp)

/-- One step of the cluster; `none` when the label is not enabled. -/
def step (env : Env) (l : Label) (c : Config) : Option Config :=
  match l with
  | .deliver value => some { c with threads := c.threads ++ [Thread.start env (.handle value)] }
  | .invoke ev => some { c with threads := c.threads ++ [Thread.start env (.invoke ev)] }
  | .startEngine => some { c with engines := c.engines ++ [{}] }
  | .poll j batchSize =>
    match c.engines[j]? with
    | none => none
    | some e =>
      if c.idle e ∧ e.batch = [] then
        let r := World.handle env (.store (.claimDueRetries batchSize)) c.world
        match r.1 with
        | .error _ => some { c with world := r.2 }
        | .ok due => some { c with world := r.2, engines := c.engines.set j ⟨due, none⟩ }
      else none
  | .next j =>
    match c.engines[j]? with
    | none => none
    | some e =>
      match e.batch with
      | [] => none
      | r :: rest =>
        if c.idle e then
          some { c with
            threads := c.threads ++ [Thread.start env (.retry r)]
            engines := c.engines.set j ⟨rest, some c.threads.length⟩ }
        else none
  | .fire i =>
    match c.threads[i]? with
    | none => none
    | some t => (t.fire env c.world).map (fun r => { c with threads := c.threads.set i r.1, world := r.2 })
  | .tick d => some { c with world := { c.world with now := c.world.now + d } }

/-! ## What a step does -/

inductive Fire (env : Env) (t : Thread) (w : World) : Thread → World → Prop
  | processCall {ev : Event} {o : Call} {k : Except GoError (sig.Res o) → Sync Outcome}
      (hstage : t.stage = .processing ev (.call o k)) :
      Fire env t w
        ⟨t.task, .processing ev (k (World.handle env o w).1), t.log ++ [⟨o, (World.handle env o w).1⟩]⟩
        (World.handle env o w).2
  | processReturn {ev : Event} {r : Except GoError Outcome}
      (hstage : t.stage = .processing ev (Prog.ofExcept r)) :
      Fire env t w ⟨t.task, .finishing (some (ev, r)) (t.task.finish env ev r), t.log⟩ w
  | finishCall {res : Option (Event × Except GoError Outcome)} {o : Call}
      {k : Except GoError (sig.Res o) → Sync Unit} (hstage : t.stage = .finishing res (.call o k)) :
      Fire env t w
        ⟨t.task, .finishing res (k (World.handle env o w).1), t.log ++ [⟨o, (World.handle env o w).1⟩]⟩
        (World.handle env o w).2

variable {env : Env} {t t' : Thread} {l : Label} {c c' : Config} {i : Nat}

theorem Thread.fire_inv {w w' : World} (h : t.fire env w = some (t', w')) : Fire env t w t' w' := by
  unfold Thread.fire at h
  split at h
  · rename_i ev o k hstage
    cases h
    exact .processCall hstage
  · rename_i ev a hstage
    cases h
    exact .processReturn (r := .ok a) hstage
  · rename_i ev e hstage
    cases h
    exact .processReturn (r := .error e) hstage
  · rename_i res o k hstage
    cases h
    exact .finishCall hstage
  · cases h
  · cases h

theorem Fire.program {w w' : World} (hf : Fire env t w t' w') : t'.task = t.task ∧
      ((t'.program env = t.program env ∧ w' = w ∧ t'.log = t.log) ∨
        ∃ o k, t.nextCall = some o ∧ t.program env = .call o k ∧ t'.program env = k (World.handle env o w).1 ∧
          w' = (World.handle env o w).2 ∧ t'.log = t.log ++ [⟨o, (World.handle env o w).1⟩]) := by
  cases hf with
  | @processCall ev o k hstage =>
    refine ⟨rfl, .inr ⟨o, fun r => attempt (k r) >>= t.task.finish env ev, ?_, ?_, rfl, rfl, rfl⟩⟩
    · simp only [Thread.nextCall, hstage]
    · simp only [Thread.program, hstage]
      rfl
  | @processReturn ev r hstage =>
    refine ⟨rfl, .inl ⟨?_, rfl, rfl⟩⟩
    simp only [Thread.program, hstage]
    cases r <;> rfl
  | @finishCall res o k hstage =>
    refine ⟨rfl, .inr ⟨o, k, ?_, ?_, rfl, rfl, rfl⟩⟩
    · simp only [Thread.nextCall, hstage]
    · simp only [Thread.program, hstage]

inductive Step (env : Env) (c : Config) : Label → Config → Prop
  | deliver (value : Bytes) :
      Step env c (.deliver value) { c with threads := c.threads ++ [Thread.start env (.handle value)] }
  | invoke (ev : Event) :
      Step env c (.invoke ev) { c with threads := c.threads ++ [Thread.start env (.invoke ev)] }
  | startEngine : Step env c .startEngine { c with engines := c.engines ++ [{}] }
  | pollFailed {j : Nat} {n : Int} :
      Step env c (.poll j n)
        { c with world := (World.handle env (.store (.claimDueRetries n)) c.world).2 }
  | poll {j : Nat} {n : Int} {due : List RetryEntry}
      (hdue : (World.handle env (.store (.claimDueRetries n)) c.world).1 = .ok due) :
      Step env c (.poll j n)
        { c with
          world := (World.handle env (.store (.claimDueRetries n)) c.world).2
          engines := c.engines.set j ⟨due, none⟩ }
  | next {j : Nat} {e : Engine} {r : RetryEntry} {rest : List RetryEntry} (he : c.engines[j]? = some e)
      (hbatch : e.batch = r :: rest) :
      Step env c (.next j)
        { c with
          threads := c.threads ++ [Thread.start env (.retry r)]
          engines := c.engines.set j ⟨rest, some c.threads.length⟩ }
  | fire {i : Nat} {t t' : Thread} {w' : World} (hi : c.threads[i]? = some t)
      (hfire : Fire env t c.world t' w') :
      Step env c (.fire i) { c with threads := c.threads.set i t', world := w' }
  | tick (d : Nat) : Step env c (.tick d) { c with world := { c.world with now := c.world.now + d } }

theorem step_inv (h : step env l c = some c') : Step env c l c' := by
  cases l with
  | deliver value => cases h; exact .deliver value
  | invoke ev => cases h; exact .invoke ev
  | startEngine => cases h; exact .startEngine
  | poll j n =>
    simp only [step] at h
    split at h
    · cases h
    · split at h
      · split at h
        · cases h; exact .pollFailed
        · rename_i due hdue
          cases h; exact .poll hdue
      · cases h
  | next j =>
    simp only [step] at h
    split at h
    · cases h
    · rename_i e he
      split at h
      · cases h
      · rename_i r rest hbatch
        split at h
        · cases h; exact .next he hbatch
        · cases h
  | fire i =>
    simp only [step] at h
    split at h
    · cases h
    · rename_i t hi
      obtain ⟨⟨t', w'⟩, hfire, rfl⟩ := Option.map_eq_some_iff.mp h
      exact .fire hi (Thread.fire_inv hfire)
  | tick d => cases h; exact .tick d

theorem thread_set {threads : List Thread} {j : Nat} {u : Thread} (h : (threads.set i t)[j]? = some u) :
    (j = i ∧ u = t) ∨ (j ≠ i ∧ threads[j]? = some u) := by
  by_cases hij : j = i
  · subst hij
    have hlt : j < threads.length := by
      rw [← List.length_set]
      exact (List.getElem?_eq_some_iff.mp h).1
    rw [List.getElem?_set_self hlt] at h
    exact .inl ⟨rfl, (Option.some.inj h).symm⟩
  · rw [List.getElem?_set_ne (Ne.symm hij)] at h
    exact .inr ⟨hij, h⟩

theorem Step.thread_origin (h : Step env c l c') (hi : c'.threads[i]? = some t') :
    c.threads[i]? = some t' ∨ (∃ task, t' = Thread.start env task ∧ i = c.threads.length) ∨
      ∃ t, c.threads[i]? = some t ∧ l = .fire i ∧ Fire env t c.world t' c'.world := by
  have hnew : ∀ task, (c.threads ++ [Thread.start env task])[i]? = some t' →
      c.threads[i]? = some t' ∨ ∃ task, t' = Thread.start env task ∧ i = c.threads.length := by
    intro task ht
    rcases lt_trichotomy i c.threads.length with hlt | heq | hgt
    · left; rwa [List.getElem?_append_left hlt] at ht
    · right
      subst heq
      rw [List.getElem?_concat_length] at ht
      exact ⟨task, (Option.some.inj ht).symm, rfl⟩
    · rw [List.getElem?_eq_none (by simp; omega)] at ht
      cases ht
  cases h with
  | deliver value => exact (hnew _ hi).imp id Or.inl
  | invoke ev => exact (hnew _ hi).imp id Or.inl
  | next he hbatch => exact (hnew _ hi).imp id Or.inl
  | startEngine => exact .inl hi
  | pollFailed => exact .inl hi
  | poll hdue => exact .inl hi
  | tick d => exact .inl hi
  | @fire j t u w' hj hfire =>
    -- the one step that changes a thread
    rcases thread_set hi with ⟨rfl, rfl⟩ | ⟨_, hi⟩
    · exact .inr (.inr ⟨t, hj, rfl, hfire⟩)
    · exact .inl hi

theorem Step.thread_persists (h : Step env c l c') (hi : c.threads[i]? = some t) :
    c'.threads[i]? = some t ∨ ∃ t', c'.threads[i]? = some t' ∧ Fire env t c.world t' c'.world := by
  have hlt : i < c.threads.length := (List.getElem?_eq_some_iff.mp hi).1
  have hnew : ∀ t', (c.threads ++ [t'])[i]? = some t := fun t' => by
    rw [List.getElem?_append_left hlt]; exact hi
  cases h with
  | deliver value => exact .inl (hnew _)
  | invoke ev => exact .inl (hnew _)
  | next he hbatch => exact .inl (hnew _)
  | startEngine => exact .inl hi
  | pollFailed => exact .inl hi
  | poll hdue => exact .inl hi
  | tick d => exact .inl hi
  | @fire j u u' w' hj hfire =>
    by_cases hij : j = i
    · subst hij
      rw [hi] at hj
      cases hj
      exact .inr ⟨u', List.getElem?_set_self hlt, hfire⟩
    · exact .inl (by rw [List.getElem?_set_ne hij]; exact hi)

theorem Step.db_eq (h : Step env c l c') (hl : ∀ i, l ≠ .fire i) : c'.world.db = c.world.db := by
  have hpoll : ∀ n, (World.handle env (.store (.claimDueRetries n)) c.world).2.db = c.world.db := by
    intro n
    rcases @World.handle_db env c.world (.store (.claimDueRetries n)) with hdb | ⟨s, pick, hs, _, hdb⟩
    · exact hdb
    · cases hs; exact hdb
  cases h with
  | fire hi hfire => exact absurd rfl (hl _)
  | pollFailed => exact hpoll _
  | poll hdue => exact hpoll _
  | _ => rfl

/-! ## Runs -/

def run (env : Env) : List Label → Config → Option Config
  | [], c => some c
  | l :: ls, c => (step env l c).bind (run env ls)

/-- `Reach env ok c c'`: `c'` comes from `c` by steps that each meet `ok`. -/
inductive Reach (env : Env) (ok : Config → Label → Prop) (c : Config) : Config → Prop
  | refl : Reach env ok c c
  | tail {c' c'' : Config} (l : Label) : Reach env ok c c' → ok c' l → step env l c' = some c'' →
      Reach env ok c c''

/-- A sequence of steps each of which meets `ok`. -/
def checkedRun (env : Env) (ok : Config → Label → Bool) : List Label → Config → Option Config
  | [], c => some c
  | l :: ls, c => if ok c l then (step env l c).bind (checkedRun env ok ls) else none

theorem reach_of_checkedRun {ok : Config → Label → Bool} {P : Label → Prop} {ls : List Label}
    (hP : ∀ l ∈ ls, P l) (h : checkedRun env ok ls c = some c') :
    Reach env (fun c l => P l ∧ ok c l = true) c c' := by
  suffices hgen : ∀ c0, Reach env (fun c l => P l ∧ ok c l = true) c0 c →
      Reach env (fun c l => P l ∧ ok c l = true) c0 c' from hgen c .refl
  intro c0 h0
  induction ls generalizing c with
  | nil => cases h; exact h0
  | cons l ls ih =>
    rw [checkedRun] at h
    split at h
    · rename_i hok
      obtain ⟨c1, h1, hrest⟩ := Option.bind_eq_some_iff.mp h
      exact ih (fun l' hl' => hP l' (.tail _ hl')) hrest
        (.tail l h0 ⟨hP l (by simp), hok⟩ h1)
    · cases h

theorem Reach.mono {ok ok' : Config → Label → Prop} (hr : Reach env ok c c') (h : ∀ c l, ok c l → ok' c l) :
    Reach env ok' c c' := by
  induction hr with
  | refl => exact .refl
  | tail l _ hl hstep ih => exact .tail l ih (h _ l hl) hstep

theorem reach_of_run {ls : List Label} (h : run env ls c = some c') : Reach env (fun _ _ => True) c c' := by
  have hrun : ∀ ls c, checkedRun env (fun _ _ => true) ls c = run env ls c := by
    intro ls
    induction ls with
    | nil => intro c; rfl
    | cons l ls ih => intro c; simp [checkedRun, run, funext ih]
  rw [← hrun] at h
  have hreach := reach_of_checkedRun (P := fun _ => True) (fun _ _ => trivial) h
  exact hreach.mono (fun _ _ _ => trivial)

def initial (w : World) : Config := { world := w }

end SyncForge.Cluster
