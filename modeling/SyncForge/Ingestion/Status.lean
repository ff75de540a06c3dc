import SyncForge.Api.DeadLetter
import SyncForge.Deployment
import SyncForge.Effect.Replay
import SyncForge.Ingestion.Processor
import SyncForge.Worker.Interference

/-!
# `Ingestion.Status` — what the status of an event says

One stored event, and everybody who moves its status: processors, workers, retry engines and operators,
interleaved call by call. The status only goes forward: `received`, `validated`, what the first run to end
reported, `dlq`. A worker that is faster than the processor's mark leaves the event `validated` for good, and
a retry that succeeds leaves it `failed`.

How the runs of `Process` ended is read off the logs: a part of a thread's log is a run of `Process`, and says
what it returned (`Ran`). What the run reported is a consequence (`plays_process`).
-/

namespace SyncForge.Ingestion
namespace Status

open Effect Effect.Prog
open Effect.Pool (Calls calls_snoc)
open Store Relational
open Transition (Run)

/-! ## The system -/

inductive Task where
  | drain
  | worker (value : Bytes)
  | engine (batchSize : Int)
  | replay (key : RowKey)

def Task.body (env : Env) : Task → Sync Unit
  | .drain => Ingestion.drain
  | .worker value => handle env value
  | .engine batchSize => do
    let _ ← Retry.drain env batchSize
    return ()
  | .replay key => do
    let _ ← Api.handleDLQRetry env key
    return ()

inductive Move where
  | tick (now : Time)
  | provider (ep : Endpoint) (server : SimServer)
  | policies (table : Table SyncPolicy PolicyKey SyncPolicy.key)

def Move.apply (w : World) : Move → World
  | .tick now => { w with now := now }
  | .provider ep server => { w with sims := Function.update w.sims ep server }
  | .policies table => { w with db := { w.db with policies := table } }

def setup (env : Env) : Pool.Setup sig GoError Task World Move where
  handle := World.handle env
  body := Task.body env
  move m w := some (m.apply w)

/-! ## How far an event is -/

def stage : SourceEventStatus → Nat
  | .received => 0
  | .validated => 1
  | .processed | .failed | .stale | .duplicate => 2
  | .dlq => 3

theorem stage_dlq {s : SourceEventStatus} (h : 3 ≤ stage s) : s = .dlq := by
  cases s <;> first | rfl | exact absurd h (by decide)

def claimed? : Call → Option EventKey
  | .store (.claimProcessedEvent key) => some key
  | _ => none

section

variable (se : SourceEvent)

/-- The event is at stage `n` or past it. -/
def Reached (n : Nat) (w : World) : Prop := ∃ s, w.db.sourceEvents se.key = some s ∧ n ≤ stage s

instance {n : Nat} {w : World} : Decidable (Reached se n w) :=
  decidable_of_iff ((w.db.sourceEvents se.key).any (fun s => n ≤ stage s) = true)
    (by simp only [Option.any_eq_true, Reached, decide_eq_true_eq])

def Progress (w w' : World) : Prop :=
  ∀ s, w.db.sourceEvents se.key = some s → ∃ s', w'.db.sourceEvents se.key = some s' ∧
    (s = s' ∨ stage s < stage s')

structure Inv (w : World) : Prop where
  reliable : ∀ n, ∃ pick, w.storeTape n = .ok pick
  stored : Reached se 0 w

def markedFirst (o : Call) (w : World) : Prop :=
  ∀ key ∈ claimed? o, key.tenantID = se.tenantID → key.eventID = se.eventID → Reached se 1 w

instance : DecidableRel (markedFirst se) := fun o w =>
  inferInstanceAs (Decidable (∀ key ∈ claimed? o, key.tenantID = se.tenantID → key.eventID = se.eventID →
    Reached se 1 w))

/-- What the threads rely on; in runs with `first`, claims come after marks. -/
def rely (first : Prop) (env : Env) : Rely sig GoError World where
  handle := World.handle env
  ok o w := first → markedFirst se o w
  inv := Inv se
  change := Progress se
  refl _ s hs := ⟨s, hs, Or.inl rfl⟩
  trans _ _ _ h h' s hs := by
    obtain ⟨s', hs', hle⟩ := h s hs
    obtain ⟨s'', hs'', hle'⟩ := h' s' hs'
    refine ⟨s'', hs'', ?_⟩
    rcases hle with rfl | hlt
    · exact hle'
    · rcases hle' with rfl | hlt'
      · exact Or.inr hlt
      · exact Or.inr (hlt.trans hlt')

/-- The report of a run of `Process` on the event. -/
def isEnd (new : SourceEventStatus) (o : Call) : Prop :=
  o = .store (.setSourceEventStatus se.tenantID se.eventID .validated new)

end

def isDead (tenantID eventID : String) (o : Call) : Prop :=
  ∃ d, o = .store (.insertDeadLetter d) ∧ d.tenantID = tenantID ∧ d.eventID = eventID

def report? : Call → Option (String × String × SourceEventStatus × SourceEventStatus)
  | .store (.setSourceEventStatus tenantID eventID old new) => some (tenantID, eventID, old, new)
  | _ => none

def letter? : Call → Option (String × String)
  | .store (.insertDeadLetter d) => some (d.tenantID, d.eventID)
  | _ => none

variable {new : SourceEventStatus} {tenantID eventID : String} {ev : Event} {o : Call}

theorem isEnd_iff {se : SourceEvent} : report? o = some (se.tenantID, se.eventID, .validated, new) ↔
    isEnd se new o := by
  constructor
  · intro h
    unfold report? at h
    split at h
    · cases h
      rfl
    · cases h
  · rintro rfl
    rfl

theorem isDead_iff : letter? o = some (tenantID, eventID) ↔ isDead tenantID eventID o := by
  constructor
  · intro h
    unfold letter? at h
    split at h
    · rename_i d
      cases h
      exact ⟨d, rfl, rfl, rfl⟩
    · cases h
  · rintro ⟨d, rfl, rfl, rfl⟩
    rfl

instance {se : SourceEvent} {new : SourceEventStatus} : DecidablePred (isEnd se new) :=
    fun _ => decidable_of_iff _ isEnd_iff

instance {tenantID eventID : String} : DecidablePred (isDead tenantID eventID) :=
    fun _ => decidable_of_iff _ isDead_iff

structure Shown (se : SourceEvent) (first : Prop) (log : List (Entry sig GoError)) (w : World) : Prop where
  ended : first → Calls (fun o => ∃ new, isEnd se new o) log → Reached se 2 w
  dead : Calls (isDead se.tenantID se.eventID) log → Reached se 3 w

/-- Reports go forward one step; `dlq` is set after the dead letter is there; nobody reopens a dead letter by
    hand, or stores an event. -/
def reports (log : List (Entry sig GoError)) : Call → World → Prop
  | .store (.setSourceEventStatus _ _ old new), _ =>
    (old = .received ∧ new = .validated) ∨ (old = .validated ∧ (new = .processed ∨ new = .failed))
  | .store (.setSourceEventStatusTo tenantID eventID new), _ => new = .dlq ∧
      Calls (isDead tenantID eventID) log
  | .store (.setDeadLetterStatus _ status), _ => status ≠ .open
  | .store (.insertSourceEvent _), _ => False
  | _, _ => True

variable {env : Env} {se : SourceEvent} {first : Prop} {w w' : World} {log : List (Entry sig GoError)}
  {n : Nat} {α : Type} {d : DeadLetter} {reason errorClass : String} {key : RowKey}

theorem Reached.progress (h : Reached se n w) (hprog : Progress se w w') : Reached se n w' := by
  obtain ⟨s, hs, hn⟩ := h
  obtain ⟨s', hs', rfl | hlt⟩ := hprog s hs
  · exact ⟨s, hs', hn⟩
  · exact ⟨s', hs', hn.trans hlt.le⟩

theorem Shown.progress (h : Shown se first log w) (hprog : Progress se w w') : Shown se first log w' :=
  ⟨fun hfirst hended => (h.ended hfirst hended).progress hprog, fun hdead => (h.dead hdead).progress hprog⟩

theorem Shown.nil : Shown se first [] w :=
  ⟨fun _ ⟨_, he, _⟩ => absurd he List.not_mem_nil, fun ⟨_, he, _⟩ => absurd he List.not_mem_nil⟩

theorem Shown.snoc {e : Entry sig GoError} (h : Shown se first log w)
    (hend : ∀ new, isEnd se new e.op → first → Reached se 2 w) (hdead : isDead se.tenantID se.eventID e.op →
      Reached se 3 w) : Shown se first (log ++ [e]) w := by
  constructor
  · intro hfirst hc
    rcases calls_snoc.mp hc with hc | ⟨new, hnew⟩
    · exact h.ended hfirst hc
    · exact hend new hnew hfirst
  · intro hc
    rcases calls_snoc.mp hc with hc | hc
    · exact h.dead hc
    · exact hdead hc

/-! ## Calls that say nothing about the status -/

def aside : Call → Bool
  | .store o =>
    match o with
    | .setSourceEventStatus _ _ _ _ | .setSourceEventStatusTo _ _ _ | .insertDeadLetter _ | .insertSourceEvent _
    | .setDeadLetterStatus _ _ => false
    | _ => true
  | _ => true

structure Same (w w' : World) : Prop where
  storeTape : w'.storeTape = w.storeTape
  sourceEvents : w'.db.sourceEvents = w.db.sourceEvents

theorem Same.progress (h : Same w w') : Progress se w w' := by
  intro s hs
  rw [← h.sourceEvents] at hs
  exact ⟨s, hs, .inl rfl⟩

theorem Inv.progress (hw : Inv se w) (htape : w'.storeTape = w.storeTape) (hprog : Progress se w w') :
    Inv se w' := by
  refine ⟨?_, hw.stored.progress hprog⟩
  rw [htape]
  exact hw.reliable

theorem Same.inv (h : Same w w') (hw : Inv se w) : Inv se w' := hw.progress h.storeTape h.progress

theorem same_called : Same w w.called := ⟨rfl, rfl⟩

theorem handle_same (ho : aside o = true) : Same w (World.handle env o w).2 := by
  rcases World.handle_cases env w o with h | ⟨s, pick, rfl, _, h⟩ | ⟨ep, m, type, x, _, h⟩ |
    ⟨key, value, rfl, h⟩
  · rw [h]
    exact same_called
  · rw [h]
    cases s <;> first | exact ⟨rfl, rfl⟩ | cases ho
  · rw [h]
    exact ⟨rfl, rfl⟩
  · rw [h]
    exact ⟨rfl, rfl⟩

theorem move_same (m : Move) : Same w (m.apply w) := by
  cases m <;> exact ⟨rfl, rfl⟩

theorem reports_aside (ho : aside o = true) : reports log o w := by
  cases o with
  | store s => cases s <;> first | exact trivial | cases ho
  | _ => exact trivial

theorem Shown.aside {r : Except GoError (sig.Res o)} (h : Shown se first log w) (ho : aside o = true) :
    Shown se first (log ++ [⟨o, r⟩]) w := by
  refine h.snoc (fun new hnew => ?_) (fun hdead => ?_)
  · rw [show o = _ from hnew] at ho
    cases ho
  · obtain ⟨d, hd, _⟩ := hdead
    rw [show o = _ from hd] at ho
    cases ho

theorem aside_of_isWork (ho : o.isWork = true) : aside o = true := by
  cases o with
  | store s => cases s <;> first | rfl | cases ho
  | _ => rfl

theorem tolerant : Tolerant env (rely se first env) :=
  ⟨rfl, fun _ hw => ⟨same_called.progress, same_called.inv hw⟩⟩

theorem reliable : ∀ u, (rely se first env).inv u → ∃ pick, u.storeTape u.calls = .ok pick :=
  fun u hu => hu.reliable u.calls

/-- Programs of such calls keep what is known: `c` says when the event is known to be at stage `n`. -/
theorem aside_safe {p : Sync α} {c : Prop} (hp : Only (fun o : Call => aside o = true) p)
    (hlog : Shown se first log w) (hn : c → Reached se n w) :
    (rely se first env).safe reports p (fun log _ u => Shown se first log u ∧
      (c → Reached se n u)) log w := by
  refine Rely.safe_of_only hp (fun _ _ _ h ht => ⟨h.1.progress ht.1, fun hc => (h.2 hc).progress ht.1⟩) ?_
    ⟨hlog, hn⟩
  intro log o u ho hu _ h
  have hsame : Same u (World.handle env o u).2 := handle_same ho
  refine ⟨reports_aside ho, ⟨hsame.progress, hsame.inv hu⟩, (h.1.progress hsame.progress).aside ho,
    fun hc => ?_⟩
  exact (h.2 hc).progress hsame.progress

abbrev Shows (env : Env) (se : SourceEvent) (first : Prop) (p : Sync α) (log : List (Entry sig GoError))
    (w : World) : Prop :=
  (rely se first env).safe reports p (fun log _ u => Shown se first log u) log w

theorem aside_shown {p : Sync α} (hp : Only (fun o : Call => aside o = true) p)
    (hlog : Shown se first log w) : Shows env se first p log w :=
  Rely.safe_mono (aside_safe (c := False) (n := 0) hp hlog nofun) (fun _ _ _ h => h.1)

/-! ## Statements about the status -/

variable {guard : SourceEventStatus → Bool}

theorem setStatus_keeps {s : StoreOp} {pick : Nat}
    (hw : Inv se w) (hs : (Database.exec w.now pick s w.db).2 = w.db.setStatus tenantID eventID guard new)
    (hnew : ∀ s, guard s = true → s = new ∨ stage s < stage new) :
    (rely se first env).change w (w.executed pick s) ∧ (rely se first env).inv (w.executed pick s) := by
  have hprog : Progress se w (w.executed pick s) := by
    intro old hold
    show ∃ s', (Database.exec w.now pick s w.db).2.sourceEvents se.key = some s' ∧ _
    rw [hs]
    by_cases hids : se.key.tenantID = tenantID ∧ se.key.eventID = eventID
    · rw [Database.setStatus_self hids, hold, Option.map_some]
      refine ⟨_, rfl, ?_⟩
      split_ifs with hguard
      · exact hnew old hguard
      · exact .inl rfl
    · rw [Database.setStatus_other hids]
      exact ⟨old, hold, .inl rfl⟩
  exact ⟨hprog, hw.progress rfl hprog⟩

theorem report_keeps (env : Env) (first : Prop) (tenantID eventID : String) {old : SourceEventStatus}
    (hw : Inv se w) (pick : Nat) (hnew : stage old < stage new) :
    (rely se first env).change w (w.executed pick (.setSourceEventStatus tenantID eventID old new)) ∧
      (rely se first env).inv (w.executed pick (.setSourceEventStatus tenantID eventID old new)) := by
  refine setStatus_keeps hw rfl (fun s hs => .inr ?_)
  rwa [of_decide_eq_true hs]

theorem dlq_keeps (env : Env) (first : Prop) (tenantID eventID : String) (hw : Inv se w) (pick : Nat) :
    (rely se first env).change w (w.executed pick (.setSourceEventStatusTo tenantID eventID .dlq)) ∧
      (rely se first env).inv (w.executed pick (.setSourceEventStatusTo tenantID eventID .dlq)) := by
  refine setStatus_keeps hw rfl (fun s _ => ?_)
  cases s <;> decide

/-- An event that is marked is past `validated` after the report at the end of a run. -/
theorem report_reached (hn : Reached se 1 w) (pick : Nat) (hnew : 2 ≤ stage new) :
    Reached se 2 (w.executed pick (.setSourceEventStatus se.tenantID se.eventID .validated new)) := by
  obtain ⟨s, hs, hstage⟩ := hn
  have hrow : (w.executed pick (.setSourceEventStatus se.tenantID se.eventID .validated new)).db.sourceEvents
      se.key = some (if s = .validated then new else s) := by
    refine (Database.setStatus_self (k := se.key) ⟨rfl, rfl⟩).trans ?_
    rw [hs]
    simp only [Option.map_some, decide_eq_true_eq]
  refine ⟨_, hrow, ?_⟩
  split_ifs with hv
  · exact hnew
  · revert hstage hv
    cases s <;> decide

theorem dlq_reached (hw : Inv se w) (pick : Nat) :
    Reached se 3 (w.executed pick (.setSourceEventStatusTo se.tenantID se.eventID .dlq)) := by
  obtain ⟨s, hs, _⟩ := hw.stored
  refine ⟨.dlq, (Database.setStatus_self (k := se.key) ⟨rfl, rfl⟩).trans ?_, le_refl _⟩
  rw [hs]
  rfl

/-! ## What the tasks do -/

def Known (se : SourceEvent) (first : Prop) (ev : Event) (w : World) : Prop :=
  first ∧ ev.tenantID = se.tenantID ∧ ev.eventID = se.eventID → Reached se 1 w

section

variable (hw : Inv se w) (hlog : Shown se first log w) (hknown : Known se first ev w)
include hw hlog hknown

theorem mark_safe (hnew : new = .processed ∨ new = .failed) : Shows env se first (mark ev new) log w := by
  have hstage : stage new = 2 := by rcases hnew with rfl | rfl <;> rfl
  refine safe_tryExecuted tolerant reliable hw (fun _ _ _ => .inr ⟨rfl, hnew⟩) (fun u pick hu _ => ?_)
  have hforward : stage .validated < stage new := by rw [hstage]; decide
  have hkeep := report_keeps env first ev.tenantID ev.eventID hu.2 pick hforward
  refine ⟨hkeep, fun v hv => ?_⟩
  have hprog := Rely.later_trans (Rely.later_trans hu.1 ⟨hkeep.1, hkeep.2⟩).1 hv
  refine (hlog.progress hprog.1).snoc (fun new' hend hfirst => ?_) (fun hdead => ?_)
  · -- the report of this event: it was marked when it was claimed
    injection hend with hend
    injection hend with htenant hevent _ _
    have hmarked := (hknown ⟨hfirst, htenant, hevent⟩).progress hu.1
    have hreached := report_reached hmarked pick hstage.ge
    rw [← htenant, ← hevent] at hreached
    exact hreached.progress hv.1
  · obtain ⟨d, hd, _⟩ := hdead
    cases hd

theorem release_safe (hnew : new = .processed ∨ new = .failed) :
    Shows env se first (release ev new) log w := by
  refine Rely.safe_bind (aside_safe (only_tryStmt rfl) hlog hknown) (fun log _ u hmid hu => ?_)
    (fun _ _ _ hmid => hmid.1) hw
  exact mark_safe hu hmid.1 hmid.2 hnew

theorem processClaimed_safe : Shows env se first (processClaimed env ev) log w := by
  refine Rely.safe_attempt (aside_safe (only_mono dispatch_only (fun _ => aside_of_isWork)) hlog hknown) ?_ hw
  rintro log r u ⟨hlog, hknown⟩ hu
  match r with
  | .error e =>
    exact Rely.safe_bind (release_safe hu hlog hknown (.inr rfl))
      (fun _ _ _ h _ _ ht => h.progress ht.1) (fun _ _ _ h => h) hu
  | .ok .noPolicy =>
    exact Rely.safe_bind (release_safe hu hlog hknown (.inl rfl))
      (fun _ _ _ h _ _ ht => h.progress ht.1) (fun _ _ _ h => h) hu
  | .ok .reconciled =>
    exact Rely.safe_bind (mark_safe hu hlog hknown (.inl rfl))
      (fun _ _ _ h _ _ ht => h.progress ht.1) (fun _ _ _ h => h) hu
  | .ok .applied =>
    exact Rely.safe_bind (mark_safe hu hlog hknown (.inl rfl))
      (fun _ _ _ h _ _ ht => h.progress ht.1) (fun _ _ _ h => h) hu

end

/-- `Process` sets a row's status only to what has become of its event. -/
theorem process_safe (hw : Inv se w) (hlog : Shown se first log w) :
    Shows env se first (process env ev) log w := by
  have hclaim : (rely se first env).safe reports (stmt (.claimProcessedEvent ev.key))
      (fun log _ u => Shown se first log u ∧ Known se first ev u) log w := by
    refine safe_executed tolerant reliable (fun _ _ _ => trivial) (fun u pick hu hgo => ?_)
    have hsame : Same u (u.executed pick (.claimProcessedEvent ev.key)) := ⟨rfl, rfl⟩
    refine ⟨⟨hsame.progress, hsame.inv hu.2⟩, fun v hv => ⟨?_, ?_⟩⟩
    · have hprog := Rely.later_trans hu.1 (Rely.later_trans hsame.progress hv)
      exact (hlog.progress hprog.1).aside rfl
    · rintro ⟨hfirst, htenant, hevent⟩
      exact ((hgo hfirst ev.key rfl htenant hevent).progress hsame.progress).progress hv.1
  refine Rely.safe_bind hclaim (fun log claimed u hmid hu => ?_) (fun _ _ _ h => h.1) hw
  cases claimed with
  | true => exact processClaimed_safe hu hmid.1 hmid.2
  | false => exact fun t ht => hmid.1.progress ht.1

def Owes (se : SourceEvent) (first : Prop) (d : DeadLetter) (log : List (Entry sig GoError)) (w : World) :
    Prop :=
  ∃ log' r, log = log' ++ [⟨.store (.insertDeadLetter d), r⟩] ∧ Shown se first log' w

theorem insertDead_safe (hlog : Shown se first log w) :
    (rely se first env).safe reports (stmt (.insertDeadLetter d))
      (fun log r u => r = .ok () ∧ Owes se first d log u) log w := by
  refine safe_executed tolerant reliable (fun _ _ _ => trivial) (fun u pick hu _ => ?_)
  have hsame : Same u (u.executed pick (.insertDeadLetter d)) := ⟨rfl, rfl⟩
  refine ⟨⟨hsame.progress, hsame.inv hu.2⟩, fun v hv => ⟨rfl, log, _, rfl, ?_⟩⟩
  exact hlog.progress (Rely.later_trans hu.1 (Rely.later_trans hsame.progress hv)).1

theorem dlq_safe (hw : Inv se w) (howes : Owes se first d log w) :
    Shows env se first (tryStmt (.setSourceEventStatusTo d.tenantID d.eventID .dlq)) log w := by
  obtain ⟨log', r, rfl, hlog⟩ := howes
  refine safe_tryExecuted tolerant reliable hw (fun _ _ _ => ⟨rfl, ?_⟩) (fun u pick hu _ => ?_)
  · exact calls_snoc.mpr (.inr ⟨d, rfl, rfl, rfl⟩)
  · have hkeep := dlq_keeps env first d.tenantID d.eventID hu.2 pick
    refine ⟨hkeep, fun v hv => ?_⟩
    have hold := hlog.progress (Rely.later_trans hu.1 (Rely.later_trans hkeep.1 hv)).1
    refine (hold.snoc (fun _ hend => ?_) ?_).snoc (fun _ => nofun) (fun hdead => ?_)
    · cases hend
    · rintro ⟨d', hd, htenant, hevent⟩
      cases hd
      have hreached := dlq_reached hu.2 pick
      rw [← htenant, ← hevent] at hreached
      exact hreached.progress hv.1
    · obtain ⟨d', hd, _⟩ := hdead
      cases hd

theorem dispatchFailure_safe {cause : GoError} (hw : Inv se w) (hlog : Shown se first log w) :
    Shows env se first (dispatchFailure env ev cause) log w := by
  unfold dispatchFailure
  dsimp only
  split_ifs with hretry
  · exact aside_shown (only_bind (only_perform rfl) (fun _ => only_stmt rfl)) hlog
  · exact Rely.safe_bind (insertDead_safe hlog) (fun _ _ _ h hu => dlq_safe hu h.2)
      (fun _ _ _ h => nomatch h.1) hw

theorem handle_safe {value : Bytes} (hw : Inv se w) (hlog : Shown se first log w) :
    Shows env se first (handle env value) log w := by
  refine Rely.safe_bind (aside_shown (only_ofExcept _) hlog) (fun log ev u hlog hu => ?_)
    (fun _ _ _ h => h) hw
  refine Rely.safe_attempt (process_safe hu hlog) (fun log r v hlog hv => ?_) hu
  cases r with
  | ok _ => exact fun t ht => hlog.progress ht.1
  | error e => exact dispatchFailure_safe hv hlog

variable {r : RetryEntry}

section

variable (hw : Inv se w) (hlog : Shown se first log w)
include hw hlog

theorem retryDeadLetter_safe : Shows env se first (Retry.deadLetter r reason errorClass) log w := by
  refine Rely.safe_attempt (insertDead_safe hlog) ?_ hw
  rintro log _ u ⟨rfl, howes⟩ hu
  exact dlq_safe hu howes

theorem park_safe : Shows env se first (do Retry.deadLetter r reason errorClass; Retry.discard r) log w :=
  Rely.safe_bind (retryDeadLetter_safe hw hlog) (fun _ _ _ h _ => aside_shown (only_tryStmt rfl) h)
    (fun _ _ _ h => h) hw

theorem processRetry_safe : Shows env se first (Retry.processRetry env r) log w := by
  unfold Retry.processRetry
  split
  · exact park_safe hw hlog
  · refine Rely.safe_attempt (process_safe hw hlog) (fun log res u hlog hu => ?_) hw
    cases res with
    | ok _ => exact aside_shown (only_bind (only_tryStmt rfl) (fun _ => only_tryStmt rfl)) hlog
    | error e =>
      show (rely se first env).safe reports (Retry.reschedule env r e) _ log u
      unfold Retry.reschedule
      dsimp only
      split_ifs with hpark
      · exact park_safe hu hlog
      · exact aside_shown (only_bind (only_perform rfl) (fun _ => only_tryStmt rfl)) hlog

theorem drainRetries_safe {rows : List RetryEntry} : Shows env se first (Retry.drainRows env rows) log w := by
  induction rows generalizing log w with
  | nil => exact fun t ht => hlog.progress ht.1
  | cons r rest ih => exact Rely.safe_bind (processRetry_safe hw hlog) (fun _ _ _ h hu => ih hu h) (fun _ _ _ h => h) hw

theorem engine_safe {batchSize : Int} : Shows env se first (Retry.drain env batchSize) log w := by
  refine Rely.safe_attempt (aside_shown (only_stmt rfl) hlog) (fun log due u hlog hu => ?_) hw
  cases due with
  | error e => exact fun t ht => hlog.progress ht.1
  | ok due =>
    exact Rely.safe_bind (drainRetries_safe hu hlog) (fun _ _ _ h _ _ ht => h.progress ht.1)
      (fun _ _ _ h => h) hu

theorem replay_safe : Shows env se first (Api.handleDLQRetry env key) log w := by
  refine Rely.safe_attempt (aside_shown (only_stmt rfl) hlog) (fun log item u hlog hu => ?_) hw
  match item with
  | .error .notFound => exact fun t ht => hlog.progress ht.1
  | .error (.plain _) => exact fun t ht => hlog.progress ht.1
  | .error (.connector _) => exact fun t ht => hlog.progress ht.1
  | .ok item =>
    refine Rely.safe_attempt (Q := fun log _ u => Shown se first log u) ?_ (fun log r v hlog hv => ?_) hu
    · refine safe_executed tolerant reliable (fun _ _ _ => nofun) (fun v pick hv _ => ?_)
      have hsame : Same v (v.executed pick (.setDeadLetterStatus key .retrying)) := ⟨rfl, rfl⟩
      refine ⟨⟨hsame.progress, hsame.inv hv.2⟩, fun v' hv' => ?_⟩
      refine (hlog.progress (Rely.later_trans hv.1 (Rely.later_trans hsame.progress hv')).1).snoc (fun _ => nofun) ?_
      rintro ⟨d, hd, _⟩
      cases hd
    · cases r with
      | error e => exact fun t ht => hlog.progress ht.1
      | ok _ =>
        refine Rely.safe_attempt (aside_shown (only_stmt rfl) hlog) (fun log r v hlog hv => ?_) hv
        cases r <;> exact fun t ht => hlog.progress ht.1

theorem drainRows_safe {rows : List SourceEvent} : Shows env se first (drainRows rows) log w := by
  induction rows generalizing log w with
  | nil => exact fun t ht => hlog.progress ht.1
  | cons row rest ih =>
    refine Rely.safe_attempt (aside_shown (only_perform rfl) hlog) (fun log r u hlog hu => ?_) hw
    cases r with
    | error e => exact ih hu hlog
    | ok _ =>
      refine Rely.safe_bind (Q := fun log _ u => Shown se first log u) ?_ (fun _ _ _ h hu => ih hu h) (fun _ _ _ h => h) hu
      refine safe_tryExecuted tolerant reliable hu (fun _ _ _ => .inl ⟨rfl, rfl⟩) (fun v pick hv _ => ?_)
      have hforward : stage .received < stage .validated := by decide
      have hkeep := report_keeps env first row.tenantID row.eventID hv.2 pick hforward
      refine ⟨hkeep, fun v' hv' => ?_⟩
      refine (hlog.progress (Rely.later_trans hv.1 (Rely.later_trans hkeep.1 hv')).1).snoc (fun _ hend => ?_) ?_
      · injection hend with hend
        injection hend with _ _ hold _
        cases hold
      · rintro ⟨d, hd, _⟩
        cases hd

theorem drain_safe : Shows env se first drain log w := by
  refine Rely.safe_attempt (aside_shown (only_stmt rfl) hlog) (fun log pending u hlog hu => ?_) hw
  cases pending with
  | error e => exact fun t ht => hlog.progress ht.1
  | ok pending => exact drainRows_safe hu hlog

end

/-- Every program reports only what it has seen, whatever the others do in between. -/
theorem body_safe (task : Task) (hw : Inv se w) : Shows env se first (task.body env) [] w := by
  cases task with
  | drain => exact drain_safe hw .nil
  | worker value => exact handle_safe hw .nil
  | engine batchSize =>
    exact Rely.safe_bind (engine_safe hw .nil) (fun _ _ _ h _ _ ht => h.progress ht.1) (fun _ _ _ h => h) hw
  | replay key =>
    exact Rely.safe_bind (replay_safe hw .nil) (fun _ _ _ h _ _ ht => h.progress ht.1) (fun _ _ _ h => h) hw

/-! ## Who brought it about -/

def gives (se : SourceEvent) (s : SourceEventStatus) (o : Call) : Prop :=
  (∃ old, o = .store (.setSourceEventStatus se.tenantID se.eventID old s)) ∨
    o = .store (.setSourceEventStatusTo se.tenantID se.eventID s) ∨ ∃ row, o = .store (.insertSourceEvent row)

def opens (se : SourceEvent) (o : Call) : Prop :=
  isDead se.tenantID se.eventID o ∨ ∃ key, o = .store (.setDeadLetterStatus key .open)

def OpenLetter (se : SourceEvent) (w : World) : Prop :=
  ∃ d, w.db.deadLetters ⟨se.tenantID, se.eventID⟩ = some d ∧ d.status = .open

theorem setStatus_gives {db : Database} {s : SourceEventStatus} (hbefore : db.sourceEvents se.key ≠ some s)
    (hafter : (db.setStatus tenantID eventID guard new).sourceEvents se.key = some s) :
    tenantID = se.tenantID ∧ eventID = se.eventID ∧ new = s := by
  by_cases hids : se.key.tenantID = tenantID ∧ se.key.eventID = eventID
  · rw [Database.setStatus_self hids] at hafter
    obtain ⟨old, hold, hs⟩ := Option.map_eq_some_iff.mp hafter
    split_ifs at hs with hguard
    · exact ⟨hids.1.symm, hids.2.symm, hs⟩
    · rw [hs] at hold
      exact absurd hold hbefore
  · rw [Database.setStatus_other hids] at hafter
    exact absurd hafter hbefore

theorem handle_gives {o : Call} {s : SourceEventStatus} (hbefore : w.db.sourceEvents se.key ≠ some s)
    (hafter : (World.handle env o w).2.db.sourceEvents se.key = some s) : gives se s o := by
  rcases World.handle_cases env w o with h | ⟨st, pick, rfl, _, h⟩ | ⟨ep, m, type, x, _, h⟩ |
    ⟨key, value, rfl, h⟩
  · rw [h] at hafter
    exact absurd hafter hbefore
  · rw [h] at hafter
    cases st with
    | setSourceEventStatus tenantID eventID old new =>
      obtain ⟨rfl, rfl, rfl⟩ := setStatus_gives hbefore hafter
      exact .inl ⟨old, rfl⟩
    | setSourceEventStatusTo tenantID eventID new =>
      obtain ⟨rfl, rfl, rfl⟩ := setStatus_gives hbefore hafter
      exact .inr (.inl rfl)
    | insertSourceEvent row => exact .inr (.inr ⟨row, rfl⟩)
    | _ => exact absurd hafter hbefore
  · rw [h] at hafter
    exact absurd hafter hbefore
  · rw [h] at hafter
    exact absurd hafter hbefore

theorem letter_of_update {letters : RowKey → Option DeadLetter} {f : DeadLetter → DeadLetter} {k : RowKey}
    {d' : DeadLetter} (h : Function.update letters key ((letters key).map f) k = some d') :
    ∃ d, letters k = some d ∧ (d' = d ∨ d' = f d) := by
  by_cases hk : k = key
  · rw [hk, Function.update_self] at h
    obtain ⟨d, hd, rfl⟩ := Option.map_eq_some_iff.mp h
    exact ⟨d, hk ▸ hd, .inr rfl⟩
  · rw [Function.update_of_ne hk] at h
    exact ⟨d', h, .inl rfl⟩

theorem handle_opens (hbefore : ¬ OpenLetter se w) (hafter : OpenLetter se (World.handle env o w).2) :
    opens se o := by
  rcases World.handle_cases env w o with h | ⟨st, pick, rfl, _, h⟩ | ⟨ep, m, type, x, _, h⟩ |
    ⟨key, value, rfl, h⟩
  · rw [h] at hafter
    exact absurd hafter hbefore
  · rw [h] at hafter
    cases st with
    | insertDeadLetter d =>
      by_cases hkey : (⟨se.tenantID, se.eventID⟩ : RowKey) = d.key
      · injection hkey with htenant hevent
        exact .inl ⟨d, rfl, htenant.symm, hevent.symm⟩
      · obtain ⟨d', hd', hopen⟩ := hafter
        have hold : w.db.deadLetters ⟨se.tenantID, se.eventID⟩ = some d' := by
          rw [← hd']
          exact (Function.update_of_ne hkey _ _).symm
        exact absurd ⟨d', hold, hopen⟩ hbefore
    | resolveDeadLetterForEvent key =>
      obtain ⟨d', hd', hopen⟩ := hafter
      obtain ⟨d, hd, rfl | rfl⟩ := letter_of_update (f := fun d => if d.status = .discarded then d else { d with status := .resolved }) hd'
      · exact absurd ⟨d', hd, hopen⟩ hbefore
      · split_ifs at hopen with hdiscarded
        exact absurd ⟨d, hd, hopen⟩ hbefore
    | setDeadLetterStatus key status =>
      obtain ⟨d', hd', hopen⟩ := hafter
      obtain ⟨d, hd, rfl | rfl⟩ := letter_of_update (f := fun d => { d with status := status }) hd'
      · exact absurd ⟨d', hd, hopen⟩ hbefore
      · rw [show status = .open from hopen]
        exact .inr ⟨key, rfl⟩
    | _ => exact absurd hafter hbefore
  · rw [h] at hafter
    exact absurd hafter hbefore
  · rw [h] at hafter
    exact absurd hafter hbefore

/-! ## The runs of `Process` -/

section Runs

variable {res : Except GoError Outcome} {p : Sync α} {r : Except GoError α}

/-- `Process` was run for the event and returned `res`: a part of the log is that run. -/
def Ran (env : Env) (se : SourceEvent) (res : Except GoError Outcome) (log : List (Entry sig GoError)) :
    Prop :=
  ∃ ev pre mid post, ev.tenantID = se.tenantID ∧ ev.eventID = se.eventID ∧ log = pre ++ mid ++ post ∧
    Plays (process env ev) mid res

theorem Ran.within {pre post : List (Entry sig GoError)} (h : Ran env se res log) :
    Ran env se res (pre ++ log ++ post) := by
  obtain ⟨ev, pre', mid, post', htenant, hevent, rfl, hplays⟩ := h
  exact ⟨ev, pre ++ pre', mid, post' ++ post, htenant, hevent, by simp only [List.append_assoc], hplays⟩

/-- The status that is true of an outcome. -/
def tells : SourceEventStatus → Except GoError Outcome → Prop
  | .failed, .error _ => True
  | .processed, .ok o => o ≠ .duplicate
  | _, _ => False

theorem plays_tryStmt {s : StoreOp} {r : Except GoError Unit} (h : Plays (tryStmt s) log r) :
    ∃ x, log = [⟨.store s, x⟩] ∧ r = .ok () := by
  obtain ⟨log1, log2, x, rfl, h1, rfl, rfl⟩ := plays_attempt h
  rw [plays_perform h1]
  exact ⟨x, rfl, rfl⟩

/-- The log ends with the report that the run of `ev` is `new`, and reports nothing else. -/
def Reports (ev : Event) (new : SourceEventStatus) (log : List (Entry sig GoError)) : Prop :=
  ∃ pre x, log = pre ++ [⟨.store (.setSourceEventStatus ev.tenantID ev.eventID .validated new), x⟩] ∧
    ∀ e ∈ pre, aside e.op = true

theorem Reports.after {pre : List (Entry sig GoError)} (h : Reports ev new log)
    (hpre : ∀ e ∈ pre, aside e.op = true) : Reports ev new (pre ++ log) := by
  obtain ⟨pre', x, rfl, haside⟩ := h
  exact ⟨pre ++ pre', x, (List.append_assoc ..).symm, List.forall_mem_append.mpr ⟨hpre, haside⟩⟩

theorem plays_mark {r : Except GoError Unit} (h : Plays (mark ev new) log r) :
    Reports ev new log ∧ r = .ok () := by
  obtain ⟨x, hlog, hr⟩ := plays_tryStmt h
  refine ⟨⟨[], x, ?_, fun e he => absurd he List.not_mem_nil⟩, hr⟩
  rw [hlog, List.nil_append]

theorem plays_release {r : Except GoError Unit} (h : Plays (release ev new) log r) :
    Reports ev new log ∧ r = .ok () := by
  rcases plays_bind h with ⟨log1, log2, _, rfl, h1, h2⟩ | ⟨e, rfl, h1⟩
  · obtain ⟨x, rfl, _⟩ := plays_tryStmt h1
    obtain ⟨hreports, rfl⟩ := plays_mark h2
    exact ⟨hreports.after (List.forall_mem_singleton.mpr rfl), rfl⟩
  · obtain ⟨_, _, he⟩ := plays_tryStmt h1
    cases he

/-- A report never fails, so the run ends as it was going to. -/
theorem plays_end {q : Sync Unit} {x : Except GoError Outcome}
    (hq : ∀ {log r}, Plays q log r → Reports ev new log ∧ r = .ok ()) (hx : tells new x)
    (h : Plays (q >>= fun _ => ofExcept x) log res) : Reports ev new log ∧ tells new res := by
  rcases plays_bind h with ⟨log1, log2, _, rfl, h1, h2⟩ | ⟨e, rfl, h1⟩
  · obtain ⟨rfl, rfl⟩ := plays_ofExcept h2
    rw [List.append_nil]
    exact ⟨(hq h1).1, hx⟩
  · cases (hq h1).2

theorem plays_processClaimed (h : Plays (processClaimed env ev) log res) : ∃ new, Reports ev new log ∧
    tells new res := by
  obtain ⟨log1, log2, d, rfl, h1, h2⟩ := plays_attempt h
  have haside := plays_only (only_mono dispatch_only (fun _ => aside_of_isWork)) h1
  suffices hend : ∃ new, Reports ev new log2 ∧ tells new res by
    obtain ⟨new, hreports, htells⟩ := hend
    exact ⟨new, hreports.after haside, htells⟩
  match d with
  | .error e => exact ⟨.failed, plays_end (x := .error e) plays_release trivial h2⟩
  | .ok .noPolicy => exact ⟨.processed, plays_end (x := .ok .noPolicy) plays_release nofun h2⟩
  | .ok .reconciled => exact ⟨.processed, plays_end (x := .ok .reconciled) plays_mark nofun h2⟩
  | .ok .applied => exact ⟨.processed, plays_end (x := .ok .applied) plays_mark nofun h2⟩

/-- **What a run of `Process` reports** is what it returns. -/
theorem plays_process (h : Plays (process env ev) log res) :
    (∃ e, log = [⟨.store (.claimProcessedEvent ev.key), .error e⟩]) ∨
      (res = .ok .duplicate ∧ ∀ e ∈ log, aside e.op = true) ∨ ∃ new, Reports ev new log ∧ tells new res := by
  rcases plays_bind h with ⟨log1, log2, claimed, rfl, h1, h2⟩ | ⟨e, rfl, h1⟩
  · have haside : ∀ e ∈ log1, aside e.op = true := by
      rw [plays_perform h1]
      exact List.forall_mem_singleton.mpr rfl
    cases claimed with
    | true =>
      obtain ⟨new, hreports, htells⟩ := plays_processClaimed h2
      exact .inr (.inr ⟨new, hreports.after haside, htells⟩)
    | false =>
      obtain ⟨rfl, rfl⟩ := h2
      rw [List.append_nil]
      exact .inr (.inl ⟨rfl, haside⟩)
  · exact .inl ⟨e, plays_perform h1⟩

theorem tells_unique {new' : SourceEventStatus} (h : tells new res) (h' : tells new' res) : new' = new := by
  cases res <;> cases new <;> cases new' <;> first | rfl | exact h.elim | exact h'.elim

theorem not_isEnd (ho : aside o = true) : ¬ isEnd se new o := by
  rintro rfl
  cases ho

/-- Whatever is reported for the event in a run of `p` is what a run of `Process` in it returned. -/
def Accounted (env : Env) (se : SourceEvent) (p : Sync α) : Prop :=
  ∀ log r, Plays p log r → ∀ new, Calls (isEnd se new) log → ∃ res, tells new res ∧ Ran env se res log

theorem accounted_process : Accounted env se (process env ev) := by
  rintro log res h new ⟨e, he, hend⟩
  rcases plays_process h with ⟨_, rfl⟩ | ⟨_, haside⟩ | ⟨new', ⟨pre, x, rfl, haside⟩, htells⟩
  · obtain rfl := List.mem_singleton.mp he
    cases hend
  · exact absurd hend (not_isEnd (haside e he))
  · rcases List.mem_append.mp he with he | he
    · exact absurd hend (not_isEnd (haside e he))
    · obtain rfl := List.mem_singleton.mp he
      injection hend with hend
      injection hend with htenant hevent _ hnew
      subst hnew
      exact ⟨res, htells, ev, [], _, [], htenant, hevent, (List.append_nil _).symm, h⟩

theorem accounted_append {log1 log2 : List (Entry sig GoError)}
    (h1 : Calls (isEnd se new) log1 → ∃ res, tells new res ∧ Ran env se res log1)
    (h2 : Calls (isEnd se new) log2 → ∃ res, tells new res ∧ Ran env se res log2)
    (h : Calls (isEnd se new) (log1 ++ log2)) : ∃ res, tells new res ∧ Ran env se res (log1 ++ log2) := by
  obtain ⟨e, he, hend⟩ := h
  rcases List.mem_append.mp he with he | he
  · obtain ⟨res, htells, hran⟩ := h1 ⟨e, he, hend⟩
    have hwithin : Ran env se res ([] ++ log1 ++ log2) := hran.within
    exact ⟨res, htells, hwithin⟩
  · obtain ⟨res, htells, hran⟩ := h2 ⟨e, he, hend⟩
    have hwithin : Ran env se res (log1 ++ log2 ++ []) := hran.within
    rw [List.append_nil] at hwithin
    exact ⟨res, htells, hwithin⟩

theorem accounted_bind {β : Type} {f : α → Sync β} (hp : Accounted env se p)
    (hf : ∀ a, Accounted env se (f a)) : Accounted env se (p >>= f) := by
  intro log r h new
  rcases plays_bind h with ⟨log1, log2, a, rfl, h1, h2⟩ | ⟨e, rfl, h1⟩
  · exact accounted_append (hp _ _ h1 new) (hf a _ _ h2 new)
  · exact hp _ _ h1 new

theorem accounted_attempt {β : Type} {f : Except GoError α → Sync β} (hp : Accounted env se p)
    (hf : ∀ x, Accounted env se (f x)) : Accounted env se (p.attempt >>= f) := by
  intro log r h new
  obtain ⟨log1, log2, x, rfl, h1, h2⟩ := plays_attempt h
  exact accounted_append (hp _ _ h1 new) (hf x _ _ h2 new)

theorem accounted_only (hp : Only (fun o : Call => ∀ new, ¬ isEnd se new o) p) : Accounted env se p := by
  rintro log r h new ⟨e, he, hend⟩
  exact absurd hend (plays_only hp h e he new)

theorem accounted_aside (hp : Only (fun o : Call => aside o = true) p) : Accounted env se p :=
  accounted_only (only_mono hp (fun _ ho _ => not_isEnd ho))

theorem accounted_return {a : α} : Accounted env se (Pure.pure a : Sync α) := accounted_aside (only_return _)

theorem accounted_drainRows {rows : List SourceEvent} : Accounted env se (drainRows rows) := by
  induction rows with
  | nil => exact accounted_return
  | cons row rest ih =>
    refine accounted_attempt (accounted_aside (only_perform rfl)) (fun x => ?_)
    cases x with
    | error e => exact ih
    | ok _ =>
      refine accounted_bind (accounted_only (only_tryStmt (fun new hend => ?_))) (fun _ => ih)
      injection hend with hend
      injection hend with _ _ hold _
      cases hold

theorem accounted_deadLetter {r : RetryEntry} : Accounted env se (Retry.deadLetter r reason errorClass) := by
  refine accounted_attempt (accounted_only (only_stmt (fun _ => nofun))) (fun x => ?_)
  cases x with
  | error e => exact accounted_return
  | ok _ => exact accounted_only (only_tryStmt (fun _ => nofun))

theorem accounted_processRetry {r : RetryEntry} : Accounted env se (Retry.processRetry env r) := by
  have hpark : ∀ {reason errorClass}, Accounted env se
    (do Retry.deadLetter r reason errorClass; Retry.discard r) :=
    accounted_bind accounted_deadLetter (fun _ => accounted_aside (only_tryStmt rfl))
  unfold Retry.processRetry
  split
  · exact hpark
  · refine accounted_attempt accounted_process (fun x => ?_)
    cases x with
    | ok _ => exact accounted_aside (only_bind (only_tryStmt rfl) (fun _ => only_tryStmt rfl))
    | error e =>
      show Accounted env se (Retry.reschedule env r e)
      unfold Retry.reschedule
      dsimp only
      split_ifs
      · exact hpark
      · exact accounted_aside (only_bind (only_perform rfl) (fun _ => only_tryStmt rfl))

theorem accounted_drainRetries {rows : List RetryEntry} : Accounted env se (Retry.drainRows env rows) := by
  induction rows with
  | nil => exact accounted_return
  | cons r rest ih => exact accounted_bind accounted_processRetry (fun _ => ih)

theorem accounted_dispatchFailure {cause : GoError} : Accounted env se (dispatchFailure env ev cause) := by
  unfold dispatchFailure
  dsimp only
  split_ifs
  · exact accounted_aside (only_bind (only_perform rfl) (fun _ => only_stmt rfl))
  · exact accounted_only (only_bind (only_stmt (fun _ => nofun)) (fun _ => only_tryStmt (fun _ => nofun)))

theorem accounted_replay : Accounted env se (Api.handleDLQRetry env key) := by
  refine accounted_attempt (accounted_aside (only_stmt rfl)) (fun x => ?_)
  match x with
  | .error .notFound => exact accounted_return
  | .error (.plain _) => exact accounted_return
  | .error (.connector _) => exact accounted_return
  | .ok item =>
    refine accounted_attempt (accounted_only (only_stmt (fun _ => nofun))) (fun x => ?_)
    cases x with
    | error e => exact accounted_return
    | ok _ =>
      refine accounted_attempt (accounted_aside (only_stmt rfl)) (fun x => ?_)
      cases x <;> exact accounted_return

theorem accounted_body (task : Task) : Accounted env se (task.body env) := by
  cases task with
  | drain =>
    refine accounted_attempt (accounted_aside (only_stmt rfl)) (fun x => ?_)
    cases x with
    | error e => exact accounted_return
    | ok rows => exact accounted_drainRows
  | worker value =>
    refine accounted_bind (accounted_aside (only_ofExcept _))
      (fun ev => accounted_attempt accounted_process (fun x => ?_))
    cases x with
    | ok _ => exact accounted_return
    | error e => exact accounted_dispatchFailure
  | engine batchSize =>
    refine accounted_bind (accounted_attempt (accounted_aside (only_stmt rfl)) (fun x => ?_))
      (fun _ => accounted_return)
    cases x with
    | error e => exact accounted_return
    | ok due => exact accounted_bind accounted_drainRetries (fun _ => accounted_return)
  | replay key => exact accounted_bind accounted_replay (fun _ => accounted_return)

end Runs

/-! ## Together -/

section

variable {w0 : World} {acts : List (Act Task Move)} {c : Pool sig GoError Task World}

def Made (K : sig.Op → Prop) (c : Pool sig GoError Task World) : Prop := ∃ t ∈ c.threads, Calls K t.log

instance {K : sig.Op → Prop} [DecidablePred K] : Decidable (Made K c) :=
  inferInstanceAs (Decidable (∃ t ∈ c.threads, Calls K t.log))

def promise (se : SourceEvent) (first : Prop) : Promise sig GoError World Unit :=
    ⟨reports, fun log _ w => Shown se first log w⟩

theorem safe_of_run (first : Prop) (htape : ∀ n, ∃ pick, w0.storeTape n = .ok pick)
    (hnew : w0.db.sourceEvents se.key = some .received)
    (hrun : Run (Pool.step (setup env)) (Pool.permits (rely se first env).ok (fun _ _ => True)) ⟨[], w0⟩ acts c) :
    Pool.Safe (rely se first env) (fun _ => promise se first) c := by
  refine Pool.safe_run rfl (fun s task hs _ => body_safe task hs) (fun m s s' hs hm => ?_) hrun
    (Pool.safe_nil ⟨htape, .received, hnew, Nat.zero_le _⟩)
  rw [← Option.some.inj hm]
  exact ⟨(move_same m).progress, (move_same m).inv hs⟩

theorem anyRun_safe (hrun : Run (Pool.step (setup env)) (fun _ _ => True) ⟨[], w0⟩ acts c)
    (htape : ∀ n, ∃ pick, w0.storeTape n = .ok pick) (hnew : w0.db.sourceEvents se.key = some .received) :
    Pool.Safe (rely se False env) (fun _ => promise se False) c :=
  safe_of_run False htape hnew (hrun.mono (fun c a _ _ => by
    cases a with
    | start task => trivial
    | fire i => exact fun _ _ _ _ => nofun
    | move m => trivial))

section

variable (hsafe : Pool.Safe (rely se first env) (fun _ => promise se first) c)
include hsafe

theorem reports_of_mem {t : Thread sig GoError Task} {e : Entry sig GoError} (ht : t ∈ c.threads)
    (he : e ∈ t.log) : ∃ pre w, pre ⊆ t.log ∧ reports pre e.op w := by
  obtain ⟨pre, post, hlog⟩ := List.append_of_mem he
  obtain ⟨w, _, hmay, _⟩ := hsafe.made t ht pre e post hlog
  exact ⟨pre, w, by rw [hlog]; exact List.subset_append_left _ _, hmay⟩

section

variable (hrun : Run (Pool.step (setup env)) (fun _ _ => True) ⟨[], w0⟩ acts c)
include hrun

theorem status_author (hnew : w0.db.sourceEvents se.key = some .received) {s : SourceEventStatus}
    (hs : c.state.db.sourceEvents se.key = some s) :
    s = .received ∨ s = .validated ∨ ((s = .processed ∨ s = .failed) ∧ Made (isEnd se s) c) ∨
      (s = .dlq ∧ Made (isDead se.tenantID se.eventID) c) := by
  by_cases hreceived : s = .received
  · exact .inl hreceived
  have hinit : w0.db.sourceEvents se.key ≠ some s := by
    rw [hnew]
    exact fun h => hreceived (Option.some.inj h).symm
  obtain ⟨t, ht, e, he, hgives⟩ := Pool.exists_author (Q := fun w => w.db.sourceEvents se.key = some s)
    (A := fun e => gives se s e.op) hrun (fun o w hbefore hafter => handle_gives hbefore hafter)
    (fun m w w' hbefore hm => by
      rw [← Option.some.inj hm, (move_same m).sourceEvents]
      exact hbefore) hinit hs
  obtain ⟨pre, w, hpre, hreports⟩ := reports_of_mem hsafe ht he
  refine .inr ?_
  rcases hgives with ⟨old, hop⟩ | hop | ⟨row, hop⟩
  · rw [hop] at hreports
    rcases hreports with ⟨_, hvalidated⟩ | ⟨rfl, hend⟩
    · exact .inl hvalidated
    · exact .inr (.inl ⟨hend, t, ht, e, he, hop⟩)
  · rw [hop] at hreports
    obtain ⟨hdlq, e', he', hdead⟩ := hreports
    exact .inr (.inr ⟨hdlq, t, ht, e', hpre he', hdead⟩)
  · rw [hop] at hreports
    exact hreports.elim

theorem dead_of_open (hclosed : ¬ OpenLetter se w0) (hopen : OpenLetter se c.state) :
    Made (isDead se.tenantID se.eventID) c := by
  obtain ⟨t, ht, e, he, hopens⟩ := Pool.exists_author (Q := OpenLetter se) (A := fun e => opens se e.op) hrun
    (fun o w hbefore hafter => (handle_opens hbefore hafter : opens se o))
    (fun m w w' hbefore hm => by
      rw [← Option.some.inj hm]
      cases m <;> exact hbefore) hclosed hopen
  obtain ⟨pre, w, hpre, hreports⟩ := reports_of_mem hsafe ht he
  rcases hopens with hdead | ⟨key, hop⟩
  · exact ⟨t, ht, e, he, hdead⟩
  · rw [hop] at hreports
    exact absurd rfl hreports

end

end

/-- A run of `Process` for the event was applied, dropped, or had no policy. -/
def EndedWell (env : Env) (se : SourceEvent) (c : Pool sig GoError Task World) : Prop :=
  ∃ t ∈ c.threads, ∃ o, o ≠ .duplicate ∧ Ran env se (.ok o) t.log

/-- A run of `Process` for the event returned an error, for which the caller queues it or gives it up. -/
def Failed (env : Env) (se : SourceEvent) (c : Pool sig GoError Task World) : Prop :=
  ∃ t ∈ c.threads, ∃ e, Ran env se (.error e) t.log

section Quiet

variable (hrun : Run (Pool.step (setup env)) (fun _ _ => True) ⟨[], w0⟩ acts c)
  (hdone : ∀ t ∈ c.threads, t.done = true)
include hrun hdone

theorem endedWell_of_made (h : Made (isEnd se .processed) c) : EndedWell env se c := by
  obtain ⟨t, ht, hcalls⟩ := h
  obtain ⟨r, hplays⟩ := Pool.plays_of_done hrun ht (hdone t ht)
  obtain ⟨res, htells, hran⟩ := accounted_body t.task _ _ hplays _ hcalls
  cases res with
  | error e => cases htells
  | ok o => exact ⟨t, ht, o, htells, hran⟩

theorem failed_of_made (h : Made (isEnd se .failed) c) : Failed env se c := by
  obtain ⟨t, ht, hcalls⟩ := h
  obtain ⟨r, hplays⟩ := Pool.plays_of_done hrun ht (hdone t ht)
  obtain ⟨res, htells, hran⟩ := accounted_body t.task _ _ hplays _ hcalls
  cases res with
  | error e => exact ⟨t, ht, e, hran⟩
  | ok o => cases htells

end Quiet

/-- **A run of `Process` that is over** has reported what it returned. -/
theorem made_of_ran (new : SourceEventStatus) {res : Except GoError Outcome} {t : Thread sig GoError Task}
    (hsafe : Pool.Safe (rely se first env) (fun _ => promise se first) c) (ht : t ∈ c.threads)
    (hran : Ran env se res t.log) (htells : tells new res) : Made (isEnd se new) c := by
  obtain ⟨ev, pre, mid, post, htenant, hevent, hlog, hplays⟩ := hran
  rcases plays_process hplays with ⟨e, rfl⟩ | ⟨rfl, _⟩ | ⟨new', ⟨pre', x, rfl, _⟩, htells'⟩
  · -- the store answers
    rw [List.append_assoc, List.singleton_append] at hlog
    obtain ⟨w, hw, _, hanswer⟩ := hsafe.made t ht pre _ post hlog
    obtain ⟨pick, hpick⟩ := hw.reliable w.calls
    rcases World.handle_store env w (.claimProcessedEvent ev.key) with ⟨text, htext, _⟩ | ⟨_, _, hcall⟩
    · cases hpick.symm.trans htext
    · have hanswer : (.error e : Except GoError Bool) = (World.handle env (.store (.claimProcessedEvent ev.key)) w).1 := hanswer
      rw [hcall] at hanswer
      cases hanswer
  · cases new <;> first | cases htells | exact absurd rfl htells
  · obtain rfl := tells_unique htells' htells
    refine ⟨t, ht, ⟨.store (.setSourceEventStatus ev.tenantID ev.eventID .validated new), x⟩, ?_, ?_⟩
    · rw [hlog]
      simp
    · rw [htenant, hevent]
      rfl

theorem not_failed (hrun : Run (Pool.step (setup env)) (fun _ _ => True) ⟨[], w0⟩ acts c)
    (htape : ∀ n, ∃ pick, w0.storeTape n = .ok pick) (hnew : w0.db.sourceEvents se.key = some .received)
    (h : ¬ Made (isEnd se .failed) c) : ¬ Failed env se c := by
  rintro ⟨t, ht, e, hran⟩
  exact h (made_of_ran .failed (anyRun_safe hrun htape hnew) ht hran trivial)

theorem not_endedWell (hrun : Run (Pool.step (setup env)) (fun _ _ => True) ⟨[], w0⟩ acts c)
    (htape : ∀ n, ∃ pick, w0.storeTape n = .ok pick) (hnew : w0.db.sourceEvents se.key = some .received)
    (h : ¬ Made (isEnd se .processed) c) : ¬ EndedWell env se c := by
  rintro ⟨t, ht, o, ho, hran⟩
  exact h (made_of_ran .processed (anyRun_safe hrun htape hnew) ht hran ho)

/-- **The status tells how an event stands** when nobody is in the middle of anything. An open dead letter
    always shows as `dlq`. When the event is only ever claimed after the processor's mark, and it was never
    dead-lettered, it shows as `failed` if a run of `Process` has failed and none has ended well, whether or
    not the retry is still queued, and as `processed` if one has ended well and none has failed. -/
theorem status_of_outcome (hrun : Run (Pool.step (setup env)) (fun _ _ => True) ⟨[], w0⟩ acts c)
    (htape : ∀ n, ∃ pick, w0.storeTape n = .ok pick) (hnew : w0.db.sourceEvents se.key = some .received)
    (hclosed : ¬ OpenLetter se w0) (hdone : ∀ t ∈ c.threads, t.done = true) :
    (OpenLetter se c.state → c.state.db.sourceEvents se.key = some .dlq) ∧
      (Run (Pool.step (setup env)) (Pool.permits (markedFirst se) (fun _ _ => True)) ⟨[], w0⟩ acts c →
        ¬ Made (isDead se.tenantID se.eventID) c →
        (Failed env se c → ¬ EndedWell env se c → c.state.db.sourceEvents se.key = some .failed) ∧
        (EndedWell env se c → ¬ Failed env se c → c.state.db.sourceEvents se.key = some .processed)) := by
  constructor
  · intro hopen
    have hsafe := anyRun_safe hrun htape hnew
    obtain ⟨t, ht, hdead⟩ := dead_of_open hsafe hrun hclosed hopen
    obtain ⟨_, hshown⟩ := hsafe.post_of_done ht (hdone t ht)
    obtain ⟨s, hs, hstage⟩ := hshown.dead hdead
    rw [hs, stage_dlq hstage]
  · intro hfirst hdead
    have hsafe := safe_of_run True htape hnew (hfirst.mono (fun c a _ hok => by
      cases a with
      | start task => trivial
      | fire i => exact fun t o ht ho _ => hok t o ht ho
      | move m => trivial))
    -- the end of a run shows, and what shows has an author
    have hend : ∀ new, Made (isEnd se new) c → ∃ s, c.state.db.sourceEvents se.key = some s ∧
        (s = .processed ∨ s = .failed) ∧ Made (isEnd se s) c := by
      rintro new ⟨t, ht, e, he, hnew'⟩
      obtain ⟨_, hshown⟩ := hsafe.post_of_done ht (hdone t ht)
      obtain ⟨s, hs, hstage⟩ := hshown.ended trivial ⟨e, he, new, hnew'⟩
      rcases status_author hsafe hrun hnew hs with rfl | rfl | hmade | ⟨_, hmade⟩
      · exact absurd hstage (by decide)
      · exact absurd hstage (by decide)
      · exact ⟨s, hs, hmade⟩
      · exact absurd hmade hdead
    constructor
    · rintro ⟨t, ht, e, hran⟩ hwell
      obtain ⟨s, hs, rfl | rfl, hmade⟩ := hend _ (made_of_ran .failed hsafe ht hran trivial)
      · exact absurd (endedWell_of_made hrun hdone hmade) hwell
      · exact hs
    · rintro ⟨t, ht, o, ho, hran⟩ hfailed
      obtain ⟨s, hs, rfl | rfl, hmade⟩ := hend _ (made_of_ran .processed hsafe ht hran ho)
      · exact hs
      · exact absurd (failed_of_made hrun hdone hmade) hfailed

end

/-! ## A created customer -/

open Deployment (tenant policy)

def annStored : SourceEvent where
  tenantID := tenant
  source := "salesforce"
  eventID := "e1"
  entityType := "customer"
  entityID := "sf-1"
  eventType := "created"
  sourceVersion := 1
  occurredAt := some 1
  provenance := []
  raw := [("webhook", .obj [("payload", .obj [("fields", .obj [(salesforce.native .firstName, .str "Ann"),
    (salesforce.native .lastName, .str "Lee"), (salesforce.native .email, .str "ann@x")] "" "")] "" "")]
      "" "")]

def received (failing : Option Nat) : World :=
  let w := Deployment.world [policy "salesforce" "hubspot"]
  { w with
    db := { w.db with
      ingested := [annStored]
      sourceEvents := Function.update (fun _ => none) annStored.key (some .received) }
    providerTape := fun n => if failing = some n then some { kind := .transient, message := "bad gateway" } else none }

def inTurn : List (Act Task Move) :=
  [.start .drain, .fire 0, .fire 0, .fire 0, .start (.worker (message annStored).2)] ++ List.replicate 11
    (.fire 1)

def workerFirst : List (Act Task Move) :=
  [.start .drain, .fire 0, .fire 0, .start (.worker (message annStored).2)] ++ List.replicate 11
    (.fire 1) ++ [.fire 0]

def failedOnce : List (Act Task Move) :=
  [.start .drain, .fire 0, .fire 0, .fire 0, .start (.worker (message annStored).2)] ++ List.replicate 13
    (.fire 1)

def retried : List (Act Task Move) :=
  failedOnce ++ [.move (.tick 60000000000), .start (.engine 1)] ++ List.replicate 14 (.fire 2)

def reported (new other : SourceEventStatus) (queued : Nat) (c : Pool sig GoError Task World) : Bool :=
  (∀ t ∈ c.threads, t.done = true) ∧ Made (isEnd annStored new) c ∧ ¬ Made (isEnd annStored other) c ∧
    ¬ Made (isDead tenant "e1") c ∧ c.state.db.retryQueue.rows.length = queued

theorem permits_markedFirst {c : Pool sig GoError Task World} {a : Act Task Move}
    (h : Pool.permitted (fun o w => decide (markedFirst annStored o w)) c a = true) :
    Pool.permits (markedFirst annStored) (fun _ _ => True) c a := by
  have hpermits := Pool.permits_of_permitted h
  cases a with
  | start task => trivial
  | fire i => exact fun t o ht ho => of_decide_eq_true (hpermits t o ht ho)
  | move m => trivial

/-- In turn, the created customer shows as `processed`; if HubSpot fails, as `failed`, and the retry is
    queued. -/
theorem status_of_outcome_inTurn :
    (∃ c, Run (Pool.step (setup Deployment.env)) (Pool.permits (markedFirst annStored) (fun _ _ => True))
        ⟨[], received none⟩ inTurn c ∧ (∀ t ∈ c.threads, t.done = true) ∧ EndedWell Deployment.env annStored c ∧
      c.state.db.sourceEvents annStored.key = some .processed) ∧
    ∃ c, Run (Pool.step (setup Deployment.env)) (Pool.permits (markedFirst annStored) (fun _ _ => True))
        ⟨[], received (some 11)⟩ failedOnce c ∧ (∀ t ∈ c.threads, t.done = true) ∧ Failed Deployment.env annStored c ∧
      c.state.db.retryQueue.rows.length = 1 ∧ c.state.db.sourceEvents annStored.key = some .failed := by
  have hclosed : ∀ failing, ¬ OpenLetter annStored (received failing) := fun _ ⟨_, hd, _⟩ => nomatch hd
  constructor
  · refine Transition.exists_run (b := Pool.permitted (fun o w => decide (markedFirst annStored o w)))
      (f := reported .processed .failed 0) (by decide +kernel) (fun c a ha => permits_markedFirst ha) (fun c hfirst hfacts => ?_)
    obtain ⟨hdone, hprocessed, hfailed, hdead, _⟩ := of_decide_eq_true hfacts
    have hrun : Run (Pool.step (setup Deployment.env)) (fun _ _ => True) ⟨[], received none⟩ inTurn c :=
      hfirst.mono (fun _ _ _ _ => trivial)
    have hstatus := status_of_outcome hrun (fun _ => ⟨0, rfl⟩) rfl (hclosed none) hdone
    have hwell := endedWell_of_made hrun hdone hprocessed
    exact ⟨hdone, hwell, (hstatus.2 hfirst hdead).2 hwell (not_failed hrun (fun _ => ⟨0, rfl⟩) rfl hfailed)⟩
  · refine Transition.exists_run (b := Pool.permitted (fun o w => decide (markedFirst annStored o w)))
      (f := reported .failed .processed 1) (by decide +kernel) (fun c a ha => permits_markedFirst ha) (fun c hfirst hfacts => ?_)
    obtain ⟨hdone, hfailed, hprocessed, hdead, hqueued⟩ := of_decide_eq_true hfacts
    have hrun : Run (Pool.step (setup Deployment.env)) (fun _ _ => True)
      ⟨[], received (some 11)⟩ failedOnce c :=
      hfirst.mono (fun _ _ _ _ => trivial)
    have hstatus := status_of_outcome hrun (fun _ => ⟨0, rfl⟩) rfl (hclosed (some 11)) hdone
    have hran := failed_of_made hrun hdone hfailed
    exact ⟨hdone, hran, hqueued,
      (hstatus.2 hfirst hdead).1 hran (not_endedWell hrun (fun _ => ⟨0, rfl⟩) rfl hprocessed)⟩

def ends (status : SourceEventStatus) (c : Pool sig GoError Task World) : Bool :=
  (∀ t ∈ c.threads, t.done = true) ∧ Made (isEnd annStored .processed) c ∧ c.state.db.retryQueue.rows = [] ∧
    c.state.db.sourceEvents annStored.key = some status

theorem ends_untrue {acts : List (Act Task Move)} {w0 : World} {status : SourceEventStatus}
    {c : Pool sig GoError Task World}
    (hrun : Run (Pool.step (setup Deployment.env)) (fun _ _ => True) ⟨[], w0⟩ acts c)
    (hends : ends status c = true) : (∀ t ∈ c.threads, t.done = true) ∧
      EndedWell Deployment.env annStored c ∧ c.state.db.retryQueue.rows = [] ∧
      c.state.db.sourceEvents annStored.key = some status := by
  obtain ⟨hdone, hprocessed, hrest⟩ := of_decide_eq_true hends
  exact ⟨hdone, endedWell_of_made hrun hdone hprocessed, hrest⟩

/-- **Statuses that are not true.** The customer was created in HubSpot, and nothing is under way or queued.
    The worker was faster than the processor's mark: the event says `validated`. The first attempt failed: it
    says `failed`. -/
theorem status_untrue :
    (∃ c, Run (Pool.step (setup Deployment.env)) (fun _ _ => True) ⟨[], received none⟩ workerFirst c ∧
      (∀ t ∈ c.threads, t.done = true) ∧ EndedWell Deployment.env annStored c ∧
      c.state.db.retryQueue.rows = [] ∧ c.state.db.sourceEvents annStored.key = some .validated) ∧
    ∃ c, Run (Pool.step (setup Deployment.env)) (fun _ _ => True) ⟨[], received (some 11)⟩ retried c ∧
      (∀ t ∈ c.threads, t.done = true) ∧ EndedWell Deployment.env annStored c ∧
      c.state.db.retryQueue.rows = [] ∧ c.state.db.sourceEvents annStored.key = some .failed := by
  exact ⟨Transition.exists_run (b := fun _ _ => true) (f := ends .validated) (by decide +kernel)
      (fun _ _ _ => trivial) (fun _ hrun hends => ends_untrue hrun hends),
    Transition.exists_run (b := fun _ _ => true) (f := ends .failed) (by decide +kernel)
      (fun _ _ _ => trivial) (fun _ hrun hends => ends_untrue hrun hends)⟩

end Status
end SyncForge.Ingestion
