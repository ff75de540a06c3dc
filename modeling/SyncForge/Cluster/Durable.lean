import SyncForge.Cluster.Debt
import SyncForge.Cluster.Writes

/-!
# `Cluster.Durable` — a failed event stays somewhere

Every execution pays its own debt (`Cluster.Debt`); what can go wrong is another one removing what was stored.
A retry engine deletes the row of an event whose re-run returned `nil`, also when that only means that
somebody else held the claim.
-/

namespace SyncForge.Cluster

open Effect Effect.Prog Store Relational
open Deployment (annCreated policy world)

variable {env : Env} {db : Database} {ev : Event} {w w' : World} {t t' : Thread} {i : Nat}
  {task : Task} {c : Config} {j : Nat} {u : Thread}

/-! ## Threads -/

def settles : Call → Bool
  | .store (.deleteRetry _) | .store (.resolveDeadLetterForEvent _) => true
  | _ => false

/-- A thread pays what it owes, and removes nothing while it is inside `Process`. -/
structure Accounted (env : Env) (db : Database) (t : Thread) : Prop where
  rest : (debtMonitor db t.task.isRerun).wp (t.program env) (fun d _ => d ≠ .owing) (debt t.log)
  inside : ∀ e p, t.stage = .processing e p → Only (fun o : Call => o.isProcess = true) p

theorem start_accounted (htask : ∀ e, task ≠ .invoke e) (hev : task.event? = some ev)
    (hpolicy : ¬ MatchesNoPolicy env db ev) : Accounted env db (Thread.start env task) := by
  constructor
  · rw [Thread.program_start hev]
    exact Monitor.wp_seq_attempt (process_debt hpolicy) (fun d r hd => finish_debt htask hd)
  · intro e p hstage
    simp only [Thread.start, Task.unmarshal_of_event? hev] at hstage
    cases hstage
    exact process_only

variable {o : Call}

theorem handle_reliable (htape : ∀ n, ∃ pick, w.storeTape n = .ok pick)
    (hpolicies : w.db.policies = db.policies) : Reliable db o (World.handle env o w).1 := by
  cases o with
  | store s =>
    obtain ⟨pick, hpick⟩ := htape w.calls
    simp only [World.handle, hpick]
    cases s with
    | listPolicies tenant =>
      show w.db.policiesOf tenant = db.policiesOf tenant
      unfold Database.policiesOf
      rw [hpolicies]
    | getConnectionByProvider tenant provider =>
      simp only [Database.exec]
      cases hany : Database.anyRow pick (w.db.connectionsOf tenant provider) with
      | none => exact trivial
      | some conn =>
        have hmem := List.mem_filter.mp (List.mem_of_getElem? hany)
        exact (decide_eq_true_iff.mp hmem.2).2
    | _ => trivial
  | random => trivial
  | _ => trivial

theorem fire_accounted (ht : Accounted env db t) (htape : ∀ n, ∃ pick, w.storeTape n = .ok pick)
    (hpolicies : w.db.policies = db.policies) (hf : Fire env t w t' w') : Accounted env db t' := by
  obtain ⟨htask, hprog⟩ := hf.program
  constructor
  · rw [htask]
    rcases hprog with ⟨hp, _, hlog⟩ | ⟨o, k, _, hp, hp', _, hlog⟩
    · rw [hp, hlog]; exact ht.rest
    · have hrest := ht.rest
      rw [hp] at hrest
      rw [hp', hlog, debt_snoc]
      exact hrest.2 _ (handle_reliable htape hpolicies)
  · intro e p hstage
    cases hf with
    | processCall hst =>
      cases hstage
      exact (ht.inside _ _ hst).2 _
    | processReturn hst => cases hstage
    | finishCall hst => cases hstage

theorem settles_cases (h : settles o = true) :
    (∃ key, o = .store (.deleteRetry key)) ∨ ∃ key, o = .store (.resolveDeadLetterForEvent key) := by
  cases o with
  | store s =>
    cases s with
    | deleteRetry key => exact .inl ⟨key, rfl⟩
    | resolveDeadLetterForEvent key => exact .inr ⟨key, rfl⟩
    | _ => cases h
  | _ => cases h

theorem settles_not_process (h : settles o = true) : o.isProcess = false := by
  cases o with
  | store s => cases s <;> first | rfl | cases h
  | _ => cases h

/-- A thread about to remove something has its `Process` behind it. -/
theorem result_of_settles (hd : Disciplined t) (hev : t.task.event? = some ev)
    (ht : Accounted env db t) (ho : t.nextCall = some o) (hs : settles o = true) : t.result ≠ none := by
  unfold Thread.nextCall at ho
  split at ho
  · rename_i e o' k hstage
    cases ho
    have hprocess : o.isProcess = true := (ht.inside _ _ hstage).1
    rw [settles_not_process hs] at hprocess
    cases hprocess
  · rename_i res o' k hstage
    cases res with
    | none =>
      simp only [Disciplined, hstage] at hd
      rw [hd.1] at hev
      cases hev
    | some r => simp [Thread.result, hstage]
  · cases ho

/-! ## Settled for good -/

/-- The claim of `key` is there, and no execution that could still release it is at work. -/
def Settled (key : EventKey) (c : Config) : Prop :=
  c.world.db.processed key = true ∧
    ∀ (i : Nat) t e, c.threads[i]? = some t → t.task.event? = some e → e.key = key → hold t.log = .held →
      t.result ≠ none

/-- A thread whose `Process` has returned keeps its claim as it is. -/
theorem hold_of_result (hd : Disciplined t) (hres : t.result ≠ none) (hf : Fire env t w t' w') :
    hold t'.log = hold t.log := by
  cases hf with
  | processCall hstage => exact absurd (by simp [Thread.result, hstage]) hres
  | processReturn hstage => rfl
  | @finishCall res o k hstage =>
    cases res with
    | none => exact absurd (by simp [Thread.result, hstage]) hres
    | some er =>
      simp only [Disciplined, hstage] at hd
      rw [hold_snoc, quiet_next (isBookkeeping_quiet hd.2.2.2.1)]

theorem result_ne_none (hf : Fire env t w t' w') (hres : t.result ≠ none) : t'.result ≠ none := by
  obtain ⟨r, hr⟩ := Option.ne_none_iff_exists'.mp hres
  rw [fire_result hf hr]
  exact Option.some_ne_none r

theorem settled_of_result (hc : Exclusive c) (hi : c.threads[i]? = some t) (hev : t.task.event? = some ev)
    (hheld : hold t.log = .held) (hres : t.result ≠ none) : Settled ev.key c := by
  have hholds : Holds c i ev.key := ⟨t, ev, hi, hev, rfl, hheld⟩
  refine ⟨hc.row i _ hholds, fun j u e hj he hkey hg => ?_⟩
  have hij : j = i := hc.unique j i ev.key ⟨u, e, hj, he, hkey, hg⟩ hholds
  subst hij
  rw [hi] at hj
  cases hj
  exact hres

variable {key : EventKey}

/-- **Step lemma**: an event that is claimed, and that no thread holds, stays so. -/
theorem settled_step {c' : Config} {l : Label} (hc : Exclusive c) (hs : Step env c l c') (h : Settled key c) :
    Settled key c' := by
  obtain ⟨hrow, hholders⟩ := h
  -- the claim row, and the holders, before and after the step of one thread
  have hmoved : ∀ (i : Nat) t t', c.threads[i]? = some t → Fire env t c.world t' c'.world →
      c'.world.db.processed key = true ∧
        ∀ e, t.task.event? = some e → e.key = key → hold t'.log = .held → t'.result ≠ none := by
    intro i t t' hi hf
    have hd := hc.disciplined i t hi
    rcases fire_claims hd hf with ⟨ev, hev, heff⟩ | ⟨hev, hrows⟩
    · cases heff with
      | none hg hrows =>
        refine ⟨(hrows key).trans hrow, fun e he hkey hheld => ?_⟩
        rcases hg with hg | hg
        · exact result_ne_none hf (hholders i t e hi he hkey (hg ▸ hheld))
        · rw [hg] at hheld; cases hheld
      | obtained hg hbefore hafter hrows =>
        by_cases hk : key = ev.key
        · subst hk
          rw [hrow] at hbefore
          cases hbefore
        · refine ⟨(hrows key hk).trans hrow, fun e he hkey _ => ?_⟩
          rw [hev] at he
          cases he
          exact absurd hkey.symm hk
      | released hg hg' hrows =>
        by_cases hk : key = ev.key
        · subst hk
          have hres := hholders i t ev hi hev rfl hg
          rw [hold_of_result hd hres hf, hg] at hg'
          cases hg'
        · exact ⟨(hrows key hk).trans hrow, fun e _ _ hheld => by rw [hg'] at hheld; cases hheld⟩
    · exact ⟨(hrows key).trans hrow, fun e he => by rw [hev] at he; cases he⟩
  by_cases hl : ∃ i, l = .fire i
  · obtain ⟨i, rfl⟩ := hl
    refine ⟨?_, fun j u e hj he hkey hheld => ?_⟩
    · cases hs with
      | fire hi hf => exact (hmoved _ _ _ hi hf).1
    · rcases hs.thread_origin hj with hj | ⟨task, rfl, _⟩ | ⟨t, hi, _, hf⟩
      · exact hholders j u e hj he hkey hheld
      · cases hheld
      · exact (hmoved j t u hi hf).2 e (by rw [← fire_task hf]; exact he) hkey hheld
  · have hne : ∀ i, l ≠ .fire i := fun i h => hl ⟨i, h⟩
    refine ⟨by rw [hs.db_eq hne]; exact hrow, fun j u e hj he hkey hheld => ?_⟩
    rcases hs.thread_origin hj with hj | ⟨task, rfl, _⟩ | ⟨_, _, h, _⟩
    · exact hholders j u e hj he hkey hheld
    · cases hheld
    · exact absurd h (hne j)

/-! ## The cluster -/

/-- Events stand under their own row key, and under the row key of `ev` there is only `ev`. -/
def Owns (ev : Event) (b : Bytes) (key : RowKey) : Prop :=
  (∀ e, b = .event e → e.rowKey = key) ∧ (key = ev.rowKey → b = .event ev)

def Queued (ev : Event) (db : Database) : Prop :=
  ∃ r, db.retryQueue.get? ev.rowKey = some r ∧ r.state = .event ev

def Parked (ev : Event) (db : Database) : Prop :=
  ∃ d, db.deadLetters ev.rowKey = some d ∧ d.payload = .event ev ∧ d.status ≠ .resolved

/-- The thread is inside `Process` with the claim, or owes the event a durable place. -/
def Thread.InDebt (t : Thread) : Prop :=
  debt t.log = .held ∧ t.result = none ∨ debt t.log = .owing

def Indebted (ev : Event) (c : Config) : Prop :=
  ∃ (j : Nat) (u : Thread), c.threads[j]? = some u ∧ u.task.event? = some ev ∧ u.InDebt

def Safe (ev : Event) (c : Config) : Prop :=
  Settled ev.key c ∨ Queued ev c.world.db ∨ Parked ev c.world.db ∨ Indebted ev c

structure Durable (env : Env) (w : World) (ev : Event) (c : Config) : Prop where
  exclusive : Exclusive c
  carried : Carried env (Owns ev) c
  tape : c.world.storeTape = w.storeTape
  policies : c.world.db.policies = w.db.policies
  tasks : ∀ (i : Nat) t, c.threads[i]? = some t → ∀ e, t.task ≠ .invoke e
  threads : ∀ (i : Nat) t, c.threads[i]? = some t → t.task.event? = some ev → Accounted env w.db t
  refused : ∀ (i : Nat) t, c.threads[i]? = some t → t.task.event? = some ev → t.task.isRerun = true →
    debt t.log = .refused → Settled ev.key c
  parked : ∀ (i : Nat) t, c.threads[i]? = some t → t.task.event? = some ev → debt t.log = .parked →
    Settled ev.key c ∨ Parked ev c.world.db
  safe : ∀ (i : Nat) t, c.threads[i]? = some t → t.task.event? = some ev → debt t.log ≠ .fresh →
    Settled ev.key c ∨ Queued ev c.world.db ∨ Parked ev c.world.db ∨ Indebted ev c

/-- A re-run by a retry engine is about to ask for a claim that another execution holds inside `Process`. -/
def meetsHolder (key : EventKey) (c : Config) : Label → Bool
  | .fire i =>
    match c.threads[i]? with
    | none => false
    | some t =>
      match t.task, t.nextCall with
      | .retry _, some (.store (.claimProcessedEvent k)) =>
        k = key && c.threads.any (fun u =>
          u.task.event?.map Event.key = some key && hold u.log = .held && u.result.isNone)
      | _, _ => false
  | _ => false

/-! ### Rows and calls -/

theorem bytes_of_event? (h : task.event? = some ev) : task.bytes = .event ev := by
  have hb := Task.unmarshal_of_event? h
  cases hbytes : task.bytes with
  | event e => rw [hbytes] at hb; cases hb; rfl
  | garbage text => rw [hbytes] at hb; cases hb

/-- Another event's calls leave the rows of `ev` alone. -/
theorem keeps_frame {w : World} {o : Call} {bytes : Bytes} {key : RowKey} (ho : Keeps bytes key o)
    (hne : key ≠ ev.rowKey) : (Queued ev w.db → Queued ev (World.handle env o w).2.db) ∧
      (Parked ev w.db → Parked ev (World.handle env o w).2.db) := by
  refine ⟨fun h => ?_, fun h => ?_⟩
  · unfold Queued
    rwa [World.handle_retryQueue (ho.writesRetry hne)]
  · unfold Parked
    rwa [World.handle_deadLetters (ho.writesDeadLetter hne)]

theorem queued_enqueue {db : Database} {now : Time} {pick : Nat} {e : RetryEntry} {delay : Duration}
    (ho : Keeps (.event ev) ev.rowKey (.store (.enqueueRetry e delay))) :
    Queued ev (Database.exec now pick (.enqueueRetry e delay) db).2 := by
  obtain ⟨hstate, hkey⟩ := ho
  refine ⟨db.retryRow now e delay, ?_, ?_⟩
  · show (db.retryQueue.upsert (db.retryRow now e delay)).get? ev.rowKey = _
    rw [← hkey, ← @Database.retryRow_key db now e delay]
    exact Table.get?_upsert_self
  · rw [← hstate]
    unfold Database.retryRow
    split <;> rfl

theorem parked_insert {db : Database} {now : Time} {pick : Nat} {d : DeadLetter}
    (ho : Keeps (.event ev) ev.rowKey (.store (.insertDeadLetter d))) :
    Parked ev (Database.exec now pick (.insertDeadLetter d) db).2 := by
  obtain ⟨hpayload, hkey⟩ := ho
  refine ⟨{ d with status := .open }, ?_, hpayload, nofun⟩
  show Function.update db.deadLetters d.key _ ev.rowKey = _
  rw [← hkey]
  exact Function.update_self _ _ _

theorem queued_handle (ho : Keeps (.event ev) ev.rowKey o)
    (hdel : ∀ k, o ≠ .store (.deleteRetry k)) (h : Queued ev w.db) :
    Queued ev (World.handle env o w).2.db := by
  rcases @World.handle_db env w o with hdb | ⟨s, pick, rfl, _, hdb⟩
  · rw [hdb]; exact h
  · rw [hdb]
    cases s with
    | enqueueRetry e delay => exact queued_enqueue ho
    | deleteRetry k => exact absurd rfl (hdel k)
    | _ => exact h

theorem parked_handle {w : World} {o : Call} (ho : Keeps (.event ev) ev.rowKey o)
    (hres : ∀ k, o ≠ .store (.resolveDeadLetterForEvent k)) (h : Parked ev w.db) :
    Parked ev (World.handle env o w).2.db := by
  rcases @World.handle_db env w o with hdb | ⟨s, pick, rfl, _, hdb⟩
  · rw [hdb]; exact h
  · rw [hdb]
    cases s with
    | insertDeadLetter d => exact parked_insert ho
    | resolveDeadLetterForEvent k => exact absurd rfl (hres k)
    | setDeadLetterStatus k status =>
      obtain ⟨d, hd, hpayload, _⟩ := h
      obtain ⟨rfl, hstatus⟩ := ho
      refine ⟨{ d with status := status }, ?_, hpayload, hstatus⟩
      show Function.update w.db.deadLetters ev.rowKey ((w.db.deadLetters ev.rowKey).map _) ev.rowKey = _
      rw [Function.update_self, hd]
      rfl
    | _ => exact h

/-! ### What a step keeps -/

variable {w : World} {c c' : Config} {l : Label} {k : Except GoError (sig.Res o) → Sync Unit}

section

variable (hc : Durable env w ev c) (hi : c.threads[i]? = some t) (hev : t.task.event? = some ev)
  (hp : t.program env = .call o k)
include hc hi hev hp

theorem Durable.keeps : Keeps (.event ev) ev.rowKey o := by
  have hbytes := bytes_of_event? hev
  have hkey : t.task.rowKey = ev.rowKey := ((hc.carried.tasks i t hi).1 ev hbytes).symm
  have honly := hc.carried.keeps i t hi
  rw [hp, hbytes, hkey] at honly
  exact honly.1

theorem Durable.removal (ho : t.nextCall = some o) (hs : settles o = true) :
    Settled ev.key c ∨ Parked ev c.world.db ∧ ∀ key, o ≠ .store (.resolveDeadLetterForEvent key) := by
  have hacc := hc.threads i t hi hev
  have hd := hc.exclusive.disciplined i t hi
  have hres := result_of_settles hd hev hacc ho hs
  have hmay := hacc.rest
  rw [hp] at hmay
  have hheld : debt t.log = .held → Settled ev.key c := fun h =>
    settled_of_result hc.exclusive hi hev (debt_held.mp h) hres
  rcases settles_cases hs with ⟨key, rfl⟩ | ⟨key, rfl⟩
  · obtain ⟨hrerun, h | h | h⟩ := hmay.1
    · exact .inl (hheld h)
    · exact .inl (hc.refused i t hi hev hrerun h)
    · exact (hc.parked i t hi hev h).imp id (fun hpark => ⟨hpark, nofun⟩)
  · obtain ⟨hrerun, h | h⟩ := hmay.1
    · exact .inl (hheld h)
    · exact .inl (hc.refused i t hi hev hrerun h)

end

theorem Durable.stored (hc : Durable env w ev c) (hs : Step env c l c') :
    (Parked ev c.world.db → Settled ev.key c' ∨ Parked ev c'.world.db) ∧
      (Queued ev c.world.db → Settled ev.key c' ∨ Queued ev c'.world.db ∨ Parked ev c'.world.db) := by
  have hsettled : Settled ev.key c → Settled ev.key c' := settled_step hc.exclusive hs
  by_cases hl : ∃ i, l = .fire i
  · obtain ⟨i, rfl⟩ := hl
    cases hs with
    | @fire _ t t' w' hi hf =>
      obtain ⟨_, ⟨_, rfl, _⟩ | ⟨o, k, hnext, hp, _, rfl, _⟩⟩ := hf.program
      · exact ⟨Or.inr, fun h => .inr (.inl h)⟩
      · by_cases hev : t.task.event? = some ev
        · have hkeeps := hc.keeps hi hev hp
          by_cases hset : settles o = true
          · rcases hc.removal hi hev hp hnext hset with h | ⟨hpark, hnot⟩
            · exact ⟨fun _ => .inl (hsettled h), fun _ => .inl (hsettled h)⟩
            · have hafter := @parked_handle env _ _ _ hkeeps hnot hpark
              exact ⟨fun _ => .inr hafter, fun _ => .inr (.inr hafter)⟩
          · have hdel : ∀ key, o ≠ .store (.deleteRetry key) := by rintro key rfl; exact hset rfl
            have hres : ∀ key, o ≠ .store (.resolveDeadLetterForEvent key) := by rintro key rfl; exact hset rfl
            exact ⟨fun h => .inr (parked_handle hkeeps hres h),
              fun h => .inr (.inl (queued_handle hkeeps hdel h))⟩
        · -- another event's thread writes under another row key
          have honly := hc.carried.keeps i t hi
          rw [hp] at honly
          have hne : t.task.rowKey ≠ ev.rowKey := by
            intro hkey
            have hbytes := (hc.carried.tasks i t hi).2 hkey
            exact hev (by rw [Task.event?, hbytes]; rfl)
          obtain ⟨hq, hpk⟩ := @keeps_frame env _ c.world _ _ _ honly.1 hne
          exact ⟨fun h => .inr (hpk h), fun h => .inr (.inl (hq h))⟩
  · rw [hs.db_eq (fun i h => hl ⟨i, h⟩)]
    exact ⟨Or.inr, fun h => .inr (.inl h)⟩

/-! ### Debts -/

theorem next_held (o : Call) (r : Except GoError (sig.Res o)) : Debt.next .held o r = .held ∨
    Debt.next .held o r = .owing := by
  cases o with
  | store s => cases s <;> first | exact .inl rfl | exact .inr rfl
  | _ => exact .inl rfl

theorem next_owing (o : Call) (r : Except GoError (sig.Res o)) :
    Debt.next .owing o r = .owing ∨ (∃ e delay, o = .store (.enqueueRetry e delay)) ∨
      ∃ d, o = .store (.insertDeadLetter d) := by
  cases o with
  | store s =>
    cases s with
    | enqueueRetry e delay => exact .inr (.inl ⟨e, delay, rfl⟩)
    | insertDeadLetter d => exact .inr (.inr ⟨d, rfl⟩)
    | _ => exact .inl rfl
  | _ => exact .inl rfl

variable {r : Except GoError (sig.Res o)}

theorem next_fresh (h : Debt.next .fresh o r ≠ .fresh) : ∃ key, o = .store (.claimProcessedEvent key) := by
  cases o with
  | store s =>
    cases s with
    | claimProcessedEvent key => exact ⟨key, rfl⟩
    | _ => exact absurd rfl h
  | _ => exact absurd rfl h

theorem next_queued (o : Call) (r : Except GoError (sig.Res o)) : Debt.next .queued o r = .queued ∧
    Debt.next .parked o r = .parked := by
  cases o with
  | store s => cases s <;> exact ⟨rfl, rfl⟩
  | _ => exact ⟨rfl, rfl⟩

theorem next_refused {d : Debt} (h : d.next o r = .refused) : d = .refused ∨ d = .fresh := by
  cases d with
  | fresh => exact .inr rfl
  | refused => exact .inl rfl
  | held => rcases next_held o r with h' | h' <;> rw [h'] at h <;> cases h
  | owing =>
    rcases next_owing o r with h' | ⟨e, delay, rfl⟩ | ⟨l, rfl⟩
    · rw [h'] at h; cases h
    · cases r <;> cases h
    · cases r <;> cases h
  | queued => rw [(next_queued o r).1] at h; cases h
  | parked => rw [(next_queued o r).2] at h; cases h

theorem next_parked {d : Debt} (h : d.next o r = .parked) :
    d = .parked ∨ ∃ l, o = .store (.insertDeadLetter l) := by
  cases d with
  | parked => exact .inl rfl
  | owing =>
    rcases next_owing o r with h' | ⟨e, delay, rfl⟩ | hl
    · rw [h'] at h; cases h
    · cases r <;> cases h
    · exact .inr hl
  | held => rcases next_held o r with h' | h' <;> rw [h'] at h <;> cases h
  | queued => rw [(next_queued o r).1] at h; cases h
  | fresh =>
    obtain ⟨key, rfl⟩ := next_fresh (r := r) (by rw [h]; nofun)
    match r, h with
    | .ok true, h => cases h
    | .ok false, h => cases h
    | .error _, h => cases h
  | refused =>
    cases o with
    | store s => cases s <;> cases h
    | _ => cases h

theorem handle_store_db {w : World} (htape : ∀ n, ∃ pick, w.storeTape n = .ok pick) (s : StoreOp) :
    ∃ pick, (World.handle env (.store s) w).2.db = (Database.exec w.now pick s w.db).2 := by
  obtain ⟨pick, hpick⟩ := htape w.calls
  rcases World.handle_store env w s with ⟨text, htext, _⟩ | ⟨pick', _, h⟩
  · rw [hpick] at htext
    cases htext
  · exact ⟨pick', by rw [h]; rfl⟩

theorem inDebt_or_settled (hc : Exclusive c) (hi : c.threads[i]? = some t)
    (hev : t.task.event? = some ev) (hheld : debt t.log = .held) : Settled ev.key c ∨ t.InDebt := by
  by_cases hres : t.result = none
  · exact .inr (.inl ⟨hheld, hres⟩)
  · exact .inl (settled_of_result hc hi hev (debt_held.mp hheld) hres)

theorem Durable.debt_step (hc : Durable env w ev c) (htape : ∀ n, ∃ pick, w.storeTape n = .ok pick)
    (hexcl : Exclusive c') (hi : c.threads[i]? = some t)
    (hi' : c'.threads[i]? = some t') (hev : t.task.event? = some ev) (hf : Fire env t c.world t' c'.world)
    (hdebt : t.InDebt) : Safe ev c' := by
  obtain ⟨htask, hprog⟩ := hf.program
  have hev' : t'.task.event? = some ev := by rw [htask]; exact hev
  have hcont : Settled ev.key c' ∨ t'.InDebt → Safe ev c' := by
    rintro (h | h)
    · exact .inl h
    · exact .inr (.inr (.inr ⟨i, t', hi', hev', h⟩))
  rcases hprog with ⟨_, _, hlog⟩ | ⟨o, k, hnext, hp, _, hw, hlog⟩
  · rcases hdebt with ⟨hheld, _⟩ | howing
    · exact hcont (inDebt_or_settled hexcl hi' hev' (by rw [hlog]; exact hheld))
    · exact hcont (.inr (.inr (by rw [hlog]; exact howing)))
  · have hkeeps := hc.keeps hi hev hp
    have hafter : debt t'.log = (debt t.log).next o (World.handle env o c.world).1 := by rw [hlog, debt_snoc]
    rcases hdebt with ⟨hheld, _⟩ | howing
    · rw [hheld] at hafter
      rcases next_held o (World.handle env o c.world).1 with h | h
      · exact hcont (inDebt_or_settled hexcl hi' hev' (hafter.trans h))
      · exact hcont (.inr (.inr (hafter.trans h)))
    · rw [howing] at hafter
      rcases next_owing o (World.handle env o c.world).1 with h | ⟨e, delay, rfl⟩ | ⟨d, rfl⟩
      · exact hcont (.inr (.inr (hafter.trans h)))
      · obtain ⟨pick, hdb⟩ := @handle_store_db env c.world (by rw [hc.tape]; exact htape) (.enqueueRetry e delay)
        exact .inr (.inl (by rw [hw, hdb]; exact queued_enqueue hkeeps))
      · obtain ⟨pick, hdb⟩ := @handle_store_db env c.world (by rw [hc.tape]; exact htape) (.insertDeadLetter d)
        exact .inr (.inr (.inl (by rw [hw, hdb]; exact parked_insert hkeeps)))

theorem holder_or_settled (hrow : c.world.db.processed key = true) :
    Settled key c ∨ ∃ (j : Nat) (u : Thread) (e : Event), c.threads[j]? = some u ∧ u.task.event? = some e ∧
      e.key = key ∧ hold u.log = .held ∧ u.result = none := by
  by_cases h : ∃ (j : Nat) (u : Thread) (e : Event), c.threads[j]? = some u ∧ u.task.event? = some e ∧
      e.key = key ∧ hold u.log = .held ∧ u.result = none
  · exact .inr h
  · refine .inl ⟨hrow, fun j u e hj he hkey hheld hres => h ⟨j, u, e, hj, he, hkey, hheld, hres⟩⟩

theorem Durable.claim_step (hc : Durable env w ev c) (htape : ∀ n, ∃ pick, w.storeTape n = .ok pick)
    (hi : c.threads[i]? = some t) (hev : t.task.event? = some ev)
    (hf : Fire env t c.world t' w') (hfresh : debt t.log = .fresh) (hstarted : debt t'.log ≠ .fresh) :
    t.nextCall = some (.store (.claimProcessedEvent ev.key)) ∧
      (debt t'.log = .held ∨ debt t'.log = .refused ∧ c.world.db.processed ev.key = true) := by
  obtain ⟨_, ⟨_, _, hlog⟩ | ⟨o, k, hnext, hp, _, hw, hlog⟩⟩ := hf.program
  · rw [hlog] at hstarted
    exact absurd hfresh hstarted
  · rw [hlog, debt_snoc, hfresh] at hstarted ⊢
    obtain ⟨key, rfl⟩ := next_fresh hstarted
    obtain rfl := claim_own (hc.exclusive.disciplined i t hi) hev hnext
    refine ⟨hnext, ?_⟩
    rcases @World.handle_claim env c.world ev.key with ⟨e, he⟩ | ⟨hans, _⟩
    · obtain ⟨pick, hpick⟩ := htape c.world.calls
      rw [← hc.tape] at hpick
      simp [World.handle, hpick, Database.exec] at he
    · simp only [hans]
      cases hrow : c.world.db.processed ev.key with
      | true => exact .inr ⟨rfl, rfl⟩
      | false => exact .inl rfl

theorem meetsHolder_of_holder (hi : c.threads[i]? = some t)
    (hrerun : t.task.isRerun = true) (hnext : t.nextCall = some (.store (.claimProcessedEvent key)))
    {e : Event} (hj : c.threads[j]? = some u) (he : u.task.event? = some e)
    (hkey : e.key = key) (hheld : hold u.log = .held) (hres : u.result = none) :
    meetsHolder key c (.fire i) = true := by
  cases htask : t.task with
  | retry row =>
    have hany : c.threads.any (fun u =>
        u.task.event?.map Event.key = some key && hold u.log = .held && u.result.isNone) = true := by
      rw [List.any_eq_true]
      exact ⟨u, List.mem_of_getElem? hj, by simp [he, hkey, hheld, hres]⟩
    simp only [meetsHolder, hi, htask, hnext, hany, decide_true, Bool.and_true]
  | _ => rw [htask] at hrerun; cases hrerun

theorem storeTape_step (hs : Step env c l c') : c'.world.storeTape = c.world.storeTape := by
  cases hs with
  | fire hi hf =>
    obtain ⟨_, ⟨_, rfl, _⟩ | ⟨o, k, _, _, _, rfl, _⟩⟩ := hf.program
    · rfl
    · exact World.handle_tapes.2.1
  | pollFailed => exact World.handle_tapes.2.1
  | poll hdue => exact World.handle_tapes.2.1
  | _ => rfl

/-- No other component calls `Process`. -/
def isInvoke : Label → Bool
  | .invoke _ => true
  | _ => false

theorem tasks_step (hs : Step env c l c') (hl : isInvoke l = false)
    (hc : ∀ (i : Nat) t, c.threads[i]? = some t → ∀ e, t.task ≠ .invoke e) :
    ∀ (i : Nat) t, c'.threads[i]? = some t → ∀ e, t.task ≠ .invoke e := by
  have hnew : ∀ task, (∀ e, task ≠ .invoke e) → ∀ (i : Nat) t,
      (c.threads ++ [Thread.start env task])[i]? = some t → ∀ e, t.task ≠ .invoke e := by
    intro task htask i t hi
    rcases List.mem_append.mp (List.mem_of_getElem? hi) with hmem | hmem
    · obtain ⟨j, hj⟩ := List.mem_iff_getElem?.mp hmem
      exact hc j t hj
    · rwa [List.mem_singleton.mp hmem]
  intro i t hi
  cases hs with
  | deliver value => exact hnew _ (fun e h => by cases h) i t hi
  | invoke e => cases hl
  | next he hbatch => exact hnew _ (fun e h => by cases h) i t hi
  | @fire j u u' w' hj hf =>
    rcases List.mem_or_eq_of_mem_set (List.mem_of_getElem? hi) with hmem | rfl
    · obtain ⟨j, hj⟩ := List.mem_iff_getElem?.mp hmem
      exact hc j t hj
    · rw [fire_task hf]
      exact hc j u hj
  | _ => exact hc i t hi

theorem Durable.same_event (hc : Durable env w ev c) {e : Event}
    (hj : c.threads[j]? = some u) (he : u.task.event? = some e) (hkey : e.key = ev.key) : e = ev := by
  have hbytes := bytes_of_event? he
  have howns := hc.carried.tasks j u hj
  have hrow : e.rowKey = ev.rowKey := by
    have htenant := congrArg EventKey.tenantID hkey
    have hid := congrArg EventKey.eventID hkey
    simp only [Event.key] at htenant hid
    simp only [Event.rowKey, htenant, hid]
  have hsame := howns.2 ((howns.1 e hbytes).symm.trans hrow)
  rw [hbytes] at hsame
  cases hsame
  rfl

section Stepping

variable (htape : ∀ n, ∃ pick, w.storeTape n = .ok pick) (hc : Durable env w ev c) {i : Nat} {t' : Thread}

include htape hc

theorem Durable.safe_step (hs : Step env c l c') (h : Safe ev c) : Safe ev c' := by
  obtain ⟨hparked, hqueued⟩ := hc.stored hs
  rcases h with h | h | h | ⟨j, u, hj, hev, hdebt⟩
  · exact .inl (settled_step hc.exclusive hs h)
  · rcases hqueued h with h | h | h
    · exact .inl h
    · exact .inr (.inl h)
    · exact .inr (.inr (.inl h))
  · rcases hparked h with h | h
    · exact .inl h
    · exact .inr (.inr (.inl h))
  · rcases hs.thread_persists hj with hj' | ⟨u', hj', hf⟩
    · exact .inr (.inr (.inr ⟨j, u, hj', hev, hdebt⟩))
    · exact hc.debt_step htape (exclusive_step hc.exclusive hs) hj hj' hev hf hdebt

theorem Durable.refused_claim (hi : c.threads[i]? = some t)
    (hmeets : meetsHolder ev.key c (.fire i) = false) (hev : t.task.event? = some ev)
    (hf : Fire env t c.world t' w') (hfresh : debt t.log = .fresh) (hrefused : debt t'.log = .refused) :
    (Settled ev.key c ∨ Indebted ev c) ∧ (t.task.isRerun = true → Settled ev.key c) := by
  obtain ⟨hnext, hcase⟩ := hc.claim_step htape hi hev hf hfresh (by rw [hrefused]; nofun)
  rcases hcase with h | ⟨_, hrow⟩
  · rw [hrefused] at h
    cases h
  rcases holder_or_settled hrow with h | ⟨j, u, e, hj, he, hkey, hheld, hres⟩
  · exact ⟨.inl h, fun _ => h⟩
  · have hsame : e = ev := hc.same_event hj he hkey
    subst hsame
    refine ⟨.inr ⟨j, u, hj, he, .inl ⟨debt_held.mpr hheld, hres⟩⟩, fun hrerun => ?_⟩
    rw [meetsHolder_of_holder hi hrerun hnext hj he hkey hheld hres] at hmeets
    cases hmeets

theorem Durable.refused_step (hmeets : meetsHolder ev.key c l = false) (hs : Step env c l c')
    (hi : c'.threads[i]? = some t') (hev : t'.task.event? = some ev) (hrerun : t'.task.isRerun = true)
    (hrefused : debt t'.log = .refused) : Settled ev.key c' := by
  apply settled_step hc.exclusive hs
  rcases hs.thread_origin hi with hi | ⟨task, rfl, _⟩ | ⟨t, hi, rfl, hf⟩
  · exact hc.refused i t' hi hev hrerun hrefused
  · cases hrefused
  · rw [fire_task hf] at hev hrerun
    have hbefore : debt t.log = .refused ∨ debt t.log = .fresh := by
      obtain ⟨_, ⟨_, _, hlog⟩ | ⟨o, k, _, _, _, _, hlog⟩⟩ := hf.program
      · rw [hlog] at hrefused
        exact .inl hrefused
      · rw [hlog, debt_snoc] at hrefused
        exact next_refused hrefused
    rcases hbefore with h | h
    · exact hc.refused i t hi hev hrerun h
    · exact (hc.refused_claim htape hi hmeets hev hf h hrefused).2 hrerun

theorem Durable.parked_step (hs : Step env c l c') (hi : c'.threads[i]? = some t')
    (hev : t'.task.event? = some ev) (hdebt : debt t'.log = .parked) :
    Settled ev.key c' ∨ Parked ev c'.world.db := by
  have hbefore : ∀ t, c.threads[i]? = some t → t.task.event? = some ev → debt t.log = .parked →
      Settled ev.key c' ∨ Parked ev c'.world.db := by
    intro t hi hev h
    rcases hc.parked i t hi hev h with h | h
    · exact .inl (settled_step hc.exclusive hs h)
    · exact (hc.stored hs).1 h
  rcases hs.thread_origin hi with hi | ⟨task, rfl, _⟩ | ⟨t, hi, _, hf⟩
  · exact hbefore t' hi hev hdebt
  · cases hdebt
  · rw [fire_task hf] at hev
    obtain ⟨_, ⟨_, _, hlog⟩ | ⟨o, k, _, hp, _, hw, hlog⟩⟩ := hf.program
    · rw [hlog] at hdebt
      exact hbefore t hi hev hdebt
    · rw [hlog, debt_snoc] at hdebt
      rcases next_parked hdebt with h | ⟨d, rfl⟩
      · exact hbefore t hi hev h
      · obtain ⟨pick, hdb⟩ := @handle_store_db env c.world (by rw [hc.tape]; exact htape) (.insertDeadLetter d)
        rw [hw, hdb]
        exact .inr (parked_insert (hc.keeps hi hev hp))

theorem Durable.started_step (hmeets : meetsHolder ev.key c l = false) (hs : Step env c l c')
    (hi : c'.threads[i]? = some t') (hev : t'.task.event? = some ev) (hstarted : debt t'.log ≠ .fresh) :
    Safe ev c' := by
  rcases hs.thread_origin hi with hi0 | ⟨task, rfl, _⟩ | ⟨t, hi0, rfl, hf⟩
  · exact hc.safe_step htape hs (hc.safe i t' hi0 hev hstarted)
  · exact absurd rfl hstarted
  · have hev' : t.task.event? = some ev := by
      rwa [← fire_task hf]
    by_cases hfresh : debt t.log = .fresh
    · rcases (hc.claim_step htape hi0 hev' hf hfresh hstarted).2 with h | ⟨h, _⟩
      · rcases inDebt_or_settled (exclusive_step hc.exclusive hs) hi hev h with h | h
        · exact .inl h
        · exact .inr (.inr (.inr ⟨i, t', hi, hev, h⟩))
      · rcases (hc.refused_claim htape hi0 hmeets hev' hf hfresh h).1 with h | h
        · exact hc.safe_step htape hs (.inl h)
        · exact hc.safe_step htape hs (.inr (.inr (.inr h)))
    · exact hc.safe_step htape hs (hc.safe i t hi0 hev' hfresh)

/-- **Step lemma**: the event is settled, queued, parked or the debt of a thread. -/
theorem durable_step (hpolicy : ¬ MatchesNoPolicy env w.db ev) (hbrings : Brings (Owns ev) l)
    (hinvoke : isInvoke l = false) (hmeets : meetsHolder ev.key c l = false) (hs : Step env c l c') :
    Durable env w ev c' := by
  have htasks := tasks_step hs hinvoke hc.tasks
  have hreliable : ∀ n, ∃ pick, c.world.storeTape n = .ok pick := by
    rwa [hc.tape]
  have hthreads : ∀ (i : Nat) t, c'.threads[i]? = some t → t.task.event? = some ev →
    Accounted env w.db t := by
    intro i t' hi hev
    rcases hs.thread_origin hi with hi | ⟨task, rfl, _⟩ | ⟨t, hi, _, hf⟩
    · exact hc.threads i t' hi hev
    · exact start_accounted (htasks i _ hi) hev hpolicy
    · rw [fire_task hf] at hev
      exact fire_accounted (hc.threads i t hi hev) hreliable hc.policies hf
  exact ⟨exclusive_step hc.exclusive hs, carried_step hc.carried hbrings hs,
    (storeTape_step hs).trans hc.tape, (policies_step hs).trans hc.policies, htasks, hthreads,
    fun i t hi hev hrerun hrefused => hc.refused_step htape hmeets hs hi hev hrerun hrefused,
    fun i t hi hev hdebt => hc.parked_step htape hs hi hev hdebt,
    fun i t hi hev hstarted => hc.started_step htape hmeets hs hi hev hstarted⟩

end Stepping

/-- The thread has returned `nil`. -/
def Thread.returnedNil (t : Thread) : Bool :=
  match t.stage with
  | .finishing _ (.pure _) => true
  | _ => false

theorem Durable.done (hc : Durable env w ev c) (hi : c.threads[i]? = some t)
    (hev : t.task.event? = some ev) (hdone : t.Done) : debt t.log ≠ .fresh ∧ ¬ t.InDebt := by
  have hd := hc.exclusive.disciplined i t hi
  have hrest := (hc.threads i t hi hev).rest
  obtain ⟨res, p, hstage, hp⟩ : ∃ res p, t.stage = .finishing res p ∧
    ((∃ a, p = .pure a) ∨ ∃ e, p = .throw e) := by
    unfold Thread.Done at hdone
    split at hdone
    · rename_i res a hstage; exact ⟨res, _, hstage, .inl ⟨_, rfl⟩⟩
    · rename_i res e hstage; exact ⟨res, _, hstage, .inr ⟨_, rfl⟩⟩
    · cases hdone
  have howing : debt t.log ≠ .owing := by
    have hprogram : t.program env = p := by simp only [Thread.program, hstage]
    rw [hprogram] at hrest
    rcases hp with ⟨a, rfl⟩ | ⟨e, rfl⟩
    · exact hrest
    · exact hrest
  cases res with
  | none =>
    simp only [Disciplined, hstage] at hd
    rw [hd.1] at hev
    cases hev
  | some er =>
    obtain ⟨e, r⟩ := er
    simp only [Disciplined, hstage] at hd
    refine ⟨fun hfresh => ?_, ?_⟩
    · have hverdict := hd.2.2.1
      rw [hold_eq_toHold, hfresh] at hverdict
      rcases r with _ | _ | _ <;> rcases hverdict with h | h <;> cases h
    · rintro (⟨_, hres⟩ | h)
      · simp [Thread.result, hstage] at hres
      · exact howing h

/-- **No failed event is lost**, in every run of workers and retry engines on a store that does not fail, if
    no re-run asks for the claim while another execution of the event is inside `Process`, and no other event
    shares its row key: once some `Handle` of the event has returned `nil` and nobody is running it, its claim
    is there, or it has no policy, or a retry row or an unresolved dead letter carries it. -/
theorem failed_event_not_lost {w : World} (htape : ∀ n, ∃ pick, w.storeTape n = .ok pick)
    (hrows : ∀ r ∈ w.db.retryQueue.rows, Owns ev r.state r.key) {c : Config}
    (hr : Reach env (fun c l => (Brings (Owns ev) l ∧ isInvoke l = false) ∧ (!meetsHolder ev.key c l) = true)
      (initial w) c) (hnil : ∃ t ∈ c.threads, t.task.event?.map Event.key = some ev.key ∧ t.task.isHandle = true ∧
      t.returnedNil = true) (hidle : ∀ t ∈ c.threads, t.task.event?.map Event.key = some ev.key → t.Done) :
    c.world.db.processed ev.key = true ∨ MatchesNoPolicy env w.db ev ∨ Queued ev c.world.db ∨
      Parked ev c.world.db := by
  by_cases hpolicy : MatchesNoPolicy env w.db ev
  · exact .inr (.inl hpolicy)
  have hc : Durable env w ev c := by
    clear hnil hidle
    induction hr with
    | refl =>
      have hnone : ∀ (i : Nat) t, (initial w).threads[i]? = some t → False := by simp [initial]
      exact ⟨exclusive_initial w, carried_initial hrows, rfl, rfl, fun i t hi => (hnone i t hi).elim,
        fun i t hi => (hnone i t hi).elim, fun i t hi => (hnone i t hi).elim,
        fun i t hi => (hnone i t hi).elim, fun i t hi => (hnone i t hi).elim⟩
    | tail l _ hl hstep ih =>
      exact durable_step htape ih hpolicy hl.1.1 hl.1.2 (by simpa using hl.2) (step_inv hstep)
  obtain ⟨t, hmem, hkey, _, _⟩ := hnil
  obtain ⟨i, hi⟩ := List.mem_iff_getElem?.mp hmem
  obtain ⟨e, he, hekey⟩ := Option.map_eq_some_iff.mp hkey
  have hev : t.task.event? = some ev := by rw [he, hc.same_event hi he hekey]
  have hstarted := (hc.done hi hev (hidle t hmem hkey)).1
  rcases hc.safe i t hi hev hstarted with h | h | h | ⟨j, u, hj, hevu, hdebt⟩
  · exact .inl h.1
  · exact .inr (.inr (.inl h))
  · exact .inr (.inr (.inr h))
  · have hdone : u.Done := hidle u (List.mem_of_getElem? hj) (by rw [hevu]; rfl)
    exact absurd hdebt (hc.done hj hevu hdone).2

/-! ### Concrete runs -/

def downWorld : World :=
  { world [policy "salesforce" "hubspot"] with
    providerTape := fun _ => some ⟨.transient, "down", 0, none⟩ }

def deliversAnn : Label → Prop
  | .deliver value => value = .event annCreated
  | .invoke _ => False
  | _ => True

theorem brings_of_deliversAnn {ls : List Label} (h : ∀ l ∈ ls, deliversAnn l) :
    ∀ l ∈ ls, Brings (Owns annCreated) l ∧ isInvoke l = false := by
  intro l hl
  cases l with
  | deliver value =>
    have hvalue : value = .event annCreated := h _ hl
    subst hvalue
    refine ⟨⟨fun e he => ?_, fun _ => rfl⟩, rfl⟩
    cases he
    rfl
  | invoke e => cases h _ hl
  | _ => exact ⟨trivial, rfl⟩

def failedDelivery : List Label := .deliver (.event annCreated) :: List.replicate 14 (.fire 0)

def retryStarted : List Label := failedDelivery ++ [.tick 2000000000, .startEngine, .poll 0 100, .next 0]

theorem not_lost_after_failed_retry : ∃ c, Reach Deployment.env
        (fun c l => (Brings (Owns annCreated) l ∧ isInvoke l = false) ∧
          (!meetsHolder annCreated.key c l) = true) (initial downWorld) c ∧
      c.threads.length = 2 ∧ (∀ t ∈ c.threads, t.Done) ∧ (c.world.db.processed annCreated.key = true ∨
        MatchesNoPolicy Deployment.env downWorld.db annCreated ∨
        Queued annCreated c.world.db ∨ Parked annCreated c.world.db) := by
  have hrun : (checkedRun Deployment.env (fun c l => !meetsHolder annCreated.key c l)
      (retryStarted ++ List.replicate 14 (.fire 1)) (initial downWorld)).map
      (fun c => (c.threads.length, c.threads.all (fun t => t.Done), c.threads.any (fun t =>
        t.task.event?.map Event.key = some annCreated.key ∧ t.task.isHandle = true ∧
          t.returnedNil = true))) = some (2, true, true) := by
    decide +kernel
  obtain ⟨c, hc, hfacts⟩ := Option.map_eq_some_iff.mp hrun
  simp only [Prod.mk.injEq, List.all_eq_true, List.any_eq_true, decide_eq_true_eq] at hfacts
  obtain ⟨hthreads, hdone, hnil⟩ := hfacts
  have hreach := reach_of_checkedRun (brings_of_deliversAnn
    (by simp [retryStarted, failedDelivery, deliversAnn])) hc
  exact ⟨c, hreach, hthreads, hdone, failed_event_not_lost (fun n => ⟨0, rfl⟩)
    (fun r hr => by cases hr) hreach hnil (fun t ht _ => hdone t ht)⟩

/-- A redelivery claims the event; the re-run finds it claimed and takes that for success; the redelivery
    fails and queues the event; the re-run deletes the row. -/
def raceLost : List Label :=
  retryStarted ++ ([.deliver (.event annCreated), .fire 2, .fire 1, .fire 1]
    ++ (List.replicate 13 (.fire 2) ++ [.fire 1, .fire 1]))

/-- **A lost event.** Two deliveries of one event and one re-run, HubSpot down throughout: every `Handle`
    returned `nil`, nobody is running the event, and there is no claim, no retry row and no dead letter. -/
theorem event_lost_to_refused_retry :
    ∃ c, Reach Deployment.env (fun _ l => Brings (Owns annCreated) l ∧
      isInvoke l = false) (initial downWorld) c ∧ (∀ t ∈ c.threads, t.Done ∧ t.returnedNil = true) ∧
      c.threads.length = 3 ∧ (destinationPolicies Deployment.env downWorld.db annCreated).length = 1 ∧
      c.world.db.processed annCreated.key = false ∧ c.world.db.retryQueue.rows.length = 0 ∧
      (c.world.db.deadLetters annCreated.rowKey).isNone = true := by
  have hrun : (checkedRun Deployment.env (fun _ _ => true) raceLost (initial downWorld)).map
      (fun c => (c.threads.all (fun t => t.Done ∧ t.returnedNil = true), c.threads.length,
        c.world.db.processed annCreated.key, c.world.db.retryQueue.rows.length,
        (c.world.db.deadLetters annCreated.rowKey).isNone)) = some (true, 3, false, 0, true) := by
    decide +kernel
  obtain ⟨c, hc, hfacts⟩ := Option.map_eq_some_iff.mp hrun
  simp only [Prod.mk.injEq, List.all_eq_true, decide_eq_true_eq] at hfacts
  obtain ⟨hdone, hthreads, hclaim, hqueue, hdead⟩ := hfacts
  have hreach := reach_of_checkedRun (brings_of_deliversAnn
    (by simp [raceLost, retryStarted, failedDelivery, deliversAnn])) hc
  exact ⟨c, hreach.mono (fun _ _ h => h.1), hdone, hthreads, by decide +kernel, hclaim, hqueue, hdead⟩

end SyncForge.Cluster
