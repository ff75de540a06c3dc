import SyncForge.Retry.Desk

/-!
# `Retry.Loss` — a failing event and the store failures around it

Three store failures are swallowed on the way of an event: the insert of a parked conflict, after which
nothing tells of the edit; the release of the claim, after which every re-run takes the claim for success; and
the engine's insert of the dead letter, after which the retry row is deleted all the same. Otherwise an
acknowledged event was brought to an end or is still stored.
-/

namespace SyncForge.Desk

open Effect Effect.Prog Store
open Transition (Run)
open Cluster (Keeps Owns Queued Parked settles)
open Deployment (annCreated)
open Monitor (wp_and wp_mono wp_seq wp_seq_attempt)

variable {env : Env} {s t u : State} {a : Act} {ev : Event} {w : World}

/-! ## Where the event is stored -/

def Stored (ev : Event) (db : Database) : Prop := Queued ev db ∨ Parked ev db

def adds (ev : Event) (o : Call) : Prop := Keeps (.event ev) ev.rowKey o ∧ settles o = false

theorem stored_handle {o : Call} (ho : adds ev o) (h : Stored ev w.db) :
    Stored ev (World.handle env o w).2.db := by
  obtain ⟨hkeeps, hsettles⟩ := ho
  refine h.imp (Cluster.queued_handle hkeeps ?_) (Cluster.parked_handle hkeeps ?_)
  · rintro k rfl
    cases hsettles
  · rintro k rfl
    cases hsettles

theorem parked_delete {k : RowKey} (h : Parked ev w.db) :
    Parked ev (World.handle env (.store (.deleteRetry k)) w).2.db := by
  unfold Parked
  rwa [World.handle_deadLetters rfl]

theorem isProcess_adds {o : Call} (h : o.isProcess = true) : adds ev o :=
  ⟨Cluster.keeps_of_isProcess h, by
    cases hs : settles o with
    | false => rfl
    | true => rw [Cluster.settles_not_process hs] at h; cases h⟩

theorem process_adds : Only (adds ev) (process env ev) :=
    only_mono process_only (fun _ ho => isProcess_adds ho)

theorem adds_handsOff : HandsOff (adds ev) (.event ev) ev.rowKey :=
  ⟨⟨trivial, rfl⟩, fun _ _ h => ⟨h, rfl⟩, fun _ h => ⟨h, rfl⟩, fun _ _ => ⟨trivial, rfl⟩⟩

theorem handle_adds : Only (adds ev) (handle env (.marshal ev)) := adds_handsOff.handle process_adds

theorem dispatchFailure_stored (e : GoError) : Triple (World.handle env) (fun _ => True)
    (dispatchFailure env ev e) (fun r w => r = .ok () → Stored ev w.db) := by
  show Triple _ _ (ite _ _ _) _
  split
  · -- a retryable failure: the retry row
    refine triple_bind (R := fun _ _ => True) (fun _ _ => trivial) (fun jitter => ?_)
      (fun _ _ _ h => by cases h)
    refine triple_stmt (fun _ _ _ h => by cases h) (fun w pick _ _ => .inl ?_)
    exact @Cluster.queued_enqueue ev w.db w.now pick _ _ ⟨rfl, rfl⟩
  · -- any other failure: the dead letter, and then the status of the event, whose error is ignored
    refine triple_bind (R := fun r w => r = .ok () →
      Stored ev w.db) ?_ (fun _ => ?_) (fun _ _ _ h => by cases h)
    · refine triple_stmt (fun _ _ _ h => by cases h) (fun w pick _ _ => .inr ?_)
      exact @Cluster.parked_insert ev w.db w.now pick _ ⟨rfl, rfl⟩
    · have hstatus : adds ev (.store (.setSourceEventStatusTo ev.tenantID ev.eventID .dlq)) := ⟨trivial, rfl⟩
      have hkept : Triple (World.handle env) (fun w => Stored ev w.db)
          (tryStmt (.setSourceEventStatusTo ev.tenantID ev.eventID .dlq)) (fun _ w => Stored ev w.db) :=
        triple_of_only (only_tryStmt hstatus) (fun w o ho hw => stored_handle ho hw)
      exact triple_mono hkept (fun _ h => h rfl) (fun _ _ h _ => h)

/-! ## What becomes of the claim -/

/-- Answers under which `Process` parks what it says it parks and gives its claim back. -/
def released (o : Call) (r : Except GoError (sig.Res o)) : Bool :=
  match o, r with
  | .store (.insertConflict _), .error _ => false
  | .store (.releaseProcessedEvent _), .error _ => false
  | _, _ => true

def releasedAndParked (o : Call) (r : Except GoError (sig.Res o)) : Bool :=
  match o, r with
  | .store (.insertConflict _), .error _ => false
  | .store (.releaseProcessedEvent _), .error _ => false
  | .store (.insertDeadLetter _), .error _ => false
  | _, _ => true

theorem recorded_of_released {o : Call} {r : Except GoError (sig.Res o)} (h : released o r = true) :
    recorded o r = true := by
  unfold recorded
  split
  · cases h
  · rfl

theorem recorded_of_releasedAndParked {o : Call} {r : Except GoError (sig.Res o)}
    (h : releasedAndParked o r = true) : recorded o r = true := by
  unfold recorded
  split
  · cases h
  · rfl

variable {A : (o : Call) → Except GoError (sig.Res o) → Bool}

theorem release_wp (hA : ∀ e, A (.store (.releaseProcessedEvent ev.key)) (.error e) = false)
    (status : SourceEventStatus) : (answering (World.handle env) A).wp (release ev status)
      (fun w' r => r = .ok () ∧ w'.db.processed ev.key = false) w := by
  have hrelease : (answering (World.handle env) A).wp (tryStmt (.releaseProcessedEvent ev.key))
      (fun w' r => r = .ok () ∧ w'.db.processed ev.key = false) w := by
    refine wp_seq_attempt (wp_executed hA) ?_
    rintro w' r ⟨pick, _, rfl⟩
    exact ⟨rfl, Function.update_self _ _ _⟩
  refine wp_seq hrelease (fun w' _ h => ?_) (fun _ _ h => by cases h.1)
  refine wp_tryStmt.mpr ⟨trivial, fun _ _ => ⟨rfl, ?_⟩⟩
  exact (World.handle_processed rfl).trans h.2

/-- `Process` ended without bringing the event to an end: its claim was there before, or is not there now. -/
def Unclaimed (ev : Event) (w w' : World) (r : Except GoError Outcome) : Prop :=
  concludes r = false → (w'.db.processed ev.key = true → w.db.processed ev.key = true) ∧
    (∀ outcome, r = .ok outcome → w.db.processed ev.key = true)

section

variable (hA : ∀ e, A (.store (.releaseProcessedEvent ev.key)) (.error e) = false)
include hA

theorem processClaimed_unclaimed {w' : World} : (answering (World.handle env) A).wp (processClaimed env ev)
    (Unclaimed ev w) w' := by
  have hdispatch : (answering (World.handle env) A).wp (dispatch env ev) (fun _ _ => True) w' :=
    wp_mono (wp_self _) (fun _ _ _ => trivial)
  have hended : ∀ (p : Sync Unit) (outcome : Outcome) (w1 : World), concludes (.ok outcome) = true →
      (answering (World.handle env) A).wp p (fun _ r => r = .ok ()) w1 →
      (answering (World.handle env) A).wp (p >>= fun _ => Pure.pure outcome) (Unclaimed ev w) w1 := by
    intro p outcome w1 hout hp
    refine wp_seq hp (fun _ _ _ hno => ?_) (fun _ _ h => by cases h)
    rw [hout] at hno
    cases hno
  have hmark : ∀ w1, (answering (World.handle env) A).wp (mark ev .processed) (fun _ r => r = .ok ()) w1 :=
    fun w1 => wp_tryStmt.mpr ⟨trivial, fun _ _ => rfl⟩
  refine wp_seq_attempt hdispatch (fun w1 r _ => ?_)
  cases r with
  | error e =>
    -- the work failed: only here does the event go on living, so only here the release matters
    refine wp_seq (release_wp hA _) (fun w2 _ h _ => ?_) (fun _ _ h => by cases h.1)
    refine ⟨fun hclaimed => ?_, nofun⟩
    rw [h.2] at hclaimed
    cases hclaimed
  | ok dispatched =>
    cases dispatched with
    | noPolicy => exact hended _ _ _ rfl (wp_mono (release_wp hA _) (fun _ _ h => h.1))
    | reconciled => exact hended _ _ _ rfl (hmark _)
    | applied => exact hended _ _ _ rfl (hmark _)

theorem process_unclaimed : (answering (World.handle env) A).wp (process env ev) (Unclaimed ev w) w := by
  have hclaim : (answering (World.handle env) A).wp (stmt (.claimProcessedEvent ev.key))
      (fun w' r => (∃ e, r = .error e ∧ w'.db = w.db) ∨ r = .ok (!w.db.processed ev.key)) w := by
    refine (Monitor.wp_perform _).mpr ⟨trivial, ?_⟩
    rintro r ⟨rfl, -⟩
    rcases @World.handle_claim env w ev.key with ⟨e, he⟩ | ⟨hanswer, _⟩
    · exact .inl ⟨e, by rw [he], by show (World.handle env _ w).2.db = _; rw [he]; rfl⟩
    · exact .inr hanswer
  refine wp_seq hclaim (fun w' claimed hw' => ?_) (fun w' e hw' => ?_)
  · have hclaimed : claimed = !w.db.processed ev.key := by
      rcases hw' with ⟨e, he, _⟩ | h
      · cases he
      · exact Except.ok.inj h
    cases hbefore : w.db.processed ev.key with
    | true =>
      -- the duplicate: nothing was claimed, so nothing has to be given back
      rw [hclaimed, hbefore]
      exact fun _ => ⟨fun _ => hbefore, fun _ _ => hbefore⟩
    | false =>
      rw [hclaimed, hbefore]
      exact processClaimed_unclaimed hA
  · rcases hw' with ⟨_, _, hdb⟩ | h
    · exact fun _ => ⟨fun h => by rw [← hdb]; exact h, nofun⟩
    · cases h

end

/-! ## A delivery and a re-run of the event -/

def Ended (env : Env) (ev : Event) (w : World) : Prop := w.db.processed ev.key = true ∨
    endedBy env ev w = true

/-- What is known between `Process` and what is done about its outcome. -/
theorem process_ended (hA : ∀ e, A (.store (.releaseProcessedEvent ev.key)) (.error e) = false)
    (hrecorded : ∀ o r, A o r = true → recorded o r = true) :
    (answering (World.handle env) A).wp (process env ev) (fun w' r =>
      (Stored ev w.db → Stored ev w'.db) ∧ (w'.db.processed ev.key = true → Ended env ev w) ∧
        (∀ outcome, r = .ok outcome → Ended env ev w)) w := by
  refine wp_mono (wp_and (process_unclaimed hA) (wp_and (wp_self w) (wp_meets hrecorded))) (fun w' r h => ?_)
  obtain ⟨hclaim, ⟨rfl, rfl⟩, hparked⟩ := h
  have hended : concludes (run (World.handle env) (process env ev) w).1 = true → Ended env ev w :=
    fun h => .inr (by rw [endedBy, h, hparked]; rfl)
  refine ⟨run_invariant (I := fun w : World => Stored ev w.db) process_adds
    (fun w o ho hw => stored_handle ho hw), ?_⟩
  cases hend : concludes (run (World.handle env) (process env ev) w).1 with
  | true => exact ⟨fun _ => hended hend, fun _ _ => hended hend⟩
  | false =>
    obtain ⟨hrow, hok⟩ := hclaim hend
    exact ⟨fun h => .inl (hrow h), fun outcome h => .inl (hok outcome h)⟩

theorem isBookkeeping_claims {o : Call} (h : o.isBookkeeping = true) (K : EventKey) :
    o.writesClaim K = false := by
  cases o with
  | store st => cases st <;> first | rfl | cases h
  | _ => rfl

theorem bookkeeping_processed {α : Type} {p : Sync α} (hp : OnlyBookkeeping p) (b : Bool) :
    Triple (World.handle env) (fun w => w.db.processed ev.key = b) p (fun _ w => w.db.processed ev.key = b) :=
  triple_of_only hp (fun _ _ ho hw => (World.handle_processed (isBookkeeping_claims ho ev.key)).trans hw)

/-- **A delivery**: an acknowledged event has ended or is stored. -/
theorem handle_wp : (answering (World.handle env) released).wp (handle env (.marshal ev)) (fun w' r =>
    (w'.db.processed ev.key = true → Ended env ev w) ∧
      (r = .ok () → Ended env ev w ∨ Stored ev w'.db)) w := by
  show (answering (World.handle env) released).wp ((process env ev).attempt >>= _) _ w
  refine wp_seq_attempt (process_ended (fun _ => rfl) (fun _ _ => recorded_of_released)) (fun w' r h => ?_)
  obtain ⟨_, hclaim, hok⟩ := h
  cases r with
  | ok outcome => exact ⟨hclaim, fun _ => .inl (hok outcome rfl)⟩
  | error e =>
    have hfailure : Triple (World.handle env) (fun w1 => w1.db.processed ev.key = w'.db.processed ev.key)
        (dispatchFailure env ev e)
        (fun r w1 => w1.db.processed ev.key = w'.db.processed ev.key ∧ (r = .ok () → Stored ev w1.db)) :=
      fun w1 hw1 => ⟨bookkeeping_processed dispatchFailure_only _ w1 hw1, dispatchFailure_stored e w1 trivial⟩
    refine wp_mono (wp_of_triple hfailure rfl) (fun w1 r h => ?_)
    exact ⟨fun hrow => hclaim (h.1 ▸ hrow), fun hr => .inr (h.2 hr)⟩

variable {r : RetryEntry}

section

variable (hstate : r.state = .event ev)
include hstate

theorem deadLetter_parked (hkey : r.key = ev.rowKey) (reason errorClass : String) :
    (answering (World.handle env) releasedAndParked).wp (Retry.deadLetter r reason errorClass)
      (fun w' res => res = .ok () ∧ Parked ev w'.db) w := by
  have hinsert : (answering (World.handle env) releasedAndParked).wp (stmt (.insertDeadLetter
      { tenantID := r.tenantID, eventID := r.eventID, reason, errorClass, payload := r.state }))
      (fun w' res => res = .ok () ∧ Parked ev w'.db) w := by
    refine wp_mono (wp_executed (fun _ => rfl)) ?_
    rintro w' res ⟨pick, rfl, rfl⟩
    exact ⟨rfl, @Cluster.parked_insert ev w.db w.now pick _ ⟨hstate, hkey⟩⟩
  refine wp_seq_attempt hinsert (fun w' res h => ?_)
  obtain ⟨rfl, hparked⟩ := h
  refine wp_tryStmt.mpr ⟨trivial, fun _ _ => ⟨rfl, ?_⟩⟩
  exact Cluster.parked_handle trivial nofun hparked

theorem reschedule_stored (hkey : r.key = ev.rowKey) (cause : GoError)
    (hw : Stored ev w.db) : (answering (World.handle env) releasedAndParked).wp (Retry.reschedule env r cause)
      (fun w' _ => Stored ev w'.db) w := by
  show (answering (World.handle env) releasedAndParked).wp (ite _ _ _) _ w
  split
  · -- parked, then the retry row goes
    refine wp_seq (deadLetter_parked hstate hkey _ _) (fun w' _ h => ?_) (fun _ _ h => by cases h.1)
    exact wp_tryStmt.mpr ⟨trivial, fun _ _ => .inr (parked_delete h.2)⟩
  · -- queued again; if that fails the row is as it was
    have hadds : Only (adds ev) (do
        let jitter ← perform (S := sig) .random
        tryStmt (.enqueueRetry
          { tenantID := r.tenantID, eventID := r.eventID, maxAttempts := r.maxAttempts
            lastError := cause.error, errorClass := cause.classify.1.string, state := r.state }
          (retryDelay env.options (r.attempt + 1) cause.classify.2 jitter))) :=
      only_bind (only_perform ⟨trivial, rfl⟩) (fun _ => only_tryStmt ⟨⟨hstate, hkey⟩, rfl⟩)
    have hkept := triple_of_only (I := fun w : World => Stored ev w.db) (h := World.handle env) hadds
      (fun w o ho hw => stored_handle ho hw)
    exact wp_of_triple hkept hw

theorem processRetry_event : Retry.processRetry env r =
    ((process env ev).attempt >>= fun
      | .ok _ => Retry.settle r
      | .error e => Retry.reschedule env r e) := by
  unfold Retry.processRetry
  rw [hstate]
  rfl

theorem processRetry_wp (hkey : r.key = ev.rowKey) :
    (answering (World.handle env) releasedAndParked).wp (Retry.processRetry env r) (fun w' _ =>
      (w'.db.processed ev.key = true → Ended env ev w) ∧ (Stored ev w.db → Ended env ev w ∨ Stored ev w'.db)) w := by
  rw [processRetry_event hstate]
  refine wp_seq_attempt (process_ended (fun _ => rfl) (fun _ _ => recorded_of_releasedAndParked))
    (fun w' res h => ?_)
  obtain ⟨hstored, hclaim, hok⟩ := h
  cases res with
  | ok outcome =>
    -- the engine deletes the row, a duplicate's row too
    have hend := hok outcome rfl
    exact wp_mono (wp_self _) (fun _ _ _ => ⟨fun _ => hend, fun _ => .inl hend⟩)
  | error e =>
    have hrow : (answering (World.handle env) releasedAndParked).wp (Retry.reschedule env r e)
        (fun w1 _ => w1.db.processed ev.key = w'.db.processed ev.key) w' :=
      wp_of_triple (bookkeeping_processed (Retry.reschedule_only r e) _) rfl
    by_cases hw : Stored ev w.db
    · refine wp_mono (wp_and hrow (reschedule_stored hstate hkey e (hstored hw))) (fun w1 _ h => ?_)
      exact ⟨fun hp => hclaim (h.1 ▸ hp), fun _ => .inr h.2⟩
    · exact wp_mono hrow (fun w1 _ h => ⟨fun hp => hclaim (h ▸ hp), fun h => absurd h hw⟩)

end

/-! ## The operators -/

def addsQuietly (ev : Event) (o : Call) : Prop := adds ev o ∧ o.writesClaim ev.key = false

theorem run_addsQuietly {α : Type} {p : Sync α} (hp : Only (addsQuietly ev) p) (w : World) :
    (Stored ev w.db → Stored ev (run (World.handle env) p w).2.db) ∧
      (run (World.handle env) p w).2.db.processed ev.key = w.db.processed ev.key := by
  constructor
  · exact run_invariant (I := fun w : World => Stored ev w.db) hp (fun w o ho hw => stored_handle ho.1 hw)
  · exact run_invariant (I := fun w' : World => w'.db.processed ev.key = w.db.processed ev.key) hp
      (fun w' o ho hw => (World.handle_processed ho.2).trans hw) rfl

theorem retryItem_addsQuietly {item : DeadLetter} (hpayload : item.payload = .event ev)
    (hkey : item.key = ev.rowKey) : Only (addsQuietly ev) (Api.retryItem env ev.rowKey item) := by
  refine only_lookup ⟨⟨⟨rfl, nofun⟩, rfl⟩, rfl⟩ (fun r => ?_)
  split
  · exact trivial
  · refine only_lookup ⟨⟨⟨hpayload, hkey⟩, rfl⟩, rfl⟩ (fun r => ?_)
    split <;> exact trivial

theorem discardItem_addsQuietly : Only (addsQuietly ev) (Api.discardItem ev.rowKey) := by
  refine only_lookup ⟨⟨⟨rfl, nofun⟩, rfl⟩, rfl⟩ (fun r => ?_)
  split <;> exact trivial

theorem withItem_quietly {next : DeadLetter → Sync Api.Response}
    (hnext : ∀ item, w.db.deadLetters ev.rowKey = some item → Only (addsQuietly ev) (next item)) :
    (Stored ev w.db → Stored ev (run (World.handle env) (Api.withItem ev.rowKey next) w).2.db) ∧
      (run (World.handle env) (Api.withItem ev.rowKey next) w).2.db.processed ev.key
      = w.db.processed ev.key := by
  rcases @run_withItem env ev.rowKey next w with hdb | ⟨item, hitem, hrun⟩
  · rw [hdb]
    exact ⟨id, rfl⟩
  · rw [hrun]
    exact run_addsQuietly (hnext item hitem) w.called

/-! ## The run -/

/-- The state seen from one event: only the event itself stands under its row key; its claim is there only if
    it was brought to an end; and if it was acknowledged it was brought to an end or is stored. -/
structure Traced (ev : Event) (s : State) : Prop where
  owns : Holds (Owns ev) s
  claimed : s.world.db.processed ev.key = true → ev ∈ s.concluded
  kept : ev ∈ s.acknowledged → ev ∈ s.concluded ∨ Stored ev s.world.db

/-- The conditions on a step: no other event comes in under the row key; the release of the claim does not
    fail; and the dead letter of a re-run is written. -/
def steady (env : Env) (ev : Event) (s : State) : Act → Bool
  | .deliver e =>
    e.rowKey ≠ ev.rowKey || (e = ev && meets (World.handle env) released (handle env (.marshal ev)) s.world)
  | .next =>
    match s.batch with
    | [] => true
    | r :: _ => r.key ≠ ev.rowKey || meets (World.handle env) releasedAndParked (Retry.processRetry env r) s.world
  | .decide e _ _ | .park e _ => e.rowKey ≠ ev.rowKey || e = ev
  | _ => true

theorem steady_brings {e : Event} (hs : steady env ev s a = true) (hb : brings a = some e)
    (hkey : e.rowKey = ev.rowKey) : e = ev := by
  cases a with
  | deliver e' =>
    cases hb
    simp only [steady, hkey, ne_eq, not_true_eq_false, decide_false, Bool.false_or, Bool.and_eq_true,
      decide_eq_true_eq] at hs
    exact hs.1
  | decide e' l c =>
    cases hb
    simpa [steady, hkey] using hs
  | park e' r =>
    cases hb
    simpa [steady, hkey] using hs
  | _ => cases hb

theorem owns_handled (hs : Traced ev s) (ha : steady env ev s a = true) {b : Bytes} {key : RowKey}
    (hb : handles s a = some (b, key)) : Owns ev b key := by
  rcases handles_cases hb with ⟨e, hbrings, rfl, rfl⟩ | ⟨_, hmem⟩
  · refine ⟨fun e' he' => ?_, fun hkey => ?_⟩
    · cases he'
      rfl
    · rw [steady_brings ha hbrings hkey]
  · exact hs.owns.pending hmem

theorem other_step (hs : Traced ev s) (ha : steady env ev s a = true) (h : step env s a = some u)
    (hother : ∀ b key, handles s a = some (b, key) → key ≠ ev.rowKey) :
      (Stored ev s.world.db → Stored ev u.world.db) ∧
      u.world.db.processed ev.key = s.world.db.processed ev.key := by
  have hkeyed : ∀ k d, s.world.db.deadLetters k = some d → d.key = k := fun k d hd => (hs.owns.dead k d hd).1
  constructor
  · obtain ⟨hqueue, hdead⟩ := step_frame hkeyed h hother
    unfold Stored Queued Parked
    rw [hqueue, hdead]
    exact id
  · rcases step_writes hkeyed h with hdb | ⟨b, key, hb, _, p, w, hp, hw, hu⟩
    · rw [hdb]
    · have hlogical : logical b ≠ some ev.key := by
        intro hb'
        cases b with
        | event e =>
          have hrow : e.rowKey = key := (owns_handled hs ha hb).1 e rfl
          have hkey : e.key = ev.key := Option.some.inj hb'
          have hsame : e.rowKey = ev.rowKey := by
            simp only [Event.key, EventKey.mk.injEq] at hkey
            simp [Event.rowKey, hkey]
          exact hother _ _ hb (hrow.symm.trans hsame)
        | garbage text => cases hb'
      have hrun := run_invariant (h := World.handle env) (s := w)
        (I := fun w' : World => w'.db.processed ev.key = s.world.db.processed ev.key) hp
        (fun w' o ho hw' => (World.handle_processed (ho.2 ev.key hlogical)).trans hw') (by rw [hw])
      rw [← hu] at hrun
      exact hrun

theorem operator_step (hs : Traced ev s) (hb : handles s a = some (.event ev, ev.rowKey))
    (h : step env s a = some u) (hdeliver : ∀ e, a ≠ .deliver e) (hnext : a ≠ .next) :
      (Stored ev s.world.db → Stored ev u.world.db) ∧
      u.world.db.processed ev.key = s.world.db.processed ev.key := by
  cases a with
  | deliver e => exact absurd rfl (hdeliver e)
  | next => exact absurd rfl hnext
  | poll limit => cases hb
  | tick d => cases hb
  | retry k =>
    obtain ⟨d, hd, hpair⟩ := Option.map_eq_some_iff.mp hb
    obtain ⟨hpayload, rfl⟩ := Prod.mk.inj hpair
    cases h
    refine withItem_quietly (fun item hitem => ?_)
    rw [hd] at hitem
    cases hitem
    exact retryItem_addsQuietly hpayload (hs.owns.dead _ d hd).1
  | discard k =>
    obtain ⟨d, hd, hpair⟩ := Option.map_eq_some_iff.mp hb
    obtain ⟨_, rfl⟩ := Prod.mk.inj hpair
    cases h
    exact withItem_quietly (fun item hitem => discardItem_addsQuietly)
  | decide e lastError errorClass =>
    have he : e = ev := by cases hb; rfl
    subst he
    have hadds : Only (addsQuietly e) (Api.enqueueDecision env e lastError errorClass) :=
      only_stmt ⟨⟨⟨rfl, rfl⟩, rfl⟩, rfl⟩
    cases h
    exact run_addsQuietly hadds s.world
  | park e reason =>
    have he : e = ev := by cases hb; rfl
    subst he
    have hadds : Only (addsQuietly e) (Api.parkProviderRecord e reason) :=
      only_tryStmt ⟨⟨⟨rfl, rfl⟩, rfl⟩, rfl⟩
    cases h
    exact run_addsQuietly hadds s.world

theorem step_records (h : step env s a = some u) :
    (∀ e ∈ s.concluded, e ∈ u.concluded) ∧ ∀ e ∈ u.acknowledged, e ∈ s.acknowledged ∨ a = .deliver e := by
  cases a with
  | deliver e =>
    cases h
    refine ⟨fun e he => List.mem_append_right _ he, fun e' he' => ?_⟩
    dsimp only at he'
    split at he'
    · rcases List.mem_cons.mp he' with rfl | he'
      · exact .inr rfl
      · exact .inl he'
    · exact .inl he'
  | poll limit =>
    obtain ⟨_, rfl⟩ := step_poll h
    exact ⟨fun _ he => he, fun _ he => .inl he⟩
  | next =>
    obtain ⟨r, rest, _, rfl⟩ := step_next h
    exact ⟨fun e he => List.mem_append_right _ he, fun _ he => .inl he⟩
  | _ =>
    cases h
    exact ⟨fun _ he => he, fun _ he => .inl he⟩

theorem mem_concluded (hs : Traced ev s) (hend : Ended env ev s.world) :
    ev ∈ concludedBy env (.event ev) s.world ++ s.concluded := by
  rcases hend with hclaim | hend
  · exact List.mem_append_right _ (hs.claimed hclaim)
  · refine List.mem_append_left _ ?_
    simp only [concludedBy, hend, if_true, List.mem_singleton]

theorem traced_deliver (hs : Traced ev s) (howns : Holds (Owns ev) u)
    (hmeets : meets (World.handle env) released (handle env (.marshal ev)) s.world = true)
    (h : step env s (.deliver ev) = some u) : Traced ev u := by
  obtain ⟨hclaim, hok⟩ := run_of_wp handle_wp hmeets
  have hstored : Stored ev s.world.db → Stored ev
    (run (World.handle env) (handle env (.marshal ev)) s.world).2.db :=
    run_invariant (I := fun w : World => Stored ev w.db) handle_adds (fun w o ho hw => stored_handle ho hw)
  cases h
  refine ⟨howns, fun hp => mem_concluded hs (hclaim hp), fun hmem => ?_⟩
  dsimp only at hmem
  split at hmem
  · -- this delivery was acknowledged
    rename_i hack
    refine (hok ?_).imp (mem_concluded hs) id
    cases hr : (run (World.handle env) (handle env (.marshal ev)) s.world).1 with
    | ok x => rfl
    | error err =>
      rw [hr] at hack
      cases hack
  · exact (hs.kept hmem).imp (List.mem_append_right _) hstored

theorem traced_next {rest : List RetryEntry} (hs : Traced ev s) (howns : Holds (Owns ev) u)
    (hbatch : s.batch = r :: rest) (hstate : r.state = .event ev) (hkey : r.key = ev.rowKey)
    (hmeets : meets (World.handle env) releasedAndParked (Retry.processRetry env r) s.world = true)
    (h : step env s .next = some u) : Traced ev u := by
  obtain ⟨hclaim, hkept⟩ := run_of_wp (processRetry_wp hstate hkey) hmeets
  simp only [step, hbatch, hstate] at h
  cases h
  refine ⟨howns, fun hp => mem_concluded hs (hclaim hp), fun hmem => ?_⟩
  rcases hs.kept hmem with hend | hst
  · exact .inl (List.mem_append_right _ hend)
  · exact (hkept hst).imp (mem_concluded hs) id

/-- **Step lemma**: a steady step does not lose the event. -/
theorem traced_step (hs : Traced ev s) (ha : steady env ev s a = true) (h : step env s a = some u) :
    Traced ev u := by
  have howns := holds_step hs.owns (fun b key hb => owns_handled hs ha hb) h
  obtain ⟨hconcluded, hacknowledged⟩ := step_records h
  -- a step that leaves the claim alone, and is not a delivery of the event
  have hquiet : (Stored ev s.world.db → Stored ev u.world.db) ∧
      u.world.db.processed ev.key = s.world.db.processed ev.key → a ≠ .deliver ev → Traced ev u := by
    rintro ⟨hstored, hclaim⟩ hne
    refine ⟨howns, fun hp => hconcluded ev (hs.claimed (hclaim ▸ hp)), fun hmem => ?_⟩
    rcases hacknowledged ev hmem with hmem | hdeliver
    · exact (hs.kept hmem).imp (hconcluded ev) hstored
    · exact absurd hdeliver hne
  by_cases hkey : ∃ b, handles s a = some (b, ev.rowKey)
  · obtain ⟨b, hb⟩ := hkey
    have hbytes : b = .event ev := (owns_handled hs ha hb).2 rfl
    subst hbytes
    -- a step on the event itself: a delivery or a re-run can end it, an operator only stores it
    cases a with
    | deliver e =>
      have he : e = ev := by cases hb; rfl
      subst he
      exact traced_deliver hs howns (by simpa [steady] using ha) h
    | next =>
      obtain ⟨r, hr, hpair⟩ := Option.map_eq_some_iff.mp hb
      obtain ⟨hstate, hrow⟩ := Prod.mk.inj hpair
      obtain ⟨rest, hbatch⟩ := List.head?_eq_some_iff.mp hr
      exact traced_next hs howns hbatch hstate hrow (by simpa [steady, hbatch, hrow] using ha) h
    | poll limit => cases hb
    | tick d => cases hb
    | retry k => exact hquiet (operator_step hs hb h nofun nofun) nofun
    | discard k => exact hquiet (operator_step hs hb h nofun nofun) nofun
    | decide e l c => exact hquiet (operator_step hs hb h nofun nofun) nofun
    | park e r => exact hquiet (operator_step hs hb h nofun nofun) nofun
  · have hother : ∀ b key, handles s a = some (b, key) → key ≠ ev.rowKey := by
      rintro b key hb rfl
      exact hkey ⟨b, hb⟩
    refine hquiet (other_step hs ha h hother) ?_
    rintro rfl
    exact hother _ _ rfl rfl

/-- **No acknowledged event is lost.** In a run of deliveries, re-runs and operator requests in which any
    provider request and any store statement may fail, except the release of this event's claim and the insert
    of its dead letter by the retry engine, and in which no other event stands under its tenant and event id:
    once `Handle` acknowledged the event, it was brought to an end, or a retry row or an unresolved dead
    letter carries it. -/
theorem acknowledged_not_lost {as : List Act} (howns : Holds (Owns ev) s)
    (hclaimed : s.world.db.processed ev.key = true → ev ∈ s.concluded) (hnew : ev ∉ s.acknowledged)
    (hrun : Run (step env) (fun s a => steady env ev s a = true) s as t) (hack : ev ∈ t.acknowledged) :
    ev ∈ t.concluded ∨ Queued ev t.world.db ∨ Parked ev t.world.db := by
  have hs : Traced ev s := ⟨howns, hclaimed, fun h => absurd h hnew⟩
  have ht : Traced ev t :=
    hrun.invariant (P := fun _ t => Traced ev t) hs (fun _ _ _ _ ht ha h => traced_step ht ha h)
  exact ht.kept hack

/-! ### Concrete runs -/

def storeFailsAt (ns : List Nat) : World :=
  { Cluster.downWorld with storeTape := fun n => if n ∈ ns then .error "connection reset" else .ok 0 }

def deliverAndDrain : List Act := [.deliver annCreated, .tick 2000000000, .poll 100, .next]

def answered (s : State) : Act → Bool
  | .deliver e => meets (World.handle Deployment.env) released (handle Deployment.env (.marshal e)) s.world
  | .next =>
    match s.batch with
    | [] => true
    | r :: _ => meets (World.handle Deployment.env) releasedAndParked (Retry.processRetry Deployment.env r) s.world
  | _ => true

theorem steady_of_answered {s : State} (ha : a ∈ deliverAndDrain) (h : answered s a = true) :
    steady Deployment.env annCreated s a = true := by
  simp only [deliverAndDrain, List.mem_cons, List.not_mem_nil, or_false] at ha
  rcases ha with rfl | rfl | rfl | rfl
  · simpa [steady, answered] using h
  · rfl
  · rfl
  · simp only [answered] at h
    simp only [steady]
    split
    · rfl
    · rename_i r rest hbatch
      simp only [hbatch] at h
      simp [h]

theorem acknowledged_delivered {ok : State → Act → Prop} {as : List Act} (hnone : s.acknowledged = [])
    (hrun : Run (step env) ok s as t) : ∀ e ∈ t.acknowledged, Act.deliver e ∈ as := by
  refine hrun.invariant (P := fun as t => ∀ e ∈ t.acknowledged, Act.deliver e ∈ as) (by simp [hnone])
    (fun as t a u ih _ h e he => ?_)
  rcases (step_records h).2 e he with he | rfl
  · exact List.mem_append_left _ (ih e he)
  · exact List.mem_concat_self

theorem annCreated_acknowledged {ok : State → Act → Prop} (hnone : s.acknowledged = [])
    (hrun : Run (step env) ok s deliverAndDrain t) (hlen : t.acknowledged.length = 1) :
    annCreated ∈ t.acknowledged := by
  obtain ⟨e, he⟩ := List.length_eq_one_iff.mp hlen
  have hmem := acknowledged_delivered hnone hrun e (by rw [he]; simp)
  simp only [deliverAndDrain, List.mem_cons, Act.deliver.injEq, reduceCtorEq, List.not_mem_nil,
    or_false] at hmem
  rw [he, hmem]
  exact .head _

theorem acknowledged_not_lost_ann :
    ∃ t, Run (step Deployment.env) (fun s a => steady Deployment.env annCreated s a = true)
        ⟨storeFailsAt [7, 25], [], [], []⟩ deliverAndDrain t ∧ annCreated ∈ t.acknowledged ∧
      (annCreated ∈ t.concluded ∨ Queued annCreated t.world.db ∨ Parked annCreated t.world.db) := by
  have hrun : (Transition.exec (step Deployment.env) answered deliverAndDrain ⟨storeFailsAt [7, 25], [], [],
      []⟩).map (fun t => t.acknowledged.length) = some 1 := by decide +kernel
  obtain ⟨t, ht, hlen⟩ := Option.map_eq_some_iff.mp hrun
  have hreach := (Transition.run_of_exec ht).mono (fun s a ha h => steady_of_answered ha h)
  have hack := annCreated_acknowledged rfl hreach hlen
  refine ⟨t, hreach, hack, acknowledged_not_lost ⟨?_, ?_, ?_⟩ (fun h => by cases h) (by simp) hreach hack⟩
  · intro r hr
    cases hr
  · intro k d hd
    cases hd
  · intro r hr
    cases hr

/-- **A lost event.** HubSpot is down and the release of the claim fails: the event is queued and
    acknowledged; the re-run finds it claimed, takes that for success and deletes the row. Nobody brought the
    event to an end, and nothing carries it any more. -/
theorem lost_to_failed_release :
    ∃ t, Run (step Deployment.env) (fun _ _ => True) ⟨storeFailsAt [9], [], [], []⟩ deliverAndDrain t ∧
      annCreated ∈ t.acknowledged ∧ t.concluded = [] ∧ ¬ Queued annCreated t.world.db ∧
      ¬ Parked annCreated t.world.db := by
  refine Transition.exists_run (b := fun _ _ => true)
    (f := fun t => decide (t.acknowledged.length = 1 ∧ t.concluded.length = 0 ∧
      (t.world.db.retryQueue.get? annCreated.rowKey).isNone = true ∧
      (t.world.db.deadLetters annCreated.rowKey).isNone = true))
    (by decide +kernel) (fun _ _ _ => trivial) (fun t hreach hfacts => ?_)
  simp only [decide_eq_true_eq, Option.isNone_iff_eq_none] at hfacts
  obtain ⟨hlen, hconcluded, hqueue, hdead⟩ := hfacts
  refine ⟨annCreated_acknowledged rfl hreach hlen, List.length_eq_zero_iff.mp hconcluded, ?_, ?_⟩
  · rintro ⟨r, hr, _⟩
    rw [hqueue] at hr
    cases hr
  · rintro ⟨d, hd, _⟩
    rw [hdead] at hd
    cases hd

end SyncForge.Desk
