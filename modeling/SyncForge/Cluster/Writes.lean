import SyncForge.Cluster.Claim
import SyncForge.Cluster.Carry

/-!
# `Cluster.Writes` — how often an event is written to a destination

An upsert writes to every destination first and persists what it did at the very end; an error in between
releases the claim, and the re-run starts over. `writeMonitor` lets an execution write a destination no more
often than there are policies to it, and give its claim up only while it has written nothing.
-/

namespace SyncForge.Cluster

open Effect Effect.Prog Store
open Deployment (annCreated hub policy world)
open Monitor (wp_bind wp_mono wp_perform wp_seq wp_seq_attempt)

/-! ## Destination writes -/

def writesTo : Call → Option String
  | .create ep _ => some ep.provider
  | .update ep _ _ => some ep.provider
  | _ => none

def wrote (o : Call) : Except GoError (sig.Res o) → List String
  | .ok _ => (writesTo o).toList
  | .error _ => []

def written (log : List (Entry sig GoError)) : List String := log.flatMap (fun e => wrote e.op e.answer)

@[simp] theorem written_snoc (log : List (Entry sig GoError)) (e : Entry sig GoError) :
    written (log ++ [e]) = written log ++ wrote e.op e.answer := by
  simp [written]

/-- How often the thread wrote to `d` on behalf of the event with this key. -/
def Thread.writesFor (t : Thread) (key : EventKey) (d : String) : Nat :=
  if t.task.event?.map Event.key = some key then (written t.log).count d else 0

/-- How often `d` was written on behalf of the event, by all executions together. -/
def destinationWrites (c : Config) (key : EventKey) (d : String) : Nat :=
  (c.threads.map (fun t => t.writesFor key d)).sum

def destinationPolicies (env : Env) (db : Database) (ev : Event) : List SyncPolicy :=
  match env.registry ev.source with
  | none => []
  | some adapter => targets ev adapter.canonicalEntityType (db.policiesOf ev.tenantID)

def checked : Call → Bool
  | .create _ _ | .update _ _ _ => true
  | .store (.getConnectionByProvider _ _) | .store (.upsertOutboundWrite _) | .store (.upsertCanonical _)
  | .store (.persistApplyState _ _ _) => true
  | _ => false

/-! ## The monitor -/

/-- What the world can answer while `g` has been written: the policies and connections it has, and no error of
    a checked call after the first write. -/
def Answers (env : Env) (db : Database) (g : List String) :
    (o : Call) → Except GoError (sig.Res o) → Prop
  | .store (.listPolicies tenant), .ok policies => policies = db.policiesOf tenant
  | .store (.getConnectionByProvider _ provider), .ok conn =>
    conn.provider = provider ∧ (g ≠ [] → env.registry provider ≠ none)
  | o, .error _ => checked o = true → g = []
  | _, .ok _ => True

/-- An execution's writes: `dests` lists each destination once per policy to it. -/
def writeMonitor (env : Env) (db : Database) (dests : List String) : Monitor sig GoError (List String) where
  next g o r := g ++ wrote o r
  may g o :=
    match o with
    | .create ep _ => g.count ep.provider < dests.count ep.provider
    | .update ep _ _ => g.count ep.provider < dests.count ep.provider
    | .store (.releaseProcessedEvent _) => g = []
    | _ => True
  adm := Answers env db

def Clean {α : Type} (g : List String) : Except GoError α → Prop
  | .ok _ => True
  | .error _ => g = []

variable {α : Type} {o : Call} {w : World} {t : Thread} {c : Config}

theorem clean_of_nil {g : List String} {r : Except GoError α} (h : g = []) : Clean g r := by
  cases r with
  | ok a => trivial
  | error e => exact h

variable {env : Env} {db : Database} {dests : List String} {ev : Event} {g : List String}
  {s : StoreOp} {d entityType tenant eventID source : String} {i : Nat} {c' : Config} {cust : Customer}
    {version : Int}
  {policies : List SyncPolicy} {canonical : CanonicalRecord} {outbound : List OutboundWrite}
    {ops : List SyncOperation}

theorem store_next (s : StoreOp) (r : Except GoError s.Res) :
    (writeMonitor env db dests).next g (.store s) r = g := by
  cases r <;> exact List.append_nil g

theorem storeWork_wp {p : Sync α} (hp : OnlyStoreWork p) :
    (writeMonitor env db dests).wp p (fun g' _ => g' = []) [] := by
  refine wp_of_only hp (fun g o hg ho => ?_) rfl
  subst hg
  cases o with
  | store s =>
    refine ⟨?_, fun r _ => store_next s r⟩
    cases s <;> trivial
  | _ => cases ho

theorem bookkeeping_wp {p : Sync α} (hp : OnlyBookkeeping p) :
    (writeMonitor env db dests).wp p (fun _ _ => True) g := by
  refine wp_of_only (I := fun _ => True) hp (fun g o _ ho => ⟨?_, fun _ _ => trivial⟩) trivial
  cases o with
  | store s => cases s <;> trivial
  | random => trivial
  | _ => cases ho

theorem checkedStmt_wp (hs : checked (.store s) = true) : (writeMonitor env db dests).wp (stmt s)
    (fun g' r => g' = g ∧ Clean g r) g := by
  refine (wp_perform _).mpr ⟨?_, fun r hr => ⟨store_next s r, ?_⟩⟩
  · cases s <;> trivial
  · cases r with
    | ok a => trivial
    | error e => cases s <;> exact hr hs

theorem tryStmt_writes (hs : Call.isStoreWork (.store s) = true) :
    (writeMonitor env db dests).wp (tryStmt s) (fun g' r => g' = g ∧ r = .ok ()) g := by
  refine wp_tryStmt.mpr ⟨?_, fun r _ => ⟨store_next s r, rfl⟩⟩
  cases s <;> trivial

/-! ## The functions of the worker -/

theorem connect_wp (tenant provider : String) : (writeMonitor env db dests).wp (connect env tenant provider)
      (fun g' r => g' = g ∧ Clean g r ∧
        ∀ dst, r = .ok dst → dst.endpoint.provider = provider ∧ env.registry provider = some dst.adapter) g := by
  refine wp_connect.mpr ⟨trivial, fun r hr => ?_⟩
  rw [store_next (.getConnectionByProvider tenant provider)]
  refine ⟨rfl, ?_, fun dst hdst => ?_⟩
  · cases r with
    | error e => exact hr rfl
    | ok conn =>
      obtain ⟨hprov, hreg⟩ := hr
      show Clean g (adapterFor env conn)
      unfold adapterFor
      rw [hprov]
      split
      · exact trivial
      · rename_i hnone
        by_contra hg
        exact hreg hg hnone
  · cases r with
    | error e => cases hdst
    | ok conn =>
      have hok := adapterFor_ok hdst
      rwa [hr.1] at hok

theorem write_wp (hto : writesTo o = some d) (hroom : g.count d < dests.count d) :
    (writeMonitor env db dests).wp (perform (S := sig) o)
      (fun g' r => Clean g' r ∧ ∀ a, r = .ok a → g' = g ++ [d]) g := by
  have hnext : ∀ r, ((∃ e, r = .error e) → g = []) →
      Clean (g ++ wrote o r) r ∧ ∀ a, r = .ok a → g ++ wrote o r = g ++ [d] := by
    intro r hr
    cases r with
    | error e =>
      refine ⟨?_, nofun⟩
      show g ++ [] = []
      rw [List.append_nil]; exact hr ⟨e, rfl⟩
    | ok a =>
      refine ⟨trivial, fun _ _ => ?_⟩
      rw [wrote, hto]; rfl
  rw [wp_perform]
  cases o with
  | create ep data =>
    cases hto
    exact ⟨hroom, fun r hr => hnext r (by rintro ⟨e, rfl⟩; exact hr rfl)⟩
  | update ep id data =>
    cases hto
    exact ⟨hroom, fun r hr => hnext r (by rintro ⟨e, rfl⟩; exact hr rfl)⟩
  | _ => cases hto

theorem writeDestination_wp (tenant d : String) (cust : Customer) (canonical : CanonicalRecord)
    (hroom : g.count d < dests.count d) : (writeMonitor env db dests).wp
      (writeDestination env tenant d cust canonical)
      (fun g' r => Clean g' r ∧ ∀ c, r = .ok c → g' = g ++ [d]) g := by
  refine wp_seq (connect_wp tenant d) (fun g' dst h => ?_) (fun g' e h => ?_)
  · obtain ⟨rfl, _, hdst⟩ := h
    obtain ⟨rfl, _⟩ := hdst dst rfl
    show (writeMonitor env db dests).wp (ite _ _ _) _ g'
    split
    · refine wp_seq (write_wp rfl hroom) ?_ (fun g'' e h => ⟨h.1, nofun⟩)
      exact fun g'' created h => ⟨trivial, fun _ _ => h.2 created rfl⟩
    · refine wp_seq (write_wp rfl hroom) ?_ (fun g'' e h => ⟨h.1, nofun⟩)
      exact fun g'' updated h => ⟨trivial, fun _ _ => h.2 updated rfl⟩
  · obtain ⟨rfl, hclean, _⟩ := h
    exact ⟨hclean, nofun⟩

def Room (dests g : List String) (policies : List SyncPolicy) : Prop :=
  ∀ d, g.count d + (policies.map SyncPolicy.destination).count d ≤ dests.count d

theorem Room.head {p : SyncPolicy} {ps : List SyncPolicy} (h : Room dests g (p :: ps)) :
    g.count p.destination < dests.count p.destination := by
  have hp := h p.destination
  rw [List.map_cons, List.count_cons_self] at hp
  omega

theorem Room.tail {p : SyncPolicy} {ps : List SyncPolicy} (h : Room dests g (p :: ps)) :
    Room dests (g ++ [p.destination]) ps := by
  intro d
  have hd := h d
  rw [List.map_cons, List.count_cons] at hd
  rw [List.count_append, List.count_singleton]
  omega

theorem propagate_wp (hroom : Room dests g policies) :
    (writeMonitor env db dests).wp (propagate env ev entityType cust policies canonical outbound ops) Clean
    g := by
  induction policies generalizing canonical outbound ops g with
  | nil => exact trivial
  | cons p ps ih =>
    refine wp_seq (writeDestination_wp _ _ cust canonical hroom.head) ?_ (fun _ _ h => h.1)
    intro g' c h
    rw [h.2 c rfl]
    exact ih hroom.tail

theorem applyMerged_wp (hroom : Room dests g policies) :
    (writeMonitor env db dests).wp (applyMerged env ev entityType policies cust canonical) Clean g := by
  refine wp_seq (propagate_wp hroom) (fun g' res _ => ?_) (fun _ _ h => h)
  refine wp_mono (checkedStmt_wp rfl) (fun g'' r h => ?_)
  rw [h.1]; exact h.2

theorem mergeAndApply_wp (hroom : Room dests [] policies) :
    (writeMonitor env db dests).wp (mergeAndApply env ev entityType policies cust canonical) Clean [] := by
  have hrecord : ∀ detected status strategy, (writeMonitor env db dests).wp
      (recordConflict ev entityType canonical cust.fields detected status strategy) (fun g' _ => g' = []) [] :=
    fun _ _ _ => storeWork_wp recordConflict_only
  show (writeMonitor env db dests).wp (ite _ _ _) _ _
  split
  · exact wp_mono (hrecord _ _ _) (fun g' r h => clean_of_nil h)
  · refine wp_seq (hrecord _ _ _) (fun g' _ h => ?_) (fun _ _ h => h)
    subst h
    exact applyMerged_wp hroom

theorem propagateNow_wp (hroom : Room dests g policies) : (writeMonitor env db dests).wp
      (propagateNow env tenant entityType eventID source version cust policies canonical) Clean g := by
  induction policies generalizing canonical g with
  | nil => exact trivial
  | cons p ps ih =>
    refine wp_seq (writeDestination_wp _ _ cust canonical hroom.head) ?_ (fun _ _ h => h.1)
    intro g' c h
    rw [h.2 c rfl]
    refine wp_seq (checkedStmt_wp rfl) (fun g' _ h => ?_) (fun _ _ h => by rw [h.1]; exact h.2)
    rw [h.1]
    refine wp_seq (tryStmt_writes rfl) (fun g' _ h => ?_) (fun _ _ h => absurd h.2 nofun)
    rw [h.1]
    exact ih hroom.tail

theorem applyResolution_wp {fields : FieldMap} (hroom : Room dests [] policies) :
    (writeMonitor env db dests).wp (applyResolution env ev entityType policies fields) Clean [] := by
  refine wp_seq_attempt (storeWork_wp (only_stmt rfl)) (fun g' r h => ?_)
  subst h
  split
  · exact trivial
  · exact rfl
  · refine wp_seq (propagateNow_wp hroom) (fun g' c _ => ?_) (fun _ _ h => h)
    refine wp_seq (checkedStmt_wp rfl) (fun g'' _ _ => ?_) (fun _ _ h => by rw [h.1]; exact h.2)
    exact wp_tryStmt.mpr ⟨trivial, fun _ _ => trivial⟩

theorem applySourceEvent_wp {fields : Data} (hroom : Room dests [] policies) :
    (writeMonitor env db dests).wp (applySourceEvent env ev entityType policies fields) Clean [] := by
  refine wp_seq (storeWork_wp connect_only_store) (fun g' src h => ?_) (fun _ _ h => h)
  subst h
  refine wp_seq (storeWork_wp (only_ofExcept _)) (fun g' _ h => ?_) (fun _ _ h => h)
  subst h
  refine wp_seq (storeWork_wp resolveCanonical_only) (fun g' canonical h => ?_) (fun _ _ h => h)
  subst h
  split
  · exact trivial
  · refine wp_seq (storeWork_wp isEcho_only) (fun g' echo h => ?_) (fun _ _ h => h)
    subst h
    split
    · exact trivial
    · exact mergeAndApply_wp hroom

theorem applyUpsert_wp (hroom : Room dests [] policies) :
    (writeMonitor env db dests).wp (applyUpsert env ev entityType policies) Clean [] := by
  unfold applyUpsert
  split
  · exact rfl
  · split_ifs
    · exact rfl
    · exact applyResolution_wp hroom
    · exact applySourceEvent_wp hroom

def destinations (env : Env) (db : Database) (ev : Event) : List String :=
  (destinationPolicies env db ev).map SyncPolicy.destination

theorem listPolicies_wp (tenant : String) : (writeMonitor env db dests).wp (stmt (.listPolicies tenant))
      (fun g' r => g' = [] ∧ ∀ policies, r = .ok policies → policies = db.policiesOf tenant) [] := by
  refine (wp_perform _).mpr ⟨trivial, fun r hr => ⟨store_next (.listPolicies tenant) r, ?_⟩⟩
  rintro policies rfl
  exact hr

theorem canonicalEntityType_wp : (writeMonitor env db dests).wp (canonicalEntityType env ev)
      (fun g' r => g' = [] ∧ ∀ entityType, r = .ok entityType →
        ∃ adapter, env.registry ev.source = some adapter ∧ adapter.canonicalEntityType = entityType) [] := by
  refine wp_seq (connect_wp ev.tenantID ev.source) (fun g' src h => ?_) (fun _ _ h => ⟨h.1, nofun⟩)
  obtain ⟨rfl, _, hsrc⟩ := h
  refine ⟨rfl, fun entityType h => ?_⟩
  cases h
  exact ⟨src.adapter, (hsrc src rfl).2, rfl⟩

/-- `dispatch` of an upsert: a failure, or a missing policy, left nothing written. -/
theorem dispatch_writes (hupsert : ev.eventType ≠ .deleted) (hrec : ev.provenance.reconcileFindingID = "") :
    (writeMonitor env db (destinations env db ev)).wp (dispatch env ev)
      (fun g' r => Clean g' r ∧ (r = .ok .noPolicy → g' = [])) [] := by
  refine wp_seq (listPolicies_wp ev.tenantID) (fun g' policies h => ?_) (fun _ _ h => ⟨h.1, nofun⟩)
  obtain ⟨rfl, hpolicies⟩ := h
  refine wp_seq (canonicalEntityType_wp) (fun g' entityType h => ?_) (fun _ _ h => ⟨h.1, nofun⟩)
  obtain ⟨rfl, hadapter⟩ := h
  obtain ⟨adapter, hreg, rfl⟩ := hadapter entityType rfl
  have hdests : targets ev adapter.canonicalEntityType policies = destinationPolicies env db ev := by
    rw [destinationPolicies, hreg, hpolicies policies rfl]
  show (writeMonitor env db _).wp (ite _ _ _) _ _
  rw [if_neg (not_not.mpr hrec), hdests, if_neg hupsert]
  split
  · exact ⟨trivial, fun _ => rfl⟩
  · refine wp_seq (applyUpsert_wp (fun d => ?_)) (fun _ _ _ => ⟨trivial, nofun⟩)
      (fun _ _ h => ⟨h, nofun⟩)
    rw [List.count_nil, Nat.zero_add]; exact le_refl _

theorem release_writes {status : SourceEventStatus} {post : List String → Except GoError Unit → Prop}
    (hpost : post [] (.ok ())) : (writeMonitor env db dests).wp (release ev status) post [] := by
  unfold release mark
  rw [wp_bind, wp_tryStmt]
  refine ⟨rfl, fun r _ => wp_tryStmt.mpr ⟨trivial, fun r' _ => ?_⟩⟩
  rwa [store_next, store_next]

/-- **`Process` of an upsert and its writes**: at most one per policy, and no release after one. -/
theorem process_writes (hupsert : ev.eventType ≠ .deleted) (hrec : ev.provenance.reconcileFindingID = "") :
    (writeMonitor env db (destinations env db ev)).wp (process env ev) (fun _ _ => True) [] := by
  have hmark : ∀ status g (outcome : Outcome), (writeMonitor env db (destinations env db ev)).wp
      (mark ev status >>= fun _ => (Pure.pure outcome : Sync Outcome)) (fun _ _ => True) g :=
    fun status g outcome => wp_seq (bookkeeping_wp (only_tryStmt rfl)) (fun _ _ _ => trivial)
      (fun _ _ _ => trivial)
  have hclaim : (writeMonitor env db (destinations env db ev)).wp (stmt (.claimProcessedEvent ev.key))
      (fun g' _ => g' = []) [] :=
    (wp_perform _).mpr ⟨trivial, fun r _ => store_next (.claimProcessedEvent ev.key) r⟩
  refine wp_seq hclaim (fun g' claimed h => ?_) (fun _ _ _ => trivial)
  subst h
  split
  · refine wp_seq_attempt (dispatch_writes hupsert hrec) (fun g' r h => ?_)
    obtain ⟨hclean, hnone⟩ := h
    split
    · have hg : g' = [] := hclean
      subst hg
      exact (wp_bind _ _).mpr (release_writes trivial)
    · rw [hnone rfl]
      exact (wp_bind _ _).mpr (release_writes trivial)
    · exact hmark _ _ _
    · exact hmark _ _ _
  · exact trivial

/-! ## Threads -/

def succeeds (env : Env) (w : World) (o : Call) : Bool :=
  match o with
  | .store (.getConnectionByProvider _ provider) =>
    (World.handle env o w).1.isOk && (env.registry provider).isSome
  | o => (World.handle env o w).1.isOk

theorem succeeds_isOk (h : succeeds env w o = true) : (World.handle env o w).1.isOk = true := by
  unfold succeeds at h
  split at h
  · exact (Bool.and_eq_true_iff.mp h).1
  · exact h

theorem answers_error {e : GoError} : Answers env db g o (.error e) ↔ (checked o = true → g = []) := by
  cases o with
  | store s => cases s <;> exact Iff.rfl
  | _ => exact Iff.rfl

theorem handle_answers (hpolicies : w.db.policies = db.policies)
    (hlate : g ≠ [] → checked o = true → succeeds env w o = true) :
    Answers env db g o (World.handle env o w).1 := by
  cases hr : (World.handle env o w).1 with
  | error e =>
    rw [answers_error]
    intro hchecked
    by_contra hg
    have hok := succeeds_isOk (hlate hg hchecked)
    rw [hr] at hok
    cases hok
  | ok a =>
    cases o with
    | store s =>
      have hexec : ∃ pick, (Database.exec w.now pick s w.db).1 = .ok a := by
        rcases World.handle_store env w s with ⟨text, _, h⟩ | ⟨pick, _, h⟩
        · rw [h] at hr
          cases hr
        · rw [h] at hr
          exact ⟨pick, hr⟩
      obtain ⟨pick, hexec⟩ := hexec
      cases s with
      | listPolicies tenant =>
        cases hexec
        show w.db.policiesOf tenant = db.policiesOf tenant
        unfold Database.policiesOf
        rw [hpolicies]
      | getConnectionByProvider tenant provider =>
        constructor
        · have hrow : Database.anyRow pick (w.db.connectionsOf tenant provider) = some a := by
            cases hany : Database.anyRow pick (w.db.connectionsOf tenant provider) with
            | none => simp [Database.exec, hany, Database.rowOrNotFound] at hexec
            | some conn => simpa [Database.exec, hany, Database.rowOrNotFound] using hexec
          have hmem := List.mem_filter.mp (List.mem_of_getElem? hrow)
          simpa using (decide_eq_true_iff.mp hmem.2).2
        · intro hg
          have hsucc := hlate hg rfl
          unfold succeeds at hsucc
          exact Option.isSome_iff_ne_none.mp (Bool.and_eq_true_iff.mp hsucc).2
      | _ => trivial
    | _ => trivial

structure WritesOnce (env : Env) (db : Database) (ev : Event) (t : Thread) : Prop where
  rest : (writeMonitor env db (destinations env db ev)).wp (t.program env) (fun _ _ => True) (written t.log)
  held : written t.log ≠ [] → hold t.log = .held
  bound : ∀ d, (written t.log).count d ≤ (destinations env db ev).count d

theorem start_writesOnce {task : Task} (hev : task.event? = some ev) (hupsert : ev.eventType ≠ .deleted)
    (hrec : ev.provenance.reconcileFindingID = "") : WritesOnce env db ev (Thread.start env task) := by
  refine ⟨?_, fun h => absurd rfl h, fun d => Nat.zero_le _⟩
  rw [Thread.program_start hev]
  exact wp_seq_attempt (process_writes hupsert hrec) (fun g r _ => bookkeeping_wp (finish_only _ _ _))

theorem held_next (h : ∀ k, o ≠ .store (.releaseProcessedEvent k)) (r : Except GoError (sig.Res o)) :
    Hold.next .held o r = .held := by
  cases o with
  | store s =>
    cases s with
    | releaseProcessedEvent k => exact absurd rfl (h k)
    | _ => rfl
  | _ => rfl

theorem wrote_room {r : Except GoError (sig.Res o)} (hmay : (writeMonitor env db dests).may g o)
    (hw : wrote o r ≠ []) : ∃ d, writesTo o = some d ∧ wrote o r = [d] ∧ g.count d < dests.count d := by
  cases r with
  | error e => exact absurd rfl hw
  | ok a =>
    cases o with
    | create ep data => exact ⟨_, rfl, rfl, hmay⟩
    | update ep id data => exact ⟨_, rfl, rfl, hmay⟩
    | _ => exact absurd rfl hw

theorem writesTo_isProvider (h : writesTo o = some d) : o.isProvider = true := by
  cases o <;> first | rfl | cases h

theorem fire_writesOnce {t' : Thread} {w' : World} (hd : Disciplined t) (ht : WritesOnce env db ev t)
    (hpolicies : w.db.policies = db.policies)
    (hlate : ∀ o, t.nextCall = some o → written t.log ≠ [] → checked o = true → succeeds env w o = true)
    (hf : Fire env t w t' w') : WritesOnce env db ev t' := by
  obtain ⟨hrest, hheld, hbound⟩ := ht
  obtain ⟨_, ⟨hp, _, hlog⟩ | ⟨o, k, hnext, hp, hp', _, hlog⟩⟩ := hf.program
  · exact ⟨by rw [hp, hlog]; exact hrest, by rw [hlog]; exact hheld, by rw [hlog]; exact hbound⟩
  · rw [hp] at hrest
    obtain ⟨hmay, hk⟩ := hrest
    have hprovider : o.isProvider = true → hold t.log = .held := by
      intro ho
      by_contra hne
      have hharmless := nextCall_harmless hd hnext (.inl hne)
      rw [hharmless.1] at ho
      cases ho
    refine ⟨?_, ?_, ?_⟩
    · rw [hp', hlog, written_snoc]
      exact hk _ (handle_answers hpolicies (hlate o hnext))
    · rw [hlog, written_snoc, hold_snoc]
      intro hne
      by_cases hw : wrote o (World.handle env o w).1 = []
      · rw [hw, List.append_nil] at hne
        rw [hheld hne]
        refine held_next (fun k hrel => ?_) _
        subst hrel
        exact hne hmay
      · obtain ⟨d, hto, _, _⟩ := wrote_room hmay hw
        rw [hprovider (writesTo_isProvider hto)]
        refine held_next (fun k hrel => ?_) _
        subst hrel
        cases hto
    · intro d
      rw [hlog, written_snoc, List.count_append]
      by_cases hw : wrote o (World.handle env o w).1 = []
      · simp only [hw, List.count_nil, Nat.add_zero]
        exact hbound d
      · obtain ⟨d', _, hd', hroom⟩ := wrote_room hmay hw
        simp only [hd', List.count_singleton]
        by_cases hdd : d' = d
        · subst hdd; simp only [beq_self_eq_true, if_true]; omega
        · have hb := hbound d
          rw [if_neg (by simpa using hdd)]
          omega

/-! ## The cluster -/

/-- The bytes carry no other event under the key of `ev`. -/
def Carries (ev : Event) (b : Bytes) : Prop := ∀ e, b.unmarshal = .ok e → e.key = ev.key → e = ev

def lateFailure (env : Env) (key : EventKey) (c : Config) : Label → Bool
  | .fire i =>
    match c.threads[i]? with
    | none => false
    | some t =>
      match t.nextCall with
      | none => false
      | some o =>
        t.task.event?.map Event.key = some key && !(written t.log).isEmpty && checked o
          && !succeeds env c.world o
  | _ => false

theorem not_lateFailure {key : EventKey} (h : (!lateFailure env key c (.fire i)) = true)
    (hi : c.threads[i]? = some t) (hkey : t.task.event?.map Event.key = some key) (ho : t.nextCall = some o)
    (hw : written t.log ≠ []) (hchecked : checked o = true) : succeeds env c.world o = true := by
  simp only [lateFailure, hi, ho, hkey, hchecked, decide_true, Bool.true_and, Bool.and_true,
    Bool.not_eq_true', Bool.and_eq_false_iff, Bool.not_eq_false'] at h
  rcases h with h | h
  · exact absurd (List.isEmpty_iff.mp h) hw
  · exact h

structure WrittenOnce (env : Env) (db : Database) (ev : Event) (c : Config) : Prop where
  exclusive : Exclusive c
  carried : Carried env (fun b _ => Carries ev b) c
  policies : c.world.db.policies = db.policies
  threads : ∀ (i : Nat) t, c.threads[i]? = some t → t.task.event? = some ev → WritesOnce env db ev t

theorem policies_step {l : Label} (hs : Step env c l c') : c'.world.db.policies = c.world.db.policies := by
  by_cases hl : ∃ i, l = .fire i
  · obtain ⟨i, rfl⟩ := hl
    cases hs with
    | fire hi hf =>
      obtain ⟨_, ⟨_, hw, _⟩ | ⟨o, k, _, _, _, hw, _⟩⟩ := hf.program
      · simp only [hw]
      · simp only [hw, World.handle_policies]
  · rw [hs.db_eq (fun i h => hl ⟨i, h⟩)]

/-- **Step lemma**: without a late failure no destination is written a second time. -/
theorem writtenOnce_step {l : Label} (hupsert : ev.eventType ≠ .deleted)
    (hrec : ev.provenance.reconcileFindingID = "") (hc : WrittenOnce env db ev c)
    (hl : Brings (fun b _ => Carries ev b) l) (hlate : (!lateFailure env ev.key c l) = true)
    (hs : Step env c l c') : WrittenOnce env db ev c' := by
  refine ⟨exclusive_step hc.exclusive hs, carried_step hc.carried hl hs,
    (policies_step hs).trans hc.policies, fun i t' hi hev => ?_⟩
  rcases hs.thread_origin hi with hi | ⟨task, rfl, _⟩ | ⟨t, hi, rfl, hf⟩
  · exact hc.threads i t' hi hev
  · exact start_writesOnce hev hupsert hrec
  · rw [fire_task hf] at hev
    refine fire_writesOnce (hc.exclusive.disciplined i t hi) (hc.threads i t hi hev) hc.policies ?_ hf
    intro o ho hw hchecked
    exact not_lateFailure hlate hi (by rw [hev]; rfl) ho hw hchecked

theorem event_of_key (hc : Carried env (fun b _ => Carries ev b) c)
    (hi : c.threads[i]? = some t) (hkey : t.task.event?.map Event.key = some ev.key) :
    t.task.event? = some ev := by
  obtain ⟨e, he, hkey⟩ := Option.map_eq_some_iff.mp hkey
  rw [he, hc.tasks i t hi e (Task.unmarshal_of_event? he) hkey]

theorem sum_le_of_pairwise {f : α → Nat} {l : List α} {n : Nat} (hle : ∀ a ∈ l, f a ≤ n)
    (hone : l.Pairwise (fun a b => f a = 0 ∨ f b = 0)) : (l.map f).sum ≤ n := by
  induction l with
  | nil => exact Nat.zero_le n
  | cons a l ih =>
    obtain ⟨hhead, htail⟩ := List.pairwise_cons.mp hone
    have hl := ih (fun b hb => hle b (.tail _ hb)) htail
    rw [List.map_cons, List.sum_cons]
    by_cases ha : f a = 0
    · omega
    · have hzero : (l.map f).sum = 0 := by
        rw [List.sum_eq_zero_iff_forall_eq_nat]
        intro x hx
        obtain ⟨b, hb, rfl⟩ := List.mem_map.mp hx
        exact (hhead b hb).resolve_left ha
      have := hle a (by simp)
      omega

theorem destinationWrites_le (hc : WrittenOnce env db ev c) (d : String) :
    destinationWrites c ev.key d ≤ (destinations env db ev).count d := by
  have hheld : ∀ (i : Nat) t, c.threads[i]? = some t → t.writesFor ev.key d ≠ 0 → Holds c i ev.key := by
    intro i t hi hne
    unfold Thread.writesFor at hne
    split at hne
    · rename_i hkey
      have hev := event_of_key hc.carried hi hkey
      refine ⟨t, ev, hi, hev, rfl, (hc.threads i t hi hev).held (fun hnil => hne ?_)⟩
      rw [hnil]; rfl
    · exact absurd rfl hne
  refine sum_le_of_pairwise (fun t ht => ?_) ?_
  · obtain ⟨i, hi⟩ := List.mem_iff_getElem?.mp ht
    unfold Thread.writesFor
    split
    · rename_i hkey
      exact (hc.threads i t hi (event_of_key hc.carried hi hkey)).bound d
    · exact Nat.zero_le _
  · rw [List.pairwise_iff_getElem]
    intro i j hi hj hij
    by_contra hboth
    obtain ⟨h1, h2⟩ := not_or.mp hboth
    have := hc.exclusive.unique i j ev.key (hheld i _ (List.getElem?_eq_getElem hi) h1)
      (hheld j _ (List.getElem?_eq_getElem hj) h2)
    omega

theorem destinations_nodup (env : Env) (db : Database) (ev : Event) : (destinations env db ev).Nodup := by
  unfold destinations destinationPolicies
  split
  · exact List.nodup_nil
  · rename_i adapter _
    have hsub : List.Sublist (targets ev adapter.canonicalEntityType (db.policiesOf ev.tenantID))
        db.policies.rows := List.filter_sublist.trans List.filter_sublist
    have hkeys := db.policies.nodup.sublist (hsub.map SyncPolicy.key)
    rw [List.Nodup, List.pairwise_map] at hkeys ⊢
    refine hkeys.imp_of_mem (fun {p q} hp hq hne heq => hne ?_)
    obtain ⟨hp, hps⟩ := List.mem_filter.mp hp
    obtain ⟨hq, hqs⟩ := List.mem_filter.mp hq
    have hpt := (List.mem_filter.mp hp).2
    have hqt := (List.mem_filter.mp hq).2
    simp only [decide_eq_true_eq] at hps hqs hpt hqt
    simp only [SyncPolicy.key, hps.1, hps.2, hqs.1, hqs.2, hpt.1, hqt.1, heq]

/-- **One destination write per policy.** In every run in which, once an execution of an upsert event has
    written some destination, none of the calls it depends on fails, each destination is written on behalf of
    the event at most as often as there are policies to it, that is at most once, by all deliveries and
    re-runs together. -/
theorem one_write_per_policy {w : World} (hupsert : ev.eventType ≠ .deleted)
    (hrec : ev.provenance.reconcileFindingID = "") (hrows : ∀ r ∈ w.db.retryQueue.rows, Carries ev r.state)
    {c : Config} (hr : Reach env (fun c l => Brings (fun b _ => Carries ev b) l ∧
      (!lateFailure env ev.key c l) = true) (initial w) c) (d : String) : destinationWrites c ev.key d
        ≤ ((destinationPolicies env w.db ev).filter (fun p => p.destination = d)).length ∧
      destinationWrites c ev.key d ≤ 1 := by
  have hc : WrittenOnce env w.db ev c := by
    induction hr with
    | refl =>
      exact ⟨exclusive_initial w, carried_initial hrows, rfl, fun i t hi => by simp [initial] at hi⟩
    | tail l _ hl hstep ih => exact writtenOnce_step hupsert hrec ih hl.1 hl.2 (step_inv hstep)
  have hle := destinationWrites_le hc d
  refine ⟨?_, hle.trans (List.nodup_iff_count_le_one.mp (destinations_nodup env w.db ev) d)⟩
  rw [destinations, List.count_eq_countP, List.countP_map, List.countP_eq_length_filter] at hle
  refine hle.trans (le_of_eq (congrArg List.length (List.filter_congr fun p _ => ?_)))
  simp [Function.comp, beq_eq_decide]

def retriedDelivery (first second third : Nat) : List Label :=
  [.deliver (.event annCreated)] ++ List.replicate first (.fire 0)
    ++ [.tick 2000000000, .startEngine, .poll 0 100, .next 0] ++ List.replicate second (.fire 1)
    ++ [.deliver (.event annCreated)] ++ List.replicate third (.fire 2)

theorem brings_retriedDelivery (first second third : Nat) :
    ∀ l ∈ retriedDelivery first second third, Brings (fun b _ => Carries annCreated b) l := by
  have hann : Carries annCreated (.event annCreated) := by
    intro e he _
    cases he
    rfl
  intro l hl
  cases l with
  | deliver value =>
    have hvalue : value = .event annCreated := by
      simpa [retriedDelivery, List.mem_replicate] using hl
    subst hvalue
    exact hann
  | invoke ev => simp [retriedDelivery, List.mem_replicate] at hl
  | _ => trivial

theorem one_write_after_retry : ∃ c, Reach Deployment.env
    (fun c l => Brings (fun b _ => Carries annCreated b) l ∧
          (!lateFailure Deployment.env annCreated.key c l) = true) (initial { world [policy "salesforce" "hubspot"] with
          providerTape := fun n => if n = 8 then some ⟨.transient, "down", 0, none⟩ else none }) c ∧
      c.threads.length = 3 ∧ destinationWrites c annCreated.key "hubspot" = 1 ∧
      ∀ d, destinationWrites c annCreated.key d ≤ 1 := by
  let w : World :=
    { world [policy "salesforce" "hubspot"] with
      providerTape := fun n => if n = 8 then some ⟨.transient, "down", 0, none⟩ else none }
  have hrun : (checkedRun Deployment.env
      (fun c l => !lateFailure Deployment.env annCreated.key c l) (retriedDelivery 14 14 2)
      (initial w)).map (fun c => (c.threads.length, destinationWrites c annCreated.key "hubspot"))
        = some (3, 1) := by
    decide +kernel
  obtain ⟨c, hc, hcounts⟩ := Option.map_eq_some_iff.mp hrun
  obtain ⟨hthreads, hwrites⟩ := Prod.mk.inj hcounts
  have hreach := reach_of_checkedRun (brings_retriedDelivery 14 14 2) hc
  refine ⟨c, hreach, hthreads, hwrites, fun d => ?_⟩
  exact (one_write_per_policy (by decide) rfl (fun r hr => by cases hr) hreach d).2

/-- **A second record.** HubSpot's create succeeds and the transaction that would record it fails: the claim
    is released, and the retry creates the customer again. One event, one policy, two records. -/
theorem two_creates_after_failed_persist :
    ∃ c, Reach Deployment.env (fun _ l => Brings (fun b _ => Carries annCreated b) l)
        (initial { world [policy "salesforce" "hubspot"] with
          storeTape := fun n => if n = 9 then .error "connection reset" else .ok 0 }) c ∧
      (destinationPolicies Deployment.env (world [policy "salesforce" "hubspot"]).db
        annCreated).length = 1 ∧
      destinationWrites c annCreated.key "hubspot" = 2 ∧
      (c.world.sims hub).records.rows.map SimRecord.id = ["hub-000001", "hub-000002"] := by
  let w : World :=
    { world [policy "salesforce" "hubspot"] with
      storeTape := fun n => if n = 9 then .error "connection reset" else .ok 0 }
  have hrun : (checkedRun Deployment.env (fun _ _ => true) (retriedDelivery 15 14 2) (initial w)).map
      (fun c => (destinationWrites c annCreated.key "hubspot",
        (c.world.sims hub).records.rows.map SimRecord.id))
        = some (2, ["hub-000001", "hub-000002"]) := by
    decide +kernel
  obtain ⟨c, hc, hcounts⟩ := Option.map_eq_some_iff.mp hrun
  obtain ⟨hwrites, hrecords⟩ := Prod.mk.inj hcounts
  have hreach := reach_of_checkedRun (brings_retriedDelivery 15 14 2) hc
  exact ⟨c, hreach.mono (fun _ _ h => h.1), by decide +kernel, hwrites, hrecords⟩

end SyncForge.Cluster
