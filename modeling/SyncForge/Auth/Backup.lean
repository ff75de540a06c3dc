import SyncForge.Auth.Mfa

/-!
# `Auth.Backup` — backup codes

A login may give a backup code as its second factor. `ConsumeBackupCode` removes the code's hash and reports
whether it was there, in one statement. Any number of logins may have read the user's row by then; which codes
are left is decided by the statement alone: those that were issued and that no login has consumed.
-/

namespace SyncForge.Auth

open Effect
open Transition (Run)
open State (exec handle)

/-- Thread `j` consumed the code with this hash. -/
def Consumes (threads : List Thread) (tenantID userID hash : String) (j : Nat) : Prop :=
  ∃ t, threads[j]? = some t ∧ (⟨.store (.consumeBackupCode tenantID userID hash),
    .ok true⟩ : Entry sig GoError) ∈ t.log

def NoRegeneration (tenantID userID : String) (c : Server) : Act Request Move → Prop
  | .fire i => ∀ t hashes, c.threads[i]? = some t →
      t.next? ≠ some (.store (.setBackupCodes tenantID userID hashes))
  | _ => True

structure CodesLeft (tenantID userID : String) (hashes : List String) (c : Server) : Prop where
  users : (c.state.users.map User.id).Nodup
  left : ∃ u, c.state.user? tenantID userID = some u ∧
    ∀ hash, hash ∈ u.backupCodes ↔ hash ∈ hashes ∧ ¬ ∃ j, Consumes c.threads tenantID userID hash j
  issued : ∀ hash j, Consumes c.threads tenantID userID hash j → hash ∈ hashes
  once : ∀ hash i j, Consumes c.threads tenantID userID hash i →
    Consumes c.threads tenantID userID hash j → i = j

section Step

variable {env : Env} {s : State} {c c' : Server} {tenantID userID : String} {hashes : List String}
  {u u' : User} {i : Nat}

/-- `ConsumeBackupCode` answers whether the hash was there, and removes it. -/
theorem consume_exec (hs : (s.users.map User.id).Nodup) (hu : s.user? tenantID userID = some u)
    (hash : String) :
    (exec (.consumeBackupCode tenantID userID hash) s).1 = .ok (decide (hash ∈ u.backupCodes)) ∧
      (exec (.consumeBackupCode tenantID userID hash) s).2.user? tenantID userID =
        some { u with backupCodes := u.backupCodes.filter (· ≠ hash) } := by
  obtain ⟨hmem, hid, htenant⟩ := user_some hu
  have hanswer : s.users.any (fun v => State.isUser tenantID userID v ∧ hash ∈ v.backupCodes)
    = decide (hash ∈ u.backupCodes) := by
    by_cases hhash : hash ∈ u.backupCodes
    · rw [decide_eq_true hhash]
      exact List.any_eq_true.mpr ⟨u, hmem, decide_eq_true ⟨isUser_iff.mpr ⟨hid, htenant⟩, hhash⟩⟩
    · rw [decide_eq_false hhash]
      refine List.any_eq_false.mpr (fun v hv hfound => hhash ?_)
      obtain ⟨huser, hv'⟩ := of_decide_eq_true hfound
      obtain rfl := List.inj_on_of_nodup_map hs hv hmem ((isUser_iff.mp huser).1.trans hid.symm)
      exact hv'
  have hupdate : (Stmt.consumeBackupCode tenantID userID hash).update? =
      some (tenantID, userID, fun u => { u with backupCodes := u.backupCodes.filter (· ≠ hash) }) := rfl
  refine ⟨congrArg Except.ok hanswer, ?_⟩
  rw [user_map hupdate rfl, hu, Option.map_some, rewriteUser, if_pos (isUser_iff.mpr ⟨hid, htenant⟩)]

theorem codes_handle (env : Env) {o : Call} (hs : (s.users.map User.id).Nodup)
    (hu : s.user? tenantID userID = some u) (hno : ∀ hashes,
      o ≠ .store (.setBackupCodes tenantID userID hashes)) :
    ∃ u', (handle env o s).2.user? tenantID userID = some u' ∧
      ((∀ hash, (⟨o, (handle env o s).1⟩ : Entry sig GoError) ≠
          ⟨.store (.consumeBackupCode tenantID userID hash), .ok true⟩) ∧ u'.backupCodes = u.backupCodes ∨
        ∃ hash, (⟨o, (handle env o s).1⟩ : Entry sig GoError) =
            ⟨.store (.consumeBackupCode tenantID userID hash), .ok true⟩ ∧ hash ∈ u.backupCodes ∧
          u'.backupCodes = u.backupCodes.filter (· ≠ hash)) := by
  by_cases hconsume : ∃ hash, o = .store (.consumeBackupCode tenantID userID hash)
  · obtain ⟨hash, rfl⟩ := hconsume
    rw [handle]
    split
    · refine ⟨u, hu, .inl ⟨fun hash' he => ?_, rfl⟩⟩
      obtain ⟨hop, hanswer⟩ := Entry.mk.inj he
      obtain rfl := (Stmt.consumeBackupCode.inj (Call.store.inj hop)).2.2
      cases eq_of_heq hanswer
    · obtain ⟨hanswer, hrow⟩ := consume_exec hs hu hash
      refine ⟨_, hrow, ?_⟩
      dsimp only
      rw [hanswer]
      by_cases hhash : hash ∈ u.backupCodes
      · rw [decide_eq_true hhash]
        exact .inr ⟨hash, rfl, hhash, rfl⟩
      · rw [decide_eq_false hhash]
        refine .inl ⟨fun hash' he => ?_, ?_⟩
        · obtain ⟨hop, hanswer⟩ := Entry.mk.inj he
          obtain rfl := (Stmt.consumeBackupCode.inj (Call.store.inj hop)).2.2
          cases eq_of_heq hanswer
        · refine List.filter_eq_self.mpr (fun h hmem => decide_eq_true (fun heq => hhash ?_))
          rwa [← heq]
  · have hother : ∀ hash, (⟨o, (handle env o s).1⟩ : Entry sig GoError) ≠
        ⟨.store (.consumeBackupCode tenantID userID hash), .ok true⟩ :=
      fun hash he => hconsume ⟨hash, (Entry.mk.inj he).1⟩
    rcases user_handle env o hu with hsame | ⟨st, f, rfl, hupdate, hafter⟩
    · exact ⟨u, hsame, .inl ⟨hother, rfl⟩⟩
    · cases st with
      | setBackupCodes _ _ hashes =>
        cases hupdate
        exact absurd rfl (hno hashes)
      | consumeBackupCode _ _ hash =>
        cases hupdate
        exact absurd ⟨hash, rfl⟩ hconsume
      | setUserPassword _ _ _ => cases hupdate; exact ⟨_, hafter, .inl ⟨hother, rfl⟩⟩
      | setUserRole _ _ _ => cases hupdate; exact ⟨_, hafter, .inl ⟨hother, rfl⟩⟩
      | setTOTPSecret _ _ _ => cases hupdate; exact ⟨_, hafter, .inl ⟨hother, rfl⟩⟩
      | setTOTPEnabled _ _ _ => cases hupdate; exact ⟨_, hafter, .inl ⟨hother, rfl⟩⟩
      | _ => cases hupdate

variable {threads : List Thread} {hash : String} {j : Nat}

theorem consumes_start {task : Request} {p : Http Unit} :
    Consumes (threads ++ [⟨task, [], p⟩]) tenantID userID hash j ↔
    Consumes threads tenantID userID hash j := by
  unfold Consumes
  constructor
  · rintro ⟨t, ht, hmem⟩
    by_cases hlt : j < threads.length
    · rw [List.getElem?_append_left hlt] at ht
      exact ⟨t, ht, hmem⟩
    · rw [List.getElem?_append_right (Nat.le_of_not_lt hlt)] at ht
      obtain rfl := List.mem_singleton.mp (List.mem_of_getElem? ht)
      exact absurd hmem List.not_mem_nil
  · rintro ⟨t, ht, hmem⟩
    rw [List.getElem?_append_left (List.getElem?_eq_some_iff.mp ht).1]
    exact ⟨t, ht, hmem⟩

theorem consumes_fire {t : Thread} {e : Entry sig GoError} {p : Http Unit} (hi : threads[i]? = some t) :
    Consumes (threads.set i ⟨t.task, t.log ++ [e], p⟩) tenantID userID hash j ↔
      Consumes threads tenantID userID hash j ∨ j = i ∧
      e = ⟨.store (.consumeBackupCode tenantID userID hash), .ok true⟩ := by
  have hlt : i < threads.length := (List.getElem?_eq_some_iff.mp hi).1
  unfold Consumes
  by_cases hji : j = i
  · subst hji
    rw [List.getElem?_set_self hlt, hi]
    constructor
    · rintro ⟨u, hu, hmem⟩
      cases hu
      rcases List.mem_append.mp hmem with hmem | hmem
      · exact .inl ⟨t, rfl, hmem⟩
      · exact .inr ⟨rfl, (List.mem_singleton.mp hmem).symm⟩
    · rintro (⟨u, hu, hmem⟩ | ⟨-, he⟩)
      · cases hu
        exact ⟨_, rfl, List.mem_append_left _ hmem⟩
      · exact ⟨_, rfl, List.mem_append_right _ (List.mem_singleton.mpr he.symm)⟩
  · rw [List.getElem?_set_ne (Ne.symm hji)]
    exact ⟨Or.inl, fun h => h.resolve_right (fun h => hji h.1)⟩

section

variable (hc : CodesLeft tenantID userID hashes c) (husers : (c'.state.users.map User.id).Nodup)
  (hu : c.state.user? tenantID userID = some u) (hu' : c'.state.user? tenantID userID = some u')
include hc husers hu hu'

theorem CodesLeft.keep (hcodes : u'.backupCodes = u.backupCodes)
    (hconsumes : ∀ hash j, Consumes c'.threads tenantID userID hash j ↔
      Consumes c.threads tenantID userID hash j) : CodesLeft tenantID userID hashes c' := by
  obtain ⟨v, hv, hleft⟩ := hc.left
  cases hu.symm.trans hv
  refine ⟨husers, ⟨u', hu', fun hash => ?_⟩, fun hash j hj => hc.issued hash j ((hconsumes hash j).mp hj),
    fun hash i j hi hj => hc.once hash i j ((hconsumes hash i).mp hi) ((hconsumes hash j).mp hj)⟩
  simp only [hconsumes]
  rw [hcodes]
  exact hleft hash

theorem CodesLeft.take (hmem : hash ∈ u.backupCodes)
    (hcodes : u'.backupCodes = u.backupCodes.filter (· ≠ hash))
    (hconsumes : ∀ h j, Consumes c'.threads tenantID userID h j ↔
      Consumes c.threads tenantID userID h j ∨ j = i ∧ h = hash) : CodesLeft tenantID userID hashes c' := by
  obtain ⟨v, hv, hleft⟩ := hc.left
  cases hu.symm.trans hv
  obtain ⟨hissued, hunused⟩ := (hleft hash).mp hmem
  refine ⟨husers, ⟨u', hu', fun h => ?_⟩, fun h j hj => ?_, fun h i' j' hi' hj' => ?_⟩
  · rw [hcodes, List.mem_filter, hleft h, decide_eq_true_iff]
    constructor
    · rintro ⟨⟨hh, hnone⟩, hne⟩
      refine ⟨hh, fun ⟨j, hj⟩ => ?_⟩
      rcases (hconsumes h j).mp hj with hj | ⟨-, heq⟩
      · exact hnone ⟨j, hj⟩
      · exact hne heq
    · rintro ⟨hh, hnone⟩
      refine ⟨⟨hh, fun ⟨j, hj⟩ => hnone ⟨j, (hconsumes h j).mpr (.inl hj)⟩⟩, fun heq => ?_⟩
      exact hnone ⟨i, (hconsumes h i).mpr (.inr ⟨rfl, heq⟩)⟩
  · rcases (hconsumes h j).mp hj with hj | ⟨-, rfl⟩
    · exact hc.issued h j hj
    · exact hissued
  · rcases (hconsumes h i').mp hi' with hi' | ⟨rfl, rfl⟩
    · rcases (hconsumes h j').mp hj' with hj' | ⟨rfl, rfl⟩
      · exact hc.once h i' j' hi' hj'
      · exact absurd ⟨i', hi'⟩ hunused
    · rcases (hconsumes h j').mp hj' with hj' | ⟨rfl, -⟩
      · exact absurd ⟨j', hj'⟩ hunused
      · rfl

end

/-- **Step lemma**: a code leaves the row only when a request uses it up. -/
theorem codesLeft_step {a : Act Request Move} (hc : CodesLeft tenantID userID hashes c)
    (hok : NoRegeneration tenantID userID c a) (h : Pool.step (system env) c a = some c') :
    CodesLeft tenantID userID hashes c' := by
  obtain ⟨u, hu, -⟩ := hc.left
  rcases Pool.step_cases h with ⟨task, rfl, rfl⟩ | ⟨i, t, o, k, rfl, hi, hprog, rfl⟩ | ⟨m, s, rfl, hs, rfl⟩
  · exact hc.keep hc.users hu hu rfl (fun _ _ => consumes_start)
  · have hno : ∀ hashes', o ≠ .store (.setBackupCodes tenantID userID hashes') :=
      fun hashes' ho => hok t hashes' hi (ho ▸ Thread.next_eq hprog)
    have husers : ((handle env o c.state).2.users.map User.id).Nodup := users_distinct o hc.users
    obtain ⟨u', hu', ⟨hother, hcodes⟩ | ⟨hash, hentry, hmem, hcodes⟩⟩ := codes_handle env hc.users hu hno
    · refine hc.keep husers hu hu' hcodes (fun hash j => (consumes_fire hi).trans (or_iff_left (fun h => ?_)))
      exact hother hash h.2
    · refine hc.take (i := i) husers hu hu' hmem hcodes (fun h j => (consumes_fire hi).trans (or_congr_right ?_))
      refine and_congr_right (fun _ => ?_)
      rw [show (system env).handle = handle env from rfl, hentry]
      constructor
      · intro he
        exact ((Stmt.consumeBackupCode.inj (Call.store.inj (Entry.mk.inj he).1)).2.2).symm
      · rintro rfl
        rfl
  · cases m with
    | clock now =>
      cases hs
      exact hc.keep hc.users hu hu rfl (fun _ _ => Iff.rfl)

theorem codesLeft_run {acts : List (Act Request Move)} (husers : (s.users.map User.id).Nodup)
    (hu : s.user? tenantID userID = some u)
    (h : Run (Pool.step (system env)) (NoRegeneration tenantID userID) ⟨[], s⟩ acts c) :
    CodesLeft tenantID userID u.backupCodes c := by
  have hnone : ∀ hash j, ¬ Consumes [] tenantID userID hash j := fun _ _ ⟨_, ht, _⟩ => nomatch ht
  refine h.invariant (P := fun _ c => CodesLeft tenantID userID u.backupCodes c) ?_
    (fun _ _ _ _ hd hok hstep => codesLeft_step hd hok hstep)
  refine ⟨husers, ⟨u, hu, fun hash => ?_⟩, fun hash j hj => absurd hj (hnone hash j),
    fun hash i _ hi => absurd hi (hnone hash i)⟩
  exact (and_iff_left (fun ⟨j, hj⟩ => hnone hash j hj)).symm

end Step

/-! ## Logins -/

/-- Login `j` of the user was asked for a second factor, gave the code, and went on to create its session. -/
def Accepted (c : Server) (tenantID userID code : String) (j : Nat) : Prop :=
  ∃ t ip req x r, c.threads[j]? = some t ∧ t.task = .login ip (some req) ∧ req.code = code ∧
    (∀ user, Found t.log user → user.totpEnabled = true) ∧
    (⟨.store (.createSession x), r⟩ : Entry sig GoError) ∈ t.log ∧ x.userID = userID ∧ x.tenantID = tenantID

def Acceptable (env : Env) (s : State) (tenantID userID code : String) : Prop :=
  (exec (.consumeBackupCode tenantID userID (env.backupCodeHash code)) s).1 = .ok true

section Logins

variable {env : Env} {s : State} {c : Server} {tenantID userID : String}

theorem consumes_of_accepted {code : String} {j : Nat}
    (hsafe : Pool.Safe (Rely.free (handle env)) (promise env) c)
    (htotp : ∀ secret now, env.totpValidate secret code now ≠ .ok true)
    (h : Accepted c tenantID userID code j) :
      Consumes c.threads tenantID userID (env.backupCodeHash code) j := by
  obtain ⟨t, ip, req, x, r, ht, htask, rfl, henabled, hmem, rfl, rfl⟩ := h
  obtain ⟨pre, post, hlog⟩ := List.append_of_mem hmem
  have hsub : pre ⊆ t.log := by
    rw [hlog]
    exact List.subset_append_left _ _
  obtain ⟨-, -, -, hchecked⟩ := may_of_mem hsafe (List.mem_of_getElem? ht) hlog
  rw [htask] at hchecked
  obtain ⟨req', user, hbody, hfound, hid, htenant, -, hfactor⟩ := hchecked
  cases hbody
  rcases hfactor with hoff | ⟨now, hvalid⟩ | hconsumed
  · have hon := henabled user (found_mono hsub hfound)
    rw [hoff] at hon
    cases hon
  · exact absurd hvalid (htotp user.totpSecret now)
  · rw [hid, htenant]
    exact ⟨t, ht, hsub hconsumed⟩

/-- **Backup codes are single-use.** While the codes of the user are not replaced, whatever requests run side
    by side: a code that was issued is accepted by one login at most, a code that is consumed was issued, and
    a code that was issued and that no login consumed is acceptable. -/
theorem backup_single_use {acts : List (Act Request Move)} {u : User} (issued : List String)
    (hhash : Function.Injective env.backupCodeHash) (husers : (s.users.map User.id).Nodup)
    (hu : s.user? tenantID userID = some u) (hcodes : u.backupCodes = issued.map env.backupCodeHash)
    (htotp : ∀ code ∈ issued, ∀ secret now, env.totpValidate secret code now ≠ .ok true)
    (hrun : Run (Pool.step (system env)) (NoRegeneration tenantID userID) ⟨[], s⟩ acts c) :
    (∀ code ∈ issued, ∀ i j, Accepted c tenantID userID code i → Accepted c tenantID userID code j → i = j) ∧
      (∀ code j, Consumes c.threads tenantID userID (env.backupCodeHash code) j → code ∈ issued) ∧
      ∀ code ∈ issued, (¬ ∃ j, Consumes c.threads tenantID userID (env.backupCodeHash code) j) →
        Acceptable env c.state tenantID userID code := by
  have hc := codesLeft_run husers hu hrun
  have hsafe := run_safe hrun
  refine ⟨fun code hcode i j hi hj => ?_, fun code j hj => ?_, fun code hcode hunused => ?_⟩
  · have htotp := htotp code hcode
    exact hc.once _ i j (consumes_of_accepted hsafe htotp hi) (consumes_of_accepted hsafe htotp hj)
  · have hmem := hc.issued _ j hj
    rw [hcodes] at hmem
    obtain ⟨code', hcode', heq⟩ := List.mem_map.mp hmem
    exact hhash heq ▸ hcode'
  · obtain ⟨u', hu', hleft⟩ := hc.left
    have hmem : env.backupCodeHash code ∈ u.backupCodes := by
      rw [hcodes]
      exact List.mem_map_of_mem hcode
    rw [Acceptable, (consume_exec hc.users hu' _).1, decide_eq_true ((hleft _).mpr ⟨hmem, hunused⟩)]

end Logins

/-! ## Two logins with one code -/

def backupEnv : Env := { officeEnv with totpValidate := fun _ _ _ => .ok false }

def backed : State :=
  { office with
    users := [{ id := "ann", tenantID := "t1", email := "ann@x", passwordHash := "old", role := .admin, totpSecret := "123",
                totpEnabled := true, backupCodes := ["b1", "b2"] }] }

def backupLogin (code : String) : Request :=
  .login "10.0.0.1" (some { tenantSlug := "acme", email := "ann@x", password := "old", code })

def twice : List (Act Request Move) :=
  [.start (backupLogin "b1"), .start (backupLogin "b1")] ++ calls 0 3 ++ calls 1 3 ++ calls 0 8 ++ calls 1 4

def noRegeneration (c : Server) : Act Request Move → Bool
  | .fire i => ((c.threads[i]?).bind Thread.next?).all (fun
      | .store (.setBackupCodes _ _ _) => false
      | _ => true)
  | _ => true

variable {c : Server}

theorem noRegeneration_of_test {a : Act Request Move} {tenantID userID : String}
    (h : noRegeneration c a = true) : NoRegeneration tenantID userID c a := by
  cases a with
  | start request => trivial
  | fire i =>
    intro t hashes ht hnext
    rw [noRegeneration, ht, Option.bind_some, hnext] at h
    cases h
  | move m => trivial

def tellsConsumes (hash : String) : Entry sig GoError → Bool
  | ⟨.store (.consumeBackupCode _ _ hash'), .ok true⟩ => hash' = hash
  | _ => false

def tellsGuarded : Entry sig GoError → Bool
  | ⟨.store (.getUserByEmail _ _), .ok user⟩ => user.totpEnabled
  | ⟨.store (.createUser _ _ _ _), .ok (some user)⟩ => user.totpEnabled
  | _ => true

def tellsAnnCreates : Entry sig GoError → Bool
  | ⟨.store (.createSession x), _⟩ => x.userID = "ann" ∧ x.tenantID = "t1"
  | _ => false

theorem accepted_of_test (h : (c.threads[0]?).any (fun t =>
      t.task = backupLogin "b1" ∧ t.log.all tellsGuarded ∧ t.log.any tellsAnnCreates) = true) :
    Accepted c "t1" "ann" "b1" 0 := by
  obtain ⟨t, ht, htest⟩ := (Option.any_eq_true _ _).mp h
  obtain ⟨htask, hguarded, hcreates⟩ := of_decide_eq_true htest
  obtain ⟨e, he, hann⟩ := List.any_eq_true.mp hcreates
  unfold tellsAnnCreates at hann
  split at hann
  · rename_i x r
    refine ⟨t, _, _, x, r, ht, htask, rfl, fun user hfound => ?_, he, of_decide_eq_true hann⟩
    rcases hfound with ⟨_, _, hmem⟩ | ⟨_, _, _, _, hmem⟩
    · exact List.all_eq_true.mp hguarded _ hmem
    · exact List.all_eq_true.mp hguarded _ hmem
  · cases hann

theorem backup_single_use_office : ∃ c,
    Run (Pool.step (system backupEnv)) (NoRegeneration "t1" "ann") ⟨[], backed⟩ twice c ∧
      Accepted c "t1" "ann" "b1" 0 ∧ (∀ j, Accepted c "t1" "ann" "b1" j → j = 0) ∧
      Acceptable backupEnv c.state "t1" "ann" "b2" := by
  refine Transition.exists_run (b := noRegeneration) (f := fun c => (c.threads[0]?).any (fun t =>
      t.task = backupLogin "b1" ∧ t.log.all tellsGuarded ∧ t.log.any tellsAnnCreates) &&
    c.threads.all (fun t => ¬ t.log.any (tellsConsumes "b2"))) (by decide +kernel)
      (fun _ _ h => noRegeneration_of_test h)
    (fun c hrun htest => ?_)
  obtain ⟨haccepted, hunused⟩ := Bool.and_eq_true_iff.mp htest
  obtain ⟨honce, -, hleft⟩ := backup_single_use ["b1", "b2"] Function.injective_id (by decide) rfl rfl
    (fun _ _ _ _ h => Bool.false_ne_true (Except.ok.inj h)) hrun
  refine ⟨accepted_of_test haccepted, fun j hj => ?_, hleft "b2" (by decide) (fun ⟨j, t, ht, hmem⟩ => ?_)⟩
  · exact honce "b1" (by decide) j 0 hj (accepted_of_test haccepted)
  · have hnot := of_decide_eq_true (List.all_eq_true.mp hunused t (List.mem_of_getElem? ht))
    exact hnot (List.any_eq_true.mpr ⟨_, hmem, by decide⟩)

end SyncForge.Auth
