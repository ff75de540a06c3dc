import SyncForge.Auth.Sessions
import Mathlib.Logic.Relation

/-!
# `Auth.Rotation` — a session has one successor

A refresh revokes the session it was called with and creates another. Any number of refreshes and logouts may
hold the same token and pass `verifySessionToken` before one of them revokes the session; the guarded update
lets one of them through. So the sessions that descend from a login form a chain, of which only the last can
be unrevoked, and a logout that revoked one of them ended it.
-/

namespace SyncForge.Auth

open Effect
open Transition (Run)

/-- A refresh that was called with a token of the session `jti` created the session `jti'`. -/
def Successor (c : Server) (jti jti' : String) : Prop :=
  ∃ t ∈ c.threads, ∃ claims, t.task = .refresh (.signed claims) ∧ claims.jti = jti ∧ ∃ x, Created t.log x ∧
    x.jti = jti'

def Family (c : Server) : String → String → Prop := Relation.ReflTransGen (Successor c)

def Live (c : Server) (jti : String) : Prop := ∃ x ∈ c.state.sessions, x.jti = jti ∧ x.revokedAt = none

def LoggedOut (c : Server) (jti : String) : Prop :=
  ∃ t ∈ c.threads, (∃ token, t.task = .logout token) ∧ ∃ tenantID, Revoked t.log tenantID jti

structure Rotated (c : Server) : Prop where
  distinct : (c.state.sessions.map Session.jti).Nodup
  revoked : ∀ (j : Nat) (t : Thread), c.threads[j]? = some t → ∀ tenantID jti, Revoked t.log tenantID jti →
    ∃ x ∈ c.state.sessions, x.jti = jti ∧ x.revokedAt ≠ none
  once : ∀ (i j : Nat) (t u : Thread), c.threads[i]? = some t → c.threads[j]? = some u →
    ∀ tenantID tenantID' jti, Revoked t.log tenantID jti → Revoked u.log tenantID' jti → i = j

section Step

variable {env : Env} {c c' : Server} {a : Act Request Move} {j : Nat} {t : Thread} {tenantID jti : String}

theorem revoked_cases (h : Pool.step (system env) c a = some c')
    (hj : c'.threads[j]? = some t) (hrevoked : Revoked t.log tenantID jti) :
    (∃ t0, c.threads[j]? = some t0 ∧ Revoked t0.log tenantID jti) ∨
      a = .fire j ∧ Changes c.state ⟨.store (.revokeSession tenantID jti), .ok ()⟩ c'.state.sessions := by
  rcases Pool.thread_step h hj with ⟨-, -, ht⟩ | ht | ⟨u, e, hu, -, hlog, rfl, hfires⟩
  · rw [ht] at hrevoked
    exact absurd hrevoked List.not_mem_nil
  · exact .inl ⟨t, ht, hrevoked⟩
  · rw [Revoked, hlog] at hrevoked
    rcases List.mem_append.mp hrevoked with hmem | hmem
    · exact .inl ⟨u, hu, hmem⟩
    · obtain rfl := List.mem_singleton.mp hmem
      exact .inr ⟨rfl, fires_changes hfires⟩

theorem Rotated.not_again {tenantID' : String} {rows : List Session} (hc : Rotated c)
    (hj : c.threads[j]? = some t) (hrevoked : Revoked t.log tenantID jti) :
    ¬ Changes c.state ⟨.store (.revokeSession tenantID' jti), .ok ()⟩ rows := by
  intro hchanges
  obtain ⟨⟨x, hx, hxjti, hxnone⟩, -⟩ := hchanges.of_revoked
  obtain ⟨y, hy, hyjti, hyrevoked⟩ := hc.revoked j t hj tenantID jti hrevoked
  obtain rfl := eq_of_jti hc.distinct hx hy (hxjti.trans hyjti.symm)
  exact hyrevoked hxnone

/-- **Step lemma**: a session is revoked by one request only. -/
theorem rotated_step (hc : Rotated c) (h : Pool.step (system env) c a = some c') : Rotated c' := by
  refine ⟨step_distinct h hc.distinct, fun j t hj tenantID jti hrevoked => ?_,
    fun i j t u hi hj tenantID tenantID' jti ht hu => ?_⟩
  · rcases revoked_cases h hj hrevoked with ⟨t0, ht0, hrevoked0⟩ | ⟨-, hchanges⟩
    · obtain ⟨x, hx, hjti, hxrevoked⟩ := hc.revoked j t0 ht0 tenantID jti hrevoked0
      obtain ⟨y, hy, hbecomes⟩ := step_stays h hx
      exact ⟨y, hy, hbecomes.same.1.trans hjti, hbecomes.revoked hxrevoked⟩
    · exact hchanges.of_revoked.2
  · rcases revoked_cases h hi ht with ⟨t0, ht0, hrevoked⟩ | ⟨hfire, hchanges⟩
    · rcases revoked_cases h hj hu with ⟨u0, hu0, hrevoked'⟩ | ⟨-, hchanges⟩
      · exact hc.once i j t0 u0 ht0 hu0 tenantID tenantID' jti hrevoked hrevoked'
      · exact absurd hchanges (hc.not_again ht0 hrevoked)
    · rcases revoked_cases h hj hu with ⟨u0, hu0, hrevoked'⟩ | ⟨hfire', -⟩
      · exact absurd hchanges (hc.not_again hu0 hrevoked')
      · exact Act.fire.inj (hfire.symm.trans hfire')

theorem rotated_run {s : State} {acts : List (Act Request Move)} {ok : Server → Act Request Move → Prop}
    (hs : (s.sessions.map Session.jti).Nodup) (h : Run (Pool.step (system env)) ok ⟨[], s⟩ acts c) :
    Rotated c :=
  h.invariant (P := fun _ c => Rotated c) ⟨hs, (fun _ _ h => nomatch h), (fun _ _ _ _ h => nomatch h)⟩
    (fun _ _ _ _ hd _ hstep => rotated_step hd hstep)

end Step

section Family

variable {env : Env} {c : Server} {x y z : String} {t : Thread} {tenantID : String}

/-- A refresh creates a session only after its own revocation of the session it was called with. -/
theorem successor_revoked (hsafe : Pool.Safe (Rely.free (State.handle env)) (promise env) c)
    (h : Successor c x y) : ∃ t ∈ c.threads, (∃ token, t.task = .refresh token) ∧
      (∃ tenantID, Revoked t.log tenantID x) ∧ ∃ row, Created t.log row ∧ row.jti = y := by
  obtain ⟨t, ht, claims, htask, rfl, row, hcreated, hrow⟩ := h
  obtain ⟨-, hgrounds⟩ := of_created hsafe ht hcreated
  rw [htask] at hgrounds
  obtain ⟨claims', hsigned, hrevoked, -⟩ := hgrounds
  cases hsigned
  exact ⟨t, ht, ⟨_, htask⟩, ⟨_, hrevoked⟩, row, hcreated, hrow⟩

section

variable (hc : Rotated c)
include hc

theorem Rotated.not_live_of_revoked (ht : t ∈ c.threads) (h : Revoked t.log tenantID x) : ¬ Live c x := by
  rintro ⟨row, hrow, hjti, hnone⟩
  obtain ⟨j, hj⟩ := List.getElem?_of_mem ht
  obtain ⟨row', hrow', hjti', hrevoked⟩ := hc.revoked j t hj tenantID x h
  obtain rfl := eq_of_jti hc.distinct hrow hrow' (hjti.trans hjti'.symm)
  exact hrevoked hnone

theorem Rotated.not_live_of_successor (hsafe : Pool.Safe (Rely.free (State.handle env)) (promise env) c)
    (h : Successor c x y) : ¬ Live c x := by
  obtain ⟨t, ht, -, ⟨tenantID, hrevoked⟩, -⟩ := successor_revoked hsafe h
  exact hc.not_live_of_revoked ht hrevoked

theorem Rotated.thread_unique {u : Thread} {tenantID' : String} (ht : t ∈ c.threads)
    (hu : u ∈ c.threads) (h : Revoked t.log tenantID x) (h' : Revoked u.log tenantID' x) : t = u := by
  obtain ⟨i, hi⟩ := List.getElem?_of_mem ht
  obtain ⟨j, hj⟩ := List.getElem?_of_mem hu
  obtain rfl := hc.once i j t u hi hj tenantID tenantID' x h h'
  exact Option.some.inj (hi.symm.trans hj)

theorem successor_unique (hsafe : Pool.Safe (Rely.free (State.handle env)) (promise env) c)
    (h : Successor c x y) (h' : Successor c x z) : y = z := by
  obtain ⟨t, ht, -, ⟨tenantID, hrevoked⟩, row, hcreated, rfl⟩ := successor_revoked hsafe h
  obtain ⟨u, hu, -, ⟨tenantID', hrevoked'⟩, row', hcreated', rfl⟩ := successor_revoked hsafe h'
  obtain rfl := hc.thread_unique ht hu hrevoked hrevoked'
  rw [created_unique hsafe ht hcreated hcreated']

theorem family_total (hsafe : Pool.Safe (Rely.free (State.handle env)) (promise env) c)
    (hy : Family c x y) (hz : Family c x z) : Family c y z ∨ Family c z y :=
  Relation.ReflTransGen.total_of_right_unique (fun _ _ _ h h' => successor_unique hc hsafe h h') hy hz

theorem Rotated.eq_or_not_live (hsafe : Pool.Safe (Rely.free (State.handle env)) (promise env) c)
    (h : Family c x y) : x = y ∨ ¬ Live c x := by
  rcases Relation.ReflTransGen.cases_head h with heq | ⟨z, hsuccessor, -⟩
  · exact .inl heq
  · exact .inr (hc.not_live_of_successor hsafe hsuccessor)

theorem Rotated.loggedOut_last (hsafe : Pool.Safe (Rely.free (State.handle env)) (promise env) c)
    (h : LoggedOut c x) : ¬ Successor c x y := by
  intro hsuccessor
  obtain ⟨u, hu, ⟨token', htask'⟩, ⟨tenantID', hrevoked'⟩, -⟩ := successor_revoked hsafe hsuccessor
  obtain ⟨t, ht, ⟨token, htask⟩, tenantID, hrevoked⟩ := h
  obtain rfl := hc.thread_unique ht hu hrevoked hrevoked'
  exact nomatch htask.symm.trans htask'

end

/-- **A session cannot be multiplied**, whatever requests run side by side, whatever tokens they present and
    whichever of their statements fail: it has at most one successor, of the sessions that descend from one at
    most one is unrevoked, and none is once a logout has revoked one of them. -/
theorem family_rotates {s : State} {acts : List (Act Request Move)} (hs : (s.sessions.map Session.jti).Nodup)
    (hrun : Run (Pool.step (system env)) (fun _ _ => True) ⟨[], s⟩ acts c) :
    (∀ x y z, Successor c x y → Successor c x z → y = z) ∧
      (∀ root x y, Family c root x → Family c root y → Live c x → Live c y → x = y) ∧
      ∀ root x y, LoggedOut c x → Family c root x → Family c root y → ¬ Live c y := by
  have hc := rotated_run hs hrun
  have hsafe := run_safe hrun
  refine ⟨fun x y z => successor_unique hc hsafe, fun root x y hx hy hlive hlive' => ?_,
    fun root x y hout hx hy => ?_⟩
  · rcases family_total hc hsafe hx hy with h | h
    · exact (hc.eq_or_not_live hsafe h).resolve_right (fun hnot => hnot hlive)
    · exact ((hc.eq_or_not_live hsafe h).resolve_right (fun hnot => hnot hlive')).symm
  · obtain ⟨t, ht, -, tenantID, hrevoked⟩ := id hout
    have hnot : ¬ Live c x := hc.not_live_of_revoked ht hrevoked
    rcases family_total hc hsafe hx hy with h | h
    · -- nothing descends from `x`
      rcases Relation.ReflTransGen.cases_head h with rfl | ⟨z, hsuccessor, -⟩
      · exact hnot
      · exact absurd hsuccessor (hc.loggedOut_last hsafe hout)
    · rcases hc.eq_or_not_live hsafe h with rfl | hnot'
      · exact hnot
      · exact hnot'

end Family

/-! ## An office -/

def officeEnv : Env where
  uuid := fun n => String.ofList (List.replicate (n + 1) 'u')
  uuid_injective := by
    intro m n h
    simpa using congrArg String.length h
  compareHashAndPassword := fun hash password => hash = password
  generateFromPassword := fun password _ => .ok password
  totpValidate := fun secret code _ => .ok (secret = code)
  newSecret := fun _ => .ok "fresh"
  newBackupCode := fun n => .ok (String.ofList (List.replicate n 'b'))
  backupCodeHash := id
  hashAPIKey := id
  discover := fun _ => .error (.plain "no issuer")
  verifyIDToken := fun _ _ => .error (.plain "no issuer")
  config := { cache := false }

def office : State where
  tenants := [{ id := "t1", slug := "acme" }]
  apiKeys := [{ keyHash := "key", tenantID := "t1", role := .admin }]
  users := [{ id := "ann", tenantID := "t1", email := "ann@x", passwordHash := "old", role := .admin }]

def annLogin : Request := .login "10.0.0.1" (some { tenantSlug := "acme", email := "ann@x", password := "old" })

def annToken (jti : String) : Token := .signed { jti, userID := "ann", tenantID := "t1", role := .admin, exp := 43200 }

/-- Thread `i` makes `n` calls. -/
def calls (i n : Nat) : List (Act Request Move) := List.replicate n (.fire i)

def tellsRevoked (jti : String) : Entry sig GoError → Bool
  | ⟨.store (.revokeSession _ jti'), .ok _⟩ => jti' = jti
  | _ => false

def tellsCreated (jti : String) : Entry sig GoError → Bool
  | ⟨.store (.createSession x), .ok y⟩ => y = x ∧ x.jti = jti
  | _ => false

variable {log : Log} {jti : String} {c : Server}

theorem revoked_of_tells (h : log.any (tellsRevoked jti) = true) : ∃ tenantID, Revoked log tenantID jti := by
  obtain ⟨e, he, htells⟩ := List.any_eq_true.mp h
  unfold tellsRevoked at htells
  split at htells
  · rename_i tenantID jti' _
    obtain rfl := of_decide_eq_true htells
    exact ⟨tenantID, he⟩
  · cases htells

theorem created_of_tells (h : log.any (tellsCreated jti) = true) : ∃ x, Created log x ∧ x.jti = jti := by
  obtain ⟨e, he, htells⟩ := List.any_eq_true.mp h
  unfold tellsCreated at htells
  split at htells
  · rename_i x y
    obtain ⟨hxy, hjti⟩ := of_decide_eq_true htells
    rw [hxy] at he
    exact ⟨x, he, hjti⟩
  · cases htells

/-- Ann logs in; two refreshes of the session pass its check side by side, and the first gets the new session,
    with which Ann logs out. -/
def rotation : List (Act Request Move) :=
  [.start annLogin] ++ calls 0 9 ++ [.start (.refresh (annToken "u")), .start (.refresh (annToken "u"))]
    ++ calls 1 3 ++ calls 2 3 ++ calls 1 1 ++ calls 2 2 ++ calls 1 5 ++ [.start (.logout (annToken "uu"))]
      ++ calls 3 5

def isRefreshOf (jti : String) : Request → Bool
  | .refresh (.signed claims) => claims.jti = jti
  | _ => false

def isLogout : Request → Bool
  | .logout _ => true
  | _ => false

theorem successor_of_test {jti' : String} (h : c.threads.any (fun t =>
      isRefreshOf jti t.task ∧ t.log.any (tellsCreated jti')) = true) : Successor c jti jti' := by
  obtain ⟨t, ht, htest⟩ := List.any_eq_true.mp h
  obtain ⟨htask, hcreated⟩ := of_decide_eq_true htest
  unfold isRefreshOf at htask
  split at htask
  · rename_i claims heq
    exact ⟨t, ht, claims, heq, of_decide_eq_true htask, created_of_tells hcreated⟩
  · cases htask

theorem loggedOut_of_test (h : c.threads.any (fun t =>
      isLogout t.task ∧ t.log.any (tellsRevoked jti)) = true) : LoggedOut c jti := by
  obtain ⟨t, ht, htest⟩ := List.any_eq_true.mp h
  obtain ⟨htask, hrevoked⟩ := of_decide_eq_true htest
  refine ⟨t, ht, ?_, revoked_of_tells hrevoked⟩
  unfold isLogout at htask
  split at htask
  · rename_i token heq
    exact ⟨token, heq⟩
  · cases htask

theorem family_rotates_office : ∃ c, Run (Pool.step (system officeEnv))
    (fun _ _ => True) ⟨[], office⟩ rotation c ∧ Successor c "u" "uu" ∧ LoggedOut c "uu" ∧
    ∀ y, Family c "u" y → ¬ Live c y := by
  refine Transition.exists_run (b := fun _ _ => true)
    (f := fun c => decide (c.threads.any (fun t => isRefreshOf "u" t.task ∧
      t.log.any (tellsCreated "uu")) = true ∧
    c.threads.any (fun t => isLogout t.task ∧ t.log.any (tellsRevoked "uu")) = true)) (by decide +kernel)
      (fun _ _ _ => trivial)
    (fun c hrun htest => ?_)
  obtain ⟨hsuccessor, hout⟩ := of_decide_eq_true htest
  have hfamily : Family c "u" "uu" := .single (successor_of_test hsuccessor)
  obtain ⟨-, -, hended⟩ := family_rotates (by decide) hrun
  exact ⟨successor_of_test hsuccessor, loggedOut_of_test hout,
    fun y hy => hended "u" "uu" y (loggedOut_of_test hout) hfamily hy⟩

end SyncForge.Auth
