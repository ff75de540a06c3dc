import SyncForge.Auth.Sessions
import SyncForge.Store.Frame

/-!
# `Auth.Users` — what the calls do to the user rows

A row is added by `CreateUser`, and rewritten by one of six statements, each of which names one user and
leaves id, tenant and e-mail alone. `user_handle` follows the row of one user over a call.
-/

namespace SyncForge.Auth

open Effect
open State (exec handle isUser)

def State.user? (s : State) (tenantID userID : String) : Option User := s.users.find? (isUser tenantID userID)

def Stmt.update? : Stmt → Option (String × String × (User → User))
  | .setUserPassword tenantID userID passwordHash => some (tenantID, userID, fun u => { u with passwordHash })
  | .setUserRole tenantID userID role => some (tenantID, userID, fun u => { u with role })
  | .setTOTPSecret tenantID userID secret => some (tenantID, userID, fun u => { u with totpSecret := secret })
  | .setTOTPEnabled tenantID userID enabled =>
      some (tenantID, userID, fun u => { u with totpEnabled := enabled })
  | .setBackupCodes tenantID userID hashes =>
      some (tenantID, userID, fun u => { u with backupCodes := hashes })
  | .consumeBackupCode tenantID userID hash =>
    some (tenantID, userID, fun u => { u with backupCodes := u.backupCodes.filter (· ≠ hash) })
  | _ => none

def rewriteUser (tenantID userID : String) (f : User → User) (u : User) : User :=
  if isUser tenantID userID u then f u else u

section Users

variable {env : Env} {s : State} {o : Call} {st : Stmt} {tenantID userID : String} {u : User}
  {f : User → User}

theorem update_fields (h : st.update? = some (tenantID, userID, f)) (u : User) :
    (f u).id = u.id ∧ (f u).tenantID = u.tenantID ∧ (f u).email = u.email := by
  cases st <;> cases h <;> exact ⟨rfl, rfl, rfl⟩

theorem rewriteUser_fields (h : st.update? = some (tenantID, userID, f)) (u : User) :
    (rewriteUser tenantID userID f u).id = u.id ∧
    (rewriteUser tenantID userID f u).tenantID = u.tenantID := by
  unfold rewriteUser
  split_ifs
  · exact ⟨(update_fields h u).1, (update_fields h u).2.1⟩
  · exact ⟨rfl, rfl⟩

theorem exec_users (st : Stmt) : (exec st s).2.users = s.users ∧ st.update? = none ∨
      (∃ tenantID email hash role user, st = .createUser tenantID email hash role ∧ (∀ u ∈ s.users, u.id ≠ user.id) ∧
        (exec st s).2.users = s.users ++ [user]) ∨ ∃ tenantID userID f, st.update? = some (tenantID, userID, f) ∧
        (exec st s).2.users = s.users.map (rewriteUser tenantID userID f) := by
  cases st with
  | createUser tenantID email hash role =>
    rw [exec]
    split_ifs
    · exact .inl ⟨rfl, rfl⟩
    · refine .inr (.inl ⟨tenantID, email, hash, role, _, rfl, fun u hu hid => ?_, rfl⟩)
      exact Database.newID_not_mem (s.users.map User.id) (List.mem_map.mpr ⟨u, hu, hid⟩)
  | createSession x =>
    rw [exec]
    split_ifs <;> exact .inl ⟨rfl, rfl⟩
  | setUserPassword _ _ _ => exact .inr (.inr ⟨_, _, _, rfl, rfl⟩)
  | setUserRole _ _ _ => exact .inr (.inr ⟨_, _, _, rfl, rfl⟩)
  | setTOTPSecret _ _ _ => exact .inr (.inr ⟨_, _, _, rfl, rfl⟩)
  | setTOTPEnabled _ _ _ => exact .inr (.inr ⟨_, _, _, rfl, rfl⟩)
  | setBackupCodes _ _ _ => exact .inr (.inr ⟨_, _, _, rfl, rfl⟩)
  | consumeBackupCode _ _ _ => exact .inr (.inr ⟨_, _, _, rfl, rfl⟩)
  | _ => exact .inl ⟨rfl, rfl⟩

theorem handle_users (env : Env) (s : State) (o : Call) : (handle env o s).2.users = s.users ∨
    ∃ st, o = .store st ∧ (handle env o s).2.users = (exec st s).2.users := by
  cases o with
  | store st =>
    rw [handle]
    split
    · exact .inl rfl
    · exact .inr ⟨st, rfl, rfl⟩
  | incr key =>
    rw [handle]
    split <;> exact .inl rfl
  | expire key ttl =>
    rw [handle]
    split <;> exact .inl rfl
  | _ => exact .inl rfl

/-! ## One user's row -/

theorem isUser_iff : isUser tenantID userID u = true ↔ u.id = userID ∧ u.tenantID = tenantID :=
    decide_eq_true_iff

theorem user_some (h : s.user? tenantID userID = some u) : u ∈ s.users ∧ u.id = userID ∧
    u.tenantID = tenantID :=
  ⟨List.mem_of_find?_eq_some h, isUser_iff.mp (List.find?_some h)⟩

theorem user_of_mem (hs : (s.users.map User.id).Nodup) (hu : u ∈ s.users) :
    s.user? u.tenantID u.id = some u := by
  cases hfound : s.user? u.tenantID u.id with
  | none => exact absurd (isUser_iff.mpr ⟨rfl, rfl⟩) (List.find?_eq_none.mp hfound u hu)
  | some v =>
    obtain ⟨hv, hid, -⟩ := user_some hfound
    rw [List.inj_on_of_nodup_map hs hv hu hid]

theorem user_map {tenantID' userID' : String} (hst : st.update? = some (tenantID', userID', f))
    {s' : State} (hs' : s'.users = s.users.map (rewriteUser tenantID' userID' f)) :
    s'.user? tenantID userID = (s.user? tenantID userID).map (rewriteUser tenantID' userID' f) := by
  unfold State.user?
  rw [hs', List.find?_map]
  congr 2
  funext u
  rw [Function.comp_apply, isUser, isUser, (rewriteUser_fields hst u).1, (rewriteUser_fields hst u).2]

theorem user_handle (env : Env) (o : Call) (h : s.user? tenantID userID = some u) :
    (handle env o s).2.user? tenantID userID = some u ∨
      ∃ st f, o = .store st ∧ st.update? = some (tenantID, userID, f) ∧
        (handle env o s).2.user? tenantID userID = some (f u) := by
  have keep : ∀ s' : State, s'.users = s.users → s'.user? tenantID userID = some u := by
    intro s' hs'
    rwa [State.user?, hs']
  rcases handle_users env s o with hsame | ⟨st, rfl, hst⟩
  · exact .inl (keep _ hsame)
  · rcases exec_users (s := s) st with ⟨hsame, -⟩ | ⟨_, _, _, _, user, -, -, hadded⟩ | ⟨tenantID', userID', f,
      hupdate, hmap⟩
    · exact .inl (keep _ (hst.trans hsame))
    · left
      rw [State.user?, hst, hadded, List.find?_append]
      exact Option.or_eq_some_iff.mpr (.inl h)
    · rw [user_map hupdate (hst.trans hmap), h, Option.map_some]
      by_cases huser : isUser tenantID' userID' u = true
      · obtain ⟨-, hid, htenant⟩ := user_some h
        obtain ⟨hid', htenant'⟩ := isUser_iff.mp huser
        obtain rfl := hid.symm.trans hid'
        obtain rfl := htenant.symm.trans htenant'
        rw [rewriteUser, if_pos huser]
        exact .inr ⟨st, f, rfl, hupdate, rfl⟩
      · rw [rewriteUser, if_neg huser]
        exact .inl rfl

theorem users_distinct (o : Call) (hs : (s.users.map User.id).Nodup) :
    ((handle env o s).2.users.map User.id).Nodup := by
  rcases handle_users env s o with hsame | ⟨st, rfl, hst⟩
  · rwa [hsame]
  · rcases exec_users (s := s) st with ⟨hsame, -⟩ | ⟨_, _, _, _, user, -, hfresh, hadded⟩ | ⟨tenantID',
      userID', f, hupdate, hmap⟩
    · rwa [hst, hsame]
    · rw [hst, hadded, List.map_append, List.nodup_append]
      refine ⟨hs, List.nodup_singleton _, fun a ha b hb => ?_⟩
      obtain ⟨v, hv, rfl⟩ := List.mem_map.mp ha
      obtain rfl := List.mem_singleton.mp hb
      exact hfresh v hv
    · have hid : User.id ∘ rewriteUser tenantID' userID' f = User.id :=
        funext (fun u => (rewriteUser_fields hupdate u).1)
      rwa [hst, hmap, List.map_map, hid]

end Users

end SyncForge.Auth
