import SyncForge.Effect.Yields
import SyncForge.Worker.Calls
import SyncForge.Worker.Sequential

/-!
# `Worker.Success` — programs whose calls succeed

`Returns env p w post`: run alone from `w`, with every call succeeding, `p` returns a value, and `post` holds
of it and of the world then. A lookup that finds no row has succeeded: the worker takes that for an answer.
-/

namespace SyncForge

open Effect Effect.Prog Store
open Database (exec)

def StoreOp.looksUp : StoreOp → Bool
  | .getCanonical _ | .getCanonicalByProvider _ _ _ _ | .getCanonicalByEmail _ _ _ |
      .getOutboundWrite _ => true
  | _ => false

def succeeds : (o : Call) → Except GoError (sig.Res o) → Bool
  | _, .ok _ => true
  | .store s, .error .notFound => s.looksUp
  | _, .error _ => false

/-- If every call succeeds, `p` returns a value, and `post` holds of it and of the world then. -/
abbrev Returns {α : Type} (env : Env) (p : Sync α) (w : World) (post : α → World → Prop) : Prop :=
  Yields (World.handle env) succeeds p w post

variable {env : Env} {w : World} {s : StoreOp} {α : Type} {ep : Endpoint} {tenant : String}

theorem not_succeeds_stmt (hs : s.looksUp = false) (e : GoError) :
    succeeds (.store s) (.error e) = false := by
  cases e <;> first | rfl | exact hs

theorem returns_stmt {post : s.Res → World → Prop} (hs : s.looksUp = false)
    (hok : ∀ pick a, (exec w.now pick s w.db).1 = .ok a → post a (w.executed pick s)) :
    Returns env (stmt s) w post := by
  refine yields_perform (fun a ha => ?_) (fun e _ => not_succeeds_stmt hs e)
  rcases World.handle_store env w s with ⟨text, _, h⟩ | ⟨pick, _, h⟩
  · rw [h] at ha
    cases ha
  · rw [h] at ha ⊢
    exact hok pick a ha

theorem returns_tryStmt {post : Unit → World → Prop} (hs : s.looksUp = false)
    (hok : ∀ pick, post () (w.executed pick s)) : Returns env (tryStmt s) w post :=
  yields_attempt (returns_stmt hs (fun pick _ _ => hok pick)) (fun _ _ h => yields_return h)

variable {post : α → World → Prop}

theorem returns_stmt_bind {k : s.Res → Sync α} (hs : s.looksUp = false)
    (hok : ∀ pick a, (exec w.now pick s w.db).1 = .ok a → Returns env (k a) (w.executed pick s) post) :
    Returns env (stmt s >>= k) w post := by
  have hstmt : Returns env (stmt s) w (fun a w' => ∃ pick, (exec w.now pick s w.db).1 = .ok a ∧
      w' = w.executed pick s) := returns_stmt hs (fun pick _ ha => ⟨pick, ha, rfl⟩)
  refine yields_bind hstmt ?_
  rintro a _ ⟨pick, ha, rfl⟩
  exact hok pick a ha

theorem returns_tryStmt_bind {k : Unit → Sync α} (hs : s.looksUp = false)
    (hok : ∀ pick, Returns env (k ()) (w.executed pick s) post) : Returns env (tryStmt s >>= k) w post := by
  have hstmt : Returns env (tryStmt s) w (fun _ w' => ∃ pick, w' = w.executed pick s) :=
    returns_tryStmt hs (fun pick => ⟨pick, rfl⟩)
  refine yields_bind hstmt ?_
  rintro _ _ ⟨pick, rfl⟩
  exact hok pick

theorem returns_lookup {f : Except GoError s.Res → Sync α}
    (hok : ∀ pick a, (exec w.now pick s w.db).1 = .ok a → Returns env (f (.ok a)) (w.executed pick s) post)
    (hnone : ∀ pick, (exec w.now pick s w.db).1 = .error .notFound →
      Returns env (f (.error .notFound)) (w.executed pick s) post) : Returns env (attempt (stmt s) >>= f) w post := by
  have hstmt : (answering (World.handle env) succeeds).wp (stmt s) (fun w' r => ∃ pick,
      r = (exec w.now pick s w.db).1 ∧ w' = w.executed pick s ∧ succeeds (.store s) r = true) w := by
    refine (Monitor.wp_perform _).mpr ⟨trivial, ?_⟩
    rintro r ⟨hr, hanswer⟩
    show ∃ pick, r = _ ∧ (World.handle env (.store s) w).2 = _ ∧ _
    rcases World.handle_store env w s with ⟨text, _, h⟩ | ⟨pick, _, h⟩
    · rw [hr, h] at hanswer
      cases hanswer
    · rw [h] at hr ⊢
      exact ⟨pick, hr, rfl, hanswer⟩
  refine Monitor.wp_seq_attempt hstmt ?_
  rintro w' r ⟨pick, hr, rfl, hanswer⟩
  cases r with
  | ok a => exact hok pick a hr.symm
  | error e =>
    cases e with
    | notFound => exact hnone pick hr.symm
    | _ => cases hanswer

theorem returns_list {cursor : String} {limit : Int} {post : Page → World → Prop}
    (hok : ∀ p, World.page (w.sims ep) cursor limit = .ok p → post p w.called) :
    Returns env (perform (S := sig) (.list ep cursor limit)) w post := by
  refine yields_perform (fun p hp => ?_) (fun e _ => by cases e <;> rfl)
  rw [World.handle_list] at hp ⊢
  cases htape : w.providerTape w.calls with
  | some e =>
    rw [htape] at hp
    cases hp
  | none =>
    rw [htape] at hp
    exact hok p hp

/-! ## Requests that change a provider -/

theorem returns_requested {o : Call} {m : Mutation} {type : EventType} {answer : SimRecord → sig.Res o}
    {r : Option (SimRecord × SimServer)} {post : sig.Res o → World → Prop} (ho : o.isProvider = true)
    (hhandle : World.handle env o w = World.requested env w ep m type answer r)
    (hok : ∀ x, r = some x → post (answer x.1) (w.called.wrote env ep m type x)) :
    Returns env (perform (S := sig) o) w post := by
  refine yields_perform (fun a ha => ?_) (fun e _ => ?_)
  · rw [hhandle] at ha ⊢
    rcases World.requested_cases env w ep m type answer r with ⟨e, h⟩ | ⟨x, hx, h⟩
    · rw [h] at ha
      cases ha
    · rw [h] at ha ⊢
      cases ha
      exact hok x hx
  · cases o with
    | create => cases e <;> rfl
    | update => cases e <;> rfl
    | delete => cases e <;> rfl
    | _ => cases ho

section

variable {ep : Endpoint} {id : String} {data : Data}

theorem returns_create : Returns env (perform (S := sig) (.create ep data)) w (fun a w' => ∃ x,
    (w.sims ep).insert data = x ∧ a = SimServer.providerRecord x.1 ∧
      w' = w.called.wrote env ep .create .created x) :=
  returns_requested rfl (World.handle_create_eq ep data) (fun x hx => ⟨x, Option.some.inj hx, rfl, rfl⟩)

theorem returns_update : Returns env (perform (S := sig) (.update ep id data)) w (fun a w' => ∃ x,
    (w.sims ep).update id data = some x ∧ a = SimServer.providerRecord x.1 ∧
      w' = w.called.wrote env ep .update .updated x) :=
  returns_requested rfl (World.handle_update_eq ep id data) (fun x hx => ⟨x, hx, rfl, rfl⟩)

theorem returns_delete : Returns env (perform (S := sig) (.delete ep id)) w (fun _ w' => ∃ x,
    (w.sims ep).softDelete id = some x ∧ w' = w.called.wrote env ep .delete .deleted x) :=
  returns_requested rfl (World.handle_delete_eq ep id) (fun x hx => ⟨x, hx, rfl⟩)

end

structure Reached (env : Env) (db : Database) (tenant provider : String) (dst : Remote) : Prop where
  adapter : env.registry provider = some dst.adapter
  endpoint : dst.endpoint.provider = provider
  connected : ∃ conn ∈ db.connectionsOf tenant provider, dst.endpoint = ⟨conn.provider, conn.baseURL⟩

theorem returns_connect {provider : String} (hreg : (env.registry provider).isSome = true) :
    Returns env (connect env tenant provider) w (fun dst w' => Reached env w.db tenant provider dst ∧
      w' = w.called) := by
  have hget : Returns env (stmt (.getConnectionByProvider tenant provider)) w
      (fun conn w' => conn ∈ w.db.connectionsOf tenant provider ∧ w' = w.called) :=
    returns_stmt rfl (fun _ _ hconn => ⟨Database.anyRow_mem (Database.rowOrNotFound_ok hconn), rfl⟩)
  refine yields_bind hget ?_
  rintro conn _ ⟨hconn, rfl⟩
  have hprovider : conn.provider = provider := (of_decide_eq_true (List.mem_filter.mp hconn).2).2
  obtain ⟨adapter, hadapter⟩ := Option.isSome_iff_exists.mp hreg
  have hdst : adapterFor env conn = .ok ⟨adapter, ⟨conn.provider, conn.baseURL⟩⟩ := by
    unfold adapterFor
    rw [hprovider, hadapter]
  exact yields_ofExcept hdst ⟨⟨hadapter, hprovider, conn, hconn, rfl⟩, rfl⟩

inductive Writes (cust : Customer) (c : CanonicalRecord) (destination : String) (dst : Remote)
    (sim : SimServer) :
    Mutation → EventType → SimRecord × SimServer → CanonicalRecord → Prop where
  | created {x : SimRecord × SimServer} : c.providerID destination = "" → sim.insert (dst.adapter.denormalize cust).data = x →
      Writes cust c destination dst sim .create .created x (c.setProviderID destination x.1.id)
  | updated {x : SimRecord × SimServer} : c.providerID destination ≠ "" →
      sim.update (c.providerID destination) (dst.adapter.denormalize cust).data = some x →
      Writes cust c destination dst sim .update .updated x c

theorem returns_writeDestination {destination : String} {cust : Customer} {c : CanonicalRecord}
    (hreg : (env.registry destination).isSome = true) :
    Returns env (writeDestination env tenant destination cust c) w (fun c' w' => ∃ dst m type x,
      Reached env w.db tenant destination dst ∧
      Writes cust c destination dst (w.sims dst.endpoint) m type x c' ∧
      w' = w.called.called.wrote env dst.endpoint m type x) := by
  refine yields_bind (returns_connect hreg) ?_
  rintro dst _ ⟨hdst, rfl⟩
  show Returns env (ite _ _ _) _ _
  split_ifs with hempty
  · refine yields_bind returns_create ?_
    rintro _ _ ⟨x, hx, rfl, rfl⟩
    exact yields_return ⟨dst, _, _, x, hdst, .created hempty hx, rfl⟩
  · refine yields_bind returns_update ?_
    rintro _ _ ⟨x, hx, rfl, rfl⟩
    exact yields_return ⟨dst, _, _, x, hdst, .updated hempty hx, rfl⟩

end SyncForge
