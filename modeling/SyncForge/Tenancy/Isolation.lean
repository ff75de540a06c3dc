import SyncForge.Worker.Rewrites

/-!
# `Tenancy.Isolation` — the worker stays inside its event's tenant

The scope of a tenant: statements of the tenant, and any request to a provider. `Process` stays inside the
scope of its event's tenant, because every id and row it uses comes from the event or from an earlier answer.
So what it does is decided by the tenant's rows alone, and it writes no row of anybody else.
-/

namespace SyncForge.Tenancy

open Effect Effect.Prog Effect.Scope Store

def scope (T : String) : Scope sig where
  may
    | .store s => s.ofTenant T
    | _ => True
  gives
    | .store s, a => s.answersOf T a
    | _, _ => True

/-- Two worlds that agree but for rows of tenants other than `T`. -/
def Agree (T : String) (w w' : World) : Prop := ∃ db, w' = { w with db := db } ∧ db.part T = w.db.part T

/-! ## Calls of one tenant -/

variable {env : Env} {T : String} {w w' : World}

theorem handle_with_db {o : Call} (ho : ∀ s, o ≠ .store s) (db : Database) :
    World.handle env o { w with db := db }
    = ((World.handle env o w).1, { (World.handle env o w).2 with db := db }) := by
  cases o with
  | store s => exact absurd rfl (ho s)
  | create ep data =>
    unfold World.handle
    cases h : w.providerTape w.calls <;> simp only [h] <;> rfl
  | update ep id data =>
    unfold World.handle
    cases h : w.providerTape w.calls with
    | some e => simp only [h]; rfl
    | none =>
      simp only [h]
      cases (w.sims ep).update id data <;> rfl
  | delete ep id =>
    unfold World.handle
    cases h : w.providerTape w.calls with
    | some e => simp only [h]; rfl
    | none =>
      simp only [h]
      cases (w.sims ep).softDelete id <;> rfl
  | random => rfl
  | list ep cursor limit =>
    unfold World.handle
    cases h : w.providerTape w.calls <;> simp only [h] <;> rfl
  | health ep =>
    unfold World.handle
    cases h : w.providerTape w.calls <;> simp only [h] <;> rfl
  | publish key value =>
    unfold World.handle
    cases h : w.busTape w.calls <;> simp only [h] <;> rfl
  | timeNow => rfl

theorem handle_agree {o : Call} (ho : (scope T).may o) (hw : Agree T w w') :
    (World.handle env o w').1 = (World.handle env o w).1 ∧
    Agree T (World.handle env o w).2 (World.handle env o w').2 := by
  obtain ⟨db, rfl, hpart⟩ := hw
  by_cases hs : ∃ s, o = .store s
  · obtain ⟨s, rfl⟩ := hs
    cases htape : w.storeTape w.calls with
    | error text =>
      simp only [World.handle, htape]
      exact ⟨trivial, db, rfl, hpart⟩
    | ok pick =>
      -- both answers are the answer from the tenant's part
      have hexec := (@Database.exec_part db w.now pick s T ho).symm.trans
        ((congrArg (Database.exec w.now pick s) hpart).trans (@Database.exec_part w.db w.now pick s T ho))
      obtain ⟨hanswer, hnext⟩ := Prod.mk.inj hexec
      simp only [World.handle, htape]
      exact ⟨hanswer, _, rfl, hnext⟩
  · have hno : ∀ s, o ≠ .store s := fun s h => hs ⟨s, h⟩
    rw [handle_with_db hno]
    refine ⟨rfl, db, rfl, ?_⟩
    rcases @World.handle_db env w o with h | ⟨s, _, rfl, _⟩
    · rwa [h]
    · exact absurd rfl (hno s)

theorem handle_part_other {o : Call} {T' : String} (ho : (scope T).may o) (hne : T' ≠ T) :
    (World.handle env o w).2.db.part T' = w.db.part T' := by
  rcases @World.handle_db env w o with h | ⟨s, pick, rfl, _, h⟩
  · rw [h]
  · rw [h]
    exact Database.exec_part_other ho hne

/-! ## The worker's programs -/

section

open Rewrite (anything anything_holds own process_own)

variable {ev : Event} {T' : String} {o : Call}

/-- `Process` stays inside the tenant of its event. -/
theorem may_of_own (hev : ev.tenantID = T) (ho : (own anything ev).may o) : (scope T).may o := by
  cases o with
  | store s => exact hev ▸ ho.2 s rfl
  | _ => trivial

theorem own_gives {a : sig.Res o} (ha : (World.handle env o w).1 = .ok a) : (own anything ev).gives o a :=
  @Rewrite.handle_gives env anything ev w o (anything_holds w.db) a ha

/-- **Two runs of `Process`** from worlds that agree on the rows of the event's tenant. -/
theorem process_agree (hev : ev.tenantID = T) (hw : Agree T w w') :
    trace (World.handle env) (process env ev) w' = trace (World.handle env) (process env ev) w ∧
      (run (World.handle env) (process env ev) w').1 = (run (World.handle env) (process env ev) w).1 ∧
      Agree T (run (World.handle env) (process env ev) w).2 (run (World.handle env) (process env ev) w').2 :=
  agree_of_within (fun _ _ _ ho hw => ⟨fun _ ha => own_gives ha, handle_agree (may_of_own hev ho) hw⟩)
    process_own hw

/-- **One run of `Process`** leaves the rows of every other tenant alone. -/
theorem process_part_other (hev : ev.tenantID = T) (hne : T' ≠ T) :
    (run (World.handle env) (process env ev) w).2.db.part T' = w.db.part T' := by
  refine keeps_of_within (P := own anything ev) (I := fun u : World => u.db.part T' = w.db.part T')
    (fun o u ho hu => ?_) process_own rfl
  exact ⟨fun _ ha => own_gives ha, (handle_part_other (may_of_own hev ho) hne).trans hu⟩

end

end SyncForge.Tenancy
