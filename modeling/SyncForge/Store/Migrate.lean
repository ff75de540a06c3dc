import Mathlib.Data.List.Sort
import SyncForge.Effect.Watch

/-!
# `Store.Migrate` — migrations and crashes

`Migrate` of `internal/db/migrate.go` on the files of `migrations/`, statement by statement. It means to apply
a file and to record its name in one transaction. But each file ends with a `COMMIT`, which ends that
transaction before the name is recorded: a crash in between leaves a file that is applied and not recorded,
and the next `Migrate` applies it again. Rows are not part of the model.
-/

namespace SyncForge.Migration

open Effect
open Effect.Prog hiding pure

/-! ## Postgres -/

inductive Object where
  | table (name : String)
  | column (table name : String)
  | index (name : String)
  | policy (table name : String)
  | function (name : String)
  | rowSecurity (table : String)
  | forcedRowSecurity (table : String)
  | privileges (grant : String)
deriving DecidableEq, Repr

/-- What a statement refers to and what it makes; `IF NOT EXISTS`, `OR REPLACE`, grants and settings may find
    what they make. -/
structure Statement where
  needs : List Object
  makes : List Object
  repeatable : Bool := false

/-- The schema, the statements that changed it, and `schema_migrations` if it exists. -/
structure Catalog where
  objects : List Object := []
  effects : List Statement := []
  versions : Option (List String) := none

def Statement.exec (st : Statement) (c : Catalog) : Except String Catalog :=
  if ∃ x ∈ st.needs, x ∉ c.objects then .error "does not exist"
  else if ∃ x ∈ st.makes, x ∈ c.objects then
    if st.repeatable then .ok c else .error "already exists"
  else .ok { c with objects := c.objects ++ st.makes, effects := c.effects ++ [st] }

def execAll : List Statement → Catalog → Except String Catalog
  | [], c => .ok c
  | st :: sts, c => st.exec c >>= execAll sts

inductive Tx where
  | idle
  | active (c : Catalog)
  | aborted

/-- The database and the transaction of the connection. -/
structure Postgres where
  committed : Catalog := {}
  tx : Tx := .idle

inductive Sql where
  | createVersions
  | versionExists (name : String)
  | begin
  | commit
  | rollback
  | statement (st : Statement)
  | insertVersion (name : String)

@[reducible] def Sql.Res : Sql → Type
  | .versionExists _ => Bool
  | _ => Unit

def sig : Sig := ⟨Sql, Sql.Res⟩

def Postgres.update (pg : Postgres) (f : Catalog → Except String Catalog) : Except String Unit × Postgres :=
  match pg.tx with
  | .idle =>
    match f pg.committed with
    | .ok c => (.ok (), ⟨c, .idle⟩)
    | .error e => (.error e, pg)
  | .active w =>
    match f w with
    | .ok c => (.ok (), ⟨pg.committed, .active c⟩)
    | .error e => (.error e, ⟨pg.committed, .aborted⟩)
  | .aborted => (.error "current transaction is aborted", pg)

/-- `CREATE TABLE IF NOT EXISTS schema_migrations`. -/
def Catalog.ensured (c : Catalog) : Catalog := { c with versions := some (c.versions.getD []) }

def Catalog.recorded (c : Catalog) (name : String) : Catalog :=
    { c with versions := c.versions.map (· ++ [name]) }

def Catalog.insertVersion (name : String) (c : Catalog) : Except String Catalog :=
  match c.versions with
  | none => .error "does not exist"
  | some vs => if name ∈ vs then .error "duplicate key value" else .ok (c.recorded name)

def handle : Prog.Handler sig String Postgres
  | .createVersions, pg => pg.update (fun c => .ok c.ensured)
  | .versionExists name, pg =>
    match pg.committed.versions with
    | none => (.error "does not exist", pg)
    | some vs => (.ok (decide (name ∈ vs)), pg)
  -- `BEGIN` in a transaction is a warning, and so is `COMMIT` without one
  | .begin, pg =>
    match pg.tx with
    | .idle => (.ok (), ⟨pg.committed, .active pg.committed⟩)
    | _ => (.ok (), pg)
  | .commit, pg =>
    match pg.tx with
    | .idle => (.ok (), pg)
    | .active c => (.ok (), ⟨c, .idle⟩)
    | .aborted => (.error "commit unexpectedly resulted in rollback", ⟨pg.committed, .idle⟩)
  | .rollback, pg => (.ok (), ⟨pg.committed, .idle⟩)
  | .statement st, pg => pg.update st.exec
  | .insertVersion name, pg => pg.update (Catalog.insertVersion name)

/-- The connection is lost, and its transaction with it. -/
def Postgres.crash (pg : Postgres) : Postgres := ⟨pg.committed, .idle⟩

/-! ## `Migrate` -/

structure File where
  name : String
  statements : List Statement
  isDir : Bool := false

def File.failed (f : File) (e : String) : String := "apply migration " ++ f.name ++ ": " ++ e

def File.body (f : File) : List Sql := .begin :: (f.statements.map .statement ++ [.commit])

/-- A text of several statements; the server leaves out those that follow an error. -/
def execBody : List Sql → Prog sig String Unit
  | [] => pure ()
  | q :: qs => do
    let _ ← perform (S := sig) q
    execBody qs

def applyFile (f : File) : Prog sig String Unit := do
  let () ← perform (S := sig) .begin
  match ← attempt (execBody f.body) with
  | .error e => do
    let _ ← attempt (perform (S := sig) .rollback)
    .throw (f.failed e)
  | .ok _ =>
    match ← attempt (perform (S := sig) (.insertVersion f.name)) with
    | .error e => do
      let _ ← attempt (perform (S := sig) .rollback)
      .throw e
    | .ok _ => perform (S := sig) .commit

def migrateFiles : List File → Prog sig String Unit
  | [] => pure ()
  | f :: fs => do
    let found : Bool ← perform (S := sig) (.versionExists f.name)
    if found then migrateFiles fs
    else do
      applyFile f
      migrateFiles fs

/-- `path.Ext`. -/
def ext (name : String) : String :=
  let rest := name.toList.reverse
  if '.' ∈ rest then String.ofList ('.' :: (rest.takeWhile (· ≠ '.')).reverse) else ""

def sqlFiles (fsys : List File) : List File :=
  (fsys.filter (fun f => f.isDir = false ∧ ext f.name = ".sql")).insertionSort (fun f g => f.name ≤ g.name)

/-- `Migrate`. -/
def migrate (fsys : List File) : Prog sig String Unit := do
  match ← attempt (perform (S := sig) .createVersions) with
  | .error e => .throw ("ensure schema_migrations: " ++ e)
  | .ok _ => migrateFiles (sqlFiles fsys)

/-! ## A statement, the first and the second time -/

variable {sts sts' : List Statement} {objects : List Object} {c : Catalog} {f : File}
  {files done todo rest : List File}

/-- Everything the statements refer to is there, and nothing that they make. -/
def fresh : List Object → List Statement → Bool
  | _, [] => true
  | objects, st :: sts =>
    st.needs.all (· ∈ objects) && !st.makes.isEmpty && st.makes.all (· ∉ objects) && fresh
      (objects ++ st.makes) sts

theorem fresh_cons {st : Statement} : fresh objects (st :: sts) = true ↔ (∀ x ∈ st.needs, x ∈ objects) ∧
    (∃ x, x ∈ st.makes) ∧ (∀ x ∈ st.makes, x ∉ objects) ∧ fresh (objects ++ st.makes) sts = true := by
  simp [fresh, and_assoc, List.eq_nil_iff_forall_not_mem]

/-- The catalog once the statements have taken effect. -/
def Catalog.with (c : Catalog) (sts : List Statement) : Catalog :=
  { c with objects := c.objects ++ sts.flatMap Statement.makes, effects := c.effects ++ sts }

theorem fresh_append : fresh objects (sts ++ sts') = true ↔
    fresh objects sts = true ∧ fresh (objects ++ sts.flatMap Statement.makes) sts' = true := by
  induction sts generalizing objects with
  | nil => simp [fresh]
  | cons st sts ih => simp [fresh_cons, ih, and_assoc]

theorem execAll_fresh (h : fresh c.objects sts = true) : execAll sts c = .ok (c.with sts) := by
  induction sts generalizing c with
  | nil => simp [execAll, Catalog.with]
  | cons st sts ih =>
    obtain ⟨hneeds, -, hnew, hrest⟩ := fresh_cons.mp h
    have hexec : st.exec c = .ok { c with objects := c.objects ++ st.makes, effects := c.effects ++ [st] } := by
      unfold Statement.exec
      rw [if_neg (fun ⟨x, hx, hnot⟩ => hnot (hneeds x hx)), if_neg (fun ⟨x, hx, hin⟩ => hnew x hx hin)]
    rw [execAll, hexec]
    refine (ih hrest).trans ?_
    simp [Catalog.with]

def File.repeatable (f : File) : Bool := f.statements.all Statement.repeatable

/-- The second time every statement finds what it makes. -/
theorem execAll_again (h : fresh objects sts = true)
    (hsub : objects ++ sts.flatMap Statement.makes ⊆ c.objects) :
    execAll sts c = if sts.all Statement.repeatable then .ok c else .error "already exists" := by
  induction sts generalizing objects with
  | nil => rfl
  | cons st sts ih =>
    obtain ⟨hneeds, ⟨x, hx⟩, -, hrest⟩ := fresh_cons.mp h
    rw [List.flatMap_cons, ← List.append_assoc] at hsub
    have hexec : st.exec c = if st.repeatable then .ok c else .error "already exists" := by
      unfold Statement.exec
      rw [if_neg (fun ⟨y, hy, hnot⟩ => hnot (hsub (by simp [hneeds y hy]))), if_pos ⟨x, hx, hsub (by simp [hx])⟩]
    rw [execAll, hexec, List.all_cons]
    cases st.repeatable with
    | false => rfl
    | true => exact ih hrest hsub

/-! ## A file -/

/-- `D` is asked at each statement about what a crash there would leave. -/
abbrev crashing (D : Sql → Catalog → Prop) : Monitor sig String Postgres :=
    guarding handle (fun q pg => D q pg.committed)

variable {D : Sql → Catalog → Prop} {vs : List String} {post : Postgres → Except String Unit → Prop}

/-- The statements went through and are committed, or the transaction is aborted. -/
def Ended (sts : List Statement) (c w : Catalog) (pg : Postgres) (r : Except String Unit) : Prop :=
  (∃ w', execAll sts w = .ok w' ∧ pg = ⟨w', .idle⟩ ∧ r = .ok ()) ∨ ∃ e, execAll sts w = .error e ∧
    pg = ⟨c, .aborted⟩ ∧ r = .error e

theorem body_wp {w : Catalog} (hD : ∀ st, D (.statement st) c) (hcommit : D .commit c) :
    (crashing D).wp (execBody (sts.map .statement ++ [.commit])) (Ended sts c w) ⟨c, .active w⟩ := by
  induction sts generalizing w with
  | nil => exact guarding_call hcommit rfl (.inl ⟨w, rfl, rfl, rfl⟩)
  | cons st sts ih =>
    have hanswer : handle (.statement st) ⟨c, .active w⟩ =
        match st.exec w with | .ok w' => (.ok (), ⟨c, .active w'⟩) | .error e => (.error e, ⟨c, .aborted⟩) := rfl
    unfold Ended
    rw [execAll]
    cases hexec : st.exec w with
    | error e =>
      rw [hexec] at hanswer
      exact guarding_call (hD st) hanswer (.inr ⟨e, rfl, rfl, rfl⟩)
    | ok w' =>
      rw [hexec] at hanswer
      exact guarding_call (hD st) hanswer ih

/-- The next file is not recorded yet. -/
theorem file_wp (hversions : c.versions = some vs) (hnew : f.name ∉ vs)
    (hD : ∀ q, (∀ name, q ≠ .insertVersion name) → D q c) (hok : ∀ c', execAll f.statements c = .ok c' →
      c'.versions = c.versions ∧ D (.insertVersion f.name) c' ∧ D .commit (c'.recorded f.name) ∧
      (crashing D).wp (migrateFiles rest) post ⟨c'.recorded f.name, .idle⟩)
    (herror : ∀ e, execAll f.statements c = .error e → post ⟨c, .idle⟩ (.error (f.failed e))) :
    (crashing D).wp (migrateFiles (f :: rest)) post ⟨c, .idle⟩ := by
  have hfound : handle (.versionExists f.name) ⟨c, .idle⟩ = (.ok false, ⟨c, .idle⟩) := by
    simp only [handle, hversions, hnew, decide_false]
  refine guarding_call (hD _ nofun) hfound ?_
  change (crashing D).wp (applyFile f >>= fun _ => migrateFiles rest) _ _
  rw [Monitor.wp_bind]
  have hbody : (crashing D).wp (execBody f.body) (Ended f.statements c c) ⟨c, .active c⟩ :=
    guarding_call (hD _ nofun) rfl (body_wp (fun _ => hD _ nofun) (hD _ nofun))
  refine guarding_call (hD _ nofun) rfl (Monitor.wp_seq_attempt hbody ?_)
  rintro _ _ (⟨c', hall, rfl, rfl⟩ | ⟨e, hall, rfl, rfl⟩)
  · -- the transaction is over: the name is recorded on its own
    obtain ⟨hkept, hinsert, hcommit, hrest⟩ := hok c' hall
    have hanswer : handle (.insertVersion f.name) ⟨c', .idle⟩ = (.ok (), ⟨c'.recorded f.name, .idle⟩) := by
      simp only [handle, Postgres.update, Catalog.insertVersion, hkept, hversions, if_neg hnew]
      rfl
    exact guarding_call hinsert hanswer (guarding_call hcommit rfl hrest)
  · exact guarding_call (hD _ nofun) rfl (herror e hall)

/-- Files that are recorded are passed over. -/
theorem skip_wp {pre : List File} (hversions : c.versions = some vs) (hpre : ∀ f ∈ pre, f.name ∈ vs)
    (hD : ∀ name, D (.versionExists name) c) (h : (crashing D).wp (migrateFiles todo) post ⟨c, .idle⟩) :
    (crashing D).wp (migrateFiles (pre ++ todo)) post ⟨c, .idle⟩ := by
  induction pre with
  | nil => exact h
  | cons f pre ih =>
    have hfound : handle (.versionExists f.name) ⟨c, .idle⟩ = (.ok true, ⟨c, .idle⟩) := by
      simp only [handle, hversions, hpre f List.mem_cons_self, decide_true]
    exact guarding_call (hD _) hfound (ih (fun g hg => hpre g (List.mem_cons_of_mem _ hg)))

/-! ## All files -/

def statements (files : List File) : List Statement := files.flatMap File.statements

/-- The catalog when these files are applied and recorded. -/
def schema (done : List File) : Catalog :=
    { Catalog.with {} (statements done) with versions := some (done.map File.name) }

/-- `f` is applied besides, and not recorded. -/
def unrecorded (done : List File) (f : File) : Catalog := (schema done).with f.statements

theorem recorded_schema : (unrecorded done f).recorded f.name = schema (done ++ [f]) := by
  simp [unrecorded, Catalog.recorded, schema, Catalog.with, statements]

/-- Files that can be applied one after the other. -/
structure Sound (files : List File) : Prop where
  clean : fresh [] (statements files) = true
  names : (files.map File.name).Nodup

theorem Sound.file (hs : Sound files) (hfiles : files = done ++ f :: rest) :
    fresh (schema done).objects f.statements = true ∧ f.name ∉ done.map File.name := by
  subst hfiles
  have hfresh := hs.clean
  have hnames := hs.names
  rw [statements, List.flatMap_append, List.flatMap_cons, fresh_append, fresh_append] at hfresh
  rw [List.map_append, List.map_cons] at hnames
  exact ⟨hfresh.2.1, fun hmem => List.disjoint_of_nodup_append hnames hmem List.mem_cons_self⟩

/-- What a crash before a statement leaves: the files up to one of them, and one more if the statement is to
    record it. -/
def Leaves (files : List File) (q : Sql) (c : Catalog) : Prop :=
  ∃ done todo, files = done ++ todo ∧ match q with
    | .insertVersion name => ∃ f rest, todo = f :: rest ∧ name = f.name ∧ c = unrecorded done f
    | _ => c = schema done

theorem leaves_schema (hfiles : files = done ++ todo) {q : Sql} (hq : ∀ name, q ≠ .insertVersion name) :
    Leaves files q (schema done) := by
  refine ⟨done, todo, hfiles, ?_⟩
  cases q with
  | insertVersion name => exact absurd rfl (hq name)
  | _ => rfl

theorem migrateFiles_wp (hs : Sound files) (hfiles : files = done ++ todo)
    (hD : ∀ q c, Leaves files q c → D q c) : (crashing D).wp (migrateFiles todo) (fun pg r => r = .ok () ∧
      pg = ⟨schema files, .idle⟩) ⟨schema done, .idle⟩ := by
  induction todo generalizing done with
  | nil =>
    rw [List.append_nil] at hfiles
    exact ⟨rfl, by rw [hfiles]⟩
  | cons f rest ih =>
    obtain ⟨hfresh, hname⟩ := hs.file hfiles
    have hnext : files = (done ++ [f]) ++ rest := by simp [hfiles]
    refine file_wp rfl hname (fun q hq => hD _ _ (leaves_schema hfiles hq)) (fun c' hall => ?_)
      (fun e hall => ?_)
    · cases (execAll_fresh hfresh).symm.trans hall
      refine ⟨rfl, hD _ _ ⟨done, f :: rest, hfiles, f, rest, rfl, rfl, rfl⟩, ?_⟩
      rw [← unrecorded, recorded_schema]
      exact ⟨hD _ _ (leaves_schema hnext nofun), ih hnext⟩
    · cases (execAll_fresh hfresh).symm.trans hall

/-! ## A crash, and `Migrate` again -/

variable {fsys : List File} {pg : Postgres} {k : Nat}

/-- `Migrate` succeeds again after a crash `k` statements into it, and every statement of every file has then
    taken effect once. -/
def Survives (fsys : List File) (pg : Postgres) (k : Nat) : Prop :=
  let again := run handle (migrate fsys) (advance handle k (migrate fsys) pg).2.crash
  again.1 = .ok () ∧ again.2.committed.effects = statements (sqlFiles fsys)

/-- A database with these files, and with `schema_migrations` unless it is new. -/
def Installed (done : List File) (pg : Postgres) : Prop := ∃ c :
    Catalog, pg = ⟨c, .idle⟩ ∧ c.ensured = schema done

section

variable (hs : Sound files) (hsql : sqlFiles fsys = files)
include hs hsql

theorem installed_run (hfiles : files = done ++ todo) (hpg : Installed done pg) :
    (run handle (migrate fsys) pg).1 = .ok () ∧
    (run handle (migrate fsys) pg).2.committed.effects = statements (sqlFiles fsys) := by
  have hwp : (crashing fun _ _ => True).wp (migrateFiles (done ++ todo)) _ ⟨schema done, .idle⟩ :=
    skip_wp rfl (fun f hf => List.mem_map_of_mem hf) (fun _ => trivial)
      (migrateFiles_wp hs hfiles (fun _ _ _ => trivial))
  obtain ⟨c, rfl, hc⟩ := hpg
  have hrun : run handle (migrate fsys) ⟨c, .idle⟩ = run handle (migrateFiles (sqlFiles fsys)) ⟨c.ensured,
    .idle⟩ := rfl
  rw [← hfiles] at hwp
  obtain ⟨hresult, hstate⟩ := guarding_run hwp
  rw [hrun, hc, hsql, hstate]
  exact ⟨hresult, rfl⟩

/-- A file that is applied and not recorded is applied again. -/
theorem unrecorded_run (hfiles : files = done ++ f :: rest) :
    ((run handle (migrate fsys) ⟨unrecorded done f, .idle⟩).1 = .ok () ∧
      (run handle (migrate fsys) ⟨unrecorded done f, .idle⟩).2.committed.effects = statements (sqlFiles fsys)) ↔ f.repeatable = true := by
  obtain ⟨hfresh, hname⟩ := hs.file hfiles
  have hagain : execAll f.statements (unrecorded done f) = if f.repeatable then .ok (unrecorded done f) else .error "already exists" :=
    execAll_again hfresh (List.Subset.refl _)
  have hrun : run handle (migrate fsys) ⟨unrecorded done f, .idle⟩ = run handle (migrateFiles (sqlFiles fsys))
    ⟨unrecorded done f, .idle⟩ := rfl
  have hwp : (crashing fun _ _ => True).wp (migrateFiles (done ++ f :: rest)) (fun pg r =>
      (r = .ok () ∧ pg.committed.effects = statements files) ↔ f.repeatable = true) ⟨unrecorded done f, .idle⟩ := by
    refine skip_wp rfl (fun g hg => List.mem_map_of_mem hg) (fun _ => trivial) ?_
    refine file_wp rfl hname (fun _ _ => trivial) (fun c' hall => ?_) (fun e hall => ?_)
    all_goals
      rw [hagain] at hall
      split_ifs at hall with hrepeatable
      cases hall
    · have hnext : files = (done ++ [f]) ++ rest := by simp [hfiles]
      rw [recorded_schema]
      refine ⟨rfl, trivial, trivial, Monitor.wp_mono (migrateFiles_wp hs hnext (fun _ _ _ => trivial)) ?_⟩
      rintro _ _ ⟨rfl, rfl⟩
      exact ⟨fun _ => hrepeatable, fun _ => ⟨rfl, rfl⟩⟩
    · exact ⟨fun h => (nomatch h.1), fun h => absurd h hrepeatable⟩
  rw [← hfiles] at hwp
  rw [hrun, hsql]
  exact guarding_run hwp

/-- **A crash is survived** unless the next statement was to record a file that cannot be applied twice. -/
theorem survives_iff (hfiles : files = done ++ todo) (hpg : Installed done pg) :
    Survives fsys pg k ↔ ∀ f ∈ files, (advance handle k (migrate fsys) pg).1.next?
    = some (.insertVersion f.name) → f.repeatable = true := by
  obtain ⟨c, rfl, hc⟩ := hpg
  cases k with
  | zero => exact ⟨fun _ f _ => nofun, fun _ => installed_run hs hsql hfiles ⟨c, rfl, hc⟩⟩
  | succ k =>
    have hadvance : advance handle (k + 1) (migrate fsys) ⟨c, .idle⟩
      = advance handle k (migrateFiles (sqlFiles fsys)) ⟨c.ensured, .idle⟩ := rfl
    have hwp : (crashing (Leaves files)).wp (migrateFiles (done ++ todo)) _ ⟨schema done, .idle⟩ :=
      skip_wp rfl (fun f hf => List.mem_map_of_mem hf) (fun _ => leaves_schema hfiles nofun) (migrateFiles_wp hs hfiles (fun _ _ h => h))
    rw [← hfiles] at hwp
    have hleft := guarding_advance hwp k
    unfold Survives
    rw [hadvance, hc, hsql]
    generalize advance handle k (migrateFiles files) ⟨schema done, .idle⟩ = x at hleft ⊢
    obtain ⟨p, pg'⟩ := x
    rw [← hsql]
    cases p with
    | throw e => cases hleft.1
    | pure a =>
      obtain ⟨-, rfl⟩ := hleft
      exact ⟨fun _ f _ => nofun, fun _ => installed_run hs hsql (List.append_nil _).symm ⟨_, rfl, rfl⟩⟩
    | call q cont =>
      obtain ⟨done', todo', hfiles', hq⟩ := hleft.1
      cases q with
      | insertVersion name =>
        obtain ⟨f, rest, rfl, rfl, hc'⟩ := hq
        have hcrash : pg'.crash = ⟨unrecorded done' f, .idle⟩ := congrArg (Postgres.mk · .idle) hc'
        rw [hcrash, unrecorded_run hs hsql hfiles']
        have hf : f ∈ files := by simp [hfiles']
        constructor
        · intro hrepeatable g hg hname
          rwa [List.inj_on_of_nodup_map hs.names (hsql ▸ hg) hf (Sql.insertVersion.inj (Option.some.inj hname)).symm]
        · intro h
          exact h f (hsql ▸ hf) rfl
      | _ =>
        refine ⟨fun _ f _ => nofun, fun _ => ?_⟩
        have hcrash : pg'.crash = ⟨schema done', .idle⟩ := congrArg (Postgres.mk · .idle) hq
        rw [hcrash]
        exact installed_run hs hsql hfiles' ⟨_, rfl, rfl⟩

end

/-! ## The files of `migrations/` -/

def createTable (name : String) (references : List String := ["tenants"]) : Statement :=
    ⟨references.map .table, [.table name], false⟩

def createIndex (name on : String) (ifNotExists : Bool := false) : Statement :=
    ⟨[.table on], [.index name], ifNotExists⟩

def addColumns (table : String) (names : List String) (references : List String := []) : Statement :=
  ⟨.table table :: references.map .table, names.map (.column table), false⟩

def enableRLS (table : String) : Statement := ⟨[.table table], [.rowSecurity table], true⟩

def forceRLS (table : String) : Statement := ⟨[.table table], [.forcedRowSecurity table], true⟩

def createPolicy (table : String) (name : String := "tenant_isolation") : Statement :=
  ⟨[.table table, .function "syncforge_tenant_id"], [.policy table name], false⟩

def grant (privileges : String) : Statement := ⟨[], [.privileges privileges], true⟩

def tenantTables : List String :=
  ["tenants", "users", "api_keys", "connections", "sync_policies", "canonical_records", "source_events",
    "processed_events", "retry_queue", "dead_letter", "conflicts", "sync_jobs", "reconciliation_runs",
      "sync_operations", "outbound_writes", "audit_log"]

def init : List Statement :=
  [createTable "tenants" [], createTable "users", createTable "api_keys",
    createTable "connections", createIndex "idx_connections_tenant" "connections",
    createTable "sync_policies", createIndex "idx_policies_tenant" "sync_policies",
    createTable "canonical_records", createIndex "idx_records_tenant" "canonical_records",
    createTable "source_events", createIndex "idx_events_tenant" "source_events",
      createIndex "idx_events_status" "source_events",
    createTable "processed_events", createIndex "idx_processed_entity" "processed_events",
    createTable "retry_queue", createIndex "idx_retry_due" "retry_queue",
      createIndex "idx_retry_tenant" "retry_queue",
    createTable "dead_letter", createIndex "idx_dlq_tenant" "dead_letter",
    createTable "conflicts", createIndex "idx_conflicts_tenant" "conflicts",
    createTable "sync_jobs", createIndex "idx_jobs_tenant" "sync_jobs",
    createTable "reconciliation_runs", createIndex "idx_recon_tenant" "reconciliation_runs",
    createTable "sync_operations", createIndex "idx_ops_entity" "sync_operations",
    createTable "outbound_writes", createTable "audit_log", createIndex "idx_audit_tenant" "audit_log",
    ⟨[], [.function "syncforge_tenant_id"], true⟩] ++ tenantTables.map enableRLS ++
  createPolicy "tenants" "tenants_self" :: tenantTables.tail.map createPolicy ++
  ["ALL TABLES", "ALL SEQUENCES", "SCHEMA", "DEFAULT TABLES", "DEFAULT SEQUENCES"].map grant

def migrations : List File :=
  [⟨"0001_init.sql", init, false⟩,
    ⟨"0002_force_rls.sql", tenantTables.map forceRLS, false⟩,
    ⟨"0003_provider_ids.sql", [addColumns "canonical_records" ["provider_ids"]], false⟩,
    ⟨"0004_retry_dlq_keys.sql",
      [createIndex "idx_retry_tenant_event" "retry_queue" true, createIndex "idx_dlq_tenant_event" "dead_letter" true], false⟩,
    ⟨"0005_conflict_index.sql",
      [createIndex "idx_conflicts_dedupe" "conflicts" true, createIndex "idx_conflicts_entity" "conflicts" true], false⟩,
    ⟨"0006_reconcile.sql",
      [addColumns "reconciliation_runs" ["mode"], addColumns "reconciliation_runs" ["job_id"] ["sync_jobs"],
        addColumns "reconciliation_runs" ["error"], createTable "reconciliation_findings" ["reconciliation_runs", "tenants"],
        createIndex "idx_findings_dedupe" "reconciliation_findings", createIndex "idx_findings_run_status" "reconciliation_findings",
        createIndex "idx_findings_tenant" "reconciliation_findings", enableRLS "reconciliation_findings",
        createPolicy "reconciliation_findings", forceRLS "reconciliation_findings"], false⟩,
    ⟨"0007_sessions.sql",
      [createTable "sessions" ["users", "tenants"], createIndex "idx_sessions_user" "sessions",
        createIndex "idx_sessions_tenant" "sessions", enableRLS "sessions", createPolicy "sessions", forceRLS "sessions"], false⟩,
    ⟨"0008_mfa.sql", [addColumns "users" ["totp_secret", "totp_enabled"]], false⟩,
    ⟨"0009_backup_codes.sql", [addColumns "users" ["backup_codes"]], false⟩,
    ⟨"0010_login_attempts.sql",
      [createTable "login_attempts", createIndex "idx_login_attempts_identity" "login_attempts",
        createIndex "idx_login_attempts_ip" "login_attempts", enableRLS "login_attempts", createPolicy "login_attempts",
        forceRLS "login_attempts"], false⟩]

theorem migrations_sound : Sound migrations := ⟨by decide +kernel, by decide +kernel⟩

theorem sqlFiles_migrations : sqlFiles migrations = migrations := by rfl

/-- **A crash of the migrations is survived** from every version, at every statement but the one that records
    a file which cannot be applied twice. -/
theorem migrations_survive {n k : Nat} {pg : Postgres} (hpg : Installed (migrations.take n) pg) :
    Survives migrations pg k ↔ ∀ f ∈ migrations,
      (advance handle k (migrate migrations) pg).1.next? = some (.insertVersion f.name) →
      f.repeatable = true :=
  survives_iff migrations_sound sqlFiles_migrations (List.take_append_drop n migrations).symm hpg

theorem migrations_survive_begin : Survives migrations {} 3 :=
  (migrations_survive (n := 0) ⟨{}, rfl, rfl⟩).mpr (fun _ _ => nofun)

example : (migrations.filter File.repeatable).map File.name =
    ["0002_force_rls.sql", "0004_retry_dlq_keys.sql", "0005_conflict_index.sql"] := by decide +kernel

/-- After a crash between the `COMMIT` of the first file and its record no `Migrate` succeeds any more. -/
theorem init_applied_twice : (run handle (migrate migrations)
    (advance handle 73 (migrate migrations) {}).2.crash).1
      = .error "apply migration 0001_init.sql: already exists" := by decide +kernel

end SyncForge.Migration
