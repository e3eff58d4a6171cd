/-
`Database::open`: the schema statements, the probe for columns of an older schema and the migration
that adds them; and any number of opens at once, interleaved with inserted tasks.
-/
import A2ad.Lib.Sql
import A2ad.Lib.Trace
import A2ad.Task.Database

namespace A2ad.Database

open Bytes Sql

/-! ## The database -/

/-- What a column of text affinity holds. -/
inductive Value where
  | null
  | text (s : Str)
  | blob (s : Str)
deriving DecidableEq

abbrev TasksTable := Table Str Value

/-- The tables: the rows of `schema_version`, whether there is an `agents`, `tasks`, the indexes. -/
structure Db where
  versions : Option (List Nat) := none
  agents : Bool := false
  tasks : Option TasksTable := none
  indexes : List Str := []
deriving DecidableEq

/-- A `NOT NULL` column without a default, or the primary key. -/
def given (name : Str) : Column Str Value := ⟨name, .null⟩

def defaulted (name : Str) (s : Str) : Column Str Value := ⟨name, .text s⟩

def remoteTaskIdColumn : Column Str Value := ⟨"remote_task_id", .null⟩

def metadataColumn : Column Str Value := defaulted "metadata" "\x7b\x7d"

/-- `CREATE TABLE tasks`. -/
def createdTasks : TasksTable where
  columns := [given "id", remoteTaskIdColumn, given "agent", defaulted "context_id" "", given "state",
    defaulted "state_message" "", defaulted "title" "", defaulted "cwd" "", given "created_at", given "updated_at",
    given "last_state_change", defaulted "messages" "[]", defaulted "artifacts" "[]", metadataColumn,
    defaulted "error" ""]
  rows := []
  nodup := by decide +kernel
  width := by simp

/-! ## Opening -/

inductive SchemaStatement where
  | versions
  | agents
  | tasks
  | stateIndex
  | agentIndex
deriving DecidableEq

/-- `CREATE INDEX IF NOT EXISTS`. -/
def createIndex (name column : Str) (db : Db) : Option Db :=
  match db.tasks with
  | none => none
  | some t =>
    if name ∈ db.indexes then some db
    else if column ∈ t.names then some { db with indexes := name :: db.indexes }
    else none

def SchemaStatement.run : SchemaStatement → Db → Option Db
  | .versions, db => some { db with versions := some (db.versions.getD []) }
  | .agents, db => some { db with agents := true }
  | .tasks, db => some { db with tasks := some (db.tasks.getD createdTasks) }
  | .stateIndex, db => createIndex "idx_tasks_state" "state" db
  | .agentIndex, db => createIndex "idx_tasks_agent" "agent" db

def schema : List SchemaStatement := [.versions, .agents, .tasks, .stateIndex, .agentIndex]

/-- `has_column`. A probe that SQLite does not answer finds no column. -/
def hasColumn (answered : Bool) (column : Str) (db : Db) : Bool :=
  answered && db.tasks.any fun t => column ∈ t.names

/-- The statements of the migration. -/
inductive Stage where
  | begin
  | addRemote
  | addMetadata
  | fillRemote
  | deleteVersions
  | insertVersion
  | commit
deriving DecidableEq

/-- What else SQLite does to a migration: the statements it carries out, and whether it answers the
second probe. -/
structure Answers where
  passes : Stage → Bool
  answered : Bool

def Answers.exec (a : Answers) (stage : Stage) (statement : Db → Option Db) (db : Db) : Option Db :=
  if a.passes stage then statement db else none

/-- A statement made under a condition. -/
def Answers.execIf (a : Answers) (c : Bool) (stage : Stage) (statement : Db → Option Db) (db : Db) : Option Db :=
  if c then a.exec stage statement db else some db

def alter (f : TasksTable → Option TasksTable) (db : Db) : Option Db := do
  let t ← db.tasks
  let t ← f t
  return { db with tasks := some t }

/-- The migration; with `none` it is rolled back. `legacy` is the answer of the first probe, made
before the transaction. -/
def migrate (a : Answers) (legacy : Bool) (db : Db) : Option Db := do
  let db ← a.exec .begin some db
  let db ← a.execIf legacy .addRemote (alter (Table.addColumn remoteTaskIdColumn)) db
  let db ← a.execIf (!hasColumn a.answered "metadata" db) .addMetadata (alter (Table.addColumn metadataColumn)) db
  let db ← a.execIf legacy .fillRemote (alter (Table.fill .null "remote_task_id" "id")) db
  let db ← a.exec .deleteVersions (fun db => db.versions.map fun _ => { db with versions := some [] }) db
  let db ← a.exec .insertVersion (fun db => db.versions.map fun vs => { db with versions := some (vs ++ [2]) }) db
  a.exec .commit some db

/-- As `Answers`, of a whole open: the file opens, the schema statements that are carried out, and
whether the first probe is answered. -/
structure OpenAnswers extends Answers where
  opens : Bool
  creates : SchemaStatement → Bool
  probed : Bool

/-- `sqlite3_exec` of the schema, statement by statement; those before a failing one stay. -/
def createSchema (creates : SchemaStatement → Bool) : List SchemaStatement → Db → Bool × Db
  | [], db => (true, db)
  | statement :: rest, db =>
    match if creates statement then statement.run db else none with
    | some db => createSchema creates rest db
    | none => (false, db)

/-- `Database::open` with no one else at work: whether it succeeds, and what it leaves. -/
def openDatabase (a : OpenAnswers) (db : Db) : Bool × Db :=
  if a.opens then
    match createSchema a.creates schema db with
    | (false, db) => (false, db)
    | (true, db) =>
      match migrate a.toAnswers (!hasColumn a.probed "remote_task_id" db) db with
      | some db => (true, db)
      | none => (false, db)
  else (false, db)

/-! ## Inserting -/

/-- The columns a row is bound to. -/
def bound (r : Row) : List (Str × Value) := [
  ("id", .text r.id), ("remote_task_id", r.remoteTaskId.elim .null .text), ("agent", .text r.agent),
  ("context_id", .text r.contextId), ("state", .text r.state), ("state_message", .text r.stateMessage),
  ("title", .text r.title), ("cwd", .text r.cwd), ("created_at", .text r.createdAt),
  ("updated_at", .text r.updatedAt), ("last_state_change", .text r.lastStateChange),
  ("messages", .text r.messages), ("artifacts", .text r.artifacts), ("metadata", .text r.metadata),
  ("error", .text r.error)]

def insertTask (r : Row) (db : Db) : Option Db := alter (Table.insert "id" (bound r)) db

/-! ## Opens and inserts at once -/

/-- How far an open has come: the schema statements it still has to make, or what its first probe
answered. -/
inductive Phase where
  | closed
  | creating (rest : List SchemaStatement)
  | probed (legacy : Bool)
  | opened
deriving DecidableEq

structure Sys where
  db : Db
  phase : Nat → Phase

def Sys.enter (s : Sys) (call : Nat) (p : Phase) : Sys := { s with phase := Function.update s.phase call p }

@[simp] theorem phase_enter {s : Sys} {call : Nat} {p : Phase} : (s.enter call p).phase call = p :=
  Function.update_self _ _ _

inductive Label where
  | started (call : Nat)
  | created (call : Nat)
  | setupFailed (call : Nat)
  | probed (call : Nat)
  | migrated (call : Nat)
  | failed (call : Nat)
  | inserted (task : Task)

def Label.isInserted : Label → Bool
  | .inserted _ => true
  | _ => false

def Label.isMigrated : Label → Bool
  | .migrated _ => true
  | _ => false

/-- A schema statement, the first probe, the migration and an insert each happen at once. -/
inductive Step (parse : Str → Option Json.J) : Sys → Label → Sys → Prop
  | started {s} (call : Nat) (h : s.phase call = .closed ∨ s.phase call = .opened) :
    Step parse s (.started call) (s.enter call (.creating schema))
  | created {s statement rest db} (call : Nat) (h : s.phase call = .creating (statement :: rest))
    (hrun : statement.run s.db = some db) :
    Step parse s (.created call) (Sys.enter { s with db := db } call (.creating rest))
  | setupFailed {s statement rest} (call : Nat) (h : s.phase call = .creating (statement :: rest)) :
    Step parse s (.setupFailed call) (s.enter call .closed)
  | probed {s} (call : Nat) (answered : Bool) (h : s.phase call = .creating []) :
    Step parse s (.probed call) (s.enter call (.probed !hasColumn answered "remote_task_id" s.db))
  | migrated {s legacy db} (call : Nat) (a : Answers) (h : s.phase call = .probed legacy)
    (hmigrate : migrate a legacy s.db = some db) :
    Step parse s (.migrated call) (Sys.enter { s with db := db } call .opened)
  | failed {s legacy} (call : Nat) (a : Answers) (h : s.phase call = .probed legacy)
    (hmigrate : migrate a legacy s.db = none) :
    Step parse s (.failed call) (s.enter call .closed)
  | inserted {s task r db} (hbind : bindTask parse task = .ok r) (hinsert : insertTask r s.db = some db) :
    Step parse s (.inserted task) { s with db := db }

/-! ## What a migration makes of the table -/

/-- The table has the columns that an older schema lacks. -/
def Complete (t : TasksTable) : Prop := lit "remote_task_id" ∈ t.names ∧ lit "metadata" ∈ t.names

instance (t : TasksTable) : Decidable (Complete t) := inferInstanceAs (Decidable (_ ∧ _))

/-- A row keeps what it has; a missing remote id becomes the id, missing metadata an empty object. -/
structure RowUpgraded (t t' : TasksTable) (r r' : List Value) : Prop where
  kept : ∀ c ∈ t.names, t'.cell r' c = t.cell r c
  remote : lit "remote_task_id" ∉ t.names → t'.cell r' "remote_task_id" = t.cell r "id"
  metadata : lit "metadata" ∉ t.names → t'.cell r' "metadata" = some (.text "\x7b\x7d")

structure Upgraded (t t' : TasksTable) : Prop where
  names : ∀ c, c ∈ t'.names ↔ c ∈ t.names ∨ c = "remote_task_id" ∨ c = "metadata"
  rows : List.Forall₂ (RowUpgraded t t') t.rows t'.rows

section Migrate

variable {a : Answers} {legacy : Bool} {db db' : Db} {t t' : TasksTable} {stage : Stage}
  {statement : Db → Option Db} {f : TasksTable → Option TasksTable}

theorem exec_some (h : a.exec stage statement db = some db') : statement db = some db' := by
  unfold Answers.exec at h
  split at h
  · exact h
  · cases h

/-- A statement that is passed over changes nothing. -/
theorem execIf_some {c : Bool} (h : a.execIf c stage statement db = some db') :
    c = true ∧ statement db = some db' ∨ c = false ∧ db' = db := by
  unfold Answers.execIf at h
  cases c with
  | false =>
    cases h
    exact .inr ⟨rfl, rfl⟩
  | true => exact .inl ⟨rfl, exec_some h⟩

theorem alter_some (ht : db.tasks = some t) (h : alter f db = some db') :
    ∃ t', f t = some t' ∧ db'.tasks = some t' := by
  unfold alter at h
  rw [ht, Option.bind_eq_bind, Option.bind_some] at h
  obtain ⟨t', hf, h⟩ := Option.bind_eq_some_iff.1 h
  cases h
  exact ⟨t', hf, rfl⟩

/-- The probe never finds a column that is not there. -/
theorem hasColumn_true {answered : Bool} {c : Str} (ht : db.tasks = some t) (h : hasColumn answered c db = true) :
    c ∈ t.names := by
  unfold hasColumn at h
  rw [ht] at h
  simp only [Option.any_some, Bool.and_eq_true, decide_eq_true_eq] at h
  exact h.2

/-- What a migration does before the versions are set. -/
theorem migrate_some (ht : db.tasks = some t) (h : migrate a legacy db = some db') :
    ∃ t₁ t₂ t', db'.tasks = some t' ∧
      (legacy = true ∧ t.addColumn remoteTaskIdColumn = some t₁ ∨ legacy = false ∧ t₁ = t) ∧
      (t₁.addColumn metadataColumn = some t₂ ∨ lit "metadata" ∈ t₁.names ∧ t₂ = t₁) ∧
      (legacy = true ∧ t₂.fill .null (lit "remote_task_id") (lit "id") = some t' ∨ legacy = false ∧ t' = t₂) := by
  unfold migrate at h
  obtain ⟨db₀, hbegin, h⟩ := Option.bind_eq_some_iff.1 h
  cases exec_some hbegin
  obtain ⟨db₁, hremote, h⟩ := Option.bind_eq_some_iff.1 h
  obtain ⟨db₂, hmetadata, h⟩ := Option.bind_eq_some_iff.1 h
  obtain ⟨db₃, hfill, h⟩ := Option.bind_eq_some_iff.1 h
  obtain ⟨db₄, hdelete, h⟩ := Option.bind_eq_some_iff.1 h
  obtain ⟨db₅, hinsert, h⟩ := Option.bind_eq_some_iff.1 h
  cases exec_some h
  have htasks : db'.tasks = db₃.tasks := by
    obtain ⟨vs, -, rfl⟩ := Option.map_eq_some_iff.1 (exec_some hdelete)
    obtain ⟨vs', -, rfl⟩ := Option.map_eq_some_iff.1 (exec_some hinsert)
    rfl
  have h₁ : ∃ t₁, db₁.tasks = some t₁ ∧
      (legacy = true ∧ t.addColumn remoteTaskIdColumn = some t₁ ∨ legacy = false ∧ t₁ = t) := by
    rcases execIf_some hremote with ⟨hl, hstmt⟩ | ⟨hl, rfl⟩
    · obtain ⟨t₁, hadd, ht₁⟩ := alter_some ht hstmt
      exact ⟨t₁, ht₁, .inl ⟨hl, hadd⟩⟩
    · exact ⟨t, ht, .inr ⟨hl, rfl⟩⟩
  obtain ⟨t₁, ht₁, hr₁⟩ := h₁
  have h₂ : ∃ t₂, db₂.tasks = some t₂ ∧
      (t₁.addColumn metadataColumn = some t₂ ∨ lit "metadata" ∈ t₁.names ∧ t₂ = t₁) := by
    rcases execIf_some hmetadata with ⟨-, hstmt⟩ | ⟨hhas, rfl⟩
    · obtain ⟨t₂, hadd, ht₂⟩ := alter_some ht₁ hstmt
      exact ⟨t₂, ht₂, .inl hadd⟩
    · rw [Bool.not_eq_false'] at hhas
      exact ⟨t₁, ht₁, .inr ⟨hasColumn_true ht₁ hhas, rfl⟩⟩
  obtain ⟨t₂, ht₂, hr₂⟩ := h₂
  rcases execIf_some hfill with ⟨hl, hstmt⟩ | ⟨hl, rfl⟩
  · obtain ⟨t', hf, ht'⟩ := alter_some ht₂ hstmt
    exact ⟨t₁, t₂, t', by rw [htasks, ht'], hr₁, hr₂, .inl ⟨hl, hf⟩⟩
  · exact ⟨t₁, t₂, t₂, by rw [htasks, ht₂], hr₁, hr₂, .inr ⟨hl, rfl⟩⟩

theorem upgraded_rfl (hc : Complete t) : Upgraded t t where
  names c := by
    refine ⟨.inl, ?_⟩
    rintro (hc' | rfl | rfl)
    · exact hc'
    · exact hc.1
    · exact hc.2
  rows := List.forall₂_same.2 fun r _ => ⟨fun _ _ => rfl, fun h => absurd hc.1 h, fun h => absurd hc.2 h⟩

/-- A table with remote ids is only given the metadata column, if it lacks that one. -/
theorem upgraded_addMetadata (hremote : lit "remote_task_id" ∈ t.names)
    (h : t.addColumn metadataColumn = some t' ∨ lit "metadata" ∈ t.names ∧ t' = t) : Upgraded t t' := by
  rcases h with hadd | ⟨hmetadata, rfl⟩
  · obtain ⟨-, hnames, hrows⟩ := Table.addColumn_some hadd
    constructor
    · intro c
      rw [hnames, List.mem_append, List.mem_singleton]
      constructor
      · exact Or.imp_right .inr
      · rintro (hc | rfl | hc)
        · exact .inl hc
        · exact .inl hremote
        · exact .inr hc
    · exact hrows.imp fun r r' hr => ⟨hr.1, fun h => absurd hremote h, fun _ => hr.2⟩
  · exact upgraded_rfl ⟨hremote, hmetadata⟩

/-- The two statements for remote ids, around the one for metadata. -/
theorem upgraded_legacy {t₁ t₂ : TasksTable} (hadd : t.addColumn remoteTaskIdColumn = some t₁) (h : Upgraded t₁ t₂)
    (hfill : t₂.fill .null (lit "remote_task_id") (lit "id") = some t') : Upgraded t t' := by
  obtain ⟨hnew, hnames, hrows⟩ := Table.addColumn_some hadd
  obtain ⟨-, hid, hnames', hrows'⟩ := Table.fill_some hfill
  have hmem (c : Str) : c ∈ t₁.names ↔ c ∈ t.names ∨ c = "remote_task_id" := by
    rw [hnames, List.mem_append, List.mem_singleton]
    rfl
  have hid₁ : lit "id" ∈ t₁.names := by
    rcases (h.names _).1 hid with hid | hid | hid
    · exact hid
    · exact absurd hid (by decide)
    · exact absurd hid (by decide)
  have hid₀ : lit "id" ∈ t.names := ((hmem _).1 hid₁).resolve_right (by decide)
  constructor
  · intro c
    rw [hnames', h.names, hmem]
    tauto
  · have hnull : List.Forall₂ (fun r r₂ => (∀ c ∈ t.names, t₂.cell r₂ c = t.cell r c) ∧
        t₂.cell r₂ "remote_task_id" = some .null ∧
        (lit "metadata" ∉ t.names → t₂.cell r₂ "metadata" = some (.text "\x7b\x7d"))) t.rows t₂.rows := by
      refine forall₂_comp (fun r r₁ r₂ hr hr₁ => ⟨fun c hc => ?_, ?_, fun hmissing => ?_⟩) hrows h.rows
      · rw [hr₁.kept c ((hmem c).2 (.inl hc)), hr.1 c hc]
      · rw [hr₁.kept _ ((hmem _).2 (.inr rfl))]
        exact hr.2
      · refine hr₁.metadata fun hmetadata => ?_
        exact ((hmem _).1 hmetadata).elim hmissing (by decide)
    refine forall₂_comp (fun r r₂ r' hr hr₂ => ⟨fun c hc => ?_, fun _ => ?_, fun hmissing => ?_⟩) hnull hrows'
    · have hne : c ≠ "remote_task_id" := by
        rintro rfl
        exact hnew hc
      rw [hr₂.1 c hne, hr.1 c hc]
    · rw [hr₂.2 hr.2.1, hr.1 _ hid₀]
    · rw [hr₂.1 _ (by decide), hr.2.2 hmissing]

/-- A migration that goes through upgrades the table, and leaves one that has the columns alone. -/
theorem migrate_upgraded (ht : db.tasks = some t) (hprobe : legacy = false → lit "remote_task_id" ∈ t.names)
    (h : migrate a legacy db = some db') :
    ∃ t', db'.tasks = some t' ∧ Upgraded t t' ∧ (Complete t → t' = t) := by
  obtain ⟨t₁, t₂, t', ht', hremote, hmetadata, hfill⟩ := migrate_some ht h
  refine ⟨t', ht', ?_⟩
  rcases hremote with ⟨hl, hadd⟩ | ⟨hl, rfl⟩
  · -- the column is added again only where it is missing: the probe was right
    have hnew := (Table.addColumn_some hadd).1
    have hfill := (hfill.resolve_right fun h => by rw [hl] at h; cases h.1).2
    refine ⟨upgraded_legacy hadd (upgraded_addMetadata ?_ hmetadata) hfill, fun hc => absurd hc.1 hnew⟩
    rw [(Table.addColumn_some hadd).2.1]
    exact List.mem_append_right _ (List.mem_singleton_self _)
  · obtain rfl := (hfill.resolve_left fun h => by rw [hl] at h; cases h.1).2
    refine ⟨upgraded_addMetadata (hprobe hl) hmetadata, fun hc => ?_⟩
    rcases hmetadata with hadd | ⟨-, rfl⟩
    · exact absurd hc.2 (Table.addColumn_some hadd).1
    · rfl

end Migrate

/-! ## What a step does -/

section Step

variable {parse : Str → Option Json.J} {s s' s₀ : Sys} {l : Label} {t t' t₀ : TasksTable} {task : Task}
  {tr before after : List (Move Sys Label)} {x : Move Sys Label} {r : List Value}

/-- The schema statements leave a table that is there as it is. -/
theorem SchemaStatement.run_tasks {statement : SchemaStatement} {db db' : Db} (ht : db.tasks = some t)
    (h : statement.run db = some db') : db'.tasks = some t := by
  have hindex {name column : Str} (h : createIndex name column db = some db') : db'.tasks = some t := by
    unfold createIndex at h
    rw [ht] at h
    dsimp only at h
    split at h
    · cases h
      exact ht
    · split at h
      · cases h
        rfl
      · cases h
  cases statement with
  | versions | agents =>
    cases h
    exact ht
  | tasks =>
    cases h
    simp [ht]
  | stateIndex | agentIndex => exact hindex h

/-- An inserted task: the table has the columns it is bound to, and keeps the rows of other ids. -/
theorem insertTask_some {r : Row} {db db' : Db} (ht : db.tasks = some t) (h : insertTask r db = some db') :
    ∃ t' new, db'.tasks = some t' ∧ t'.columns = t.columns ∧ Complete t ∧ new ∈ t'.rows ∧
      t.cell new "id" = some (.text r.id) ∧ t.cell new "remote_task_id" = some (r.remoteTaskId.elim .null .text) ∧
      ∀ r' ∈ t.rows, t.cell r' "id" ≠ some (.text r.id) → r' ∈ t'.rows := by
  obtain ⟨t', hinsert, ht'⟩ := alter_some ht h
  obtain ⟨hgiven, hcolumns, hnew, hkept⟩ := Table.insert_some hinsert
  have hid : lit "id" ∈ t.names := hgiven (_, _) (List.mem_cons_self)
  have hremote : lit "remote_task_id" ∈ t.names := hgiven (_, _) (List.mem_cons_of_mem _ List.mem_cons_self)
  have hmetadata : lit "metadata" ∈ t.names := hgiven ("metadata", .text r.metadata) (by simp [bound])
  have hcell : t.cell (t.newRow (bound r)) "id" = some (.text r.id) := Table.cell_newRow hid rfl
  refine ⟨t', _, ht', hcolumns, ⟨hremote, hmetadata⟩, hnew, hcell, Table.cell_newRow hremote rfl, fun r' hr' hne => ?_⟩
  refine hkept r' hr' ?_
  rw [hcell]
  exact hne

/-- A probe that has found the column was right. -/
def Probed (s : Sys) : Prop :=
  ∀ call, s.phase call = .probed false → ∃ t, s.db.tasks = some t ∧ lit "remote_task_id" ∈ t.names

/-- Only a migration and an insert change the table. -/
theorem step_cases (h : Step parse s l s') (ht : s.db.tasks = some t) (hprobed : Probed s) :
    l.isInserted = false ∧ l.isMigrated = false ∧ s'.db.tasks = some t ∨
    l.isMigrated = true ∧ (∃ t', s'.db.tasks = some t' ∧ Upgraded t t' ∧ (Complete t → t' = t)) ∨
    ∃ task t' new, l = .inserted task ∧ s'.db.tasks = some t' ∧ t'.columns = t.columns ∧ Complete t ∧ new ∈ t'.rows ∧
      t.cell new "id" = some (.text (cstr task.id)) ∧
      t.cell new "remote_task_id" = some (((task.remoteTaskId.filter fun r => !r.isEmpty).map cstr).elim .null .text) ∧
      ∀ r ∈ t.rows, t.cell r "id" ≠ some (.text (cstr task.id)) → r ∈ t'.rows := by
  cases h with
  | started | setupFailed | probed | failed => exact .inl ⟨rfl, rfl, ht⟩
  | created call hphase hrun =>
    exact .inl ⟨rfl, rfl, SchemaStatement.run_tasks ht hrun⟩
  | migrated call a hphase hmigrate =>
    refine .inr (.inl ⟨rfl, migrate_upgraded ht ?_ hmigrate⟩)
    rintro rfl
    obtain ⟨t', ht', hremote⟩ := hprobed _ hphase
    rw [ht] at ht'
    cases ht'
    exact hremote
  | inserted hbind hinsert =>
    obtain ⟨hid, hremote, -⟩ := bindTask_ok hbind
    obtain ⟨t', new, ht', hcolumns, hcomplete, hnew, hcell, hnull, hkept⟩ := insertTask_some ht hinsert
    rw [hid] at hcell hkept
    rw [hremote] at hnull
    exact .inr (.inr ⟨_, t', new, rfl, ht', hcolumns, hcomplete, hnew, hcell, hnull, hkept⟩)

/-- No step takes a column away. -/
theorem step_names (h : Step parse s l s') (ht : s.db.tasks = some t) (hprobed : Probed s) :
    ∃ t', s'.db.tasks = some t' ∧ ∀ c ∈ t.names, c ∈ t'.names := by
  rcases step_cases h ht hprobed with ⟨-, -, ht'⟩ | ⟨-, t', ht', hup, -⟩ | ⟨_, t', _, -, ht', hcolumns, -⟩
  · exact ⟨t, ht', fun c hc => hc⟩
  · exact ⟨t', ht', fun c hc => (hup.names c).2 (.inl hc)⟩
  · refine ⟨t', ht', fun c hc => ?_⟩
    rw [Table.names, hcolumns]
    exact hc

theorem step_probed (h : Step parse s l s') (ht : s.db.tasks = some t) (hprobed : Probed s) : Probed s' := by
  obtain ⟨t', ht', hnames⟩ := step_names h ht hprobed
  have hold {call : Nat} (hcall : s.phase call = .probed false) :
      ∃ t, s'.db.tasks = some t ∧ lit "remote_task_id" ∈ t.names := by
    obtain ⟨t₁, ht₁, hremote⟩ := hprobed call hcall
    rw [ht] at ht₁
    cases ht₁
    exact ⟨t', ht', hnames _ hremote⟩
  intro call hcall
  cases h with
  | inserted => exact hold hcall
  | probed c answered hphase =>
    simp only [Sys.enter, Function.update_apply] at hcall
    split at hcall
    · -- the probe answers from the table as it is
      simp only [Phase.probed.injEq, Bool.not_eq_false'] at hcall
      exact ⟨t', ht', hnames _ (hasColumn_true ht hcall)⟩
    · exact hold hcall
  | started | created | setupFailed | migrated | failed =>
    simp only [Sys.enter, Function.update_apply] at hcall
    split at hcall
    · cases hcall
    · exact hold hcall

/-! ## Runs -/

/-- What a history has made of the table `t₀`: nothing of its columns before a migration went through,
and inserts only into a table that has them all. -/
structure Inv (t₀ : TasksTable) (tr : List (Move Sys Label)) (s : Sys) : Prop where
  probed : Probed s
  table : ∃ t, s.db.tasks = some t ∧
    ((∀ y ∈ tr, y.label.isMigrated = false) → t.names = t₀.names ∧ (¬ Complete t₀ → t = t₀)) ∧
    ((∃ y ∈ tr, y.label.isMigrated = true) → Complete t)

theorem step_inv (hinv : Inv t₀ tr s) (h : Step parse s l s') : Inv t₀ (tr ++ [⟨s, l, s'⟩]) s' := by
  obtain ⟨t, ht, hnone, hsome⟩ := hinv.table
  refine ⟨step_probed h ht hinv.probed, ?_⟩
  have hall : (∀ y ∈ tr ++ [(⟨s, l, s'⟩ : Move Sys Label)], y.label.isMigrated = false) →
      (∀ y ∈ tr, y.label.isMigrated = false) ∧ l.isMigrated = false := fun hall =>
    ⟨fun y hy => hall y (List.mem_append_left _ hy), hall ⟨s, l, s'⟩ (List.mem_append_right _ (List.mem_singleton_self _))⟩
  have hany : (∃ y ∈ tr ++ [(⟨s, l, s'⟩ : Move Sys Label)], y.label.isMigrated = true) →
      l.isMigrated = true ∨ Complete t := by
    rintro ⟨y, hy, hmig⟩
    rcases List.mem_append.1 hy with hy | hy
    · exact .inr (hsome ⟨y, hy, hmig⟩)
    · rw [List.mem_singleton.1 hy] at hmig
      exact .inl hmig
  rcases step_cases h ht hinv.probed with ⟨-, hmig, ht'⟩ | ⟨hmig, t', ht', hup, -⟩ |
    ⟨task, t', new, rfl, ht', hcolumns, hcomplete, -⟩
  · refine ⟨t, ht', fun hy => hnone (hall hy).1, fun hy => (hany hy).resolve_left ?_⟩
    rw [hmig]
    exact Bool.false_ne_true
  · refine ⟨t', ht', fun hy => ?_, fun _ => ⟨(hup.names _).2 (.inr (.inl rfl)), (hup.names _).2 (.inr (.inr rfl))⟩⟩
    rw [(hall hy).2] at hmig
    cases hmig
  · have hnames : t'.names = t.names := by rw [Table.names, hcolumns, Table.names]
    refine ⟨t', ht', fun hy => ?_, fun _ => by rwa [Complete, hnames]⟩
    obtain ⟨hsame, hlacks⟩ := hnone (hall hy).1
    refine ⟨hnames.trans hsame, fun hnot => ?_⟩
    rw [hlacks hnot] at hcomplete
    exact absurd hcomplete hnot

theorem run_inv (hrun : Run (Step parse) s₀ tr s) (hclosed : ∀ call, s₀.phase call = .closed)
    (ht₀ : s₀.db.tasks = some t₀) : Inv t₀ tr s := by
  refine hrun.invariant ⟨fun call hcall => ?_, t₀, ht₀, fun _ => ⟨rfl, fun _ => rfl⟩, fun h => ?_⟩
    fun tr s l t hinv hstep => step_inv hinv hstep
  · rw [hclosed] at hcall
    cases hcall
  · obtain ⟨y, hy, -⟩ := h
    cases hy

/-- A row stays while nothing is inserted under its id, in a table that has all columns. -/
theorem row_stays {key : Value} (hprobed : Probed s₀) (ht₀ : s₀.db.tasks = some t₀) (hcomplete : Complete t₀)
    (hr : r ∈ t₀.rows) (hkey : t₀.cell r "id" = some key) (hrun : Run (Step parse) s₀ tr s)
    (hids : ∀ y ∈ tr, ∀ task, y.label = .inserted task → key ≠ .text (cstr task.id)) :
    ∃ t, s.db.tasks = some t ∧ t.columns = t₀.columns ∧ r ∈ t.rows := by
  suffices Probed s ∧ ∃ t, s.db.tasks = some t ∧ t.columns = t₀.columns ∧ r ∈ t.rows from this.2
  revert hids
  refine hrun.invariant (I := fun tr s => (∀ y ∈ tr, ∀ task, y.label = .inserted task → key ≠ .text (cstr task.id)) →
    Probed s ∧ ∃ t, s.db.tasks = some t ∧ t.columns = t₀.columns ∧ r ∈ t.rows)
    (fun _ => ⟨hprobed, t₀, ht₀, rfl, hr⟩) fun tr s l s' ih hstep hids => ?_
  obtain ⟨hprobed, t, ht, hcolumns, hr⟩ := ih fun y hy => hids y (List.mem_append_left _ hy)
  have hid := hids ⟨s, l, s'⟩ (List.mem_append_right _ (List.mem_singleton_self _))
  refine ⟨step_probed hstep ht hprobed, ?_⟩
  rcases step_cases hstep ht hprobed with ⟨-, -, ht'⟩ | ⟨-, t', ht', -, hsame⟩ |
    ⟨task, t', new, rfl, ht', hcolumns', -, -, -, -, hkept⟩
  · exact ⟨t, ht', hcolumns, hr⟩
  · have : Complete t := by rwa [Complete, Table.names, hcolumns]
    rw [hsame this] at ht'
    exact ⟨t, ht', hcolumns, hr⟩
  · refine ⟨t', ht', hcolumns'.trans hcolumns, hkept r hr ?_⟩
    rw [Table.cell_congr hcolumns, hkey]
    exact fun heq => hid task rfl (Option.some.inj heq)

/-- A step that is no insert and no migration that goes through leaves the table as it is. -/
theorem other_step (hrun : Run (Step parse) s₀ tr s) (hclosed : ∀ call, s₀.phase call = .closed)
    (ht₀ : s₀.db.tasks = some t₀) (hx : x ∈ tr) (hins : x.label.isInserted = false)
    (hmig : x.label.isMigrated = false) : x.post.db.tasks = x.pre.db.tasks := by
  obtain ⟨before, after, rfl⟩ := List.append_of_mem hx
  obtain ⟨hbefore, hstep, -⟩ := hrun.split
  have hinv := run_inv hbefore hclosed ht₀
  obtain ⟨t, ht, -⟩ := hinv.table
  rcases step_cases hstep ht hinv.probed with ⟨-, -, ht'⟩ | ⟨hmig', -⟩ | ⟨_, _, _, hl, -⟩
  · rw [ht, ht']
  · rw [hmig] at hmig'
    cases hmig'
  · rw [hl] at hins
    cases hins

/-- The first migration that goes through. -/
theorem first_migration (hrun : Run (Step parse) s₀ (before ++ x :: after) s)
    (hclosed : ∀ call, s₀.phase call = .closed) (ht₀ : s₀.db.tasks = some t₀) (hmig : x.label.isMigrated = true)
    (hfirst : ∀ y ∈ before, y.label.isMigrated = false) :
    ∃ t t', x.pre.db.tasks = some t ∧ x.post.db.tasks = some t' ∧ t.names = t₀.names ∧ (¬ Complete t₀ → t = t₀) ∧
      Upgraded t t' := by
  obtain ⟨hbefore, hstep, -⟩ := hrun.split
  have hinv := run_inv hbefore hclosed ht₀
  obtain ⟨t, ht, hnone, -⟩ := hinv.table
  rcases step_cases hstep ht hinv.probed with ⟨-, hmig', -⟩ | ⟨-, t', ht', hup, -⟩ | ⟨_, _, _, hl, -⟩
  · rw [hmig] at hmig'
    cases hmig'
  · exact ⟨t, t', ht, ht', (hnone hfirst).1, (hnone hfirst).2, hup⟩
  · rw [hl] at hmig
    cases hmig

/-- After a migration only inserts change the table. -/
theorem later_step {y : Move Sys Label} (hrun : Run (Step parse) s₀ (before ++ x :: after) s)
    (hclosed : ∀ call, s₀.phase call = .closed) (ht₀ : s₀.db.tasks = some t₀) (hmig : x.label.isMigrated = true)
    (hy : y ∈ after) (hins : y.label.isInserted = false) : y.post.db.tasks = y.pre.db.tasks := by
  obtain ⟨between, rest, rfl⟩ := List.append_of_mem hy
  rw [← List.cons_append, ← List.append_assoc] at hrun
  obtain ⟨huntil, hstep, -⟩ := hrun.split
  have hinv := run_inv huntil hclosed ht₀
  obtain ⟨t, ht, -, hcomplete⟩ := hinv.table
  have hcomplete := hcomplete ⟨x, List.mem_append_right _ List.mem_cons_self, hmig⟩
  rcases step_cases hstep ht hinv.probed with ⟨-, -, ht'⟩ | ⟨-, t', ht', -, hsame⟩ | ⟨_, _, _, hl, -⟩
  · rw [ht, ht']
  · rw [ht, ht', hsame hcomplete]
  · rw [hl] at hins
    cases hins

/-- The row of a task without a remote id keeps its `NULL`. -/
theorem null_stays (hrun : Run (Step parse) s₀ (before ++ x :: after) s) (hclosed : ∀ call, s₀.phase call = .closed)
    (ht₀ : s₀.db.tasks = some t₀) (hx : x.label = .inserted task)
    (hmessage : task.remoteTaskId = none ∨ task.remoteTaskId = some [])
    (hids : ∀ y ∈ after, ∀ task', y.label = .inserted task' → cstr task'.id ≠ cstr task.id) :
    ∃ t r, s.db.tasks = some t ∧ r ∈ t.rows ∧ t.cell r "id" = some (.text (cstr task.id)) ∧
      t.cell r "remote_task_id" = some .null := by
  obtain ⟨hbefore, hstep, hafter⟩ := hrun.split
  have hinv := run_inv hbefore hclosed ht₀
  obtain ⟨t, ht, -⟩ := hinv.table
  rw [hx] at hstep
  rcases step_cases hstep ht hinv.probed with ⟨hl, -⟩ | ⟨hl, -⟩ |
    ⟨_, t', new, hl, ht', hcolumns, hcomplete, hnew, hid, hremote, -⟩
  · cases hl
  · cases hl
  · cases hl
    have hnull : t.cell new "remote_task_id" = some .null := by
      rw [hremote]
      rcases hmessage with h | h <;> rw [h] <;> rfl
    have hcomplete' : Complete t' := by rwa [Complete, Table.names, hcolumns]
    rw [← Table.cell_congr hcolumns] at hid hnull
    obtain ⟨u, hu, hcolumns', hr⟩ := row_stays (step_probed hstep ht hinv.probed) ht' hcomplete' hnew hid hafter
      fun y hy task' hl heq => hids y hy task' hl (Value.text.inj heq).symm
    rw [← Table.cell_congr hcolumns'] at hid hnull
    exact ⟨u, new, hu, hr, hid, hnull⟩

/-- However many opens run at once, between any inserts, on any table: a step that is no insert and no
migration that goes through leaves the table as it is, so every open that fails does. The first
migration that goes through upgrades the columns there were from the start, and the very table there
was from the start where one was missing; after it only inserts change the table. And the row of a
task without a remote id keeps its `NULL` until a task is inserted under its id. -/
theorem migration_faithful (hrun : Run (Step parse) s₀ tr s) (hclosed : ∀ call, s₀.phase call = .closed)
    (ht₀ : s₀.db.tasks = some t₀) :
    (∀ x ∈ tr, x.label.isInserted = false → x.label.isMigrated = false → x.post.db.tasks = x.pre.db.tasks) ∧
    (∀ before x after, tr = before ++ x :: after → x.label.isMigrated = true →
      (∀ y ∈ before, y.label.isMigrated = false) →
      (∃ t t', x.pre.db.tasks = some t ∧ x.post.db.tasks = some t' ∧ t.names = t₀.names ∧
        (¬ Complete t₀ → t = t₀) ∧ Upgraded t t') ∧
      ∀ y ∈ after, y.label.isInserted = false → y.post.db.tasks = y.pre.db.tasks) ∧
    (∀ before x after task, tr = before ++ x :: after → x.label = .inserted task →
      (task.remoteTaskId = none ∨ task.remoteTaskId = some []) →
      (∀ y ∈ after, ∀ task', y.label = .inserted task' → cstr task'.id ≠ cstr task.id) →
      ∃ t r, s.db.tasks = some t ∧ r ∈ t.rows ∧ t.cell r "id" = some (.text (cstr task.id)) ∧
        t.cell r "remote_task_id" = some .null) := by
  refine ⟨fun x hx => other_step hrun hclosed ht₀ hx, ?_, ?_⟩
  · rintro before x after rfl hmig hfirst
    exact ⟨first_migration hrun hclosed ht₀ hmig hfirst, fun y hy => later_step hrun hclosed ht₀ hmig hy⟩
  · rintro before x after task rfl hx hmessage hids
    exact null_stays hrun hclosed ht₀ hx hmessage hids

/-- A database of the first schema, with one task. -/
def v1 : Db where
  versions := some [1]
  agents := true
  tasks := some {
    columns := [given "id", given "agent", defaulted "context_id" "", given "state", defaulted "state_message" "",
      defaulted "title" "", defaulted "cwd" "", given "created_at", given "updated_at", given "last_state_change",
      defaulted "messages" "[]", defaulted "artifacts" "[]", defaulted "error" ""]
    rows := [["old", "agent", "ctx", "WORKING", "", "", "", "T0", "T0", "T0", "[]", "[]", ""].map
      fun cell => .text (lit cell)]
    nodup := by decide +kernel
    width := by decide +kernel }
  indexes := ["idx_tasks_state", "idx_tasks_agent"]

/-- The table of the first schema is migrated, and then a task without a remote id is stored. -/
theorem migration_faithful_v1 : ∃ tr s, Run (Step fun _ => none) ⟨v1, fun _ => .closed⟩ tr s ∧
    tr.map Move.label = [.started 0, .created 0, .created 0, .created 0, .created 0, .created 0, .probed 0,
      .migrated 0, .inserted { id := "new" }] ∧
    ∃ t r, s.db.tasks = some t ∧ r ∈ t.rows ∧ t.cell r "id" = some (.text (cstr "new")) ∧
      t.cell r "remote_task_id" = some .null := by
  have hstored : (match bindTask (fun _ => none) { id := "new" } with
      | .ok r => ((migrate ⟨fun _ => true, true⟩ true v1).bind (insertTask r)).isSome
      | .error _ => false) = true := by decide +kernel
  split at hstored
  · rename_i r hbind
    obtain ⟨db', hstored⟩ := Option.isSome_iff_exists.1 hstored
    obtain ⟨db, hmigrate, hinsert⟩ := Option.bind_eq_some_iff.1 hstored
    have hcreate (statement : SchemaStatement) : statement.run v1 = some v1 := by
      cases statement <;> decide +kernel
    have hstart : Run (Step fun _ => none) ⟨v1, fun _ => .closed⟩ _ _ := Run.nil.snoc (.started 0 (.inl rfl))
    have htables := ((hstart.snoc (.created 0 phase_enter (hcreate .versions))).snoc
      (.created 0 phase_enter (hcreate .agents))).snoc (.created 0 phase_enter (hcreate .tasks))
    have hindexes := (htables.snoc (.created 0 phase_enter (hcreate .stateIndex))).snoc
      (.created 0 phase_enter (hcreate .agentIndex))
    have hlegacy : hasColumn true "remote_task_id" v1 = false := by decide +kernel
    have hprobe := hindexes.snoc (.probed 0 true phase_enter)
    have hmigrated := hprobe.snoc
      (.migrated 0 _ (phase_enter.trans (congrArg (Phase.probed !·) hlegacy)) hmigrate)
    have hrun := hmigrated.snoc (.inserted hbind hinsert)
    refine ⟨_, _, hrun, rfl, ?_⟩
    exact (migration_faithful hrun (fun _ => rfl) rfl).2.2 _ _ [] _ rfl rfl (.inl rfl) fun y hy => by cases hy
  · cases hstored

end Step

/-! ## One open alone -/

section Alone

variable {parse : Str → Option Json.J} {s : Sys} {call : Nat}

theorem createSchema_run (creates : SchemaStatement → Bool) (rest : List SchemaStatement)
    (h : s.phase call = .creating rest) :
    ∃ tr t, Run (Step parse) s tr t ∧ t.db = (createSchema creates rest s.db).2 ∧
      t.phase call = if (createSchema creates rest s.db).1 then .creating [] else .closed := by
  induction rest generalizing s with
  | nil => exact ⟨[], s, .nil, rfl, h⟩
  | cons statement rest ih =>
    rw [createSchema]
    cases hrun : (if creates statement then statement.run s.db else none) with
    | none => exact ⟨_, _, Run.nil.snoc (.setupFailed call h), rfl, phase_enter⟩
    | some db =>
      have hstatement : statement.run s.db = some db := by
        split at hrun
        · exact hrun
        · cases hrun
      obtain ⟨tr, t, hrest, hdb, hphase⟩ := ih (s := Sys.enter { s with db := db } call (.creating rest)) phase_enter
      exact ⟨_, t, (Run.nil.snoc (.created call h hstatement)).append hrest, hdb, hphase⟩

/-- `Database::open` on its own is a run of the system. -/
theorem openDatabase_run (a : OpenAnswers) (h : s.phase call = .closed) :
    ∃ tr t, Run (Step parse) s tr t ∧ t.db = (openDatabase a s.db).2 ∧
      t.phase call = if (openDatabase a s.db).1 then .opened else .closed := by
  unfold openDatabase
  cases a.opens with
  | false => exact ⟨[], s, .nil, rfl, h⟩
  | true =>
    rw [if_pos rfl]
    obtain ⟨tr, t, hcreate, hdb, hphase⟩ := @createSchema_run parse (s.enter call (.creating schema)) call
      a.creates schema phase_enter
    have hrun := (Run.nil.snoc (.started call (.inl h))).append hcreate
    change t.db = (createSchema a.creates schema s.db).2 at hdb
    change t.phase call = if (createSchema a.creates schema s.db).1 then .creating [] else .closed at hphase
    generalize createSchema a.creates schema s.db = created at hdb hphase
    obtain ⟨done, db⟩ := created
    subst hdb
    cases done with
    | false => exact ⟨_, t, hrun, rfl, hphase⟩
    | true =>
      have hprobe := hrun.snoc (.probed call a.probed hphase)
      cases hmigrate : migrate a.toAnswers (!hasColumn a.probed "remote_task_id" t.db) t.db with
      | none =>
        exact ⟨_, _, hprobe.snoc (.failed call a.toAnswers phase_enter hmigrate), by simp [hmigrate, Sys.enter],
          by simp [hmigrate]⟩
      | some db =>
        exact ⟨_, _, hprobe.snoc (.migrated call a.toAnswers phase_enter hmigrate), by simp [hmigrate, Sys.enter],
          by simp [hmigrate]⟩

end Alone

end A2ad.Database
