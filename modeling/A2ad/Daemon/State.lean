/-
The state the daemon's task side works on and what it draws from outside: configuration, clocks,
random ids, the answers of the network, the JSON parser, the credential provider. Reads and writes
of the tasks table and the primitives of every operation.
-/
import A2ad.Client.Card
import A2ad.Task.Database
import Mathlib.Data.List.Sort

namespace A2ad

open Bytes Json Client

/-! ## Configuration -/

structure AuthReference where
  type : Str := "none"
  name : Str := []
  scheme : Str := []
  location : Str := []
  parameter : Str := []
  clientCert : Str := []
  clientKey : Str := []
deriving DecidableEq

/-- An agent's configuration. `auth` holds the flat form of the reference, `authSchemes` the
references keyed by scheme name, in name order. -/
structure AgentConfig where
  endpoint : Str
  hostLabel : Str := []
  auth : AuthReference := {}
  authSchemes : List (Str × AuthReference) := []
deriving DecidableEq

structure ProjectRule where
  path : Str
  defaultAgent : Str
deriving DecidableEq

structure Config where
  agents : List (Str × AgentConfig) := []
  projects : List ProjectRule := []
  enforcePolicy : Bool := false
deriving DecidableEq

namespace Config

def agent (c : Config) (id : Str) : Option AgentConfig := (c.agents.find? fun a => a.1 = id).map Prod.snd

/-- One rule against the best path and agent so far. -/
def bestRule (canonical : Str → Str) (cwd : Str) (best : Str × Str) (rule : ProjectRule) : Str × Str :=
  let p := canonical rule.path
  if (cwd = p ∨ (cwd.length > p.length ∧ (p ++ [47]).isPrefixOf cwd)) ∧ p.length > best.1.length then
    (p, rule.defaultAgent)
  else best

/-- `default_agent_for`: the longest configured path that is the directory or an ancestor of it. -/
def defaultAgentFor (c : Config) (canonical : Str → Str) (cwd : Str) : Option Str :=
  let (_, agent) := c.projects.foldl (bestRule canonical (canonical cwd)) ([], [])
  if agent.isEmpty then none else some agent

end Config

/-! ## State -/

/-- What comes from outside. Readings of a clock, random ids, exchanges and writes are numbered over
the whole run; `busy n` says whether another connection holds the database's write lock at the
`n`-th write of a task, `agentsBusy n` at the `n`-th write of an agent. `canonical` is `weakly_canonical`. -/
structure Env where
  config : Config
  canonical : Str → Str
  iso : Nat → Str
  steady : Nat → Int
  rand : Nat → Str
  http : Nat → HttpRequest → HttpResponse
  stream : Nat → HttpRequest → List Str × HttpResponse
  grpc : Nat → AuthSpec → Call Method → HttpResponse
  grpcStream : Nat → AuthSpec → Call StreamMethod → List J × HttpResponse
  parse : Str → Option J
  resolve : Str → Str → AuthSpec
  secret : Str → Str
  busy : Nat → Bool
  agentsBusy : Nat → Bool

/-- An A2A request as it left the daemon. -/
structure Sent where
  endpoint : Str
  info : BindingInfo
  method : Str
  params : J
deriving DecidableEq

structure CachedCard where
  body : Str
  etag : Str
deriving DecidableEq

/-- A row of the `agents` table; the card column holds the dump of `card`. -/
structure SavedAgent where
  endpoint : Str
  hostLabel : Str
  card : J
  available : Bool
  lastError : Str
deriving DecidableEq

structure World where
  tasks : Tasks := ∅
  saved : AList fun _ : Str => SavedAgent := ∅
  agents : AList fun _ : Str => Agent := ∅
  discoveredAt : AList fun _ : Str => Int := ∅
  subscribed : List Str := []
  bindings : AList fun _ : Str => BindingInfo := ∅
  cards : AList fun _ : Str => CachedCard := ∅
  sent : List Sent := []
  events : List J := []
  rpcIds : Nat := 1
  isoTicks : Nat := 0
  steadyTicks : Nat := 0
  nonce : Nat := 0
  exchanges : Nat := 0
  writes : Nat := 0
  saves : Nat := 0

abbrev M := Tx Exception World

/-! ## Primitives -/

/-- `now_iso`. -/
def nowIso (E : Env) : M Str := fun s => .ok (E.iso s.isoTicks) { s with isoTicks := s.isoTicks + 1 }

def steadyNow (E : Env) : M Int := fun s => .ok (E.steady s.steadyTicks) { s with steadyTicks := s.steadyTicks + 1 }

/-- `local_interaction_id` and `uuid_v4`. -/
def freshId (E : Env) : M Str := fun s => .ok (E.rand s.nonce) { s with nonce := s.nonce + 1 }

def nextRpcId : M Str := fun s => .ok (natText s.rpcIds) { s with rpcIds := s.rpcIds + 1 }

def observe {α : Type} (f : World → α) : M α := fun s => .ok (f s) s

def change (f : World → World) : M Unit := fun s => .ok () (f s)

def emit (event : J) : M Unit := change fun s => { s with events := s.events ++ [event] }

/-- The stored task; its id is looked for as a C string. -/
def World.task (E : Env) (s : World) (id : Str) : Option Task := (s.tasks.lookup (cstr id)).map (taskFromRow E.parse)

def getTask (E : Env) (id : Str) : M (Option Task) := observe fun s => s.task E id

/-- `INSERT OR REPLACE`, whose result nobody looks at: while another connection writes, nothing happens. -/
def putRow (E : Env) (row : Row) : M Unit := change fun s =>
  { s with writes := s.writes + 1, tasks := if E.busy s.writes then s.tasks else s.tasks.insert row.id row }

def insertTask (E : Env) (t : Task) : M Unit := do
  let row ← bindTask E.parse t
  putRow E row

def updateTask (E : Env) (t : Task) : M Unit := insertTask E t

/-- The rows in the order they are listed, latest update first. -/
def World.rows (s : World) : List Row :=
  (s.tasks.entries.map fun e => e.2).insertionSort fun a b => b.updatedAt ≤ a.updatedAt

/-- The names of the terminal states, as the query for the others spells them. -/
def terminalNames : List Str := ["COMPLETED", "FAILED", "CANCELED", "REJECTED"].map lit

def listTasks (E : Env) (includeTerminal : Bool) : M (List Task) := observe fun s =>
  (s.rows.filter fun r => includeTerminal || !terminalNames.contains r.state).map (taskFromRow E.parse)

section Ok

variable {E : Env} {s s' : World}

@[simp] theorem observe_ok {α : Type} {f : World → α} {a : α} : observe f s = .ok a s' ↔ f s = a ∧ s = s' := by
  simp [observe]

@[simp] theorem change_ok {f : World → World} {u : Unit} : change f s = .ok u s' ↔ f s = s' := by
  simp [change]

@[simp] theorem nowIso_ok {t : Str} :
    nowIso E s = .ok t s' ↔ E.iso s.isoTicks = t ∧ { s with isoTicks := s.isoTicks + 1 } = s' := by
  simp [nowIso]

@[simp] theorem steadyNow_ok {t : Int} :
    steadyNow E s = .ok t s' ↔ E.steady s.steadyTicks = t ∧ { s with steadyTicks := s.steadyTicks + 1 } = s' := by
  simp [steadyNow]

@[simp] theorem freshId_ok {i : Str} :
    freshId E s = .ok i s' ↔ E.rand s.nonce = i ∧ { s with nonce := s.nonce + 1 } = s' := by
  simp [freshId]

@[simp] theorem nextRpcId_ok {i : Str} :
    nextRpcId s = .ok i s' ↔ natText s.rpcIds = i ∧ { s with rpcIds := s.rpcIds + 1 } = s' := by
  simp [nextRpcId]

theorem insertTask_ok {t : Task} {u : Unit} : insertTask E t s = .ok u s' ↔
    ∃ row, bindTask E.parse t = .ok row ∧
      { s with writes := s.writes + 1, tasks := if E.busy s.writes then s.tasks else s.tasks.insert row.id row } = s' := by
  simp only [insertTask, Tx.bind_ok, Tx.lift_ok, putRow, change_ok]
  constructor
  · rintro ⟨row, _, ⟨hrow, rfl⟩, h⟩
    exact ⟨row, hrow, h⟩
  · rintro ⟨row, hrow, h⟩
    exact ⟨row, s, ⟨hrow, rfl⟩, h⟩

end Ok

/-! ## A daemon without a network -/

/-- A parser of the printed forms of some values. -/
def parseAmong (values : List J) (text : Str) : Option J := values.find? fun j => j.text = text

/-- What such a parser reads is UTF-8 where the values are. -/
theorem parseAmong_utf8 {values : List J} (h : ∀ j ∈ values, j.utf8 = true) (text : Str) (j : J)
    (hj : parseAmong values text = some j) : j.utf8 = true := h j (List.mem_of_find?_eq_some hj)

def builder : Agent where
  id := "builder"
  endpoint := "https://builder.example/a2a"
  available := true

/-- The surroundings of a daemon for one agent that knows the printed forms of `values`: nobody
answers it, the clocks stand still and the database is free. -/
def Env.offline (values : List J) : Env where
  config := { agents := [(builder.id, { endpoint := builder.endpoint })] }
  canonical := id
  iso := fun _ => "2026-01-01T00:00:00Z"
  steady := fun _ => 0
  rand := fun n => lit "id-" ++ natText n
  http := fun _ _ => { transportError := true }
  stream := fun _ _ => ([], { transportError := true })
  grpc := fun _ _ _ => { transportError := true }
  grpcStream := fun _ _ _ => ([], { transportError := true })
  parse := parseAmong (.arr [] :: .obj [] :: values)
  resolve := fun _ _ => {}
  secret := id
  busy := fun _ => false
  agentsBusy := fun _ => false

/-- The agent has been discovered just now, and `tasks` are stored. -/
def World.offline (E : Env) (tasks : List Task) : World := Tx.endState <| tasks.forM (insertTask E) {
  agents := (∅ : AList fun _ : Str => Agent).insert builder.id builder
  discoveredAt := (∅ : AList fun _ : Str => Int).insert builder.id 0 }

end A2ad
