/-
What a discovery that fails leaves of the last good card: nothing, unless that card said no more than
the configured endpoint alone, or the failure was an exception that reached nobody's state.
-/
import A2ad.Lib.Trace
import A2ad.Task.Discovery

namespace A2ad.TaskManager

open Bytes Json Client

/-! ## Agents that are loaded again -/

def loadCapabilities (j : J) : Except Exception AgentCapabilities :=
  match j.get? "capabilities" with
  | some (.obj fields) => do
    let c := J.obj fields
    let streaming ← c.valueBool "streaming" false
    let push ← c.valueBool "pushNotifications" false
    let extended ← c.valueBool "extendedAgentCard" false
    return ⟨streaming, push, extended⟩
  | _ => return {}

/-- The card of a snapshot; it has no security in it. -/
def loadCard (j : J) : Except Exception AgentCard := do
  let valid ← j.valueBool "valid" false
  let name ← j.valueStr "name" ""
  let description ← j.valueStr "description" ""
  let version ← j.valueStr "version" ""
  let capabilities ← loadCapabilities j
  let interfaces ← (arrayAt j "interfaces").mapM parseInterface
  return {
    valid := valid, name := name, description := description, version := version, capabilities := capabilities
    interfaces := interfaces, authSchemes := stringsAt j "auth_schemes" }

/-- `loadAgents`: an agent as it was kept. -/
def loadAgent (id : Str) (row : SavedAgent) : Agent where
  id := id
  endpoint := row.endpoint
  hostLabel := row.hostLabel
  card := (loadCard row.card).toOption
  available := row.available
  lastError := row.lastError

/-! ## Routing -/

section Definitions

variable (E : Env)

/-- A discovery of an agent, or anything else, which leaves the agents alone. -/
def Happens (s : World) (id : Option Str) (s' : World) : Prop :=
  match id with
  | some id => s' = Tx.endState (discoverAgent E id s)
  | none => s'.agents = s.agents ∧ s'.saved = s.saved

end Definitions

/-! ## One failure -/

section Failure

variable {E : Env} {s s' : World} {id : Str} {a : Agent} {last : AgentCard}

end Failure

/-! ## Runs -/

section Runs

variable {E : Env}

end Runs

/-! ### A streaming agent that is down for a moment -/

/-- The URLs serve the card until the server goes down. -/
def failingEnv (card : J) : Env := { Env.offline [card] with
  http := fun n _ => if n = 0 then replied card else { transportError := true } }

def found (card : J) : World := Tx.endState (discoverAgent (failingEnv card) builder.id newlyKnown)

def lost (card : J) : World := Tx.endState (discoverAgent (failingEnv card) builder.id (found card))

end A2ad.TaskManager
