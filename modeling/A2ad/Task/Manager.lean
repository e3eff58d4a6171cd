/-
`TaskManager`: the agents and how a call reaches one, and the operations on stored tasks.
-/
import A2ad.Client.Auth
import A2ad.Client.Stream
import A2ad.Task.Rows

namespace A2ad.TaskManager

open Bytes Json Client

/-! ## Agents -/

def interfaceJson (i : AgentInterface) : J :=
  .object [("url", .str i.url), ("protocolBinding", .str i.protocolBinding), ("protocolVersion", .str i.protocolVersion),
    ("tenant", .str i.tenant)]

/-- The card snapshot that is persisted with an agent. -/
def cardSnapshot (card : AgentCard) : J :=
  .object [("valid", .bool card.valid), ("name", .str card.name), ("description", .str card.description),
    ("version", .str card.version),
    ("capabilities", .object [("streaming", .bool card.capabilities.streaming),
      ("pushNotifications", .bool card.capabilities.pushNotifications),
      ("extendedAgentCard", .bool card.capabilities.extendedAgentCard)]),
    ("interfaces", .arr (card.interfaces.map interfaceJson)), ("auth_schemes", .arr (card.authSchemes.map .str))]

/-- An agent with the outcome of a discovery. -/
def discovered (a : Agent) (card : AgentCard) : Agent := { a with
  card := some card, available := card.valid
  lastError := if card.valid then (lit "; ").intercalate card.warnings else card.parseError }

/-- An upsert, whose result nobody looks at either. -/
def saveAgent (E : Env) (id : Str) (a : Agent) (snapshot : J) : M Unit := change fun s =>
  { s with
    saves := s.saves + 1
    saved := if E.agentsBusy s.saves then s.saved
      else s.saved.insert id ⟨a.endpoint, a.hostLabel, snapshot, a.available, a.lastError⟩ }

/-- The interface an agent with a valid card is called by is registered after those of its card. -/
def registerEffective (a : Agent) (card : AgentCard) : M Unit :=
  match if card.valid then a.effectiveInterface else none with
  | some i => registerInterface i
  | none => pure ()

def storeDiscovery (id : Str) (time : Int) (a : Agent) : M Unit := change fun s =>
  { s with discoveredAt := s.discoveredAt.insert id time, agents := s.agents.insert id a }

def discoverAgent (E : Env) (id : Str) : M Agent := do
  match ← observe fun s => s.agents.lookup id with
  | none => return { id := id }
  | some a =>
    let card ← discover E a.endpoint
    let time ← steadyNow E
    let a := discovered a card
    -- a card that is not valid is stored like any other
    storeDiscovery id time a
    registerEffective a card
    -- throws where a text of the card is not UTF-8
    let _ ← (cardSnapshot card).dump
    saveAgent E id a (cardSnapshot card)
    return a

/-- Discoveries are trusted for five minutes; the steady clock counts seconds here. -/
def refreshDiscovery (E : Env) (id : Str) : M Unit := do
  match ← observe fun s => s.discoveredAt.lookup id with
  | some found =>
    let time ← steadyNow E
    if time - found ≥ 300 then
      let _ ← discoverAgent E id
  | none =>
    let _ ← discoverAgent E id

/-- Where an agent is called and with which credentials; `none` when it is not configured or not known. -/
def resolveEndpoint (E : Env) (id : Str) : M (Option (Str × AuthSpec)) := do
  if (E.config.agent id).isNone then return none
  refreshDiscovery E id
  match ← observe fun s => s.agents.lookup id with
  | none => return none
  | some a => return some (a.effectiveEndpoint, resolveAuth E id a)

/-! ## Events -/

def createdEvent (t : Task) : J :=
  .object [("type", .str "task.created"), ("task_id", .str t.id), ("state", .str t.state.name)]

def stateEvent (taskId : Str) (before after : TaskState) : J :=
  .object [("type", .str "task.state_changed"), ("task_id", .str taskId), ("from", .str before.name),
    ("to", .str after.name)]

def emitStateChanged (taskId : Str) (before after : TaskState) : M Unit :=
  if before = after then pure () else emit (stateEvent taskId before after)

/-! ## Creating a task -/

structure CreateTaskResponse where
  ok : Bool := false
  taskId : Str := []
  contextId : Str := []
  state : TaskState := .submitted
  message : Str := []
  errorKind : Str := []
deriving DecidableEq

/-- The message sent, with the working directory as its context. -/
def payloadText (req : CreateTaskRequest) : Str :=
  if req.cwd.isEmpty then req.message else req.message ++ lit "\n[context]\nworking directory: " ++ req.cwd

/-- A task with a remote id on a streaming agent is subscribed to once. -/
def startSubscription (t : Task) : M Unit := change fun s =>
  let streaming := ((s.agents.lookup t.agent).map Agent.supportsStreaming).getD false
  if !streaming || t.state.isTerminal || (t.remoteTaskId.getD []).isEmpty || s.subscribed.contains t.id then s
  else { s with subscribed := t.id :: s.subscribed }

/-- The record for an accepted answer. -/
def newRecord (E : Env) (req : CreateTaskRequest) (r : A2AResult) : M Task := do
  let id ← freshId E
  match r.task with
  | some task =>
    let created ← if task.createdAt.isEmpty then nowIso E else pure task.createdAt
    return createdTask req task id created
  | none =>
    -- whatever is accepted without a task is taken for a message
    let created ← nowIso E
    let messageId ← if (r.message.getD {}).messageId.isEmpty then freshId E else pure []
    let _ ← nowIso E
    return createdMessage req r id messageId created

/-- Stores an accepted answer, announces it and subscribes to it. -/
def concludeCreate (E : Env) (req : CreateTaskRequest) (r : A2AResult) : M CreateTaskResponse := do
  let t ← newRecord E req r
  let updated ← nowIso E
  let changed ← nowIso E
  let t := { t with updatedAt := updated, lastStateChange := changed }
  insertTask E t
  emit (createdEvent t)
  startSubscription t
  return {
    ok := true, taskId := t.id, contextId := t.context, state := t.state
    message := if t.remoteTaskId.isSome then "task submitted" else "interaction completed" }

def createTask (E : Env) (req : CreateTaskRequest) : M CreateTaskResponse := do
  match ← resolveEndpoint E req.agent with
  | none => return { errorKind := "unknown_agent", message := lit "unknown agent: " ++ req.agent }
  | some (endpoint, auth) =>
    let r ← sendMessage E endpoint auth (payloadText req) req.continueTaskId req.continueContextId req.requestId
    if r.ok then concludeCreate E req r
    else return { errorKind := r.errorKind.name, message := r.error }

/-! ## Responding -/

def concludeRespond (E : Env) (existing : Task) (r : A2AResult) : M CreateTaskResponse := do
  let updated ← nowIso E
  let changed ← nowIso E
  let t := { respondedTask existing r with updatedAt := updated, lastStateChange := changed }
  updateTask E t
  emitStateChanged t.id existing.state t.state
  return { ok := true, taskId := t.id, contextId := t.context, state := t.state, message := "response sent" }

def respondToTask (E : Env) (taskId text requestId : Str) : M CreateTaskResponse := do
  match ← getTask E taskId with
  | none => return { errorKind := "unknown_task", message := lit "no such task: " ++ taskId }
  | some existing =>
    match ← resolveEndpoint E existing.agent with
    | none => return { errorKind := "unknown_agent", message := "unknown agent for task" }
    | some (endpoint, auth) =>
      let r ← sendMessage E endpoint auth text (existing.remoteTaskId.getD []) existing.context requestId
      if r.ok then concludeRespond E existing r
      else return { errorKind := r.errorKind.name, message := r.error }

/-! ## Canceling and refreshing -/

/-- A failed result made by the task manager itself. -/
def failed (kind : ErrorKind) (error : Str) : A2AResult := { errorKind := kind, error := error }

def concludeCancel (E : Env) (existing t : Task) : M Unit := do
  let updated ← nowIso E
  let changed ← nowIso E
  let t := { replaced existing t with updatedAt := updated, lastStateChange := changed }
  updateTask E t
  emitStateChanged t.id existing.state t.state

def concludeRefresh (E : Env) (existing t : Task) : M Unit := do
  let updated ← nowIso E
  let t := { replaced existing t with updatedAt := updated }
  updateTask E t
  emitStateChanged t.id existing.state t.state

/-- The stored task behind a local id with the endpoint of its agent. -/
def locate (E : Env) (taskId : Str) : M (A2AResult ⊕ (Task × Str × AuthSpec)) := do
  match ← getTask E taskId with
  | none => return .inl (failed .protocolError (lit "no such task: " ++ taskId))
  | some existing =>
    match ← resolveEndpoint E existing.agent with
    | none => return .inl (failed .localNetwork "unknown agent")
    | some (endpoint, auth) => return .inr (existing, endpoint, auth)

def cancelTask (E : Env) (taskId : Str) : M A2AResult := do
  match ← locate E taskId with
  | .inl refusal => return refusal
  | .inr (existing, endpoint, auth) =>
    let remote := existing.remoteTaskId.getD []
    if remote.isEmpty then
      return failed .protocolError "interaction has no remote task and cannot be canceled"
    let r ← Client.cancelTask E endpoint auth remote
    match r.ok, r.task with
    | true, some t =>
      concludeCancel E existing t
      return r
    | _, _ => return r

def refreshTask (E : Env) (taskId : Str) : M A2AResult := do
  match ← locate E taskId with
  | .inl refusal => return refusal
  | .inr (existing, endpoint, auth) =>
    let remote := existing.remoteTaskId.getD []
    if remote.isEmpty then return { ok := true, task := some existing, contextId := existing.context }
    let r ← fetchTask E endpoint auth remote
    match r.ok, r.task with
    | true, some t =>
      concludeRefresh E existing t
      return r
    | _, _ => return r

/-! ## Reconciling at startup -/

def concludeReconcile (E : Env) (existing t : Task) : M Unit := do
  let updated ← nowIso E
  let fresh := { reconciledTask existing t with updatedAt := updated }
  updateTask E fresh
  emitStateChanged fresh.id existing.state fresh.state

/-- One task at startup: its fresh state, or a note where the agent answered with an error. -/
def reconcileTask (E : Env) (t : Task) : M Unit := do
  match ← resolveEndpoint E t.agent with
  | none => return ()
  | some (endpoint, auth) =>
    let remote := t.remoteTaskId.getD []
    if remote.isEmpty then return ()
    let r ← fetchTask E endpoint auth remote
    match r.ok, r.task with
    | true, some fresh => concludeReconcile E t fresh
    | _, _ =>
      if r.errorKind = .localNetwork then return ()
      -- the record is written back as it was read when the daemon started
      updateTask E { t with error := lit "reconciliation failed: " ++ r.error }

def reconcileOnStartup (E : Env) : M Unit := do
  let tasks ← listTasks E false
  tasks.forM (reconcileTask E)

/-! ## Subscriptions -/

/-- What a subscription does with an update of its task: read, merge, write, announce. -/
def onSubscribed (E : Env) (taskId : Str) (update : Task) : M Unit := do
  match ← getTask E taskId with
  | none => return ()
  | some existing =>
    let merged ← mergeUpdate existing update
    let updated ← nowIso E
    updateTask E { merged with updatedAt := updated }
    emitStateChanged taskId existing.state merged.state

/-- One connection of a subscription thread, and whether it connects again: not when the agent is
gone, nor when the task is gone or has ended. -/
def subscriptionRound (E : Env) (agent taskId remoteTaskId : Str) : M Bool := do
  match ← resolveEndpoint E agent with
  | none => return false
  | some (endpoint, auth) =>
    let _ ← subscribeToTask E endpoint auth remoteTaskId (fun update _ => onSubscribed E taskId update) ()
    match ← getTask E taskId with
    | none => return false
    | some current => return !current.state.isTerminal

/-- A subscription thread over at most `n` connections. -/
def subscription (E : Env) (agent taskId remoteTaskId : Str) : Nat → M Unit
  | 0 => pure ()
  | n + 1 => do
    if ← subscriptionRound E agent taskId remoteTaskId then
      subscription E agent taskId remoteTaskId n

/-- A subscription on behalf of a client: the updates are collected and nothing is stored. -/
def subscribeTask (E : Env) (taskId : Str) : M (A2AResult × List Task) := do
  match (← getTask E taskId).bind fun t => t.remoteTaskId.map fun remote => (t, remote) with
  | none => return (failed .protocolError "task has no remote task id", [])
  | some (t, remote) =>
    match ← resolveEndpoint E t.agent with
    | none => return (failed .protocolError "unknown task agent", [])
    | some (endpoint, auth) =>
      subscribeToTask E endpoint auth remote (fun update updates => return updates ++ [update]) []

/-! ## Pass-through operations -/

def unknownAgent (agent : Str) : A2AResult := failed .protocolError (lit "unknown agent: " ++ agent)

/-- A call on an agent by name; the push operations leave the kind of the error open. -/
def withAgent (E : Env) (agent : Str) (refusal : A2AResult) (call : Str → AuthSpec → M A2AResult) : M A2AResult := do
  match ← resolveEndpoint E agent with
  | none => return refusal
  | some (endpoint, auth) => call endpoint auth

def listRemoteTasks (E : Env) (agent : Str) (f : ListTasksFilter) : M A2AResult := do
  let r ← withAgent E agent (unknownAgent agent) fun endpoint auth => fetchTasks E endpoint auth f
  if r.ok then return { r with tasks := r.tasks.map fun t => { t with agent := orElse t.agent agent } }
  return r

def streamMessage (E : Env) (agent message taskId contextId : Str) : M (A2AResult × List J) := do
  match ← resolveEndpoint E agent with
  | none => return (unknownAgent agent, [])
  | some (endpoint, auth) => sendStreamingMessage E endpoint auth message taskId contextId

def unknownAgentOpen (agent : Str) : A2AResult := failed .none (lit "unknown agent: " ++ agent)

def createPushConfig (E : Env) (agent : Str) (c : PushNotificationConfig) : M A2AResult :=
  withAgent E agent (unknownAgentOpen agent) fun endpoint auth => Client.createPushConfig E endpoint auth c

def getPushConfig (E : Env) (agent taskId id : Str) : M A2AResult :=
  withAgent E agent (unknownAgentOpen agent) fun endpoint auth => Client.getPushConfig E endpoint auth taskId id

def listPushConfigs (E : Env) (agent taskId : Str) (pageSize : Int) (pageToken : Str) : M A2AResult :=
  withAgent E agent (unknownAgentOpen agent) fun endpoint auth =>
    Client.listPushConfigs E endpoint auth taskId pageSize pageToken

def deletePushConfig (E : Env) (agent taskId id : Str) : M A2AResult :=
  withAgent E agent (unknownAgentOpen agent) fun endpoint auth => Client.deletePushConfig E endpoint auth taskId id

def getExtendedAgentCard (E : Env) (agent : Str) : M A2AResult :=
  withAgent E agent (unknownAgentOpen agent) fun endpoint auth => Client.getExtendedAgentCard E endpoint auth

end A2ad.TaskManager
