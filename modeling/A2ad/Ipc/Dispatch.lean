/-
The operations of the IPC socket, as `main` dispatches them to the task manager. Materialising an
artifact works on the file system and is a parameter.
-/
import A2ad.Ipc.Reply
import A2ad.Task.Manager

namespace A2ad.Ipc

open Bytes Json Client

/-! ## Replies -/

def wireInterfaceJson (i : AgentInterface) : J :=
  .object [("url", .str i.url), ("protocol_binding", .str i.protocolBinding),
    ("protocol_version", .str i.protocolVersion), ("tenant", .str i.tenant)]

def skillJson (s : AgentSkill) : J :=
  .object [("id", .str s.id), ("name", .str s.name), ("description", .str s.description)]

def agentToJson (a : Agent) : J :=
  let own := [(lit "id", J.str a.id), (lit "endpoint", .str a.endpoint), (lit "host_label", .str a.hostLabel),
    (lit "available", .bool a.available), (lit "last_error", .str a.lastError)]
  match a.card with
  | none => .object own
  | some card => .object (own ++ [(lit "name", .str card.name), (lit "description", .str card.description),
      (lit "version", .str card.version), (lit "supports_streaming", .bool card.capabilities.streaming),
      (lit "supports_push_notifications", .bool card.capabilities.pushNotifications),
      (lit "supports_extended_card", .bool card.capabilities.extendedAgentCard),
      (lit "warnings", .arr (card.warnings.map .str)),
      (lit "interfaces", .arr (card.interfaces.map wireInterfaceJson)),
      (lit "skills", .arr (card.skills.map skillJson))])

/-! ## Tasks -/

def submit (E : Env) (req : J) : M J := do
  let requested ← req.valueStr "agent" ""
  let cwd ← req.valueStr "cwd" ""
  match if requested.isEmpty then E.config.defaultAgentFor E.canonical cwd else some requested with
  | none => return refusal "no agent supplied and no project default matches cwd" "no_route"
  | some agent =>
    let message ← req.valueStr "message" ""
    let requestId ← req.valueStr "request_id" ""
    let taskId ← req.valueStr "task_id" ""
    let contextId ← req.valueStr "context_id" ""
    let resp ← TaskManager.createTask E ⟨agent, message, requestId, cwd, taskId, contextId⟩
    if !resp.ok then return refusal resp.message resp.errorKind
    return .object [("ok", .bool true), ("task_id", .str resp.taskId), ("context_id", .str resp.contextId),
      ("state", .str resp.state.name), ("message", .str resp.message)]

def listOp (E : Env) (req : J) : M J := do
  let includeTerminal ← req.valueBool "include_terminal" true
  return listReply (← listTasks E includeTerminal)

def remoteFilter (req : J) : Except Exception ListTasksFilter := do
  let contextId ← req.valueStr "context_id" ""
  let pageSize ← req.valueInt "page_size" 100
  let pageToken ← req.valueStr "page_token" ""
  let after ← req.valueStr "status_timestamp_after" ""
  return {
    contextId := contextId, pageSize := pageSize, pageToken := pageToken, statusTimestampAfter := after
    status := match req.get? "status" with
      | some (.str s) => parseTaskState s
      | _ => none
    historyLength := match req.get? "history_length" with
      | some (.int n) => some (n.bmod (2 ^ 32))
      | _ => none
    includeArtifacts := match req.get? "include_artifacts" with
      | some (.bool b) => some b
      | _ => none }

def remoteList (E : Env) (req : J) : M J := do
  let filter ← remoteFilter req
  let r ← TaskManager.listRemoteTasks E (← req.valueStr "agent" "") filter
  return if r.ok then remoteListReply r else resultRefusal r

def streamSubmit (E : Env) (req : J) : M J := do
  let agent ← req.valueStr "agent" ""
  let message ← req.valueStr "message" ""
  let taskId ← req.valueStr "task_id" ""
  let contextId ← req.valueStr "context_id" ""
  let (r, events) ← TaskManager.streamMessage E agent message taskId contextId
  if r.ok then return .object [("ok", .bool true), ("events", .arr events)]
  return (resultRefusal r).set "events" (.arr events)

def subscribe (E : Env) (req : J) : M J := do
  let (r, updates) ← TaskManager.subscribeTask E (← req.valueStr "task_id" "")
  return subscribeReply r updates

def status (E : Env) (req : J) : M J := do
  let id ← req.valueStr "task_id" ""
  let refresh ← req.valueBool "refresh" false
  let r ← if refresh then TaskManager.refreshTask E id else pure { ok := true }
  if !r.ok then return resultRefusal r
  match ← getTask E id with
  | none => return plainRefusal (lit "no such task: " ++ id)
  | some t => return statusReply t

def respondOp (E : Env) (req : J) : M J := do
  let id ← req.valueStr "task_id" ""
  let text ← req.valueStr "message" ""
  let requestId ← req.valueStr "request_id" ""
  let resp ← TaskManager.respondToTask E id text requestId
  if !resp.ok then return refusal resp.message resp.errorKind
  return .object [("ok", .bool true), ("task_id", .str resp.taskId), ("state", .str resp.state.name)]

def cancel (E : Env) (req : J) : M J := do
  let id ← req.valueStr "task_id" ""
  let r ← TaskManager.cancelTask E id
  if !r.ok then return resultRefusal r
  let state := (r.task.map fun t => t.state.name).getD (lit "UNKNOWN")
  return .object [("ok", .bool true), ("task_id", .str id), ("state", .str state)]

/-! ## Push configurations -/

/-- A configuration without its secrets; `authentication` has to be an object to be redacted. -/
def redact (item : J) : Except Exception J :=
  if !item.isObject then .ok item
  else
    let item := item.erase "token"
    match item.get? "authentication" with
    | none => .ok item
    | some (.obj fields) => .ok (item.set "authentication" ((J.obj fields).erase "credentials"))
    | some other => .error ⟨lit "[json.exception.type_error.307] cannot use erase() with " ++ other.typeName⟩

/-- The configurations of a list are redacted one by one, a single one as a whole. -/
def redactResult (value : J) : Except Exception J :=
  match value.get? "configs" with
  | some (.arr items) => return value.set "configs" (.arr (← items.mapM redact))
  | _ => redact value

def pushCreate (E : Env) (req : J) : M J := do
  let id ← req.valueStr "id" ""
  let taskId ← req.valueStr "task_id" ""
  let url ← req.valueStr "url" ""
  if !(lit "https://").isPrefixOf url then return plainRefusal "push callback URL must use HTTPS"
  let tokenFile ← req.valueStr "token_file" ""
  let authScheme ← req.valueStr "auth_scheme" ""
  let authFile ← req.valueStr "auth_file" ""
  let agent ← req.valueStr "agent" ""
  let r ← TaskManager.createPushConfig E agent ⟨id, taskId, url, E.secret tokenFile, authScheme, E.secret authFile⟩
  if !r.ok then return resultRefusal r
  return .object [("ok", .bool true), ("config", ← redact r.value)]

def pushResult (r : A2AResult) : M J := do
  if !r.ok then return resultRefusal r
  return .object [("ok", .bool true), ("result", ← redactResult r.value)]

def pushGet (E : Env) (req : J) : M J := do
  let agent ← req.valueStr "agent" ""
  let taskId ← req.valueStr "task_id" ""
  let id ← req.valueStr "id" ""
  pushResult (← TaskManager.getPushConfig E agent taskId id)

def pushList (E : Env) (req : J) : M J := do
  let agent ← req.valueStr "agent" ""
  let taskId ← req.valueStr "task_id" ""
  let pageSize ← req.valueInt "page_size" 50
  let pageToken ← req.valueStr "page_token" ""
  pushResult (← TaskManager.listPushConfigs E agent taskId pageSize pageToken)

def pushDelete (E : Env) (req : J) : M J := do
  let agent ← req.valueStr "agent" ""
  let taskId ← req.valueStr "task_id" ""
  let id ← req.valueStr "id" ""
  pushResult (← TaskManager.deletePushConfig E agent taskId id)

/-! ## Agents -/

def extendedCard (E : Env) (req : J) : M J := do
  let r ← TaskManager.getExtendedAgentCard E (← req.valueStr "agent" "")
  if !r.ok then return resultRefusal r
  return .object [("ok", .bool true), ("card", r.value)]

/-- The agents in the order of their ids. -/
def agentsOp : M J := do
  let agents ← observe fun s => (s.agents.entries.map fun e => e.2).insertionSort fun a b => a.id ≤ b.id
  return .object [("ok", .bool true), ("agents", .arr (agents.map agentToJson))]

def discoverOp (E : Env) (req : J) : M J := do
  let a ← TaskManager.discoverAgent E (← req.valueStr "agent" "")
  return .object [("ok", .bool true), ("agent", agentToJson a)]

/-! ## Dispatch -/

/-- The operations by name. -/
inductive Op where
  | submit
  | list
  | remoteList
  | streamSubmit
  | subscribe
  | pushCreate
  | pushGet
  | pushList
  | pushDelete
  | extendedCard
  | status
  | respond
  | cancel
  | agents
  | discover
  | materialize
  | ping
deriving DecidableEq, Repr

def Op.name : Op → Str
  | .submit => "submit"
  | .list => "list"
  | .remoteList => "remote_list"
  | .streamSubmit => "stream_submit"
  | .subscribe => "subscribe"
  | .pushCreate => "push.create"
  | .pushGet => "push.get"
  | .pushList => "push.list"
  | .pushDelete => "push.delete"
  | .extendedCard => "agent.extended_card"
  | .status => "status"
  | .respond => "respond"
  | .cancel => "cancel"
  | .agents => "agents"
  | .discover => "discover"
  | .materialize => "artifact.materialize"
  | .ping => "ping"

def Op.all : List Op := [.submit, .list, .remoteList, .streamSubmit, .subscribe, .pushCreate, .pushGet, .pushList,
  .pushDelete, .extendedCard, .status, .respond, .cancel, .agents, .discover, .materialize, .ping]

def Op.parse (name : Str) : Option Op := Op.all.find? fun op => op.name = name

theorem Op.parse_name (op : Op) : Op.parse op.name = some op := by cases op <;> decide

def perform (E : Env) (materialize : J → M J) (req : J) : Op → M J
  | .submit => submit E req
  | .list => listOp E req
  | .remoteList => remoteList E req
  | .streamSubmit => streamSubmit E req
  | .subscribe => subscribe E req
  | .pushCreate => pushCreate E req
  | .pushGet => pushGet E req
  | .pushList => pushList E req
  | .pushDelete => pushDelete E req
  | .extendedCard => extendedCard E req
  | .status => status E req
  | .respond => respondOp E req
  | .cancel => cancel E req
  | .agents => agentsOp
  | .discover => discoverOp E req
  | .materialize => materialize req
  | .ping => return .object [("ok", .bool true), ("pong", .bool true)]

def dispatch (E : Env) (materialize : J → M J) (req : J) : M J := do
  let op ← req.valueStr "op" ""
  match Op.parse op with
  | some op => perform E materialize req op
  | none => return plainRefusal (lit "unknown op: " ++ op)

end A2ad.Ipc
