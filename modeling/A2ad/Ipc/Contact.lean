/-
The mutating operations in three phases: what an operation prepares, the one request it makes, and
what it concludes from the answer.
-/
import A2ad.Ipc.Dispatch
import A2ad.Task.Artifact

namespace A2ad.Ipc

open Bytes Json Client TaskManager

/-! ## Phases -/

/-- A prepared operation: it ends without a request, or it makes one and concludes from the answer.
What a download has brought is offered to `keep`. -/
inductive Prepared where
  | idle (conclude : M J)
  | call (endpoint : Str) (auth : AuthSpec) (method : Method) (params : J) (conclude : A2AResult → M J)
  | stream (endpoint : Str) (auth : AuthSpec) (params : J) (conclude : A2AResult × List J → M J)
  | fetch (request : HttpRequest) (keep : Str → Except Exception (Except Str Str)) (conclude : HttpResponse → M J)

/-- A stream whose events are collected. -/
def collect (E : Env) (endpoint : Str) (auth : AuthSpec) (params : J) : M (A2AResult × List J) :=
  streamCall E endpoint auth .sendStreamingMessage params (fun event st => (st.1, st.2 ++ [event])) (fun _ => false) []

def Prepared.run (E : Env) : Prepared → M J
  | .idle conclude => conclude
  | .call endpoint auth method params conclude => do conclude (← rpcCall E endpoint auth method params)
  | .stream endpoint auth params conclude => do conclude (← collect E endpoint auth params)
  | .fetch request _ conclude => do conclude (← exchange E request)

/-! ## Replies -/

def submitReply (resp : CreateTaskResponse) : J :=
  if !resp.ok then refusal resp.message resp.errorKind
  else .object [("ok", .bool true), ("task_id", .str resp.taskId), ("context_id", .str resp.contextId),
    ("state", .str resp.state.name), ("message", .str resp.message)]

def respondReply (resp : CreateTaskResponse) : J :=
  if !resp.ok then refusal resp.message resp.errorKind
  else .object [("ok", .bool true), ("task_id", .str resp.taskId), ("state", .str resp.state.name)]

def cancelReply (id : Str) (r : A2AResult) : J :=
  if !r.ok then resultRefusal r
  else .object [("ok", .bool true), ("task_id", .str id),
    ("state", .str ((r.task.map fun t => t.state.name).getD (lit "UNKNOWN")))]

def streamReply (answer : A2AResult × List J) : J :=
  if answer.1.ok then .object [("ok", .bool true), ("events", .arr answer.2)]
  else (resultRefusal answer.1).set "events" (.arr answer.2)

def materializeReply : Except Str Str → J
  | .error e => plainRefusal e
  | .ok path => .object [("ok", .bool true), ("path", .str path)]

def pushCreateReply (r : A2AResult) : M J := do
  if !r.ok then return resultRefusal r
  return .object [("ok", .bool true), ("config", ← redact r.value)]

/-! ## Materialising -/

def sizeAt (req : J) (k : Str) : Except Exception Nat := req.value (fun
  | .int n => .ok (n % 2 ^ 64).toNat
  | .flt x => .ok (x.trunc % 2 ^ 64).toNat
  | j => .error (J.typeError302 "number" j)) k 0

/-- The operation `artifact.materialize`. -/
def materialize (E : Env) (F : Files) (req : J) : M J := do
  let taskId ← req.valueStr "task_id" ""
  let artifactId ← req.valueStr "artifact_id" ""
  let part ← sizeAt req "part"
  let outputDir ← req.valueStr "output_dir" ""
  let sha256 ← req.valueStr "sha256" ""
  return materializeReply (← materializeArtifact E F taskId artifactId part outputDir sha256)

/-! ## What the operations prepare -/

section Prepare

variable (E : Env)

/-- A message to an agent. -/
def prepareSend (endpoint : Str) (auth : AuthSpec) (text taskId contextId requestId : Str) (conclude : A2AResult → M J) :
    M Prepared := do
  let messageId ← if requestId.isEmpty then freshId E else pure requestId
  return .call endpoint auth .sendMessage (sendParams text taskId contextId messageId) conclude

def concludeSubmit (c : CreateTaskRequest) (r : A2AResult) : M J := do
  if r.ok then return submitReply (← concludeCreate E c r)
  else return submitReply { errorKind := r.errorKind.name, message := r.error }

def prepareSubmit (req : J) : M Prepared := do
  let requested ← req.valueStr "agent" ""
  let cwd ← req.valueStr "cwd" ""
  match if requested.isEmpty then E.config.defaultAgentFor E.canonical cwd else some requested with
  | none => return .idle (return refusal "no agent supplied and no project default matches cwd" "no_route")
  | some agent =>
    let message ← req.valueStr "message" ""
    let requestId ← req.valueStr "request_id" ""
    let taskId ← req.valueStr "task_id" ""
    let contextId ← req.valueStr "context_id" ""
    let c : CreateTaskRequest := ⟨agent, message, requestId, cwd, taskId, contextId⟩
    match ← resolveEndpoint E agent with
    | none => return .idle (return submitReply { errorKind := "unknown_agent", message := lit "unknown agent: " ++ agent })
    | some (endpoint, auth) => prepareSend E endpoint auth (payloadText c) taskId contextId requestId (concludeSubmit E c)

def concludeRespondOp (existing : Task) (r : A2AResult) : M J := do
  if r.ok then return respondReply (← concludeRespond E existing r)
  else return respondReply { errorKind := r.errorKind.name, message := r.error }

def prepareRespond (req : J) : M Prepared := do
  let id ← req.valueStr "task_id" ""
  let text ← req.valueStr "message" ""
  let requestId ← req.valueStr "request_id" ""
  match ← getTask E id with
  | none => return .idle (return respondReply { errorKind := "unknown_task", message := lit "no such task: " ++ id })
  | some existing =>
    match ← resolveEndpoint E existing.agent with
    | none => return .idle (return respondReply { errorKind := "unknown_agent", message := "unknown agent for task" })
    | some (endpoint, auth) =>
      prepareSend E endpoint auth text (existing.remoteTaskId.getD []) existing.context requestId
        (concludeRespondOp E existing)

def concludeCancelOp (id : Str) (existing : Task) (r : A2AResult) : M J := do
  match r.ok, r.task with
  | true, some t =>
    concludeCancel E existing t
    return cancelReply id r
  | _, _ => return cancelReply id r

def prepareCancel (req : J) : M Prepared := do
  let id ← req.valueStr "task_id" ""
  match ← locate E id with
  | .inl refusal => return .idle (return cancelReply id refusal)
  | .inr (existing, endpoint, auth) =>
    let remote := existing.remoteTaskId.getD []
    if remote.isEmpty then
      return .idle (return cancelReply id (failed .protocolError "interaction has no remote task and cannot be canceled"))
    return .call endpoint auth .cancelTask (idParams remote) (concludeCancelOp E id existing)

def prepareStream (req : J) : M Prepared := do
  let agent ← req.valueStr "agent" ""
  let message ← req.valueStr "message" ""
  let taskId ← req.valueStr "task_id" ""
  let contextId ← req.valueStr "context_id" ""
  match ← resolveEndpoint E agent with
  | none => return .idle (return streamReply (unknownAgent agent, []))
  | some (endpoint, auth) =>
    let messageId ← freshId E
    return .stream endpoint auth (streamParams message taskId contextId messageId) fun answer => return streamReply answer

def preparePushCreate (req : J) : M Prepared := do
  let id ← req.valueStr "id" ""
  let taskId ← req.valueStr "task_id" ""
  let url ← req.valueStr "url" ""
  if !(lit "https://").isPrefixOf url then
    return .idle (return plainRefusal "push callback URL must use HTTPS")
  let tokenFile ← req.valueStr "token_file" ""
  let authScheme ← req.valueStr "auth_scheme" ""
  let authFile ← req.valueStr "auth_file" ""
  let agent ← req.valueStr "agent" ""
  match ← resolveEndpoint E agent with
  | none => return .idle (pushCreateReply (unknownAgentOpen agent))
  | some (endpoint, auth) =>
    let c : PushNotificationConfig := ⟨id, taskId, url, E.secret tokenFile, authScheme, E.secret authFile⟩
    return .call endpoint auth .createPushConfig (pushParams c) pushCreateReply

def preparePushDelete (req : J) : M Prepared := do
  let agent ← req.valueStr "agent" ""
  let taskId ← req.valueStr "task_id" ""
  let id ← req.valueStr "id" ""
  match ← resolveEndpoint E agent with
  | none => return .idle (pushResult (unknownAgentOpen agent))
  | some (endpoint, auth) => return .call endpoint auth .deletePushConfig (pushIdParams taskId id) pushResult

def prepareMaterialize (F : Files) (req : J) : M Prepared := do
  let taskId ← req.valueStr "task_id" ""
  let artifactId ← req.valueStr "artifact_id" ""
  let part ← sizeAt req "part"
  let outputDir ← req.valueStr "output_dir" ""
  let sha256 ← req.valueStr "sha256" ""
  match ← getTask E taskId with
  | none => return .idle (return materializeReply (.error (lit "no such task: " ++ taskId)))
  | some t =>
    match findPart t artifactId part with
    | .error e => return .idle (return materializeReply (.error e))
    | .ok (a, p) =>
      let k : Keeping := ⟨a, p, part, outputDir, sha256⟩
      match contentOf p with
      | .bad e => return .idle (return materializeReply (.error e))
      | .bytes bytes => return .idle (return materializeReply (← keepBytes F taskId k bytes))
      | .url url =>
        match ← partRequest E t.agent url with
        | .error e => return .idle (return materializeReply (.error e))
        | .ok request => return .fetch request (k.keep F) fun r => return materializeReply (← keepDownload F taskId k r)

/-- The mutating operations, as far as the request they make. The others change nothing remote. -/
def prepare (F : Files) (req : J) : Op → M Prepared
  | .submit => prepareSubmit E req
  | .respond => prepareRespond E req
  | .cancel => prepareCancel E req
  | .streamSubmit => prepareStream E req
  | .pushCreate => preparePushCreate E req
  | .pushDelete => preparePushDelete E req
  | .materialize => prepareMaterialize E F req
  | op => return .idle (perform E (materialize E F) req op)

end Prepare

/-! ## The phases make up the operation -/

section Phases

variable {E : Env} {F : Files} {req : J}

theorem prepareSend_run {endpoint : Str} {auth : AuthSpec} {text taskId contextId requestId : Str}
    {conclude : A2AResult → M J} :
    prepareSend E endpoint auth text taskId contextId requestId conclude >>= Prepared.run E =
      sendMessage E endpoint auth text taskId contextId requestId >>= conclude := by
  unfold prepareSend sendMessage
  split <;> simp only [bind_assoc, pure_bind, Prepared.run]

/-- A reply chosen by a condition, returned or chosen and returned. -/
theorem pure_ite {c : Prop} [Decidable c] {a b : J} : (if c then pure a else pure b : M J) = pure (if c then a else b) := by
  split <;> rfl

theorem submit_phases : submit E req = prepareSubmit E req >>= Prepared.run E := by
  unfold submit prepareSubmit createTask
  simp only [bind_assoc, pure_ite]
  congr 1; funext requested
  congr 1; funext cwd
  generalize (if List.isEmpty requested = true then _ else some requested) = route
  cases route with
  | none => simp only [pure_bind, Prepared.run]
  | some agent =>
    simp only [bind_assoc]
    congr 1; funext message
    congr 1; funext requestId
    congr 1; funext taskId
    congr 1; funext contextId
    congr 1; funext resolved
    cases resolved with
    | none => simp only [pure_bind, Prepared.run, submitReply]
    | some found =>
      obtain ⟨endpoint, auth⟩ := found
      simp only [prepareSend_run, bind_assoc]
      congr 1; funext r
      unfold concludeSubmit
      split
      · rfl
      · simp only [pure_bind, submitReply]

theorem respond_phases : respondOp E req = prepareRespond E req >>= Prepared.run E := by
  unfold respondOp prepareRespond respondToTask
  simp only [bind_assoc, pure_ite]
  congr 1; funext id
  congr 1; funext text
  congr 1; funext requestId
  congr 1; funext stored
  cases stored with
  | none => simp only [pure_bind, Prepared.run, respondReply]
  | some existing =>
    simp only [bind_assoc]
    congr 1; funext resolved
    cases resolved with
    | none => simp only [pure_bind, Prepared.run, respondReply]
    | some found =>
      obtain ⟨endpoint, auth⟩ := found
      simp only [prepareSend_run, bind_assoc]
      congr 1; funext r
      unfold concludeRespondOp
      split
      · rfl
      · simp only [pure_bind, respondReply]

theorem cancel_phases : cancel E req = prepareCancel E req >>= Prepared.run E := by
  unfold cancel prepareCancel TaskManager.cancelTask
  simp only [bind_assoc, pure_ite]
  congr 1; funext id
  congr 1; funext located
  cases located with
  | inl refusal => simp only [pure_bind, Prepared.run, cancelReply]
  | inr found =>
    obtain ⟨existing, endpoint, auth⟩ := found
    simp only
    split
    · simp only [pure_bind, Prepared.run, cancelReply]
    · simp only [pure_bind, bind_assoc, Prepared.run, Client.cancelTask]
      congr 1; funext r
      unfold concludeCancelOp
      generalize hok : r.ok = ok
      generalize htask : r.task = task
      rcases ok, task with ⟨_ | _, _ | t⟩ <;> simp only [bind_assoc, pure_bind, cancelReply, hok, htask]

theorem stream_phases : streamSubmit E req = prepareStream E req >>= Prepared.run E := by
  unfold streamSubmit prepareStream streamMessage
  simp only [bind_assoc, pure_ite]
  congr 1; funext agent
  congr 1; funext message
  congr 1; funext taskId
  congr 1; funext contextId
  congr 1; funext resolved
  cases resolved with
  | none => simp only [pure_bind, Prepared.run, streamReply]
  | some found =>
    obtain ⟨endpoint, auth⟩ := found
    simp only [pure_bind, bind_assoc, Prepared.run, sendStreamingMessage, collect, streamReply]

theorem pushCreate_phases : pushCreate E req = preparePushCreate E req >>= Prepared.run E := by
  unfold pushCreate preparePushCreate TaskManager.createPushConfig withAgent
  simp only [bind_assoc]
  congr 1; funext id
  congr 1; funext taskId
  congr 1; funext url
  split
  · simp only [pure_bind, Prepared.run]
  · simp only [bind_assoc]
    congr 1; funext tokenFile
    congr 1; funext authScheme
    congr 1; funext authFile
    congr 1; funext agent
    congr 1; funext resolved
    cases resolved with
    | none => simp only [pure_bind, Prepared.run, pushCreateReply]
    | some found =>
      obtain ⟨endpoint, auth⟩ := found
      simp only [pure_bind, Prepared.run, Client.createPushConfig]
      rfl

theorem pushDelete_phases : pushDelete E req = preparePushDelete E req >>= Prepared.run E := by
  unfold pushDelete preparePushDelete TaskManager.deletePushConfig withAgent
  simp only [bind_assoc]
  congr 1; funext agent
  congr 1; funext taskId
  congr 1; funext id
  congr 1; funext resolved
  cases resolved with
  | none => simp only [pure_bind, Prepared.run]
  | some found =>
    obtain ⟨endpoint, auth⟩ := found
    simp only [pure_bind, Prepared.run, Client.deletePushConfig]

theorem materialize_phases : materialize E F req = prepareMaterialize E F req >>= Prepared.run E := by
  unfold materialize prepareMaterialize materializeArtifact
  simp only [bind_assoc]
  congr 1; funext taskId
  congr 1; funext artifactId
  congr 1; funext part
  congr 1; funext outputDir
  congr 1; funext sha256
  congr 1; funext stored
  cases stored with
  | none => simp only [pure_bind, Prepared.run]
  | some t =>
    simp only
    cases findPart t artifactId part with
    | error e => simp only [pure_bind, Prepared.run]
    | ok found =>
      obtain ⟨a, p⟩ := found
      simp only
      cases contentOf p with
      | bad e => simp only [pure_bind, Prepared.run]
      | bytes bytes => simp only [pure_bind, Prepared.run]
      | url url =>
        simp only [bind_assoc]
        congr 1; funext requested
        cases requested with
        | error e => simp only [pure_bind, Prepared.run]
        | ok request => simp only [pure_bind, bind_assoc, Prepared.run]

/-- A mutating operation prepares itself, makes its request and concludes. -/
theorem perform_phases (op : Op) : perform E (materialize E F) req op = prepare E F req op >>= Prepared.run E := by
  cases op with
  | submit => exact submit_phases
  | respond => exact respond_phases
  | cancel => exact cancel_phases
  | streamSubmit => exact stream_phases
  | pushCreate => exact pushCreate_phases
  | pushDelete => exact pushDelete_phases
  | materialize => exact materialize_phases
  | _ => simp only [prepare, pure_bind, Prepared.run]

end Phases

end A2ad.Ipc
