/-
`handle`: the query path, the `control` transaction, the admission transaction `begin`, the
dispatch callback and the `finish` transaction, with the recovery pass of the constructor.
The transactions are what other calls interleave with, so `handle` is cut at the dispatch into
`enter` and `leave`.
-/
import A2ad.Control.Ops

namespace A2ad.Control

open Bytes Json

/-! ## The checks of `begin`

Each answers with the refusal, or with `null` when the request passes. -/

def leaseMatches (E : Env) (supplied lease : J) : M Bool := do
  if lease.isNull then return false
  if ← lapsed E lease then return false
  let owner ← lease.field "owner"
  if !owner.same (.str (← required supplied "owner")) then return false
  let token ← lease.field "token"
  if !token.same (.str (← required supplied "token")) then return false
  let fence ← lease.field "fence"
  return fence.same (← supplied.field "fence")

def leaseCheck (E : Env) (req : J) : M J := do
  if !req.contains "lease" then return .null
  let supplied ← req.field "lease"
  let lease ← read .lease (← required supplied "resource")
  if ← leaseMatches E supplied lease then return .null
  return failure "lease_lost" "dispatch requires a live matching lease and fencing number"

/-- The continuation is pending and bound to the task of the request. -/
def pendingFor (req continuation : J) : Except Exception Bool := do
  if continuation.isNull then return false
  if (← continuation.valueStr "state" "") ≠ "PENDING" then return false
  return (← continuation.valueStr "task_id" "") = (← req.valueStr "task_id" "")

def continuationCheck (req : J) (continuationId : Str) : M J := do
  if continuationId.isEmpty then return .null
  if ← pendingFor req (← read .continuation continuationId) then return .null
  return failure "invalid_continuation" "continuation must be pending and bound to this task"

def hasState (state : Str) (record : J) : Except Exception Bool := do
  if record.isNull then return false
  return (← record.valueStr "state" "") = state

def retryCheck (retryOf : Str) : M J := do
  if retryOf.isEmpty then return .null
  if ← hasState "FAILED" (← read .execution retryOf) then return .null
  return failure "invalid_retry"
    "only a definitively failed dispatch may be retried; uncertain dispatches require remote reconciliation"

def quarantineCheck (agent : Str) : M J := do
  if agent.isEmpty then return .null
  if ← (← health agent).valueBool "quarantined" false then return failure "quarantined" "agent is quarantined"
  return .null

def sessionCheck (sessionId : Str) : M J := do
  if sessionId.isEmpty then return .null
  if (← read .session sessionId).isNull then return failure "not_found" "session not found"
  return .null

/-- The effects every operation of a kind has. -/
def implied (op : Str) (requested : List Str) : List Str :=
  let requested := if op = "submit" || op = "respond" || op = "stream_submit" then insertEffect "EXECUTE_REMOTE" requested
    else requested
  let requested := if op = "cancel" || op = "push.create" || op = "push.delete" then insertEffect "WRITE_REMOTE" requested
    else requested
  if op = "artifact.materialize" then insertEffect "STORE_EXTERNAL" requested else requested

/-- The approval is granted and has not run out. -/
def grantLive (E : Env) (grant : J) : M Bool := do
  if !(← hasState "APPROVED" grant) then return false
  return !(← lapsed E grant)

/-- The loop over the ancestors: every one of them must still hold its grant. -/
def grantsLive (E : Env) : List J → M Bool
  | [] => pure true
  | ancestor :: rest => do
    let grant ← read .approval (← (← ancestor.field "execution_id").asStr)
    if !(← grantLive E grant) then return false
    grantsLive E rest

/-- The identity chain of the parent, or the refusal to delegate from it. -/
def delegate (E : Env) (parentId : Str) (requested : List Str) : M (Except J J) := do
  if parentId.isEmpty then return .ok (.arr [])
  let parent ← read .execution parentId
  if parent.isNull then return .error (failure "invalid_delegation" "parent execution not found")
  let allowed ← effectSet (← parent.field "effects")
  if lit "DELEGATE" ∉ allowed || !requested.all (· ∈ allowed) then
    return .error (failure "permission_denied" "child effects exceed parent grant or DELEGATE is absent")
  let chain ← parent.field "identity_chain"
  if !(← grantsLive E chain.elems) then
    return .error (failure "permission_denied" "ancestor grant expired or was revoked")
  if chain.elems.length ≥ 16 then return .error (failure "invalid_delegation" "maximum delegation depth reached")
  return .ok chain

/-- What `begin` has read from a request by the time it admits it. -/
structure Grant where
  id : Str
  hash : Str
  agent : Str
  op : Str
  effects : List Str
  chain : J
  sessionId : Str
  parentId : Str
  continuationId : Str
  retryOf : Str

def Grant.approval (g : Grant) (created : Int) (taskId : Str) : J := .object [("id", .str g.id), ("state", .str "PENDING"),
  ("request_sha256", .str g.hash), ("agent", .str g.agent), ("operation", .str g.op), ("effects", setJson g.effects),
  ("created_at", .int created), ("task_id", .str taskId)]

/-- The approval record, created as pending when there is none. -/
def requestApproval (E : Env) (g : Grant) (req : J) : M J := do
  let approval ← read .approval g.id
  if !approval.isNull then return approval
  let created ← now E
  let approval := g.approval created (← req.valueStr "task_id" "")
  write .approval g.id approval
  append E (.object [("type", .str "approval.required"), ("request_id", .str g.id), ("effects", setJson g.effects),
    ("agent", .str g.agent)])
  return approval

def approvalGate (E : Env) (g : Grant) (req : J) : M J := do
  let approval ← requestApproval E g req
  if !(← approval.field "request_sha256").same (.str g.hash) then
    return failure "idempotency_conflict" "approval is bound to different parameters"
  let state ← approval.index "state"
  if !state.same (.str "APPROVED") then
    return ← (failure (if state.same (.str "DENIED") then "permission_denied" else "approval_required")
      "owner approval required for exact request").assign "approval" approval
  let expires ← (← approval.field "expires_at").asInt64
  if expires ≤ (← now E) then return failure "grant_expired" "approval expired; create a new request_id for review"
  return .null

def Grant.execution (g : Grant) (started deadline : Int) (taskId : Str) : J := .object [("id", .str g.id),
  ("state", .str "DISPATCHING"), ("request_sha256", .str g.hash), ("agent", .str g.agent), ("operation", .str g.op),
  ("session_id", .str g.sessionId), ("effects", setJson g.effects), ("identity_chain", g.chain),
  ("parent_execution_id", .str g.parentId), ("continuation_id", .str g.continuationId), ("retry_of", .str g.retryOf),
  ("started_at", .int started), ("dispatch_deadline_at", .int deadline), ("task_id", .str taskId)]

def recordExecution (E : Env) (g : Grant) (req : J) : M J := do
  let started ← now E
  let deadline ← now E
  write .execution g.id (g.execution started (deadline + 60) (← req.valueStr "task_id" ""))
  append E (.object [("type", .str "execution.started"), ("execution_id", .str g.id), ("agent", .str g.agent),
    ("session_id", .str g.sessionId), ("request_sha256", .str g.hash), ("effects", setJson g.effects),
    ("identity_chain", g.chain)])
  return .null

/-- The answer to a request whose id already has an execution. -/
def replay (prior : J) (id hash : Str) : Except Exception J := do
  if !(← prior.field "request_sha256").same (.str hash) then
    return failure "idempotency_conflict" "request_id was used with different parameters"
  if prior.contains "result" then return ← prior.index "result"
  (failure "outcome_uncertain"
    "operation is in flight or its outcome is unknown; inspect execution and reconcile, do not resubmit").assign
    "execution_id" (.str id)

/-- The checks that write nothing, in the order of the source: the grant to admit, or the refusal. -/
def review (E : Env) (req : J) (id hash : Str) : M (Except J Grant) := do
  let refusal ← leaseCheck E req
  if !refusal.isNull then return .error refusal
  let continuationId ← req.valueStr "continuation_id" ""
  let refusal ← continuationCheck req continuationId
  if !refusal.isNull then return .error refusal
  let retryOf ← req.valueStr "retry_of" ""
  let refusal ← retryCheck retryOf
  if !refusal.isNull then return .error refusal
  let agent ← req.valueStr "agent" ""
  let refusal ← quarantineCheck agent
  if !refusal.isNull then return .error refusal
  let requested ← effectSet (← req.valueJson "effects" (.arr []))
  let op ← req.valueStr "op" ""
  let requested := implied op requested
  let parentId ← req.valueStr "parent_execution_id" ""
  match ← delegate E parentId requested with
  | .error refusal => return .error refusal
  | .ok chain =>
    let chain ← chain.pushBack (.object [("agent", .str agent), ("execution_id", .str id)])
    let sessionId ← req.valueStr "session_id" ""
    let refusal ← sessionCheck sessionId
    if !refusal.isNull then return .error refusal
    return .ok ⟨id, hash, agent, op, requested, chain, sessionId, parentId, continuationId, retryOf⟩

/-- A request that needs the approval of the owner. -/
def governed (enforce : Bool) (req : J) (g : Grant) : Bool := enforce || req.contains "effects" || !g.parentId.isEmpty

def begin (E : Env) (enforce : Bool) (req : J) : M J := do
  let id ← required req "request_id"
  let hash := E.digest (← (canonical req).dump)
  let prior ← read .execution id
  if !prior.isNull then return ← replay prior id hash
  match ← review E req id hash with
  | .error refusal => return refusal
  | .ok g =>
    let refusal ← if governed enforce req g then approvalGate E g req else pure .null
    if !refusal.isNull then return refusal
    recordExecution E g req

/-! ## `finish` -/

/-- The outcome leaves open whether the agent has acted. -/
def uncertain (error : Str) : Bool :=
  error = "local_network" || error = "malformed_response" || error = "dispatch_exception"

/-- The state an outcome leaves the execution in. -/
def outcomeState (result : J) (error : Str) : Except Exception Str := do
  if uncertain error then return "UNCERTAIN"
  return if ← result.valueBool "ok" false then "DELIVERED" else "FAILED"

/-- `if (result.contains(key)) execution[key] = result[key]`. -/
def copyField (result : J) (key : Str) (execution : J) : J :=
  match result.get? key with
  | some v => execution.set key v
  | none => execution

/-- The execution record with the outcome of its dispatch. -/
def finished (execution result : J) (state error : Str) (time : Int) : Except Exception J := do
  let execution ← execution.assign "state" (.str state)
  let execution := if uncertain error then execution else execution.set "result" result
  let execution := execution.set "finished_at" (.int time)
  return copyField result "context_id" (copyField result "task_id" execution)

def deliverContinuation (E : Env) (continuationId id : Str) : M Unit := do
  let continuation ← read .continuation continuationId
  let continuation ← continuation.assign "state" (.str "DELIVERED")
  let continuation ← continuation.assign "execution_id" (.str id)
  write .continuation continuationId continuation
  append E (.object [("type", .str "continuation.delivered"), ("continuation_id", .str continuationId),
    ("execution_id", .str id)])

/-- The failure count after an outcome, and the flag it raises at three. -/
def recordHealth (agent error : Str) (result : J) : M Unit := do
  let mut h ← health agent
  if uncertain error then
    h ← h.assign "failures" (.int ((← h.valueInt "failures" 0) + 1))
  else if ← result.valueBool "ok" false then
    h ← h.assign "failures" (.int 0)
  if (← h.valueInt "failures" 0) ≥ 3 then
    h ← h.assign "quarantined" (.bool true)
    h ← h.assign "reason" (.str "three consecutive uncertain dispatches")
  write .health agent h

def finish (E : Env) (id : Str) (result : J) : M Unit := do
  let execution ← read .execution id
  let error ← result.valueStr "error_kind" ""
  let state ← outcomeState result error
  let execution ← finished execution result state error (← now E)
  write .execution id execution
  let continuationId ← execution.valueStr "continuation_id" ""
  if !continuationId.isEmpty then
    if ← result.valueBool "ok" false then deliverContinuation E continuationId id
  let agent ← execution.valueStr "agent" ""
  if !agent.isEmpty then recordHealth agent error result
  append E (.object [("type", .str "execution.finished"), ("execution_id", .str id), ("state", .str state),
    ("task_id", ← execution.index "task_id")])

/-! ## The constructor -/

/-- The recovery pass over one execution. -/
def recoverOne (E : Env) (execution : J) : M Unit := do
  if (← execution.valueStr "state" "") = "DISPATCHING" then
    let execution ← execution.assign "state" (.str "UNCERTAIN")
    let execution ← execution.assign "reason"
      (.str "daemon restarted during dispatch; reconcile remote state before any new attempt")
    let id ← execution.field "id"
    write .execution (← id.asStr) execution
    append E (.object [("type", .str "execution.uncertain"), ("execution_id", id)])

def recover (E : Env) : List J → M Unit
  | [] => pure ()
  | execution :: rest => do
    recoverOne E execution
    recover E rest

/-- The constructor on a store it finds. -/
def startup (E : Env) : M Unit := transaction do
  recover E (← list .execution)

/-! ## `handle` -/

/-- How far `handle` gets before the dispatch. -/
inductive Entry where
  /-- answered by the control plane -/
  | reply (result : J)
  /-- given to the dispatch callback as it is -/
  | plain (req : J)
  /-- answered by `begin` -/
  | refused (request result : J)
  /-- to be dispatched under an execution record -/
  | admitted (request : J)

def isQuery (op : Str) : Bool :=
  op = "policy.info" || (listKind op).isSome || op = "execution.get" || op = "session.get" || op = "audit.verify"

/-- The path of the queries, past the mutex and the transactions. -/
def query (E : Env) (enforce : Bool) (op : Str) (req : J) : M J :=
  if isQuery op then readOnly E enforce req else return .null

/-- The request as `begin` sees it: a mutation without a request id gets a fresh one. -/
def withRequestId (E : Env) (req : J) : M J := do
  if req.contains "request_id" then return req
  req.assign "request_id" (.str (← newId E))

/-- `artifact.materialize` checks the type of the digest it is given. -/
def digestOk (request : J) : Except Exception Bool := do
  if (← request.valueStr "op" "") ≠ "artifact.materialize" then return true
  return match request.get? "sha256" with
    | some sha => sha.isString
    | none => true

def enterMutation (E : Env) (enforce : Bool) (req : J) : M Entry := do
  if !req.contains "request_id" && (enforce || req.contains "effects") then
    return .reply (failure "invalid_request" "request_id required for governed mutations")
  let request ← withRequestId E req
  if !(← digestOk request) then return .reply (failure "invalid_request" "sha256 must be a string")
  let result ← transaction (begin E enforce request)
  return if result.isNull then .admitted request else .refused request result

def enter (E : Env) (enforce : Bool) (req : J) : M Entry := do
  if !req.isObject then return .reply (failure "invalid_request" "request must be an object")
  let op ← req.valueStr "op" ""
  let answer ← query E enforce op req
  if !answer.isNull then return .reply answer
  let result ← transaction (control E enforce req)
  if !result.isNull then return .reply result
  if !mutation op then return .plain req
  enterMutation E enforce req

/-- What `handle` does once the callback has returned or thrown. -/
def leave (E : Env) (request : J) (outcome : Except Exception J) : M J := do
  let result := match outcome with
    | .ok result => result
    | .error _ => failure "dispatch_exception" "dispatch raised an exception; reconcile before retrying"
  let id ← request.field "request_id"
  let result ← result.assign "execution_id" id
  transaction (finish E (← id.asStr) result)
  return result

def controlError (e : Exception) : J := failure "control_error" e.what

/-- `handle` on its own, with no other call in between. -/
def handle (E : Env) (enforce : Bool) (dispatch : J → Except Exception J) (req : J) : St → J × St :=
  Tx.caught controlError do
    match ← enter E enforce req with
    | .reply result => return result
    | .plain req => dispatch req
    | .refused _ result => return result
    | .admitted request => leave E request (dispatch request)

end A2ad.Control
