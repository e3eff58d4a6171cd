/-
The operations `control` answers inside one transaction, and the queries `readOnly` answers from
the read-only connection. Each operation touches the records of its own kind only; no operation
touches an execution, and approvals change by `approval.revoke` and `approval.decide` alone.
-/
import A2ad.Control.Store

namespace A2ad.Control

open Bytes Json

/-! ## Requests -/

def required (j : J) (key : Str) : Except Exception Str := do
  let value ← j.valueStr key ""
  if value.isEmpty || value.length > 256 then throw ⟨key ++ " must contain 1..256 bytes"⟩
  return value

def failure (kind error : Str) : J := .object [("ok", .bool false), ("error_kind", .str kind), ("error", .str error)]

/-- The known effects, in the order of the set. -/
def effects : List Str :=
  ["CREATE_IDENTITY", "DELEGATE", "EXECUTE_REMOTE", "PUBLISH", "READ_REMOTE", "SEND_MESSAGE", "STORE_EXTERNAL",
    "WRITE_REMOTE"]

/-- `std::set::insert` on the sorted elements of a set. -/
def insertEffect (name : Str) (set : List Str) : List Str :=
  if name ∈ set then set else set.orderedInsert (· ≤ ·) name

/-- The body of the loop of `effectSet`. -/
def addEffect (out : List Str) (e : J) : Except Exception (List Str) := do
  let name ← e.asStr
  if name ∈ effects then return insertEffect name out else throw ⟨"unknown effect: " ++ name⟩

def effectSet : J → Except Exception (List Str)
  | .arr xs => xs.foldlM addEffect []
  | _ => throw ⟨"effects must be an array"⟩

def setJson (set : List Str) : J := .arr (set.map .str)

def mutation (op : Str) : Bool :=
  op = "submit" || op = "respond" || op = "cancel" || op = "stream_submit" || op = "push.create" ||
    op = "push.delete" || op = "artifact.materialize"

def canonical (request : J) : J := request.erase "request_id"

@[simp] theorem mem_insertEffect {name x : Str} {set : List Str} : x ∈ insertEffect name set ↔ x = name ∨ x ∈ set := by
  unfold insertEffect
  split
  · rename_i h
    exact ⟨.inr, fun hx => hx.elim (fun e => e ▸ h) id⟩
  · exact List.mem_orderedInsert _

/-! ## Queries -/

def policyInfo (enforce : Bool) : J := .object [("ok", .bool true), ("enforce", .bool enforce), ("effects", setJson effects),
  ("authority", .str "local socket owner; worker isolation must exclude this socket and database")]

/-- `op.substr(0, op.find('.'))` of a list operation. -/
def listKind (op : Str) : Option Kind :=
  if op = "execution.list" then some .execution
  else if op = "session.list" then some .session
  else if op = "approval.list" then some .approval
  else if op = "provenance.list" then some .provenance
  else if op = "continuation.list" then some .continuation
  else none

/-- The filters of `execution.list`: an execution passes when its field is the one asked for. -/
def passes (req : J) (key : Str) (item : J) : Except Exception Bool := do
  if req.contains key then return decide ((← item.valueStr key "") = (← (← req.field key).asStr))
  return true

def filtered (req : J) (item : J) : Except Exception Bool := do
  if !(← passes req "session_id" item) then return false
  passes req "task_id" item

/-- The loop over the items, keeping those that pass. -/
def keepItems (keep : J → Except Exception Bool) : List J → Except Exception (List J)
  | [] => .ok []
  | item :: rest => do
    if ← keep item then return item :: (← keepItems keep rest)
    keepItems keep rest

def listAll (req : J) (kind : Kind) : M J := do
  let mut items ← list kind
  if kind = .execution then items ← keepItems (filtered req) items
  return .object [("ok", .bool true), ("items", .arr items)]

/-- `execution.get` and `session.get`. -/
def getRecord (req : J) (kind : Kind) : M J := do
  let item ← read kind (← required req "id")
  if item.isNull then return failure "not_found" "record not found"
  return .object [("ok", .bool true), ("record", item)]

/-- `COALESCE(json_extract(value, '$.key'), '') = ?`. -/
def extracts (value : J) (key text : Str) : Bool :=
  match (value.get? key).getD .null with
  | .null => text = []
  | .str s => s = text
  | .arr xs => (J.arr xs).text = text
  | .obj fields => (J.obj fields).text = text
  | _ => false

/-- The loop over the rows of one page: the items, the last id taken, whether a row was left. -/
def page (keep : J → Except Exception Bool) (limit : Nat) : List (Str × J) → List J → Str →
    Except Exception (List J × Str × Bool)
  | [], items, next => .ok (items, next, false)
  | (id, item) :: rest, items, next => do
    if items.length = limit then return (items, next, true)
    if ← keep item then page keep limit rest (items ++ [item]) (cText id)
    else page keep limit rest items next

def pageOk (req : J) : Except Exception Bool := do
  if req.contains "after" then
    if !(← req.field "after").isString then return false
  if !req.contains "limit" then return true
  let limit ← req.field "limit"
  if !limit.isNumberInteger then return false
  return 1 ≤ (← limit.asInt) && (← limit.asInt) ≤ 500

def listPage (req : J) (kind : Kind) : M J := do
  if !(← pageOk req) then return failure "invalid_request" "after must be a string and limit must be 1..500"
  let after ← req.valueStr "after" ""
  let limit := (← req.valueInt "limit" 100).toNat
  let mut rows := ((← snapshot).rows kind).filter fun row => after < row.1
  if req.contains "session_id" then
    let text ← (← req.field "session_id").asStr
    rows := rows.filter fun row => extracts row.2 "session_id" text
  if req.contains "task_id" then
    let text ← (← req.field "task_id").asStr
    rows := rows.filter fun row => extracts row.2 "task_id" text
  -- a row beyond the limit tells that there is a next page
  let (items, next, more) ← page (if kind = .execution then filtered req else fun _ => .ok true) limit
    (rows.take (limit + 1)) [] ""
  let result := J.object [("ok", .bool true), ("items", .arr items)]
  return if more then result.set "next_cursor" (.str next) else result

/-- The loop of `audit.verify`: the hash after the last row, or `none` at the first mismatch. -/
def verifyFrom (E : Env) : Str → List Event → Option Str
  | previous, [] => some previous
  | previous, e :: rest =>
    if previous = cText e.previousHash ∧
        E.digest (previous ++ "\n" ++ intText e.time ++ "\n" ++ cText e.value.text) = cText e.hash then
      verifyFrom E (cText e.hash) rest
    else none

def auditVerify (E : Env) : M J := do
  let db ← snapshot
  match verifyFrom E "" db.events with
  | none => return failure "integrity_failure" "audit chain mismatch"
  | some head => return .object [("ok", .bool true), ("count", .int db.events.length), ("head_sha256", .str head)]

def readOnly (E : Env) (enforce : Bool) (req : J) : M J := do
  let op ← req.valueStr "op" ""
  if op = "policy.info" then return policyInfo enforce
  if let some kind := listKind op then
    if req.contains "limit" || req.contains "after" then return ← listPage req kind
    return ← listAll req kind
  if op = "execution.get" then return ← getRecord req .execution
  if op = "session.get" then return ← getRecord req .session
  if op = "audit.verify" then return ← auditVerify E
  return .null

/-! ## Continuations and sessions -/

def continuationCreate (E : Env) (req : J) : M J := do
  let task ← required req "task_id"
  let kind ← required req "kind"
  if kind ≠ "INPUT_REQUIRED" ∧ kind ≠ "APPROVAL" ∧ kind ≠ "RETRY" ∧ kind ≠ "HANDOFF" then
    return failure "invalid_request" "kind must be INPUT_REQUIRED, APPROVAL, RETRY, or HANDOFF"
  let id ← newId E
  let reason ← req.valueStr "reason" ""
  let continuation := J.object [("id", .str id), ("task_id", .str task), ("kind", .str kind), ("state", .str "PENDING"),
    ("reason", .str reason), ("created_at", .int (← now E))]
  write .continuation id continuation
  append E (.object [("type", .str "continuation.required"), ("continuation_id", .str id), ("task_id", .str task),
    ("kind", .str kind)])
  return .object [("ok", .bool true), ("continuation", continuation)]

def sessionCreate (E : Env) (req : J) : M J := do
  let id ← if req.contains "id" then liftM (required req "id") else newId E
  if !(← read .session id).isNull then return failure "conflict" "session already exists"
  let created ← now E
  let session := J.object [("id", .str id), ("created_at", .int created), ("label", .str (← req.valueStr "label" ""))]
  write .session id session
  append E (.object [("type", .str "session.created"), ("session_id", .str id)])
  return .object [("ok", .bool true), ("session", session)]

/-! ## Leases -/

/-- The lease has run out: `lease.value("expires_at", 0) <= now()`. -/
def lapsed (E : Env) (grant : J) : M Bool := do
  let expires ← grant.valueInt64 "expires_at" 0
  return expires ≤ (← now E)

def leaseFence (lease : J) : Except Exception Int := do
  if lease.isNull then return 1
  return (← (← lease.field "fence").asInt64) + 1

/-- The new lease of `lease.acquire`, or `null` when a live one is in its way. -/
def leaseTake (E : Env) (resource owner : Str) (lease : J) (ttl : Int) : M J := do
  if !lease.isNull then
    if !(← lapsed E lease) then return .null
  let fence ← leaseFence lease
  let token ← newId E
  return .object [("resource", .str resource), ("owner", .str owner), ("token", .str token), ("fence", .int fence),
    ("expires_at", .int ((← now E) + ttl))]

/-- The lease is live and held by this owner under this token. -/
def leaseHeld (E : Env) (req : J) (owner : Str) (lease : J) : M Bool := do
  if lease.isNull then return false
  if ← lapsed E lease then return false
  if !(← lease.field "owner").same (.str owner) then return false
  let token ← lease.field "token"
  return token.same (.str (← required req "token"))

/-- `lease.acquire`, `lease.renew` and `lease.release`. -/
def leaseOp (E : Env) (op : Str) (req : J) : M J := do
  let resource ← required req "resource"
  let owner ← required req "owner"
  let mut lease ← read .lease resource
  let ttl ← req.valueInt "ttl_seconds" 60
  if ttl < 1 || ttl > 3600 then return failure "invalid_request" "ttl_seconds must be 1..3600"
  if op = "lease.acquire" then
    lease ← leaseTake E resource owner lease ttl
    if lease.isNull then return failure "lease_busy" "resource already has a live lease"
  else
    if !(← leaseHeld E req owner lease) then return failure "lease_lost" "lease expired or owner/token mismatch"
    let t ← now E
    lease ← lease.assign "expires_at" (.int (if op = "lease.release" then t else t + ttl))
  write .lease resource lease
  append E (.object [("type", .str op), ("resource", .str resource), ("owner", .str owner), ("fence", ← lease.index "fence")])
  return .object [("ok", .bool true), ("lease", lease)]

/-! ## Approvals -/

def approvalRevoke (E : Env) (req : J) : M J := do
  let id ← required req "id"
  let approval ← read .approval id
  if approval.isNull then return failure "not_found" "approval not found"
  let approval ← approval.assign "state" (.str "REVOKED")
  write .approval id approval
  append E (.object [("type", .str "approval.revoke"), ("request_id", .str id)])
  return .object [("ok", .bool true), ("approval", approval)]

def approvalDecide (E : Env) (req : J) : M J := do
  let id ← required req "id"
  let approval ← read .approval id
  if approval.isNull then return failure "not_found" "approval not found"
  if !(← approval.index "state").same (.str "PENDING") then return failure "conflict" "approval already decided"
  let allow := (req.get? "allow").getD .null
  if !allow.isBoolean then return failure "invalid_request" "allow must be boolean"
  let state : Str := if ← allow.asBool then "APPROVED" else "DENIED"
  let approval ← approval.assign "state" (.str state)
  let ttl ← req.valueInt "ttl_seconds" 300
  if ttl < 1 || ttl > 3600 then return failure "invalid_request" "ttl_seconds must be 1..3600"
  let expires := (← now E) + ttl
  let approval ← approval.assign "expires_at" (.int expires)
  let approval ← approval.assign "reason" (.str (← req.valueStr "reason" ""))
  write .approval id approval
  append E (.object [("type", .str "approval.decided"), ("request_id", .str id), ("state", .str state),
    ("expires_at", .int expires)])
  return .object [("ok", .bool true), ("approval", approval)]

/-! ## Agents, provenance -/

/-- `ControlPlane::health`. -/
def health (agent : Str) : M J := do
  let h ← read .health agent
  return if h.isNull then .object [("agent", .str agent), ("failures", .int 0), ("quarantined", .bool false)] else h

/-- `agent.health`, `agent.quarantine` and `agent.release`. -/
def agentOp (E : Env) (op : Str) (req : J) : M J := do
  let agent ← required req "agent"
  let mut h ← health agent
  if op ≠ "agent.health" then
    h ← h.assign "quarantined" (.bool (op = "agent.quarantine"))
    let reason ← req.valueStr "reason" "owner decision"
    h ← h.assign "reason" (.str reason)
    if op = "agent.release" then h ← h.assign "failures" (.int 0)
    write .health agent h
    append E (.object [("type", .str op), ("agent", .str agent), ("reason", .str reason)])
  return .object [("ok", .bool true), ("health", h)]

def isHex (c : UInt8) : Bool := isDigit c || (97 ≤ c && c ≤ 102)

def provenanceRecord (E : Env) (req : J) : M J := do
  let agent ← required req "agent"
  let sha ← required req "sha256"
  if sha.length ≠ 64 || !sha.all isHex then
    return failure "invalid_request" "sha256 must be 64 lowercase hexadecimal characters"
  let source ← required req "source"
  let version ← req.valueStr "version" ""
  let sbom ← req.valueStr "sbom_uri" ""
  let record := J.object [("agent", .str agent), ("sha256", .str sha), ("source", .str source), ("version", .str version),
    ("sbom_uri", .str sbom), ("recorded_at", .int (← now E)),
    ("trust", .str "owner-supplied inventory; not remote attestation")]
  write .provenance agent record
  append E (.object [("type", .str "provenance.record"), ("agent", .str agent), ("sha256", .str sha)])
  return .object [("ok", .bool true), ("record", record)]

/-! ## Channels -/

def channelOpen (req : J) : M J := do
  let id ← required req "id"
  let c ← read .channel id
  if !c.isNull then return .object [("ok", .bool true), ("channel", c)]
  let after ← req.valueInt64 "after" 0
  if after < 0 then return failure "invalid_request" "after must be nonnegative"
  let c := J.object [("id", .str id), ("cursor", .int after), ("delivered", .int after)]
  write .channel id c
  return .object [("ok", .bool true), ("channel", c)]

def eventRow (row : Event × Nat) : J := .object [("sequence", .int row.2), ("time", .int row.1.time),
  ("event", row.1.value), ("previous_hash", .str (cText row.1.previousHash)), ("hash", .str (cText row.1.hash))]

/-- `WHERE sequence > after ORDER BY sequence LIMIT limit`; sequences count from 1. -/
def eventsAfter (db : Db) (after : Int) (limit : Nat) : List (Event × Nat) :=
  ((db.events.zipIdx 1).filter fun row => after < row.2).take limit

/-- `channel.read` and `events.read`. -/
def eventsRead (op : Str) (req : J) : M J := do
  let mut after ← req.valueInt64 "after" 0
  let mut channel := J.null
  if op = "channel.read" then
    channel ← read .channel (← required req "id")
    if channel.isNull then return failure "not_found" "open channel first"
    after ← (← channel.field "cursor").asInt64
  let limit ← req.valueInt "limit" 100
  if after < 0 || limit < 1 || limit > 500 then
    return failure "invalid_request" "after >= 0 and limit 1..500 required"
  let rows := eventsAfter (← snapshot) after limit.toNat
  let next := (rows.getLast?.map fun row => (row.2 : Int)).getD after
  if !channel.isNull then
    let delivered ← (← channel.field "delivered").asInt64
    channel ← channel.assign "delivered" (.int (max delivered next))
    write .channel (← (← channel.field "id").asStr) channel
  return .object [("ok", .bool true), ("events", .arr (rows.map eventRow)), ("next_cursor", .int next),
    ("may_have_more", .bool (rows.length = limit.toNat))]

def channelAck (req : J) : M J := do
  let id ← required req "id"
  let c ← read .channel id
  if c.isNull then return failure "not_found" "channel not found"
  let cursor ← (← req.field "cursor").asInt64
  let beyond := failure "invalid_cursor" "ack must be monotonic and cannot exceed delivered cursor"
  if cursor < (← (← c.field "cursor").asInt64) then return beyond
  if cursor > (← (← c.field "delivered").asInt64) then return beyond
  let c ← c.assign "cursor" (.int cursor)
  write .channel id c
  return .object [("ok", .bool true), ("channel", c)]

/-! ## `control` -/

/-- The answer of the operation `op`, or `null` when it is none of the control plane's. -/
def control (E : Env) (enforce : Bool) (req : J) : M J := do
  let op ← req.valueStr "op" ""
  if op = "policy.info" then return policyInfo enforce
  if let some kind := listKind op then return ← listAll req kind
  if op = "execution.get" then return ← getRecord req .execution
  if op = "session.get" then return ← getRecord req .session
  if op = "continuation.create" then return ← continuationCreate E req
  if op = "session.create" then return ← sessionCreate E req
  if op = "lease.acquire" || op = "lease.renew" || op = "lease.release" then return ← leaseOp E op req
  if op = "approval.revoke" then return ← approvalRevoke E req
  if op = "approval.decide" then return ← approvalDecide E req
  if op = "agent.health" || op = "agent.quarantine" || op = "agent.release" then return ← agentOp E op req
  if op = "provenance.record" then return ← provenanceRecord E req
  if op = "channel.open" then return ← channelOpen req
  if op = "channel.read" || op = "events.read" then return ← eventsRead op req
  if op = "channel.ack" then return ← channelAck req
  if op = "audit.verify" then return ← auditVerify E
  return .null

/-! ## Frames -/

section Frames

variable {K : List Kind} {E : Env} {op : Str} {req : J}

set_option synthInstance.maxSize 2000

instance {kind : Kind} : Quiet (listAll req kind) := by
  unfold listAll
  infer_instance

instance {kind : Kind} : Quiet (listPage req kind) := by
  unfold listPage
  infer_instance

instance {kind : Kind} : Quiet (getRecord req kind) := by
  unfold getRecord
  infer_instance

instance : Quiet (auditVerify E) := by
  unfold auditVerify
  refine Tx.keeps_bind (k := fun db => ?_)
  split <;> infer_instance

instance {enforce : Bool} : Quiet (readOnly E enforce req) := by
  unfold readOnly
  refine Tx.keeps_bind (k := fun op => Tx.keeps_ite (k := ?_))
  split <;> infer_instance

instance {lease : J} : Quiet (lapsed E lease) := by
  unfold lapsed
  infer_instance

instance {resource owner : Str} {lease : J} {ttl : Int} : Quiet (leaseTake E resource owner lease ttl) := by
  unfold leaseTake
  infer_instance

instance {owner : Str} {lease : J} : Quiet (leaseHeld E req owner lease) := by
  unfold leaseHeld
  infer_instance

instance {agent : Str} : Quiet (health agent) := by
  unfold health
  infer_instance

instance {kind : Kind} : Touches K (listAll req kind) := Quiet.touches inferInstance

instance {kind : Kind} : Touches K (getRecord req kind) := Quiet.touches inferInstance

instance : Touches K (auditVerify E) := Quiet.touches inferInstance

instance {resource owner : Str} {lease : J} {ttl : Int} : Touches K (leaseTake E resource owner lease ttl) :=
  Quiet.touches inferInstance

instance {owner : Str} {lease : J} : Touches K (leaseHeld E req owner lease) := Quiet.touches inferInstance

instance {agent : Str} : Touches K (health agent) := Quiet.touches inferInstance

instance [Allows K .continuation] : Touches K (continuationCreate E req) := by
  unfold continuationCreate
  infer_instance

instance [Allows K .session] : Touches K (sessionCreate E req) := by
  unfold sessionCreate
  infer_instance

instance [Allows K .lease] : Touches K (leaseOp E op req) := by
  unfold leaseOp
  infer_instance

instance [Allows K .approval] : Touches K (approvalRevoke E req) := by
  unfold approvalRevoke
  infer_instance

instance [Allows K .approval] : Touches K (approvalDecide E req) := by
  unfold approvalDecide
  infer_instance

instance [Allows K .health] : Touches K (agentOp E op req) := by
  unfold agentOp
  infer_instance

instance [Allows K .provenance] : Touches K (provenanceRecord E req) := by
  unfold provenanceRecord
  infer_instance

instance [Allows K .channel] : Touches K (channelOpen req) := by
  unfold channelOpen
  infer_instance

instance [Allows K .channel] : Touches K (eventsRead op req) := by
  unfold eventsRead
  infer_instance

instance [Allows K .channel] : Touches K (channelAck req) := by
  unfold channelAck
  infer_instance

end Frames

end A2ad.Control
