/-
Classification of the response to a call: what is refused and with which kind of error, and what an
accepted result is taken for. A result is a list of tasks, a task, a message, or, for the
operations that return neither, any other value.
-/
import A2ad.Client.Decode
import A2ad.Client.Wire
import Mathlib.Data.List.ReduceOption

namespace A2ad.Client

open Bytes Json

/-! ## Results -/

inductive ErrorKind where
  | none
  | localNetwork
  | authRequired
  | protocolError
  | taskFailure
  | malformedResponse
deriving DecidableEq, Repr

def ErrorKind.name : ErrorKind → Str
  | .none => ""
  | .localNetwork => "local_network"
  | .authRequired => "auth_required"
  | .protocolError => "protocol_error"
  | .taskFailure => "task_failure"
  | .malformedResponse => "malformed_response"

structure A2AResult where
  ok : Bool := false
  task : Option Task := none
  tasks : List Task := []
  messageText : Str := []
  contextId : Str := []
  message : Option Message := none
  nextPageToken : Str := []
  pageSize : Int := 0
  totalSize : Int := 0
  value : J := .null
  errorKind : ErrorKind := .none
  error : Str := []
  httpStatus : Int := 0
  protocolCode : Int := 0
  errorDetails : J := .null
deriving DecidableEq

/-! ## Screening -/

/-- The JSON-RPC response a body stands for. Over HTTP+JSON and gRPC the body is the result itself,
which the client wraps; an empty body is an empty object there. -/
def responseBody (parse : Str → Option J) (protocol : Protocol) (body : Str) : Option J :=
  let wrap (result : J) : J := .object [("jsonrpc", .str "2.0"), ("result", result)]
  match protocol with
  | .rpc => parse body
  | _ => if body.isEmpty then some (wrap (.obj [])) else (parse body).map wrap

/-- Over JSON-RPC the body has to be a JSON-RPC 2.0 response to the request `id`; reading a value
that is no object throws. -/
def answers (protocol : Protocol) (j : J) (id : Str) : Except Exception Bool := do
  if protocol ≠ .rpc then return true
  let version ← j.valueStr "jsonrpc" ""
  return decide (version = lit "2.0") && j.contains "id" && ((j.get? "id").getD .null).same (.str id)

def errorResult (e : J) (status : Int) : Except Exception A2AResult := do
  let code ← e.valueInt "code" 0
  let message ← e.valueStr "message" "unknown"
  return {
    httpStatus := status, errorKind := .protocolError, protocolCode := code
    errorDetails := (e.get? "data").getD .null
    error := lit "A2A error " ++ intText code ++ lit ": " ++ message }

/-- The envelope of a parsed response: its result, or the failure it reports. -/
def screenBody (protocol : Protocol) (id : Str) (status : Int) (j : J) : Except Exception (A2AResult ⊕ J) := do
  if !(← answers protocol j id) then
    return .inl {
      httpStatus := status, errorKind := .malformedResponse
      error := "A2A JSON-RPC response has an invalid version or mismatched id" }
  -- an error that is no object is passed over
  match j.get? "error" with
  | some (.obj fields) => return .inl (← errorResult (.obj fields) status)
  | _ =>
    match j.get? "result" with
    | none => return .inl {
        httpStatus := status, errorKind := .malformedResponse, error := "A2A response missing 'result'" }
    | some result => return .inr result

/-- Everything that can be wrong with a response before its result is looked at. -/
def screen (parse : Str → Option J) (protocol : Protocol) (endpoint id : Str) (r : HttpResponse) :
    Except Exception (A2AResult ⊕ J) :=
  if r.responseTooLarge then
    .ok (.inl { errorKind := .malformedResponse, error := "A2A response exceeds the 64 MiB limit" })
  else if r.transportError then
    .ok (.inl {
      errorKind := .localNetwork
      error := lit "connection to " ++ endpoint ++ lit " failed: " ++ r.transportErrorDetail })
  else if r.status = 401 ∨ r.status = 403 then
    .ok (.inl {
      httpStatus := r.status, errorKind := .authRequired
      error := lit "authentication failed (HTTP " ++ intText r.status ++ lit ") from " ++ endpoint })
  else if !r.success then
    .ok (.inl {
      httpStatus := r.status, errorKind := .protocolError
      error := lit "A2A server returned HTTP " ++ intText r.status ++ lit " from " ++ endpoint })
  else
    match responseBody parse protocol r.body with
    | none => .ok (.inl {
        httpStatus := r.status, errorKind := .malformedResponse
        error := lit "could not parse A2A JSON-RPC response from " ++ endpoint })
    | some j => screenBody protocol id r.status j

/-! ## Results by shape -/

/-- The list of tasks a result is or carries, whatever the method. -/
def taskList (result : J) : Option (List J) :=
  match result with
  | .arr items => some items
  | result =>
    match result.get? "tasks" with
    | some (.arr items) => some items
    | _ => none

/-- A message object has an id, a role and parts. -/
def looksLikeMessage (j : J) : Bool := isStringAt j "messageId" && isStringAt j "role" && isArrayAt j "parts"

def looksLikeTask (j : J) : Bool := isStringAt j "id" && isObjectAt j "status"

inductive Payload where
  | tasks (items : List J)
  | task (j : J)
  | message (j : J)
  | other

/-- What a result is taken for: a task list first, then a wrapped task or message, then a bare one. -/
def payload (result : J) : Payload :=
  match taskList result with
  | some items => .tasks items
  | none =>
    if isObjectAt result "task" then .task ((result.get? "task").getD .null)
    else if isObjectAt result "message" then .message ((result.get? "message").getD .null)
    else if looksLikeTask result then .task result
    else if looksLikeMessage result then .message result
    else .other

/-- The operations whose result is neither a task nor a message. -/
def Method.returnsValue : Method → Bool
  | .createPushConfig | .getPushConfig | .listPushConfigs | .deletePushConfig | .extendedCard => true
  | _ => false

/-- The fields that say which page of a list this is. -/
def pageFields (result : J) : Except Exception (Str × Int × Int) := do
  if !result.isObject then return ([], 0, 0)
  let token ← result.valueStr "nextPageToken" ""
  let size ← result.valueInt "pageSize" 0
  let total ← result.valueInt "totalSize" 0
  return (token, size, total)

/-- A failed or rejected task is a valid result that also carries an error. -/
def taskOutcome (out : A2AResult) (task : Task) : A2AResult :=
  let out := { out with ok := true, task := some task, contextId := task.context }
  if task.state = .failed ∨ task.state = .rejected then
    { out with errorKind := .taskFailure, error := lit "remote task ended in " ++ task.state.name }
  else out

def classifyResult (method : Method) (status : Int) (result : J) : Except Exception A2AResult := do
  let out : A2AResult := { httpStatus := status, value := result }
  match payload result with
  | .tasks items =>
    -- items without an id are left out
    let tasks ← items.mapM parseTask
    let (token, size, total) ← pageFields result
    return { out with ok := true, tasks := tasks.reduceOption, nextPageToken := token, pageSize := size, totalSize := total }
  | .task j =>
    match ← parseTask j with
    | none => return { out with errorKind := .malformedResponse, error := "malformed task in A2A result" }
    | some task => return taskOutcome out task
  | .message j =>
    if !looksLikeMessage j then
      return { out with errorKind := .malformedResponse, error := "malformed message in A2A result" }
    let m ← parseMessage j
    return { out with ok := true, messageText := m.text, contextId := m.contextId, message := some m }
  | .other =>
    if method.returnsValue then return { out with ok := true }
    return { out with errorKind := .malformedResponse, error := "A2A result is neither a Task nor a Message" }

/-- The result `rpcCall` makes of the response to a call. -/
def classify (parse : Str → Option J) (protocol : Protocol) (endpoint id : Str) (method : Method) (r : HttpResponse) :
    Except Exception A2AResult := do
  match ← screen parse protocol endpoint id r with
  | .inl failure => return failure
  | .inr result => classifyResult method r.status result

/-! ## Accepted results -/

theorem screenBody_refusal {protocol : Protocol} {id : Str} {status : Int} {j : J} {out : A2AResult}
    (h : screenBody protocol id status j = .ok (.inl out)) : out.ok = false := by
  unfold screenBody at h
  obtain ⟨answered, -, h⟩ := Tx.except_bind_ok h
  split at h
  · cases h; rfl
  · split at h
    · obtain ⟨e, he, h⟩ := Tx.except_bind_ok h
      cases h
      unfold errorResult at he
      obtain ⟨code, -, he⟩ := Tx.except_bind_ok he
      obtain ⟨message, -, he⟩ := Tx.except_bind_ok he
      cases he; rfl
    · split at h <;> cases h
      rfl

/-- A response that is refused gives a failed result. -/
theorem screen_refusal {parse : Str → Option J} {protocol : Protocol} {endpoint id : Str} {r : HttpResponse}
    {out : A2AResult} (h : screen parse protocol endpoint id r = .ok (.inl out)) : out.ok = false := by
  unfold screen at h
  repeat' split at h
  iterate 5 (cases h; rfl)
  exact screenBody_refusal h

/-- What an accepted result was taken for, and what it holds. -/
inductive Accepted (method : Method) (out : A2AResult) : Prop
  | tasks (items : List J) : payload out.value = .tasks items → out.task = none → out.message = none →
    Accepted method out
  | task (j : J) (t : Task) : payload out.value = .task j → parseTask j = .ok (some t) → out.task = some t →
    out.message = none → Accepted method out
  | message (j : J) (m : Message) : payload out.value = .message j → looksLikeMessage j = true →
    parseMessage j = .ok m → out.task = none → out.message = some m → Accepted method out
  | other : payload out.value = .other → method.returnsValue = true → out.task = none → out.message = none →
    Accepted method out

theorem classifyResult_accepted {method : Method} {status : Int} {result : J} {out : A2AResult}
    (h : classifyResult method status result = .ok out) (hok : out.ok = true) :
    out.value = result ∧ Accepted method out := by
  unfold classifyResult at h
  simp only at h
  split at h
  · rename_i items hpayload
    obtain ⟨tasks, -, h⟩ := Tx.except_bind_ok h
    obtain ⟨⟨token, size, total⟩, -, h⟩ := Tx.except_bind_ok h
    cases h
    exact ⟨rfl, .tasks items hpayload rfl rfl⟩
  · rename_i j hpayload
    obtain ⟨task, htask, h⟩ := Tx.except_bind_ok h
    split at h
    · cases h
      cases hok
    · rename_i t
      cases h
      unfold taskOutcome
      split
      · exact ⟨rfl, .task j t hpayload htask rfl rfl⟩
      · exact ⟨rfl, .task j t hpayload htask rfl rfl⟩
  · rename_i j hpayload
    split at h
    · cases h
      cases hok
    · rename_i hlooks
      obtain ⟨m, hm, h⟩ := Tx.except_bind_ok h
      cases h
      exact ⟨rfl, .message j m hpayload (by simpa using hlooks) hm rfl rfl⟩
  · rename_i hpayload
    split at h
    · rename_i hvalue
      cases h
      exact ⟨rfl, .other hpayload hvalue rfl rfl⟩
    · cases h
      cases hok

theorem classify_accepted {parse : Str → Option J} {protocol : Protocol} {endpoint id : Str} {method : Method}
    {r : HttpResponse} {out : A2AResult} (h : classify parse protocol endpoint id method r = .ok out) (hok : out.ok = true) :
    screen parse protocol endpoint id r = .ok (.inr out.value) ∧ Accepted method out := by
  unfold classify at h
  obtain ⟨screened, hscreen, h⟩ := Tx.except_bind_ok h
  cases screened with
  | inl failure =>
    cases h
    rw [screen_refusal hscreen] at hok
    cases hok
  | inr result =>
    obtain ⟨hvalue, haccepted⟩ := classifyResult_accepted h hok
    rw [hvalue]
    exact ⟨hscreen, haccepted⟩

theorem classifyResult_value {method : Method} {status : Int} {result : J} {out : A2AResult}
    (h : classifyResult method status result = .ok out) : out.value = result := by
  unfold classifyResult at h
  simp only at h
  split at h
  · obtain ⟨tasks, -, h⟩ := Tx.except_bind_ok h
    obtain ⟨page, -, h⟩ := Tx.except_bind_ok h
    cases h
    rfl
  · obtain ⟨task, -, h⟩ := Tx.except_bind_ok h
    split at h
    · cases h
      rfl
    · cases h
      unfold taskOutcome
      split <;> rfl
  · split at h
    · cases h
      rfl
    · obtain ⟨m, -, h⟩ := Tx.except_bind_ok h
      cases h
      rfl
  · split at h
    · cases h
      rfl
    · cases h
      rfl

/-- A result that is a list is accepted whatever the method, with neither a task nor a message. -/
theorem classifyResult_list {method : Method} {status : Int} {result : J} {out : A2AResult}
    (h : classifyResult method status result = .ok out) (hlist : taskList result ≠ none) :
    out.ok = true ∧ out.task = none ∧ out.message = none := by
  obtain ⟨items, hitems⟩ := Option.ne_none_iff_exists'.1 hlist
  have hpayload : payload result = .tasks items := by
    unfold payload
    rw [hitems]
  unfold classifyResult at h
  simp only [hpayload] at h
  obtain ⟨tasks, -, h⟩ := Tx.except_bind_ok h
  obtain ⟨⟨token, size, total⟩, -, h⟩ := Tx.except_bind_ok h
  cases h
  exact ⟨rfl, rfl, rfl⟩

section Valid

open Utf8

theorem taskList_of_payload {result : J} {items : List J} (h : payload result = .tasks items) :
    taskList result = some items := by
  unfold payload at h
  split at h
  · rename_i found hlist
    cases h
    exact hlist
  · repeat' split at h
    all_goals cases h

theorem utf8_taskList {result : J} {items : List J} (hr : result.utf8 = true) (h : taskList result = some items) :
    ∀ item ∈ items, item.utf8 = true := by
  unfold taskList at h
  split at h
  · cases h
    exact J.utf8_arr.1 hr
  · split at h
    · rename_i hget
      cases h
      exact J.utf8_arr.1 (J.utf8_get? hr hget)
    · cases h

/-- The tasks a result lists are well formed and untitled where the result is well-formed UTF-8. -/
theorem classifyResult_valid {method : Method} {status : Int} {result : J} {out : A2AResult} (hr : result.utf8 = true)
    (h : classifyResult method status result = .ok out) :
    valid out.nextPageToken = true ∧ ∀ t ∈ out.tasks, t.Valid ∧ t.title = [] := by
  unfold classifyResult at h
  simp only at h
  split at h
  · rename_i items hpayload
    obtain ⟨tasks, htasks, h⟩ := Tx.except_bind_ok h
    obtain ⟨⟨token, size, total⟩, hpage, h⟩ := Tx.except_bind_ok h
    cases h
    constructor
    · unfold pageFields at hpage
      split at hpage
      · cases hpage
        rfl
      · obtain ⟨token', htoken, hpage⟩ := Tx.except_bind_ok hpage
        obtain ⟨_, -, hpage⟩ := Tx.except_bind_ok hpage
        obtain ⟨_, -, hpage⟩ := Tx.except_bind_ok hpage
        cases hpage
        exact valid_valueStr hr (by decide) htoken
    · intro t ht
      obtain ⟨item, hitem, hparse⟩ := Tx.except_mapM_ok htasks (some t) (List.reduceOption_mem_iff.1 ht)
      exact parseTask_valid (utf8_taskList hr (taskList_of_payload hpayload) item hitem) hparse
  · rename_i j hpayload
    obtain ⟨task, -, h⟩ := Tx.except_bind_ok h
    split at h <;> cases h
    · exact ⟨rfl, by simp⟩
    · unfold taskOutcome
      split
      · exact ⟨rfl, by simp⟩
      · exact ⟨rfl, by simp⟩
  · split at h
    · cases h
      exact ⟨rfl, by simp⟩
    · obtain ⟨m, -, h⟩ := Tx.except_bind_ok h
      cases h
      exact ⟨rfl, by simp⟩
  · split at h <;> cases h
    · exact ⟨rfl, by simp⟩
    · exact ⟨rfl, by simp⟩

end Valid

end A2ad.Client
