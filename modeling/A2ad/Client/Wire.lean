/-
The wire form of A2A calls: the binding of an interface, credentials, and the HTTP request a call
becomes over JSON-RPC and over HTTP+JSON.
-/
import A2ad.Task.Record
import A2ad.Lib.JsonText
import A2ad.Lib.Url

namespace A2ad.Client

open Bytes Json

/-! ## Requests and responses -/

structure AuthSpec where
  active : Bool := false
  headerName : Str := []
  headerValue : Str := []
  extraHeaders : List (Str × Str) := []
  queryName : Str := []
  queryValue : Str := []
  extraQuery : List (Str × Str) := []
  cookieValue : Str := []
  clientCertFile : Str := []
  clientKeyFile : Str := []
  scheme : Str := []
deriving DecidableEq

structure HttpRequest where
  endpoint : Str
  verb : Str
  path : Str := []
  body : Str := []
  headers : List (Str × Str) := []
deriving DecidableEq

structure HttpResponse where
  status : Int := 0
  body : Str := []
  transportError : Bool := false
  transportErrorDetail : Str := []
  headers : List (Str × Str) := []
  responseTooLarge : Bool := false
deriving DecidableEq

def HttpResponse.success (r : HttpResponse) : Bool := 200 ≤ r.status && r.status < 300

/-- What the client knows about an interface URL. -/
structure BindingInfo where
  binding : Str := "JSONRPC"
  version : Str := "1.0"
  tenant : Str := []
deriving DecidableEq

/-- The three bindings the client speaks; an unknown name is taken for JSON-RPC. -/
inductive Protocol where
  | rpc
  | rest
  | grpc
deriving DecidableEq, Repr

def BindingInfo.protocol (info : BindingInfo) : Protocol :=
  let binding := upper info.binding
  if binding = lit "HTTP+JSON" ∨ binding = lit "REST" ∨ binding = lit "HTTP_JSON" then .rest
  else if binding = lit "GRPC" then .grpc
  else .rpc

/-- The operations that return one response. -/
inductive Method where
  | sendMessage
  | getTask
  | listTasks
  | cancelTask
  | createPushConfig
  | getPushConfig
  | listPushConfigs
  | deletePushConfig
  | extendedCard
deriving DecidableEq, Repr

def Method.name : Method → Str
  | .sendMessage => "SendMessage"
  | .getTask => "GetTask"
  | .listTasks => "ListTasks"
  | .cancelTask => "CancelTask"
  | .createPushConfig => "CreateTaskPushNotificationConfig"
  | .getPushConfig => "GetTaskPushNotificationConfig"
  | .listPushConfigs => "ListTaskPushNotificationConfigs"
  | .deletePushConfig => "DeleteTaskPushNotificationConfig"
  | .extendedCard => "GetExtendedAgentCard"

/-- The operations that return a stream of events. -/
inductive StreamMethod where
  | subscribeToTask
  | sendStreamingMessage
deriving DecidableEq, Repr

def StreamMethod.name : StreamMethod → Str
  | .subscribeToTask => "SubscribeToTask"
  | .sendStreamingMessage => "SendStreamingMessage"

/-! ## Paths and queries -/

/-- Unreserved characters: letters, digits, `-`, `_`, `.` and `~`. -/
def isUnreserved (c : UInt8) : Bool :=
  isDigit c || (65 ≤ c && c ≤ 90) || (97 ≤ c && c ≤ 122) || c == 45 || c == 95 || c == 46 || c == 126

def urlEncode (s : Str) : Str :=
  s.flatMap fun c => if isUnreserved c then [c] else [37, Url.upperHex (c.toNat / 16), Url.upperHex (c.toNat % 16)]

/-- The text of a query value; other values than strings are dumped. -/
def queryText : J → Except Exception Str
  | .str s => .ok s
  | v => v.dump

def addQuery (path key : Str) (value : J) : Except Exception Str := do
  if value.isNull then return path
  let text ← queryText value
  if text.isEmpty then return path
  return path ++ (if path.contains 63 then [38] else [63]) ++ urlEncode key ++ [61] ++ urlEncode text

/-- `addQuery` for those of the keys that the parameters have. -/
def addFields (params : J) (keys : List Str) (path : Str) : Except Exception Str :=
  keys.foldlM (fun path key => addQuery path key ((params.get? key).getD .null)) path

/-- The credentials that travel in the query. -/
def addCredentials (auth : AuthSpec) (path : Str) : Except Exception Str := do
  let path ← if auth.queryName.isEmpty then pure path else addQuery path auth.queryName (.str auth.queryValue)
  auth.extraQuery.foldlM (fun path q => addQuery path q.1 (.str q.2)) path

def authHeaders (auth : AuthSpec) : List (Str × Str) :=
  (if auth.active && !auth.headerValue.isEmpty then [(auth.headerName, auth.headerValue)] else []) ++
    auth.extraHeaders ++
    (if auth.clientCertFile.isEmpty then [] else [(lit "X-A2AD-Client-Cert-File", auth.clientCertFile)]) ++
    (if auth.clientKeyFile.isEmpty then [] else [(lit "X-A2AD-Client-Key-File", auth.clientKeyFile)])

def userAgent : Str := "a2ad/0.1"

/-! ## Calls -/

/-- A call with everything that goes on the wire but the credentials. -/
structure Call (Op : Type) where
  endpoint : Str
  info : BindingInfo
  op : Op
  params : J
  id : Str

/-- The body of a JSON-RPC request. -/
def envelope (id name : Str) (params : J) : J :=
  .object [("jsonrpc", .str "2.0"), ("id", .str id), ("method", .str name), ("params", params)]

def tenantPrefix (info : BindingInfo) : Str := if info.tenant.isEmpty then [] else urlEncode info.tenant ++ [47]

/-- A path segment made of a parameter. -/
def segment (params : J) (key : Str) : Except Exception Str := return urlEncode (← params.valueStr key "")

/-- The verb, path and body of a call over HTTP+JSON, before the credentials. -/
def restTarget (c : Call Method) : Except Exception (Str × Str × Str) := do
  let start := tenantPrefix c.info
  let body ← c.params.dump
  match c.op with
  | .sendMessage => return ("POST", start ++ lit "message:send", body)
  | .getTask =>
    let path := start ++ lit "tasks/" ++ (← segment c.params "id")
    return ("GET", ← addFields c.params ["historyLength"] path, [])
  | .listTasks =>
    let keys := ["contextId", "status", "pageSize", "pageToken", "historyLength", "statusTimestampAfter", "includeArtifacts"]
    return ("GET", ← addFields c.params (keys.map lit) (start ++ lit "tasks"), [])
  | .cancelTask => return ("POST", start ++ lit "tasks/" ++ (← segment c.params "id") ++ lit ":cancel", body)
  | .createPushConfig =>
    return ("POST", start ++ lit "tasks/" ++ (← segment c.params "taskId") ++ lit "/pushNotificationConfigs", body)
  | .getPushConfig =>
    let path := start ++ lit "tasks/" ++ (← segment c.params "taskId") ++ lit "/pushNotificationConfigs/"
    return ("GET", path ++ (← segment c.params "id"), [])
  | .listPushConfigs =>
    let path := start ++ lit "tasks/" ++ (← segment c.params "taskId") ++ lit "/pushNotificationConfigs"
    return ("GET", ← addFields c.params ["pageSize", "pageToken"] path, [])
  | .deletePushConfig =>
    let path := start ++ lit "tasks/" ++ (← segment c.params "taskId") ++ lit "/pushNotificationConfigs/"
    return ("DELETE", path ++ (← segment c.params "id"), [])
  | .extendedCard => return ("GET", start ++ lit "extendedAgentCard", [])

/-- The HTTP request of a call; over gRPC there is none. -/
def unaryRequest (auth : AuthSpec) (c : Call Method) : Except Exception HttpRequest := do
  let headers (mime : Str) : List (Str × Str) :=
    [(lit "Content-Type", mime), (lit "Accept", mime), (lit "User-Agent", userAgent),
      (lit "A2A-Version", c.info.version)] ++ authHeaders auth
  match c.info.protocol with
  | .rest =>
    let (verb, path, body) ← restTarget c
    return ⟨c.endpoint, verb, ← addCredentials auth path, body, headers "application/a2a+json"⟩
  | _ =>
    let target ← addCredentials auth c.endpoint
    return ⟨target, "POST", [], ← (envelope c.id c.op.name c.params).dump, headers "application/json"⟩

/-- The HTTP request that opens a stream. -/
def streamRequest (auth : AuthSpec) (c : Call StreamMethod) : Except Exception HttpRequest := do
  let rest := c.info.protocol == .rest
  let subscribe := c.op == .subscribeToTask
  let mime : Str := if rest then "application/a2a+json" else "application/json"
  let headers := [(lit "Content-Type", mime), (lit "Accept", lit "text/event-stream"),
    (lit "Cache-Control", lit "no-cache"), (lit "User-Agent", userAgent), (lit "A2A-Version", c.info.version)] ++
    authHeaders auth
  let id ← if subscribe then segment c.params "id" else pure []
  let path := tenantPrefix c.info ++ (if subscribe then lit "tasks/" ++ id ++ lit ":subscribe" else lit "message:stream")
  if rest then
    let body ← if subscribe then pure [] else c.params.dump
    return ⟨c.endpoint, if subscribe then "GET" else "POST", ← addCredentials auth path, body, headers⟩
  else
    let target ← addCredentials auth c.endpoint
    return ⟨target, "POST", [], ← (envelope c.id c.op.name c.params).dump, headers⟩

end A2ad.Client
