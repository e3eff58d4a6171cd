/-
The A2A client: calls with one response, the parameters of each operation, and the discovery of
agent cards, which registers every interface of a card under its URL.
-/
import A2ad.Client.Classify
import A2ad.Daemon.State

namespace A2ad.Client

open Bytes Json

/-! ## Bindings -/

def registerInterface (i : AgentInterface) : M Unit := change fun s =>
  if i.url.isEmpty then s else { s with bindings := s.bindings.insert i.url i.info }

def bindingAt (s : World) (endpoint : Str) : BindingInfo := (s.bindings.lookup endpoint).getD {}

/-! ## Calls -/

/-- A call that was answered, with what its answer is judged by. -/
structure Exchange where
  protocol : Protocol
  endpoint : Str
  id : Str
  response : HttpResponse

/-- The tenant of the interface, unless the parameters name one. -/
def withTenant (info : BindingInfo) (params : J) : J :=
  setIf (!info.tenant.isEmpty && !params.contains "tenant") "tenant" (.str info.tenant) params

def exchange (E : Env) (req : HttpRequest) : M HttpResponse := fun s =>
  .ok (E.http s.exchanges req) { s with exchanges := s.exchanges + 1 }

def record (endpoint : Str) (info : BindingInfo) (method : Str) (params : J) : M Unit := change fun s =>
  { s with sent := s.sent ++ [⟨endpoint, info, method, params⟩] }

/-- Puts a call on the wire of its binding. -/
def deliver (E : Env) (auth : AuthSpec) (c : Call Method) : M HttpResponse :=
  if c.info.protocol = .grpc then do
    record c.endpoint c.info c.op.name c.params
    fun s => .ok (E.grpc s.exchanges auth c) { s with exchanges := s.exchanges + 1 }
  else do
    let req ← unaryRequest auth c
    record c.endpoint c.info c.op.name c.params
    exchange E req

def transmit (E : Env) (endpoint : Str) (auth : AuthSpec) (method : Method) (params : J) : M Exchange := do
  let _ ← params.dump
  let id ← nextRpcId
  let info ← observe fun s => bindingAt s endpoint
  let response ← deliver E auth ⟨endpoint, info, method, withTenant info params, id⟩
  return ⟨info.protocol, endpoint, id, response⟩

def Exchange.classify (E : Env) (x : Exchange) (method : Method) : Except Exception A2AResult :=
  Client.classify E.parse x.protocol x.endpoint x.id method x.response

def rpcCall (E : Env) (endpoint : Str) (auth : AuthSpec) (method : Method) (params : J) : M A2AResult := do
  let x ← transmit E endpoint auth method params
  x.classify E method

/-- An accepted result of a call was accepted by its classification. -/
theorem rpcCall_accepted {E : Env} {endpoint : Str} {auth : AuthSpec} {method : Method} {params : J} {s s' : World}
    {r : A2AResult} (h : rpcCall E endpoint auth method params s = .ok r s') (hok : r.ok = true) : Accepted method r := by
  obtain ⟨x, w, -, h⟩ := Tx.bind_ok.1 h
  exact (classify_accepted (Tx.lift_ok.1 h).1 hok).2

/-! ## Operations -/

def sendParams (text taskId contextId messageId : Str) : J :=
  let message := J.object [("role", .str "ROLE_USER"), ("messageId", .str messageId),
      ("parts", .arr [.object [("text", .str text)]])]
    |> setIf (!contextId.isEmpty) "contextId" (.str contextId)
    |> setIf (!taskId.isEmpty) "taskId" (.str taskId)
  .object [("message", message), ("configuration", .object [("returnImmediately", .bool true)])]

def sendMessage (E : Env) (endpoint : Str) (auth : AuthSpec) (text taskId contextId messageId : Str) : M A2AResult := do
  let messageId ← if messageId.isEmpty then freshId E else pure messageId
  rpcCall E endpoint auth .sendMessage (sendParams text taskId contextId messageId)

def idParams (taskId : Str) : J := .object [("id", .str taskId)]

/-- `A2AClient::getTask`. -/
def fetchTask (E : Env) (endpoint : Str) (auth : AuthSpec) (taskId : Str) : M A2AResult :=
  rpcCall E endpoint auth .getTask (idParams taskId)

def cancelTask (E : Env) (endpoint : Str) (auth : AuthSpec) (taskId : Str) : M A2AResult :=
  rpcCall E endpoint auth .cancelTask (idParams taskId)

structure ListTasksFilter where
  contextId : Str := []
  status : Option TaskState := none
  pageSize : Int := 100
  pageToken : Str := []
  historyLength : Option Int := none
  statusTimestampAfter : Str := []
  includeArtifacts : Option Bool := none
deriving DecidableEq

/-- The filter as parameters: `null` when nothing is set. -/
def listParams (f : ListTasksFilter) : J :=
  J.null
    |> setIf (!f.contextId.isEmpty) "contextId" (.str f.contextId)
    |> setIf f.status.isSome "status" (.str (f.status.getD .unknown).wireName)
    |> setIf (0 < f.pageSize) "pageSize" (.int (min f.pageSize 100))
    |> setIf (!f.pageToken.isEmpty) "pageToken" (.str f.pageToken)
    |> setIf f.historyLength.isSome "historyLength" (.int (f.historyLength.getD 0))
    |> setIf (!f.statusTimestampAfter.isEmpty) "statusTimestampAfter" (.str f.statusTimestampAfter)
    |> setIf f.includeArtifacts.isSome "includeArtifacts" (.bool (f.includeArtifacts.getD false))

/-- `A2AClient::listTasks`. -/
def fetchTasks (E : Env) (endpoint : Str) (auth : AuthSpec) (f : ListTasksFilter) : M A2AResult :=
  rpcCall E endpoint auth .listTasks (listParams f)

structure PushNotificationConfig where
  id : Str := []
  taskId : Str := []
  url : Str := []
  token : Str := []
  authScheme : Str := []
  authCredentials : Str := []
deriving DecidableEq

def pushParams (c : PushNotificationConfig) : J :=
  J.object [("id", .str c.id), ("taskId", .str c.taskId), ("url", .str c.url), ("token", .str c.token)]
    |> setIf (!c.authScheme.isEmpty) "authentication"
      (.object [("scheme", .str c.authScheme), ("credentials", .str c.authCredentials)])

def createPushConfig (E : Env) (endpoint : Str) (auth : AuthSpec) (c : PushNotificationConfig) : M A2AResult :=
  rpcCall E endpoint auth .createPushConfig (pushParams c)

/-- The parameters that name one push configuration of a task. -/
def pushIdParams (taskId id : Str) : J := .object [("taskId", .str taskId), ("id", .str id)]

def getPushConfig (E : Env) (endpoint : Str) (auth : AuthSpec) (taskId id : Str) : M A2AResult :=
  rpcCall E endpoint auth .getPushConfig (pushIdParams taskId id)

def pushPageParams (taskId : Str) (pageSize : Int) (pageToken : Str) : J :=
  J.object [("taskId", .str taskId), ("pageSize", .int pageSize)]
    |> setIf (!pageToken.isEmpty) "pageToken" (.str pageToken)

def listPushConfigs (E : Env) (endpoint : Str) (auth : AuthSpec) (taskId : Str) (pageSize : Int) (pageToken : Str) :
    M A2AResult :=
  rpcCall E endpoint auth .listPushConfigs (pushPageParams taskId pageSize pageToken)

def deletePushConfig (E : Env) (endpoint : Str) (auth : AuthSpec) (taskId id : Str) : M A2AResult :=
  rpcCall E endpoint auth .deletePushConfig (pushIdParams taskId id)

def getExtendedAgentCard (E : Env) (endpoint : Str) (auth : AuthSpec) : M A2AResult :=
  rpcCall E endpoint auth .extendedCard (.obj [])

/-! ## Discovery -/

/-- A conditional response is answered from the cache. -/
def revalidated (cached : CachedCard) (r : HttpResponse) : HttpResponse :=
  if r.status = 304 ∧ !cached.body.isEmpty then
    { r with status := 200, body := cached.body, headers := (lit "etag", cached.etag) :: r.headers }
  else r

def HttpResponse.etag (r : HttpResponse) : Str := ((r.headers.find? fun h => h.1 = lit "etag").map Prod.snd).getD []

def discoveryRequest (url : Str) (cached : CachedCard) : HttpRequest where
  endpoint := url
  verb := "GET"
  headers := [(lit "Accept", lit "application/json"), (lit "User-Agent", userAgent)] ++
    (if cached.etag.isEmpty then [] else [(lit "If-None-Match", cached.etag)])

/-- A value taken for a card: its interfaces are registered before the rest of it is decoded. -/
def readCard (j : J) : M AgentCard := do
  let head ← cardHead j
  let _ ← head.interfaces.forM registerInterface
  cardTail j head

def cacheCard (url : Str) (r : HttpResponse) (card : AgentCard) : M Unit := change fun s =>
  if card.valid then { s with cards := s.cards.insert url ⟨r.body, HttpResponse.etag r⟩ } else s

/-- The card at one URL, if there is one. -/
def discoverAt (E : Env) (url : Str) : M (Option AgentCard) := do
  let cached ← observe fun s => (s.cards.lookup url).getD ⟨[], []⟩
  let r ← exchange E (discoveryRequest url cached)
  let r := revalidated cached r
  if r.transportError || !r.success then return none
  match (E.parse r.body).filter isCard with
  | none => return none
  | some j =>
    let card ← readCard j
    cacheCard url r card
    return some card

def firstCard (E : Env) : List Str → M (Option AgentCard)
  | [] => pure none
  | url :: rest => do
    match ← discoverAt E url with
    | some card => return some card
    | none => firstCard E rest

def noCard : AgentCard := { parseError := "agent card not found at well-known URI or endpoint" }

def discover (E : Env) (endpoint : Str) : M AgentCard := do
  let card ← firstCard E (candidates endpoint)
  return card.getD noCard

end A2ad.Client
