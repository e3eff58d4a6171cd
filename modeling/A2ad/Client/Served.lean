/-
Remote agents behind the three bindings: one description of what an agent answers, and the
response that carries an answer over JSON-RPC, over HTTP+JSON and over gRPC.
-/
import A2ad.Client.Ending
import A2ad.Client.Grpc
import A2ad.Client.Readable

namespace A2ad.Client

open Bytes Json

/-! ## Agents -/

/-- A value that a parser builds. -/
abbrev Formed := { j : J // j.formed = true }

/-- How an agent refuses a call: with an error object over JSON-RPC, with a status over the other two
bindings. None of them is about credentials. -/
structure Refusal where
  code : Int
  message : Str
  status : Int
  grpc : StatusCode
  int_code : -2 ^ 31 ≤ code ∧ code < 2 ^ 31
  valid_message : Utf8.valid message = true
  status_error : 400 ≤ status ∧ status ≠ 401 ∧ status ≠ 403
  grpc_error : grpc.http ∈ [some 400, some 404, some 500]

/-- An event of a stream: an object without a field `result`, so that it is not taken for a JSON-RPC
response where it comes without one. -/
structure StreamEvent where
  value : J
  formed : value.formed = true
  object : value.isObject = true
  plain : value.get? "result" = none

/-- What an agent answers to its calls, each with its place among all exchanges, the tenant, the
operation and the parameters. -/
structure Remote where
  answer : Nat → Str → Method → J → Except Refusal Formed
  events : Nat → Str → StreamMethod → J → List StreamEvent

/-! ## Calls as they are read -/

/-- The tenant that parameters name. -/
def tenantOf (params : J) : Str :=
  match params.get? "tenant" with
  | some (.str tenant) => tenant
  | _ => []

/-- No parameters are an empty object. -/
def orEmpty (params : J) : J := if params.isNull then .obj [] else params

def bareParams (params : J) : J := orEmpty (params.erase "tenant")

/-- The id, the method and the parameters in the body of a JSON-RPC request. -/
def readEnvelope (parse : Str → Option J) (body : Str) : Option (J × Str × J) :=
  (parse body).bind fun j =>
    match j.get? "id", j.get? "method", j.get? "params" with
    | some id, some (.str name), some params => some (id, name, params)
    | _, _, _ => none

def methodNamed (name : Str) : Option Method :=
  [.sendMessage, .getTask, .listTasks, .cancelTask, .createPushConfig, .getPushConfig, .listPushConfigs,
    .deletePushConfig, .extendedCard].find? fun m => m.name = name

def streamMethodNamed (name : Str) : Option StreamMethod :=
  [.subscribeToTask, .sendStreamingMessage].find? fun m => m.name = name

theorem methodNamed_name (m : Method) : methodNamed m.name = some m := by
  cases m <;> decide +kernel

theorem streamMethodNamed_name (m : StreamMethod) : streamMethodNamed m.name = some m := by
  cases m <;> decide +kernel

/-! ## Answers as they are written -/

/-- A JSON-RPC response with a result. -/
def resultBody (id value : J) : J := .object [("jsonrpc", .str "2.0"), ("id", id), ("result", value)]

/-- A JSON-RPC response with an error. -/
def errorBody (id : J) (r : Refusal) : J :=
  .object [("jsonrpc", .str "2.0"), ("id", id), ("error", .object [("code", .int r.code), ("message", .str r.message)])]

namespace Remote

variable (R : Remote) (parse : Str → Option J)

def serveRpc (n : Nat) (req : HttpRequest) : HttpResponse :=
  match readEnvelope parse req.body with
  | none => { status := 400 }
  | some (id, name, params) =>
    match methodNamed name with
    | none => { status := 404 }
    | some m =>
      match R.answer n (tenantOf params) m (bareParams params) with
      | .ok v => { status := 200, body := (resultBody id v.1).text }
      | .error r => { status := 200, body := (errorBody id r).text }

def serveRest (info : BindingInfo) (n : Nat) (req : HttpRequest) : HttpResponse :=
  match readRequest parse info req.verb req.path req.body with
  | some (.inl m, params) =>
    match R.answer n info.tenant m (orEmpty params) with
    | .ok v => { status := 200, body := v.1.text }
    | .error r => { status := r.status, body := r.message }
  | _ => { status := 404 }

def serveGrpc (n : Nat) (c : Call Method) : GrpcOutcome :=
  match R.answer n (tenantOf c.params) c.op (bareParams c.params) with
  | .ok v => .finished ⟨.ok, []⟩ (.ok v.1.text)
  | .error r => .finished ⟨r.grpc, r.message⟩ (.error [])

/-- The values in the events of a stream: in JSON-RPC responses, or as they are. -/
def streamed (info : BindingInfo) (n : Nat) (req : HttpRequest) : Option (List J) :=
  if info.protocol = .rest then
    match readRequest parse info req.verb req.path req.body with
    | some (.inr m, params) => some ((R.events n info.tenant m (orEmpty params)).map StreamEvent.value)
    | _ => none
  else
    match readEnvelope parse req.body with
    | none => none
    | some (id, name, params) =>
      (streamMethodNamed name).map fun m =>
        (R.events n (tenantOf params) m (bareParams params)).map fun e => resultBody id e.value

end Remote

/-- Values as server-sent events. -/
def sseOf (values : List J) : Str := values.flatMap fun v => lit "data: " ++ v.text ++ [10, 10]

/-- An interface of the agent `R`, at an URL with one binding. The chunks of a stream are the agent's, with
or without carriage returns. -/
structure Serves (R : Remote) (E : Env) (endpoint : Str) (info : BindingInfo) : Prop where
  reads : ReadsBack E.parse
  tenant : Utf8.valid info.tenant = true
  rpc : info.protocol = .rpc → ∀ n req, req.endpoint = endpoint → E.http n req = R.serveRpc E.parse n req
  rest : info.protocol = .rest → ∀ n req, req.endpoint = endpoint → E.http n req = R.serveRest E.parse info n req
  grpc : info.protocol = .grpc → ∀ n auth c, c.endpoint = endpoint → E.grpc n auth c = grpcResponse (R.serveGrpc n c)
  stream : ∀ n req values, req.endpoint = endpoint → R.streamed E.parse info n req = some values →
    (E.stream n req).1.flatten.filter (· ≠ 13) = sseOf values ∧ (E.stream n req).2 = { status := 200 }
  grpcStream : info.protocol = .grpc → ∀ n auth c, c.endpoint = endpoint →
    E.grpcStream n auth c = ((R.events n (tenantOf c.params) c.op (bareParams c.params)).map StreamEvent.value, { status := 200 })

/-! ## Parameters on the way -/

section Params

variable {op : Asked} {info : BindingInfo}

theorem tenantOf_wireParams : tenantOf (op.wireParams info) = info.tenant := by
  unfold tenantOf
  rw [Asked.wireParams_eq, get?_setIf Asked.open_params]
  cases htenant : info.tenant with
  | nil => simp [Asked.tenant_params]
  | cons c cs => rfl

/-- What is left of the parameters is what the operation says. -/
theorem bareParams_wireParams (htenant : Utf8.valid info.tenant = true) (hop : op.Valid) :
    bareParams (op.wireParams info) = orEmpty op.params := by
  unfold bareParams
  rcases @Asked.open_params op with hnull | hobject
  · rw [Asked.wireParams_eq, hnull]
    unfold setIf
    split <;> rfl
  · rw [erase_wireParams htenant hop hobject]

/-- The call in an envelope is read back. -/
theorem readEnvelope_text {parse : Str → Option J} (hparse : ReadsBack parse) {id name : Str} {params : J}
    (hid : Utf8.valid id = true) (hname : Utf8.valid name = true) (hparams : params.formed = true) :
    readEnvelope parse (envelope id name params).text = some (.str id, name, params) := by
  have hformed : (envelope id name params).formed = true := by
    refine J.formed_object ?_
    simp only [List.forall_mem_cons, J.formed_str]
    exact ⟨⟨by decide, by decide⟩, ⟨by decide, hid⟩, ⟨by decide, hname⟩, ⟨by decide, hparams⟩, by simp⟩
  unfold readEnvelope
  rw [hparse _ hformed]
  rfl

end Params

/-! ## What the client makes of an answer -/

/-- The result of a call that ends with the HTTP status of a refusal. -/
def statusRefused (endpoint : Str) (status : Int) : A2AResult where
  httpStatus := status
  errorKind := .protocolError
  error := lit "A2A server returned HTTP " ++ intText status ++ lit " from " ++ endpoint

/-- The result of a refused call over each binding. -/
def Refusal.result (r : Refusal) (protocol : Protocol) (endpoint : Str) : A2AResult :=
  match protocol with
  | .rpc => {
      httpStatus := 200, errorKind := .protocolError, protocolCode := r.code
      error := lit "A2A error " ++ intText r.code ++ lit ": " ++ r.message }
  | .rest => statusRefused endpoint r.status
  | .grpc => statusRefused endpoint (r.grpc.http.getD 0)

/-- What the answer of an agent is taken for: nothing but the words of a refusal depends on the binding. -/
def judged (protocol : Protocol) (endpoint : Str) (m : Method) : Except Refusal Formed → Except Exception A2AResult
  | .ok v => classifyResult m 200 v.1
  | .error r => .ok (r.result protocol endpoint)

section Judged

variable {parse : Str → Option J} {endpoint id : Str} {m : Method}

theorem formed_resultBody {id v : J} (hid : id.formed = true) (hv : v.formed = true) : (resultBody id v).formed = true := by
  refine J.formed_object ?_
  simp only [List.forall_mem_cons, J.formed_str]
  exact ⟨⟨by decide, by decide⟩, ⟨by decide, hid⟩, ⟨by decide, hv⟩, by simp⟩

theorem formed_errorBody {id : J} (hid : id.formed = true) (r : Refusal) : (errorBody id r).formed = true := by
  have herror : (J.object [("code", .int r.code), ("message", .str r.message)]).formed = true := by
    refine J.formed_object ?_
    simp only [List.forall_mem_cons, J.formed_str]
    exact ⟨⟨by decide, Asked.formed_int r.int_code⟩, ⟨by decide, r.valid_message⟩, by simp⟩
  refine J.formed_object ?_
  simp only [List.forall_mem_cons, J.formed_str]
  exact ⟨⟨by decide, by decide⟩, ⟨by decide, hid⟩, ⟨by decide, herror⟩, by simp⟩

theorem text_ne_nil (j : J) : j.text.isEmpty = false := by
  obtain ⟨c, rest, h, -⟩ := J.text_head j
  rw [h]
  rfl

/-- A JSON-RPC response to the request is read as one. -/
theorem answers_response {j : J} (hversion : j.get? "jsonrpc" = some (.str "2.0")) (hid : j.get? "id" = some (.str id)) :
    answers .rpc j id = .ok true := by
  have hobject := J.isObject_of_get? hversion
  have hpass : Tx.Passes (answers .rpc j id) := by
    rw [answers_eq, hobject]
    simp [fieldIs, hversion, J.isString]
  obtain ⟨b, hb⟩ := hpass
  have hanswers : answersCall .rpc id j = true := by
    have hsame : (J.str id).same (.str id) = true := J.same_str.2 rfl
    simp [answersCall, hversion, J.contains, hid, hsame]
  rw [hb, answers_value hb, hanswers]

/-- A result in a JSON-RPC response is classified as it is. -/
theorem classify_result (hparse : ReadsBack parse) (hid : Utf8.valid id = true) {v : J} (hv : v.formed = true) :
    classify parse .rpc endpoint id m { status := 200, body := (resultBody (.str id) v).text } = classifyResult m 200 v := by
  have hread : bodyRead parse .rpc { status := 200, body := (resultBody (.str id) v).text } = some (resultBody (.str id) v) :=
    hparse _ (@formed_resultBody (.str id) v hid hv)
  rw [classify_read hread, classifyBody, screenBody_result (answers_response rfl rfl) (by rintro fields ⟨⟩)]
  rfl

/-- An error in a JSON-RPC response is the failure of the call. -/
theorem classify_error (hparse : ReadsBack parse) (hid : Utf8.valid id = true) (r : Refusal) :
    classify parse .rpc endpoint id m { status := 200, body := (errorBody (.str id) r).text } = .ok (r.result .rpc endpoint) := by
  have hread : bodyRead parse .rpc { status := 200, body := (errorBody (.str id) r).text } = some (errorBody (.str id) r) :=
    hparse _ (@formed_errorBody (.str id) hid r)
  have herror : (errorBody (.str id) r).get? "error" = some (.object [("code", .int r.code), ("message", .str r.message)]) := rfl
  have hcode : (J.int r.code).asInt = .ok r.code := by
    obtain ⟨hlow, hhigh⟩ := r.int_code
    rw [J.asInt, Int.bmod_eq_of_le_mul_two (by omega) (by omega)]
  have hresult : errorResult (.object [("code", .int r.code), ("message", .str r.message)]) 200 = .ok (r.result .rpc endpoint) := by
    show ((J.int r.code).asInt >>= fun code => _) = _
    rw [hcode]
    rfl
  rw [classify_read hread, classifyBody, screenBody_error (answers_response rfl rfl) herror]
  show (errorResult (.object [("code", .int r.code), ("message", .str r.message)]) 200 >>= fun r => pure (Sum.inl r)) >>= _ = _
  rw [hresult]
  rfl

/-- Over the other bindings the body is the result. -/
theorem classify_plain (hparse : ReadsBack parse) {protocol : Protocol} (hplain : protocol ≠ .rpc) {v : J} (hv : v.formed = true) :
    classify parse protocol endpoint id m { status := 200, body := v.text } = classifyResult m 200 v := by
  have hread : bodyRead parse protocol { status := 200, body := v.text } =
      some (.object [("jsonrpc", .str "2.0"), ("result", v)]) := by
    show responseBody parse protocol v.text = _
    unfold responseBody
    cases protocol with
    | rpc => exact absurd rfl hplain
    | rest | grpc =>
      dsimp only
      rw [text_ne_nil, if_neg Bool.false_ne_true, hparse v hv]
      rfl
  have hanswers : answers protocol (.object [("jsonrpc", .str "2.0"), ("result", v)]) id = .ok true := if_pos hplain
  rw [classify_read hread, classifyBody, screenBody_result hanswers (by rintro fields ⟨⟩)]
  rfl

/-- A status of a refusal is one whatever the binding. -/
theorem classify_status {protocol : Protocol} {r : HttpResponse} (hlarge : r.responseTooLarge = false)
    (htransport : r.transportError = false) (herror : 400 ≤ r.status) (hauth : r.status ≠ 401 ∧ r.status ≠ 403) :
    classify parse protocol endpoint id m r = .ok (statusRefused endpoint r.status) := by
  have hfailed : r.success = false := by
    unfold HttpResponse.success
    simp only [Bool.and_eq_false_iff, decide_eq_false_iff_not]
    omega
  have hscreen : screen parse protocol endpoint id r = .ok (.inl (statusRefused endpoint r.status)) := by
    unfold screen
    rw [hlarge, htransport, hfailed, if_neg Bool.false_ne_true, if_neg Bool.false_ne_true, if_neg (by omega)]
    rfl
  unfold classify
  rw [hscreen]
  rfl

end Judged

/-! ## Calls -/

section Calls

variable {R : Remote} {E : Env} {endpoint : Str} {info : BindingInfo} {auth : AuthSpec} {s : World}

/-- The world after a request has been sent and answered. -/
def exchanged (endpoint : Str) (info : BindingInfo) (name : Str) (params : J) (s : World) : World :=
  { s with sent := s.sent ++ [⟨endpoint, info, name, params⟩], exchanges := s.exchanges + 1 }

/-- The world after a call, which takes an id first. -/
def called (endpoint : Str) (info : BindingInfo) (name : Str) (params : J) (s : World) : World :=
  exchanged endpoint info name params { s with rpcIds := s.rpcIds + 1 }

/-- The body of a call over JSON-RPC. -/
theorem unaryRequest_rpc (hname : auth.queryName = []) (hextra : auth.extraQuery = []) (hrpc : info.protocol = .rpc)
    {m : Method} {params : J} {id : Str} (hid : Utf8.valid id = true) (hparams : params.utf8 = true) :
    ∃ req, unaryRequest auth ⟨endpoint, info, m, params, id⟩ = .ok req ∧ req.endpoint = endpoint ∧
      req.body = (envelope id m.name params).text := by
  have hdump := J.dump_ok.2 ⟨(utf8_envelope (valid_methodName m) hid).2 hparams, rfl⟩
  unfold unaryRequest
  dsimp only
  rw [hrpc]
  dsimp only
  rw [Asked.addCredentials_none hname hextra, hdump]
  exact ⟨_, rfl, rfl, rfl⟩

/-- Over gRPC a refusal ends with the HTTP status its code stands for. -/
theorem grpcResponse_refusal (r : Refusal) : ∃ n, r.grpc.http = some n ∧ 400 ≤ n ∧ (n ≠ 401 ∧ n ≠ 403) ∧
    grpcResponse (.finished ⟨r.grpc, r.message⟩ (.error [])) = { status := n, body := r.message } := by
  have herror := r.grpc_error
  cases hcode : r.grpc with
  | ok | unauthenticated | permissionDenied | unavailable | deadlineExceeded =>
    rw [hcode] at herror
    simp [StatusCode.http] at herror
  | notFound => exact ⟨404, rfl, by decide, by decide, rfl⟩
  | invalidArgument | failedPrecondition => exact ⟨400, rfl, by decide, by decide, rfl⟩
  | _ => exact ⟨500, rfl, by decide, by decide, rfl⟩

/-- The response that a call gets is classified as the answer of the agent. -/
theorem deliver_served (h : Serves R E endpoint info) (hname : auth.queryName = []) (hextra : auth.extraQuery = [])
    {a : Ask} (ha : Asked.Valid (.inl a)) {id : Str} (hid : Utf8.valid id = true) (w : World) :
    ∃ response, deliver E auth ⟨endpoint, info, a.method, Asked.wireParams info (.inl a), id⟩ w =
        .ok response (exchanged endpoint info a.method.name (Asked.wireParams info (.inl a)) w) ∧
      classify E.parse info.protocol endpoint id a.method response =
        judged info.protocol endpoint a.method (R.answer w.exchanges info.tenant a.method (orEmpty a.params)) := by
  have hformed := Asked.formed_wireParams h.tenant ha
  have htenant : tenantOf (Asked.wireParams info (.inl a)) = info.tenant := tenantOf_wireParams
  have hbare : bareParams (Asked.wireParams info (.inl a)) = orEmpty a.params := bareParams_wireParams h.tenant ha
  cases hprotocol : info.protocol with
  | rpc =>
    -- the agent reads the envelope back
    obtain ⟨req, hreq, hendpoint, hbody⟩ := @unaryRequest_rpc endpoint info auth hname hextra hprotocol a.method _ id hid
      (J.utf8_formed hformed)
    refine ⟨E.http w.exchanges req, ?_, ?_⟩
    · unfold deliver
      rw [if_neg (by rw [hprotocol]; decide), hreq]
      rfl
    · rw [h.rpc hprotocol _ _ hendpoint]
      unfold Remote.serveRpc
      rw [hbody, readEnvelope_text h.reads hid (valid_methodName a.method) hformed]
      dsimp only
      rw [methodNamed_name, htenant, hbare]
      dsimp only
      cases R.answer w.exchanges info.tenant a.method (orEmpty a.params) with
      | ok v => exact classify_result h.reads hid v.2
      | error r => exact classify_error h.reads hid r
  | rest =>
    -- the agent reads the path, the query and the body back
    obtain ⟨headers, hreq⟩ := @Asked.request_eq auth info id endpoint (.inl a) hname hextra hprotocol (J.utf8_formed hformed)
    replace hreq : unaryRequest auth ⟨endpoint, info, a.method, Asked.wireParams info (.inl a), id⟩ = _ := hreq
    refine ⟨E.http w.exchanges ⟨endpoint, Asked.verb (.inl a), Asked.target info (.inl a), Asked.body info (.inl a), headers⟩,
      ?_, ?_⟩
    · unfold deliver
      rw [if_neg (by rw [hprotocol]; decide), hreq]
      rfl
    · rw [h.rest hprotocol _ _ rfl]
      unfold Remote.serveRest
      dsimp only
      rw [readRequest_eq h.reads h.tenant ha]
      dsimp only [Asked.name, Asked.params, Sum.map_inl]
      cases R.answer w.exchanges info.tenant a.method (orEmpty a.params) with
      | ok v => exact classify_plain h.reads (by decide) v.2
      | error r =>
        obtain ⟨herror, hauth⟩ := r.status_error
        exact classify_status rfl rfl herror hauth
  | grpc =>
    refine ⟨E.grpc w.exchanges auth ⟨endpoint, info, a.method, Asked.wireParams info (.inl a), id⟩, ?_, ?_⟩
    · unfold deliver
      rw [if_pos hprotocol]
      rfl
    · rw [h.grpc hprotocol _ _ _ rfl]
      unfold Remote.serveGrpc
      dsimp only
      rw [htenant, hbare]
      cases R.answer w.exchanges info.tenant a.method (orEmpty a.params) with
      | ok v => exact classify_plain h.reads (by decide) v.2
      | error r =>
        obtain ⟨n, hstatus, herror, hauth, hresponse⟩ := grpcResponse_refusal r
        rw [hresponse, classify_status rfl rfl herror hauth]
        show _ = Except.ok (statusRefused endpoint (r.grpc.http.getD 0))
        rw [hstatus]
        rfl

/-- **A call is the answer of the agent.** Whatever the binding, a call hands the operation and its parameters to
the agent, and what it returns is made of the answer alone. -/
theorem call_served (h : Serves R E endpoint info) (hname : auth.queryName = []) (hextra : auth.extraQuery = [])
    {a : Ask} (ha : Asked.Valid (.inl a)) (hinfo : bindingAt s endpoint = info) :
    a.call E endpoint auth s =
      (liftM (judged info.protocol endpoint a.method (R.answer s.exchanges info.tenant a.method (orEmpty a.params))) : M A2AResult)
        (called endpoint info a.method.name (Asked.wireParams info (.inl a)) s) := by
  have hdump : a.params.dump = .ok a.params.text := J.dump_formed (Asked.formed_params ha)
  obtain ⟨response, hdeliver, hclassify⟩ := deliver_served h hname hextra ha (valid_natText s.rpcIds)
    { s with rpcIds := s.rpcIds + 1 }
  have htransmit : transmit E endpoint auth a.method a.params s =
      .ok ⟨info.protocol, endpoint, natText s.rpcIds, response⟩
        (called endpoint info a.method.name (Asked.wireParams info (.inl a)) s) := by
    unfold transmit
    rw [Tx.bind_of_ok (Tx.lift_of_ok hdump), Tx.bind_of_ok (nextRpcId_ok.2 ⟨rfl, rfl⟩), Tx.bind_of_ok (observe_ok.2 ⟨rfl, rfl⟩)]
    show (deliver E auth ⟨endpoint, bindingAt s endpoint, a.method, withTenant (bindingAt s endpoint) a.params, natText s.rpcIds⟩
      >>= fun response => pure (⟨(bindingAt s endpoint).protocol, endpoint, natText s.rpcIds, response⟩ : Exchange)) _ = _
    rw [hinfo]
    exact Tx.bind_of_ok hdeliver
  unfold Ask.call rpcCall
  rw [Tx.bind_of_ok htransmit]
  show (liftM (classify E.parse info.protocol endpoint (natText s.rpcIds) a.method response) : M A2AResult) _ = _
  rw [hclassify]

end Calls

/-! ## Streams -/

section Streams

variable {σ : Type} {onEvent : J → σ → σ} {stopped : σ → Bool}

/-- All events come before the callback asks for the stop. -/
def Unstopped (onEvent : J → σ → σ) (stopped : σ → Bool) (events : List J) (st : σ) : Prop :=
  ∀ earlier e later, events = earlier ++ e :: later → stopped (earlier.foldl (fun st e => onEvent e st) st) = false

/-- Events that come before the stop are all handled, in whatever batches they arrive. -/
theorem batches_unstopped (bs : List (List J)) : ∀ st : σ, Unstopped onEvent stopped bs.flatten st →
    batches onEvent stopped st bs = bs.flatten.foldl (fun st e => onEvent e st) st := by
  induction bs with
  | nil => exact fun _ _ => rfl
  | cons b bs ih =>
    intro st hst
    cases hs : stopped st with
    | true =>
      -- nothing comes after the stop
      have hnone : (b :: bs).flatten = [] := by
        cases hall : (b :: bs).flatten with
        | nil => rfl
        | cons e later =>
          rw [hall] at hst
          have hbefore : stopped st = false := hst [] e later rfl
          rw [hs] at hbefore
          cases hbefore
      rw [batches_stopped hs, hnone]
      rfl
    | false =>
      rw [batches_cons hs, List.flatten_cons, List.foldl_append]
      apply ih
      intro earlier e later heq
      have hbefore := hst (b ++ earlier) e later (by rw [List.flatten_cons, heq, List.append_assoc])
      rw [List.foldl_append] at hbefore
      exact hbefore

/-! ### Server-sent events -/

variable {parse : Str → Option J}

theorem newline_notMem_data (v : J) : (10 : UInt8) ∉ lit "data: " ++ v.text := by
  intro hmem
  rcases List.mem_append.1 hmem with hmem | hmem
  · revert hmem
    decide
  · exact absurd (J.plain_text v 10 hmem) (by decide)

theorem frames_sseOf (values : List J) : frames (sseOf values) = (values.map fun v => lit "data: " ++ v.text, []) := by
  induction values with
  | nil => rfl
  | cons v values ih =>
    have hcons : sseOf (v :: values) = (lit "data: " ++ v.text) ++ 10 :: 10 :: sseOf values := by
      show (lit "data: " ++ v.text ++ [10, 10]) ++ sseOf values = _
      simp
    rw [hcons, frames_event (newline_notMem_data v), ih]
    rfl

theorem text_object {v : J} (h : v.isObject = true) : ∃ rest, v.text = 123 :: rest := by
  cases v with
  | obj fs => cases fs <;> exact ⟨_, rfl⟩
  | _ => cases h

/-- An event with an object is that object, or the result in it. -/
theorem eventValue_object (hparse : ReadsBack parse) {v : J} (hv : v.formed = true) (hobject : v.isObject = true) :
    eventValue parse (lit "data: " ++ v.text) = some ((v.get? "result").getD v) := by
  have hdata : eventData (lit "data: " ++ v.text) = v.text := by
    unfold eventData
    rw [List.splitOn_eq_singleton (newline_notMem_data v)]
    rfl
  obtain ⟨rest, htext⟩ := text_object hobject
  have hdone : v.text ≠ lit "[DONE]" := by
    rw [htext]
    intro heq
    exact absurd (List.cons.inj heq).1 (by decide)
  unfold eventValue
  rw [hdata]
  dsimp only
  rw [text_ne_nil, Bool.false_or, decide_eq_false hdone, if_neg Bool.false_ne_true, hparse v hv]
  rfl

/-- Objects that are sent as events arrive as they are, or as the results in them. -/
theorem cut_sseOf (hparse : ReadsBack parse) {values : List J} (hvalues : ∀ v ∈ values, v.formed = true ∧ v.isObject = true)
    {chunks : List Str} (hchunks : chunks.flatten.filter (· ≠ 13) = sseOf values) :
    (cut parse [] chunks).flatten = values.map fun v => (v.get? "result").getD v := by
  rw [cut_flatten, hchunks, frames_sseOf]
  clear hchunks
  induction values with
  | nil => rfl
  | cons v values ih =>
    obtain ⟨⟨hv, hobject⟩, hrest⟩ := List.forall_mem_cons.1 hvalues
    rw [List.map_cons, List.filterMap_cons_some (eventValue_object hparse hv hobject), ih hrest, List.map_cons]

/-! ### Opening a stream -/

variable {R : Remote} {E : Env} {endpoint : Str} {info : BindingInfo} {auth : AuthSpec} {s : World}

theorem valid_streamName (m : StreamMethod) : Utf8.valid m.name = true := by cases m <;> decide +kernel

/-- The body of the request that opens a stream over JSON-RPC. -/
theorem streamRequest_rpc (hname : auth.queryName = []) (hextra : auth.extraQuery = []) (hrpc : info.protocol = .rpc)
    {a : StreamAsk} {id : Str} (hid : Utf8.valid id = true) (hparams : (Asked.wireParams info (.inr a)).utf8 = true) :
    ∃ req, streamRequest auth ⟨endpoint, info, a.method, Asked.wireParams info (.inr a), id⟩ = .ok req ∧
      req.endpoint = endpoint ∧ req.body = (envelope id a.method.name (Asked.wireParams info (.inr a))).text := by
  have hdump := J.dump_ok.2 ⟨(utf8_envelope (valid_streamName a.method) hid).2 hparams, rfl⟩
  unfold streamRequest
  dsimp only
  rw [hrpc]
  cases a with
  | subscribeToTask taskId =>
    have hsegment : segment (Asked.wireParams info (.inr (.subscribeToTask taskId))) "id" = .ok (urlEncode taskId) :=
      Asked.segment_eq ((@Asked.get?_wireParams (.inr (.subscribeToTask taskId)) _ _ (by decide)).trans rfl)
    show ∃ req, (segment (Asked.wireParams info (.inr (.subscribeToTask taskId))) "id" >>= fun seg => _) = .ok req ∧ _
    rw [hsegment]
    show ∃ req, (addCredentials auth endpoint >>= fun target => _) = .ok req ∧ _
    rw [Asked.addCredentials_none hname hextra]
    show ∃ req, ((envelope id _ (Asked.wireParams info (.inr (.subscribeToTask taskId)))).dump >>= fun body => _) = .ok req ∧ _
    rw [hdump]
    exact ⟨_, rfl, rfl, rfl⟩
  | sendStreamingMessage text taskId contextId messageId =>
    show ∃ req, (addCredentials auth endpoint >>= fun target => _) = .ok req ∧ _
    rw [Asked.addCredentials_none hname hextra]
    show ∃ req, ((envelope id _ (Asked.wireParams info (.inr (.sendStreamingMessage text taskId contextId messageId)))).dump
      >>= fun body => _) = .ok req ∧ _
    rw [hdump]
    exact ⟨_, rfl, rfl, rfl⟩

/-- A stream over HTTP, whichever its binding and its chunks, brings the events of the agent. -/
theorem stream_brings (h : Serves R E endpoint info) (hname : auth.queryName = []) (hextra : auth.extraQuery = [])
    {a : StreamAsk} (ha : Asked.Valid (.inr a)) {id : Str} (hid : Utf8.valid id = true) (hhttp : info.protocol ≠ .grpc) (n : Nat) :
    ∃ req, streamRequest auth ⟨endpoint, info, a.method, Asked.wireParams info (.inr a), id⟩ = .ok req ∧
      (E.stream n req).2 = { status := 200 } ∧
      (cut E.parse [] (E.stream n req).1).flatten =
        (R.events n info.tenant a.method (orEmpty a.params)).map StreamEvent.value := by
  have hformed := Asked.formed_wireParams h.tenant ha
  cases hprotocol : info.protocol with
  | grpc => exact absurd hprotocol hhttp
  | rest =>
    obtain ⟨headers, hreq⟩ := @Asked.request_eq auth info id endpoint (.inr a) hname hextra hprotocol (J.utf8_formed hformed)
    refine ⟨⟨endpoint, Asked.verb (.inr a), Asked.target info (.inr a), Asked.body info (.inr a), headers⟩, hreq, ?_⟩
    have hvalues : R.streamed E.parse info n ⟨endpoint, Asked.verb (.inr a), Asked.target info (.inr a),
        Asked.body info (.inr a), headers⟩ = some ((R.events n info.tenant a.method (orEmpty a.params)).map StreamEvent.value) := by
      unfold Remote.streamed
      rw [if_pos hprotocol]
      dsimp only
      rw [readRequest_eq h.reads h.tenant ha]
      rfl
    obtain ⟨hchunks, hstatus⟩ := h.stream n _ _ rfl hvalues
    refine ⟨hstatus, ?_⟩
    rw [cut_sseOf h.reads ?_ hchunks, List.map_map]
    · refine List.map_congr_left fun e _ => ?_
      show (e.value.get? "result").getD e.value = e.value
      rw [e.plain]
      rfl
    · intro v hv
      obtain ⟨e, -, rfl⟩ := List.mem_map.1 hv
      exact ⟨e.formed, e.object⟩
  | rpc =>
    obtain ⟨req, hreq, hendpoint, hbody⟩ := @streamRequest_rpc endpoint info auth hname hextra hprotocol a id hid
      (J.utf8_formed hformed)
    refine ⟨req, hreq, ?_⟩
    have hvalues : R.streamed E.parse info n req =
        some ((R.events n info.tenant a.method (orEmpty a.params)).map fun e => resultBody (.str id) e.value) := by
      unfold Remote.streamed
      rw [if_neg (by rw [hprotocol]; decide), hbody, readEnvelope_text h.reads hid (valid_streamName a.method) hformed]
      dsimp only
      rw [streamMethodNamed_name, tenantOf_wireParams, bareParams_wireParams h.tenant ha]
      rfl
    obtain ⟨hchunks, hstatus⟩ := h.stream n _ _ hendpoint hvalues
    refine ⟨hstatus, ?_⟩
    rw [cut_sseOf h.reads ?_ hchunks, List.map_map]
    · rfl
    · intro v hv
      obtain ⟨e, -, rfl⟩ := List.mem_map.1 hv
      exact ⟨formed_resultBody (show (J.str id).formed = true from hid) e.formed, rfl⟩

/-- **A stream is the events of the agent.** Whatever the binding and the chunks, the callback is handed the
events of the agent in their order, if all of them come before the stop that it asks for. -/
theorem stream_served {α : Type} {onEvent : J → World × α → World × α} {stopped : α → Bool} {start : α}
    (h : Serves R E endpoint info) (hname : auth.queryName = []) (hextra : auth.extraQuery = []) {a : StreamAsk}
    (ha : Asked.Valid (.inr a)) (hinfo : bindingAt s endpoint = info)
    (hstop : Unstopped onEvent (fun st => stopped st.2)
      ((R.events s.exchanges info.tenant a.method (orEmpty a.params)).map StreamEvent.value)
      (called endpoint info a.method.name (Asked.wireParams info (.inr a)) s, start)) :
    streamCall E endpoint auth a.method a.params onEvent stopped start s =
      let ended := ((R.events s.exchanges info.tenant a.method (orEmpty a.params)).map StreamEvent.value).foldl
        (fun st e => onEvent e st) (called endpoint info a.method.name (Asked.wireParams info (.inr a)) s, start)
      .ok ({ ok := true, httpStatus := 200 }, ended.2) ended.1 := by
  have hresult : ∀ (c : Call StreamMethod) (stop : Bool), streamResult c stop { status := 200 } = { ok := true, httpStatus := 200 } := by
    intro c stop
    cases stop <;> rfl
  have hparams : setIf (!info.tenant.isEmpty) "tenant" (.str info.tenant) a.params = Asked.wireParams info (.inr a) := rfl
  unfold streamCall
  rw [Tx.bind_of_ok (observe_ok.2 ⟨rfl, rfl⟩), hinfo]
  dsimp only
  rw [hparams, Tx.bind_of_ok (nextRpcId_ok.2 ⟨rfl, rfl⟩)]
  -- the world in which the events are handled
  have hworld : ∀ x : M (A2AResult × α), (record endpoint info a.method.name (Asked.wireParams info (.inr a)) >>= fun _ => x)
      { s with rpcIds := s.rpcIds + 1 } =
        x { called endpoint info a.method.name (Asked.wireParams info (.inr a)) s with exchanges := s.exchanges } := fun _ => rfl
  by_cases hgrpc : info.protocol = .grpc
  · have hsingle : (((R.events s.exchanges info.tenant a.method (orEmpty a.params)).map StreamEvent.value).map fun e => [e]).flatten =
        (R.events s.exchanges info.tenant a.method (orEmpty a.params)).map StreamEvent.value := by
      rw [← List.flatMap_def]
      exact List.flatMap_singleton' _
    rw [if_pos hgrpc]
    refine (hworld _).trans ?_
    unfold overGrpc
    rw [h.grpcStream hgrpc _ _ _ rfl]
    dsimp only
    rw [tenantOf_wireParams, bareParams_wireParams h.tenant ha, consumeEvents_batches, hresult]
    have hbatches := batches_unstopped _ _ (hsingle.symm ▸ hstop)
    rw [hsingle] at hbatches
    exact congrArg (fun st : World × α => EStateM.Result.ok (({ ok := true, httpStatus := 200 } : A2AResult), st.2) st.1) hbatches
  · obtain ⟨req, hreq, hstatus, hevents⟩ := stream_brings h hname hextra ha (valid_natText s.rpcIds) hgrpc s.exchanges
    rw [if_neg hgrpc, Tx.bind_of_ok (Tx.lift_of_ok hreq)]
    refine (hworld _).trans ?_
    unfold overHttp
    dsimp only
    show EStateM.Result.ok (streamResult _ _ (E.stream s.exchanges req).2, _) _ = _
    rw [hstatus, hresult, consumeAll_batches]
    have hbatches := batches_unstopped _ _ (hevents.symm ▸ hstop)
    rw [hevents] at hbatches
    exact congrArg (fun st : World × α => EStateM.Result.ok (({ ok := true, httpStatus := 200 } : A2AResult), st.2) st.1) hbatches

end Streams

end A2ad.Client
