/-
What is recorded of a mutating operation, from the answer its request was given: the verdict an
answer leads to, whether the agent can still have acted, and whether it has refused.
-/
import A2ad.Client.Grpc
import A2ad.Control.Finish
import A2ad.Ipc.Contact

namespace A2ad.Ipc

open Bytes Json Client TaskManager
open Control (Verdict verdict uncertain)

/-! ## Answers -/

/-- What the request of an operation was answered with; a downloaded file with what comes of
keeping it. Over gRPC a stream has no bytes. -/
inductive Answer where
  | call (x : Exchange) (method : Method)
  | stream (protocol : Protocol) (id : Str) (chunks : List Str) (response : HttpResponse)
  | file (response : HttpResponse) (kept : Except Exception (Except Str Str))

def Answer.response : Answer → HttpResponse
  | .call x _ => x.response
  | .stream _ _ _ r => r
  | .file r _ => r

/-- The request of a stream and its answer, as `streamCall` makes it. -/
def openStream (E : Env) (endpoint : Str) (auth : AuthSpec) (params : J) : M Answer := do
  let info ← observe fun s => bindingAt s endpoint
  let params := setIf (!info.tenant.isEmpty) "tenant" (.str info.tenant) params
  let id ← nextRpcId
  let c : Call StreamMethod := ⟨endpoint, info, .sendStreamingMessage, params, id⟩
  if info.protocol = .grpc then
    record endpoint info c.op.name params
    observe fun s => .stream .grpc id [] (E.grpcStream s.exchanges auth c).2
  else
    let req ← streamRequest auth c
    record endpoint info c.op.name params
    observe fun s => .stream info.protocol id (E.stream s.exchanges req).1 (E.stream s.exchanges req).2

/-- What a download has brought, offered to `keep`. -/
def keptBy (keep : Str → Except Exception (Except Str Str)) (r : HttpResponse) : Except Exception (Except Str Str) :=
  match downloaded r with
  | .error e => .ok (.error e)
  | .ok bytes => keep bytes

/-- The answer a prepared operation is given, if it makes a request. -/
def Prepared.answer (E : Env) : Prepared → M (Option Answer)
  | .idle _ => return none
  | .call endpoint auth method params _ => return some (.call (← transmit E endpoint auth method params) method)
  | .stream endpoint auth params _ => return some (← openStream E endpoint auth params)
  | .fetch request keep _ => do
    let r ← exchange E request
    return some (.file r (keptBy keep r))

def returned {α : Type} : EStateM.Result Exception World α → Option α
  | .ok a _ => some a
  | .error _ _ => none

/-- The answer to the request that the dispatch of `req` makes, card fetches aside; `none` when it
makes none. -/
def answerTo (E : Env) (F : Files) (req : J) (s : World) : Option Answer :=
  (returned ((do
    match Op.parse (← req.valueStr "op" "") with
    | none => return none
    | some op => (← prepare E F req op).answer E : M (Option Answer)) s)).join

/-! ## What an answer tells -/

/-- The response did not come through. -/
def lost (r : HttpResponse) : Bool := r.transportError || r.responseTooLarge

def clientError (r : HttpResponse) : Bool := 400 ≤ r.status && r.status < 500

def serverError (r : HttpResponse) : Bool := 500 ≤ r.status && r.status < 600

/-- The body cannot be parsed, or does not answer the request. -/
def unreadable (parse : Str → Option J) (protocol : Protocol) (id body : Str) : Bool :=
  match responseBody parse protocol body with
  | none => true
  | some j => (answers protocol j id).toOption != some true

/-- The body is an error object of the agent's that answers the request. -/
def envelope (parse : Str → Option J) (protocol : Protocol) (id body : Str) : Bool :=
  match parse body with
  | none => false
  | some j => (answers protocol j id).toOption == some true && isObjectAt j "error"

/-- What is left of a stream after its last event: the data it holds, or else its bytes. -/
def leftover (rest : Str) : Str :=
  if rest.all (· = 10) then [] else if (eventData rest).isEmpty then rest else eventData rest

/-- The texts in the bytes of a stream: the data of its events, and what is left after the last. -/
def texts (chunks : List Str) : List Str :=
  let (events, rest) := frames (chunks.flatten.filter (· ≠ 13))
  (events.map eventData ++ [leftover rest]).filter fun text => !text.isEmpty && text ≠ lit "[DONE]"

namespace Answer

variable (parse : Str → Option J)

def unreadable : Answer → Bool
  | .call x _ => Ipc.unreadable parse x.protocol x.id x.response.body
  | .stream protocol id chunks _ => (texts chunks).any (Ipc.unreadable parse protocol id)
  | .file _ _ => false

def envelope : Answer → Bool
  | .call x _ => Ipc.envelope parse x.protocol x.id x.response.body
  | .stream protocol id chunks _ => (texts chunks).any (Ipc.envelope parse protocol id)
  | .file r _ => Ipc.envelope parse .rest [] r.body

/-- The agent itself has refused: by a client error or an error object. -/
def negative (a : Answer) : Bool := clientError a.response || a.envelope parse

/-- The agent can have acted all the same: the response was lost, it is a server error, or nothing
can be read from it and it is no client error. -/
def ambiguous (a : Answer) : Bool :=
  lost a.response || serverError a.response || (!clientError a.response && a.unreadable parse)

/-- The answers the daemon judges soundly. -/
def clear : Answer → Bool
  | .call x m => lost x.response ||
      (!serverError x.response && (x.response.success || negative parse (.call x m)))
  | .stream protocol id chunks r =>
    let a := Answer.stream protocol id chunks r
    r.transportError || (!r.responseTooLarge && !serverError r &&
      (clientError r || (!a.unreadable parse && (r.success || a.envelope parse))))
  | .file r kept =>
    match kept with
    | .error _ => true
    | .ok kept => !lost r && !serverError r && (negative parse (.file r (.ok kept)) || kept.toOption.isSome)

end Answer

/-! ## Verdicts of replies -/

/-- A reply that says how the operation ended, with the kind of its error. -/
structure Replies (ok : Bool) (kind : Str) (j : J) : Prop where
  object : j.isObject = true
  ok : j.get? "ok" = some (.bool ok)
  kind : j.get? "error_kind" = some (.str kind) ∨ j.get? "error_kind" = none ∧ kind = []

/-- The verdict on an operation that ended so. -/
def outcomeVerdict (ok : Bool) (kind : Str) : Verdict :=
  if uncertain kind then .uncertain else if ok then .succeeded else .failed

theorem Replies.verdict {ok : Bool} {kind : Str} {j : J} (h : Replies ok kind j) : verdict j = .ok (outcomeVerdict ok kind) := by
  have hkind : j.valueStr "error_kind" "" = .ok kind := J.valueStr_ok.2 ⟨h.object, h.kind.imp_right fun k => ⟨k.1, k.2.symm⟩⟩
  have hok : j.valueBool "ok" false = .ok ok := J.value_ok.2 ⟨h.object, .inl ⟨_, h.ok, rfl⟩⟩
  unfold Control.verdict outcomeVerdict
  rw [hkind, hok]
  simp only [bind, Except.bind]
  split
  · rfl
  · cases ok <;> rfl

/-! ## What the operations reply -/

/-- The reply of an operation that was refused is the one its result names. -/
theorem replies_refusal {error kind : Str} : Replies false kind (refusal error kind) where
  object := rfl
  ok := by simp [refusal]
  kind := .inl (by simp [refusal])

/-- An object that says `ok` and no kind of error. -/
theorem replies_object {ok : Bool} {fields : List (Str × J)} (h : J.find "ok" fields = some (.bool ok))
    (hk : J.find "error_kind" fields = none) : Replies ok [] (.object fields) where
  object := rfl
  ok := by rw [J.get?_object, h]
  kind := .inr ⟨by rw [J.get?_object, hk], rfl⟩

/-- The reply `j` goes by the result `r`. -/
def Follows (r : A2AResult) (j : J) : Prop := if r.ok then Replies true [] j else Replies false r.errorKind.name j

/-- What the conclusion of an operation replies: it goes by the result, and a refused one does not throw. -/
def Prepared.Reports : Prepared → Prop
  | .idle _ => True
  | .call _ _ _ _ conclude => ∀ r s,
    (∀ j s', conclude r s = .ok j s' → Follows r j) ∧ (r.ok = false → ∃ j s', conclude r s = .ok j s')
  | .stream _ _ _ conclude => ∀ a s, ∃ j, conclude a s = .ok j s ∧ Follows a.1 j
  | .fetch _ keep conclude => ∀ r s,
    match keptBy keep r with
    | .error _ => ∃ e, conclude r s = .error e s
    | .ok kept => ∃ s', conclude r s = .ok (materializeReply kept) s'

/-- A conclusion that replies at once to a refused result, and otherwise says `ok`. -/
theorem reports_call {endpoint : Str} {auth : AuthSpec} {method : Method} {params : J} {conclude : A2AResult → M J}
    (hfail : ∀ r s, r.ok = false → ∃ j, conclude r s = .ok j s ∧ Replies false r.errorKind.name j)
    (hok : ∀ r s j s', r.ok = true → conclude r s = .ok j s' → Replies true [] j) :
    (Prepared.call endpoint auth method params conclude).Reports := by
  intro r s
  constructor
  · intro j s' h
    unfold Follows
    split
    · rename_i hr
      exact hok r s j s' hr h
    · rename_i hr
      obtain ⟨j', hj', hreply⟩ := hfail r s (by simpa using hr)
      rw [hj'] at h
      cases h
      exact hreply
  · intro hr
    obtain ⟨j, hj, -⟩ := hfail r s hr
    exact ⟨j, s, hj⟩

section Reports

variable {E : Env} {F : Files} {req : J}

theorem prepareSend_reports {endpoint : Str} {auth : AuthSpec} {text taskId contextId requestId : Str}
    {conclude : A2AResult → M J} (h : ∀ params, (Prepared.call endpoint auth .sendMessage params conclude).Reports) :
    Tx.Returns Prepared.Reports (prepareSend E endpoint auth text taskId contextId requestId conclude) := by
  unfold prepareSend
  split
  · exact Tx.returns_bind fun _ => Tx.returns_pure (h _)
  · exact Tx.returns_bind fun _ => Tx.returns_pure (h _)

theorem concludeSubmit_reports {endpoint : Str} {auth : AuthSpec} {params : J} {c : CreateTaskRequest} :
    (Prepared.call endpoint auth .sendMessage params (concludeSubmit E c)).Reports := by
  refine reports_call ?_ ?_
  · intro r s hr
    unfold concludeSubmit
    rw [if_neg (by simp [hr])]
    exact ⟨_, rfl, replies_refusal⟩
  · intro r s j s' hr h
    unfold concludeSubmit at h
    rw [if_pos hr] at h
    obtain ⟨resp, _, hresp, h⟩ := Tx.bind_ok.1 h
    obtain ⟨rfl, -⟩ := Tx.pure_ok.1 h
    unfold concludeCreate at hresp
    obtain ⟨t, _, -, hresp⟩ := Tx.bind_ok.1 hresp
    obtain ⟨_, _, -, hresp⟩ := Tx.bind_ok.1 hresp
    obtain ⟨_, _, -, hresp⟩ := Tx.bind_ok.1 hresp
    obtain ⟨_, _, -, hresp⟩ := Tx.bind_ok.1 hresp
    obtain ⟨_, _, -, hresp⟩ := Tx.bind_ok.1 hresp
    obtain ⟨_, _, -, hresp⟩ := Tx.bind_ok.1 hresp
    obtain ⟨rfl, -⟩ := Tx.pure_ok.1 hresp
    exact replies_object rfl rfl

theorem prepareSubmit_reports : Tx.Returns Prepared.Reports (prepareSubmit E req) := by
  unfold prepareSubmit
  refine Tx.returns_bind fun _ => Tx.returns_bind fun _ => ?_
  split
  · exact Tx.returns_pure trivial
  · refine Tx.returns_bind fun _ => Tx.returns_bind fun _ => Tx.returns_bind fun _ => Tx.returns_bind fun _ =>
      Tx.returns_bind fun resolved => ?_
    cases resolved with
    | none => exact Tx.returns_pure trivial
    | some found => exact prepareSend_reports fun _ => concludeSubmit_reports

theorem concludeRespondOp_reports {endpoint : Str} {auth : AuthSpec} {params : J} {existing : Task} :
    (Prepared.call endpoint auth .sendMessage params (concludeRespondOp E existing)).Reports := by
  refine reports_call ?_ ?_
  · intro r s hr
    unfold concludeRespondOp
    rw [if_neg (by simp [hr])]
    exact ⟨_, rfl, replies_refusal⟩
  · intro r s j s' hr h
    unfold concludeRespondOp at h
    rw [if_pos hr] at h
    obtain ⟨resp, _, hresp, h⟩ := Tx.bind_ok.1 h
    obtain ⟨rfl, -⟩ := Tx.pure_ok.1 h
    unfold concludeRespond at hresp
    obtain ⟨_, _, -, hresp⟩ := Tx.bind_ok.1 hresp
    obtain ⟨_, _, -, hresp⟩ := Tx.bind_ok.1 hresp
    obtain ⟨_, _, -, hresp⟩ := Tx.bind_ok.1 hresp
    obtain ⟨_, _, -, hresp⟩ := Tx.bind_ok.1 hresp
    obtain ⟨rfl, -⟩ := Tx.pure_ok.1 hresp
    exact replies_object rfl rfl

theorem prepareRespond_reports : Tx.Returns Prepared.Reports (prepareRespond E req) := by
  unfold prepareRespond
  refine Tx.returns_bind fun _ => Tx.returns_bind fun _ => Tx.returns_bind fun _ => Tx.returns_bind fun stored => ?_
  cases stored with
  | none => exact Tx.returns_pure trivial
  | some existing =>
    refine Tx.returns_bind fun resolved => ?_
    cases resolved with
    | none => exact Tx.returns_pure trivial
    | some found => exact prepareSend_reports fun _ => concludeRespondOp_reports

theorem Follows.failed {r : A2AResult} {j : J} (h : Follows r j) (hr : r.ok = false) : Replies false r.errorKind.name j := by
  unfold Follows at h
  rwa [if_neg (by simp [hr])] at h

theorem Follows.succeeded {r : A2AResult} {j : J} (h : Follows r j) (hr : r.ok = true) : Replies true [] j := by
  unfold Follows at h
  rwa [if_pos hr] at h

theorem follows_cancelReply (id : Str) (r : A2AResult) : Follows r (cancelReply id r) := by
  unfold Follows cancelReply
  cases r.ok with
  | true => exact replies_object rfl rfl
  | false => exact replies_refusal

theorem concludeCancelOp_reports {endpoint id : Str} {auth : AuthSpec} {params : J} {existing : Task} :
    (Prepared.call endpoint auth .cancelTask params (concludeCancelOp E id existing)).Reports := by
  refine reports_call ?_ ?_
  · intro r s hr
    refine ⟨_, ?_, (follows_cancelReply id r).failed hr⟩
    unfold concludeCancelOp
    rw [hr]
    rfl
  · intro r s j s' hr h
    unfold concludeCancelOp at h
    obtain rfl : cancelReply id r = j := by
      generalize r.task = task at h
      rw [hr] at h
      cases task with
      | none => exact (Tx.pure_ok.1 h).1
      | some t =>
        obtain ⟨_, _, -, h⟩ := Tx.bind_ok.1 h
        exact (Tx.pure_ok.1 h).1
    exact (follows_cancelReply id r).succeeded hr

theorem prepareCancel_reports : Tx.Returns Prepared.Reports (prepareCancel E req) := by
  unfold prepareCancel
  refine Tx.returns_bind fun id => Tx.returns_bind fun located => ?_
  cases located with
  | inl refusal => exact Tx.returns_pure trivial
  | inr found => exact Tx.returns_ite (Tx.returns_pure trivial) (Tx.returns_pure concludeCancelOp_reports)

theorem follows_streamReply {answer : A2AResult × List J} : Follows answer.1 (streamReply answer) := by
  unfold Follows streamReply
  cases answer.1.ok with
  | true => exact replies_object rfl rfl
  | false =>
    have h : Replies false answer.1.errorKind.name (resultRefusal answer.1) := replies_refusal
    show Replies false _ ((resultRefusal answer.1).set "events" (.arr answer.2))
    refine ⟨J.isObject_set h.object, ?_, ?_⟩
    · rw [J.get?_set h.object, if_neg (by simp), h.ok]
    · rw [J.get?_set h.object, if_neg (by simp)]
      exact h.kind

theorem prepareStream_reports : Tx.Returns Prepared.Reports (prepareStream E req) := by
  unfold prepareStream
  refine Tx.returns_bind fun _ => Tx.returns_bind fun _ => Tx.returns_bind fun _ => Tx.returns_bind fun _ =>
    Tx.returns_bind fun resolved => ?_
  cases resolved with
  | none => exact Tx.returns_pure trivial
  | some found =>
    exact Tx.returns_bind fun _ => Tx.returns_pure fun answer s => ⟨streamReply answer, rfl, follows_streamReply⟩

theorem pushCreateReply_reports {endpoint : Str} {auth : AuthSpec} {params : J} :
    (Prepared.call endpoint auth .createPushConfig params pushCreateReply).Reports := by
  refine reports_call ?_ ?_
  · intro r s hr
    unfold pushCreateReply
    rw [if_pos (by simp [hr])]
    exact ⟨_, rfl, replies_refusal⟩
  · intro r s j s' hr h
    unfold pushCreateReply at h
    rw [if_neg (by simp [hr])] at h
    obtain ⟨_, _, -, h⟩ := Tx.bind_ok.1 h
    obtain ⟨rfl, -⟩ := Tx.pure_ok.1 h
    exact replies_object rfl rfl

theorem pushResult_reports {endpoint : Str} {auth : AuthSpec} {params : J} :
    (Prepared.call endpoint auth .deletePushConfig params pushResult).Reports := by
  refine reports_call ?_ ?_
  · intro r s hr
    unfold pushResult
    rw [if_pos (by simp [hr])]
    exact ⟨_, rfl, replies_refusal⟩
  · intro r s j s' hr h
    unfold pushResult at h
    rw [if_neg (by simp [hr])] at h
    obtain ⟨_, _, -, h⟩ := Tx.bind_ok.1 h
    obtain ⟨rfl, -⟩ := Tx.pure_ok.1 h
    exact replies_object rfl rfl

theorem preparePushCreate_reports : Tx.Returns Prepared.Reports (preparePushCreate E req) := by
  unfold preparePushCreate
  refine Tx.returns_bind fun _ => Tx.returns_bind fun _ => Tx.returns_bind fun _ =>
    Tx.returns_ite (Tx.returns_pure trivial) ?_
  refine Tx.returns_bind fun _ => Tx.returns_bind fun _ => Tx.returns_bind fun _ => Tx.returns_bind fun _ =>
    Tx.returns_bind fun resolved => ?_
  cases resolved with
  | none => exact Tx.returns_pure trivial
  | some found => exact Tx.returns_pure pushCreateReply_reports

theorem preparePushDelete_reports : Tx.Returns Prepared.Reports (preparePushDelete E req) := by
  unfold preparePushDelete
  refine Tx.returns_bind fun _ => Tx.returns_bind fun _ => Tx.returns_bind fun _ => Tx.returns_bind fun resolved => ?_
  cases resolved with
  | none => exact Tx.returns_pure trivial
  | some found => exact Tx.returns_pure pushResult_reports

theorem keepDownload_reports {taskId : Str} {k : Keeping} {request : HttpRequest} :
    (Prepared.fetch request (k.keep F) fun r => return materializeReply (← keepDownload F taskId k r)).Reports := by
  intro r s
  simp only [keptBy, keepDownload]
  cases downloaded r with
  | error e => exact ⟨s, rfl⟩
  | ok bytes =>
    simp only
    cases hkept : k.keep F bytes with
    | error e =>
      refine ⟨e, ?_⟩
      refine Tx.bind_error.2 (.inl ?_)
      exact Tx.bind_error.2 (.inl (Tx.lift_error.2 ⟨hkept, rfl⟩))
    | ok kept =>
      unfold keepBytes
      rw [bind_assoc, Tx.bind_of_ok (Tx.lift_of_ok hkept)]
      cases kept with
      | error e => exact ⟨s, rfl⟩
      | ok path => exact ⟨_, rfl⟩

theorem prepareMaterialize_reports : Tx.Returns Prepared.Reports (prepareMaterialize E F req) := by
  unfold prepareMaterialize
  refine Tx.returns_bind fun _ => Tx.returns_bind fun _ => Tx.returns_bind fun _ => Tx.returns_bind fun _ =>
    Tx.returns_bind fun _ => Tx.returns_bind fun stored => ?_
  cases stored with
  | none => exact Tx.returns_pure trivial
  | some t =>
    simp only
    split
    · exact Tx.returns_pure trivial
    · split
      · exact Tx.returns_pure trivial
      · exact Tx.returns_pure trivial
      · refine Tx.returns_bind fun requested => ?_
        cases requested with
        | error e => exact Tx.returns_pure trivial
        | ok request => exact Tx.returns_pure keepDownload_reports

theorem prepare_reports (op : Op) : Tx.Returns Prepared.Reports (prepare E F req op) := by
  cases op with
  | submit => exact prepareSubmit_reports
  | respond => exact prepareRespond_reports
  | cancel => exact prepareCancel_reports
  | streamSubmit => exact prepareStream_reports
  | pushCreate => exact preparePushCreate_reports
  | pushDelete => exact preparePushDelete_reports
  | materialize => exact prepareMaterialize_reports
  | _ => exact Tx.returns_pure trivial

end Reports

/-! ## How a response is judged -/

/-- The kinds of errors after which the outcome of a call is open. -/
def unsettled : ErrorKind → Bool
  | .localNetwork | .malformedResponse => true
  | _ => false

theorem uncertain_name (kind : ErrorKind) : uncertain kind.name = unsettled kind := by cases kind <;> decide

section Classify

variable {parse : Str → Option J} {protocol : Protocol} {endpoint id : Str} {method : Method} {r : HttpResponse}
  {out : A2AResult}

theorem classify_refused (h : screen parse protocol endpoint id r = .ok (.inl out)) :
    classify parse protocol endpoint id method r = .ok out := by
  unfold classify
  rw [h]
  rfl

/-- A response that was lost leaves the outcome open. -/
theorem classify_lost (h : lost r = true) : ∃ out, classify parse protocol endpoint id method r = .ok out ∧
    out.ok = false ∧ unsettled out.errorKind = true := by
  have hscreen : ∃ out, screen parse protocol endpoint id r = .ok (.inl out) ∧
      out.ok = false ∧ unsettled out.errorKind = true := by
    unfold screen
    split
    · exact ⟨_, rfl, rfl, rfl⟩
    · rename_i hlarge
      have herror : r.transportError = true := by simpa [lost, hlarge] using h
      rw [if_pos herror]
      exact ⟨_, rfl, rfl, rfl⟩
  obtain ⟨out, hout, hjudged⟩ := hscreen
  exact ⟨out, classify_refused hout, hjudged⟩

/-- A response that came through with another status than a success is a refusal, whatever it says. -/
theorem classify_unsuccessful (hl : lost r = false) (hs : r.success = false) :
    ∃ out, classify parse protocol endpoint id method r = .ok out ∧
      out.ok = false ∧ unsettled out.errorKind = false := by
  obtain ⟨herror, hlarge⟩ := Bool.or_eq_false_iff.1 hl
  have hscreen : ∃ out, screen parse protocol endpoint id r = .ok (.inl out) ∧
      out.ok = false ∧ unsettled out.errorKind = false := by
    unfold screen
    rw [if_neg (by simp [hlarge]), if_neg (by simp [herror])]
    split
    · exact ⟨_, rfl, rfl, rfl⟩
    · rw [if_pos (by simp [hs])]
      exact ⟨_, rfl, rfl, rfl⟩
  obtain ⟨out, hout, hjudged⟩ := hscreen
  exact ⟨out, classify_refused hout, hjudged⟩

theorem screen_success (hl : lost r = false) (hs : r.success = true) : screen parse protocol endpoint id r =
    match responseBody parse protocol r.body with
    | none => .ok (.inl {
        httpStatus := r.status, errorKind := .malformedResponse
        error := lit "could not parse A2A JSON-RPC response from " ++ endpoint })
    | some j => screenBody protocol id r.status j := by
  obtain ⟨herror, hlarge⟩ := Bool.or_eq_false_iff.1 hl
  have hauth : ¬ (r.status = 401 ∨ r.status = 403) := by
    simp only [HttpResponse.success, Bool.and_eq_true, decide_eq_true_eq] at hs
    omega
  unfold screen
  rw [if_neg (by simp [hlarge]), if_neg (by simp [herror]), if_neg hauth]
  exact if_neg (by simp [hs])

/-- A success that cannot be read leaves the outcome open. -/
theorem classify_unreadable (hl : lost r = false) (hs : r.success = true)
    (hu : unreadable parse protocol id r.body = true) (h : classify parse protocol endpoint id method r = .ok out) :
    out.ok = false ∧ unsettled out.errorKind = true := by
  unfold classify at h
  rw [screen_success hl hs] at h
  unfold unreadable at hu
  split at hu
  · rename_i hbody
    rw [hbody] at h
    cases h
    exact ⟨rfl, rfl⟩
  · rename_i j hbody
    rw [hbody] at h
    unfold screenBody at h
    simp only at h
    cases hanswers : answers protocol j id with
    | error e =>
      rw [hanswers] at h
      cases h
    | ok b =>
      rw [hanswers] at hu h
      cases b with
      | true => cases hu
      | false =>
        cases h
        exact ⟨rfl, rfl⟩

/-- A result that is not accepted leaves the outcome open. -/
theorem classifyResult_refused {status : Int} {result : J} (h : classifyResult method status result = .ok out)
    (hr : out.ok = false) : out.errorKind = .malformedResponse := by
  unfold classifyResult at h
  simp only at h
  split at h
  · obtain ⟨tasks, -, h⟩ := Tx.except_bind_ok h
    obtain ⟨page, -, h⟩ := Tx.except_bind_ok h
    cases h
    cases hr
  · obtain ⟨task, -, h⟩ := Tx.except_bind_ok h
    split at h <;> cases h
    · rfl
    · unfold taskOutcome at hr
      split at hr <;> cases hr
  · split at h
    · cases h
      rfl
    · obtain ⟨m, -, h⟩ := Tx.except_bind_ok h
      cases h
      cases hr
  · split at h <;> cases h
    · cases hr
    · rfl

/-- Over HTTP+JSON and gRPC a success is a result, so that only JSON-RPC has error objects. -/
theorem responseBody_result {j : J} {body : Str} (hp : protocol ≠ .rpc) (h : responseBody parse protocol body = some j) :
    j.get? "error" = none := by
  unfold responseBody at h
  have hwrap : ∀ result : J, (J.object [("jsonrpc", .str "2.0"), ("result", result)]).get? "error" = none := by
    intro result
    simp
  split at h
  · exact absurd rfl hp
  · split at h
    · cases h
      exact hwrap _
    · obtain ⟨result, -, rfl⟩ := Option.map_eq_some_iff.1 h
      exact hwrap _

/-- A success is a refusal only where it is an error object. -/
theorem classify_failed (hl : lost r = false) (hs : r.success = true)
    (h : classify parse protocol endpoint id method r = .ok out) (hr : out.ok = false)
    (hk : unsettled out.errorKind = false) : envelope parse protocol id r.body = true := by
  unfold classify at h
  rw [screen_success hl hs] at h
  split at h
  · cases h
    cases hk
  · rename_i j hbody
    obtain ⟨screened, hscreen, h⟩ := Tx.except_bind_ok h
    unfold screenBody at hscreen
    obtain ⟨answered, hanswers, hscreen⟩ := Tx.except_bind_ok hscreen
    cases answered with
    | false =>
      cases hscreen
      cases h
      cases hk
    | true =>
      simp only [Bool.not_true, Bool.false_eq_true, if_false] at hscreen
      split at hscreen
      · rename_i fields herror
        -- the body itself is the error object
        have hp : protocol = .rpc := by
          by_contra hp
          rw [responseBody_result hp hbody] at herror
          cases herror
        subst hp
        have hparse : parse r.body = some j := hbody
        unfold envelope
        rw [hparse]
        simp [hanswers, Except.toOption, isObjectAt, herror, J.isObject]
      · split at hscreen
        · cases hscreen
          cases h
          cases hk
        · cases hscreen
          rw [classifyResult_refused h hr] at hk
          cases hk

end Classify

end A2ad.Ipc
