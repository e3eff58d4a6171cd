/-
Streams of events: cutting the bytes of a stream into events whatever the chunks, the values they
carry, and the task update a value is decoded to.
-/
import A2ad.Client.Rpc

namespace A2ad.Client

open Bytes Json

/-! ## Events of a stream -/

/-- The complete events of a text, each ended by a blank line, and the rest that is still pending. -/
def frames : Str → List Str × Str
  | [] => ([], [])
  | [c] => ([], [c])
  | c :: d :: rest =>
    if c = 10 ∧ d = 10 then
      let (events, pending) := frames rest
      ([] :: events, pending)
    else
      match frames (d :: rest) with
      | ([], pending) => ([], c :: pending)
      | (event :: events, pending) => ((c :: event) :: events, pending)

/-- One line of an event added to its data: `data:` lines count, joined by newlines. -/
def addLine (data line : Str) : Str :=
  if (lit "data:").isPrefixOf line then
    let value := line.drop 5
    let value := if value.head? = some 32 then value.drop 1 else value
    (if data.isEmpty then [] else data ++ [10]) ++ value
  else data

def eventData (event : Str) : Str := (event.splitOn 10).foldl addLine []

/-- The value an event carries: the result of a JSON-RPC response, or the value itself. -/
def eventValue (parse : Str → Option J) (event : Str) : Option J :=
  let data := eventData event
  if data.isEmpty || data = lit "[DONE]" then none
  else (parse data).map fun j => (j.get? "result").getD j

section Consume

variable {σ : Type} (parse : Str → Option J) (onEvent : J → σ → σ) (stopped : σ → Bool)

/-- One chunk: nothing once the stream is stopped, else every event completed by it, in order. A
stop requested by one of them takes effect at the end of the chunk. -/
def consume (st : Str × σ) (chunk : Str) : Str × σ :=
  if stopped st.2 then st
  else
    let (events, pending) := frames ((st.1 ++ chunk).filter (· ≠ 13))
    (pending, (events.filterMap (eventValue parse)).foldl (fun s event => onEvent event s) st.2)

def consumeAll (s : σ) (chunks : List Str) : σ := (chunks.foldl (consume parse onEvent stopped) ([], s)).2

/-- Events that arrive one by one, as over gRPC. -/
def consumeEvents (s : σ) : List J → σ
  | [] => s
  | event :: rest => if stopped s then s else consumeEvents (onEvent event s) rest

variable {parse onEvent stopped} {R : σ → σ → Prop} [hR : IsPreorder σ R]

/-- What every event keeps, every chunk keeps. -/
theorem consume_keeps (hevent : ∀ event s, R s (onEvent event s)) (st : Str × σ) (chunk : Str) :
    R st.2 (consume parse onEvent stopped st chunk).2 := by
  have hfold : ∀ (events : List J) (s : σ), R s (events.foldl (fun s event => onEvent event s) s) := by
    intro events
    induction events with
    | nil => exact fun s => hR.refl s
    | cons event events ih => exact fun s => hR.trans _ _ _ (hevent event s) (ih _)
  unfold consume
  split
  · exact hR.refl _
  · exact hfold _ _

theorem consumeAll_keeps (hevent : ∀ event s, R s (onEvent event s)) (s : σ) (chunks : List Str) :
    R s (consumeAll parse onEvent stopped s chunks) := by
  have hfold : ∀ (chunks : List Str) (st : Str × σ), R st.2 (chunks.foldl (consume parse onEvent stopped) st).2 := by
    intro chunks
    induction chunks with
    | nil => exact fun st => hR.refl _
    | cons chunk chunks ih => exact fun st => hR.trans _ _ _ (consume_keeps hevent st chunk) (ih _)
  exact hfold chunks ([], s)

theorem consumeEvents_keeps (hevent : ∀ event s, R s (onEvent event s)) (s : σ) (events : List J) :
    R s (consumeEvents onEvent stopped s events) := by
  induction events generalizing s with
  | nil => exact hR.refl s
  | cons event events ih =>
    unfold consumeEvents
    split
    · exact hR.refl s
    · exact hR.trans _ _ _ (hevent event s) (ih _)

end Consume

/-! ## Task updates -/

/-- The value an event holds a task in. -/
def carrier (event : J) : J := (event.get? "task").getD event

def withMetadata (update : J) (t : Task) : Task := { t with metadata := (update.get? "metadata").getD t.metadata }

/-- A status update as a partial task; without `taskId` it is about the subscribed task. -/
def statusTask (r : Str) (update : J) : Except Exception (Option Task) := do
  let id ← update.valueStr "taskId" r
  let context ← update.valueStr "contextId" ""
  let status ← update.valueJson "status" (.obj [])
  let task ← parseTask (.object [("id", .str id), ("contextId", .str context), ("status", status)])
  return task.map fun t => withMetadata update { t with partialUpdate := true }

def artifactTask (r : Str) (update : J) : Except Exception (Option Task) := do
  let id ← update.valueStr "taskId" r
  let context ← update.valueStr "contextId" ""
  let artifact ← update.valueJson "artifact" (.obj [])
  let task ← parseTask (.object [("id", .str id), ("contextId", .str context), ("artifacts", .arr [artifact])])
  let append ← update.valueBool "append" false
  return task.map fun t =>
    withMetadata update { t with partialUpdate := true, hasStateUpdate := false, artifactAppend := append }

/-- A message that names its task. -/
def messageTask (j : J) : Except Exception (Option Task) := do
  let m ← parseMessage j
  if m.taskId.isEmpty then return none
  return some {
    id := m.taskId, remoteTaskId := some m.taskId, context := m.contextId, partialUpdate := true
    hasStateUpdate := false, messages := [m] }

/-- The object at `k` handed to `f`, or what comes next. -/
def orObject {α : Type} (event : J) (k : Str) (f : J → α) (next : α) : α :=
  match event.get? k with
  | some (.obj fields) => f (.obj fields)
  | _ => next

/-- The update an event of the subscription to the remote task `r` is decoded to. -/
def decodeUpdate (r : Str) (event : J) : Except Exception (Option Task) := do
  match ← parseTask (carrier event) with
  | some task => return some task
  | none =>
    orObject event "statusUpdate" (statusTask r) <|
      orObject event "artifactUpdate" (artifactTask r) <|
        orObject event "message" messageTask (return none)

section Valid

open Utf8

variable {r : Str} {j : J} {t : Task}

theorem withMetadata_valid {u : J} (h : t.Valid) : (withMetadata u t).Valid := { h with }

theorem utf8_valueJson {k : Str} {d v : J} (hj : j.utf8 = true) (hd : d.utf8 = true) (h : j.valueJson k d = .ok v) :
    v.utf8 = true := by
  obtain ⟨-, ⟨w, hw, hv⟩ | ⟨-, rfl⟩⟩ := J.value_ok.1 h
  · cases hv
    exact J.utf8_get? hj hw
  · exact hd

theorem statusTask_valid (hr : valid r = true) (hj : j.utf8 = true) (h : statusTask r j = .ok (some t)) :
    t.Valid ∧ t.title = [] := by
  unfold statusTask at h
  obtain ⟨id, hid, h⟩ := Tx.except_bind_ok h
  obtain ⟨context, hcontext, h⟩ := Tx.except_bind_ok h
  obtain ⟨status, hstatus, h⟩ := Tx.except_bind_ok h
  obtain ⟨task, htask, h⟩ := Tx.except_bind_ok h
  have hobj : (J.object [("id", .str id), ("contextId", .str context), ("status", status)]).utf8 = true := by
    refine (J.utf8_object (by simp)).2 ?_
    simp only [List.forall_mem_cons, J.utf8_str]
    exact ⟨⟨by decide, valid_valueStr hj hr hid⟩, ⟨by decide, valid_valueStr hj (by decide) hcontext⟩,
      ⟨by decide, utf8_valueJson hj rfl hstatus⟩, by simp⟩
  cases task with
  | none => cases h
  | some u =>
    cases h
    obtain ⟨hu, htitle⟩ := parseTask_valid hobj htask
    exact ⟨withMetadata_valid { hu with }, htitle⟩

theorem artifactTask_valid (hr : valid r = true) (hj : j.utf8 = true) (h : artifactTask r j = .ok (some t)) :
    t.Valid ∧ t.title = [] := by
  unfold artifactTask at h
  obtain ⟨id, hid, h⟩ := Tx.except_bind_ok h
  obtain ⟨context, hcontext, h⟩ := Tx.except_bind_ok h
  obtain ⟨artifact, hartifact, h⟩ := Tx.except_bind_ok h
  obtain ⟨task, htask, h⟩ := Tx.except_bind_ok h
  obtain ⟨append, -, h⟩ := Tx.except_bind_ok h
  have hobj : (J.object [("id", .str id), ("contextId", .str context), ("artifacts", .arr [artifact])]).utf8 = true := by
    refine (J.utf8_object (by simp)).2 ?_
    simp only [List.forall_mem_cons, J.utf8_str, J.utf8_arr]
    exact ⟨⟨by decide, valid_valueStr hj hr hid⟩, ⟨by decide, valid_valueStr hj (by decide) hcontext⟩,
      ⟨by decide, utf8_valueJson hj rfl hartifact, by simp⟩, by simp⟩
  cases task with
  | none => cases h
  | some u =>
    cases h
    obtain ⟨hu, htitle⟩ := parseTask_valid hobj htask
    exact ⟨withMetadata_valid { hu with }, htitle⟩

theorem messageTask_valid (hj : j.utf8 = true) (h : messageTask j = .ok (some t)) : t.Valid ∧ t.title = [] := by
  unfold messageTask at h
  obtain ⟨m, hm, h⟩ := Tx.except_bind_ok h
  split at h
  · cases h
  · cases h
    have hv := parseMessage_valid hj hm
    obtain ⟨htask, hcontext⟩ := parseMessage_ids hj hm
    refine ⟨?_, rfl⟩
    exact {
      id := htask
      remoteTaskId := by rintro r ⟨⟩; exact htask
      agent := rfl, context := hcontext, stateMessage := rfl, cwd := rfl, createdAt := rfl, updatedAt := rfl
      lastStateChange := rfl, error := rfl
      messages := by simpa using hv
      artifacts := by simp }

/-- An update decoded from well-formed UTF-8 is well formed. -/
theorem decodeUpdate_valid (hr : valid r = true) (hj : j.utf8 = true) (h : decodeUpdate r j = .ok (some t)) :
    t.Valid ∧ t.title = [] := by
  have hcarrier : (carrier j).utf8 = true := by
    unfold carrier
    cases hget : j.get? "task" with
    | none => exact hj
    | some v => exact J.utf8_get? hj hget
  unfold decodeUpdate at h
  obtain ⟨task, htask, h⟩ := Tx.except_bind_ok h
  cases task with
  | some u =>
    cases h
    exact parseTask_valid hcarrier htask
  | none =>
    simp only [orObject] at h
    split at h
    · rename_i fields hget
      exact statusTask_valid hr (J.utf8_get? hj hget) h
    · split at h
      · rename_i fields hget
        exact artifactTask_valid hr (J.utf8_get? hj hget) h
      · split at h
        · rename_i fields hget
          exact messageTask_valid (J.utf8_get? hj hget) h
        · cases h

end Valid

/-! ## Calls -/

/-- The result of a stream that has ended. -/
def streamResult (c : Call StreamMethod) (stopped : Bool) (r : HttpResponse) : A2AResult :=
  let grpc := c.info.protocol == .grpc
  if stopped then { ok := true, httpStatus := r.status }
  else if r.transportError then {
    httpStatus := r.status, errorKind := .localNetwork
    error := lit (if grpc then "gRPC stream failed: " else "stream failed: ") ++ r.transportErrorDetail }
  else if !r.success then {
    httpStatus := r.status, errorKind := .protocolError
    error := c.op.name ++ (if grpc then lit " gRPC failed: " ++ r.body else lit " returned HTTP " ++ intText r.status) }
  else { ok := true, httpStatus := r.status }

/-- The events of a gRPC stream, one by one. -/
def overGrpc {α : Type} (E : Env) (auth : AuthSpec) (c : Call StreamMethod) (onEvent : J → World × α → World × α)
    (stopped : α → Bool) (start : α) : M (A2AResult × α) := fun s =>
  let answer := E.grpcStream s.exchanges auth c
  let st := consumeEvents onEvent (fun st => stopped st.2) ({ s with exchanges := s.exchanges + 1 }, start) answer.1
  .ok (streamResult c (stopped st.2) answer.2, st.2) st.1

/-- The events in the chunks of an HTTP response. -/
def overHttp {α : Type} (E : Env) (req : HttpRequest) (c : Call StreamMethod) (onEvent : J → World × α → World × α)
    (stopped : α → Bool) (start : α) : M (A2AResult × α) := fun s =>
  let answer := E.stream s.exchanges req
  let st := consumeAll E.parse onEvent (fun st => stopped st.2) ({ s with exchanges := s.exchanges + 1 }, start) answer.1
  .ok (streamResult c (stopped st.2) answer.2, st.2) st.1

/-- Opens a stream and hands every event to `onEvent`, which works on the world and on `α`. -/
def streamCall {α : Type} (E : Env) (endpoint : Str) (auth : AuthSpec) (op : StreamMethod) (params : J)
    (onEvent : J → World × α → World × α) (stopped : α → Bool) (start : α) : M (A2AResult × α) := do
  let info ← observe fun s => bindingAt s endpoint
  let params := setIf (!info.tenant.isEmpty) "tenant" (.str info.tenant) params
  let id ← nextRpcId
  let c : Call StreamMethod := ⟨endpoint, info, op, params, id⟩
  if info.protocol = .grpc then
    record endpoint info op.name params
    overGrpc E auth c onEvent stopped start
  else
    let req ← streamRequest auth c
    record endpoint info op.name params
    overHttp E req c onEvent stopped start

/-- One event of a subscription: its update goes to `onTask`, and a terminal one stops the stream.
Whatever throws is swallowed. -/
def onUpdate {β : Type} (r : Str) (onTask : Task → β → M β) (event : J) (st : World × β × Bool) : World × β × Bool :=
  let handle : M (β × Bool) := do
    match ← decodeUpdate r event with
    | none => return (st.2.1, false)
    | some task =>
      let b ← onTask task st.2.1
      return (b, task.state.isTerminal)
  match handle st.1 with
  | .ok (b, stop) s => (s, b, st.2.2 || stop)
  | .error _ s => (s, st.2)

/-- A subscription to one task; what `onTask` collects is returned with the result. -/
def subscribeToTask {β : Type} (E : Env) (endpoint : Str) (auth : AuthSpec) (taskId : Str) (onTask : Task → β → M β)
    (start : β) : M (A2AResult × β) := do
  let (r, b, _) ← streamCall E endpoint auth .subscribeToTask (idParams taskId) (onUpdate taskId onTask) (·.2)
    (start, false)
  return (r, b)

def streamParams (text taskId contextId messageId : Str) : J :=
  let message := J.object [("role", .str "ROLE_USER"), ("messageId", .str messageId),
      ("parts", .arr [.object [("text", .str text)]])]
    |> setIf (!taskId.isEmpty) "taskId" (.str taskId)
    |> setIf (!contextId.isEmpty) "contextId" (.str contextId)
  .object [("message", message)]

/-- Streams a message; the events are collected. -/
def sendStreamingMessage (E : Env) (endpoint : Str) (auth : AuthSpec) (text taskId contextId : Str) :
    M (A2AResult × List J) := do
  let messageId ← freshId E
  streamCall E endpoint auth .sendStreamingMessage (streamParams text taskId contextId messageId)
    (fun event st => (st.1, st.2 ++ [event])) (fun _ => false) []

example : frames ("data: 1\n\ndata: 2\n" : String) = ([lit "data: 1"], lit "data: 2\n") := by decide

end A2ad.Client
