/-
Completed interactions: what an answer to a message makes of a stored task, next to what the answer
says. An answer that is a list of tasks is accepted without a task or a message, and is recorded as a
finished interaction.
-/
import A2ad.Client.Readable
import A2ad.Task.Terminal

namespace A2ad.TaskManager

open Bytes Json Client

/-! ## What an answer tells -/

/-- The value is `j`, or holds it at `k`. -/
def Holds (value : J) (k : Str) (j : J) : Prop := value = j ∨ value.get? k = some j

/-- The answer is a task in state `st`, or a message, which finishes the interaction. -/
def Tells (value : J) (st : TaskState) : Prop :=
  (∃ j id, Holds value "task" j ∧ j.get? "id" = some (.str id) ∧ saidBy j = some st) ∨
    st = .completed ∧ ∃ j, Holds value "message" j ∧ looksLikeMessage j = true

theorem get?_of_isObjectAt {j : J} {k : Str} (h : isObjectAt j k = true) : j.get? k = some ((j.get? k).getD .null) := by
  unfold isObjectAt at h
  cases hget : j.get? k with
  | none =>
    rw [hget] at h
    cases h
  | some v => rfl

/-- A task or a message is found in the result itself or under its own key. -/
theorem holds_payload {value j : J} :
    (payload value = .task j → Holds value "task" j) ∧ (payload value = .message j → Holds value "message" j) := by
  unfold payload
  split
  · exact ⟨fun h => (by cases h), fun h => (by cases h)⟩
  · split
    · rename_i hobject
      refine ⟨fun h => ?_, fun h => (by cases h)⟩
      cases h
      exact .inr (get?_of_isObjectAt hobject)
    · split
      · rename_i hobject
        refine ⟨fun h => (by cases h), fun h => ?_⟩
        cases h
        exact .inr (get?_of_isObjectAt hobject)
      · split
        · refine ⟨fun h => ?_, fun h => (by cases h)⟩
          cases h
          exact .inl rfl
        · split
          · refine ⟨fun h => (by cases h), fun h => ?_⟩
            cases h
            exact .inl rfl
          · exact ⟨fun h => (by cases h), fun h => (by cases h)⟩

section Answers

variable {r : A2AResult}

/-- An accepted answer that is no list is a task or a message, and tells the state it leads to. -/
theorem accepted_single (h : Accepted .sendMessage r) (hlist : taskList r.value = none) :
    (∃ t, r.task = some t ∧ r.message = none ∧ (t.state.isTerminal = true → Tells r.value t.state)) ∨
      ∃ m, r.task = none ∧ r.message = some m ∧ Tells r.value .completed := by
  cases h with
  | tasks items hpayload =>
    rw [taskList_of_payload hpayload] at hlist
    cases hlist
  | task j t hpayload hparse htask hmessage =>
    refine .inl ⟨t, htask, hmessage, fun hterminal => ?_⟩
    obtain ⟨hsaid, hunsaid⟩ := state_parseTask hparse
    cases hsays : saidBy j with
    | none =>
      rw [hunsaid hsays] at hterminal
      cases hterminal
    | some st =>
      rw [hsaid st hsays]
      have hid : ∃ id, j.get? "id" = some (.str id) := by
        by_contra hno
        rw [parseTask_none.2 fun id h => hno ⟨id, h⟩] at hparse
        cases hparse
      obtain ⟨id, hid⟩ := hid
      exact .inl ⟨j, id, holds_payload.1 hpayload, hid, hsays⟩
  | message j m hpayload hlooks _ htask hmessage =>
    exact .inr ⟨m, htask, hmessage, .inr ⟨rfl, j, holds_payload.2 hpayload, hlooks⟩⟩
  | other _ hvalue => cases hvalue

end Answers

/-! ## States of the stored tasks -/

/-- Every stored task is in the state it was in, or in one that `P` allows. -/
def StatesBy (E : Env) (P : TaskState → Prop) (s s' : World) : Prop :=
  ∀ id t', s'.task E id = some t' → (s.task E id).map (fun t => t.state) = some t'.state ∨ P t'.state

instance (E : Env) (P : TaskState → Prop) : IsPreorder World (StatesBy E P) where
  refl s id t h := .inl (by rw [h]; rfl)
  trans s u v h h' id t ht := by
    rcases h' id t ht with hu | hP
    · obtain ⟨t', ht', hstate⟩ := Option.map_eq_some_iff.1 hu
      rw [← hstate]
      exact h id t' ht'
    · exact .inr hP

section States

variable {E : Env} {P : TaskState → Prop}

theorem StatesBy.of_rows {s s' : World} (h : s'.tasks = s.tasks) : StatesBy E P s s' := by
  intro id t ht
  rw [World.task, h] at ht
  exact .inl (by rw [World.task, ht]; rfl)

theorem StatesBy.of_frame (s s' : World) (h : Frame beside s s') : StatesBy E P s s' := .of_rows (h.rows (by decide))

instance (priority := low) {α : Type} {x : M α} [hx : Touches beside x] : Tx.Keeps (StatesBy E P) x :=
  Tx.keeps_mono StatesBy.of_frame hx

/-- A write brings in the state of the record written. -/
theorem statesBy_insertTask {t : Task} (hP : P t.state) : Tx.Keeps (StatesBy E P) (insertTask E t) := by
  refine ⟨fun s => ?_⟩
  unfold insertTask
  refine Tx.ends_lift_bind fun row hrow id t' ht' => ?_
  change ((if E.busy s.writes then s.tasks else s.tasks.insert row.id row).lookup (cstr id)).map
    (taskFromRow E.parse) = some t' at ht'
  split at ht'
  · exact (refl_of (StatesBy E P) s) id t' ht'
  · by_cases hid : cstr id = row.id
    · rw [hid, AList.lookup_insert] at ht'
      obtain rfl : taskFromRow E.parse row = t' := Option.some.inj ht'
      rw [state_of_bindTask hrow]
      exact .inr hP
    · rw [AList.lookup_insert_ne hid] at ht'
      exact (refl_of (StatesBy E P) s) id t' ht'

/-- The state of a new record: that of the task in the answer, or finished. -/
def createdState (r : A2AResult) : TaskState :=
  match r.task with
  | some task => task.state
  | none => .completed

theorem state_newRecord (req : CreateTaskRequest) (r : A2AResult) :
    Tx.Returns (fun t : Task => t.state = createdState r) (newRecord E req r) := by
  unfold newRecord createdState
  refine Tx.returns_bind fun id => ?_
  cases r.task with
  | some task =>
    refine Tx.returns_ite (Tx.returns_bind fun created => Tx.returns_pure ?_) (Tx.returns_bind fun created => Tx.returns_pure ?_)
    · rfl
    · rfl
  | none =>
    refine Tx.returns_bind fun created => Tx.returns_ite (Tx.returns_bind fun messageId => ?_)
      (Tx.returns_bind fun messageId => ?_)
    · refine Tx.returns_bind fun now => Tx.returns_pure ?_
      rfl
    · refine Tx.returns_bind fun now => Tx.returns_pure ?_
      rfl

theorem statesBy_concludeCreate {req : CreateTaskRequest} {r : A2AResult}
    (hP : P (createdState r)) (s : World) : StatesBy E P s (Tx.endState (concludeCreate E req r s)) := by
  unfold concludeCreate
  refine Tx.ends_bind ((inferInstance : Tx.Keeps (StatesBy E P) (newRecord E req r)).out s) fun t w ht => ?_
  rw [← state_newRecord req r s t w ht] at hP
  have hinsert : ∀ updated changed, Tx.Keeps (StatesBy E P)
      (insertTask E { t with updatedAt := updated, lastStateChange := changed }) := fun _ _ => statesBy_insertTask hP
  exact (Tx.keeps_bind (k := fun updated => Tx.keeps_bind (k := fun changed => Tx.keeps_bind
    (h := hinsert updated changed)))).out w

theorem statesBy_concludeRespond {existing : Task} {r : A2AResult} (hP : P (respondedTask existing r).state) :
    Tx.Keeps (StatesBy E P) (concludeRespond E existing r) := by
  have hwrite : ∀ updated changed, Tx.Keeps (StatesBy E P)
      (updateTask E { respondedTask existing r with updatedAt := updated, lastStateChange := changed }) :=
    fun _ _ => statesBy_insertTask hP
  exact Tx.keeps_bind (k := fun updated => Tx.keeps_bind (k := fun changed => Tx.keeps_bind
    (h := hwrite updated changed)))

end States

/-! ## Exchanges -/

/-- A message on the wire, with what comes back for it. -/
def posted (E : Env) (endpoint : Str) (auth : AuthSpec) (text taskId contextId messageId : Str) : M Exchange := do
  let messageId ← if messageId.isEmpty then freshId E else pure messageId
  transmit E endpoint auth .sendMessage (sendParams text taskId contextId messageId)

/-- The message of the operation gets to the agent, and the response to it carries `result`. -/
def Operation.Gets (E : Env) (s : World) (result : J) : Operation → Prop
  | create req => ∃ endpoint auth w x v, resolveEndpoint E req.agent s = .ok (some (endpoint, auth)) w ∧
      posted E endpoint auth (payloadText req) req.continueTaskId req.continueContextId req.requestId w = .ok x v ∧
      resultIn E.parse x.protocol x.id x.response = some result
  | respond taskId text requestId => ∃ existing, s.task E taskId = some existing ∧ ∃ endpoint auth w x v,
      resolveEndpoint E existing.agent s = .ok (some (endpoint, auth)) w ∧
      posted E endpoint auth text (existing.remoteTaskId.getD []) existing.context requestId w = .ok x v ∧
      resultIn E.parse x.protocol x.id x.response = some result
  | _ => False

section Exchanges

variable {E : Env} {op : Operation} {s v : World} {r : A2AResult} {result : J}

theorem sendMessage_posted {endpoint : Str} {auth : AuthSpec} {text taskId contextId messageId : Str} {w : World} :
    sendMessage E endpoint auth text taskId contextId messageId w = .ok r v ↔
      ∃ x, posted E endpoint auth text taskId contextId messageId w = .ok x v ∧ x.classify E .sendMessage = .ok r := by
  have hcall : ∀ id u, rpcCall E endpoint auth .sendMessage (sendParams text taskId contextId id) u = .ok r v ↔
      ∃ x, transmit E endpoint auth .sendMessage (sendParams text taskId contextId id) u = .ok x v ∧
        x.classify E .sendMessage = .ok r := by
    intro id u
    unfold rpcCall
    simp only [Tx.bind_ok, Tx.lift_ok]
    constructor
    · rintro ⟨x, v', hx, hr, rfl⟩
      exact ⟨x, hx, hr⟩
    · rintro ⟨x, hx, hr⟩
      exact ⟨x, v, hx, hr, rfl⟩
  unfold sendMessage posted
  by_cases hid : messageId.isEmpty
  · simp only [hid, if_true, Tx.bind_ok, hcall]
    constructor
    · rintro ⟨id, u, hfresh, x, hx, hr⟩
      exact ⟨x, ⟨id, u, hfresh, hx⟩, hr⟩
    · rintro ⟨x, ⟨id, u, hfresh, hx⟩, hr⟩
      exact ⟨id, u, hfresh, x, hx, hr⟩
  · simp only [hid, if_false, Bool.false_eq_true, Tx.bind_ok, Tx.pure_ok, hcall]
    constructor
    · rintro ⟨id, u, hfresh, x, hx, hr⟩
      exact ⟨x, ⟨id, u, hfresh, hx⟩, hr⟩
    · rintro ⟨x, ⟨id, u, hfresh, hx⟩, hr⟩
      exact ⟨id, u, hfresh, x, hx, hr⟩

/-- An accepted answer is the result that the response carries. -/
theorem Operation.Calls.gets (h : op.Calls E s r v) (hop : op.method = .sendMessage) (hok : r.ok = true) :
    op.Gets E s r.value ∧ ∃ status, classifyResult .sendMessage status r.value = .ok r := by
  have hresult : ∀ {x : Exchange}, x.classify E .sendMessage = .ok r →
      resultIn E.parse x.protocol x.id x.response = some r.value ∧
        classifyResult .sendMessage x.response.status r.value = .ok r := by
    intro x hr
    have hin := resultIn_accepted hr hok
    exact ⟨hin, (classify_resultIn hin).symm.trans hr⟩
  cases op with
  | create req =>
    obtain ⟨endpoint, auth, w, hresolve, hcall⟩ := h
    obtain ⟨x, hx, hr⟩ := sendMessage_posted.1 hcall
    exact ⟨⟨endpoint, auth, w, x, v, hresolve, hx, (hresult hr).1⟩, _, (hresult hr).2⟩
  | respond taskId text requestId =>
    obtain ⟨existing, hstored, endpoint, auth, w, hresolve, hcall⟩ := h
    obtain ⟨x, hx, hr⟩ := sendMessage_posted.1 hcall
    exact ⟨⟨existing, hstored, endpoint, auth, w, x, v, hresolve, hx, (hresult hr).1⟩, _, (hresult hr).2⟩
  | _ => cases hop

/-- A result that can be read is handed on. -/
theorem Operation.Gets.calls (hget : op.Gets E s result) :
    ∃ status, ∀ r, classifyResult .sendMessage status result = .ok r → ∃ v, op.Calls E s r v := by
  cases op with
  | create req =>
    obtain ⟨endpoint, auth, w, x, v, hresolve, hx, hresult⟩ := hget
    refine ⟨x.response.status, fun r hr => ⟨v, endpoint, auth, w, hresolve, sendMessage_posted.2 ⟨x, hx, ?_⟩⟩⟩
    rw [Exchange.classify, classify_resultIn hresult, hr]
  | respond taskId text requestId =>
    obtain ⟨existing, hstored, endpoint, auth, w, x, v, hresolve, hx, hresult⟩ := hget
    refine ⟨x.response.status, fun r hr =>
      ⟨v, existing, hstored, endpoint, auth, w, hresolve, sendMessage_posted.2 ⟨x, hx, ?_⟩⟩⟩
    rw [Exchange.classify, classify_resultIn hresult, hr]
  | _ => cases hget

/-- An operation whose accepted answer leads to allowed states only leaves every stored task in its state or
in an allowed one, also where it throws. -/
theorem statesBy_run {P : TaskState → Prop} (hop : op.method = .sendMessage)
    (hcreated : ∀ r v, op.Calls E s r v → r.ok = true → P (createdState r))
    (hresponded : ∀ r v, op.Calls E s r v → r.ok = true → ∀ existing, P (respondedTask existing r).state) :
    StatesBy E P s (Tx.endState (op.run E s)) := by
  cases op with
  | create req =>
    refine Tx.ends_bind ?_ fun a t _ => Tx.ends_pure _ _
    unfold createTask
    refine Tx.ends_bind (Tx.Keeps.out s) fun found w hresolve => ?_
    cases found with
    | none => exact Tx.ends_pure _ _
    | some called =>
      obtain ⟨endpoint, auth⟩ := called
      refine Tx.ends_bind (Tx.Keeps.out w) fun r v hcall => ?_
      split
      · rename_i hok
        exact statesBy_concludeCreate (hcreated r v ⟨endpoint, auth, w, hresolve, hcall⟩ hok) v
      · exact Tx.ends_pure _ _
  | respond taskId text requestId =>
    refine Tx.ends_bind ?_ fun a t _ => Tx.ends_pure _ _
    unfold respondToTask
    refine Tx.ends_bind (Tx.Keeps.out s) fun stored u hget => ?_
    obtain ⟨hstored, rfl⟩ := observe_ok.1 hget
    cases stored with
    | none => exact Tx.ends_pure _ _
    | some existing =>
      refine Tx.ends_bind (Tx.Keeps.out s) fun found w hresolve => ?_
      cases found with
      | none => exact Tx.ends_pure _ _
      | some called =>
        obtain ⟨endpoint, auth⟩ := called
        refine Tx.ends_bind (Tx.Keeps.out w) fun r v hcall => ?_
        split
        · rename_i hok
          exact (statesBy_concludeRespond
            (hresponded r v ⟨existing, hstored, endpoint, auth, w, hresolve, hcall⟩ hok existing)).out v
        · exact Tx.ends_pure _ _
  | _ => cases hop

theorem Operation.Gets.utf8 (hparse : ∀ text j, E.parse text = some j → j.utf8 = true) (hget : op.Gets E s result) :
    result.utf8 = true := by
  have hresult : ∀ {protocol : Protocol} {id : Str} {r : HttpResponse}, resultIn E.parse protocol id r = some result →
      result.utf8 = true := by
    intro protocol id r h
    obtain ⟨j, hj, -, -, hin⟩ := resultIn_eq.1 h
    exact J.utf8_get? (utf8_bodyRead hparse hj) hin
  cases op with
  | create req =>
    obtain ⟨endpoint, auth, w, x, v, -, -, hin⟩ := hget
    exact hresult hin
  | respond taskId text requestId =>
    obtain ⟨existing, -, endpoint, auth, w, x, v, -, -, hin⟩ := hget
    exact hresult hin
  | _ => cases hget

end Exchanges

/-- **No false completion.** An operation that sends a message accepts exactly one of a task and a message,
and finishes a task only where the result of the response says so, exactly where that result is no list of
tasks, or one that cannot be read: the call throws then, and nothing is stored. -/
theorem no_false_completion (E : Env) (hparse : ∀ text j, E.parse text = some j → j.utf8 = true) {op : Operation}
    (hop : op.method = .sendMessage) (s : World) :
    ((∀ r v, op.Calls E s r v → r.ok = true → (r.task.isSome = true ↔ r.message.isSome = false)) ∧
      ∀ id t, (Tx.endState (op.run E s)).task E id = some t → t.state.isTerminal = true →
        (s.task E id).map (fun t => t.state) = some t.state ∨ ∃ result, op.Gets E s result ∧ Tells result t.state) ↔
      ∀ result, op.Gets E s result → taskList result = none ∨ resultReads result = false := by
  constructor
  · rintro ⟨hone, -⟩ result hget
    by_contra hlist
    rw [not_or, Bool.not_eq_false] at hlist
    -- a list that can be read is accepted with neither a task nor a message
    obtain ⟨status, hcalls⟩ := hget.calls
    obtain ⟨r, hr⟩ := (passes_classifyResult (hget.utf8 hparse)).2 hlist.2
    obtain ⟨v, hcall⟩ := hcalls r hr
    obtain ⟨hok, htask, hmessage⟩ := classifyResult_list hr hlist.1
    have hboth := hone r v hcall hok
    rw [htask, hmessage] at hboth
    exact absurd hboth (by decide)
  · intro hlist
    -- without one, what is accepted is a task or a message
    have hanswer : ∀ r v, op.Calls E s r v → r.ok = true → op.Gets E s r.value ∧
        ((∃ t, r.task = some t ∧ r.message = none ∧ (t.state.isTerminal = true → Tells r.value t.state)) ∨
          ∃ m, r.task = none ∧ r.message = some m ∧ Tells r.value .completed) := by
      intro r v hcall hok
      obtain ⟨hget, status, hr⟩ := hcall.gets hop hok
      have hreads : resultReads r.value = true := (passes_classifyResult (hget.utf8 hparse)).1 ⟨r, hr⟩
      have hnone : taskList r.value = none := (hlist _ hget).resolve_right (by rw [hreads]; decide)
      exact ⟨hget, accepted_single (hop ▸ hcall.accepted hok) hnone⟩
    refine ⟨fun r v hcall hok => ?_, ?_⟩
    · rcases (hanswer r v hcall hok).2 with ⟨t, htask, hmessage, -⟩ | ⟨m, htask, hmessage, -⟩
      · simp [htask, hmessage]
      · simp [htask, hmessage]
    · have hstates : StatesBy E (fun st => st.isTerminal = true → ∃ result, op.Gets E s result ∧ Tells result st) s
          (Tx.endState (op.run E s)) := by
        refine statesBy_run hop (fun r v hcall hok hterminal => ?_) fun r v hcall hok existing hterminal => ?_
        · obtain ⟨hget, htold⟩ := hanswer r v hcall hok
          refine ⟨r.value, hget, ?_⟩
          rcases htold with ⟨t, htask, -, htells⟩ | ⟨m, htask, -, htells⟩
          · rw [createdState, htask] at hterminal ⊢
            exact htells hterminal
          · rw [createdState, htask]
            exact htells
        · obtain ⟨hget, htold⟩ := hanswer r v hcall hok
          refine ⟨r.value, hget, ?_⟩
          rcases htold with ⟨t, htask, -, htells⟩ | ⟨m, htask, hmessage, htells⟩
          · rw [respondedTask, htask] at hterminal ⊢
            exact htells hterminal
          · rw [respondedTask, htask, hmessage]
            exact htells
      intro id t ht hterminal
      exact (hstates id t ht).imp_right fun h => h hterminal

/-! ## An answer that is a list -/

/-- The surroundings of a daemon whose agent answers the first call with `result`. -/
def answering (result : J) : Env :=
  let reply := J.object [("jsonrpc", .str "2.0"), ("id", .str "1"), ("result", result)]
  { Env.offline [reply] with http := fun _ _ => { status := 200, body := reply.text } }

/-- A daemon without tasks. -/
def idle (result : J) : World := .offline (answering result) []

def asked : CreateTaskRequest := { agent := builder.id, message := "list the files", requestId := "req-1" }

/-- The message that asks, with what comes back for it. -/
def askedPost (result : J) : EStateM.Result Exception World Exchange :=
  posted (answering result) builder.endpoint {} (payloadText asked) [] [] "req-1"
    (Tx.endState (resolveEndpoint (answering result) builder.id (idle result)))

section Asked

variable {result : J}

/-- The agent is reached, and what comes back carries the result. -/
def AskedGets (result : J) : Prop :=
  Tx.result? (resolveEndpoint (answering result) builder.id (idle result)) = some (some (builder.endpoint, {})) ∧
    (Tx.result? (askedPost result)).bind (fun x => resultIn (answering result).parse x.protocol x.id x.response) = some result

instance (result : J) : Decidable (AskedGets result) := inferInstanceAs (Decidable (_ ∧ _))

theorem asked_gets (h : AskedGets result) : (Operation.create asked).Gets (answering result) (idle result) result := by
  obtain ⟨x, hx, hin⟩ := Option.bind_eq_some_iff.1 h.2
  exact ⟨builder.endpoint, {}, _, x, _, Tx.ok_of_result h.1, Tx.ok_of_result hx, hin⟩

/-- Nothing else comes back. -/
theorem asked_gets_only (h : AskedGets result) {found : J}
    (hget : (Operation.create asked).Gets (answering result) (idle result) found) : found = result := by
  obtain ⟨x', hx', hin'⟩ := Option.bind_eq_some_iff.1 h.2
  obtain ⟨endpoint, auth, w, x, v, hresolve, hx, hin⟩ := hget
  have hreach := (Tx.ok_of_result h.1).symm.trans hresolve
  cases hreach
  have hcame : askedPost result = .ok x v := hx
  rw [hcame] at hx'
  cases hx'
  exact Option.some.inj (hin.symm.trans hin')

end Asked

def answerJson : J := .object [("messageId", .str "m-1"), ("role", .str "ROLE_AGENT"),
  ("parts", .arr [.object [("text", .str "done")]])]

/-- The task the request creates, and its state. -/
def createdStates (result : J) : Option TaskState :=
  ((Tx.endState ((Operation.create asked).run (answering result) (idle result))).task (answering result) "id-0").map
    fun t => t.state

/-- A message finishes the interaction. -/
theorem no_false_completion_message : createdStates answerJson = some .completed ∧
    ∀ id t, (Tx.endState ((Operation.create asked).run (answering answerJson) (idle answerJson))).task
      (answering answerJson) id = some t → t.state.isTerminal = true →
        ((idle answerJson).task (answering answerJson) id).map (fun t => t.state) = some t.state ∨
          ∃ result, (Operation.create asked).Gets (answering answerJson) (idle answerJson) result ∧ Tells result t.state := by
  have hgets : AskedGets answerJson := by decide +kernel
  refine ⟨by decide +kernel, ((no_false_completion (answering answerJson) (parseAmong_utf8 (by decide +kernel)) rfl
    (idle answerJson)).2 fun result hget => .inl ?_).2⟩
  rw [asked_gets_only hgets hget]
  decide +kernel

/-- An empty list in answer to a message is recorded as a completed interaction. -/
theorem list_recorded_completed :
    (Operation.create asked).Gets (answering (.arr [])) (idle (.arr [])) (.arr []) ∧
    ¬ ((∀ r v, (Operation.create asked).Calls (answering (.arr [])) (idle (.arr [])) r v → r.ok = true →
        (r.task.isSome = true ↔ r.message.isSome = false)) ∧
      ∀ id t, (Tx.endState ((Operation.create asked).run (answering (.arr [])) (idle (.arr [])))).task
        (answering (.arr [])) id = some t → t.state.isTerminal = true →
          ((idle (.arr [])).task (answering (.arr [])) id).map (fun t => t.state) = some t.state ∨
            ∃ result, (Operation.create asked).Gets (answering (.arr [])) (idle (.arr [])) result ∧ Tells result t.state) := by
  have hgets : AskedGets (.arr []) := by decide +kernel
  refine ⟨asked_gets hgets, ?_⟩
  rintro ⟨-, htells⟩
  have hcreated : createdStates (.arr []) = some .completed := by decide +kernel
  have hbefore : (idle (.arr [])).task (answering (.arr [])) "id-0" = none := by decide +kernel
  obtain ⟨t, ht, hstate⟩ := Option.map_eq_some_iff.1 hcreated
  rcases htells "id-0" t ht (by rw [hstate]; rfl) with hsame | ⟨result, hget, htold⟩
  · rw [hbefore] at hsame
    cases hsame
  · obtain rfl := asked_gets_only hgets hget
    rcases htold with ⟨j, id, hj, hid, -⟩ | ⟨-, j, hj, hlooks⟩
    · rcases hj with rfl | hj
      · cases hid
      · cases hj
    · rcases hj with rfl | hj
      · cases hlooks
      · cases hj

end A2ad.TaskManager
