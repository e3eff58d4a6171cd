/-
Which task ids leave the daemon. A request that names a stored task by its local id makes the
daemon send the task's remote id where the operation looks the task up, and the local id itself
where the operation passes it on: submissions, streamed submissions and push configurations do.
-/
import A2ad.Daemon.Frames
import A2ad.Ipc.Dispatch

namespace A2ad.Ipc

open Bytes Json Client

/-! ## Task ids of a request -/

def byId : List Str := [Method.getTask.name, Method.cancelTask.name, StreamMethod.subscribeToTask.name]

def byMessage : List Str := [Method.sendMessage.name, StreamMethod.sendStreamingMessage.name]

def byPush : List Str :=
  [Method.createPushConfig.name, Method.getPushConfig.name, Method.listPushConfigs.name, Method.deletePushConfig.name]

/-- The task ids among the parameters of an A2A request. -/
def idsOf (method : Str) (params : J) : List J :=
  if method ∈ byId then (params.get? "id").toList
  else if method ∈ byMessage then ((params.get? "message").bind fun m => m.get? "taskId").toList
  else if method ∈ byPush then (params.get? "taskId").toList
  else []

/-- Every request sent in between carries the task ids `ids`. -/
def Carries (ids : List J) (s s' : World) : Prop :=
  ∃ new, s'.sent = s.sent ++ new ∧ ∀ c ∈ new, idsOf c.method c.params = ids

instance (ids : List J) : IsPreorder World (Carries ids) where
  refl _ := ⟨[], by simp, by simp⟩
  trans _ _ _ := by
    rintro ⟨new, hs, hnew⟩ ⟨new', hs', hnew'⟩
    refine ⟨new ++ new', by rw [hs', hs, List.append_assoc], fun c hc => ?_⟩
    rcases List.mem_append.1 hc with hc | hc
    · exact hnew c hc
    · exact hnew' c hc

/-- Everything but a call. -/
abbrev offline : List Area := [.rows, .events, .bindings, .agents]

theorem Carries.of_frame {ids : List J} (s s' : World) (h : Frame offline s s') : Carries ids s s' :=
  ⟨[], by rw [h.wire (by decide), List.append_nil], by simp⟩

instance (priority := low) {ids : List J} {α : Type} {x : M α} [hx : Touches offline x] : Tx.Keeps (Carries ids) x :=
  Tx.keeps_mono Carries.of_frame hx

/-! ## Calls -/

/-- The tenant is no task id. -/
theorem idsOf_tenant {params : J} (hp : params.isObject = true) (method : Str) (c : Bool) (v : J) :
    idsOf method (setIf c "tenant" v params) = idsOf method params := by
  unfold idsOf
  simp only [get?_setIf (.inr hp), lit_inj, String.reduceEq, and_false, if_false]

section Calls

variable {E : Env} {ids : List J} {endpoint : Str} {auth : AuthSpec} {params : J}

theorem carries_record {info : BindingInfo} {method : Str} (h : idsOf method params = ids) :
    Tx.Keeps (Carries ids) (record endpoint info method params) := by
  refine ⟨fun s => ⟨[⟨endpoint, info, method, params⟩], rfl, ?_⟩⟩
  simpa using h

theorem carries_rpcCall {method : Method} (hp : params.isObject = true) (h : idsOf method.name params = ids) :
    Tx.Keeps (Carries ids) (rpcCall E endpoint auth method params) := by
  have hrecord : ∀ info : BindingInfo, Tx.Keeps (Carries ids) (record endpoint info method.name (withTenant info params)) :=
    fun info => carries_record (by rw [withTenant, idsOf_tenant hp, h])
  unfold rpcCall transmit deliver
  refine Tx.keeps_bind (h := Tx.keeps_bind (k := fun _ => Tx.keeps_bind (k := fun _ => Tx.keeps_bind (k := fun info => ?_))))
  refine Tx.keeps_bind (h := ?_)
  have := hrecord info
  split
  · exact Tx.keeps_bind (k := fun _ => ⟨fun s => ⟨[], by simp [Tx.endState], by simp⟩⟩)
  · infer_instance

theorem carries_streamCall {α : Type} {op : StreamMethod} {onEvent : J → World × α → World × α} {stopped : α → Bool}
    {start : α} (hp : params.isObject = true) (h : idsOf op.name params = ids)
    (hevent : ∀ event st, Carries ids st.1 (onEvent event st).1) :
    Tx.Keeps (Carries ids) (streamCall E endpoint auth op params onEvent stopped start) := by
  refine keeps_streamCall (fun s s' hf => ?_) (fun info => carries_record (by rw [idsOf_tenant hp, h])) hevent
  exact Carries.of_frame s s' ⟨fun _ => hf.rows (by simp), fun _ => hf.events (by simp), fun _ => hf.wire (by simp),
    fun _ => hf.bindings (by simp), fun _ => hf.agents (by simp), fun _ => hf.writes (by simp), hf.nonce⟩

/-- A task id that is sent unless it is empty. -/
def optionalId (taskId : Str) : List J := if taskId.isEmpty then [] else [.str taskId]

theorem idsOf_sendParams (text taskId contextId messageId : Str) :
    idsOf Method.sendMessage.name (sendParams text taskId contextId messageId) = optionalId taskId := by
  unfold idsOf sendParams optionalId
  rw [if_neg (by decide), if_pos (by decide)]
  simp only [J.get?_object, J.find_cons, lit_inj, String.reduceEq, if_true, if_false, Option.bind_some]
  rw [get?_setIf (.inr (isObject_setIf (J.isObject_object _))), get?_setIf (.inr (J.isObject_object _))]
  cases taskId.isEmpty <;> simp

theorem idsOf_streamParams (text taskId contextId messageId : Str) :
    idsOf StreamMethod.sendStreamingMessage.name (streamParams text taskId contextId messageId) = optionalId taskId := by
  unfold idsOf streamParams optionalId
  rw [if_neg (by decide), if_pos (by decide)]
  simp only [J.get?_object, J.find_cons, if_true, Option.bind_some]
  rw [get?_setIf (.inr (isObject_setIf (J.isObject_object _))), get?_setIf (.inr (J.isObject_object _))]
  cases taskId.isEmpty <;> simp

theorem idsOf_idParams {method : Str} (h : method ∈ byId) (taskId : Str) : idsOf method (idParams taskId) = [.str taskId] := by
  unfold idsOf idParams
  rw [if_pos h]
  simp

theorem carries_sendMessage {text taskId contextId messageId : Str} :
    Tx.Keeps (Carries (optionalId taskId)) (sendMessage E endpoint auth text taskId contextId messageId) := by
  have hcall : ∀ messageId : Str, Tx.Keeps (Carries (optionalId taskId))
      (rpcCall E endpoint auth .sendMessage (sendParams text taskId contextId messageId)) :=
    fun messageId => carries_rpcCall (J.isObject_object _) (idsOf_sendParams ..)
  unfold sendMessage
  dsimp only
  split
  · exact Tx.keeps_bind (k := hcall)
  · exact Tx.keeps_bind (k := hcall)

theorem carries_fetchTask {taskId : Str} : Tx.Keeps (Carries [.str taskId]) (fetchTask E endpoint auth taskId) :=
  carries_rpcCall (J.isObject_object _) (idsOf_idParams (by decide) _)

theorem carries_cancelTask {taskId : Str} : Tx.Keeps (Carries [.str taskId]) (Client.cancelTask E endpoint auth taskId) :=
  carries_rpcCall (J.isObject_object _) (idsOf_idParams (by decide) _)

/-- A push operation names its task under `taskId`. -/
theorem carries_push {method : Method} {taskId : Str} (hm : method.name ∈ byPush) (hp : params.isObject = true)
    (h : params.get? "taskId" = some (.str taskId)) :
    Tx.Keeps (Carries [.str taskId]) (rpcCall E endpoint auth method params) := by
  refine carries_rpcCall hp ?_
  have hother : ∀ name ∈ byPush, name ∉ byId ∧ name ∉ byMessage := by decide
  unfold idsOf
  rw [if_neg (hother _ hm).1, if_neg (hother _ hm).2, if_pos hm, h]
  rfl

end Calls

/-! ## Operations that pass the id on -/

theorem valueStr_of_get? {req : J} {k v d x : Str} (h : req.get? k = some (.str v)) (hx : req.valueStr k d = .ok x) :
    x = v := by
  rcases (J.valueStr_ok.1 hx).2 with hget | ⟨hget, -⟩
  · rw [h] at hget
    cases hget
    rfl
  · rw [h] at hget
    cases hget

section Operations

variable {E : Env} {req : J} {l r : Str} {t : Task} {s : World}

theorem carries_createTask {request : CreateTaskRequest} :
    Tx.Keeps (Carries (optionalId request.continueTaskId)) (TaskManager.createTask E request) := by
  unfold TaskManager.createTask
  refine Tx.keeps_bind (k := fun found => ?_)
  split
  · infer_instance
  · refine Tx.keeps_bind (h := carries_sendMessage) (k := fun result => ?_)
    infer_instance

theorem carries_submit (h : req.get? "task_id" = some (.str l)) :
    Carries (optionalId l) s (Tx.endState (submit E req s)) := by
  unfold submit
  refine Tx.ends_lift_bind fun requested _ => Tx.ends_lift_bind fun cwd _ => ?_
  cases if requested.isEmpty then E.config.defaultAgentFor E.canonical cwd else some requested with
  | none => exact Tx.ends_pure _ s
  | some agent =>
    refine Tx.ends_lift_bind fun message _ => Tx.ends_lift_bind fun requestId _ => Tx.ends_lift_bind fun taskId hid => ?_
    obtain rfl := valueStr_of_get? h hid
    refine Tx.ends_lift_bind fun contextId _ => ?_
    exact (Tx.keeps_bind (h := carries_createTask)).out s

theorem carries_streamMessage {agent text contextId : Str} :
    Tx.Keeps (Carries (optionalId l)) (TaskManager.streamMessage E agent text l contextId) := by
  unfold TaskManager.streamMessage sendStreamingMessage
  refine Tx.keeps_bind (k := fun found => ?_)
  split
  · infer_instance
  · refine Tx.keeps_bind (k := fun messageId => ?_)
    exact carries_streamCall (J.isObject_object _) (idsOf_streamParams ..) fun event st => refl st.1

theorem carries_streamSubmit (h : req.get? "task_id" = some (.str l)) :
    Carries (optionalId l) s (Tx.endState (streamSubmit E req s)) := by
  unfold streamSubmit
  refine Tx.ends_lift_bind fun agent _ => Tx.ends_lift_bind fun message _ => Tx.ends_lift_bind fun taskId hid => ?_
  obtain rfl := valueStr_of_get? h hid
  refine Tx.ends_lift_bind fun contextId _ => ?_
  exact (Tx.keeps_bind (h := carries_streamMessage)).out s

theorem carries_withAgent {ids : List J} {agent : Str} {refusal : A2AResult} {call : Str → AuthSpec → M A2AResult}
    (h : ∀ endpoint auth, Tx.Keeps (Carries ids) (call endpoint auth)) :
    Tx.Keeps (Carries ids) (TaskManager.withAgent E agent refusal call) := by
  unfold TaskManager.withAgent
  refine Tx.keeps_bind (k := fun found => ?_)
  split
  · infer_instance
  · exact h _ _

theorem carries_pushCreate (h : req.get? "task_id" = some (.str l)) :
    Carries [.str l] s (Tx.endState (pushCreate E req s)) := by
  unfold pushCreate
  refine Tx.ends_lift_bind fun id _ => Tx.ends_lift_bind fun taskId hid => Tx.ends_lift_bind fun url _ => ?_
  obtain rfl := valueStr_of_get? h hid
  split
  · exact Tx.ends_pure _ s
  · refine Tx.ends_lift_bind fun _ _ => Tx.ends_lift_bind fun _ _ => Tx.ends_lift_bind fun _ _ =>
      Tx.ends_lift_bind fun agent _ => ?_
    refine (Tx.keeps_bind (h := carries_withAgent fun endpoint auth => ?_)).out s
    refine carries_push (by decide) ?_ ?_
    · exact isObject_setIf (J.isObject_object _)
    · rw [pushParams, get?_setIf (.inr (J.isObject_object _))]
      simp

instance {K : List Area} {result : A2AResult} : Touches K (pushResult result) := by
  unfold pushResult
  infer_instance

theorem carries_pushGet (h : req.get? "task_id" = some (.str l)) : Carries [.str l] s (Tx.endState (pushGet E req s)) := by
  unfold pushGet
  refine Tx.ends_lift_bind fun agent _ => Tx.ends_lift_bind fun taskId hid => Tx.ends_lift_bind fun id _ => ?_
  obtain rfl := valueStr_of_get? h hid
  refine (Tx.keeps_bind (h := carries_withAgent fun endpoint auth => ?_)).out s
  exact carries_push (by decide) (J.isObject_object _) (by simp [pushIdParams])

theorem carries_pushList (h : req.get? "task_id" = some (.str l)) :
    Carries [.str l] s (Tx.endState (pushList E req s)) := by
  unfold pushList
  refine Tx.ends_lift_bind fun agent _ => Tx.ends_lift_bind fun taskId hid => Tx.ends_lift_bind fun pageSize _ =>
    Tx.ends_lift_bind fun pageToken _ => ?_
  obtain rfl := valueStr_of_get? h hid
  refine (Tx.keeps_bind (h := carries_withAgent fun endpoint auth => ?_)).out s
  refine carries_push (by decide) ?_ ?_
  · exact isObject_setIf (J.isObject_object _)
  · rw [pushPageParams, get?_setIf (.inr (J.isObject_object _))]
    simp

theorem carries_pushDelete (h : req.get? "task_id" = some (.str l)) :
    Carries [.str l] s (Tx.endState (pushDelete E req s)) := by
  unfold pushDelete
  refine Tx.ends_lift_bind fun agent _ => Tx.ends_lift_bind fun taskId hid => Tx.ends_lift_bind fun id _ => ?_
  obtain rfl := valueStr_of_get? h hid
  refine (Tx.keeps_bind (h := carries_withAgent fun endpoint auth => ?_)).out s
  exact carries_push (by decide) (J.isObject_object _) (by simp [pushIdParams])

/-! ## Operations that look the task up -/

/-- Reading a stored task changes nothing. -/
theorem ends_getTask {ids : List J} {α : Type} {f : Option Task → M α} (ht : s.task E l = some t)
    (hf : Carries ids s (Tx.endState (f (some t) s))) : Carries ids s (Tx.endState ((getTask E l >>= f) s)) := by
  refine Tx.ends_bind (Tx.ends_pure _ s) fun found u h => ?_
  obtain ⟨rfl, rfl⟩ := observe_ok.1 h
  rwa [ht]

theorem carries_respondOp (h : req.get? "task_id" = some (.str l)) (ht : s.task E l = some t) :
    Carries (optionalId (t.remoteTaskId.getD [])) s (Tx.endState (respondOp E req s)) := by
  unfold respondOp TaskManager.respondToTask
  refine Tx.ends_lift_bind fun taskId hid => Tx.ends_lift_bind fun text _ => Tx.ends_lift_bind fun requestId _ => ?_
  obtain rfl := valueStr_of_get? h hid
  rw [bind_assoc]
  refine ends_getTask ht ?_
  refine (Tx.keeps_bind (h := Tx.keeps_bind (k := fun found => ?_))).out s
  split
  · infer_instance
  · exact Tx.keeps_bind (h := carries_sendMessage)

/-- The located task is the stored one. -/
theorem ends_locate {ids : List J} {α : Type} {f : A2AResult ⊕ (Task × Str × AuthSpec) → M α} (ht : s.task E l = some t)
    (hf : ∀ x, (∀ existing endpoint auth, x = .inr (existing, endpoint, auth) → existing = t) → Tx.Keeps (Carries ids) (f x)) :
    Carries ids s (Tx.endState ((TaskManager.locate E l >>= f) s)) := by
  unfold TaskManager.locate
  rw [bind_assoc]
  refine ends_getTask ht ?_
  rw [bind_assoc]
  refine Tx.ends_bind (Tx.Keeps.out s) fun found u _ => ?_
  cases found with
  | none => exact (hf _ (by nofun)).out u
  | some reached =>
    refine (hf _ fun existing endpoint auth h => ?_).out u
    cases h
    rfl

theorem carries_cancel (h : req.get? "task_id" = some (.str l)) (ht : s.task E l = some t) :
    Carries [.str (t.remoteTaskId.getD [])] s (Tx.endState (cancel E req s)) := by
  unfold cancel TaskManager.cancelTask
  refine Tx.ends_lift_bind fun taskId hid => ?_
  obtain rfl := valueStr_of_get? h hid
  rw [bind_assoc]
  refine ends_locate ht fun x hx => ?_
  refine Tx.keeps_bind (h := ?_)
  split
  · infer_instance
  · rename_i existing endpoint auth
    obtain rfl := hx existing endpoint auth rfl
    have : Tx.Keeps (Carries [.str (existing.remoteTaskId.getD [])])
        (Client.cancelTask E endpoint auth (existing.remoteTaskId.getD [])) := carries_cancelTask
    dsimp only
    split
    · infer_instance
    · refine Tx.keeps_bind (k := fun result => ?_)
      split <;> infer_instance

theorem carries_refreshTask (ht : s.task E l = some t) :
    Carries [.str (t.remoteTaskId.getD [])] s (Tx.endState (TaskManager.refreshTask E l s)) := by
  unfold TaskManager.refreshTask
  refine ends_locate ht fun x hx => ?_
  split
  · infer_instance
  · rename_i existing endpoint auth
    obtain rfl := hx existing endpoint auth rfl
    have : Tx.Keeps (Carries [.str (existing.remoteTaskId.getD [])])
        (fetchTask E endpoint auth (existing.remoteTaskId.getD [])) := carries_fetchTask
    dsimp only
    split
    · infer_instance
    · refine Tx.keeps_bind (k := fun result => ?_)
      split <;> infer_instance

/-- Without `refresh` the status is read from the store. -/
theorem carries_status (h : req.get? "task_id" = some (.str l)) (ht : s.task E l = some t) :
    Carries [.str (t.remoteTaskId.getD [])] s (Tx.endState (status E req s)) := by
  unfold status
  refine Tx.ends_lift_bind fun id hid => Tx.ends_lift_bind fun refresh _ => ?_
  obtain rfl := valueStr_of_get? h hid
  dsimp only
  split
  · refine Tx.ends_bind (carries_refreshTask ht) fun result u _ =>
      (Tx.keeps_ite (k := Tx.keeps_bind (k := fun found => ?_))).out u
    cases found <;> infer_instance
  · refine (Tx.keeps_bind (k := fun result => Tx.keeps_ite (k := Tx.keeps_bind (k := fun found => ?_)))).out s
    cases found <;> infer_instance

theorem carries_subscribe (h : req.get? "task_id" = some (.str l)) (ht : s.task E l = some t) {r : Str}
    (hr : t.remoteTaskId = some r) : Carries [.str r] s (Tx.endState (subscribe E req s)) := by
  unfold subscribe TaskManager.subscribeTask
  refine Tx.ends_lift_bind fun id hid => ?_
  obtain rfl := valueStr_of_get? h hid
  rw [bind_assoc]
  refine ends_getTask ht ?_
  simp only [Option.bind_some, hr, Option.map_some]
  refine (Tx.keeps_bind (h := Tx.keeps_bind (k := fun found => ?_))).out s
  split
  · infer_instance
  · unfold subscribeToTask
    refine Tx.keeps_bind (h := carries_streamCall (J.isObject_object _) (idsOf_idParams (by decide) _) fun event st => ?_)
    -- what is done with an update only reads it
    exact keeps_onUpdate (fun update updates => inferInstance) event st

end Operations

/-! ## Which id is sent -/

/-- The operations on a task that is named by its id. -/
def Op.namesTask : Op → Bool
  | .submit | .streamSubmit | .subscribe | .pushCreate | .pushGet | .pushList | .pushDelete | .status | .respond
  | .cancel => true
  | _ => false

/-- The operations that look the task up and send its remote id. -/
def Op.translates : Op → Bool
  | .respond | .cancel | .status | .subscribe => true
  | _ => false

/-- The operations that continue a task: an empty id is not sent. -/
def Op.continues : Op → Bool
  | .submit | .streamSubmit => true
  | _ => false

/-- The ids in the requests of an operation on the task with the local id `l` and the remote id `r`. -/
def sentIds (op : Op) (l r : Str) : List J :=
  match op with
  | .respond => optionalId r
  | .cancel | .status | .subscribe => [.str r]
  | .submit | .streamSubmit => optionalId l
  | _ => [.str l]

theorem carries_perform {E : Env} {materialize : J → M J} {req : J} {op : Op} {l r : Str} {t : Task} {s : World}
    (hop : op.namesTask = true) (h : req.get? "task_id" = some (.str l)) (ht : s.task E l = some t)
    (hr : t.remoteTaskId = some r) : Carries (sentIds op l r) s (Tx.endState (perform E materialize req op s)) := by
  have hremote : t.remoteTaskId.getD [] = r := by rw [hr, Option.getD_some]
  cases op with
  | submit => exact carries_submit h
  | streamSubmit => exact carries_streamSubmit h
  | pushCreate => exact carries_pushCreate h
  | pushGet => exact carries_pushGet h
  | pushList => exact carries_pushList h
  | pushDelete => exact carries_pushDelete h
  | subscribe => exact carries_subscribe h ht hr
  | status => exact hremote ▸ carries_status h ht
  | respond => exact hremote ▸ carries_respondOp h ht
  | cancel => exact hremote ▸ carries_cancel h ht
  | _ => cases hop

theorem forall_optionalId {l r : Str} : (∀ id ∈ optionalId l, id = .str r) ↔ l = [] ∨ l = r := by
  unfold optionalId
  cases l with
  | nil => simp
  | cons b l => simp

theorem sentIds_remote {op : Op} {l r : Str} (hop : op.namesTask = true) :
    (∀ id ∈ sentIds op l r, id = .str r) ↔
      op.translates = true ∨ l = r ∨ (op.continues = true ∧ l = []) := by
  cases op with
  | respond => simp [sentIds, forall_optionalId, Op.translates]
  | cancel | status | subscribe => simp [sentIds, Op.translates]
  | submit | streamSubmit => simp [sentIds, forall_optionalId, Op.translates, Op.continues, or_comm]
  | pushCreate | pushGet | pushList | pushDelete => simp [sentIds, Op.translates, Op.continues]
  | _ => cases hop

/-- A request for a stored task by its local id `l`: the ids sent are its remote id `r` exactly where
the operation looks the task up, or the two ids agree, or an empty id is left out. -/
theorem remote_id_sent_iff {E : Env} {materialize : J → M J} {req : J} {op : Op} {l r : Str} {t : Task} {s : World}
    (hop : op.namesTask = true) (hname : req.get? "op" = some (.str op.name)) (hid : req.get? "task_id" = some (.str l))
    (ht : s.task E l = some t) (hr : t.remoteTaskId = some r) :
    ∃ new, (Tx.endState (dispatch E materialize req s)).sent = s.sent ++ new ∧
      ∀ c ∈ new, (∀ id ∈ idsOf c.method c.params, id = .str r) ↔
        op.translates = true ∨ l = r ∨ (op.continues = true ∧ l = []) := by
  have hcarries : Carries (sentIds op l r) s (Tx.endState (dispatch E materialize req s)) := by
    unfold dispatch
    refine Tx.ends_lift_bind fun name hop' => ?_
    obtain rfl := valueStr_of_get? hname hop'
    rw [Op.parse_name]
    exact carries_perform hop hid ht hr
  obtain ⟨new, hsent, hnew⟩ := hcarries
  refine ⟨new, hsent, fun c hc => ?_⟩
  rw [hnew c hc]
  exact sentIds_remote hop

/-- A task under way, known here as `local-1` and to its agent as `remote-7`. -/
def underway : Task :=
  { id := "local-1", remoteTaskId := some (lit "remote-7"), agent := builder.id, state := .working, metadata := .obj [] }

def underwayWorld : World := .offline (.offline []) [underway]

def goOn (op : Op) : J :=
  .object [("op", .str op.name), ("agent", .str builder.id), ("task_id", .str underway.id), ("message", .str "go on")]

set_option maxRecDepth 20000 in
theorem underway_stored : underwayWorld.task (.offline []) underway.id = some underway := by decide

set_option maxRecDepth 20000 in
/-- The remote id is sent with a response to the task. -/
theorem remote_id_sent_iff_respond :
    ∃ new, (Tx.endState (dispatch (.offline []) (fun _ => pure .null) (goOn .respond) underwayWorld)).sent =
        underwayWorld.sent ++ new ∧ new ≠ [] ∧ ∀ c ∈ new, ∀ id ∈ idsOf c.method c.params, id = .str "remote-7" := by
  obtain ⟨new, hsent, hnew⟩ := @remote_id_sent_iff (.offline []) (fun _ => pure .null) (goOn .respond) .respond
    underway.id (lit "remote-7") underway underwayWorld rfl (by decide) (by decide) underway_stored rfl
  have hlength : (Tx.endState (dispatch (.offline []) (fun _ => pure .null) (goOn .respond) underwayWorld)).sent.length =
      underwayWorld.sent.length + 1 := by decide
  refine ⟨new, hsent, fun hnone => ?_, fun c hc => (hnew c hc).2 (.inl rfl)⟩
  rw [hsent, hnone, List.append_nil] at hlength
  omega

set_option maxRecDepth 20000 in
/-- A submission that continues the task sends the local id. -/
theorem local_id_sent_by_submit : underwayWorld.task (.offline []) "local-1" = some underway ∧
    underway.remoteTaskId = some (lit "remote-7") ∧
    (Tx.endState (dispatch (.offline []) (fun _ => pure .null) (goOn .submit) underwayWorld)).sent.map
      (fun c => idsOf c.method c.params) = [[.str "local-1"]] := by decide

end A2ad.Ipc
