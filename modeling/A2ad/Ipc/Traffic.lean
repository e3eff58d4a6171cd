/-
What the operations put on the wire and announce: everything but the request of a prepared mutation
only reads at the agents, and all that is announced is about tasks and artifacts.
-/
import A2ad.Ipc.Verdict
import A2ad.Task.Bindings
import A2ad.Task.Subscription

namespace A2ad.Ipc

open Bytes Json Client TaskManager

/-! ## Requests that act -/

/-- The methods by which an agent is made to do something. -/
def acting : List Str := [Method.sendMessage.name, Method.cancelTask.name, Method.createPushConfig.name,
  Method.deletePushConfig.name, StreamMethod.sendStreamingMessage.name]

def acts (x : Sent) : Bool := acting.contains x.method

/-- The types of the events that the task manager announces. -/
def ownTypes : List Str := ["task.created", "task.state_changed", "artifact.materialized"].map lit

def OwnEvent (v : J) : Prop := ∃ type ∈ ownTypes, v.get? "type" = some (.str type)

/-- The agents have at most been read from, and only tasks and artifacts have been announced. -/
structure Passive (s s' : World) : Prop where
  wire : ∃ l, s'.sent = s.sent ++ l ∧ ∀ x ∈ l, acts x = false
  events : ∀ v ∈ s'.events, v ∈ s.events ∨ OwnEvent v

instance : IsPreorder World Passive where
  refl s := ⟨⟨[], (List.append_nil _).symm, nofun⟩, fun _ hv => .inl hv⟩
  trans s t u h h' := by
    obtain ⟨⟨l, hl, hreads⟩, hevents⟩ := h
    obtain ⟨⟨l', hl', hreads'⟩, hevents'⟩ := h'
    refine ⟨⟨l ++ l', by rw [hl', hl, List.append_assoc], fun x hx => ?_⟩, fun v hv => ?_⟩
    · exact (List.mem_append.1 hx).elim (hreads x) (hreads' x)
    · exact (hevents' v hv).elim (hevents v) .inr

theorem passive_of_frame {s s' : World} (h : Frame [.rows, .bindings, .agents] s s') : Passive s s' :=
  ⟨⟨[], by rw [h.wire (by decide), List.append_nil], nofun⟩, fun v hv => .inl (h.events (by decide) ▸ hv)⟩

/-- What an operation that changes rows, bindings and agents alone does is passive. -/
theorem passive_quiet {α : Type} {x : M α} (h : Touches [.rows, .bindings, .agents] x) : Tx.Keeps Passive x :=
  Tx.keeps_mono (fun _ _ => passive_of_frame) h

section Primitives

variable {E : Env} {α : Type}

instance (f : World → α) : Tx.Keeps Passive (observe f) := passive_quiet inferInstance

instance : Tx.Keeps Passive (nowIso E) := passive_quiet inferInstance

instance : Tx.Keeps Passive (freshId E) := passive_quiet inferInstance

instance (id : Str) : Tx.Keeps Passive (getTask E id) := passive_quiet inferInstance

instance (b : Bool) : Tx.Keeps Passive (listTasks E b) := passive_quiet inferInstance

instance (t : Task) : Tx.Keeps Passive (insertTask E t) := passive_quiet inferInstance

instance (t : Task) : Tx.Keeps Passive (updateTask E t) := passive_quiet inferInstance

instance (t : Task) : Tx.Keeps Passive (startSubscription t) := passive_quiet inferInstance

instance (req : CreateTaskRequest) (r : A2AResult) : Tx.Keeps Passive (newRecord E req r) := passive_quiet inferInstance

instance (id : Str) : Tx.Keeps Passive (discoverAgent E id) := passive_quiet inferInstance

instance (id : Str) : Tx.Keeps Passive (resolveEndpoint E id) := passive_quiet inferInstance

instance (req : HttpRequest) : Tx.Keeps Passive (exchange E req) := passive_quiet inferInstance

theorem passive_emit {v : J} (h : OwnEvent v) : Tx.Keeps Passive (emit v) := by
  refine ⟨fun s => ⟨⟨[], (List.append_nil _).symm, nofun⟩, fun w hw => ?_⟩⟩
  rcases List.mem_append.1 hw with hw | hw
  · exact .inl hw
  · exact .inr (List.mem_singleton.1 hw ▸ h)

instance (t : Task) : Tx.Keeps Passive (emit (createdEvent t)) :=
  passive_emit ⟨lit "task.created", by decide, by simp [createdEvent]⟩

instance (id : Str) (before after : TaskState) : Tx.Keeps Passive (emitStateChanged id before after) := by
  unfold emitStateChanged
  have := passive_emit (v := stateEvent id before after) ⟨lit "task.state_changed", by decide, by simp [stateEvent]⟩
  infer_instance

instance (F : Files) (id : Str) (k : Keeping) (bytes path : Str) :
    Tx.Keeps Passive (emit (materializedEvent F id k bytes path)) :=
  passive_emit ⟨lit "artifact.materialized", by decide, by simp [materializedEvent]⟩

end Primitives

/-! ## Calls -/

section Calls

variable {E : Env} {endpoint : Str} {auth : AuthSpec}

/-- What changes nothing leaves in particular some parts alone. -/
theorem frame_of_nil {parts : List Area} {s s' : World} (h : Frame [] s s') : Frame parts s s' :=
  ⟨fun _ => h.rows (by decide), fun _ => h.events (by decide), fun _ => h.wire (by decide), fun _ => h.bindings (by decide),
    fun _ => h.agents (by decide), fun _ => h.writes (by decide), h.nonce⟩

theorem events_rpcCall (method : Method) (params : J) (s : World) :
    (Tx.endState (rpcCall E endpoint auth method params s)).events = s.events :=
  ((inferInstance : Touches [.wire] (rpcCall E endpoint auth method params)).out s).events (by decide)

/-- A call of a method that only reads. -/
theorem passive_rpcCall {method : Method} (h : acting.contains method.name = false) (params : J) :
    Tx.Keeps Passive (rpcCall E endpoint auth method params) := by
  refine ⟨fun s => ⟨?_, fun v hv => .inl (events_rpcCall method params s ▸ hv)⟩⟩
  rcases @rpcCall_sent E s endpoint auth method params with hnone | hsent
  · exact ⟨[], by rw [hnone, List.append_nil], nofun⟩
  · refine ⟨_, hsent, fun x hx => ?_⟩
    rw [List.mem_singleton.1 hx]
    exact h

instance (id : Str) : Tx.Keeps Passive (fetchTask E endpoint auth id) := passive_rpcCall (by decide) _

instance (f : ListTasksFilter) : Tx.Keeps Passive (fetchTasks E endpoint auth f) := passive_rpcCall (by decide) _

instance (taskId id : Str) : Tx.Keeps Passive (Client.getPushConfig E endpoint auth taskId id) := passive_rpcCall (by decide) _

instance (taskId : Str) (pageSize : Int) (pageToken : Str) :
    Tx.Keeps Passive (Client.listPushConfigs E endpoint auth taskId pageSize pageToken) := passive_rpcCall (by decide) _

instance : Tx.Keeps Passive (Client.getExtendedAgentCard E endpoint auth) := passive_rpcCall (by decide) _

/-- A subscription reads, when the handler of its updates does. -/
instance {β : Type} (id : Str) (onTask : Task → β → M β) (start : β) [h : ∀ task b, Tx.Keeps Passive (onTask task b)] :
    Tx.Keeps Passive (subscribeToTask E endpoint auth id onTask start) := by
  have hrecord : ∀ (info : BindingInfo) (params : J),
      Tx.Keeps Passive (record endpoint info StreamMethod.subscribeToTask.name params) := fun info params =>
    ⟨fun s => ⟨⟨_, rfl, fun x hx => by rw [List.mem_singleton.1 hx]; rfl⟩, fun _ hv => .inl hv⟩⟩
  have hstream : Tx.Keeps Passive (streamCall E endpoint auth .subscribeToTask (idParams id) (onUpdate id onTask) (·.2)
      (start, false)) :=
    keeps_streamCall (fun _ _ hframe => passive_of_frame (frame_of_nil hframe)) (fun info => hrecord info _)
      fun event st => keeps_onUpdate (R := Passive) (r := id) h event st
  unfold subscribeToTask
  infer_instance

end Calls

/-! ## The task manager -/

section Manager

variable {E : Env}

instance (existing t : Task) : Tx.Keeps Passive (concludeCancel E existing t) := by
  unfold concludeCancel
  infer_instance

instance (existing t : Task) : Tx.Keeps Passive (concludeRefresh E existing t) := by
  unfold concludeRefresh
  infer_instance

instance (existing : Task) (r : A2AResult) : Tx.Keeps Passive (concludeRespond E existing r) := by
  unfold concludeRespond
  infer_instance

instance (req : CreateTaskRequest) (r : A2AResult) : Tx.Keeps Passive (concludeCreate E req r) := by
  unfold concludeCreate
  infer_instance

instance (existing t : Task) : Tx.Keeps Passive (concludeReconcile E existing t) := by
  unfold concludeReconcile
  infer_instance

instance (id : Str) : Tx.Keeps Passive (locate E id) := by
  unfold locate
  repeat' first | infer_instance | refine Tx.keeps_bind (k := fun _ => ?_) | split

instance (id : Str) : Tx.Keeps Passive (refreshTask E id) := by
  unfold refreshTask
  repeat' first | infer_instance | refine Tx.keeps_bind (k := fun _ => ?_) | split | dsimp only

instance (t : Task) : Tx.Keeps Passive (reconcileTask E t) := by
  unfold reconcileTask
  repeat' first | infer_instance | refine Tx.keeps_bind (k := fun _ => ?_) | split | dsimp only

instance : Tx.Keeps Passive (reconcileOnStartup E) := by
  unfold reconcileOnStartup
  refine Tx.keeps_bind (k := fun tasks => ?_)
  induction tasks with
  | nil => exact Tx.keeps_pure _
  | cons t rest ih =>
    show Tx.Keeps Passive (reconcileTask E t >>= fun _ => rest.forM (reconcileTask E))
    infer_instance

instance (id : Str) (update : Task) : Tx.Keeps Passive (onSubscribed E id update) := by
  unfold onSubscribed
  repeat' first | infer_instance | refine Tx.keeps_bind (k := fun _ => ?_) | split

instance (agent taskId remote : Str) : Tx.Keeps Passive (subscriptionRound E agent taskId remote) := by
  unfold subscriptionRound
  repeat' first | infer_instance | refine Tx.keeps_bind (k := fun _ => ?_) | split

theorem passive_received (taskId r : Str) (s : World) (e : J) : Passive s (received E taskId r s e) :=
  keeps_onUpdate (R := Passive) (fun update _ => (inferInstance : Tx.Keeps Passive (onSubscribed E taskId update))) e (s, (), false)

instance (id : Str) : Tx.Keeps Passive (TaskManager.subscribeTask E id) := by
  unfold TaskManager.subscribeTask
  repeat' first | infer_instance | refine Tx.keeps_bind (k := fun _ => ?_) | split

theorem passive_withAgent {agent : Str} {refusal : A2AResult} {call : Str → AuthSpec → M A2AResult}
    (h : ∀ endpoint auth, Tx.Keeps Passive (call endpoint auth)) : Tx.Keeps Passive (withAgent E agent refusal call) := by
  unfold withAgent
  refine Tx.keeps_bind (k := fun found => ?_)
  cases found with
  | none => infer_instance
  | some found => exact h found.1 found.2

instance (agent : Str) (f : ListTasksFilter) : Tx.Keeps Passive (listRemoteTasks E agent f) := by
  have := @passive_withAgent E agent (unknownAgent agent) (fun endpoint auth => fetchTasks E endpoint auth f) fun _ _ => inferInstance
  unfold listRemoteTasks
  infer_instance

instance (agent taskId id : Str) : Tx.Keeps Passive (TaskManager.getPushConfig E agent taskId id) :=
  passive_withAgent fun _ _ => inferInstance

instance (agent taskId : Str) (pageSize : Int) (pageToken : Str) :
    Tx.Keeps Passive (TaskManager.listPushConfigs E agent taskId pageSize pageToken) :=
  passive_withAgent fun _ _ => inferInstance

instance (agent : Str) : Tx.Keeps Passive (TaskManager.getExtendedAgentCard E agent) :=
  passive_withAgent fun _ _ => inferInstance

instance (F : Files) (id : Str) (k : Keeping) (bytes : Str) : Tx.Keeps Passive (keepBytes F id k bytes) := by
  unfold keepBytes
  repeat' first | infer_instance | refine Tx.keeps_bind (k := fun _ => ?_) | split

instance (F : Files) (id : Str) (k : Keeping) (r : HttpResponse) : Tx.Keeps Passive (keepDownload F id k r) := by
  unfold keepDownload
  split <;> infer_instance

instance (agent url : Str) : Tx.Keeps Passive (partRequest E agent url) := by
  unfold partRequest
  repeat' first | infer_instance | refine Tx.keeps_bind (k := fun _ => ?_) | split

end Manager

/-! ## Operations that do not mutate -/

section Operations

variable {E : Env} {F : Files} {req : J}

instance (r : A2AResult) : Tx.Keeps Passive (pushResult r) := by
  unfold pushResult
  infer_instance

instance (r : A2AResult) : Tx.Keeps Passive (pushCreateReply r) := by
  unfold pushCreateReply
  infer_instance

/-- An operation that is no mutation only reads. -/
theorem passive_perform {op : Op} (h : Control.mutation op.name = false) : Tx.Keeps Passive (perform E (materialize E F) req op) := by
  cases op with
  | submit | streamSubmit | respond | cancel | pushCreate | pushDelete | materialize => exact absurd h (by decide)
  | list => unfold perform listOp; infer_instance
  | remoteList => unfold perform remoteList; infer_instance
  | subscribe => unfold perform subscribe; infer_instance
  | pushGet => unfold perform pushGet; infer_instance
  | pushList => unfold perform pushList; infer_instance
  | extendedCard => unfold perform extendedCard; infer_instance
  | status =>
    unfold perform status
    repeat' first | infer_instance | refine Tx.keeps_bind (k := fun _ => ?_) | split | dsimp only
  | agents => unfold perform agentsOp; infer_instance
  | discover => unfold perform discoverOp; infer_instance
  | ping => unfold perform; infer_instance

end Operations

/-! ## Mutations -/

/-- The method by which an operation acts on an agent. -/
def Op.method : Op → Option Str
  | .submit | .respond => some Method.sendMessage.name
  | .cancel => some Method.cancelTask.name
  | .streamSubmit => some StreamMethod.sendStreamingMessage.name
  | .pushCreate => some Method.createPushConfig.name
  | .pushDelete => some Method.deletePushConfig.name
  | _ => none

/-- The id of the message in the parameters of a request. -/
def messageId (params : J) : Option J := (params.get? "message").bind fun m => m.get? "messageId"

/-- An operation that ends without a request replies that it has not been done. -/
def Refuses (conclude : M J) : Prop := ∀ s j s', conclude s = .ok j s' → ∃ kind, Replies false kind j

/-- What the operation `op` prepares for the request `id`: the one request it acts by, a message under the
id of the request. -/
def Prepared.Fits (op : Op) (id : Str) : Prepared → Prop
  | .idle conclude => Tx.Keeps Passive conclude ∧ (op.method.isSome = true → Refuses conclude)
  | .call _ _ method params conclude => op.method = some method.name ∧
      (method = .sendMessage → messageId params = some (.str id)) ∧ ∀ r, Tx.Keeps Passive (conclude r)
  | .stream _ _ _ conclude => op.method = some StreamMethod.sendStreamingMessage.name ∧ ∀ a, Tx.Keeps Passive (conclude a)
  | .fetch _ _ conclude => op.method = none ∧ ∀ r, Tx.Keeps Passive (conclude r)

section Mutations

variable {E : Env} {F : Files} {req : J} {id : Str} {op : Op}

theorem refuses_pure {j : J} {kind : Str} (h : Replies false kind j) : Refuses (pure j) := by
  intro s j' s' hj
  obtain ⟨rfl, -⟩ := Tx.pure_ok.1 hj
  exact ⟨kind, h⟩

theorem fits_refusal {j : J} {kind : Str} (h : Replies false kind j) : (Prepared.idle (pure j)).Fits op id :=
  ⟨inferInstance, fun _ => refuses_pure h⟩

theorem replies_plainRefusal (error : Str) : Replies false [] (plainRefusal error) := replies_object rfl rfl

theorem messageId_sendParams (text taskId contextId messageId' : Str) :
    messageId (sendParams text taskId contextId messageId') = some (.str messageId') := by
  unfold messageId sendParams
  simp only [J.get?_object, J.find_cons, if_true, Option.bind_some]
  rw [get?_setIf (.inr (isObject_setIf (J.isObject_object _))), get?_setIf (.inr (J.isObject_object _))]
  simp

/-- The tenant of an interface leaves the message alone. -/
theorem messageId_withTenant {info : BindingInfo} {params : J} (h : params.isObject = true) :
    messageId (withTenant info params) = messageId params := by
  unfold messageId withTenant
  rw [get?_setIf (.inr h), if_neg (by simp)]

theorem prepareSend_fits {endpoint : Str} {auth : AuthSpec} {text taskId contextId : Str} {conclude : A2AResult → M J}
    (hop : op.method = some Method.sendMessage.name) (hid : id ≠ []) (h : ∀ r, Tx.Keeps Passive (conclude r)) :
    Tx.Returns (Prepared.Fits op id) (prepareSend E endpoint auth text taskId contextId id conclude) := by
  unfold prepareSend
  rw [if_neg (by simpa using hid), pure_bind]
  exact Tx.returns_pure ⟨hop, fun _ => messageId_sendParams .., h⟩

instance (c : CreateTaskRequest) (r : A2AResult) : Tx.Keeps Passive (concludeSubmit E c r) := by
  unfold concludeSubmit
  infer_instance

instance (existing : Task) (r : A2AResult) : Tx.Keeps Passive (concludeRespondOp E existing r) := by
  unfold concludeRespondOp
  infer_instance

instance (taskId : Str) (existing : Task) (r : A2AResult) : Tx.Keeps Passive (concludeCancelOp E taskId existing r) := by
  unfold concludeCancelOp
  split <;> infer_instance

/-- A task that cannot be located is refused. -/
theorem locate_refuses (taskId : Str) (s : World) (refused : A2AResult) (s' : World)
    (h : locate E taskId s = .ok (.inl refused) s') : refused.ok = false := by
  have hreturns : Tx.Returns (Sum.elim (fun r => r.ok = false) fun _ => True) (locate E taskId) := by
    unfold locate
    refine Tx.returns_bind fun stored => ?_
    cases stored with
    | none => exact Tx.returns_pure rfl
    | some existing =>
      refine Tx.returns_bind fun resolved => ?_
      cases resolved with
      | none => exact Tx.returns_pure rfl
      | some found => exact Tx.returns_pure trivial
  exact hreturns s _ s' h

/-- What a mutation prepares for a request with an id. -/
theorem prepare_fits (hid : req.valueStr "request_id" "" = .ok id) (hne : id ≠ []) (hop : Control.mutation op.name = true) :
    Tx.Returns (Prepared.Fits op id) (prepare E F req op) := by
  have hsame : ∀ {id' : Str}, req.valueStr "request_id" "" = .ok id' → id' = id := fun h => Except.ok.inj (h.symm.trans hid)
  cases op with
  | submit =>
    unfold prepare prepareSubmit
    refine Tx.returns_bind fun _ => Tx.returns_bind fun _ => ?_
    split
    · exact Tx.returns_pure (fits_refusal replies_refusal)
    · refine Tx.returns_bind fun _ => Tx.returns_lift_bind fun requestId hrequest => Tx.returns_bind fun _ =>
        Tx.returns_bind fun _ => Tx.returns_bind fun resolved => ?_
      obtain rfl := hsame hrequest
      cases resolved with
      | none => exact Tx.returns_pure (fits_refusal replies_refusal)
      | some found => exact prepareSend_fits rfl hne fun _ => inferInstance
  | respond =>
    unfold prepare prepareRespond
    refine Tx.returns_bind fun _ => Tx.returns_bind fun _ => Tx.returns_lift_bind fun requestId hrequest =>
      Tx.returns_bind fun stored => ?_
    obtain rfl := hsame hrequest
    cases stored with
    | none => exact Tx.returns_pure (fits_refusal replies_refusal)
    | some existing =>
      refine Tx.returns_bind fun resolved => ?_
      cases resolved with
      | none => exact Tx.returns_pure (fits_refusal replies_refusal)
      | some found => exact prepareSend_fits rfl hne fun _ => inferInstance
  | cancel =>
    unfold prepare prepareCancel
    refine Tx.returns_bind fun taskId => ?_
    intro s p s' h
    obtain ⟨located, t, hlocate, h⟩ := Tx.bind_ok.1 h
    refine (?_ : Tx.Returns (Prepared.Fits .cancel id) _) t p s' h
    cases located with
    | inl refused =>
      exact Tx.returns_pure (fits_refusal ((follows_cancelReply taskId refused).failed (locate_refuses _ _ _ _ hlocate)))
    | inr found =>
      refine Tx.returns_ite (Tx.returns_pure (fits_refusal replies_refusal)) (Tx.returns_pure ?_)
      exact ⟨rfl, by rintro ⟨⟩, fun _ => inferInstance⟩
  | streamSubmit =>
    unfold prepare prepareStream
    refine Tx.returns_bind fun _ => Tx.returns_bind fun _ => Tx.returns_bind fun _ => Tx.returns_bind fun _ =>
      Tx.returns_bind fun resolved => ?_
    cases resolved with
    | none => exact Tx.returns_pure (fits_refusal ((@follows_streamReply (unknownAgent _, [])).failed rfl))
    | some found => exact Tx.returns_bind fun _ => Tx.returns_pure ⟨rfl, fun _ => inferInstance⟩
  | pushCreate =>
    unfold prepare preparePushCreate
    refine Tx.returns_bind fun _ => Tx.returns_bind fun _ => Tx.returns_bind fun _ =>
      Tx.returns_ite (Tx.returns_pure (fits_refusal (replies_plainRefusal _))) ?_
    refine Tx.returns_bind fun _ => Tx.returns_bind fun _ => Tx.returns_bind fun _ => Tx.returns_bind fun _ =>
      Tx.returns_bind fun resolved => ?_
    cases resolved with
    | none => exact Tx.returns_pure (fits_refusal replies_refusal)
    | some found => exact Tx.returns_pure ⟨rfl, by rintro ⟨⟩, fun _ => inferInstance⟩
  | pushDelete =>
    unfold prepare preparePushDelete
    refine Tx.returns_bind fun _ => Tx.returns_bind fun _ => Tx.returns_bind fun _ => Tx.returns_bind fun resolved => ?_
    cases resolved with
    | none => exact Tx.returns_pure (fits_refusal replies_refusal)
    | some found => exact Tx.returns_pure ⟨rfl, by rintro ⟨⟩, fun _ => inferInstance⟩
  | materialize =>
    unfold prepare prepareMaterialize
    refine Tx.returns_bind fun _ => Tx.returns_bind fun _ => Tx.returns_bind fun _ => Tx.returns_bind fun _ =>
      Tx.returns_bind fun _ => Tx.returns_bind fun stored => ?_
    have hidle : ∀ {conclude : M J}, Tx.Keeps Passive conclude → (Prepared.idle conclude).Fits .materialize id :=
      fun h => ⟨h, fun hsome => absurd hsome Bool.false_ne_true⟩
    cases stored with
    | none => exact Tx.returns_pure (hidle inferInstance)
    | some t =>
      dsimp only
      split
      · exact Tx.returns_pure (hidle inferInstance)
      · split
        · exact Tx.returns_pure (hidle inferInstance)
        · exact Tx.returns_pure (hidle inferInstance)
        · refine Tx.returns_bind fun requested => ?_
          cases requested with
          | error e => exact Tx.returns_pure (hidle inferInstance)
          | ok request => exact Tx.returns_pure ⟨rfl, fun _ => inferInstance⟩
  | list | remoteList | subscribe | pushGet | pushList | extendedCard | status | agents | discover | ping =>
    exact absurd hop (by decide)

instance (endpoint : Str) (auth : AuthSpec) (text taskId contextId requestId : Str) (conclude : A2AResult → M J) :
    Tx.Keeps Passive (prepareSend E endpoint auth text taskId contextId requestId conclude) := by
  unfold prepareSend
  infer_instance

/-- To prepare a mutation only reads. -/
instance : Tx.Keeps Passive (prepare E F req op) := by
  cases op with
  | submit =>
    unfold prepare prepareSubmit
    repeat' first | infer_instance | refine Tx.keeps_bind (k := fun _ => ?_) | split
  | respond =>
    unfold prepare prepareRespond
    repeat' first | infer_instance | refine Tx.keeps_bind (k := fun _ => ?_) | split
  | cancel =>
    unfold prepare prepareCancel
    repeat' first | infer_instance | refine Tx.keeps_bind (k := fun _ => ?_) | split
  | streamSubmit =>
    unfold prepare prepareStream
    repeat' first | infer_instance | refine Tx.keeps_bind (k := fun _ => ?_) | split
  | pushCreate =>
    unfold prepare preparePushCreate
    repeat' first | infer_instance | refine Tx.keeps_bind (k := fun _ => ?_) | split
  | pushDelete =>
    unfold prepare preparePushDelete
    repeat' first | infer_instance | refine Tx.keeps_bind (k := fun _ => ?_) | split
  | materialize =>
    unfold prepare prepareMaterialize
    repeat' first | infer_instance | refine Tx.keeps_bind (k := fun _ => ?_) | split
  | _ =>
    unfold prepare
    infer_instance

end Mutations

/-! ## The one request of a mutation -/

/-- The request of a prepared operation, with what is left to be concluded from its answer. -/
def Prepared.ask (E : Env) : Prepared → M (M J)
  | .idle conclude => return conclude
  | .call endpoint auth method params conclude => return conclude (← rpcCall E endpoint auth method params)
  | .stream endpoint auth params conclude => return conclude (← collect E endpoint auth params)
  | .fetch request _ conclude => return conclude (← exchange E request)

/-- The operation `op` acts by the request, for the request `id` of a client. -/
structure Acts (op : Op) (id : Str) (x : Sent) : Prop where
  method : op.method = some x.method
  message : x.method = Method.sendMessage.name → messageId x.params = some (.str id)

section Asking

variable {E : Env} {op : Op} {id endpoint : Str} {auth : AuthSpec} {params : J} {s s' : World}

theorem Prepared.run_ask (p : Prepared) : p.run E = p.ask E >>= fun conclude => conclude := by
  cases p <;> simp only [Prepared.run, Prepared.ask, pure_bind, bind_assoc]

theorem Acts.acts {x : Sent} (h : Acts op id x) : acts x = true := by
  obtain ⟨hmethod, -⟩ := h
  unfold Ipc.acts
  generalize x.method = method at hmethod
  cases op <;> first | cases hmethod; decide | cases hmethod

/-- A call that comes back has been made. -/
theorem rpcCall_made {method : Method} {r : A2AResult} (h : rpcCall E endpoint auth method params s = .ok r s') :
    ∃ info, s'.sent = s.sent ++ [⟨endpoint, info, method.name, withTenant info params⟩] := by
  obtain ⟨x, u, htransmit, h⟩ := Tx.bind_ok.1 h
  obtain ⟨-, rfl⟩ := Tx.lift_ok.1 h
  obtain ⟨_, -, h⟩ := Tx.lift_bind_ok htransmit
  obtain ⟨rpcId, _, hid, h⟩ := Tx.bind_ok.1 h
  obtain ⟨rfl, rfl⟩ := nextRpcId_ok.1 hid
  obtain ⟨info, _, hinfo, h⟩ := Tx.bind_ok.1 h
  obtain ⟨rfl, rfl⟩ := observe_ok.1 hinfo
  obtain ⟨response, v, hdeliver, h⟩ := Tx.bind_ok.1 h
  obtain ⟨-, rfl⟩ := Tx.pure_ok.1 h
  refine ⟨bindingAt s endpoint, ?_⟩
  unfold deliver at hdeliver
  rcases Tx.ite_ok hdeliver with ⟨-, h⟩ | ⟨-, h⟩
  · cases h
    rfl
  · obtain ⟨req, -, h⟩ := Tx.lift_bind_ok h
    cases h
    rfl

/-- So has a stream. -/
theorem collect_made {answer : A2AResult × List J} (h : collect E endpoint auth params s = .ok answer s') :
    ∃ x, s'.sent = s.sent ++ [x] := by
  have hframe : ∀ s s', Frame [] s s' → Quiet s s' := fun s s' h => h.wire (by decide)
  have hquiet : ∀ (event : J) (st : World × List J), Quiet st.1 ((fun event st => (st.1, st.2 ++ [event])) event st : World × List J).1 :=
    fun _ _ => rfl
  unfold collect streamCall at h
  obtain ⟨info, _, hinfo, h⟩ := Tx.bind_ok.1 h
  obtain ⟨rfl, rfl⟩ := observe_ok.1 hinfo
  obtain ⟨rpcId, _, hid, h⟩ := Tx.bind_ok.1 h
  obtain ⟨rfl, rfl⟩ := nextRpcId_ok.1 hid
  rcases Tx.ite_ok h with ⟨-, h⟩ | ⟨-, h⟩
  · obtain ⟨_, w, hrecord, h⟩ := Tx.bind_ok.1 h
    cases hrecord
    exact ⟨_, Tx.keeps_ok (k := keeps_overGrpc (R := Quiet) hframe hquiet) h⟩
  · obtain ⟨req, -, h⟩ := Tx.lift_bind_ok h
    obtain ⟨_, w, hrecord, h⟩ := Tx.bind_ok.1 h
    cases hrecord
    exact ⟨_, Tx.keeps_ok (k := keeps_overHttp (R := Quiet) hframe hquiet) h⟩

theorem events_collect (params : J) (s : World) : (Tx.endState (collect E endpoint auth params s)).events = s.events := by
  have hkeeps : Tx.Keeps (Frame [.wire]) (streamCall E endpoint auth .sendStreamingMessage params
      (fun event (st : World × List J) => (st.1, st.2 ++ [event])) (fun _ => false) []) :=
    keeps_streamCall (fun _ _ => frame_of_nil) (fun _ => inferInstance) fun _ _ => refl_of (Frame [.wire]) _
  exact (hkeeps.out s).events (by decide)

/-- The result of a program is put into another form. -/
theorem endState_then_pure {α β : Type} (x : M α) (f : α → β) (s : World) :
    Tx.endState ((x >>= fun a => pure (f a)) s) = Tx.endState (x s) := by
  show Tx.endState (EStateM.bind x _ s) = _
  unfold EStateM.bind
  cases x s <;> rfl

/-- A program that asks puts at most one request on the wire that acts, and announces nothing; where it has put
none there, its conclusion refuses. -/
def Asks (op : Op) (id : Str) (x : M (M J)) (s : World) : Prop := ∃ l,
  (Tx.endState (x s)).sent = s.sent ++ l ∧ l.length ≤ 1 ∧ (∀ y ∈ l, Acts op id y) ∧ (Tx.endState (x s)).events = s.events ∧
    ∀ conclude s', x s = .ok conclude s' → Tx.Keeps Passive conclude ∧ (op.method.isSome = true → l = [] → Refuses conclude)

theorem asks_once {α : Type} {x : M α} {conclude : α → M J} {y : Sent} (hy : Acts op id y)
    (hsent : (Tx.endState (x s)).sent = s.sent ∨ (Tx.endState (x s)).sent = s.sent ++ [y])
    (hmade : ∀ a s', x s = .ok a s' → s'.sent ≠ s.sent) (hevents : (Tx.endState (x s)).events = s.events)
    (hconclude : ∀ a, Tx.Keeps Passive (conclude a)) : Asks op id (x >>= fun a => pure (conclude a)) s := by
  have hend : Tx.endState ((x >>= fun a => pure (conclude a)) s) = Tx.endState (x s) := endState_then_pure ..
  unfold Asks
  rw [hend]
  rcases hsent with hnone | hone
  · refine ⟨[], by rw [hnone, List.append_nil], Nat.zero_le _, nofun, hevents, fun k s' h => ?_⟩
    obtain ⟨a, w, hx, -⟩ := Tx.bind_ok.1 h
    rw [hx] at hnone
    exact absurd hnone (hmade a w hx)
  · refine ⟨[y], hone, le_rfl, fun z hz => List.mem_singleton.1 hz ▸ hy, hevents, fun k s' h => ?_⟩
    obtain ⟨a, w, -, h⟩ := Tx.bind_ok.1 h
    obtain ⟨rfl, -⟩ := Tx.pure_ok.1 h
    exact ⟨hconclude a, fun _ hnil => absurd hnil (List.cons_ne_nil _ _)⟩

theorem more_sent {y : Sent} (h : s'.sent = s.sent ++ [y]) : s'.sent ≠ s.sent := by
  intro hsame
  have hlength := congrArg List.length (h.symm.trans hsame)
  simp at hlength

/-- **The one request.** A prepared mutation makes at most one request that acts on an agent; and without one it
is refused. -/
theorem Prepared.Fits.asks {p : Prepared} (hp : p.Fits op id) (s : World) : Asks op id (p.ask E) s := by
  cases p with
  | idle conclude =>
    refine ⟨[], (List.append_nil _).symm, Nat.zero_le _, nofun, rfl, fun k s' h => ?_⟩
    obtain ⟨rfl, -⟩ := Tx.pure_ok.1 h
    exact ⟨hp.1, fun hsome _ => hp.2 hsome⟩
  | call endpoint auth method params conclude =>
    obtain ⟨hmethod, hmessage, hconclude⟩ := hp
    refine asks_once ⟨hmethod, fun hname => ?_⟩ (rpcCall_sent method params) (fun r w h => ?_) (events_rpcCall method params s) hconclude
    · have hsend : method.name = Method.sendMessage.name → method = .sendMessage := by
        cases method <;> decide
      have hmessage := hmessage (hsend hname)
      obtain ⟨m, hm, -⟩ := Option.bind_eq_some_iff.1 hmessage
      exact (messageId_withTenant (J.isObject_of_get? hm)).trans hmessage
    · exact more_sent (rpcCall_made h).choose_spec
  | stream endpoint auth params conclude =>
    obtain ⟨hmethod, hconclude⟩ := hp
    have hsent := @streamCall_sent E s endpoint auth _ .sendStreamingMessage params
      (fun event (st : World × List J) => (st.1, st.2 ++ [event])) (fun _ => false) [] fun _ _ => rfl
    have hother : StreamMethod.sendStreamingMessage.name ≠ Method.sendMessage.name := by decide
    refine asks_once ⟨hmethod, fun hname => absurd hname hother⟩ hsent (fun answer w h => ?_) (events_collect params s) hconclude
    obtain ⟨x, hx⟩ := collect_made h
    exact more_sent hx
  | fetch request keep conclude =>
    refine ⟨[], (List.append_nil _).symm, Nat.zero_le _, nofun, rfl, fun k s' h => ?_⟩
    obtain ⟨r, w, -, h⟩ := Tx.bind_ok.1 h
    obtain ⟨rfl, -⟩ := Tx.pure_ok.1 h
    exact ⟨hp.2 r, fun hsome => absurd hsome (by simp [hp.1])⟩

end Asking

end A2ad.Ipc
