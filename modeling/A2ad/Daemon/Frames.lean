/-
Which parts of the daemon's state each operation can change: the rows of the tasks table, the
emitted events, the requests sent, the bindings and the agents; and random ids are never drawn again.
-/
import A2ad.Task.Manager

namespace A2ad

open Bytes Json Client

inductive Area where
  | rows
  | events
  | wire
  | bindings
  | agents
deriving DecidableEq

/-- The areas outside `K` stay as they are. -/
structure Frame (K : List Area) (s s' : World) : Prop where
  rows : .rows ∉ K → s'.tasks = s.tasks
  events : .events ∉ K → s'.events = s.events
  wire : .wire ∉ K → s'.sent = s.sent
  bindings : .bindings ∉ K → s'.bindings = s.bindings
  agents : .agents ∉ K → s'.agents = s.agents
  writes : .rows ∉ K → s'.writes = s.writes
  nonce : s.nonce ≤ s'.nonce

instance (K : List Area) : IsPreorder World (Frame K) where
  refl _ := ⟨fun _ => rfl, fun _ => rfl, fun _ => rfl, fun _ => rfl, fun _ => rfl, fun _ => rfl, le_rfl⟩
  trans _ _ _ h h' := ⟨fun k => (h'.rows k).trans (h.rows k), fun k => (h'.events k).trans (h.events k),
    fun k => (h'.wire k).trans (h.wire k), fun k => (h'.bindings k).trans (h.bindings k),
    fun k => (h'.agents k).trans (h.agents k), fun k => (h'.writes k).trans (h.writes k), h.nonce.trans h'.nonce⟩

/-- A program that only touches the areas `K`. -/
abbrev Touches (K : List Area) {α : Type} (x : M α) : Prop := Tx.Keeps (Frame K) x

class Allows (K : List Area) (a : Area) : Prop where
  mem : a ∈ K

instance (K : List Area) (a : Area) : Allows (a :: K) a := ⟨List.mem_cons_self⟩

instance (K : List Area) (a b : Area) [h : Allows K a] : Allows (b :: K) a := ⟨List.mem_cons_of_mem _ h.mem⟩

section Primitives

variable {K : List Area} {E : Env}

/-- A change that leaves the areas alone. -/
theorem Frame.of_eq {s s' : World} (h : s'.tasks = s.tasks) (h₁ : s'.events = s.events) (h₂ : s'.sent = s.sent)
    (h₃ : s'.bindings = s.bindings) (h₄ : s'.agents = s.agents) (h₅ : s'.writes = s.writes)
    (h₆ : s.nonce ≤ s'.nonce) : Frame K s s' :=
  ⟨fun _ => h, fun _ => h₁, fun _ => h₂, fun _ => h₃, fun _ => h₄, fun _ => h₅, h₆⟩

instance {α : Type} (f : World → α) : Touches K (observe f) := ⟨fun s => refl s⟩

instance : Touches K (nowIso E) := ⟨fun _ => .of_eq rfl rfl rfl rfl rfl rfl le_rfl⟩

instance : Touches K (steadyNow E) := ⟨fun _ => .of_eq rfl rfl rfl rfl rfl rfl le_rfl⟩

instance : Touches K (freshId E) := ⟨fun s => .of_eq rfl rfl rfl rfl rfl rfl (Nat.le_succ s.nonce)⟩

instance : Touches K nextRpcId := ⟨fun _ => .of_eq rfl rfl rfl rfl rfl rfl le_rfl⟩

instance (id : Str) : Touches K (getTask E id) := ⟨fun s => refl s⟩

instance (b : Bool) : Touches K (listTasks E b) := ⟨fun s => refl s⟩

instance (req : HttpRequest) : Touches K (exchange E req) := ⟨fun _ => .of_eq rfl rfl rfl rfl rfl rfl le_rfl⟩

instance (url : Str) (r : HttpResponse) (card : AgentCard) : Touches K (cacheCard url r card) := by
  refine ⟨fun s => ?_⟩
  show Frame K s (if card.valid then _ else s)
  split
  · exact .of_eq rfl rfl rfl rfl rfl rfl le_rfl
  · exact refl s

instance (t : Task) : Touches K (TaskManager.startSubscription t) := by
  refine ⟨fun s => ?_⟩
  show Frame K s (if _ then s else _)
  split
  · exact refl s
  · exact .of_eq rfl rfl rfl rfl rfl rfl le_rfl

instance (id : Str) (a : Agent) (j : J) : Touches K (TaskManager.saveAgent E id a j) :=
  ⟨fun _ => .of_eq rfl rfl rfl rfl rfl rfl le_rfl⟩

instance [h : Allows K .events] (event : J) : Touches K (emit event) :=
  ⟨fun _ => ⟨fun _ => rfl, fun k => absurd h.mem k, fun _ => rfl, fun _ => rfl, fun _ => rfl, fun _ => rfl, le_rfl⟩⟩

instance [h : Allows K .rows] (row : Row) : Touches K (putRow E row) :=
  ⟨fun _ => ⟨fun k => absurd h.mem k, fun _ => rfl, fun _ => rfl, fun _ => rfl, fun _ => rfl, fun k => absurd h.mem k, le_rfl⟩⟩

instance [h : Allows K .wire] (endpoint : Str) (info : BindingInfo) (method : Str) (params : J) :
    Touches K (record endpoint info method params) :=
  ⟨fun _ => ⟨fun _ => rfl, fun _ => rfl, fun k => absurd h.mem k, fun _ => rfl, fun _ => rfl, fun _ => rfl, le_rfl⟩⟩

instance [h : Allows K .bindings] (i : AgentInterface) : Touches K (registerInterface i) := by
  refine ⟨fun s => ?_⟩
  show Frame K s (if _ then s else _)
  split
  · exact refl s
  · exact ⟨fun _ => rfl, fun _ => rfl, fun _ => rfl, fun k => absurd h.mem k, fun _ => rfl, fun _ => rfl, le_rfl⟩

instance [h : Allows K .agents] (id : Str) (time : Int) (a : Agent) :
    Touches K (TaskManager.storeDiscovery id time a) :=
  ⟨fun _ => ⟨fun _ => rfl, fun _ => rfl, fun _ => rfl, fun _ => rfl, fun k => absurd h.mem k, fun _ => rfl, le_rfl⟩⟩

end Primitives

/-! ## Discovery -/

section Discovery

variable {K : List Area} {E : Env}

instance [Allows K .bindings] (is : List AgentInterface) : Touches K (is.forM registerInterface) := by
  induction is with
  | nil => exact Tx.keeps_pure _
  | cons i is ih =>
    show Touches K (registerInterface i >>= fun _ => is.forM registerInterface)
    infer_instance

instance [Allows K .bindings] (j : J) : Touches K (readCard j) := by
  unfold readCard
  infer_instance

instance [Allows K .bindings] (url : Str) : Touches K (discoverAt E url) := by
  unfold discoverAt
  repeat' first | infer_instance | refine Tx.keeps_bind (k := fun _ => ?_) | split | dsimp only

instance [Allows K .bindings] (urls : List Str) : Touches K (firstCard E urls) := by
  induction urls with
  | nil => exact Tx.keeps_pure _
  | cons url urls ih =>
    unfold firstCard
    repeat' first | infer_instance | refine Tx.keeps_bind (k := fun _ => ?_) | split

instance [Allows K .bindings] (endpoint : Str) : Touches K (discover E endpoint) := by
  unfold discover
  infer_instance

instance [Allows K .bindings] (a : Agent) (card : AgentCard) : Touches K (TaskManager.registerEffective a card) := by
  unfold TaskManager.registerEffective
  split <;> infer_instance

instance [Allows K .bindings] [Allows K .agents] (id : Str) : Touches K (TaskManager.discoverAgent E id) := by
  unfold TaskManager.discoverAgent
  repeat' first | infer_instance | refine Tx.keeps_bind (k := fun _ => ?_) | split

instance [Allows K .bindings] [Allows K .agents] (id : Str) : Touches K (TaskManager.refreshDiscovery E id) := by
  unfold TaskManager.refreshDiscovery
  repeat' first | infer_instance | refine Tx.keeps_bind (k := fun _ => ?_) | split

instance [Allows K .bindings] [Allows K .agents] (id : Str) : Touches K (TaskManager.resolveEndpoint E id) := by
  unfold TaskManager.resolveEndpoint
  repeat' first | infer_instance | refine Tx.keeps_bind (k := fun _ => ?_) | split

end Discovery

/-! ## Calls -/

section Calls

variable {K : List Area} {E : Env} [Allows K .wire]

instance (auth : AuthSpec) (c : Call Method) : Touches K (deliver E auth c) := by
  unfold deliver
  split
  · exact Tx.keeps_bind (k := fun _ => ⟨fun _ => .of_eq rfl rfl rfl rfl rfl rfl le_rfl⟩)
  · infer_instance

instance (endpoint : Str) (auth : AuthSpec) (method : Method) (params : J) :
    Touches K (transmit E endpoint auth method params) := by
  unfold transmit
  infer_instance

instance (endpoint : Str) (auth : AuthSpec) (method : Method) (params : J) :
    Touches K (rpcCall E endpoint auth method params) := by
  unfold rpcCall
  infer_instance

instance (endpoint : Str) (auth : AuthSpec) (text taskId contextId messageId : Str) :
    Touches K (sendMessage E endpoint auth text taskId contextId messageId) := by
  unfold sendMessage
  infer_instance

instance (endpoint : Str) (auth : AuthSpec) (id : Str) : Touches K (fetchTask E endpoint auth id) := by
  unfold fetchTask
  infer_instance

instance (endpoint : Str) (auth : AuthSpec) (id : Str) : Touches K (Client.cancelTask E endpoint auth id) := by
  unfold Client.cancelTask
  infer_instance

end Calls

section Streams

variable {R : World → World → Prop} [hR : IsPreorder World R] {α : Type} {E : Env} {auth : AuthSpec}
  {c : Call StreamMethod} {onEvent : J → World × α → World × α} {stopped : α → Bool} {start : α}

instance : IsPreorder (World × α) fun st st' => R st.1 st'.1 where
  refl st := hR.refl st.1
  trans _ _ _ h h' := hR.trans _ _ _ h h'

theorem keeps_overGrpc (h0 : ∀ s s', Frame [] s s' → R s s') (hevent : ∀ event st, R st.1 (onEvent event st).1) :
    Tx.Keeps R (overGrpc E auth c onEvent stopped start) := by
  refine ⟨fun s => ?_⟩
  have hrun : R { s with exchanges := s.exchanges + 1 } (consumeEvents onEvent (fun st => stopped st.2)
      ({ s with exchanges := s.exchanges + 1 }, start) (E.grpcStream s.exchanges auth c).1).1 :=
    consumeEvents_keeps (R := fun st st' : World × α => R st.1 st'.1) hevent ({ s with exchanges := s.exchanges + 1 }, start) _
  have hcounted : R s { s with exchanges := s.exchanges + 1 } := h0 _ _ (.of_eq rfl rfl rfl rfl rfl rfl le_rfl)
  exact hR.trans s { s with exchanges := s.exchanges + 1 } _ hcounted hrun

theorem keeps_overHttp (h0 : ∀ s s', Frame [] s s' → R s s') (hevent : ∀ event st, R st.1 (onEvent event st).1)
    {req : HttpRequest} : Tx.Keeps R (overHttp E req c onEvent stopped start) := by
  refine ⟨fun s => ?_⟩
  have hrun : R { s with exchanges := s.exchanges + 1 } (consumeAll E.parse onEvent (fun st => stopped st.2)
      ({ s with exchanges := s.exchanges + 1 }, start) (E.stream s.exchanges req).1).1 :=
    consumeAll_keeps (R := fun st st' : World × α => R st.1 st'.1) hevent ({ s with exchanges := s.exchanges + 1 }, start) _
  have hcounted : R s { s with exchanges := s.exchanges + 1 } := h0 _ _ (.of_eq rfl rfl rfl rfl rfl rfl le_rfl)
  exact hR.trans s { s with exchanges := s.exchanges + 1 } _ hcounted hrun

/-- A stream keeps what its record of the request and each of its events keep. -/
theorem keeps_streamCall (h0 : ∀ s s', Frame [] s s' → R s s') {endpoint : Str} {op : StreamMethod} {params : J}
    (hrecord : ∀ info : BindingInfo,
      Tx.Keeps R (record endpoint info op.name (setIf (!info.tenant.isEmpty) "tenant" (.str info.tenant) params)))
    (hevent : ∀ event st, R st.1 (onEvent event st).1) :
    Tx.Keeps R (streamCall E endpoint auth op params onEvent stopped start) := by
  have hquiet : ∀ {β : Type} (x : M β), Touches [] x → Tx.Keeps R x := fun x hx => Tx.keeps_mono h0 hx
  unfold streamCall
  refine Tx.keeps_bind (h := hquiet _ inferInstance) (k := fun info => ?_)
  refine Tx.keeps_bind (h := hquiet _ inferInstance) (k := fun id => ?_)
  split
  · exact Tx.keeps_bind (h := hrecord info) (k := fun _ => keeps_overGrpc h0 hevent)
  · refine Tx.keeps_bind (h := hquiet _ inferInstance) (k := fun req => ?_)
    exact Tx.keeps_bind (h := hrecord info) (k := fun _ => keeps_overHttp h0 hevent)

/-- An event of a subscription keeps what the handler of its update keeps. -/
theorem keeps_onUpdate {β : Type} {r : Str} {onTask : Task → β → M β} (h : ∀ task b, Tx.Keeps R (onTask task b)) (event : J)
    (st : World × β × Bool) : R st.1 (onUpdate r onTask event st).1 := by
  unfold onUpdate
  dsimp only
  generalize hhandle : (_ >>= _ : M (β × Bool)) = handle
  have hkeeps : Tx.Keeps R handle := by
    rw [← hhandle]
    refine Tx.keeps_bind (k := fun found => ?_)
    cases found with
    | none => infer_instance
    | some task => exact Tx.keeps_bind (h := h task _)
  split
  · rename_i hrun
    exact Tx.keeps_ok hrun
  · rename_i hrun
    exact Tx.keeps_error hrun

end Streams

/-! ## Writes -/

section Writes

variable {K : List Area} {E : Env}

instance [Allows K .rows] (t : Task) : Touches K (insertTask E t) := by
  unfold insertTask
  infer_instance

instance [Allows K .rows] (t : Task) : Touches K (updateTask E t) := by
  unfold updateTask
  infer_instance

instance [Allows K .events] (id : Str) (before after : TaskState) :
    Touches K (TaskManager.emitStateChanged id before after) := by
  unfold TaskManager.emitStateChanged
  infer_instance

instance [Allows K .rows] [Allows K .events] (existing t : Task) :
    Touches K (TaskManager.concludeCancel E existing t) := by
  unfold TaskManager.concludeCancel
  infer_instance

instance [Allows K .rows] [Allows K .events] (existing t : Task) :
    Touches K (TaskManager.concludeRefresh E existing t) := by
  unfold TaskManager.concludeRefresh
  infer_instance

instance [Allows K .rows] [Allows K .events] (existing : Task) (r : A2AResult) :
    Touches K (TaskManager.concludeRespond E existing r) := by
  unfold TaskManager.concludeRespond
  infer_instance

instance (req : CreateTaskRequest) (r : A2AResult) : Touches K (TaskManager.newRecord E req r) := by
  unfold TaskManager.newRecord
  repeat' first | infer_instance | refine Tx.keeps_bind (k := fun _ => ?_) | split

instance [Allows K .rows] [Allows K .events] (req : CreateTaskRequest) (r : A2AResult) :
    Touches K (TaskManager.concludeCreate E req r) := by
  unfold TaskManager.concludeCreate
  infer_instance

end Writes

end A2ad
