/-
The daemon as a whole: the control plane and the task manager, the callbacks that run between them, the
work in the background, and processes that end and are started again on what is stored.
-/
import A2ad.Control.Lifecycle
import A2ad.Ipc.Definite
import A2ad.Ipc.Handler
import A2ad.Ipc.Traffic
import A2ad.Task.Restart

namespace A2ad.Ipc

open Bytes Json Client TaskManager

/-! ## Callbacks -/

/-- How far the callback of an admitted request has come. -/
inductive Stage where
  | started
  | prepared (p : Prepared)
  | answered (conclude : M J)
  | returned (outcome : Except Exception J)

structure Callback where
  request : J
  stage : Stage

/-- What the callback prepares. -/
def prepares (E : Env) (F : Files) (req : J) : M Prepared := do
  let op ← req.valueStr "op" ""
  match Op.parse op with
  | some op => prepare E F req op
  | none => return .idle (return plainRefusal (lit "unknown op: " ++ op))

/-- The stage after a phase that may throw. -/
def onward {α : Type} (next : α → Stage) : EStateM.Result Exception World α → Stage × World
  | .ok a w => (next a, w)
  | .error e w => (.returned (.error e), w)

/-- The next phase of a callback. -/
def Stage.next (E : Env) (F : Files) (req : J) (s : World) : Stage → Option (Stage × World)
  | .started => some (onward .prepared (prepares E F req s))
  | .prepared p => some (onward .answered (p.ask E s))
  | .answered conclude => some (onward (fun j => .returned (.ok j)) (conclude s))
  | .returned _ => none

/-! ## Work in the background -/

/-- `startSubscriptions`. -/
def startSubscriptions (E : Env) : M Unit := do
  let tasks ← listTasks E false
  tasks.forM fun t => do
    match ← resolveEndpoint E t.agent with
    | none => return ()
    | some _ => startSubscription t

/-- What the daemon does without being asked: at its start, in its subscriptions, and every now and then. -/
inductive Work where
  | reconciles
  | subscribes
  | connects (agent taskId remoteTaskId : Str)
  | receives (taskId r : Str) (e : J)
  | refreshes (taskId : Str)

def Work.after (E : Env) (s : World) : Work → World
  | reconciles => Tx.endState (reconcileOnStartup E s)
  | subscribes => Tx.endState (startSubscriptions E s)
  | connects agent taskId remoteTaskId => Tx.endState (subscriptionRound E agent taskId remoteTaskId s)
  | receives taskId r e => received E taskId r s e
  | refreshes taskId => Tx.endState (refreshTask E taskId s)

/-! ## The service -/

structure Service where
  control : Control.Sys := .init
  config : Config := {}
  tasks : World := {}
  callbacks : List Callback := []

namespace Service

def env (E : Env) (s : Service) : Env := { E with config := s.config }

inductive Turn where
  /-- a request is answered, refused or admitted by the control plane, or it is no mutation and is performed -/
  | enters (req : J) (entry : Control.Entry)
  /-- `handle` throws before there is an execution -/
  | refuses (req : J)
  | starts (request : J)
  /-- the callback of the request goes through its next phase -/
  | advances (request : J)
  | leaves (request : J) (outcome : Except Exception J) (reply : J)
  /-- `handle` throws once the callback has come back -/
  | drops (request : J)
  /-- an event of the task manager is logged -/
  | logs (value : J)
  | works (w : Work)
  | boots (config : Config)
  | crashes

/-- An entry that is handed on to the task manager without an execution. -/
def performed (E : Env) (F : Files) (entry : Control.Entry) (s : World) : World :=
  match entry with
  | .plain req => Tx.endState (dispatch E (materialize E F) req s)
  | _ => s

inductive Step (C : Control.Env) (E : Env) (F : Files) : Service → Turn → Service → Prop
  | enters {s : Service} {req : J} {entry : Control.Entry} {t : Control.Sys} :
    Control.Step C s.control (.enter req entry) t →
    Step C E F s (.enters req entry) { s with control := t, tasks := performed (s.env E) F entry s.tasks }
  | refuses {s : Service} {req : J} {t : Control.Sys} : Control.Step C s.control (.throws req) t →
    t.flights = s.control.flights → Step C E F s (.refuses req) { s with control := t }
  | starts {s : Service} {request : J} {t : Control.Sys} : Control.Step C s.control (.start request) t →
    Step C E F s (.starts request) { s with control := t, callbacks := s.callbacks ++ [⟨request, .started⟩] }
  | advances {s : Service} {request : J} {stage stage' : Stage} {w : World} {l l' : List Callback} :
    s.callbacks = l ++ ⟨request, stage⟩ :: l' → stage.next (s.env E) F request s.tasks = some (stage', w) →
    Step C E F s (.advances request) { s with tasks := w, callbacks := l ++ ⟨request, stage'⟩ :: l' }
  | leaves {s : Service} {request reply : J} {outcome : Except Exception J} {t : Control.Sys} {l l' : List Callback} :
    s.callbacks = l ++ ⟨request, .returned outcome⟩ :: l' → Control.Step C s.control (.leave request outcome reply) t →
    Step C E F s (.leaves request outcome reply) { s with control := t, callbacks := l ++ l' }
  | drops {s : Service} {request : J} {outcome : Except Exception J} {t : Control.Sys} {l l' : List Callback}
      {a b : List Control.Flight} :
    s.callbacks = l ++ ⟨request, .returned outcome⟩ :: l' → Control.Step C s.control (.throws request) t →
    s.control.flights = a ++ ⟨request, true⟩ :: b → t.flights = a ++ b →
    Step C E F s (.drops request) { s with control := t, callbacks := l ++ l' }
  | logs {s : Service} {value : J} {t : Control.Sys} : value ∈ s.tasks.events → Control.Step C s.control (.event value) t →
    Step C E F s (.logs value) { s with control := t }
  | works {s : Service} {w : Work} : s.control.up = true →
    Step C E F s (.works w) { s with tasks := w.after (s.env E) s.tasks }
  | boots {s : Service} {config : Config} {t : Control.Sys} : Control.Step C s.control (.boot config.enforcePolicy) t →
    Step C E F s (.boots config) ⟨t, config, restart config s.tasks, []⟩
  | crashes {s : Service} {t : Control.Sys} : Control.Step C s.control .crash t →
    Step C E F s .crashes { s with control := t, callbacks := [] }

/-! ## The control plane of a service -/

/-- What the control plane sees of a turn. -/
def Turn.label : Turn → Option Control.Label
  | .enters req entry => some (.enter req entry)
  | .refuses req => some (.throws req)
  | .starts request => some (.start request)
  | .leaves request outcome reply => some (.leave request outcome reply)
  | .drops request => some (.throws request)
  | .logs value => some (.event value)
  | .boots config => some (.boot config.enforcePolicy)
  | .crashes => some .crash
  | .advances _ | .works _ => none

def controlMove (m : Move Service Turn) : Option (Move Control.Sys Control.Label) :=
  m.label.label.map fun l => ⟨m.pre.control, l, m.post.control⟩

def controlTrace (tr : List (Move Service Turn)) : List (Move Control.Sys Control.Label) := tr.filterMap controlMove

section Control

variable {C : Control.Env} {E : Env} {F : Files} {s t : Service} {turn : Turn} {tr : List (Move Service Turn)}

theorem Step.control (h : Step C E F s turn t) :
    match turn.label with
    | some l => Control.Step C s.control l t.control
    | none => t.control = s.control := by
  cases h with
  | enters h => exact h
  | refuses h => exact h
  | starts h => exact h
  | leaves _ h => exact h
  | drops _ h => exact h
  | logs _ h => exact h
  | boots h => exact h
  | crashes h => exact h
  | advances => rfl
  | works => rfl

/-- The control plane of a service runs as it does on its own. -/
theorem control_run (h : Run (Step C E F) {} tr s) : Run (Control.Step C) .init (controlTrace tr) s.control := by
  induction h with
  | nil => exact .nil
  | @snoc tr s t turn _ hstep ih =>
    have hcontrol := hstep.control
    unfold controlTrace at ih ⊢
    rw [List.filterMap_append]
    cases hlabel : turn.label with
    | none =>
      rw [hlabel] at hcontrol
      have hnone : [(⟨s, turn, t⟩ : Move Service Turn)].filterMap controlMove = [] := by simp [controlMove, hlabel]
      rw [hnone, List.append_nil, hcontrol]
      exact ih
    | some l =>
      rw [hlabel] at hcontrol
      have hsome : [(⟨s, turn, t⟩ : Move Service Turn)].filterMap controlMove = [⟨s.control, l, t.control⟩] := by
        simp [controlMove, hlabel]
      rw [hsome]
      exact ih.snoc hcontrol

end Control

/-! ## Requests in flight -/

section Flights

variable {C : Control.Env} {s : Control.Sys} {tr : List (Move Control.Sys Control.Label)}

/-- The operation of a request is that of its execution. -/
def Operates (request e : J) : Prop := ∃ op, request.get? "op" = some (.str op) ∧ e.get? "operation" = some (.str op)

/-- What an admission makes true of a request and its execution, and settling keeps, is true of all requests in flight. -/
theorem flights_run {P : J → J → Prop} (hsettles : ∀ {r e e'}, P r e → Control.Settles e e' → P r e')
    (hadmitted : ∀ {enforce req r} {g : Control.Grant} {u v w x}, Control.Issued req r →
      Control.Admission C enforce r g u v w x → P r (x.db.get .execution g.id))
    (h : Run (Control.Step C) .init tr s) : ∀ f ∈ s.flights, ∀ id, f.request.get? "request_id" = some (.str id) →
      P f.request (s.exec id) := by
  refine h.invariant_of (I := fun _ s => ∀ f ∈ s.flights, ∀ id, f.request.get? "request_id" = some (.str id) →
    P f.request (s.exec id)) (fun _ hf => absurd hf List.not_mem_nil) fun tr s l t hrun hP hstep f hf id hid => ?_
  have hs := Control.safe_run hrun
  rcases hstep.flight_origin hf with ⟨f', hf', he⟩ | ⟨req, hl⟩
  · rw [← he] at hid ⊢
    have hdispatching := (hs.flight_exec hf' hid).1
    rcases hs.frozen_step hstep (J.ne_null_of_get? hdispatching) with hsame | ⟨-, hset⟩
    · rw [hsame]
      exact hP f' hf' id hid
    · exact hsettles (hP f' hf' id hid) hset
  · subst hl
    obtain ⟨g, _, _, _, hissued, -, ha⟩ := hs.admission hstep
    have hg : g.id = id := by simpa using (Control.required_ok ha.id).1.symm.trans hid
    exact hg ▸ hadmitted hissued ha

theorem operates_run (h : Run (Control.Step C) .init tr s) : ∀ f ∈ s.flights, ∀ id,
    f.request.get? "request_id" = some (.str id) → Operates f.request (s.exec id) := by
  refine flights_run (P := Operates) ?_ ?_ h
  · rintro r e e' ⟨op, hop, he⟩ hset
    exact ⟨op, hop, (hset.kept _ (by decide)).trans he⟩
  · intro enforce req r g u v w x hissued ha
    obtain ⟨op, hop, -⟩ := hissued.op
    obtain ⟨_, _, _, hc⟩ := ha.created
    have hg : g.op = op := by
      have hvalue : r.valueStr "op" "" = .ok op := J.valueStr_ok.2 ⟨J.isObject_of_get? hop, .inl hop⟩
      exact Except.ok.inj (ha.reviewed.op.symm.trans hvalue)
    exact ⟨op, hop, by rw [hc]; simp [Control.Grant.execution, hg]⟩

/-- The request `id` of an operation that mutates. -/
structure Mutates (request : J) (id : Str) (op : Op) : Prop where
  carried : request.get? "request_id" = some (.str id)
  named : id ≠ []
  asked : request.get? "op" = some (.str op.name)
  mutates : Control.mutation op.name = true

/-- Its execution is in dispatch. -/
structure Entitled (s : Control.Sys) (request : J) (id : Str) (op : Op) : Prop extends Mutates request id op where
  dispatching : Control.Dispatching (s.exec id)
  operation : (s.exec id).get? "operation" = some (.str op.name)

theorem parse_mutation {name : Str} (h : Control.mutation name = true) : ∃ op : Op, op.name = name := by
  simp only [Control.mutation, Bool.or_eq_true, decide_eq_true_eq, or_assoc] at h
  rcases h with rfl | rfl | rfl | rfl | rfl | rfl | rfl
  · exact ⟨.submit, rfl⟩
  · exact ⟨.respond, rfl⟩
  · exact ⟨.cancel, rfl⟩
  · exact ⟨.streamSubmit, rfl⟩
  · exact ⟨.pushCreate, rfl⟩
  · exact ⟨.pushDelete, rfl⟩
  · exact ⟨.materialize, rfl⟩

theorem entitled_run (h : Run (Control.Step C) .init tr s) {f : Control.Flight} (hf : f ∈ s.flights) :
    ∃ id op, Entitled s f.request id op := by
  obtain ⟨id, hid, hdispatching⟩ := (Control.safe_run h).flights f hf
  obtain ⟨r, -, hheld⟩ := Control.held_run h id (J.ne_null_of_get? hdispatching)
  obtain rfl := hheld.flights f hf hid
  obtain ⟨name, hname, hmutates⟩ := hheld.origin.op
  obtain ⟨op, rfl⟩ := parse_mutation hmutates
  obtain ⟨name, hname', hoperation⟩ := operates_run h f hf id hid
  obtain rfl : op.name = name := by simpa using hname.symm.trans hname'
  exact ⟨id, op, ⟨hid, (Control.required_ok hheld.origin.rid).2, hname, hmutates⟩, hdispatching, hoperation⟩

end Flights

/-! ## Callbacks of requests in flight -/

/-- The callbacks belong to calls that have started, one to each. -/
structure Attended (s : Service) : Prop where
  flying : ∀ c ∈ s.callbacks, ⟨c.request, true⟩ ∈ s.control.flights
  distinct : (s.callbacks.map fun c => c.request.get? "request_id").Nodup

section Attended

variable {C : Control.Env} {E : Env} {F : Files} {s t : Service} {turn : Turn} {tr : List (Move Service Turn)}

/-- No other callback carries the id. -/
theorem Attended.others {request : J} {stage : Stage} {l l' : List Callback} (ha : Attended s)
    (hl : s.callbacks = l ++ ⟨request, stage⟩ :: l') : ∀ c ∈ l ++ l', c.request.get? "request_id" ≠ request.get? "request_id" := by
  have hdistinct := ha.distinct
  rw [hl, List.map_append, List.map_cons, List.nodup_middle, List.nodup_cons, ← List.map_append] at hdistinct
  exact fun c hc he => hdistinct.1 (List.mem_map.2 ⟨c, hc, he⟩)

/-- The callback goes with its call. -/
theorem Attended.left {request : J} {stage : Stage} {l l' : List Callback} {a b : List Control.Flight} {u : Control.Sys}
    (ha : Attended s) (hl : s.callbacks = l ++ ⟨request, stage⟩ :: l') (hf : s.control.flights = a ++ ⟨request, true⟩ :: b)
    (hu : u.flights = a ++ b) : Attended { s with control := u, callbacks := l ++ l' } := by
  have hothers := ha.others hl
  obtain ⟨hflying, hdistinct⟩ := ha
  rw [hl] at hflying hdistinct
  refine ⟨fun c hc => ?_, hdistinct.sublist (((List.sublist_cons_self ..).append_left _).map _)⟩
  show _ ∈ u.flights
  have hin := hflying c (by rcases List.mem_append.1 hc with hc | hc <;> simp [hc])
  rw [hf] at hin
  rw [hu]
  rcases List.mem_append.1 hin with hin | hin
  · exact List.mem_append_left _ hin
  · rcases List.mem_cons.1 hin with he | hin
    · exact absurd (by rw [(Control.Flight.mk.inj he).1]) (hothers c hc)
    · exact List.mem_append_right _ hin

theorem attended_idle (h : s.callbacks = []) : Attended s := by
  constructor
  · intro c hc
    rw [h] at hc
    cases hc
  · rw [h]
    exact List.nodup_nil

theorem attended_step (hs : Control.Safe s.control) (ha : Attended s) (h : Step C E F s turn t) : Attended t := by
  cases h with
  | enters h =>
    refine ⟨fun c hc => ?_, ha.distinct⟩
    cases h with
    | enter => exact List.mem_append_left _ (ha.flying c hc)
  | refuses h hflights => exact ⟨fun c hc => by rw [hflights]; exact ha.flying c hc, ha.distinct⟩
  | @starts request _ h =>
    cases h with
    | @start _ l l' hf =>
      have hids := hs.distinct
      rw [hf, List.map_append, List.map_cons, List.nodup_middle, List.nodup_cons, ← List.map_append] at hids
      have hrest : ∀ c ∈ s.callbacks, (⟨c.request, true⟩ : Control.Flight) ∈ l ++ l' := by
        intro c hc
        have hin := ha.flying c hc
        rw [hf] at hin
        rcases List.mem_append.1 hin with hin | hin
        · exact List.mem_append_left _ hin
        · exact List.mem_append_right _ (List.mem_of_ne_of_mem (by simp) hin)
      constructor
      · intro c hc
        rcases List.mem_append.1 hc with hc | hc
        · rcases List.mem_append.1 (hrest c hc) with hin | hin <;> simp [hin]
        · rw [List.mem_singleton.1 hc]
          simp
      · rw [List.map_append, List.nodup_append_comm]
        refine List.nodup_cons.2 ⟨fun hin => ?_, ha.distinct⟩
        obtain ⟨c, hc, he⟩ := List.mem_map.1 hin
        exact hids.1 (List.mem_map.2 ⟨_, hrest c hc, he⟩)
  | @advances request stage stage' w l l' hl hnext =>
    obtain ⟨hflying, hdistinct⟩ := ha
    rw [hl] at hflying hdistinct
    refine ⟨fun c hc => ?_, by simpa using hdistinct⟩
    rcases List.mem_append.1 hc with hc | hc
    · exact hflying c (List.mem_append_left _ hc)
    · rcases List.mem_cons.1 hc with rfl | hc
      · exact hflying ⟨request, stage⟩ (List.mem_append_right _ List.mem_cons_self)
      · exact hflying c (List.mem_append_right _ (List.mem_cons_of_mem _ hc))
  | leaves hl h =>
    cases h with
    | leave hf => exact ha.left hl hf rfl
  | drops hl _ hf ht => exact ha.left hl hf ht
  | logs _ h =>
    refine ⟨fun c hc => ?_, ha.distinct⟩
    cases h with
    | event => exact ha.flying c hc
  | works => exact ⟨ha.flying, ha.distinct⟩
  | boots | crashes => exact attended_idle rfl

theorem attended_run (h : Run (Step C E F) {} tr s) : Attended s :=
  h.invariant_of (I := fun _ s => Attended s) (attended_idle rfl) fun _ _ _ _ hrun ha hstep =>
    attended_step (Control.safe_run (control_run hrun)) ha hstep

theorem callback_entitled (h : Run (Step C E F) {} tr s) {c : Callback} (hc : c ∈ s.callbacks) :
    ∃ id op, Entitled s.control c.request id op :=
  entitled_run (control_run h) ((attended_run h).flying c hc)

end Attended

/-! ## What the handler does -/

section Handler

variable {C : Control.Env} {E : Env} {F : Files} {s : Service}

theorem dispatch_prepares (E : Env) (F : Files) (req : J) :
    dispatch E (materialize E F) req = prepares E F req >>= Prepared.run E := by
  unfold dispatch prepares
  rw [bind_assoc]
  congr 1
  funext name
  cases Op.parse name with
  | none => simp only [pure_bind, Prepared.run]
  | some op => exact perform_phases op

/-- The service with the callback in another stage. -/
def staged (s : Service) (l : List Callback) (request : J) (stage : Stage) (l' : List Callback) (w : World) : Service :=
  { s with tasks := w, callbacks := l ++ ⟨request, stage⟩ :: l' }

theorem staged_next {request : J} {stage stage' : Stage} {l l' : List Callback} {w w' : World}
    (h : stage.next (s.env E) F request w = some (stage', w')) :
    Step C E F (s.staged l request stage l' w) (.advances request) (s.staged l request stage' l' w') :=
  .advances (s := s.staged l request stage l' w) rfl h

/-- A callback that nothing comes between does what the dispatch of its request does. -/
theorem staged_run (s : Service) (l : List Callback) (request : J) (l' : List Callback) (w : World) :
    let r := dispatch (s.env E) (materialize (s.env E) F) request w
    ∃ tr, Run (Step C E F) (s.staged l request .started l' w) tr
      (s.staged l request (.returned (outcomeOf r)) l' (Tx.endState r)) := by
  intro r
  have hr : r = (prepares (s.env E) F request >>= fun p => p.ask (s.env E) >>= fun conclude => conclude) w := by
    have hrun : Prepared.run (s.env E) = fun p => p.ask (s.env E) >>= fun conclude => conclude := funext Prepared.run_ask
    show dispatch (s.env E) (materialize (s.env E) F) request w = _
    rw [dispatch_prepares, hrun]
  cases hprepares : prepares (s.env E) F request w with
  | error e w₁ =>
    have hthrows : r = .error e w₁ := hr.trans (Tx.bind_error.2 (.inl hprepares))
    rw [hthrows]
    exact ⟨_, .snoc .nil (staged_next (by rw [Stage.next, hprepares]; rfl))⟩
  | ok p w₁ =>
    rw [Tx.bind_of_ok hprepares] at hr
    have hfirst : Step C E F (s.staged l request .started l' w) (.advances request) (s.staged l request (.prepared p) l' w₁) :=
      staged_next (by rw [Stage.next, hprepares]; rfl)
    cases hask : p.ask (s.env E) w₁ with
    | error e w₂ =>
      have hthrows : r = .error e w₂ := hr.trans (Tx.bind_error.2 (.inl hask))
      rw [hthrows]
      exact ⟨_, .snoc (.snoc .nil hfirst) (staged_next (by rw [Stage.next, hask]; rfl))⟩
    | ok conclude w₂ =>
      rw [Tx.bind_of_ok hask] at hr
      have hsecond : Step C E F (s.staged l request (.prepared p) l' w₁) (.advances request)
          (s.staged l request (.answered conclude) l' w₂) := staged_next (by rw [Stage.next, hask]; rfl)
      refine ⟨_, .snoc (.snoc (.snoc .nil hfirst) hsecond) (staged_next ?_)⟩
      rw [Stage.next, hr]
      cases conclude w₂ <;> rfl

/-- The only callback in flight does what its dispatch does, and the outcome is recorded. -/
theorem call_run {s : Service} {request : J} (hcallbacks : s.callbacks = [⟨request, .started⟩])
    (hflights : s.control.flights = [⟨request, true⟩])
    (hleft : (Tx.result? (Control.leave C request (outcomeOf (dispatch (s.env E) (materialize (s.env E) F) request s.tasks))
      s.control.st)).isSome = true) :
    ∃ tr t, Run (Step C E F) s tr t ∧ t.control =
      (Control.leaveMove C request (outcomeOf (dispatch (s.env E) (materialize (s.env E) F) request s.tasks)) s.control).post := by
  obtain ⟨during, hduring⟩ := staged_run (C := C) (E := E) (F := F) s [] request [] s.tasks
  have hstart : s.staged [] request .started [] s.tasks = s := by
    unfold staged
    rw [List.nil_append, ← hcallbacks]
  rw [hstart] at hduring
  generalize outcomeOf (dispatch (s.env E) (materialize (s.env E) F) request s.tasks) = outcome at hduring hleft ⊢
  obtain ⟨reply, hlabel⟩ := Control.leaveMove_label hleft
  have hleave := @Control.leaveMove_step C s.control request outcome hflights
  rw [hlabel] at hleave
  exact ⟨_, _, hduring.snoc (@Step.leaves C E F _ request _ outcome _ [] [] rfl hleave), rfl⟩

/-- What the handler lets in is a turn of the service, or it has answered by itself and changed nothing. -/
theorem accept_turn {req : J} {entry : Control.Entry} {d : Daemon} (hup : s.control.up = true)
    (h : accept C (s.env E) s.control.enforce req ⟨s.control.st, s.tasks⟩ = .ok entry d) :
    (∃ reply, entry = .reply reply ∧ d = ⟨s.control.st, s.tasks⟩) ∨
      ∃ req', Step C E F s (.enters req' entry) { s with
        control := { s.control with st := d.control, flights := s.control.flights ++ entry.flights }
        tasks := performed (s.env E) F entry d.tasks } := by
  unfold accept at h
  obtain ⟨op, hop, h⟩ := Tx.lift_bind_ok h
  obtain ⟨req₁, hrouted, h⟩ := Tx.lift_bind_ok h
  obtain ⟨req₂, d₁, hl, h⟩ := Tx.bind_ok.1 h
  obtain ⟨hretargeted, hcontrol⟩ := onTasks_ok hl
  have htasks := (retargeted_ok (routed_ok (J.valueStr_ok.1 hop).1 hrouted).1.1 hretargeted).1
  obtain rfl : d₁ = ⟨s.control.st, s.tasks⟩ := by
    cases d₁
    cases htasks
    cases hcontrol
    rfl
  rcases Tx.ite_ok h with ⟨-, h⟩ | ⟨-, h⟩
  · obtain ⟨reply, d₂, hexplain, h⟩ := Tx.bind_ok.1 h
    obtain ⟨rfl, rfl⟩ := Tx.pure_ok.1 h
    obtain ⟨hexplained, hkept⟩ := onControl_ok hexplain
    obtain ⟨cwd, -, hexplained⟩ := Tx.lift_bind_ok hexplained
    have hsame : s.control.st = d₂.control := by
      generalize (s.env E).config.defaultAgentFor (s.env E).canonical cwd = selected at hexplained
      cases selected with
      | some agent =>
        obtain ⟨health, c, hhealth, hreply⟩ := Tx.bind_ok.1 hexplained
        exact (Control.health_ok hhealth).2.trans (Tx.pure_ok.1 hreply).2
      | none => exact (Tx.pure_ok.1 hexplained).2
    refine .inl ⟨reply, rfl, ?_⟩
    cases d₂
    cases hkept
    cases hsame
    rfl
  · obtain ⟨hentered, hkept⟩ := onControl_ok h
    refine .inr ⟨req₂, ?_⟩
    rw [hkept]
    exact .enters (.enter hup hentered)

end Handler

end Service

end A2ad.Ipc
