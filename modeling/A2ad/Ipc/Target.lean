/-
The agent that is checked is the agent that is called: the agent an admitted request names, which the
control plane has looked up, hashed and recorded, is the one the task manager reaches out to.
-/
import A2ad.Ipc.Handler

namespace A2ad.Ipc

open Bytes Json Client TaskManager

/-! ## Whom an operation reaches -/

section Definitions

variable (E : Env)

/-- What is prepared reaches out to the agent `a` from the world `w`: it calls the endpoint of `a`, or
it fetches a part of a task of `a`. Ending without a request, it has nothing left but to announce. -/
def Prepared.For (a : Str) (w : World) : Prepared → Prop
  | .idle conclude => Touches [.events] conclude
  | .call endpoint auth _ _ _ => ∃ v, resolveEndpoint E a w = .ok (some (endpoint, auth)) v
  | .stream endpoint auth _ _ => ∃ v, resolveEndpoint E a w = .ok (some (endpoint, auth)) v
  | .fetch request _ _ => ∃ url v, partRequest E a url w = .ok (.ok request) v

/-- The agent that the task manager takes an operation to be for. -/
def Aims (w : World) (r : J) (a : Str) : Op → Prop
  | .submit => ∃ requested cwd, r.valueStr "agent" "" = .ok requested ∧ r.valueStr "cwd" "" = .ok cwd ∧
      (if requested.isEmpty then E.config.defaultAgentFor E.canonical cwd else some requested) = some a
  | .respond | .cancel | .materialize => ∃ id t, r.valueStr "task_id" "" = .ok id ∧ w.task E id = some t ∧ t.agent = a
  | .streamSubmit | .pushCreate | .pushDelete => r.valueStr "agent" "" = .ok a
  | _ => False

end Definitions

section Prepare

variable {E : Env} {F : Files} {r : J} {w w' : World} {p : Prepared}

/-- A prepared operation ends by itself, or it is for the agent it aims at. -/
def Aimed (E : Env) (w : World) (r : J) (op : Op) (p : Prepared) : Prop :=
  (∃ conclude, p = .idle conclude ∧ Touches [.events] conclude) ∨ ∃ a, Aims E w r a op ∧ p.For E a w

theorem aimed_return {op : Op} {reply : J} {s s' : World} (h : (pure (.idle (pure reply)) : M Prepared) s = .ok p s') :
    Aimed E w r op p := by
  obtain ⟨rfl, -⟩ := Tx.pure_ok.1 h
  exact .inl ⟨_, rfl, inferInstance⟩

theorem prepareSend_for {endpoint : Str} {auth : AuthSpec} {text taskId contextId requestId a : Str}
    {conclude : A2AResult → M J} {v : World} (hresolve : resolveEndpoint E a w = .ok (some (endpoint, auth)) v)
    (h : prepareSend E endpoint auth text taskId contextId requestId conclude v = .ok p w') : p.For E a w := by
  unfold prepareSend at h
  rcases Tx.ite_ok h with ⟨-, h⟩ | ⟨-, h⟩
  all_goals
    obtain ⟨messageId, v', -, h⟩ := Tx.bind_ok.1 h
    obtain ⟨rfl, -⟩ := Tx.pure_ok.1 h
    exact ⟨v, hresolve⟩

theorem prepareSubmit_aimed (h : prepareSubmit E r w = .ok p w') : Aimed E w r .submit p := by
  unfold prepareSubmit at h
  obtain ⟨requested, hrequested, h⟩ := Tx.lift_bind_ok h
  obtain ⟨cwd, hcwd, h⟩ := Tx.lift_bind_ok h
  dsimp only at h
  cases hroute : if requested.isEmpty then E.config.defaultAgentFor E.canonical cwd else some requested with
  | none =>
    rw [hroute] at h
    exact aimed_return h
  | some agent =>
    rw [hroute] at h
    obtain ⟨message, -, h⟩ := Tx.lift_bind_ok h
    obtain ⟨requestId, -, h⟩ := Tx.lift_bind_ok h
    obtain ⟨taskId, -, h⟩ := Tx.lift_bind_ok h
    obtain ⟨contextId, -, h⟩ := Tx.lift_bind_ok h
    obtain ⟨resolved, v, hresolve, h⟩ := Tx.bind_ok.1 h
    cases resolved with
    | none => exact aimed_return h
    | some found => exact .inr ⟨agent, ⟨requested, cwd, hrequested, hcwd, hroute⟩, prepareSend_for hresolve h⟩

theorem prepareRespond_aimed (h : prepareRespond E r w = .ok p w') : Aimed E w r .respond p := by
  unfold prepareRespond at h
  obtain ⟨id, hid, h⟩ := Tx.lift_bind_ok h
  obtain ⟨text, -, h⟩ := Tx.lift_bind_ok h
  obtain ⟨requestId, -, h⟩ := Tx.lift_bind_ok h
  obtain ⟨stored, _, hget, h⟩ := Tx.bind_ok.1 h
  obtain ⟨hstored, rfl⟩ := observe_ok.1 hget
  cases stored with
  | none => exact aimed_return h
  | some existing =>
    obtain ⟨resolved, v, hresolve, h⟩ := Tx.bind_ok.1 h
    cases resolved with
    | none => exact aimed_return h
    | some found => exact .inr ⟨existing.agent, ⟨id, existing, hid, hstored, rfl⟩, prepareSend_for hresolve h⟩

/-- A located task is stored, and its agent is resolved. -/
theorem locate_found {id : Str} {existing : Task} {endpoint : Str} {auth : AuthSpec}
    (h : locate E id w = .ok (.inr (existing, endpoint, auth)) w') :
    w.task E id = some existing ∧ resolveEndpoint E existing.agent w = .ok (some (endpoint, auth)) w' := by
  unfold locate at h
  obtain ⟨stored, _, hget, h⟩ := Tx.bind_ok.1 h
  obtain ⟨hstored, rfl⟩ := observe_ok.1 hget
  cases stored with
  | none => cases (Tx.pure_ok.1 h).1
  | some t =>
    obtain ⟨resolved, v, hresolve, h⟩ := Tx.bind_ok.1 h
    cases resolved with
    | none => cases (Tx.pure_ok.1 h).1
    | some found =>
      obtain ⟨he, rfl⟩ := Tx.pure_ok.1 h
      cases he
      exact ⟨hstored, hresolve⟩

theorem prepareCancel_aimed (h : prepareCancel E r w = .ok p w') : Aimed E w r .cancel p := by
  unfold prepareCancel at h
  obtain ⟨id, hid, h⟩ := Tx.lift_bind_ok h
  obtain ⟨located, v, hlocate, h⟩ := Tx.bind_ok.1 h
  cases located with
  | inl refusal => exact aimed_return h
  | inr found =>
    obtain ⟨existing, endpoint, auth⟩ := found
    obtain ⟨hstored, hresolve⟩ := locate_found hlocate
    rcases Tx.ite_ok h with ⟨-, h⟩ | ⟨-, h⟩
    · exact aimed_return h
    · obtain ⟨rfl, -⟩ := Tx.pure_ok.1 h
      exact .inr ⟨existing.agent, ⟨id, existing, hid, hstored, rfl⟩, v, hresolve⟩

theorem prepareStream_aimed (h : prepareStream E r w = .ok p w') : Aimed E w r .streamSubmit p := by
  unfold prepareStream at h
  obtain ⟨agent, hagent, h⟩ := Tx.lift_bind_ok h
  obtain ⟨message, -, h⟩ := Tx.lift_bind_ok h
  obtain ⟨taskId, -, h⟩ := Tx.lift_bind_ok h
  obtain ⟨contextId, -, h⟩ := Tx.lift_bind_ok h
  obtain ⟨resolved, v, hresolve, h⟩ := Tx.bind_ok.1 h
  cases resolved with
  | none => exact aimed_return h
  | some found =>
    obtain ⟨messageId, v', -, h⟩ := Tx.bind_ok.1 h
    obtain ⟨rfl, -⟩ := Tx.pure_ok.1 h
    exact .inr ⟨agent, hagent, v, hresolve⟩

instance (taskId : Str) (k : Keeping) (bytes : Str) : Touches [.events] (keepBytes F taskId k bytes) := by
  unfold keepBytes
  refine Tx.keeps_bind (k := fun kept => ?_)
  cases kept <;> infer_instance

instance (x : A2AResult) : Touches [.events] (pushCreateReply x) := by
  unfold pushCreateReply
  infer_instance

instance (x : A2AResult) : Touches [.events] (pushResult x) := by
  unfold pushResult
  infer_instance

theorem preparePushCreate_aimed (h : preparePushCreate E r w = .ok p w') : Aimed E w r .pushCreate p := by
  unfold preparePushCreate at h
  obtain ⟨id, -, h⟩ := Tx.lift_bind_ok h
  obtain ⟨taskId, -, h⟩ := Tx.lift_bind_ok h
  obtain ⟨url, -, h⟩ := Tx.lift_bind_ok h
  rcases Tx.ite_ok h with ⟨-, h⟩ | ⟨-, h⟩
  · exact aimed_return h
  obtain ⟨tokenFile, -, h⟩ := Tx.lift_bind_ok h
  obtain ⟨authScheme, -, h⟩ := Tx.lift_bind_ok h
  obtain ⟨authFile, -, h⟩ := Tx.lift_bind_ok h
  obtain ⟨agent, hagent, h⟩ := Tx.lift_bind_ok h
  obtain ⟨resolved, v, hresolve, h⟩ := Tx.bind_ok.1 h
  cases resolved with
  | none =>
    obtain ⟨rfl, -⟩ := Tx.pure_ok.1 h
    exact .inl ⟨_, rfl, inferInstance⟩
  | some found =>
    obtain ⟨rfl, -⟩ := Tx.pure_ok.1 h
    exact .inr ⟨agent, hagent, v, hresolve⟩

theorem preparePushDelete_aimed (h : preparePushDelete E r w = .ok p w') : Aimed E w r .pushDelete p := by
  unfold preparePushDelete at h
  obtain ⟨agent, hagent, h⟩ := Tx.lift_bind_ok h
  obtain ⟨taskId, -, h⟩ := Tx.lift_bind_ok h
  obtain ⟨id, -, h⟩ := Tx.lift_bind_ok h
  obtain ⟨resolved, v, hresolve, h⟩ := Tx.bind_ok.1 h
  cases resolved with
  | none =>
    obtain ⟨rfl, -⟩ := Tx.pure_ok.1 h
    exact .inl ⟨_, rfl, inferInstance⟩
  | some found =>
    obtain ⟨rfl, -⟩ := Tx.pure_ok.1 h
    exact .inr ⟨agent, hagent, v, hresolve⟩

theorem prepareMaterialize_aimed (h : prepareMaterialize E F r w = .ok p w') : Aimed E w r .materialize p := by
  unfold prepareMaterialize at h
  obtain ⟨taskId, hid, h⟩ := Tx.lift_bind_ok h
  obtain ⟨artifactId, -, h⟩ := Tx.lift_bind_ok h
  obtain ⟨part, -, h⟩ := Tx.lift_bind_ok h
  obtain ⟨outputDir, -, h⟩ := Tx.lift_bind_ok h
  obtain ⟨sha256, -, h⟩ := Tx.lift_bind_ok h
  obtain ⟨stored, _, hget, h⟩ := Tx.bind_ok.1 h
  obtain ⟨hstored, rfl⟩ := observe_ok.1 hget
  cases stored with
  | none => exact aimed_return h
  | some t =>
    dsimp only at h
    cases hfound : findPart t artifactId part with
    | error e =>
      rw [hfound] at h
      exact aimed_return h
    | ok found =>
      obtain ⟨a, q⟩ := found
      rw [hfound] at h
      dsimp only at h
      cases hcontent : contentOf q with
      | bad e =>
        rw [hcontent] at h
        exact aimed_return h
      | bytes bytes =>
        rw [hcontent] at h
        obtain ⟨rfl, -⟩ := Tx.pure_ok.1 h
        exact .inl ⟨_, rfl, inferInstance⟩
      | url url =>
        rw [hcontent] at h
        obtain ⟨requested, v, hrequest, h⟩ := Tx.bind_ok.1 h
        cases requested with
        | error e => exact aimed_return h
        | ok request =>
          obtain ⟨rfl, -⟩ := Tx.pure_ok.1 h
          exact .inr ⟨t.agent, ⟨taskId, t, hid, hstored, rfl⟩, url, v, hrequest⟩

/-- The mutating operations are for the agents they aim at. -/
theorem prepare_aimed {op : Op} (hmutation : Control.mutation op.name = true) (h : prepare E F r op w = .ok p w') :
    Aimed E w r op p := by
  cases op with
  | submit => exact prepareSubmit_aimed h
  | respond => exact prepareRespond_aimed h
  | cancel => exact prepareCancel_aimed h
  | streamSubmit => exact prepareStream_aimed h
  | pushCreate => exact preparePushCreate_aimed h
  | pushDelete => exact preparePushDelete_aimed h
  | materialize => exact prepareMaterialize_aimed h
  | _ => exact absurd hmutation (by decide)

end Prepare

/-! ## The other threads -/

/-- What the threads besides the one that serves the socket do: they ask for a stored task again, or hand
on an event of its subscription. -/
def Background : Action → Prop
  | .refresh _ | .event _ _ _ => True
  | _ => False

/-- The stored tasks are the same ones, for the same agents. -/
def SameAgents (E : Env) (s s' : World) : Prop := ∀ id, (s'.task E id).map Task.agent = (s.task E id).map Task.agent

/-- What a step of another thread keeps. -/
def KeepsAgents (E : Env) (s s' : World) : Prop := WellKeyed s.tasks → WellKeyed s'.tasks ∧ SameAgents E s s'

instance (E : Env) : IsPreorder World (KeepsAgents E) where
  refl _ hkeys := ⟨hkeys, fun _ => rfl⟩
  trans _ _ _ h h' hkeys :=
    ⟨(h' (h hkeys).1).1, fun id => ((h' (h hkeys).1).2 id).trans ((h hkeys).2 id)⟩

section Background

variable {E : Env} {s s' : World} {existing : Task}

theorem updates_agents (hkept : Kept E s existing) (h : Updates E existing s s') : SameAgents E s s' := by
  intro id
  cases ht : s.task E id with
  | some t =>
    obtain ⟨t', ht', hbooks⟩ := h.books hkept id t ht
    have hagent : (bookkeeping t').agent = (bookkeeping t).agent := by rw [hbooks]
    rw [ht']
    exact congrArg some hagent
  | none =>
    have hne : cstr id ≠ cstr existing.id := by
      intro hid
      have hstored := hkept.2
      rw [World.task, ← hid] at hstored
      cases hstored.symm.trans ht
    rw [World.task, h.elsewhere _ hne]
    exact congrArg (Option.map Task.agent) ht

theorem background_step {a : Action} (h : Step E s a s') (ha : Background a) : KeepsAgents E s s' := by
  intro hkeys
  rcases h.cases hkeys with ⟨req, rfl, -⟩ | ⟨rfl, -⟩ | ⟨taskId, -, hquiet | ⟨existing, -, hkept, hupdate⟩⟩
  · cases ha
  · cases ha
  · have hrows := hquiet.rows (by decide)
    exact ⟨by rwa [hrows], fun id => by rw [World.task, hrows]; rfl⟩
  · exact ⟨hupdate.keys hkeys, updates_agents hkept hupdate⟩

end Background

/-! ## The checked agent -/

/-- The state once the request `r` is admitted and the store left in `c`. -/
def admitting (s : Control.Sys) (r : J) (c : Control.St) : Control.Sys :=
  { s with st := c, flights := s.flights ++ [⟨r, false⟩] }

/-- The control plane has taken the request `r` to be for the agent `a` when it admitted it in the state
`s`, reached by `tr`, and has left the store in `c`. -/
structure Checked (C : Control.Env) (tr : List (Move Control.Sys Control.Label)) (s : Control.Sys) (req r : J) (a : Str)
    (c : Control.St) : Prop where
  named : r.valueStr "agent" "" = .ok a
  trusted : ¬ Control.Quarantined s a
  recorded : ∃ id text, r.get? "request_id" = some (.str id) ∧ (Control.canonical r).dump = .ok text ∧
    (c.db.get .execution id).get? "request_sha256" = some (.str (C.digest text)) ∧
    (c.db.get .execution id).get? "agent" = some (.str a)
  /-- as far as the digest tells requests apart -/
  approved : Set.InjOn C.digest (Control.texts (tr ++ [⟨s, .enter req (.admitted r), admitting s r c⟩])) →
    Control.Governed s.enforce r → ∃ id, r.get? "request_id" = some (.str id) ∧
      (s.grant id).get? "agent" = some (.str a)

section Called

variable {C : Control.Env} {E : Env} {F : Files} {trc : List (Move Control.Sys Control.Label)} {s : Control.Sys}

theorem checked_of_enter (hc : Run (Control.Step C) Control.Sys.init trc s) (hup : s.up = true) {req r : J} {c : Control.St}
    (h : Control.enter C s.enforce req s.st = .ok (.admitted r) c) : ∃ a, Checked C trc s req r a c := by
  have hstep : Control.Step C s (.enter req (.admitted r)) (admitting s r c) := .enter hup h
  obtain ⟨g, u, v, w, -, hst, hadm⟩ := (Control.safe_run hc).admission hstep
  have hnamed := hadm.reviewed.agent
  refine ⟨g.agent, hnamed, ?_, ?_, fun hE hg => ?_⟩
  · by_cases ha : g.agent = []
    · rw [ha]
      exact Control.unnamed_not_quarantined hc
    · exact Control.admitted_not_quarantined (Control.safe_run hc) ha hstep (Control.get?_of_valueStr hnamed ha)
  · obtain ⟨started, deadline, taskId, hcreated⟩ := hadm.created
    have hcreated : c.db.get .execution g.id = g.execution started deadline taskId := hcreated
    obtain ⟨text, htext, hhash⟩ := hadm.hash
    refine ⟨g.id, text, (Control.required_ok hadm.id).1, htext, ?_, ?_⟩
    · rw [hcreated]
      simp [Control.Grant.execution, hhash]
    · rw [hcreated]
      simp [Control.Grant.execution]
  · exact Control.approved_agent hc hstep hE hg hnamed

/-- The mutations of the control plane are operations of the dispatch. -/
theorem parse_mutation {name : Str} (h : Control.mutation name = true) : ∃ op, Op.parse name = some op ∧ op.name = name := by
  simp only [Control.mutation, Bool.or_eq_true, decide_eq_true_eq, or_assoc] at h
  rcases h with rfl | rfl | rfl | rfl | rfl | rfl | rfl
  · exact ⟨.submit, Op.parse_name .submit, rfl⟩
  · exact ⟨.respond, Op.parse_name .respond, rfl⟩
  · exact ⟨.cancel, Op.parse_name .cancel, rfl⟩
  · exact ⟨.streamSubmit, Op.parse_name .streamSubmit, rfl⟩
  · exact ⟨.pushCreate, Op.parse_name .pushCreate, rfl⟩
  · exact ⟨.pushDelete, Op.parse_name .pushDelete, rfl⟩
  · exact ⟨.materialize, Op.parse_name .materialize, rfl⟩

theorem dispatch_named {r : J} {op : Op} (h : r.get? "op" = some (.str op.name)) :
    dispatch E (materialize E F) r = prepare E F r op >>= Prepared.run E := by
  have hop : r.valueStr "op" "" = .ok op.name := J.valueStr_ok.2 ⟨J.isObject_of_get? h, .inl h⟩
  unfold dispatch
  rw [hop]
  funext s
  rw [Tx.bind_of_ok (Tx.lift_of_ok rfl)]
  simp only [Op.parse_name]
  exact congrFun (perform_phases op) s

/-- The task manager aims an admitted request at the agent that it names. -/
theorem aims_named {enforce : Bool} {op : Op} {r : J} {d d' : Daemon} {w : World} {a a' : Str}
    (htaken : Taken C E enforce op.name r d d') (hids : d.tasks.tasks.lookup [] = none) (hsame : SameAgents E d.tasks w)
    (ha : r.valueStr "agent" "" = .ok a) (haims : Aims E w r a' op) : a' = a := by
  -- an operation on a task finds the agent that the handler has found
  have hfollows : followsTask op.name = true → (∃ id t, r.valueStr "task_id" "" = .ok id ∧ w.task E id = some t ∧
      t.agent = a') → a' = a := by
    rintro hop ⟨id, t, hid, ht, rfl⟩
    have hagent := hsame id
    rw [ht, Option.map_some] at hagent
    obtain ⟨t₀, ht₀, heq⟩ := Option.map_eq_some_iff.1 hagent.symm
    have hget := htaken.follows hop hids id t₀ hid ht₀
    rw [← heq]
    exact Except.ok.inj ((J.valueStr_ok.2 ⟨J.isObject_of_get? hget, .inl hget⟩).symm.trans ha)
  cases op with
  | submit =>
    obtain ⟨requested, cwd, hrequested, hcwd, hroute⟩ := haims
    obtain rfl : requested = a := Except.ok.inj (hrequested.symm.trans ha)
    by_cases hempty : requested = []
    · subst hempty
      rcases htaken.submit rfl with ⟨agent, hagent, hne⟩ | hnone
      · have hread : r.valueStr "agent" "" = .ok agent := J.valueStr_ok.2 ⟨J.isObject_of_get? hagent, .inl hagent⟩
        exact absurd (Except.ok.inj (hread.symm.trans ha)) hne
      · rw [List.isEmpty_nil, if_pos rfl, hnone cwd hcwd] at hroute
        cases hroute
    · rw [if_neg (by simpa using hempty)] at hroute
      exact (Option.some.inj hroute).symm
  | respond => exact hfollows rfl haims
  | cancel => exact hfollows rfl haims
  | materialize => exact hfollows rfl haims
  | streamSubmit => exact Except.ok.inj (haims.symm.trans ha)
  | pushCreate => exact Except.ok.inj (haims.symm.trans ha)
  | pushDelete => exact Except.ok.inj (haims.symm.trans ha)
  | _ => exact haims.elim

/-! ## The law -/

/-- **The agent that is checked is the agent that is called.** In every reachable state of the control
plane and over every task store without an empty id, a request that the handler has had admitted names
one agent: it is not in quarantine, it is the one in the request that was hashed, in the execution
record and in the approval of a governed request. Whatever the other threads have done by the time of
the dispatch, what the task manager then prepares is for that agent. -/
theorem checked_agent_called (C : Control.Env) (E : Env) (F : Files) {trc : List (Move Control.Sys Control.Label)}
    {s : Control.Sys} (hc : Run (Control.Step C) Control.Sys.init trc s) (hup : s.up = true) {u : World}
    (hkeys : WellKeyed u.tasks) (hids : u.tasks.lookup [] = none) {req r : J} {d : Daemon}
    (h : accept C E s.enforce req ⟨s.st, u⟩ = .ok (.admitted r) d) {tr : List (Move World Action)} {w : World}
    (hrun : Run (Step E) d.tasks tr w) (hothers : ∀ m ∈ tr, Background m.label) :
    ∃ req' op a, Checked C trc s req' r a d.control ∧ dispatch E (materialize E F) r = prepare E F r op >>= Prepared.run E ∧
      ∀ p w', prepare E F r op w = .ok p w' → p.For E a w := by
  obtain ⟨name, htaken⟩ := accept_admitted h
  obtain ⟨op, -, rfl⟩ := parse_mutation htaken.mutates
  obtain ⟨req', hentered⟩ := htaken.entered
  obtain ⟨a, hchecked⟩ := checked_of_enter hc hup hentered
  refine ⟨req', op, a, hchecked, dispatch_named htaken.named, fun p w' hp => ?_⟩
  have hkept := hrun.keeps (R := KeepsAgents E) fun m hm => background_step (hrun.mem_step hm) (hothers m hm)
  rw [htaken.tasks] at hkept
  rcases prepare_aimed htaken.mutates hp with ⟨conclude, rfl, htouches⟩ | ⟨a', haims, hfor⟩
  · exact htouches
  · exact aims_named htaken hids (hkept hkeys).2 hchecked.named haims ▸ hfor

end Called

/-! ## A request that names another agent -/

/-- A task of the one agent. -/
def heldTask : Task where
  id := "t-1"
  agent := builder.id
  context := "ctx"
  state := .inputRequired
  remoteTaskId := some "remote-7"

def targetEnv : Env := Env.offline []

def heldWorld : World := World.offline targetEnv [heldTask]

/-- An answer to the task in the name of another agent. -/
def misstated : J := .object [("op", .str "respond"), ("request_id", .str "r-1"), ("task_id", .str "t-1"),
  ("message", .str "go on"), ("agent", .str "mallory")]

/-- The control plane just started, without enforcement. -/
def booted : Control.Sys := { Control.Sys.init with up := true }

def bootMoves : List (Move Control.Sys Control.Label) := [⟨Control.Sys.init, .boot false, booted⟩]

theorem boot_run : Run (Control.Step Control.sampleEnv) Control.Sys.init bootMoves booted := .snoc .nil (.boot rfl rfl)

/-- The request that is admitted, if one is. -/
def admittedRequest (x : EStateM.Result Exception Daemon Control.Entry) : Option J :=
  match Tx.result? x with
  | some (.admitted r) => some r
  | _ => none

theorem ok_of_admitted {x : EStateM.Result Exception Daemon Control.Entry} {r : J} (h : admittedRequest x = some r) :
    x = .ok (.admitted r) (Tx.endState x) := by
  unfold admittedRequest at h
  split at h
  · rename_i hx
    cases h
    exact Tx.ok_of_result hx
  · cases h

/-- The endpoint that is called. -/
def Prepared.endpoint : Prepared → Option Str
  | .call endpoint _ _ _ _ => some endpoint
  | .stream endpoint _ _ _ => some endpoint
  | _ => none

def noFiles : Files where
  digest := id
  directory dir := .ok (.ok dir)
  create _ _ _ := .error "read-only"

def acceptMisstated : EStateM.Result Exception Daemon Control.Entry :=
  accept Control.sampleEnv targetEnv false misstated ⟨booted.st, heldWorld⟩

def corrected : J := misstated.set "agent" (.str builder.id)

def misstatedStart : Daemon := Tx.endState acceptMisstated

def prepareCorrected : EStateM.Result Exception World Prepared :=
  prepare targetEnv noFiles corrected .respond misstatedStart.tasks

/-- The answer is checked for the agent of the task, and prepared for its endpoint. -/
theorem checked_agent_called_misstated : admittedRequest acceptMisstated = some corrected ∧
    ((Tx.result? prepareCorrected).bind Prepared.endpoint) = some builder.endpoint ∧
    ∃ req', Checked Control.sampleEnv bootMoves booted req' corrected builder.id misstatedStart.control := by
  have hadmitted : admittedRequest acceptMisstated = some corrected := by decide +kernel
  obtain ⟨req', op, a, hchecked, -⟩ := checked_agent_called Control.sampleEnv targetEnv noFiles boot_run rfl
    (wellKeyed_offline targetEnv [heldTask]) (by decide +kernel) (ok_of_admitted hadmitted) .nil nofun
  obtain rfl : builder.id = a := Except.ok.inj (Eq.trans (by decide +kernel) hchecked.named)
  exact ⟨hadmitted, by decide +kernel, req', hchecked⟩

end A2ad.Ipc
