/-
The handler of the IPC socket up to the dispatch: it names the agent in the request before the
control plane sees it, answers `route.explain` itself and hands everything else to `handle`.
-/
import A2ad.Control.Approval
import A2ad.Control.Quarantine
import A2ad.Ipc.Contact
import A2ad.Task.Bookkeeping

namespace A2ad.Ipc

open Bytes Json Client TaskManager

/-! ## The request as it is handed on -/

section Request

variable (E : Env)

/-- A submission without an agent gets the agent of the longest matching project rule. -/
def routed (op : Str) (req : J) : Except Exception J := do
  if op ≠ "submit" then return req
  if !(← req.valueStr "agent" "").isEmpty then return req
  match E.config.defaultAgentFor E.canonical (← req.valueStr "cwd" "") with
  | some agent => return req.set "agent" (.str agent)
  | none => return req

/-- The operations on a task, for the agent of the task. -/
def followsTask (op : Str) : Bool := op = "respond" || op = "cancel" || op = "artifact.materialize"

def retargeted (op : Str) (req : J) : M J := do
  if !(followsTask op && req.contains "task_id") then return req
  match ← getTask E (← req.valueStr "task_id" "") with
  | some t => return req.set "agent" (.str t.agent)
  | none => return req

end Request

/-! ## The handler -/

/-- The control plane and the task manager of one daemon. -/
structure Daemon where
  control : Control.St
  tasks : World

def onControl {α : Type} (x : Control.M α) : Tx Exception Daemon α := fun d =>
  match x d.control with
  | .ok a c => .ok a { d with control := c }
  | .error e c => .error e { d with control := c }

def onTasks {α : Type} (x : M α) : Tx Exception Daemon α := fun d =>
  match x d.tasks with
  | .ok a w => .ok a { d with tasks := w }
  | .error e w => .error e { d with tasks := w }

def routeExplain (E : Env) (req : J) : Control.M J := do
  let selected := E.config.defaultAgentFor E.canonical (← req.valueStr "cwd" "")
  let health ← match selected with
    | some agent => Control.health agent
    | none => pure .null
  return .object [("ok", .bool true), ("agent", .str (selected.getD [])),
    ("reason", .str (if selected.isSome then "longest matching configured project path" else "no matching project rule")),
    ("health", health),
    ("fallback", .str "none; unavailable or quarantined targets are never silently replaced")]

/-- The handler up to the dispatch callback; a throw is answered by the server. -/
def accept (C : Control.Env) (E : Env) (enforce : Bool) (req : J) : Tx Exception Daemon Control.Entry := do
  let op ← req.valueStr "op" ""
  let req ← routed E op req
  let req ← onTasks (retargeted E op req)
  if op = "route.explain" then return .reply (← onControl (routeExplain E req))
  onControl (Control.enter C enforce req)

/-! ## What the handler has done -/

section Accepted

variable {C : Control.Env} {E : Env} {enforce : Bool} {req r : J} {d d' : Daemon}

theorem onControl_ok {α : Type} {x : Control.M α} {a : α} (h : onControl x d = .ok a d') :
    x d.control = .ok a d'.control ∧ d'.tasks = d.tasks := by
  unfold onControl at h
  split at h
  · rename_i hx
    cases h
    exact ⟨hx, rfl⟩
  · cases h

theorem onTasks_ok {α : Type} {x : M α} {a : α} (h : onTasks x d = .ok a d') :
    x d.tasks = .ok a d'.tasks ∧ d'.control = d.control := by
  unfold onTasks at h
  split at h
  · rename_i hx
    cases h
    exact ⟨hx, rfl⟩
  · cases h

/-- The fields other than the agent are those the client sent. -/
def SameButAgent (req r : J) : Prop := r.isObject = true ∧ ∀ k : Str, k ≠ "agent" → r.get? k = req.get? k

theorem sameButAgent_set {req : J} (hobj : req.isObject = true) (agent : Str) :
    SameButAgent req (req.set "agent" (.str agent)) := by
  refine ⟨J.isObject_set hobj, fun k hk => ?_⟩
  rw [J.get?_set hobj, if_neg (Ne.symm hk)]

/-- A rule without an agent gives no default. -/
theorem default_named {c : Config} {canonical : Str → Str} {cwd agent : Str}
    (h : c.defaultAgentFor canonical cwd = some agent) : agent ≠ [] := by
  unfold Config.defaultAgentFor at h
  rintro rfl
  dsimp only at h
  split at h
  · cases h
  · rename_i hne
    rw [Option.some.inj h] at hne
    exact hne rfl

theorem routed_ok {op : Str} (hobj : req.isObject = true) (h : routed E op req = .ok r) : SameButAgent req r ∧
    (op = "submit" → (∃ agent : Str, r.get? "agent" = some (.str agent) ∧ agent ≠ []) ∨
      ∀ cwd, r.valueStr "cwd" "" = .ok cwd → E.config.defaultAgentFor E.canonical cwd = none) := by
  unfold routed at h
  split at h
  · rename_i hop
    cases h
    exact ⟨⟨hobj, fun _ _ => rfl⟩, fun hsubmit => absurd hsubmit hop⟩
  obtain ⟨requested, hrequested, h⟩ := Tx.except_bind_ok h
  split at h
  · rename_i hne
    cases h
    have hgiven : requested ≠ [] := by simpa using hne
    exact ⟨⟨hobj, fun _ _ => rfl⟩, fun _ => .inl ⟨requested, Control.get?_of_valueStr hrequested hgiven, hgiven⟩⟩
  obtain ⟨cwd, hcwd, h⟩ := Tx.except_bind_ok h
  split at h
  · rename_i agent hagent
    cases h
    refine ⟨sameButAgent_set hobj agent, fun _ => .inl ⟨agent, ?_, ?_⟩⟩
    · rw [J.get?_set hobj, if_pos rfl]
    · exact default_named hagent
  · rename_i hnone
    cases h
    refine ⟨⟨hobj, fun _ _ => rfl⟩, fun _ => .inr fun cwd' hcwd' => ?_⟩
    obtain rfl : cwd = cwd' := Except.ok.inj (hcwd.symm.trans hcwd')
    exact hnone

theorem retargeted_ok {op : Str} {s s' : World} (hobj : req.isObject = true) (h : retargeted E op req s = .ok r s') :
    s' = s ∧ SameButAgent req r ∧ (followsTask op = false → r = req) ∧
    (followsTask op = true → s.tasks.lookup [] = none → ∀ id t, r.valueStr "task_id" "" = .ok id →
      s.task E id = some t → r.get? "agent" = some (.str t.agent)) := by
  have hsame : SameButAgent req req := ⟨hobj, fun _ _ => rfl⟩
  unfold retargeted at h
  rcases Tx.ite_ok h with ⟨hleft, h⟩ | ⟨hfollows, h⟩
  · obtain ⟨rfl, rfl⟩ := Tx.pure_ok.1 h
    refine ⟨rfl, hsame, fun _ => rfl, fun hop hids id t hid ht => ?_⟩
    -- no task is meant, and none stands under the empty id
    rcases (J.valueStr_ok.1 hid).2 with hget | ⟨-, rfl⟩
    · rw [hop, J.contains, hget] at hleft
      cases hleft
    · rw [World.task, show cstr (lit "") = [] from rfl, hids] at ht
      cases ht
  obtain ⟨id, _, hl, h⟩ := Tx.bind_ok.1 h
  obtain ⟨hid, rfl⟩ := Tx.lift_ok.1 hl
  have hfollows : followsTask op = true := by
    rw [Bool.not_eq_true', Bool.not_eq_false, Bool.and_eq_true] at hfollows
    exact hfollows.1
  obtain ⟨stored, _, hget, h⟩ := Tx.bind_ok.1 h
  obtain ⟨hstored, rfl⟩ := observe_ok.1 hget
  have hnot : ∀ {r : J}, followsTask op = false → r = req := fun hop => absurd (hop.symm.trans hfollows) Bool.false_ne_true
  cases stored with
  | some t =>
    obtain ⟨rfl, rfl⟩ := Tx.pure_ok.1 h
    refine ⟨rfl, sameButAgent_set hobj t.agent, hnot, fun _ _ id' t' hid' ht' => ?_⟩
    rw [J.valueStr_congr (J.isObject_set hobj) hobj ((sameButAgent_set hobj t.agent).2 _ (by decide))] at hid'
    obtain rfl : id = id' := Except.ok.inj (hid.symm.trans hid')
    obtain rfl : t = t' := Option.some.inj (hstored.symm.trans ht')
    rw [J.get?_set hobj, if_pos rfl]
  | none =>
    obtain ⟨rfl, rfl⟩ := Tx.pure_ok.1 h
    refine ⟨rfl, hsame, hnot, fun _ _ id' t' hid' ht' => ?_⟩
    obtain rfl : id = id' := Except.ok.inj (hid.symm.trans hid')
    cases hstored.symm.trans ht'

/-- What is known of a request that the handler has had admitted. -/
structure Taken (C : Control.Env) (E : Env) (enforce : Bool) (op : Str) (r : J) (d d' : Daemon) : Prop where
  named : r.get? "op" = some (.str op)
  mutates : Control.mutation op = true
  entered : ∃ req, Control.enter C enforce req d.control = .ok (.admitted r) d'.control
  tasks : d'.tasks = d.tasks
  submit : op = "submit" → (∃ agent : Str, r.get? "agent" = some (.str agent) ∧ agent ≠ []) ∨
    ∀ cwd, r.valueStr "cwd" "" = .ok cwd → E.config.defaultAgentFor E.canonical cwd = none
  follows : followsTask op = true → d.tasks.tasks.lookup [] = none → ∀ id t, r.valueStr "task_id" "" = .ok id →
    d.tasks.task E id = some t → r.get? "agent" = some (.str t.agent)

theorem accept_admitted (h : accept C E enforce req d = .ok (.admitted r) d') : ∃ op, Taken C E enforce op r d d' := by
  unfold accept at h
  obtain ⟨op, _, hl, h⟩ := Tx.bind_ok.1 h
  obtain ⟨hop, rfl⟩ := Tx.lift_ok.1 hl
  obtain ⟨req₁, _, hl, h⟩ := Tx.bind_ok.1 h
  obtain ⟨hrouted, rfl⟩ := Tx.lift_ok.1 hl
  obtain ⟨req₂, d₁, hl, h⟩ := Tx.bind_ok.1 h
  obtain ⟨hretargeted, hcontrol⟩ := onTasks_ok hl
  obtain ⟨hsame₁, hsubmit⟩ := routed_ok (J.valueStr_ok.1 hop).1 hrouted
  obtain ⟨htasks, hsame₂, hunfollowed, hfollows⟩ := retargeted_ok hsame₁.1 hretargeted
  rcases Tx.ite_ok h with ⟨-, h⟩ | ⟨-, h⟩
  · obtain ⟨reply, _, -, h⟩ := Tx.bind_ok.1 h
    cases (Tx.pure_ok.1 h).1
  obtain ⟨hentered, hkept⟩ := onControl_ok h
  cases Control.enter_cases hentered with
  | admitted hissued =>
    obtain ⟨op', hop', hmutation⟩ := hissued.op
    obtain rfl : op' = op := by
      have hget : req.get? "op" = some (.str op') := by
        rw [← hsame₁.2 _ (by decide), ← hsame₂.2 _ (by decide), ← hissued.fields _ (by decide), hop']
      simpa using ((J.valueStr_ok.2 ⟨(J.valueStr_ok.1 hop).1, .inl hget⟩).symm.trans hop)
    have hr : r.isObject = true := J.isObject_of_get? hop'
    refine ⟨op', hop', hmutation, ⟨req₂, hcontrol ▸ hentered⟩, hkept.trans htasks, ?_, ?_⟩
    · rintro rfl
      rw [hunfollowed (by decide)] at hissued
      refine (hsubmit rfl).imp ?_ ?_
      · rintro ⟨agent, hagent, hne⟩
        exact ⟨agent, (hissued.fields _ (by decide)).trans hagent, hne⟩
      · intro hnone cwd hcwd
        exact hnone cwd ((J.valueStr_congr hsame₁.1 hr (hissued.fields _ (by decide)).symm).trans hcwd)
    · intro hop hids id t hid ht
      rw [hissued.fields _ (by decide)]
      exact hfollows hop hids id t ((J.valueStr_congr hsame₂.1 hr (hissued.fields _ (by decide)).symm).trans hid) ht

end Accepted

end A2ad.Ipc
