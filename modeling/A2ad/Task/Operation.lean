/-
The operations on stored tasks around their call to the remote agent: what calls they make, and how
they go on with the result of the call.
-/
import A2ad.Task.Table

namespace A2ad.TaskManager

open Bytes Json Client

/-! ## Operations -/

/-- The operations that call the remote agent of a task; reconciling is taken task by task. -/
inductive Operation where
  | create (req : CreateTaskRequest)
  | respond (taskId text requestId : Str)
  | cancel (taskId : Str)
  | refresh (taskId : Str)
  | reconcile (t : Task)

namespace Operation

def run (E : Env) : Operation → M Unit
  | create req => do let _ ← createTask E req
  | respond taskId text requestId => do let _ ← respondToTask E taskId text requestId
  | cancel taskId => do let _ ← cancelTask E taskId
  | refresh taskId => do let _ ← refreshTask E taskId
  | reconcile t => reconcileTask E t

/-- A call to an agent that gives the result `r`. -/
def Reaches (E : Env) (agent : Str) (call : Str → AuthSpec → M A2AResult) (u : World) (r : A2AResult) (v : World) : Prop :=
  ∃ endpoint auth w, resolveEndpoint E agent u = .ok (some (endpoint, auth)) w ∧ call endpoint auth w = .ok r v

/-- The operation calls the remote agent, with the result `r`. -/
def Calls (E : Env) (u : World) (r : A2AResult) (v : World) : Operation → Prop
  | create req => Reaches E req.agent (fun endpoint auth =>
      sendMessage E endpoint auth (payloadText req) req.continueTaskId req.continueContextId req.requestId) u r v
  | respond taskId text requestId => ∃ existing, u.task E taskId = some existing ∧
      Reaches E existing.agent (fun endpoint auth =>
        sendMessage E endpoint auth text (existing.remoteTaskId.getD []) existing.context requestId) u r v
  | cancel taskId => ∃ existing, u.task E taskId = some existing ∧ existing.remoteTaskId.getD [] ≠ [] ∧
      Reaches E existing.agent (fun endpoint auth =>
        Client.cancelTask E endpoint auth (existing.remoteTaskId.getD [])) u r v
  | refresh taskId => ∃ existing, u.task E taskId = some existing ∧ existing.remoteTaskId.getD [] ≠ [] ∧
      Reaches E existing.agent (fun endpoint auth => fetchTask E endpoint auth (existing.remoteTaskId.getD [])) u r v
  | reconcile t => t.remoteTaskId.getD [] ≠ [] ∧
      Reaches E t.agent (fun endpoint auth => fetchTask E endpoint auth (t.remoteTaskId.getD [])) u r v

/-- The A2A method of the call. -/
def method : Operation → Method
  | create _ | respond _ _ _ => .sendMessage
  | cancel _ => .cancelTask
  | refresh _ | reconcile _ => .getTask

end Operation

/-! ## Around the call -/

section Runs

variable {E : Env} {u v : World} {r : A2AResult}

/-- Reaching an agent moves no row and announces nothing. -/
theorem reaches_frame {agent : Str} {call : Str → AuthSpec → M A2AResult} [hcall : ∀ endpoint auth,
    Touches [.wire, .bindings, .agents] (call endpoint auth)] (h : Operation.Reaches E agent call u r v) :
    Frame [.wire, .bindings, .agents] u v := by
  obtain ⟨endpoint, auth, w, hresolve, hcalled⟩ := h
  exact trans_of (Frame _) (Tx.keeps_ok hresolve) (Tx.keeps_ok (k := hcall endpoint auth) hcalled)

theorem Operation.Calls.frame {op : Operation} (h : op.Calls E u r v) : Frame [.wire, .bindings, .agents] u v := by
  cases op with
  | create req => exact reaches_frame h
  | respond taskId text requestId =>
    obtain ⟨existing, -, hreach⟩ := h
    exact reaches_frame hreach
  | cancel taskId =>
    obtain ⟨existing, -, -, hreach⟩ := h
    exact reaches_frame hreach
  | refresh taskId =>
    obtain ⟨existing, -, -, hreach⟩ := h
    exact reaches_frame hreach
  | reconcile t => exact reaches_frame h.2

theorem sendMessage_accepted {endpoint : Str} {auth : AuthSpec} {text taskId contextId messageId : Str}
    (h : sendMessage E endpoint auth text taskId contextId messageId u = .ok r v) (hok : r.ok = true) :
    Accepted .sendMessage r := by
  unfold sendMessage at h
  rcases Tx.ite_ok h with ⟨-, h⟩ | ⟨-, h⟩
  · obtain ⟨id, w, -, h⟩ := Tx.bind_ok.1 h
    exact rpcCall_accepted h hok
  · obtain ⟨id, w, -, h⟩ := Tx.bind_ok.1 h
    exact rpcCall_accepted h hok

/-- An accepted task is handed on, anything else is left. -/
def onTask {α : Type} (r : A2AResult) (taken : Task → M α) (left : M α) : M α :=
  match r.ok, r.task with
  | true, some t => taken t
  | _, _ => left

theorem onTask_failed {α : Type} {taken : Task → M α} {left : M α} (h : r.ok = false) : onTask r taken left = left := by
  unfold onTask
  rw [h]

theorem onTask_ok {α : Type} {taken : Task → M α} {left : M α} {a : α} (h : onTask r taken left u = .ok a v) :
    (∃ t, r.ok = true ∧ r.task = some t ∧ taken t u = .ok a v) ∨ (r.ok = false ∨ r.task = none) ∧ left u = .ok a v := by
  unfold onTask at h
  cases hok : r.ok with
  | false =>
    rw [hok] at h
    exact .inr ⟨.inl rfl, h⟩
  | true =>
    cases htask : r.task with
    | none =>
      rw [hok, htask] at h
      exact .inr ⟨.inr rfl, h⟩
    | some t =>
      rw [hok, htask] at h
      exact .inl ⟨t, rfl, rfl, h⟩

/-- What the client accepts of a call is one of the shapes it knows. -/
theorem Operation.Calls.accepted {op : Operation} (h : op.Calls E u r v) (hok : r.ok = true) : Accepted op.method r := by
  cases op with
  | create req =>
    obtain ⟨endpoint, auth, w, -, hcall⟩ := h
    exact sendMessage_accepted hcall hok
  | respond taskId text requestId =>
    obtain ⟨existing, -, endpoint, auth, w, -, hcall⟩ := h
    exact sendMessage_accepted hcall hok
  | cancel taskId =>
    obtain ⟨existing, -, -, endpoint, auth, w, -, hcall⟩ := h
    exact rpcCall_accepted hcall hok
  | refresh taskId =>
    obtain ⟨existing, -, -, endpoint, auth, w, -, hcall⟩ := h
    exact rpcCall_accepted hcall hok
  | reconcile t =>
    obtain ⟨-, endpoint, auth, w, -, hcall⟩ := h
    exact rpcCall_accepted hcall hok

theorem getTask_of {id : Str} {t : Task} (h : u.task E id = some t) : getTask E id u = .ok (some t) u := by
  rw [getTask, observe, h]

theorem locate_of {id : Str} {t : Task} {endpoint : Str} {auth : AuthSpec} {w : World} (h : u.task E id = some t)
    (hresolve : resolveEndpoint E t.agent u = .ok (some (endpoint, auth)) w) :
    locate E id u = .ok (.inr (t, endpoint, auth)) w := by
  unfold locate
  rw [Tx.bind_of_ok (getTask_of h)]
  show (resolveEndpoint E t.agent >>= _) u = _
  rw [Tx.bind_of_ok hresolve]
  rfl

theorem createTask_calls {req : CreateTaskRequest} (h : (Operation.create req).Calls E u r v) :
    createTask E req u = (if r.ok then concludeCreate E req r
      else return { errorKind := r.errorKind.name, message := r.error } : M CreateTaskResponse) v := by
  obtain ⟨endpoint, auth, w, hresolve, hcall⟩ := h
  unfold createTask
  rw [Tx.bind_of_ok hresolve]
  show (sendMessage E endpoint auth _ _ _ _ >>= _) w = _
  rw [Tx.bind_of_ok hcall]

theorem respondToTask_calls {taskId text requestId : Str} (h : (Operation.respond taskId text requestId).Calls E u r v) :
    ∃ existing, u.task E taskId = some existing ∧ respondToTask E taskId text requestId u =
      (if r.ok then concludeRespond E existing r
        else return { errorKind := r.errorKind.name, message := r.error } : M CreateTaskResponse) v := by
  obtain ⟨existing, hstored, endpoint, auth, w, hresolve, hcall⟩ := h
  refine ⟨existing, hstored, ?_⟩
  unfold respondToTask
  rw [Tx.bind_of_ok (getTask_of hstored)]
  show (resolveEndpoint E existing.agent >>= _) u = _
  rw [Tx.bind_of_ok hresolve]
  show (sendMessage E endpoint auth _ _ _ _ >>= _) w = _
  rw [Tx.bind_of_ok hcall]

theorem cancelTask_calls {taskId : Str} (h : (Operation.cancel taskId).Calls E u r v) :
    ∃ existing, u.task E taskId = some existing ∧ cancelTask E taskId u =
      onTask r (fun t => do
        concludeCancel E existing t
        return r) (return r) v := by
  obtain ⟨existing, hstored, hremote, endpoint, auth, w, hresolve, hcall⟩ := h
  refine ⟨existing, hstored, ?_⟩
  unfold cancelTask
  rw [Tx.bind_of_ok (locate_of hstored hresolve)]
  simp only [List.isEmpty_iff, if_neg hremote]
  show (Client.cancelTask E endpoint auth _ >>= _) w = _
  rw [Tx.bind_of_ok hcall]
  unfold onTask
  cases r.ok <;> cases r.task <;> rfl

theorem refreshTask_calls {taskId : Str} (h : (Operation.refresh taskId).Calls E u r v) :
    ∃ existing, u.task E taskId = some existing ∧ refreshTask E taskId u =
      onTask r (fun t => do
        concludeRefresh E existing t
        return r) (return r) v := by
  obtain ⟨existing, hstored, hremote, endpoint, auth, w, hresolve, hcall⟩ := h
  refine ⟨existing, hstored, ?_⟩
  unfold refreshTask
  rw [Tx.bind_of_ok (locate_of hstored hresolve)]
  simp only [List.isEmpty_iff, if_neg hremote]
  show (fetchTask E endpoint auth _ >>= _) w = _
  rw [Tx.bind_of_ok hcall]
  unfold onTask
  cases r.ok <;> cases r.task <;> rfl

/-- The note a failed refresh leaves on its task. -/
def failureNote (r : A2AResult) : Str := lit "reconciliation failed: " ++ r.error

theorem reconcileTask_calls {t : Task} (h : (Operation.reconcile t).Calls E u r v) :
    reconcileTask E t u =
      onTask r (concludeReconcile E t)
        (if r.errorKind = .localNetwork then pure () else updateTask E { t with error := failureNote r }) v := by
  obtain ⟨hremote, endpoint, auth, w, hresolve, hcall⟩ := h
  unfold reconcileTask
  rw [Tx.bind_of_ok hresolve]
  simp only [List.isEmpty_iff, if_neg hremote]
  show (fetchTask E endpoint auth _ >>= _) w = _
  rw [Tx.bind_of_ok hcall]
  rfl

end Runs

/-! ## What is written -/

/-- The one write in between was of the record `new`. -/
def Wrote (E : Env) (new : Task) (s s' : World) : Prop :=
  ∃ row, bindTask E.parse new = .ok row ∧ s'.tasks = (s.written E row).tasks

section Writes

variable {E : Env} {s s' : World} {u : Unit}

theorem wrote_updateTask {new : Task} (h : updateTask E new s = .ok u s') : Wrote E new s s' := by
  obtain ⟨row, hrow, rfl⟩ := insertTask_ok.1 h
  exact ⟨row, hrow, rfl⟩

/-- Announcing a change is no write. -/
theorem wrote_announced {new : Task} {id : Str} {before after : TaskState}
    (h : (do
      updateTask E new
      emitStateChanged id before after : M Unit) s = .ok u s') : Wrote E new s s' := by
  obtain ⟨_, w, hupdate, hemit⟩ := Tx.bind_ok.1 h
  obtain ⟨row, hrow, hw⟩ := wrote_updateTask hupdate
  have hframe : Frame [.events] w s' := Tx.keeps_ok hemit
  exact ⟨row, hrow, (hframe.rows (by decide)).trans hw⟩

theorem wrote_concludeRefresh {existing t : Task} (h : concludeRefresh E existing t s = .ok u s') :
    ∃ updated, Wrote E { replaced existing t with updatedAt := updated } s s' := by
  obtain ⟨updated, w, hnow, h⟩ := Tx.bind_ok.1 h
  obtain ⟨-, rfl⟩ := nowIso_ok.1 hnow
  have hwrote := wrote_announced h
  exact ⟨updated, hwrote⟩

theorem wrote_concludeReconcile {existing t : Task} (h : concludeReconcile E existing t s = .ok u s') :
    ∃ updated, Wrote E { reconciledTask existing t with updatedAt := updated } s s' := by
  obtain ⟨updated, w, hnow, h⟩ := Tx.bind_ok.1 h
  obtain ⟨-, rfl⟩ := nowIso_ok.1 hnow
  have hwrote := wrote_announced h
  exact ⟨updated, hwrote⟩

theorem wrote_concludeCancel {existing t : Task} (h : concludeCancel E existing t s = .ok u s') :
    ∃ updated changed, Wrote E { replaced existing t with updatedAt := updated, lastStateChange := changed } s s' := by
  obtain ⟨updated, w, hnow, h⟩ := Tx.bind_ok.1 h
  obtain ⟨-, rfl⟩ := nowIso_ok.1 hnow
  obtain ⟨changed, w, hnow, h⟩ := Tx.bind_ok.1 h
  obtain ⟨-, rfl⟩ := nowIso_ok.1 hnow
  have hwrote := wrote_announced h
  exact ⟨updated, changed, hwrote⟩

theorem wrote_concludeRespond {existing : Task} {r : A2AResult} {resp : CreateTaskResponse}
    (h : concludeRespond E existing r s = .ok resp s') :
    ∃ updated changed, Wrote E { respondedTask existing r with updatedAt := updated, lastStateChange := changed } s s' := by
  obtain ⟨updated, w, hnow, h⟩ := Tx.bind_ok.1 h
  obtain ⟨-, rfl⟩ := nowIso_ok.1 hnow
  obtain ⟨changed, w, hnow, h⟩ := Tx.bind_ok.1 h
  obtain ⟨-, rfl⟩ := nowIso_ok.1 hnow
  obtain ⟨_, w, hupdate, h⟩ := Tx.bind_ok.1 h
  obtain ⟨_, w', hemit, h⟩ := Tx.bind_ok.1 h
  obtain ⟨-, rfl⟩ := Tx.pure_ok.1 h
  have hwrote := wrote_announced (Tx.bind_ok.2 ⟨_, w, hupdate, hemit⟩)
  exact ⟨updated, changed, hwrote⟩

theorem wrote_onSubscribed {id : Str} {update : Task} (h : onSubscribed E id update s = .ok u s') :
    s.task E id = none ∧ s' = s ∨ ∃ existing merged updated, s.task E id = some existing ∧
      mergeUpdate existing update = .ok merged ∧ Wrote E { merged with updatedAt := updated } s s' := by
  obtain ⟨found, w, hget, h⟩ := Tx.bind_ok.1 h
  obtain ⟨hfound, rfl⟩ := observe_ok.1 hget
  cases found with
  | none =>
    obtain ⟨-, rfl⟩ := Tx.pure_ok.1 h
    exact .inl ⟨hfound, rfl⟩
  | some existing =>
    obtain ⟨merged, w, hl, h⟩ := Tx.bind_ok.1 h
    obtain ⟨hmerge, rfl⟩ := Tx.lift_ok.1 hl
    obtain ⟨updated, w, hnow, h⟩ := Tx.bind_ok.1 h
    obtain ⟨-, rfl⟩ := nowIso_ok.1 hnow
    have hwrote := wrote_announced h
    exact .inr ⟨existing, merged, updated, hfound, hmerge, hwrote⟩

end Writes

end A2ad.TaskManager
