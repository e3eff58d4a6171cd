/-
The events of a subscription and the task they are about: an event that is not addressed to the
subscribed task leaves it alone where the decoder does not take it for a task or for an update of
another task.
-/
import A2ad.Client.Events
import A2ad.Lib.Trace
import A2ad.Task.Failure

namespace A2ad.TaskManager

open Bytes Json Client

/-! ## Events of a subscription -/

/-- The world after one event of the subscription of the task `id` to the remote task `r`. -/
def received (E : Env) (id r : Str) (s : World) (e : J) : World :=
  (onUpdate r (fun update _ => onSubscribed E id update) e (s, (), false)).1

/-- Whether the stream is to stop is not looked at. -/
theorem received_eq (E : Env) (id r : Str) (e : J) (st : World × Unit × Bool) :
    (onUpdate r (fun update _ => onSubscribed E id update) e st).1 = received E id r st.1 e := by
  obtain ⟨s, u, stopped⟩ := st
  unfold received onUpdate
  dsimp only
  split
  · rename_i heq
    rw [heq]
  · rename_i heq
    rw [heq]

/-- The keys under which an event holds an update of a task. -/
def updateKeys : List Str := ["statusUpdate", "artifactUpdate", "message"]

/-- What an update of the task `r` looks like; without `taskId` it is about the subscribed task. -/
def UpdateOf (r : Str) (fields : List (Str × J)) : Prop :=
  (J.obj fields).get? "taskId" = none ∨ (J.obj fields).get? "taskId" = some (.str r)

/-- The event is about the remote task `r`: a task object of this id with a status, or an update of it. -/
def Addressed (r : Str) (e : J) : Prop :=
  (carrier e).get? "id" = some (.str r) ∧ isObjectAt (carrier e) "status" = true ∨
    ∃ k ∈ updateKeys, ∃ fields, e.get? k = some (.obj fields) ∧ UpdateOf r fields

/-- The decoder takes the event for a task, or for an update of another task than `r`. -/
def Misread (r : Str) (e : J) : Prop :=
  (∃ id, (carrier e).get? "id" = some (.str id)) ∨
    ∃ k ∈ updateKeys, ∃ fields other, e.get? k = some (.obj fields) ∧
      (J.obj fields).get? "taskId" = some (.str other) ∧ other ≠ r

/-- What a task has from its agent: its state, messages and artifacts, its context and its remote id. -/
def remoteView (t : Task) : Task where
  remoteTaskId := t.remoteTaskId
  context := t.context
  state := t.state
  messages := t.messages
  artifacts := t.artifacts

def Unchanged (E : Env) (id : Str) (s s' : World) : Prop :=
  (s'.task E id).map remoteView = (s.task E id).map remoteView

instance (E : Env) (id : Str) (s s' : World) : Decidable (Unchanged E id s s') := inferInstanceAs (Decidable (_ = _))

/-! ## Events that are not addressed -/

section Unaddressed

variable {E : Env} {id r : Str} {e : J} {s : World}

/-- An update that is not about `r` and names no other task is not decoded. -/
theorem taskId_unread {fields : List (Str × J)} {d t : Str} (hother : ¬ UpdateOf r fields)
    (hread : ∀ other, (J.obj fields).get? "taskId" = some (.str other) → other = r) :
    (J.obj fields).valueStr "taskId" d ≠ .ok t := by
  intro h
  rcases (J.valueStr_ok.1 h).2 with hs | ⟨hnone, -⟩
  · exact hother (.inr (by rw [hs, hread t hs]))
  · exact hother (.inl hnone)

theorem decodeUpdate_unaddressed (haddressed : ¬ Addressed r e) (hread : ¬ Misread r e) (u : Task) :
    decodeUpdate r e ≠ .ok (some u) := by
  have hid : parseTask (carrier e) = .ok none := parseTask_none.2 fun id h => hread (.inl ⟨id, h⟩)
  have hunread : ∀ k ∈ updateKeys, ∀ fields, e.get? k = some (.obj fields) → ∀ d t,
      (J.obj fields).valueStr "taskId" d ≠ .ok t := by
    intro k hk fields hget d t
    refine taskId_unread (fun hupdate => haddressed (.inr ⟨k, hk, fields, hget, hupdate⟩)) fun other hother => ?_
    by_contra hne
    exact hread (.inr ⟨k, hk, fields, other, hget, hother, hne⟩)
  intro h
  unfold decodeUpdate at h
  obtain ⟨task, htask, h⟩ := Tx.except_bind_ok h
  rw [hid] at htask
  cases htask
  simp only [orObject] at h
  split at h
  · rename_i fields hget
    obtain ⟨t, ht, -⟩ := Tx.except_bind_ok h
    exact hunread _ (by simp [updateKeys]) fields hget _ _ ht
  · split at h
    · rename_i fields hget
      obtain ⟨t, ht, -⟩ := Tx.except_bind_ok h
      exact hunread _ (by simp [updateKeys]) fields hget _ _ ht
    · split at h
      · rename_i fields hget
        obtain ⟨m, hm, -⟩ := Tx.except_bind_ok h
        unfold parseMessage at hm
        rw [if_neg (by simp [J.isObject])] at hm
        obtain ⟨messageId, -, hm⟩ := Tx.except_bind_ok hm
        obtain ⟨role, -, hm⟩ := Tx.except_bind_ok hm
        obtain ⟨t, ht, -⟩ := Tx.except_bind_ok hm
        exact hunread _ (by simp [updateKeys]) fields hget _ _ ht
      · cases h

/-- An event that is not decoded to an update moves nothing. -/
theorem received_undecoded (h : ∀ u, decodeUpdate r e ≠ .ok (some u)) : received E id r s e = s := by
  unfold received onUpdate
  dsimp only
  cases hdecode : decodeUpdate r e with
  | error ex => rfl
  | ok update =>
    cases update with
    | none => rfl
    | some u => exact absurd hdecode (h u)

end Unaddressed

/-- In every run of a subscription whose events are addressed to the task, or not misread, the events
that are not addressed to it leave the task as it is. -/
theorem unaddressed_harmless (E : Env) (id r : Str) {s s' : World} {tr : List (Move World J)}
    (hrun : Run (fun s e s' => s' = received E id r s e) s tr s')
    (hread : ∀ m ∈ tr, ¬ Addressed r m.label → ¬ Misread r m.label) :
    ∀ m ∈ tr, ¬ Addressed r m.label → Unchanged E id m.pre m.post := by
  intro m hm haddressed
  have hstep : m.post = received E id r m.pre m.label := hrun.mem_step hm
  rw [hstep, received_undecoded (decodeUpdate_unaddressed haddressed (hread m hm haddressed))]
  rfl

/-! ## Connections -/

/-- Events a transport delivers: those in the first chunks of a stream, or the first of a gRPC stream. -/
def Delivered (E : Env) (n : Nat) (events : List J) : Prop :=
  (∃ req k, events = (frames (((E.stream n req).1.take k).flatten.filter (· ≠ 13))).1.filterMap (eventValue E.parse)) ∨
    ∃ auth c k, events = (E.grpcStream n auth c).1.take k

section Connections

variable {E : Env} {id r : Str} {s s' : World}

theorem received_foldl (events : List J) (st : World × Unit × Bool) :
    (events.foldl (fun st e => onUpdate r (fun update _ => onSubscribed E id update) e st) st).1 =
      events.foldl (received E id r) st.1 := by
  induction events generalizing st with
  | nil => rfl
  | cons e events ih => rw [List.foldl_cons, List.foldl_cons, ih, received_eq]

/-- The world takes part in a connection of the subscription. -/
def Connected (E : Env) (id r : Str) (s s' : World) : Prop :=
  ∃ v tr, v.tasks = s.tasks ∧ Run (fun s e s' => s' = received E id r s e) v tr s' ∧
    Delivered E s.exchanges (tr.map Move.label)

theorem connected_grpc {auth : AuthSpec} {c : Call StreamMethod} {a : A2AResult × Unit × Bool}
    (h : overGrpc E auth c (onUpdate r fun update _ => onSubscribed E id update) (·.2) ((), false) s = .ok a s') :
    Connected E id r s s' := by
  let v : World := { s with exchanges := s.exchanges + 1 }
  obtain ⟨k, hk⟩ := @consumeEvents_stopped _ (onUpdate r fun update _ => onSubscribed E id update)
    (fun st => st.2.2) (E.grpcStream s.exchanges auth c).1 (v, (), false)
  obtain ⟨tr, hrun, hlabels⟩ := Run.of_foldl (received E id r) v ((E.grpcStream s.exchanges auth c).1.take k)
  refine ⟨v, tr, rfl, ?_, .inr ⟨auth, c, k, hlabels⟩⟩
  rw [← received_foldl _ (v, (), false), ← hk] at hrun
  cases h
  exact hrun

theorem connected_http {req : HttpRequest} {c : Call StreamMethod} {a : A2AResult × Unit × Bool}
    (h : overHttp E req c (onUpdate r fun update _ => onSubscribed E id update) (·.2) ((), false) s = .ok a s') :
    Connected E id r s s' := by
  let v : World := { s with exchanges := s.exchanges + 1 }
  obtain ⟨k, hk⟩ := @consumeAll_stopped _ E.parse (onUpdate r fun update _ => onSubscribed E id update)
    (fun st => st.2.2) (E.stream s.exchanges req).1 (v, (), false)
  obtain ⟨tr, hrun, hlabels⟩ := Run.of_foldl (received E id r) v _
  refine ⟨v, tr, rfl, ?_, .inl ⟨req, k, hlabels⟩⟩
  rw [← received_foldl _ (v, (), false)] at hrun
  rw [handed] at hk
  rw [← hk] at hrun
  cases h
  exact hrun

/-- A connection of a subscription is a run over the events that are delivered. -/
theorem subscription_run {endpoint : Str} {auth : AuthSpec} {a : A2AResult × Unit}
    (h : subscribeToTask E endpoint auth r (fun update _ => onSubscribed E id update) () s = .ok a s') :
    Connected E id r s s' := by
  obtain ⟨⟨res, b, stop⟩, w, hstream, hend⟩ := Tx.bind_ok.1 h
  obtain ⟨-, rfl⟩ := Tx.pure_ok.1 hend
  obtain ⟨info, w, hinfo, hstream⟩ := Tx.bind_ok.1 hstream
  obtain ⟨rfl, rfl⟩ := observe_ok.1 hinfo
  obtain ⟨rpcId, w, hrpc, hstream⟩ := Tx.bind_ok.1 hstream
  obtain ⟨-, rfl⟩ := nextRpcId_ok.1 hrpc
  rcases Tx.ite_ok hstream with ⟨-, hgrpc⟩ | ⟨-, hhttp⟩
  · obtain ⟨_, w, hrecord, hgrpc⟩ := Tx.bind_ok.1 hgrpc
    obtain ⟨-, rfl⟩ := change_ok.1 hrecord
    obtain ⟨v, tr, hv, hrun, hdelivered⟩ := connected_grpc hgrpc
    exact ⟨v, tr, hv, hrun, hdelivered⟩
  · obtain ⟨req, w, hlift, hhttp⟩ := Tx.bind_ok.1 hhttp
    obtain ⟨-, rfl⟩ := Tx.lift_ok.1 hlift
    obtain ⟨_, w, hrecord, hhttp⟩ := Tx.bind_ok.1 hhttp
    obtain ⟨-, rfl⟩ := change_ok.1 hrecord
    obtain ⟨v, tr, hv, hrun, hdelivered⟩ := connected_http hhttp
    exact ⟨v, tr, hv, hrun, hdelivered⟩

end Connections

/-! ## An error envelope -/

def subscribedEnv : Env := Env.offline []

def subscribedWorld : World := .offline subscribedEnv [underway []]

def errorEnvelope : J := .object [("jsonrpc", .str "2.0"), ("id", .str "5"),
  ("error", .object [("code", .int (-32603)), ("message", .str "stream lost")])]

/-- An update that names a task by a number is no update of any task. -/
def numberedEvent : J := .object [("statusUpdate", .object [("taskId", .int 8),
  ("status", .object [("state", .str "TASK_STATE_FAILED")])])]

theorem not_addressed_errorEnvelope : ¬ Addressed "remote-7" errorEnvelope := by
  have hid : (carrier errorEnvelope).get? "id" = some (.str "5") := by decide +kernel
  have hupdates : ∀ k ∈ updateKeys, errorEnvelope.get? k = none := by decide +kernel
  rintro (⟨htask, -⟩ | ⟨k, hk, fields, hget, -⟩)
  · rw [hid] at htask
    exact absurd htask (by decide +kernel)
  · rw [hupdates k hk] at hget
    cases hget

/-- The error envelope of a failing stream is stored in place of the task. -/
theorem error_envelope_stored : ∃ tr s, Run (fun s e s' => s' = received subscribedEnv "local-1" "remote-7" s e)
    subscribedWorld tr s ∧ ∃ m ∈ tr, ¬ Addressed "remote-7" m.label ∧ ¬ Unchanged subscribedEnv "local-1" m.pre m.post := by
  refine ⟨_, _, Run.nil.snoc rfl, _, List.mem_singleton.2 rfl, not_addressed_errorEnvelope, ?_⟩
  show ¬ Unchanged subscribedEnv "local-1" subscribedWorld
    (received subscribedEnv "local-1" "remote-7" subscribedWorld errorEnvelope)
  decide +kernel

/-- An update that names its task by a number is not read at all. -/
theorem unaddressed_harmless_numbered : Unchanged subscribedEnv "local-1" subscribedWorld
    (received subscribedEnv "local-1" "remote-7" subscribedWorld numberedEvent) := by
  have hid : (carrier numberedEvent).get? "id" = none := by decide +kernel
  have hname : ∀ k ∈ updateKeys, ∀ fields, numberedEvent.get? k = some (.obj fields) →
      (J.obj fields).get? "taskId" = some (.int 8) := by
    have hall : ∀ k ∈ updateKeys, (numberedEvent.get? k).map (fun u => u.get? "taskId") = none ∨
        (numberedEvent.get? k).map (fun u => u.get? "taskId") = some (some (.int 8)) := by decide +kernel
    intro k hk fields hget
    rcases hall k hk with h | h
    · rw [hget] at h
      cases h
    · rw [hget] at h
      exact Option.some.inj h
  have hread : ¬ Misread "remote-7" numberedEvent := by
    rintro (⟨id, h⟩ | ⟨k, hk, fields, other, hget, hother, -⟩)
    · rw [hid] at h
      cases h
    · rw [hname k hk fields hget] at hother
      cases hother
  have haddressed : ¬ Addressed "remote-7" numberedEvent := by
    rintro (⟨h, -⟩ | ⟨k, hk, fields, hget, h | h⟩)
    · rw [hid] at h
      cases h
    · rw [hname k hk fields hget] at h
      cases h
    · rw [hname k hk fields hget] at h
      cases h
  refine unaddressed_harmless subscribedEnv "local-1" "remote-7" (Run.nil.snoc rfl) ?_
    ⟨subscribedWorld, numberedEvent, _⟩ (List.mem_singleton.2 rfl) haddressed
  intro m hm _
  rw [List.mem_singleton.1 hm]
  exact hread

end A2ad.TaskManager
