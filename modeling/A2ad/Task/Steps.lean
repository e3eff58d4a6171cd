/-
Runs of the task manager: its operations and the events of its subscriptions, one after another, and
what each of them writes and announces at most once, however it ends.
-/
import A2ad.Task.Subscription
import A2ad.Task.Terminal

namespace A2ad.TaskManager

open Bytes Json Client

/-! ## Steps -/

/-- What the task manager is made to do, and the events its subscriptions hand on: `event id r e` is an
event of the subscription of the task `id` to the remote task `r`. -/
inductive Action where
  | create (req : CreateTaskRequest)
  | respond (taskId text requestId : Str)
  | cancel (taskId : Str)
  | refresh (taskId : Str)
  | startup
  | event (taskId r : Str) (e : J)

/-- The world after an action, whether it returns or throws. -/
def Action.after (E : Env) (s : World) : Action → World
  | create req => Tx.endState (createTask E req s)
  | respond taskId text requestId => Tx.endState (respondToTask E taskId text requestId s)
  | cancel taskId => Tx.endState (cancelTask E taskId s)
  | refresh taskId => Tx.endState (refreshTask E taskId s)
  | startup => Tx.endState (reconcileOnStartup E s)
  | event taskId r e => received E taskId r s e

/-- A subscription runs under the id its task is stored under. -/
def Action.Sound : Action → Prop
  | event taskId _ _ => cstr taskId = taskId
  | _ => True

def Step (E : Env) (s : World) (a : Action) (s' : World) : Prop := a.Sound ∧ s' = a.after E s

theorem Step.of_sound {E : Env} {s : World} {a : Action} (h : a.Sound) : Step E s a (a.after E s) := ⟨h, rfl⟩

/-! ## One write -/

/-- Everything but the rows and the events. -/
abbrev quiet : List Area := [.wire, .bindings, .agents]

/-- What is announced when a state has changed. -/
def stateEvents (taskId : Str) (before after : TaskState) : List J :=
  if before = after then [] else [stateEvent taskId before after]

/-- Nothing is written, or one record that `P` allows, and its state is announced where it differs from
`before`. -/
def Updated (E : Env) (P : Task → Prop) (taskId : Str) (before : TaskState) (s s' : World) : Prop :=
  s.nonce ≤ s'.nonce ∧ (s'.tasks = s.tasks ∧ s'.events = s.events ∨
    ∃ new row, P new ∧ bindTask E.parse new = .ok row ∧ s'.tasks = (s.written E row).tasks ∧
      s'.events = s.events ++ stateEvents taskId before new.state)

section Updates

variable {E : Env} {P : Task → Prop} {taskId : Str} {old : TaskState} {s s' v : World} {α β : Type}

theorem Updated.of_frame (h : Frame quiet s s') : Updated E P taskId old s s' :=
  ⟨h.nonce, .inl ⟨h.rows (by decide), h.events (by decide)⟩⟩

theorem Updated.mono {Q : Task → Prop} (h : Updated E P taskId old s s') (hPQ : ∀ t, P t → Q t) :
    Updated E Q taskId old s s' := by
  obtain ⟨hnonce, hnone | ⟨new, row, hP, hwrite⟩⟩ := h
  · exact ⟨hnonce, .inl hnone⟩
  · exact ⟨hnonce, .inr ⟨new, row, hPQ new hP, hwrite⟩⟩

/-- What comes before the write leaves the rows and the events alone. -/
theorem Updated.prepend (h : Frame quiet s v) (h' : Updated E P taskId old v s') :
    Updated E P taskId old s s' := by
  have hrows := h.rows (by decide)
  have hevents := h.events (by decide)
  obtain ⟨hnonce, ⟨hsame, hquiet⟩ | ⟨new, row, hP, hrow, htasks, hannounced⟩⟩ := h'
  · exact ⟨h.nonce.trans hnonce, .inl ⟨hsame.trans hrows, hquiet.trans hevents⟩⟩
  · refine ⟨h.nonce.trans hnonce, .inr ⟨new, row, hP, hrow, ?_, by rw [hannounced, hevents]⟩⟩
    rw [htasks]
    show (if E.busy v.writes then v.tasks else v.tasks.insert row.id row) = _
    rw [h.writes (by decide), hrows]
    rfl

/-- So does what comes after it. -/
theorem Updated.append (h : Updated E P taskId old s v) (h' : Frame quiet v s') :
    Updated E P taskId old s s' := by
  have hrows := h'.rows (by decide)
  have hevents := h'.events (by decide)
  obtain ⟨hnonce, ⟨hsame, hquiet⟩ | ⟨new, row, hP, hrow, htasks, hannounced⟩⟩ := h
  · exact ⟨hnonce.trans h'.nonce, .inl ⟨hrows.trans hsame, hevents.trans hquiet⟩⟩
  · exact ⟨hnonce.trans h'.nonce, .inr ⟨new, row, hP, hrow, hrows.trans htasks, hevents.trans hannounced⟩⟩

theorem Updated.congr_id {taskId' : Str} (hid : taskId = taskId') (h : Updated E P taskId old s s') :
    Updated E P taskId' old s s' := hid ▸ h

theorem updated_quiet {x : M α} [hx : Touches quiet x] : Updated E P taskId old s (Tx.endState (x s)) :=
  .of_frame (hx.out s)

theorem updated_bind {x : M α} {f : α → M β} [hx : Touches quiet x]
    (h : ∀ a t, x s = .ok a t → Updated E P taskId old t (Tx.endState (f a t))) :
    Updated E P taskId old s (Tx.endState ((x >>= f) s)) := by
  have hframe := hx.out s
  show Updated E P taskId old s (Tx.endState (EStateM.bind x f s))
  unfold EStateM.bind
  cases hs : x s with
  | ok a t =>
    rw [hs] at hframe
    exact .prepend hframe (h a t hs)
  | error e t =>
    rw [hs] at hframe
    exact .of_frame hframe

theorem emitStateChanged_run (taskId : Str) (old after : TaskState) (s : World) :
    emitStateChanged taskId old after s = .ok () { s with events := s.events ++ stateEvents taskId old after } := by
  unfold emitStateChanged stateEvents
  split
  · rw [List.append_nil]
    rfl
  · rfl

/-- Writing a record and announcing its state, with a quiet end. -/
theorem updated_write_then {new : Task} {k : M α} [hk : Touches quiet k] (hP : P new) :
    Updated E P taskId old s (Tx.endState ((do
      updateTask E new
      emitStateChanged taskId old new.state
      k : M α) s)) := by
  cases hrow : bindTask E.parse new with
  | error e =>
    have hthrown : updateTask E new s = .error e s := by
      unfold updateTask insertTask
      rw [hrow]
      rfl
    show Updated E P taskId old s (Tx.endState (EStateM.bind (updateTask E new) _ s))
    unfold EStateM.bind
    rw [hthrown]
    exact .of_frame (refl_of (Frame quiet) s)
  | ok row =>
    have hwritten : updateTask E new s = .ok () (s.written E row) := insertTask_ok.2 ⟨row, hrow, rfl⟩
    rw [Tx.bind_of_ok hwritten, Tx.bind_of_ok (emitStateChanged_run taskId old new.state _)]
    refine .append ⟨?_, .inr ⟨new, row, hP, hrow, ?_, ?_⟩⟩ (hk.out _)
    · exact le_rfl
    · rfl
    · rfl

theorem updated_write {new : Task} (hP : P new) :
    Updated E P taskId old s (Tx.endState ((do
      updateTask E new
      emitStateChanged taskId old new.state : M Unit) s)) := by
  have h : Updated E P taskId old s (Tx.endState ((do
      updateTask E new
      emitStateChanged taskId old new.state
      pure () : M Unit) s)) := updated_write_then hP
  rwa [bind_pure_unit] at h

/-- A record that is written in its old state is not announced. -/
theorem updated_silent {new : Task} (hP : P new) (hstate : new.state = old) :
    Updated E P taskId old s (Tx.endState (updateTask E new s)) := by
  cases hrow : bindTask E.parse new with
  | error e =>
    rw [endState_unbound hrow]
    exact .of_frame (refl_of (Frame quiet) s)
  | ok row =>
    rw [endState_bound hrow]
    refine ⟨le_rfl, .inr ⟨new, row, hP, hrow, rfl, ?_⟩⟩
    rw [stateEvents, if_pos hstate.symm, List.append_nil]
    rfl

/-- A quiet end. -/
theorem updated_seq {x : M α} {f : α → M β} [hf : ∀ a, Touches quiet (f a)]
    (h : Updated E P taskId old s (Tx.endState (x s))) : Updated E P taskId old s (Tx.endState ((x >>= f) s)) := by
  show Updated E P taskId old s (Tx.endState (EStateM.bind x f s))
  unfold EStateM.bind
  cases hs : x s with
  | ok a t =>
    rw [hs] at h
    exact .append h ((hf a).out t)
  | error e t =>
    rw [hs] at h
    exact h

/-- An accepted task is handed on, anything else is left. -/
theorem updated_onTask {r : A2AResult} {taken : Task → M α} {left : M α}
    (htaken : ∀ t, r.ok = true → r.task = some t → Updated E P taskId old s (Tx.endState (taken t s)))
    (hleft : Updated E P taskId old s (Tx.endState (left s))) :
    Updated E P taskId old s (Tx.endState (onTask r taken left s)) := by
  unfold onTask
  cases hok : r.ok with
  | false => exact hleft
  | true =>
    cases htask : r.task with
    | none => exact hleft
    | some t => exact htaken t hok htask

end Updates

/-! ## Bookkeeping -/

/-- What the daemon keeps about a task on its own account. -/
def bookkeeping (t : Task) : Task where
  id := t.id
  agent := t.agent
  title := t.title
  cwd := t.cwd
  createdAt := t.createdAt

/-- A record that keeps the daemon's own account of `existing`. -/
def SameBooks (existing new : Task) : Prop := bookkeeping new = bookkeeping existing

theorem SameBooks.id {existing new : Task} (h : SameBooks existing new) : new.id = existing.id := by
  have hid : (bookkeeping new).id = (bookkeeping existing).id := by rw [h]
  exact hid

/-- The remote agent says nothing of the title, the directory or the time of creation. -/
theorem parseTask_local {j : J} {t : Task} (h : parseTask j = .ok (some t)) :
    t.title = [] ∧ t.cwd = [] ∧ t.createdAt = [] := by
  unfold parseTask at h
  split at h
  · obtain ⟨context, -, h⟩ := Tx.except_bind_ok h
    obtain ⟨status, -, h⟩ := Tx.except_bind_ok h
    obtain ⟨history, -, h⟩ := Tx.except_bind_ok h
    obtain ⟨artifacts, -, h⟩ := Tx.except_bind_ok h
    cases h
    exact ⟨rfl, rfl, rfl⟩
  · cases h

theorem books_respondedTask (existing : Task) (r : A2AResult) : SameBooks existing (respondedTask existing r) := by
  unfold respondedTask
  cases r.task with
  | some t => rfl
  | none => cases r.message <;> rfl

theorem books_reconciledTask {existing t : Task} {j : J} (h : parseTask j = .ok (some t)) :
    SameBooks existing (reconciledTask existing t) := by
  obtain ⟨htitle, hcwd, hcreated⟩ := parseTask_local h
  unfold SameBooks bookkeeping reconciledTask
  simp [orElse, htitle, hcwd, hcreated]

theorem books_mergeUpdate {existing update merged : Task} (h : mergeUpdate existing update = .ok merged) :
    SameBooks existing merged := by
  unfold mergeUpdate at h
  split at h
  · obtain ⟨t, -, h⟩ := Tx.except_bind_ok h
    cases h
    rfl
  · obtain ⟨t, -, h⟩ := Tx.except_bind_ok h
    cases h
    rfl

/-- An accepted task is decoded from the answer. -/
theorem accepted_task {method : Method} {r : A2AResult} {t : Task} (h : Accepted method r) (htask : r.task = some t) :
    ∃ j, parseTask j = .ok (some t) := by
  cases h with
  | task j t' _ hparse htask' =>
    rw [htask] at htask'
    cases htask'
    exact ⟨j, hparse⟩
  | tasks _ _ hnone =>
    rw [htask] at hnone
    cases hnone
  | message _ _ _ _ _ hnone =>
    rw [htask] at hnone
    cases hnone
  | other _ _ hnone =>
    rw [htask] at hnone
    cases hnone

/-! ## Operations on a stored task -/

section Operations

variable {E : Env} {s : World} {existing : Task} {taskId : Str}

/-- The action keeps the account of the stored task, and announces its new state. -/
abbrev Updates (E : Env) (existing : Task) (s s' : World) : Prop :=
  Updated E (SameBooks existing) existing.id existing.state s s'

instance : Touches quiet (locate E taskId) := by
  unfold locate
  repeat' first | infer_instance | refine Tx.keeps_bind (k := fun _ => ?_) | split

/-- The record behind an id is the one that is stored. -/
theorem locate_stored {u : World} {t : Task} {endpoint : Str} {auth : AuthSpec} (hstored : s.task E taskId = some existing)
    (h : locate E taskId s = .ok (.inr (t, endpoint, auth)) u) : t = existing := by
  unfold locate at h
  rw [Tx.bind_of_ok (getTask_of hstored)] at h
  obtain ⟨found, w, -, h⟩ := Tx.bind_ok.1 h
  cases found with
  | none => cases h
  | some place =>
    cases h
    rfl

theorem updated_respond (hstored : s.task E taskId = some existing) (text requestId : Str) :
    Updates E existing s (Action.after E s (.respond taskId text requestId)) := by
  show Updates E existing s (Tx.endState (respondToTask E taskId text requestId s))
  unfold respondToTask
  rw [Tx.bind_of_ok (getTask_of hstored)]
  refine updated_bind fun found u _ => ?_
  cases found with
  | none => exact updated_quiet
  | some place =>
    refine updated_bind fun r u _ => ?_
    split
    · refine updated_bind fun updated u _ => updated_bind fun changed u _ => ?_
      refine Updated.congr_id (respondedTask_id existing r) (updated_write_then ?_)
      exact books_respondedTask existing r
    · exact updated_quiet

theorem updated_cancel (hstored : s.task E taskId = some existing) :
    Updates E existing s (Action.after E s (.cancel taskId)) := by
  show Updates E existing s (Tx.endState (cancelTask E taskId s))
  unfold cancelTask
  refine updated_bind fun found u hfound => ?_
  cases found with
  | inl refusal => exact updated_quiet
  | inr place =>
    obtain ⟨t, endpoint, auth⟩ := place
    obtain rfl := locate_stored hstored hfound
    dsimp only
    split
    · exact updated_quiet
    · refine updated_bind fun r u _ => updated_onTask (fun task _ _ => ?_) updated_quiet
      refine updated_seq (updated_bind fun updated u _ => updated_bind fun changed u _ => updated_write ?_)
      rfl

theorem updated_refresh (hstored : s.task E taskId = some existing) :
    Updates E existing s (Action.after E s (.refresh taskId)) := by
  show Updates E existing s (Tx.endState (refreshTask E taskId s))
  unfold refreshTask
  refine updated_bind fun found u hfound => ?_
  cases found with
  | inl refusal => exact updated_quiet
  | inr place =>
    obtain ⟨t, endpoint, auth⟩ := place
    obtain rfl := locate_stored hstored hfound
    dsimp only
    split
    · exact updated_quiet
    · refine updated_bind fun r u _ => updated_onTask (fun task _ _ => ?_) updated_quiet
      refine updated_seq (updated_bind fun updated u _ => updated_write ?_)
      rfl

/-- A record that is reconciled keeps the account it is listed with. -/
theorem updated_reconcileTask : Updates E existing s (Tx.endState (reconcileTask E existing s)) := by
  unfold reconcileTask
  refine updated_bind fun found u _ => ?_
  cases found with
  | none => exact updated_quiet
  | some place =>
    obtain ⟨endpoint, auth⟩ := place
    dsimp only
    split
    · exact updated_quiet
    · refine updated_bind fun r u hr => updated_onTask (fun task hok htask => ?_) ?_
      · obtain ⟨j, hparse⟩ := accepted_task (rpcCall_accepted hr hok) htask
        have hbooks : SameBooks existing (reconciledTask existing task) := books_reconciledTask hparse
        refine updated_bind fun updated u _ => updated_write ?_
        exact hbooks
      · split
        · exact updated_quiet
        · refine updated_silent ?_ rfl
          rfl

theorem updated_onSubscribed (hid : existing.id = taskId) (hstored : s.task E taskId = some existing) (update : Task) :
    Updates E existing s (Tx.endState (onSubscribed E taskId update s)) := by
  unfold onSubscribed
  rw [Tx.bind_of_ok (getTask_of hstored)]
  refine updated_bind fun merged u hl => ?_
  obtain ⟨hmerge, -⟩ := Tx.lift_ok.1 hl
  have hbooks := books_mergeUpdate hmerge
  refine updated_bind fun updated u _ => Updated.congr_id hid.symm (updated_write ?_)
  exact hbooks

/-- A stored task is read under the id that it was looked for. -/
theorem id_stored (hkeys : ∀ row, s.tasks.lookup (cstr taskId) = some row → row.id = cstr taskId) (hid : cstr taskId = taskId)
    (hstored : s.task E taskId = some existing) : existing.id = taskId := by
  obtain ⟨row, hrow, rfl⟩ := Option.map_eq_some_iff.1 hstored
  show cstr row.id = taskId
  rw [hkeys row hrow, cstr_cstr, hid]

/-- An event is decoded to an update of the task, or to none. -/
theorem received_cases (r : Str) (e : J) :
    received E taskId r s e = s ∨ ∃ u, received E taskId r s e = Tx.endState (onSubscribed E taskId u s) := by
  unfold received onUpdate
  dsimp only
  cases hdecode : decodeUpdate r e with
  | error ex => exact .inl rfl
  | ok update =>
    cases update with
    | none => exact .inl rfl
    | some u =>
      refine .inr ⟨u, ?_⟩
      rw [Tx.bind_of_ok (Tx.lift_of_ok rfl)]
      dsimp only
      cases hrun : onSubscribed E taskId u s with
      | ok b t => rw [Tx.bind_of_ok hrun]; rfl
      | error ex t => rw [Tx.bind_error.2 (.inl hrun)]; rfl

theorem updated_event (hkeys : WellKeyed s.tasks) (hid : cstr taskId = taskId) (hstored : s.task E taskId = some existing) (r : Str) (e : J) :
    Updates E existing s (Action.after E s (.event taskId r e)) := by
  show Updates E existing s (received E taskId r s e)
  rcases @received_cases E s taskId r e with hsame | ⟨u, hrun⟩
  · rw [hsame]
    exact .of_frame (refl_of (Frame quiet) s)
  · rw [hrun]
    exact updated_onSubscribed (id_stored (fun row hrow => (hkeys _ row hrow).1) hid hstored) hstored u

/-- Nothing is written for a task that is not stored. -/
theorem unstored_quiet (hnone : s.task E taskId = none) :
    (∀ text requestId, Frame quiet s (Action.after E s (.respond taskId text requestId))) ∧
      Frame quiet s (Action.after E s (.cancel taskId)) ∧ Frame quiet s (Action.after E s (.refresh taskId)) ∧
      ∀ r e, Frame quiet s (Action.after E s (.event taskId r e)) := by
  have hget : getTask E taskId s = .ok none s := observe_ok.2 ⟨hnone, rfl⟩
  have hlocate : locate E taskId s = .ok (.inl (failed .protocolError (lit "no such task: " ++ taskId))) s := by
    unfold locate
    rw [Tx.bind_of_ok hget]
    rfl
  have hsame : Frame quiet s s := refl_of (Frame quiet) s
  refine ⟨fun text requestId => ?_, ?_, ?_, fun r e => ?_⟩
  · show Frame quiet s (Tx.endState (respondToTask E taskId text requestId s))
    unfold respondToTask
    rw [Tx.bind_of_ok hget]
    exact hsame
  · show Frame quiet s (Tx.endState (cancelTask E taskId s))
    unfold cancelTask
    rw [Tx.bind_of_ok hlocate]
    exact hsame
  · show Frame quiet s (Tx.endState (refreshTask E taskId s))
    unfold refreshTask
    rw [Tx.bind_of_ok hlocate]
    exact hsame
  · show Frame quiet s (received E taskId r s e)
    rcases @received_cases E s taskId r e with hreceived | ⟨u, hrun⟩
    · rwa [hreceived]
    · rw [hrun]
      unfold onSubscribed
      rw [Tx.bind_of_ok hget]
      exact hsame

end Operations

/-! ## Startup -/

section Startup

variable {E : Env} {s s' : World} {existing : Task} {id : Str}

/-- Only the row of the task itself is written. -/
theorem Updates.elsewhere (h : Updates E existing s s') : Elsewhere (cstr existing.id) s s' := by
  intro id' hne
  obtain ⟨-, ⟨hsame, -⟩ | ⟨new, row, hbooks, hrow, htasks, -⟩⟩ := h
  · rw [hsame]
  · rw [htasks]
    show (if E.busy s.writes then s.tasks else s.tasks.insert row.id row).lookup id' = _
    split
    · rfl
    · refine AList.lookup_insert_ne ?_
      rwa [(bindTask_ok hrow).1, hbooks.id]

theorem Updates.keys (h : Updates E existing s s') (hkeys : WellKeyed s.tasks) : WellKeyed s'.tasks := by
  obtain ⟨-, ⟨hsame, -⟩ | ⟨new, row, -, hrow, htasks, -⟩⟩ := h
  · rwa [hsame]
  · rw [htasks]
    show WellKeyed (if E.busy s.writes then s.tasks else s.tasks.insert row.id row)
    split
    · exact hkeys
    · exact hkeys.insert (cstr_bound hrow).2

/-- The task is stored as it is given, under its own id. -/
def Kept (E : Env) (s : World) (t : Task) : Prop := cstr t.id = t.id ∧ s.task E t.id = some t

theorem Kept.step (hkept : Kept E s existing) (h : Updates E existing s s') {t : Task} (ht : Kept E s t)
    (hne : existing.id ≠ t.id) : Kept E s' t := by
  refine ⟨ht.1, ?_⟩
  rw [World.task, h.elsewhere (cstr t.id) (by rw [ht.1, hkept.1]; exact hne.symm)]
  exact ht.2

/-- What every update of a stored task keeps, reconciling a list of stored tasks keeps. -/
theorem reconcile_rule {R : World → World → Prop} [hR : IsPreorder World R]
    (tasks : List Task) (hstep : ∀ t ∈ tasks, ∀ u u', WellKeyed u.tasks → Kept E u t → Updates E t u u' → R u u')
    (hkeys : WellKeyed s.tasks) (hdistinct : tasks.Pairwise fun t t' => t.id ≠ t'.id) (hkept : ∀ t ∈ tasks, Kept E s t) :
    R s (Tx.endState ((tasks.forM (reconcileTask E) : M Unit) s)) := by
  induction tasks generalizing s with
  | nil => exact hR.refl s
  | cons t tasks ih =>
    obtain ⟨hfirst, hrest⟩ := List.pairwise_cons.1 hdistinct
    have ht := hkept t List.mem_cons_self
    have hupdate : Updates E t s (Tx.endState (reconcileTask E t s)) := updated_reconcileTask
    refine Tx.ends_bind (hstep t List.mem_cons_self s _ hkeys ht hupdate) fun _ u hu => ?_
    rw [hu] at hupdate
    exact ih (fun t' ht' => hstep t' (List.mem_cons_of_mem _ ht')) (hupdate.keys hkeys) hrest fun t' ht' =>
      ht.step hupdate (hkept t' (List.mem_cons_of_mem _ ht')) (hfirst t' ht')

/-- What is reconciled at startup has not ended. -/
theorem listed_unended (hkeys : WellKeyed s.tasks) {t : Task}
    (ht : t ∈ (s.rows.filter fun r => false || !terminalNames.contains r.state).map (taskFromRow E.parse)) :
    ∃ row, s.tasks.lookup t.id = some row ∧ row.state ∉ terminalNames := by
  obtain ⟨row, hrow, rfl⟩ := List.mem_map.1 ht
  obtain ⟨hmem, hstate⟩ := List.mem_filter.1 hrow
  have hget := (mem_rows hkeys).1 hmem
  refine ⟨row, ?_, by simpa using hstate⟩
  show s.tasks.lookup (cstr row.id) = some row
  rwa [(hkeys _ _ hget).2]

/-- What is listed is stored as it is listed. -/
theorem listed_kept (hkeys : WellKeyed s.tasks) {b : Bool} {tasks : List Task} {u : World}
    (hlist : listTasks E b s = .ok tasks u) {t : Task} (ht : t ∈ tasks) : Kept E s t := by
  obtain ⟨row, hrow, rfl⟩ := listed_row hkeys hlist ht
  have hid : cstr row.id = row.id := by
    rw [(hkeys _ row hrow).1]
    exact cstr_cstr _
  refine ⟨cstr_cstr _, ?_⟩
  show (s.tasks.lookup (cstr (cstr row.id))).map (taskFromRow E.parse) = _
  rw [cstr_cstr]
  exact congrArg (Option.map _) hrow

theorem startup_rule {R : World → World → Prop} [hR : IsPreorder World R] (hkeys : WellKeyed s.tasks)
    (hstep : ∀ t row u u', s.tasks.lookup t.id = some row → row.state ∉ terminalNames → WellKeyed u.tasks → Kept E u t →
      Updates E t u u' → R u u') : R s (Action.after E s .startup) := by
  show R s (Tx.endState (reconcileOnStartup E s))
  unfold reconcileOnStartup
  have hlist : listTasks E false s = .ok _ s := rfl
  rw [Tx.bind_of_ok hlist]
  refine reconcile_rule _ (fun t ht u u' => ?_) hkeys (listed_pairwise hkeys hlist) fun t ht => listed_kept hkeys hlist ht
  obtain ⟨row, hrow, hstate⟩ := listed_unended hkeys ht
  exact hstep t row u u' hrow hstate

end Startup

/-! ## Creating -/

/-- Nothing is written, or one record under a new id, and it is announced. -/
def Created (E : Env) (s s' : World) : Prop :=
  s.nonce ≤ s'.nonce ∧ (s'.tasks = s.tasks ∧ s'.events = s.events ∨
    ∃ new row n, s.nonce ≤ n ∧ n < s'.nonce ∧ new.id = E.rand n ∧ bindTask E.parse new = .ok row ∧
      s'.tasks = (s.written E row).tasks ∧ s'.events = s.events ++ [createdEvent new])

section Creating

variable {E : Env} {s s' v : World} {req : CreateTaskRequest} {r : A2AResult}

theorem Created.of_frame (h : Frame quiet s s') : Created E s s' :=
  ⟨h.nonce, .inl ⟨h.rows (by decide), h.events (by decide)⟩⟩

theorem Created.prepend (h : Frame quiet s v) (h' : Created E v s') : Created E s s' := by
  have hrows := h.rows (by decide)
  have hevents := h.events (by decide)
  obtain ⟨hnonce, ⟨hsame, hquiet⟩ | ⟨new, row, n, hle, hlt, hid, hrow, htasks, hannounced⟩⟩ := h'
  · exact ⟨h.nonce.trans hnonce, .inl ⟨hsame.trans hrows, hquiet.trans hevents⟩⟩
  · refine ⟨h.nonce.trans hnonce, .inr ⟨new, row, n, h.nonce.trans hle, hlt, hid, hrow, ?_, by rw [hannounced, hevents]⟩⟩
    rw [htasks]
    show (if E.busy v.writes then v.tasks else v.tasks.insert row.id row) = _
    rw [h.writes (by decide), hrows]
    rfl

/-- A new record stands under the id that is drawn first. -/
theorem id_newRecord {t : Task} (h : newRecord E req r s = .ok t v) : t.id = E.rand s.nonce ∧ s.nonce < v.nonce := by
  unfold newRecord at h
  obtain ⟨id, w, hid, h⟩ := Tx.bind_ok.1 h
  obtain ⟨rfl, rfl⟩ := freshId_ok.1 hid
  have hlater : ∀ {u w : World}, Frame quiet { s with nonce := s.nonce + 1 } u → Frame quiet u w → s.nonce < w.nonce :=
    fun hu hw => Nat.lt_of_succ_le (hu.nonce.trans hw.nonce)
  have hsame : ∀ u, Frame quiet u u := fun u => refl_of (Frame quiet) u
  cases htask : r.task with
  | some task =>
    rw [htask] at h
    rcases Tx.ite_ok h with ⟨-, h⟩ | ⟨-, h⟩
    · obtain ⟨created, w, hnow, h⟩ := Tx.bind_ok.1 h
      obtain ⟨rfl, rfl⟩ := Tx.pure_ok.1 h
      exact ⟨rfl, hlater (Tx.keeps_ok hnow) (hsame _)⟩
    · obtain ⟨created, w, hown, h⟩ := Tx.bind_ok.1 h
      obtain ⟨rfl, rfl⟩ := Tx.pure_ok.1 h
      exact ⟨rfl, hlater (Tx.keeps_ok hown) (hsame _)⟩
  | none =>
    rw [htask] at h
    obtain ⟨created, w, hnow, h⟩ := Tx.bind_ok.1 h
    have hfirst : Frame quiet { s with nonce := s.nonce + 1 } w := Tx.keeps_ok hnow
    rcases Tx.ite_ok h with ⟨-, h⟩ | ⟨-, h⟩
    · obtain ⟨messageId, w', hfresh, h⟩ := Tx.bind_ok.1 h
      obtain ⟨now, w'', hnow', h⟩ := Tx.bind_ok.1 h
      obtain ⟨rfl, rfl⟩ := Tx.pure_ok.1 h
      exact ⟨rfl, hlater hfirst (trans_of (Frame quiet) (Tx.keeps_ok hfresh) (Tx.keeps_ok hnow'))⟩
    · obtain ⟨messageId, w', hown, h⟩ := Tx.bind_ok.1 h
      obtain ⟨now, w'', hnow', h⟩ := Tx.bind_ok.1 h
      obtain ⟨rfl, rfl⟩ := Tx.pure_ok.1 h
      exact ⟨rfl, hlater hfirst (trans_of (Frame quiet) (Tx.keeps_ok hown) (Tx.keeps_ok hnow'))⟩

theorem created_bind {α β : Type} {x : M α} {f : α → M β} [hx : Touches quiet x]
    (h : ∀ a t, x s = .ok a t → Created E t (Tx.endState (f a t))) : Created E s (Tx.endState ((x >>= f) s)) := by
  have hframe := hx.out s
  show Created E s (Tx.endState (EStateM.bind x f s))
  unfold EStateM.bind
  cases hs : x s with
  | ok a t =>
    rw [hs] at hframe
    exact .prepend hframe (h a t hs)
  | error e t =>
    rw [hs] at hframe
    exact .of_frame hframe

/-- Writing a new record and announcing it, with a quiet end. -/
theorem created_write {α : Type} {new : Task} {k : M α} [hk : Touches quiet k] {n : Nat} (hn : n < s.nonce)
    (hid : new.id = E.rand n) {s₀ : World} (hframe : Frame quiet s₀ s) (hle : s₀.nonce ≤ n) :
    Created E s₀ (Tx.endState ((do
      insertTask E new
      emit (createdEvent new)
      k : M α) s)) := by
  cases hrow : bindTask E.parse new with
  | error e =>
    have hthrown : insertTask E new s = .error e s := by
      unfold insertTask
      rw [hrow]
      rfl
    show Created E s₀ (Tx.endState (EStateM.bind (insertTask E new) _ s))
    unfold EStateM.bind
    rw [hthrown]
    exact .of_frame hframe
  | ok row =>
    have hwritten : insertTask E new s = .ok () (s.written E row) := insertTask_ok.2 ⟨row, hrow, rfl⟩
    have hemitted : emit (createdEvent new) (s.written E row) =
        .ok () { s.written E row with events := s.events ++ [createdEvent new] } := rfl
    rw [Tx.bind_of_ok hwritten, Tx.bind_of_ok hemitted]
    have hend := hk.out { s.written E row with events := s.events ++ [createdEvent new] }
    have hnonce : s.nonce ≤ _ := hend.nonce
    refine ⟨hframe.nonce.trans hnonce, .inr ⟨new, row, n, hle, hn.trans_le hnonce, hid, hrow, ?_, ?_⟩⟩
    · rw [hend.rows (by decide)]
      show (if E.busy s.writes then s.tasks else s.tasks.insert row.id row) = _
      rw [hframe.writes (by decide), hframe.rows (by decide)]
      rfl
    · rw [hend.events (by decide), ← hframe.events (by decide)]

theorem created_concludeCreate : Created E s (Tx.endState (concludeCreate E req r s)) := by
  have hquiet : Touches quiet (newRecord E req r) := inferInstance
  have hframe := hquiet.out s
  show Created E s (Tx.endState (EStateM.bind (newRecord E req r) _ s))
  unfold EStateM.bind
  cases hs : newRecord E req r s with
  | error e t =>
    rw [hs] at hframe
    exact .of_frame hframe
  | ok t u =>
    obtain ⟨hid, hlt⟩ := id_newRecord hs
    rw [hs] at hframe
    have hfirst : nowIso E u = .ok (E.iso u.isoTicks) { u with isoTicks := u.isoTicks + 1 } := rfl
    have hsecond : nowIso E { u with isoTicks := u.isoTicks + 1 } =
        .ok (E.iso (u.isoTicks + 1)) { u with isoTicks := u.isoTicks + 1 + 1 } := rfl
    dsimp only
    rw [Tx.bind_of_ok hfirst, Tx.bind_of_ok hsecond]
    have hticked : Frame quiet u { u with isoTicks := u.isoTicks + 1 + 1 } := .of_eq rfl rfl rfl rfl rfl rfl le_rfl
    have hhere : Frame quiet s { u with isoTicks := u.isoTicks + 1 + 1 } := trans_of (Frame quiet) hframe hticked
    refine created_write ?_ ?_ hhere le_rfl
    · exact hlt
    · exact hid

theorem created_create (req : CreateTaskRequest) : Created E s (Action.after E s (.create req)) := by
  show Created E s (Tx.endState (createTask E req s))
  unfold createTask
  refine created_bind fun found u _ => ?_
  cases found with
  | none => exact .of_frame (refl_of (Frame quiet) u)
  | some place =>
    refine created_bind fun r u _ => ?_
    split
    · exact created_concludeCreate
    · exact .of_frame (refl_of (Frame quiet) u)

end Creating

/-! ## Inversion -/

section Inversion

variable {E : Env} {s s' : World} {a : Action}

/-- The task that an action is for. -/
def Action.target? : Action → Option Str
  | create _ | startup => none
  | respond taskId _ _ | cancel taskId | refresh taskId | event taskId _ _ => some taskId

/-- A stored task is kept under the id that it was looked for. -/
theorem kept_stored (hkeys : WellKeyed s.tasks) {taskId : Str} {existing : Task} (hstored : s.task E taskId = some existing) :
    existing.id = cstr taskId ∧ Kept E s existing := by
  obtain ⟨row, hrow, rfl⟩ := Option.map_eq_some_iff.1 hstored
  have hid : cstr row.id = cstr taskId := by rw [(hkeys _ row hrow).1, cstr_cstr]
  refine ⟨hid, cstr_cstr _, ?_⟩
  show (s.tasks.lookup (cstr (cstr row.id))).map (taskFromRow E.parse) = _
  rw [cstr_cstr, hid]
  exact hstored

/-- What an action on a task does to it. -/
def Targets (E : Env) (taskId : Str) (s s' : World) : Prop :=
  Frame quiet s s' ∨ ∃ existing, existing.id = cstr taskId ∧ Kept E s existing ∧ Updates E existing s s'

theorem targets_of {taskId : Str} (hkeys : WellKeyed s.tasks) (hnone : s.task E taskId = none → Frame quiet s s')
    (hsome : ∀ existing, s.task E taskId = some existing → Updates E existing s s') : Targets E taskId s s' := by
  cases hstored : s.task E taskId with
  | none => exact .inl (hnone hstored)
  | some existing =>
    obtain ⟨hid, hkept⟩ := kept_stored hkeys hstored
    exact .inr ⟨existing, hid, hkept, hsome existing hstored⟩

/-- A step creates a task, reconciles the stored ones, or is for one of them. -/
theorem Step.cases (hkeys : WellKeyed s.tasks) (h : Step E s a s') :
    (∃ req, a = .create req ∧ Created E s s') ∨ (a = .startup ∧ s' = Action.after E s .startup) ∨
      ∃ taskId, a.target? = some taskId ∧ Targets E taskId s s' := by
  obtain ⟨hsound, rfl⟩ := h
  cases a with
  | create req => exact .inl ⟨req, rfl, created_create req⟩
  | startup => exact .inr (.inl ⟨rfl, rfl⟩)
  | respond taskId text requestId =>
    exact .inr (.inr ⟨taskId, rfl, targets_of hkeys (fun hnone => (unstored_quiet hnone).1 text requestId)
      fun _ hstored => updated_respond hstored text requestId⟩)
  | cancel taskId =>
    exact .inr (.inr ⟨taskId, rfl, targets_of hkeys (fun hnone => (unstored_quiet hnone).2.1)
      fun _ hstored => updated_cancel hstored⟩)
  | refresh taskId =>
    exact .inr (.inr ⟨taskId, rfl, targets_of hkeys (fun hnone => (unstored_quiet hnone).2.2.1)
      fun _ hstored => updated_refresh hstored⟩)
  | event taskId r e =>
    exact .inr (.inr ⟨taskId, rfl, targets_of hkeys (fun hnone => (unstored_quiet hnone).2.2.2 r e)
      fun _ hstored => updated_event hkeys hsound hstored r e⟩)

end Inversion

end A2ad.TaskManager
