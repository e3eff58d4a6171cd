/-
The event stream and the tasks table: folding the events of a task from its creation on gives a
connected chain of states that ends in the stored one.
-/
import A2ad.Task.Bookkeeping

namespace A2ad.TaskManager

open Bytes Json Client

/-! ## The tale of a task -/

/-- What the events about a task tell of it: nothing yet, the name of its state, or no connected chain. -/
inductive Tale where
  | untold
  | told (state : Str)
  | broken
deriving DecidableEq

/-- A task is created once, and every change goes from the state that was told to another one. -/
def advance (id : Str) (tale : Tale) (e : J) : Tale :=
  if e.get? "task_id" = some (.str id) then
    if e.get? "type" = some (.str "task.created") then
      match tale, e.get? "state" with
      | .untold, some (.str state) => .told state
      | _, _ => .broken
    else
      match tale, e.get? "from", e.get? "to" with
      | .told state, some (.str before), some (.str after) =>
        if before = state ∧ after ≠ before then .told after else .broken
      | _, _, _ => .broken
  else tale

/-- The tale of the events of a task. -/
def taleOf (id : Str) (events : List J) : Tale := events.foldl (advance id) .untold

/-- What is to be told of a stored task. -/
def Tale.ofTask : Option Task → Tale
  | none => .untold
  | some t => .told t.state.name

/-- The local ids are plain texts, without a NUL. -/
def PlainIds (E : Env) : Prop := ∀ n, cstr (E.rand n) = E.rand n

/-- The events emitted on the way lead from what is stored of the task to what is stored then. -/
def Announced (E : Env) (id : Str) (s s' : World) : Prop :=
  ∃ events, s'.events = s.events ++ events ∧
    events.foldl (advance id) (.ofTask (s.task E id)) = .ofTask (s'.task E id)

/-! ## Events -/

section Events

variable {id taskId : Str}

theorem name_ne {before after : TaskState} (h : before ≠ after) : after.name ≠ before.name := by
  intro hname
  have hread := (parseTaskState_name after).1
  rw [hname, (parseTaskState_name before).1] at hread
  exact h (Option.some.inj hread)

theorem advance_created (t : Task) : advance t.id .untold (createdEvent t) = .told t.state.name := by
  have hid : (createdEvent t).get? "task_id" = some (.str t.id) := rfl
  have htype : (createdEvent t).get? "type" = some (.str "task.created") := rfl
  unfold advance
  rw [if_pos hid, if_pos htype]
  rfl

theorem advance_stateEvents (id : Str) (before after : TaskState) :
    (stateEvents id before after).foldl (advance id) (.told before.name) = .told after.name := by
  unfold stateEvents
  split
  · rename_i hsame
    rw [hsame]
    rfl
  · rename_i hne
    have hid : (stateEvent id before after).get? "task_id" = some (.str id) := rfl
    have htype : (stateEvent id before after).get? "type" ≠ some (.str "task.created") := by
      have hread : (stateEvent id before after).get? "type" = some (.str "task.state_changed") := rfl
      rw [hread]
      decide
    have hfrom : (stateEvent id before after).get? "from" = some (.str before.name) := rfl
    have hto : (stateEvent id before after).get? "to" = some (.str after.name) := rfl
    show advance id (.told before.name) (stateEvent id before after) = _
    unfold advance
    rw [if_pos hid, if_neg htype]
    simp only [hfrom, hto]
    exact if_pos ⟨trivial, name_ne hne⟩

/-- Events about another task tell nothing. -/
theorem advance_other {e : J} (htask : e.get? "task_id" = some (.str taskId)) (hne : taskId ≠ id) (tale : Tale) :
    advance id tale e = tale := by
  refine if_neg fun h => hne ?_
  rw [htask] at h
  cases h
  rfl

theorem advance_stateEvents_other (hne : taskId ≠ id) (before after : TaskState) (tale : Tale) :
    (stateEvents taskId before after).foldl (advance id) tale = tale := by
  unfold stateEvents
  split
  · rfl
  · exact advance_other rfl hne tale

end Events

/-! ## Steps -/

section Steps

variable {E : Env} {id : Str} {s s' : World} {existing : Task}

instance : IsPreorder World (Announced E id) where
  refl s := ⟨[], (List.append_nil _).symm, rfl⟩
  trans s u v h h' := by
    obtain ⟨events, happend, hfold⟩ := h
    obtain ⟨later, happend', hfold'⟩ := h'
    refine ⟨events ++ later, by rw [happend', happend, List.append_assoc], ?_⟩
    rw [List.foldl_append, hfold, hfold']

theorem Announced.of_same (hrows : s'.task E id = s.task E id) (hevents : s'.events = s.events) : Announced E id s s' :=
  ⟨[], by rw [hevents, List.append_nil], by rw [hrows]; rfl⟩

/-- The stored task after a row has been written. -/
theorem task_written {row : Row} (hfree : E.busy s.writes = false) (htasks : s'.tasks = (s.written E row).tasks)
    (hid : cstr id = row.id) : s'.task E id = some (taskFromRow E.parse row) := by
  rw [World.task, htasks, written_free hfree, hid, AList.lookup_insert]
  rfl

theorem Updates.announced (hfree : E.busy s.writes = false) (hid : cstr id = id) (hkept : Kept E s existing)
    (h : Updates E existing s s') : Announced E id s s' := by
  have helsewhere := h.elsewhere
  obtain ⟨-, ⟨hsame, hquiet⟩ | ⟨new, row, hbooks, hrow, htasks, hevents⟩⟩ := h
  · exact .of_same (by rw [World.task, hsame]; rfl) hquiet
  refine ⟨_, hevents, ?_⟩
  by_cases hown : existing.id = id
  · have hrowid : cstr id = row.id := by rw [(bindTask_ok hrow).1, hbooks.id, hown]
    rw [← hown] at hrowid ⊢
    rw [hkept.2, task_written hfree htasks hrowid]
    show _ = Tale.told (taskFromRow E.parse row).state.name
    rw [state_of_bindTask hrow]
    exact advance_stateEvents existing.id existing.state new.state
  · rw [advance_stateEvents_other hown, World.task, World.task, helsewhere (cstr id)]
    rw [hid, hkept.1]
    exact fun h => hown h.symm

theorem Created.announced (hfree : E.busy s.writes = false) (hplain : PlainIds E) (hid : cstr id = id)
    (hissued : Issued E s) (h : Created E s s') : Announced E id s s' := by
  obtain ⟨-, ⟨hsame, hquiet⟩ | ⟨new, row, n, hle, -, hnew, hrow, htasks, hevents⟩⟩ := h
  · exact .of_same (by rw [World.task, hsame]; rfl) hquiet
  have hrowid : row.id = new.id := by rw [(bindTask_ok hrow).1, hnew, hplain n]
  refine ⟨_, hevents, ?_⟩
  by_cases hown : new.id = id
  · have hbefore : s.task E new.id = none := by rw [World.task, hnew, hissued.unissued n hle]; rfl
    subst hown
    rw [hbefore, task_written hfree htasks (by rw [hid, hrowid])]
    show _ = Tale.told (taskFromRow E.parse row).state.name
    rw [state_of_bindTask hrow]
    exact advance_created new
  · have hother : s'.task E id = s.task E id := by
      rw [World.task, htasks, written_free hfree, AList.lookup_insert_ne, World.task]
      rw [hid, hrowid]
      exact fun h => hown h.symm
    rw [hother]
    exact advance_other rfl hown _

theorem Step.announced (hfree : ∀ n, E.busy n = false) (hplain : PlainIds E) (hid : cstr id = id) {a : Action}
    (hissued : Issued E s) (h : Step E s a s') : Announced E id s s' := by
  rcases h.cases hissued.keys with ⟨req, -, hcreated⟩ | ⟨-, rfl⟩ | ⟨taskId, -, hquiet | ⟨existing, -, hkept, hupdate⟩⟩
  · exact hcreated.announced (hfree _) hplain hid hissued
  · exact startup_rule hissued.keys fun t row u u' _ _ _ hkept hupdate => hupdate.announced (hfree _) hid hkept
  · exact .of_same (by rw [World.task, hquiet.rows (by decide)]; rfl) (hquiet.events (by decide))
  · exact hupdate.announced (hfree _) hid hkept

end Steps

/-! ## Runs -/

/-- In every run whose writes all succeed, the events emitted about a task that is created in it tell one
connected chain of states, which ends in the stored one. -/
theorem events_tell_states (E : Env) (hfree : ∀ n, E.busy n = false) (hids : DistinctIds E) (hplain : PlainIds E)
    {s₀ s : World} {tr : List (Move World Action)} (hissued : Issued E s₀) (hrun : Run (Step E) s₀ tr s) :
    ∃ events, s.events = s₀.events ++ events ∧ ∀ id t, s₀.task E id = none → s.task E id = some t →
      taleOf t.id events = .told t.state.name := by
  have hsteps : ∀ m ∈ tr, ∀ id, cstr id = id → Announced E id m.pre m.post := by
    intro m hm id hid
    have hpre : Issued E m.pre :=
      hrun.invariant_pre (I := Issued E) hissued (fun _ _ _ hs hstep => hstep.issued hids hs) hm
    exact (hrun.mem_step hm).announced hfree hplain hid hpre
  have hannounced : ∀ id, cstr id = id → Announced E id s₀ s := fun id hid =>
    hrun.keeps (R := Announced E id) fun m hm => hsteps m hm id hid
  obtain ⟨events, happend, -⟩ := hannounced [] rfl
  refine ⟨events, happend, fun id t hbefore hstored => ?_⟩
  have hkeys : WellKeyed s.tasks := (hrun.keeps (R := KeepsIssued E) fun m hm =>
    fun hs => (hrun.mem_step hm).issued hids hs) hissued |>.keys
  obtain ⟨hid, hplainid, hkept⟩ := kept_stored hkeys hstored
  obtain ⟨events', happend', htold⟩ := hannounced t.id hplainid
  obtain rfl : events' = events := List.append_cancel_left (happend'.symm.trans happend)
  have hnone : s₀.task E t.id = none := by
    rw [World.task, hplainid, hid]
    exact hbefore
  rw [hnone, hkept] at htold
  exact htold

/-- The first task is completed by an event. -/
def completedOnce : World := Action.after sameEnv onceCreated (.event "id-0" "remote-7" completedEvent)

/-- A task is created and completed. -/
theorem events_tell_states_completed :
    (completedOnce.task sameEnv "id-0").map (fun t => t.state) = some .completed ∧
      ∃ events, completedOnce.events = emptyWorld.events ++ events ∧ ∀ id t, emptyWorld.task sameEnv id = none →
        completedOnce.task sameEnv id = some t → taleOf t.id events = .told t.state.name := by
  have hfirst : Step sameEnv emptyWorld (.create listing) onceCreated := .of_sound trivial
  have hsecond : Step sameEnv onceCreated (.event "id-0" "remote-7" completedEvent) completedOnce := .of_sound rfl
  exact ⟨by decide +kernel, events_tell_states sameEnv (fun _ => rfl) distinctIds_sameEnv plain_sameEnv
    issued_emptyWorld ((Run.nil.snoc hfirst).snoc hsecond)⟩

end A2ad.TaskManager
