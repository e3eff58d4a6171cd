/-
The two connections to the database file. While a transaction of the control plane holds the write
lock, a write of the task connection fails: it does not wait, and nobody looks at its result.
-/
import A2ad.Task.Bookkeeping

namespace A2ad.TaskManager

open Bytes Json Client

/-! ## The write lock -/

/-- What happens at the file: the control plane begins or ends a transaction, or the task connection writes. -/
inductive Turn where
  | begins
  | ends
  | writes
deriving DecidableEq

def Turn.lock (held : Bool) : Turn → Bool
  | begins => true
  | ends => false
  | writes => held

/-- Whether the lock is held at each of the writes. -/
def lockedWrites (held : Bool) : List Turn → List Bool
  | [] => []
  | .writes :: turns => held :: lockedWrites held turns
  | .begins :: turns => lockedWrites true turns
  | .ends :: turns => lockedWrites false turns

/-- The surroundings in which the connections take these turns. -/
def under (turns : List Turn) (E : Env) : Env := { E with busy := fun n => (lockedWrites false turns).getD n false }

/-- No write falls between the beginning and the end of a transaction. -/
def Apart (turns : List Turn) : Prop :=
  ∀ before after, turns = before ++ .writes :: after → before.foldl Turn.lock false = false

theorem mem_lockedWrites {held b : Bool} {turns : List Turn} :
    b ∈ lockedWrites held turns ↔ ∃ before after, turns = before ++ .writes :: after ∧ before.foldl Turn.lock held = b := by
  induction turns generalizing held with
  | nil => simp [lockedWrites]
  | cons turn turns ih =>
    -- the lock after the turn, which is the one the other writes find
    have hturn : ∀ {c}, turn.lock held = c → ((∃ before after, turns = before ++ .writes :: after ∧ before.foldl Turn.lock c = b) ↔
        ∃ before after, turn :: turns = (turn :: before) ++ .writes :: after ∧ (turn :: before).foldl Turn.lock held = b) := by
      rintro c rfl
      simp
    have hmore : (∃ before after, turn :: turns = before ++ .writes :: after ∧ before.foldl Turn.lock held = b) ↔
        turn = .writes ∧ held = b ∨
          ∃ before after, turn :: turns = (turn :: before) ++ .writes :: after ∧ (turn :: before).foldl Turn.lock held = b := by
      constructor
      · rintro ⟨before, after, hturns, hlock⟩
        cases before with
        | nil =>
          cases hturns
          exact .inl ⟨rfl, hlock⟩
        | cons first before =>
          cases hturns
          exact .inr ⟨before, after, rfl, hlock⟩
      · rintro (⟨rfl, rfl⟩ | ⟨before, after, hturns, hlock⟩)
        · exact ⟨[], turns, rfl, rfl⟩
        · exact ⟨_, after, hturns, hlock⟩
    rw [hmore]
    cases turn with
    | writes =>
      rw [← hturn rfl, lockedWrites, List.mem_cons, ih]
      simp [eq_comm, Turn.lock]
    | begins =>
      rw [← hturn rfl, lockedWrites, ih]
      simp [Turn.lock]
    | ends =>
      rw [← hturn rfl, lockedWrites, ih]
      simp [Turn.lock]

theorem apart_iff {turns : List Turn} : Apart turns ↔ ∀ b ∈ lockedWrites false turns, b = false := by
  constructor
  · intro h b hb
    obtain ⟨before, after, hturns, rfl⟩ := mem_lockedWrites.1 hb
    exact h before after hturns
  · intro h before after hturns
    exact h _ (mem_lockedWrites.2 ⟨before, after, hturns, rfl⟩)

theorem Apart.free {turns : List Turn} (h : Apart turns) (E : Env) (n : Nat) : (under turns E).busy n = false := by
  show (lockedWrites false turns).getD n false = false
  rw [List.getD_eq_getElem?_getD]
  cases hget : (lockedWrites false turns)[n]? with
  | none => rfl
  | some b =>
    exact apart_iff.1 h b (List.mem_of_getElem? hget)

/-! ## What took effect -/

/-- Every change of state that is announced on the way is stored at the end. -/
def ChangesStored (E : Env) (s s' : World) : Prop :=
  ∃ events, s'.events = s.events ++ events ∧ ∀ id before after, stateEvent id before after ∈ events →
    (s'.task E id).map (fun t => t.state) = some after

/-- What a step reports is so in the table when the step ends. -/
structure Effective (E : Env) (s : World) (a : Action) (s' : World) : Prop where
  created : ∀ req resp, a = .create req → createTask E req s = .ok resp s' → resp.ok = true →
    (s'.task E resp.taskId).isSome = true
  changed : ChangesStored E s s'

/-- No row is taken away. -/
def RowsStay (E : Env) (s s' : World) : Prop := ∀ id, (s.task E id).isSome = true → (s'.task E id).isSome = true

section Effects

variable {E : Env} {s s' : World} {existing : Task}

instance : IsPreorder World (RowsStay E) where
  refl _ _ := id
  trans _ _ _ h h' id hid := h' id (h id hid)

theorem RowsStay.of_rows (h : s'.tasks = s.tasks) : RowsStay E s s' := by
  intro id hid
  rw [World.task, h]
  exact hid

theorem rowsStay_written {row : Row} (h : s'.tasks = (s.written E row).tasks) : RowsStay E s s' := by
  intro id hid
  rw [World.task, h]
  show (((if E.busy s.writes then s.tasks else s.tasks.insert row.id row).lookup (cstr id)).map _).isSome = true
  split
  · exact hid
  · by_cases hrow : cstr id = row.id
    · rw [hrow, AList.lookup_insert]
      rfl
    · rw [AList.lookup_insert_ne hrow]
      exact hid

theorem Updates.rowsStay (h : Updates E existing s s') : RowsStay E s s' := by
  obtain ⟨-, ⟨hsame, -⟩ | ⟨new, row, -, -, htasks, -⟩⟩ := h
  · exact .of_rows hsame
  · exact rowsStay_written htasks

theorem Created.rowsStay (h : Created E s s') : RowsStay E s s' := by
  obtain ⟨-, ⟨hsame, -⟩ | ⟨new, row, n, -, -, -, -, htasks, -⟩⟩ := h
  · exact .of_rows hsame
  · exact rowsStay_written htasks

theorem Step.rowsStay (hkeys : WellKeyed s.tasks) {a : Action} (h : Step E s a s') : RowsStay E s s' := by
  rcases h.cases hkeys with ⟨req, -, hcreated⟩ | ⟨-, rfl⟩ | ⟨taskId, -, hquiet | ⟨existing, -, -, hupdate⟩⟩
  · exact hcreated.rowsStay
  · exact startup_rule hkeys fun t row u u' _ _ _ _ hupdate => hupdate.rowsStay
  · exact .of_rows (hquiet.rows (by decide))
  · exact hupdate.rowsStay

theorem Step.keys (hkeys : WellKeyed s.tasks) {a : Action} (h : Step E s a s') : WellKeyed s'.tasks := by
  rcases h.cases hkeys with ⟨req, -, hcreated⟩ | ⟨-, rfl⟩ | ⟨taskId, -, hquiet | ⟨existing, -, -, hupdate⟩⟩
  · exact hcreated.keys hkeys
  · have hstep : KeepsKeys s (Action.after E s .startup) :=
      startup_rule hkeys fun t row u u' _ _ _ _ hupdate hu => hupdate.keys hu
    exact hstep hkeys
  · rw [hquiet.rows (by decide)]
    exact hkeys
  · exact hupdate.keys hkeys

/-! ### Creations -/

/-- A creation that is reported has written the row of its id, unless the database was busy. -/
theorem createTask_wrote {req : CreateTaskRequest} {resp : CreateTaskResponse} (h : createTask E req s = .ok resp s')
    (hok : resp.ok = true) : ∃ (v : World) (row : Row), row.id = cstr resp.taskId ∧ s'.tasks = (v.written E row).tasks := by
  unfold createTask at h
  obtain ⟨found, u, -, h⟩ := Tx.bind_ok.1 h
  cases found with
  | none =>
    obtain ⟨rfl, -⟩ := Tx.pure_ok.1 h
    cases hok
  | some place =>
    obtain ⟨r, v, -, h⟩ := Tx.bind_ok.1 h
    rcases Tx.ite_ok h with ⟨-, h⟩ | ⟨-, h⟩
    · unfold concludeCreate at h
      obtain ⟨t, w, -, h⟩ := Tx.bind_ok.1 h
      obtain ⟨updated, w, -, h⟩ := Tx.bind_ok.1 h
      obtain ⟨changed, w, -, h⟩ := Tx.bind_ok.1 h
      obtain ⟨_, w', hinsert, h⟩ := Tx.bind_ok.1 h
      obtain ⟨row, hrow, rfl⟩ := insertTask_ok.1 hinsert
      obtain ⟨_, w₁, hemit, h⟩ := Tx.bind_ok.1 h
      obtain ⟨_, w₂, hsubscribe, h⟩ := Tx.bind_ok.1 h
      obtain ⟨rfl, rfl⟩ := Tx.pure_ok.1 h
      have hannounced : Frame [.events] _ w₁ := Tx.keeps_ok hemit
      have hsubscribed : Frame quiet w₁ w₂ := Tx.keeps_ok hsubscribe
      refine ⟨w, row, (bindTask_ok hrow).1, ?_⟩
      rw [hsubscribed.rows (by decide), hannounced.rows (by decide)]
      rfl
    · obtain ⟨rfl, -⟩ := Tx.pure_ok.1 h
      cases hok

theorem createTask_stored (hfree : ∀ n, E.busy n = false) {req : CreateTaskRequest} {resp : CreateTaskResponse}
    (h : createTask E req s = .ok resp s') (hok : resp.ok = true) : (s'.task E resp.taskId).isSome = true := by
  obtain ⟨v, row, hid, htasks⟩ := createTask_wrote h hok
  rw [World.task, htasks, written_free (hfree _), ← hid, AList.lookup_insert]
  rfl

/-! ### Changes -/

theorem stateEvent_inj {id id' : Str} {before before' after after' : TaskState}
    (h : stateEvent id before after = stateEvent id' before' after') : id = id' ∧ after = after' := by
  have hid : (stateEvent id before after).get? "task_id" = (stateEvent id' before' after').get? "task_id" := by rw [h]
  have hto : (stateEvent id before after).get? "to" = (stateEvent id' before' after').get? "to" := by rw [h]
  have hname : after.name = after'.name := by
    injection hto with hto
    injection hto
  refine ⟨?_, ?_⟩
  · injection hid with hid
    injection hid
  · have hread := (parseTaskState_name after).1
    rw [hname, (parseTaskState_name after').1] at hread
    exact (Option.some.inj hread).symm

/-- What an update of a stored task announces is stored. -/
theorem Updates.changed (hfree : E.busy s.writes = false) (h : Updates E existing s s') :
    ∃ events, s'.events = s.events ++ events ∧ ∀ id before after, stateEvent id before after ∈ events →
      id = existing.id ∧ (s'.task E id).map (fun t => t.state) = some after := by
  obtain ⟨-, ⟨-, hquiet⟩ | ⟨new, row, hbooks, hrow, htasks, hevents⟩⟩ := h
  · exact ⟨[], by rw [hquiet, List.append_nil], fun _ _ _ h => absurd h List.not_mem_nil⟩
  refine ⟨_, hevents, fun id before after h => ?_⟩
  have htold : stateEvent id before after = stateEvent existing.id existing.state new.state := by
    unfold stateEvents at h
    split at h
    · cases h
    · exact List.mem_singleton.1 h
  obtain ⟨rfl, rfl⟩ := stateEvent_inj htold
  refine ⟨rfl, ?_⟩
  have hid : cstr existing.id = row.id := by rw [(bindTask_ok hrow).1, hbooks.id]
  rw [World.task, htasks, written_free hfree, hid, AList.lookup_insert]
  show some (taskFromRow E.parse row).state = _
  rw [state_of_bindTask hrow]

theorem Created.changed (h : Created E s s') : ChangesStored E s s' := by
  obtain ⟨-, ⟨-, hquiet⟩ | ⟨new, row, n, -, -, -, -, -, hevents⟩⟩ := h
  · exact ⟨[], by rw [hquiet, List.append_nil], fun _ _ _ h => absurd h List.not_mem_nil⟩
  refine ⟨_, hevents, fun id before after h => ?_⟩
  have hcreated : stateEvent id before after = createdEvent new := List.mem_singleton.1 h
  have htype : (createdEvent new).get? "type" = some (.str "task.state_changed") := by
    rw [← hcreated]
    rfl
  have htype' : (createdEvent new).get? "type" = some (.str "task.created") := rfl
  rw [htype'] at htype
  exact absurd htype (by decide)

/-- Other tasks than those that are reconciled keep their rows. -/
theorem reconcile_elsewhere {id : Str} (tasks : List Task) (hkeys : WellKeyed s.tasks)
    (hdistinct : tasks.Pairwise fun t t' => t.id ≠ t'.id) (hkept : ∀ t ∈ tasks, Kept E s t)
    (hother : ∀ t ∈ tasks, t.id ≠ id) :
    (Tx.endState ((tasks.forM (reconcileTask E) : M Unit) s)).tasks.lookup id = s.tasks.lookup id := by
  have hpreorder : IsPreorder World fun u u' : World => u'.tasks.lookup id = u.tasks.lookup id := {
    refl := fun _ => rfl
    trans := fun _ _ _ h h' => h'.trans h }
  refine reconcile_rule (R := fun u u' : World => u'.tasks.lookup id = u.tasks.lookup id) tasks
    (fun t ht u u' _ hstored hupdate => ?_) hkeys hdistinct hkept
  refine hupdate.elsewhere id ?_
  rw [hstored.1]
  exact (hother t ht).symm

theorem reconcile_changed (hfree : ∀ n, E.busy n = false) (tasks : List Task) (hkeys : WellKeyed s.tasks)
    (hdistinct : tasks.Pairwise fun t t' => t.id ≠ t'.id) (hkept : ∀ t ∈ tasks, Kept E s t) :
    ChangesStored E s (Tx.endState ((tasks.forM (reconcileTask E) : M Unit) s)) := by
  induction tasks generalizing s with
  | nil => exact ⟨[], (List.append_nil _).symm, fun _ _ _ h => absurd h List.not_mem_nil⟩
  | cons t tasks ih =>
    obtain ⟨hfirst, hrest⟩ := List.pairwise_cons.1 hdistinct
    have ht := hkept t List.mem_cons_self
    have hupdate : Updates E t s (Tx.endState (reconcileTask E t s)) := updated_reconcileTask
    obtain ⟨events, happend, htold⟩ := hupdate.changed (hfree _)
    show ChangesStored E s (Tx.endState (((reconcileTask E t >>= fun _ => tasks.forM (reconcileTask E)) : M Unit) s))
    cases hrun : reconcileTask E t s with
    | error e u =>
      rw [hrun] at happend htold
      have hend : ((reconcileTask E t >>= fun _ => tasks.forM (reconcileTask E)) : M Unit) s = .error e u := by
        show EStateM.bind _ _ s = _
        rw [EStateM.bind, hrun]
      rw [hend]
      exact ⟨events, happend, fun id before after h => (htold id before after h).2⟩
    | ok _ u =>
      rw [Tx.bind_of_ok hrun]
      rw [hrun] at hupdate happend htold
      change Updates E t s u at hupdate
      change u.events = s.events ++ events at happend
      have hrestkept : ∀ t' ∈ tasks, Kept E u t' := fun t' ht' =>
        ht.step hupdate (hkept t' (List.mem_cons_of_mem _ ht')) (hfirst t' ht')
      obtain ⟨later, happend', htold'⟩ := ih (hupdate.keys hkeys) hrest hrestkept
      refine ⟨events ++ later, by rw [happend', happend, List.append_assoc], fun id before after h => ?_⟩
      rcases List.mem_append.1 h with h | h
      · obtain ⟨rfl, hstate⟩ := htold id before after h
        rw [World.task, reconcile_elsewhere tasks (hupdate.keys hkeys) hrest hrestkept fun t' ht' => ?_]
        · exact hstate
        · rw [ht.1]
          exact (hfirst t' ht').symm
      · exact htold' id before after h

theorem Step.effective (hfree : ∀ n, E.busy n = false) (hkeys : WellKeyed s.tasks) {a : Action} (h : Step E s a s') :
    Effective E s a s' := by
  refine ⟨fun req resp _ hcreate hok => createTask_stored hfree hcreate hok, ?_⟩
  rcases h.cases hkeys with ⟨req, -, hcreated⟩ | ⟨-, rfl⟩ | ⟨taskId, -, hquiet | ⟨existing, -, -, hupdate⟩⟩
  · exact hcreated.changed
  · show ChangesStored E s (Tx.endState (reconcileOnStartup E s))
    unfold reconcileOnStartup
    have hlist : listTasks E false s = .ok _ s := rfl
    rw [Tx.bind_of_ok hlist]
    exact reconcile_changed hfree _ hkeys (listed_pairwise hkeys hlist) fun t ht => listed_kept hkeys hlist ht
  · exact ⟨[], by rw [hquiet.events (by decide), List.append_nil], fun _ _ _ h => absurd h List.not_mem_nil⟩
  · obtain ⟨events, happend, htold⟩ := hupdate.changed (hfree _)
    exact ⟨events, happend, fun id before after h => (htold id before after h).2⟩

end Effects

/-! ## Runs -/

/-- In every run in which no write of a task falls within a transaction of the control plane, a task
whose creation is reported has its row, now and later, and every change of state that is announced has
been stored. -/
theorem writes_effective (E : Env) (turns : List Turn) (hapart : Apart turns) {s₀ s : World} {tr : List (Move World Action)}
    (hkeys : WellKeyed s₀.tasks) (hrun : Run (Step (under turns E)) s₀ tr s) :
    ∀ m ∈ tr, Effective (under turns E) m.pre m.label m.post ∧ RowsStay (under turns E) m.post s := by
  intro m hm
  have hkept : ∀ u v a, WellKeyed u.tasks → Step (under turns E) u a v → WellKeyed v.tasks := fun u v a hu hstep => hstep.keys hu
  have hpre : WellKeyed m.pre.tasks :=
    hrun.invariant_pre (I := fun u => WellKeyed u.tasks) hkeys (fun u a v hu hstep => hkept u v a hu hstep) hm
  obtain ⟨before, after, rfl⟩ := List.append_of_mem hm
  obtain ⟨-, hstep, hrest⟩ := hrun.split
  refine ⟨hstep.effective (hapart.free E) hpre, hrest.keeps (R := RowsStay (under turns E)) fun m' hm' => ?_⟩
  have hpre' : WellKeyed m'.pre.tasks :=
    hrest.invariant_pre (I := fun u => WellKeyed u.tasks) (hkept _ _ _ hpre hstep) (fun u a v hu hstep => hkept u v a hu hstep) hm'
  exact (hrest.mem_step hm').rowsStay hpre'

/-- A transaction before the write and one after it. -/
def around : List Turn := [.begins, .ends, .writes, .begins, .ends]

theorem writes_effective_around :
    ∃ tr s, Run (Step (under around sameEnv)) emptyWorld tr s ∧ tr.map Move.label = [.create listing] ∧
      ∀ m ∈ tr, Effective (under around sameEnv) m.pre m.label m.post ∧ RowsStay (under around sameEnv) m.post s := by
  have hapart : Apart around := apart_iff.2 (by decide)
  have hrun : Run (Step (under around sameEnv)) emptyWorld _ _ := Run.nil.snoc (.of_sound (a := .create listing) trivial)
  exact ⟨_, _, hrun, rfl, writes_effective sameEnv around hapart issued_emptyWorld.keys hrun⟩

/-- The write of a new task falls within a transaction. -/
def inside : List Turn := [.begins, .writes, .ends]

/-- The write of a new task takes effect, that of its completion falls within a transaction. -/
def insideLater : List Turn := [.writes, .begins, .writes, .ends]

/-- A creation is reported and an end is announced, and neither is in the table. -/
theorem locked_write_lost :
    (∃ resp s', createTask (under inside sameEnv) listing emptyWorld = .ok resp s' ∧ resp.ok = true ∧
      s'.task (under inside sameEnv) resp.taskId = none) ∧
    ∃ s s', Step (under insideLater sameEnv) emptyWorld (.create listing) s ∧
      Step (under insideLater sameEnv) s (.event "id-0" "remote-7" completedEvent) s' ∧
      s'.events = s.events ++ [stateEvent "id-0" .working .completed] ∧
      (s'.task (under insideLater sameEnv) "id-0").map (fun t => t.state) = some .working := by
  have hcreated : ((Tx.result? (createTask (under inside sameEnv) listing emptyWorld)).map fun resp => (resp.ok, resp.taskId)) =
      some (true, lit "id-0") := by
    decide +kernel
  have hlost : (Tx.endState (createTask (under inside sameEnv) listing emptyWorld)).task (under inside sameEnv) "id-0" = none := by
    decide +kernel
  obtain ⟨resp, hresp, hfields⟩ := Option.map_eq_some_iff.1 hcreated
  obtain ⟨hok, hid⟩ := Prod.mk.inj hfields
  refine ⟨⟨resp, _, Tx.ok_of_result hresp, hok, by rw [hid]; exact hlost⟩, ?_⟩
  refine ⟨_, _, .of_sound trivial, .of_sound rfl, ?_, ?_⟩
  · decide +kernel
  · decide +kernel

end A2ad.TaskManager
