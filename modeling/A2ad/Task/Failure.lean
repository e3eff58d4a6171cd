/-
Failed remote calls: what an operation on the tasks table leaves behind when its call to the remote
agent gives a failed result.
-/
import A2ad.Task.Operation
import A2ad.Task.RoundTrip

namespace A2ad.TaskManager

open Bytes Json Client

/-! ## Turns -/

/-- Started in `s`, the operation has its turn in `u`: for a listed task at startup, when those
listed before it have had theirs. -/
def Operation.At (E : Env) (s u : World) : Operation → Prop
  | .reconcile t => ∃ before rest, listTasks E false s = .ok (before ++ t :: rest) s ∧
      before.forM (reconcileTask E) s = .ok () u
  | _ => u = s

/-! ## Harmless failures -/

/-- The row with another error note. -/
def withNote (note : Str) (row : Row) : Row := { row with error := cstr note }

/-- The failed call has changed no row and announced nothing; at startup the task that could not be
refreshed may have got a note, but not after a local network error. -/
def Harmless (r : A2AResult) (u u' : World) : Operation → Prop
  | .reconcile t => u'.events = u.events ∧ Elsewhere t.id u u' ∧
      (u'.tasks = u.tasks ∨ r.errorKind ≠ .localNetwork ∧ ∃ row, u.tasks.lookup t.id = some row ∧
        u'.tasks.lookup t.id = some (withNote (failureNote r) row))
  | _ => u'.events = u.events ∧ u'.tasks = u.tasks

/-- Writing back what is read from the row gives the row, whatever its error note. -/
def Faithful (parse : Str → Option J) (row : Row) : Prop :=
  ∀ row', bindTask parse (taskFromRow parse row) = .ok row' → { row' with error := row.error } = row

/-- The columns a task fills without a JSON text, in the row of another. -/
def columns (t : Task) (row : Row) : Row := { row with
  id := cstr t.id, remoteTaskId := (t.remoteTaskId.filter fun r => !r.isEmpty).map cstr, agent := cstr t.agent
  contextId := cstr t.context, state := t.state.name, stateMessage := cstr t.stateMessage, title := cstr t.title
  cwd := cstr t.cwd, createdAt := cstr t.createdAt, updatedAt := cstr t.updatedAt
  lastStateChange := cstr t.lastStateChange, error := cstr t.error }

theorem bindTask_columns {parse : Str → Option J} {t : Task} {row : Row} (h : bindTask parse t = .ok row) :
    columns t row = row := by
  unfold bindTask at h
  obtain ⟨messages, -, h⟩ := Tx.except_bind_ok h
  obtain ⟨artifacts, -, h⟩ := Tx.except_bind_ok h
  obtain ⟨metadata, -, h⟩ := Tx.except_bind_ok h
  cases h
  rfl

/-- A remote id that can be told from none is read back as it is stored. -/
theorem remote_columns {remote : Option Str} (h : remote ≠ some []) (hstored : remote.map cstr = remote) :
    ((remote.map cstr).filter fun r => !r.isEmpty).map cstr = remote := by
  rw [hstored]
  cases remote with
  | none => rfl
  | some r =>
    cases r with
    | nil => exact absurd rfl h
    | cons c rest => exact hstored

/-- In a row the daemon has written, at most the messages, the artifacts and the metadata are at stake. -/
theorem faithful_iff {parse : Str → Option J} {t : Task} {row : Row} (h : bindTask parse t = .ok row)
    (hremote : row.remoteTaskId ≠ some []) :
    Faithful parse row ↔ ∀ row', bindTask parse (taskFromRow parse row) = .ok row' →
      row'.messages = row.messages ∧ row'.artifacts = row.artifacts ∧ row'.metadata = row.metadata := by
  unfold Faithful
  refine forall₂_congr fun row' h' => ?_
  constructor
  · intro hsame
    rw [← hsame]
    exact ⟨rfl, rfl, rfl⟩
  · rintro ⟨hmessages, hartifacts, hmetadata⟩
    have hrow := bindTask_columns h
    have hremote' := remote_columns hremote (by
      rw [← hrow]
      simp [columns, Option.map_map, Function.comp_def, cstr_cstr])
    rw [← bindTask_columns h', columns]
    simp only [hmessages, hartifacts, hmetadata, state_of_bindTask h]
    simp only [taskFromRow, cstr_cstr, hremote']
    rw [← hrow]
    simp only [columns, cstr_cstr]

/-- Of a list, what is read of its column is written as it was exactly where every element is. -/
theorem column_rewritten {α : Type} {parse : Str → Option J} (hparse : ReadsBack parse) {write : α → J}
    {read : J → Except Exception α} {xs : List α} (hformed : ∀ x ∈ xs, (write x).formed = true) :
    (J.arr ((readColumn parse read (cstr (J.arr (xs.map write)).text)).map write)).text = (J.arr (xs.map write)).text ↔
      ∀ x ∈ xs, ∃ y, read (write x) = .ok y ∧ write y = write x := by
  have hcolumn : (J.arr (xs.map write)).formed = true := J.formed_arr.2 (List.forall_mem_map.2 hformed)
  rw [cstr_eq_self (J.plain_text _).nul, readColumn, hparse _ hcolumn, ← rewritten_collect]
  exact ⟨fun h => J.arr.inj (J.text_inj h), fun h => by dsimp only; rw [h]⟩

/-- In the row of a formed task, that is a matter of its parts: as long as what is read can be written at all, every
part has something set, and a string in its data is none that would be parsed. -/
theorem faithful_by_parts {parse : Str → Option J} (hparse : ReadsBack parse) {t : Task} (ht : t.Formed) {row : Row}
    (h : bindTask parse t = .ok row) (hremote : row.remoteTaskId ≠ some []) :
    Faithful parse row ↔ ((∃ row', bindTask parse (taskFromRow parse row) = .ok row') →
      (∀ m ∈ t.messages, ∀ p ∈ m.parts, p.Settles parse) ∧ ∀ a ∈ t.artifacts, ∀ p ∈ a.parts, p.Settles parse) := by
  obtain ⟨row₀, hrow, -, -, -, hmessages, hartifacts, hmetadata, -⟩ := bindTask_formed hparse ht
  obtain rfl : row₀ = row := Except.ok.inj (hrow.symm.trans h)
  have hmessage := @column_rewritten _ _ hparse _ readMessage _ fun m hm => formed_messageJson hparse (ht.messages m hm)
  have hartifact := @column_rewritten _ _ hparse _ readArtifact _ fun a ha => formed_artifactJson hparse (ht.artifacts a ha)
  rw [← hmessages, forall₂_congr fun m hm => rewritten_message hparse (ht.messages m hm)] at hmessage
  rw [← hartifacts, forall₂_congr fun a ha => rewritten_artifact hparse (ht.artifacts a ha)] at hartifact
  have hobject : parse (cstr row₀.metadata) = some t.metadata := by
    rw [hmetadata, cstr_eq_self (J.plain_text _).nul, hparse _ ht.metadata]
  have hrewritten : ∀ row', bindTask parse (taskFromRow parse row₀) = .ok row' →
      (row'.messages = row₀.messages ∧ row'.artifacts = row₀.artifacts ∧ row'.metadata = row₀.metadata ↔
        (∀ m ∈ t.messages, ∀ p ∈ m.parts, p.Settles parse) ∧ ∀ a ∈ t.artifacts, ∀ p ∈ a.parts, p.Settles parse) := by
    intro row' h'
    unfold bindTask at h'
    obtain ⟨messages, hm, h'⟩ := Tx.except_bind_ok h'
    obtain ⟨artifacts, ha, h'⟩ := Tx.except_bind_ok h'
    obtain ⟨metadata, hj, h'⟩ := Tx.except_bind_ok h'
    cases h'
    dsimp only
    rw [← (J.dump_ok.1 hm).2, ← (J.dump_ok.1 ha).2, ← (J.dump_ok.1 hj).2]
    dsimp only [taskFromRow]
    rw [hobject, hmessage, hartifact, hmetadata]
    exact and_congr_right fun _ => and_iff_left rfl
  rw [faithful_iff h hremote]
  constructor
  · rintro hfaithful ⟨row', h'⟩
    exact (hrewritten row' h').1 (hfaithful row' h')
  · intro hsettles row' h'
    exact (hrewritten row' h').2 (hsettles ⟨row', h'⟩)

/-- No note is written, or the row it is written to can be read and written back. -/
def Spared (E : Env) (r : A2AResult) (u : World) : Operation → Prop
  | .reconcile t => r.errorKind = .localNetwork ∨ E.busy u.writes = true ∨
      ∀ row, u.tasks.lookup t.id = some row → Faithful E.parse row
  | _ => True

/-! ## The loop at startup -/

section Loop

variable {E : Env} {s u : World} {t : Task}

/-- Reconciling one task leaves the rows of the others alone. -/
theorem elsewhere_reconcileTask (hid : cstr t.id = t.id) : Tx.Keeps (Elsewhere t.id) (reconcileTask E t) := by
  unfold reconcileTask
  refine Tx.keeps_bind (k := fun found => ?_)
  split
  · infer_instance
  · dsimp only
    split
    · infer_instance
    · refine Tx.keeps_bind (k := fun r => ?_)
      split
      · unfold concludeReconcile
        refine Tx.keeps_bind (k := fun updated => ?_)
        exact elsewhere_write hid
      · split
        · infer_instance
        · exact elsewhere_insertTask hid

theorem loop_row {before : List Task} {id : Str} (hids : ∀ t' ∈ before, cstr t'.id = t'.id ∧ t'.id ≠ id)
    (hrun : before.forM (reconcileTask E) s = .ok () u) : u.tasks.lookup id = s.tasks.lookup id := by
  induction before generalizing s with
  | nil =>
    obtain ⟨-, rfl⟩ := Tx.pure_ok.1 hrun
    rfl
  | cons t' before ih =>
    obtain ⟨_, w, ht, hrest⟩ := Tx.bind_ok.1 hrun
    obtain ⟨hid, hne⟩ := hids t' List.mem_cons_self
    have hfirst : Elsewhere t'.id s w := Tx.keeps_ok (k := elsewhere_reconcileTask hid) ht
    rw [ih (fun t'' h => hids t'' (List.mem_cons_of_mem _ h)) hrest, hfirst id hne.symm]

/-- When a listed task has its turn, its row is still the one it was read from. -/
theorem turn_row (hkeys : WellKeyed s.tasks) (h : (Operation.reconcile t).At E s u) :
    ∃ row, u.tasks.lookup t.id = some row ∧ taskFromRow E.parse row = t ∧ cstr t.id = t.id := by
  obtain ⟨before, rest, hlist, hrun⟩ := h
  have hself : ∀ t' ∈ before ++ t :: rest, cstr t'.id = t'.id := by
    intro t' ht'
    obtain ⟨row, -, rfl⟩ := listed_row hkeys hlist ht'
    exact cstr_cstr _
  have ht : t ∈ before ++ t :: rest := List.mem_append_right _ List.mem_cons_self
  obtain ⟨row, hrow, hread⟩ := listed_row hkeys hlist ht
  refine ⟨row, ?_, hread, hself t ht⟩
  rw [loop_row (fun t' ht' => ⟨hself t' (List.mem_append_left _ ht'), ?_⟩) hrun, hrow]
  obtain ⟨-, -, hcross⟩ := List.pairwise_append.1 (listed_pairwise hkeys hlist)
  exact hcross t' ht' t List.mem_cons_self

end Loop

/-! ## What a failed call leaves -/

/-- A note changes one column of a bound row. -/
theorem bindTask_note (parse : Str → Option J) (t : Task) (note : Str) :
    bindTask parse { t with error := note } = (bindTask parse t).map (withNote note) := by
  unfold bindTask
  cases (J.arr (t.messages.map (messageJson parse))).dump with
  | error e => rfl
  | ok messages =>
    cases (J.arr (t.artifacts.map (artifactJson parse))).dump with
    | error e => rfl
    | ok artifacts =>
      cases t.metadata.dump with
      | error e => rfl
      | ok metadata => rfl

/-- Rows that differ in their notes alone. -/
theorem withNote_inj {note : Str} {row row' : Row} (h : withNote note row' = withNote note row) :
    { row' with error := row.error } = row := by
  cases row
  cases row'
  cases h
  rfl

theorem harmless_congr {r : A2AResult} {u v u' : World} {op : Operation} (hrows : v.tasks = u.tasks)
    (hevents : v.events = u.events) : Harmless r v u' op ↔ Harmless r u u' op := by
  cases op <;> simp only [Harmless, Elsewhere, hrows, hevents]

section Notes

variable {E : Env} {s u v : World} {r : A2AResult} {t : Task} {row : Row}

/-- The error note goes to the row it was read from; whether anything else of the row changes is up
to what becomes of the row when it is written back. -/
theorem note_harmless (hrow : v.tasks.lookup t.id = some row) (hread : taskFromRow E.parse row = t) (hid : cstr t.id = t.id)
    (hkind : r.errorKind ≠ .localNetwork) :
    Harmless r v (Tx.endState (updateTask E { t with error := failureNote r } v)) (.reconcile t) ↔
      E.busy v.writes = true ∨ Faithful E.parse row := by
  have hnoted := bindTask_note E.parse t (failureNote r)
  cases hbound : bindTask E.parse t with
  | error e =>
    rw [hbound] at hnoted
    rw [endState_unbound hnoted]
    refine iff_of_true ⟨rfl, fun _ _ => rfl, .inl rfl⟩ (.inr fun row' h => ?_)
    rw [hread, hbound] at h
    cases h
  | ok row' =>
    rw [hbound] at hnoted
    rw [endState_bound hnoted]
    have hkey : row'.id = t.id := (cstr_bound hbound).1.trans hid
    cases hbusy : E.busy v.writes with
    | true =>
      have hsame : (v.written E (withNote (failureNote r) row')).tasks = v.tasks := written_busy hbusy
      exact iff_of_true ⟨rfl, fun _ _ => by rw [hsame], .inl hsame⟩ (.inl rfl)
    | false =>
      have htasks : (v.written E (withNote (failureNote r) row')).tasks =
          v.tasks.insert t.id (withNote (failureNote r) row') := by
        rw [written_free hbusy, ← hkey]
        rfl
      have hown : (v.written E (withNote (failureNote r) row')).tasks.lookup t.id =
          some (withNote (failureNote r) row') := by
        rw [htasks, AList.lookup_insert]
      constructor
      · rintro ⟨-, -, hsame | ⟨-, row₀, hrow₀, hnew⟩⟩
        · rw [hsame, hrow] at hown
          refine .inr fun row₁ h => ?_
          rw [hread, hbound] at h
          cases h
          rw [Option.some.inj hown]
          rfl
        · rw [hrow] at hrow₀
          cases hrow₀
          rw [hown] at hnew
          refine .inr fun row₁ h => ?_
          rw [hread, hbound] at h
          cases h
          exact withNote_inj (Option.some.inj hnew)
      · rintro (h | hfaithful)
        · cases h
        · have hsame := hfaithful row' (by rw [hread, hbound])
          refine ⟨rfl, fun id' hne => ?_, .inr ⟨hkind, row, hrow, ?_⟩⟩
          · rw [htasks, AList.lookup_insert_ne hne]
          · rw [hown, ← hsame]
            rfl

/-- The same before the call as after it. -/
theorem reconcile_harmless (hframe : Frame [.wire, .bindings, .agents] u v) (hrow : u.tasks.lookup t.id = some row)
    (hread : taskFromRow E.parse row = t) (hid : cstr t.id = t.id) :
    Harmless r u (Tx.endState ((if r.errorKind = .localNetwork then pure ()
      else updateTask E { t with error := failureNote r } : M Unit) v)) (.reconcile t) ↔ Spared E r u (.reconcile t) := by
  have hrows := hframe.rows (by decide)
  have hevents := hframe.events (by decide)
  by_cases hkind : r.errorKind = .localNetwork
  · rw [if_pos hkind]
    refine iff_of_true ⟨hevents, fun id' _ => ?_, .inl hrows⟩ (.inl hkind)
    show v.tasks.lookup id' = _
    rw [hrows]
  · rw [if_neg hkind]
    rw [← harmless_congr hrows hevents, note_harmless (hrows.symm ▸ hrow) hread hid hkind, hframe.writes (by decide)]
    simp only [Spared]
    rw [or_iff_right hkind]
    refine or_congr_right ⟨fun h row' hrow' => ?_, fun h => h row hrow⟩
    rw [hrow] at hrow'
    cases hrow'
    exact h

end Notes

/-- A failed call changes nothing but the error note of a task at startup, exactly where that note
is not written or what is read from the row of the task can be written back as it is. -/
theorem failed_call_harmless (E : Env) (op : Operation) {s u v : World} {r : A2AResult} (hkeys : WellKeyed s.tasks)
    (hat : op.At E s u) (hcall : op.Calls E u r v) (hfail : r.ok = false) :
    Harmless r u (Tx.endState (op.run E u)) op ↔ Spared E r u op := by
  have hframe := hcall.frame
  have hquiet : v.events = u.events ∧ v.tasks = u.tasks := ⟨hframe.events (by decide), hframe.rows (by decide)⟩
  cases op with
  | create req =>
    have hrun := createTask_calls hcall
    rw [hfail] at hrun
    rw [Operation.run, Tx.bind_of_ok hrun]
    exact iff_of_true hquiet trivial
  | respond taskId text requestId =>
    obtain ⟨existing, -, hrun⟩ := respondToTask_calls hcall
    rw [hfail] at hrun
    rw [Operation.run, Tx.bind_of_ok hrun]
    exact iff_of_true hquiet trivial
  | cancel taskId =>
    obtain ⟨existing, -, hrun⟩ := cancelTask_calls hcall
    rw [onTask_failed hfail] at hrun
    rw [Operation.run, Tx.bind_of_ok hrun]
    exact iff_of_true hquiet trivial
  | refresh taskId =>
    obtain ⟨existing, -, hrun⟩ := refreshTask_calls hcall
    rw [onTask_failed hfail] at hrun
    rw [Operation.run, Tx.bind_of_ok hrun]
    exact iff_of_true hquiet trivial
  | reconcile t =>
    have hrun := reconcileTask_calls hcall
    rw [onTask_failed hfail] at hrun
    obtain ⟨row, hrow, hread, hid⟩ := turn_row hkeys hat
    rw [Operation.run, hrun]
    exact reconcile_harmless hframe hrow hread hid

/-! ## An agent that fails -/

/-- The surroundings of a daemon whose agent answers every call with a server error. -/
def failing (values : List J) : Env := { Env.offline values with http := fun _ _ => { status := 500 } }

/-- A task under way, with what its agent has said so far. -/
def underway (messages : List Message) : Task where
  id := "local-1"
  remoteTaskId := some (lit "remote-7")
  agent := builder.id
  state := .working
  messages := messages
  updatedAt := "2026-01-01T00:00:00Z"

def unread : Message := { messageId := "m-1", role := "agent", parts := [{}] }

def spoken : Message := { messageId := "m-1", role := "agent", parts := [{ text := "one" }] }

/-- Surroundings that know the column of one message. -/
def failingWith (m : Message) : Env := failing [.arr [messageJson (fun _ => none) m]]

def failingWorld (m : Message) : World := .offline (failingWith m) [underway [m]]

set_option maxRecDepth 20000 in
/-- The note on the failure leaves a message that can be read as it is. -/
theorem failed_call_harmless_spoken : ∃ r v,
    (Operation.reconcile (underway [spoken])).Calls (failingWith spoken) (failingWorld spoken) r v ∧
      Harmless r (failingWorld spoken)
        (Tx.endState ((Operation.reconcile (underway [spoken])).run (failingWith spoken) (failingWorld spoken)))
        (.reconcile (underway [spoken])) := by
  have hcall : ∃ r v, (Operation.reconcile (underway [spoken])).Calls (failingWith spoken) (failingWorld spoken) r v ∧
      r.ok = false := ⟨_, _, ⟨by decide, _, _, _, rfl, rfl⟩, rfl⟩
  obtain ⟨r, v, hcall, hfail⟩ := hcall
  refine ⟨r, v, hcall, (failed_call_harmless (failingWith spoken) (.reconcile (underway [spoken]))
    (wellKeyed_offline _ _) ⟨[], [], rfl, rfl⟩ hcall hfail).2 (.inr (.inr fun row hrow row' h => ?_))⟩
  obtain rfl : _ = row := Option.some.inj hrow
  obtain rfl : _ = row' := Except.ok.inj h
  rfl

set_option maxRecDepth 20000 in
/-- An agent's message with an empty part is stored, but not read again: the note on the failure
replaces the messages of the task. -/
theorem note_loses_messages :
    (Operation.reconcile (underway [])).At (failingWith unread) (failingWorld unread) (failingWorld unread) ∧
      ∃ r v, (Operation.reconcile (underway [])).Calls (failingWith unread) (failingWorld unread) r v ∧ r.ok = false ∧
        ¬ Harmless r (failingWorld unread)
          (Tx.endState ((Operation.reconcile (underway [])).run (failingWith unread) (failingWorld unread)))
          (.reconcile (underway [])) := by
  refine ⟨⟨[], [], rfl, rfl⟩, _, _, ⟨by decide, _, _, _, rfl, rfl⟩, rfl, ?_⟩
  rintro ⟨-, -, hrows⟩
  have hbefore : ((failingWorld unread).tasks.lookup (underway []).id).map Row.messages ≠ some "[]" := by decide
  have hafter : ((Tx.endState ((Operation.reconcile (underway [])).run (failingWith unread)
      (failingWorld unread))).tasks.lookup (underway []).id).map Row.messages = some (lit "[]") := rfl
  rcases hrows with hrows | ⟨-, row, hrow, hnew⟩
  · rw [hrows] at hafter
    exact hbefore hafter
  · rw [hnew] at hafter
    rw [hrow] at hbefore
    exact hbefore hafter

end A2ad.TaskManager
