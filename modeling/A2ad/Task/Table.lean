/-
The tasks table as the operations see it: rows are keyed by their ids, an operation on one task
writes the row of that task alone, and what is listed are the stored rows, each once.
-/
import A2ad.Daemon.Frames

namespace A2ad

open Bytes Json Client

/-! ## Keys -/

/-- Every row stands under its own id, which is a C string. -/
def WellKeyed (tasks : Tasks) : Prop := ∀ id row, tasks.lookup id = some row → row.id = id ∧ cstr id = id

theorem wellKeyed_empty : WellKeyed ∅ := by
  intro id row h
  cases h

theorem WellKeyed.insert {tasks : Tasks} (h : WellKeyed tasks) {row : Row} (hrow : cstr row.id = row.id) :
    WellKeyed (tasks.insert row.id row) := by
  intro id row' hget
  by_cases hid : id = row.id
  · subst hid
    rw [AList.lookup_insert] at hget
    cases hget
    exact ⟨rfl, hrow⟩
  · rw [AList.lookup_insert_ne hid] at hget
    exact h id row' hget

/-- The ids and keys of the table stay sound. -/
def KeepsKeys (s s' : World) : Prop := WellKeyed s.tasks → WellKeyed s'.tasks

instance : IsPreorder World KeepsKeys where
  refl _ := id
  trans _ _ _ h h' hs := h' (h hs)

theorem cstr_bound {parse : Str → Option J} {t : Task} {row : Row} (h : bindTask parse t = .ok row) :
    row.id = cstr t.id ∧ cstr row.id = row.id := by
  have hid := (bindTask_ok h).1
  exact ⟨hid, by rw [hid, cstr_cstr]⟩

instance {E : Env} (t : Task) : Tx.Keeps KeepsKeys (insertTask E t) := by
  refine ⟨fun s => ?_⟩
  unfold insertTask
  refine Tx.ends_lift_bind fun row hrow hs => ?_
  show WellKeyed (if E.busy s.writes then s.tasks else s.tasks.insert row.id row)
  split
  · exact hs
  · exact hs.insert (cstr_bound hrow).2

/-- The tables a daemon fills are well keyed. -/
theorem wellKeyed_offline (E : Env) (tasks : List Task) : WellKeyed (World.offline E tasks).tasks := by
  have hkeeps : Tx.Keeps KeepsKeys (tasks.forM (insertTask E)) := by
    induction tasks with
    | nil => exact Tx.keeps_pure _
    | cons t tasks ih =>
      show Tx.Keeps KeepsKeys (insertTask E t >>= fun _ => tasks.forM (insertTask E))
      infer_instance
  exact hkeeps.out _ wellKeyed_empty

/-! ## Writes -/

section Writes

variable {E : Env} {s : World} {t : Task}

/-- The world after a row has been put. -/
def World.written (E : Env) (s : World) (row : Row) : World :=
  { s with writes := s.writes + 1, tasks := if E.busy s.writes then s.tasks else s.tasks.insert row.id row }

theorem endState_unbound {e : Exception} (h : bindTask E.parse t = .error e) : Tx.endState (updateTask E t s) = s := by
  unfold updateTask insertTask
  rw [h]
  rfl

theorem endState_bound {row : Row} (h : bindTask E.parse t = .ok row) :
    Tx.endState (updateTask E t s) = s.written E row := by
  unfold updateTask insertTask
  rw [h]
  rfl

theorem written_busy {row : Row} (h : E.busy s.writes = true) : (s.written E row).tasks = s.tasks := by
  show (if E.busy s.writes then _ else _) = _
  rw [h, if_pos rfl]

theorem written_free {row : Row} (h : E.busy s.writes = false) :
    (s.written E row).tasks = s.tasks.insert row.id row := by
  show (if E.busy s.writes then _ else _) = _
  rw [h, if_neg Bool.false_ne_true]

end Writes

/-! ## Other rows -/

/-- Every row but the one of `id` stays as it is. -/
def Elsewhere (id : Str) (s s' : World) : Prop := ∀ id', id' ≠ id → s'.tasks.lookup id' = s.tasks.lookup id'

instance (id : Str) : IsPreorder World (Elsewhere id) where
  refl _ _ _ := rfl
  trans _ _ _ h h' id' hne := (h' id' hne).trans (h id' hne)

/-- Everything but the rows. -/
abbrev beside : List Area := [.events, .wire, .bindings, .agents]

theorem Elsewhere.of_frame {id : Str} (s s' : World) (h : Frame beside s s') : Elsewhere id s s' := by
  intro id' _
  rw [h.rows (by decide)]

instance (priority := low) {id : Str} {α : Type} {x : M α} [hx : Touches beside x] : Tx.Keeps (Elsewhere id) x :=
  Tx.keeps_mono Elsewhere.of_frame hx

theorem elsewhere_insertTask {E : Env} {t : Task} {id : Str} (h : cstr t.id = id) :
    Tx.Keeps (Elsewhere id) (insertTask E t) := by
  refine ⟨fun s => ?_⟩
  unfold insertTask
  refine Tx.ends_lift_bind fun row hrow id' hne => ?_
  show (if E.busy s.writes then s.tasks else s.tasks.insert row.id row).lookup id' = _
  split
  · rfl
  · refine AList.lookup_insert_ne ?_
    rwa [(bindTask_ok hrow).1, h]

/-- A write of one record, with what is announced after it. -/
theorem elsewhere_write {E : Env} {t : Task} {id : Str} {before after : TaskState} (h : cstr t.id = id) :
    Tx.Keeps (Elsewhere id) (do
      updateTask E t
      TaskManager.emitStateChanged t.id before after) :=
  Tx.keeps_bind (h := elsewhere_insertTask h)

/-! ## Listing -/

section Listing

variable {E : Env} {s : World}

/-- The rows of the table are listed once each. -/
theorem rows_pairwise (h : WellKeyed s.tasks) : s.rows.Pairwise fun a b => a.id ≠ b.id := by
  have hkeys := List.nodupKeys_iff_pairwise.1 s.tasks.nodupKeys
  have hrows : (s.tasks.entries.map fun e => e.2).Pairwise fun a b => a.id ≠ b.id := by
    rw [List.pairwise_map]
    refine hkeys.imp_of_mem fun {a b} ha hb hne => ?_
    rw [(h a.1 a.2 (AList.mem_lookup_iff.2 ha)).1, (h b.1 b.2 (AList.mem_lookup_iff.2 hb)).1]
    exact hne
  exact (List.perm_insertionSort _ _).symm.pairwise hrows fun hne => hne.symm

theorem mem_rows (h : WellKeyed s.tasks) {row : Row} : row ∈ s.rows ↔ s.tasks.lookup row.id = some row := by
  unfold World.rows
  rw [List.mem_insertionSort, List.mem_map]
  constructor
  · rintro ⟨e, he, rfl⟩
    have hget := AList.mem_lookup_iff.2 he
    rwa [(h e.1 e.2 hget).1]
  · intro hget
    exact ⟨⟨row.id, row⟩, AList.mem_lookup_iff.1 hget, rfl⟩

/-- A listed task is read from the row of its id. -/
theorem listed_row (h : WellKeyed s.tasks) {b : Bool} {tasks : List Task} {u : World}
    (hlist : listTasks E b s = .ok tasks u) {t : Task} (ht : t ∈ tasks) :
    ∃ row, s.tasks.lookup t.id = some row ∧ taskFromRow E.parse row = t := by
  obtain ⟨rfl, -⟩ := observe_ok.1 hlist
  obtain ⟨row, hrow, rfl⟩ := List.mem_map.1 ht
  have hget := (mem_rows h).1 (List.mem_of_mem_filter hrow)
  refine ⟨row, ?_, rfl⟩
  show s.tasks.lookup (cstr row.id) = some row
  rwa [(h _ _ hget).2]

/-- No two listed tasks have one id. -/
theorem listed_pairwise (h : WellKeyed s.tasks) {b : Bool} {tasks : List Task} {u : World}
    (hlist : listTasks E b s = .ok tasks u) : tasks.Pairwise fun t t' => t.id ≠ t'.id := by
  obtain ⟨rfl, -⟩ := observe_ok.1 hlist
  rw [List.pairwise_map]
  refine ((rows_pairwise h).filter _).imp_of_mem fun {a b} ha hb hne => ?_
  have hida := h _ _ ((mem_rows h).1 (List.mem_of_mem_filter ha))
  have hidb := h _ _ ((mem_rows h).1 (List.mem_of_mem_filter hb))
  show cstr a.id ≠ cstr b.id
  rwa [hida.2, hidb.2]

end Listing

end A2ad
