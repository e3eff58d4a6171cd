/-
The association of a stored task with its agent's: it loses its remote id or its context exactly where
a whole record without one of them takes its place.
-/
import A2ad.Task.Terminal

namespace A2ad.TaskManager

open Bytes Json Client

/-! ## Definitions -/

/-- The stored task can be polled, canceled and answered in its conversation. -/
def Associated (E : Env) (id : Str) (s : World) : Prop :=
  ∃ t, s.task E id = some t ∧ t.remoteTaskId.getD [] ≠ [] ∧ t.context ≠ []

/-- The agent's record names its task and its context, as far as a C string shows them. -/
def Whole (t : Task) : Prop := cstr ((remoteIdOf t).getD []) ≠ [] ∧ cstr t.context ≠ []

/-- A context that counts where it is not empty. -/
def Given (context : Str) : Prop := context = [] ∨ cstr context ≠ []

/-- What an accepted result hands on names the task and its context; a message in answer to a response
may leave the context out. -/
def Operation.Names (r : A2AResult) : Operation → Prop
  | .create _ => True
  | .respond _ _ _ =>
    match r.task with
    | some t => Whole t
    | none => r.message ≠ none → Given r.contextId
  | _ => ∀ t, r.task = some t → Whole t

/-- What is delivered names the task and its context; a partial update may leave the context out. -/
def Delivery.Names : Delivery → Prop
  | reply op r => r.ok = true → op.Names r
  | event remote e => ∀ u, decodeUpdate remote e = .ok (some u) → if u.partialUpdate then Given u.context else Whole u
  | other => True

/-! ## Links -/

/-- The record still has a remote id and a context when it has been stored. -/
def Linked (t : Task) : Prop := cstr (t.remoteTaskId.getD []) ≠ [] ∧ cstr t.context ≠ []

section Links

variable {E : Env} {id : Str} {s s' : World} {existing : Task}

theorem linked_bound {parse : Str → Option J} {new : Task} {row : Row} (h : bindTask parse new = .ok row) :
    ((taskFromRow parse row).remoteTaskId.getD [] ≠ [] ∧ (taskFromRow parse row).context ≠ []) ↔ Linked new := by
  obtain ⟨-, hremote, -, hcontext, -⟩ := bindTask_ok h
  have hread : (taskFromRow parse row).remoteTaskId.getD [] = cstr (new.remoteTaskId.getD []) := by
    show (row.remoteTaskId.map cstr).getD [] = _
    rw [hremote]
    cases new.remoteTaskId with
    | none => rfl
    | some r =>
      cases r with
      | nil => rfl
      | cons b r => exact cstr_cstr (b :: r)
  have hreadContext : (taskFromRow parse row).context = cstr new.context := by
    show cstr row.contextId = _
    rw [hcontext, cstr_cstr]
  rw [hread, hreadContext]
  rfl

/-- A stored task is associated where it is linked. -/
theorem associated_iff (hstored : s.task E id = some existing) : Associated E id s ↔ Linked existing := by
  obtain ⟨row, -, rfl⟩ := Option.map_eq_some_iff.1 hstored
  have hcontext : cstr (taskFromRow E.parse row).context = (taskFromRow E.parse row).context := cstr_cstr _
  have hremote : cstr ((taskFromRow E.parse row).remoteTaskId.getD []) = (taskFromRow E.parse row).remoteTaskId.getD [] := by
    show cstr ((row.remoteTaskId.map cstr).getD []) = (row.remoteTaskId.map cstr).getD []
    cases row.remoteTaskId with
    | none => rfl
    | some r => exact cstr_cstr r
  unfold Associated Linked
  rw [hstored, hcontext, hremote]
  simp

/-- A context that is taken over only where it is given. -/
theorem given_iff {own : Str} (hown : cstr own ≠ []) (context : Str) :
    cstr (if context.isEmpty then own else context) ≠ [] ↔ Given context := by
  unfold Given
  cases context with
  | nil => simp [hown]
  | cons b context => simp

theorem linked_respondedTask (hlinked : Linked existing) (r : A2AResult) :
    Linked (respondedTask existing r) ↔ (Operation.respond [] [] []).Names r := by
  unfold respondedTask Operation.Names
  cases r.task with
  | some t => exact Iff.rfl
  | none =>
    cases r.message with
    | none => simp [hlinked]
    | some m =>
      have hcontext := given_iff hlinked.2 r.contextId
      constructor
      · intro h _
        exact hcontext.1 h.2
      · intro h
        exact ⟨hlinked.1, hcontext.2 (h (by simp))⟩

/-- A whole update takes the place of the record, a partial one keeps what it leaves out. -/
theorem linked_mergeUpdate (hlinked : Linked existing) {update merged : Task} (h : mergeUpdate existing update = .ok merged) :
    Linked merged ↔ if update.partialUpdate then Given update.context else Whole update := by
  unfold mergeUpdate at h
  cases hpart : update.partialUpdate with
  | false =>
    rw [hpart] at h
    obtain ⟨t, ht, h⟩ := Tx.except_bind_ok h
    cases ht
    cases h
    exact Iff.rfl
  | true =>
    rw [hpart] at h
    obtain ⟨t, ht, h⟩ := Tx.except_bind_ok h
    cases h
    have hkept : t.remoteTaskId = existing.remoteTaskId ∧
        t.context = if update.context.isEmpty then existing.context else update.context := by
      unfold mergePartial at ht
      obtain ⟨metadata, -, ht⟩ := Tx.except_bind_ok ht
      cases hhas : update.hasStateUpdate <;> rw [hhas] at ht <;> cases ht <;> exact ⟨rfl, rfl⟩
    have hremote : (t.remoteTaskId <|> some update.id) = existing.remoteTaskId := by
      rw [hkept.1]
      cases hex : existing.remoteTaskId with
      | none => exact absurd (by rw [hex]; rfl) hlinked.1
      | some r => rfl
    show cstr ((t.remoteTaskId <|> some update.id).getD []) ≠ [] ∧ cstr t.context ≠ [] ↔ _
    rw [hremote, hkept.2, given_iff hlinked.2 update.context]
    simp [hlinked.1]

/-- The record that is made is linked exactly where the delivery names what it hands on. -/
theorem Processed.linked {a : Arrival} (h : Processed E id s a s') (hstored : s.task E id = some existing)
    (hlinked : Linked existing) : Linked ((a.delivery.record existing).getD existing) ↔ a.delivery.Names := by
  cases h with
  | other => exact iff_of_true hlinked trivial
  | @reply _ v op r time hon =>
    cases hok : r.ok with
    | false =>
      rw [record_failed hok]
      exact iff_of_true hlinked fun htrue => by rw [hok] at htrue; cases htrue
    | true =>
      rw [record_accepted hok]
      have hnames : (Delivery.reply op r).Names ↔ op.Names r := ⟨fun h => h hok, fun h _ => h⟩
      rw [hnames]
      cases op with
      | create req => exact hon.elim
      | respond taskId text requestId => exact linked_respondedTask hlinked r
      | cancel taskId | refresh taskId | reconcile t =>
        unfold Operation.record Operation.Names
        cases r.task with
        | none => exact iff_of_true hlinked fun _ h => by cases h
        | some t => exact ⟨fun h _ ht => (by cases ht; exact h), fun h => h t rfl⟩
  | @event _ remote e u time hdecode hrun =>
    rcases wrote_onSubscribed hrun with ⟨hnone, -⟩ | ⟨t, merged, updated, ht, hmerge, -⟩
    · rw [hstored] at hnone
      cases hnone
    · obtain rfl := Option.some.inj (hstored.symm.trans ht)
      have hnames : (Delivery.event remote e).Names ↔ if u.partialUpdate then Given u.context else Whole u := by
        constructor
        · intro h
          exact h u hdecode
        · intro h u' hu'
          rw [hdecode] at hu'
          cases hu'
          exact h
      rw [hnames, ← linked_mergeUpdate hlinked hmerge]
      simp only [Delivery.record, hdecode, hmerge, Except.toOption, Option.getD_some]

end Links

/-! ## Runs -/

section Runs

variable {E : Env} {id : Str} {s s' : World} {a : Arrival}

theorem associated_step (h : Processed E id s a s') (hkey : KeyedAt id s) :
    (Associated E id s → Associated E id s') ↔ (Associated E id s → E.busy s.writes = true ∨ a.delivery.Names) := by
  refine imp_congr_right fun hassociated => ?_
  obtain ⟨existing, hstored, hlinks⟩ := hassociated
  have hassociated : Associated E id s := ⟨existing, hstored, hlinks⟩
  have hlinked := (associated_iff hstored).1 hassociated
  have hsame : s'.tasks.lookup (cstr id) = s.tasks.lookup (cstr id) → Associated E id s' := by
    intro hlookup
    rw [Associated, World.task, hlookup]
    exact hassociated
  have hnames := h.linked hstored hlinked
  rcases h.records hstored with ⟨hnone, hlookup⟩ | ⟨new, hwrote, halike⟩
  · rw [hnone] at hnames
    exact iff_of_true (hsame hlookup) (.inr (hnames.1 hlinked))
  · have hid : cstr new.id = cstr id := by rw [halike.id, record_id, id_of_stored hkey hstored]
    rcases hwrote.stored hid with ⟨hbusy, hrows⟩ | ⟨hfree, row, hrow, hlookup⟩
    · exact iff_of_true (hsame (by rw [hrows])) (.inl hbusy)
    · have hread : s'.task E id = some (taskFromRow E.parse row) := by rw [World.task, hlookup]; rfl
      have hafter : Associated E id s' ↔ Linked new := by
        rw [← linked_bound hrow, Associated, hread]
        simp
      have hnew : Linked new ↔ Linked ((a.delivery.record existing).getD existing) := by
        unfold Linked
        rw [halike.remoteTaskId, halike.context]
      rw [hafter, hnew, hnames, hfree]
      simp

/-- A stored task keeps its remote id and its context in exactly those runs in which everything that is
processed while the database is free names them: whole records both, partial updates and messages no
context that shows as empty. -/
theorem association_kept (E : Env) (id : Str) {s₀ s : World} {tr : List (Move World Arrival)}
    (hkey : KeyedAt id s₀) (hrun : Run (Processed E id) s₀ tr s) :
    (∀ m ∈ tr, Associated E id m.pre → Associated E id m.post) ↔
      ∀ m ∈ tr, Associated E id m.pre → E.busy m.pre.writes = true ∨ m.label.delivery.Names :=
  forall₂_congr fun _ hm => associated_step (hrun.mem_step hm) (keyed_pre hkey hrun hm)

end Runs

/-! ## A task without its context -/

/-- A task underway in a conversation. -/
def conversing : World := .offline overtakenEnv [{ underway [] with context := "context-3" }]

/-- The agent's task, whose context is left out. -/
def wholeEvent : J := .object [("id", .str "remote-7"), ("status", .object [("state", .str "TASK_STATE_WORKING")])]

def wholeUpdate : Task where
  id := "remote-7"
  remoteTaskId := some (lit "remote-7")
  state := .working

def detached : World := Tx.endState (onSubscribed overtakenEnv "local-1" wholeUpdate conversing)

def conversed : World := Tx.endState (onSubscribed overtakenEnv "local-1" completedUpdate conversing)

theorem keyed_conversing : KeyedAt "local-1" conversing := by
  intro row hrow
  have hid : (conversing.tasks.lookup (cstr "local-1")).map Row.id = some (cstr "local-1") := by decide +kernel
  rw [hrow] at hid
  exact Option.some.inj hid

theorem associated_conversing : Associated overtakenEnv "local-1" conversing := by
  have hlinks : (conversing.task overtakenEnv "local-1").map (fun t => (t.remoteTaskId.getD [], t.context)) =
      some (lit "remote-7", lit "context-3") := by decide +kernel
  obtain ⟨t, ht, hpair⟩ := Option.map_eq_some_iff.1 hlinks
  obtain ⟨hremote, hcontext⟩ := Prod.mk.inj hpair
  refine ⟨t, ht, ?_, ?_⟩
  · rw [hremote]
    decide
  · rw [hcontext]
    decide

/-- A stream event that holds the task without its context erases the stored one. -/
theorem whole_event_detaches : ∃ tr s, Run (Processed overtakenEnv "local-1") conversing tr s ∧
    ¬ ∀ m ∈ tr, Associated overtakenEnv "local-1" m.pre → Associated overtakenEnv "local-1" m.post := by
  have hprocessed : Processed overtakenEnv "local-1" conversing ⟨.event "remote-7" wholeEvent, 0⟩ detached :=
    .event (u := wholeUpdate) rfl (Tx.ok_of_result (a := ()) (by decide +kernel))
  refine ⟨_, _, Run.nil.snoc hprocessed, fun hkept => ?_⟩
  obtain ⟨t, ht, -, hcontext⟩ := hkept _ (List.mem_singleton_self _) associated_conversing
  have herased : (detached.task overtakenEnv "local-1").map (fun t => t.context) = some [] := by decide +kernel
  obtain ⟨t', ht', hempty⟩ := Option.map_eq_some_iff.1 herased
  obtain rfl := Option.some.inj (ht.symm.trans ht')
  exact hcontext hempty

/-- A status update leaves the context out and keeps it. -/
theorem association_kept_completed : Associated overtakenEnv "local-1" conversed := by
  have hprocessed : Processed overtakenEnv "local-1" conversing ⟨.event "remote-7" completedEvent, 0⟩ conversed :=
    .event (u := completedUpdate) rfl (Tx.ok_of_result (a := ()) (by decide +kernel))
  have hnamed : ∀ m ∈ [(⟨conversing, ⟨.event "remote-7" completedEvent, 0⟩, conversed⟩ : Move World Arrival)],
      Associated overtakenEnv "local-1" m.pre → overtakenEnv.busy m.pre.writes = true ∨ m.label.delivery.Names := by
    intro m hm _
    right
    rw [List.mem_singleton.1 hm]
    intro u hu
    cases hu
    exact .inl rfl
  have hkept := (association_kept overtakenEnv "local-1" keyed_conversing (Run.nil.snoc hprocessed)).2 hnamed
  have hafter := hkept _ (List.mem_singleton_self _) associated_conversing
  dsimp only at hafter
  exact hafter

end A2ad.TaskManager
