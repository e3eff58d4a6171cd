/-
Terminal states under replies and stream events that overtake each other: a stored task leaves a
terminal state exactly where a payload is processed that comes from before the end of the agent's
own task, or that leaves its state out.
-/
import A2ad.Task.Delivery
import A2ad.Task.Failure

namespace A2ad.TaskManager

open Bytes Json Client

/-! ## What payloads say -/

/-- The state that a task or a status update says it is in. -/
def saidBy (j : J) : Option TaskState :=
  match j.get? "status" with
  | some (.obj fields) =>
    match (J.obj fields).get? "state" with
    | some (.str s) => parseTaskStateWire s
    | _ => none
  | _ => none

/-- A task that says no state is taken for one just submitted, or in an unknown state. -/
theorem state_parseTask {j : J} {t : Task} (h : parseTask j = .ok (some t)) :
    (∀ st, saidBy j = some st → t.state = st) ∧ (saidBy j = none → t.state.isTerminal = false) := by
  unfold parseTask at h
  split at h
  · obtain ⟨context, -, h⟩ := Tx.except_bind_ok h
    obtain ⟨status, hstatus, h⟩ := Tx.except_bind_ok h
    obtain ⟨history, -, h⟩ := Tx.except_bind_ok h
    obtain ⟨artifacts, -, h⟩ := Tx.except_bind_ok h
    cases h
    show (∀ st, saidBy j = some st → status.state = st) ∧ (saidBy j = none → status.state.isTerminal = false)
    unfold statusAt at hstatus
    split at hstatus
    · rename_i fields hget
      unfold saidBy
      rw [hget]
      unfold parseStatus at hstatus
      obtain ⟨text, htext, hstatus⟩ := Tx.except_bind_ok hstatus
      have hstate : status.state = (parseTaskStateWire text).getD .unknown := by
        dsimp only at hstatus
        split at hstatus
        · obtain ⟨message, -, hstatus⟩ := Tx.except_bind_ok hstatus
          obtain ⟨timestamp, -, hstatus⟩ := Tx.except_bind_ok hstatus
          cases hstatus
          rfl
        · obtain ⟨timestamp, -, hstatus⟩ := Tx.except_bind_ok hstatus
          cases hstatus
          rfl
        · obtain ⟨timestamp, -, hstatus⟩ := Tx.except_bind_ok hstatus
          cases hstatus
          rfl
      rw [hstate]
      rcases (J.valueStr_ok.1 htext).2 with hs | ⟨hs, rfl⟩
      · simp only [hs]
        cases parseTaskStateWire text <;> simp [TaskState.isTerminal]
      · simp only [hs]
        refine ⟨fun st hst => (by cases hst), fun _ => by decide⟩
    · rename_i hno
      cases hstatus
      unfold saidBy
      split
      · rename_i fields hget
        exact absurd hget (hno fields)
      · exact ⟨fun st hst => (by cases hst), fun _ => rfl⟩
  · cases h

/-! ## Deliveries -/

namespace Delivery

/-- The state the agent says the task is in. -/
def said : Delivery → Option TaskState
  | reply _ r =>
    match payload r.value with
    | .task j => saidBy j
    | _ => none
  | event _ e =>
    match parseTask (carrier e) with
    | .ok (some _) => saidBy (carrier e)
    | _ => ((e.get? "statusUpdate").filter J.isObject).bind saidBy
  | other => none

/-- The state the delivery is decoded to, if it carries one. A message in answer to a response
finishes the task. -/
def decoded : Delivery → Option TaskState
  | reply op r =>
    if r.ok then
      match r.task, r.message, op with
      | some t, _, _ => some t.state
      | none, some _, .respond _ _ _ => some .completed
      | _, _, _ => none
    else none
  | event remote e =>
    match decodeUpdate remote e with
    | .ok (some u) => if u.partialUpdate && !u.hasStateUpdate then none else some u.state
    | _ => none
  | other => none

/-- A message in answer to a response, which tells of no task at all. -/
def answers : Delivery → Bool
  | reply _ r => r.task.isNone
  | _ => false

end Delivery

/-- The agent's own task never leaves a terminal state. -/
def Final (history : Nat → TaskState) : Prop :=
  ∀ n m, n ≤ m → (history n).isTerminal = true → (history m).isTerminal = true

/-- What the agent says of its task was so when it said it. -/
def Truthful (history : Nat → TaskState) (a : Arrival) : Prop :=
  ∀ st, a.delivery.said = some st → st = history a.time

def Ended (E : Env) (id : Str) (s : World) : Prop := ∃ t, s.task E id = some t ∧ t.state.isTerminal = true

/-- Where the stored task has ended, what is processed carries no state, or finishes the task again,
or says a state that the agent's own task had when it had ended. -/
def Timely (E : Env) (id : Str) (history : Nat → TaskState) (s : World) (a : Arrival) : Prop :=
  Ended E id s → E.busy s.writes = true ∨ a.delivery.decoded = none ∨ a.delivery.answers = true ∨
    a.delivery.said ≠ none ∧ (history a.time).isTerminal = true

/-! ## What is decoded -/

/-- A status update says what its `status` says. -/
theorem state_statusTask {remote : Str} {update : J} {u : Task} (h : statusTask remote update = .ok (some u)) :
    (∀ st, saidBy update = some st → u.state = st) ∧ (saidBy update = none → u.state.isTerminal = false) := by
  unfold statusTask at h
  obtain ⟨id, -, h⟩ := Tx.except_bind_ok h
  obtain ⟨context, -, h⟩ := Tx.except_bind_ok h
  obtain ⟨status, hstatus, h⟩ := Tx.except_bind_ok h
  obtain ⟨task, htask, h⟩ := Tx.except_bind_ok h
  cases task with
  | none => cases h
  | some t =>
    cases h
    have hsaid : saidBy (.object [("id", .str id), ("contextId", .str context), ("status", status)]) = saidBy update := by
      unfold saidBy
      rcases (J.value_ok.1 hstatus).2 with ⟨v, hget, hv⟩ | ⟨hget, rfl⟩
      · cases hv
        simp [hget]
      · simp [hget]
    show (∀ st, saidBy update = some st → t.state = st) ∧ (saidBy update = none → t.state.isTerminal = false)
    rw [← hsaid]
    exact state_parseTask htask

theorem hints_artifactTask {remote : Str} {update : J} {u : Task} (h : artifactTask remote update = .ok (some u)) :
    u.partialUpdate = true ∧ u.hasStateUpdate = false := by
  unfold artifactTask at h
  obtain ⟨id, -, h⟩ := Tx.except_bind_ok h
  obtain ⟨context, -, h⟩ := Tx.except_bind_ok h
  obtain ⟨artifact, -, h⟩ := Tx.except_bind_ok h
  obtain ⟨task, -, h⟩ := Tx.except_bind_ok h
  obtain ⟨append, -, h⟩ := Tx.except_bind_ok h
  cases task with
  | none => cases h
  | some t =>
    cases h
    exact ⟨rfl, rfl⟩

theorem hints_messageTask {j : J} {u : Task} (h : messageTask j = .ok (some u)) :
    u.partialUpdate = true ∧ u.hasStateUpdate = false := by
  unfold messageTask at h
  obtain ⟨m, -, h⟩ := Tx.except_bind_ok h
  split at h
  · cases h
  · cases h
    exact ⟨rfl, rfl⟩

/-- The state an event is decoded to is the one it says, where it says one, and not terminal elsewhere. -/
theorem state_event {remote : Str} {e : J} {u : Task} (h : decodeUpdate remote e = .ok (some u))
    (hstate : (u.partialUpdate && !u.hasStateUpdate) = false) :
    (∀ st, (Delivery.event remote e).said = some st → u.state = st) ∧
      ((Delivery.event remote e).said = none → u.state.isTerminal = false) := by
  unfold decodeUpdate at h
  obtain ⟨task, htask, h⟩ := Tx.except_bind_ok h
  simp only [Delivery.said, htask]
  cases task with
  | some t =>
    cases h
    exact state_parseTask htask
  | none =>
    simp only [orObject] at h
    split at h
    · rename_i fields hget
      have hsaid : ((e.get? "statusUpdate").filter J.isObject).bind saidBy = saidBy (.obj fields) := by
        rw [hget]
        rfl
      rw [hsaid]
      exact state_statusTask h
    · split at h
      · obtain ⟨hdelta, hhas⟩ := hints_artifactTask h
        rw [hdelta, hhas] at hstate
        cases hstate
      · split at h
        · obtain ⟨hdelta, hhas⟩ := hints_messageTask h
          rw [hdelta, hhas] at hstate
          cases hstate
        · cases h

/-- What a delivery is decoded to, next to what it says. -/
theorem decoded_reply {E : Env} {op : Operation} {r : A2AResult} {u v : World} {st : TaskState} (h : op.Calls E u r v)
    (hst : (Delivery.reply op r).decoded = some st) :
    (Delivery.reply op r).answers = true ∧ st.isTerminal = true ∨
      (Delivery.reply op r).answers = false ∧ (∀ x, (Delivery.reply op r).said = some x → st = x) ∧
        ((Delivery.reply op r).said = none → st.isTerminal = false) := by
  simp only [Delivery.decoded] at hst
  split at hst
  · rename_i hok
    cases h.accepted hok with
    | tasks items _ htask hmessage =>
      simp only [htask, hmessage] at hst
      cases hst
    | task j t hpayload hparse htask hmessage =>
      simp only [htask] at hst
      cases hst
      refine .inr ⟨by rw [Delivery.answers, htask]; rfl, ?_⟩
      simp only [Delivery.said, hpayload]
      exact state_parseTask hparse
    | message j m _ _ _ htask hmessage =>
      simp only [htask, hmessage] at hst
      refine .inl ⟨by rw [Delivery.answers, htask]; rfl, ?_⟩
      cases op with
      | respond taskId text requestId =>
        cases hst
        rfl
      | _ => cases hst
    | other _ _ htask hmessage =>
      simp only [htask, hmessage] at hst
      cases hst
  · cases hst

/-! ## What is stored -/

section Stored

variable {E : Env} {id : Str} {s s' v : World} {new existing : Task}

/-- The record of the task is replaced by one in the state `st`, unless the database is busy. -/
structure Stores (E : Env) (id : Str) (st : TaskState) (s s' : World) : Prop where
  busy : E.busy s.writes = true → s'.tasks = s.tasks
  free : E.busy s.writes = false → ∃ t, s'.task E id = some t ∧ t.state = st
  keyed : KeyedAt id s → KeyedAt id s'

theorem Wrote.stores (h : Wrote E new s s') (hid : cstr new.id = cstr id) : Stores E id new.state s s' := by
  rcases h.stored hid with ⟨hbusy, hsame⟩ | ⟨hfree, row, hrow, hlookup⟩
  · exact ⟨fun _ => hsame, fun hfree => (by rw [hbusy] at hfree; cases hfree),
      fun hkey => by unfold KeyedAt; rwa [hsame]⟩
  · refine ⟨fun hbusy => (by rw [hfree] at hbusy; cases hbusy), fun _ => ⟨taskFromRow E.parse row, ?_, state_of_bindTask hrow⟩, ?_⟩
    · rw [World.task, hlookup, Option.map_some]
    · intro _ row' hrow'
      rw [hlookup] at hrow'
      cases hrow'
      exact (bindTask_ok hrow).1.trans hid

theorem mergeUpdate_ok {update merged : Task} (h : mergeUpdate existing update = .ok merged) :
    merged.state = if update.partialUpdate && !update.hasStateUpdate then existing.state else update.state := by
  unfold mergeUpdate at h
  cases hdelta : update.partialUpdate with
  | false =>
    rw [hdelta] at h
    obtain ⟨t, ht, h⟩ := Tx.except_bind_ok h
    cases ht
    cases h
    rfl
  | true =>
    rw [hdelta] at h
    obtain ⟨t, ht, h⟩ := Tx.except_bind_ok h
    cases h
    show t.state = _
    unfold mergePartial at ht
    obtain ⟨metadata, -, ht⟩ := Tx.except_bind_ok ht
    cases hhas : update.hasStateUpdate with
    | false =>
      rw [hhas] at ht
      cases ht
      rfl
    | true =>
      rw [hhas] at ht
      cases ht
      rfl

/-- The stored task after a delivery: it stays, where the delivery carries no state, or it is replaced
by a record in the state that the delivery is decoded to. -/
def Follows (E : Env) (id : Str) (existing : Task) (d : Delivery) (s s' : World) : Prop :=
  d.decoded = none ∧ s'.tasks.lookup (cstr id) = s.tasks.lookup (cstr id) ∨
    Stores E id (d.decoded.getD existing.state) s s'

/-- A result is decoded to the state of the record that is made of it. -/
theorem decoded_record {op : Operation} {r : A2AResult} (hop : ∀ req, op ≠ .create req) :
    (Delivery.reply op r).decoded.getD existing.state = (((Delivery.reply op r).record existing).getD existing).state ∧
      ((Delivery.reply op r).record existing = none → (Delivery.reply op r).decoded = none) := by
  cases hok : r.ok with
  | false => simp [Delivery.decoded, Delivery.record, hok]
  | true =>
    rw [record_accepted hok]
    simp only [Delivery.decoded, hok, if_true]
    cases op with
    | create req => exact absurd rfl (hop req)
    | respond taskId text requestId =>
      simp only [Operation.record, respondedTask]
      cases r.task <;> cases r.message <;> simp [replaced, keepLocal]
    | cancel taskId | refresh taskId | reconcile t =>
      simp only [Operation.record]
      cases r.task <;> cases r.message <;> simp [replaced, keepLocal, reconciledTask]

theorem Processed.decoded_record {a : Arrival} (h : Processed E id s a s') (hstored : s.task E id = some existing) :
    a.delivery.decoded.getD existing.state = ((a.delivery.record existing).getD existing).state ∧
      (a.delivery.record existing = none → a.delivery.decoded = none) := by
  cases h with
  | other => exact ⟨rfl, fun _ => rfl⟩
  | reply hon =>
    refine TaskManager.decoded_record ?_
    rintro req rfl
    exact hon
  | @event _ remote e u time hdecode hrun =>
    rcases wrote_onSubscribed hrun with ⟨hnone, -⟩ | ⟨t, merged, updated, ht, hmerge, -⟩
    · rw [hstored] at hnone
      cases hnone
    · obtain rfl := Option.some.inj (hstored.symm.trans ht)
      simp only [Delivery.decoded, Delivery.record, hdecode, hmerge, Except.toOption, Option.getD_some, mergeUpdate_ok hmerge]
      refine ⟨?_, fun hnone => by cases hnone⟩
      split <;> rfl

/-- Every delivery is followed by the stored task. -/
theorem Processed.follows {a : Arrival} (h : Processed E id s a s') (hkey : KeyedAt id s)
    (hstored : s.task E id = some existing) : Follows E id existing a.delivery s s' := by
  have hid : cstr ((a.delivery.record existing).getD existing).id = cstr id := by
    rw [record_id, id_of_stored hkey hstored]
  obtain ⟨hstate, hnone⟩ := h.decoded_record hstored
  rcases h.records hstored with ⟨hrecord, hsame⟩ | ⟨new, hwrote, halike⟩
  · exact .inl ⟨hnone hrecord, hsame⟩
  · refine .inr ?_
    rw [hstate, ← halike.state]
    exact hwrote.stores (by rw [halike.id, hid])

end Stored

/-! ## Runs -/

section Runs

variable {E : Env} {id : Str} {history : Nat → TaskState} {s s' : World} {a : Arrival}

theorem KeyedAt.processed (hkey : KeyedAt id s) (h : Processed E id s a s') : KeyedAt id s' := by
  cases hstored : s.task E id with
  | none =>
    intro row hrow
    rw [h.unstored hstored] at hrow
    exact hkey row hrow
  | some existing =>
    rcases h.follows hkey hstored with ⟨-, hsame⟩ | hstores
    · intro row hrow
      rw [hsame] at hrow
      exact hkey row hrow
    · exact hstores.keyed hkey

theorem keyed_pre {s₀ : World} {tr : List (Move World Arrival)} (hkey : KeyedAt id s₀)
    (hrun : Run (Processed E id) s₀ tr s) {m : Move World Arrival} (hm : m ∈ tr) : KeyedAt id m.pre :=
  hrun.invariant_pre (I := KeyedAt id) hkey (fun _ _ _ hpre hstep => hpre.processed hstep) hm

/-- What a delivery is decoded to, next to what the agent says. -/
theorem Processed.decoded (h : Processed E id s a s') {st : TaskState} (hst : a.delivery.decoded = some st) :
    a.delivery.answers = true ∧ st.isTerminal = true ∨
      a.delivery.answers = false ∧ (∀ x, a.delivery.said = some x → st = x) ∧
        (a.delivery.said = none → st.isTerminal = false) := by
  cases h with
  | other => cases hst
  | reply hon hcall hrun => exact decoded_reply hcall hst
  | @event _ remote e u time hdecode hrun =>
    refine .inr ⟨rfl, ?_⟩
    simp only [Delivery.decoded, hdecode] at hst
    split at hst
    · cases hst
    · rename_i hhints
      cases hst
      exact state_event hdecode (by simpa using hhints)

/-- Processing one delivery keeps an ended task ended exactly where the delivery is timely. -/
theorem ended_step (h : Processed E id s a s') (hkey : KeyedAt id s) (htruth : Truthful history a) :
    (Ended E id s → Ended E id s') ↔ Timely E id history s a := by
  refine imp_congr_right fun ⟨existing, hstored, hterminal⟩ => ?_
  have hsame : s'.tasks.lookup (cstr id) = s.tasks.lookup (cstr id) → Ended E id s' := by
    intro hlookup
    refine ⟨existing, ?_, hterminal⟩
    rw [← hstored, World.task, World.task, hlookup]
  rcases h.follows hkey hstored with ⟨hnone, hlookup⟩ | hstores
  · exact iff_of_true (hsame hlookup) (.inr (.inl hnone))
  · cases hbusy : E.busy s.writes with
    | true => exact iff_of_true (hsame (by rw [hstores.busy hbusy])) (.inl rfl)
    | false =>
      obtain ⟨t, ht, hstate⟩ := hstores.free hbusy
      have hended : Ended E id s' ↔ t.state.isTerminal = true := by
        unfold Ended
        rw [ht]
        simp
      rw [hended, hstate]
      cases hdecoded : a.delivery.decoded with
      | none => exact iff_of_true hterminal (.inr (.inl rfl))
      | some st =>
        rw [Option.getD_some]
        rcases h.decoded hdecoded with ⟨hanswers, hst⟩ | ⟨hanswers, hsaid, hunsaid⟩
        · exact iff_of_true hst (.inr (.inr (.inl hanswers)))
        · cases hspoken : a.delivery.said with
          | none => simp [hunsaid hspoken, hanswers]
          | some x => simp [hsaid x hspoken, htruth x hspoken, hanswers]

/-- Terminal states are absorbing in exactly those runs in which, once the stored task has ended, no
payload is processed that comes from before the end of the agent's own task or leaves its state out. -/
theorem terminal_absorbing (E : Env) (id : Str) (history : Nat → TaskState) {s₀ s : World} {tr : List (Move World Arrival)}
    (hkey : KeyedAt id s₀) (hrun : Run (Processed E id) s₀ tr s) (htruth : ∀ m ∈ tr, Truthful history m.label) :
    (∀ m ∈ tr, Ended E id m.pre → Ended E id m.post) ↔ ∀ m ∈ tr, Timely E id history m.pre m.label := by
  refine forall₂_congr fun m hm => ?_
  exact ended_step (hrun.mem_step hm) (keyed_pre hkey hrun hm) (htruth m hm)

/-- The arrivals keep the order in which the agent made them, and each that carries a state says it, or
answers in place of a task that has ended. -/
structure InOrder (history : Nat → TaskState) (tr : List (Move World Arrival)) : Prop where
  times : tr.Pairwise fun m m' => m.label.time ≤ m'.label.time
  stated : ∀ m ∈ tr, m.label.delivery.decoded ≠ none →
    m.label.delivery.answers = false ∧ m.label.delivery.said ≠ none ∨
      m.label.delivery.answers = true ∧ (history m.label.time).isTerminal = true

/-- A stored task that ends is a task the agent has ended. -/
theorem ended_by_agent (h : Processed E id s a s') (hkey : KeyedAt id s) (htruth : Truthful history a)
    (hspoken : a.delivery.decoded ≠ none → a.delivery.answers = false ∧ a.delivery.said ≠ none ∨
      a.delivery.answers = true ∧ (history a.time).isTerminal = true)
    (hbefore : ¬ Ended E id s) (hafter : Ended E id s') : (history a.time).isTerminal = true := by
  obtain ⟨t, ht, hterminal⟩ := hafter
  have hmoved : s'.tasks.lookup (cstr id) ≠ s.tasks.lookup (cstr id) := by
    intro hsame
    refine hbefore ⟨t, ?_, hterminal⟩
    rw [← ht, World.task, World.task, hsame]
  cases hstored : s.task E id with
  | none => exact absurd (h.unstored hstored) hmoved
  | some existing =>
    rcases h.follows hkey hstored with ⟨-, hsame⟩ | hstores
    · exact absurd hsame hmoved
    · cases hbusy : E.busy s.writes with
      | true => exact absurd (by rw [hstores.busy hbusy]) hmoved
      | false =>
        obtain ⟨t', ht', hstate⟩ := hstores.free hbusy
        obtain rfl := Option.some.inj (ht.symm.trans ht')
        cases hdecoded : a.delivery.decoded with
        | none =>
          rw [hdecoded, Option.getD_none] at hstate
          exact absurd ⟨existing, hstored, hstate ▸ hterminal⟩ hbefore
        | some st =>
          rw [hdecoded, Option.getD_some] at hstate
          rcases hspoken (by rw [hdecoded]; exact Option.some_ne_none st) with ⟨hanswers, hsaid⟩ | ⟨-, hended⟩
          · rcases h.decoded hdecoded with ⟨htrue, -⟩ | ⟨-, hspoken, -⟩
            · rw [hanswers] at htrue
              cases htrue
            · obtain ⟨x, hx⟩ := Option.ne_none_iff_exists'.1 hsaid
              rw [← htruth x hx, ← hspoken x hx, ← hstate]
              exact hterminal
          · exact hended

/-- In order, every delivery of an agent that never takes back an end is timely. -/
theorem timely_of_inOrder (hfinal : Final history) {s₀ : World} {tr : List (Move World Arrival)} (hkey : KeyedAt id s₀)
    (hstart : ¬ Ended E id s₀) (hrun : Run (Processed E id) s₀ tr s) (htruth : ∀ m ∈ tr, Truthful history m.label)
    (horder : InOrder history tr) : ∀ m ∈ tr, Timely E id history m.pre m.label := by
  have hagent : ∀ before s, Run (Processed E id) s₀ before s → (∀ m ∈ before, m ∈ tr) → Ended E id s →
      ∃ m ∈ before, (history m.label.time).isTerminal = true := by
    intro before s hbefore
    refine Run.invariant_of (I := fun before s => (∀ m ∈ before, m ∈ tr) → Ended E id s →
      ∃ m ∈ before, (history m.label.time).isTerminal = true) (fun _ hended => absurd hended hstart) ?_ hbefore
    intro before s a s' hrest ih hstep hmem hended
    by_cases hpre : Ended E id s
    · obtain ⟨m, hm, hterminal⟩ := ih (fun m hm => hmem m (List.mem_append_left _ hm)) hpre
      exact ⟨m, List.mem_append_left _ hm, hterminal⟩
    · have hlast : (⟨s, a, s'⟩ : Move World Arrival) ∈ before ++ [⟨s, a, s'⟩] := by simp
      refine ⟨_, hlast, ?_⟩
      have hkeyed : KeyedAt id s := keyed_pre hkey (hrest.snoc hstep) hlast
      exact ended_by_agent hstep hkeyed (htruth _ (hmem _ hlast)) (horder.stated _ (hmem _ hlast)) hpre hended
  intro m hm hended
  obtain ⟨before, after, rfl⟩ := List.append_of_mem hm
  obtain ⟨m', hm', hterminal⟩ := hagent before m.pre hrun.split.1 (fun x hx => List.mem_append_left _ hx) hended
  obtain ⟨-, -, hcross⟩ := List.pairwise_append.1 horder.times
  have hlate := hfinal _ _ (hcross m' hm' m List.mem_cons_self) hterminal
  by_cases hdecoded : m.label.delivery.decoded = none
  · exact .inr (.inl hdecoded)
  · rcases horder.stated m hm hdecoded with ⟨-, hsaid⟩ | ⟨hanswers, -⟩
    · exact .inr (.inr (.inr ⟨hsaid, hlate⟩))
    · exact .inr (.inr (.inl hanswers))

end Runs

/-! ## A reply overtaken by a stream event -/

/-- An agent that works on its task at first and has then completed it. -/
def agentHistory (n : Nat) : TaskState := if n = 0 then .working else .completed

def completedEvent : J := .object [("statusUpdate", .object [("taskId", .str "remote-7"),
  ("status", .object [("state", .str "TASK_STATE_COMPLETED")])])]

def workingReply : J := .object [("jsonrpc", .str "2.0"), ("id", .str "1"), ("result", .object [("id", .str "remote-7"),
  ("status", .object [("state", .str "TASK_STATE_WORKING")])])]

/-- The reply to the first call was made before the agent had completed its task. -/
def overtakenEnv : Env := { Env.offline [workingReply] with http := fun _ _ => { status := 200, body := workingReply.text } }

def overtakenStart : World := .offline overtakenEnv [underway []]

/-- The update of the event. -/
def completedUpdate : Task where
  id := "remote-7"
  remoteTaskId := some (lit "remote-7")
  state := .completed
  partialUpdate := true

def completedWorld : World := Tx.endState (onSubscribed overtakenEnv "local-1" completedUpdate overtakenStart)

/-- The poll that was underway when the event came in. -/
def polled : EStateM.Result Exception World A2AResult :=
  fetchTask overtakenEnv builder.endpoint {} "remote-7"
    (Tx.endState (resolveEndpoint overtakenEnv builder.id completedWorld))

/-- What the poll finds. -/
def polledResult : A2AResult := (Tx.result? polled).getD {}

def reopenedWorld : World := Tx.endState ((Operation.refresh "local-1").run overtakenEnv completedWorld)

/-- What the event and the poll leave behind. -/
theorem overtaken_facts :
    (overtakenStart.tasks.lookup (cstr "local-1")).map Row.id = some (cstr "local-1") ∧
    Tx.result? (onSubscribed overtakenEnv "local-1" completedUpdate overtakenStart) = some () ∧
    (completedWorld.task overtakenEnv "local-1").map (fun t => (t.state, t.agent, t.remoteTaskId.getD [])) =
      some (.completed, builder.id, lit "remote-7") ∧
    Tx.result? (resolveEndpoint overtakenEnv builder.id completedWorld) = some (some (builder.endpoint, {})) ∧
    (Tx.result? polled).isSome = true ∧
    Tx.result? ((Operation.refresh "local-1").run overtakenEnv completedWorld) = some () ∧
    (reopenedWorld.task overtakenEnv "local-1").map (fun t => t.state) = some .working ∧
    Delivery.said (.event "remote-7" completedEvent) = some (agentHistory 1) ∧
    Delivery.said (.reply (.refresh "local-1") polledResult) = some (agentHistory 0) := by
  decide +kernel

theorem keyed_overtaken : KeyedAt "local-1" overtakenStart := by
  intro row hrow
  obtain ⟨hid, -⟩ := overtaken_facts
  rw [hrow] at hid
  exact Option.some.inj hid

theorem completed_processed (time : Nat) :
    Processed overtakenEnv "local-1" overtakenStart ⟨.event "remote-7" completedEvent, time⟩ completedWorld := by
  obtain ⟨-, hstored, -⟩ := overtaken_facts
  exact .event (u := completedUpdate) rfl (Tx.ok_of_result hstored)

theorem ended_completed : Ended overtakenEnv "local-1" completedWorld := by
  obtain ⟨-, -, hrecord, -⟩ := overtaken_facts
  obtain ⟨t, ht, hcompleted⟩ := Option.map_eq_some_iff.1 hrecord
  exact ⟨t, ht, by rw [(Prod.mk.inj hcompleted).1]; rfl⟩

theorem refresh_polls :
    (Operation.refresh "local-1").Calls overtakenEnv completedWorld polledResult (Tx.endState polled) := by
  obtain ⟨-, -, hrecord, hresolved, hpolled, -⟩ := overtaken_facts
  obtain ⟨existing, hexisting, htriple⟩ := Option.map_eq_some_iff.1 hrecord
  obtain ⟨hagent, hid⟩ := Prod.mk.inj (Prod.mk.inj htriple).2
  obtain ⟨r, hr⟩ := Option.isSome_iff_exists.1 hpolled
  refine ⟨existing, hexisting, by rw [hid]; decide, _, _, _, by rw [hagent]; exact Tx.ok_of_result hresolved, ?_⟩
  show fetchTask overtakenEnv builder.endpoint {} (existing.remoteTaskId.getD []) _ = _
  rw [hid, polledResult, hr]
  exact Tx.ok_of_result hr

theorem working_processed (time : Nat) : Processed overtakenEnv "local-1" completedWorld
    ⟨.reply (.refresh "local-1") polledResult, time⟩ reopenedWorld := by
  obtain ⟨-, -, -, -, -, hrefreshed, -⟩ := overtaken_facts
  exact .reply rfl refresh_polls (Tx.ok_of_result hrefreshed)

theorem reopened_underway : ¬ Ended overtakenEnv "local-1" reopenedWorld := by
  rintro ⟨t, ht, hended⟩
  obtain ⟨-, -, -, -, -, -, hstate, -⟩ := overtaken_facts
  rw [ht] at hstate
  have hworking : t.state = .working := Option.some.inj hstate
  rw [hworking] at hended
  cases hended

theorem truthful_of {history : Nat → TaskState} {a : Arrival} (h : a.delivery.said = some (history a.time)) :
    Truthful history a := by
  intro st hst
  rw [h] at hst
  exact (Option.some.inj hst).symm

theorem completed_truthful : Truthful agentHistory ⟨.event "remote-7" completedEvent, 1⟩ :=
  truthful_of overtaken_facts.2.2.2.2.2.2.2.1

theorem working_truthful : Truthful agentHistory ⟨.reply (.refresh "local-1") polledResult, 0⟩ :=
  truthful_of overtaken_facts.2.2.2.2.2.2.2.2

/-- Two deliveries of which the second takes back the end that the first brought. -/
theorem taken_back {E : Env} {id : Str} {history : Nat → TaskState} {s w s' : World} {a b : Arrival}
    (ha : Processed E id s a w) (hb : Processed E id w b s') (htrueA : Truthful history a) (htrueB : Truthful history b)
    (hended : Ended E id w) (hreopened : ¬ Ended E id s') :
    ∃ tr s', Run (Processed E id) s tr s' ∧ (∀ m ∈ tr, Truthful history m.label) ∧
      ¬ ∀ m ∈ tr, Ended E id m.pre → Ended E id m.post := by
  refine ⟨_, _, (Run.nil.snoc ha).snoc hb, ?_, ?_⟩
  · intro m hm
    rcases List.mem_append.1 hm with hm | hm
    · obtain rfl := List.mem_singleton.1 hm
      exact htrueA
    · obtain rfl := List.mem_singleton.1 hm
      exact htrueB
  · intro hkeep
    exact hreopened (hkeep ⟨w, b, s'⟩ (List.mem_append_right _ (List.mem_singleton.2 rfl)) hended)

/-- A task whose end came over the stream is under way again after a poll that was answered before. -/
theorem stale_reply_reopens : Final agentHistory ∧ KeyedAt "local-1" overtakenStart ∧
    ∃ tr s, Run (Processed overtakenEnv "local-1") overtakenStart tr s ∧ (∀ m ∈ tr, Truthful agentHistory m.label) ∧
      ¬ ∀ m ∈ tr, Ended overtakenEnv "local-1" m.pre → Ended overtakenEnv "local-1" m.post := by
  refine ⟨?_, keyed_overtaken, taken_back (completed_processed 1) (working_processed 0) completed_truthful
    working_truthful ended_completed reopened_underway⟩
  intro n m hnm hn
  unfold agentHistory at hn ⊢
  split at hn
  · cases hn
  · rw [if_neg (by omega)]
    rfl

/-- The event comes once more, after the task has ended. -/
def repeatedWorld : World := Tx.endState (onSubscribed overtakenEnv "local-1" completedUpdate completedWorld)

theorem repeated_processed : Processed overtakenEnv "local-1" completedWorld ⟨.event "remote-7" completedEvent, 2⟩ repeatedWorld := by
  have hstored : Tx.result? (onSubscribed overtakenEnv "local-1" completedUpdate completedWorld) = some () := by
    decide +kernel
  exact .event (u := completedUpdate) rfl (Tx.ok_of_result hstored)

theorem completed_said : Delivery.said (.event "remote-7" completedEvent) = some .completed := by
  decide +kernel

theorem completed_timely {s : World} {time : Nat} (h : agentHistory time = .completed) :
    Timely overtakenEnv "local-1" agentHistory s ⟨.event "remote-7" completedEvent, time⟩ := by
  intro _
  refine .inr (.inr (.inr ⟨?_, by rw [h]; rfl⟩))
  rw [completed_said]
  exact Option.some_ne_none _

theorem repeated_truthful : Truthful agentHistory ⟨.event "remote-7" completedEvent, 2⟩ := truthful_of completed_said

/-- An event that ends the task and is repeated later is timely both times: what the first has ended
stays ended. -/
theorem terminal_absorbing_repeated : Ended overtakenEnv "local-1" completedWorld ∧ Ended overtakenEnv "local-1" repeatedWorld := by
  have hkept := (terminal_absorbing overtakenEnv "local-1" agentHistory keyed_overtaken
    ((Run.nil.snoc (completed_processed 1)).snoc repeated_processed) fun m hm => ?_).2 fun m hm => ?_
  · have hend := hkept (⟨completedWorld, ⟨.event "remote-7" completedEvent, 2⟩, repeatedWorld⟩ : Move World Arrival)
      (List.mem_append_right _ (List.mem_singleton_self _))
    dsimp only at hend
    exact ⟨ended_completed, hend ended_completed⟩
  · rcases List.mem_append.1 hm with hm | hm
    · rw [List.mem_singleton.1 hm]
      exact completed_truthful
    · rw [List.mem_singleton.1 hm]
      exact repeated_truthful
  · rcases List.mem_append.1 hm with hm | hm
    · rw [List.mem_singleton.1 hm]
      exact completed_timely rfl
    · rw [List.mem_singleton.1 hm]
      exact completed_timely rfl

end A2ad.TaskManager
