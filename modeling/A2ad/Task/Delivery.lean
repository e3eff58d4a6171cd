/-
What comes in about one task: the result of a call, or an event of its stream; and the record that
is made of the stored one for it.
-/
import A2ad.Lib.Trace
import A2ad.Task.Operation

namespace A2ad.TaskManager

open Bytes Json Client

/-! ## Deliveries -/

/-- What comes in about one task: the result of a call, an event of its stream, or nothing about it. -/
inductive Delivery where
  | reply (op : Operation) (r : A2AResult)
  | event (remote : Str) (e : J)
  | other

/-- A delivery, with the point of the agent's history at which the agent made it. -/
structure Arrival where
  delivery : Delivery
  time : Nat

/-- The operation is on the stored task `id`; one at startup works on the record as it is stored. -/
def Operation.On (E : Env) (id : Str) (s : World) : Operation → Prop
  | .create _ => False
  | .respond taskId _ _ | .cancel taskId | .refresh taskId => taskId = id
  | .reconcile t => s.task E id = some t

/-- The processing of one delivery about the task `id` from beginning to end. -/
inductive Processed (E : Env) (id : Str) : World → Arrival → World → Prop
  | reply {s s' v : World} {op : Operation} {r : A2AResult} {time : Nat} : op.On E id s → op.Calls E s r v →
    op.run E s = .ok () s' → Processed E id s ⟨.reply op r, time⟩ s'
  | event {s s' : World} {remote : Str} {e : J} {u : Task} {time : Nat} : decodeUpdate remote e = .ok (some u) →
    onSubscribed E id u s = .ok () s' → Processed E id s ⟨.event remote e, time⟩ s'
  | other {s s' : World} {time : Nat} : s'.tasks.lookup (cstr id) = s.tasks.lookup (cstr id) →
    Processed E id s ⟨.other, time⟩ s'

/-- The row of the task stands under its own id. -/
def KeyedAt (id : Str) (s : World) : Prop := ∀ row, s.tasks.lookup (cstr id) = some row → row.id = cstr id

/-! ## Records -/

/-- The record an operation makes of the stored one and an accepted result, apart from its times. -/
def Operation.record (existing : Task) (r : A2AResult) : Operation → Option Task
  | .create _ => none
  | .respond _ _ _ => some (respondedTask existing r)
  | .cancel _ | .refresh _ => r.task.map (replaced existing)
  | .reconcile _ => r.task.map (reconciledTask existing)

/-- The record a delivery makes of the stored one; `none` where it makes none. -/
def Delivery.record (existing : Task) : Delivery → Option Task
  | reply op r => if r.ok then op.record existing r else none
  | event remote e =>
    match decodeUpdate remote e with
    | .ok (some u) => (mergeUpdate existing u).toOption
    | _ => none
  | other => none

/-- A record that is `t` as far as the task and its state go; its times and its error note are its own. -/
structure Alike (t new : Task) : Prop where
  id : new.id = t.id
  remoteTaskId : new.remoteTaskId = t.remoteTaskId
  context : new.context = t.context
  state : new.state = t.state

/-- The stored task after a delivery: it stays, or the record that is made of it is written, or it is
written back with a note. -/
def Records (E : Env) (id : Str) (existing : Task) (d : Delivery) (s s' : World) : Prop :=
  d.record existing = none ∧ s'.tasks.lookup (cstr id) = s.tasks.lookup (cstr id) ∨
    ∃ new, Wrote E new s s' ∧ Alike ((d.record existing).getD existing) new

section Records

variable {E : Env} {id : Str} {s s' v : World} {new existing : Task}

theorem id_of_stored (hkey : KeyedAt id s) (h : s.task E id = some existing) : cstr existing.id = cstr id := by
  obtain ⟨row, hrow, rfl⟩ := Option.map_eq_some_iff.1 h
  show cstr (cstr row.id) = cstr id
  rw [cstr_cstr, hkey row hrow, cstr_cstr]

/-- A record that is written for the task is the one that is stored, unless the database is busy. -/
theorem Wrote.stored (h : Wrote E new s s') (hid : cstr new.id = cstr id) :
    E.busy s.writes = true ∧ s'.tasks = s.tasks ∨
      E.busy s.writes = false ∧ ∃ row, bindTask E.parse new = .ok row ∧ s'.tasks.lookup (cstr id) = some row := by
  obtain ⟨row, hrow, hwritten⟩ := h
  cases hbusy : E.busy s.writes with
  | true => exact .inl ⟨rfl, by rw [hwritten, written_busy hbusy]⟩
  | false =>
    refine .inr ⟨rfl, row, hrow, ?_⟩
    rw [hwritten, written_free hbusy, (bindTask_ok hrow).1, hid, AList.lookup_insert]

theorem Wrote.before (hframe : Frame [.wire, .bindings, .agents] s v) (h : Wrote E new v s') : Wrote E new s s' := by
  obtain ⟨row, hrow, hwritten⟩ := h
  refine ⟨row, hrow, ?_⟩
  rw [hwritten]
  show (if E.busy v.writes then v.tasks else v.tasks.insert row.id row) = _
  rw [hframe.writes (by decide), hframe.rows (by decide)]
  rfl

section Replies

variable {op : Operation} {r : A2AResult} {u : Unit}

theorem record_failed (h : r.ok = false) : (Delivery.reply op r).record existing = none := by
  simp [Delivery.record, h]

theorem record_accepted (h : r.ok = true) : (Delivery.reply op r).record existing = op.record existing r := by
  simp [Delivery.record, h]

theorem records_respond {text requestId : Str} (hstored : s.task E id = some existing)
    (hcall : (Operation.respond id text requestId).Calls E s r v)
    (hrun : (Operation.respond id text requestId).run E s = .ok u s') :
    Records E id existing (.reply (.respond id text requestId) r) s s' := by
  have hframe := hcall.frame
  obtain ⟨t, ht, hcalled⟩ := respondToTask_calls hcall
  obtain rfl := Option.some.inj (hstored.symm.trans ht)
  obtain ⟨resp, w, hresponded, hend⟩ := Tx.bind_ok.1 hrun
  obtain ⟨-, rfl⟩ := Tx.pure_ok.1 hend
  rw [hcalled] at hresponded
  rcases Tx.ite_ok hresponded with ⟨hok, hwritten⟩ | ⟨hok, hleft⟩
  · obtain ⟨updated, changed, hwrote⟩ := wrote_concludeRespond hwritten
    refine .inr ⟨_, hwrote.before hframe, ?_⟩
    rw [record_accepted hok]
    exact ⟨rfl, rfl, rfl, rfl⟩
  · obtain ⟨-, rfl⟩ := Tx.pure_ok.1 hleft
    exact .inl ⟨record_failed (by simpa using hok), by rw [hframe.rows (by decide)]⟩

/-- A call whose task is handed on to be written, and whose other results are left alone. -/
theorem records_taken {α : Type} {a : α} {conclude : Task → M α} {left : M α} {f : Task → Task}
    (hrecord : op.record existing r = r.task.map f) (hcall : op.Calls E s r v)
    (htaken : ∀ t w, conclude t v = .ok a w → ∃ new, Wrote E new v w ∧ Alike (f t) new)
    (hleft : ∀ w, left v = .ok a w → w.tasks = v.tasks ∨ ∃ new, Wrote E new v w ∧ Alike existing new)
    (hrun : onTask r conclude left v = .ok a s') : Records E id existing (.reply op r) s s' := by
  have hframe := hcall.frame
  rcases onTask_ok hrun with ⟨t, hok, htask, hconcluded⟩ | ⟨hnone, hleftover⟩
  · obtain ⟨new, hwrote, halike⟩ := htaken t s' hconcluded
    refine .inr ⟨new, hwrote.before hframe, ?_⟩
    rw [record_accepted hok, hrecord, htask]
    exact halike
  · have hleftout : (Delivery.reply op r).record existing = none := by
      cases hok : r.ok with
      | false => exact record_failed hok
      | true =>
        rcases hnone with hfailed | hnone
        · rw [hok] at hfailed
          cases hfailed
        · rw [record_accepted hok, hrecord, hnone]
          rfl
    rcases hleft s' hleftover with hsame | ⟨new, hwrote, halike⟩
    · exact .inl ⟨hleftout, by rw [hsame, hframe.rows (by decide)]⟩
    · refine .inr ⟨new, hwrote.before hframe, ?_⟩
      rw [hleftout]
      exact halike

theorem records_cancel (hstored : s.task E id = some existing)
    (hcall : (Operation.cancel id).Calls E s r v) (hrun : (Operation.cancel id).run E s = .ok u s') :
    Records E id existing (.reply (.cancel id) r) s s' := by
  obtain ⟨t, ht, hcalled⟩ := cancelTask_calls hcall
  obtain rfl := Option.some.inj (hstored.symm.trans ht)
  obtain ⟨result, w, hcanceled, hend⟩ := Tx.bind_ok.1 hrun
  obtain ⟨-, rfl⟩ := Tx.pure_ok.1 hend
  rw [hcalled] at hcanceled
  refine records_taken (f := replaced existing) rfl hcall (fun t w h => ?_) (fun w h => ?_) hcanceled
  · obtain ⟨_, w', hconcluded, hend⟩ := Tx.bind_ok.1 h
    obtain ⟨-, rfl⟩ := Tx.pure_ok.1 hend
    obtain ⟨updated, changed, hwrote⟩ := wrote_concludeCancel hconcluded
    exact ⟨_, hwrote, rfl, rfl, rfl, rfl⟩
  · obtain ⟨-, rfl⟩ := Tx.pure_ok.1 h
    exact .inl rfl

theorem records_refresh (hstored : s.task E id = some existing)
    (hcall : (Operation.refresh id).Calls E s r v) (hrun : (Operation.refresh id).run E s = .ok u s') :
    Records E id existing (.reply (.refresh id) r) s s' := by
  obtain ⟨t, ht, hcalled⟩ := refreshTask_calls hcall
  obtain rfl := Option.some.inj (hstored.symm.trans ht)
  obtain ⟨result, w, hrefreshed, hend⟩ := Tx.bind_ok.1 hrun
  obtain ⟨-, rfl⟩ := Tx.pure_ok.1 hend
  rw [hcalled] at hrefreshed
  refine records_taken (f := replaced existing) rfl hcall (fun t w h => ?_) (fun w h => ?_) hrefreshed
  · obtain ⟨_, w', hconcluded, hend⟩ := Tx.bind_ok.1 h
    obtain ⟨-, rfl⟩ := Tx.pure_ok.1 hend
    obtain ⟨updated, hwrote⟩ := wrote_concludeRefresh hconcluded
    exact ⟨_, hwrote, rfl, rfl, rfl, rfl⟩
  · obtain ⟨-, rfl⟩ := Tx.pure_ok.1 h
    exact .inl rfl

theorem records_reconcile (hcall : (Operation.reconcile existing).Calls E s r v)
    (hrun : (Operation.reconcile existing).run E s = .ok u s') :
    Records E id existing (.reply (.reconcile existing) r) s s' := by
  rw [Operation.run, reconcileTask_calls hcall] at hrun
  refine records_taken (f := reconciledTask existing) rfl hcall (fun t w h => ?_) (fun w h => ?_) hrun
  · obtain ⟨updated, hwrote⟩ := wrote_concludeReconcile h
    exact ⟨_, hwrote, rfl, rfl, rfl, rfl⟩
  · rcases Tx.ite_ok h with ⟨-, h⟩ | ⟨-, h⟩
    · obtain ⟨-, rfl⟩ := Tx.pure_ok.1 h
      exact .inl rfl
    · exact .inr ⟨_, wrote_updateTask h, rfl, rfl, rfl, rfl⟩

end Replies

theorem respondedTask_id (existing : Task) (r : A2AResult) : (respondedTask existing r).id = existing.id := by
  unfold respondedTask
  cases r.task <;> cases r.message <;> rfl

theorem mergeUpdate_id {update merged : Task} (h : mergeUpdate existing update = .ok merged) : merged.id = existing.id := by
  unfold mergeUpdate at h
  split at h
  · obtain ⟨t, -, h⟩ := Tx.except_bind_ok h
    cases h
    rfl
  · obtain ⟨t, -, h⟩ := Tx.except_bind_ok h
    cases h
    rfl

/-- A record is made under the id of the stored one. -/
theorem record_id (existing : Task) (d : Delivery) : ((d.record existing).getD existing).id = existing.id := by
  cases d with
  | other => rfl
  | reply op r =>
    cases hok : r.ok with
    | false => rw [record_failed hok, Option.getD_none]
    | true =>
      rw [record_accepted hok]
      cases op with
      | create req => rfl
      | respond taskId text requestId => exact respondedTask_id existing r
      | cancel taskId | refresh taskId | reconcile t =>
        unfold Operation.record
        cases r.task <;> rfl
  | event remote e =>
    unfold Delivery.record
    dsimp only
    split
    · rename_i u hdecode
      cases hmerge : mergeUpdate existing u with
      | ok merged => exact mergeUpdate_id hmerge
      | error ex => rfl
    · rfl

/-- Every delivery is recorded. -/
theorem Processed.records {a : Arrival} (h : Processed E id s a s') (hstored : s.task E id = some existing) :
    Records E id existing a.delivery s s' := by
  cases h with
  | other hsame => exact .inl ⟨rfl, hsame⟩
  | @event _ remote e u time hdecode hrun =>
    rcases wrote_onSubscribed hrun with ⟨hnone, -⟩ | ⟨t, merged, updated, ht, hmerge, hwrote⟩
    · rw [hstored] at hnone
      cases hnone
    · obtain rfl := Option.some.inj (hstored.symm.trans ht)
      refine .inr ⟨_, hwrote, ?_⟩
      simp only [Delivery.record, hdecode, hmerge, Except.toOption, Option.getD_some]
      exact ⟨rfl, rfl, rfl, rfl⟩
  | @reply _ v op r time hon hcall hrun =>
    cases op with
    | create req => exact hon.elim
    | respond taskId text requestId =>
      obtain rfl : taskId = id := hon
      exact records_respond hstored hcall hrun
    | cancel taskId =>
      obtain rfl : taskId = id := hon
      exact records_cancel hstored hcall hrun
    | refresh taskId =>
      obtain rfl : taskId = id := hon
      exact records_refresh hstored hcall hrun
    | reconcile t =>
      obtain rfl := Option.some.inj (hstored.symm.trans hon)
      exact records_reconcile hcall hrun

end Records

/-! ## Runs -/

section Runs

variable {E : Env} {id : Str} {s s' : World} {a : Arrival} {existing : Task}

/-- Nothing is processed about a task that is not stored. -/
theorem Processed.unstored (h : Processed E id s a s') (hnone : s.task E id = none) :
    s'.tasks.lookup (cstr id) = s.tasks.lookup (cstr id) := by
  have hno : ∀ t, s.task E id ≠ some t := by
    intro t ht
    rw [hnone] at ht
    cases ht
  cases h with
  | other hsame => exact hsame
  | event hdecode hrun =>
    rcases wrote_onSubscribed hrun with ⟨-, rfl⟩ | ⟨t, merged, updated, ht, -⟩
    · rfl
    · exact absurd ht (hno t)
  | @reply _ v op r time hon hcall hrun =>
    cases op with
    | create req => exact hon.elim
    | respond taskId text requestId =>
      obtain rfl : taskId = id := hon
      obtain ⟨t, ht, -⟩ := hcall
      exact absurd ht (hno t)
    | cancel taskId =>
      obtain rfl : taskId = id := hon
      obtain ⟨t, ht, -⟩ := hcall
      exact absurd ht (hno t)
    | refresh taskId =>
      obtain rfl : taskId = id := hon
      obtain ⟨t, ht, -⟩ := hcall
      exact absurd ht (hno t)
    | reconcile t => exact absurd hon (hno t)

end Runs

end A2ad.TaskManager
