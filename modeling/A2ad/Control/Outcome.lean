/-
What the two halves of `handle` and the recovery pass do to the store as a whole: how a request
enters, which fields of an execution its outcome and a restart change, and that a throw anywhere
leaves the store as it was.
-/
import A2ad.Control.Admission

namespace A2ad.Control

open Bytes Json

variable {E : Env} {enforce : Bool} {req : J}

/-! ## Entering -/

/-- The request `begin` sees for the request `req` of a client. -/
structure Issued (req request : J) : Prop where
  op : ∃ op, request.get? "op" = some (.str op) ∧ mutation op = true
  fields : ∀ k : Str, k ≠ "request_id" → request.get? k = req.get? k
  given : req.contains "request_id" = true → request = req
  digest : digestOk request = .ok true

/-- The ways `enter` ends when it does not throw. -/
inductive Entered (E : Env) (enforce : Bool) (req : J) (s : St) : Entry → St → Prop
  | answered {result : J} {s' : St} : (∀ op, req.get? "op" = some (.str op) → isQuery op = true ∨ mutation op = true) →
    Still s s' → Entered E enforce req s (.reply result) s'
  | controlled {result : J} {t s' : St} : Still s t → control E enforce req t = .ok result s' → result ≠ .null →
    Entered E enforce req s (.reply result) s'
  | plain {op : Str} {t s' : St} : req.valueStr "op" "" = .ok op → mutation op = false → Still s t →
    control E enforce req t = .ok .null s' → Entered E enforce req s (.plain req) s'
  | refused {request result : J} {t s' : St} : Issued req request → Still s t →
    begin E enforce request t = .ok result s' → result ≠ .null → Entered E enforce req s (.refused request result) s'
  | admitted {request : J} {t s' : St} : Issued req request → Still s t →
    begin E enforce request t = .ok .null s' → Entered E enforce req s (.admitted request) s'

instance {op : Str} : Quiet (query E enforce op req) := by
  unfold query
  infer_instance

theorem withRequestId_ok {request : J} {s s' : St} (h : withRequestId E req s = .ok request s') :
    Still s s' ∧ (∀ k : Str, k ≠ "request_id" → request.get? k = req.get? k) ∧
      (req.contains "request_id" = true → request = req) := by
  unfold withRequestId at h
  split at h
  · obtain ⟨rfl, rfl⟩ := Tx.pure_ok.1 h
    exact ⟨refl _, fun _ _ => rfl, fun _ => rfl⟩
  · rename_i hc
    obtain ⟨i, _, hn, h⟩ := Tx.bind_ok.1 h
    obtain ⟨-, rfl⟩ := newId_ok.1 hn
    obtain ⟨ha, rfl⟩ := Tx.lift_ok.1 h
    refine ⟨⟨rfl, le_refl _, Nat.le_succ _⟩, fun k hk => ?_, fun h => absurd h hc⟩
    rw [(J.get?_assign ha k).2, if_neg (Ne.symm hk)]

theorem enter_cases {entry : Entry} {s s' : St} (h : enter E enforce req s = .ok entry s') :
    Entered E enforce req s entry s' := by
  unfold enter at h
  split at h
  · rename_i hobj
    obtain ⟨rfl, rfl⟩ := Tx.pure_ok.1 h
    refine .answered (fun op hop => ?_) (refl _)
    rw [J.isObject_of_get? hop] at hobj
    cases hobj
  rename_i hobj
  have hobj : req.isObject = true := by simpa using hobj
  obtain ⟨op, _, hl, h⟩ := Tx.bind_ok.1 h
  obtain ⟨hop, rfl⟩ := Tx.lift_ok.1 hl
  -- the queries come first, outside of any transaction
  obtain ⟨answer, t, hquery, h⟩ := Tx.bind_ok.1 h
  have hst : Still s t := Tx.keeps_ok hquery
  have hgiven : ∀ op', req.get? "op" = some (.str op') → op' = op := by
    intro op' hop'
    rcases (J.valueStr_ok.1 hop).2 with hg | ⟨hg, -⟩
    · rw [hg] at hop'
      cases hop'
      rfl
    · rw [hg] at hop'
      cases hop'
  split at h
  · rename_i hne
    obtain ⟨rfl, rfl⟩ := Tx.pure_ok.1 h
    refine .answered (fun op' hop' => ?_) hst
    obtain rfl := hgiven op' hop'
    unfold query at hquery
    split at hquery
    · rename_i hq
      exact .inl hq
    · obtain ⟨rfl, -⟩ := Tx.pure_ok.1 hquery
      cases hne
  -- then the operations of the control plane, in one transaction
  obtain ⟨result, u, hcontrol, h⟩ := Tx.bind_ok.1 h
  replace hcontrol := Tx.transaction_ok.1 hcontrol
  split at h
  · rename_i hne
    obtain ⟨rfl, rfl⟩ := Tx.pure_ok.1 h
    exact .controlled hst hcontrol (ne_null_of_not hne)
  rename_i hnull
  obtain rfl := null_of_not hnull
  split at h
  · rename_i hm
    obtain ⟨rfl, rfl⟩ := Tx.pure_ok.1 h
    exact .plain hop (by simpa using hm) hst hcontrol
  rename_i hm
  have hm : mutation op = true := by simpa using hm
  have hop' : req.get? "op" = some (.str op) := get?_of_valueStr hop (by rintro rfl; cases hm)
  have hsu : Still s u := by
    rw [control_mutation hop hm] at hcontrol
    cases hcontrol
    exact hst
  -- what is left is a mutation, which is admitted in a transaction of its own
  unfold enterMutation at h
  split at h
  · obtain ⟨rfl, rfl⟩ := Tx.pure_ok.1 h
    exact .answered (fun op' hop' => .inr (hgiven op' hop' ▸ hm)) hsu
  obtain ⟨request, v, hreq, h⟩ := Tx.bind_ok.1 h
  obtain ⟨huv, hfields, hsame⟩ := withRequestId_ok hreq
  have hsv : Still s v := hsu.trans huv
  obtain ⟨b, _, hl, h⟩ := Tx.bind_ok.1 h
  obtain ⟨hdigest, rfl⟩ := Tx.lift_ok.1 hl
  split at h
  · obtain ⟨rfl, rfl⟩ := Tx.pure_ok.1 h
    exact .answered (fun op' hop' => .inr (hgiven op' hop' ▸ hm)) hsv
  rename_i hb
  simp only [Bool.not_eq_true', Bool.not_eq_false] at hb
  subst hb
  have hissued : Issued req request := ⟨⟨op, by rw [hfields _ (by simp), hop'], hm⟩, hfields, hsame, hdigest⟩
  obtain ⟨result, w, hbegin, h⟩ := Tx.bind_ok.1 h
  replace hbegin := Tx.transaction_ok.1 hbegin
  obtain ⟨rfl, rfl⟩ := Tx.pure_ok.1 h
  split
  · rename_i hn
    obtain rfl := J.isNull_iff.1 hn
    exact .admitted hissued hsv hbegin
  · rename_i hn
    exact .refused hissued hsv hbegin (fun e => hn (J.isNull_iff.2 e))

/-! ## Throws -/

theorem transaction_error {α : Type} {K : List Kind} {x : M α} [hx : Touches K x] {e : Exception} {s t : St}
    (h : transaction x s = .error e t) : Still s t := by
  obtain ⟨u, hu, rfl⟩ := Tx.transaction_error.1 h
  have hframe : Frame K s u := Tx.keeps_error hu
  exact ⟨rfl, hframe.tick, hframe.nonce⟩

/-- The kinds of the records that the control plane's own operations write. -/
abbrev controlKinds : List Kind := [.continuation, .session, .lease, .approval, .health, .provenance, .channel]

instance : Touches controlKinds (control E enforce req) := by
  unfold control
  refine Tx.keeps_bind (k := fun op => Tx.keeps_ite (k := ?_))
  split <;> infer_instance

/-- A request that throws has left the store as it was. -/
theorem enter_error {e : Exception} {s s' : St} (h : enter E enforce req s = .error e s') : Still s s' := by
  unfold enter at h
  split at h
  · cases Tx.pure_error.1 h
  rcases Tx.bind_error.1 h with h | ⟨op, _, hl, h⟩
  · obtain ⟨-, rfl⟩ := Tx.lift_error.1 h
    exact refl _
  obtain ⟨hop, rfl⟩ := Tx.lift_ok.1 hl
  rcases Tx.bind_error.1 h with h | ⟨answer, t, hquery, h⟩
  · exact Tx.keeps_error h
  have hst : Still s t := Tx.keeps_ok hquery
  split at h
  · cases Tx.pure_error.1 h
  rcases Tx.bind_error.1 h with h | ⟨result, u, hcontrol, h⟩
  · exact hst.trans (transaction_error (K := controlKinds) h)
  replace hcontrol := Tx.transaction_ok.1 hcontrol
  split at h
  · cases Tx.pure_error.1 h
  split at h
  · cases Tx.pure_error.1 h
  rename_i hm
  have hsu : Still s u := by
    rw [control_mutation hop (by simpa using hm)] at hcontrol
    cases hcontrol
    exact hst
  unfold enterMutation at h
  split at h
  · cases Tx.pure_error.1 h
  rcases Tx.bind_error.1 h with h | ⟨request, v, hreq, h⟩
  · refine hsu.trans (Tx.keeps_error (k := ?_) h)
    unfold withRequestId
    infer_instance
  have hsv : Still s v := hsu.trans (withRequestId_ok hreq).1
  rcases Tx.bind_error.1 h with h | ⟨b, _, hl, h⟩
  · obtain ⟨-, rfl⟩ := Tx.lift_error.1 h
    exact hsv
  obtain ⟨-, rfl⟩ := Tx.lift_ok.1 hl
  split at h
  · cases Tx.pure_error.1 h
  rcases Tx.bind_error.1 h with h | ⟨result, w, -, h⟩
  · exact hsv.trans (transaction_error (K := [.execution, .approval]) h)
  · cases Tx.pure_error.1 h

/-! ## Leaving -/

/-- The result `leave` records: that of the callback, or the failure its throw turns into. -/
def recorded : Except Exception J → J
  | .ok result => result
  | .error _ => failure "dispatch_exception" "dispatch raised an exception; reconcile before retrying"

theorem leave_ok {request r : J} {outcome : Except Exception J} {s s' : St} (h : leave E request outcome s = .ok r s') :
    ∃ id, request.get? "request_id" = some (.str id) ∧ (recorded outcome).assign "execution_id" (.str id) = .ok r ∧
      finish E id r s = .ok () s' := by
  unfold leave at h
  obtain ⟨v, _, hl, h⟩ := Tx.bind_ok.1 h
  obtain ⟨hv, rfl⟩ := Tx.lift_ok.1 hl
  obtain ⟨result, _, hl, h⟩ := Tx.bind_ok.1 h
  obtain ⟨hresult, rfl⟩ := Tx.lift_ok.1 hl
  obtain ⟨id, _, hl, h⟩ := Tx.bind_ok.1 h
  obtain ⟨hid, rfl⟩ := Tx.lift_ok.1 hl
  obtain ⟨_, t, hf, h⟩ := Tx.bind_ok.1 h
  obtain ⟨rfl, rfl⟩ := Tx.pure_ok.1 h
  obtain rfl := J.asStr_ok.1 hid
  refine ⟨id, J.field_ok.1 hv, ?_, Tx.transaction_ok.1 hf⟩
  cases outcome <;> exact hresult

/-- An outcome that cannot be recorded leaves the store as it was. -/
theorem leave_error {request : J} {outcome : Except Exception J} {e : Exception} {s s' : St}
    (h : leave E request outcome s = .error e s') : Still s s' := by
  unfold leave at h
  rcases Tx.bind_error.1 h with h | ⟨v, _, hl, h⟩
  · obtain ⟨-, rfl⟩ := Tx.lift_error.1 h
    exact refl _
  obtain ⟨-, rfl⟩ := Tx.lift_ok.1 hl
  rcases Tx.bind_error.1 h with h | ⟨result, _, hl, h⟩
  · obtain ⟨-, rfl⟩ := Tx.lift_error.1 h
    exact refl _
  obtain ⟨-, rfl⟩ := Tx.lift_ok.1 hl
  rcases Tx.bind_error.1 h with h | ⟨id, _, hl, h⟩
  · obtain ⟨-, rfl⟩ := Tx.lift_error.1 h
    exact refl _
  obtain ⟨-, rfl⟩ := Tx.lift_ok.1 hl
  rcases Tx.bind_error.1 h with h | ⟨_, t, -, h⟩
  · exact transaction_error (K := [.execution, .continuation, .health]) h
  · cases Tx.pure_error.1 h

/-! ## The execution record after its outcome -/

/-- The fields of an execution that change after its creation. -/
def outcomeFields : List Str := ["state", "result", "finished_at", "task_id", "context_id", "reason"]

/-- The execution `e` has become `e'` by an outcome or a restart. -/
structure Settles (e e' : J) : Prop where
  object : e'.isObject = true
  kept : ∀ k : Str, k ∉ outcomeFields → e'.get? k = e.get? k
  state : ∃ st : Str, e'.get? "state" = some (.str st) ∧ st ≠ "DISPATCHING"

theorem isObject_copyField {result e : J} {key : Str} (he : e.isObject = true) : (copyField result key e).isObject = true := by
  unfold copyField
  split
  · exact J.isObject_set he
  · exact he

theorem get?_copyField {result e : J} {key k : Str} (he : e.isObject = true) (hk : k ≠ key) :
    (copyField result key e).get? k = e.get? k := by
  unfold copyField
  split
  · rw [J.get?_set he, if_neg (Ne.symm hk)]
  · rfl

theorem finished_ok {e result e' : J} {state error : Str} {time : Int} (h : finished e result state error time = .ok e') :
    e'.isObject = true ∧ (∀ k : Str, k ∉ outcomeFields → e'.get? k = e.get? k) ∧ e'.get? "state" = some (.str state) ∧
      e'.get? "result" = if uncertain error then e.get? "result" else some result := by
  unfold finished at h
  obtain ⟨e₁, h₁, h⟩ := Tx.except_bind_ok h
  have hobj₁ := (J.get?_assign h₁ []).1
  have hget₁ : ∀ k : Str, e₁.get? k = if lit "state" = k then some (.str state) else e.get? k :=
    fun k => (J.get?_assign h₁ k).2
  generalize he₂ : (if uncertain error then e₁ else e₁.set "result" result) = e₂ at h
  have hobj₂ : e₂.isObject = true := by
    rw [← he₂]
    split
    · exact hobj₁
    · exact J.isObject_set hobj₁
  have hget₂ : ∀ k : Str, k ≠ "result" → e₂.get? k = e₁.get? k := by
    intro k hk
    rw [← he₂]
    split
    · rfl
    · rw [J.get?_set hobj₁, if_neg (Ne.symm hk)]
  have hobj₃ : (e₂.set "finished_at" (.int time)).isObject = true := J.isObject_set hobj₂
  have hget : ∀ k : Str, k ≠ "finished_at" → k ≠ "task_id" → k ≠ "context_id" → e'.get? k = e₂.get? k := by
    intro k hf ht hc
    cases h
    rw [get?_copyField (isObject_copyField hobj₃) hc, get?_copyField hobj₃ ht, J.get?_set hobj₂, if_neg (Ne.symm hf)]
  refine ⟨?_, fun k hk => ?_, ?_, ?_⟩
  · cases h
    exact isObject_copyField (isObject_copyField hobj₃)
  · simp only [outcomeFields, List.mem_cons, List.not_mem_nil, or_false, not_or] at hk
    obtain ⟨hstate, hresult, hfin, htask, hctx, -⟩ := hk
    rw [hget k hfin htask hctx, hget₂ k hresult, hget₁, if_neg (Ne.symm hstate)]
  · rw [hget _ (by simp) (by simp) (by simp), hget₂ _ (by simp), hget₁, if_pos rfl]
  · rw [hget _ (by simp) (by simp) (by simp), ← he₂]
    split
    · rw [hget₁, if_neg (by simp)]
    · rw [J.get?_set hobj₁, if_pos rfl]

theorem outcomeState_ok {result : J} {error st : Str} (h : outcomeState result error = .ok st) :
    st = "UNCERTAIN" ∧ uncertain error = true ∨ (st = "DELIVERED" ∨ st = "FAILED") ∧ uncertain error = false := by
  unfold outcomeState at h
  split at h
  · rename_i hu
    exact .inl ⟨(Except.ok.inj h).symm, hu⟩
  · rename_i hu
    obtain ⟨ok, -, h⟩ := Tx.except_bind_ok h
    refine .inr ⟨?_, by simpa using hu⟩
    obtain rfl := Except.ok.inj h
    cases ok
    · exact .inr rfl
    · exact .inl rfl

/-- What `finish` has done to the executions. -/
structure Finished (id : Str) (result : J) (s s' : St) : Prop where
  settles : Settles (s.db.get .execution id) (s'.db.get .execution id)
  result : ∃ error, result.valueStr "error_kind" "" = .ok error ∧
    (s'.db.get .execution id).get? "result" =
      if uncertain error then (s.db.get .execution id).get? "result" else some result
  others : ∀ id', id' ≠ id → s'.db.get .execution id' = s.db.get .execution id'
  frame : Frame [.execution, .continuation, .health] s s'

set_option synthInstance.maxSize 2000 in
theorem finish_ok {id : Str} {result : J} {u : Unit} {s s' : St} (h : finish E id result s = .ok u s') :
    Finished id result s s' := by
  have hframe : Frame [.execution, .continuation, .health] s s' := Tx.keeps_ok h
  unfold finish at h
  obtain ⟨_, _, hr, h⟩ := Tx.bind_ok.1 h
  obtain ⟨rfl, rfl⟩ := read_ok.1 hr
  obtain ⟨error, _, hl, h⟩ := Tx.bind_ok.1 h
  obtain ⟨herror, rfl⟩ := Tx.lift_ok.1 hl
  obtain ⟨st, _, hl, h⟩ := Tx.bind_ok.1 h
  obtain ⟨hst, rfl⟩ := Tx.lift_ok.1 hl
  obtain ⟨_, _, hn, h⟩ := Tx.bind_ok.1 h
  obtain ⟨rfl, rfl⟩ := now_ok.1 hn
  obtain ⟨e, _, hl, h⟩ := Tx.bind_ok.1 h
  obtain ⟨he, rfl⟩ := Tx.lift_ok.1 hl
  obtain ⟨_, t, hw, h⟩ := Tx.bind_ok.1 h
  obtain ⟨-, rfl⟩ := write_ok.1 hw
  -- the rest of the transaction touches no execution
  have hrest : Frame [.continuation, .health] _ s' := Tx.keeps_ok (k := by infer_instance) h
  have hget : ∀ id', s'.db.get .execution id' = (s.db.put .execution id e).get .execution id' :=
    fun id' => hrest.get _ _ (by decide)
  obtain ⟨hobj, hkept, hstate, hresult⟩ := finished_ok he
  have hnew : s'.db.get .execution id = e := by rw [hget, Db.get_put_self]
  refine ⟨⟨by rw [hnew]; exact hobj, by rw [hnew]; exact hkept, st, by rw [hnew]; exact hstate, ?_⟩,
    ⟨error, herror, by rw [hnew]; exact hresult⟩, fun id' hne => ?_, hframe⟩
  · rcases outcomeState_ok hst with ⟨rfl, -⟩ | ⟨rfl | rfl, -⟩ <;> decide
  · rw [hget, Db.get_put_ne _ _ (by simpa using hne)]

/-! ## Recovery -/

theorem recoverOne_ok {execution : J} {u : Unit} {s s' : St} (h : recoverOne E execution s = .ok u s') :
    Still s s' ∨ ∃ id, execution.get? "id" = some (.str id) ∧ execution.get? "state" = some (.str "DISPATCHING") ∧
      Settles execution (s'.db.get .execution id) ∧ (s'.db.get .execution id).get? "result" = execution.get? "result" ∧
      ∀ kind id', (kind, id') ≠ (.execution, id) → s'.db.get kind id' = s.db.get kind id' := by
  unfold recoverOne at h
  obtain ⟨st, _, hl, h⟩ := Tx.bind_ok.1 h
  obtain ⟨hst, rfl⟩ := Tx.lift_ok.1 hl
  split at h
  swap
  · obtain ⟨-, rfl⟩ := Tx.pure_ok.1 h
    exact .inl (refl _)
  rename_i hdisp
  subst hdisp
  obtain ⟨e₁, _, hl, h⟩ := Tx.bind_ok.1 h
  obtain ⟨h₁, rfl⟩ := Tx.lift_ok.1 hl
  obtain ⟨e₂, _, hl, h⟩ := Tx.bind_ok.1 h
  obtain ⟨h₂, rfl⟩ := Tx.lift_ok.1 hl
  obtain ⟨v, _, hl, h⟩ := Tx.bind_ok.1 h
  obtain ⟨hv, rfl⟩ := Tx.lift_ok.1 hl
  obtain ⟨id, _, hl, h⟩ := Tx.bind_ok.1 h
  obtain ⟨hid, rfl⟩ := Tx.lift_ok.1 hl
  obtain ⟨_, _, hw, h⟩ := Tx.bind_ok.1 h
  obtain ⟨hget, hothers, -⟩ := write_append_ok hw h
  obtain rfl := J.asStr_ok.1 hid
  have hfields : ∀ k : Str, k ≠ "reason" → e₂.get? k = if lit "state" = k then some (.str "UNCERTAIN") else execution.get? k :=
    fun k hk => by rw [(J.get?_assign h₂ k).2, if_neg (Ne.symm hk), (J.get?_assign h₁ k).2]
  refine .inr ⟨id, ?_, get?_of_valueStr hst (by decide), ?_, ?_, hothers⟩
  · have := J.field_ok.1 hv
    rwa [hfields _ (by simp), if_neg (by simp)] at this
  · rw [hget]
    refine ⟨(J.get?_assign h₂ []).1, fun k hk => ?_, "UNCERTAIN", ?_, by decide⟩
    · simp only [outcomeFields, List.mem_cons, List.not_mem_nil, or_false, not_or] at hk
      obtain ⟨hstate, -, -, -, -, hreason⟩ := hk
      rw [hfields k hreason, if_neg (Ne.symm hstate)]
    · rw [hfields _ (by simp), if_pos rfl]
  · rw [hget, hfields _ (by simp), if_neg (by simp)]

/-- The recovery pass settles executions found in dispatch, and touches no other. -/
theorem recover_ok {items : List J} {u : Unit} {s s' : St} (h : recover E items s = .ok u s') (id : Str) :
    s'.db.get .execution id = s.db.get .execution id ∨
    ∃ e ∈ items, e.get? "id" = some (.str id) ∧ e.get? "state" = some (.str "DISPATCHING") ∧
      Settles e (s'.db.get .execution id) ∧ (s'.db.get .execution id).get? "result" = e.get? "result" := by
  induction items generalizing s with
  | nil =>
    obtain ⟨-, rfl⟩ := Tx.pure_ok.1 h
    exact .inl rfl
  | cons x rest ih =>
    unfold recover at h
    obtain ⟨_, t, hx, h⟩ := Tx.bind_ok.1 h
    rcases ih h with hsame | ⟨e, he, hrest⟩
    · rcases recoverOne_ok hx with hstill | ⟨i, hi, hstate, hsettles, hresult, hothers⟩
      · exact .inl (by rw [hsame, hstill.db])
      · by_cases hid : id = i
        · subst hid
          exact .inr ⟨x, List.mem_cons_self, hi, hstate, by rwa [hsame], by rwa [hsame]⟩
        · exact .inl (by rw [hsame, hothers _ _ (by simpa using hid)])
    · exact .inr ⟨e, List.mem_cons_of_mem _ he, hrest⟩

theorem list_ok {kind : Kind} {items : List J} {s s' : St} (h : list kind s = .ok items s') :
    s' = s ∧ ∀ e ∈ items, ∃ id, s.db.get kind id = e := by
  simp only [list, EStateM.Result.ok.injEq] at h
  obtain ⟨rfl, rfl⟩ := h
  refine ⟨rfl, fun e he => ?_⟩
  obtain ⟨⟨id, v⟩, hmem, rfl⟩ := List.mem_map.1 he
  exact ⟨id, by rw [Db.get, Db.mem_rows.1 hmem]; rfl⟩

end A2ad.Control
