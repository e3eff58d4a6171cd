/-
The answers of the control plane: each is an object that tells whether the request has been carried out,
the recorded ones as long as what was recorded tells so.
-/
import A2ad.Control.Lifecycle
import A2ad.Control.Refusal

namespace A2ad.Control

open Bytes Json

variable {E : Env} {enforce : Bool} {op : Str} {req : J}

/-- The answer tells whether the request has been carried out. -/
def Told (r : J) : Prop := ∃ b, r.get? "ok" = some (.bool b)

/-- There is such an answer, or none. -/
def OrNull (P : J → Prop) (r : J) : Prop := r = .null ∨ P r

theorem Refuses.told {r : J} (h : Refuses r) : Told r := ⟨false, h⟩

theorem refuses_failure {kind error : Str} : Refuses (failure kind error) := by simp [Refuses, failure]

theorem refuses_assign {r r' v : J} {k : Str} (h : Refuses r) (hassign : r.assign k v = .ok r') (hk : k ≠ "ok") : Refuses r' := by
  unfold Refuses
  rw [(J.get?_assign hassign _).2, if_neg hk]
  exact h

/-- Every value that the program returns is of a kind. -/
class Gives {σ : Type} (P : J → Prop) (x : Tx Exception σ J) : Prop where
  out : Tx.Returns P x

section Instances

variable {σ α : Type} {P : J → Prop}

theorem gives_pure {r : J} (h : P r) : Gives P (pure r : Tx Exception σ J) := ⟨Tx.returns_pure h⟩

instance (b : Bool) (fields : List (Str × J)) :
    Gives Told (pure (.object ((lit "ok", .bool b) :: fields)) : Tx Exception σ J) :=
  gives_pure ⟨b, by simp⟩

instance (kind error : Str) : Gives Told (pure (failure kind error) : Tx Exception σ J) := gives_pure refuses_failure.told

instance (kind error : Str) : Gives Refuses (pure (failure kind error) : Tx Exception σ J) := gives_pure refuses_failure

instance : Gives (OrNull P) (pure .null : Tx Exception σ J) := gives_pure (.inl rfl)

instance (priority := low) {x : Tx Exception σ J} [h : Gives P x] : Gives (OrNull P) x := ⟨fun s r t hr => .inr (h.out s r t hr)⟩

instance gives_bind {x : Tx Exception σ α} {f : α → Tx Exception σ J} [h : ∀ a, Gives P (f a)] : Gives P (x >>= f) :=
  ⟨Tx.returns_bind fun a => (h a).out⟩

instance gives_ite {c : Prop} [Decidable c] {x y : Tx Exception σ J} [h : Gives P x] [k : Gives P y] :
    Gives P (if c then x else y) :=
  ⟨Tx.returns_ite h.out k.out⟩

end Instances

/-! ## The control plane's own operations -/

section Operations

set_option synthInstance.maxSize 4000

instance : Gives Told (pure (policyInfo enforce) : M J) := gives_pure ⟨true, by simp [policyInfo]⟩

instance {kind : Kind} : Gives Told (listAll req kind) := by
  unfold listAll
  infer_instance

instance {kind : Kind} : Gives Told (getRecord req kind) := by
  unfold getRecord
  infer_instance

/-- A page, with the cursor where a row is left. -/
theorem told_page {items : List J} {next : Str} {more : Bool} : Told (if more then
    (J.object [("ok", .bool true), ("items", .arr items)]).set "next_cursor" (.str next)
    else .object [("ok", .bool true), ("items", .arr items)]) := by
  cases more with
  | false => exact ⟨true, by simp⟩
  | true => exact ⟨true, by rw [if_pos rfl, J.get?_set rfl]; simp⟩

instance {kind : Kind} : Gives Told (listPage req kind) := by
  have hitems : ∀ x : List J × Str × Bool, Gives Told (pure (if x.2.2 then
      (J.object [("ok", .bool true), ("items", .arr x.1)]).set "next_cursor" (.str x.2.1)
      else .object [("ok", .bool true), ("items", .arr x.1)]) : M J) := fun _ => gives_pure told_page
  unfold listPage
  infer_instance

instance : Gives Told (auditVerify E) := by
  unfold auditVerify
  refine gives_bind (h := fun db => ?_)
  cases verifyFrom E "" db.events <;> infer_instance

instance : Gives (OrNull Told) (readOnly E enforce req) := by
  unfold readOnly
  refine gives_bind (h := fun op => gives_ite (k := ?_))
  cases listKind op <;> infer_instance

instance : Gives Told (continuationCreate E req) := by
  unfold continuationCreate
  infer_instance

instance : Gives Told (sessionCreate E req) := by
  unfold sessionCreate
  infer_instance

instance : Gives Told (leaseOp E op req) := by
  unfold leaseOp
  infer_instance

instance : Gives Told (approvalRevoke E req) := by
  unfold approvalRevoke
  infer_instance

instance : Gives Told (approvalDecide E req) := by
  unfold approvalDecide
  infer_instance

instance : Gives Told (agentOp E op req) := by
  unfold agentOp
  infer_instance

instance : Gives Told (provenanceRecord E req) := by
  unfold provenanceRecord
  infer_instance

instance : Gives Told (channelOpen req) := by
  unfold channelOpen
  infer_instance

instance : Gives Told (eventsRead op req) := by
  unfold eventsRead
  infer_instance

instance : Gives Told (channelAck req) := by
  unfold channelAck
  infer_instance

instance : Gives (OrNull Told) (control E enforce req) := by
  unfold control
  refine gives_bind (h := fun op => gives_ite (k := ?_))
  cases listKind op <;> infer_instance

end Operations

/-! ## Admission -/

section Admission

set_option synthInstance.maxSize 4000

/-- A check that answers ends the program; otherwise the program goes on. -/
theorem returns_unless {β : Type} {P : J → Prop} {Q : β → Prop} {x : M J} [hx : Gives (OrNull P) x] {wrap : J → β} {rest : M β}
    (hwrap : ∀ r, P r → Q (wrap r)) (h : Tx.Returns Q rest) :
    Tx.Returns Q (x >>= fun r => if !r.isNull then pure (wrap r) else rest) := by
  intro s b t hb
  obtain ⟨r, u, hr, hb⟩ := Tx.bind_ok.1 hb
  rcases Tx.ite_ok hb with ⟨hne, hb⟩ | ⟨-, hb⟩
  · obtain ⟨rfl, -⟩ := Tx.pure_ok.1 hb
    exact hwrap r ((hx.out s r u hr).resolve_left (ne_null_of_not hne))
  · exact h u b t hb

instance : Gives (OrNull Refuses) (leaseCheck E req) := by
  unfold leaseCheck
  infer_instance

instance {id : Str} : Gives (OrNull Refuses) (continuationCheck req id) := by
  unfold continuationCheck
  infer_instance

instance {retryOf : Str} : Gives (OrNull Refuses) (retryCheck retryOf) := by
  unfold retryCheck
  infer_instance

instance {agent : Str} : Gives (OrNull Refuses) (quarantineCheck agent) := by
  unfold quarantineCheck
  infer_instance

instance {id : Str} : Gives (OrNull Refuses) (sessionCheck id) := by
  unfold sessionCheck
  infer_instance

/-- A refusal with the approval it is about. -/
instance {kind error : Str} {v : J} : Gives Refuses (liftM ((failure kind error).assign "approval" v) : M J) := by
  refine ⟨fun s r t h => ?_⟩
  obtain ⟨hassign, -⟩ := Tx.lift_ok.1 h
  exact refuses_assign refuses_failure hassign (by decide)

instance {g : Grant} : Gives (OrNull Refuses) (approvalGate E g req) := by
  unfold approvalGate
  infer_instance

/-- What is given instead of what was asked for is a refusal. -/
def Declined {α : Type} (d : Except J α) : Prop := ∀ r, d = .error r → Refuses r

theorem declined_error {α : Type} {r : J} (h : Refuses r) : Declined (.error r : Except J α) := by
  rintro _ ⟨⟩
  exact h

theorem declined_ok {α : Type} {a : α} : Declined (.ok a) := by
  rintro _ ⟨⟩

theorem delegate_declined {parentId : Str} {requested : List Str} : Tx.Returns Declined (delegate E parentId requested) := by
  have hfailure : ∀ kind error, Tx.Returns Declined (pure (.error (failure kind error)) : M (Except J J)) := fun _ _ =>
    Tx.returns_pure (declined_error refuses_failure)
  unfold delegate
  refine Tx.returns_ite (Tx.returns_pure declined_ok) (Tx.returns_bind fun parent => ?_)
  refine Tx.returns_ite (hfailure _ _) (Tx.returns_bind fun effects => Tx.returns_bind fun allowed => ?_)
  refine Tx.returns_ite (hfailure _ _) (Tx.returns_bind fun chain => Tx.returns_bind fun live => ?_)
  exact Tx.returns_ite (hfailure _ _) (Tx.returns_ite (hfailure _ _) (Tx.returns_pure declined_ok))

theorem review_declined {id hash : Str} : Tx.Returns Declined (review E req id hash) := by
  have hwrap : ∀ r, Refuses r → Declined (.error r : Except J Grant) := fun _ => declined_error
  unfold review
  refine returns_unless hwrap (Tx.returns_bind fun _ => returns_unless hwrap (Tx.returns_bind fun _ => ?_))
  refine returns_unless hwrap (Tx.returns_bind fun _ => returns_unless hwrap (Tx.returns_bind fun _ => ?_))
  refine Tx.returns_bind fun _ => Tx.returns_bind fun _ => Tx.returns_bind fun parentId => ?_
  intro s d t h
  obtain ⟨d', u, hdelegate, h⟩ := Tx.bind_ok.1 h
  cases d' with
  | error r =>
    obtain ⟨rfl, -⟩ := Tx.pure_ok.1 h
    exact declined_error (delegate_declined _ _ _ hdelegate r rfl)
  | ok chain =>
    refine Tx.returns_bind (fun _ => Tx.returns_bind fun _ => ?_) u d t h
    exact returns_unless hwrap (Tx.returns_pure declined_ok)

/-- A request that has an execution is refused, or answered by the result of this execution. -/
theorem replay_told {prior r : J} {id hash : Str} (h : replay prior id hash = .ok r) :
    Refuses r ∨ prior.get? "result" = some r := by
  unfold replay at h
  obtain ⟨sha, -, h⟩ := Tx.except_bind_ok h
  split at h
  · cases h
    exact .inl refuses_failure
  split at h
  · rename_i hcontains
    obtain ⟨v, hv⟩ := Option.isSome_iff_exists.1 hcontains
    obtain ⟨-, hr⟩ := J.index_ok.1 h
    rw [hv] at hr ⊢
    exact .inr (congrArg some hr)
  · exact .inl (refuses_assign refuses_failure h (by decide))

/-- `begin` admits, refuses, or answers with what is recorded under the id. -/
theorem begin_told {r : J} {s s' : St} (h : begin E enforce req s = .ok r s') : r = .null ∨ Refuses r ∨
    ∃ id, required req "request_id" = .ok id ∧ (s.db.get .execution id).get? "result" = some r := by
  unfold begin at h
  obtain ⟨id, hid, h⟩ := Tx.lift_bind_ok h
  obtain ⟨text, -, h⟩ := Tx.lift_bind_ok h
  obtain ⟨prior, _, hread, h⟩ := Tx.bind_ok.1 h
  obtain ⟨rfl, rfl⟩ := read_ok.1 hread
  rcases Tx.ite_ok h with ⟨-, h⟩ | ⟨-, h⟩
  · obtain ⟨hreplay, rfl⟩ := Tx.lift_ok.1 h
    rcases replay_told hreplay with hrefuses | hresult
    · exact .inr (.inl hrefuses)
    · exact .inr (.inr ⟨id, hid, hresult⟩)
  · obtain ⟨d, u, hreview, h⟩ := Tx.bind_ok.1 h
    have hdeclined := review_declined _ _ _ hreview
    cases d with
    | error refusal =>
      obtain ⟨rfl, -⟩ := Tx.pure_ok.1 h
      exact .inr (.inl (hdeclined _ rfl))
    | ok g =>
      have hrecord : Tx.Returns (OrNull Refuses) (recordExecution E g req) := fun s r t h => .inl (recordExecution_ok h).1
      have hwrap : ∀ v, Refuses v → OrNull Refuses v := fun _ => .inr
      dsimp only at h
      rcases Tx.ite_ok h with ⟨-, h⟩ | ⟨-, h⟩
      · exact (returns_unless hwrap hrecord u r s' h).imp_right .inl
      · exact (returns_unless hwrap hrecord u r s' h).imp_right .inl

end Admission

/-! ## Entering and leaving -/

section Entering

instance {P : J → Prop} {x : M J} [h : Gives P x] : Gives P (transaction x) :=
  ⟨fun s r t hx => h.out s r t (Tx.transaction_ok.1 hx)⟩

instance : Gives (OrNull Told) (query E enforce op req) := by
  unfold query
  infer_instance

/-- What is answered without an admission tells whether it has been carried out. -/
def Replied (entry : Entry) : Prop := ∀ r, entry = .reply r → Told r

theorem replied_reply {r : J} (h : Told r) : Replied (.reply r) := by
  rintro _ ⟨⟩
  exact h

theorem enter_replied : Tx.Returns Replied (enter E enforce req) := by
  have hwrap : ∀ r, Told r → Replied (.reply r) := fun _ => replied_reply
  have hfailure : ∀ kind error, Tx.Returns Replied (pure (.reply (failure kind error)) : M Entry) := fun _ _ =>
    Tx.returns_pure (replied_reply refuses_failure.told)
  unfold enter
  refine Tx.returns_ite (hfailure _ _) (Tx.returns_bind fun op => returns_unless hwrap (returns_unless hwrap ?_))
  refine Tx.returns_ite (Tx.returns_pure (by rintro _ ⟨⟩)) ?_
  unfold enterMutation
  refine Tx.returns_ite (hfailure _ _) (Tx.returns_bind fun request => Tx.returns_bind fun sound => ?_)
  refine Tx.returns_ite (hfailure _ _) (Tx.returns_bind fun result => Tx.returns_pure ?_)
  intro r h
  split at h <;> cases h

/-- A mutation that is not admitted is refused, or answered with what is recorded under its id. -/
theorem enter_refused {request r : J} {s s' : St} (h : enter E enforce req s = .ok (.refused request r) s') :
    Refuses r ∨ ∃ id, request.get? "request_id" = some (.str id) ∧ (s.db.get .execution id).get? "result" = some r := by
  cases enter_cases h with
  | refused _ hstill hbegin hne =>
    rcases begin_told hbegin with hnull | hrefuses | ⟨id, hid, hresult⟩
    · exact absurd hnull hne
    · exact .inl hrefuses
    · rw [hstill.exec] at hresult
      exact .inr ⟨id, (required_ok hid).1, hresult⟩

end Entering

/-! ## What is recorded -/

section Recorded

variable {s t : Sys} {l : Label}

/-- The results that are recorded tell whether they have been carried out. -/
def ResultsTold (s : Sys) : Prop := ∀ id r, (s.exec id).get? "result" = some r → Told r

/-- They do after a step, if what comes back in it does. -/
theorem ResultsTold.step (hs : Safe s) (hr : ResultsTold s) (h : Step E s l t)
    (hleaves : ∀ request outcome reply, l = .leave request outcome reply → Told reply) : ResultsTold t := by
  intro id r hresult
  cases hs.exec_step h id with
  | same he =>
    rw [he] at hresult
    exact hr id r hresult
  | admitted _ _ _ ha hg =>
    obtain ⟨_, _, _, hcreated⟩ := ha.created
    have he : t.exec id = _ := hg ▸ hcreated
    rw [he] at hresult
    simp [Grant.execution] at hresult
  | finished hl _ _ _ hfinished =>
    obtain ⟨error, -, hwritten⟩ := hfinished.result
    rw [show (t.exec id).get? "result" = _ from hwritten] at hresult
    split at hresult
    · exact hr id r hresult
    · cases hresult
      exact hleaves _ _ _ hl
  | recovered _ he hid _ _ hsame =>
    subst he
    obtain rfl := hs.recovered_id hid
    exact hr _ r (hsame ▸ hresult)

/-- A result that says `ok` belongs to an execution that is delivered. -/
theorem Phase.told {e r : J} (h : Phase e) (hresult : e.get? "result" = some r) (hok : r.get? "ok" = some (.bool true)) :
    e.get? "state" = some (.str "DELIVERED") := by
  cases h with
  | dispatching _ hnone | uncertain _ hnone => cases hnone.symm.trans hresult
  | delivered hstate => exact hstate
  | @failed r' _ hr hverdict =>
    obtain rfl : r' = r := Option.some.inj (hr.symm.trans hresult)
    have hread : r'.valueBool "ok" false = .ok true := J.value_ok.2 ⟨J.isObject_of_get? hok, .inl ⟨_, hok, rfl⟩⟩
    unfold verdict at hverdict
    obtain ⟨kind, -, hverdict⟩ := Tx.except_bind_ok hverdict
    split at hverdict
    · cases hverdict
    · rw [hread] at hverdict
      cases hverdict

end Recorded

end A2ad.Control
