/-
`handle` on two twin stores, for a request and for the request renamed: `begin`, `finish`, the two
halves of a call and the recovery pass end alike, throw alike and leave twin stores behind.
-/
import A2ad.Control.Dispatch
import A2ad.Control.Lockstep

namespace A2ad.Control

open Bytes Json

variable {E : Env} {R : Str → Str → Prop} {ρ : Text → Text} {req : J}

/-! ## The checks of `begin` -/

section Checks

theorem leaseCheck_renamed : leaseCheck E (renamed ρ req) = leaseCheck E req := by
  simp (disch := decide) only [leaseCheck, renamed_contains, renamed_field]

theorem continuationCheck_renamed {id : Str} : continuationCheck (renamed ρ req) id = continuationCheck req id := by
  simp (disch := decide) only [continuationCheck, pendingFor, renamed_valueStr]

theorem review_renamed {id hash : Str} : review E (renamed ρ req) id hash = review E req id hash := by
  simp (disch := decide) only [review, leaseCheck_renamed, continuationCheck_renamed, renamed_valueStr, renamed_valueJson]

theorem hasState_twin {state : Str} {v v' : J} (h : J.Twin "request_sha256" R v v') : hasState state v' = hasState state v := by
  simp only [hasState, h.isNull, h.valueStr (k := "state") (by decide)]

instance {retryOf : Str} : Unaware E R (retryCheck retryOf) := by
  unfold retryCheck
  refine ⟨Tx.agree_ite Iff.rfl (Tx.agree_pure rfl) (Tx.agree_bind (agree_read _ _) fun v v' h => ?_)⟩
  rw [hasState_twin (h.twin rfl)]
  exact Tx.blind _

instance {supplied lease : J} : Unaware E R (leaseMatches E supplied lease) := by
  unfold leaseMatches
  infer_instance

instance : Unaware E R (leaseCheck E req) := by
  unfold leaseCheck
  infer_instance

instance {id : Str} : Unaware E R (continuationCheck req id) := by
  unfold continuationCheck
  infer_instance

instance {agent : Str} : Unaware E R (quarantineCheck agent) := by
  unfold quarantineCheck
  infer_instance

instance {id : Str} : Unaware E R (sessionCheck id) := by
  unfold sessionCheck
  infer_instance

instance {v : J} : Unaware E R (grantLive E v) := by
  unfold grantLive
  infer_instance

theorem grantLive_twin {v v' : J} (h : J.Twin "request_sha256" R v v') : grantLive E v' = grantLive E v := by
  simp only [grantLive, lapsed, hasState_twin h, h.valueInt64 (k := "expires_at") (by decide)]

instance {chain : List J} : Unaware E R (grantsLive E chain) := by
  induction chain with
  | nil => exact Tx.blind_pure true
  | cons ancestor rest ih =>
    unfold grantsLive
    refine ⟨Tx.agree_lift_bind fun v => Tx.agree_lift_bind fun id => Tx.agree_bind (agree_read _ id) fun v v' h => ?_⟩
    rw [grantLive_twin (h.twin rfl)]
    exact Tx.blind _

instance {parentId : Str} {requested : List Str} : Unaware E R (delegate E parentId requested) := by
  unfold delegate
  refine ⟨Tx.agree_ite Iff.rfl (Tx.agree_pure rfl) (Tx.agree_bind (agree_read _ _) fun v v' h => ?_)⟩
  have h := h.twin rfl
  rw [h.isNull, h.field (by decide), h.field (by decide)]
  exact Tx.blind _

end Checks

/-! ## `begin` -/

/-- Two grants of one request and of the request renamed: all but the hash is the same. -/
structure GrantTwin (R : Str → Str → Prop) (g g' : Grant) : Prop where
  hash : R g.hash g'.hash
  rest : g' = { g with hash := g'.hash }

/-- The refusal is the same, or both requests have passed. -/
inductive Reviews (R : Str → Str → Prop) : Except J Grant → Except J Grant → Prop
  | refused (refusal : J) : Reviews R (.error refusal) (.error refusal)
  | granted {g g' : Grant} : GrantTwin R g g' → Reviews R (.ok g) (.ok g')

section Begin

variable {id hash hash' : Str} {g g' : Grant}

theorem agree_review (h : R hash hash') :
    Tx.Agree (Twins E R) (Reviews R) (review E req id hash) (review E req id hash') := by
  unfold review
  refine Tx.agree_blind fun refusal => Tx.agree_ite Iff.rfl (Tx.agree_pure (.refused _)) ?_
  refine Tx.agree_lift_bind fun continuationId => Tx.agree_blind fun refusal =>
    Tx.agree_ite Iff.rfl (Tx.agree_pure (.refused _)) ?_
  refine Tx.agree_lift_bind fun retryOf => Tx.agree_blind fun refusal => Tx.agree_ite Iff.rfl (Tx.agree_pure (.refused _)) ?_
  refine Tx.agree_lift_bind fun agent => Tx.agree_blind fun refusal => Tx.agree_ite Iff.rfl (Tx.agree_pure (.refused _)) ?_
  refine Tx.agree_lift_bind fun list => Tx.agree_lift_bind fun requested => Tx.agree_lift_bind fun op => ?_
  refine Tx.agree_lift_bind fun parentId => Tx.agree_blind fun delegated => ?_
  cases delegated with
  | error refusal => exact Tx.agree_pure (.refused _)
  | ok chain =>
    refine Tx.agree_lift_bind fun chain => Tx.agree_lift_bind fun sessionId => Tx.agree_blind fun refusal => ?_
    exact Tx.agree_ite Iff.rfl (Tx.agree_pure (.refused _)) (Tx.agree_pure (.granted ⟨h, rfl⟩))

theorem GrantTwin.approval {created : Int} {taskId : Str} (h : GrantTwin R g g') :
    J.Twin "request_sha256" R (g.approval created taskId) (g'.approval created taskId) := by
  rw [h.rest]
  refine J.twin_object (.cons (.same (by decide)) (.cons (.same (by decide)) (.cons (.text h.hash) ?_)))
  exact .cons (.same (by decide)) (.cons (.same (by decide)) (.cons (.same (by decide)) (.cons (.same (by decide))
    (.cons (.same (by decide)) .nil))))

theorem GrantTwin.execution {started deadline : Int} {taskId : Str} (h : GrantTwin R g g') :
    J.Twin "request_sha256" R (g.execution started deadline taskId) (g'.execution started deadline taskId) := by
  rw [h.rest]
  refine J.twin_object (.cons (.same (by decide)) (.cons (.same (by decide)) (.cons (.text h.hash) ?_)))
  iterate 11 refine .cons (.same (by decide)) ?_
  exact .nil

variable [hR : Pairing R]

theorem agree_requestApproval (h : GrantTwin R g g') :
    Tx.Agree (Twins E R) (J.Twin "request_sha256" R) (requestApproval E g req) (requestApproval E g' (renamed ρ req)) := by
  simp (disch := decide) only [requestApproval, renamed_valueStr]
  rw [h.rest]
  refine Tx.agree_bind (agree_read _ _) fun v v' hv => Tx.agree_ite (by rw [hv.isNull]) (Tx.agree_pure (hv.twin rfl)) ?_
  refine Tx.agree_blind fun created => Tx.agree_lift_bind fun taskId => ?_
  have happroval : J.Twin "request_sha256" R (g.approval created taskId) (g'.approval created taskId) := h.approval
  rw [h.rest] at happroval
  refine Tx.agree_bind (agree_write (recordTwin_of_twin rfl happroval)) fun _ _ _ => Tx.agree_blind fun _ => ?_
  exact Tx.agree_pure happroval

theorem same_text {h h' s s' : Str} (hp : R h h') (hs : R s s') : (J.str h').same (.str s') = (J.str h).same (.str s) := by
  simp only [J.same, J.str.injEq, hR.eq_iff hp hs]

theorem agree_approvalGate (h : GrantTwin R g g') :
    Tx.Agree (Twins E R) (Matches E R) (approvalGate E g req) (approvalGate E g' (renamed ρ req)) := by
  unfold approvalGate
  refine Tx.agree_bind (agree_requestApproval h) fun v v' hv => Tx.agree_bind (Tx.agree_lift hv.field_text) ?_
  rintro _ _ ⟨s, s', rfl, rfl, hs⟩
  refine Tx.agree_ite (by rw [same_text hs h.hash]) (Tx.agree_pure (.same _)) ?_
  refine Tx.agree_bind_eq (Tx.agree_lift (Tx.alike_of_eq (hv.index (by decide)).symm)) fun state => ?_
  refine Tx.agree_ite Iff.rfl (Tx.agree_bind (Tx.agree_lift (.ok (J.sameBut_set (twin_sameBut hv)))) fun _ _ hr =>
    Tx.agree_pure hr) ?_
  refine Tx.agree_bind_eq (Tx.agree_lift (Tx.alike_of_eq (hv.field (by decide)).symm)) fun expires => ?_
  exact agree_unaware

theorem agree_recordExecution (h : GrantTwin R g g') :
    Tx.Agree (Twins E R) Eq (recordExecution E g req) (recordExecution E g' (renamed ρ req)) := by
  simp (disch := decide) only [recordExecution, renamed_valueStr]
  rw [h.rest]
  refine Tx.agree_blind fun started => Tx.agree_blind fun deadline => Tx.agree_lift_bind fun taskId => ?_
  have hexecution : J.Twin "request_sha256" R (g.execution started (deadline + 60) taskId)
      (g'.execution started (deadline + 60) taskId) := h.execution
  rw [h.rest] at hexecution
  refine Tx.agree_bind (agree_write (recordTwin_of_twin rfl hexecution)) fun _ _ _ => ?_
  refine Tx.agree_bind_eq (agree_append (.inr (J.twin_object ?_))) fun _ => Tx.agree_pure rfl
  iterate 4 refine .cons (.same (by decide)) ?_
  exact .cons (.text h.hash) (.cons (.same (by decide)) (.cons (.same (by decide)) .nil))

theorem alike_replay {prior prior' : J} (hp : J.Twin "request_sha256" R prior prior') (h : R hash hash') :
    Tx.Alike (Matches E R) (replay prior id hash) (replay prior' id hash') := by
  unfold replay
  refine Tx.alike_bind hp.field_text ?_
  rintro _ _ ⟨s, s', rfl, rfl, hs⟩
  rw [same_text hs h, hp.contains (by decide), hp.index (by decide)]
  exact (Tx.alike_same _).mono fun _ _ he => he ▸ .same _

/-- `begin` on a request and on the request renamed, whose hashes are paired. -/
theorem agree_begin {enforce : Bool} (hhash : ∀ x x', (canonical req).dump = .ok x →
      (canonical (renamed ρ req)).dump = .ok x' → R (E.digest x) (E.digest x')) :
    Tx.Agree (Twins E R) (Matches E R) (begin E enforce req) (begin E enforce (renamed ρ req)) := by
  unfold begin
  rw [renamed_required (by decide)]
  refine Tx.agree_lift_bind fun id => Tx.agree_bind (Tx.agree_lift dump_renamed) fun x x' hx => ?_
  have h := hhash x x' hx.1 hx.2
  refine Tx.agree_bind (agree_read _ id) fun prior prior' hp => ?_
  refine Tx.agree_ite (by rw [hp.isNull]) (Tx.agree_lift (alike_replay (hp.twin rfl) h)) ?_
  rw [review_renamed]
  refine Tx.agree_bind (agree_review h) fun d d' hd => ?_
  cases hd with
  | refused refusal => exact Tx.agree_pure (.same _)
  | @granted g g' hg =>
    have hgoverned : governed enforce (renamed ρ req) g' = governed enforce req g := by
      rw [hg.rest, governed, governed, renamed_contains (by decide)]
    have hrecorded : ∀ refusal refusal', Matches E R refusal refusal' → Tx.Agree (Twins E R) (Matches E R)
        (if (!refusal.isNull) = true then pure refusal else recordExecution E g req)
        (if (!refusal'.isNull) = true then pure refusal' else recordExecution E g' (renamed ρ req)) :=
      fun _ _ hr => Tx.agree_ite (by rw [hr.isNull]) (Tx.agree_pure hr)
        ((agree_recordExecution hg).mono fun _ _ he => he ▸ .same _)
    refine Tx.agree_ite (by rw [hgoverned]) (Tx.agree_bind (agree_approvalGate hg) hrecorded) ?_
    exact Tx.agree_bind (Tx.agree_pure (.same _)) hrecorded

end Begin

/-! ## `finish`, the constructor -/

section Finish

variable {id : Str} {result : J}

theorem alike_finished {state error : Str} {time : Int} {v v' : J} (h : J.Twin "request_sha256" R v v') :
    Tx.Alike (J.Twin "request_sha256" R) (finished v result state error time) (finished v' result state error time) := by
  have hcopy : ∀ {key : Str} {v v' : J}, key ≠ "request_sha256" → J.Twin "request_sha256" R v v' →
      J.Twin "request_sha256" R (copyField result key v) (copyField result key v') := by
    intro key v v' hkey h
    unfold copyField
    cases result.get? key with
    | none => exact h
    | some w => exact h.set hkey
  unfold finished
  refine Tx.alike_bind (h.assign (by decide)) fun v v' h => .ok (hcopy (by decide) (hcopy (by decide) (J.Twin.set ?_ (by decide))))
  split
  · exact h
  · exact h.set (by decide)

variable [Pairing R]

set_option synthInstance.maxSize 2000

instance {continuationId : Str} : Unaware E R (deliverContinuation E continuationId id) := by
  unfold deliverContinuation
  infer_instance

instance {agent error : Str} : Unaware E R (recordHealth agent error result) := by
  unfold recordHealth
  infer_instance

instance : Unaware E R (finish E id result) := by
  unfold finish
  refine ⟨Tx.agree_bind (agree_read _ id) fun v v' h => Tx.agree_lift_bind fun error => Tx.agree_lift_bind fun state => ?_⟩
  refine Tx.agree_blind fun time => Tx.agree_bind (Tx.agree_lift (alike_finished (h.twin rfl))) fun v v' h => ?_
  refine Tx.agree_bind_eq (agree_write (recordTwin_of_twin rfl h)) fun _ => ?_
  rw [h.valueStr (by decide), h.valueStr (by decide), h.index (by decide)]
  exact Tx.blind _

theorem agree_recoverOne {v v' : J} (h : J.Twin "request_sha256" R v v') :
    Tx.Agree (Twins E R) Eq (recoverOne E v) (recoverOne E v') := by
  unfold recoverOne
  rw [h.valueStr (by decide)]
  refine Tx.agree_lift_bind fun state => Tx.agree_ite Iff.rfl ?_ (Tx.agree_pure rfl)
  refine Tx.agree_bind (Tx.agree_lift (h.assign (by decide))) fun v v' h => ?_
  refine Tx.agree_bind (Tx.agree_lift (h.assign (by decide))) fun v v' h => ?_
  rw [h.field (by decide)]
  refine Tx.agree_lift_bind fun id => Tx.agree_lift_bind fun text => ?_
  exact Tx.agree_bind_eq (agree_write (recordTwin_of_twin rfl h)) fun _ => Tx.blind _

theorem agree_recover {vs vs' : List J} (h : List.Forall₂ (RecordTwin R .execution) vs vs') :
    Tx.Agree (Twins E R) Eq (recover E vs) (recover E vs') := by
  induction h with
  | nil => exact Tx.agree_pure rfl
  | cons hv _ ih => exact Tx.agree_bind_eq (agree_recoverOne (hv.twin rfl)) fun _ => ih

theorem agree_startup : Tx.Agree (Twins E R) Eq (startup E) (startup E) :=
  agree_transaction (Tx.agree_bind (agree_list .execution) fun _ _ h => agree_recover h)

end Finish

/-! ## The halves of a call -/

/-- How two calls get to the dispatch: with replies that match, or with one request and the same
request renamed. -/
inductive EntryMatches (E : Env) (R : Str → Str → Prop) (ρ : Text → Text) : Entry → Entry → Prop
  | reply {v v' : J} : Matches E R v v' → EntryMatches E R ρ (.reply v) (.reply v')
  | plain (req : J) : EntryMatches E R ρ (.plain req) (.plain (renamed ρ req))
  | refused {request v v' : J} : Matches E R v v' →
    EntryMatches E R ρ (.refused request v) (.refused (renamed ρ request) v')
  | admitted (request : J) : EntryMatches E R ρ (.admitted request) (.admitted (renamed ρ request))

section Halves

variable {enforce : Bool}

/-- The request `begin` sees, and what it sees of the renamed one. -/
theorem agree_withRequestId (hm : mutates req = true) : Tx.Agree (Twins E R)
    (fun r r' => r' = renamed ρ r ∧ canonical r = canonical req) (withRequestId E req) (withRequestId E (renamed ρ req)) := by
  have hobj := isObject_of_mutates hm
  unfold withRequestId
  rw [renamed_contains (by decide)]
  refine Tx.agree_ite Iff.rfl (Tx.agree_pure ⟨rfl, rfl⟩) (Tx.agree_blind fun id => Tx.agree_lift ?_)
  rw [J.assign, J.assign, isObject_renamed, hobj]
  exact .ok ⟨renamed_set (by decide) (by decide) hobj, J.erase_set hobj⟩

theorem digestOk_renamed : digestOk (renamed ρ req) = digestOk req := by
  rw [digestOk, digestOk, renamed_valueStr (by decide), renamed_get? (by decide)]

/-- A mutation is none of the control plane's own operations. -/
theorem enter_mutation (hm : mutates req = true) : enter E enforce req = enterMutation E enforce req := by
  funext s
  obtain ⟨op, hop, hmutation⟩ := op_of_mutates hm
  have hobj := isObject_of_mutates hm
  have hopv : req.valueStr "op" "" = .ok op := J.valueStr_ok.2 ⟨hobj, .inl hop⟩
  have hquery : query E enforce op req = pure .null := by
    rw [query, mutation_not_query hmutation]
    rfl
  have hcontrol : transaction (control E enforce req) s = .ok .null s := Tx.transaction_ok.2 (control_mutation hopv hmutation s)
  rw [enter, if_neg (by simp [hobj]), Tx.bind_of_ok (Tx.lift_of_ok hopv), hquery]
  rw [Tx.bind_of_ok (Tx.pure_ok.2 ⟨rfl, rfl⟩), if_neg (by decide), Tx.bind_of_ok hcontrol, if_neg (by decide), if_neg (by simp [hmutation])]

theorem agree_query {op : Str} : Tx.Agree (Twins E R) (Matches E R) (query E enforce op req) (query E enforce op req) :=
  Tx.agree_ite Iff.rfl agree_readOnly (Tx.agree_pure (.same _))

variable [Pairing R]

theorem agree_leave {request : J} {outcome : Except Exception J} :
    Tx.Agree (Twins E R) Eq (leave E request outcome) (leave E (renamed ρ request) outcome) := by
  unfold leave
  rw [renamed_field (by decide)]
  refine Tx.agree_lift_bind fun id => Tx.agree_lift_bind fun result => Tx.agree_lift_bind fun text => ?_
  exact Tx.agree_bind_eq (agree_transaction (Tx.blind _)) fun _ => Tx.agree_pure rfl

theorem agree_enterMutation (hm : mutates req = true) (hhash : ∀ x x', (canonical req).dump = .ok x →
      (canonical (renamed ρ req)).dump = .ok x' → R (E.digest x) (E.digest x')) :
    Tx.Agree (Twins E R) (EntryMatches E R ρ) (enterMutation E enforce req) (enterMutation E enforce (renamed ρ req)) := by
  unfold enterMutation
  rw [renamed_contains (by decide), renamed_contains (by decide)]
  refine Tx.agree_ite Iff.rfl (Tx.agree_pure (.reply (.same _))) ?_
  refine Tx.agree_bind (agree_withRequestId hm) fun request request' hr => ?_
  obtain ⟨rfl, hcanonical⟩ := hr
  rw [digestOk_renamed]
  refine Tx.agree_lift_bind fun ok => Tx.agree_ite Iff.rfl (Tx.agree_pure (.reply (.same _))) ?_
  rw [canonical_renamed, ← hcanonical, ← canonical_renamed] at hhash
  refine Tx.agree_bind (agree_transaction (agree_begin hhash)) fun v v' hv => Tx.agree_pure ?_
  rw [hv.isNull]
  split
  · exact .admitted request
  · exact .refused hv

theorem agree_enter (hhash : ∀ x x', (canonical req).dump = .ok x → (canonical (renamed ρ req)).dump = .ok x' →
      R (E.digest x) (E.digest x')) :
    Tx.Agree (Twins E R) (EntryMatches E R ρ) (enter E enforce req) (enter E enforce (renamed ρ req)) := by
  cases hm : mutates req with
  | true =>
    rw [enter_mutation hm, enter_mutation (mutates_renamed.trans hm)]
    exact agree_enterMutation hm hhash
  | false =>
    have hplain : EntryMatches E R ρ (.plain req) (.plain req) := by
      have hsame : EntryMatches E R ρ (.plain req) (.plain (renamed ρ req)) := .plain req
      rwa [renamed_of_not hm] at hsame
    rw [renamed_of_not hm]
    unfold enter
    refine Tx.agree_ite Iff.rfl (Tx.agree_pure (.reply (.same _))) (Tx.agree_lift_ok fun op hop => ?_)
    refine Tx.agree_bind agree_query fun v v' hv => Tx.agree_ite (by rw [hv.isNull]) (Tx.agree_pure (.reply hv)) ?_
    refine Tx.agree_bind (agree_transaction agree_control) fun v v' hv =>
      Tx.agree_ite (by rw [hv.isNull]) (Tx.agree_pure (.reply hv)) ?_
    -- a request that is passed on to `begin` is a mutation
    by_cases hmutation : mutation op = true
    · have hget := get?_of_valueStr hop (by rintro rfl; cases hmutation)
      rw [mutates, hget] at hm
      exact absurd hmutation (by simp [hm])
    · rw [if_pos (by simpa using hmutation)]
      exact Tx.agree_pure hplain

end Halves

end A2ad.Control
