/-
A failed execution has definitely failed, as long as the answer to its request is one the daemon
judges soundly. A server error is not, nor a stream that cannot be read, nor a download that fails
without a client error.
-/
import A2ad.Ipc.Verdict

namespace A2ad.Ipc

open Bytes Json Client TaskManager
open Control (Verdict verdict uncertain recorded)

/-! ## The verdict on an answer -/

/-- The outcome of a callback. -/
def outcomeOf : EStateM.Result Exception World J → Except Exception J
  | .ok j _ => .ok j
  | .error e _ => .error e

/-- What the verdict `v` says about an answer: what throws is left open, and a refusal goes by its kind. -/
def Judged (E : Env) (v : Verdict) : Answer → Prop
  | .call x m =>
    match x.classify E m with
    | .error _ => v = .uncertain
    | .ok r => if r.ok then v ≠ .failed else v = outcomeVerdict false r.errorKind.name
  | .stream _ _ _ r => v =
      if r.transportError then .uncertain else if r.success then .succeeded else .failed
  | .file _ kept =>
    match kept with
    | .error _ => v = .uncertain
    | .ok kept => v = if kept.toOption.isSome then .succeeded else .failed

theorem verdict_thrown (e : Exception) : verdict (recorded (.error e)) = .ok .uncertain := by rfl

theorem verdict_failed {kind : ErrorKind} : outcomeVerdict false kind.name = if unsettled kind then .uncertain else .failed := by
  unfold outcomeVerdict
  rw [uncertain_name]
  rfl

theorem verdict_succeeded : outcomeVerdict true [] = .succeeded := by decide

section Judged

variable {E : Env} {s : World}

theorem judged_call {endpoint : Str} {auth : AuthSpec} {method : Method} {params : J} {conclude : A2AResult → M J}
    (hp : (Prepared.call endpoint auth method params conclude).Reports) {a : Answer} {s' : World}
    (ha : (Prepared.call endpoint auth method params conclude).answer E s = .ok (some a) s') :
    ∃ v, verdict (recorded (outcomeOf ((Prepared.call endpoint auth method params conclude).run E s))) = .ok v ∧
      Judged E v a := by
  obtain ⟨x, w, hx, ha⟩ := Tx.bind_ok.1 ha
  obtain ⟨h, rfl⟩ := Tx.pure_ok.1 ha
  cases h
  simp only [Prepared.run, rpcCall, bind_assoc, Judged]
  rw [Tx.bind_of_ok hx]
  cases hr : x.classify E method with
  | error e =>
    refine ⟨.uncertain, ?_, rfl⟩
    have hthrow : ((liftM (Except.error e : Except Exception A2AResult) >>= conclude : M J)) w = .error e w :=
      Tx.bind_error.2 (.inl (Tx.lift_error.2 ⟨rfl, rfl⟩))
    rw [hthrow]
    exact verdict_thrown e
  | ok r =>
    rw [Tx.bind_of_ok (Tx.lift_of_ok rfl)]
    obtain ⟨hfollows, htotal⟩ := hp r w
    cases hj : conclude r w with
    | ok j u =>
      cases hok : r.ok with
      | true => exact ⟨_, ((hfollows j u hj).succeeded hok).verdict, by simp [hok, verdict_succeeded]⟩
      | false => exact ⟨_, ((hfollows j u hj).failed hok).verdict, by simp [hok]⟩
    | error e u =>
      refine ⟨.uncertain, verdict_thrown e, ?_⟩
      cases hok : r.ok with
      | true => simp [hok]
      | false =>
        obtain ⟨j, u', hj'⟩ := htotal hok
        rw [hj] at hj'
        cases hj'

/-- The request of a stream is answered as `openStream` says, and its result goes by the response. -/
theorem collect_answer {endpoint : Str} {auth : AuthSpec} {params : J} {a : Answer} {s' : World}
    (h : openStream E endpoint auth params s = .ok a s') : ∃ c events w protocol id chunks r,
      a = .stream protocol id chunks r ∧ collect E endpoint auth params s = .ok (streamResult c false r, events) w := by
  unfold openStream at h
  unfold collect streamCall
  obtain ⟨info, _, hinfo, h⟩ := Tx.bind_ok.1 h
  rw [Tx.bind_of_ok hinfo]
  obtain ⟨id, _, hid, h⟩ := Tx.bind_ok.1 h
  rw [Tx.bind_of_ok hid]
  rcases Tx.ite_ok h with ⟨hg, h⟩ | ⟨hg, h⟩
  · obtain ⟨_, _, hrec, h⟩ := Tx.bind_ok.1 h
    obtain ⟨rfl, rfl⟩ := observe_ok.1 h
    simp only [if_pos hg]
    rw [Tx.bind_of_ok hrec]
    exact ⟨_, _, _, _, _, _, _, rfl, rfl⟩
  · obtain ⟨req, _, hreq, h⟩ := Tx.bind_ok.1 h
    obtain ⟨_, _, hrec, h⟩ := Tx.bind_ok.1 h
    obtain ⟨rfl, rfl⟩ := observe_ok.1 h
    simp only [if_neg hg]
    rw [Tx.bind_of_ok hreq, Tx.bind_of_ok hrec]
    exact ⟨_, _, _, _, _, _, _, rfl, rfl⟩

theorem judged_stream {endpoint : Str} {auth : AuthSpec} {params : J} {conclude : A2AResult × List J → M J}
    (hp : (Prepared.stream endpoint auth params conclude).Reports) {a : Answer} {s' : World}
    (ha : (Prepared.stream endpoint auth params conclude).answer E s = .ok (some a) s') :
    ∃ v, verdict (recorded (outcomeOf ((Prepared.stream endpoint auth params conclude).run E s))) = .ok v ∧
      Judged E v a := by
  obtain ⟨answer, w, hx, ha⟩ := Tx.bind_ok.1 ha
  obtain ⟨h, rfl⟩ := Tx.pure_ok.1 ha
  cases h
  obtain ⟨c, events, u, protocol, id, chunks, r, rfl, hcollect⟩ := collect_answer hx
  obtain ⟨j, hj, hfollows⟩ := hp (streamResult c false r, events) u
  simp only [Prepared.run]
  rw [Tx.bind_of_ok hcollect, hj]
  simp only [Judged]
  unfold streamResult at hfollows
  simp only [Bool.false_eq_true, if_false] at hfollows
  by_cases herror : r.transportError = true
  · rw [if_pos herror] at hfollows
    rw [if_pos herror]
    refine ⟨_, (hfollows.failed rfl).verdict, ?_⟩
    rw [verdict_failed]
    rfl
  · rw [if_neg herror] at hfollows
    rw [if_neg herror]
    cases hs : r.success with
    | true =>
      rw [hs] at hfollows
      exact ⟨_, (hfollows.succeeded rfl).verdict, verdict_succeeded⟩
    | false =>
      rw [hs] at hfollows
      refine ⟨_, (hfollows.failed rfl).verdict, ?_⟩
      rw [verdict_failed]
      rfl

theorem materializeReply_verdict (kept : Except Str Str) :
    verdict (materializeReply kept) = .ok (if kept.toOption.isSome then .succeeded else .failed) := by
  cases kept with
  | error e => exact (replies_object rfl rfl : Replies false [] (plainRefusal e)).verdict
  | ok path => exact (replies_object rfl rfl : Replies true [] (materializeReply (.ok path))).verdict

theorem judged_fetch {request : HttpRequest} {keep : Str → Except Exception (Except Str Str)}
    {conclude : HttpResponse → M J} (hp : (Prepared.fetch request keep conclude).Reports) {a : Answer} {s' : World}
    (ha : (Prepared.fetch request keep conclude).answer E s = .ok (some a) s') :
    ∃ v, verdict (recorded (outcomeOf ((Prepared.fetch request keep conclude).run E s))) = .ok v ∧ Judged E v a := by
  obtain ⟨r, w, hx, ha⟩ := Tx.bind_ok.1 ha
  obtain ⟨h, rfl⟩ := Tx.pure_ok.1 ha
  cases h
  simp only [Prepared.run, Judged]
  rw [Tx.bind_of_ok hx]
  have hconclude := hp r w
  cases hkept : keptBy keep r with
  | error e =>
    rw [hkept] at hconclude
    obtain ⟨e', he⟩ := hconclude
    rw [he]
    exact ⟨_, verdict_thrown e', rfl⟩
  | ok kept =>
    rw [hkept] at hconclude
    obtain ⟨u, hj⟩ := hconclude
    rw [hj]
    exact ⟨_, materializeReply_verdict kept, rfl⟩

theorem Prepared.judged {p : Prepared} (hp : p.Reports) {a : Answer} {s' : World} (ha : p.answer E s = .ok (some a) s') :
    ∃ v, verdict (recorded (outcomeOf (p.run E s))) = .ok v ∧ Judged E v a := by
  cases p with
  | idle conclude => cases (Tx.pure_ok.1 ha).1
  | call => exact judged_call hp ha
  | stream => exact judged_stream hp ha
  | fetch => exact judged_fetch hp ha

theorem returned_join {α : Type} {r : EStateM.Result Exception World (Option α)} {a : α} (h : (returned r).join = some a) :
    ∃ s', r = .ok (some a) s' := by
  cases r with
  | ok b s' =>
    obtain rfl : b = some a := h
    exact ⟨s', rfl⟩
  | error e s' => cases h

/-- The verdict on the outcome of a dispatch whose request was answered. -/
theorem dispatch_judged {F : Files} {req : J} {a : Answer} (ha : answerTo E F req s = some a) :
    ∃ v, verdict (recorded (outcomeOf (dispatch E (materialize E F) req s))) = .ok v ∧ Judged E v a := by
  obtain ⟨s', ha⟩ := returned_join ha
  obtain ⟨name, _, hl, ha⟩ := Tx.bind_ok.1 ha
  obtain ⟨hname, rfl⟩ := Tx.lift_ok.1 hl
  unfold dispatch
  rw [Tx.bind_of_ok (Tx.lift_of_ok hname)]
  cases hop : Op.parse name with
  | none =>
    rw [hop] at ha
    cases (Tx.pure_ok.1 ha).1
  | some op =>
    rw [hop] at ha
    obtain ⟨p, w, hp, ha⟩ := Tx.bind_ok.1 ha
    simp only
    rw [perform_phases, Tx.bind_of_ok hp]
    exact Prepared.judged (prepare_reports op _ _ _ hp) ha

end Judged

/-! ## Sound verdicts -/

/-- A verdict says failed only where the agent has refused, and leaves open what the agent can have done. -/
structure Sound (parse : Str → Option J) (a : Answer) (v : Verdict) : Prop where
  failed : v = .failed → a.negative parse = true
  ambiguous : a.ambiguous parse = true → v = .uncertain

section Sound

variable {E : Env} {v : Verdict} {r : HttpResponse}

theorem success_not_error (h : r.success = true) : clientError r = false ∧ serverError r = false := by
  simp only [HttpResponse.success, Bool.and_eq_true, decide_eq_true_eq] at h
  simp only [clientError, serverError, Bool.and_eq_false_iff, decide_eq_false_iff_not]
  omega

/-- An error object can be read. -/
theorem envelope_readable {parse : Str → Option J} {protocol : Protocol} {id body : Str}
    (h : envelope parse protocol id body = true) : unreadable parse protocol id body = false := by
  unfold envelope at h
  split at h
  · cases h
  · rename_i j hparse
    obtain ⟨hanswers, -⟩ := Bool.and_eq_true_iff.1 h
    have hrest : ∀ j', protocol ≠ .rpc → answers protocol j' id = .ok true := by
      intro j' hp
      unfold answers
      rw [if_pos hp]
      rfl
    unfold unreadable responseBody
    split
    · rename_i hbody
      split at hbody
      · rw [hparse] at hbody
        cases hbody
      · split at hbody
        · cases hbody
        · rw [hparse] at hbody
          cases hbody
    · rename_i j' hbody
      split at hbody
      · rw [hparse] at hbody
        cases hbody
        simpa using hanswers
      · rename_i hp
        rw [hrest j' hp]
        rfl

/-- A refused call is judged by the kind of its error. -/
theorem judged_refused {x : Exchange} {m : Method} {out : A2AResult} (h : Judged E v (.call x m))
    (hout : x.classify E m = .ok out) (hr : out.ok = false) : v = if unsettled out.errorKind then .uncertain else .failed := by
  simp only [Judged, hout, hr, Bool.false_eq_true, if_false] at h
  rw [h, verdict_failed]

/-- The verdict on a call that succeeded is sound. -/
theorem sound_success {x : Exchange} {m : Method} (h : Judged E v (.call x m)) (hl : lost x.response = false)
    (hs : x.response.success = true) : Sound E.parse (.call x m) v := by
  obtain ⟨hce, hse⟩ := success_not_error hs
  constructor
  · rintro rfl
    cases hout : x.classify E m with
    | error e =>
      simp only [Judged, hout] at h
      cases h
    | ok out =>
      have hr : out.ok = false := by
        by_contra hok
        simp only [Judged, hout] at h
        exact (if_pos (by simpa using hok)).mp h rfl
      have hv := judged_refused h hout hr
      have hk : unsettled out.errorKind = false := by
        by_contra hk
        rw [if_pos (by simpa using hk)] at hv
        cases hv
      have henv := classify_failed hl hs hout hr hk
      exact Bool.or_eq_true_iff.2 (.inr henv)
  · intro ha
    have hu : unreadable E.parse x.protocol x.id x.response.body = true := by
      simpa [Answer.ambiguous, Answer.response, Answer.unreadable, hl, hse, hce] using ha
    cases hout : x.classify E m with
    | error e =>
      simp only [Judged, hout] at h
      exact h
    | ok out =>
      obtain ⟨hr, hk⟩ := classify_unreadable hl hs hu hout
      rw [judged_refused h hout hr, if_pos hk]

/-- The verdict on a call is sound exactly where its answer is clear. -/
theorem sound_call {x : Exchange} {m : Method} (h : Judged E v (.call x m)) :
    Sound E.parse (.call x m) v ↔ (Answer.call x m).clear E.parse = true := by
  cases hl : lost x.response with
  | true =>
    obtain ⟨out, hout, hr, hk⟩ : ∃ out, x.classify E m = .ok out ∧ out.ok = false ∧ unsettled out.errorKind = true :=
      classify_lost hl
    have hv := judged_refused h hout hr
    rw [if_pos hk] at hv
    subst hv
    exact ⟨fun _ => by simp [Answer.clear, hl], fun _ => ⟨nofun, fun _ => rfl⟩⟩
  | false =>
    cases hs : x.response.success with
    | true =>
      refine ⟨fun _ => ?_, fun _ => sound_success h hl hs⟩
      simp [Answer.clear, hl, hs, (success_not_error hs).2]
    | false =>
      obtain ⟨out, hout, hr, hk⟩ : ∃ out, x.classify E m = .ok out ∧ out.ok = false ∧ unsettled out.errorKind = false :=
        classify_unsuccessful hl hs
      have hv := judged_refused h hout hr
      rw [hk] at hv
      subst hv
      have hclear : (Answer.call x m).clear E.parse = (!serverError x.response && (Answer.call x m).negative E.parse) := by
        simp [Answer.clear, hl, hs]
      rw [hclear, Bool.and_eq_true, Bool.not_eq_true']
      constructor
      · intro hsound
        refine ⟨?_, hsound.failed rfl⟩
        by_contra hse
        have := hsound.ambiguous (by simp [Answer.ambiguous, Answer.response, (Bool.not_eq_false _).mp hse])
        cases this
      · rintro ⟨hse, hneg⟩
        refine ⟨fun _ => hneg, fun hamb => ?_⟩
        simp only [Answer.ambiguous, Answer.response, hl, hse, Bool.or_false, Bool.false_or, Bool.and_eq_true,
          Bool.not_eq_true'] at hamb
        obtain ⟨hce, hu⟩ := hamb
        simp only [Answer.negative, Answer.response, hce, Bool.false_or, Answer.envelope] at hneg
        rw [Answer.unreadable, envelope_readable hneg] at hu
        cases hu

/-- A verdict that leaves the outcome open is always sound, another one only of a clear refusal or success. -/
theorem sound_iff {parse : Str → Option J} {a : Answer} : Sound parse a v ↔
    v = .uncertain ∨ (a.ambiguous parse = false ∧ (v = .failed → a.negative parse = true)) := by
  constructor
  · intro h
    by_cases hv : v = .uncertain
    · exact .inl hv
    · refine .inr ⟨?_, h.failed⟩
      by_contra hamb
      exact hv (h.ambiguous (by simpa using hamb))
  · rintro (rfl | ⟨hamb, hneg⟩)
    · exact ⟨nofun, fun _ => rfl⟩
    · exact ⟨hneg, fun h => absurd h (by simp [hamb])⟩

theorem sound_stream {protocol : Protocol} {id : Str} {chunks : List Str} (h : Judged E v (.stream protocol id chunks r)) :
    Sound E.parse (.stream protocol id chunks r) v ↔ (Answer.stream protocol id chunks r).clear E.parse = true := by
  obtain rfl : v = _ := h
  rw [sound_iff]
  simp only [Answer.clear, Answer.ambiguous, Answer.negative, Answer.response, lost]
  generalize (Answer.stream protocol id chunks r).unreadable E.parse = unread
  generalize (Answer.stream protocol id chunks r).envelope E.parse = env
  cases herror : r.transportError with
  | true => simp
  | false =>
    cases hs : r.success with
    | true =>
      obtain ⟨hce, hse⟩ := success_not_error hs
      cases r.responseTooLarge <;> cases unread <;> simp [hce, hse]
    | false =>
      cases r.responseTooLarge <;> cases unread <;> cases env <;> cases clientError r <;> cases serverError r <;> simp

theorem sound_file {kept : Except Exception (Except Str Str)} (h : Judged E v (.file r kept)) :
    Sound E.parse (.file r kept) v ↔ (Answer.file r kept).clear E.parse = true := by
  cases kept with
  | error e =>
    obtain rfl : v = .uncertain := h
    exact ⟨fun _ => rfl, fun _ => sound_iff.2 (.inl rfl)⟩
  | ok kept =>
    obtain rfl : v = _ := h
    rw [sound_iff]
    simp only [Answer.clear, Answer.ambiguous, Answer.negative, Answer.response, Answer.unreadable]
    generalize (Answer.file r (.ok kept)).envelope E.parse = env
    cases kept.toOption.isSome <;> cases lost r <;> cases serverError r <;> cases clientError r <;> cases env <;> simp

/-- The verdict on an answered request is sound exactly where the answer is clear. -/
theorem sound_iff_clear {a : Answer} (h : Judged E v a) : Sound E.parse a v ↔ a.clear E.parse = true := by
  cases a with
  | call x m => exact sound_call h
  | stream => exact sound_stream h
  | file => exact sound_file h

end Sound

/-! ## Executions after their outcome -/

section Executions

variable {C : Control.Env} {s t : Control.Sys} {l : Control.Label} {tr : List (Move Control.Sys Control.Label)} {id : Str}

theorem verdict_assign {j j' v : J} (h : j.assign "execution_id" v = .ok j') (hj : j.isObject = true) :
    verdict j' = verdict j := by
  have hget := (J.get?_assign h · |>.2)
  have hobj := (J.get?_assign h []).1
  unfold verdict
  rw [J.valueStr_congr hobj hj ((hget _).trans (if_neg (by simp)))]
  have hok : j'.valueBool "ok" false = j.valueBool "ok" false := by
    show J.value .. = J.value ..
    rw [J.value, J.value, if_pos hobj, if_pos hj, (hget _).trans (if_neg (by simp))]
  rw [hok]

/-- What the outcome of a callback leaves in its execution. -/
theorem leave_recorded (hrun : Run (Control.Step C) Control.Sys.init tr s) {request reply : J}
    {outcome : Except Exception J} {v : Verdict} (hv : verdict (recorded outcome) = .ok v)
    (h : Control.Step C s (.leave request outcome reply) t) :
    ∃ id, request.get? "request_id" = some (.str id) ∧ id ≠ [] ∧ (t.exec id).get? "state" = some (.str v.state) ∧
      (v = .uncertain → (t.exec id).get? "result" = none) := by
  have hs := Control.safe_run hrun
  obtain ⟨id, _, _, v', hid, -, -, hwrote⟩ := h.wrote (Control.flightsCarried_run hrun)
  cases h with
  | leave hf h =>
    obtain ⟨id', hid', hassign, hfinish⟩ := Control.leave_ok h
    obtain rfl : id' = id := by simpa using hid'.symm.trans hid
    have hdisp := (hs.flight_exec (f := ⟨request, true⟩) (by rw [hf]; simp) hid).1
    have hne := J.ne_null_of_get? hdisp
    obtain ⟨r, -, hheld⟩ := Control.held_run hrun id' hne
    have hobj : (recorded outcome).isObject = true := by
      unfold verdict at hv
      obtain ⟨_, hkind, -⟩ := Tx.except_bind_ok hv
      exact (J.valueStr_ok.1 hkind).1
    obtain rfl : v' = v := by
      have := hwrote.verdict
      rw [verdict_assign hassign hobj, hv] at this
      exact (Except.ok.inj this).symm
    refine ⟨id', hid, (Control.required_ok hheld.origin.rid).2, hwrote.state, ?_⟩
    rintro rfl
    obtain ⟨error, herror, hresult⟩ := (Control.finish_ok hfinish).result
    have hopen : uncertain error = true := by
      have := hwrote.verdict
      unfold verdict at this
      rw [herror] at this
      by_contra hu
      simp only [bind, Except.bind, hu, if_false] at this
      split at this
      · cases this
      · split at this <;> cases this
    rw [if_pos hopen] at hresult
    refine hresult.trans ?_
    by_contra hsome
    obtain ⟨w, hw⟩ := Option.ne_none_iff_exists'.1 hsome
    exact ((hs.execs id' hne).result w hw).2 hdisp

/-- An execution that has left its dispatch stays as it is. -/
theorem settled_step (hs : Control.Safe s) (h : Control.Step C s l t) (hne : s.exec id ≠ .null)
    (hst : (s.exec id).get? "state" ≠ some (.str "DISPATCHING")) : t.exec id = s.exec id := by
  cases hs.exec_step h id with
  | same he => exact he
  | admitted _ _ hstill ha hg =>
    exact absurd (by rw [← hg]; exact (hstill.exec ..).symm.trans ha.fresh) hne
  | finished _ hid hf => exact absurd (hs.flight_exec hf hid).1 hst
  | recovered _ he hid hdisp =>
    subst he
    obtain rfl := hs.recovered_id hid
    exact absurd hdisp hst

theorem settled_run (hs : Control.Safe s) (hne : s.exec id ≠ .null)
    (hst : (s.exec id).get? "state" ≠ some (.str "DISPATCHING")) (h : Run (Control.Step C) s tr t) :
    t.exec id = s.exec id ∧ Control.Safe t :=
  h.invariant (I := fun _ u => u.exec id = s.exec id ∧ Control.Safe u) ⟨rfl, hs⟩ fun _ _ _ _ hu hstep =>
    ⟨(settled_step hu.2 hstep (hu.1 ▸ hne) (hu.1 ▸ hst)).trans hu.1, hu.2.step hstep⟩

theorem retryCheck_ok {u u' : Control.St} (hid : id ≠ []) (h : Control.retryCheck id u = .ok .null u') :
    (u.db.get .execution id).get? "state" = some (.str "FAILED") := by
  unfold Control.retryCheck at h
  rw [if_neg (by simpa using hid)] at h
  obtain ⟨e, _, hr, h⟩ := Tx.bind_ok.1 h
  obtain ⟨rfl, rfl⟩ := Control.read_ok.1 hr
  obtain ⟨b, _, hl, h⟩ := Tx.bind_ok.1 h
  obtain ⟨hb, rfl⟩ := Tx.lift_ok.1 hl
  rcases Tx.ite_ok h with ⟨rfl, -⟩ | ⟨-, h⟩
  · exact Control.hasState_ok hb (by decide)
  · obtain ⟨hnull, -⟩ := Tx.pure_ok.1 h
    cases hnull

/-- A retry is admitted only of a failed execution. -/
theorem retried_failed (hs : Control.Safe s) {req request : J} (h : Control.Step C s (.enter req (.admitted request)) t)
    (hid : id ≠ []) (hretry : request.get? "retry_of" = some (.str id)) :
    (s.exec id).get? "state" = some (.str "FAILED") := by
  obtain ⟨g, u, v, w, -, hst, ha⟩ := hs.admission h
  obtain rfl : g.retryOf = id := by
    rcases (J.valueStr_ok.1 ha.reviewed.retry).2 with hg | ⟨hg, -⟩
    · rw [hg] at hretry
      cases hretry
      rfl
    · rw [hg] at hretry
      cases hretry
  obtain ⟨x, y, hux, hcheck, -⟩ := ha.reviewed.retryAllowed
  have hfailed := retryCheck_ok hid hcheck
  rw [hux.exec, hst.exec] at hfailed
  exact hfailed

/-- The execution of `id` in `s` is recorded as failed only if its request was not made or the agent
refused it; and after an answer that leaves open what the agent has done it is uncertain, holds no
result, and is never named by the retry of an admitted request. -/
structure Definite (C : Control.Env) (parse : Str → Option J) (a : Option Answer) (id : Str) (s : Control.Sys) : Prop where
  failed : (s.exec id).get? "state" = some (.str "FAILED") → ∀ x, a = some x → x.negative parse = true
  ambiguous : ∀ x, a = some x → x.ambiguous parse = true →
    (s.exec id).get? "state" = some (.str "UNCERTAIN") ∧ (s.exec id).get? "result" = none ∧
      ∀ (tr : List (Move Control.Sys Control.Label)) (t : Control.Sys), Run (Control.Step C) s tr t →
        ∀ m ∈ tr, ∀ req request, m.label = .enter req (.admitted request) → request.get? "retry_of" ≠ some (.str id)

theorem state_inj {v w : Verdict} (h : v.state = w.state) : v = w := by
  revert h
  cases v <;> cases w <;> decide

/-- After an outcome the execution is definite exactly where the verdict is sound. -/
theorem definite_iff_sound {parse : Str → Option J} {a : Answer} {v : Verdict} (hs : Control.Safe s) (hid : id ≠ [])
    (hstate : (s.exec id).get? "state" = some (.str v.state))
    (hresult : v = .uncertain → (s.exec id).get? "result" = none) :
    Definite C parse (some a) id s ↔ Sound parse a v := by
  constructor
  · intro h
    refine ⟨?_, fun hamb => ?_⟩
    · rintro rfl
      exact h.failed hstate a rfl
    · have hopen := (h.ambiguous a rfl hamb).1
      rw [hstate] at hopen
      exact state_inj (J.str.inj (Option.some.inj hopen))
  · intro h
    refine ⟨fun hfailed => ?_, ?_⟩
    · rintro _ ⟨⟩
      rw [hstate] at hfailed
      exact h.failed (state_inj (w := .failed) (J.str.inj (Option.some.inj hfailed)))
    · rintro _ ⟨⟩ hamb
      obtain rfl := h.ambiguous hamb
      refine ⟨hstate, hresult rfl, fun tr t hrun m hm req request hl hretry => ?_⟩
      obtain ⟨l, l', rfl⟩ := List.append_of_mem hm
      obtain ⟨hpre, hstep, -⟩ := hrun.split
      have hne := J.ne_null_of_get? hstate
      obtain ⟨hkept, hsafe⟩ := settled_run hs hne (by rw [hstate]; decide) hpre
      rw [hl] at hstep
      have hfailed := retried_failed hsafe hstep hid hretry
      rw [hkept, hstate] at hfailed
      exact absurd hfailed (by decide)

end Executions

/-! ## Failed means definitely failed -/

/-- A response over gRPC is judged soundly unless it is an internal one. -/
theorem clear_grpc {parse : Str → Option J} {x : Exchange} {m : Method} {o : GrpcOutcome}
    (h : x.response = grpcResponse o) : (Answer.call x m).clear parse = true ↔ o.internal = false := by
  simp only [Answer.clear, Answer.negative, Answer.response, h]
  rcases grpcResponse_status o with ⟨herror, ho⟩ | ⟨herror, hstatus⟩
  · simp [lost, herror, ho]
  · rw [show lost (grpcResponse o) = false from Bool.or_eq_false_iff.2 ⟨herror, grpcResponse_size o⟩]
    split at hstatus
    · rename_i ho
      have hse : serverError (grpcResponse o) = true := by simp [serverError, hstatus]
      simp [hse, ho]
    · rename_i ho
      have hse : serverError (grpcResponse o) = false := by
        simp only [List.mem_cons, List.not_mem_nil, or_false] at hstatus
        rcases hstatus with hstatus | hstatus | hstatus | hstatus | hstatus <;> simp [serverError, hstatus]
      have hgood : (grpcResponse o).success = true ∨ clientError (grpcResponse o) = true := by
        simp only [List.mem_cons, List.not_mem_nil, or_false] at hstatus
        rcases hstatus with hstatus | hstatus | hstatus | hstatus | hstatus <;>
          simp [HttpResponse.success, clientError, hstatus]
      rcases hgood with hgood | hgood <;> simp [hse, hgood, ho]

/-- **Failed means definitely failed**, up to the answers the daemon misjudges. In every run, when
the outcome of a mutating operation is recorded, its execution is definite if and only if the
operation made no request or the answer to it is clear; over gRPC every answer to a call is clear
but an internal one. -/
theorem failed_is_definite (C : Control.Env) (E : Env) (F : Files) {tr : List (Move Control.Sys Control.Label)}
    {s t : Control.Sys} (hrun : Run (Control.Step C) Control.Sys.init tr s) {request reply : J} {w : World}
    (h : Control.Step C s (.leave request (outcomeOf (dispatch E (materialize E F) request w)) reply) t) :
    (∃ id, request.get? "request_id" = some (.str id) ∧
      (Definite C E.parse (answerTo E F request w) id t ↔ (answerTo E F request w).all (Answer.clear E.parse) = true)) ∧
    ∀ x m o, x.response = grpcResponse o → ((Answer.call x m).clear E.parse = true ↔ o.internal = false) := by
  refine ⟨?_, fun x m o => clear_grpc⟩
  have hs := (Control.safe_run hrun).step h
  cases ha : answerTo E F request w with
  | none =>
    cases hl : h with
    | leave _ hleave =>
      obtain ⟨id, hid, -⟩ := Control.leave_ok hleave
      exact ⟨id, hid, fun _ => rfl, fun _ => ⟨nofun, nofun⟩⟩
  | some a =>
    obtain ⟨v, hv, hjudged⟩ := dispatch_judged ha
    obtain ⟨id, hid, hne, hstate, hresult⟩ := leave_recorded hrun hv h
    refine ⟨id, hid, ?_⟩
    rw [definite_iff_sound hs hne hstate hresult]
    exact sound_iff_clear hjudged

/-! ## A gateway in front of the agent -/

/-- The surroundings of a daemon whose only agent is answered for by a gateway, always with `r`. -/
def gateway (r : HttpResponse) : Env := { Env.offline [] with http := fun _ _ => r }

/-- Files that are always kept. -/
def keepingFiles : Files where
  digest := id
  directory dir := .ok (.ok dir)
  create dir name _ := .ok (dir ++ [47] ++ name)

def gatewayRequest : J := Control.sampleSubmit "g" [("agent", .str builder.id)]

/-- What comes of the dispatch. -/
def gatewayOutcome (r : HttpResponse) : Except Exception J := outcomeOf
  (dispatch (gateway r) (materialize (gateway r) keepingFiles) gatewayRequest (World.offline (gateway r) []))

def gatewayStart : Control.Sys := { Control.Sys.init with up := true }

/-- The daemon dispatches the request to the agent, and its outcome is recorded. -/
def gatewayMoves (r : HttpResponse) : List (Move Control.Sys Control.Label) :=
  ⟨Control.Sys.init, .boot false, gatewayStart⟩ ::
    Control.callMoves Control.sampleEnv gatewayRequest (gatewayOutcome r) gatewayStart

def gatewayEnd (r : HttpResponse) : Control.Sys := Control.lastState (gatewayMoves r)

def gatewayAnswer (r : HttpResponse) : Option Answer :=
  answerTo (gateway r) keepingFiles gatewayRequest (World.offline (gateway r) [])

/-- A request that retries the first. -/
def gatewayRetry : J := Control.sampleSubmit "r" [("agent", .str builder.id), ("retry_of", .str "g")]

set_option maxRecDepth 20000 in
theorem gatewayRequest_admitted :
    (Control.enterMove Control.sampleEnv gatewayRequest gatewayStart).post.flights = [⟨gatewayRequest, false⟩] := rfl

/-- The daemon while its call waits for the gateway. -/
def gatewayStarted : Control.Sys :=
  (Control.startMove gatewayRequest (Control.enterMove Control.sampleEnv gatewayRequest gatewayStart).post).post

/-- The move that records what the gateway answered. -/
def gatewayLeft (r : HttpResponse) : Move Control.Sys Control.Label :=
  Control.leaveMove Control.sampleEnv gatewayRequest (gatewayOutcome r) gatewayStarted

theorem gatewayMoves_eq (r : HttpResponse) :
    ∃ before, gatewayMoves r = before ++ [gatewayLeft r] ∧ gatewayEnd r = (gatewayLeft r).post :=
  ⟨[⟨Control.Sys.init, .boot false, gatewayStart⟩, Control.enterMove Control.sampleEnv gatewayRequest gatewayStart,
    Control.startMove gatewayRequest (Control.enterMove Control.sampleEnv gatewayRequest gatewayStart).post], rfl,
    Control.lastState_callMoves [⟨Control.Sys.init, .boot false, gatewayStart⟩]⟩

theorem gateway_error_run (r : HttpResponse) : Run (Control.Step Control.sampleEnv) Control.Sys.init (gatewayMoves r)
    (gatewayEnd r) := by
  have hend : gatewayEnd r =
      Control.lastState (Control.callMoves Control.sampleEnv gatewayRequest (gatewayOutcome r) gatewayStart) :=
    Control.lastState_callMoves [⟨Control.Sys.init, .boot false, gatewayStart⟩]
  rw [hend]
  exact .cons rfl (.boot rfl rfl) (Control.callMoves_run rfl gatewayRequest_admitted)

/-- The answer is recorded at the end of a run. -/
theorem gatewayLeft_step (r : HttpResponse) : ∃ before, Run (Control.Step Control.sampleEnv) Control.Sys.init before
    gatewayStarted ∧ Control.Step Control.sampleEnv gatewayStarted (gatewayLeft r).label (gatewayEnd r) := by
  obtain ⟨before, hmoves, hend⟩ := gatewayMoves_eq r
  have hrun := gateway_error_run r
  rw [hmoves] at hrun
  obtain ⟨hbefore, hstep, -⟩ := hrun.split
  rw [show (gatewayLeft r).pre = gatewayStarted from Control.leaveMove_pre] at hbefore hstep
  exact ⟨before, hbefore, hend ▸ hstep⟩

/-- Both answers are recorded, and as failures. -/
theorem gateway_failed (r : HttpResponse) (hr : r.status = 404 ∨ r.status = 500) (hbody : r = { status := r.status }) :
    (Tx.result? (Control.leave Control.sampleEnv gatewayRequest (gatewayOutcome r) gatewayStarted.st)).isSome = true ∧
      ((gatewayEnd r).exec "g").get? "state" = some (.str "FAILED") := by
  rw [hbody]
  rcases hr with hr | hr
  all_goals
    rw [hr]
    decide +kernel

set_option maxRecDepth 20000 in
/-- The agent says there is no such task: its refusal is recorded as a failure. -/
theorem failed_is_definite_refused :
    Definite Control.sampleEnv (gateway { status := 404 }).parse (gatewayAnswer { status := 404 }) "g"
        (gatewayEnd { status := 404 }) ∧
      ((gatewayEnd { status := 404 }).exec "g").get? "state" = some (.str "FAILED") := by
  obtain ⟨hleft, hfailed⟩ := gateway_failed { status := 404 } (.inl rfl) rfl
  obtain ⟨before, hrun, hstep⟩ := gatewayLeft_step { status := 404 }
  obtain ⟨reply, hlabel⟩ := Control.leaveMove_label hleft
  rw [show (gatewayLeft { status := 404 }).label = _ from hlabel] at hstep
  obtain ⟨⟨id, hid, hiff⟩, -⟩ := failed_is_definite Control.sampleEnv (gateway { status := 404 }) keepingFiles hrun
    (w := World.offline (gateway { status := 404 }) []) hstep
  obtain rfl : lit "g" = id := J.str.inj (Option.some.inj hid)
  exact ⟨hiff.2 (by decide), hfailed⟩

/-- The daemon is there for a retry after the server error, and admits it. -/
theorem gatewayRetry_admitted : (gatewayEnd { status := 500 }).up = true ∧
    (Tx.result? (Control.enter Control.sampleEnv (gatewayEnd { status := 500 }).enforce gatewayRetry
      (gatewayEnd { status := 500 }).st)).map (fun entry => entry.flights.map (·.request)) = some [gatewayRetry] := by
  decide +kernel

/-- The gateway answers with a server error: the execution has failed, although the agent can have
acted, and a retry of it is admitted. -/
theorem server_error_retried :
    Run (Control.Step Control.sampleEnv) Control.Sys.init (gatewayMoves { status := 500 }) (gatewayEnd { status := 500 }) ∧
      (∃ m ∈ gatewayMoves { status := 500 }, ∃ reply, m.label = .leave gatewayRequest (gatewayOutcome { status := 500 }) reply ∧
        m.post = gatewayEnd { status := 500 }) ∧
      ¬ Definite Control.sampleEnv (gateway { status := 500 }).parse (gatewayAnswer { status := 500 }) "g"
        (gatewayEnd { status := 500 }) ∧
      ∃ u, Control.Step Control.sampleEnv (gatewayEnd { status := 500 }) (.enter gatewayRetry (.admitted gatewayRetry)) u := by
  obtain ⟨hleft, hfailed⟩ := gateway_failed { status := 500 } (.inr rfl) rfl
  obtain ⟨reply, hlabel⟩ := Control.leaveMove_label hleft
  obtain ⟨before, hmoves, hend⟩ := gatewayMoves_eq { status := 500 }
  obtain ⟨hup, hretry⟩ := gatewayRetry_admitted
  obtain ⟨u, hretried⟩ := Control.enter_admitted hretry
  have hlast : gatewayLeft { status := 500 } ∈ gatewayMoves { status := 500 } := by rw [hmoves]; simp
  refine ⟨gateway_error_run _, ⟨_, hlast, reply, hlabel, hend.symm⟩, fun h => ?_, _, .enter hup hretried⟩
  have hopen := (h.ambiguous _ rfl (by decide)).1
  rw [hfailed] at hopen
  exact absurd hopen (by decide)

end A2ad.Ipc
