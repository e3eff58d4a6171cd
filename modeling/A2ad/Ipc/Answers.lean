/-
What the daemon answers: over every run each reply tells whether its request has been carried out, and what is
told of a mutation is what is recorded of it, for good.
-/
import A2ad.Control.Answers
import A2ad.Ipc.Once

namespace A2ad.Ipc

open Bytes Json Client TaskManager
open Control (Gives Told OrNull gives_pure gives_bind gives_ite)

/-! ## Replies of the task manager -/

section Operations

variable {E : Env} {F : Files} {req : J}

instance {error kind : Str} : Gives Told (pure (refusal error kind) : M J) := gives_pure ⟨false, replies_refusal.ok⟩

instance {r : A2AResult} : Gives Told (pure (resultRefusal r) : M J) := gives_pure ⟨false, replies_refusal.ok⟩

instance {error : Str} : Gives Told (pure (plainRefusal error) : M J) := gives_pure ⟨false, (replies_plainRefusal error).ok⟩

theorem told_ite {c : Prop} [Decidable c] {r r' : J} (h : Told r) (h' : Told r') : Told (if c then r else r') := by
  split <;> assumption

instance {tasks : List Task} : Gives Told (pure (listReply tasks) : M J) := gives_pure ⟨true, by simp [listReply]⟩

instance {t : Task} : Gives Told (pure (statusReply t) : M J) := gives_pure ⟨true, by simp [statusReply]⟩

instance {r : A2AResult} {updates : List Task} : Gives Told (pure (subscribeReply r updates) : M J) :=
  gives_pure (told_ite ⟨true, by simp⟩ ⟨false, by simp⟩)

instance {r : A2AResult} : Gives Told (pure (if r.ok then remoteListReply r else resultRefusal r) : M J) :=
  gives_pure (told_ite ⟨true, by simp [remoteListReply]⟩ ⟨false, replies_refusal.ok⟩)

instance {r : A2AResult} {events : J} : Gives Told (pure ((resultRefusal r).set "events" events) : M J) := by
  refine gives_pure ⟨false, ?_⟩
  rw [J.get?_set rfl, if_neg (by decide)]
  exact replies_refusal.ok

instance {kept : Except Str Str} : Gives Told (pure (materializeReply kept) : M J) := by
  cases kept with
  | error e => exact inferInstanceAs (Gives Told (pure (plainRefusal e) : M J))
  | ok path => exact gives_pure ⟨true, by simp [materializeReply]⟩

instance {r : A2AResult} : Gives Told (pushResult r) := by
  unfold pushResult
  infer_instance

/-- Every operation tells. -/
instance {op : Op} : Gives Told (perform E (materialize E F) req op) := by
  cases op with
  | submit =>
    unfold perform submit
    refine gives_bind (h := fun requested => gives_bind (h := fun cwd => ?_))
    split <;> infer_instance
  | list => unfold perform listOp; infer_instance
  | remoteList => unfold perform remoteList; infer_instance
  | streamSubmit => unfold perform streamSubmit; infer_instance
  | subscribe => unfold perform subscribe; infer_instance
  | pushCreate => unfold perform pushCreate; infer_instance
  | pushGet => unfold perform pushGet; infer_instance
  | pushList => unfold perform pushList; infer_instance
  | pushDelete => unfold perform pushDelete; infer_instance
  | extendedCard => unfold perform extendedCard; infer_instance
  | status =>
    have hstored : ∀ (id : Str) (stored : Option Task), Gives Told (match stored with
        | none => pure (plainRefusal (lit "no such task: " ++ id))
        | some t => pure (statusReply t) : M J) := by
      intro id stored
      cases stored <;> infer_instance
    unfold perform status
    infer_instance
  | respond => unfold perform respondOp; infer_instance
  | cancel => unfold perform cancel; infer_instance
  | agents => unfold perform agentsOp; infer_instance
  | discover => unfold perform discoverOp; infer_instance
  | materialize => unfold perform materialize; infer_instance
  | ping => unfold perform; infer_instance

instance : Gives Told (dispatch E (materialize E F) req) := by
  unfold dispatch
  refine gives_bind (h := fun name => ?_)
  cases Op.parse name <;> infer_instance

end Operations

/-! ## Replies of mutations -/

/-- A reply that says how an operation has ended: one that has ended well names no kind of error. -/
def Reported (j : J) : Prop := ∃ ok kind, Replies ok kind j ∧ (ok = true → kind = [])

section Reported

theorem Reported.told {j : J} (h : Reported j) : Told j := by
  obtain ⟨ok, kind, hreplies, -⟩ := h
  exact ⟨ok, hreplies.ok⟩

theorem Replies.reported {kind : Str} {j : J} (h : Replies false kind j) : Reported j := ⟨false, kind, h, nofun⟩

theorem reported_object {fields : List (Str × J)} (h : J.find "ok" fields = some (.bool true))
    (hk : J.find "error_kind" fields = none) : Reported (.object fields) :=
  ⟨true, [], replies_object h hk, fun _ => rfl⟩

theorem Follows.reported {r : A2AResult} {j : J} (h : Follows r j) : Reported j := by
  cases hr : r.ok with
  | true => exact ⟨true, [], h.succeeded hr, fun _ => rfl⟩
  | false => exact (h.failed hr).reported

theorem reported_materialize (kept : Except Str Str) : Reported (materializeReply kept) := by
  cases kept with
  | error e => exact (replies_plainRefusal e).reported
  | ok path => exact reported_object rfl rfl

/-- The reply with the id of its execution. -/
theorem Reported.assign {j j' v : J} (h : Reported j) (hassign : j.assign "execution_id" v = .ok j') : Reported j' := by
  obtain ⟨ok, kind, ⟨hobj, hok, hkind⟩, hquiet⟩ := h
  refine ⟨ok, kind, ⟨?_, ?_, ?_⟩, hquiet⟩
  · refine J.isObject_of_get? (k := "ok") (v := .bool ok) ?_
    rw [(J.get?_assign hassign _).2, if_neg (by decide)]
    exact hok
  · rw [(J.get?_assign hassign _).2, if_neg (by decide)]
    exact hok
  · rw [(J.get?_assign hassign _).2, if_neg (by decide)]
    exact hkind

/-- An operation that is reported done is a success to the control plane. -/
theorem Reported.verdict {j : J} (h : Reported j) (hok : j.get? "ok" = some (.bool true)) :
    Control.verdict j = .ok .succeeded ∧ ∀ error, j.valueStr "error_kind" "" = .ok error → Control.uncertain error = false := by
  obtain ⟨ok, kind, hreplies, hquiet⟩ := h
  obtain rfl : ok = true := by simpa using hreplies.ok.symm.trans hok
  obtain rfl := hquiet rfl
  refine ⟨hreplies.verdict, fun error herror => ?_⟩
  have hkind : j.valueStr "error_kind" "" = .ok [] := J.valueStr_ok.2 ⟨hreplies.object, hreplies.kind.imp_right fun k => ⟨k.1, k.2.symm⟩⟩
  obtain rfl := Except.ok.inj (herror.symm.trans hkind)
  decide

end Reported

/-! ## Callbacks -/

/-- However the request of the operation is answered, its conclusion reports. -/
def Prepared.Concludes : Prepared → Prop
  | .idle conclude => Gives Reported conclude
  | .call _ _ _ _ conclude => ∀ r, Gives Reported (conclude r)
  | .stream _ _ _ conclude => ∀ answer, Gives Reported (conclude answer)
  | .fetch _ _ conclude => ∀ r, Gives Reported (conclude r)

/-- What a callback will come back with is reported. -/
def Stage.Reports : Stage → Prop
  | .started => True
  | .prepared p => p.Concludes
  | .answered conclude => Gives Reported conclude
  | .returned outcome => Reported (Control.recorded outcome)

section Callbacks

variable {E : Env} {F : Files} {req request : J} {id : Str} {op : Op} {s s' : World}

theorem reported_throw (e : Exception) : Reported (Control.recorded (.error e)) :=
  ⟨false, "dispatch_exception", ⟨rfl, by simp [Control.recorded, Control.failure], .inl (by simp [Control.recorded, Control.failure])⟩, nofun⟩

instance {kept : Except Str Str} : Gives Reported (pure (materializeReply kept) : M J) := gives_pure (reported_materialize kept)

theorem prepareMaterialize_concludes : Tx.Returns Prepared.Concludes (prepareMaterialize E F req) := by
  have hidle : ∀ {conclude : M J}, Gives Reported conclude → (Prepared.idle conclude).Concludes := fun h => h
  unfold prepareMaterialize
  refine Tx.returns_bind fun _ => Tx.returns_bind fun _ => Tx.returns_bind fun _ => Tx.returns_bind fun _ =>
    Tx.returns_bind fun _ => Tx.returns_bind fun stored => ?_
  cases stored with
  | none => exact Tx.returns_pure (hidle inferInstance)
  | some t =>
    dsimp only
    split
    · exact Tx.returns_pure (hidle inferInstance)
    · split
      · exact Tx.returns_pure (hidle inferInstance)
      · exact Tx.returns_pure (hidle inferInstance)
      · refine Tx.returns_bind fun found => ?_
        cases found with
        | error e => exact Tx.returns_pure (hidle inferInstance)
        | ok request => exact Tx.returns_pure fun r => inferInstance

theorem Prepared.Reports.concludes {p : Prepared} (h : p.Reports) (hidle : ∀ conclude, p = .idle conclude → Gives Reported conclude)
    (hfetch : ∀ request keep conclude, p = .fetch request keep conclude → ∀ r, Gives Reported (conclude r)) : p.Concludes := by
  cases p with
  | idle conclude => exact hidle conclude rfl
  | call _ _ _ _ conclude => exact fun r => ⟨fun s j s' hj => ((h r s).1 j s' hj).reported⟩
  | stream _ _ _ conclude =>
    refine fun answer => ⟨fun s j s' hj => ?_⟩
    obtain ⟨j', hj', hfollows⟩ := h answer s
    cases hj'.symm.trans hj
    exact hfollows.reported
  | fetch request keep conclude => exact hfetch request keep conclude rfl

/-- What a mutation prepares reports in the end. -/
theorem prepare_concludes (hid : req.valueStr "request_id" "" = .ok id) (hne : id ≠ []) (hop : Control.mutation op.name = true) :
    Tx.Returns Prepared.Concludes (prepare E F req op) := by
  intro s p s' h
  by_cases hmethod : op.method.isSome = true
  · have hfits := prepare_fits hid hne hop s p s' h
    refine (prepare_reports op s p s' h).concludes ?_ ?_
    · rintro conclude rfl
      refine ⟨fun s j s' hj => ?_⟩
      obtain ⟨kind, hrefused⟩ := hfits.2 hmethod s j s' hj
      exact hrefused.reported
    · rintro request keep conclude rfl
      exact absurd hmethod (by simp [hfits.1])
  · cases op with
    | materialize => exact prepareMaterialize_concludes s p s' h
    | submit | respond | cancel | streamSubmit | pushCreate | pushDelete => exact absurd rfl hmethod
    | _ => exact absurd hop (by decide)

theorem prepares_concludes (hm : Service.Mutates request id op) : Tx.Returns Prepared.Concludes (prepares E F request) := by
  have hobj : request.isObject = true := J.isObject_of_get? hm.asked
  have hop : request.valueStr "op" "" = .ok op.name := J.valueStr_ok.2 ⟨hobj, .inl hm.asked⟩
  have hid : request.valueStr "request_id" "" = .ok id := J.valueStr_ok.2 ⟨hobj, .inl hm.carried⟩
  unfold prepares
  refine Tx.returns_lift_bind fun name hname => ?_
  obtain rfl : name = op.name := Except.ok.inj (hname.symm.trans hop)
  rw [Op.parse_name]
  exact prepare_concludes hid hm.named hm.mutates

theorem Prepared.Concludes.ask {p : Prepared} (h : p.Concludes) : Tx.Returns (Gives Reported) (p.ask E) := by
  cases p with
  | idle conclude => exact Tx.returns_pure h
  | call _ _ _ _ conclude => exact Tx.returns_bind fun r => Tx.returns_pure (h r)
  | stream _ _ _ conclude => exact Tx.returns_bind fun answer => Tx.returns_pure (h answer)
  | fetch _ _ conclude => exact Tx.returns_bind fun r => Tx.returns_pure (h r)

/-- A phase that may throw goes on to a stage that reports. -/
theorem reports_onward {α : Type} {P : α → Prop} {x : M α} (next : α → Stage) {stage' : Stage} {w' : World} (hx : Tx.Returns P x)
    (hnext : ∀ a, P a → (next a).Reports) (h : some (onward next (x s)) = some (stage', w')) : stage'.Reports := by
  unfold onward at h
  cases hs : x s with
  | ok a t =>
    rw [hs] at h
    cases h
    exact hnext a (hx s a _ hs)
  | error e t =>
    rw [hs] at h
    cases h
    exact reported_throw e

theorem Stage.Reports.next {stage stage' : Stage} (hm : Service.Mutates request id op) (h : stage.Reports)
    (hnext : stage.next E F request s = some (stage', s')) : stage'.Reports := by
  cases stage with
  | started => exact reports_onward .prepared (prepares_concludes hm) (fun _ h => h) hnext
  | prepared p => exact reports_onward .answered h.ask (fun _ h => h) hnext
  | answered conclude => exact reports_onward (fun j => .returned (.ok j)) h.out (fun _ h => h) hnext
  | returned outcome => cases hnext

end Callbacks

/-! ## Runs -/

namespace Service

/-- What `handle` answers in a turn. -/
def reply (E : Env) (F : Files) (m : Move Service Turn) : Option J :=
  match m.label with
  | .enters _ (.reply r) => some r
  | .enters _ (.refused _ r) => some r
  | .enters _ (.plain req) => Tx.result? (dispatch (m.pre.env E) (materialize (m.pre.env E) F) req m.pre.tasks)
  | .leaves _ _ r => some r
  | _ => none

/-- What a mutation is answered in a turn. -/
def answered (m : Move Service Turn) : Option (J × J) :=
  match m.label with
  | .enters _ (.refused request r) => some (request, r)
  | .leaves request _ r => some (request, r)
  | _ => none

/-- What is in flight will be reported, and what is recorded has been. -/
structure Telling (s : Service) : Prop where
  callbacks : ∀ c ∈ s.callbacks, c.stage.Reports
  results : Control.ResultsTold s.control

section Telling

variable {C : Control.Env} {E : Env} {F : Files} {s t : Service} {turn : Turn} {tr : List (Move Service Turn)}

/-- The reply to a callback is what it has come back with. -/
theorem Step.reported {request r : J} {outcome : Except Exception J} (ht : s.Telling) (h : Step C E F s (.leaves request outcome r) t) :
    Reported r := by
  cases h with
  | leaves hl hleave =>
    have hreports := ht.callbacks ⟨request, .returned outcome⟩ (by simp [hl])
    cases hleave with
    | leave _ hleft =>
      obtain ⟨_, -, hassign, -⟩ := Control.leave_ok hleft
      exact Reported.assign hreports hassign

theorem telling_step (hrun : Run (Step C E F) {} tr s) (ht : s.Telling) (h : Step C E F s turn t) : t.Telling := by
  have hs := Control.safe_run (control_run hrun)
  have hcontrol := h.control
  constructor
  · intro c hc
    cases h with
    | starts =>
      rcases List.mem_append.1 hc with hc | hc
      · exact ht.callbacks c hc
      · rw [List.mem_singleton.1 hc]
        trivial
    | @advances request stage stage' w l l' hl hnext =>
      have hin : ⟨request, stage⟩ ∈ s.callbacks := by simp [hl]
      obtain ⟨id, op, hentitled⟩ := callback_entitled hrun hin
      rcases List.mem_append.1 hc with hc | hc
      · exact ht.callbacks c (by simp [hl, hc])
      · rcases List.mem_cons.1 hc with rfl | hc
        · exact (ht.callbacks _ hin).next hentitled.toMutates hnext
        · exact ht.callbacks c (by simp [hl, hc])
    | leaves hl => exact ht.callbacks c (by rw [hl]; rcases List.mem_append.1 hc with hc | hc <;> simp [hc])
    | drops hl => exact ht.callbacks c (by rw [hl]; rcases List.mem_append.1 hc with hc | hc <;> simp [hc])
    | enters | refuses | logs | works => exact ht.callbacks c hc
    | boots | crashes => cases hc
  · cases hlabel : turn.label with
    | none =>
      rw [hlabel] at hcontrol
      rw [hcontrol]
      exact ht.results
    | some l =>
      rw [hlabel] at hcontrol
      refine ht.results.step hs hcontrol ?_
      rintro request outcome r rfl
      obtain rfl : turn = .leaves request outcome r := by
        cases turn <;> cases hlabel
        rfl
      exact (h.reported ht).told

theorem telling_run (h : Run (Step C E F) {} tr s) : s.Telling := by
  refine h.invariant_of (I := fun _ s => s.Telling) ⟨?_, ?_⟩ fun _ _ _ _ hrun ht hstep => telling_step hrun ht hstep
  · intro c hc
    cases hc
  · intro id r hr
    cases hr

/-- Each reply tells. -/
theorem told_turn (ht : s.Telling) (h : Step C E F s turn t) {r : J} (hr : reply E F ⟨s, turn, t⟩ = some r) : Told r := by
  cases h with
  | @enters req entry u hentered =>
    cases hentered with
    | enter _ henter =>
      cases entry with
      | reply r' =>
        cases hr
        exact Control.enter_replied _ _ _ henter r rfl
      | refused request r' =>
        cases hr
        rcases Control.enter_refused henter with hrefuses | ⟨id, -, hresult⟩
        · exact hrefuses.told
        · exact ht.results id r hresult
      | plain req' => exact (inferInstance : Gives Told (dispatch (s.env E) (materialize (s.env E) F) req')).out _ _ _ (Tx.ok_of_result hr)
      | admitted => cases hr
  | leaves hl hleave =>
    cases hr
    exact ((Step.leaves (C := C) (E := E) (F := F) hl hleave).reported ht).told
  | refuses | starts | advances | drops | logs | works | boots | crashes => cases hr

/-- What a mutation is told to have done is recorded by then. -/
theorem recorded_turn (hrun : Run (Step C E F) {} tr s) (h : Step C E F s turn t) {request r : J} {id : Str}
    (hr : answered ⟨s, turn, t⟩ = some (request, r)) (hid : request.get? "request_id" = some (.str id))
    (hok : r.get? "ok" = some (.bool true)) :
    (t.control.exec id).get? "state" = some (.str "DELIVERED") ∧ (t.control.exec id).get? "result" = some r := by
  have hs := Control.safe_run (control_run hrun)
  have hrecord : (t.control.exec id).get? "result" = some r := by
    cases h with
    | @enters _ entry u hentered =>
      cases entry with
      | refused _ _ =>
        cases hr
        have hsame : u.exec id = s.control.exec id := by
          cases hs.exec_step hentered id with
          | same he => exact he
          | admitted hl | finished hl | recovered hl => cases hl
        cases hentered with
        | enter _ henter =>
          rcases Control.enter_refused henter with hrefuses | ⟨id', hid', hresult⟩
          · cases hok.symm.trans hrefuses
          · obtain rfl : id' = id := by simpa using hid'.symm.trans hid
            exact hsame ▸ hresult
      | reply | plain | admitted => cases hr
    | @leaves _ _ outcome _ l l' hl hleave =>
      cases hr
      have hreported := (Step.leaves (C := C) (E := E) (F := F) hl hleave).reported (telling_run hrun)
      cases hleave with
      | leave _ hleft =>
        obtain ⟨id', hid', -, hfinish⟩ := Control.leave_ok hleft
        obtain rfl : id' = id := by simpa using hid'.symm.trans hid
        obtain ⟨error, herror, hresult⟩ := (Control.finish_ok hfinish).result
        rw [(hreported.verdict hok).2 error herror] at hresult
        exact hresult
    | refuses | starts | advances | drops | logs | works | boots | crashes => cases hr
  have hphase := Control.phase_run (control_run (hrun.snoc h)) (J.ne_null_of_get? hrecord)
  exact ⟨hphase.told hrecord hok, hrecord⟩

theorem aged_turn {e : J} {id : Str} (hs : Control.Safe s.control) (ha : Control.Aged e (s.control.exec id))
    (h : Step C E F s turn t) : Control.Aged e (t.control.exec id) := by
  have hcontrol := h.control
  cases hlabel : turn.label with
  | none =>
    rw [hlabel] at hcontrol
    rw [hcontrol]
    exact ha
  | some l =>
    rw [hlabel] at hcontrol
    exact ha.step hs hcontrol

/-- It stays so for the rest of the run. -/
theorem recorded_run (h : Run (Step C E F) {} tr s) {m : Move Service Turn} (hm : m ∈ tr) {request r : J} {id : Str}
    (hr : answered m = some (request, r)) (hid : request.get? "request_id" = some (.str id))
    (hok : r.get? "ok" = some (.bool true)) :
    (s.control.exec id).get? "state" = some (.str "DELIVERED") ∧ (s.control.exec id).get? "result" = some r := by
  obtain ⟨before, after, rfl⟩ := List.append_of_mem hm
  obtain ⟨hbefore, hstep, hafter⟩ := h.split
  obtain ⟨hstate, hresult⟩ := recorded_turn hbefore hstep hr hid hok
  have hage : Control.Aged (m.post.control.exec id) (s.control.exec id) :=
    hafter.invariant_of (I := fun _ s => Control.Aged (m.post.control.exec id) (s.control.exec id))
      (.refl (J.ne_null_of_get? hstate)) fun _ _ _ _ hrun ha hturn =>
        aged_turn (Control.safe_run (control_run ((hbefore.snoc hstep).append hrun))) ha hturn
  have hsettled : ¬ Control.Dispatching (m.post.control.exec id) := fun hd => by cases hd.symm.trans hstate
  rw [hage.frozen hsettled]
  exact ⟨hstate, hresult⟩

/-- **What is told is what is recorded.** In every run of the daemon, whatever calls, failures, crashes and restarts
it interleaves, each reply tells by a boolean `ok` whether the request has been carried out. A mutation that is told to
have been is recorded as delivered from then on, with this very reply as its result; so no two replies that tell
of the success of one request id differ. -/
theorem told_for_good (C : Control.Env) (E : Env) (F : Files) {tr : List (Move Service Turn)} {s : Service}
    (h : Run (Step C E F) {} tr s) {m : Move Service Turn} (hm : m ∈ tr) {r : J} (hr : reply E F m = some r) :
    (∃ b, r.get? "ok" = some (.bool b)) ∧
      ∀ request id, answered m = some (request, r) → request.get? "request_id" = some (.str id) →
        r.get? "ok" = some (.bool true) →
          (s.control.exec id).get? "state" = some (.str "DELIVERED") ∧ (s.control.exec id).get? "result" = some r ∧
            ∀ m' ∈ tr, ∀ request' r', answered m' = some (request', r') → request'.get? "request_id" = some (.str id) →
              r'.get? "ok" = some (.bool true) → r' = r := by
  constructor
  · obtain ⟨before, after, rfl⟩ := List.append_of_mem hm
    obtain ⟨hbefore, hstep, -⟩ := h.split
    exact told_turn (telling_run hbefore) hstep hr
  · intro request id hanswered hid hok
    obtain ⟨hstate, hresult⟩ := recorded_run h hm hanswered hid hok
    refine ⟨hstate, hresult, fun m' hm' request' r' hanswered' hid' hok' => ?_⟩
    obtain ⟨-, hresult'⟩ := recorded_run h hm' hanswered' hid' hok'
    exact Option.some.inj (hresult'.symm.trans hresult)

/-! ### A submission that is reported -/

/-- What the client of the delivered submission is told. -/
def deliveredReply : J := (Tx.result? (Control.leave Control.sampleEnv gatewayRequest talkingOutcome gatewayStarted.st)).getD .null

theorem delivered_label : deliveredMove.label = .leave gatewayRequest talkingOutcome deliveredReply := by
  unfold deliveredMove deliveredReply Control.leaveMove
  have hleft := talking_delivers.1
  cases hleave : Control.leave Control.sampleEnv gatewayRequest talkingOutcome gatewayStarted.st with
  | ok r t => rfl
  | error e t =>
    rw [hleave] at hleft
    cases hleft

theorem deliveredReply_ok : deliveredReply.get? "ok" = some (.bool true) := by decide +kernel

theorem told_for_good_delivered : ∃ tr s, Run (Step Control.sampleEnv talking keepingFiles) {} tr s ∧
    (s.control.exec "g").get? "result" = some deliveredReply := by
  obtain ⟨before, hbefore⟩ := admittedService_run
  obtain ⟨during, hduring⟩ := staged_run (C := Control.sampleEnv) (E := talking) (F := keepingFiles) admittedService [] gatewayRequest []
    admittedService.tasks
  have hleave : Control.Step Control.sampleEnv gatewayStarted (.leave gatewayRequest talkingOutcome deliveredReply) deliveredMove.post :=
    delivered_label ▸ Control.leaveMove_step gatewayStarted_flights
  have hrun := (hbefore.append hduring).snoc (@Step.leaves _ talking keepingFiles _ _ _ _ _ [] [] rfl hleave)
  obtain ⟨-, htold⟩ := told_for_good Control.sampleEnv talking keepingFiles hrun
    (List.mem_append_right _ (List.mem_singleton_self _)) (r := deliveredReply) rfl
  exact ⟨_, _, hrun, (htold gatewayRequest "g" rfl rfl deliveredReply_ok).2.1⟩

end Telling

end Service

end A2ad.Ipc
