/-
The approval gate: a governed mutation is dispatched only on an approval that the owner has
granted for that very content, that has not been revoked since, and that had not run out when the
request was admitted.
-/
import A2ad.Control.System

namespace A2ad.Control

open Bytes Json

variable {E : Env} {s t : Sys} {l : Label} {tr : List (Move Sys Label)}

/-! ## What a step does to the approvals -/

/-- A request of an operation of the control plane, answered with `ok`. -/
structure Accepted (op id : Str) (l : Label) (req reply : J) : Prop where
  label : l = .enter req (.reply reply)
  op : req.get? "op" = some (.str op)
  id : req.get? "id" = some (.str id)
  ok : reply.get? "ok" = some (.bool true)

/-- `approval.revoke` of the id takes effect in the step. -/
def Revokes (id : Str) (m : Move Sys Label) : Prop := ∃ req reply, Accepted "approval.revoke" id m.label req reply

/-- `approval.decide` of the id with `allow=true` takes effect in the step, with expiry `x`. -/
def Grants (id : Str) (x : Int) (m : Move Sys Label) : Prop :=
  (∃ req reply, Accepted "approval.decide" id m.label req reply ∧ req.get? "allow" = some (.bool true)) ∧
  (m.post.grant id).get? "expires_at" = some (.int x)

/-- The step asks for the approval of the id, on the request `r`. -/
structure Asks (id : Str) (r : J) (m : Move Sys Label) : Prop where
  label : ∃ req result, m.label = .enter req (.refused r result)
  rid : r.get? "request_id" = some (.str id)
  fresh : m.pre.grant id = .null
  pending : (m.post.grant id).get? "state" = some (.str "PENDING")

/-- The ways a step can treat the approval `id`. -/
inductive GrantStep (E : Env) (s : Sys) (l : Label) (t : Sys) (id : Str) : Prop
  | same : t.grant id = s.grant id → ¬ Revokes id ⟨s, l, t⟩ → GrantStep E s l t id
  | asked {r : J} {text : Str} : Asks id r ⟨s, l, t⟩ → (canonical r).dump = .ok text →
    (t.grant id).get? "request_sha256" = some (.str (E.digest text)) → GrantStep E s l t id
  | revoked : Revoked id s.st t.st → GrantStep E s l t id
  | decided {req reply : J} {allow : Bool} {x : Int} : Accepted "approval.decide" id l req reply →
    req.get? "allow" = some (.bool allow) → Decided id allow x s.st t.st → GrantStep E s l t id

theorem not_revokes (h : ∀ req reply, l ≠ .enter req (.reply reply)) (id : Str) : ¬ Revokes id ⟨s, l, t⟩ := by
  rintro ⟨req, reply, ha⟩
  exact h req reply ha.label

theorem Accepted.id_eq {op id id' : Str} {req reply : J} (h : Accepted op id l req reply)
    (hid : required req "id" = .ok id') : id = id' := by
  simpa using h.id.symm.trans (required_ok hid).1

/-- What the control transaction of a request does to an approval. -/
theorem control_grant {enforce : Bool} {req reply : J} {u : St} (hs : Still s.st u)
    (h : control E enforce req u = .ok reply t.st) (id : Str) :
    GrantStep E s (.enter req (.reply reply)) t id ∧ (reply = .null → t.grant id = s.grant id) := by
  have hpre : ∀ id', u.db.get .approval id' = s.grant id' := fun id' => hs.exec ..
  rcases control_cases h with ⟨hop, h⟩ | ⟨hop, h⟩ | ⟨hop, hframe⟩
  · rcases approvalRevoke_cases h with ⟨hok, hstill⟩ | ⟨hok, -, id', hid, hrev⟩
    · have hsame : t.grant id = s.grant id := (hstill.exec ..).trans (hpre id)
      refine ⟨.same hsame ?_, fun _ => hsame⟩
      rintro ⟨_, _, ha⟩
      cases ha.label
      simpa using hok.symm.trans ha.ok
    · refine ⟨?_, fun e => by rw [e] at hok; cases hok⟩
      by_cases he : id = id'
      · subst he
        exact .revoked ⟨by rw [← hs.exec]; exact hrev.pre, hrev.state, fun k hk => by rw [hrev.rest k hk, hs.exec],
          fun id' h' => by rw [hrev.others id' h', hs.exec]⟩
      · refine .same ((hrev.others id he).trans (hpre id)) ?_
        rintro ⟨_, _, ha⟩
        cases ha.label
        exact he (ha.id_eq hid)
  · have hnot : ¬ Revokes id ⟨s, .enter req (.reply reply), t⟩ := by
      rintro ⟨_, _, ha⟩
      cases ha.label
      simpa using hop.symm.trans ha.op
    rcases approvalDecide_cases h with ⟨-, hstill⟩ | ⟨hok, -, id', allow, x, hid, hallow, hdec⟩
    · have hsame : t.grant id = s.grant id := (hstill.exec ..).trans (hpre id)
      exact ⟨.same hsame hnot, fun _ => hsame⟩
    · refine ⟨?_, fun e => by rw [e] at hok; cases hok⟩
      by_cases he : id = id'
      · subst he
        exact .decided ⟨rfl, hop, (required_ok hid).1, hok⟩ hallow ⟨by rw [← hs.exec]; exact hdec.pre, hdec.state, hdec.expires, hdec.range,
          fun k h₁ h₂ h₃ => by rw [hdec.rest k h₁ h₂ h₃, hs.exec], fun id' h' => by rw [hdec.others id' h', hs.exec]⟩
      · exact .same ((hdec.others id he).trans (hpre id)) hnot
  · have hsame : t.grant id = s.grant id := (hframe.get _ _ (by decide)).trans (hpre id)
    refine ⟨.same hsame ?_, fun _ => hsame⟩
    rintro ⟨_, _, ha⟩
    cases ha.label
    exact hop ha.op

theorem Step.grant (h : Step E s l t) (id : Str) : GrantStep E s l t id := by
  cases h with
  | enter _ h =>
    cases enter_cases h with
    | answered hop hs =>
      refine .same (hs.exec ..) ?_
      -- a revocation is neither a query nor a mutation
      rintro ⟨_, _, ha⟩
      cases ha.label
      rcases hop _ ha.op with h | h <;> cases h
    | controlled hs hc _ => exact (control_grant hs hc id).1
    | plain _ _ hs hc => exact .same ((control_grant hs hc id).2 rfl) (not_revokes (by rintro _ _ ⟨⟩) id)
    | refused hi hs hb hr =>
      cases begin_cases hb with
      | replayed => exact .same (hs.exec ..) (not_revokes (by rintro _ _ ⟨⟩) id)
      | refused _ hst => exact .same ((hs.trans hst).exec ..) (not_revokes (by rintro _ _ ⟨⟩) id)
      | @asked text g _ _ _ hrid htext hhash _ hst ha =>
        have hpre : ∀ id', _ = s.grant id' := fun id' => (hs.trans hst).exec .approval id'
        by_cases he : id = g.id
        · subst he
          obtain ⟨time, taskId, hc⟩ := ha.created
          refine .asked ⟨⟨_, _, rfl⟩, (required_ok hrid).1, (hpre _).symm.trans ha.fresh, ?_⟩ htext ?_
          · simp [Sys.grant, hc, Grant.approval]
          · simp [Sys.grant, hc, Grant.approval, hhash]
        · exact .same ((ha.others _ _ (by simpa using he)).trans (hpre id)) (not_revokes (by rintro _ _ ⟨⟩) id)
      | admitted => exact absurd rfl hr
    | admitted hi hs hb =>
      cases begin_cases hb with
      | replayed => exact .same (hs.exec ..) (not_revokes (by rintro _ _ ⟨⟩) id)
      | refused hne => exact absurd rfl hne
      | asked _ _ _ hne => exact absurd rfl hne
      | admitted ha => exact .same ((ha.others _ _ (by simp)).trans (hs.exec ..)) (not_revokes (by rintro _ _ ⟨⟩) id)
  | enterThrows _ h => exact .same ((enter_error h).exec ..) (not_revokes (by rintro _ _ ⟨⟩) id)
  | enterFails _ h => exact .same (h.exec ..) (not_revokes (by rintro _ _ ⟨⟩) id)
  | start => exact .same rfl (not_revokes (by rintro _ _ ⟨⟩) id)
  | leave hf h =>
    obtain ⟨i, -, -, hfin⟩ := leave_ok h
    exact .same ((finish_ok hfin).frame.get _ _ (by decide)) (not_revokes (by rintro _ _ ⟨⟩) id)
  | leaveThrows _ h => exact .same ((leave_error h).exec ..) (not_revokes (by rintro _ _ ⟨⟩) id)
  | leaveFails _ h => exact .same (h.exec ..) (not_revokes (by rintro _ _ ⟨⟩) id)
  | event _ h =>
    have hf : Frame [] _ _ := Tx.keeps_ok h
    exact .same (hf.get _ _ (by simp)) (not_revokes (by rintro _ _ ⟨⟩) id)
  | boot _ h =>
    have hf : Frame [.execution] _ _ := Tx.keeps_ok h
    exact .same (hf.get _ _ (by decide)) (not_revokes (by rintro _ _ ⟨⟩) id)
  | crash => exact .same rfl (not_revokes (by rintro _ _ ⟨⟩) id)

/-! ## The history behind an approval -/

/-- The approval `e` of `id` was asked for on a request of its hash; and if it is granted now, a
decision has granted it until `x`, with no revocation since. -/
def Backed (E : Env) (id : Str) (tr : List (Move Sys Label)) (e : J) : Prop :=
  ∃ a c b r text, tr = a ++ c :: b ∧ Asks id r c ∧ (canonical r).dump = .ok text ∧
    e.get? "request_sha256" = some (.str (E.digest text)) ∧
    (e.get? "state" = some (.str "APPROVED") → ∃ b₁ d b₂ x, b = b₁ ++ d :: b₂ ∧ Grants id x d ∧
      e.get? "expires_at" = some (.int x) ∧ (-2 ^ 35 < x ∧ x < 2 ^ 35) ∧ ∀ m ∈ b₂, ¬ Revokes id m)

theorem backed_step {id : Str} (hb : s.grant id ≠ .null → Backed E id tr (s.grant id)) (h : Step E s l t)
    (hne : t.grant id ≠ .null) : Backed E id (tr ++ [⟨s, l, t⟩]) (t.grant id) := by
  cases h.grant id with
  | same he hrev =>
    rw [he] at hne ⊢
    obtain ⟨a, c, b, r, text, rfl, hasks, htext, hhash, hgrant⟩ := hb hne
    refine ⟨a, c, b ++ [⟨s, l, t⟩], r, text, by simp, hasks, htext, hhash, fun happ => ?_⟩
    obtain ⟨b₁, d, b₂, x, rfl, hd, hx, hrange, hno⟩ := hgrant happ
    refine ⟨b₁, d, b₂ ++ [⟨s, l, t⟩], x, by simp, hd, hx, hrange, fun m hm => ?_⟩
    rcases List.mem_append.1 hm with hm | hm
    · exact hno m hm
    · rw [List.mem_singleton.1 hm]
      exact hrev
  | asked hasks htext hhash =>
    refine ⟨tr, ⟨s, l, t⟩, [], _, _, rfl, hasks, htext, hhash, fun happ => ?_⟩
    simpa using hasks.pending.symm.trans happ
  | revoked hrev =>
    obtain ⟨a, c, b, r, text, rfl, hasks, htext, hhash, -⟩ := hb hrev.pre
    refine ⟨a, c, b ++ [⟨s, l, t⟩], r, text, by simp, hasks, htext, (hrev.rest _ (by simp)).trans hhash, fun happ => ?_⟩
    simpa using hrev.state.symm.trans happ
  | @decided req reply allow x hacc hallow hdec =>
    obtain ⟨a, c, b, r, text, rfl, hasks, htext, hhash, -⟩ := hb (J.ne_null_of_get? hdec.pre)
    refine ⟨a, c, b ++ [⟨s, l, t⟩], r, text, by simp, hasks, htext,
      (hdec.rest _ (by simp) (by simp) (by simp)).trans hhash, fun happ => ?_⟩
    have hallowed : allow = true := by
      cases allow
      · simpa using hdec.state.symm.trans happ
      · rfl
    subst hallowed
    exact ⟨b, ⟨s, l, t⟩, [], x, by simp, ⟨⟨req, reply, hacc, hallow⟩, hdec.expires⟩, hdec.expires, hdec.range, nofun⟩

theorem backed_run (h : Run (Step E) Sys.init tr s) (id : Str) (hne : s.grant id ≠ .null) : Backed E id tr (s.grant id) :=
  h.invariant (I := fun tr s => s.grant id ≠ .null → Backed E id tr (s.grant id)) (fun h => absurd rfl h)
    (fun _ _ _ _ hb hstep hne => backed_step hb hstep hne) hne

/-- Every call in flight was admitted in the run, under the enforcement now in force. -/
def Launched (tr : List (Move Sys Label)) (enforce : Bool) (request : J) : Prop :=
  ∃ a m b req, tr = a ++ m :: b ∧ m.label = .enter req (.admitted request) ∧ m.pre.enforce = enforce

theorem Launched.snoc {enforce : Bool} {request : J} (h : Launched tr enforce request) (m : Move Sys Label) :
    Launched (tr ++ [m]) enforce request := by
  obtain ⟨a, m', b, req, rfl, hl, he⟩ := h
  exact ⟨a, m', b ++ [m], req, by simp, hl, he⟩

theorem Step.enforce (h : Step E s l t) : t.enforce = s.enforce ∨ t.flights = [] := by
  cases h <;> first | exact .inl rfl | exact .inr rfl

theorem launched_run (h : Run (Step E) Sys.init tr s) {f : Flight} (hf : f ∈ s.flights) :
    Launched tr s.enforce f.request := by
  induction h generalizing f with
  | nil => cases hf
  | @snoc tr s t l hr hstep ih =>
    rcases hstep.enforce with he | he
    · rcases hstep.flight_origin hf with ⟨f', hf', hreq⟩ | ⟨req, hl⟩
      · rw [he, ← hreq]
        exact (ih hf').snoc _
      · exact ⟨tr, _, [], req, rfl, hl, he.symm⟩
    · rw [he] at hf
      cases hf

/-! ## The gate -/

/-- The request `begin` takes the hash of. -/
def Label.hashed : Label → Option J
  | .enter _ (.refused request _) => some request
  | .enter _ (.admitted request) => some request
  | _ => none

/-- The texts hashed in a run: the canonical content of the requests `begin` has seen. -/
def texts (tr : List (Move Sys Label)) : Set Str :=
  fun x => ∃ m ∈ tr, ∃ r, m.label.hashed = some r ∧ (canonical r).dump = .ok x

/-- The request needs the approval of the owner. -/
def Governed (enforce : Bool) (r : J) : Prop :=
  enforce = true ∨ r.contains "effects" = true ∨ ∃ p, r.get? "parent_execution_id" = some (.str p) ∧ p ≠ []

/-- The history `before` holds the authority for `r`: an approval asked for on a request of the same
content, a decision granting it until `x`, no revocation up to the admission of `r`, and a reading
of the clock at that admission below `x`. -/
def Authorised (E : Env) (r : J) (before : List (Move Sys Label)) : Prop :=
  ∃ id a₁ c a₂ d a₃ adm a₄ r' req x n, before = a₁ ++ c :: (a₂ ++ d :: (a₃ ++ adm :: a₄)) ∧
    r.get? "request_id" = some (.str id) ∧ Asks id r' c ∧ canonical r' = canonical r ∧ Grants id x d ∧
    (∀ m ∈ a₃, ¬ Revokes id m) ∧ adm.label = .enter req (.admitted r) ∧
    adm.pre.st.tick ≤ n ∧ n < adm.post.st.tick ∧ E.clock n < x

theorem governed_of {enforce : Bool} {r : J} {g : Grant} {id hash : Str} {u v : St} (hg : Governed enforce r)
    (hr : Reviewed E r id hash g u v) : governed enforce r g = true := by
  unfold governed
  rcases hg with rfl | hg | ⟨p, hp, hne⟩
  · rfl
  · rw [hg]
    simp
  · have hparent : g.parentId = p := by
      rcases (J.valueStr_ok.1 hr.parent).2 with h | ⟨h, -⟩
      · rw [hp] at h
        simpa using h.symm
      · rw [hp] at h
        cases h
    simp [hparent, hne]

/-- An admission of a governed request finds its approval backed. -/
theorem authorised_of_admission {a₁ a₂ : List (Move Sys Label)} {m : Move Sys Label} {req r : J}
    (h : Run (Step E) Sys.init (a₁ ++ m :: a₂) s) (hE : Set.InjOn E.digest (texts (a₁ ++ m :: a₂)))
    (hl : m.label = .enter req (.admitted r)) (hg : Governed m.pre.enforce r) : Authorised E r (a₁ ++ m :: a₂) := by
  obtain ⟨hpre, hstep, -⟩ := h.split
  rw [hl] at hstep
  obtain ⟨g, u, v, w, hi, hst, ha⟩ := (safe_run hpre).admission hstep
  have happ := ha.approved
  rw [if_pos (governed_of hg ha.reviewed)] at happ
  -- the approval the gate has read is that of the state before the step
  have hread : v.db.get .approval g.id = m.pre.grant g.id := (ha.still.exec ..).trans (hst.exec ..)
  have hhash := happ.hash
  have hlive := happ.live
  rw [hread] at hhash hlive
  obtain ⟨b₁, c, b₂, r', text, rfl, hasks, htext, hhash', hgrant⟩ := backed_run hpre g.id (J.ne_null_of_get? hhash)
  obtain ⟨c₁, d, c₂, x, rfl, hd, hx, hrange, hno⟩ := hgrant hlive.state
  obtain ⟨text', htext', hg'⟩ := ha.hash
  have hcanon : canonical r' = canonical r := by
    obtain ⟨reqc, result, hlc⟩ := hasks.label
    have hdigest : E.digest text = E.digest text' := by
      rw [hhash, hg'] at hhash'
      simpa using hhash'.symm
    have htexts : text = text' := by
      refine hE ⟨c, by simp, r', by rw [hlc]; rfl, htext⟩ ⟨m, by simp, r, by rw [hl]; rfl, htext'⟩ hdigest
    subst htexts
    exact J.text_inj ((J.dump_ok.1 htext).2.trans (J.dump_ok.1 htext').2.symm)
  refine ⟨g.id, b₁, c, c₁, d, c₂, m, a₂, r', req, x, v.tick, by simp, (required_ok ha.id).1, hasks, hcanon, hd, hno, hl,
    (hst.trans ha.still).tick, ?_, hlive.above hx hrange⟩
  rw [ha.recorded.tick, happ.post]
  simp only
  omega

/-! ## The agent of an approval -/

/-- The approval that `begin` asks for names the agent of the request it hashes. -/
theorem begin_asks {enforce : Bool} {req r : J} {u v : St} (h : begin E enforce req u = .ok r v) {id : Str}
    (hnew : v.db.get .approval id ≠ u.db.get .approval id) : ∃ (g : Grant) (text : Str) (time : Int) (taskId : Str),
      (canonical req).dump = .ok text ∧ g.hash = E.digest text ∧ req.valueStr "agent" "" = .ok g.agent ∧
        v.db.get .approval id = g.approval time taskId := by
  unfold begin at h
  obtain ⟨rid, _, hl, h⟩ := Tx.bind_ok.1 h
  obtain ⟨-, rfl⟩ := Tx.lift_ok.1 hl
  obtain ⟨text, _, hl, h⟩ := Tx.bind_ok.1 h
  obtain ⟨htext, rfl⟩ := Tx.lift_ok.1 hl
  obtain ⟨prior, _, hr, h⟩ := Tx.bind_ok.1 h
  obtain ⟨-, rfl⟩ := read_ok.1 hr
  rcases Tx.ite_ok h with ⟨-, h⟩ | ⟨-, h⟩
  · obtain ⟨-, rfl⟩ := Tx.lift_ok.1 h
    exact absurd rfl hnew
  obtain ⟨d, w, hrev, h⟩ := Tx.bind_ok.1 h
  have hstill : Still u w := Tx.keeps_ok hrev
  rcases review_cases hrev with ⟨r', rfl, -⟩ | ⟨g, rfl, hg⟩
  · obtain ⟨-, rfl⟩ := Tx.pure_ok.1 h
    exact absurd (hstill.exec ..) hnew
  -- the record of the execution is no approval
  have hrest : ∀ {x : St}, recordExecution E g req x = .ok r v → v.db.get .approval id = x.db.get .approval id :=
    fun hrec => (recordExecution_ok hrec).2.others _ _ (by simp)
  dsimp only at h
  rcases Tx.ite_ok h with ⟨-, h⟩ | ⟨-, h⟩
  · obtain ⟨r', x, hgate, h⟩ := Tx.bind_ok.1 h
    have hafter : v.db.get .approval id = x.db.get .approval id := by
      rcases Tx.ite_ok h with ⟨-, h⟩ | ⟨-, h⟩
      · obtain ⟨-, rfl⟩ := Tx.pure_ok.1 h
        rfl
      · exact hrest h
    rw [hafter] at hnew ⊢
    rcases approvalGate_cases hgate with ⟨-, happ⟩ | ⟨-, hs | ha⟩
    · rw [happ.post] at hnew
      exact absurd (hstill.exec ..) hnew
    · exact absurd ((hstill.trans hs).exec ..) hnew
    · by_cases he : id = g.id
      · subst he
        obtain ⟨time, taskId, hc⟩ := ha.created
        exact ⟨g, text, time, taskId, htext, hg.hash, hg.agent, hc⟩
      · exact absurd ((ha.others _ _ (by simpa using he)).trans (hstill.exec ..)) hnew
  · obtain ⟨r', x, hp, h⟩ := Tx.bind_ok.1 h
    obtain ⟨rfl, rfl⟩ := Tx.pure_ok.1 hp
    exact absurd ((hrest h).trans (hstill.exec ..)) hnew

/-- The approval `e` names the agent of a request that was hashed, and carries that hash. -/
def NamesAgent (E : Env) (tr : List (Move Sys Label)) (e : J) : Prop :=
  ∃ m ∈ tr, ∃ r text agent, m.label.hashed = some r ∧ (canonical r).dump = .ok text ∧ r.valueStr "agent" "" = .ok agent ∧
    e.get? "request_sha256" = some (.str (E.digest text)) ∧ e.get? "agent" = some (.str agent)

theorem NamesAgent.snoc {e e' : J} (h : NamesAgent E tr e) (m : Move Sys Label)
    (hrest : ∀ k : Str, k ≠ "state" → k ≠ "expires_at" → k ≠ "reason" → e'.get? k = e.get? k) :
    NamesAgent E (tr ++ [m]) e' := by
  obtain ⟨m', hm, r, text, agent, hl, htext, hagent, hhash, he⟩ := h
  exact ⟨m', List.mem_append_left _ hm, r, text, agent, hl, htext, hagent,
    (hrest _ (by decide) (by decide) (by decide)).trans hhash, (hrest _ (by decide) (by decide) (by decide)).trans he⟩

theorem namesAgent_step {id : Str} (hb : s.grant id ≠ .null → NamesAgent E tr (s.grant id)) (h : Step E s l t)
    (hne : t.grant id ≠ .null) : NamesAgent E (tr ++ [⟨s, l, t⟩]) (t.grant id) := by
  cases h.grant id with
  | same he => exact he ▸ (hb (he ▸ hne)).snoc _ fun _ _ _ _ => rfl
  | revoked hrev => exact (hb hrev.pre).snoc _ fun k hk _ _ => hrev.rest k hk
  | decided _ _ hdec => exact (hb (J.ne_null_of_get? hdec.pre)).snoc _ hdec.rest
  | asked hasks =>
    obtain ⟨req, result, hl⟩ := hasks.label
    dsimp only at hl
    subst hl
    cases h with
    | enter _ h =>
      cases enter_cases h with
      | refused _ hs hb hr =>
        obtain ⟨g, text, time, taskId, htext, hhash, hagent, hc⟩ := begin_asks hb
          (fun hsame => hne (hsame.trans ((hs.exec ..).trans hasks.fresh)))
        refine ⟨_, List.mem_append_right _ (List.mem_singleton_self _), _, text, g.agent, rfl, htext, hagent, ?_, ?_⟩
        · simp [Sys.grant, hc, Grant.approval, hhash]
        · simp [Sys.grant, hc, Grant.approval]

theorem namesAgent_run (h : Run (Step E) Sys.init tr s) (id : Str) (hne : s.grant id ≠ .null) : NamesAgent E tr (s.grant id) :=
  h.invariant (I := fun tr s => s.grant id ≠ .null → NamesAgent E tr (s.grant id)) (fun h => absurd rfl h)
    (fun _ _ _ _ hb hstep hne => namesAgent_step hb hstep hne) hne

/-- A governed request is admitted on an approval that names its agent. -/
theorem approved_agent {req r : J} {a : Str} (h : Run (Step E) Sys.init tr s) (hstep : Step E s (.enter req (.admitted r)) t)
    (hE : Set.InjOn E.digest (texts (tr ++ [⟨s, .enter req (.admitted r), t⟩]))) (hg : Governed s.enforce r)
    (ha : r.valueStr "agent" "" = .ok a) :
    ∃ id, r.get? "request_id" = some (.str id) ∧ (s.grant id).get? "agent" = some (.str a) := by
  obtain ⟨g, u, v, w, -, hst, hadm⟩ := (safe_run h).admission hstep
  refine ⟨g.id, (required_ok hadm.id).1, ?_⟩
  have happ := hadm.approved
  rw [if_pos (governed_of hg hadm.reviewed)] at happ
  have hhash := happ.hash
  rw [show v.db.get .approval g.id = s.grant g.id from (hadm.still.exec ..).trans (hst.exec ..)] at hhash
  obtain ⟨m, hm, r', text, agent, hl, htext, hagent, hhash', hnamed⟩ := namesAgent_run h g.id (J.ne_null_of_get? hhash)
  obtain ⟨text', htext', hg'⟩ := hadm.hash
  have hdigest : E.digest text = E.digest text' := by
    rw [hhash, hg'] at hhash'
    simpa using hhash'.symm
  obtain rfl : text = text' := hE ⟨m, List.mem_append_left _ hm, r', hl, htext⟩
    ⟨_, List.mem_append_right _ (List.mem_singleton_self _), r, rfl, htext'⟩ hdigest
  have hcanon : canonical r' = canonical r := J.text_inj ((J.dump_ok.1 htext).2.trans (J.dump_ok.1 htext').2.symm)
  have hsame : r'.get? "agent" = r.get? "agent" := by
    have h := congrArg (fun j : J => j.get? "agent") hcanon
    simpa only [canonical, J.get?_erase, if_neg (show lit "agent" ≠ lit "request_id" by decide)] using h
  rw [J.valueStr_congr (J.valueStr_ok.1 hagent).1 (J.valueStr_ok.1 ha).1 hsame, ha] at hagent
  rw [hnamed, Except.ok.inj hagent]

/-- Denied and revoked approvals stay so. -/
theorem closed_step {id : Str} (hst : (s.grant id).get? "state" = some (.str "DENIED") ∨
    (s.grant id).get? "state" = some (.str "REVOKED")) (h : Step E s l t) :
    (t.grant id).get? "state" = some (.str "DENIED") ∨ (t.grant id).get? "state" = some (.str "REVOKED") := by
  cases h.grant id with
  | same he => rwa [he]
  | asked hasks =>
    have hfresh : s.grant id = .null := hasks.fresh
    rw [hfresh] at hst
    rcases hst with hst | hst <;> cases hst
  | revoked hrev => exact .inr hrev.state
  | decided _ _ hdec =>
    have hpre : (s.grant id).get? "state" = some (.str "PENDING") := hdec.pre
    rw [hpre] at hst
    simp at hst

/-- **The approval gate.** In every run whose hashes do not collide, whenever the callback starts on a
mutation that is governed, the history before it holds the authority for it; and an approval once
denied or revoked is never granted again. -/
theorem approval_gate (E : Env) {tr : List (Move Sys Label)} {s : Sys} (h : Run (Step E) Sys.init tr s)
    (hE : Set.InjOn E.digest (texts tr)) :
    (∀ a m b r, tr = a ++ m :: b → m.label.dispatched = some r → mutates r = true → Governed m.pre.enforce r →
      Authorised E r a) ∧
    ∀ id, (s.grant id).get? "state" = some (.str "DENIED") ∨ (s.grant id).get? "state" = some (.str "REVOKED") →
      ∀ (tr' : List (Move Sys Label)) (t : Sys), Run (Step E) s tr' t → (t.grant id).get? "state" ≠ some (.str "APPROVED") := by
  constructor
  · rintro a m b r rfl hd hm hg
    obtain ⟨hpre, hstep, -⟩ := h.split
    have hl := hstep.dispatched hd hm
    rw [hl] at hstep
    obtain ⟨a₁, adm, a₂, req, rfl, hadm, henforce⟩ := launched_run hpre hstep.start_flight
    refine authorised_of_admission hpre (hE.mono ?_) hadm (by rw [henforce]; exact hg)
    rintro x ⟨m', hm', hx⟩
    exact ⟨m', List.mem_append_left _ hm', hx⟩
  · intro id hst tr' t h' happ
    have hclosed := h'.invariant (I := fun _ u => (u.grant id).get? "state" = some (.str "DENIED") ∨
      (u.grant id).get? "state" = some (.str "REVOKED")) hst fun _ _ _ _ hu hstep => closed_step hu hstep
    rw [happ] at hclosed
    simp at hclosed

set_option maxRecDepth 10000 in
theorem approval_gate_sample : Authorised sampleEnv sampleChild (sampleMoves.take 8) ∧
    (sampleEnd.grant "c").get? "state" = some (.str "APPROVED") :=
  ⟨(approval_gate sampleEnv sample_run fun _ _ _ _ h => h).1 (sampleMoves.take 8) _ [] sampleChild rfl rfl rfl (.inl rfl), rfl⟩

end A2ad.Control
