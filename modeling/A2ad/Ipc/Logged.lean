/-
No request acts on an agent without a trace: the start of the execution that it is made for has been logged
before, under the digest of the request of the client.
-/
import A2ad.Control.Audit
import A2ad.Ipc.Once

namespace A2ad.Control

open Bytes Json

variable {E : Env} {enforce : Bool} {req : J} {s t : Sys} {l : Label} {tr : List (Move Sys Label)}

/-! ## The start of an execution -/

/-- The event tells of the start of the execution `e` of `id`. -/
structure Announces (id : Str) (e event : J) : Prop where
  type : event.get? "type" = some (.str "execution.started")
  execution : event.get? "execution_id" = some (.str id)
  agent : event.get? "agent" = e.get? "agent"
  hash : event.get? "request_sha256" = e.get? "request_sha256"

theorem Announces.settles {id : Str} {e e' event : J} (h : Announces id e event) (hset : Settles e e') : Announces id e' event :=
  ⟨h.type, h.execution, by rw [h.agent, hset.kept _ (by decide)], by rw [h.hash, hset.kept _ (by decide)]⟩

theorem recordExecution_announces {g : Grant} {r : J} {u v : St} (h : recordExecution E g req u = .ok r v) :
    ∃ e ∈ v.db.events, Announces g.id (v.db.get .execution g.id) e.value := by
  obtain ⟨-, ⟨taskId, hcreated⟩, -, -⟩ := recordExecution_ok h
  unfold recordExecution at h
  obtain ⟨_, _, hn, h⟩ := Tx.bind_ok.1 h
  obtain ⟨_, _, hn, h⟩ := Tx.bind_ok.1 h
  obtain ⟨_, -, h⟩ := Tx.lift_bind_ok h
  obtain ⟨_, _, -, h⟩ := Tx.bind_ok.1 h
  obtain ⟨_, _, happend, h⟩ := Tx.bind_ok.1 h
  obtain ⟨-, rfl⟩ := Tx.pure_ok.1 h
  obtain ⟨hevents, -⟩ := append_events happend
  refine ⟨_, hevents ▸ List.mem_append_right _ (List.mem_singleton_self _), ?_⟩
  rw [hcreated]
  constructor <;> simp [eventFor, Grant.execution]

/-- An admission tells of the execution it has created. -/
theorem begin_announces {u v : St} (hresult : ∀ id r, (u.db.get .execution id).get? "result" = some r → r ≠ .null)
    (h : begin E enforce req u = .ok .null v) :
    ∃ id, required req "request_id" = .ok id ∧ ∃ e ∈ v.db.events, Announces id (v.db.get .execution id) e.value := by
  unfold begin at h
  obtain ⟨id, hid, h⟩ := Tx.lift_bind_ok h
  obtain ⟨text, -, h⟩ := Tx.lift_bind_ok h
  obtain ⟨prior, _, hread, h⟩ := Tx.bind_ok.1 h
  obtain ⟨rfl, rfl⟩ := read_ok.1 hread
  rcases Tx.ite_ok h with ⟨-, h⟩ | ⟨-, h⟩
  · obtain ⟨hreplay, rfl⟩ := Tx.lift_ok.1 h
    exact absurd rfl (replay_ne_null (hresult id) hreplay)
  · obtain ⟨d, u', hreview, h⟩ := Tx.bind_ok.1 h
    rcases review_cases hreview with ⟨r, rfl, hne⟩ | ⟨g, rfl, hreviewed⟩
    · exact absurd (Tx.pure_ok.1 h).1 hne
    · have hgrant : required req "request_id" = .ok g.id := by rw [hid, hreviewed.id]
      -- past the checks, with or without an approval, the execution is recorded
      have hend : ∀ {x : M J}, (x >>= fun r => if !r.isNull then pure r else recordExecution E g req) u' = .ok .null v →
          ∃ u'', recordExecution E g req u'' = .ok .null v := by
        intro x hx
        obtain ⟨r, u'', -, hx⟩ := Tx.bind_ok.1 hx
        rcases Tx.ite_ok hx with ⟨hne, hx⟩ | ⟨-, hx⟩
        · exact absurd (Tx.pure_ok.1 hx).1 (ne_null_of_not hne)
        · exact ⟨u'', hx⟩
      have hrecord : ∃ u'', recordExecution E g req u'' = .ok .null v := by
        dsimp only at h
        rcases Tx.ite_ok h with ⟨-, h⟩ | ⟨-, h⟩
        · exact hend h
        · exact hend h
      exact ⟨g.id, hgrant, recordExecution_announces hrecord.choose_spec⟩

/-! ## The log of a run -/

/-- The start of every execution is in the log. -/
def StartsLogged (s : Sys) : Prop := ∀ id, s.exec id ≠ .null → ∃ e ∈ s.st.db.events, Announces id (s.exec id) e.value

theorem Step.events (h : Step E s l t) : s.st.db.events <+: t.st.db.events := h.logged.grows

theorem startsLogged_step (hs : Safe s) (hl : StartsLogged s) (h : Step E s l t) : StartsLogged t := by
  intro id hne
  have hkept : ∀ {e'}, s.exec id ≠ .null → (∀ event, Announces id (s.exec id) event → Announces id e' event) →
      ∃ e ∈ t.st.db.events, Announces id e' e.value := by
    intro e' hold hsame
    obtain ⟨e, he, hannounces⟩ := hl id hold
    exact ⟨e, h.events.subset he, hsame _ hannounces⟩
  cases hs.exec_step h id with
  | same he =>
    rw [he] at hne ⊢
    exact hkept hne fun _ ha => ha
  | @admitted req request g _ _ _ hlabel hissued hstill hadmission hg =>
    subst hlabel hg
    cases h with
    | enter _ henter =>
      cases enter_cases henter with
      | admitted _ hstill hbegin =>
        obtain ⟨id, hid, hannounces⟩ := begin_announces (fun id r hr => hs.result_ne_null id r (by rw [← hr, hstill.exec]; rfl)) hbegin
        obtain rfl : id = g.id := Except.ok.inj (hid.symm.trans hadmission.id)
        exact hannounces
  | finished _ hid hf _ hfinished =>
    exact hkept (J.ne_null_of_get? (hs.flight_exec hf hid).1) fun _ ha => ha.settles hfinished.settles
  | recovered _ he hid hstate hset =>
    subst he
    obtain rfl := hs.recovered_id hid
    exact hkept (J.ne_null_of_get? hstate) fun _ ha => ha.settles hset

theorem startsLogged_run (h : Run (Step E) Sys.init tr s) : StartsLogged s :=
  h.invariant_of (I := fun _ s => StartsLogged s) (fun _ hne => absurd rfl hne) fun _ _ _ _ hr hl hstep =>
    startsLogged_step (safe_run hr) hl hstep

end A2ad.Control

namespace A2ad.Ipc.Service

open Bytes Json Client TaskManager

section Logged

variable {C : Control.Env} {E : Env} {F : Files} {s t : Service} {turn : Turn} {tr : List (Move Service Turn)}

theorem events_run {s₀ : Service} (h : Run (Step C E F) s₀ tr s) : s₀.control.st.db.events <+: s.control.st.db.events := by
  induction h with
  | nil => exact List.prefix_rfl
  | @snoc _ s t turn _ hstep ih =>
    refine ih.trans ?_
    have hcontrol := hstep.control
    cases hlabel : turn.label with
    | none =>
      rw [hlabel] at hcontrol
      replace hcontrol : t.control = s.control := hcontrol
      exact hcontrol.symm ▸ List.prefix_rfl
    | some l =>
      rw [hlabel] at hcontrol
      exact hcontrol.events

/-- The requests that a turn has put on the wire. -/
def wired (m : Move Service Turn) : List Sent := m.post.tasks.sent.drop m.pre.tasks.sent.length

/-- The acting requests of a turn are those of its callback. -/
theorem contacts_wired {m : Move Service Turn} (h : Step C E F m.pre m.label m.post) :
    (contacts m).map Prod.snd = (wired m).filter acts := by
  obtain ⟨s, turn, t⟩ := m
  by_cases hadvances : ∃ request, turn = .advances request
  · obtain ⟨request, rfl⟩ := hadvances
    show (((t.tasks.sent.drop s.tasks.sent.length).filter acts).map fun x => (requestId request, x)).map Prod.snd = _
    rw [List.map_map]
    exact List.map_id _
  · have hnot : ∀ request, turn ≠ .advances request := fun request heq => hadvances ⟨request, heq⟩
    obtain ⟨⟨l, hl, hreads⟩, -⟩ := passive_turn h hnot
    rw [contacts_reading hnot]
    show [] = (t.tasks.sent.drop s.tasks.sent.length).filter acts
    rw [hl, List.drop_left, filter_passive hreads]

/-- The callback of a request acts after the start of its execution has been logged. -/
theorem contact_logged (h : Run (Step C E F) {} tr s) {m : Move Service Turn} (hm : m ∈ tr) {id : Str} {x : Sent}
    (hx : (id, x) ∈ contacts m) : ∃ request text e, m.label = .advances request ∧
      request.get? "request_id" = some (.str id) ∧ (Control.canonical request).dump = .ok text ∧
      e ∈ m.pre.control.st.db.events ∧ e ∈ s.control.st.db.events ∧
      e.value.get? "type" = some (.str "execution.started") ∧ e.value.get? "execution_id" = some (.str id) ∧
      (∃ agent, request.valueStr "agent" "" = .ok agent ∧ e.value.get? "agent" = some (.str agent)) ∧
      e.value.get? "request_sha256" = some (.str (C.digest text)) := by
  obtain ⟨before, after, rfl⟩ := List.append_of_mem hm
  obtain ⟨hbefore, hstep, hafter⟩ := h.split
  obtain ⟨s₁, turn, s₂⟩ := m
  replace hstep : Step C E F s₁ turn s₂ := hstep
  replace hbefore : Run (Step C E F) {} before s₁ := hbefore
  cases turn with
  | advances request =>
    have hcontrol := control_run hbefore
    obtain ⟨stage, hc⟩ : ∃ stage, (⟨request, stage⟩ : Callback) ∈ s₁.callbacks := by
      cases hstep with
      | @advances _ stage _ _ _ _ hl => exact ⟨stage, by simp [hl]⟩
    obtain ⟨id', op, hentitled⟩ := callback_entitled hbefore hc
    obtain ⟨y, -, hy⟩ := List.mem_map.1 hx
    obtain rfl : id' = id := (requestId_carried hentitled.carried).symm.trans (Prod.mk.inj hy).1
    have hne : s₁.control.exec id' ≠ .null := J.ne_null_of_get? hentitled.dispatching
    have hflight := (attended_run hbefore).flying _ hc
    obtain ⟨r, -, hheld⟩ := Control.held_run hcontrol id' hne
    obtain rfl := hheld.flights _ hflight hentitled.carried
    obtain ⟨text, htext, hhash⟩ := hheld.origin.hash
    obtain ⟨agent, hagent, hnamed⟩ := (Control.flightsCarried_run hcontrol _ hflight id' hentitled.carried).agent
    obtain ⟨e, he, hannounces⟩ := Control.startsLogged_run hcontrol id' hne
    have hgrows : s₁.control.st.db.events <+: s.control.st.db.events := events_run (.cons rfl hstep hafter)
    exact ⟨_, text, e, rfl, hentitled.carried, htext, he, hgrows.subset he, hannounces.type, hannounces.execution,
      ⟨agent, hagent, hannounces.agent.trans hnamed⟩, hannounces.hash.trans hhash⟩
  | _ => cases hx

/-- **No act without a trace.** In every run of the daemon, the requests on the wire that act on an agent are those that
its turns have put there; and a turn that puts one there is a callback's of a request of a client whose start had been
logged before: the log has, then and ever after, an event under the id of the request, with the agent that it names
and the digest of its whole content. -/
theorem no_act_unlogged (C : Control.Env) (E : Env) (F : Files) {tr : List (Move Service Turn)} {s : Service}
    (h : Run (Step C E F) {} tr s) :
    s.tasks.sent.filter acts = (tr.flatMap fun m => (wired m).filter acts) ∧
      ∀ m ∈ tr, ∀ x ∈ wired m, acts x = true → ∃ request id text e, m.label = .advances request ∧
        request.get? "request_id" = some (.str id) ∧ (Control.canonical request).dump = .ok text ∧
        e ∈ m.pre.control.st.db.events ∧ e ∈ s.control.st.db.events ∧
        e.value.get? "type" = some (.str "execution.started") ∧ e.value.get? "execution_id" = some (.str id) ∧
        (∃ agent, request.valueStr "agent" "" = .ok agent ∧ e.value.get? "agent" = some (.str agent)) ∧
        e.value.get? "request_sha256" = some (.str (C.digest text)) := by
  constructor
  · rw [(account_run h).wire, contactsOf, List.map_flatMap]
    exact List.flatMap_congr fun m hm => contacts_wired (h.mem_step hm)
  · intro m hm x hx hacts
    have hmem : x ∈ (contacts m).map Prod.snd := by
      rw [contacts_wired (h.mem_step hm)]
      exact List.mem_filter.2 ⟨hx, hacts⟩
    obtain ⟨⟨id, _⟩, hcontact, rfl⟩ := List.mem_map.1 hmem
    obtain ⟨request, text, e, hlogged⟩ := contact_logged h hm hcontact
    exact ⟨request, id, text, e, hlogged⟩

/-- The delivered submission has been logged before its message went out. -/
theorem no_act_unlogged_delivered : ∃ tr s, Run (Step Control.sampleEnv talking keepingFiles) {} tr s ∧
    ∃ m ∈ tr, ∃ x ∈ wired m, acts x = true ∧ ∃ e ∈ m.pre.control.st.db.events,
      e.value.get? "type" = some (.str "execution.started") := by
  obtain ⟨tr, s, hrun, hdelivered⟩ := delivered_run
  obtain ⟨⟨id, x⟩, hcontact, -⟩ := List.mem_map.1 ((account_run hrun).delivered "g" .submit hdelivered rfl)
  obtain ⟨m, hm, hx⟩ := List.mem_flatMap.1 hcontact
  have hmem : x ∈ (wired m).filter acts := by
    rw [← contacts_wired (hrun.mem_step hm)]
    exact List.mem_map.2 ⟨_, hx, rfl⟩
  obtain ⟨hwired, hacts⟩ := List.mem_filter.1 hmem
  obtain ⟨request, _, text, e, -, -, -, he, -, htype, -⟩ :=
    (no_act_unlogged Control.sampleEnv talking keepingFiles hrun).2 m hm x hwired hacts
  exact ⟨tr, s, hrun, m, hm, x, hwired, hacts, e, he, htype⟩

end Logged

end A2ad.Ipc.Service
