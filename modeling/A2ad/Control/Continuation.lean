/-
Continuations. `begin` asks for a pending continuation and `finish` marks it delivered, with the
dispatch in between: as long as no request bound to a continuation is admitted while another one is
in flight, one of them delivers it and none is dispatched after that.
-/
import A2ad.Control.Finish

namespace A2ad.Control

open Bytes Json

variable {E : Env} {req : J}

/-! ## The operation and the check -/

/-- The continuation `id` is created, under an id drawn in the transaction. -/
structure Created (E : Env) (id : Str) (s s' : St) : Prop where
  drawn : ∃ n, s.nonce ≤ n ∧ n < s'.nonce ∧ id = E.rand n
  state : (s'.db.get .continuation id).get? "state" = some (.str "PENDING")
  others : ∀ id', id' ≠ id → s'.db.get .continuation id' = s.db.get .continuation id'

theorem continuationCreate_cases {r : J} {s s' : St} (h : continuationCreate E req s = .ok r s') :
    Still s s' ∨ ∃ id, Created E id s s' := by
  unfold continuationCreate at h
  obtain ⟨task, _, hl, h⟩ := Tx.bind_ok.1 h
  obtain ⟨-, rfl⟩ := Tx.lift_ok.1 hl
  obtain ⟨kind, _, hl, h⟩ := Tx.bind_ok.1 h
  obtain ⟨-, rfl⟩ := Tx.lift_ok.1 hl
  rcases Tx.ite_ok h with ⟨-, h⟩ | ⟨-, h⟩
  · obtain ⟨-, rfl⟩ := Tx.pure_ok.1 h
    exact .inl (refl _)
  obtain ⟨_, _, hn, h⟩ := Tx.bind_ok.1 h
  obtain ⟨rfl, rfl⟩ := newId_ok.1 hn
  obtain ⟨reason, _, hl, h⟩ := Tx.bind_ok.1 h
  obtain ⟨-, rfl⟩ := Tx.lift_ok.1 hl
  obtain ⟨_, _, hn, h⟩ := Tx.bind_ok.1 h
  obtain ⟨rfl, rfl⟩ := now_ok.1 hn
  obtain ⟨_, _, hw, h⟩ := Tx.bind_ok.1 h
  obtain ⟨_, _, ha, hdone⟩ := Tx.bind_ok.1 h
  obtain ⟨hget, hothers, -⟩ := write_append_ok hw ha
  obtain ⟨-, rfl⟩ := write_ok.1 hw
  obtain ⟨-, -, hnonce, -⟩ := append_ok ha
  obtain ⟨-, rfl⟩ := Tx.pure_ok.1 hdone
  refine .inr ⟨E.rand s.nonce, ⟨s.nonce, le_refl _, ?_, rfl⟩, ?_, ?_⟩
  · rw [hnonce]
    exact Nat.lt_succ_self _
  · rw [hget]
    simp
  · intro id' hne
    exact hothers _ _ (by simpa using hne)

theorem continuationCheck_ok {request : J} {c : Str} {s s' : St} (hc : c ≠ [])
    (h : continuationCheck request c s = .ok .null s') :
    (s.db.get .continuation c).get? "state" = some (.str "PENDING") := by
  unfold continuationCheck at h
  rcases Tx.ite_ok h with ⟨hempty, -⟩ | ⟨-, h⟩
  · exact absurd (by simpa using hempty) hc
  obtain ⟨_, _, hr, h⟩ := Tx.bind_ok.1 h
  obtain ⟨rfl, rfl⟩ := read_ok.1 hr
  obtain ⟨b, _, hl, h⟩ := Tx.bind_ok.1 h
  obtain ⟨hb, rfl⟩ := Tx.lift_ok.1 hl
  rcases Tx.ite_ok h with ⟨rfl, -⟩ | ⟨-, h⟩
  swap
  · cases (Tx.pure_ok.1 h).1
  unfold pendingFor at hb
  split at hb
  · cases hb
  obtain ⟨state, hstate, hb⟩ := Tx.except_bind_ok hb
  split at hb
  · cases hb
  rename_i hpending
  rw [not_not] at hpending
  subst hpending
  exact get?_of_valueStr hstate (by decide)

/-! ## Steps -/

def Sys.continuation (s : Sys) (c : Str) : J := s.st.db.get .continuation c

/-- The request is bound to the continuation. -/
def bound (c : Str) (request : J) : Bool := request.get? "continuation_id" = some (.str c)

def Sys.bound (s : Sys) (c : Str) : Nat := s.flights.countP fun f => Control.bound c f.request

/-- The step records a dispatch bound to the continuation, which ended with `ok`. -/
def delivers (c : Str) (m : Move Sys Label) : Bool :=
  match m.label with
  | .leave request _ reply => bound c request && decide ((reply.valueBool "ok" false).toOption = some true)
  | _ => false

/-- The step admits a request bound to the continuation while another one is in flight. -/
def overlaps (c : Str) (m : Move Sys Label) : Bool :=
  match m.label with
  | .enter _ (.admitted request) => bound c request && decide (0 < m.pre.bound c)
  | _ => false

/-- The ways a step can treat the continuation `c`. -/
inductive ContinuationStep (E : Env) (s : Sys) (l : Label) (t : Sys) (c : Str) : Prop
  | same : t.continuation c = s.continuation c → delivers c ⟨s, l, t⟩ = false → ContinuationStep E s l t c
  | created {n : Nat} : s.st.nonce ≤ n → n < t.st.nonce → c = E.rand n → t.flights = s.flights →
    (t.continuation c).get? "state" = some (.str "PENDING") → delivers c ⟨s, l, t⟩ = false → ContinuationStep E s l t c
  | delivered {request reply : J} {outcome : Except Exception J} : l = .leave request outcome reply → bound c request = true →
    (t.continuation c).get? "state" = some (.str "DELIVERED") → ContinuationStep E s l t c

section Step

variable {s t : Sys} {l : Label} {tr : List (Move Sys Label)} {c : Str}

theorem Step.continuation (hf : FlightsCarried s) (hc : c ≠ []) (h : Step E s l t) : ContinuationStep E s l t c := by
  by_cases hl : ∃ request outcome reply, l = .leave request outcome reply
  · obtain ⟨request, outcome, reply, rfl⟩ := hl
    obtain ⟨id, a, c', v, -, -, hc', hw⟩ := h.wrote hf
    have hbound : bound c request = true → c' = c := by
      intro hb
      have hb : request.get? "continuation_id" = some (.str c) := by simpa [bound] using hb
      rcases (J.valueStr_ok.1 hc').2 with hg | ⟨hg, -⟩
      · simpa using hg.symm.trans hb
      · cases hg.symm.trans hb
    have hbound' : c' = c → bound c request = true := by
      rintro rfl
      simp [bound, get?_of_valueStr hc' hc]
    rcases hw.continuation with ⟨-, hok, hres⟩ | ⟨hnot, hsame⟩
    · by_cases heq : c' = c
      · exact .delivered rfl (hbound' heq) (heq ▸ hres.state)
      · exact .same (hres.others c (Ne.symm heq)) (by simp [delivers, mt hbound heq])
    · refine .same (hsame c) ?_
      rcases hnot with rfl | hok
      · simp [delivers, mt hbound (Ne.symm hc)]
      · simp [delivers, hok, Except.toOption]
  have hnone : delivers c ⟨s, l, t⟩ = false := by
    cases l with
    | leave request outcome reply => exact absurd ⟨request, outcome, reply, rfl⟩ hl
    | _ => rfl
  rcases h.effects with ⟨req, r, u, K, hreply, hu, hcontrol⟩ | hframe
  · have hframe := hcontrol.frame
    have hpre : u.db.get .continuation c = s.continuation c := hu.exec ..
    cases hcontrol with
    | continuation _ hrun =>
      rcases continuationCreate_cases hrun with hst | ⟨id, hid⟩
      · exact .same ((hst.exec ..).trans hpre) hnone
      by_cases heq : id = c
      · subst heq
        obtain ⟨n, hn, hlt, hrand⟩ := hid.drawn
        refine .created (hu.nonce.trans hn) hlt hrand ?_ hid.state hnone
        rcases hreply with rfl | ⟨rfl, -⟩ <;> cases h <;> exact List.append_nil _
      · exact .same ((hid.others c (Ne.symm heq)).trans hpre) hnone
    | _ => exact .same ((hframe.get _ _ (by decide)).trans hpre) hnone
  · refine .same (hframe.get _ _ ?_) hnone
    cases l with
    | leave request outcome reply => exact absurd ⟨request, outcome, reply, rfl⟩ hl
    | _ => simp [Label.kinds]

/-- A request is admitted only while its continuation is pending. -/
theorem admitted_pending (hsafe : Safe s) (hc : c ≠ []) {req request : J} (h : Step E s (.enter req (.admitted request)) t)
    (hb : bound c request = true) : (s.continuation c).get? "state" = some (.str "PENDING") := by
  obtain ⟨g, u, v, w, -, hu, hadm⟩ := hsafe.admission h
  have hb : request.get? "continuation_id" = some (.str c) := by simpa [bound] using hb
  have hg : g.continuationId = c := by
    rcases (J.valueStr_ok.1 hadm.reviewed.continuation).2 with hg | ⟨hg, -⟩
    · simpa using hg.symm.trans hb
    · cases hg.symm.trans hb
  obtain ⟨t₁, t₂, h₁, hcheck, -⟩ := hadm.reviewed.continuationOpen
  rw [hg] at hcheck
  have := continuationCheck_ok hc hcheck
  rwa [(hu.trans h₁).db] at this

/-- The requests in flight that are bound to a continuation: one more by an admission, or no more. -/
theorem Step.bound (h : Step E s l t) (c : Str) : t.bound c ≤ s.bound c ∨
    ∃ req request, l = .enter req (.admitted request) ∧ Control.bound c request = true ∧ t.bound c = s.bound c + 1 := by
  unfold Sys.bound
  cases h.flights with
  | kept he => exact .inl (by rw [he])
  | @admitted req request hl he =>
    rw [he, List.countP_append, List.countP_singleton]
    by_cases hb : Control.bound c request = true
    · exact .inr ⟨req, request, hl, hb, by rw [if_pos hb]⟩
    · exact .inl (by rw [if_neg hb]; omega)
  | started _ hs he => exact .inl (by rw [hs, he, List.countP_append, List.countP_append, List.countP_cons, List.countP_cons])
  | left _ hs he =>
    refine .inl ?_
    rw [hs, he, List.countP_append, List.countP_append, List.countP_cons]
    omega
  | cleared _ he => exact .inl (by rw [he, List.countP_nil]; exact Nat.zero_le _)

/-- An outcome takes its request out of flight. -/
theorem Step.bound_leave {request reply : J} {outcome : Except Exception J} (h : Step E s (.leave request outcome reply) t)
    (hb : Control.bound c request = true) : t.bound c + 1 = s.bound c := by
  unfold Sys.bound
  cases h with
  | leave hf =>
    rw [hf]
    dsimp only
    rw [List.countP_append, List.countP_append, List.countP_cons, if_pos hb]
    omega

theorem Step.bound_start {request : J} (h : Step E s (.start request) t) (hb : Control.bound c request = true) : 0 < s.bound c :=
  List.countP_pos_iff.2 ⟨_, h.start_flight, hb⟩

/-! ## Delivery against the history -/

/-- How far a continuation has got, with the requests in flight for it and the deliveries made. -/
inductive Progress (E : Env) (c : Str) (tr : List (Move Sys Label)) (s : Sys) : Prop
  | absent : s.continuation c = .null → s.bound c = 0 → tr.countP (delivers c) = 0 → Progress E c tr s
  | pending {n : Nat} : n < s.st.nonce → c = E.rand n → (s.continuation c).get? "state" = some (.str "PENDING") →
    s.bound c ≤ 1 → tr.countP (delivers c) = 0 → Progress E c tr s
  | done {n : Nat} : n < s.st.nonce → c = E.rand n → (s.continuation c).get? "state" = some (.str "DELIVERED") →
    s.bound c = 0 → tr.countP (delivers c) ≤ 1 → Progress E c tr s

theorem Progress.pending_of_bound (hp : Progress E c tr s) (hb : 0 < s.bound c) :
    (s.continuation c).get? "state" = some (.str "PENDING") := by
  cases hp with
  | absent _ hz => omega
  | pending _ _ hst => exact hst
  | done _ _ _ hz => omega

theorem countP_snoc {p : Move Sys Label → Bool} {m : Move Sys Label} (h : p m = false) : (tr ++ [m]).countP p = tr.countP p := by
  rw [List.countP_append, List.countP_singleton, if_neg (by rw [h]; exact Bool.false_ne_true), Nat.add_zero]

theorem Progress.step (hrand : Function.Injective E.rand) (hc : c ≠ []) (hsafe : Safe s) (hf : FlightsCarried s)
    (hp : Progress E c tr s) (h : Step E s l t) (hover : overlaps c ⟨s, l, t⟩ = false) : Progress E c (tr ++ [⟨s, l, t⟩]) t := by
  have hnonce := h.counts.2
  cases h.continuation hf hc with
  | same he hnone =>
    have hcount : (tr ++ [(⟨s, l, t⟩ : Move Sys Label)]).countP _ = tr.countP _ := countP_snoc hnone
    -- the continuation is as it was: only the requests in flight count
    have hbound : t.bound c ≤ s.bound c ∨ (s.continuation c).get? "state" = some (.str "PENDING") ∧ t.bound c = 1 := by
      rcases h.bound c with hle | ⟨req, request, rfl, hb, heq⟩
      · exact .inl hle
      · refine .inr ⟨admitted_pending hsafe hc h hb, ?_⟩
        simp only [overlaps, hb, Bool.true_and, decide_eq_false_iff_not, not_lt, Nat.le_zero] at hover
        omega
    cases hp with
    | absent hnull hz hd =>
      refine .absent (he.trans hnull) ?_ (hcount.trans hd)
      rcases hbound with hle | ⟨hst, -⟩
      · omega
      · rw [hnull] at hst
        cases hst
    | pending hn hr hst hle hd =>
      refine .pending (by omega) hr (he ▸ hst) ?_ (hcount.trans hd)
      rcases hbound with hle' | ⟨-, heq⟩ <;> omega
    | done hn hr hst hz hd =>
      refine .done (by omega) hr (he ▸ hst) ?_ (hcount ▸ hd)
      rcases hbound with hle | ⟨hst', -⟩
      · omega
      · rw [hst] at hst'
        simp at hst'
  | created hn hlt hr he hst hnone =>
    have hcount : (tr ++ [(⟨s, l, t⟩ : Move Sys Label)]).countP _ = tr.countP _ := countP_snoc hnone
    have hz : t.bound c = s.bound c := by rw [Sys.bound, Sys.bound, he]
    -- the id was drawn just now, so the continuation was not there
    cases hp with
    | absent _ hz' hd => exact .pending hlt hr hst (by omega) (hcount.trans hd)
    | pending hn' hr' =>
      have := hrand (hr'.symm.trans hr)
      omega
    | done hn' hr' =>
      have := hrand (hr'.symm.trans hr)
      omega
  | delivered hl hb hst =>
    have hcount : (tr ++ [(⟨s, l, t⟩ : Move Sys Label)]).countP (delivers c) ≤ tr.countP (delivers c) + 1 := by
      rw [List.countP_append, List.countP_singleton]
      split <;> omega
    subst hl
    have hleave := h.bound_leave hb
    cases hp with
    | absent _ hz => omega
    | pending hn hr _ hle hd => exact .done (by omega) hr hst (by omega) (by omega)
    | done _ _ _ hz => omega

theorem progress_run (hrand : Function.Injective E.rand) (hc : c ≠ []) (h : Run (Step E) Sys.init tr s)
    (hno : ∀ m ∈ tr, overlaps c m = false) : Progress E c tr s := by
  induction h with
  | nil => exact .absent rfl rfl rfl
  | snoc hr hstep ih =>
    have hp := ih fun m hm => hno m (List.mem_append_left _ hm)
    exact hp.step hrand hc (safe_run hr) (flightsCarried_run hr) hstep (hno _ (by simp))

/-- **Deliveries of a continuation.** In every run in which no request bound to the continuation is
admitted while another one is in flight, one dispatch at most delivers it, and every dispatch bound
to it starts while it is still pending. -/
theorem continuation_delivered_once (E : Env) (hrand : Function.Injective E.rand) {tr : List (Move Sys Label)} {s : Sys}
    (h : Run (Step E) Sys.init tr s) {c : Str} (hc : c ≠ []) (hno : ∀ m ∈ tr, overlaps c m = false) :
    tr.countP (delivers c) ≤ 1 ∧
    ∀ m ∈ tr, ∀ request, m.label = .start request → bound c request = true →
      (m.pre.continuation c).get? "state" = some (.str "PENDING") := by
  refine ⟨?_, ?_⟩
  · cases progress_run hrand hc h hno with
    | absent _ _ hd => omega
    | pending _ _ _ _ hd => omega
    | done _ _ _ _ hd => exact hd
  · intro m hm request hl hb
    obtain ⟨a, b, rfl⟩ := List.append_of_mem hm
    obtain ⟨hpre, hstep, -⟩ := h.split
    rw [hl] at hstep
    exact (progress_run hrand hc hpre fun m' hm' => hno m' (List.mem_append_left _ hm')).pending_of_bound (hstep.bound_start hb)

/-- A request that delivers the continuation created first. -/
def handOver (id : Str) : J :=
  .object [("op", .str "respond"), ("request_id", .str id), ("task_id", .str "t"), ("continuation_id", .str "0")]

def delivered : Except Exception J := .ok (.object [("ok", .bool true)])

/-- A continuation is created. -/
def handoffMoves : List (Move Sys Label) :=
  let m₀ : Move Sys Label := ⟨Sys.init, .boot false, { Sys.init with up := true }⟩
  [m₀, sampleEnter (.object [("op", .str "continuation.create"), ("task_id", .str "t"), ("kind", .str "HANDOFF")]) m₀.post]

set_option maxRecDepth 20000 in
theorem handoff_run : Run (Step sampleEnv) Sys.init handoffMoves (lastState handoffMoves) := by
  refine .snoc (.snoc .nil ?_) ?_
  · exact .boot rfl rfl
  · exact .enter rfl rfl

/-- One request delivers it. -/
def handedMoves : List (Move Sys Label) :=
  handoffMoves ++ callMoves sampleEnv (handOver "first") delivered (lastState handoffMoves)

set_option maxRecDepth 20000 in
theorem handed_run : Run (Step sampleEnv) Sys.init handedMoves (lastState handedMoves) := by
  rw [show lastState handedMoves = _ from lastState_callMoves handoffMoves]
  exact handoff_run.append (callMoves_run rfl rfl)

set_option maxRecDepth 20000 in
theorem continuation_delivered_once_handed : handedMoves.countP (delivers "0") ≤ 1 ∧
    (handedMoves[3].pre.continuation "0").get? "state" = some (.str "PENDING") := by
  have hrand : Function.Injective sampleEnv.rand := fun _ _ h => natText_inj h
  obtain ⟨hcount, hstart⟩ := continuation_delivered_once sampleEnv hrand handed_run (show lit "0" ≠ [] by decide) (by decide)
  exact ⟨hcount, hstart handedMoves[3] (List.getElem_mem _) (handOver "first") rfl (by decide)⟩

/-- Two requests are admitted before either is dispatched. -/
def racedMoves : List (Move Sys Label) :=
  let m₁ := sampleEnter (handOver "first") (lastState handoffMoves)
  let m₂ := sampleEnter (handOver "second") m₁.post
  let m₃ := startMove (handOver "first") m₂.post
  let m₄ := leaveMove sampleEnv (handOver "first") delivered m₃.post
  let m₅ := startMove (handOver "second") m₄.post
  let m₆ := leaveMove sampleEnv (handOver "second") delivered m₅.post
  handoffMoves ++ [m₁, m₂, m₃, m₄, m₅, m₆]

set_option maxRecDepth 20000 in
/-- Both deliver the continuation, and the second is dispatched after the first has delivered it. -/
theorem continuation_delivered_twice : Run (Step sampleEnv) Sys.init racedMoves (lastState racedMoves) ∧
    racedMoves.countP (delivers "0") = 2 ∧
    ∃ m ∈ racedMoves, m.label = .start (handOver "second") ∧ bound "0" (handOver "second") = true ∧
      (m.pre.continuation "0").get? "state" = some (.str "DELIVERED") := by
  refine ⟨?_, by decide, racedMoves[6], List.getElem_mem _, rfl, by decide, by decide⟩
  refine handoff_run.append (.snoc (.snoc (.snoc (.snoc (.snoc (.snoc .nil ?_) ?_) ?_) ?_) ?_) ?_)
  · exact .enter rfl rfl
  · exact .enter rfl rfl
  · exact .start (l := []) rfl
  · exact .leave (l := []) rfl rfl
  · exact .start (l := []) rfl
  · exact .leave (l := []) rfl rfl

end Step

end A2ad.Control
