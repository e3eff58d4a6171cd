/-
What an outcome writes besides the execution: the health record of the agent and the continuation
it delivers. The agent and the continuation it goes by are those of the request in flight.
-/
import A2ad.Control.Dispatch
import A2ad.Control.Effects

namespace A2ad.Control

open Bytes Json

variable {E : Env}

/-! ## Verdicts -/

/-- How a dispatch has ended: open, done, or refused. -/
inductive Verdict where
  | uncertain
  | succeeded
  | failed
deriving DecidableEq, Repr

def verdict (result : J) : Except Exception Verdict := do
  if uncertain (← result.valueStr "error_kind" "") then return .uncertain
  return if ← result.valueBool "ok" false then .succeeded else .failed

def Verdict.state : Verdict → Str
  | .uncertain => "UNCERTAIN"
  | .succeeded => "DELIVERED"
  | .failed => "FAILED"

theorem outcomeState_verdict {result : J} {error state : Str} (herror : result.valueStr "error_kind" "" = .ok error)
    (h : outcomeState result error = .ok state) : ∃ v, verdict result = .ok v ∧ state = v.state ∧
      (v = .uncertain ↔ uncertain error = true) := by
  unfold outcomeState at h
  unfold verdict
  rw [herror]
  simp only [bind, Except.bind]
  split at h
  · rename_i hu
    cases h
    exact ⟨.uncertain, by rw [if_pos hu]; rfl, rfl, by simp [hu]⟩
  · rename_i hu
    rw [if_neg hu]
    obtain ⟨ok, hok, h⟩ := Tx.except_bind_ok h
    rw [hok]
    cases h
    cases ok
    · exact ⟨.failed, rfl, rfl, by simp [hu]⟩
    · exact ⟨.succeeded, rfl, rfl, by simp [hu]⟩

/-! ## Health records -/

/-- What `ControlPlane::health` reads. -/
def healthAt (db : Db) (agent : Str) : J :=
  if (db.get .health agent).isNull then
    .object [("agent", .str agent), ("failures", .int 0), ("quarantined", .bool false)]
  else db.get .health agent

theorem health_ok {agent : Str} {h : J} {s s' : St} (hh : health agent s = .ok h s') : h = healthAt s.db agent ∧ s = s' := by
  unfold health at hh
  obtain ⟨_, _, hr, hh⟩ := Tx.bind_ok.1 hh
  obtain ⟨rfl, rfl⟩ := read_ok.1 hr
  obtain ⟨rfl, rfl⟩ := Tx.pure_ok.1 hh
  exact ⟨rfl, rfl⟩

theorem healthAt_of_get {db : Db} {agent : Str} {h : J} (hget : db.get .health agent = h) (hobj : h.isObject = true) :
    healthAt db agent = h := by
  unfold healthAt
  rw [hget, if_neg]
  intro hnull
  rw [J.isNull_iff.1 hnull] at hobj
  cases hobj

/-- The failure count and the flag of a health record. -/
structure Health (h : J) (failures : Int) (quarantined : Bool) : Prop where
  object : h.isObject = true
  failures : h.get? "failures" = some (.int failures)
  quarantined : h.get? "quarantined" = some (.bool quarantined)

/-- The count after an outcome; `get<int>()` keeps the low 32 bits of the count it reads. -/
def Verdict.count (v : Verdict) (failures : Int) : Int :=
  match v with
  | .uncertain => failures.bmod (2 ^ 32) + 1
  | .succeeded => 0
  | .failed => failures

theorem Health.valueInt {h : J} {n : Int} {b : Bool} (hh : Health h n b) : h.valueInt "failures" 0 = .ok (n.bmod (2 ^ 32)) :=
  J.value_ok.2 ⟨hh.object, .inl ⟨_, hh.failures, rfl⟩⟩

theorem Health.setFailures {h h' : J} {n m : Int} {b : Bool} (hh : Health h n b) (hset : h.assign "failures" (.int m) = .ok h') :
    Health h' m b := by
  obtain ⟨hobj, hget⟩ := J.get?_assign hset "failures"
  refine ⟨hobj, by rw [hget, if_pos rfl], ?_⟩
  rw [(J.get?_assign hset "quarantined").2, if_neg (by simp), hh.quarantined]

theorem Health.setFlag {h h' : J} {n : Int} {b c : Bool} (hh : Health h n b) (hset : h.assign "quarantined" (.bool c) = .ok h') :
    Health h' n c := by
  obtain ⟨hobj, hget⟩ := J.get?_assign hset "quarantined"
  refine ⟨hobj, ?_, by rw [hget, if_pos rfl]⟩
  rw [(J.get?_assign hset "failures").2, if_neg (by simp), hh.failures]

theorem Health.setReason {h h' v : J} {n : Int} {b : Bool} (hh : Health h n b) (hset : h.assign "reason" v = .ok h') :
    Health h' n b := by
  refine ⟨(J.get?_assign hset []).1, ?_, ?_⟩
  · rw [(J.get?_assign hset "failures").2, if_neg (by simp), hh.failures]
  · rw [(J.get?_assign hset "quarantined").2, if_neg (by simp), hh.quarantined]

/-- The flag after an outcome that leaves the count at `n`. -/
def flagAfter (n : Int) (b : Bool) : Bool := b || decide (3 ≤ n.bmod (2 ^ 32))

/-- An outcome writes the health record of the agent: it counts, and raises the flag at three. -/
theorem recordHealth_ok {agent error : Str} {result : J} {v : Verdict} {u : Unit} {s s' : St}
    (hv : verdict result = .ok v) (herror : result.valueStr "error_kind" "" = .ok error)
    (h : recordHealth agent error result s = .ok u s') :
    ∃ h', s' = { s with db := s.db.put .health agent h' } ∧
      ∀ n b, Health (healthAt s.db agent) n b → Health h' (v.count n) (flagAfter (v.count n) b) := by
  unfold recordHealth at h
  obtain ⟨_, _, hl, h⟩ := Tx.bind_ok.1 h
  obtain ⟨rfl, rfl⟩ := health_ok hl
  -- the part after the count
  have hflag : ∀ {h₁ : J}, (do
      if (← h₁.valueInt "failures" 0) ≥ 3 then
        let h ← h₁.assign "quarantined" (.bool true)
        let h ← h.assign "reason" (.str "three consecutive uncertain dispatches")
        write .health agent h
      else write .health agent h₁ : M Unit) s = .ok u s' →
      ∃ h', s' = { s with db := s.db.put .health agent h' } ∧ ∀ m b, Health h₁ m b → Health h' m (flagAfter m b) := by
    intro h₁ h
    obtain ⟨count, _, hl, h⟩ := Tx.bind_ok.1 h
    obtain ⟨hcount, rfl⟩ := Tx.lift_ok.1 hl
    rcases Tx.ite_ok h with ⟨hge, h⟩ | ⟨hlt, h⟩
    · obtain ⟨h₂, _, hl, h⟩ := Tx.bind_ok.1 h
      obtain ⟨hset, rfl⟩ := Tx.lift_ok.1 hl
      obtain ⟨h₃, _, hl, h⟩ := Tx.bind_ok.1 h
      obtain ⟨hreason, rfl⟩ := Tx.lift_ok.1 hl
      obtain ⟨-, rfl⟩ := write_ok.1 h
      refine ⟨h₃, rfl, fun m b hh₁ => ?_⟩
      obtain rfl := Except.ok.inj (hcount.symm.trans hh₁.valueInt)
      have hraised : flagAfter m b = true := by
        rw [flagAfter, decide_eq_true hge, Bool.or_true]
      exact hraised ▸ (hh₁.setFlag hset).setReason hreason
    · obtain ⟨-, rfl⟩ := write_ok.1 h
      refine ⟨h₁, rfl, fun m b hh₁ => ?_⟩
      obtain rfl := Except.ok.inj (hcount.symm.trans hh₁.valueInt)
      have hkept : flagAfter m b = b := by
        rw [flagAfter, decide_eq_false hlt, Bool.or_false]
      exact hkept.symm ▸ hh₁
  unfold verdict at hv
  rw [herror] at hv
  simp only [bind, Except.bind] at hv
  rcases Tx.ite_ok h with ⟨hu, h⟩ | ⟨hu, h⟩
  · rw [if_pos hu] at hv
    cases hv
    obtain ⟨count, _, hl, h⟩ := Tx.bind_ok.1 h
    obtain ⟨hcount, rfl⟩ := Tx.lift_ok.1 hl
    obtain ⟨h₁, _, hl, h⟩ := Tx.bind_ok.1 h
    obtain ⟨hset, rfl⟩ := Tx.lift_ok.1 hl
    obtain ⟨h', hs', hh'⟩ := hflag h
    refine ⟨h', hs', fun n b hh => hh' _ _ ?_⟩
    obtain rfl := Except.ok.inj (hcount.symm.trans hh.valueInt)
    exact hh.setFailures hset
  · rw [if_neg hu] at hv
    obtain ⟨ok, _, hl, h⟩ := Tx.bind_ok.1 h
    obtain ⟨hok, rfl⟩ := Tx.lift_ok.1 hl
    rw [hok] at hv
    rcases Tx.ite_ok h with ⟨rfl, h⟩ | ⟨hok', h⟩
    · cases hv
      obtain ⟨h₁, _, hl, h⟩ := Tx.bind_ok.1 h
      obtain ⟨hset, rfl⟩ := Tx.lift_ok.1 hl
      obtain ⟨h', hs', hh'⟩ := hflag h
      exact ⟨h', hs', fun n b hh => hh' _ _ (hh.setFailures hset)⟩
    · rw [Bool.not_eq_true] at hok'
      subst hok'
      cases hv
      exact hflag h

/-! ## Outcomes -/

/-- The continuation `c` was delivered by the execution `id`. -/
structure Resolved (c id : Str) (s s' : St) : Prop where
  state : (s'.db.get .continuation c).get? "state" = some (.str "DELIVERED")
  execution : (s'.db.get .continuation c).get? "execution_id" = some (.str id)
  kept : ∀ k : Str, k ≠ "state" → k ≠ "execution_id" →
    (s'.db.get .continuation c).get? k = (s.db.get .continuation c).get? k
  others : ∀ c', c' ≠ c → s'.db.get .continuation c' = s.db.get .continuation c'

theorem deliverContinuation_ok {c id : Str} {u : Unit} {s s' : St} (h : deliverContinuation E c id s = .ok u s') :
    Resolved c id s s' := by
  unfold deliverContinuation at h
  obtain ⟨_, _, hr, h⟩ := Tx.bind_ok.1 h
  obtain ⟨rfl, rfl⟩ := read_ok.1 hr
  obtain ⟨c₁, _, hl, h⟩ := Tx.bind_ok.1 h
  obtain ⟨h₁, rfl⟩ := Tx.lift_ok.1 hl
  obtain ⟨c₂, _, hl, h⟩ := Tx.bind_ok.1 h
  obtain ⟨h₂, rfl⟩ := Tx.lift_ok.1 hl
  obtain ⟨_, _, hw, h⟩ := Tx.bind_ok.1 h
  obtain ⟨hget, hothers, -⟩ := write_append_ok hw h
  have hfields : ∀ k : Str, c₂.get? k = if lit "execution_id" = k then some (.str id) else
      if lit "state" = k then some (.str "DELIVERED") else (s.db.get .continuation c).get? k := by
    intro k
    rw [(J.get?_assign h₂ k).2, (J.get?_assign h₁ k).2]
  refine ⟨?_, ?_, ?_, ?_⟩
  · rw [hget, hfields, if_neg (by simp), if_pos rfl]
  · rw [hget, hfields, if_pos rfl]
  · intro k hs he
    rw [hget, hfields, if_neg (Ne.symm he), if_neg (Ne.symm hs)]
  · intro c' hne
    exact hothers _ _ (by simpa using hne)

/-- What an outcome writes besides the execution of `id`, which names the agent `a` and the
continuation `c`. -/
structure Wrote (id a c : Str) (result : J) (v : Verdict) (s s' : St) : Prop where
  verdict : verdict result = .ok v
  state : (s'.db.get .execution id).get? "state" = some (.str v.state)
  continuation : c ≠ [] ∧ result.valueBool "ok" false = .ok true ∧ Resolved c id s s' ∨
    (c = [] ∨ result.valueBool "ok" false = .ok false) ∧ ∀ c', s'.db.get .continuation c' = s.db.get .continuation c'
  counted : a ≠ [] → ∀ n b, Health (healthAt s.db a) n b → Health (healthAt s'.db a) (v.count n) (flagAfter (v.count n) b)
  healths : ∀ a', a' ≠ a ∨ a = [] → healthAt s'.db a' = healthAt s.db a'

theorem healthAt_congr {db db' : Db} {a : Str} (h : db'.get .health a = db.get .health a) : healthAt db' a = healthAt db a := by
  rw [healthAt, healthAt, h]

set_option synthInstance.maxSize 2000 in
theorem finish_wrote {id a c : Str} {result : J} {u : Unit} {s s' : St}
    (ha : (s.db.get .execution id).get? "agent" = some (.str a))
    (hc : (s.db.get .execution id).get? "continuation_id" = some (.str c)) (h : finish E id result s = .ok u s') :
    ∃ v, Wrote id a c result v s s' := by
  unfold finish at h
  obtain ⟨_, _, hr, h⟩ := Tx.bind_ok.1 h
  obtain ⟨rfl, rfl⟩ := read_ok.1 hr
  obtain ⟨error, _, hl, h⟩ := Tx.bind_ok.1 h
  obtain ⟨herror, rfl⟩ := Tx.lift_ok.1 hl
  obtain ⟨state, _, hl, h⟩ := Tx.bind_ok.1 h
  obtain ⟨hstate, rfl⟩ := Tx.lift_ok.1 hl
  obtain ⟨v, hv, rfl, -⟩ := outcomeState_verdict herror hstate
  obtain ⟨_, _, hn, h⟩ := Tx.bind_ok.1 h
  obtain ⟨rfl, rfl⟩ := now_ok.1 hn
  obtain ⟨e, _, hl, h⟩ := Tx.bind_ok.1 h
  obtain ⟨he, rfl⟩ := Tx.lift_ok.1 hl
  obtain ⟨hobj, hkept, hst, -⟩ := finished_ok he
  obtain ⟨_, t, hw, h⟩ := Tx.bind_ok.1 h
  obtain ⟨-, rfl⟩ := write_ok.1 hw
  obtain ⟨c', _, hl, h⟩ := Tx.bind_ok.1 h
  obtain ⟨hc', rfl⟩ := Tx.lift_ok.1 hl
  have hcont : e.valueStr "continuation_id" "" = .ok c :=
    J.valueStr_ok.2 ⟨hobj, .inl ((hkept _ (by decide)).trans hc)⟩
  obtain rfl : c' = c := Except.ok.inj (hc'.symm.trans hcont)
  have hagent : e.valueStr "agent" "" = .ok a := J.valueStr_ok.2 ⟨hobj, .inl ((hkept _ (by decide)).trans ha)⟩
  -- the health record and the event, from whatever the continuation left
  have htail : ∀ {w : St}, (do
      let agent ← e.valueStr "agent" ""
      if !agent.isEmpty then recordHealth agent error result
      append E (.object [("type", .str "execution.finished"), ("execution_id", .str id), ("state", .str v.state),
        ("task_id", ← e.index "task_id")]) : M Unit) w = .ok u s' →
      (a ≠ [] → ∀ n b, Health (healthAt w.db a) n b → Health (healthAt s'.db a) (v.count n) (flagAfter (v.count n) b)) ∧
        (∀ a', a' ≠ a ∨ a = [] → healthAt s'.db a' = healthAt w.db a') ∧
        ∀ kind id', kind ≠ .health → s'.db.get kind id' = w.db.get kind id' := by
    intro w h
    obtain ⟨agent, _, hl, h⟩ := Tx.bind_ok.1 h
    obtain ⟨hagent', rfl⟩ := Tx.lift_ok.1 hl
    obtain rfl : agent = a := Except.ok.inj (hagent'.symm.trans hagent)
    have hevent : ∀ {x : St}, (do
        append E (.object [("type", .str "execution.finished"), ("execution_id", .str id), ("state", .str v.state),
          ("task_id", ← e.index "task_id")]) : M Unit) x = .ok u s' → ∀ kind id', s'.db.get kind id' = x.db.get kind id' := by
      intro x h kind id'
      have hframe : Frame [] x s' := Tx.keeps_ok h
      exact hframe.get _ _ (by simp)
    rcases Tx.ite_ok h with ⟨hne, h⟩ | ⟨hempty, h⟩
    · obtain ⟨_, x, hrec, h⟩ := Tx.bind_ok.1 h
      have hx := hevent h
      obtain ⟨h', rfl, hh'⟩ := recordHealth_ok hv herror hrec
      refine ⟨?_, ?_, ?_⟩
      · intro _ n b hh
        rw [healthAt_congr (hx _ _), healthAt_of_get (Db.get_put_self ..) (hh' n b hh).object]
        exact hh' n b hh
      · rintro a' (hne' | rfl)
        · exact healthAt_congr ((hx _ _).trans (Db.get_put_ne _ _ (by simpa using hne')))
        · simp at hne
      · intro kind id' hk
        exact (hx _ _).trans (Db.get_put_ne _ _ (by simp [hk]))
    · have hempty : agent = [] := by simpa using hempty
      have hx := hevent h
      exact ⟨fun hne => absurd hempty hne, fun a' _ => healthAt_congr (hx _ _), fun kind id' _ => hx kind id'⟩
  -- put together, where the continuation has left the execution and the health records alone
  have hdone : ∀ {w : St}, (∀ a', healthAt w.db a' = healthAt s.db a') → w.db.get .execution id = e →
      (c' ≠ [] ∧ result.valueBool "ok" false = .ok true ∧ Resolved c' id s w ∨
        (c' = [] ∨ result.valueBool "ok" false = .ok false) ∧
          ∀ c, w.db.get .continuation c = s.db.get .continuation c) →
      (do
        let agent ← e.valueStr "agent" ""
        if !agent.isEmpty then recordHealth agent error result
        append E (.object [("type", .str "execution.finished"), ("execution_id", .str id), ("state", .str v.state),
          ("task_id", ← e.index "task_id")]) : M Unit) w = .ok u s' → ∃ v, Wrote id a c' result v s s' := by
    intro w hw he hcase h
    obtain ⟨hcounted, hhealths, hrest⟩ := htail h
    refine ⟨v, hv, ?_, ?_, ?_, ?_⟩
    · rw [hrest _ _ (by simp), he, hst]
    · refine hcase.imp ?_ ?_
      · rintro ⟨hne, hok, h₁, h₂, h₃, h₄⟩
        refine ⟨hne, hok, ?_, ?_, ?_, ?_⟩
        · rw [hrest _ _ (by simp), h₁]
        · rw [hrest _ _ (by simp), h₂]
        · intro k hk hk'
          rw [hrest _ _ (by simp), h₃ k hk hk']
        · intro c hc
          rw [hrest _ _ (by simp), h₄ c hc]
      · rintro ⟨hnot, hsame⟩
        exact ⟨hnot, fun c => by rw [hrest _ _ (by simp), hsame]⟩
    · intro hne n b hh
      exact hcounted hne n b ((hw a).symm ▸ hh)
    · intro a' hcase
      rw [hhealths a' hcase, hw]
  have hothers : ∀ kind id', kind ≠ .execution → (s.db.put .execution id e).get kind id' = s.db.get kind id' :=
    fun kind id' hk => Db.get_put_ne _ _ (by simp [hk])
  -- only a success resolves the continuation
  rcases Tx.ite_ok h with ⟨hne, h⟩ | ⟨hempty, h⟩
  · obtain ⟨ok, _, hl, h⟩ := Tx.bind_ok.1 h
    obtain ⟨hok, rfl⟩ := Tx.lift_ok.1 hl
    rcases Tx.ite_ok h with ⟨rfl, h⟩ | ⟨hok', h⟩
    · obtain ⟨_, w, hdel, h⟩ := Tx.bind_ok.1 h
      have hframe : Frame [.continuation] _ w := Tx.keeps_ok hdel
      obtain ⟨h₁, h₂, h₃, h₄⟩ := deliverContinuation_ok hdel
      refine hdone ?_ ?_ (.inl ⟨by simpa using hne, hok, h₁, h₂, ?_, ?_⟩) h
      · intro a'
        exact healthAt_congr ((hframe.get _ _ (by decide)).trans (hothers _ _ (by simp)))
      · exact (hframe.get _ _ (by decide)).trans (Db.get_put_self ..)
      · intro k hk hk'
        exact (h₃ k hk hk').trans (congrArg (J.get? · k) (hothers .continuation c' (by simp)))
      · intro c hc
        exact (h₄ c hc).trans (hothers _ _ (by simp))
    · rw [Bool.not_eq_true] at hok'
      subst hok'
      refine hdone ?_ (Db.get_put_self ..) (.inr ⟨.inr hok, ?_⟩) h
      · intro a'
        exact healthAt_congr (hothers _ _ (by simp))
      · intro c
        exact hothers _ _ (by simp)
  · have hempty : c' = [] := by simpa using hempty
    refine hdone ?_ (Db.get_put_self ..) (.inr ⟨.inl hempty, ?_⟩) h
    · intro a'
      exact healthAt_congr (hothers _ _ (by simp))
    · intro c
      exact hothers _ _ (by simp)

/-! ## What a request in flight has left in its execution -/

/-- The execution `e` names the agent and the continuation of the request. -/
structure Carried (request e : J) : Prop where
  agent : ∃ a, request.valueStr "agent" "" = .ok a ∧ e.get? "agent" = some (.str a)
  continuation : ∃ c, request.valueStr "continuation_id" "" = .ok c ∧ e.get? "continuation_id" = some (.str c)

theorem Carried.settles {request e e' : J} (h : Carried request e) (hs : Settles e e') : Carried request e' := by
  obtain ⟨a, ha, hea⟩ := h.agent
  obtain ⟨c, hc, hec⟩ := h.continuation
  exact ⟨⟨a, ha, (hs.kept _ (by decide)).trans hea⟩, ⟨c, hc, (hs.kept _ (by decide)).trans hec⟩⟩

theorem Admission.carried {enforce : Bool} {request : J} {g : Grant} {u v w x : St} (h : Admission E enforce request g u v w x) :
    Carried request (x.db.get .execution g.id) := by
  obtain ⟨_, _, _, hc⟩ := h.created
  rw [hc]
  refine ⟨⟨g.agent, h.reviewed.agent, ?_⟩, ⟨g.continuationId, h.reviewed.continuation, ?_⟩⟩
  · simp [Grant.execution]
  · simp [Grant.execution]

/-- Every request in flight agrees with its execution. -/
def FlightsCarried (s : Sys) : Prop :=
  ∀ f ∈ s.flights, ∀ id, f.request.get? "request_id" = some (.str id) → Carried f.request (s.exec id)

section Flights

variable {s t : Sys} {l : Label} {tr : List (Move Sys Label)}

theorem FlightsCarried.step (hc : FlightsCarried s) (hs : Safe s) (h : Step E s l t) : FlightsCarried t := by
  intro f hf id hid
  rcases h.flight_origin hf with ⟨f', hf', he⟩ | ⟨req, hl⟩
  · rw [← he] at hid ⊢
    have hcarried := hc f' hf' id hid
    cases hs.exec_step h id with
    | same he => rw [he]; exact hcarried
    | admitted _ _ hst ha hg =>
      -- no call is in flight under a fresh id
      have hdisp := (hs.flight_exec hf' hid).1
      have hfresh : s.exec id = .null := by rw [← hg]; exact (hst.exec ..).symm.trans ha.fresh
      rw [hfresh] at hdisp
      cases hdisp
    | finished _ _ _ _ hfin => exact hcarried.settles hfin.settles
    | recovered _ he hid' _ hset =>
      subst he
      obtain rfl := hs.recovered_id hid'
      exact hcarried.settles hset
  · subst hl
    obtain ⟨g, _, _, _, -, -, ha⟩ := hs.admission h
    have hg : g.id = id := by simpa using (required_ok ha.id).1.symm.trans hid
    exact hg ▸ ha.carried

theorem flightsCarried_run (h : Run (Step E) Sys.init tr s) : FlightsCarried s :=
  h.invariant_of (I := fun _ s => FlightsCarried s) (fun _ hf => absurd hf List.not_mem_nil) fun _ _ _ _ hr hc hstep => hc.step (safe_run hr) hstep

/-- What the outcome of a request in flight writes. -/
theorem Step.wrote (hc : FlightsCarried s) {request reply : J} {outcome : Except Exception J}
    (h : Step E s (.leave request outcome reply) t) : ∃ id a c v, request.get? "request_id" = some (.str id) ∧
      request.valueStr "agent" "" = .ok a ∧ request.valueStr "continuation_id" "" = .ok c ∧
      Wrote id a c reply v s.st t.st := by
  cases h with
  | leave hf h =>
    obtain ⟨id, hid, -, hfinish⟩ := leave_ok h
    obtain ⟨⟨a, ha, hea⟩, ⟨c, hcont, hec⟩⟩ := hc ⟨request, true⟩ (by rw [hf]; simp) id hid
    obtain ⟨v, hw⟩ := finish_wrote hea hec hfinish
    exact ⟨id, a, c, v, hid, ha, hcont, hw⟩

end Flights

end A2ad.Control
