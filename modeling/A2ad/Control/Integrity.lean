/-
What executions refer to: the session, the continuation, the retried execution and the parent an
execution names are in the store in every state, sessions and the failures that were retried for
ever as they were, and no execution leans on itself through retries and delegations.
-/
import A2ad.Control.Continuation
import A2ad.Control.Lifecycle
import Mathlib.Logic.Relation

namespace A2ad.Control

open Bytes Json

variable {E : Env} {s t : Sys} {l : Label} {tr : List (Move Sys Label)}

/-! ## Sessions -/

def Sys.session (s : Sys) (id : Str) : J := s.st.db.get .session id

/-- A session is only ever written under an id that has none. -/
theorem sessionCreate_kept {req r : J} {a b : St} (h : sessionCreate E req a = .ok r b) {id : Str}
    (hne : a.db.get .session id ≠ .null) : b.db.get .session id = a.db.get .session id := by
  unfold sessionCreate at h
  -- the id is given or drawn, and goes the same way from there
  obtain ⟨i, c, hc, h⟩ : ∃ i c, Still a c ∧ (do
      if !(← read .session i).isNull then return failure "conflict" "session already exists"
      let created ← now E
      let session := J.object [("id", .str i), ("created_at", .int created), ("label", .str (← req.valueStr "label" ""))]
      write .session i session
      append E (.object [("type", .str "session.created"), ("session_id", .str i)])
      return .object [("ok", .bool true), ("session", session)] : M J) c = .ok r b := by
    rcases Tx.ite_ok h with ⟨-, h⟩ | ⟨-, h⟩
    · obtain ⟨i, c, hi, h⟩ := Tx.bind_ok.1 h
      obtain ⟨-, rfl⟩ := Tx.lift_ok.1 hi
      exact ⟨i, a, refl a, h⟩
    · obtain ⟨i, c, hi, h⟩ := Tx.bind_ok.1 h
      exact ⟨i, c, Tx.keeps_ok hi, h⟩
  obtain ⟨_, _, hr, h⟩ := Tx.bind_ok.1 h
  obtain ⟨rfl, rfl⟩ := read_ok.1 hr
  rcases Tx.ite_ok h with ⟨-, h⟩ | ⟨hfresh, h⟩
  · obtain ⟨-, rfl⟩ := Tx.pure_ok.1 h
    rw [hc.db]
  have hnull : c.db.get .session i = .null := null_of_not hfresh
  obtain ⟨_, d, hn, h⟩ := Tx.bind_ok.1 h
  obtain ⟨-, rfl⟩ := now_ok.1 hn
  obtain ⟨_, _, hl, h⟩ := Tx.bind_ok.1 h
  obtain ⟨-, rfl⟩ := Tx.lift_ok.1 hl
  obtain ⟨_, _, hw, h⟩ := Tx.bind_ok.1 h
  obtain ⟨_, _, ha, h⟩ := Tx.bind_ok.1 h
  obtain ⟨-, rfl⟩ := Tx.pure_ok.1 h
  obtain ⟨-, hothers, -⟩ := write_append_ok hw ha
  have hid : id ≠ i := by
    rintro rfl
    rw [hc.db] at hnull
    exact hne hnull
  rw [hothers _ _ (by simpa using hid)]
  exact congrArg (fun db => Db.get db .session id) hc.db

theorem Step.session (h : Step E s l t) {id : Str} (hne : s.session id ≠ .null) : t.session id = s.session id := by
  rcases h.controlled with ⟨req, r, u, K, -, hu, hc⟩ | hframe
  · have hsame : u.db.get .session id = s.session id := congrArg (fun db => Db.get db .session id) hu.db
    have hkept : Kind.session ∉ K → t.session id = s.session id := fun hk => (hc.frame.get _ _ hk).trans hsame
    cases hc with
    | session _ h => exact (sessionCreate_kept h (by rwa [hsame])).trans hsame
    | _ => exact hkept (by decide)
  · exact hframe.get _ _ (by decide)

theorem session_run {r : Sys} {id : Str} (hne : r.session id ≠ .null) (h : Run (Step E) r tr s) : s.session id = r.session id :=
  h.invariant (I := fun _ s => s.session id = r.session id) rfl fun _ _ _ _ he hstep => by
    rw [hstep.session (by rwa [he]), he]

theorem continuation_present (hf : FlightsCarried s) (h : Step E s l t) {c : Str} (hc : c ≠ []) (hne : s.continuation c ≠ .null) :
    t.continuation c ≠ .null := by
  cases h.continuation hf hc with
  | same he => rwa [he]
  | created _ _ _ _ hst => exact J.ne_null_of_get? hst
  | delivered _ _ hst => exact J.ne_null_of_get? hst

/-! ## References -/

/-- What the execution `e` names is in the store, and what it retries has failed. -/
structure Refers (s : Sys) (e : J) : Prop where
  session : ∀ i : Str, e.get? "session_id" = some (.str i) → i ≠ [] → s.session i ≠ .null
  continuation : ∀ c : Str, e.get? "continuation_id" = some (.str c) → c ≠ [] → s.continuation c ≠ .null
  retry : ∀ r : Str, e.get? "retry_of" = some (.str r) → r ≠ [] → (s.exec r).get? "state" = some (.str "FAILED")
  parent : ∀ p : Str, e.get? "parent_execution_id" = some (.str p) → p ≠ [] → s.exec p ≠ .null

theorem not_dispatching_of_failed {e : J} (h : e.get? "state" = some (.str "FAILED")) : ¬ Dispatching e := by
  intro hd
  unfold Dispatching at hd
  rw [h] at hd
  cases hd

theorem Refers.step {e : J} (hr : Refers s e) (hs : Safe s) (hf : FlightsCarried s) (h : Step E s l t) : Refers t e where
  session i hi hne := by
    rw [h.session (hr.session i hi hne)]
    exact hr.session i hi hne
  continuation c hc hne := continuation_present hf h hne (hr.continuation c hc hne)
  retry r hretry hne := by
    have hfailed := hr.retry r hretry hne
    rcases hs.frozen_step h (J.ne_null_of_get? hfailed) with he | ⟨hd, -⟩
    · rw [he]
      exact hfailed
    · exact absurd hd (not_dispatching_of_failed hfailed)
  parent p hp hne := hs.exec_ne_null h (hr.parent p hp hne)

/-- The fields by which an execution refers to others stay as they were. -/
theorem Refers.settles {e e' : J} (hr : Refers s e) (h : Settles e e') : Refers s e' where
  session i hi := hr.session i ((h.kept _ (by decide)).symm.trans hi)
  continuation c hc := hr.continuation c ((h.kept _ (by decide)).symm.trans hc)
  retry r hretry := hr.retry r ((h.kept _ (by decide)).symm.trans hretry)
  parent p hp := hr.parent p ((h.kept _ (by decide)).symm.trans hp)

theorem sessionCheck_ok {i : Str} {a b : St} (hi : i ≠ []) (h : sessionCheck i a = .ok .null b) : a.db.get .session i ≠ .null := by
  unfold sessionCheck at h
  rcases Tx.ite_ok h with ⟨hempty, -⟩ | ⟨-, h⟩
  · exact absurd (by simpa using hempty) hi
  obtain ⟨_, _, hr, h⟩ := Tx.bind_ok.1 h
  obtain ⟨rfl, rfl⟩ := read_ok.1 hr
  rcases Tx.ite_ok h with ⟨-, h⟩ | ⟨hpresent, -⟩
  · cases (Tx.pure_ok.1 h).1
  · exact fun hnull => hpresent (J.isNull_iff.2 hnull)

theorem retryCheck_ok {r : Str} {a b : St} (hr : r ≠ []) (h : retryCheck r a = .ok .null b) :
    (a.db.get .execution r).get? "state" = some (.str "FAILED") := by
  unfold retryCheck at h
  rcases Tx.ite_ok h with ⟨hempty, -⟩ | ⟨-, h⟩
  · exact absurd (by simpa using hempty) hr
  obtain ⟨_, _, hread, h⟩ := Tx.bind_ok.1 h
  obtain ⟨rfl, rfl⟩ := read_ok.1 hread
  obtain ⟨b, _, hl, h⟩ := Tx.bind_ok.1 h
  obtain ⟨hb, rfl⟩ := Tx.lift_ok.1 hl
  rcases Tx.ite_ok h with ⟨rfl, -⟩ | ⟨-, h⟩
  · exact hasState_ok hb (by decide)
  · cases (Tx.pure_ok.1 h).1

/-- What a grant names has been looked up by the time it is given. -/
structure Looked (s : Sys) (g : Grant) : Prop where
  session : g.sessionId ≠ [] → s.session g.sessionId ≠ .null
  continuation : g.continuationId ≠ [] → s.continuation g.continuationId ≠ .null
  retry : g.retryOf ≠ [] → (s.exec g.retryOf).get? "state" = some (.str "FAILED")
  parent : g.parentId ≠ [] → s.exec g.parentId ≠ .null

theorem Admission.looked {enforce : Bool} {request : J} {g : Grant} {u v w x : St} (h : Admission E enforce request g u v w x)
    (hu : Still s.st u) : Looked s g := by
  have hseen : ∀ {a : St}, Still u a → ∀ kind id, a.db.get kind id = s.st.db.get kind id :=
    fun ha kind id => (hu.trans ha).exec kind id
  obtain ⟨a₁, _, h₁, hsession, -⟩ := h.reviewed.sessionKnown
  obtain ⟨a₂, _, h₂, hopen, -⟩ := h.reviewed.continuationOpen
  obtain ⟨a₃, _, h₃, hretry, -⟩ := h.reviewed.retryAllowed
  obtain ⟨a₄, _, _, h₄, -, hparent, -⟩ := h.reviewed.delegation
  refine ⟨fun hne => ?_, fun hne => ?_, fun hne => ?_, fun hne => ?_⟩
  · have := sessionCheck_ok hne hsession
    rwa [hseen h₁] at this
  · have := continuationCheck_ok hne hopen
    rw [hseen h₂] at this
    exact J.ne_null_of_get? this
  · have := retryCheck_ok hne hretry
    rwa [hseen h₃] at this
  · rcases hparent with ⟨hnone, -⟩ | ⟨-, hdel⟩
    · exact absurd hnone hne
    · have := hdel.parent
      rwa [hseen h₄] at this

theorem Looked.refers {g : Grant} (h : Looked s g) {started deadline : Int} {taskId : Str} :
    Refers s (g.execution started deadline taskId) := by
  constructor
  · intro i hi hne
    obtain rfl : g.sessionId = i := by simpa [Grant.execution] using hi
    exact h.session hne
  · intro c hc hne
    obtain rfl : g.continuationId = c := by simpa [Grant.execution] using hc
    exact h.continuation hne
  · intro r hr hne
    obtain rfl : g.retryOf = r := by simpa [Grant.execution] using hr
    exact h.retry hne
  · intro p hp hne
    obtain rfl : g.parentId = p := by simpa [Grant.execution] using hp
    exact h.parent hne

/-- An execution was there before the step, or the step has admitted it on looked-up references. -/
theorem Safe.origin_step (hs : Safe s) (h : Step E s l t) {id : Str} (hne : t.exec id ≠ .null) :
    (s.exec id ≠ .null ∧ (t.exec id = s.exec id ∨ Settles (s.exec id) (t.exec id))) ∨
      s.exec id = .null ∧ ∃ g started deadline taskId, Looked s g ∧ t.exec id = g.execution started deadline taskId := by
  by_cases hold : s.exec id = .null
  · refine .inr ⟨hold, ?_⟩
    cases hs.exec_step h id with
    | same he =>
      rw [he] at hne
      exact absurd hold hne
    | admitted _ _ hst ha hg =>
      obtain ⟨started, deadline, taskId, hc⟩ := ha.created
      exact ⟨_, started, deadline, taskId, ha.looked hst, hg ▸ hc⟩
    | finished _ hid hf =>
      exact absurd hold (J.ne_null_of_get? (hs.flight_exec hf hid).1)
    | recovered _ he hid hstate =>
      subst he
      obtain rfl := hs.recovered_id hid
      exact absurd hold (J.ne_null_of_get? hstate)
  · exact .inl ⟨hold, (hs.frozen_step h hold).imp_right And.right⟩

theorem refers_step (hs : Safe s) (hf : FlightsCarried s) (hr : ∀ id, s.exec id ≠ .null → Refers s (s.exec id)) (h : Step E s l t)
    {id : Str} (hne : t.exec id ≠ .null) : Refers t (t.exec id) := by
  rcases hs.origin_step h hne with ⟨hold, he | hset⟩ | ⟨-, g, _, _, _, hlooked, hnew⟩
  · rw [he]
    exact (hr id hold).step hs hf h
  · exact ((hr id hold).settles hset).step hs hf h
  · rw [hnew]
    exact hlooked.refers.step hs hf h

theorem refers_run (h : Run (Step E) Sys.init tr s) {id : Str} (hne : s.exec id ≠ .null) : Refers s (s.exec id) :=
  h.invariant_of (I := fun _ s => ∀ id, s.exec id ≠ .null → Refers s (s.exec id)) (fun _ h => absurd rfl h)
    (fun _ _ _ _ hr hrefers hstep _ hne => refers_step (safe_run hr) (flightsCarried_run hr) hrefers hstep hne) id hne

/-! ## No cycles -/

/-- The execution `e` is a retry of `b` or was delegated by it. -/
inductive Leans (e : J) (b : Str) : Prop
  | retry : e.get? "retry_of" = some (.str b) → b ≠ [] → Leans e b
  | child : e.get? "parent_execution_id" = some (.str b) → b ≠ [] → Leans e b

theorem Leans.settled {e e' : J} {b : Str} (h : Leans e' b) (hset : Settles e e') : Leans e b := by
  cases h with
  | retry hb hne => exact .retry ((hset.kept _ (by decide)).symm.trans hb) hne
  | child hb hne => exact .child ((hset.kept _ (by decide)).symm.trans hb) hne

theorem Refers.leans {e : J} {b : Str} (hr : Refers s e) (h : Leans e b) : s.exec b ≠ .null := by
  cases h with
  | retry hb hne => exact J.ne_null_of_get? (hr.retry b hb hne)
  | child hb hne => exact hr.parent b hb hne

/-- Executions can be numbered so that each leans only on ones with smaller numbers. -/
def Ranked (s : Sys) (n : Nat) : Prop :=
  ∃ rank : Str → Nat, (∀ id, s.exec id ≠ .null → rank id < n) ∧ ∀ a b, Leans (s.exec a) b → rank b < rank a

theorem null_not_leans {b : Str} : ¬ Leans .null b := by
  intro h
  cases h with
  | retry h => cases h
  | child h => cases h

/-- A new execution gets the next number. -/
theorem ranked_step (hs : Safe s) (hrefers : ∀ id, s.exec id ≠ .null → Refers s (s.exec id)) {n : Nat} (hr : Ranked s n)
    (h : Step E s l t) : Ranked t (n + 1) := by
  obtain ⟨rank, hbound, hless⟩ := hr
  refine ⟨fun id => if s.exec id = .null then n else rank id, fun id _ => ?_, fun a b hab => ?_⟩
  · dsimp only
    split
    · omega
    · rename_i hold
      have := hbound id hold
      omega
  · have hne : t.exec a ≠ .null := fun hnull => null_not_leans (hnull ▸ hab)
    dsimp only
    rcases hs.origin_step h hne with ⟨hold, hkept⟩ | ⟨hnull, g, _, _, _, hlooked, hnew⟩
    · have hab' : Leans (s.exec a) b := by
        rcases hkept with he | hset
        · rwa [he] at hab
        · exact hab.settled hset
      rw [if_neg hold, if_neg ((hrefers a hold).leans hab')]
      exact hless a b hab'
    · rw [hnew] at hab
      have hpresent := hlooked.refers.leans hab
      rw [if_pos hnull, if_neg hpresent]
      exact hbound b hpresent

theorem ranked_init : Ranked Sys.init 0 :=
  ⟨fun _ => 0, fun _ hne => absurd rfl hne, fun _ b hab => (null_not_leans (show Leans .null b from hab)).elim⟩

theorem ranked_run (h : Run (Step E) Sys.init tr s) : Ranked s tr.length :=
  h.invariant_of (I := fun tr s => Ranked s tr.length) ranked_init fun tr s l t hr hranked hstep => by
    rw [List.length_append]
    exact ranked_step (safe_run hr) (fun _ hne => refers_run hr hne) hranked hstep

theorem Ranked.acyclic {n : Nat} (h : Ranked s n) (a : Str) : ¬ Relation.TransGen (fun a b => Leans (s.exec a) b) a a := by
  obtain ⟨rank, -, hless⟩ := h
  intro hcycle
  have hdown : ∀ b, Relation.TransGen (fun a b => Leans (s.exec a) b) a b → rank b < rank a := by
    intro b hab
    induction hab with
    | single hab => exact hless _ _ hab
    | tail _ hbc ih => exact (hless _ _ hbc).trans ih
  exact lt_irrefl _ (hdown a hcycle)

/-- **References hold.** In every reachable state the session, the continuation, the retried execution and
the parent that an execution names are in the store, and the retried execution has failed; its session and
the failure it retries stay what they are for ever; and no execution leans on itself, by any chain of retries
and delegations. -/
theorem references_hold (E : Env) {before : List (Move Sys Label)} {s : Sys} (hs : Run (Step E) Sys.init before s) (id : Str) :
    (s.exec id ≠ .null → Refers s (s.exec id) ∧ ∀ after t, Run (Step E) s after t →
      (∀ i : Str, (s.exec id).get? "session_id" = some (.str i) → i ≠ [] → t.session i = s.session i) ∧
      ∀ r : Str, (s.exec id).get? "retry_of" = some (.str r) → r ≠ [] → t.exec r = s.exec r) ∧
      ¬ Relation.TransGen (fun a b => Leans (s.exec a) b) id id := by
  refine ⟨fun hne => ⟨refers_run hs hne, fun after t h => ⟨fun i hi hi' => ?_, fun r hr hr' => ?_⟩⟩, (ranked_run hs).acyclic id⟩
  · exact session_run ((refers_run hs hne).session i hi hi') h
  · have hfailed := (refers_run hs hne).retry r hr hr'
    exact (aged_run hs (J.ne_null_of_get? hfailed) h).frozen (not_dispatching_of_failed hfailed)

/-- The child of the sample run, whose parent is in the store. -/
theorem references_hold_child : sampleEnd.exec "p" ≠ .null ∧
    ¬ Relation.TransGen (fun a b => Leans (sampleEnd.exec a) b) "c" "c" := by
  obtain ⟨hrefers, hacyclic⟩ := references_hold sampleEnv sample_run "c"
  have hparent : (sampleEnd.exec "c").get? "parent_execution_id" = some (.str "p") := by decide +kernel
  exact ⟨(hrefers (J.ne_null_of_get? hparent)).1.parent "p" hparent (by decide), hacyclic⟩

end A2ad.Control
