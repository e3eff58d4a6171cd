/-
The life of an execution record: it is created in dispatch, settled at most once, by its outcome or
by a restart, and never touched again; what it was admitted with never changes, its result agrees
with its state, and no execution is left in dispatch by a restart.
-/
import A2ad.Control.Finish

namespace A2ad.Control

open Bytes Json

variable {E : Env} {s t : Sys} {l : Label} {tr : List (Move Sys Label)}

/-! ## Frozen records -/

def Dispatching (e : J) : Prop := e.get? "state" = some (.str "DISPATCHING")

/-- Only an execution in dispatch is settled, and settling keeps what it was admitted with. -/
theorem Safe.frozen_step (hs : Safe s) (h : Step E s l t) {id : Str} (hne : s.exec id ≠ .null) :
    t.exec id = s.exec id ∨ Dispatching (s.exec id) ∧ Settles (s.exec id) (t.exec id) := by
  cases hs.exec_step h id with
  | same he => exact .inl he
  | admitted _ _ hst ha hg =>
    have hfresh : s.exec id = .null := by rw [← hg]; exact (hst.exec ..).symm.trans ha.fresh
    exact absurd hfresh hne
  | finished _ hid hf _ hfin => exact .inr ⟨(hs.flight_exec hf hid).1, hfin.settles⟩
  | recovered _ he hid hstate hset =>
    subst he
    obtain rfl := hs.recovered_id hid
    exact .inr ⟨hstate, hset⟩

/-- What a whole run does to a record that exists at its start. -/
structure Aged (e e' : J) : Prop where
  present : e' ≠ .null
  kept : ∀ k : Str, k ∉ outcomeFields → e'.get? k = e.get? k
  frozen : ¬ Dispatching e → e' = e

theorem Aged.refl {e : J} (h : e ≠ .null) : Aged e e := ⟨h, fun _ _ => rfl, fun _ => rfl⟩

theorem Aged.step {e : J} {id : Str} (ha : Aged e (s.exec id)) (hs : Safe s) (h : Step E s l t) : Aged e (t.exec id) := by
  rcases hs.frozen_step h ha.present with he | ⟨hd, hset⟩
  · rw [he]
    exact ha
  · refine ⟨hset.ne_null, fun k hk => (hset.kept k hk).trans (ha.kept k hk), fun hnot => ?_⟩
    rw [ha.frozen hnot] at hd
    exact absurd hd hnot

theorem aged_run {before : List (Move Sys Label)} {r : Sys} (hr : Run (Step E) Sys.init before r) {id : Str}
    (hne : r.exec id ≠ .null) (h : Run (Step E) r tr s) : Aged (r.exec id) (s.exec id) :=
  h.invariant_of (I := fun _ s => Aged (r.exec id) (s.exec id)) (.refl hne) fun _ _ _ _ hrun ha hstep =>
    ha.step (safe_run (hr.append hrun)) hstep

/-! ## The result and the state -/

/-- A record in one of its four states: a result goes with a definite outcome, and is that outcome. -/
inductive Phase (e : J) : Prop
  | dispatching : e.get? "state" = some (.str "DISPATCHING") → e.get? "result" = none → Phase e
  | uncertain : e.get? "state" = some (.str "UNCERTAIN") → e.get? "result" = none → Phase e
  | delivered {r : J} : e.get? "state" = some (.str "DELIVERED") → e.get? "result" = some r → verdict r = .ok .succeeded → Phase e
  | failed {r : J} : e.get? "state" = some (.str "FAILED") → e.get? "result" = some r → verdict r = .ok .failed → Phase e

theorem Phase.no_result {e : J} (h : Phase e) (hd : Dispatching e) : e.get? "result" = none := by
  unfold Dispatching at hd
  cases h with
  | dispatching _ hr => exact hr
  | uncertain _ hr => exact hr
  | delivered hst => rw [hd] at hst; cases hst
  | failed hst => rw [hd] at hst; cases hst

/-- The verdict on an outcome decides the phase it leaves its execution in. -/
theorem phase_of_verdict {e e' reply : J} {v : Verdict} {error : Str} (hv : verdict reply = .ok v)
    (hstate : e'.get? "state" = some (.str v.state)) (herror : reply.valueStr "error_kind" "" = .ok error)
    (hresult : e'.get? "result" = if uncertain error then e.get? "result" else some reply) (hold : e.get? "result" = none) :
    Phase e' := by
  have hkind : v = .uncertain ↔ uncertain error = true := by
    unfold verdict at hv
    rw [herror] at hv
    simp only [bind, Except.bind] at hv
    split at hv
    · rename_i hu
      cases hv
      simp [hu]
    · rename_i hu
      rw [Bool.not_eq_true] at hu
      obtain ⟨ok, -, hv⟩ := Tx.except_bind_ok hv
      cases hv
      cases ok <;> simp [hu]
  cases v with
  | uncertain => exact .uncertain hstate (by rw [hresult, if_pos (hkind.1 rfl), hold])
  | succeeded =>
    have hu : ¬ uncertain error = true := fun hu => Verdict.noConfusion (hkind.2 hu)
    exact .delivered hstate (by rw [hresult, if_neg hu]) hv
  | failed =>
    have hu : ¬ uncertain error = true := fun hu => Verdict.noConfusion (hkind.2 hu)
    exact .failed hstate (by rw [hresult, if_neg hu]) hv

/-! ## Recovery -/

/-- A restart marks what it finds in dispatch as uncertain. -/
theorem recoverOne_uncertain {e : J} {u : Unit} {a b : St} {id : Str} (h : recoverOne E e a = .ok u b)
    (hid : e.get? "id" = some (.str id)) (hd : Dispatching e) :
    (b.db.get .execution id).get? "state" = some (.str "UNCERTAIN") := by
  unfold recoverOne at h
  have hobj : e.isObject = true := J.isObject_of_get? hd
  obtain ⟨st, _, hl, h⟩ := Tx.bind_ok.1 h
  obtain ⟨hst, rfl⟩ := Tx.lift_ok.1 hl
  obtain rfl : st = "DISPATCHING" := Except.ok.inj (hst.symm.trans (J.valueStr_ok.2 ⟨hobj, .inl hd⟩))
  rw [if_pos rfl] at h
  obtain ⟨e₁, _, hl, h⟩ := Tx.bind_ok.1 h
  obtain ⟨h₁, rfl⟩ := Tx.lift_ok.1 hl
  obtain ⟨e₂, _, hl, h⟩ := Tx.bind_ok.1 h
  obtain ⟨h₂, rfl⟩ := Tx.lift_ok.1 hl
  obtain ⟨v, _, hl, h⟩ := Tx.bind_ok.1 h
  obtain ⟨hv, rfl⟩ := Tx.lift_ok.1 hl
  obtain ⟨i, _, hl, h⟩ := Tx.bind_ok.1 h
  obtain ⟨hi, rfl⟩ := Tx.lift_ok.1 hl
  obtain ⟨_, _, hw, h⟩ := Tx.bind_ok.1 h
  obtain ⟨hget, -, -⟩ := write_append_ok hw h
  obtain rfl := J.asStr_ok.1 hi
  have hkey : e₂.get? "id" = e.get? "id" := by
    rw [(J.get?_assign h₂ _).2, if_neg (by simp), (J.get?_assign h₁ _).2, if_neg (by simp)]
  obtain rfl : i = id := by simpa using (J.field_ok.1 hv).symm.trans (hkey.trans hid)
  rw [hget, (J.get?_assign h₂ _).2, if_neg (by simp), (J.get?_assign h₁ _).2, if_pos rfl]

/-- Once uncertain, an execution is left alone by the rest of the pass. -/
theorem recover_uncertain {items : List J} {u : Unit} {a b : St} {id : Str} (h : recover E items a = .ok u b)
    (hu : (a.db.get .execution id).get? "state" = some (.str "UNCERTAIN") ∨
      ∃ e ∈ items, e.get? "id" = some (.str id) ∧ Dispatching e) :
    (b.db.get .execution id).get? "state" = some (.str "UNCERTAIN") := by
  induction items generalizing a with
  | nil =>
    obtain ⟨-, rfl⟩ := Tx.pure_ok.1 h
    rcases hu with hu | ⟨_, he, -⟩
    · exact hu
    · cases he
  | cons x rest ih =>
    unfold recover at h
    obtain ⟨_, c, hx, h⟩ := Tx.bind_ok.1 h
    refine ih h ?_
    rcases hu with hu | ⟨e, he, hid, hd⟩
    · rcases recoverOne_ok hx with hstill | ⟨i, hi, hd, -, -, hothers⟩
      · exact .inl (by rw [hstill.db]; exact hu)
      · by_cases hid : id = i
        · subst hid
          exact .inl (recoverOne_uncertain hx hi hd)
        · exact .inl (by rw [hothers _ _ (by simpa using hid)]; exact hu)
    · rcases List.mem_cons.1 he with rfl | he
      · exact .inl (recoverOne_uncertain hx hid hd)
      · exact .inr ⟨e, he, hid, hd⟩

theorem list_mem {kind : Kind} {items : List J} {a b : St} (h : list kind a = .ok items b) {id : Str}
    (hne : a.db.get kind id ≠ .null) : a.db.get kind id ∈ items := by
  simp only [list, EStateM.Result.ok.injEq] at h
  obtain ⟨rfl, -⟩ := h
  unfold Db.get at hne ⊢
  cases hlookup : a.db.records.lookup (kind, id) with
  | none =>
    rw [hlookup] at hne
    exact absurd rfl hne
  | some v => exact List.mem_map.2 ⟨(id, v), Db.mem_rows.2 hlookup, rfl⟩

/-- A restart leaves an execution as it was, or finds it in dispatch and leaves it uncertain. -/
theorem Safe.boot_exec (hs : Safe s) {enforce : Bool} (h : Step E s (.boot enforce) t) (id : Str) :
    ¬ Dispatching (s.exec id) ∧ t.exec id = s.exec id ∨
      Dispatching (s.exec id) ∧ (t.exec id).get? "state" = some (.str "UNCERTAIN") := by
  cases h with
  | boot hup h =>
    by_cases hd : Dispatching (s.exec id)
    · have hok := hs.execs id (J.ne_null_of_get? hd)
      unfold startup at h
      replace h := Tx.transaction_ok.1 h
      obtain ⟨items, u, hlist, h⟩ := Tx.bind_ok.1 h
      obtain ⟨rfl, -⟩ := list_ok hlist
      exact .inr ⟨hd, recover_uncertain h (.inr ⟨s.exec id, list_mem hlist (J.ne_null_of_get? hd), hok.id, hd⟩)⟩
    · refine .inl ⟨hd, ?_⟩
      cases hs.exec_step (@Step.boot _ _ enforce _ _ hup h) id with
      | same he => exact he
      | admitted hl => cases hl
      | finished hl => cases hl
      | recovered _ he hid hstate =>
        subst he
        obtain rfl := hs.recovered_id hid
        exact absurd hstate hd

/-! ## Phases of a run -/

theorem phase_step (hs : Safe s) (hc : FlightsCarried s) (hp : ∀ id, s.exec id ≠ .null → Phase (s.exec id)) (h : Step E s l t)
    {id : Str} (hne : t.exec id ≠ .null) : Phase (t.exec id) := by
  cases hs.exec_step h id with
  | same he =>
    rw [he] at hne ⊢
    exact hp id hne
  | admitted _ _ _ ha hg =>
    obtain ⟨_, _, _, hcreated⟩ := ha.created
    have he : t.exec id = _ := hg ▸ hcreated
    rw [he]
    exact .dispatching (by simp [Grant.execution]) (by simp [Grant.execution])
  | @finished request reply outcome hl hid hf _ hfin =>
    subst hl
    obtain ⟨id', _, _, v, hid', -, -, hw⟩ := h.wrote hc
    obtain rfl : id = id' := by simpa using hid.symm.trans hid'
    obtain ⟨error, herror, hresult⟩ := hfin.result
    have hd := (hs.flight_exec hf hid).1
    exact phase_of_verdict hw.verdict hw.state herror hresult ((hp id (J.ne_null_of_get? hd)).no_result hd)
  | @recovered _ id' enforce hl he hid hstate _ hres =>
    subst he hl
    obtain rfl := hs.recovered_id hid
    refine .uncertain ?_ (hres.trans ((hp _ (J.ne_null_of_get? hstate)).no_result hstate))
    rcases hs.boot_exec h id' with ⟨hnot, -⟩ | ⟨-, hu⟩
    · exact absurd hstate hnot
    · exact hu

theorem phase_run (h : Run (Step E) Sys.init tr s) {id : Str} (hne : s.exec id ≠ .null) : Phase (s.exec id) :=
  h.invariant_of (I := fun _ s => ∀ id, s.exec id ≠ .null → Phase (s.exec id)) (fun _ h => absurd rfl h)
    (fun _ _ _ _ hr hp hstep _ hne => phase_step (safe_run hr) (flightsCarried_run hr) hp hstep hne) id hne

/-- **An execution is settled once.** After any run, an execution is in dispatch or uncertain, without a
result, or it is delivered or failed, with a result that says so. Whatever happens after that, what it was
admitted with stays, and once it is out of dispatch the whole record stays. A restart takes every execution
in dispatch to uncertain and leaves the others alone. -/
theorem execution_lifecycle (E : Env) {before : List (Move Sys Label)} {s : Sys} (hs : Run (Step E) Sys.init before s)
    (id : Str) :
    (s.exec id ≠ .null → Phase (s.exec id) ∧ ∀ after t, Run (Step E) s after t → Aged (s.exec id) (t.exec id)) ∧
      ∀ enforce t, Step E s (.boot enforce) t → ¬ Dispatching (t.exec id) ∧
        (t.exec id = s.exec id ∨ Dispatching (s.exec id) ∧ (t.exec id).get? "state" = some (.str "UNCERTAIN")) := by
  refine ⟨fun hne => ⟨phase_run hs hne, fun after t h => aged_run hs hne h⟩, fun enforce t h => ?_⟩
  rcases (safe_run hs).boot_exec h id with ⟨hnot, he⟩ | ⟨hd, hu⟩
  · rw [he]
    exact ⟨hnot, .inl rfl⟩
  · refine ⟨fun hd' => ?_, .inr ⟨hd, hu⟩⟩
    unfold Dispatching at hd'
    rw [hu] at hd'
    cases hd'

/-! ## A restart with two calls in flight -/

def haltedSys : Sys := { sampleEnd with up := false, flights := [] }

def restartedSys : Sys := ⟨Tx.endState (startup sampleEnv haltedSys.st), true, true, []⟩

theorem halted_run : Run (Step sampleEnv) Sys.init (sampleMoves ++ [⟨sampleEnd, .crash, haltedSys⟩]) haltedSys :=
  sample_run.snoc .crash

theorem restarts : (Tx.result? (startup sampleEnv haltedSys.st)).isSome = true := by decide +kernel

set_option maxRecDepth 10000 in
theorem execution_lifecycle_restarted : Phase (haltedSys.exec "p") ∧ ¬ Dispatching (restartedSys.exec "p") := by
  obtain ⟨hphase, hboot⟩ := execution_lifecycle sampleEnv halted_run "p"
  obtain ⟨u, hu⟩ := Option.isSome_iff_exists.1 restarts
  have hstep : Step sampleEnv haltedSys (.boot true) restartedSys := .boot rfl (Tx.ok_of_result hu)
  have hne : haltedSys.exec "p" ≠ .null := J.ne_null_of_get? (k := "id") (v := .str "p") (by decide +kernel)
  exact ⟨(hphase hne).1, (hboot true restartedSys hstep).1⟩

end A2ad.Control
