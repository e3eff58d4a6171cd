/-
The quarantine of agents: the failure count and the flag of an agent against the history of its
dispatches. Three uncertain outcomes in a row raise the flag, and only its release clears it.
-/
import A2ad.Control.Finish

namespace A2ad.Control

open Bytes Json

variable {E : Env} {enforce : Bool} {req : J}

/-! ## The operations on health records -/

/-- The operations on the health of an agent. -/
def isAgent (op : Str) : Bool := op = "agent.health" || op = "agent.quarantine" || op = "agent.release"

theorem control_agent {op : Str} (hop : isAgent op = true) (hget : req.get? "op" = some (.str op)) (s : St) :
    control E enforce req s = agentOp E op req s := by
  have hvalue : req.valueStr "op" "" = .ok op := J.valueStr_ok.2 ⟨J.isObject_of_get? hget, .inl hget⟩
  unfold control
  rw [Tx.bind_of_ok (Tx.lift_of_ok hvalue)]
  simp only [isAgent, Bool.or_eq_true, decide_eq_true_eq, or_assoc] at hop
  have hk : listKind op = none := by
    rcases hop with rfl | rfl | rfl <;> decide
  rw [hk]
  rcases hop with rfl | rfl | rfl <;>
    simp only [lit_inj, String.reduceEq, if_false, if_true, decide_false, decide_true, Bool.or_false, Bool.or_true,
      Bool.false_eq_true]

/-- What an operation on the agent `a` does to its health record. -/
structure Tended (op a : Str) (s s' : St) : Prop where
  health : ∀ n b, Health (healthAt s.db a) n b → Health (healthAt s'.db a) (if op = "agent.release" then 0 else n)
    (if op = "agent.health" then b else decide (op = "agent.quarantine"))
  others : ∀ a', a' ≠ a → healthAt s'.db a' = healthAt s.db a'

theorem agentOp_cases {op : Str} {r : J} {s s' : St} (hop : isAgent op = true) (h : agentOp E op req s = .ok r s') :
    ∃ a, required req "agent" = .ok a ∧ r.get? "ok" = some (.bool true) ∧ Tended op a s s' := by
  unfold agentOp at h
  obtain ⟨a, _, hl, h⟩ := Tx.bind_ok.1 h
  obtain ⟨ha, rfl⟩ := Tx.lift_ok.1 hl
  obtain ⟨_, _, hl, h⟩ := Tx.bind_ok.1 h
  obtain ⟨rfl, rfl⟩ := health_ok hl
  -- the record is written together with its event
  have hwrite : ∀ {h₁ : J} {reason : Str}, (do
      write .health a h₁
      append E (.object [("type", .str op), ("agent", .str a), ("reason", .str reason)])
      return .object [("ok", .bool true), ("health", h₁)] : M J) s = .ok r s' →
      r.get? "ok" = some (.bool true) ∧ s'.db.get .health a = h₁ ∧ ∀ a', a' ≠ a → healthAt s'.db a' = healthAt s.db a' := by
    intro h₁ reason h
    obtain ⟨_, _, hw, h⟩ := Tx.bind_ok.1 h
    obtain ⟨_, _, hap, h⟩ := Tx.bind_ok.1 h
    obtain ⟨hget, hothers, -⟩ := write_append_ok hw hap
    obtain ⟨rfl, rfl⟩ := Tx.pure_ok.1 h
    exact ⟨by simp, hget, fun a' hne => healthAt_congr (hothers _ _ (by simpa using hne))⟩
  rcases Tx.ite_ok h with ⟨hne, h⟩ | ⟨heq, h⟩
  swap
  · rw [not_not] at heq
    subst heq
    obtain ⟨rfl, rfl⟩ := Tx.pure_ok.1 h
    refine ⟨a, ha, by simp, fun n b hh => ?_, fun _ _ => rfl⟩
    rw [if_neg (by simp), if_pos rfl]
    exact hh
  obtain ⟨h₁, _, hl, h⟩ := Tx.bind_ok.1 h
  obtain ⟨hflag, rfl⟩ := Tx.lift_ok.1 hl
  obtain ⟨reason, _, hl, h⟩ := Tx.bind_ok.1 h
  obtain ⟨-, rfl⟩ := Tx.lift_ok.1 hl
  obtain ⟨h₂, _, hl, h⟩ := Tx.bind_ok.1 h
  obtain ⟨hreason, rfl⟩ := Tx.lift_ok.1 hl
  rcases Tx.ite_ok h with ⟨hrelease, h⟩ | ⟨hkeep, h⟩
  · obtain ⟨h₃, _, hl, h⟩ := Tx.bind_ok.1 h
    obtain ⟨hcount, rfl⟩ := Tx.lift_ok.1 hl
    obtain ⟨hok, hget, hothers⟩ := hwrite h
    refine ⟨a, ha, hok, fun n b hh => ?_, hothers⟩
    have hh₃ := ((hh.setFlag hflag).setReason hreason).setFailures hcount
    rw [if_pos hrelease, if_neg hne, healthAt_of_get hget hh₃.object]
    exact hh₃
  · obtain ⟨hok, hget, hothers⟩ := hwrite h
    refine ⟨a, ha, hok, fun n b hh => ?_, hothers⟩
    have hh₂ := (hh.setFlag hflag).setReason hreason
    rw [if_neg hkeep, if_neg hne, healthAt_of_get hget hh₂.object]
    exact hh₂

/-! ## Steps -/

namespace Label

/-- The verdict of a dispatch to the agent that the step records. -/
def verdictFor (a : Str) : Label → Option Verdict
  | .leave request _ reply => if request.get? "agent" = some (.str a) then (verdict reply).toOption else none
  | _ => none

/-- The step is an `agent.release` of the agent that succeeds. -/
def releases (a : Str) : Label → Bool
  | .enter req (.reply r) => req.get? "op" = some (.str "agent.release") && req.get? "agent" = some (.str a) &&
    r.get? "ok" = some (.bool true)
  | _ => false

end Label

def Sys.health (s : Sys) (a : Str) : J := healthAt s.st.db a

/-- The ways a step can treat the health record of the agent `a`. -/
inductive HealthStep (s : Sys) (l : Label) (t : Sys) (a : Str) : Prop
  | same : t.health a = s.health a → l.verdictFor a = none → l.releases a = false → HealthStep s l t a
  | counted {v : Verdict} : l.verdictFor a = some v → l.releases a = false →
    (∀ n b, Health (s.health a) n b → Health (t.health a) (v.count n) (flagAfter (v.count n) b)) → HealthStep s l t a
  | kept : l.verdictFor a = none → l.releases a = false →
    (∀ n b, Health (s.health a) n b → ∃ b', (b = true → b' = true) ∧ Health (t.health a) n b') → HealthStep s l t a
  | released : l.verdictFor a = none → l.releases a = true →
    (∀ n b, Health (s.health a) n b → Health (t.health a) 0 false) → HealthStep s l t a

section Step

variable {s t : Sys} {l : Label} {tr : List (Move Sys Label)} {a : Str}

theorem Step.agentOp {op : Str} {req r : J} (h : Step E s (.enter req (.reply r)) t) (hop : isAgent op = true)
    (hget : req.get? "op" = some (.str op)) : ∃ u, Still s.st u ∧ agentOp E op req u = .ok r t.st := by
  have hnot : isQuery op = false ∧ mutation op = false := by
    simp only [isAgent, Bool.or_eq_true, decide_eq_true_eq, or_assoc] at hop
    rcases hop with rfl | rfl | rfl <;> decide
  obtain ⟨u, hu, hc⟩ := h.own_op hget hnot.1 hnot.2
  rw [control_agent hop hget] at hc
  exact ⟨u, hu, hc⟩

/-- A release that is answered has run, on the agent it names. -/
theorem Step.release (h : Step E s l t) (hl : l.releases a = true) :
    ∀ n b, Health (s.health a) n b → Health (t.health a) 0 false := by
  unfold Label.releases at hl
  split at hl
  · rename_i req r
    simp only [Bool.and_eq_true, decide_eq_true_eq] at hl
    obtain ⟨⟨hop, hagent⟩, -⟩ := hl
    obtain ⟨u, hu, hrun⟩ := h.agentOp (by decide) hop
    obtain ⟨a', ha', -, htended⟩ := agentOp_cases (by decide) hrun
    obtain rfl : a' = a := by simpa using (required_ok ha').1.symm.trans hagent
    intro n b hh
    have := htended.health n b (by rw [hu.db]; exact hh)
    rwa [if_pos rfl, if_neg (by decide)] at this
  · cases hl

theorem Step.health (hc : FlightsCarried s) (ha : a ≠ []) (h : Step E s l t) : HealthStep s l t a := by
  -- the outcome of a dispatch
  have hleave : ∀ {request reply : J} {outcome : Except Exception J}, Step E s (.leave request outcome reply) t →
      HealthStep s (.leave request outcome reply) t a := by
    intro request reply outcome h
    obtain ⟨id, a', c, v, -, ha', -, hw⟩ := h.wrote hc
    by_cases hreq : request.get? "agent" = some (.str a)
    · obtain rfl : a' = a := by
        rcases (J.valueStr_ok.1 ha').2 with hg | ⟨hg, -⟩
        · simpa using hg.symm.trans hreq
        · cases hg.symm.trans hreq
      refine .counted (v := v) ?_ rfl (hw.counted ha)
      rw [Label.verdictFor, if_pos hreq, hw.verdict]
      rfl
    · refine .same (hw.healths a ?_) (if_neg hreq) rfl
      by_cases hempty : a' = []
      · exact .inr hempty
      · refine .inl ?_
        rintro rfl
        exact hreq (get?_of_valueStr ha' hempty)
  -- otherwise it is a release, another operation on an agent, or none
  by_cases hl : ∃ request outcome reply, l = .leave request outcome reply
  · obtain ⟨request, outcome, reply, rfl⟩ := hl
    exact hleave h
  have hnone : l.verdictFor a = none := by
    cases l with
    | leave request outcome reply => exact absurd ⟨request, outcome, reply, rfl⟩ hl
    | _ => rfl
  by_cases hrel : l.releases a = true
  · exact .released hnone hrel (h.release hrel)
  rw [Bool.not_eq_true] at hrel
  rcases h.effects with ⟨req, r, u, K, hreply, hu, hcontrol⟩ | hframe
  · have hframe := hcontrol.frame
    have hpre : healthAt u.db a = s.health a := by rw [hu.db]; rfl
    cases hcontrol with
    | @agent op _ _ hop hget hrun =>
      have hop : isAgent op = true := by simpa only [isAgent, Bool.or_eq_true, decide_eq_true_eq, or_assoc] using hop
      obtain ⟨a', ha', hok, htended⟩ := agentOp_cases hop hrun
      by_cases haa : a = a'
      · subst haa
        have hnot : op ≠ "agent.release" := by
          rintro rfl
          have hreply' : l = .enter req (.reply r) := by
            refine hreply.resolve_right ?_
            rintro ⟨-, rfl⟩
            cases hok
          subst hreply'
          simp [Label.releases, hget, (required_ok ha').1, hok] at hrel
        refine .kept hnone hrel fun n b hh => ?_
        have hpost := htended.health n b (hpre.symm ▸ hh)
        rw [if_neg hnot] at hpost
        refine ⟨_, ?_, hpost⟩
        rintro rfl
        simp only [isAgent, Bool.or_eq_true, decide_eq_true_eq, or_assoc] at hop
        rcases hop with rfl | rfl | rfl
        · rfl
        · rfl
        · exact absurd rfl hnot
      · exact .same ((htended.others a haa).trans hpre) hnone hrel
    | _ => exact .same ((healthAt_congr (hframe.get _ _ (by decide))).trans hpre) hnone hrel
  · refine .same (healthAt_congr (hframe.get _ _ ?_)) hnone hrel
    cases l with
    | leave request outcome reply => exact absurd ⟨request, outcome, reply, rfl⟩ hl
    | _ => simp [Label.kinds]

/-- No record is kept of an agent without a name. -/
theorem Step.health_unnamed (hc : FlightsCarried s) (h : Step E s l t) : t.health [] = s.health [] := by
  rcases h.effects with ⟨req, r, u, K, -, hu, hcontrol⟩ | hframe
  · have hframe := hcontrol.frame
    have hpre : healthAt u.db [] = s.health [] := by rw [hu.db]; rfl
    cases hcontrol with
    | @agent op _ _ hop _ hrun =>
      have hop : isAgent op = true := by simpa only [isAgent, Bool.or_eq_true, decide_eq_true_eq, or_assoc] using hop
      obtain ⟨a, ha, -, htended⟩ := agentOp_cases hop hrun
      exact (htended.others [] (Ne.symm (required_ok ha).2)).trans hpre
    | _ => exact (healthAt_congr (hframe.get _ _ (by decide))).trans hpre
  · cases l with
    | leave request outcome reply =>
      obtain ⟨id, a, c, v, -, -, -, hw⟩ := h.wrote hc
      refine hw.healths [] ?_
      by_cases ha : a = []
      · exact .inr ha
      · exact .inl (Ne.symm ha)
    | _ => exact healthAt_congr (hframe.get _ _ (by simp [Label.kinds]))

/-! ## The count against the history -/

/-- The uncertain outcomes for the agent since the last success or release. -/
def streak (a : Str) (tr : List (Move Sys Label)) : Nat :=
  tr.foldl (fun n m => if m.label.releases a then 0 else match m.label.verdictFor a with
    | some .uncertain => n + 1
    | some .succeeded => 0
    | _ => n) 0

/-- The health record keeps the count of the history until the flag is up. -/
def Tallied (a : Str) (tr : List (Move Sys Label)) (s : Sys) : Prop :=
  ∃ n b, Health (s.health a) n b ∧ (b = true ∨ n = streak a tr ∧ n < 3)

theorem streak_snoc (m : Move Sys Label) : streak a (tr ++ [m]) = if m.label.releases a then 0 else
    match m.label.verdictFor a with
    | some .uncertain => streak a tr + 1
    | some .succeeded => 0
    | _ => streak a tr := by
  rw [streak, List.foldl_append]
  rfl

theorem Tallied.step (hs : Tallied a tr s) (h : HealthStep s l t a) : Tallied a (tr ++ [⟨s, l, t⟩]) t := by
  obtain ⟨n, b, hh, hcase⟩ := hs
  have hsnoc : streak a (tr ++ [(⟨s, l, t⟩ : Move Sys Label)]) = _ := streak_snoc ⟨s, l, t⟩
  dsimp only at hsnoc
  cases h with
  | same heq hv hr =>
    rw [hr, hv] at hsnoc
    exact ⟨n, b, heq.symm ▸ hh, by rw [hsnoc]; exact hcase⟩
  | released hv hr hpost => 
    rw [hr] at hsnoc
    exact ⟨0, false, hpost n b hh, .inr ⟨by rw [hsnoc]; rfl, by omega⟩⟩
  | kept hv hr hpost =>
    obtain ⟨b', hb', hh'⟩ := hpost n b hh
    rw [hr, hv] at hsnoc
    refine ⟨n, b', hh', ?_⟩
    rcases hcase with hb | ⟨hn, hlt⟩
    · exact .inl (hb' hb)
    · exact .inr ⟨by rw [hsnoc]; exact hn, hlt⟩
  | @counted v hv hr hpost =>
    rw [hr, hv] at hsnoc
    refine ⟨_, _, hpost n b hh, ?_⟩
    rcases hcase with rfl | ⟨hn, hlt⟩
    · exact .inl rfl
    have hmod : ∀ {m : Int}, 0 ≤ m → m ≤ 3 → m.bmod (2 ^ 32) = m :=
      fun hm hm' => Int.bmod_eq_of_le_mul_two (by omega) (by omega)
    have hn₀ : 0 ≤ n := by omega
    cases v with
    | uncertain =>
      have hcount : Verdict.count .uncertain n = n + 1 := by rw [Verdict.count, hmod hn₀ (by omega)]
      rw [hcount, flagAfter, hmod (by omega) (by omega), hsnoc]
      by_cases hge : 3 ≤ n + 1
      · exact .inl (by rw [decide_eq_true hge, Bool.or_true])
      · refine .inr ⟨?_, by omega⟩
        simp only [if_false, Bool.false_eq_true]
        omega
    | succeeded => exact .inr ⟨by rw [hsnoc]; rfl, by rw [Verdict.count]; omega⟩
    | failed => exact .inr ⟨by rw [hsnoc]; exact hn, hlt⟩

/-- The record of every agent keeps the count of the history. -/
theorem tallied_run (ha : a ≠ []) (h : Run (Step E) Sys.init tr s) : Tallied a tr s := by
  refine h.invariant_of (I := fun tr s => Tallied a tr s) ?_ fun tr s l t hr hs hstep =>
    hs.step (hstep.health (flightsCarried_run hr) ha)
  exact ⟨0, false, ⟨rfl, rfl, rfl⟩, .inr ⟨rfl, by omega⟩⟩

/-! ## The law -/

/-- The agent is quarantined, as `begin` reads its record. -/
def Quarantined (s : Sys) (a : Str) : Prop := (s.health a).valueBool "quarantined" false = .ok true

theorem Health.quarantined_iff {n : Int} {b : Bool} (h : Health (s.health a) n b) : Quarantined s a ↔ b = true := by
  have hvalue : (s.health a).valueBool "quarantined" false = .ok b := J.value_ok.2 ⟨h.object, .inl ⟨_, h.quarantined, rfl⟩⟩
  rw [Quarantined, hvalue]
  simp

/-- No request that names a quarantined agent is admitted. -/
theorem admitted_not_quarantined (hsafe : Safe s) (ha : a ≠ []) {req request : J} (h : Step E s (.enter req (.admitted request)) t)
    (hreq : request.get? "agent" = some (.str a)) : ¬ Quarantined s a := by
  obtain ⟨g, u, v, w, -, hu, hadm⟩ := hsafe.admission h
  have hagent : g.agent = a := by
    rcases (J.valueStr_ok.1 hadm.reviewed.agent).2 with hg | ⟨hg, -⟩
    · simpa using hg.symm.trans hreq
    · cases hg.symm.trans hreq
  obtain ⟨t₁, t₂, h₁, hcheck, -⟩ := hadm.reviewed.trusted
  rw [hagent] at hcheck
  unfold quarantineCheck at hcheck
  rcases Tx.ite_ok hcheck with ⟨hempty, -⟩ | ⟨-, hcheck⟩
  · exact absurd (by simpa using hempty) ha
  obtain ⟨_, _, hl, hcheck⟩ := Tx.bind_ok.1 hcheck
  obtain ⟨rfl, rfl⟩ := health_ok hl
  obtain ⟨b, _, hl, hcheck⟩ := Tx.bind_ok.1 hcheck
  obtain ⟨hb, rfl⟩ := Tx.lift_ok.1 hl
  rcases Tx.ite_ok hcheck with ⟨-, hcheck⟩ | ⟨hclear, -⟩
  · cases (Tx.pure_ok.1 hcheck).1
  rw [(hu.trans h₁).db] at hb
  intro hq
  exact hclear (Except.ok.inj (hb.symm.trans hq))

/-- Neither is it ever in quarantine. -/
theorem unnamed_not_quarantined (h : Run (Step E) Sys.init tr s) : ¬ Quarantined s [] := by
  have hsame : s.health [] = Sys.init.health [] :=
    h.invariant_of (I := fun _ s => s.health [] = Sys.init.health []) rfl
      fun _ _ _ _ hr hs hstep => (hstep.health_unnamed (flightsCarried_run hr)).trans hs
  rw [Quarantined, hsame]
  decide +kernel

/-- Only a release lowers the flag. -/
theorem HealthStep.flag {n : Int} {b : Bool} (hh : Health (s.health a) n b) (h : HealthStep s l t a)
    (hrel : l.releases a = false) (hq : Quarantined s a) : Quarantined t a := by
  obtain rfl := hh.quarantined_iff.1 hq
  cases h with
  | same heq => rwa [Quarantined, heq]
  | counted _ _ hpost => exact (hpost n true hh).quarantined_iff.2 rfl
  | kept _ _ hpost =>
    obtain ⟨b', hb', hh'⟩ := hpost n true hh
    exact hh'.quarantined_iff.2 (hb' rfl)
  | released _ hr => cases hr.symm.trans hrel

/-- With no success and no release in between, the streak counts every uncertain outcome. -/
theorem le_streak {p q : List (Move Sys Label)}
    (hq : ∀ m ∈ q, m.label.releases a = false ∧ m.label.verdictFor a ≠ some .succeeded) :
    q.countP (fun m => m.label.verdictFor a = some .uncertain) ≤ streak a (p ++ q) := by
  induction q using List.reverseRecOn with
  | nil => exact Nat.zero_le _
  | append_singleton q m ih =>
    obtain ⟨hr, hv⟩ := hq m (by simp)
    have ih := ih fun m' hm' => hq m' (List.mem_append_left _ hm')
    rw [← List.append_assoc, streak_snoc, hr, if_neg Bool.false_ne_true, List.countP_append, List.countP_singleton]
    cases hm : m.label.verdictFor a with
    | none => simpa using ih
    | some v =>
      cases v with
      | uncertain => simpa using ih
      | succeeded => exact absurd hm hv
      | failed => simpa using ih

/-- **The quarantine law.** In every run, over every interleaving and restart: no request that names
a quarantined agent is admitted; only a release of the agent clears the flag; a success resets the
count and leaves the flag as it is; and after three uncertain outcomes with no success and no release
among or after them, the agent is quarantined. -/
theorem quarantine_law (E : Env) {tr : List (Move Sys Label)} {s : Sys} (h : Run (Step E) Sys.init tr s) {a : Str}
    (ha : a ≠ []) :
    (∀ l t, Step E s l t →
      (∀ req request, l = .enter req (.admitted request) → request.get? "agent" = some (.str a) → ¬ Quarantined s a) ∧
      (Quarantined s a → ¬ Quarantined t a → l.releases a = true) ∧
      (l.verdictFor a = some .succeeded → (t.health a).get? "failures" = some (.int 0) ∧
        (Quarantined s a → Quarantined t a))) ∧
    ∀ p q m₁ m₂ m₃, tr = p ++ q → [m₁, m₂, m₃].Sublist q →
      (∀ m ∈ [m₁, m₂, m₃], m.label.verdictFor a = some .uncertain) →
      (∀ m ∈ q, m.label.releases a = false ∧ m.label.verdictFor a ≠ some .succeeded) → Quarantined s a := by
  obtain ⟨n, b, hh, hcase⟩ := tallied_run ha h
  refine ⟨?_, ?_⟩
  · intro l t hstep
    have hhealth := hstep.health (flightsCarried_run h) ha
    refine ⟨?_, ?_, ?_⟩
    · rintro req request rfl hreq
      exact admitted_not_quarantined (safe_run h) ha hstep hreq
    · intro hq hnot
      by_contra hrel
      exact hnot (hhealth.flag hh (Bool.not_eq_true _ ▸ hrel) hq)
    · intro hv
      cases hhealth with
      | same _ hv' => cases hv'.symm.trans hv
      | kept hv' => cases hv'.symm.trans hv
      | released hv' => cases hv'.symm.trans hv
      | counted hv' hrel hpost =>
        cases hv'.symm.trans hv
        exact ⟨(hpost n b hh).failures, HealthStep.flag hh (.counted hv' hrel hpost) hrel⟩
  · rintro p q m₁ m₂ m₃ rfl hsub hv hq
    have hcount : 3 ≤ q.countP (fun m => m.label.verdictFor a = some .uncertain) := by
      refine le_trans ?_ (hsub.countP_le (p := fun m => m.label.verdictFor a = some .uncertain))
      rw [List.countP_eq_length.2 (by simpa using hv)]
      rfl
    have hstreak := le_streak (p := p) hq
    refine hh.quarantined_iff.2 ?_
    rcases hcase with hb | ⟨hn, hlt⟩
    · exact hb
    · omega

/-- Three requests to one agent, none of which reaches it. -/
def lostMoves : List (Move Sys Label) :=
  let lost : Except Exception J := .ok (failure "local_network" "connection refused")
  let m₀ : Move Sys Label := ⟨Sys.init, .boot false, { Sys.init with up := true }⟩
  let b := callMoves sampleEnv (sampleSubmit "r1" [("agent", .str "bob")]) lost m₀.post
  let c := callMoves sampleEnv (sampleSubmit "r2" [("agent", .str "bob")]) lost (lastState b)
  let d := callMoves sampleEnv (sampleSubmit "r3" [("agent", .str "bob")]) lost (lastState c)
  m₀ :: (b ++ c ++ d)

/-- One of the requests. -/
def lostRequest (id : Str) : J := sampleSubmit id [("agent", .str "bob")]

/-- What comes of the request when it is made in the state `s`. -/
def lostCall (id : Str) (s : Sys) : List (Move Sys Label) :=
  callMoves sampleEnv (lostRequest id) (.ok (failure "local_network" "connection refused")) s

/-- The state before the requests. -/
def lostStart : Sys := { Sys.init with up := true }

def AdmittedAlone (id : Str) (s : Sys) : Prop :=
  (enterMove sampleEnv (lostRequest id) s).post.flights = [⟨lostRequest id, false⟩]

theorem lostCall_run {id : Str} {s : Sys} (hup : s.up = true) (h : AdmittedAlone id s) :
    Run (Step sampleEnv) s (lostCall id s) (lastState (lostCall id s)) ∧ (lastState (lostCall id s)).up = true :=
  ⟨callMoves_run hup h, (callMoves_up (s := s)).trans hup⟩

theorem lost_admitted : AdmittedAlone "r1" lostStart ∧ AdmittedAlone "r2" (lastState (lostCall "r1" lostStart)) ∧
    AdmittedAlone "r3" (lastState (lostCall "r2" (lastState (lostCall "r1" lostStart)))) := by
  unfold AdmittedAlone
  decide +kernel

theorem lost_run : Run (Step sampleEnv) Sys.init lostMoves (lastState lostMoves) := by
  let b := lostCall "r1" lostStart
  let c := lostCall "r2" (lastState b)
  let d := lostCall "r3" (lastState c)
  have hmoves : lostMoves = ⟨Sys.init, .boot false, lostStart⟩ :: (b ++ c ++ d) := rfl
  have hlast : lastState (⟨Sys.init, .boot false, lostStart⟩ :: (b ++ c ++ d)) = lastState d :=
    lastState_callMoves (⟨Sys.init, .boot false, lostStart⟩ :: (b ++ c))
  rw [hmoves, hlast]
  obtain ⟨hadmittedB, hadmittedC, hadmittedD⟩ := lost_admitted
  obtain ⟨hb, hupB⟩ := lostCall_run (s := lostStart) rfl hadmittedB
  obtain ⟨hc, hupC⟩ := lostCall_run hupB hadmittedC
  obtain ⟨hd, -⟩ := lostCall_run hupC hadmittedD
  exact .cons rfl (.boot rfl rfl) ((hb.append hc).append hd)

set_option maxRecDepth 20000 in
theorem quarantine_law_lost : Quarantined (lastState lostMoves) "bob" := by
  obtain ⟨-, hthree⟩ := quarantine_law sampleEnv lost_run (show lit "bob" ≠ [] by decide)
  refine hthree [] lostMoves lostMoves[3] lostMoves[6] lostMoves[9] rfl ?_ ?_ ?_
  · exact .cons _ (.cons _ (.cons _ (.cons_cons _ (.cons _ (.cons _ (.cons_cons _ (.cons _ (.cons _ (.cons_cons _ .slnil)))))))))
  · decide
  · decide

end Step

end A2ad.Control
