/-
What a successful run of `begin`, `finish`, the recovery pass and `handle` has done: the ways an
admission can end, what it has checked when it grants, which records each transaction touches and
which fields of them it changes.
-/
import A2ad.Control.Handle

namespace A2ad.Control

open Bytes Json

variable {E : Env} {enforce : Bool} {op : Str} {req : J} {K : List Kind}

/-! ## Frames -/

section Frames

set_option synthInstance.maxSize 2000

instance {supplied lease : J} : Quiet (leaseMatches E supplied lease) := by
  unfold leaseMatches
  infer_instance

instance : Quiet (leaseCheck E req) := by
  unfold leaseCheck
  infer_instance

instance {id : Str} : Quiet (continuationCheck req id) := by
  unfold continuationCheck
  infer_instance

instance {id : Str} : Quiet (retryCheck id) := by
  unfold retryCheck
  infer_instance

instance {agent : Str} : Quiet (quarantineCheck agent) := by
  unfold quarantineCheck
  infer_instance

instance {id : Str} : Quiet (sessionCheck id) := by
  unfold sessionCheck
  infer_instance

instance {grant : J} : Quiet (grantLive E grant) := by
  unfold grantLive
  infer_instance

instance {chain : List J} : Quiet (grantsLive E chain) := by
  induction chain with
  | nil => exact Tx.keeps_pure _
  | cons _ _ ih =>
    unfold grantsLive
    infer_instance

instance {parentId : Str} {requested : List Str} : Quiet (delegate E parentId requested) := by
  unfold delegate
  infer_instance

instance {id hash : Str} : Quiet (review E req id hash) := by
  unfold review
  repeat' first | infer_instance | refine Tx.keeps_bind (k := fun _ => ?_) | split

instance {id hash : Str} : Touches K (review E req id hash) := Quiet.touches inferInstance

instance {g : Grant} [Allows K .approval] : Touches K (requestApproval E g req) := by
  unfold requestApproval
  infer_instance

instance {g : Grant} [Allows K .approval] : Touches K (approvalGate E g req) := by
  unfold approvalGate
  infer_instance

instance {g : Grant} [Allows K .execution] : Touches K (recordExecution E g req) := by
  unfold recordExecution
  infer_instance

instance [Allows K .execution] [Allows K .approval] : Touches K (begin E enforce req) := by
  unfold begin
  repeat' first | infer_instance | refine Tx.keeps_bind (k := fun _ => ?_) | split

instance {continuationId id : Str} [Allows K .continuation] : Touches K (deliverContinuation E continuationId id) := by
  unfold deliverContinuation
  infer_instance

instance {agent error : Str} {result : J} [Allows K .health] : Touches K (recordHealth agent error result) := by
  unfold recordHealth
  infer_instance

instance {id : Str} {result : J} [Allows K .execution] [Allows K .continuation] [Allows K .health] :
    Touches K (finish E id result) := by
  unfold finish
  infer_instance

instance {execution : J} [Allows K .execution] : Touches K (recoverOne E execution) := by
  unfold recoverOne
  infer_instance

instance {items : List J} [Allows K .execution] : Touches K (recover E items) := by
  induction items with
  | nil => exact Tx.keeps_pure _
  | cons _ _ ih =>
    unfold recover
    infer_instance

instance [Allows K .execution] : Touches K (startup E) := by
  unfold startup
  infer_instance

end Frames

/-! ## The approval gate -/

theorem get?_of_valueStr {j : J} {k s : Str} (h : j.valueStr k "" = .ok s) (hs : s ≠ []) : j.get? k = some (.str s) := by
  rcases (J.valueStr_ok.1 h).2 with hg | ⟨-, e⟩
  · exact hg
  · exact absurd e.symm hs

theorem required_ok {j : J} {key s : Str} (h : required j key = .ok s) : j.get? key = some (.str s) ∧ s ≠ [] := by
  unfold required at h
  obtain ⟨v, hv, h⟩ := Tx.except_bind_ok h
  split at h
  · cases h
  · rename_i hs
    cases h
    simp only [Bool.or_eq_true, List.isEmpty_iff, not_or] at hs
    exact ⟨get?_of_valueStr hv hs.1, hs.1⟩

theorem hasState_ok {state : Str} {record : J} (h : hasState state record = .ok true) (hs : state ≠ []) :
    record.get? "state" = some (.str state) := by
  unfold hasState at h
  split at h
  · cases h
  · obtain ⟨v, hv, h⟩ := Tx.except_bind_ok h
    have he : v = state := of_decide_eq_true (Except.ok.inj h)
    subst he
    exact get?_of_valueStr hv hs

/-- A grant found live: approved, and its expiry above the reading of the clock just taken. -/
structure Live (E : Env) (grant : J) (n : Nat) : Prop where
  state : grant.get? "state" = some (.str "APPROVED")
  expires : ∃ x, grant.valueInt64 "expires_at" 0 = .ok x ∧ E.clock n < x

theorem Live.above {grant : J} {n : Nat} (h : Live E grant n) {x : Int} (hx : grant.get? "expires_at" = some (.int x))
    (hrange : -2 ^ 35 < x ∧ x < 2 ^ 35) : E.clock n < x := by
  obtain ⟨y, hy, hlt⟩ := h.expires
  rcases (J.value_ok.1 hy).2 with ⟨v, hv, hy⟩ | ⟨hv, -⟩
  · rw [hx] at hv
    cases hv
    have hbmod : x.bmod (2 ^ 64) = x := Int.bmod_eq_of_le_mul_two (by omega) (by omega)
    rw [J.asInt64, hbmod] at hy
    cases hy
    exact hlt
  · rw [hx] at hv
    cases hv

theorem lapsed_ok {grant : J} {b : Bool} {s s' : St} (h : lapsed E grant s = .ok b s') :
    ∃ x, grant.valueInt64 "expires_at" 0 = .ok x ∧ b = decide (x ≤ E.clock s.tick) ∧ s' = { s with tick := s.tick + 1 } := by
  unfold lapsed at h
  obtain ⟨x, _, hl, h⟩ := Tx.bind_ok.1 h
  obtain ⟨hx, rfl⟩ := Tx.lift_ok.1 hl
  obtain ⟨_, _, hn, h⟩ := Tx.bind_ok.1 h
  obtain ⟨rfl, rfl⟩ := now_ok.1 hn
  obtain ⟨rfl, rfl⟩ := Tx.pure_ok.1 h
  exact ⟨x, hx, rfl, rfl⟩

theorem grantLive_ok {grant : J} {s s' : St} (h : grantLive E grant s = .ok true s') :
    Live E grant s.tick ∧ s' = { s with tick := s.tick + 1 } := by
  unfold grantLive at h
  obtain ⟨b, _, hl, h⟩ := Tx.bind_ok.1 h
  obtain ⟨hb, rfl⟩ := Tx.lift_ok.1 hl
  split at h
  · cases (Tx.pure_ok.1 h).1
  · rename_i hn
    obtain ⟨l, _, hl, h⟩ := Tx.bind_ok.1 h
    obtain ⟨x, hx, rfl, rfl⟩ := lapsed_ok hl
    obtain ⟨hlt, rfl⟩ := Tx.pure_ok.1 h
    have hb' : b = true := by simpa using hn
    subst hb'
    exact ⟨⟨hasState_ok hb (by decide), x, hx, by simpa using hlt⟩, rfl⟩

/-- What the gate has found on a request it lets pass. -/
structure Approved (E : Env) (g : Grant) (s s' : St) : Prop where
  hash : (s.db.get .approval g.id).get? "request_sha256" = some (.str g.hash)
  live : Live E (s.db.get .approval g.id) s.tick
  post : s' = { s with tick := s.tick + 1 }

/-- What the gate has written when it asks for the approval of the owner. -/
structure Asked (E : Env) (g : Grant) (s s' : St) : Prop where
  fresh : s.db.get .approval g.id = .null
  created : ∃ time taskId, s'.db.get .approval g.id = g.approval time taskId
  others : ∀ kind id, (kind, id) ≠ (.approval, g.id) → s'.db.get kind id = s.db.get kind id
  tick : s.tick ≤ s'.tick

theorem requestApproval_ok {g : Grant} {r : J} {s s' : St} (h : requestApproval E g req s = .ok r s') :
    r ≠ .null ∧ s'.db.get .approval g.id = r ∧ (s' = s ∨ Asked E g s s') := by
  unfold requestApproval at h
  obtain ⟨a, _, ha, h⟩ := Tx.bind_ok.1 h
  obtain ⟨rfl, rfl⟩ := read_ok.1 ha
  split at h
  · rename_i hn
    obtain ⟨rfl, rfl⟩ := Tx.pure_ok.1 h
    refine ⟨fun e => ?_, rfl, .inl rfl⟩
    simp [J.isNull_iff.2 e] at hn
  · rename_i hn
    obtain ⟨_, _, ht, h⟩ := Tx.bind_ok.1 h
    obtain ⟨rfl, rfl⟩ := now_ok.1 ht
    obtain ⟨task, _, hl, h⟩ := Tx.bind_ok.1 h
    obtain ⟨-, rfl⟩ := Tx.lift_ok.1 hl
    obtain ⟨_, _, hw, h⟩ := Tx.bind_ok.1 h
    obtain ⟨_, _, hap, h⟩ := Tx.bind_ok.1 h
    obtain ⟨hget, hothers, htick⟩ := write_append_ok hw hap
    obtain ⟨rfl, rfl⟩ := Tx.pure_ok.1 h
    refine ⟨nofun, hget, .inr ⟨J.isNull_iff.1 (by simpa using hn), ⟨_, task, hget⟩, hothers, ?_⟩⟩
    rw [htick]
    show s.tick ≤ s.tick + 1 + 1
    omega

theorem getD_eq_some {o : Option J} {v : J} (h : o.getD .null = v) (hv : v ≠ .null) : o = some v := by
  cases o with
  | none => exact absurd h.symm hv
  | some w => exact congrArg some h

theorem approvalGate_cases {g : Grant} {r : J} {s s' : St} (h : approvalGate E g req s = .ok r s') :
    r = .null ∧ Approved E g s s' ∨ r ≠ .null ∧ (Still s s' ∨ Asked E g s s') := by
  unfold approvalGate at h
  obtain ⟨a, u, ha, h⟩ := Tx.bind_ok.1 h
  obtain ⟨-, hget, hu⟩ := requestApproval_ok ha
  have hrefused : ∀ {r : J} {t : St}, r ≠ .null → Still u t →
      r = .null ∧ Approved E g s t ∨ r ≠ .null ∧ (Still s t ∨ Asked E g s t) := by
    intro r t hr hut
    refine .inr ⟨hr, ?_⟩
    rcases hu with rfl | hu
    · exact .inl hut
    · exact .inr ⟨hu.fresh, by rw [hut.db]; exact hu.created, by rw [hut.db]; exact hu.others, hu.tick.trans hut.tick⟩
  obtain ⟨sha, _, hl, h⟩ := Tx.bind_ok.1 h
  obtain ⟨hsha, rfl⟩ := Tx.lift_ok.1 hl
  split at h
  · obtain ⟨rfl, rfl⟩ := Tx.pure_ok.1 h
    exact hrefused nofun (refl _)
  rename_i hsame
  obtain ⟨state, _, hl, h⟩ := Tx.bind_ok.1 h
  obtain ⟨hstate, rfl⟩ := Tx.lift_ok.1 hl
  split at h
  · obtain ⟨hr, rfl⟩ := Tx.lift_ok.1 h
    refine hrefused ?_ (refl _)
    rintro rfl
    cases (J.get?_assign hr []).1
  rename_i happ
  simp only [Bool.not_eq_true', Bool.not_eq_false, J.same_str] at hsame happ
  obtain ⟨v, _, hl, h⟩ := Tx.bind_ok.1 h
  obtain ⟨hv, rfl⟩ := Tx.lift_ok.1 hl
  obtain ⟨x, _, hl, h⟩ := Tx.bind_ok.1 h
  obtain ⟨hx, rfl⟩ := Tx.lift_ok.1 hl
  obtain ⟨_, _, hn, h⟩ := Tx.bind_ok.1 h
  obtain ⟨rfl, rfl⟩ := now_ok.1 hn
  split at h
  · obtain ⟨rfl, rfl⟩ := Tx.pure_ok.1 h
    exact hrefused nofun ⟨rfl, Nat.le_succ _, le_refl _⟩
  rename_i hlt
  obtain ⟨rfl, rfl⟩ := Tx.pure_ok.1 h
  subst hsame happ
  rcases hu with rfl | hu
  · refine .inl ⟨rfl, ?_, ⟨?_, x, ?_, by omega⟩, rfl⟩
    · rw [hget]; exact J.field_ok.1 hsha
    · rw [hget]
      exact getD_eq_some (J.index_ok.1 hstate).2 nofun
    · rw [hget]
      have hv' := J.field_ok.1 hv
      exact J.value_ok.2 ⟨J.isObject_of_get? hv', .inl ⟨v, hv', hx⟩⟩
  · obtain ⟨time, task, hc⟩ := hu.created
    rw [hget] at hc
    subst hc
    -- a fresh approval is pending
    exact absurd hstate (by simp [J.index_ok, Grant.approval, Bytes.lit_inj])

/-! ## Delegation -/

/-- The ancestors named by a chain hold live grants, each at a reading between `m` and `n`. -/
def AncestorsLive (E : Env) (db : Db) (chain : List J) (m n : Nat) : Prop :=
  ∀ x ∈ chain, ∃ id k, x.get? "execution_id" = some (.str id) ∧ m ≤ k ∧ k < n ∧ Live E (db.get .approval id) k

theorem grantsLive_ok {chain : List J} {s s' : St} (h : grantsLive E chain s = .ok true s') :
    Still s s' ∧ AncestorsLive E s.db chain s.tick s'.tick := by
  induction chain generalizing s with
  | nil =>
    obtain ⟨-, rfl⟩ := Tx.pure_ok.1 h
    exact ⟨refl _, nofun⟩
  | cons x rest ih =>
    unfold grantsLive at h
    obtain ⟨v, _, hl, h⟩ := Tx.bind_ok.1 h
    obtain ⟨hv, rfl⟩ := Tx.lift_ok.1 hl
    obtain ⟨id, _, hl, h⟩ := Tx.bind_ok.1 h
    obtain ⟨hid, rfl⟩ := Tx.lift_ok.1 hl
    obtain ⟨_, _, hr, h⟩ := Tx.bind_ok.1 h
    obtain ⟨rfl, rfl⟩ := read_ok.1 hr
    obtain ⟨b, _, hg, h⟩ := Tx.bind_ok.1 h
    cases b with
    | false => cases (Tx.pure_ok.1 h).1
    | true =>
      obtain ⟨hlive, rfl⟩ := grantLive_ok hg
      obtain ⟨hstill, hrest⟩ := ih h
      have htick : s.tick + 1 ≤ s'.tick := hstill.tick
      refine ⟨⟨hstill.db, by omega, hstill.nonce⟩, fun y hy => ?_⟩
      rcases List.mem_cons.1 hy with rfl | hy
      · rw [J.asStr_ok] at hid
        exact ⟨id, s.tick, hid ▸ J.field_ok.1 hv, le_refl _, by omega, hlive⟩
      · obtain ⟨id, k, hk, hm, hn, hlive⟩ := hrest y hy
        exact ⟨id, k, hk, by simp only at hm; omega, hn, hlive⟩

/-- What a delegation has checked of the parent `parentId`. -/
structure Delegated (E : Env) (parentId : Str) (requested : List Str) (chain : J) (s s' : St) : Prop where
  parent : s.db.get .execution parentId ≠ .null
  effects : ∃ eff allowed, (s.db.get .execution parentId).get? "effects" = some eff ∧ effectSet eff = .ok allowed ∧
    lit "DELEGATE" ∈ allowed ∧ requested ⊆ allowed
  inherited : (s.db.get .execution parentId).get? "identity_chain" = some chain
  live : AncestorsLive E s.db chain.elems s.tick s'.tick
  depth : chain.elems.length < 16

theorem delegate_cases {parentId : Str} {requested : List Str} {d : Except J J} {s s' : St}
    (h : delegate E parentId requested s = .ok d s') :
    (∃ r, d = .error r ∧ r ≠ .null) ∨
    ∃ chain, d = .ok chain ∧
      (parentId = [] ∧ chain = .arr [] ∨ parentId ≠ [] ∧ Delegated E parentId requested chain s s') := by
  unfold delegate at h
  split at h
  · rename_i hp
    obtain ⟨rfl, -⟩ := Tx.pure_ok.1 h
    exact .inr ⟨_, rfl, .inl ⟨by simpa using hp, rfl⟩⟩
  rename_i hp
  obtain ⟨_, _, hr, h⟩ := Tx.bind_ok.1 h
  obtain ⟨rfl, rfl⟩ := read_ok.1 hr
  split at h
  · exact .inl ⟨_, (Tx.pure_ok.1 h).1.symm, nofun⟩
  rename_i hparent
  obtain ⟨eff, _, hl, h⟩ := Tx.bind_ok.1 h
  obtain ⟨heff, rfl⟩ := Tx.lift_ok.1 hl
  obtain ⟨allowed, _, hl, h⟩ := Tx.bind_ok.1 h
  obtain ⟨hallowed, rfl⟩ := Tx.lift_ok.1 hl
  split at h
  · exact .inl ⟨_, (Tx.pure_ok.1 h).1.symm, nofun⟩
  rename_i hsub
  obtain ⟨c, _, hl, h⟩ := Tx.bind_ok.1 h
  obtain ⟨hc, rfl⟩ := Tx.lift_ok.1 hl
  obtain ⟨live, _, hg, h⟩ := Tx.bind_ok.1 h
  split at h
  · exact .inl ⟨_, (Tx.pure_ok.1 h).1.symm, nofun⟩
  rename_i hlive
  simp only [Bool.not_eq_true', Bool.not_eq_false] at hlive
  subst hlive
  split at h
  · exact .inl ⟨_, (Tx.pure_ok.1 h).1.symm, nofun⟩
  rename_i hdepth
  obtain ⟨rfl, rfl⟩ := Tx.pure_ok.1 h
  simp only [Bool.or_eq_true, decide_eq_true_eq, Bool.not_eq_true', not_or, not_not, Bool.not_eq_false,
    List.all_eq_true] at hsub
  refine .inr ⟨c, rfl, .inr ⟨by simpa using hp, ?_, ⟨eff, allowed, J.field_ok.1 heff, hallowed, hsub.1, fun x hx => hsub.2 x hx⟩,
    J.field_ok.1 hc, (grantsLive_ok hg).2, by omega⟩⟩
  intro e
  simp [e, J.isNull] at hparent

/-! ## `begin` -/

/-- A check has passed at a state between `s` and `s'`. -/
def Passed (check : M J) (s s' : St) : Prop := ∃ t t', Still s t ∧ check t = .ok .null t' ∧ Still t' s'

/-- What `review` has read and checked for the grant it gives. -/
structure Reviewed (E : Env) (req : J) (id hash : Str) (g : Grant) (s s' : St) : Prop where
  id : g.id = id
  hash : g.hash = hash
  agent : req.valueStr "agent" "" = .ok g.agent
  op : req.valueStr "op" "" = .ok g.op
  effects : ∃ eff base, req.valueJson "effects" (.arr []) = .ok eff ∧ effectSet eff = .ok base ∧ g.effects = implied g.op base
  parent : req.valueStr "parent_execution_id" "" = .ok g.parentId
  continuation : req.valueStr "continuation_id" "" = .ok g.continuationId
  retry : req.valueStr "retry_of" "" = .ok g.retryOf
  session : req.valueStr "session_id" "" = .ok g.sessionId
  leaseHeld : Passed (leaseCheck E req) s s'
  continuationOpen : Passed (continuationCheck req g.continuationId) s s'
  retryAllowed : Passed (retryCheck g.retryOf) s s'
  trusted : Passed (quarantineCheck g.agent) s s'
  sessionKnown : Passed (sessionCheck g.sessionId) s s'
  delegation : ∃ t t' chain, Still s t ∧ Still t' s' ∧
    (g.parentId = [] ∧ chain = .arr [] ∨ g.parentId ≠ [] ∧ Delegated E g.parentId g.effects chain t t') ∧
    chain.pushBack (.object [("agent", .str g.agent), ("execution_id", .str g.id)]) = .ok g.chain

theorem null_of_not {r : J} (h : ¬ (!r.isNull) = true) : r = .null := J.isNull_iff.1 (by simpa using h)

theorem not_null {r : J} (h : r ≠ .null) : (!r.isNull) = true := by
  cases r <;> first | rfl | exact absurd rfl h

theorem ne_null_of_not {r : J} (h : (!r.isNull) = true) : r ≠ .null := by
  rintro rfl
  cases h

theorem review_cases {id hash : Str} {d : Except J Grant} {s s' : St} (h : review E req id hash s = .ok d s') :
    (∃ r, d = .error r ∧ r ≠ .null) ∨ ∃ g, d = .ok g ∧ Reviewed E req id hash g s s' := by
  unfold review at h
  obtain ⟨r, s₁, h₁, h⟩ := Tx.bind_ok.1 h
  split at h
  · rename_i hr
    exact .inl ⟨r, (Tx.pure_ok.1 h).1.symm, ne_null_of_not hr⟩
  rename_i hr
  obtain rfl := null_of_not hr
  obtain ⟨continuationId, _, hl, h⟩ := Tx.bind_ok.1 h
  obtain ⟨hcontinuation, rfl⟩ := Tx.lift_ok.1 hl
  obtain ⟨r, s₂, h₂, h⟩ := Tx.bind_ok.1 h
  split at h
  · rename_i hr
    exact .inl ⟨r, (Tx.pure_ok.1 h).1.symm, ne_null_of_not hr⟩
  rename_i hr
  obtain rfl := null_of_not hr
  obtain ⟨retryOf, _, hl, h⟩ := Tx.bind_ok.1 h
  obtain ⟨hretry, rfl⟩ := Tx.lift_ok.1 hl
  obtain ⟨r, s₃, h₃, h⟩ := Tx.bind_ok.1 h
  split at h
  · rename_i hr
    exact .inl ⟨r, (Tx.pure_ok.1 h).1.symm, ne_null_of_not hr⟩
  rename_i hr
  obtain rfl := null_of_not hr
  obtain ⟨agent, _, hl, h⟩ := Tx.bind_ok.1 h
  obtain ⟨hagent, rfl⟩ := Tx.lift_ok.1 hl
  obtain ⟨r, s₄, h₄, h⟩ := Tx.bind_ok.1 h
  split at h
  · rename_i hr
    exact .inl ⟨r, (Tx.pure_ok.1 h).1.symm, ne_null_of_not hr⟩
  rename_i hr
  obtain rfl := null_of_not hr
  obtain ⟨eff, _, hl, h⟩ := Tx.bind_ok.1 h
  obtain ⟨heff, rfl⟩ := Tx.lift_ok.1 hl
  obtain ⟨base, _, hl, h⟩ := Tx.bind_ok.1 h
  obtain ⟨hbase, rfl⟩ := Tx.lift_ok.1 hl
  obtain ⟨op, _, hl, h⟩ := Tx.bind_ok.1 h
  obtain ⟨hop, rfl⟩ := Tx.lift_ok.1 hl
  obtain ⟨parentId, _, hl, h⟩ := Tx.bind_ok.1 h
  obtain ⟨hparent, rfl⟩ := Tx.lift_ok.1 hl
  obtain ⟨d, s₅, h₅, h⟩ := Tx.bind_ok.1 h
  rcases delegate_cases h₅ with ⟨r, rfl, hne⟩ | ⟨chain, rfl, hdel⟩
  · exact .inl ⟨r, (Tx.pure_ok.1 h).1.symm, hne⟩
  obtain ⟨chain', _, hl, h⟩ := Tx.bind_ok.1 h
  obtain ⟨hchain, rfl⟩ := Tx.lift_ok.1 hl
  obtain ⟨sessionId, _, hl, h⟩ := Tx.bind_ok.1 h
  obtain ⟨hsession, rfl⟩ := Tx.lift_ok.1 hl
  obtain ⟨r, s₆, h₆, h⟩ := Tx.bind_ok.1 h
  split at h
  · rename_i hr
    exact .inl ⟨r, (Tx.pure_ok.1 h).1.symm, ne_null_of_not hr⟩
  rename_i hr
  obtain rfl := null_of_not hr
  obtain ⟨rfl, rfl⟩ := Tx.pure_ok.1 h
  -- every check leaves the store alone
  have k₁ : Still s s₁ := Tx.keeps_ok h₁
  have k₂ : Still s₁ s₂ := Tx.keeps_ok h₂
  have k₃ : Still s₂ s₃ := Tx.keeps_ok h₃
  have k₄ : Still s₃ s₄ := Tx.keeps_ok h₄
  have k₅ : Still s₄ s₅ := Tx.keeps_ok h₅
  have k₆ : Still s₅ s₆ := Tx.keeps_ok h₆
  have l₄ : Still s₄ s₆ := k₅.trans k₆
  have l₃ : Still s₃ s₆ := k₄.trans l₄
  have l₂ : Still s₂ s₆ := k₃.trans l₃
  have m₂ : Still s s₂ := k₁.trans k₂
  have m₃ : Still s s₃ := m₂.trans k₃
  have m₄ : Still s s₄ := m₃.trans k₄
  exact .inr ⟨_, rfl, {
    id := rfl
    hash := rfl
    agent := hagent
    op := hop
    effects := ⟨eff, base, heff, hbase, rfl⟩
    parent := hparent
    continuation := hcontinuation
    retry := hretry
    session := hsession
    leaseHeld := ⟨s, s₁, refl s, h₁, k₂.trans l₂⟩
    continuationOpen := ⟨s₁, s₂, k₁, h₂, l₂⟩
    retryAllowed := ⟨s₂, s₃, m₂, h₃, l₃⟩
    trusted := ⟨s₃, s₄, m₃, h₄, l₄⟩
    sessionKnown := ⟨s₅, s₆, m₄.trans k₅, h₆, refl _⟩
    delegation := ⟨s₄, s₅, chain, m₄, k₆, hdel, hchain⟩ }⟩

/-- What an admission writes: the execution record, and nothing else. -/
structure Recorded (E : Env) (g : Grant) (s s' : St) : Prop where
  created : ∃ taskId, s'.db.get .execution g.id = g.execution (E.clock s.tick) (E.clock (s.tick + 1) + 60) taskId
  others : ∀ kind id, (kind, id) ≠ (.execution, g.id) → s'.db.get kind id = s.db.get kind id
  tick : s'.tick = s.tick + 3

theorem recordExecution_ok {g : Grant} {r : J} {s s' : St} (h : recordExecution E g req s = .ok r s') : r = .null ∧ Recorded E g s s' := by
  unfold recordExecution at h
  obtain ⟨_, _, hn, h⟩ := Tx.bind_ok.1 h
  obtain ⟨rfl, rfl⟩ := now_ok.1 hn
  obtain ⟨_, _, hn, h⟩ := Tx.bind_ok.1 h
  obtain ⟨rfl, rfl⟩ := now_ok.1 hn
  obtain ⟨taskId, _, hl, h⟩ := Tx.bind_ok.1 h
  obtain ⟨-, rfl⟩ := Tx.lift_ok.1 hl
  obtain ⟨_, _, hw, h⟩ := Tx.bind_ok.1 h
  obtain ⟨_, _, ha, h⟩ := Tx.bind_ok.1 h
  obtain ⟨hget, hothers, htick⟩ := write_append_ok hw ha
  obtain ⟨rfl, rfl⟩ := Tx.pure_ok.1 h
  exact ⟨rfl, ⟨taskId, hget⟩, hothers, htick⟩

/-- What has happened when `begin` admits a request under the grant `g`. -/
structure Admission (E : Env) (enforce : Bool) (req : J) (g : Grant) (s t u s' : St) : Prop where
  id : required req "request_id" = .ok g.id
  hash : ∃ text, (canonical req).dump = .ok text ∧ g.hash = E.digest text
  fresh : s.db.get .execution g.id = .null
  reviewed : Reviewed E req g.id g.hash g s t
  still : Still s t
  approved : if governed enforce req g then Approved E g t u else u = t
  recorded : Recorded E g u s'

/-- Up to the record, an admission only reads. -/
theorem Admission.before {g : Grant} {s t u s' : St} (h : Admission E enforce req g s t u s') : Still s u := by
  have happ := h.approved
  split at happ
  · rw [happ.post]
    exact h.still.trans ⟨rfl, Nat.le_succ _, le_refl _⟩
  · rw [happ]
    exact h.still

theorem Admission.others {g : Grant} {s t u s' : St} (h : Admission E enforce req g s t u s') (kind : Kind) (id : Str)
    (hne : (kind, id) ≠ (.execution, g.id)) : s'.db.get kind id = s.db.get kind id := by
  rw [h.recorded.others kind id hne, h.before.db]

/-- The ways `begin` ends when it does not throw: it replays an execution, refuses, refuses having
asked for an approval, or admits. -/
inductive Begun (E : Env) (enforce : Bool) (req : J) (s : St) : J → St → Prop
  | replayed {id text : Str} {r : J} : required req "request_id" = .ok id → (canonical req).dump = .ok text →
    s.db.get .execution id ≠ .null → replay (s.db.get .execution id) id (E.digest text) = .ok r → Begun E enforce req s r s
  | refused {r : J} {s' : St} : r ≠ .null → Still s s' → Begun E enforce req s r s'
  | asked {text : Str} {g : Grant} {r : J} {t s' : St} : required req "request_id" = .ok g.id →
    (canonical req).dump = .ok text → g.hash = E.digest text → r ≠ .null → Still s t → Asked E g t s' → Begun E enforce req s r s'
  | admitted {g : Grant} {t u s' : St} : Admission E enforce req g s t u s' → Begun E enforce req s .null s'

theorem begin_cases {r : J} {s s' : St} (h : begin E enforce req s = .ok r s') : Begun E enforce req s r s' := by
  unfold begin at h
  obtain ⟨id, _, hl, h⟩ := Tx.bind_ok.1 h
  obtain ⟨hid, rfl⟩ := Tx.lift_ok.1 hl
  obtain ⟨text, _, hl, h⟩ := Tx.bind_ok.1 h
  obtain ⟨htext, rfl⟩ := Tx.lift_ok.1 hl
  obtain ⟨_, _, hr, h⟩ := Tx.bind_ok.1 h
  obtain ⟨rfl, rfl⟩ := read_ok.1 hr
  split at h
  · rename_i hp
    obtain ⟨hreplay, rfl⟩ := Tx.lift_ok.1 h
    exact .replayed hid htext (ne_null_of_not hp) hreplay
  rename_i hfresh
  obtain ⟨d, t, hrev, h⟩ := Tx.bind_ok.1 h
  have hstill : Still s t := Tx.keeps_ok hrev
  rcases review_cases hrev with ⟨r', rfl, hne⟩ | ⟨g, rfl, hg⟩
  · obtain ⟨rfl, rfl⟩ := Tx.pure_ok.1 h
    exact .refused hne hstill
  have hgid : required req "request_id" = .ok g.id := by rw [hid, hg.id]
  have hhash : g.hash = E.digest text := hg.hash
  have hnull : s.db.get .execution g.id = .null := by rw [hg.id, null_of_not hfresh]
  have hrev' : Reviewed E req g.id g.hash g s t := by rw [hg.id, hg.hash]; exact hg
  -- past the gate, nothing is left but to write the record
  have hadmit : ∀ {v : St}, (if governed enforce req g then Approved E g t v else v = t) → recordExecution E g req v = .ok r s' →
      Begun E enforce req s r s' := by
    intro v hv ha
    obtain ⟨rfl, hrec⟩ := recordExecution_ok ha
    exact .admitted ⟨hgid, ⟨text, htext, hhash⟩, hnull, hrev', hstill, hv, hrec⟩
  dsimp only at h
  split at h
  · rename_i hgov
    obtain ⟨r', v, hgate, h⟩ := Tx.bind_ok.1 h
    rcases approvalGate_cases hgate with ⟨rfl, happ⟩ | ⟨hne, hcase⟩
    · exact hadmit (by rwa [if_pos hgov]) h
    · rw [if_pos (not_null hne)] at h
      obtain ⟨rfl, rfl⟩ := Tx.pure_ok.1 h
      rcases hcase with hs | ha
      · exact .refused hne (hstill.trans hs)
      · exact .asked hgid htext hhash hne hstill ha
  · rename_i hgov
    obtain ⟨r', v, hp, h⟩ := Tx.bind_ok.1 h
    obtain ⟨rfl, rfl⟩ := Tx.pure_ok.1 hp
    exact hadmit (by rw [if_neg hgov]) h

/-! ## Decisions -/

/-- `approval.revoke` has revoked the approval `id`. -/
structure Revoked (id : Str) (s s' : St) : Prop where
  pre : s.db.get .approval id ≠ .null
  state : (s'.db.get .approval id).get? "state" = some (.str "REVOKED")
  rest : ∀ k : Str, k ≠ "state" → (s'.db.get .approval id).get? k = (s.db.get .approval id).get? k
  others : ∀ id', id' ≠ id → s'.db.get .approval id' = s.db.get .approval id'

theorem approvalRevoke_cases {r : J} {s s' : St} (h : approvalRevoke E req s = .ok r s') :
    r.get? "ok" = some (.bool false) ∧ Still s s' ∨
    r.get? "ok" = some (.bool true) ∧ Frame [.approval] s s' ∧ ∃ id, required req "id" = .ok id ∧ Revoked id s s' := by
  have hframe : Frame [.approval] s s' := Tx.keeps_ok h
  unfold approvalRevoke at h
  obtain ⟨id, _, hl, h⟩ := Tx.bind_ok.1 h
  obtain ⟨hid, rfl⟩ := Tx.lift_ok.1 hl
  obtain ⟨_, _, hr, h⟩ := Tx.bind_ok.1 h
  obtain ⟨rfl, rfl⟩ := read_ok.1 hr
  split at h
  · obtain ⟨rfl, rfl⟩ := Tx.pure_ok.1 h
    exact .inl ⟨by simp [failure], refl _⟩
  rename_i hne
  obtain ⟨a, _, hl, h⟩ := Tx.bind_ok.1 h
  obtain ⟨ha, rfl⟩ := Tx.lift_ok.1 hl
  obtain ⟨_, _, hw, h⟩ := Tx.bind_ok.1 h
  obtain ⟨_, _, hap, h⟩ := Tx.bind_ok.1 h
  obtain ⟨hget, hothers, -⟩ := write_append_ok hw hap
  obtain ⟨rfl, rfl⟩ := Tx.pure_ok.1 h
  refine .inr ⟨by simp, hframe, id, hid, fun e => by simp [e, J.isNull] at hne, ?_, fun k hk => ?_,
    fun id' h' => hothers _ _ (by simpa using h')⟩
  · rw [hget, (J.get?_assign ha _).2, if_pos rfl]
  · rw [hget, (J.get?_assign ha k).2, if_neg (Ne.symm hk)]

/-- `approval.decide` has decided the approval `id`: `x` is the expiry it has set. -/
structure Decided (id : Str) (allow : Bool) (x : Int) (s s' : St) : Prop where
  pre : (s.db.get .approval id).get? "state" = some (.str "PENDING")
  state : (s'.db.get .approval id).get? "state" = some (.str (if allow then "APPROVED" else "DENIED"))
  expires : (s'.db.get .approval id).get? "expires_at" = some (.int x)
  range : -2 ^ 35 < x ∧ x < 2 ^ 35
  rest : ∀ k : Str, k ≠ "state" → k ≠ "expires_at" → k ≠ "reason" →
    (s'.db.get .approval id).get? k = (s.db.get .approval id).get? k
  others : ∀ id', id' ≠ id → s'.db.get .approval id' = s.db.get .approval id'

theorem approvalDecide_cases {r : J} {s s' : St} (h : approvalDecide E req s = .ok r s') :
    r.get? "ok" = some (.bool false) ∧ Still s s' ∨
    r.get? "ok" = some (.bool true) ∧ Frame [.approval] s s' ∧
      ∃ id allow x, required req "id" = .ok id ∧ req.get? "allow" = some (.bool allow) ∧ Decided id allow x s s' := by
  have hframe : Frame [.approval] s s' := Tx.keeps_ok h
  unfold approvalDecide at h
  obtain ⟨id, _, hl, h⟩ := Tx.bind_ok.1 h
  obtain ⟨hid, rfl⟩ := Tx.lift_ok.1 hl
  obtain ⟨_, _, hr, h⟩ := Tx.bind_ok.1 h
  obtain ⟨rfl, rfl⟩ := read_ok.1 hr
  split at h
  · obtain ⟨rfl, rfl⟩ := Tx.pure_ok.1 h
    exact .inl ⟨by simp [failure], refl _⟩
  rename_i hne
  obtain ⟨st, _, hl, h⟩ := Tx.bind_ok.1 h
  obtain ⟨hst, rfl⟩ := Tx.lift_ok.1 hl
  split at h
  · obtain ⟨rfl, rfl⟩ := Tx.pure_ok.1 h
    exact .inl ⟨by simp [failure], refl _⟩
  rename_i hpending
  dsimp only at h
  split at h
  · obtain ⟨rfl, rfl⟩ := Tx.pure_ok.1 h
    exact .inl ⟨by simp [failure], refl _⟩
  obtain ⟨allow, _, hl, h⟩ := Tx.bind_ok.1 h
  obtain ⟨hallow, rfl⟩ := Tx.lift_ok.1 hl
  obtain ⟨a, _, hl, h⟩ := Tx.bind_ok.1 h
  obtain ⟨ha, rfl⟩ := Tx.lift_ok.1 hl
  obtain ⟨ttl, _, hl, h⟩ := Tx.bind_ok.1 h
  obtain ⟨-, rfl⟩ := Tx.lift_ok.1 hl
  split at h
  · obtain ⟨rfl, rfl⟩ := Tx.pure_ok.1 h
    exact .inl ⟨by simp [failure], refl _⟩
  rename_i httl
  obtain ⟨_, _, hn, h⟩ := Tx.bind_ok.1 h
  obtain ⟨rfl, rfl⟩ := now_ok.1 hn
  obtain ⟨b, _, hl, h⟩ := Tx.bind_ok.1 h
  obtain ⟨hb, rfl⟩ := Tx.lift_ok.1 hl
  obtain ⟨reason, _, hl, h⟩ := Tx.bind_ok.1 h
  obtain ⟨-, rfl⟩ := Tx.lift_ok.1 hl
  obtain ⟨c, _, hl, h⟩ := Tx.bind_ok.1 h
  obtain ⟨hc, rfl⟩ := Tx.lift_ok.1 hl
  obtain ⟨_, _, hw, h⟩ := Tx.bind_ok.1 h
  obtain ⟨_, _, hap, h⟩ := Tx.bind_ok.1 h
  obtain ⟨hget, hothers, -⟩ := write_append_ok hw hap
  obtain ⟨rfl, rfl⟩ := Tx.pure_ok.1 h
  -- the three fields are set one after another
  have hfields : ∀ k : Str, c.get? k = if lit "reason" = k then some (.str reason) else
      if lit "expires_at" = k then some (.int (E.clock s.tick + ttl)) else
      if lit "state" = k then some (.str (if allow then "APPROVED" else "DENIED")) else
      (s.db.get .approval id).get? k := by
    intro k
    rw [(J.get?_assign hc k).2, (J.get?_assign hb k).2, (J.get?_assign ha k).2]
  refine .inr ⟨by simp, hframe, id, allow, E.clock s.tick + ttl, hid, ?_, ?_, ?_, ?_, ?_, ?_,
    fun id' h' => hothers _ _ (by simpa using h')⟩
  · rw [J.asBool_ok] at hallow
    exact getD_eq_some hallow nofun
  · simp only [Bool.not_eq_true', Bool.not_eq_false, J.same_str] at hpending
    subst hpending
    exact getD_eq_some (J.index_ok.1 hst).2 nofun
  · rw [hget, hfields, if_neg (by simp), if_neg (by simp), if_pos rfl]
  · rw [hget, hfields, if_neg (by simp), if_pos rfl]
  · have hclock := E.range s.tick
    simp only [Bool.or_eq_true, decide_eq_true_eq, not_or] at httl
    constructor <;> omega
  · intro k h₁ h₂ h₃
    rw [hget, hfields, if_neg (Ne.symm h₃), if_neg (Ne.symm h₂), if_neg (Ne.symm h₁)]

/-- The ways the control transaction can treat approvals. -/
theorem control_cases {r : J} {s s' : St} (h : control E enforce req s = .ok r s') :
    req.get? "op" = some (.str "approval.revoke") ∧ approvalRevoke E req s = .ok r s' ∨
    req.get? "op" = some (.str "approval.decide") ∧ approvalDecide E req s = .ok r s' ∨
    req.get? "op" ≠ some (.str "approval.revoke") ∧
      Frame [.continuation, .session, .lease, .health, .provenance, .channel] s s' := by
  unfold control at h
  obtain ⟨op, _, hl, h⟩ := Tx.bind_ok.1 h
  obtain ⟨hop, rfl⟩ := Tx.lift_ok.1 hl
  have hget : op ≠ [] → req.get? "op" = some (.str op) := get?_of_valueStr hop
  by_cases hr : op = "approval.revoke"
  · subst hr
    have hk : listKind "approval.revoke" = none := by decide
    refine .inl ⟨hget (by decide), ?_⟩
    simpa only [hk, lit_inj, String.reduceEq, if_false, if_true, decide_false, Bool.or_false, Bool.false_eq_true] using h
  by_cases hd : op = "approval.decide"
  · subst hd
    have hk : listKind "approval.decide" = none := by decide
    refine .inr (.inl ⟨hget (by decide), ?_⟩)
    simpa only [hk, lit_inj, String.reduceEq, if_false, if_true, decide_false, Bool.or_false, Bool.false_eq_true] using h
  refine .inr (.inr ⟨fun e => ?_, ?_⟩)
  · rcases (J.valueStr_ok.1 hop).2 with hg | ⟨hg, -⟩
    · rw [hg] at e
      cases e
      exact hr rfl
    · rw [hg] at e
      cases e
  simp only [if_neg hr, if_neg hd] at h
  refine Tx.keeps_ok (k := Tx.keeps_ite (k := ?_)) h
  split <;> infer_instance

/-- The mutations are none of the control plane's own operations. -/
theorem control_mutation {op : Str} (hop : req.valueStr "op" "" = .ok op) (hm : mutation op = true) (s : St) :
    control E enforce req s = .ok .null s := by
  unfold control
  refine Tx.bind_ok.2 ⟨op, s, Tx.lift_ok.2 ⟨hop, rfl⟩, ?_⟩
  simp only [mutation, Bool.or_eq_true, decide_eq_true_eq, or_assoc] at hm
  have hk : listKind op = none := by
    rcases hm with rfl | rfl | rfl | rfl | rfl | rfl | rfl <;> decide
  rw [hk]
  rcases hm with rfl | rfl | rfl | rfl | rfl | rfl | rfl <;>
    simp only [lit_inj, String.reduceEq, if_false, decide_false, Bool.or_false, Bool.false_eq_true, Tx.pure_ok, and_self]

end A2ad.Control
