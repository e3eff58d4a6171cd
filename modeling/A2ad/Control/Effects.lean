/-
What each operation of `control` does to the store, one case an operation: the lease it grants,
renews or ends, the health record it writes, the channel it opens, reads or acknowledges.
-/
import A2ad.Control.System

namespace A2ad.Control

open Bytes Json

variable {E : Env} {enforce : Bool} {req : J}

/-! ## The operation of a request -/

/-- The ways the control transaction ends when it does not throw, with the kinds of records it may
have written. -/
inductive Controlled (E : Env) (req : J) (s : St) : List Kind → J → St → Prop
  | query {r : J} {s' : St} : Still s s' → Controlled E req s [] r s'
  | continuation {r : J} {s' : St} : req.get? "op" = some (.str "continuation.create") →
    continuationCreate E req s = .ok r s' → Controlled E req s [.continuation] r s'
  | session {r : J} {s' : St} : req.get? "op" = some (.str "session.create") →
    sessionCreate E req s = .ok r s' → Controlled E req s [.session] r s'
  | lease {op : Str} {r : J} {s' : St} : op = "lease.acquire" ∨ op = "lease.renew" ∨ op = "lease.release" →
    req.get? "op" = some (.str op) → leaseOp E op req s = .ok r s' → Controlled E req s [.lease] r s'
  | revoke {r : J} {s' : St} : req.get? "op" = some (.str "approval.revoke") →
    approvalRevoke E req s = .ok r s' → Controlled E req s [.approval] r s'
  | decide {r : J} {s' : St} : req.get? "op" = some (.str "approval.decide") →
    approvalDecide E req s = .ok r s' → Controlled E req s [.approval] r s'
  | agent {op : Str} {r : J} {s' : St} : op = "agent.health" ∨ op = "agent.quarantine" ∨ op = "agent.release" →
    req.get? "op" = some (.str op) → agentOp E op req s = .ok r s' → Controlled E req s [.health] r s'
  | provenance {r : J} {s' : St} : req.get? "op" = some (.str "provenance.record") →
    provenanceRecord E req s = .ok r s' → Controlled E req s [.provenance] r s'
  | channelOpen {r : J} {s' : St} : req.get? "op" = some (.str "channel.open") →
    channelOpen req s = .ok r s' → Controlled E req s [.channel] r s'
  | eventsRead {op : Str} {r : J} {s' : St} : op = "channel.read" ∨ op = "events.read" →
    req.get? "op" = some (.str op) → eventsRead op req s = .ok r s' → Controlled E req s [.channel] r s'
  | channelAck {r : J} {s' : St} : req.get? "op" = some (.str "channel.ack") →
    channelAck req s = .ok r s' → Controlled E req s [.channel] r s'

theorem Controlled.frame {K : List Kind} {r : J} {s s' : St} (h : Controlled E req s K r s') : Frame K s s' := by
  cases h with
  | query h => exact h.frame
  | continuation _ h => exact Tx.keeps_ok h
  | session _ h => exact Tx.keeps_ok h
  | lease _ _ h => exact Tx.keeps_ok h
  | revoke _ h => exact Tx.keeps_ok h
  | decide _ h => exact Tx.keeps_ok h
  | agent _ _ h => exact Tx.keeps_ok h
  | provenance _ h => exact Tx.keeps_ok h
  | channelOpen _ h => exact Tx.keeps_ok h
  | eventsRead _ _ h => exact Tx.keeps_ok h
  | channelAck _ h => exact Tx.keeps_ok h

theorem control_ops {r : J} {s s' : St} (h : control E enforce req s = .ok r s') : ∃ K, Controlled E req s K r s' := by
  unfold control at h
  obtain ⟨op, _, hl, h⟩ := Tx.bind_ok.1 h
  obtain ⟨hop, rfl⟩ := Tx.lift_ok.1 hl
  have hget : op ≠ [] → req.get? "op" = some (.str op) := get?_of_valueStr hop
  rcases Tx.ite_ok h with ⟨-, h⟩ | ⟨-, h⟩
  · exact ⟨_, .query (Tx.keeps_ok h)⟩
  cases hkind : listKind op with
  | some kind =>
    rw [hkind] at h
    exact ⟨_, .query (Tx.keeps_ok h)⟩
  | none =>
    rw [hkind] at h
    rcases Tx.ite_ok h with ⟨-, h⟩ | ⟨-, h⟩
    · exact ⟨_, .query (Tx.keeps_ok h)⟩
    rcases Tx.ite_ok h with ⟨-, h⟩ | ⟨-, h⟩
    · exact ⟨_, .query (Tx.keeps_ok h)⟩
    rcases Tx.ite_ok h with ⟨rfl, h⟩ | ⟨-, h⟩
    · exact ⟨_, .continuation (hget (by decide)) h⟩
    rcases Tx.ite_ok h with ⟨rfl, h⟩ | ⟨-, h⟩
    · exact ⟨_, .session (hget (by decide)) h⟩
    rcases Tx.ite_ok h with ⟨he, h⟩ | ⟨-, h⟩
    · simp only [Bool.or_eq_true, decide_eq_true_eq, or_assoc] at he
      exact ⟨_, .lease he (hget (by rcases he with rfl | rfl | rfl <;> decide)) h⟩
    rcases Tx.ite_ok h with ⟨rfl, h⟩ | ⟨-, h⟩
    · exact ⟨_, .revoke (hget (by decide)) h⟩
    rcases Tx.ite_ok h with ⟨rfl, h⟩ | ⟨-, h⟩
    · exact ⟨_, .decide (hget (by decide)) h⟩
    rcases Tx.ite_ok h with ⟨he, h⟩ | ⟨-, h⟩
    · simp only [Bool.or_eq_true, decide_eq_true_eq, or_assoc] at he
      exact ⟨_, .agent he (hget (by rcases he with rfl | rfl | rfl <;> decide)) h⟩
    rcases Tx.ite_ok h with ⟨rfl, h⟩ | ⟨-, h⟩
    · exact ⟨_, .provenance (hget (by decide)) h⟩
    rcases Tx.ite_ok h with ⟨rfl, h⟩ | ⟨-, h⟩
    · exact ⟨_, .channelOpen (hget (by decide)) h⟩
    rcases Tx.ite_ok h with ⟨he, h⟩ | ⟨-, h⟩
    · simp only [Bool.or_eq_true, decide_eq_true_eq] at he
      exact ⟨_, .eventsRead he (hget (by rcases he with rfl | rfl <;> decide)) h⟩
    rcases Tx.ite_ok h with ⟨rfl, h⟩ | ⟨-, h⟩
    · exact ⟨_, .channelAck (hget (by decide)) h⟩
    rcases Tx.ite_ok h with ⟨-, h⟩ | ⟨-, h⟩
    · exact ⟨_, .query (Tx.keeps_ok h)⟩
    · exact ⟨_, .query (Tx.keeps_ok h)⟩

/-- The operations on leases. -/
def isLease (op : Str) : Bool := op = "lease.acquire" || op = "lease.renew" || op = "lease.release"

theorem control_lease {op : Str} (hop : isLease op = true) (hget : req.get? "op" = some (.str op)) (s : St) :
    control E enforce req s = leaseOp E op req s := by
  have hvalue : req.valueStr "op" "" = .ok op := J.valueStr_ok.2 ⟨J.isObject_of_get? hget, .inl hget⟩
  unfold control
  rw [Tx.bind_of_ok (Tx.lift_of_ok hvalue)]
  simp only [isLease, Bool.or_eq_true, decide_eq_true_eq, or_assoc] at hop
  have hk : listKind op = none := by
    rcases hop with rfl | rfl | rfl <;> decide
  rw [hk]
  rcases hop with rfl | rfl | rfl <;>
    simp only [lit_inj, String.reduceEq, if_false, if_true, decide_false, decide_true, Bool.or_false, Bool.or_true,
      Bool.false_eq_true]

/-! ## Steps -/

/-- An operation that only the control transaction answers has been answered by it. -/
theorem Step.own_op {s t : Sys} {op : Str} {r : J} (h : Step E s (.enter req (.reply r)) t)
    (hget : req.get? "op" = some (.str op)) (hquery : isQuery op = false) (hmutation : mutation op = false) :
    ∃ u, Still s.st u ∧ control E s.enforce req u = .ok r t.st := by
  cases h with
  | enter _ h =>
    cases enter_cases h with
    | answered hop =>
      have := hop op hget
      simp [hquery, hmutation] at this
    | controlled hs hc => exact ⟨_, hs, hc⟩


/-- The kinds of the records that a step writes when it runs no operation of the control plane. -/
def Label.kinds : Label → List Kind
  | .enter _ _ => [.execution, .approval]
  | .leave _ _ _ => [.execution, .continuation, .health]
  | .boot _ => [.execution]
  | _ => []

/-- The kinds of the records that admissions and outcomes write. -/
abbrev dispatchKinds : List Kind := [.execution, .approval, .continuation, .health]

theorem Label.kinds_subset (l : Label) : l.kinds ⊆ dispatchKinds := by
  cases l <;> simp [Label.kinds]

/-- A step runs an operation of the control plane, or writes records of executions alone. -/
theorem Step.effects {s t : Sys} {l : Label} (h : Step E s l t) :
    (∃ req r u K, (l = .enter req (.reply r) ∨ l = .enter req (.plain req) ∧ r = .null) ∧ Still s.st u ∧
      Controlled E req u K r t.st) ∨ Frame l.kinds s.st t.st := by
  have hbegin : ∀ {request r : J} {u v : St}, Still s.st u → begin E s.enforce request u = .ok r v →
      Frame [.execution, .approval] s.st v := by
    intro request r u v hu hb
    have hframe : Frame [.execution, .approval] u v := Tx.keeps_ok hb
    exact IsTrans.trans _ _ _ hu.frame hframe
  cases h with
  | enter _ h =>
    cases enter_cases h with
    | answered _ hs => exact .inr hs.frame
    | controlled hs hc =>
      obtain ⟨K, hc⟩ := control_ops hc
      exact .inl ⟨_, _, _, K, .inl rfl, hs, hc⟩
    | plain _ _ hs hc =>
      obtain ⟨K, hc⟩ := control_ops hc
      exact .inl ⟨_, _, _, K, .inr ⟨rfl, rfl⟩, hs, hc⟩
    | refused _ hs hb => exact .inr (hbegin hs hb)
    | admitted _ hs hb => exact .inr (hbegin hs hb)
  | enterThrows _ h => exact .inr (enter_error h).frame
  | enterFails _ h => exact .inr h.frame
  | start => exact .inr (refl _)
  | leave _ h =>
    obtain ⟨_, -, -, hfinish⟩ := leave_ok h
    exact .inr (finish_ok hfinish).frame
  | leaveThrows _ h => exact .inr (leave_error h).frame
  | leaveFails _ h => exact .inr h.frame
  | event _ h => exact .inr (Tx.keeps_ok h)
  | boot _ h =>
    have hframe : Frame [.execution] s.st _ := Tx.keeps_ok h
    exact .inr hframe
  | crash => exact .inr (refl _)

theorem Step.controlled {s t : Sys} {l : Label} (h : Step E s l t) :
    (∃ req r u K, (l = .enter req (.reply r) ∨ l = .enter req (.plain req) ∧ r = .null) ∧ Still s.st u ∧
      Controlled E req u K r t.st) ∨ Frame dispatchKinds s.st t.st :=
  h.effects.imp_right (Frame.mono l.kinds_subset _ _)

/-- Readings of the clock and draws of ids are only ever added. -/
theorem Step.counts {s t : Sys} {l : Label} (h : Step E s l t) : s.st.tick ≤ t.st.tick ∧ s.st.nonce ≤ t.st.nonce := by
  rcases h.controlled with ⟨_, _, u, K, -, hu, hc⟩ | hframe
  · exact ⟨hu.tick.trans hc.frame.tick, hu.nonce.trans hc.frame.nonce⟩
  · exact ⟨hframe.tick, hframe.nonce⟩

end A2ad.Control
