/-
Refused requests leave no trace: a reply that says `ok: false` and a throw leave the store as it
was, apart from the approval `begin` asks for; and whatever a transaction commits comes with an
event, unless it is the cursor of a channel.
-/
import A2ad.Control.Audit

namespace A2ad.Control

open Bytes Json

variable {E : Env} {enforce : Bool} {op : Str} {req : J}

/-! ## Refusals of the control plane's own operations -/

def Refuses (r : J) : Prop := r.get? "ok" = some (.bool false)

/-- A refusal leaves the store alone. -/
class Declines (x : M J) : Prop where
  out : ∀ s r t, x s = .ok r t → Refuses r → Still s t

/-- The program never refuses. -/
class Accepts (x : M J) : Prop where
  out : ∀ s r t, x s = .ok r t → ¬ Refuses r

section Instances

variable {α : Type}

instance (fields : List (Str × J)) : Accepts (pure (.object ((lit "ok", .bool true) :: fields))) := by
  refine ⟨fun s r t h => ?_⟩
  obtain ⟨rfl, -⟩ := Tx.pure_ok.1 h
  simp [Refuses]

instance {x : M α} {f : α → M J} [hf : ∀ a, Accepts (f a)] : Accepts (x >>= f) := by
  refine ⟨fun s r t h => ?_⟩
  obtain ⟨a, u, -, h⟩ := Tx.bind_ok.1 h
  exact (hf a).out u r t h

instance {c : Prop} [Decidable c] {x y : M J} [hx : Accepts x] [hy : Accepts y] : Accepts (if c then x else y) := by
  split <;> assumption

instance (priority := low) {x : M J} [hx : Quiet x] : Declines x := ⟨fun _ _ _ h _ => Tx.keeps_ok h⟩

instance (priority := low) {x : M J} [hx : Accepts x] : Declines x := ⟨fun s r t h hr => absurd hr (hx.out s r t h)⟩

instance declines_bind {x : M α} {f : α → M J} [h : Quiet x] [k : ∀ a, Declines (f a)] : Declines (x >>= f) := by
  refine ⟨fun s r t hs hr => ?_⟩
  obtain ⟨a, u, hx, hf⟩ := Tx.bind_ok.1 hs
  have hstill : Still s u := Tx.keeps_ok hx
  exact hstill.trans ((k a).out u r t hf hr)

instance declines_ite {c : Prop} [Decidable c] {x y : M J} [h : Declines x] [k : Declines y] :
    Declines (if c then x else y) := by
  split <;> assumption

set_option synthInstance.maxSize 4000

instance : Declines (continuationCreate E req) := by
  unfold continuationCreate
  infer_instance

instance : Declines (sessionCreate E req) := by
  unfold sessionCreate
  infer_instance

instance : Declines (leaseOp E op req) := by
  unfold leaseOp
  infer_instance

instance : Declines (approvalRevoke E req) := by
  unfold approvalRevoke
  infer_instance

instance : Declines (approvalDecide E req) := by
  unfold approvalDecide
  infer_instance

instance : Declines (agentOp E op req) := by
  unfold agentOp
  infer_instance

instance : Declines (provenanceRecord E req) := by
  unfold provenanceRecord
  infer_instance

instance : Declines (channelOpen req) := by
  unfold channelOpen
  infer_instance

instance : Declines (eventsRead op req) := by
  unfold eventsRead
  infer_instance

instance : Declines (channelAck req) := by
  unfold channelAck
  infer_instance

instance : Declines (control E enforce req) := by
  unfold control
  refine declines_bind (k := fun op => declines_ite (k := ?_))
  split <;> infer_instance

end Instances

/-! ## Refusals of `begin` -/

/-- The event `begin` appends when it asks for an approval. -/
def requiredEvent (g : Grant) : J := .object [("type", .str "approval.required"), ("request_id", .str g.id),
  ("effects", setJson g.effects), ("agent", .str g.agent)]

/-- The owner is asked for an approval for the first time: a pending record and its event, and no more. -/
structure AsksOwner (g : Grant) (db db' : Db) : Prop where
  fresh : db.get .approval g.id = .null
  record : ∃ time taskId, db'.records = (db.put .approval g.id (g.approval time taskId)).records
  event : ∃ e, db'.events = db.events ++ [e] ∧ e.value = requiredEvent g

theorem requestApproval_asks {g : Grant} {r : J} {s s' : St} (h : requestApproval E g req s = .ok r s') :
    s' = s ∨ AsksOwner g s.db s'.db := by
  unfold requestApproval at h
  obtain ⟨a, _, ha, h⟩ := Tx.bind_ok.1 h
  obtain ⟨rfl, rfl⟩ := read_ok.1 ha
  split at h
  · obtain ⟨-, rfl⟩ := Tx.pure_ok.1 h
    exact .inl rfl
  rename_i hn
  obtain ⟨_, _, ht, h⟩ := Tx.bind_ok.1 h
  obtain ⟨rfl, rfl⟩ := now_ok.1 ht
  obtain ⟨task, _, hl, h⟩ := Tx.bind_ok.1 h
  obtain ⟨-, rfl⟩ := Tx.lift_ok.1 hl
  obtain ⟨_, _, hw, h⟩ := Tx.bind_ok.1 h
  obtain ⟨-, rfl⟩ := write_ok.1 hw
  obtain ⟨_, _, hap, h⟩ := Tx.bind_ok.1 h
  obtain ⟨-, rfl⟩ := Tx.pure_ok.1 h
  obtain ⟨hevents, -⟩ := append_events hap
  obtain ⟨-, -, -, hrecords⟩ := append_ok hap
  exact .inr ⟨J.isNull_iff.1 (by simpa using hn), ⟨_, task, hrecords⟩, _, hevents, rfl⟩

set_option synthInstance.maxSize 2000 in
theorem approvalGate_asks {g : Grant} {r : J} {s s' : St} (h : approvalGate E g req s = .ok r s') :
    s'.db = s.db ∨ AsksOwner g s.db s'.db := by
  unfold approvalGate at h
  obtain ⟨a, u, ha, h⟩ := Tx.bind_ok.1 h
  -- past the request for the approval, the gate only reads
  have hrest : Still u s' := Tx.keeps_ok (k := by infer_instance) h
  rcases requestApproval_asks ha with rfl | hasks
  · exact .inl hrest.db
  · exact .inr (by rw [hrest.db]; exact hasks)

theorem begin_refuses {r : J} {s s' : St} (h : begin E enforce req s = .ok r s') (hr : r ≠ .null) :
    s'.db = s.db ∨ ∃ g, required req "request_id" = .ok g.id ∧ AsksOwner g s.db s'.db := by
  unfold begin at h
  obtain ⟨id, _, hl, h⟩ := Tx.bind_ok.1 h
  obtain ⟨hid, rfl⟩ := Tx.lift_ok.1 hl
  obtain ⟨text, _, hl, h⟩ := Tx.bind_ok.1 h
  obtain ⟨-, rfl⟩ := Tx.lift_ok.1 hl
  obtain ⟨_, _, hread, h⟩ := Tx.bind_ok.1 h
  obtain ⟨rfl, rfl⟩ := read_ok.1 hread
  split at h
  · obtain ⟨-, rfl⟩ := Tx.lift_ok.1 h
    exact .inl rfl
  obtain ⟨d, t, hrev, h⟩ := Tx.bind_ok.1 h
  have hstill : Still s t := Tx.keeps_ok hrev
  rcases review_cases hrev with ⟨r', rfl, -⟩ | ⟨g, rfl, hg⟩
  · obtain ⟨-, rfl⟩ := Tx.pure_ok.1 h
    exact .inl hstill.db
  have hgid : required req "request_id" = .ok g.id := by rw [hid, hg.id]
  have hrecord : ∀ {u : St}, recordExecution E g req u = .ok r s' → False := fun h => hr (recordExecution_ok h).1
  dsimp only at h
  split at h
  · obtain ⟨r', u, hgate, h⟩ := Tx.bind_ok.1 h
    have hasks := approvalGate_asks hgate
    split at h
    · obtain ⟨-, rfl⟩ := Tx.pure_ok.1 h
      rw [hstill.db] at hasks
      exact hasks.imp_right fun ha => ⟨g, hgid, ha⟩
    · exact (hrecord h).elim
  · obtain ⟨r', u, hp, h⟩ := Tx.bind_ok.1 h
    obtain ⟨rfl, rfl⟩ := Tx.pure_ok.1 hp
    exact (hrecord h).elim

/-! ## `handle` -/

/-- A change to a record other than a channel comes with an event. -/
def Audited (db db' : Db) : Prop :=
  (∃ kind id, kind ≠ .channel ∧ db'.get kind id ≠ db.get kind id) → ∃ e new, db'.events = db.events ++ e :: new

theorem Logged.audited_db {s s' : St} (h : Logged E s s') : Audited s.db s'.db := by
  rintro ⟨kind, id, hkind, hne⟩
  obtain ⟨new, hnew⟩ := h.grows
  cases new with
  | nil => exact absurd (h.audited (by rw [← hnew, List.append_nil]) kind id hkind) hne
  | cons e new => exact ⟨e, new, hnew.symm⟩

/-- What a request that `handle` refuses before the dispatch leaves in the store. -/
theorem enter_refuses {s s' : St} {r : J} :
    (enter E enforce req s = .ok (.reply r) s' → Refuses r → s'.db = s.db) ∧
    (∀ request, enter E enforce req s = .ok (.refused request r) s' → s'.db = s.db ∨
      ∃ g, required request "request_id" = .ok g.id ∧ AsksOwner g s.db s'.db) := by
  constructor
  · intro h hr
    cases enter_cases h with
    | answered _ hs => exact hs.db
    | controlled hs hc => exact (Declines.out _ _ _ hc hr).db.trans hs.db
  · intro request h
    cases enter_cases h with
    | refused _ hs hb hne =>
      rcases begin_refuses hb hne with hdb | ⟨g, hg, hasks⟩
      · exact .inl (hdb.trans hs.db)
      · exact .inr ⟨g, hg, by rwa [hs.db] at hasks⟩

/-- **Refusals leave no trace, changes are audited.** In every state, reachable or not: a request that
throws in `control` or `begin`, or is refused by one of them, leaves records and events as they
were, except that `begin` may ask for an approval; and whatever the transactions of `control`,
`begin`, `finish` and the recovery pass commit to records other than channels comes with an event. -/
theorem refusals_traceless_changes_audited (E : Env) (s : Sys) :
    (∀ req e t, enter E s.enforce req s.st = .error e t → t.db = s.st.db) ∧
    (∀ req r t, transaction (control E s.enforce req) s.st = .ok r t → Refuses r → t.db = s.st.db) ∧
    (∀ req r t, enter E s.enforce req s.st = .ok (.reply r) t → Refuses r → t.db = s.st.db) ∧
    (∀ req request r t, enter E s.enforce req s.st = .ok (.refused request r) t → t.db = s.st.db ∨
      ∃ g, required request "request_id" = .ok g.id ∧ AsksOwner g s.st.db t.db) ∧
    (∀ req r t, transaction (control E s.enforce req) s.st = .ok r t → Audited s.st.db t.db) ∧
    (∀ req r t, transaction (begin E s.enforce req) s.st = .ok r t → Audited s.st.db t.db) ∧
    (∀ id result u t, transaction (finish E id result) s.st = .ok u t → Audited s.st.db t.db) ∧
    (∀ u t, startup E s.st = .ok u t → Audited s.st.db t.db) ∧
    ∀ l t, Step E s l t → Audited s.st.db t.st.db := by
  have haudited : ∀ {α : Type} (x : M α) [hx : Tx.Yields (Logged E) x] a t, x s.st = .ok a t → Audited s.st.db t.db :=
    fun x hx a t hs => (hx.out _ a t hs).audited_db
  refine ⟨fun req e t h => (enter_error h).db, fun req r t h hr => ?_, fun req r t => enter_refuses.1,
    fun req request r t => enter_refuses.2 request, fun req => haudited _, fun req => haudited _,
    fun id result => haudited _, haudited _, fun l t hstep => hstep.logged.audited_db⟩
  exact (Declines.out _ _ _ (Tx.transaction_ok.1 h) hr).db

/-- A lease whose resource is no text. -/
def untypedLease : J := .object [("op", .str "lease.acquire"), ("resource", .int 5)]

/-- The lease throws; the submission, which the owner has not seen yet, asks for an approval. -/
theorem refusals_traceless_changes_audited_sample :
    (∃ e t, enter sampleEnv true untypedLease Sys.init.st = .error e t ∧
        t.db = Db.empty) ∧
      ∃ r t g, enter sampleEnv true sampleParent Sys.init.st = .ok (.refused sampleParent r) t ∧ Refuses r ∧
        AsksOwner g Db.empty t.db := by
  obtain ⟨hthrow, -, -, hrefused, -⟩ := refusals_traceless_changes_audited sampleEnv { Sys.init with enforce := true }
  refine ⟨⟨_, _, rfl, hthrow untypedLease _ _ rfl⟩, ?_⟩
  rcases hrefused sampleParent sampleParent _ _ rfl with hdb | ⟨g, -, hasks⟩
  · exact absurd (congrArg (fun db : Db => db.events.length) hdb) (by decide)
  · exact ⟨_, _, g, rfl, rfl, hasks⟩

end A2ad.Control
