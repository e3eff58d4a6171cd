/-
The audit log as a journal of the store: replaying its events gives back what they cover of every
record, in every reachable state. So the head `audit.verify` answers with determines these fields:
two daemons whose logs verify with one head agree on them.
-/
import A2ad.Control.Audit
import A2ad.Control.Effects
import A2ad.Control.Paging
import A2ad.Lib.Journal

namespace A2ad.Control

open Bytes Json Journal

/-! ## What events say about records -/

/-- The fields of a record that the log covers. -/
def journalled : Kind → List Str
  | .execution => ["id", "agent", "session_id", "request_sha256", "effects", "identity_chain", "state"]
  | .approval => ["id", "effects", "agent", "state", "expires_at"]
  | .continuation => ["id", "task_id", "kind", "state"]
  | .session => ["id"]
  | .lease => ["resource", "owner", "fence"]
  | .provenance => ["agent", "sha256"]
  | .health => []
  | .channel => []

/-- A field of a record. -/
abbrev Cell := Kind × Str × Str

/-- What the events of a type say: about which record, named by the field `key`; the fields of the
record that stand in fields of the event; and the state they leave it in, when their type says so. -/
structure Note where
  kind : Kind
  key : Str
  copied : List (Str × Str)
  state : Option Str

/-- The events of the control plane about its records. A renewal or a release of a lease says nothing
about its owner and its fence. -/
def noteOf (type : Str) : Option Note :=
  if type = "execution.started" then some ⟨.execution, "execution_id", [("id", "execution_id"), ("agent", "agent"),
    ("session_id", "session_id"), ("request_sha256", "request_sha256"), ("effects", "effects"),
    ("identity_chain", "identity_chain")], some "DISPATCHING"⟩
  else if type = "execution.uncertain" then some ⟨.execution, "execution_id", [], some "UNCERTAIN"⟩
  else if type = "execution.finished" then some ⟨.execution, "execution_id", [("state", "state")], none⟩
  else if type = "approval.required" then
    some ⟨.approval, "request_id", [("id", "request_id"), ("effects", "effects"), ("agent", "agent")], some "PENDING"⟩
  else if type = "approval.decided" then
    some ⟨.approval, "request_id", [("state", "state"), ("expires_at", "expires_at")], none⟩
  else if type = "approval.revoke" then some ⟨.approval, "request_id", [], some "REVOKED"⟩
  else if type = "continuation.required" then
    some ⟨.continuation, "continuation_id", [("id", "continuation_id"), ("task_id", "task_id"), ("kind", "kind")], some "PENDING"⟩
  else if type = "continuation.delivered" then
    some ⟨.continuation, "continuation_id", [], some "DELIVERED"⟩
  else if type = "session.created" then some ⟨.session, "session_id", [("id", "session_id")], none⟩
  else if type = "lease.acquire" then
    some ⟨.lease, "resource", [("resource", "resource"), ("owner", "owner"), ("fence", "fence")], none⟩
  else if type = "provenance.record" then some ⟨.provenance, "agent", [("agent", "agent"), ("sha256", "sha256")], none⟩
  else none

/-- The fields of the record with the values the event gives them. -/
def Note.fields (n : Note) (event : J) : List (Str × J) :=
  n.copied.map (fun p => (p.1, (event.get? p.2).getD .null)) ++ n.state.toList.map fun st => (lit "state", .str st)

def cell (kind : Kind) (id f : Str) : Cell := (kind, id, f)

/-- What an event says about the fields of records. -/
def posts (event : J) : List (Cell × J) :=
  match event.get? "type" with
  | some (.str type) =>
    match noteOf type with
    | some n =>
      match event.get? n.key with
      | some (.str id) => place (cell n.kind id) (n.fields event)
      | _ => []
    | none => []
  | _ => []

/-- All a log says, in order. -/
def postsOf (events : List Event) : List (Cell × J) := events.flatMap fun e => posts e.value

/-- The journalled fields of a store. -/
def ledger (db : Db) : Cell → Option J := fun c => if c.2.2 ∈ journalled c.1 then (db.get c.1 c.2.1).get? c.2.2 else none

theorem cell_injective (kind : Kind) (id : Str) : Function.Injective (cell kind id) := by
  intro f f' h
  exact congrArg (·.2.2) h

theorem ledger_cell {db : Db} {kind : Kind} {id f : Str} (hf : f ∈ journalled kind) :
    ledger db (cell kind id f) = (db.get kind id).get? f := if_pos hf

theorem ledger_other {db : Db} {kind : Kind} {id f : Str} (hf : f ∉ journalled kind) : ledger db (cell kind id f) = none :=
  if_neg hf

theorem ledger_congr {db db' : Db} (h : ∀ kind id, journalled kind ≠ [] → db'.get kind id = db.get kind id) :
    ledger db' = ledger db := by
  funext c
  unfold ledger
  split
  · rename_i hf
    rw [h _ _ (List.ne_nil_of_mem hf)]
  · rfl

/-! ## Posted changes -/

/-- The log has grown by events that say what has changed in the journalled fields. -/
def Posted (s s' : St) : Prop :=
  ∃ es, s'.db.events = s.db.events ++ es ∧ ledger s'.db = play (ledger s.db) (postsOf es)

theorem posted_refl (s : St) : Posted s s := ⟨[], by simp, rfl⟩

theorem Posted.trans {a b c : St} (h : Posted a b) (h' : Posted b c) : Posted a c := by
  obtain ⟨es, he, hl⟩ := h
  obtain ⟨es', he', hl'⟩ := h'
  refine ⟨es ++ es', by rw [he', he, List.append_assoc], ?_⟩
  rw [hl', hl, ← play_append, postsOf, postsOf, postsOf, List.flatMap_append]

theorem Still.posted {s s' : St} (h : Still s s') : Posted s s' := by
  refine ⟨[], ?_, ?_⟩
  · rw [h.db, List.append_nil]
  · rw [h.db]
    rfl

/-- A record written on its own. -/
theorem ledger_put {db : Db} {kind : Kind} {id : Str} {v : J} {y : List (Str × J)}
    (hfs : ∀ p ∈ y, p.1 ∈ journalled kind)
    (hv : ∀ f ∈ journalled kind, v.get? f = play (fun f => (db.get kind id).get? f) y f) :
    ledger (db.put kind id v) = play (ledger db) (place (cell kind id) y) := by
  funext c
  by_cases hc : ∃ f, cell kind id f = c
  · obtain ⟨f, rfl⟩ := hc
    rw [play_place (cell_injective kind id)]
    by_cases hf : f ∈ journalled kind
    · rw [ledger_cell hf, Db.get_put_self, hv f hf]
      refine play_congr (.inr ?_)
      exact (ledger_cell hf).symm
    · have hno : ∀ p ∈ y, p.1 ≠ f := fun p hp hpf => hf (hpf ▸ hfs p hp)
      rw [play_of_notMem hno, ledger_other hf, ledger_other hf]
  · rw [play_place_of_ne _ fun f hf => hc ⟨f, hf⟩]
    unfold ledger
    rw [Db.get_put_ne]
    intro he
    obtain ⟨k, i, f⟩ := c
    cases he
    exact hc ⟨f, rfl⟩

theorem ledger_of_records {db db' : Db} (h : db'.records = db.records) : ledger db' = ledger db :=
  ledger_congr fun _ _ _ => get_of_records h ..

variable {E : Env}

/-- A record written together with the event that says so. -/
theorem posted_write_append {kind : Kind} {id : Str} {v e : J} {y : List (Str × J)} {u u' : Unit} {s t s' : St}
    (hw : write kind id v s = .ok u t) (ha : append E e t = .ok u' s') (he : posts e = place (cell kind id) y)
    (hfs : ∀ p ∈ y, p.1 ∈ journalled kind)
    (hv : ∀ f ∈ journalled kind, v.get? f = play (fun f => (s.db.get kind id).get? f) y f) : Posted s s' := by
  obtain ⟨-, rfl⟩ := write_ok.1 hw
  obtain ⟨hevents, -⟩ := append_events ha
  obtain ⟨-, -, -, hrec⟩ := append_ok ha
  refine ⟨_, hevents, ?_⟩
  rw [ledger_of_records hrec, ledger_put hfs hv, postsOf, List.flatMap_singleton, ← he]
  rfl

/-! ## The operations -/

variable {req r : J} {s s' : St}

/-- Most operations end so. -/
theorem posted_ending {kind : Kind} {id : Str} {v e x : J} {y : List (Str × J)}
    (h : (do
      write kind id v
      append E e
      return x : M J) s = .ok r s') (he : posts e = place (cell kind id) y) (hfs : ∀ p ∈ y, p.1 ∈ journalled kind)
    (hv : ∀ f ∈ journalled kind, v.get? f = play (fun f => (s.db.get kind id).get? f) y f) : Posted s s' := by
  obtain ⟨_, _, hw, h⟩ := Tx.bind_ok.1 h
  obtain ⟨_, _, ha, h⟩ := Tx.bind_ok.1 h
  obtain ⟨-, rfl⟩ := Tx.pure_ok.1 h
  exact posted_write_append hw ha he hfs hv

theorem posted_of_pure {x : J} (h : (pure x : M J) s = .ok r s') : Posted s s' := by
  obtain ⟨-, rfl⟩ := Tx.pure_ok.1 h
  exact posted_refl _

theorem sessionCreate_posted (h : sessionCreate E req s = .ok r s') : Posted s s' := by
  unfold sessionCreate at h
  obtain ⟨id, t, hst, h⟩ : ∃ id t, Still s t ∧ (do
      if !(← read .session id).isNull then return failure "conflict" "session already exists"
      let created ← now E
      let session := J.object [("id", .str id), ("created_at", .int created), ("label", .str (← req.valueStr "label" ""))]
      write .session id session
      append E (.object [("type", .str "session.created"), ("session_id", .str id)])
      return .object [("ok", .bool true), ("session", session)] : M J) t = .ok r s' := by
    rcases Tx.ite_ok h with ⟨-, h⟩ | ⟨-, h⟩
    · obtain ⟨id, -, h⟩ := Tx.lift_bind_ok h
      exact ⟨id, s, refl s, h⟩
    · obtain ⟨id, t, hid, h⟩ := Tx.bind_ok.1 h
      exact ⟨id, t, Tx.keeps_ok hid, h⟩
  refine hst.posted.trans ?_
  obtain ⟨_, _, hr, h⟩ := Tx.bind_ok.1 h
  obtain ⟨rfl, rfl⟩ := read_ok.1 hr
  rcases Tx.ite_ok h with ⟨-, h⟩ | ⟨-, h⟩
  · exact posted_of_pure h
  obtain ⟨created, _, hn, h⟩ := Tx.bind_ok.1 h
  obtain ⟨-, rfl⟩ := now_ok.1 hn
  obtain ⟨label, -, h⟩ := Tx.lift_bind_ok h
  refine posted_ending (s := { t with tick := t.tick + 1 }) h (y := [("id", .str id)]) ?_ ?_ ?_
  · simp [posts, noteOf, Note.fields, place]
  · simp [journalled]
  · simp [journalled]

theorem continuationCreate_posted (h : continuationCreate E req s = .ok r s') : Posted s s' := by
  unfold continuationCreate at h
  obtain ⟨task, -, h⟩ := Tx.lift_bind_ok h
  obtain ⟨kind, -, h⟩ := Tx.lift_bind_ok h
  rcases Tx.ite_ok h with ⟨-, h⟩ | ⟨-, h⟩
  · exact posted_of_pure h
  obtain ⟨id, _, hn, h⟩ := Tx.bind_ok.1 h
  obtain ⟨-, rfl⟩ := newId_ok.1 hn
  obtain ⟨reason, -, h⟩ := Tx.lift_bind_ok h
  obtain ⟨created, _, hn, h⟩ := Tx.bind_ok.1 h
  obtain ⟨-, rfl⟩ := now_ok.1 hn
  refine posted_ending (s := { s with nonce := s.nonce + 1, tick := s.tick + 1 }) h
    (y := [("id", .str id), ("task_id", .str task), ("kind", .str kind), ("state", .str "PENDING")]) ?_ ?_ ?_
  · simp [posts, noteOf, Note.fields, place]
  · simp [journalled]
  · simp [journalled]

theorem posts_of_type {e : J} {q : Str} (h : e.get? "type" = some (.str q)) (hnote : noteOf q = none) : posts e = [] := by
  simp [posts, h, hnote]

theorem leaseTake_object {resource owner : Str} {lease x : J} {ttl : Int} (h : leaseTake E resource owner lease ttl s = .ok x s')
    (hx : ¬ x.isNull = true) : ∃ fence token expires, x = .object [("resource", .str resource), ("owner", .str owner),
      ("token", .str token), ("fence", .int fence), ("expires_at", .int expires)] := by
  unfold leaseTake at h
  -- the lease that is drawn, from whatever state the check for a live one ends in
  have hdrawn : ∀ {t : St}, (do
      let fence ← leaseFence lease
      let token ← newId E
      return .object [("resource", .str resource), ("owner", .str owner), ("token", .str token), ("fence", .int fence),
        ("expires_at", .int ((← now E) + ttl))] : M J) t = .ok x s' → ∃ fence token expires, x = .object
      [("resource", .str resource), ("owner", .str owner), ("token", .str token), ("fence", .int fence),
        ("expires_at", .int expires)] := by
    intro t h
    obtain ⟨fence, -, h⟩ := Tx.lift_bind_ok h
    obtain ⟨token, _, -, h⟩ := Tx.bind_ok.1 h
    obtain ⟨time, _, -, h⟩ := Tx.bind_ok.1 h
    obtain ⟨rfl, -⟩ := Tx.pure_ok.1 h
    exact ⟨fence, token, time + ttl, rfl⟩
  rcases Tx.ite_ok h with ⟨-, h⟩ | ⟨-, h⟩
  · obtain ⟨live, t, -, h⟩ := Tx.bind_ok.1 h
    rcases Tx.ite_ok h with ⟨-, h⟩ | ⟨-, h⟩
    · obtain ⟨rfl, -⟩ := Tx.pure_ok.1 h
      exact absurd rfl hx
    · exact hdrawn h
  · exact hdrawn h

/-- A new lease says whose it is; a renewal or a release leaves that as it was. -/
theorem leaseOp_posted {op : Str} (hop : op = "lease.acquire" ∨ op = "lease.renew" ∨ op = "lease.release")
    (h : leaseOp E op req s = .ok r s') : Posted s s' := by
  unfold leaseOp at h
  obtain ⟨resource, -, h⟩ := Tx.lift_bind_ok h
  obtain ⟨owner, -, h⟩ := Tx.lift_bind_ok h
  obtain ⟨_, _, hr, h⟩ := Tx.bind_ok.1 h
  obtain ⟨rfl, rfl⟩ := read_ok.1 hr
  obtain ⟨ttl, -, h⟩ := Tx.lift_bind_ok h
  rcases Tx.ite_ok h with ⟨-, h⟩ | ⟨-, h⟩
  · exact posted_of_pure h
  -- the fence of the record is read between the record and its event
  have hwrite : ∀ {lease : J} {u : St} {y : List (Str × J)}, Still s u → (do
      write .lease resource lease
      append E (.object [("type", .str op), ("resource", .str resource), ("owner", .str owner), ("fence", ← lease.index "fence")])
      return .object [("ok", .bool true), ("lease", lease)] : M J) u = .ok r s' →
      (∀ fence, lease.index "fence" = .ok fence → posts (.object [("type", .str op), ("resource", .str resource),
        ("owner", .str owner), ("fence", fence)]) = place (cell .lease resource) y) →
      (∀ p ∈ y, p.1 ∈ journalled .lease) →
      (∀ f ∈ journalled .lease, lease.get? f = play (fun f => (s.db.get .lease resource).get? f) y f) →
      Posted s s' := by
    intro lease u y hu h he hfs hv
    obtain ⟨_, _, hw, h⟩ := Tx.bind_ok.1 h
    obtain ⟨fence, hfence, h⟩ := Tx.lift_bind_ok h
    obtain ⟨_, _, ha, h⟩ := Tx.bind_ok.1 h
    obtain ⟨-, rfl⟩ := Tx.pure_ok.1 h
    refine hu.posted.trans (posted_write_append hw ha (he fence hfence) hfs ?_)
    rw [hu.db]
    exact hv
  -- a lease that is taken is posted whole, a renewal or a release posts nothing
  rcases Tx.ite_ok h with ⟨rfl, h⟩ | ⟨hne, h⟩
  · obtain ⟨lease, u, hl, h⟩ := Tx.bind_ok.1 h
    have hu : Still s u := Tx.keeps_ok hl
    rcases Tx.ite_ok h with ⟨-, h⟩ | ⟨hnew, h⟩
    · exact hu.posted.trans (posted_of_pure h)
    obtain ⟨fence, token, expires, rfl⟩ : ∃ fence token expires, lease = .object [("resource", .str resource),
        ("owner", .str owner), ("token", .str token), ("fence", .int fence), ("expires_at", .int expires)] :=
      leaseTake_object hl hnew
    refine hwrite hu h (y := [("resource", .str resource), ("owner", .str owner), ("fence", .int fence)]) ?_ ?_ ?_
    · intro fence' hfence
      obtain rfl : fence' = .int fence := by
        have := (J.index_ok.1 hfence).2
        simpa using this.symm
      simp [posts, noteOf, Note.fields, place]
    · simp [journalled]
    · simp [journalled]
  · obtain ⟨b, u, hl, h⟩ := Tx.bind_ok.1 h
    have hu : Still s u := Tx.keeps_ok hl
    rcases Tx.ite_ok h with ⟨-, h⟩ | ⟨hb, h⟩
    · exact hu.posted.trans (posted_of_pure h)
    obtain ⟨t, _, hn, h⟩ := Tx.bind_ok.1 h
    obtain ⟨-, rfl⟩ := now_ok.1 hn
    obtain ⟨lease, hlease, h⟩ := Tx.lift_bind_ok h
    refine @hwrite lease { u with tick := u.tick + 1 } []
      (hu.trans ⟨rfl, Nat.le_succ _, le_refl _⟩) h ?_ (by simp) ?_
    · intro fence _
      refine posts_of_type (q := op) (by simp) ?_
      rcases hop with rfl | rfl | rfl
      · exact absurd rfl hne
      · decide
      · decide
    · intro f hf
      rw [(J.get?_assign hlease f).2, if_neg]
      · rfl
      · rintro rfl
        simp [journalled] at hf

theorem approvalRevoke_posted (h : approvalRevoke E req s = .ok r s') : Posted s s' := by
  unfold approvalRevoke at h
  obtain ⟨id, -, h⟩ := Tx.lift_bind_ok h
  obtain ⟨_, _, hr, h⟩ := Tx.bind_ok.1 h
  obtain ⟨rfl, rfl⟩ := read_ok.1 hr
  rcases Tx.ite_ok h with ⟨-, h⟩ | ⟨-, h⟩
  · exact posted_of_pure h
  obtain ⟨a, ha, h⟩ := Tx.lift_bind_ok h
  refine posted_ending h (y := [("state", .str "REVOKED")]) ?_ ?_ ?_
  · simp [posts, noteOf, Note.fields, place]
  · simp [journalled]
  · simp [journalled, (J.get?_assign ha _).2]

theorem approvalDecide_posted (h : approvalDecide E req s = .ok r s') : Posted s s' := by
  unfold approvalDecide at h
  obtain ⟨id, -, h⟩ := Tx.lift_bind_ok h
  obtain ⟨_, _, hr, h⟩ := Tx.bind_ok.1 h
  obtain ⟨rfl, rfl⟩ := read_ok.1 hr
  rcases Tx.ite_ok h with ⟨-, h⟩ | ⟨-, h⟩
  · exact posted_of_pure h
  obtain ⟨st, -, h⟩ := Tx.lift_bind_ok h
  rcases Tx.ite_ok h with ⟨-, h⟩ | ⟨-, h⟩
  · exact posted_of_pure h
  rcases Tx.ite_ok h with ⟨-, h⟩ | ⟨-, h⟩
  · exact posted_of_pure h
  obtain ⟨allow, -, h⟩ := Tx.lift_bind_ok h
  obtain ⟨a, ha, h⟩ := Tx.lift_bind_ok h
  obtain ⟨ttl, -, h⟩ := Tx.lift_bind_ok h
  rcases Tx.ite_ok h with ⟨-, h⟩ | ⟨-, h⟩
  · exact posted_of_pure h
  obtain ⟨time, _, hn, h⟩ := Tx.bind_ok.1 h
  obtain ⟨-, rfl⟩ := now_ok.1 hn
  obtain ⟨b, hb, h⟩ := Tx.lift_bind_ok h
  obtain ⟨reason, -, h⟩ := Tx.lift_bind_ok h
  obtain ⟨c, hc, h⟩ := Tx.lift_bind_ok h
  refine posted_ending (s := { s with tick := s.tick + 1 }) h
    (y := [("state", .str (if allow then "APPROVED" else "DENIED")), ("expires_at", .int (time + ttl))]) ?_ ?_ ?_
  · simp [posts, noteOf, Note.fields, place]
  · simp [journalled]
  · simp [journalled, (J.get?_assign ha _).2, (J.get?_assign hb _).2, (J.get?_assign hc _).2]

theorem provenanceRecord_posted (h : provenanceRecord E req s = .ok r s') : Posted s s' := by
  unfold provenanceRecord at h
  obtain ⟨agent, -, h⟩ := Tx.lift_bind_ok h
  obtain ⟨sha, -, h⟩ := Tx.lift_bind_ok h
  rcases Tx.ite_ok h with ⟨-, h⟩ | ⟨-, h⟩
  · exact posted_of_pure h
  obtain ⟨source, -, h⟩ := Tx.lift_bind_ok h
  obtain ⟨version, -, h⟩ := Tx.lift_bind_ok h
  obtain ⟨sbom, -, h⟩ := Tx.lift_bind_ok h
  obtain ⟨time, _, hn, h⟩ := Tx.bind_ok.1 h
  obtain ⟨-, rfl⟩ := now_ok.1 hn
  refine posted_ending (s := { s with tick := s.tick + 1 }) h (y := [("agent", .str agent), ("sha256", .str sha)]) ?_ ?_ ?_
  · simp [posts, noteOf, Note.fields, place]
  · simp [journalled]
  · simp [journalled]

theorem agentOp_posted {op : Str} (hop : op = "agent.health" ∨ op = "agent.quarantine" ∨ op = "agent.release")
    (h : agentOp E op req s = .ok r s') : Posted s s' := by
  unfold agentOp at h
  obtain ⟨agent, -, h⟩ := Tx.lift_bind_ok h
  obtain ⟨_, _, hl, h⟩ := Tx.bind_ok.1 h
  have hu : Still s _ := Tx.keeps_ok hl
  refine hu.posted.trans ?_
  have hsilent : noteOf op = none := by
    rcases hop with rfl | rfl | rfl <;> decide
  rcases Tx.ite_ok h with ⟨hne, h⟩ | ⟨-, h⟩
  swap
  · exact posted_of_pure h
  obtain ⟨h₁, -, h⟩ := Tx.lift_bind_ok h
  obtain ⟨reason, -, h⟩ := Tx.lift_bind_ok h
  obtain ⟨h₂, -, h⟩ := Tx.lift_bind_ok h
  have hnote : posts (.object [("type", .str op), ("agent", .str agent), ("reason", .str reason)]) = [] :=
    posts_of_type (q := op) (by simp) hsilent
  rcases Tx.ite_ok h with ⟨-, h⟩ | ⟨-, h⟩
  · obtain ⟨h₃, -, h⟩ := Tx.lift_bind_ok h
    exact posted_ending h (y := []) hnote (by simp) (by simp [journalled])
  · exact posted_ending h (y := []) hnote (by simp) (by simp [journalled])

/-- A program whose runs all change what they say they change. -/
abbrev Posts {α : Type} (x : M α) : Prop := Tx.Yields Posted x

instance : IsPreorder St Posted where
  refl := posted_refl
  trans _ _ _ h h' := h.trans h'

instance (priority := low) {α : Type} {x : M α} [hx : Quiet x] : Posts x := Tx.yields_mono (fun _ _ h => h.posted) hx.yields

/-- Channels are not journalled, nor is the health of agents. -/
instance (id : Str) (v : J) : Posts (write .channel id v) := by
  refine ⟨fun s _ t h => ?_⟩
  obtain ⟨-, rfl⟩ := write_ok.1 h
  exact ⟨[], by simp, ledger_put (y := []) (by simp) (by simp [journalled])⟩

instance (id : Str) (v : J) : Posts (write .health id v) := by
  refine ⟨fun s _ t h => ?_⟩
  obtain ⟨-, rfl⟩ := write_ok.1 h
  exact ⟨[], by simp, ledger_put (y := []) (by simp) (by simp [journalled])⟩

instance : Posts (channelOpen req) := by
  unfold channelOpen
  infer_instance

set_option synthInstance.maxSize 4000

instance {op : Str} : Posts (eventsRead op req) := by
  unfold eventsRead
  infer_instance

instance : Posts (channelAck req) := by
  unfold channelAck
  infer_instance

instance {agent error : Str} {result : J} : Posts (recordHealth agent error result) := by
  unfold recordHealth
  infer_instance

theorem Controlled.posted {K : List Kind} (h : Controlled E req s K r s') : Posted s s' := by
  cases h with
  | query h => exact h.posted
  | continuation _ h => exact continuationCreate_posted h
  | session _ h => exact sessionCreate_posted h
  | lease hop _ h => exact leaseOp_posted hop h
  | revoke _ h => exact approvalRevoke_posted h
  | decide _ h => exact approvalDecide_posted h
  | agent hop _ h => exact agentOp_posted hop h
  | provenance _ h => exact provenanceRecord_posted h
  | channelOpen _ h => exact Tx.Yields.out _ _ _ h
  | eventsRead _ _ h => exact Tx.Yields.out _ _ _ h
  | channelAck _ h => exact Tx.Yields.out _ _ _ h

/-! ## Admissions, outcomes, restarts -/

theorem requestApproval_posted {g : Grant} (h : requestApproval E g req s = .ok r s') : Posted s s' := by
  unfold requestApproval at h
  obtain ⟨_, _, hr, h⟩ := Tx.bind_ok.1 h
  obtain ⟨rfl, rfl⟩ := read_ok.1 hr
  rcases Tx.ite_ok h with ⟨-, h⟩ | ⟨hnull, h⟩
  · exact posted_of_pure h
  have hold : s.db.get .approval g.id = .null := null_of_not hnull
  obtain ⟨time, _, hn, h⟩ := Tx.bind_ok.1 h
  obtain ⟨-, rfl⟩ := now_ok.1 hn
  obtain ⟨task, -, h⟩ := Tx.lift_bind_ok h
  refine posted_ending (s := { s with tick := s.tick + 1 }) h
    (y := [("id", .str g.id), ("effects", setJson g.effects), ("agent", .str g.agent), ("state", .str "PENDING")]) ?_ ?_ ?_
  · simp [posts, noteOf, Note.fields, place]
  · simp [journalled]
  · simp [journalled, Grant.approval, hold]

instance {g : Grant} : Posts (requestApproval E g req) := ⟨fun _ _ _ h => requestApproval_posted h⟩

instance {g : Grant} : Posts (approvalGate E g req) := by
  unfold approvalGate
  infer_instance

theorem recordExecution_posted {g : Grant} (h : recordExecution E g req s = .ok r s') : Posted s s' := by
  unfold recordExecution at h
  obtain ⟨started, _, hn, h⟩ := Tx.bind_ok.1 h
  obtain ⟨-, rfl⟩ := now_ok.1 hn
  obtain ⟨deadline, _, hn, h⟩ := Tx.bind_ok.1 h
  obtain ⟨-, rfl⟩ := now_ok.1 hn
  obtain ⟨task, -, h⟩ := Tx.lift_bind_ok h
  refine posted_ending (s := { s with tick := s.tick + 1 + 1 }) h
    (y := [("id", .str g.id), ("agent", .str g.agent), ("session_id", .str g.sessionId), ("request_sha256", .str g.hash),
      ("effects", setJson g.effects), ("identity_chain", g.chain), ("state", .str "DISPATCHING")]) ?_ ?_ ?_
  · simp [posts, noteOf, Note.fields, place]
  · simp [journalled]
  · simp [journalled, Grant.execution]

instance {g : Grant} : Posts (recordExecution E g req) := ⟨fun _ _ _ h => recordExecution_posted h⟩

instance {enforce : Bool} : Posts (begin E enforce req) := by
  unfold begin
  repeat' first | infer_instance | refine Tx.yields_bind (k := fun _ => ?_) | split

theorem deliverContinuation_posted {c id : Str} {u : Unit} (h : deliverContinuation E c id s = .ok u s') : Posted s s' := by
  unfold deliverContinuation at h
  obtain ⟨_, _, hr, h⟩ := Tx.bind_ok.1 h
  obtain ⟨rfl, rfl⟩ := read_ok.1 hr
  obtain ⟨c₁, h₁, h⟩ := Tx.lift_bind_ok h
  obtain ⟨c₂, h₂, h⟩ := Tx.lift_bind_ok h
  obtain ⟨_, _, hw, ha⟩ := Tx.bind_ok.1 h
  refine posted_write_append hw ha (y := [("state", .str "DELIVERED")]) ?_ ?_ ?_
  · simp [posts, noteOf, Note.fields, place]
  · simp [journalled]
  · simp [journalled, (J.get?_assign h₁ _).2, (J.get?_assign h₂ _).2]

instance {c id : Str} : Posts (deliverContinuation E c id) := ⟨fun _ _ _ h => deliverContinuation_posted h⟩

/-- The record is written first and its event comes last, past what the continuation is told. -/
theorem finish_posted {id : Str} {result : J} {u : Unit} (h : finish E id result s = .ok u s') : Posted s s' := by
  unfold finish at h
  obtain ⟨_, _, hr, h⟩ := Tx.bind_ok.1 h
  obtain ⟨rfl, rfl⟩ := read_ok.1 hr
  obtain ⟨error, -, h⟩ := Tx.lift_bind_ok h
  obtain ⟨state, -, h⟩ := Tx.lift_bind_ok h
  obtain ⟨time, _, hn, h⟩ := Tx.bind_ok.1 h
  obtain ⟨-, rfl⟩ := now_ok.1 hn
  obtain ⟨e, he, h⟩ := Tx.lift_bind_ok h
  obtain ⟨-, hkept, hstate, -⟩ := finished_ok he
  obtain ⟨_, t, hw, h⟩ := Tx.bind_ok.1 h
  obtain ⟨-, rfl⟩ := write_ok.1 hw
  obtain ⟨continuation, -, h⟩ := Tx.lift_bind_ok h
  have hput : ledger (s.db.put .execution id e) = play (ledger s.db) (place (cell .execution id) [("state", .str state)]) := by
    refine ledger_put (by simp [journalled]) fun f hf => ?_
    by_cases hf' : f = "state"
    · subst hf'
      simp [hstate]
    · rw [hkept f, play_of_notMem (by simpa using Ne.symm hf')]
      simp only [journalled, List.mem_cons, List.not_mem_nil, or_false] at hf
      rcases hf with rfl | rfl | rfl | rfl | rfl | rfl | rfl
      all_goals first | decide | exact absurd rfl hf'
  -- the event, from whatever the continuation and the health record left
  have hevent : ∀ {w : St}, Posted { s with tick := s.tick + 1, db := s.db.put .execution id e } w →
      w.db.get .execution id = e → (do
        append E (.object [("type", .str "execution.finished"), ("execution_id", .str id), ("state", .str state),
          ("task_id", ← e.index "task_id")]) : M Unit) w = .ok u s' → Posted s s' := by
    rintro w ⟨es, hevents, hledger⟩ hrecord h
    obtain ⟨task, -, h⟩ := Tx.lift_bind_ok h
    obtain ⟨hlast, -⟩ := append_events h
    obtain ⟨-, -, -, hrec⟩ := append_ok h
    have hstands : ledger w.db (cell .execution id "state") = some (.str state) := by
      rw [ledger_cell (by simp [journalled]), hrecord, hstate]
    have hledger : ledger w.db = play (ledger s.db) (place (cell .execution id) [("state", .str state)] ++ postsOf es) := by
      rw [play_append, ← hput, hledger]
    refine ⟨es ++ [_], by rw [hlast, hevents, List.append_assoc]; rfl, ?_⟩
    have hposts : posts (.object [("type", .str "execution.finished"), ("execution_id", .str id), ("state", .str state),
        ("task_id", task)]) = place (cell .execution id) [("state", .str state)] := by
      simp [posts, noteOf, Note.fields, place]
    rw [ledger_of_records hrec, hledger, postsOf, postsOf, List.flatMap_append, List.flatMap_singleton]
    show _ = play _ (_ ++ posts (.object _))
    rw [hposts]
    rw [hledger] at hstands
    exact (play_later hstands).symm
  -- the log says nothing of the health record
  have hhealth : ∀ {w : St}, Posted { s with tick := s.tick + 1, db := s.db.put .execution id e } w →
      w.db.get .execution id = e → (do
        let agent ← e.valueStr "agent" ""
        if !agent.isEmpty then recordHealth agent error result
        append E (.object [("type", .str "execution.finished"), ("execution_id", .str id), ("state", .str state),
          ("task_id", ← e.index "task_id")]) : M Unit) w = .ok u s' → Posted s s' := by
    intro w hw hrecord h
    obtain ⟨agent, -, h⟩ := Tx.lift_bind_ok h
    rcases Tx.ite_ok h with ⟨-, h⟩ | ⟨-, h⟩
    · obtain ⟨_, x, hrec, h⟩ := Tx.bind_ok.1 h
      have hframe : Frame [.health] w x := Tx.keeps_ok hrec
      have hx : Posted w x := Tx.Yields.out _ _ _ hrec
      exact hevent (hw.trans hx) ((hframe.get _ _ (by decide)).trans hrecord) h
    · exact hevent hw hrecord h
  have hwritten : (s.db.put .execution id e).get .execution id = e := Db.get_put_self ..
  rcases Tx.ite_ok h with ⟨-, h⟩ | ⟨-, h⟩
  swap
  · exact hhealth (posted_refl _) hwritten h
  obtain ⟨ok, -, h⟩ := Tx.lift_bind_ok h
  rcases Tx.ite_ok h with ⟨-, h⟩ | ⟨-, h⟩
  · obtain ⟨_, x, hdel, h⟩ := Tx.bind_ok.1 h
    have hframe : Frame [.continuation] _ x := Tx.keeps_ok hdel
    exact hhealth (deliverContinuation_posted hdel) ((hframe.get _ _ (by decide)).trans hwritten) h
  · exact hhealth (posted_refl _) hwritten h

theorem recoverOne_posted {e : J} {u : Unit} (hcurrent : ∀ i, e.get? "id" = some (.str i) → s.db.get .execution i = e)
    (h : recoverOne E e s = .ok u s') : Posted s s' := by
  unfold recoverOne at h
  obtain ⟨st, -, h⟩ := Tx.lift_bind_ok h
  rcases Tx.ite_ok h with ⟨-, h⟩ | ⟨-, h⟩
  swap
  · obtain ⟨-, rfl⟩ := Tx.pure_ok.1 h
    exact posted_refl _
  obtain ⟨e₁, h₁, h⟩ := Tx.lift_bind_ok h
  obtain ⟨e₂, h₂, h⟩ := Tx.lift_bind_ok h
  obtain ⟨v, hv, h⟩ := Tx.lift_bind_ok h
  obtain ⟨id, hid, h⟩ := Tx.lift_bind_ok h
  obtain ⟨_, _, hw, ha⟩ := Tx.bind_ok.1 h
  obtain rfl := J.asStr_ok.1 hid
  have hget : e.get? "id" = some (.str id) := by
    have := J.field_ok.1 hv
    simpa [(J.get?_assign h₂ _).2, (J.get?_assign h₁ _).2] using this
  refine posted_write_append hw ha (y := [("state", .str "UNCERTAIN")]) ?_ ?_ ?_
  · simp [posts, noteOf, Note.fields, place]
  · simp [journalled]
  · simp [journalled, (J.get?_assign h₂ _).2, (J.get?_assign h₁ _).2, hcurrent id hget]

/-- The executions of a safe store, each with its own id. -/
theorem recover_posted {items : List J} {u : Unit}
    (hcurrent : ∀ e ∈ items, ∀ i, e.get? "id" = some (.str i) → s.db.get .execution i = e)
    (hdistinct : items.Pairwise fun e e' => ∀ i, e.get? "id" = some (.str i) → e'.get? "id" ≠ some (.str i))
    (h : recover E items s = .ok u s') : Posted s s' := by
  induction items generalizing s with
  | nil =>
    obtain ⟨-, rfl⟩ := Tx.pure_ok.1 h
    exact posted_refl _
  | cons e rest ih =>
    unfold recover at h
    obtain ⟨_, t, he, h⟩ := Tx.bind_ok.1 h
    obtain ⟨hne, hrest⟩ := List.pairwise_cons.1 hdistinct
    refine (recoverOne_posted (hcurrent e List.mem_cons_self) he).trans (ih (fun e' he' i hi => ?_) hrest h)
    have hold := hcurrent e' (List.mem_cons_of_mem _ he') i hi
    rcases recoverOne_ok he with hstill | ⟨i', hi', -, -, -, hothers⟩
    · rw [hstill.db, hold]
    · rw [hothers, hold]
      intro hsame
      cases hsame
      exact hne e' he' _ hi' hi

/-- The executions a safe store lists are current, each under an id of its own. -/
theorem Safe.listed {z : Sys} (hs : Safe z) {items : List J} {u : St} (h : list .execution z.st = .ok items u) :
    u = z.st ∧ (∀ e ∈ items, ∀ i, e.get? "id" = some (.str i) → z.exec i = e) ∧
      items.Pairwise fun e e' => ∀ i, e.get? "id" = some (.str i) → e'.get? "id" ≠ some (.str i) := by
  simp only [list, EStateM.Result.ok.injEq] at h
  obtain ⟨rfl, rfl⟩ := h
  have hrow : ∀ row ∈ z.st.db.rows .execution, z.exec row.1 = row.2 := by
    intro row hrow
    rw [Sys.exec, Db.get, Db.mem_rows.1 hrow]
    rfl
  have hkey : ∀ row ∈ z.st.db.rows .execution, ∀ i, row.2.get? "id" = some (.str i) → row.1 = i := by
    intro row hmem i hi
    rw [← hrow row hmem] at hi
    exact hs.recovered_id hi
  refine ⟨rfl, ?_, ?_⟩
  · intro e he i hi
    obtain ⟨row, hmem, rfl⟩ := List.mem_map.1 he
    rw [← hkey row hmem i hi, hrow row hmem]
  · rw [List.pairwise_map]
    refine (ascending_rows z.st.db .execution).imp_of_mem fun {a b} ha hb hlt i hi hi' => ?_
    rw [hkey a ha i hi, hkey b hb i hi'] at hlt
    exact List.lt_irrefl _ hlt

/-! ## Runs -/

/-- The event that a step logs on behalf of another part of the daemon. -/
def Label.logged : Label → Option J
  | .event v => some v
  | _ => none

variable {z t : Sys} {l : Label} {tr : List (Move Sys Label)}

theorem Safe.posted_step (hs : Safe z) (h : Step E z l t) (hl : ∀ v, l.logged = some v → posts v = []) : Posted z.st t.st := by
  have hbegin : ∀ {enforce : Bool} {request r : J} {u v : St}, Still z.st u → begin E enforce request u = .ok r v →
      Posted z.st v := by
    intro enforce request r u v hu hb
    exact hu.posted.trans (Tx.Yields.out _ _ _ hb)
  cases h with
  | enter _ h =>
    cases enter_cases h with
    | answered _ hs => exact hs.posted
    | controlled hs hc =>
      obtain ⟨K, hc⟩ := control_ops hc
      exact hs.posted.trans hc.posted
    | plain _ _ hs hc =>
      obtain ⟨K, hc⟩ := control_ops hc
      exact hs.posted.trans hc.posted
    | refused _ hs hb => exact hbegin hs hb
    | admitted _ hs hb => exact hbegin hs hb
  | enterThrows _ h => exact (enter_error h).posted
  | enterFails _ h => exact h.posted
  | start => exact posted_refl _
  | leave _ h =>
    obtain ⟨_, -, -, hfinish⟩ := leave_ok h
    exact finish_posted hfinish
  | leaveThrows _ h => exact (leave_error h).posted
  | leaveFails _ h => exact h.posted
  | event _ h =>
    replace h := Tx.transaction_ok.1 h
    obtain ⟨hevents, -⟩ := append_events h
    obtain ⟨-, -, -, hrec⟩ := append_ok h
    refine ⟨_, hevents, ?_⟩
    rw [ledger_of_records hrec, postsOf, List.flatMap_singleton, show posts (eventFor E _ _ _).value = [] from hl _ rfl]
    rfl
  | boot _ h =>
    unfold startup at h
    replace h := Tx.transaction_ok.1 h
    obtain ⟨items, u, hlist, h⟩ := Tx.bind_ok.1 h
    obtain ⟨rfl, hcurrent, hdistinct⟩ := hs.listed hlist
    exact recover_posted hcurrent hdistinct h
  | crash => exact posted_refl _

theorem posted_run (h : Run (Step E) Sys.init tr z) (hl : ∀ v ∈ tr.filterMap (·.label.logged), posts v = []) :
    Posted Sys.init.st z.st := by
  refine h.invariant_of (I := fun tr z => (∀ v ∈ tr.filterMap (·.label.logged), posts v = []) → Posted Sys.init.st z.st)
    (fun _ => posted_refl _) (fun tr s l t hr ih hstep hl => ?_) hl
  rw [List.filterMap_append, List.forall_mem_append] at hl
  refine (ih hl.1).trans ((safe_run hr).posted_step hstep fun v hv => hl.2 v ?_)
  rw [List.mem_filterMap]
  exact ⟨_, List.mem_singleton_self _, hv⟩

theorem ledger_init : ledger Sys.init.st.db = fun _ => none := by
  funext c
  unfold ledger
  split <;> rfl

theorem ledger_run (h : Run (Step E) Sys.init tr z) (hl : ∀ v ∈ tr.filterMap (·.label.logged), posts v = []) :
    ledger z.st.db = play (fun _ => none) (postsOf z.st.db.events) := by
  obtain ⟨es, hevents, hledger⟩ := posted_run h hl
  rw [hledger, ledger_init, hevents]
  rfl

/-- **The log replays to the store.** In every reachable state, what the log covers of a record is what
its last event about it says, and nothing if there is none; as long as the events of other parts of the
daemon are not about records of the control plane. -/
theorem log_replays (E : Env) {tr : List (Move Sys Label)} {s : Sys} (h : Run (Step E) Sys.init tr s)
    (hl : ∀ v ∈ tr.filterMap (·.label.logged), posts v = []) (kind : Kind) (id : Str) {f : Str} (hf : f ∈ journalled kind) :
    (s.st.db.get kind id).get? f = play (fun _ => none) (postsOf s.st.db.events) (cell kind id f) := by
  rw [← ledger_cell hf, ledger_run h hl]

def openedEvent : J := .object [("type", .str "session.created"), ("session_id", .str "s")]

def openedHash : Str := "3cc7fb4e3e69a9b9b9d4d6a2a9b1fcdd0f97ae675838a87ce575a45a9ef2c5d7"

def openedEnv : Env := { sampleEnv with digest := digestAmong [(hashedText "" (1, openedEvent.text), openedHash)] }

/-- The same clock and digest, other random ids. -/
def otherEnv : Env := { openedEnv with rand := fun _ => "x" }

def sessionRequest : J := .object [("op", .str "session.create"), ("id", .str "s")]

def openedMoves (E : Env) : List (Move Sys Label) :=
  let m₀ : Move Sys Label := ⟨Sys.init, .boot true, { Sys.init with up := true, enforce := true }⟩
  [m₀, enterMove E sessionRequest m₀.post]

theorem opened_run (E : Env) : Run (Step E) Sys.init (openedMoves E) (lastState (openedMoves E)) :=
  .cons rfl (.boot rfl rfl) (.cons enterMove_pre (enterMove_step rfl) .nil)

set_option maxRecDepth 10000 in
theorem log_replays_session :
    ((lastState (openedMoves openedEnv)).st.db.get .session "s").get? "id" =
      play (fun _ => none) (postsOf (lastState (openedMoves openedEnv)).st.db.events) (cell .session "s" "id") :=
  log_replays openedEnv (opened_run _) (by decide +kernel) .session "s" (by simp [journalled])

/-! ## The head of the log -/

/-- An event whose row is read whole is what is read of it. -/
theorem entry_inj {e e' : Event} (he : e.row.Plain) (he' : e'.row.Plain) (h : e.entry = e'.entry) : e = e' := by
  obtain ⟨t, v, p, x⟩ := e
  obtain ⟨t', v', p', x'⟩ := e'
  simp only [Event.entry, Chain.Entry.mk.injEq, Prod.mk.injEq] at h
  simp only [LogRow.Plain, LogRow.unseen, Event.row, Prod.mk.injEq] at he he'
  obtain ⟨⟨rfl, hv⟩, hp, hx⟩ := h
  have hwhole : ∀ {s : Str}, behind s = [] → cText s = s := by
    intro s hs
    have hparts := cText_behind s
    rwa [hs, List.append_nil] at hparts
  rw [hwhole he.2.1, hwhole he'.2.1] at hv
  rw [hwhole he.2.2.1, hwhole he'.2.2.1] at hp
  rw [hwhole he.2.2.2, hwhole he'.2.2.2] at hx
  rw [J.text_inj hv, hp, hx]

theorem events_inj {es es' : List Event} (h : ∀ e ∈ es, e.row.Plain) (h' : ∀ e ∈ es', e.row.Plain)
    (heq : es.map Event.entry = es'.map Event.entry) : es = es' := by
  induction es generalizing es' with
  | nil => exact (List.map_eq_nil_iff.1 heq.symm).symm
  | cons e es ih =>
    cases es' with
    | nil => cases heq
    | cons e' es' =>
      obtain ⟨hhead, htail⟩ := List.cons.inj heq
      obtain ⟨he, hes⟩ := List.forall_mem_cons.1 h
      obtain ⟨he', hes'⟩ := List.forall_mem_cons.1 h'
      rw [entry_inj he he' hhead, ih hes hes' htail]

/-- What `audit.verify` answers in a reachable state. -/
theorem audit_answer (hsha : ∀ text, IsSha (E.digest text)) (h : Run (Step E) Sys.init tr z) {enforce : Bool} {req r : J}
    {u : St} (hop : req.get? "op" = some (.str "audit.verify")) (ha : enter E enforce req z.st = .ok (.reply r) u) :
    ∃ head, Chain.verify (link E) [] (z.st.db.events.map Event.entry) = some head ∧
      r = verifiedReply z.st.db.events.length head ∧ ∀ e ∈ z.st.db.events, e.row.Plain := by
  obtain ⟨⟨head, hv⟩, hplain⟩ := (chained_run h).intact hsha ⟨⟨[], rfl⟩, fun _ he => absurd he List.not_mem_nil⟩
  refine ⟨head, ?_, ?_, hplain⟩
  · rw [← verifyFrom_rows]
    exact hv
  · rw [enter_audit hop hv] at ha
    cases ha
    rfl

/-- **The head determines the store.** Two daemons with one hash function that answer `audit.verify` with one
reply agree on every field the log covers, whatever their clocks and random ids and however they came there;
as long as no two of the texts they have hashed collide. -/
theorem audit_head_determines_records (E E' : Env) (hdigest : E'.digest = E.digest) (hsha : ∀ text, IsSha (E.digest text))
    {tr tr' : List (Move Sys Label)} {s s' : Sys} (h : Run (Step E) Sys.init tr s) (h' : Run (Step E') Sys.init tr' s')
    (hl : ∀ v ∈ tr.filterMap (·.label.logged), posts v = []) (hl' : ∀ v ∈ tr'.filterMap (·.label.logged), posts v = [])
    (hfree : CollisionFree E (s.st.db.events.map Event.entry) (s'.st.db.events.map Event.entry)) {enforce enforce' : Bool}
    {req r : J} {u u' : St} (hop : req.get? "op" = some (.str "audit.verify"))
    (ha : enter E enforce req s.st = .ok (.reply r) u) (ha' : enter E' enforce' req s'.st = .ok (.reply r) u')
    (kind : Kind) (id : Str) {f : Str} (hf : f ∈ journalled kind) :
    (s'.st.db.get kind id).get? f = (s.st.db.get kind id).get? f := by
  obtain ⟨head, hv, hr, hplain⟩ := audit_answer hsha h hop ha
  obtain ⟨head', hv', hr', hplain'⟩ := audit_answer (hdigest ▸ hsha) h' hop ha'
  obtain rfl : head = head' := by
    have := congrArg (J.get? · "head_sha256") (hr.symm.trans hr')
    simpa [verifiedReply] using this
  have hlink : link E' = link E := by
    funext previous content
    rw [link, link, hdigest]
  have hevents : s.st.db.events = s'.st.db.events :=
    events_inj hplain hplain' (entries_eq_of_head hsha hfree hv (hlink ▸ hv'))
  rw [← ledger_cell hf, ← ledger_cell hf, ledger_run h hl, ledger_run h' hl', hevents]

def auditRequest : J := .object [("op", .str "audit.verify")]

theorem opened_audit (hlen : (lastState (openedMoves E)).st.db.events.length = 1)
    (hv : Verified E (lastState (openedMoves E)).st.db openedHash) :
    enter E true auditRequest (lastState (openedMoves E)).st = .ok (.reply (verifiedReply 1 openedHash)) (lastState (openedMoves E)).st := by
  rw [enter_audit (by simp [auditRequest]) hv, hlen]

set_option maxRecDepth 10000 in
theorem audit_head_determines_records_session :
    ((lastState (openedMoves otherEnv)).st.db.get .session "s").get? "id" =
      ((lastState (openedMoves openedEnv)).st.db.get .session "s").get? "id" := by
  have hsha : ∀ text, IsSha (openedEnv.digest text) := digestAmong_isSha (by decide)
  have hfree : CollisionFree openedEnv ((lastState (openedMoves openedEnv)).st.db.events.map Event.entry)
      ((lastState (openedMoves otherEnv)).st.db.events.map Event.entry) := by
    unfold CollisionFree
    decide +kernel
  have hverified : Verified openedEnv (lastState (openedMoves openedEnv)).st.db openedHash := by
    unfold Verified
    decide +kernel
  have hverified' : Verified otherEnv (lastState (openedMoves otherEnv)).st.db openedHash := by
    unfold Verified
    decide +kernel
  exact audit_head_determines_records openedEnv otherEnv rfl hsha (opened_run _) (opened_run _) (by decide +kernel)
    (by decide +kernel) hfree (by simp [auditRequest]) (opened_audit (by decide +kernel) hverified)
    (opened_audit (by decide +kernel) hverified') .session "s" (by simp [journalled])

end A2ad.Control
