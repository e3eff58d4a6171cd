/-
The audit log: every transition extends one hash chain, a committed change to a record comes with
an event in its transaction, and the head `audit.verify` answers with determines the log.
-/
import A2ad.Control.System
import A2ad.Lib.Chain
import A2ad.Lib.JsonForm

namespace A2ad.Control

open Bytes Json

/-! ## Stored rows -/

/-- What SQLite keeps in a column of integers: an integer, or a value of another class as it was stored. -/
inductive IntegerColumn where
  | integer (n : Int)
  | real (bits : UInt64)
  | text (s : Str)
  | blob (s : Str)
deriving DecidableEq

/-- A row of `control_events` as it is stored. -/
structure LogRow where
  time : IntegerColumn
  value : Str
  previousHash : Str
  hash : Str
deriving DecidableEq

/-- A time as it is kept, where it is no integer. -/
def IntegerColumn.other : IntegerColumn → Option IntegerColumn
  | integer _ => none
  | column => some column

/-- What is not read of a text. -/
def behind (s : Str) : Str := s.dropWhile (· ≠ 0)

namespace LogRow

/-- What `audit.verify` reads of a row; `int64` is `sqlite3_column_int64`. -/
def seen (int64 : IntegerColumn → Int) (r : LogRow) : Chain.Entry (Int × Str) Str :=
  ⟨(int64 r.time, cText r.value), cText r.previousHash, cText r.hash⟩

/-- What it does not read: a time that is no integer, and what stands behind the first NUL of a text. -/
def unseen (r : LogRow) : Option IntegerColumn × Str × Str × Str :=
  (r.time.other, behind r.value, behind r.previousHash, behind r.hash)

/-- Everything of the row is read. -/
def Plain (r : LogRow) : Prop := r.unseen = (none, [], [], [])

end LogRow

theorem cText_behind (s : Str) : cText s ++ behind s = s := List.takeWhile_append_dropWhile

theorem behind_eq_nil {s : Str} (h : (0 : UInt8) ∉ s) : behind s = [] := by
  have hs := cText_behind s
  rw [cText_eq.2 h] at hs
  exact List.append_cancel_left (hs.trans (List.append_nil s).symm)

theorem text_no_nul (j : J) : (0 : UInt8) ∉ j.text := fun h => absurd (J.plain_text j 0 h) (by decide)

/-- A row is what is read of it and what is not. -/
theorem LogRow.ext_seen {int64 : IntegerColumn → Int} (hint : ∀ n, int64 (.integer n) = n) {r r' : LogRow}
    (hseen : r.seen int64 = r'.seen int64) (hunseen : r.unseen = r'.unseen) : r = r' := by
  obtain ⟨t, v, p, x⟩ := r
  obtain ⟨t', v', p', x'⟩ := r'
  simp only [seen, Chain.Entry.mk.injEq, Prod.mk.injEq] at hseen
  simp only [unseen, Prod.mk.injEq] at hunseen
  obtain ⟨⟨ht, hv⟩, hp, hx⟩ := hseen
  obtain ⟨ht', hv', hp', hx'⟩ := hunseen
  have htime : t = t' := by
    cases t <;> cases t' <;> simp_all [IntegerColumn.other]
  rw [htime, ← cText_behind v, ← cText_behind v', hv, hv', ← cText_behind p, ← cText_behind p', hp, hp',
    ← cText_behind x, ← cText_behind x', hx, hx']

/-! ## The chain of events -/

def Event.row (e : Event) : LogRow := ⟨.integer e.time, e.value.text, e.previousHash, e.hash⟩

/-- What is read of the row of an event. -/
def Event.entry (e : Event) : Chain.Entry (Int × Str) Str := ⟨(e.time, cText e.value.text), cText e.previousHash, cText e.hash⟩

theorem seen_row {int64 : IntegerColumn → Int} (hint : ∀ n, int64 (.integer n) = n) (e : Event) :
    e.row.seen int64 = e.entry := by
  unfold Event.row LogRow.seen Event.entry
  rw [hint]

/-- The text whose hash a row holds. -/
def hashedText (previous : Str) (content : Int × Str) : Str :=
  previous ++ "\n" ++ intText content.1 ++ "\n" ++ content.2

def link (E : Env) (previous : Str) (content : Int × Str) : Str := E.digest (hashedText previous content)

/-- The loop of `audit.verify` over any stored rows. -/
def verifyRows (E : Env) (int64 : IntegerColumn → Int) (rows : List LogRow) : Option Str :=
  Chain.verify (link E) [] (rows.map (LogRow.seen int64))

/-- Sixty-four hexadecimal digits. -/
def IsSha (s : Str) : Prop := s.length = 64 ∧ s.all isHex = true

instance (s : Str) : Decidable (IsSha s) := inferInstanceAs (Decidable (_ ∧ _))

theorem IsSha.notMem {s : Str} (h : IsSha s) {c : UInt8} (hc : isHex c = false) : c ∉ s := by
  intro hm
  have hhex := List.all_eq_true.1 h.2 _ hm
  rw [hc] at hhex
  cases hhex

variable {E : Env}

theorem verifyFrom_rows (head : Str) (events : List Event) :
    verifyFrom E head events = Chain.verify (link E) head (events.map Event.entry) := by
  induction events generalizing head with
  | nil => rfl
  | cons e events ih =>
    rw [verifyFrom, List.map_cons, Chain.verify, ih]
    rfl

/-- The log of a store verifies, with this head. -/
def Verified (E : Env) (db : Db) (head : Str) : Prop := verifyFrom E [] db.events = some head

/-- The head of a log is the hash that the next event is linked to. -/
theorem verified_head {db : Db} {head : Str} (h : Verified E db head) : head = lastHash db.events := by
  rw [Verified, verifyFrom_rows] at h
  rw [Chain.verify_head h, List.getLast?_map, Option.map_map, lastHash]
  cases db.events.getLast? <;> rfl

theorem verified_append (hsha : ∀ text, IsSha (E.digest text)) {db : Db} {head : Str} (h : Verified E db head) (time : Int)
    (v : J) : verifyFrom E [] (db.events ++ [eventFor E db.events time v]) = some (eventFor E db.events time v).hash := by
  have hhead := verified_head h
  rw [Verified, verifyFrom_rows] at h
  rw [verifyFrom_rows, List.map_append, List.map_cons, List.map_nil, Chain.verify_snoc]
  have hprevious : cText (lastHash db.events) = lastHash db.events := cText_cText _
  have hhash : cText (eventFor E db.events time v).hash = (eventFor E db.events time v).hash :=
    cText_eq.2 ((hsha _).notMem (by decide))
  have htext : cText v.text = v.text := cText_eq.2 (text_no_nul v)
  refine ⟨h.trans (congrArg some (hhead.trans hprevious.symm)), ?_, hhash⟩
  show link E (cText (lastHash db.events)) (time, cText v.text) = cText (eventFor E db.events time v).hash
  rw [hhash, hprevious, htext]
  rfl

/-- The log verifies, and everything in it is read. -/
def Intact (E : Env) (db : Db) : Prop := (∃ head, Verified E db head) ∧ ∀ e ∈ db.events, e.row.Plain

theorem lastHash_no_nul (events : List Event) : (0 : UInt8) ∉ lastHash events := cText_eq.1 (cText_cText _)

theorem intact_append (hsha : ∀ text, IsSha (E.digest text)) {db db' : Db} (h : Intact E db) {time : Int} {v : J}
    (hdb : db'.events = db.events ++ [eventFor E db.events time v]) : Intact E db' := by
  obtain ⟨⟨head, hv⟩, hplain⟩ := h
  refine ⟨⟨(eventFor E db.events time v).hash, ?_⟩, ?_⟩
  · rw [Verified, hdb]
    exact verified_append hsha hv time v
  · rw [hdb]
    intro e he
    rcases List.mem_append.1 he with he | he
    · exact hplain e he
    · rw [List.mem_singleton.1 he]
      show (none, behind v.text, behind (lastHash db.events), behind (E.digest _)) = _
      rw [behind_eq_nil (text_no_nul v), behind_eq_nil (lastHash_no_nul _), behind_eq_nil ((hsha _).notMem (by decide))]

/-! ## What a transaction does to the log -/

/-- The log only grows, stays intact and never runs out of sequence numbers. -/
structure Chained (E : Env) (s s' : St) : Prop where
  grows : s.db.events <+: s'.db.events
  intact : (∀ text, IsSha (E.digest text)) → Intact E s.db → Intact E s'.db
  bounded : s.db.events.length < 2 ^ 63 → s'.db.events.length < 2 ^ 63

instance : IsPreorder St (Chained E) where
  refl _ := ⟨List.prefix_refl _, fun _ h => h, id⟩
  trans _ _ _ h h' :=
    ⟨h.grows.trans h'.grows, fun hsha hi => h'.intact hsha (h.intact hsha hi), fun hb => h'.bounded (h.bounded hb)⟩

/-- A change with an event of its own. -/
structure Grew (E : Env) (s s' : St) : Prop extends Chained E s s' where
  longer : s.db.events.length < s'.db.events.length

/-- Records other than channels change with an event only. -/
structure Logged (E : Env) (s s' : St) : Prop extends Chained E s s' where
  audited : s'.db.events.length = s.db.events.length → ∀ kind id, kind ≠ .channel → s'.db.get kind id = s.db.get kind id

theorem Chained.length {s s' : St} (h : Chained E s s') : s.db.events.length ≤ s'.db.events.length := h.grows.length_le

instance : IsPreorder St (Logged E) where
  refl s := ⟨refl s, fun _ _ _ _ => rfl⟩
  trans s t u h h' := by
    refine ⟨IsTrans.trans s t u h.toChained h'.toChained, fun hlen kind id hk => ?_⟩
    have := h.toChained.length
    have := h'.toChained.length
    have hst : t.db.events.length = s.db.events.length := by omega
    have htu : u.db.events.length = t.db.events.length := by omega
    exact (h'.audited htu kind id hk).trans (h.audited hst kind id hk)

theorem Grew.logged (s s' : St) (h : Grew E s s') : Logged E s s' :=
  ⟨h.toChained, fun hlen => absurd hlen h.longer.ne'⟩

theorem Still.logged (s s' : St) (h : Still s s') : Logged E s s' := by
  refine ⟨⟨h.db ▸ List.prefix_refl _, fun _ hi => ?_, ?_⟩, fun _ kind id _ => by rw [h.db]⟩
  · rw [h.db]
    exact hi
  · rw [h.db]
    exact id

section Instances

variable {α β : Type} {enforce : Bool} {op : Str} {req : J}

instance (priority := low) {x : M α} [hx : Quiet x] : Tx.Yields (Logged E) x :=
  Tx.yields_mono Still.logged hx.yields

instance (priority := low) {x : M α} [hx : Tx.Yields (Logged E) x] : Tx.Yields (Chained E) x :=
  Tx.yields_mono (fun _ _ h => h.toChained) hx

instance (priority := low) {x : M α} [hx : Tx.Yields (Grew E) x] : Tx.Yields (Logged E) x := Tx.yields_mono Grew.logged hx

instance {x : M α} {f : α → M β} [hx : Tx.Yields (Chained E) x] [hf : ∀ a, Tx.Yields (Grew E) (f a)] :
    Tx.Yields (Grew E) (x >>= f) := by
  refine Tx.yields_comp (fun s t u h h' => ⟨IsTrans.trans s t u h h'.toChained, ?_⟩) hx hf
  have := h.length
  have := h'.longer
  omega

instance {x : M α} {f : α → M β} [hx : Tx.Yields (Grew E) x] [hf : ∀ a, Tx.Yields (Chained E) (f a)] :
    Tx.Yields (Grew E) (x >>= f) := by
  refine Tx.yields_comp (fun s t u h h' => ⟨IsTrans.trans s t u h.toChained h', ?_⟩) hx hf
  have := h.longer
  have := h'.length
  omega

instance (kind : Kind) (id : Str) (v : J) : Tx.Yields (Chained E) (write kind id v) := by
  refine ⟨fun s _ t h => ?_⟩
  obtain ⟨-, rfl⟩ := write_ok.1 h
  exact ⟨List.prefix_refl _, fun _ hi => hi, fun hb => hb⟩

/-- A channel is written without an event. -/
instance (id : Str) (v : J) : Tx.Yields (Logged E) (write .channel id v) := by
  refine ⟨fun s _ t h => ⟨(inferInstance : Tx.Yields (Chained E) (write .channel id v)).out s _ t h, fun _ kind id' hk => ?_⟩⟩
  obtain ⟨-, rfl⟩ := write_ok.1 h
  exact Db.get_put_ne _ _ fun e => hk (Prod.mk.inj e).1

instance (v : J) : Tx.Yields (Grew E) (append E v) := by
  refine ⟨fun s _ t h => ?_⟩
  obtain ⟨hevents, hroom⟩ := append_events h
  have hlength : t.db.events.length = s.db.events.length + 1 := by rw [hevents, List.length_append, List.length_singleton]
  exact ⟨⟨⟨_, hevents.symm⟩, fun hsha hi => intact_append hsha hi hevents, fun _ => by omega⟩, by omega⟩

set_option synthInstance.maxSize 4000

instance : Tx.Yields (Logged E) (continuationCreate E req) := by
  unfold continuationCreate
  infer_instance

instance : Tx.Yields (Logged E) (sessionCreate E req) := by
  unfold sessionCreate
  infer_instance

instance : Tx.Yields (Logged E) (leaseOp E op req) := by
  unfold leaseOp
  infer_instance

instance : Tx.Yields (Logged E) (approvalRevoke E req) := by
  unfold approvalRevoke
  infer_instance

instance : Tx.Yields (Logged E) (approvalDecide E req) := by
  unfold approvalDecide
  infer_instance

instance : Tx.Yields (Logged E) (agentOp E op req) := by
  unfold agentOp
  infer_instance

instance : Tx.Yields (Logged E) (provenanceRecord E req) := by
  unfold provenanceRecord
  infer_instance

instance : Tx.Yields (Logged E) (channelOpen req) := by
  unfold channelOpen
  infer_instance

instance : Tx.Yields (Logged E) (eventsRead op req) := by
  unfold eventsRead
  infer_instance

instance : Tx.Yields (Logged E) (channelAck req) := by
  unfold channelAck
  infer_instance

instance : Tx.Yields (Logged E) (control E enforce req) := by
  unfold control
  refine Tx.yields_bind (k := fun op => Tx.yields_ite (k := ?_))
  split <;> infer_instance

instance {g : Grant} : Tx.Yields (Logged E) (requestApproval E g req) := by
  unfold requestApproval
  infer_instance

instance {g : Grant} : Tx.Yields (Logged E) (approvalGate E g req) := by
  unfold approvalGate
  infer_instance

instance {g : Grant} : Tx.Yields (Logged E) (recordExecution E g req) := by
  unfold recordExecution
  infer_instance

instance : Tx.Yields (Logged E) (begin E enforce req) := by
  unfold begin
  repeat' first | infer_instance | refine Tx.yields_bind (k := fun _ => ?_) | split

instance {continuationId id : Str} : Tx.Yields (Logged E) (deliverContinuation E continuationId id) := by
  unfold deliverContinuation
  infer_instance

instance {agent error : Str} {result : J} : Tx.Yields (Chained E) (recordHealth agent error result) := by
  unfold recordHealth
  infer_instance

/-- The event of an outcome comes last, after the records it changes. -/
instance {id : Str} {result : J} : Tx.Yields (Grew E) (finish E id result) := by
  unfold finish
  infer_instance

instance {execution : J} : Tx.Yields (Logged E) (recoverOne E execution) := by
  unfold recoverOne
  infer_instance

instance {items : List J} : Tx.Yields (Logged E) (recover E items) := by
  induction items with
  | nil => exact Tx.yields_pure _
  | cons _ _ ih =>
    unfold recover
    infer_instance

instance : Tx.Yields (Logged E) (startup E) := by
  unfold startup transaction
  infer_instance

instance {α : Type} {x : M α} [Tx.Yields (Logged E) x] : Tx.Yields (Logged E) (transaction x) := by
  unfold transaction
  infer_instance

instance : Tx.Yields (Logged E) (enterMutation E enforce req) := by
  unfold enterMutation withRequestId
  infer_instance

instance : Tx.Yields (Logged E) (enter E enforce req) := by
  unfold enter
  infer_instance

instance {request : J} {outcome : Except Exception J} : Tx.Yields (Logged E) (leave E request outcome) := by
  unfold leave
  infer_instance

end Instances

/-! ## Runs -/

/-- Every transition extends the chain, and changes a record other than a channel only with an event. -/
theorem Step.logged {s t : Sys} {l : Label} (h : Step E s l t) : Logged E s.st t.st := by
  cases h with
  | enter _ h => exact Tx.Yields.out _ _ _ h
  | enterThrows _ h => exact Still.logged _ _ (enter_error h)
  | enterFails _ h => exact Still.logged _ _ h
  | start => exact refl _
  | leave _ h => exact Tx.Yields.out _ _ _ h
  | leaveThrows _ h => exact Still.logged _ _ (leave_error h)
  | leaveFails _ h => exact Still.logged _ _ h
  | event _ h => exact Tx.Yields.out _ _ _ h
  | boot _ h => exact Tx.Yields.out _ _ _ h
  | crash => exact refl _

theorem chained_run {s t : Sys} {tr : List (Move Sys Label)} (h : Run (Step E) s tr t) : Chained E s.st t.st :=
  h.invariant (I := fun _ u => Chained E s.st u.st) (refl _) fun _ u _ w hu hstep =>
    IsTrans.trans s.st u.st w.st hu hstep.logged.toChained

/-! ## `audit.verify` -/

def verifiedReply (count : Nat) (head : Str) : J :=
  .object [("ok", .bool true), ("count", .int count), ("head_sha256", .str head)]

theorem enter_audit {enforce : Bool} {req : J} {s : St} {head : Str} (hop : req.get? "op" = some (.str "audit.verify"))
    (hv : Verified E s.db head) :
    enter E enforce req s = .ok (.reply (verifiedReply s.db.events.length head)) s := by
  have hobj : req.isObject = true := J.isObject_of_get? hop
  have hopv : req.valueStr "op" "" = .ok (lit "audit.verify") := J.valueStr_ok.2 ⟨hobj, .inl hop⟩
  have haudit : auditVerify E s = .ok (verifiedReply s.db.events.length head) s := by
    rw [auditVerify, Tx.bind_of_ok (show snapshot s = .ok s.db s from rfl)]
    rw [Verified] at hv
    rw [lit_empty, hv]
    rfl
  have hread : readOnly E enforce req s = .ok (verifiedReply s.db.events.length head) s := by
    rw [readOnly, Tx.bind_of_ok (Tx.lift_of_ok hopv)]
    have hkind : listKind "audit.verify" = none := by decide
    simp only [hkind, lit_inj, String.reduceEq, if_false, if_true, haudit]
  rw [enter, if_neg (by simp [hobj]), Tx.bind_of_ok (Tx.lift_of_ok hopv)]
  have hquery : query E enforce "audit.verify" req s = .ok (verifiedReply s.db.events.length head) s := by
    rw [query, if_pos (by decide), hread]
  rw [Tx.bind_of_ok hquery]
  rfl

/-! ## Tampering -/

/-- No two different texts hashed in the two logs have one digest. -/
def CollisionFree (E : Env) (rows rows' : List (Chain.Entry (Int × Str) Str)) : Prop :=
  ∀ r ∈ rows, ∀ r' ∈ rows', E.digest (hashedText r.previous r.content) = E.digest (hashedText r'.previous r'.content) →
    hashedText r.previous r.content = hashedText r'.previous r'.content

/-- The hashed text determines its parts: neither hash nor time holds a newline. -/
theorem hashedText_inj {p p' : Str} {c c' : Int × Str} (hp : (10 : UInt8) ∉ p) (hp' : (10 : UInt8) ∉ p')
    (h : hashedText p c = hashedText p' c') : p = p' ∧ c = c' := by
  have hline : lit "\n" = [10] := by decide
  simp only [hashedText, hline, List.append_assoc, List.cons_append, List.nil_append] at h
  obtain ⟨rfl, hrest⟩ := cut_inj hp hp' h
  obtain ⟨htime, hbody⟩ := cut_inj (newline_notMem_intText _) (newline_notMem_intText _) hrest
  exact ⟨rfl, Prod.ext (intText_inj htime) hbody⟩

/-- Two logs that verify with one head are read as one log. -/
theorem entries_eq_of_head (hsha : ∀ text, IsSha (E.digest text)) {rows rows' : List (Chain.Entry (Int × Str) Str)}
    {head : Str} (hfree : CollisionFree E rows rows') (h : Chain.verify (link E) [] rows = some head)
    (h' : Chain.verify (link E) [] rows' = some head) : rows = rows' := by
  have hlines : ∀ {rows : List (Chain.Entry (Int × Str) Str)}, Chain.verify (link E) [] rows = some head →
      ∀ r ∈ rows, (10 : UInt8) ∉ r.previous := fun hv =>
    Chain.verify_previous (P := fun p => (10 : UInt8) ∉ p) (by simp) (fun _ _ => (hsha _).notMem (by decide)) hv
  refine Chain.eq_of_head (fun p c he => ?_) (fun x hx y hy he => ?_) h h'
  · have hlen := (hsha (hashedText p c)).1
    rw [show E.digest (hashedText p c) = [] from he] at hlen
    cases hlen
  · exact hashedText_inj (hlines h x hx) (hlines h' y hy) (hfree x hx y hy he)

/-- Rows that are read alike are alike exactly where they agree in what is not read. -/
theorem rows_eq_iff {int64 : IntegerColumn → Int} (hint : ∀ n, int64 (.integer n) = n) {rows rows' : List LogRow}
    (hseen : rows.map (LogRow.seen int64) = rows'.map (LogRow.seen int64)) :
    rows = rows' ↔ rows.map LogRow.unseen = rows'.map LogRow.unseen := by
  refine ⟨congrArg _, fun hunseen => ?_⟩
  have hinjective : Function.Injective fun r : LogRow => (r.seen int64, r.unseen) := fun r r' h =>
    LogRow.ext_seen hint (Prod.mk.inj h).1 (Prod.mk.inj h).2
  refine List.map_injective_iff.2 hinjective ?_
  have hzip : ∀ l : List LogRow, l.map (fun r => (r.seen int64, r.unseen)) =
      (l.map (LogRow.seen int64)).zip (l.map LogRow.unseen) := fun l => (List.zip_map' ..).symm
  rw [hzip, hzip, hseen, hunseen]

theorem map_seen_row {int64 : IntegerColumn → Int} (hint : ∀ n, int64 (.integer n) = n) (events : List Event) :
    (events.map Event.row).map (LogRow.seen int64) = events.map Event.entry := by
  rw [List.map_map]
  exact List.map_congr_left fun e _ => seen_row hint e

/-- **The audit chain.** In every reachable state `audit.verify` finds the log intact and counts its events,
every row of the log is read whole, and every earlier log is a prefix of the present one. Two stored logs that
it accepts with one head, for a digest of 64 hexadecimal characters without collisions in them, are read alike,
and are one log exactly where they agree in what it does not read. -/
theorem audit_complete_and_tamper_evident (E : Env) (hsha : ∀ text, IsSha (E.digest text)) {int64 : IntegerColumn → Int}
    (hint : ∀ n, int64 (.integer n) = n) :
    (∀ {tr : List (Move Sys Label)} {s : Sys}, Run (Step E) Sys.init tr s →
      (∃ head, verifyRows E int64 (s.st.db.events.map Event.row) = some head ∧
        (∀ row ∈ s.st.db.events.map Event.row, row.Plain) ∧
        ∀ (enforce : Bool) (req : J), req.get? "op" = some (.str "audit.verify") →
          enter E enforce req s.st = .ok (.reply (verifiedReply s.st.db.events.length head)) s.st) ∧
      ∀ {tr' : List (Move Sys Label)} {t : Sys}, Run (Step E) s tr' t → s.st.db.events <+: t.st.db.events) ∧
    ∀ {rows rows' : List LogRow} {head : Str},
      CollisionFree E (rows.map (LogRow.seen int64)) (rows'.map (LogRow.seen int64)) →
      verifyRows E int64 rows = some head → verifyRows E int64 rows' = some head →
        rows.map (LogRow.seen int64) = rows'.map (LogRow.seen int64) ∧
          (rows = rows' ↔ rows.map LogRow.unseen = rows'.map LogRow.unseen) := by
  refine ⟨fun h => ⟨?_, fun h' => (chained_run h').grows⟩, fun hfree h h' => ?_⟩
  · obtain ⟨⟨head, hv⟩, hplain⟩ := (chained_run h).intact hsha ⟨⟨[], rfl⟩, fun _ he => absurd he List.not_mem_nil⟩
    refine ⟨head, ?_, List.forall_mem_map.2 hplain, fun enforce req hop => enter_audit hop hv⟩
    rw [verifyRows, map_seen_row hint, ← verifyFrom_rows]
    exact hv
  · have hseen := entries_eq_of_head hsha hfree h h'
    exact ⟨hseen, rows_eq_iff hint hseen⟩

/-! ## A log of one event -/

def createdEvent : J := .object [("type", .str "task.created"), ("task_id", .str "t1"), ("state", .str "SUBMITTED")]

def createdHash : Str := "4568cec5c0ef333e09f944ef704035de7b39d6c00046257254b2406ab85b8427"

/-- The digests of some texts, and zeros for all others. -/
def digestAmong (table : List (Str × Str)) (text : Str) : Str :=
  ((table.find? fun e => e.1 = text).map Prod.snd).getD (List.replicate 64 48)

theorem digestAmong_isSha {table : List (Str × Str)} (h : ∀ e ∈ table, IsSha e.2) (text : Str) :
    IsSha (digestAmong table text) := by
  unfold digestAmong
  cases hfound : table.find? fun e => e.1 = text with
  | none => exact ⟨by decide, by decide⟩
  | some e => exact h e (List.mem_of_find?_eq_some hfound)

def shaEnv : Env := { sampleEnv with digest := digestAmong [(hashedText "" (0, createdEvent.text), createdHash)] }

theorem shaEnv_isSha (text : Str) : IsSha (shaEnv.digest text) := digestAmong_isSha (by decide) text

def loggedSys : Sys where
  st := ⟨⟨∅, [⟨0, createdEvent, [], createdHash⟩]⟩, 1, 0⟩
  up := true
  enforce := false
  flights := []

/-- How the columns of these rows are read. -/
def sampleInt64 : IntegerColumn → Int
  | .integer n => n
  | _ => 0

def createdRow : LogRow := ⟨.integer 0, createdEvent.text, [], createdHash⟩

set_option maxRecDepth 10000 in
/-- A plain log with the head of the daemon's log is the daemon's log. -/
theorem audit_complete_and_tamper_evident_sample :
    enter shaEnv false (.object [("op", .str "audit.verify")]) loggedSys.st =
        .ok (.reply (verifiedReply 1 createdHash)) loggedSys.st ∧
      ∀ rows : List LogRow, CollisionFree shaEnv (rows.map (LogRow.seen sampleInt64)) [createdRow.seen sampleInt64] →
        verifyRows shaEnv sampleInt64 rows = some createdHash → (∀ r ∈ rows, r.Plain) → rows = [createdRow] := by
  have hrun : Run (Step shaEnv) Sys.init _ loggedSys :=
    .snoc (.snoc .nil (@Step.boot shaEnv Sys.init false () ⟨Db.empty, 0, 0⟩ rfl rfl))
      (@Step.event shaEnv _ createdEvent () loggedSys.st rfl rfl)
  obtain ⟨hruns, htamper⟩ := @audit_complete_and_tamper_evident shaEnv shaEnv_isSha sampleInt64 fun _ => rfl
  obtain ⟨⟨head, hhead, hplain, hreply⟩, -⟩ := hruns hrun
  obtain rfl : head = createdHash := by
    have : verifyRows shaEnv sampleInt64 (loggedSys.st.db.events.map Event.row) = some createdHash := by decide
    exact Option.some.inj (hhead.symm.trans this)
  refine ⟨hreply false _ (by simp), fun rows hfree hv hrows => ?_⟩
  obtain ⟨hseen, hsame⟩ := @htamper rows [createdRow] createdHash hfree hv hhead
  have hlength : rows.length = 1 := by simpa using congrArg List.length hseen
  obtain ⟨r, rfl⟩ := List.length_eq_one_iff.1 hlength
  exact hsame.2 (congrArg (· :: []) ((hrows r List.mem_cons_self).trans (hplain createdRow List.mem_cons_self).symm))

/-- The same row with more behind a NUL in its value. -/
def alteredRow : LogRow := { createdRow with value := createdEvent.text ++ 0 :: lit "x" }

set_option maxRecDepth 10000 in
/-- A row to whose value bytes have been added verifies with the same head. -/
theorem altered_value_accepted : (∀ text, IsSha (shaEnv.digest text)) ∧
    CollisionFree shaEnv [createdRow.seen sampleInt64] [alteredRow.seen sampleInt64] ∧
    verifyRows shaEnv sampleInt64 [createdRow] = some createdHash ∧
    verifyRows shaEnv sampleInt64 [alteredRow] = some createdHash ∧ [createdRow] ≠ [alteredRow] := by
  refine ⟨shaEnv_isSha, fun r hr r' hr' _ => ?_, by decide, by decide, by decide⟩
  have hsame : createdRow.seen sampleInt64 = alteredRow.seen sampleInt64 := by decide
  rw [List.mem_singleton.1 hr, List.mem_singleton.1 hr', hsame]

end A2ad.Control
