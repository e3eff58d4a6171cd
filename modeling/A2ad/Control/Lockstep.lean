/-
The operations of `control` and the queries on two twin stores: they answer alike, throw alike and
leave twin stores behind.
-/
import A2ad.Control.Twins

namespace A2ad.Control

open Bytes Json

variable {E : Env} {R : Str → Str → Prop}

/-! ## Operations on records without hashes -/

section Plain

variable {op : Str} {req : J}

set_option synthInstance.maxSize 2000

instance {lease : J} : Unaware E R (lapsed E lease) := by
  unfold lapsed
  infer_instance

instance {resource owner : Str} {lease : J} {ttl : Int} : Unaware E R (leaseTake E resource owner lease ttl) := by
  unfold leaseTake
  infer_instance

instance {owner : Str} {lease : J} : Unaware E R (leaseHeld E req owner lease) := by
  unfold leaseHeld
  infer_instance

instance {agent : Str} : Unaware E R (health agent) := by
  unfold health
  infer_instance

variable [Pairing R]

instance : Unaware E R (leaseOp E op req) := by
  unfold leaseOp
  infer_instance

instance : Unaware E R (agentOp E op req) := by
  unfold agentOp
  infer_instance

instance : Unaware E R (continuationCreate E req) := by
  unfold continuationCreate
  infer_instance

instance : Unaware E R (sessionCreate E req) := by
  unfold sessionCreate
  infer_instance

instance : Unaware E R (provenanceRecord E req) := by
  unfold provenanceRecord
  infer_instance

instance : Unaware E R (channelOpen req) := by
  unfold channelOpen
  infer_instance

instance : Unaware E R (channelAck req) := by
  unfold channelAck
  infer_instance

end Plain

/-! ## Queries -/

section Queries

variable {req : J} {kind : Kind}

theorem filtered_twin {v v' : J} (h : RecordTwin R kind v v') : filtered req v' = filtered req v := by
  have hread : ∀ k : Str, k ≠ "request_sha256" → v'.valueStr k "" = v.valueStr k "" := by
    intro k hk
    rcases h.eq_or_twin with rfl | h
    · rfl
    · exact h.valueStr hk
  simp only [filtered, passes, hread (lit "session_id") (by decide), hread (lit "task_id") (by decide)]

theorem alike_keepItems {Q : J → J → Prop} {keep : J → Except Exception Bool} (hkeep : ∀ v v', Q v v' → keep v' = keep v)
    {xs ys : List J} (h : List.Forall₂ Q xs ys) : Tx.Alike (List.Forall₂ Q) (keepItems keep xs) (keepItems keep ys) := by
  induction h with
  | nil => exact .ok .nil
  | @cons v v' xs ys hv _ ih =>
    rw [keepItems, keepItems, hkeep v v' hv]
    refine Tx.alike_bind (Tx.alike_same _) fun b _ hb => ?_
    subst hb
    split
    · exact Tx.alike_bind ih fun _ _ hrest => .ok (.cons hv hrest)
    · exact ih

theorem sameBut_items {k : Str} {xs ys : List J} (h : List.Forall₂ (RecordTwin R kind) xs ys) :
    J.SameBut (HashDiffers E R) k (.arr xs) (.arr ys) :=
  J.sameBut_arr (h.imp fun _ _ hv => hv.sameBut)

theorem agree_listAll : Tx.Agree (Twins E R) (Matches E R) (listAll req kind) (listAll req kind) := by
  unfold listAll
  refine Tx.agree_bind (agree_list kind) fun xs ys h => ?_
  have hreply : ∀ {xs ys : List J}, List.Forall₂ (RecordTwin R kind) xs ys →
      Matches E R (.object [("ok", .bool true), ("items", .arr xs)]) (.object [("ok", .bool true), ("items", .arr ys)]) :=
    fun h => J.sameBut_object (.cons ⟨rfl, .same _⟩ (.cons ⟨rfl, sameBut_items h⟩ .nil))
  refine Tx.agree_ite Iff.rfl ?_ (Tx.agree_pure (hreply h))
  exact Tx.agree_bind (Tx.agree_lift (alike_keepItems (fun _ _ hv => filtered_twin hv) h)) fun _ _ h => Tx.agree_pure (hreply h)

theorem sameBut_record {k : Str} {v v' : J} (h : J.SameBut (HashDiffers E R) k v v') :
    Matches E R (.object [("ok", .bool true), (k, v)]) (.object [("ok", .bool true), (k, v')]) :=
  J.sameBut_object (.cons ⟨rfl, .same _⟩ (.cons ⟨rfl, h⟩ .nil))

theorem agree_getRecord : Tx.Agree (Twins E R) (Matches E R) (getRecord req kind) (getRecord req kind) := by
  unfold getRecord
  refine Tx.agree_lift_bind fun id => Tx.agree_bind (agree_read kind id) fun v v' h => ?_
  exact Tx.agree_ite (by rw [h.isNull]) (Tx.agree_pure (.same _)) (Tx.agree_pure (sameBut_record h.sameBut))

theorem extracts_twin {v v' : J} {k text : Str} (hk : k ≠ "request_sha256") (h : RecordTwin R kind v v') :
    extracts v' k text = extracts v k text := by
  rcases h.eq_or_twin with rfl | h
  · rfl
  · rw [extracts, extracts, h.get? hk]

theorem rows_filter {p : Str × J → Bool} (hp : ∀ row row', RowTwin R kind row row' → p row' = p row)
    {rows rows' : List (Str × J)} (h : List.Forall₂ (RowTwin R kind) rows rows') :
    List.Forall₂ (RowTwin R kind) (rows.filter p) (rows'.filter p) :=
  List.rel_filter (fun row row' hrow => iff_of_eq (congrArg (· = true) (hp row row' hrow).symm)) h

theorem rows_extract {rows rows' : List (Str × J)} {k : Str} (hk : k ≠ "request_sha256") (text : Str)
    (h : List.Forall₂ (RowTwin R kind) rows rows') :
    List.Forall₂ (RowTwin R kind) (rows.filter fun row => extracts row.2 k text) (rows'.filter fun row => extracts row.2 k text) :=
  rows_filter (fun _ _ hrow => extracts_twin hk hrow.2) h

theorem alike_page {keep : J → Except Exception Bool} {limit : Nat} (hkeep : ∀ v v', RecordTwin R kind v v' → keep v' = keep v)
    {rows rows' : List (Str × J)} (h : List.Forall₂ (RowTwin R kind) rows rows') {items items' : List J}
    (hitems : List.Forall₂ (RecordTwin R kind) items items') (next : Str) :
    Tx.Alike (fun p p' => List.Forall₂ (RecordTwin R kind) p.1 p'.1 ∧ p.2 = p'.2) (page keep limit rows items next)
      (page keep limit rows' items' next) := by
  induction h generalizing items items' next with
  | nil => exact .ok ⟨hitems, rfl⟩
  | @cons row row' rows rows' hrow _ ih =>
    obtain ⟨id, v⟩ := row
    obtain ⟨id', v'⟩ := row'
    obtain ⟨hid, hv⟩ := hrow
    obtain rfl : id = id' := hid
    rw [page, page, hkeep v v' hv, hitems.length_eq]
    split
    · exact .ok ⟨hitems, rfl⟩
    · refine Tx.alike_bind (Tx.alike_same _) fun b _ hb => ?_
      subst hb
      split
      · exact ih (List.rel_append hitems (.cons hv .nil)) _
      · exact ih hitems _

/-- The pages of the two stores, before programs that agree on them. -/
theorem agree_page {limit : Nat} {rows rows' : List (Str × J)} {f g : List J × Str × Bool → M J}
    (hf : ∀ items items' next more, List.Forall₂ (RecordTwin R kind) items items' →
      Tx.Agree (Twins E R) (Matches E R) (f (items, next, more)) (g (items', next, more)))
    (h : List.Forall₂ (RowTwin R kind) rows rows') : Tx.Agree (Twins E R) (Matches E R)
      (liftM (page (if kind = .execution then filtered req else fun _ => .ok true) limit (rows.take (limit + 1)) [] "") >>= f)
      (liftM (page (if kind = .execution then filtered req else fun _ => .ok true) limit (rows'.take (limit + 1)) [] "") >>= g) := by
  have hkeep : ∀ v v', RecordTwin R kind v v' → (if kind = .execution then filtered req else fun _ => .ok true) v' =
      (if kind = .execution then filtered req else fun _ => .ok true) v := by
    intro v v' hv
    split
    · exact filtered_twin hv
    · rfl
  refine Tx.agree_bind (Tx.agree_lift (alike_page hkeep (List.forall₂_take _ h) .nil _)) ?_
  rintro ⟨items, next, more⟩ ⟨items', next', more'⟩ ⟨hitems, hrest⟩
  obtain ⟨rfl, rfl⟩ := Prod.mk.inj hrest
  exact hf items items' next more hitems

theorem agree_listPage : Tx.Agree (Twins E R) (Matches E R) (listPage req kind) (listPage req kind) := by
  have hreply : ∀ (items items' : List J) (next : Str) (more : Bool), List.Forall₂ (RecordTwin R kind) items items' →
      Matches E R (if more = true then (J.object [("ok", .bool true), ("items", .arr items)]).set "next_cursor" (.str next)
          else .object [("ok", .bool true), ("items", .arr items)])
        (if more = true then (J.object [("ok", .bool true), ("items", .arr items')]).set "next_cursor" (.str next)
          else .object [("ok", .bool true), ("items", .arr items')]) := by
    intro items items' next more h
    have hfields : List.Forall₂ (J.FieldSame (HashDiffers E R)) [(lit "ok", .bool true), (lit "items", .arr items)]
        [(lit "ok", .bool true), (lit "items", .arr items')] := .cons ⟨rfl, .same _⟩ (.cons ⟨rfl, sameBut_items h⟩ .nil)
    split
    · exact J.sameBut_obj (J.forall₂_insert (fun _ _ h => h.1) ⟨rfl, .same _⟩ (J.forall₂_object (fun _ _ h => h.1) hfields))
    · exact J.sameBut_object hfields
  unfold listPage
  refine Tx.agree_lift_bind fun ok => Tx.agree_ite Iff.rfl (Tx.agree_pure (.same _)) ?_
  refine Tx.agree_lift_bind fun after => Tx.agree_lift_bind fun limit => Tx.agree_bind agree_snapshot fun db db' h => ?_
  have hrows : List.Forall₂ (RowTwin R kind) ((db.rows kind).filter fun row => after < row.1)
      ((db'.rows kind).filter fun row => after < row.1) := rows_filter (fun _ _ hrow => by rw [hrow.1]) (h.rows kind)
  refine Tx.agree_ite Iff.rfl (Tx.agree_lift_bind fun v => Tx.agree_lift_bind fun text => ?_) ?_
  · have hrows := rows_extract (k := "session_id") (by decide) text hrows
    refine Tx.agree_ite Iff.rfl (Tx.agree_lift_bind fun v => Tx.agree_lift_bind fun text => ?_) ?_
    · exact agree_page (fun _ _ _ _ h => Tx.agree_pure (hreply _ _ _ _ h)) (rows_extract (by decide) text hrows)
    · exact agree_page (fun _ _ _ _ h => Tx.agree_pure (hreply _ _ _ _ h)) hrows
  · refine Tx.agree_ite Iff.rfl (Tx.agree_lift_bind fun v => Tx.agree_lift_bind fun text => ?_) ?_
    · exact agree_page (fun _ _ _ _ h => Tx.agree_pure (hreply _ _ _ _ h)) (rows_extract (by decide) text hrows)
    · exact agree_page (fun _ _ _ _ h => Tx.agree_pure (hreply _ _ _ _ h)) hrows

/-! ## The event log -/

theorem ChainTwin.sameBut {k h h' : Str} (hk : k ∈ chainKeys) (hc : ChainTwin E h h') :
    J.SameBut (HashDiffers E R) k (.str h) (.str h') := by
  rcases hc with rfl | ⟨x, x', rfl, rfl⟩
  · exact .same _
  · exact .text (.chain hk)

theorem agree_auditVerify : Tx.Agree (Twins E R) (Matches E R) (auditVerify E) (auditVerify E) := by
  unfold auditVerify
  refine Tx.agree_bind agree_snapshot fun db db' h => ?_
  obtain ⟨⟨head, hv⟩, -⟩ := h.intact
  obtain ⟨⟨head', hv'⟩, -⟩ := h.intact'
  have hheads : ChainTwin E head head' := by
    rw [verified_head hv, verified_head hv']
    exact last_twin h.sha h.events
  rw [Verified] at hv hv'
  simp only [lit_empty, hv, hv', ← h.events.length_eq]
  refine Tx.agree_pure (J.sameBut_object (.cons ⟨rfl, .same _⟩ (.cons ⟨rfl, .same _⟩ (.cons ⟨rfl, ?_⟩ .nil))))
  exact hheads.sameBut (show lit "head_sha256" ∈ chainKeys by decide)

/-- Rows of the log in step: one sequence number, twin events. -/
abbrev SequenceTwin (E : Env) (R : Str → Str → Prop) (row row' : Event × Nat) : Prop :=
  EventTwin E R row.1 row'.1 ∧ row.2 = row'.2

theorem eventsAfter_twin {db db' : Db} (h : DbTwin E R db db') (after : Int) (limit : Nat) :
    List.Forall₂ (SequenceTwin E R) (eventsAfter db after limit) (eventsAfter db' after limit) := by
  have hnumbered : ∀ {events events' : List Event} (n : Nat), List.Forall₂ (EventTwin E R) events events' →
      List.Forall₂ (SequenceTwin E R) (events.zipIdx n) (events'.zipIdx n) := by
    intro events events' n h
    induction h generalizing n with
    | nil => exact .nil
    | cons he _ ih =>
      rw [List.zipIdx_cons, List.zipIdx_cons]
      exact .cons ⟨he, rfl⟩ (ih (n + 1))
  refine List.forall₂_take _ (List.rel_filter ?_ (hnumbered 1 h.events))
  rintro ⟨e, n⟩ ⟨e', n'⟩ ⟨-, hn⟩
  obtain rfl : n = n' := hn
  exact Iff.rfl

theorem eventRow_matches (hsha : ∀ text, IsSha (E.digest text)) {k : Str} {row row' : Event × Nat} (h : SequenceTwin E R row row') :
    J.SameBut (HashDiffers E R) k (eventRow row) (eventRow row') := by
  obtain ⟨he, hn⟩ := h
  unfold eventRow
  rw [hn, he.time]
  refine J.sameBut_object (.cons ⟨rfl, .same _⟩ (.cons ⟨rfl, .same _⟩ (.cons ⟨rfl, ?_⟩ (.cons ⟨rfl, ?_⟩ (.cons ⟨rfl, ?_⟩ .nil)))))
  · rcases he.value with hv | hv
    · rw [hv]
      exact .same _
    · exact twin_sameBut hv
  · exact (he.previous.cText hsha).sameBut (show lit "previous_hash" ∈ chainKeys by decide)
  · exact (he.hash.cText hsha).sameBut (show lit "hash" ∈ chainKeys by decide)

theorem agree_readOnly {enforce : Bool} : Tx.Agree (Twins E R) (Matches E R) (readOnly E enforce req) (readOnly E enforce req) := by
  unfold readOnly
  refine Tx.agree_lift_bind fun op => Tx.agree_ite Iff.rfl agree_unaware ?_
  cases listKind op with
  | some kind => exact Tx.agree_ite Iff.rfl agree_listPage agree_listAll
  | none =>
    refine Tx.agree_ite Iff.rfl agree_getRecord (Tx.agree_ite Iff.rfl agree_getRecord ?_)
    exact Tx.agree_ite Iff.rfl agree_auditVerify agree_unaware

end Queries

/-! ## `control` -/

section Control

variable [Pairing R] {req : J}

theorem agree_eventsRead {op : Str} : Tx.Agree (Twins E R) (Matches E R) (eventsRead op req) (eventsRead op req) := by
  unfold eventsRead
  refine Tx.agree_lift_bind fun after => Tx.agree_ite Iff.rfl (Tx.agree_lift_bind fun id => Tx.agree_blind fun channel =>
    Tx.agree_ite Iff.rfl (Tx.agree_pure (.same _)) (Tx.agree_lift_bind fun cursor => Tx.agree_lift_bind fun after => ?_)) ?_
  all_goals
    refine Tx.agree_lift_bind fun limit => Tx.agree_ite Iff.rfl (Tx.agree_pure (.same _)) ?_
    refine Tx.agree_bind agree_snapshot fun db db' h => ?_
    have hrows := eventsAfter_twin h after limit.toNat
    have hnext : ((eventsAfter db' after limit.toNat).getLast?.map fun row => (row.2 : Int)) =
        (eventsAfter db after limit.toNat).getLast?.map fun row => (row.2 : Int) := by
      have hlast := forall₂_getLast? hrows
      generalize (eventsAfter db after limit.toNat).getLast? = o at hlast ⊢
      generalize (eventsAfter db' after limit.toNat).getLast? = o' at hlast ⊢
      cases hlast with
      | none => rfl
      | some hrow => exact congrArg (fun n : Nat => some (n : Int)) hrow.2.symm
    simp only [hnext, ← hrows.length_eq]
    have hreply : ∀ (next : J) (more : J), Matches E R
        (.object [("ok", .bool true), ("events", .arr ((eventsAfter db after limit.toNat).map eventRow)), ("next_cursor", next),
          ("may_have_more", more)])
        (.object [("ok", .bool true), ("events", .arr ((eventsAfter db' after limit.toNat).map eventRow)), ("next_cursor", next),
          ("may_have_more", more)]) :=
      fun _ _ => J.sameBut_object (.cons ⟨rfl, .same _⟩ (.cons ⟨rfl, J.sameBut_arr (List.rel_map (fun _ _ hrow =>
        eventRow_matches h.sha hrow) hrows)⟩ (.cons ⟨rfl, .same _⟩ (.cons ⟨rfl, .same _⟩ .nil))))
    refine Tx.agree_ite Iff.rfl (Tx.agree_lift_bind fun d => Tx.agree_lift_bind fun delivered => Tx.agree_lift_bind fun channel =>
      Tx.agree_lift_bind fun f => Tx.agree_lift_bind fun id => Tx.agree_blind fun _ => ?_) ?_
    · exact Tx.agree_pure (hreply _ _)
    · exact Tx.agree_pure (hreply _ _)

theorem agree_approvalRevoke : Tx.Agree (Twins E R) (Matches E R) (approvalRevoke E req) (approvalRevoke E req) := by
  unfold approvalRevoke
  refine Tx.agree_lift_bind fun id => Tx.agree_bind (agree_read _ id) fun v v' h => ?_
  refine Tx.agree_ite (by rw [h.isNull]) (Tx.agree_pure (.same _)) ?_
  refine Tx.agree_bind (Tx.agree_lift ((h.twin rfl).assign (by decide))) fun v v' h => ?_
  refine Tx.agree_bind (agree_write (recordTwin_of_twin rfl h)) fun _ _ _ => Tx.agree_blind fun _ => ?_
  exact Tx.agree_pure (sameBut_record (twin_sameBut h))

theorem agree_approvalDecide : Tx.Agree (Twins E R) (Matches E R) (approvalDecide E req) (approvalDecide E req) := by
  unfold approvalDecide
  refine Tx.agree_lift_bind fun id => Tx.agree_bind (agree_read _ id) fun v v' h => ?_
  refine Tx.agree_ite (by rw [h.isNull]) (Tx.agree_pure (.same _)) ?_
  have h := h.twin rfl
  refine Tx.agree_bind_eq (Tx.agree_lift (Tx.alike_of_eq (h.index (by decide)).symm)) fun state => ?_
  refine Tx.agree_ite Iff.rfl (Tx.agree_pure (.same _)) (Tx.agree_ite Iff.rfl (Tx.agree_pure (.same _)) ?_)
  refine Tx.agree_lift_bind fun allow => Tx.agree_bind (Tx.agree_lift (h.assign (by decide))) fun v v' h => ?_
  refine Tx.agree_lift_bind fun ttl => Tx.agree_ite Iff.rfl (Tx.agree_pure (.same _)) (Tx.agree_blind fun time => ?_)
  refine Tx.agree_bind (Tx.agree_lift (h.assign (by decide))) fun v v' h => Tx.agree_lift_bind fun reason => ?_
  refine Tx.agree_bind (Tx.agree_lift (h.assign (by decide))) fun v v' h => ?_
  refine Tx.agree_bind (agree_write (recordTwin_of_twin rfl h)) fun _ _ _ => Tx.agree_blind fun _ => ?_
  exact Tx.agree_pure (sameBut_record (twin_sameBut h))

theorem agree_control {enforce : Bool} : Tx.Agree (Twins E R) (Matches E R) (control E enforce req) (control E enforce req) := by
  unfold control
  refine Tx.agree_lift_bind fun op => Tx.agree_ite Iff.rfl agree_unaware ?_
  cases listKind op with
  | some kind => exact agree_listAll
  | none =>
    refine Tx.agree_ite Iff.rfl agree_getRecord (Tx.agree_ite Iff.rfl agree_getRecord ?_)
    refine Tx.agree_ite Iff.rfl agree_unaware (Tx.agree_ite Iff.rfl agree_unaware (Tx.agree_ite Iff.rfl agree_unaware ?_))
    refine Tx.agree_ite Iff.rfl agree_approvalRevoke (Tx.agree_ite Iff.rfl agree_approvalDecide ?_)
    refine Tx.agree_ite Iff.rfl agree_unaware (Tx.agree_ite Iff.rfl agree_unaware (Tx.agree_ite Iff.rfl agree_unaware ?_))
    refine Tx.agree_ite Iff.rfl agree_eventsRead (Tx.agree_ite Iff.rfl agree_unaware ?_)
    exact Tx.agree_ite Iff.rfl agree_auditVerify agree_unaware

end Control

end A2ad.Control
