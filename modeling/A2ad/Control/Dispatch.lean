/-
At-most-once dispatch: the callback starts at most once for a mutation of a given request id, over
every interleaving, crash and restart; the execution recorded for an id belongs to one request,
and once it holds a result it is final.
-/
import A2ad.Control.System

namespace A2ad.Control

open Bytes Json

variable {E : Env} {s t : Sys} {l : Label} {tr : List (Move Sys Label)}

/-! ## Counting dispatches -/

def carries (id : Str) (request : J) : Bool := request.get? "request_id" = some (.str id)

/-- The step starts the callback on a mutation that carries the id. -/
def starts (id : Str) (m : Move Sys Label) : Bool := m.label.dispatched.any fun request => mutates request && carries id request

/-- The call is admitted under the id, and its callback has not started yet. -/
def waiting (id : Str) (f : Flight) : Bool := !f.started && carries id f.request

/-- Dispatches made or still to be made under an id: none before its execution, then one at most. -/
def Once (id : Str) (tr : List (Move Sys Label)) (s : Sys) : Prop :=
  tr.countP (starts id) + s.flights.countP (waiting id) ≤ if s.exec id = .null then 0 else 1

/-- A dispatch takes one waiting call; only an admission, under a fresh id, adds one. -/
theorem once_step {id : Str} (hs : Safe s) (ho : Once id tr s) (h : Step E s l t) : Once id (tr ++ [⟨s, l, t⟩]) t := by
  have hquiet : (∀ request, l ≠ .start request) → starts id ⟨s, l, t⟩ = false := by
    intro hne
    by_contra hstart
    simp only [starts, Bool.not_eq_false, Option.any_eq_true, Bool.and_eq_true] at hstart
    obtain ⟨request, hd, hm, -⟩ := hstart
    exact hne request (h.dispatched hd hm)
  have hbound : (if s.exec id = .null then 0 else 1) ≤ if t.exec id = .null then 0 else 1 := by
    by_cases hn : s.exec id = .null
    · rw [if_pos hn]; exact Nat.zero_le _
    · rw [if_neg hn, if_neg (hs.exec_ne_null h hn)]
  unfold Once at ho ⊢
  rw [List.countP_append, List.countP_singleton]
  cases h.flights with
  | kept he _ hstart =>
    rw [hquiet hstart, if_neg Bool.false_ne_true, he]
    omega
  | @admitted req request hl he =>
    subst hl
    rw [hquiet nofun, if_neg Bool.false_ne_true, he, List.countP_append, List.countP_singleton]
    by_cases hid : waiting id ⟨request, false⟩ = true
    · -- the id is fresh: nothing has been dispatched under it, and now its execution exists
      obtain ⟨g, _, _, _, -, hst, ha⟩ := hs.admission h
      have hg : g.id = id := by
        have := (required_ok ha.id).1
        simp only [waiting, carries, Bool.not_false, Bool.true_and, decide_eq_true_eq] at hid
        rw [hid] at this
        simpa using this.symm
      have hfresh : s.exec id = .null := by rw [← hg]; exact (hst.exec ..).symm.trans ha.fresh
      have hnew : t.exec id ≠ .null := by rw [← hg]; exact J.ne_null_of_get? ha.dispatching
      rw [if_pos hfresh] at ho
      rw [if_pos hid, if_neg hnew]
      omega
    · rw [if_neg hid]
      omega
  | @started request a b hl hsf he =>
    subst hl
    have hle : (if starts id ⟨s, .start request, t⟩ = true then 1 else 0) ≤
        if waiting id ⟨request, false⟩ = true then 1 else 0 := by
      by_cases hst : starts id ⟨s, .start request, t⟩ = true
      · have hw : waiting id ⟨request, false⟩ = true := by
          simp only [starts, Label.dispatched, Option.any_some, Bool.and_eq_true] at hst
          simpa [waiting] using hst.2
        rw [if_pos hst, if_pos hw]
      · rw [if_neg hst]; exact Nat.zero_le _
    have hw : waiting id ⟨request, true⟩ = false := rfl
    rw [hsf, List.countP_append, List.countP_cons] at ho
    rw [he, List.countP_append, List.countP_cons, hw, if_neg Bool.false_ne_true]
    omega
  | @left request a b hl hsf he =>
    have hw : waiting id ⟨request, true⟩ = false := rfl
    rw [hquiet (by rcases hl with ⟨_, _, rfl⟩ | rfl <;> nofun), if_neg Bool.false_ne_true, he, List.countP_append]
    rw [hsf, List.countP_append, List.countP_cons, hw, if_neg Bool.false_ne_true] at ho
    omega
  | cleared hl he =>
    rw [hquiet (by rcases hl with rfl | ⟨_, rfl⟩ <;> nofun), if_neg Bool.false_ne_true, he, List.countP_nil]
    omega

theorem once_run (id : Str) (h : Run (Step E) Sys.init tr s) : Once id tr s := by
  refine h.invariant_of (I := fun tr s => Once id tr s) ?_ fun tr s l t hr ho hstep => once_step (safe_run hr) ho hstep
  simp [Once, Sys.init, Sys.exec]

/-! ## One execution, one request -/

/-- The execution `e` of `id` was created for the request `r`. -/
structure Origin (E : Env) (id : Str) (r e : J) : Prop where
  rid : required r "request_id" = .ok id
  op : ∃ op, r.get? "op" = some (.str op) ∧ mutation op = true
  digest : digestOk r = .ok true
  hash : ∃ text, (canonical r).dump = .ok text ∧ e.get? "request_sha256" = some (.str (E.digest text))

/-- The execution of `id` exists, was created for `r`, and only calls of `r` are in flight under `id`. -/
structure Held (E : Env) (id : Str) (r : J) (s : Sys) : Prop where
  origin : Origin E id r (s.exec id)
  flights : ∀ f ∈ s.flights, f.request.get? "request_id" = some (.str id) → f.request = r

theorem Held.ne_null {id : Str} {r : J} (h : Held E id r s) : s.exec id ≠ .null := by
  obtain ⟨_, -, hh⟩ := h.origin.hash
  exact J.ne_null_of_get? hh

theorem Origin.settles {id : Str} {r e e' : J} (h : Origin E id r e) (hs : Settles e e') : Origin E id r e' := by
  obtain ⟨text, htext, hh⟩ := h.hash
  exact ⟨h.rid, h.op, h.digest, text, htext, by rw [hs.kept _ (by decide), hh]⟩

theorem Issued.origin {req r : J} {g : Grant} {enforce : Bool} {s t u s' : St} (h : Issued req r)
    (ha : Admission E enforce r g s t u s') : Origin E g.id r (s'.db.get .execution g.id) := by
  obtain ⟨started, deadline, taskId, hc⟩ := ha.created
  obtain ⟨text, htext, hg⟩ := ha.hash
  exact ⟨ha.id, h.op, h.digest, text, htext, by rw [hc]; simp [Grant.execution, hg]⟩

/-- An admission makes the execution of its request. -/
theorem Safe.held_of_admission (hs : Safe s) {req r : J} {g : Grant} {u v w : St} (h : Step E s (.enter req (.admitted r)) t)
    (hi : Issued req r) (hst : Still s.st u) (ha : Admission E s.enforce r g u v w t.st) : Held E g.id r t := by
  refine ⟨hi.origin ha, fun f hf hid => ?_⟩
  rcases h.flight_origin hf with ⟨f', hf', he⟩ | ⟨req', hl⟩
  · -- no call was in flight under a fresh id
    have hdisp := (hs.flight_exec hf' (he ▸ hid)).1
    have hfresh : s.exec g.id = .null := (hst.exec ..).symm.trans ha.fresh
    rw [hfresh] at hdisp
    cases hdisp
  · cases hl
    rfl

theorem Held.step {id : Str} {r : J} (hh : Held E id r s) (hs : Safe s) (h : Step E s l t) : Held E id r t := by
  refine ⟨?_, fun f hf hid => ?_⟩
  · cases hs.exec_step h id with
    | same he => rw [he]; exact hh.origin
    | admitted _ _ hst ha hg =>
      exact absurd (by rw [← hg]; exact (hst.exec ..).symm.trans ha.fresh) hh.ne_null
    | finished _ _ _ _ hfin => exact hh.origin.settles hfin.settles
    | @recovered e id' _ _ he hid _ hset _ =>
      subst he
      obtain rfl := hs.recovered_id hid
      exact hh.origin.settles hset
  · rcases h.flight_origin hf with ⟨f', hf', he⟩ | ⟨req, hl⟩
    · rw [← he] at hid ⊢
      exact hh.flights f' hf' hid
    · subst hl
      obtain ⟨g, _, _, _, -, hst, ha⟩ := hs.admission h
      have hg : g.id = id := by simpa using (required_ok ha.id).1.symm.trans hid
      exact absurd (by rw [← hg]; exact (hst.exec ..).symm.trans ha.fresh) hh.ne_null

/-- Every execution was created by an admission of the run. -/
theorem held_run (h : Run (Step E) Sys.init tr s) (id : Str) (hne : s.exec id ≠ .null) :
    ∃ r, (∃ m ∈ tr, ∃ req, m.label = .enter req (.admitted r)) ∧ Held E id r s := by
  induction h with
  | nil => exact absurd rfl hne
  | @snoc tr s t l hr hstep ih =>
    have hs := safe_run hr
    by_cases hn : s.exec id = .null
    · -- the step has created it
      cases hs.exec_step hstep id with
      | same he => exact absurd (he.trans hn) hne
      | @admitted req r _ _ _ _ hl hi hst ha hg =>
        subst hl
        exact ⟨r, ⟨_, List.mem_append_right _ (List.mem_singleton_self _), req, rfl⟩, hg ▸ hs.held_of_admission hstep hi hst ha⟩
      | finished _ hid hf =>
        have hdisp := (hs.flight_exec hf hid).1
        rw [hn] at hdisp
        cases hdisp
      | recovered _ he hid =>
        subst he
        obtain rfl := hs.recovered_id hid
        rw [hn] at hid
        cases hid
    · obtain ⟨r, ⟨m, hm, req, hl⟩, hh⟩ := ih hn
      exact ⟨r, ⟨m, List.mem_append_left _ hm, req, hl⟩, hh.step hs hstep⟩

/-! ## Final results -/

/-- Once an execution has its result, no step changes it. -/
theorem Safe.final_step (hs : Safe s) (h : Step E s l t) {id : Str} {v : J} (hv : (s.exec id).get? "result" = some v) :
    t.exec id = s.exec id := by
  have hok := hs.execs id (J.ne_null_of_get? hv)
  have hnot := (hok.result v hv).2
  cases hs.exec_step h id with
  | same he => exact he
  | admitted _ _ hst ha hg =>
    have hfresh : s.exec id = .null := by rw [← hg]; exact (hst.exec ..).symm.trans ha.fresh
    rw [hfresh] at hv
    cases hv
  | finished _ hid hf => exact absurd (hs.flight_exec hf hid).1 hnot
  | recovered _ he hid hst =>
    subst he
    obtain rfl := hs.recovered_id hid
    exact absurd hst hnot

/-- Two requests of one id and one canonical content read alike. -/
theorem get?_of_canonical {r r' : J} (hrid : r.get? "request_id" = r'.get? "request_id") (hc : canonical r = canonical r')
    (k : Str) : r.get? k = r'.get? k := by
  by_cases hk : k = "request_id"
  · rw [hk, hrid]
  · have h := congrArg (fun j : J => j.get? k) hc
    simpa only [canonical, J.get?_erase, if_neg hk] using h

theorem digestOk_congr {r r' : J} (hr : r.isObject = true) (hr' : r'.isObject = true) (hget : ∀ k, r.get? k = r'.get? k) :
    digestOk r = digestOk r' := by
  rw [digestOk, digestOk, J.valueStr_congr hr hr' (hget _), hget]

theorem mutation_not_query {op : Str} (h : mutation op = true) : isQuery op = false := by
  simp only [mutation, Bool.or_eq_true, decide_eq_true_eq, or_assoc] at h
  rcases h with rfl | rfl | rfl | rfl | rfl | rfl | rfl <;> decide

/-- An exact repeat of a request whose execution has a result is answered with that result, and
changes nothing. -/
theorem enter_repeat {enforce : Bool} {id : Str} {req r v : J} {u : St} (ho : Origin E id r (u.db.get .execution id))
    (hv : (u.db.get .execution id).get? "result" = some v) (hobj : v.isObject = true)
    (hrid : req.get? "request_id" = some (.str id)) (hc : canonical req = canonical r) :
    enter E enforce req u = .ok (.refused req v) u := by
  obtain ⟨text, htext, hhash⟩ := ho.hash
  obtain ⟨op, hop, hm⟩ := ho.op
  have hget := get?_of_canonical (hrid.trans (required_ok ho.rid).1.symm) hc
  have hreq : req.isObject = true := J.isObject_of_get? hrid
  have hr : r.isObject = true := J.isObject_of_get? hop
  have hopv : req.valueStr "op" "" = .ok op := J.valueStr_ok.2 ⟨hreq, .inl ((hget _).trans hop)⟩
  have hrequired : required req "request_id" = .ok id := by
    rw [← ho.rid, required, required, J.valueStr_congr hreq hr (hget _)]
  have hdigest : digestOk req = .ok true := by rw [digestOk_congr hreq hr hget, ho.digest]
  have hcontains : req.contains "request_id" = true := by rw [J.contains, hrid]; rfl
  have hexec : u.db.get .execution id ≠ .null := J.ne_null_of_get? hv
  have hreplay : replay (u.db.get .execution id) id (E.digest text) = .ok v := by
    have hindex : (u.db.get .execution id).index "result" = .ok v :=
      J.index_ok.2 ⟨.inl (J.isObject_of_get? hv), by rw [hv]; rfl⟩
    have hres : (u.db.get .execution id).contains "result" = true := by rw [J.contains, hv]; rfl
    simp only [replay, J.field_ok.2 hhash, J.same_str.2, hres, hindex, bind, Except.bind, Bool.not_true,
      Bool.false_eq_true, if_false, if_true]
  have hbegin : begin E enforce req u = .ok v u := by
    rw [begin, Tx.bind_of_ok (Tx.lift_of_ok hrequired), Tx.bind_of_ok (Tx.lift_of_ok (hc ▸ htext))]
    rw [Tx.bind_of_ok (read_ok.2 ⟨rfl, rfl⟩), if_pos (not_null hexec)]
    exact Tx.lift_of_ok hreplay
  have hcontrol : transaction (control E enforce req) u = .ok .null u := Tx.transaction_ok.2 (control_mutation hopv hm u)
  have hquery : query E enforce op req u = .ok .null u := by
    rw [query, mutation_not_query hm]
    rfl
  rw [enter, if_neg (by rw [hreq]; nofun), Tx.bind_of_ok (Tx.lift_of_ok hopv), Tx.bind_of_ok hquery]
  rw [if_neg nofun, Tx.bind_of_ok hcontrol, if_neg nofun, if_neg (by rw [hm]; nofun)]
  have hid : withRequestId E req u = .ok req u := by
    rw [withRequestId, if_pos hcontains]
    rfl
  rw [enterMutation, if_neg (by rw [hcontains]; nofun), Tx.bind_of_ok hid, Tx.bind_of_ok (Tx.lift_of_ok hdigest)]
  have hbegun : transaction (begin E enforce req) u = .ok v u := Tx.transaction_ok.2 hbegin
  have hnull : ¬ v.isNull = true := by
    intro hn
    rw [J.isNull_iff.1 hn] at hobj
    cases hobj
  rw [if_neg nofun, Tx.bind_of_ok hbegun, if_neg hnull]
  rfl

/-! ## At most once -/

theorem Held.run {id : Str} {r : J} {tr' : List (Move Sys Label)} (hh : Held E id r s) (hs : Safe s)
    (h : Run (Step E) s tr' t) : Held E id r t ∧ Safe t :=
  h.invariant (I := fun _ u => Held E id r u ∧ Safe u) ⟨hh, hs⟩ fun _ _ _ _ hu hstep => ⟨hu.1.step hu.2 hstep, hu.2.step hstep⟩

theorem Safe.final_run (hs : Safe s) {id : Str} {v : J} (hv : (s.exec id).get? "result" = some v)
    {tr' : List (Move Sys Label)} (h : Run (Step E) s tr' t) : t.exec id = s.exec id := by
  have hinv := h.invariant (I := fun _ u => u.exec id = s.exec id ∧ Safe u) ⟨rfl, hs⟩ fun _ u _ w hu hstep =>
    ⟨(hu.2.final_step hstep (hu.1 ▸ hv)).trans hu.1, hu.2.step hstep⟩
  exact hinv.1

/-- A step of another request under the id neither dispatches it nor changes the execution. -/
theorem Held.foreign_step {id : Str} {r r' : J} (hh : Held E id r s) (hs : Safe s) (h : Step E s l t)
    (hl : l.request = some r') (hid : r'.get? "request_id" = some (.str id)) (hne : canonical r' ≠ canonical r) :
    starts id ⟨s, l, t⟩ = false ∧ t.exec id = s.exec id := by
  constructor
  · by_contra hstart
    simp only [starts, Bool.not_eq_false, Option.any_eq_true, Bool.and_eq_true] at hstart
    obtain ⟨q, hd, hm, -⟩ := hstart
    obtain rfl := h.dispatched hd hm
    obtain rfl : q = r' := by simpa [Label.request] using hl
    cases h with
    | start hf => exact hne (congrArg canonical (hh.flights ⟨q, false⟩ (by rw [hf]; simp) hid))
  · cases hs.exec_step h id with
    | same he => exact he
    | admitted _ _ hst ha hg =>
      exact absurd (by rw [← hg]; exact (hst.exec ..).symm.trans ha.fresh) hh.ne_null
    | finished hl' _ hf =>
      subst hl'
      obtain rfl := Option.some.inj hl
      exact absurd (congrArg canonical (hh.flights _ hf hid)) hne
    | recovered hl' =>
      subst hl'
      cases hl

/-- **At-most-once dispatch.** In every run the callback starts at most once for a mutation of a
given request id. Once the id has an execution, that execution belongs to one request `r` the run
has admitted: from then on a step of any other request of the id neither dispatches nor changes
the execution; and once the execution has a result it is final, and every exact repeat of `r` is
answered with that result and changes nothing. -/
theorem dispatch_at_most_once (E : Env) {tr : List (Move Sys Label)} {s : Sys} (h : Run (Step E) Sys.init tr s) (id : Str) :
    tr.countP (starts id) ≤ 1 ∧
    (s.exec id ≠ .null → ∃ r, (∃ m ∈ tr, ∃ req, m.label = .enter req (.admitted r)) ∧
      r.get? "request_id" = some (.str id) ∧
      ∀ (tr' : List (Move Sys Label)) (t : Sys), Run (Step E) s tr' t →
        (∀ m ∈ tr', ∀ r', m.label.request = some r' → r'.get? "request_id" = some (.str id) →
          canonical r' ≠ canonical r → starts id m = false ∧ m.post.exec id = m.pre.exec id) ∧
        ∀ v, (s.exec id).get? "result" = some v → t.exec id = s.exec id ∧
          ∀ (enforce : Bool) (req : J), req.get? "request_id" = some (.str id) → canonical req = canonical r →
            enter E enforce req t.st = .ok (.refused req v) t.st) := by
  have hs := safe_run h
  refine ⟨?_, fun hne => ?_⟩
  · have honce := once_run id h
    unfold Once at honce
    split at honce <;> omega
  obtain ⟨r, hadmitted, hheld⟩ := held_run h id hne
  refine ⟨r, hadmitted, (required_ok hheld.origin.rid).1, fun tr' t h' => ⟨fun m hm r' hl hid hc => ?_, fun v hv => ?_⟩⟩
  · obtain ⟨a, b, rfl⟩ := List.append_of_mem hm
    obtain ⟨hpre, hstep, -⟩ := h'.split
    obtain ⟨hheld', hs'⟩ := hheld.run hs hpre
    exact hheld'.foreign_step hs' hstep hl hid hc
  · have hfinal := hs.final_run hv h'
    obtain ⟨hheld', hs'⟩ := hheld.run hs h'
    have hv' : (t.exec id).get? "result" = some v := hfinal ▸ hv
    refine ⟨hfinal, fun enforce req hid hc => ?_⟩
    exact enter_repeat hheld'.origin hv' ((hs'.execs id hheld'.ne_null).result v hv').1 hid hc

set_option maxRecDepth 10000 in
theorem dispatch_at_most_once_sample : sampleMoves.countP (starts "p") = 1 ∧ sampleMoves.countP (starts "p") ≤ 1 ∧
    ∃ r, r.get? "request_id" = some (.str "p") ∧ ∃ m ∈ sampleMoves, ∃ req, m.label = .enter req (.admitted r) := by
  obtain ⟨hle, hexec⟩ := dispatch_at_most_once sampleEnv sample_run "p"
  obtain ⟨r, hadmitted, hid, -⟩ := hexec (by rw [show sampleEnd.exec "p" = .obj _ from rfl]; nofun)
  exact ⟨rfl, hle, r, hid, hadmitted⟩

end A2ad.Control
