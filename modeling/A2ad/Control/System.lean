/-
The control plane as a transition system: any number of calls of `handle`, interleaved at the
transactions and at the dispatch, with audit events of other threads, failures of SQLite, crashes
and restarts.
-/
import A2ad.Control.Outcome
import A2ad.Lib.Trace

namespace A2ad.Control

open Bytes Json

/-! ## States and steps -/

/-- A call of `handle` whose request has been admitted and that has not come back. -/
structure Flight where
  request : J
  started : Bool

structure Sys where
  st : St
  up : Bool
  enforce : Bool
  flights : List Flight

namespace Sys

def init : Sys := ⟨⟨Db.empty, 0, 0⟩, false, false, []⟩

def exec (s : Sys) (id : Str) : J := s.st.db.get .execution id

def grant (s : Sys) (id : Str) : J := s.st.db.get .approval id

end Sys

inductive Label where
  /-- `handle` up to the dispatch -/
  | enter (req : J) (entry : Entry)
  /-- the dispatch callback starts on an admitted request -/
  | start (request : J)
  /-- the callback has come back, and its outcome is recorded -/
  | leave (request : J) (outcome : Except Exception J) (reply : J)
  /-- `handle` throws, before the dispatch or after it -/
  | throws (request : J)
  | event (value : J)
  | boot (enforce : Bool)
  | crash

namespace Label

/-- The request whose dispatch the step starts. -/
def dispatched : Label → Option J
  | .start request => some request
  | .enter _ (.plain req) => some req
  | _ => none

/-- The request the step belongs to. -/
def request : Label → Option J
  | .enter req _ => some req
  | .start request => some request
  | .leave request _ _ => some request
  | .throws request => some request
  | _ => none

end Label

def Entry.flights : Entry → List Flight
  | .admitted request => [⟨request, false⟩]
  | _ => []

inductive Step (E : Env) : Sys → Label → Sys → Prop
  | enter {s : Sys} {req : J} {entry : Entry} {t : St} : s.up = true → enter E s.enforce req s.st = .ok entry t →
    Step E s (.enter req entry) { s with st := t, flights := s.flights ++ entry.flights }
  | enterThrows {s : Sys} {req : J} {e : Exception} {t : St} : s.up = true → enter E s.enforce req s.st = .error e t →
    Step E s (.throws req) { s with st := t }
  /-- SQLite fails a statement: the transaction is rolled back -/
  | enterFails {s : Sys} {req : J} {t : St} : s.up = true → Still s.st t → Step E s (.throws req) { s with st := t }
  | start {s : Sys} {request : J} {l l' : List Flight} : s.flights = l ++ ⟨request, false⟩ :: l' →
    Step E s (.start request) { s with flights := l ++ ⟨request, true⟩ :: l' }
  | leave {s : Sys} {request reply : J} {outcome : Except Exception J} {l l' : List Flight} {t : St} :
    s.flights = l ++ ⟨request, true⟩ :: l' → leave E request outcome s.st = .ok reply t →
    Step E s (.leave request outcome reply) { s with st := t, flights := l ++ l' }
  | leaveThrows {s : Sys} {request : J} {outcome : Except Exception J} {l l' : List Flight} {e : Exception} {t : St} :
    s.flights = l ++ ⟨request, true⟩ :: l' → leave E request outcome s.st = .error e t →
    Step E s (.throws request) { s with st := t, flights := l ++ l' }
  | leaveFails {s : Sys} {request : J} {l l' : List Flight} {t : St} : s.flights = l ++ ⟨request, true⟩ :: l' →
    Still s.st t → Step E s (.throws request) { s with st := t, flights := l ++ l' }
  | event {s : Sys} {value : J} {u : Unit} {t : St} : s.up = true → transaction (append E value) s.st = .ok u t →
    Step E s (.event value) { s with st := t }
  | boot {s : Sys} {enforce : Bool} {u : Unit} {t : St} : s.up = false → startup E s.st = .ok u t →
    Step E s (.boot enforce) ⟨t, true, enforce, []⟩
  | crash {s : Sys} : Step E s .crash { s with up := false, flights := [] }

/-! ## What a step does to the executions -/

variable {E : Env} {s t : Sys} {l : Label}

/-- The ways a step can treat the execution `id`. -/
inductive ExecStep (E : Env) (s : Sys) (l : Label) (t : Sys) (id : Str) : Prop
  | same : t.exec id = s.exec id → ExecStep E s l t id
  | admitted {req request : J} {g : Grant} {u v w : St} : l = .enter req (.admitted request) → Issued req request →
    Still s.st u → Admission E s.enforce request g u v w t.st → g.id = id → ExecStep E s l t id
  | finished {request reply : J} {outcome : Except Exception J} : l = .leave request outcome reply →
    request.get? "request_id" = some (.str id) → ⟨request, true⟩ ∈ s.flights →
    reply.isObject = true → Finished id reply s.st t.st → ExecStep E s l t id
  | recovered {e : J} {id' : Str} {enforce : Bool} : l = .boot enforce → e = s.exec id' → e.get? "id" = some (.str id) →
    e.get? "state" = some (.str "DISPATCHING") → Settles e (t.exec id) → (t.exec id).get? "result" = e.get? "result" →
    ExecStep E s l t id

theorem Still.exec {u v : St} (h : Still u v) (kind : Kind) (id : Str) : v.db.get kind id = u.db.get kind id := by
  rw [h.db]

theorem begin_exec {enforce : Bool} {request r : J} {u v : St} (h : Begun E enforce request u r v) (hr : r ≠ .null)
    (id : Str) : v.db.get .execution id = u.db.get .execution id := by
  cases h with
  | replayed => rfl
  | refused _ hs => exact hs.exec ..
  | asked _ _ _ _ hs ha => exact (ha.others _ _ (by simp)).trans (hs.exec ..)
  | admitted => exact absurd rfl hr

/-- An answer from the record is never `null`, as long as no recorded result is. -/
theorem replay_ne_null {prior r : J} {id hash : Str} (hprior : ∀ v, prior.get? "result" = some v → v ≠ .null)
    (h : replay prior id hash = .ok r) : r ≠ .null := by
  unfold replay at h
  obtain ⟨sha, -, h⟩ := Tx.except_bind_ok h
  split at h
  · cases h
    nofun
  split at h
  · rename_i hc
    obtain ⟨v, hv⟩ := Option.isSome_iff_exists.1 hc
    have hi := (J.index_ok.1 h).2
    rw [hv] at hi
    exact hi ▸ hprior v hv
  · rintro rfl
    cases (J.get?_assign h []).1

theorem Step.exec (hs : ∀ id v, (s.exec id).get? "result" = some v → v ≠ .null) (h : Step E s l t) (id : Str) :
    ExecStep E s l t id := by
  cases h with
  | enter _ h =>
    cases enter_cases h with
    | answered _ hs => exact .same (hs.exec ..)
    | controlled hs hc _ =>
      have hf : Frame controlKinds _ _ := Tx.keeps_ok hc
      exact .same ((hf.get _ _ (by decide)).trans (hs.exec ..))
    | plain _ _ hs hc =>
      have hf : Frame controlKinds _ _ := Tx.keeps_ok hc
      exact .same ((hf.get _ _ (by decide)).trans (hs.exec ..))
    | refused _ hs hb hr => exact .same ((begin_exec (begin_cases hb) hr id).trans (hs.exec ..))
    | admitted hi hst hb =>
      cases begin_cases hb with
      | @replayed id' _ _ _ _ _ hr =>
        refine absurd rfl (replay_ne_null (fun v hv => hs id' v ?_) hr)
        rw [← hv, hst.exec]
        rfl
      | refused hne => exact absurd rfl hne
      | asked _ _ _ hne => exact absurd rfl hne
      | @admitted g _ _ _ ha =>
        by_cases hid : g.id = id
        · exact .admitted rfl hi hst ha hid
        · exact .same ((ha.others _ _ (by simpa using Ne.symm hid)).trans (hst.exec ..))
  | enterThrows _ h => exact .same ((enter_error h).exec ..)
  | enterFails _ h => exact .same (h.exec ..)
  | start => exact .same rfl
  | leave hf h =>
    obtain ⟨i, hi, hr, hfin⟩ := leave_ok h
    by_cases hid : id = i
    · subst hid
      exact .finished rfl hi (by rw [hf]; simp) (J.get?_assign hr []).1 (finish_ok hfin)
    · exact .same ((finish_ok hfin).others id hid)
  | leaveThrows _ h => exact .same ((leave_error h).exec ..)
  | leaveFails _ h => exact .same (h.exec ..)
  | event _ h =>
    have hf : Frame [] _ _ := Tx.keeps_ok h
    exact .same (hf.get _ _ (by simp))
  | boot _ h =>
    unfold startup at h
    replace h := Tx.transaction_ok.1 h
    obtain ⟨items, u, hlist, h⟩ := Tx.bind_ok.1 h
    obtain ⟨rfl, hitems⟩ := list_ok hlist
    rcases recover_ok h id with hsame | ⟨e, he, hrest⟩
    · exact .same hsame
    · obtain ⟨id', rfl⟩ := hitems e he
      exact .recovered rfl rfl hrest.1 hrest.2.1 hrest.2.2.1 hrest.2.2.2
  | crash => exact .same rfl

/-! ## Dispatches -/

def mutates (request : J) : Bool :=
  match request.get? "op" with
  | some (.str op) => mutation op
  | _ => false

/-- Only admitted requests are dispatched as mutations. -/
theorem Step.dispatched (h : Step E s l t) {request : J} (hd : l.dispatched = some request) (hm : mutates request = true) :
    l = .start request := by
  cases h with
  | start => cases hd; rfl
  | @enter _ entry _ _ h =>
    cases entry with
    | plain =>
      cases hd
      cases enter_cases h with
      | plain hop hnot =>
        unfold mutates at hm
        split at hm
        · rename_i op' hg
          rcases (J.valueStr_ok.1 hop).2 with h' | ⟨h', -⟩
          · rw [hg] at h'
            cases h'
            rw [hnot] at hm
            cases hm
          · rw [hg] at h'
            cases h'
        · cases hm
    | _ => cases hd
  | _ => cases hd

theorem Step.start_flight {r : J} (h : Step E s (.start r) t) : ⟨r, false⟩ ∈ s.flights := by
  cases h with
  | start hf => rw [hf]; simp

/-! ## The invariant of the executions -/

/-- A stored execution carries its own id; once it has a result, it is not in dispatch. -/
structure ExecOk (id : Str) (e : J) : Prop where
  object : e.isObject = true
  id : e.get? "id" = some (.str id)
  result : ∀ v, e.get? "result" = some v → v.isObject = true ∧ e.get? "state" ≠ some (.str "DISPATCHING")

/-- Calls in flight and executions in dispatch go together, one call an execution. -/
structure Safe (s : Sys) : Prop where
  execs : ∀ id, s.exec id ≠ .null → ExecOk id (s.exec id)
  flights : ∀ f ∈ s.flights, ∃ id, f.request.get? "request_id" = some (.str id) ∧
    (s.exec id).get? "state" = some (.str "DISPATCHING")
  distinct : (s.flights.map fun f => f.request.get? "request_id").Nodup

theorem safe_init : Safe Sys.init := ⟨fun _ h => absurd rfl h, nofun, List.nodup_nil⟩

theorem Safe.result_ne_null (hs : Safe s) (id : Str) (v : J) (hv : (s.exec id).get? "result" = some v) : v ≠ .null := by
  have hobj := ((hs.execs id (J.ne_null_of_get? hv)).result v hv).1
  rintro rfl
  cases hobj

theorem Safe.exec_step (hs : Safe s) (h : Step E s l t) (id : Str) : ExecStep E s l t id := h.exec hs.result_ne_null id

theorem Admission.created {enforce : Bool} {request : J} {g : Grant} {u v w : St} {x : St}
    (h : Admission E enforce request g u v w x) :
    ∃ started deadline taskId, x.db.get .execution g.id = g.execution started deadline taskId := by
  obtain ⟨taskId, hc⟩ := h.recorded.created
  exact ⟨_, _, taskId, hc⟩

/-- Settling keeps a record well formed, when the result it carries is an object. -/
theorem ExecOk.settles {id : Str} {e e' : J} (he : ExecOk id e) (h : Settles e e')
    (hr : ∀ v, e'.get? "result" = some v → v.isObject = true) : ExecOk id e' := by
  obtain ⟨st, hst, hne⟩ := h.state
  refine ⟨h.object, by rw [h.kept _ (by decide), he.id], fun v hv => ⟨hr v hv, fun e => ?_⟩⟩
  rw [hst] at e
  cases e
  exact hne rfl

theorem Settles.ne_null {e e' : J} (h : Settles e e') : e' ≠ .null := by
  rintro rfl
  cases h.object

theorem Safe.flight_exec (hs : Safe s) {f : Flight} (hf : f ∈ s.flights) {id : Str}
    (hid : f.request.get? "request_id" = some (.str id)) :
    (s.exec id).get? "state" = some (.str "DISPATCHING") ∧ ExecOk id (s.exec id) := by
  obtain ⟨id', hid', hst⟩ := hs.flights f hf
  rw [hid] at hid'
  cases hid'
  exact ⟨hst, hs.execs id (J.ne_null_of_get? hst)⟩

theorem Safe.execs_step (hs : Safe s) (h : Step E s l t) (id : Str) (hne : t.exec id ≠ .null) : ExecOk id (t.exec id) := by
  cases hs.exec_step h id with
  | same he => rw [he] at hne ⊢; exact hs.execs id hne
  | admitted _ _ _ ha hid =>
    obtain ⟨started, deadline, taskId, hc⟩ := ha.created
    have ht : t.exec id = _ := hid ▸ hc
    rw [ht]
    exact ⟨rfl, by simp [Grant.execution, hid], by simp [Grant.execution]⟩
  | finished _ hid hf hobj hfin =>
    obtain ⟨-, hok⟩ := hs.flight_exec hf hid
    refine hok.settles hfin.settles fun v hv => ?_
    obtain ⟨error, -, hr⟩ := hfin.result
    rw [show t.exec id = t.st.db.get .execution id from rfl, hr] at hv
    split at hv
    · exact (hok.result v hv).1
    · cases hv
      exact hobj
  | @recovered _ id' _ _ he hid hst hset hres =>
    subst he
    have hok := hs.execs id' (J.ne_null_of_get? hid)
    have : id' = id := by
      have := hok.id.symm.trans hid
      simpa using this
    subst this
    exact hok.settles hset fun v hv => (hok.result v (hres ▸ hv)).1

/-- The ways a step can treat the calls in flight. -/
inductive FlightStep (s : Sys) (l : Label) (t : Sys) : Prop
  | kept : t.flights = s.flights → (∀ req request, l ≠ .enter req (.admitted request)) →
    (∀ request, l ≠ .start request) → (∀ request outcome reply, l ≠ .leave request outcome reply) →
    (∀ enforce, l ≠ .boot enforce) → FlightStep s l t
  | admitted {req request : J} : l = .enter req (.admitted request) → t.flights = s.flights ++ [⟨request, false⟩] →
    FlightStep s l t
  | started {request : J} {a b : List Flight} : l = .start request → s.flights = a ++ ⟨request, false⟩ :: b →
    t.flights = a ++ ⟨request, true⟩ :: b → FlightStep s l t
  | left {request : J} {a b : List Flight} : (∃ outcome reply, l = .leave request outcome reply) ∨ l = .throws request →
    s.flights = a ++ ⟨request, true⟩ :: b → t.flights = a ++ b → FlightStep s l t
  | cleared : l = .crash ∨ (∃ enforce, l = .boot enforce) → t.flights = [] → FlightStep s l t

theorem Step.flights (h : Step E s l t) : FlightStep s l t := by
  cases h with
  | @enter _ entry _ _ _ =>
    cases entry with
    | admitted => exact .admitted rfl rfl
    | _ => exact .kept (List.append_nil _) nofun nofun nofun nofun
  | enterThrows => exact .kept rfl nofun nofun nofun nofun
  | enterFails => exact .kept rfl nofun nofun nofun nofun
  | start hf => exact .started rfl hf rfl
  | leave hf _ => exact .left (.inl ⟨_, _, rfl⟩) hf rfl
  | leaveThrows hf _ => exact .left (.inr rfl) hf rfl
  | leaveFails hf _ => exact .left (.inr rfl) hf rfl
  | event => exact .kept rfl nofun nofun nofun nofun
  | boot => exact .cleared (.inr ⟨_, rfl⟩) rfl
  | crash => exact .cleared (.inl rfl) rfl

/-- A call in flight was so before the step, or the step has admitted it. -/
theorem Step.flight_origin (h : Step E s l t) {f : Flight} (hf : f ∈ t.flights) :
    (∃ f' ∈ s.flights, f'.request = f.request) ∨ ∃ req, l = .enter req (.admitted f.request) := by
  cases h.flights with
  | kept he => exact .inl ⟨f, he ▸ hf, rfl⟩
  | @admitted req _ hl he =>
    rw [he] at hf
    rcases List.mem_append.1 hf with hf | hf
    · exact .inl ⟨f, hf, rfl⟩
    · rw [List.mem_singleton.1 hf]
      exact .inr ⟨req, hl⟩
  | started _ hs he =>
    rw [he] at hf
    rw [hs]
    rcases List.mem_append.1 hf with hf | hf
    · exact .inl ⟨f, by simp [hf], rfl⟩
    · rcases List.mem_cons.1 hf with rfl | hf
      · exact .inl ⟨_, List.mem_append_right _ List.mem_cons_self, rfl⟩
      · exact .inl ⟨f, by simp [hf], rfl⟩
  | left _ hs he =>
    rw [he] at hf
    rw [hs]
    refine .inl ⟨f, ?_, rfl⟩
    rcases List.mem_append.1 hf with hf | hf <;> simp [hf]
  | cleared _ he => rw [he] at hf; cases hf

/-- What an admitting step has done. -/
theorem Safe.admission (hs : Safe s) {req request : J} (h : Step E s (.enter req (.admitted request)) t) :
    ∃ g u v w, Issued req request ∧ Still s.st u ∧ Admission E s.enforce request g u v w t.st := by
  cases h with
  | enter _ h =>
    cases enter_cases h with
    | admitted hi hst hb =>
      cases begin_cases hb with
      | @replayed id' _ _ _ _ _ hr =>
        refine absurd rfl (replay_ne_null (fun v hv => hs.result_ne_null id' v ?_) hr)
        rw [← hv, hst.exec]
        rfl
      | refused hne => exact absurd rfl hne
      | asked _ _ _ hne => exact absurd rfl hne
      | admitted ha => exact ⟨_, _, _, _, hi, hst, ha⟩

theorem Admission.dispatching {enforce : Bool} {request : J} {g : Grant} {u v w x : St}
    (h : Admission E enforce request g u v w x) : (x.db.get .execution g.id).get? "state" = some (.str "DISPATCHING") := by
  obtain ⟨_, _, _, hc⟩ := h.created
  rw [hc]
  simp [Grant.execution]

theorem Safe.flights_step (hs : Safe s) (h : Step E s l t) {f : Flight} (hf : f ∈ t.flights) :
    ∃ id, f.request.get? "request_id" = some (.str id) ∧ (t.exec id).get? "state" = some (.str "DISPATCHING") := by
  -- a step that finishes or recovers no execution keeps those in dispatch there
  have hkeep : ∀ {f' : Flight}, f' ∈ s.flights → (∀ request outcome reply, l = .leave request outcome reply →
      request.get? "request_id" ≠ f'.request.get? "request_id") → (∀ enforce, l ≠ .boot enforce) →
      ∃ id, f'.request.get? "request_id" = some (.str id) ∧ (t.exec id).get? "state" = some (.str "DISPATCHING") := by
    intro f' hf' hleave hboot
    obtain ⟨id, hid, hst⟩ := hs.flights f' hf'
    refine ⟨id, hid, ?_⟩
    cases hs.exec_step h id with
    | same he => rw [he]; exact hst
    | admitted _ _ _ ha hg => exact hg ▸ ha.dispatching
    | finished hl hrid => exact absurd (hrid.trans hid.symm) (hleave _ _ _ hl)
    | recovered hl => exact absurd hl (hboot _)
  cases h.flights with
  | kept he _ _ hleave hboot => exact hkeep (he ▸ hf) (fun _ _ _ hl => absurd hl (hleave _ _ _)) hboot
  | admitted hl he =>
    subst hl
    rw [he] at hf
    rcases List.mem_append.1 hf with hf | hf
    · exact hkeep hf nofun nofun
    · obtain rfl := List.mem_singleton.1 hf
      obtain ⟨g, _, _, _, -, -, ha⟩ := hs.admission h
      exact ⟨g.id, (required_ok ha.id).1, ha.dispatching⟩
  | @started request a b hl hsf he =>
    subst hl
    rw [he] at hf
    rcases List.mem_append.1 hf with hf | hf
    · exact hkeep (by rw [hsf]; simp [hf]) nofun nofun
    · rcases List.mem_cons.1 hf with rfl | hf
      · exact @hkeep ⟨request, false⟩ (by rw [hsf]; simp) nofun nofun
      · exact hkeep (by rw [hsf]; simp [hf]) nofun nofun
  | @left request a b hl hsf he =>
    rw [he] at hf
    have hmem : f ∈ s.flights := by
      rw [hsf]
      rcases List.mem_append.1 hf with hf | hf <;> simp [hf]
    have hd := hs.distinct
    rw [hsf, List.map_append, List.map_cons, List.nodup_middle, List.nodup_cons, ← List.map_append] at hd
    have hne : request.get? "request_id" ≠ f.request.get? "request_id" :=
      fun e => hd.1 (List.mem_map.2 ⟨f, hf, e.symm⟩)
    rcases hl with ⟨outcome, reply, rfl⟩ | rfl
    · exact hkeep hmem (fun _ _ _ hl => by cases hl; exact hne) nofun
    · exact hkeep hmem nofun nofun
  | cleared _ he => rw [he] at hf; cases hf

theorem Safe.distinct_step (hs : Safe s) (h : Step E s l t) :
    (t.flights.map fun f => f.request.get? "request_id").Nodup := by
  have hd := hs.distinct
  cases h.flights with
  | kept he => rw [he]; exact hd
  | admitted hl he =>
    subst hl
    obtain ⟨g, _, _, _, -, hst, ha⟩ := hs.admission h
    rw [he, List.map_append, List.nodup_append_comm]
    refine List.nodup_cons.2 ⟨fun hm => ?_, hd⟩
    -- the id is fresh, so no call in flight stands for it
    obtain ⟨f, hf, hid⟩ := List.mem_map.1 hm
    have hdisp := (hs.flight_exec hf (hid.trans (required_ok ha.id).1)).1
    have hfresh : s.exec g.id = .null := (hst.exec ..).symm.trans ha.fresh
    rw [hfresh] at hdisp
    cases hdisp
  | started _ hsf he =>
    rw [he]
    rw [hsf] at hd
    simpa only [List.map_append, List.map_cons] using hd
  | left _ hsf he =>
    rw [he]
    rw [hsf] at hd
    exact hd.sublist (((List.sublist_cons_self ..).append_left _).map _)
  | cleared _ he => rw [he]; exact List.nodup_nil

theorem Safe.step (hs : Safe s) (h : Step E s l t) : Safe t :=
  ⟨hs.execs_step h, fun _ hf => hs.flights_step h hf, hs.distinct_step h⟩

/-- Every reachable state is safe. -/
theorem safe_run {tr : List (Move Sys Label)} (h : Run (Step E) Sys.init tr s) : Safe s :=
  h.invariant (I := fun _ s => Safe s) safe_init fun _ _ _ _ hs h => hs.step h

theorem Safe.exec_ne_null (hs : Safe s) (h : Step E s l t) {id : Str} (hne : s.exec id ≠ .null) : t.exec id ≠ .null := by
  cases hs.exec_step h id with
  | same he => rwa [he]
  | admitted _ _ _ ha hg => exact hg ▸ J.ne_null_of_get? ha.dispatching
  | finished _ _ _ _ hfin => exact hfin.settles.ne_null
  | recovered _ _ _ _ hset => exact hset.ne_null

theorem Safe.recovered_id (hs : Safe s) {id id' : Str} (h : (s.exec id').get? "id" = some (.str id)) : id' = id := by
  have hok := hs.execs id' (J.ne_null_of_get? h)
  simpa using hok.id.symm.trans h

/-! ## A run -/

deriving instance DecidableEq for Flight

/-- A clock that ticks by the second, ids counted up, and a hash that keeps the text. -/
def sampleEnv : Env where
  clock n := (n % 2 ^ 33 : Nat)
  range n := by omega
  rand := natText
  digest := id

def sampleSubmit (id : Str) (fields : List (Str × J)) : J :=
  .object (("op", .str "submit") :: ("request_id", .str id) :: ("message", .str "hello") :: fields)

def sampleParent : J := sampleSubmit "p" [("effects", .arr [.str "DELEGATE"])]

def sampleChild : J := sampleSubmit "c" [("parent_execution_id", .str "p")]

def sampleDecide (id : Str) : J := .object [("op", .str "approval.decide"), ("id", .str id), ("allow", .bool true)]

/-- The state and the entry a request leads to. -/
def enterMove (E : Env) (req : J) (s : Sys) : Move Sys Label :=
  match enter E s.enforce req s.st with
  | .ok entry t => ⟨s, .enter req entry, { s with st := t, flights := s.flights ++ entry.flights }⟩
  | .error _ t => ⟨s, .throws req, { s with st := t }⟩

abbrev sampleEnter : J → Sys → Move Sys Label := enterMove sampleEnv

/-- The callback starts on a request in flight. -/
def startMove (request : J) (s : Sys) : Move Sys Label :=
  ⟨s, .start request, { s with flights := s.flights.map fun f => if f.request = request then ⟨request, true⟩ else f }⟩

/-- The outcome of a request in flight is recorded. -/
def leaveMove (E : Env) (request : J) (outcome : Except Exception J) (s : Sys) : Move Sys Label :=
  let flights := s.flights.filter fun f => f.request ≠ request
  match leave E request outcome s.st with
  | .ok reply t => ⟨s, .leave request outcome reply, { s with st := t, flights := flights }⟩
  | .error _ t => ⟨s, .throws request, { s with st := t, flights := flights }⟩

/-- A call on its own: it is admitted, its callback starts, and the outcome is recorded. -/
def callMoves (E : Env) (request : J) (outcome : Except Exception J) (s : Sys) : List (Move Sys Label) :=
  let m₁ := enterMove E request s
  let m₂ := startMove request m₁.post
  [m₁, m₂, leaveMove E request outcome m₂.post]

/-- The state a list of moves ends in. -/
def lastState (moves : List (Move Sys Label)) : Sys := (moves.getLast?.map (·.post)).getD Sys.init

section Calls

variable {req request : J} {outcome : Except Exception J}

theorem enterMove_pre : (enterMove E req s).pre = s := by
  unfold enterMove
  split <;> rfl

theorem enterMove_up : (enterMove E req s).post.up = s.up := by
  unfold enterMove
  split <;> rfl

theorem enterMove_step (h : s.up = true) : Step E s (enterMove E req s).label (enterMove E req s).post := by
  unfold enterMove
  split
  · rename_i hentered
    exact .enter h hentered
  · rename_i hthrown
    exact .enterThrows h hthrown

/-- The only call in flight starts. -/
theorem startMove_step (h : s.flights = [⟨request, false⟩]) : Step E s (.start request) (startMove request s).post := by
  have hstarted : (startMove request s).post = { s with flights := [] ++ ⟨request, true⟩ :: [] } := by
    simp [startMove, h]
  rw [hstarted]
  exact .start (l := []) h

/-- A request is admitted if its call is in flight afterwards. -/
theorem enter_admitted (h : (Tx.result? (enter E s.enforce req s.st)).map (fun entry => entry.flights.map (·.request)) =
    some [request]) : ∃ t, enter E s.enforce req s.st = .ok (.admitted request) t := by
  obtain ⟨entry, hentered, hflights⟩ := Option.map_eq_some_iff.1 h
  cases entry with
  | admitted r =>
    obtain rfl : r = request := List.singleton_inj.1 hflights
    exact ⟨_, Tx.ok_of_result hentered⟩
  | _ => cases hflights

theorem leaveMove_pre : (leaveMove E request outcome s).pre = s := by
  unfold leaveMove
  split <;> rfl

theorem leaveMove_label (h : (Tx.result? (leave E request outcome s.st)).isSome = true) :
    ∃ reply, (leaveMove E request outcome s).label = .leave request outcome reply := by
  unfold leaveMove
  split
  · exact ⟨_, rfl⟩
  · rename_i hthrown
    rw [hthrown] at h
    cases h

/-- The only call in flight comes back. -/
theorem leaveMove_step (h : s.flights = [⟨request, true⟩]) :
    Step E s (leaveMove E request outcome s).label (leaveMove E request outcome s).post := by
  have hleft : s.flights.filter (fun f => f.request ≠ request) = [] ++ [] := by simp [h]
  unfold leaveMove
  simp only [hleft]
  split
  · rename_i hleave
    exact .leave (l := []) h hleave
  · rename_i hthrown
    exact .leaveThrows (l := []) h hthrown

/-- A call that is admitted while no other is in flight. -/
theorem callMoves_run (hup : s.up = true) (hadmitted : (enterMove E request s).post.flights = [⟨request, false⟩]) :
    Run (Step E) s (callMoves E request outcome s) (lastState (callMoves E request outcome s)) := by
  have hstarted : (startMove request (enterMove E request s).post).post.flights = [⟨request, true⟩] := by
    simp [startMove, hadmitted]
  exact .cons enterMove_pre (enterMove_step hup) (.cons rfl (startMove_step hadmitted)
    (.cons leaveMove_pre (leaveMove_step hstarted) .nil))

theorem callMoves_up : (lastState (callMoves E request outcome s)).up = s.up := by
  have hleft : ∀ {u : Sys}, (leaveMove E request outcome u).post.up = u.up := by
    intro u
    unfold leaveMove
    split <;> rfl
  exact (hleft (u := (startMove request _).post)).trans enterMove_up

theorem lastState_callMoves (before : List (Move Sys Label)) :
    lastState (before ++ callMoves E request outcome s) = lastState (callMoves E request outcome s) := by
  simp [lastState, callMoves]

end Calls

/-- A parent and a child that delegates from it, each asked for, granted, admitted and started. -/
def sampleMoves : List (Move Sys Label) :=
  let m₀ : Move Sys Label := ⟨Sys.init, .boot true, { Sys.init with up := true, enforce := true }⟩
  let m₁ := sampleEnter sampleParent m₀.post
  let m₂ := sampleEnter (sampleDecide "p") m₁.post
  let m₃ := sampleEnter sampleParent m₂.post
  let m₄ : Move Sys Label := ⟨m₃.post, .start sampleParent, { m₃.post with flights := [⟨sampleParent, true⟩] }⟩
  let m₅ := sampleEnter sampleChild m₄.post
  let m₆ := sampleEnter (sampleDecide "c") m₅.post
  let m₇ := sampleEnter sampleChild m₆.post
  let m₈ : Move Sys Label :=
    ⟨m₇.post, .start sampleChild, { m₇.post with flights := [⟨sampleParent, true⟩, ⟨sampleChild, true⟩] }⟩
  [m₀, m₁, m₂, m₃, m₄, m₅, m₆, m₇, m₈]

def sampleEnd : Sys := lastState sampleMoves

set_option maxRecDepth 10000 in
theorem sample_run : Run (Step sampleEnv) Sys.init sampleMoves sampleEnd := by
  refine .snoc (.snoc (.snoc (.snoc (.snoc (.snoc (.snoc (.snoc (.snoc .nil ?_) ?_) ?_) ?_) ?_) ?_) ?_) ?_) ?_
  · exact .boot rfl rfl
  · exact .enter rfl rfl
  · exact .enter rfl rfl
  · exact .enter rfl rfl
  · exact .start (l := []) rfl
  · exact .enter rfl rfl
  · exact .enter rfl rfl
  · exact .enter rfl rfl
  · exact .start (l := [⟨sampleParent, true⟩]) rfl

end A2ad.Control
