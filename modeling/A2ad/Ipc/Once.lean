/-
Every request that acts on an agent is paid for by an execution: the daemon puts none on the wire but those
of its callbacks, one at most for a request id over all processes, and one exactly for what is delivered.
-/
import A2ad.Ipc.System
import A2ad.Task.Completion

namespace A2ad.Ipc

open Bytes Json Client TaskManager
open Control (Verdict)

/-- The callback has its request still to make. -/
def Stage.pending : Stage → Bool
  | .started | .prepared _ => true
  | _ => false

namespace Service

/-! ## Contacts -/

def requestId (request : J) : Str :=
  match request.get? "request_id" with
  | some (.str id) => id
  | _ => []

/-- The requests that act on an agent which a callback has put on the wire, under the id of its request. -/
def contacts (m : Move Service Turn) : List (Str × Sent) :=
  match m.label with
  | .advances request => ((m.post.tasks.sent.drop m.pre.tasks.sent.length).filter acts).map fun x => (requestId request, x)
  | _ => []

def contactsOf (tr : List (Move Service Turn)) : List (Str × Sent) := tr.flatMap contacts

def pending (id : Str) (c : Callback) : Bool := c.stage.pending && Control.carries id c.request

theorem contactsOf_snoc (tr : List (Move Service Turn)) (m : Move Service Turn) :
    contactsOf (tr ++ [m]) = contactsOf tr ++ contacts m := by
  simp [contactsOf]

/-! ## What a callback owes -/

/-- A reply that does not say that the operation has been done. -/
def Undone (reply : J) : Prop := reply.get? "ok" ≠ some (.bool true)

/-- What is known of a callback at its stage: a mutation that has not reached its agent is not done. -/
def Owes (op : Op) (id : Str) (reached : Prop) : Stage → Prop
  | .started => True
  | .prepared p => p.Fits op id
  | .answered conclude => Tx.Keeps Passive conclude ∧ (op.method.isSome = true → ¬ reached → Refuses conclude)
  | .returned outcome => op.method.isSome = true → ¬ reached → Undone (Control.recorded outcome)

section Owes

variable {E : Env} {F : Files} {op : Op} {id : Str} {request : J} {reached reached' : Prop} {stage stage' : Stage} {w w' : World}

theorem Owes.mono (h : Owes op id reached stage) (hr : reached → reached') : Owes op id reached' stage := by
  cases stage with
  | started => trivial
  | prepared p => exact h
  | answered conclude => exact ⟨h.1, fun hop hnot => h.2 hop fun hreached => hnot (hr hreached)⟩
  | returned outcome => exact fun hop hnot => h hop fun hreached => hnot (hr hreached)

theorem undone_throw (e : Exception) : Undone (Control.recorded (.error e)) := by
  unfold Undone Control.recorded Control.failure
  simp

theorem undone_refused {reply : J} {kind : Str} (h : Replies false kind reply) : Undone reply := by
  unfold Undone
  rw [h.ok]
  nofun

theorem verdict_done {reply : J} (h : Control.verdict reply = .ok .succeeded) : reply.get? "ok" = some (.bool true) := by
  unfold Control.verdict at h
  obtain ⟨kind, -, h⟩ := Tx.except_bind_ok h
  split at h
  · cases h
  · obtain ⟨ok, hok, h⟩ := Tx.except_bind_ok h
    cases ok with
    | false => cases h
    | true =>
      obtain ⟨-, ⟨v, hv, hread⟩ | ⟨-, hdefault⟩⟩ := J.value_ok.1 hok
      · cases v with
        | bool b =>
          cases hread
          exact hv
        | _ => cases hread
      · cases hdefault

/-- What a callback prepares fits its request. -/
theorem prepares_fits (hm : Mutates request id op) : Tx.Returns (Prepared.Fits op id) (prepares E F request) := by
  have hobj : request.isObject = true := J.isObject_of_get? hm.asked
  have hop : request.valueStr "op" "" = .ok op.name := J.valueStr_ok.2 ⟨hobj, .inl hm.asked⟩
  have hid : request.valueStr "request_id" "" = .ok id := J.valueStr_ok.2 ⟨hobj, .inl hm.carried⟩
  unfold prepares
  refine Tx.returns_lift_bind fun name hname => ?_
  obtain rfl : name = op.name := Except.ok.inj (hname.symm.trans hop)
  rw [Op.parse_name]
  exact prepare_fits hid hm.named hm.mutates

instance : Tx.Keeps Passive (prepares E F request) := by
  unfold prepares
  refine Tx.keeps_bind (k := fun name => ?_)
  cases Op.parse name <;> infer_instance

/-- What a phase of a callback does: it puts at most one request on the wire that acts, and this only if the callback
had one to make; afterwards it has none to make, or as before. -/
structure Advanced (op : Op) (id : Str) (reached : Prop) (stage stage' : Stage) (w w' : World) (l : List Sent) : Prop where
  sent : w'.sent.filter acts = w.sent.filter acts ++ l
  grown : (w'.sent.drop w.sent.length).filter acts = l
  acted : ∀ x ∈ l, Acts op id x
  once : l.length + stage'.pending.toNat ≤ stage.pending.toNat
  owes : Owes op id (reached ∨ l ≠ []) stage'
  events : ∀ v ∈ w'.events, v ∈ w.events ∨ OwnEvent v

theorem filter_passive {l : List Sent} (h : ∀ x ∈ l, acts x = false) : l.filter acts = [] :=
  List.filter_eq_nil_iff.2 fun x hx => by simp [h x hx]

/-- A passive phase. -/
theorem Advanced.of_passive (hp : Passive w w') (hpending : stage'.pending.toNat ≤ stage.pending.toNat)
    (howes : Owes op id reached stage') : Advanced op id reached stage stage' w w' [] := by
  obtain ⟨⟨l, hl, hreads⟩, hevents⟩ := hp
  refine ⟨?_, ?_, fun _ hx => absurd hx List.not_mem_nil, by simpa using hpending, howes.mono .inl, hevents⟩
  · rw [hl, List.filter_append, filter_passive hreads]
  · rw [hl, List.drop_left, filter_passive hreads]

theorem advanced (hm : Mutates request id op) (howes : Owes op id reached stage)
    (hnext : stage.next E F request w = some (stage', w')) : ∃ l, Advanced op id reached stage stage' w w' l := by
  cases stage with
  | started =>
    have hpassive := (inferInstance : Tx.Keeps Passive (prepares E F request)).out w
    replace hnext : some (onward .prepared (prepares E F request w)) = some (stage', w') := hnext
    cases hprepares : prepares E F request w with
    | ok p u =>
      rw [hprepares] at hnext hpassive
      cases hnext
      exact ⟨[], .of_passive hpassive le_rfl (prepares_fits hm w p _ hprepares)⟩
    | error e u =>
      rw [hprepares] at hnext hpassive
      cases hnext
      exact ⟨[], .of_passive hpassive (Nat.zero_le _) fun _ _ => undone_throw e⟩
  | prepared p =>
    obtain ⟨l, hsent, hle, hacts, hevents, hconclude⟩ := Prepared.Fits.asks (E := E) howes w
    have hfilter : l.filter acts = l := List.filter_eq_self.2 fun x hx => (hacts x hx).acts
    have hadvanced : ∀ {stage'} {w' : World}, w' = Tx.endState (p.ask E w) → stage'.pending = false →
        Owes op id (reached ∨ l ≠ []) stage' → Advanced op id reached (.prepared p) stage' w w' l := by
      rintro stage' w' rfl hpending howes
      refine ⟨?_, ?_, hacts, by rw [hpending]; exact hle, howes, fun v hv => .inl (hevents ▸ hv)⟩
      · rw [hsent, List.filter_append, hfilter]
      · rw [hsent, List.drop_left, hfilter]
    replace hnext : some (onward .answered (p.ask E w)) = some (stage', w') := hnext
    cases hask : p.ask E w with
    | ok conclude u =>
      rw [hask] at hnext hadvanced
      cases hnext
      obtain ⟨hkeeps, hrefuses⟩ := hconclude conclude _ hask
      exact ⟨l, hadvanced rfl rfl ⟨hkeeps, fun hop hnot => hrefuses hop (by_contra fun hne => hnot (.inr hne))⟩⟩
    | error e u =>
      rw [hask] at hnext hadvanced
      cases hnext
      exact ⟨l, hadvanced rfl rfl fun _ _ => undone_throw e⟩
  | answered conclude =>
    obtain ⟨hkeeps, hrefuses⟩ := howes
    have hpassive := hkeeps.out w
    replace hnext : some (onward (fun j => .returned (.ok j)) (conclude w)) = some (stage', w') := hnext
    cases hconclude : conclude w with
    | ok reply u =>
      rw [hconclude] at hnext hpassive
      cases hnext
      refine ⟨[], .of_passive hpassive le_rfl fun hop hnot => ?_⟩
      obtain ⟨kind, hreply⟩ := hrefuses hop hnot w reply _ hconclude
      exact undone_refused hreply
    | error e u =>
      rw [hconclude] at hnext hpassive
      cases hnext
      exact ⟨[], .of_passive hpassive le_rfl fun _ _ => undone_throw e⟩
  | returned outcome => cases hnext

end Owes

/-! ## Turns that only read -/

section Reading

variable {C : Control.Env} {E : Env} {F : Files} {s t : Service} {turn : Turn}

theorem passive_dispatch {req : J} {name : Str} (hname : req.valueStr "op" "" = .ok name)
    (hnot : Control.mutation name = false) : Tx.Keeps Passive (dispatch E (materialize E F) req) := by
  refine ⟨fun w => ?_⟩
  unfold dispatch
  rw [Tx.bind_of_ok (Tx.lift_of_ok hname)]
  cases hop : Op.parse name with
  | none => exact refl_of Passive w
  | some op =>
    have hsame : op.name = name := by simpa using List.find?_some hop
    exact (passive_perform (hsame ▸ hnot)).out w

instance : Tx.Keeps Passive (startSubscriptions E) := by
  unfold startSubscriptions
  refine Tx.keeps_bind (k := fun tasks => ?_)
  induction tasks with
  | nil => exact Tx.keeps_pure _
  | cons t rest ih =>
    refine Tx.keeps_bind (h := Tx.keeps_bind (k := fun found => ?_)) (k := fun _ => ih)
    cases found <;> infer_instance

theorem passive_after (w : Work) (s : World) : Passive s (w.after E s) := by
  cases w with
  | reconciles => exact (inferInstance : Tx.Keeps Passive (reconcileOnStartup E)).out s
  | subscribes => exact (inferInstance : Tx.Keeps Passive (startSubscriptions E)).out s
  | connects agent taskId remote => exact (inferInstance : Tx.Keeps Passive (subscriptionRound E agent taskId remote)).out s
  | receives taskId r e => exact passive_received taskId r s e
  | refreshes taskId => exact (inferInstance : Tx.Keeps Passive (refreshTask E taskId)).out s

/-- Only the phases of callbacks do more than read. -/
theorem passive_turn (h : Step C E F s turn t) (hnot : ∀ request, turn ≠ .advances request) : Passive s.tasks t.tasks := by
  have hsame : ∀ w : World, Passive w w := refl_of Passive
  cases h with
  | @enters _ entry _ h =>
    cases entry with
    | plain req =>
      cases h with
      | enter _ hentered =>
        cases Control.enter_cases hentered with
        | plain hop hplain => exact (passive_dispatch hop hplain).out s.tasks
    | _ => exact hsame _
  | advances => exact absurd rfl (hnot _)
  | works => exact passive_after _ _
  | boots => exact ⟨⟨[], (List.append_nil _).symm, fun _ hx => absurd hx List.not_mem_nil⟩, fun _ hv => .inl hv⟩
  | _ => exact hsame _

end Reading

/-! ## The account of a run -/

/-- An execution of the operation has come to `state`. -/
def Stands (s : Control.Sys) (id state : Str) (op : Op) : Prop :=
  (s.exec id).get? "state" = some (.str state) ∧ (s.exec id).get? "operation" = some (.str op.name)

/-- The wire against the callbacks and the executions: `made` are the requests that act, under the ids of their
callbacks, and `starts` counts the callbacks of an id that have been started. -/
structure Balanced (made : List (Str × Sent)) (starts : Str → Nat) (s : Service) : Prop where
  wire : s.tasks.sent.filter acts = made.map Prod.snd
  events : ∀ v ∈ s.tasks.events, OwnEvent v
  owes : ∀ c ∈ s.callbacks, ∀ id op, Mutates c.request id op → Owes op id (id ∈ made.map Prod.fst) c.stage
  once : ∀ id, (made.map Prod.fst).count id + s.callbacks.countP (pending id) ≤ starts id
  paid : ∀ e ∈ made, ∃ op : Op, (s.control.exec e.1).get? "operation" = some (.str op.name) ∧ Acts op e.1 e.2
  delivered : ∀ id op, Stands s.control id "DELIVERED" op → op.method.isSome = true → id ∈ made.map Prod.fst

abbrev Account (tr : List (Move Service Turn)) (s : Service) : Prop :=
  Balanced (contactsOf tr) (fun id => (controlTrace tr).countP (Control.starts id)) s

section Accounts

variable {C : Control.Env} {E : Env} {F : Files} {s t : Service} {turn : Turn} {tr : List (Move Service Turn)}

theorem contacts_reading (h : ∀ request, turn ≠ .advances request) : contacts ⟨s, turn, t⟩ = [] := by
  unfold contacts
  cases turn with
  | advances request => exact absurd rfl (h request)
  | _ => rfl

theorem requestId_carried {request : J} {id : Str} (h : request.get? "request_id" = some (.str id)) : requestId request = id := by
  unfold requestId
  rw [h]

theorem op_of_name {op op' : Op} (h : op'.name = op.name) : op' = op := by
  have hparse := Op.parse_name op'
  rw [h, Op.parse_name] at hparse
  exact (Option.some.inj hparse).symm

/-- A request has one id and one operation. -/
theorem Mutates.unique {request : J} {id id' : Str} {op op' : Op} (h : Mutates request id op) (h' : Mutates request id' op') :
    id' = id ∧ op' = op :=
  ⟨by simpa using h'.carried.symm.trans h.carried, op_of_name (by simpa using h'.asked.symm.trans h.asked)⟩

theorem controlTrace_snoc (m : Move Service Turn) : controlTrace (tr ++ [m]) = controlTrace tr ++ (controlMove m).toList := by
  unfold controlTrace
  rw [List.filterMap_append]
  cases hm : controlMove m <;> simp [hm]

theorem countP_controlTrace (id : Str) (m : Move Service Turn) :
    (controlTrace tr).countP (Control.starts id) ≤ (controlTrace (tr ++ [m])).countP (Control.starts id) := by
  rw [controlTrace_snoc, List.countP_append]
  exact Nat.le_add_right _ _

/-- The callbacks after a turn that is no phase of one: they were there, or one has been started. -/
theorem callbacks_turn (h : Step C E F s turn t) (hnot : ∀ request, turn ≠ .advances request) :
    t.callbacks.Sublist s.callbacks ∨
      ∃ request, turn = .starts request ∧ t.callbacks = s.callbacks ++ [⟨request, .started⟩] := by
  cases h with
  | starts => exact .inr ⟨_, rfl, rfl⟩
  | advances => exact absurd rfl (hnot _)
  | leaves hl | drops hl =>
    rw [hl]
    exact .inl ((List.sublist_cons_self ..).append_left _)
  | boots | crashes => exact .inl (List.nil_sublist _)
  | _ => exact .inl (List.Sublist.refl _)

/-- An execution keeps its operation. -/
theorem operation_turn (hs : Control.Safe s.control) (h : Step C E F s turn t) {id : Str} {v : J}
    (hv : (s.control.exec id).get? "operation" = some v) : (t.control.exec id).get? "operation" = some v := by
  have hcontrol := h.control
  split at hcontrol
  · rcases hs.frozen_step hcontrol (J.ne_null_of_get? hv) with he | ⟨-, hset⟩
    · rw [he]
      exact hv
    · rw [hset.kept _ (by decide)]
      exact hv
  · rw [hcontrol]
    exact hv

theorem delivered_succeeded {v : Verdict} (h : v.state = lit "DELIVERED") : v = .succeeded := by
  revert h
  cases v <;> decide

/-- An execution that is delivered by the outcome of its callback has reached its agent. -/
theorem delivered_leave (hrun : Run (Step C E F) {} tr s) (ha : Account tr s) {request reply : J} {outcome : Except Exception J}
    (h : Step C E F s (.leaves request outcome reply) t) {id : Str} {op : Op}
    (hid : request.get? "request_id" = some (.str id)) (hstands : Stands t.control id "DELIVERED" op)
    (hop : op.method.isSome = true) : id ∈ (contactsOf tr).map Prod.fst := by
  have hcontrol := control_run hrun
  cases h with
  | leaves hl hleave =>
    have hc : (⟨request, .returned outcome⟩ : Callback) ∈ s.callbacks := by simp [hl]
    obtain ⟨id', op', hentitled⟩ := callback_entitled hrun hc
    obtain rfl : id' = id := by simpa using hentitled.carried.symm.trans hid
    have hkept := operation_turn (Control.safe_run hcontrol) (.leaves (E := E) (F := F) hl hleave) hentitled.operation
    obtain rfl : op' = op := op_of_name (by simpa using hkept.symm.trans hstands.2)
    by_contra hnot
    have hundone := ha.owes _ hc _ _ hentitled.toMutates hop hnot
    obtain ⟨id'', _, _, v, hid'', -, -, hwrote⟩ := hleave.wrote (Control.flightsCarried_run hcontrol)
    obtain rfl : id'' = id' := by simpa using hid''.symm.trans hid
    have hdone : Control.verdict reply = .ok .succeeded := by
      rw [hwrote.verdict, delivered_succeeded (v := v)]
      simpa using hwrote.state.symm.trans hstands.1
    cases hleave with
    | leave _ hleft =>
      obtain ⟨_, -, hassign, -⟩ := Control.leave_ok hleft
      have hok := verdict_done hdone
      rw [(J.get?_assign hassign _).2, if_neg (by simp)] at hok
      exact hundone hok

/-- What is delivered after a turn has reached its agent before it. -/
theorem delivered_turn (hrun : Run (Step C E F) {} tr s) (ha : Account tr s) (h : Step C E F s turn t) {id : Str} {op : Op}
    (hstands : Stands t.control id "DELIVERED" op) (hop : op.method.isSome = true) : id ∈ (contactsOf tr).map Prod.fst := by
  have hs := Control.safe_run (control_run hrun)
  have hcontrol := h.control
  split at hcontrol
  · rename_i l hlabel
    cases hs.exec_step hcontrol id with
    | same he =>
      unfold Stands at hstands
      rw [he] at hstands
      exact ha.delivered id op hstands hop
    | admitted _ _ _ hadmission hg =>
      have hdispatching := hadmission.dispatching
      rw [hg] at hdispatching
      cases hdispatching.symm.trans hstands.1
    | finished hl hid =>
      subst hl
      obtain ⟨request, outcome, reply, rfl⟩ : ∃ request outcome reply, turn = .leaves request outcome reply := by
        cases turn <;> cases hlabel
        exact ⟨_, _, _, rfl⟩
      cases hlabel
      exact delivered_leave hrun ha h hid hstands hop
    | @recovered _ id' enforce hl he hid hdispatching =>
      subst he hl
      obtain rfl := hs.recovered_id hid
      rcases hs.boot_exec hcontrol id' with ⟨hnot, -⟩ | ⟨-, huncertain⟩
      · exact absurd hdispatching hnot
      · cases huncertain.symm.trans hstands.1
  · unfold Stands at hstands
    rw [hcontrol] at hstands
    exact ha.delivered id op hstands hop

theorem starts_counted (hrun : Run (Step C E F) {} tr s) {request : J} (h : Step C E F s (.starts request) t) (id : Str) :
    (controlTrace tr).countP (Control.starts id) + (if pending id ⟨request, .started⟩ then 1 else 0) ≤
      (controlTrace (tr ++ [⟨s, .starts request, t⟩])).countP (Control.starts id) := by
  have hflight : (⟨request, false⟩ : Control.Flight) ∈ s.control.flights := by
    cases h with
    | starts hstart => exact hstart.start_flight
  obtain ⟨id', op, hentitled⟩ := entitled_run (control_run hrun) hflight
  have hmutates : Control.mutates request = true := by
    unfold Control.mutates
    rw [hentitled.asked]
    exact hentitled.mutates
  have hmove : controlMove ⟨s, .starts request, t⟩ = some ⟨s.control, .start request, t.control⟩ := rfl
  rw [controlTrace_snoc, hmove, List.countP_append, Option.toList_some, List.countP_singleton]
  have hcounts : Control.starts id ⟨s.control, .start request, t.control⟩ = pending id ⟨request, .started⟩ := by
    simp [Control.starts, Control.Label.dispatched, hmutates, pending, Stage.pending]
  rw [hcounts]

/-- A turn that is no phase of a callback keeps the account. -/
theorem account_reading (hrun : Run (Step C E F) {} tr s) (ha : Account tr s) (h : Step C E F s turn t)
    (hnot : ∀ request, turn ≠ .advances request) : Account (tr ++ [⟨s, turn, t⟩]) t := by
  have hs := Control.safe_run (control_run hrun)
  obtain ⟨⟨l, hl, hreads⟩, hevents⟩ := passive_turn h hnot
  have hcontacts : contactsOf (tr ++ [⟨s, turn, t⟩]) = contactsOf tr := by
    rw [contactsOf_snoc, contacts_reading hnot, List.append_nil]
  unfold Account
  rw [hcontacts]
  constructor
  · rw [hl, List.filter_append, filter_passive hreads, List.append_nil, ha.wire]
  · exact fun v hv => (hevents v hv).elim (ha.events v) id
  · intro c hc id op hm
    rcases callbacks_turn h hnot with hsub | ⟨request, rfl, hstarted⟩
    · exact ha.owes c (hsub.subset hc) id op hm
    · rw [hstarted] at hc
      rcases List.mem_append.1 hc with hc | hc
      · exact ha.owes c hc id op hm
      · rw [List.mem_singleton.1 hc]
        trivial
  · intro id
    have honce := ha.once id
    rcases callbacks_turn h hnot with hsub | ⟨request, rfl, hstarted⟩
    · have hle : t.callbacks.countP (pending id) ≤ s.callbacks.countP (pending id) := hsub.countP_le
      have hgrows := @countP_controlTrace tr id ⟨s, turn, t⟩
      omega
    · have hcounted := starts_counted hrun h id
      rw [hstarted, List.countP_append, List.countP_singleton]
      omega
  · intro e he
    obtain ⟨op, hoperation, hacts⟩ := ha.paid e he
    exact ⟨op, operation_turn hs h hoperation, hacts⟩
  · exact fun id op hstands hop => delivered_turn hrun ha h hstands hop

/-- What a phase adds to the account stands under the id of its request. -/
theorem count_advanced {op : Op} {id id' : Str} {reached : Prop} {request : J} {stage stage' : Stage} {w w' : World} {l : List Sent}
    (hid : request.get? "request_id" = some (.str id)) (h : Advanced op id reached stage stage' w w' l) :
    (l.map fun _ => id).count id' + (if pending id' ⟨request, stage'⟩ then 1 else 0) ≤
      if pending id' ⟨request, stage⟩ then 1 else 0 := by
  have honce := h.once
  have hcarries : Control.carries id' request = decide (id = id') := by
    unfold Control.carries
    simp [hid]
  simp only [pending, hcarries, List.map_const', List.count_replicate]
  by_cases he : id = id'
  · subst he
    revert honce
    cases stage'.pending <;> cases stage.pending <;> simp
  · simp [he]

/-- A phase of a callback keeps the account. -/
theorem account_advances (hrun : Run (Step C E F) {} tr s) (ha : Account tr s) {request : J}
    (h : Step C E F s (.advances request) t) : Account (tr ++ [⟨s, .advances request, t⟩]) t := by
  cases h with
  | @advances _ stage stage' w a b hl hnext =>
    have hc : (⟨request, stage⟩ : Callback) ∈ s.callbacks := by simp [hl]
    obtain ⟨id, op, (hentitled : Entitled s.control request id op)⟩ := callback_entitled hrun hc
    have howes : Owes op id (id ∈ (contactsOf tr).map Prod.fst) stage := ha.owes _ hc id op hentitled.toMutates
    obtain ⟨l, hadvanced⟩ := advanced hentitled.toMutates howes hnext
    have hmade : ∀ t : Service, t.tasks = w →
        contactsOf (tr ++ [⟨s, .advances request, t⟩]) = contactsOf tr ++ l.map fun x => (id, x) := by
      rintro t rfl
      rw [contactsOf_snoc]
      show _ ++ ((t.tasks.sent.drop s.tasks.sent.length).filter acts).map (fun x => (requestId request, x)) = _
      rw [hadvanced.grown, requestId_carried hentitled.carried]
    have hids : (contactsOf tr ++ l.map fun x => (id, x)).map Prod.fst = (contactsOf tr).map Prod.fst ++ l.map fun _ => id := by
      simp
    have hmono : ∀ {i : Str}, i ∈ (contactsOf tr).map Prod.fst → i ∈ (contactsOf tr).map Prod.fst ++ l.map fun _ => id :=
      List.mem_append_left _
    unfold Account
    rw [hmade _ rfl]
    constructor
    · show w.sent.filter acts = _
      rw [hadvanced.sent, ha.wire]
      simp
    · exact fun v hv => (hadvanced.events v hv).elim (ha.events v) fun h => h
    · intro c' hc' id' op' hm'
      rw [hids]
      rcases List.mem_append.1 hc' with hin | hin
      · exact (ha.owes c' (by simp [hl, hin]) id' op' hm').mono hmono
      · rcases List.mem_cons.1 hin with rfl | hin
        · obtain ⟨rfl, rfl⟩ := hentitled.toMutates.unique hm'
          refine hadvanced.owes.mono ?_
          rintro (hreached | hnew)
          · exact hmono hreached
          · obtain ⟨x, hx⟩ := List.exists_mem_of_ne_nil _ hnew
            exact List.mem_append_right _ (List.mem_map.2 ⟨x, hx, rfl⟩)
        · exact (ha.owes c' (by simp [hl, hin]) id' op' hm').mono hmono
    · intro id'
      have honce := ha.once id'
      have hcount := @count_advanced _ _ id' _ _ _ _ _ _ _ hentitled.carried hadvanced
      have hgrows := @countP_controlTrace tr id' ⟨s, .advances request, { s with
        tasks := w, callbacks := a ++ ⟨request, stage'⟩ :: b }⟩
      rw [hl, List.countP_append, List.countP_cons] at honce
      rw [hids, List.count_append, List.countP_append, List.countP_cons]
      omega
    · intro e he
      rcases List.mem_append.1 he with he | he
      · exact ha.paid e he
      · obtain ⟨x, hx, rfl⟩ := List.mem_map.1 he
        exact ⟨op, hentitled.operation, hadvanced.acted x hx⟩
    · intro id' op' hstands hop
      rw [hids]
      exact hmono (ha.delivered id' op' hstands hop)

theorem account_run (h : Run (Step C E F) {} tr s) : Account tr s := by
  refine h.invariant_of (I := Account) ?_ fun tr s turn t hrun ha hstep => ?_
  · exact ⟨rfl, nofun, nofun, fun _ => le_rfl, nofun, fun id op h => by cases h.1⟩
  · by_cases hadvances : ∃ request, turn = .advances request
    · obtain ⟨request, rfl⟩ := hadvances
      exact account_advances hrun ha hstep
    · exact account_reading hrun ha hstep fun request h => hadvances ⟨request, h⟩

theorem acts_nodup (h : Run (Step C E F) {} tr s) : ((contactsOf tr).map Prod.fst).Nodup := by
  refine List.nodup_iff_count_le_one.2 fun id => ?_
  have honce := Control.once_run id (control_run h)
  have hle := (account_run h).once id
  unfold Control.Once at honce
  split at honce <;> omega

/-- The ids of the messages that have been sent. -/
def messageIds (w : World) : List (Option J) :=
  (w.sent.filter fun x => x.method = Method.sendMessage.name).map fun x => messageId x.params

/-- The messages are among the contacts, each under its own id. -/
theorem messageIds_contacts (h : Run (Step C E F) {} tr s) : messageIds s.tasks =
    ((contactsOf tr).filter fun e => e.2.method = Method.sendMessage.name).map fun e => some (.str e.1) := by
  have ha := account_run h
  have hmessages : s.tasks.sent.filter (fun x => x.method = Method.sendMessage.name) =
      ((contactsOf tr).map Prod.snd).filter fun x => x.method = Method.sendMessage.name := by
    rw [← ha.wire, List.filter_filter]
    refine List.filter_congr fun x _ => ?_
    by_cases hx : x.method = Method.sendMessage.name
    · simp [hx, acts, acting]
    · simp [hx]
  unfold messageIds
  rw [hmessages, List.filter_map, List.map_map]
  refine List.map_congr_left fun e he => ?_
  obtain ⟨hin, hmethod⟩ := List.mem_filter.1 he
  obtain ⟨op, -, hacts⟩ := ha.paid e hin
  exact hacts.message (by simpa using hmethod)

/-- **Acting requests are paid for.** In every run of the daemon, over every interleaving, crash and restart, the
requests on the wire that act on an agent are those of the callbacks, in order; no id of a client's request has made
two; each has been made for an execution of its operation, a message under the id of the execution, so that no two
messages share an id; and every delivered execution, of any operation but `artifact.materialize`, has made one. -/
theorem acts_once (C : Control.Env) (E : Env) (F : Files) {tr : List (Move Service Turn)} {s : Service}
    (h : Run (Step C E F) {} tr s) :
    s.tasks.sent.filter acts = (contactsOf tr).map Prod.snd ∧ ((contactsOf tr).map Prod.fst).Nodup ∧
      (∀ e ∈ contactsOf tr, ∃ op : Op, (s.control.exec e.1).get? "operation" = some (.str op.name) ∧ Acts op e.1 e.2) ∧
      (messageIds s.tasks).Nodup ∧
      ∀ id op, Stands s.control id "DELIVERED" op → op.method.isSome = true → id ∈ (contactsOf tr).map Prod.fst := by
  have ha := account_run h
  refine ⟨ha.wire, acts_nodup h, ha.paid, ?_, ha.delivered⟩
  rw [messageIds_contacts h]
  have hids : (((contactsOf tr).filter fun e => e.2.method = Method.sendMessage.name).map Prod.fst).Nodup :=
    (acts_nodup h).sublist (List.filter_sublist.map _)
  have hinjective : Function.Injective fun id : Str => some (J.str id) := fun _ _ h => J.str.inj (Option.some.inj h)
  have hmapped := hids.map hinjective
  rwa [List.map_map] at hmapped

/-! ### A submission that is delivered -/

/-- The surroundings of a daemon whose agent answers with a message. -/
def talking : Env := answering answerJson

/-- The daemon has been started, and has let the request in. -/
def admittedService : Service where
  control := gatewayStarted
  config := builderAt builder.endpoint
  tasks := restart (builderAt builder.endpoint) {}
  callbacks := [⟨gatewayRequest, .started⟩]

def talkingOutcome : Except Exception J := outcomeOf
  (dispatch (admittedService.env talking) (materialize (admittedService.env talking) keepingFiles) gatewayRequest admittedService.tasks)

set_option maxRecDepth 20000 in
theorem gatewayRequest_label : (Control.enterMove Control.sampleEnv gatewayRequest gatewayStart).label =
    .enter gatewayRequest (.admitted gatewayRequest) := rfl

theorem admittedService_run : ∃ tr, Run (Step Control.sampleEnv talking keepingFiles) {} tr admittedService := by
  have hentered := @Control.enterMove_step Control.sampleEnv gatewayStart gatewayRequest rfl
  rw [gatewayRequest_label] at hentered
  have hboots : Step Control.sampleEnv talking keepingFiles {} (.boots (builderAt builder.endpoint))
      ⟨gatewayStart, builderAt builder.endpoint, restart (builderAt builder.endpoint) {}, []⟩ := .boots (.boot rfl rfl)
  exact ⟨_, .snoc (.snoc (.snoc .nil hboots) (.enters hentered)) (.starts (Control.startMove_step gatewayRequest_admitted))⟩

theorem gatewayStarted_flights : gatewayStarted.flights = [⟨gatewayRequest, true⟩] := by
  show (Control.enterMove Control.sampleEnv gatewayRequest gatewayStart).post.flights.map _ = _
  rw [gatewayRequest_admitted]
  simp

/-- What the outcome leaves behind. -/
def deliveredMove : Move Control.Sys Control.Label :=
  Control.leaveMove Control.sampleEnv gatewayRequest talkingOutcome gatewayStarted

theorem talking_delivers :
    (Tx.result? (Control.leave Control.sampleEnv gatewayRequest talkingOutcome gatewayStarted.st)).isSome = true ∧
      Stands deliveredMove.post "g" "DELIVERED" .submit := by
  unfold Stands
  decide +kernel

theorem delivered_run : ∃ tr s, Run (Step Control.sampleEnv talking keepingFiles) {} tr s ∧
    Stands s.control "g" "DELIVERED" .submit := by
  obtain ⟨before, hbefore⟩ := admittedService_run
  obtain ⟨hleft, hstands⟩ := talking_delivers
  obtain ⟨during, t, hduring, hcontrol⟩ :=
    call_run (E := talking) (F := keepingFiles) (s := admittedService) rfl gatewayStarted_flights hleft
  exact ⟨_, _, hbefore.append hduring, hcontrol ▸ hstands⟩

/-- The delivered submission has made its request. -/
theorem acts_once_delivered : ∃ tr s, Run (Step Control.sampleEnv talking keepingFiles) {} tr s ∧
    Stands s.control "g" "DELIVERED" .submit ∧ lit "g" ∈ (contactsOf tr).map Prod.fst := by
  obtain ⟨tr, s, hrun, hdelivered⟩ := delivered_run
  exact ⟨tr, s, hrun, hdelivered, (acts_once Control.sampleEnv talking keepingFiles hrun).2.2.2.2 "g" .submit hdelivered rfl⟩

end Accounts

end Service

end A2ad.Ipc
