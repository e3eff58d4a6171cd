/-
The binding does not matter: whatever operations are performed, over JSON-RPC, over HTTP+JSON or over
gRPC, an agent that gives the same answers is told the same and is understood the same.
-/
import A2ad.Client.Served

namespace A2ad.Client

open Bytes Json

/-! ## Operations and what is told of them -/

/-- Performs an operation; the events of a stream are recorded. -/
def Asked.perform (E : Env) (endpoint : Str) (auth : AuthSpec) : Asked → M (A2AResult × List J)
  | .inl a => do
    let r ← a.call E endpoint auth
    return (r, [])
  | .inr a => streamCall E endpoint auth a.method a.params (fun e st => (st.1, st.2 ++ [e])) (fun _ => false) []

def performAll (E : Env) (endpoint : Str) (auth : AuthSpec) : List Asked → M (List (A2AResult × List J))
  | [] => return []
  | op :: ops => do
    let r ← op.perform E endpoint auth
    let rs ← performAll E endpoint auth ops
    return r :: rs

def Asked.wireName : Asked → Str
  | .inl a => a.method.name
  | .inr a => a.method.name

/-- What the answer of an agent to an operation is taken for. -/
def Asked.told (R : Remote) (protocol : Protocol) (endpoint : Str) (n : Nat) (tenant : Str) :
    Asked → Except Exception (A2AResult × List J)
  | .inl a => (judged protocol endpoint a.method (R.answer n tenant a.method (orEmpty a.params))).map fun r => (r, [])
  | .inr a => .ok ({ ok := true, httpStatus := 200 }, (R.events n tenant a.method (orEmpty a.params)).map StreamEvent.value)

/-! ## What agrees -/

/-- One result, or two refusals in the words of their bindings. -/
def Concurs (r r' : A2AResult × List J) : Prop :=
  r = r' ∨ (r.1.ok = false ∧ r.1.errorKind = .protocolError ∧ r.2 = []) ∧
    r'.1.ok = false ∧ r'.1.errorKind = .protocolError ∧ r'.2 = []

/-- Worlds that differ in the bindings of URLs and in what was put on the wire. -/
def SameButWire (s s' : World) : Prop := s' = { s with bindings := s'.bindings, sent := s'.sent }

/-- Runs that end alike: with agreeing results, or with the same exception. -/
def SameRuns : EStateM.Result Exception World (List (A2AResult × List J)) →
    EStateM.Result Exception World (List (A2AResult × List J)) → Prop
  | .ok rs s, .ok rs' s' => List.Forall₂ Concurs rs rs' ∧ SameButWire s s'
  | .error e s, .error e' s' => e = e' ∧ SameButWire s s'
  | _, _ => False

section Uniform

variable {R : Remote} {E E' : Env} {endpoint endpoint' : Str} {info info' : BindingInfo} {auth auth' : AuthSpec} {s s' : World}

theorem recorded_events (events : List J) (st : World × List J) :
    events.foldl (fun (st : World × List J) e => (st.1, st.2 ++ [e])) st = (st.1, st.2 ++ events) := by
  induction events generalizing st with
  | nil => simp
  | cons e events ih => simp [ih]

/-- An operation takes one exchange and returns what is told of its answer. -/
theorem perform_served (h : Serves R E endpoint info) (hname : auth.queryName = []) (hextra : auth.extraQuery = [])
    {op : Asked} (hop : op.Valid) (hinfo : bindingAt s endpoint = info) : op.perform E endpoint auth s =
      (liftM (op.told R info.protocol endpoint s.exchanges info.tenant) : M (A2AResult × List J))
        (called endpoint info op.wireName (op.wireParams info) s) := by
  rcases op with a | a
  · show (a.call E endpoint auth >>= fun r => pure (r, [])) s = _
    have hcall := call_served h hname hextra hop hinfo
    show _ = (liftM ((judged info.protocol endpoint a.method (R.answer s.exchanges info.tenant a.method (orEmpty a.params))).map
      fun r => (r, [])) : M (A2AResult × List J)) _
    cases hjudged : judged info.protocol endpoint a.method (R.answer s.exchanges info.tenant a.method (orEmpty a.params)) with
    | ok r =>
      rw [hjudged] at hcall
      exact (Tx.bind_of_ok hcall).trans rfl
    | error e =>
      rw [hjudged] at hcall
      exact (Tx.bind_error.2 (.inl hcall)).trans rfl
  · have hstream := @stream_served R E endpoint info auth s (List J) (fun e st => (st.1, st.2 ++ [e])) (fun _ => false) []
      h hname hextra a hop hinfo (fun _ _ _ _ => rfl)
    rw [recorded_events] at hstream
    exact hstream

/-- What is told of one answer over two bindings agrees. -/
theorem told_concurs (op : Asked) (p p' : Protocol) (n : Nat) (tenant : Str) :
    (∃ r r', op.told R p endpoint n tenant = .ok r ∧ op.told R p' endpoint' n tenant = .ok r' ∧ Concurs r r') ∨
      ∃ e, op.told R p endpoint n tenant = .error e ∧ op.told R p' endpoint' n tenant = .error e := by
  have hrefused : ∀ (r : Refusal) (q : Protocol) (u : Str), (r.result q u).ok = false ∧ (r.result q u).errorKind = .protocolError := by
    intro r q u
    cases q <;> exact ⟨rfl, rfl⟩
  rcases op with a | a
  · unfold Asked.told
    dsimp only
    cases R.answer n tenant a.method (orEmpty a.params) with
    | ok v =>
      unfold judged
      dsimp only
      cases classifyResult a.method 200 v.1 with
      | ok r => exact .inl ⟨_, _, rfl, rfl, .inl rfl⟩
      | error e => exact .inr ⟨e, rfl, rfl⟩
    | error r =>
      obtain ⟨hok, hkind⟩ := hrefused r p endpoint
      obtain ⟨hok', hkind'⟩ := hrefused r p' endpoint'
      exact .inl ⟨_, _, rfl, rfl, .inr ⟨⟨hok, hkind, rfl⟩, hok', hkind', rfl⟩⟩
  · exact .inl ⟨_, _, rfl, rfl, .inl rfl⟩

/-- Runs that end alike do so with agreeing results in front. -/
theorem SameRuns.cons {x x' : M (List (A2AResult × List J))} {r r' : A2AResult × List J} (hruns : SameRuns (x s) (x' s'))
    (hconcurs : Concurs r r') :
    SameRuns ((x >>= fun rs => pure (r :: rs)) s) ((x' >>= fun rs => pure (r' :: rs)) s') := by
  cases hx : x s with
  | ok rs w =>
    cases hx' : x' s' with
    | ok rs' w' =>
      rw [hx, hx'] at hruns
      rw [Tx.bind_of_ok hx, Tx.bind_of_ok hx']
      exact ⟨.cons hconcurs hruns.1, hruns.2⟩
    | error e' w' =>
      rw [hx, hx'] at hruns
      exact hruns.elim
  | error e w =>
    cases hx' : x' s' with
    | ok rs' w' =>
      rw [hx, hx'] at hruns
      exact hruns.elim
    | error e' w' =>
      rw [hx, hx'] at hruns
      rw [Tx.bind_error.2 (.inl hx), Tx.bind_error.2 (.inl hx')]
      exact hruns

theorem SameButWire.exchanges (h : SameButWire s s') : s'.exchanges = s.exchanges := by
  rw [h]

theorem SameButWire.called (h : SameButWire s s') (name name' : Str) (params params' : J) :
    SameButWire (called endpoint info name params s) (called endpoint' info' name' params' s') := by
  unfold SameButWire at h ⊢
  rw [h]
  rfl

/-! ### An agent at two interfaces -/

/-- What surrounds the daemon where an agent stands behind an interface. -/
noncomputable def Remote.env (R : Remote) (info : BindingInfo) : Env :=
  { Env.offline [] with
    parse := readPrinted
    http := fun n req => if info.protocol = .rest then R.serveRest readPrinted info n req else R.serveRpc readPrinted n req
    grpc := fun n _ c => grpcResponse (R.serveGrpc n c)
    stream := fun n req =>
      match R.streamed readPrinted info n req with
      | some values => ([sseOf values], { status := 200 })
      | none => ([], { status := 404 })
    grpcStream := fun n _ c =>
      ((R.events n (tenantOf c.params) c.op (bareParams c.params)).map StreamEvent.value, { status := 200 }) }

theorem filter_sseOf (values : List J) : (sseOf values).filter (· ≠ 13) = sseOf values := by
  apply List.filter_eq_self.2
  intro c hc
  obtain ⟨v, -, hc⟩ := List.mem_flatMap.1 hc
  have hne : c ≠ 13 := by
    rintro rfl
    rcases List.mem_append.1 hc with hc | hc
    · rcases List.mem_append.1 hc with hc | hc
      · revert hc
        decide
      · exact absurd (J.plain_text v 13 hc) (by decide)
    · revert hc
      decide
  simpa using hne

/-- Every agent stands behind an interface of every binding. -/
theorem serves_env (R : Remote) (htenant : Utf8.valid info.tenant = true) (endpoint : Str) :
    Serves R (R.env info) endpoint info where
  reads := readsBack_readPrinted
  tenant := htenant
  rpc hrpc _ _ _ := if_neg (by rw [hrpc]; decide)
  rest hrest _ _ _ := if_pos hrest
  grpc _ _ _ _ _ := rfl
  stream n req values _ hvalues := by
    have hstream : (R.env info).stream n req = ([sseOf values], { status := 200 }) := by
      show (match R.streamed readPrinted info n req with | some values => _ | none => _) = _
      rw [show R.streamed readPrinted info n req = some values from hvalues]
    rw [hstream, List.flatten_singleton]
    exact ⟨filter_sseOf values, rfl⟩
  grpcStream _ _ _ _ _ := rfl

/-- The task of a sample agent, which has one event. -/
def workingTask : J := .object [("id", .str "t-1"), ("status", .object [("state", .str "TASK_STATE_WORKING")])]

def workingUrl : Str := "https://builder.example"

def workingInfo (binding : Str) : BindingInfo := ⟨binding, "1.0", "team"⟩

def workingWorld (info : BindingInfo) : World := { bindings := (∅ : AList fun _ : Str => BindingInfo).insert workingUrl info }

/-- The task is read, and then its events are. -/
def workingOps : List Asked := [.inl (.getTask "t-1"), .inr (.subscribeToTask "t-1")]

theorem valid_workingOps : ∀ op ∈ workingOps, op.Valid := by
  have hid : Utf8.valid (lit "t-1") = true := by decide
  exact List.forall_mem_cons.2 ⟨hid, List.forall_mem_singleton.2 hid⟩

theorem bindingAt_workingWorld (info : BindingInfo) : bindingAt (workingWorld info) workingUrl = info := by
  unfold bindingAt workingWorld
  rw [AList.lookup_insert]
  rfl

def workingRemote : Remote where
  answer _ _ _ _ := .ok ⟨workingTask, by decide +kernel⟩
  events _ _ _ _ := [⟨.object [("task", workingTask)], by decide +kernel, rfl, rfl⟩]

/-- **The binding does not matter.** An agent that gives the same answers at two interfaces, over any two of the
three bindings, is understood the same: whatever operations are performed, in any order, the results agree, the
events of streams are the same in the same order, whatever the chunks they came in, and the two worlds differ in
nothing but what was put on the wire. -/
theorem binding_immaterial (R : Remote) (h : Serves R E endpoint info) (h' : Serves R E' endpoint' info')
    (htenant : info'.tenant = info.tenant) (hname : auth.queryName = []) (hextra : auth.extraQuery = [])
    (hname' : auth'.queryName = []) (hextra' : auth'.extraQuery = []) (ops : List Asked) (hops : ∀ op ∈ ops, op.Valid)
    (s s' : World) (hs : SameButWire s s') (hinfo : bindingAt s endpoint = info) (hinfo' : bindingAt s' endpoint' = info') :
    SameRuns (performAll E endpoint auth ops s) (performAll E' endpoint' auth' ops s') := by
  induction ops generalizing s s' with
  | nil => exact ⟨.nil, hs⟩
  | cons op ops ih =>
    obtain ⟨hop, hrest⟩ := List.forall_mem_cons.1 hops
    have hperform := perform_served h hname hextra hop hinfo
    have hperform' := perform_served h' hname' hextra' hop hinfo'
    rw [hs.exchanges, htenant] at hperform'
    have hafter : SameButWire (called endpoint info op.wireName (op.wireParams info) s)
      (called endpoint' info' op.wireName (op.wireParams info') s') := hs.called ..
    rcases @told_concurs R endpoint endpoint' op info.protocol info'.protocol s.exchanges info.tenant with
      ⟨r, r', htold, htold', hconcurs⟩ | ⟨e, htold, htold'⟩
    · rw [htold] at hperform
      rw [htold'] at hperform'
      have hruns := ih hrest _ _ hafter hinfo hinfo'
      unfold performAll
      rw [Tx.bind_of_ok (hperform.trans rfl), Tx.bind_of_ok (hperform'.trans rfl)]
      exact hruns.cons hconcurs
    · rw [htold] at hperform
      rw [htold'] at hperform'
      unfold performAll
      rw [Tx.bind_error.2 (.inl (hperform.trans rfl)), Tx.bind_error.2 (.inl (hperform'.trans rfl))]
      exact ⟨rfl, hafter⟩

/-- Two interfaces of one agent with one tenant. -/
theorem binding_immaterial_working :
    SameRuns
      (performAll (workingRemote.env (workingInfo "JSONRPC")) workingUrl {} workingOps (workingWorld (workingInfo "JSONRPC")))
      (performAll (workingRemote.env (workingInfo "HTTP+JSON")) workingUrl {} workingOps (workingWorld (workingInfo "HTTP+JSON"))) :=
  @binding_immaterial (workingRemote.env (workingInfo "JSONRPC")) (workingRemote.env (workingInfo "HTTP+JSON")) workingUrl workingUrl
    (workingInfo "JSONRPC") (workingInfo "HTTP+JSON") {} {} workingRemote (serves_env workingRemote (by decide) workingUrl)
    (serves_env workingRemote (by decide) workingUrl) rfl rfl rfl rfl rfl workingOps valid_workingOps
    (workingWorld (workingInfo "JSONRPC")) (workingWorld (workingInfo "HTTP+JSON")) rfl (bindingAt_workingWorld _)
    (bindingAt_workingWorld _)

end Uniform

end A2ad.Client
