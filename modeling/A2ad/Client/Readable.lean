/-
Which responses a call can read. Some fields are looked at before they are read and count as absent
when they are of another type; all others throw then, and the exception leaves the call.
-/
import A2ad.Client.Rest

namespace A2ad.Client

open Bytes Json Tx

/-! ## Fields of the right type -/

/-- The field is absent or of the type `p`. -/
def fieldIs (p : J → Bool) (j : J) (k : Str) : Bool := ((j.get? k).map p).getD true

/-- What is taken for an `int`. -/
def isNumeric : J → Bool
  | .int _ => true
  | .flt _ => true
  | .bool _ => true
  | _ => false

def partReads (j : J) : Bool := !j.isObject || fieldIs J.isString j "mediaType" && fieldIs J.isString j "filename"

def messageReads (j : J) : Bool :=
  !j.isObject || fieldIs J.isString j "messageId" && fieldIs J.isString j "role" && fieldIs J.isString j "taskId" &&
    fieldIs J.isString j "contextId" && fieldIs J.isString j "timestamp" && (arrayAt j "parts").all partReads

def artifactReads (j : J) : Bool :=
  fieldIs J.isString j "artifactId" && fieldIs J.isString j "name" && fieldIs J.isString j "description" &&
    (arrayAt j "parts").all partReads

def statusReads (st : J) : Bool :=
  fieldIs J.isString st "state" && fieldIs messageReads st "message" && fieldIs J.isString st "timestamp"

def taskReads (j : J) : Bool :=
  !isStringAt j "id" || fieldIs J.isString j "contextId" && fieldIs (fun st => !st.isObject || statusReads st) j "status" &&
    (arrayAt j "history").all messageReads && ((arrayAt j "artifacts").filter J.isObject).all artifactReads

def errorReads (e : J) : Bool := fieldIs isNumeric e "code" && fieldIs J.isString e "message"

def pageReads (result : J) : Bool :=
  !result.isObject || fieldIs J.isString result "nextPageToken" && fieldIs isNumeric result "pageSize" &&
    fieldIs isNumeric result "totalSize"

def resultReads (result : J) : Bool :=
  match payload result with
  | .tasks items => items.all taskReads && pageReads result
  | .task j => taskReads j
  | .message j => !looksLikeMessage j || messageReads j
  | .other => true

/-- A JSON-RPC response has the version and the id of the request. -/
def answersCall (protocol : Protocol) (id : Str) (j : J) : Bool :=
  protocol ≠ .rpc || j.get? "jsonrpc" == some (.str "2.0") && j.contains "id" && ((j.get? "id").getD .null).same (.str id)

/-- Every field that is read of a body is of the type it is read at. -/
def bodyReads (protocol : Protocol) (id : Str) (j : J) : Bool :=
  (protocol ≠ .rpc || j.isObject && fieldIs J.isString j "jsonrpc") &&
    (!answersCall protocol id j ||
      if isObjectAt j "error" then errorReads ((j.get? "error").getD .null) else fieldIs resultReads j "result")

/-- The result is a list, a task with an id, a message with an id, a role and parts, or a value where the
operation returns one. -/
def resultShaped (method : Method) (result : J) : Bool :=
  match payload result with
  | .tasks _ => true
  | .task j => isStringAt j "id"
  | .message j => looksLikeMessage j
  | .other => method.returnsValue

/-- The body is a response to the call, with an error object or a result of some shape. -/
def bodyShaped (protocol : Protocol) (id : Str) (method : Method) (j : J) : Bool :=
  answersCall protocol id j && (isObjectAt j "error" || ((j.get? "result").map (resultShaped method)).getD false)

/-- The body of a response that is looked at, as JSON. -/
def bodyRead (parse : Str → Option J) (protocol : Protocol) (r : HttpResponse) : Option J :=
  if r.responseTooLarge || r.transportError || !r.success then none else responseBody parse protocol r.body

/-! ## Reading passes -/

section Reads

variable {j : J} {k d : Str}

theorem fieldIs_iff {p : J → Bool} : fieldIs p j k = true ↔ ∀ v, j.get? k = some v → p v = true := by
  unfold fieldIs
  cases j.get? k <;> simp

theorem passes_value {α : Type} {read : J → Except Exception α} {default : α} :
    Passes (j.value read k default) ↔ j.isObject = true ∧ ∀ v, j.get? k = some v → Passes (read v) := by
  unfold J.value
  cases hj : j.isObject with
  | false => simp
  | true => cases j.get? k <;> simp

theorem passes_valueStr : Passes (j.valueStr k d) ↔ j.isObject = true ∧ fieldIs J.isString j k = true := by
  have hstr : ∀ v : J, Passes v.asStr ↔ v.isString = true := fun v => by cases v <;> simp [J.asStr, J.isString]
  rw [J.valueStr, passes_value, fieldIs_iff]
  simp only [hstr]

theorem passes_valueInt {n : Int} : Passes (j.valueInt k n) ↔ j.isObject = true ∧ fieldIs isNumeric j k = true := by
  have hint : ∀ v : J, Passes v.asInt ↔ isNumeric v = true := fun v => by cases v <;> simp [J.asInt, isNumeric]
  rw [J.valueInt, passes_value, fieldIs_iff]
  simp only [hint]

/-- What a value that is read well leaves to be read. -/
theorem passes_str {α : Type} {f : Str → Except Exception α} {P : Prop} (hj : j.isObject = true)
    (h : ∀ s, Passes (f s) ↔ P) : Passes (j.valueStr k d >>= f) ↔ fieldIs J.isString j k = true ∧ P := by
  rw [passes_then fun s _ => h s, passes_valueStr, and_iff_right hj]

theorem passes_int {α : Type} {n : Int} {f : Int → Except Exception α} {P : Prop} (hj : j.isObject = true)
    (h : ∀ m, Passes (f m) ↔ P) : Passes (j.valueInt k n >>= f) ↔ fieldIs isNumeric j k = true ∧ P := by
  rw [passes_then fun m _ => h m, passes_valueInt, and_iff_right hj]

/-- What is read last is returned. -/
theorem passes_return {α : Type} (a : α) : Passes (pure a : Except Exception α) ↔ True := iff_of_true (passes_pure a) trivial

theorem passes_parsePart (hutf : j.utf8 = true) : Passes (parsePart j) ↔ partReads j = true := by
  have hdata : Passes (dataAt j) := by
    unfold dataAt
    split
    · simp
    · simp
    · rename_i v hv
      exact ⟨_, J.dump_ok.2 ⟨J.utf8_get? hutf hv, rfl⟩⟩
  unfold parsePart partReads
  cases hj : j.isObject with
  | false => simp
  | true =>
    simp only [Bool.not_true, Bool.false_eq_true, if_false, Bool.false_or, Bool.and_eq_true]
    rw [passes_then fun data _ => passes_str hj fun _ => passes_str hj fun _ => passes_return _, and_iff_right hdata, and_true]

theorem passes_parseParts (hutf : j.utf8 = true) :
    Passes ((arrayAt j k).mapM parsePart) ↔ (arrayAt j k).all partReads = true := by
  rw [passes_mapM, List.all_eq_true]
  exact forall₂_congr fun x hx => passes_parsePart (utf8_arrayAt hutf x hx)

theorem passes_parseMessage (hutf : j.utf8 = true) : Passes (parseMessage j) ↔ messageReads j = true := by
  unfold parseMessage messageReads
  cases hj : j.isObject with
  | false => simp
  | true =>
    simp only [Bool.not_true, Bool.false_eq_true, if_false, Bool.false_or, Bool.and_eq_true, and_assoc]
    rw [passes_str hj fun _ => passes_str hj fun _ => passes_str hj fun _ => passes_str hj fun _ => passes_str hj fun _ =>
      passes_then fun _ _ => passes_return _, passes_parseParts hutf, and_true]

theorem passes_parseArtifact (hutf : j.utf8 = true) (hj : j.isObject = true) :
    Passes (parseArtifact j) ↔ artifactReads j = true := by
  unfold parseArtifact artifactReads
  simp only [Bool.and_eq_true, and_assoc]
  rw [passes_str hj fun _ => passes_str hj fun _ => passes_str hj fun _ => passes_then fun _ _ => passes_return _,
    passes_parseParts hutf, and_true]

theorem passes_parseStatus (hutf : j.utf8 = true) (hj : j.isObject = true) :
    Passes (parseStatus j) ↔ statusReads j = true := by
  have htime : ∀ (f : Str → Status), Passes (do return f (← j.valueStr "timestamp" "") : Except Exception Status) ↔
      fieldIs J.isString j "timestamp" = true := fun f => (passes_str hj fun _ => passes_return _).trans (and_iff_left trivial)
  unfold parseStatus statusReads
  simp only [Bool.and_eq_true, and_assoc]
  refine passes_str hj fun _ => ?_
  rw [fieldIs_iff (p := messageReads)]
  cases hm : j.get? "message" with
  | none => simpa using htime _
  | some m =>
    simp only [Option.some.injEq, forall_eq']
    -- only a message that is an object is read further
    cases m with
    | obj fields =>
      rw [passes_then fun message _ => htime _, passes_parseMessage (J.utf8_get? hutf hm)]
    | _ => simpa [messageReads, J.isObject] using htime _

theorem passes_statusAt (hutf : j.utf8 = true) :
    Passes (statusAt j) ↔ fieldIs (fun st => !st.isObject || statusReads st) j "status" = true := by
  unfold statusAt
  rw [fieldIs_iff]
  cases hst : j.get? "status" with
  | none => simp
  | some st =>
    simp only [Option.some.injEq, forall_eq']
    cases st with
    | obj fields => simpa [J.isObject] using passes_parseStatus (J.utf8_get? hutf hst) rfl
    | _ => simp [J.isObject]

theorem passes_parseTask (hutf : j.utf8 = true) : Passes (parseTask j) ↔ taskReads j = true := by
  unfold parseTask taskReads
  split
  · rename_i id hid
    have hj : j.isObject = true := J.isObject_of_get? hid
    have hisid : isStringAt j "id" = true := by
      unfold isStringAt
      rw [hid]
      rfl
    simp only [hisid, Bool.not_true, Bool.false_or, Bool.and_eq_true, and_assoc]
    rw [passes_str hj fun _ => passes_then fun _ _ => passes_then fun _ _ => passes_then fun _ _ => passes_return _,
      passes_statusAt hutf, passes_mapM, passes_mapM, and_true, List.all_eq_true, List.all_eq_true]
    refine and_congr_right fun _ => and_congr_right fun _ => and_congr ?_ ?_
    · exact forall₂_congr fun m hm => passes_parseMessage (utf8_arrayAt hutf m hm)
    · refine forall₂_congr fun a ha => passes_parseArtifact (utf8_arrayAt hutf a (List.mem_of_mem_filter ha)) ?_
      exact (List.mem_filter.1 ha).2
  · rename_i hno
    have hisid : isStringAt j "id" = false := by
      unfold isStringAt
      cases hid : j.get? "id" with
      | none => rfl
      | some v =>
        cases v with
        | str id => exact absurd hid (hno id)
        | _ => rfl
    simp [hisid]

theorem passes_errorResult {status : Int} (hj : j.isObject = true) :
    Passes (errorResult j status) ↔ errorReads j = true := by
  unfold errorResult errorReads
  rw [passes_int hj fun _ => passes_str hj fun _ => passes_return _, and_true, Bool.and_eq_true]

theorem passes_pageFields : Passes (pageFields j) ↔ pageReads j = true := by
  unfold pageFields pageReads
  cases hj : j.isObject with
  | false => simp
  | true =>
    simp only [Bool.not_true, Bool.false_eq_true, if_false, Bool.false_or, Bool.and_eq_true, and_assoc]
    rw [passes_str hj fun _ => passes_int hj fun _ => passes_int hj fun _ => passes_return _, and_true]

end Reads

/-! ## Calls -/

section Calls

variable {result : J} {method : Method} {status : Int}

theorem utf8_getD {j : J} {k : Str} (hj : j.utf8 = true) : ((j.get? k).getD .null).utf8 = true := by
  cases h : j.get? k with
  | none => rfl
  | some v => exact J.utf8_get? hj h

theorem utf8_payload {j : J} (hr : result.utf8 = true) (h : payload result = .task j ∨ payload result = .message j) :
    j.utf8 = true := by
  unfold payload at h
  split at h
  · rcases h with h | h <;> cases h
  repeat' split at h
  all_goals rcases h with h | h <;> cases h
  exacts [utf8_getD hr, utf8_getD hr, hr, hr]

theorem passes_classifyResult (hr : result.utf8 = true) :
    Passes (classifyResult method status result) ↔ resultReads result = true := by
  unfold classifyResult resultReads
  dsimp only
  cases hpayload : payload result with
  | tasks items =>
    dsimp only
    rw [passes_then fun _ _ => passes_then fun _ _ => passes_return _, passes_pageFields, passes_mapM, and_true,
      Bool.and_eq_true, List.all_eq_true]
    refine and_congr_left fun _ => forall₂_congr fun item hitem => ?_
    exact passes_parseTask (utf8_taskList hr (taskList_of_payload hpayload) item hitem)
  | task j =>
    dsimp only
    rw [passes_then (P := True), passes_parseTask (utf8_payload hr (.inl hpayload)), and_true]
    intro task _
    cases task <;> exact passes_return _
  | message j =>
    dsimp only
    cases looksLikeMessage j with
    | false => simp
    | true =>
      simp only [Bool.not_true, Bool.false_eq_true, if_false, Bool.false_or]
      rw [passes_then fun _ _ => passes_return _, passes_parseMessage (utf8_payload hr (.inr hpayload)), and_true]
  | other => cases method.returnsValue <;> simp

/-- A result is accepted or has the kind of its failure. -/
def Classified (out : A2AResult) : Prop := out.ok = true ∨ out.errorKind ≠ .none

theorem classifyResult_shape {out : A2AResult} (h : classifyResult method status result = .ok out) :
    Classified out ∧ (resultShaped method result = false → out.ok = false ∧ out.errorKind = .malformedResponse) := by
  unfold classifyResult at h
  unfold resultShaped
  dsimp only at h
  cases hpayload : payload result with
  | tasks items =>
    rw [hpayload] at h
    obtain ⟨tasks, -, h⟩ := Tx.except_bind_ok h
    obtain ⟨page, -, h⟩ := Tx.except_bind_ok h
    cases h
    exact ⟨.inl rfl, nofun⟩
  | task j =>
    rw [hpayload] at h
    obtain ⟨task, htask, h⟩ := Tx.except_bind_ok h
    cases task with
    | none =>
      cases h
      exact ⟨.inr nofun, fun _ => ⟨rfl, rfl⟩⟩
    | some task =>
      cases h
      constructor
      · unfold taskOutcome
        split
        · exact .inl rfl
        · exact .inl rfl
      · intro hno
        rw [parseTask_none.2 fun id hid => ?_] at htask
        · cases htask
        · have hisid : isStringAt j "id" = false := hno
          unfold isStringAt at hisid
          rw [hid] at hisid
          cases hisid
  | message j =>
    rw [hpayload] at h
    rcases Bool.eq_false_or_eq_true (looksLikeMessage j) with hlooks | hlooks
    · simp only [hlooks, Bool.not_true, Bool.false_eq_true, if_false] at h
      obtain ⟨m, -, h⟩ := Tx.except_bind_ok h
      cases h
      exact ⟨.inl rfl, fun hno => absurd (hlooks.symm.trans hno) (by decide)⟩
    · simp only [hlooks, Bool.not_false, if_true] at h
      cases h
      exact ⟨.inr nofun, fun _ => ⟨rfl, rfl⟩⟩
  | other =>
    rw [hpayload] at h
    rcases Bool.eq_false_or_eq_true method.returnsValue with hvalue | hvalue
    · simp only [hvalue, if_true] at h
      cases h
      exact ⟨.inl rfl, fun hno => absurd (hvalue.symm.trans hno) (by decide)⟩
    · simp only [hvalue, Bool.false_eq_true, if_false] at h
      cases h
      exact ⟨.inr nofun, fun _ => ⟨rfl, rfl⟩⟩

/-! ### The envelope -/

section Envelope

variable {protocol : Protocol} {id : Str} {j : J}

theorem isObjectAt_iff {k : Str} : isObjectAt j k = true ↔ ∃ fields, j.get? k = some (.obj fields) := by
  unfold isObjectAt
  cases j.get? k with
  | none => simp
  | some v => cases v <;> simp [J.isObject]

theorem answers_eq : Passes (answers protocol j id) ↔
    (protocol ≠ .rpc || j.isObject && fieldIs J.isString j "jsonrpc") = true := by
  unfold answers
  by_cases hrpc : protocol = .rpc
  · simp only [hrpc, ne_eq, not_true, if_false, decide_false, Bool.false_or, Bool.and_eq_true]
    rw [passes_then fun _ _ => passes_return _, passes_valueStr, and_true]
  · simp [hrpc]

theorem answers_value {b : Bool} (h : answers protocol j id = .ok b) : b = answersCall protocol id j := by
  unfold answers at h
  unfold answersCall
  by_cases hrpc : protocol = .rpc
  · simp only [hrpc, ne_eq, not_true, if_false, decide_false, Bool.false_or] at h ⊢
    obtain ⟨version, hversion, h⟩ := Tx.except_bind_ok h
    cases h
    rcases (J.valueStr_ok.1 hversion).2 with hget | ⟨hget, rfl⟩
    · rw [hget]
      by_cases hv2 : version = lit "2.0"
      · subst hv2
        simp
      · simp [hv2]
    · rw [hget]
      rfl
  · simp only [hrpc, ne_eq, not_false_eq_true, if_true, decide_true, Bool.true_or] at h ⊢
    cases h
    rfl

/-- What is made of the body of a response that is looked at. -/
def classifyBody (protocol : Protocol) (id : Str) (method : Method) (status : Int) (j : J) : Except Exception A2AResult := do
  match ← screenBody protocol id status j with
  | .inl failure => return failure
  | .inr result => classifyResult method status result

theorem errorResult_kind {out : A2AResult} (h : errorResult j status = .ok out) :
    out.ok = false ∧ out.errorKind = .protocolError := by
  unfold errorResult at h
  obtain ⟨code, -, h⟩ := Tx.except_bind_ok h
  obtain ⟨message, -, h⟩ := Tx.except_bind_ok h
  cases h
  exact ⟨rfl, rfl⟩

theorem screenBody_throws {e : Exception} (h : answers protocol j id = .error e) :
    screenBody protocol id status j = .error e := by
  unfold screenBody
  rw [h]
  rfl

theorem screenBody_mismatch (h : answers protocol j id = .ok false) :
    screenBody protocol id status j = .ok (.inl {
      httpStatus := status, errorKind := .malformedResponse
      error := "A2A JSON-RPC response has an invalid version or mismatched id" }) := by
  unfold screenBody
  rw [h]
  rfl

theorem screenBody_error {fields : List (Str × J)} (h : answers protocol j id = .ok true)
    (herror : j.get? "error" = some (.obj fields)) :
    screenBody protocol id status j = errorResult (.obj fields) status >>= fun r => pure (.inl r) := by
  unfold screenBody
  rw [h]
  simp only [herror]
  rfl

theorem screenBody_result (h : answers protocol j id = .ok true)
    (hnone : ∀ fields, j.get? "error" ≠ some (.obj fields)) :
    screenBody protocol id status j = (j.get? "result").elim (.ok (.inl {
      httpStatus := status, errorKind := .malformedResponse, error := "A2A response missing 'result'" }))
      fun result => .ok (.inr result) := by
  unfold screenBody
  rw [h]
  cases herror : j.get? "error" with
  | none => cases j.get? "result" <;> rfl
  | some v =>
    cases v with
    | obj fields => exact absurd herror (hnone fields)
    | _ => cases j.get? "result" <;> rfl

theorem classifyBody_failure {failure : A2AResult} (h : screenBody protocol id status j = .ok (.inl failure)) :
    classifyBody protocol id method status j = .ok failure := by
  unfold classifyBody
  rw [h]
  rfl

/-- A body can be read exactly if its fields are of the types they are read at; and then it is classified,
as malformed where it has no shape that the call takes. -/
theorem classifyBody_spec (hutf : j.utf8 = true) :
    (Passes (classifyBody protocol id method status j) ↔ bodyReads protocol id j = true) ∧
      ∀ out, classifyBody protocol id method status j = .ok out → Classified out ∧
        (bodyShaped protocol id method j = false → out.ok = false ∧ out.errorKind = .malformedResponse) := by
  unfold bodyReads bodyShaped
  cases hanswers : answers protocol j id with
  | error e =>
    have hthrows : classifyBody protocol id method status j = .error e := by
      rw [classifyBody, screenBody_throws hanswers]
      rfl
    have hno : (decide (protocol ≠ .rpc) || j.isObject && fieldIs J.isString j "jsonrpc") = false := by
      rw [← Bool.not_eq_true, ← @answers_eq _ id, hanswers]
      exact not_passes_error e
    rw [hthrows, hno]
    simp
  | ok answered =>
    have hyes : (decide (protocol ≠ .rpc) || j.isObject && fieldIs J.isString j "jsonrpc") = true := by
      rw [← @answers_eq _ id, hanswers]
      exact passes_ok answered
    rw [hyes, ← answers_value hanswers]
    cases answered with
    | false =>
      rw [classifyBody_failure (screenBody_mismatch hanswers)]
      refine ⟨by simp, ?_⟩
      rintro out ⟨⟩
      exact ⟨.inr (by simp), fun _ => ⟨rfl, rfl⟩⟩
    | true =>
      by_cases herror : isObjectAt j "error" = true
      · obtain ⟨fields, hfields⟩ := isObjectAt_iff.1 herror
        have herr : classifyBody protocol id method status j = errorResult (.obj fields) status := by
          rw [classifyBody, screenBody_error hanswers hfields]
          cases errorResult (.obj fields) status <;> rfl
        rw [herr, passes_errorResult rfl, herror, hfields]
        refine ⟨by simp, fun out hout => ?_⟩
        obtain ⟨hok, hkind⟩ := errorResult_kind hout
        exact ⟨.inr (by simp [hkind]), by simp⟩
      · have hscreen : screenBody protocol id status j = _ := screenBody_result hanswers fun fields h =>
          herror (isObjectAt_iff.2 ⟨fields, h⟩)
        rw [Bool.not_eq_true] at herror
        rw [herror]
        unfold fieldIs
        cases hresult : j.get? "result" with
        | none =>
          rw [hresult] at hscreen
          rw [classifyBody_failure hscreen]
          refine ⟨by simp, ?_⟩
          rintro out ⟨⟩
          exact ⟨.inr (by simp), fun _ => ⟨rfl, rfl⟩⟩
        | some result =>
          have hclassified : classifyBody protocol id method status j = classifyResult method status result := by
            rw [classifyBody, hscreen, hresult]
            rfl
          rw [hclassified, passes_classifyResult (J.utf8_get? hutf hresult)]
          refine ⟨by simp, fun out hout => ?_⟩
          simpa using classifyResult_shape hout

end Envelope

end Calls

/-! ### Sending -/

section Sending

variable {info : BindingInfo} {a : Ask} {auth : AuthSpec} {endpoint id : Str}

theorem utf8_set {j v : J} {k : Str} (hj : Open j) (hno : j.get? k = none) :
    (j.set k v).utf8 = true ↔ (Utf8.valid k = true ∧ v.utf8 = true) ∧ j.utf8 = true := by
  have hkeys : ∀ fs : List (Str × J), J.find k fs = none → ∀ f ∈ fs, f.1 ≠ k := by
    intro fs h
    induction fs with
    | nil => simp
    | cons g fs ih =>
      rw [J.find_cons] at h
      split at h
      · cases h
      · rename_i hne
        exact List.forall_mem_cons.2 ⟨hne, ih h⟩
  rcases hj with rfl | hj
  · exact @J.utf8_insert _ _ [] (by simp)
  · cases j <;> simp only [J.isObject, Bool.false_eq_true] at hj
    rename_i fields
    exact J.utf8_insert (hkeys fields hno)

/-- The parameters and the tenant can be sent if they are UTF-8. -/
theorem utf8_wireParams : (Asked.wireParams info (.inl a)).utf8 = true ↔ a.params.utf8 = true ∧ Utf8.valid info.tenant = true := by
  rw [Asked.wireParams_eq]
  unfold setIf
  cases htenant : info.tenant with
  | nil => exact (and_iff_left (by decide)).symm
  | cons c rest =>
    rw [List.isEmpty_cons, Bool.not_false, if_pos rfl, utf8_set Asked.open_params Asked.tenant_params,
      and_iff_right (show Utf8.valid (lit "tenant") = true by decide), and_comm]
    rfl

theorem utf8_envelope {name : Str} {params : J} (hname : Utf8.valid name = true) (hid : Utf8.valid id = true) :
    (envelope id name params).utf8 = true ↔ params.utf8 = true := by
  have hkeys : ([(lit "jsonrpc", J.str "2.0"), (lit "id", .str id), (lit "method", .str name), (lit "params", params)].map
      Prod.fst).Nodup := show ([lit "jsonrpc", lit "id", lit "method", lit "params"]).Nodup by decide
  unfold envelope
  rw [J.utf8_object hkeys]
  simp +decide [hname, hid, J.utf8]

theorem valid_methodName (m : Method) : Utf8.valid m.name = true := by cases m <;> decide

theorem passes_dump {j : J} : Passes j.dump ↔ j.utf8 = true := by
  constructor
  · rintro ⟨text, h⟩
    exact (J.dump_ok.1 h).1
  · intro h
    exact ⟨_, J.dump_ok.2 ⟨h, rfl⟩⟩

/-- A call is put into a request exactly if its parameters and the tenant are UTF-8. -/
theorem passes_request (hid : Utf8.valid id = true) : Passes (Asked.request auth endpoint info id (.inl a)) ↔
    a.params.utf8 = true ∧ Utf8.valid info.tenant = true := by
  rw [← utf8_wireParams]
  have hrpc : ∀ headers, Passes (do
      let target ← addCredentials auth endpoint
      return HttpRequest.mk target "POST" [] (← (envelope id a.method.name (Asked.wireParams info (.inl a))).dump) headers) ↔
      (Asked.wireParams info (.inl a)).utf8 = true := by
    intro headers
    rw [passes_then fun _ _ => passes_then fun _ _ => passes_return _, and_iff_right (passes_addCredentials auth endpoint),
      and_true, passes_dump, utf8_envelope (valid_methodName a.method) hid]
  show Passes (unaryRequest auth _) ↔ _
  unfold unaryRequest
  dsimp only
  split
  · constructor
    · rintro ⟨req, h⟩
      obtain ⟨t, htarget, -⟩ := except_bind_ok h
      unfold restTarget at htarget
      obtain ⟨body, hbody, -⟩ := except_bind_ok htarget
      exact (J.dump_ok.1 hbody).1
    · intro hp
      rw [Asked.restTarget_eq a hp]
      obtain ⟨path, hpath⟩ := passes_addCredentials auth (Asked.target info (.inl a))
      show Passes (addCredentials auth (Asked.target info (.inl a)) >>= fun path => .ok (HttpRequest.mk _ _ path _ _))
      rw [hpath]
      exact passes_ok _
  · exact hrpc _

end Sending

/-! ## What a call returns -/

section Returns

variable {parse : Str → Option J} {protocol : Protocol} {endpoint id : Str} {method : Method} {r : HttpResponse}

/-- Without a body that is looked at, a call is classified. -/
theorem classify_unread (h : bodyRead parse protocol r = none) :
    ∃ out, classify parse protocol endpoint id method r = .ok out ∧ Classified out := by
  have hscreen : ∃ out : A2AResult, out.errorKind ≠ .none ∧ screen parse protocol endpoint id r = .ok (.inl out) := by
    unfold bodyRead at h
    unfold screen
    split
    · exact ⟨_, by simp, rfl⟩
    · rename_i hlarge
      split
      · exact ⟨_, by simp, rfl⟩
      · rename_i htransport
        split
        · exact ⟨_, by simp, rfl⟩
        · split
          · exact ⟨_, by simp, rfl⟩
          · rename_i hsuccess
            rw [Bool.not_eq_true] at hlarge htransport hsuccess
            rw [hlarge, htransport, hsuccess] at h
            simp only [Bool.or_false, Bool.false_eq_true, if_false] at h
            rw [h]
            exact ⟨_, by simp, rfl⟩
  obtain ⟨out, hkind, hscreen⟩ := hscreen
  refine ⟨out, ?_, .inr hkind⟩
  unfold classify
  rw [hscreen]
  rfl

/-- A body that is looked at decides. -/
theorem classify_read {j : J} (h : bodyRead parse protocol r = some j) :
    classify parse protocol endpoint id method r = classifyBody protocol id method r.status j := by
  unfold bodyRead at h
  split at h
  · cases h
  · rename_i hread
    simp only [Bool.or_eq_true, not_or, Bool.not_eq_true] at hread
    obtain ⟨⟨hlarge, htransport⟩, hsuccess⟩ := hread
    have hstatus : ¬ (r.status = 401 ∨ r.status = 403) := by
      have : r.success = true := by simpa using hsuccess
      unfold HttpResponse.success at this
      simp only [Bool.and_eq_true, decide_eq_true_eq] at this
      omega
    have hscreen : screen parse protocol endpoint id r = screenBody protocol id r.status j := by
      unfold screen
      rw [hlarge, htransport, hsuccess, if_neg Bool.false_ne_true, if_neg Bool.false_ne_true, if_neg hstatus,
        if_neg Bool.false_ne_true, h]
    unfold classify classifyBody
    exact congrArg (· >>= _) hscreen

/-- The result that a response carries for the call `id`, where it answers the call and reports no error. -/
def resultIn (parse : Str → Option J) (protocol : Protocol) (id : Str) (r : HttpResponse) : Option J :=
  (bodyRead parse protocol r).bind fun j =>
    if answersCall protocol id j && !isObjectAt j "error" then j.get? "result" else none

theorem resultIn_eq {result : J} : resultIn parse protocol id r = some result ↔ ∃ j, bodyRead parse protocol r = some j ∧
    answersCall protocol id j = true ∧ isObjectAt j "error" = false ∧ j.get? "result" = some result := by
  simp [resultIn, Option.bind_eq_some_iff, and_assoc]

/-- A body that answers the call is read as an answer. -/
theorem answers_of_answersCall {j : J} (h : answersCall protocol id j = true) : answers protocol j id = .ok true := by
  have hpasses : Passes (answers protocol j id) := by
    refine answers_eq.2 ?_
    unfold answersCall at h
    by_cases hrpc : protocol = .rpc
    · simp only [hrpc, ne_eq, not_true, decide_false, Bool.false_or, Bool.and_eq_true, beq_iff_eq] at h ⊢
      obtain ⟨⟨hversion, -⟩, -⟩ := h
      cases j with
      | obj fields => exact ⟨rfl, fieldIs_iff.2 fun v hv => by rw [hversion] at hv; cases hv; rfl⟩
      | _ => cases hversion
    · simp [hrpc]
  obtain ⟨b, hb⟩ := hpasses
  rw [hb, answers_value hb, h]

/-- The result decides what is made of the response. -/
theorem classify_resultIn {result : J} (h : resultIn parse protocol id r = some result) :
    classify parse protocol endpoint id method r = classifyResult method r.status result := by
  obtain ⟨j, hj, hanswers, herror, hresult⟩ := resultIn_eq.1 h
  have hscreen : screenBody protocol id r.status j = _ := screenBody_result (answers_of_answersCall hanswers)
    fun fields hfields => by rw [isObjectAt_iff.2 ⟨fields, hfields⟩] at herror; cases herror
  rw [classify_read hj, classifyBody, hscreen, hresult]
  rfl

/-- Only a result that the response carries is accepted. -/
theorem resultIn_accepted {out : A2AResult} (h : classify parse protocol endpoint id method r = .ok out)
    (hok : out.ok = true) : resultIn parse protocol id r = some out.value := by
  obtain ⟨hscreen, -⟩ := classify_accepted h hok
  have hread : ∃ j, bodyRead parse protocol r = some j ∧ screenBody protocol id r.status j = .ok (.inr out.value) := by
    unfold screen at hscreen
    repeat' split at hscreen
    iterate 5 cases hscreen
    rename_i hlarge htransport hstatus hsuccess _ j hj
    refine ⟨j, ?_, hscreen⟩
    rw [Bool.not_eq_true] at hlarge htransport hsuccess
    rw [bodyRead, hlarge, htransport, hsuccess]
    exact hj
  obtain ⟨j, hj, hbody⟩ := hread
  unfold screenBody at hbody
  obtain ⟨answered, hanswers, hbody⟩ := Tx.except_bind_ok hbody
  cases answered with
  | false => cases hbody
  | true =>
    split at hbody
    · cases hbody
    · split at hbody
      · obtain ⟨e, -, hbody⟩ := Tx.except_bind_ok hbody
        cases hbody
      · rename_i herror
        split at hbody
        · cases hbody
        · rename_i result hresult
          cases hbody
          refine resultIn_eq.2 ⟨j, hj, (answers_value hanswers).symm, ?_, hresult⟩
          rw [← Bool.not_eq_true, isObjectAt_iff]
          rintro ⟨fields, hfields⟩
          exact herror fields hfields

theorem utf8_bodyRead {j : J} (hparse : ∀ text j, parse text = some j → j.utf8 = true)
    (h : bodyRead parse protocol r = some j) : j.utf8 = true := by
  have hwrap : ∀ result : J, result.utf8 = true → (J.object [("jsonrpc", .str "2.0"), ("result", result)]).utf8 = true := by
    intro result hresult
    have hkeys : ([(lit "jsonrpc", J.str "2.0"), (lit "result", result)].map Prod.fst).Nodup :=
      show ([lit "jsonrpc", lit "result"]).Nodup by decide
    rw [J.utf8_object hkeys]
    simp +decide [hresult]
  unfold bodyRead at h
  split at h
  · cases h
  · unfold responseBody at h
    dsimp only at h
    split at h
    · exact hparse _ _ h
    · split at h
      · cases h
        exact hwrap _ rfl
      · obtain ⟨result, hresult, rfl⟩ := Option.map_eq_some_iff.1 h
        exact hwrap _ (hparse _ _ hresult)

/-- What is expected of one call that is answered with `r`: it returns, its result is classified, and if the
body is looked at and is not of the shape or of the types that are read, it is malformed. -/
def Copes (E : Env) (endpoint : Str) (auth : AuthSpec) (a : Ask) (r : HttpResponse) (s : World) : Prop :=
  ∃ out s', a.call E endpoint auth s = .ok out s' ∧ Classified out ∧
    ∀ j, bodyRead E.parse (bindingAt s endpoint).protocol r = some j →
      (bodyReads (bindingAt s endpoint).protocol (natText s.rpcIds) j = false ∨
        bodyShaped (bindingAt s endpoint).protocol (natText s.rpcIds) a.method j = false) →
      out.ok = false ∧ out.errorKind = .malformedResponse

theorem valid_natText (n : Nat) : Utf8.valid (natText n) = true :=
  J.valid_token (List.all_eq_true.2 fun c hc => isNumChar_of_isDigit (natText_digits n c hc))

/-- A call whose request can be built is the classification of its response. -/
theorem call_run {E : Env} {auth : AuthSpec} {a : Ask} {s : World} (hbinding : (bindingAt s endpoint).protocol ≠ .grpc)
    (hanswer : ∀ req, E.http s.exchanges req = r) (hdump : Passes a.params.dump)
    (hrequest : Passes (Asked.request auth endpoint (bindingAt s endpoint) (natText s.rpcIds) (.inl a))) :
    ∃ w, a.call E endpoint auth s =
      Tx.lift (classify E.parse (bindingAt s endpoint).protocol endpoint (natText s.rpcIds) a.method r) w := by
  obtain ⟨text, hdump⟩ := hdump
  obtain ⟨req, hrequest⟩ := hrequest
  have htransmit : ∃ w, transmit E endpoint auth a.method a.params s =
      .ok ⟨(bindingAt s endpoint).protocol, endpoint, natText s.rpcIds, r⟩ w := by
    have hrun : transmit E endpoint auth a.method a.params s = (do
        let _ ← a.params.dump
        let id ← nextRpcId
        let info ← observe fun s => bindingAt s endpoint
        let response ← deliver E auth ⟨endpoint, info, a.method, withTenant info a.params, id⟩
        return ⟨info.protocol, endpoint, id, response⟩ : M Exchange) s := rfl
    rw [hdump] at hrun
    have hdelivers : transmit E endpoint auth a.method a.params s = ((do
        let response ← deliver E auth ⟨endpoint, bindingAt s endpoint, a.method, withTenant (bindingAt s endpoint) a.params,
          natText s.rpcIds⟩
        return ⟨(bindingAt s endpoint).protocol, endpoint, natText s.rpcIds, response⟩) : M Exchange)
          { s with rpcIds := s.rpcIds + 1 } := hrun
    unfold deliver at hdelivers
    rw [if_neg hbinding] at hdelivers
    have hbuilt : unaryRequest auth ⟨endpoint, bindingAt s endpoint, a.method, withTenant (bindingAt s endpoint) a.params,
        natText s.rpcIds⟩ = .ok req := hrequest
    rw [hbuilt] at hdelivers
    rw [← hanswer req]
    exact ⟨_, hdelivers⟩
  obtain ⟨w, htransmit⟩ := htransmit
  exact ⟨w, Tx.bind_of_ok htransmit⟩

/-- A call that returns has been put into a request. -/
theorem call_built {E : Env} {auth : AuthSpec} {a : Ask} {s s' : World} {out : A2AResult}
    (hbinding : (bindingAt s endpoint).protocol ≠ .grpc) (h : a.call E endpoint auth s = .ok out s') :
    Passes a.params.dump ∧ Passes (Asked.request auth endpoint (bindingAt s endpoint) (natText s.rpcIds) (.inl a)) := by
  obtain ⟨x, w, h, -⟩ := Tx.bind_ok.1 h
  obtain ⟨text, hdump, h⟩ := Tx.lift_bind_ok h
  obtain ⟨id, w₁, hid, h⟩ := Tx.bind_ok.1 h
  cases hid
  obtain ⟨info, w₂, hinfo, h⟩ := Tx.bind_ok.1 h
  cases hinfo
  obtain ⟨response, w₃, h, -⟩ := Tx.bind_ok.1 h
  replace h : deliver E auth ⟨endpoint, bindingAt s endpoint, a.method, withTenant (bindingAt s endpoint) a.params,
    natText s.rpcIds⟩ { s with rpcIds := s.rpcIds + 1 } = .ok response w₃ := h
  unfold deliver at h
  rw [if_neg hbinding] at h
  obtain ⟨req, hreq, -⟩ := Tx.lift_bind_ok h
  exact ⟨⟨text, hdump⟩, req, hreq⟩

/-- **A call raises exactly on a field of the wrong type that is not looked at before it is read.** For
every operation and every response over JSON-RPC and HTTP+JSON, the call returns a classified result, a
malformed one where the body is not what the call takes, exactly if its parameters and the tenant are
UTF-8 and the body, where it is looked at, has every field that is read of the type it is read at. -/
theorem call_copes_iff (E : Env) (hparse : ∀ text j, E.parse text = some j → j.utf8 = true) (endpoint : Str) (auth : AuthSpec)
    (a : Ask) (r : HttpResponse) (s : World) (hbinding : (bindingAt s endpoint).protocol ≠ .grpc)
    (hanswer : ∀ req, E.http s.exchanges req = r) :
    Copes E endpoint auth a r s ↔
      (a.params.utf8 = true ∧ Utf8.valid (bindingAt s endpoint).tenant = true) ∧
        ∀ j, bodyRead E.parse (bindingAt s endpoint).protocol r = some j →
          bodyReads (bindingAt s endpoint).protocol (natText s.rpcIds) j = true := by
  have hsent : Passes a.params.dump ∧
      Passes (Asked.request auth endpoint (bindingAt s endpoint) (natText s.rpcIds) (.inl a)) ↔
      a.params.utf8 = true ∧ Utf8.valid (bindingAt s endpoint).tenant = true := by
    rw [passes_dump, passes_request (valid_natText s.rpcIds)]
    exact ⟨And.right, fun h => ⟨h.1, h⟩⟩
  rw [← hsent]
  constructor
  · rintro ⟨out, s', hcall, -, -⟩
    have hbuilt := call_built hbinding hcall
    refine ⟨hbuilt, fun j hj => ?_⟩
    obtain ⟨w, hrun⟩ := call_run hbinding hanswer hbuilt.1 hbuilt.2
    rw [hcall, classify_read hj] at hrun
    exact (classifyBody_spec (utf8_bodyRead hparse hj)).1.1 ⟨out, (Tx.lift_ok.1 hrun.symm).1⟩
  · rintro ⟨hbuilt, hreads⟩
    obtain ⟨w, hrun⟩ := call_run hbinding hanswer hbuilt.1 hbuilt.2
    cases hread : bodyRead E.parse (bindingAt s endpoint).protocol r with
    | none =>
      obtain ⟨out, hout, hclassified⟩ := @classify_unread _ _ endpoint (natText s.rpcIds) a.method _ hread
      refine ⟨out, w, hrun.trans (Tx.lift_of_ok hout), hclassified, fun j hj => ?_⟩
      rw [hread] at hj
      cases hj
    | some j =>
      obtain ⟨hpasses, hspec⟩ := @classifyBody_spec a.method r.status (bindingAt s endpoint).protocol
        (natText s.rpcIds) _ (utf8_bodyRead hparse hread)
      obtain ⟨out, hout⟩ := hpasses.2 (hreads j hread)
      obtain ⟨hclassified, hshape⟩ := hspec out hout
      rw [classify_read hread, hout] at hrun
      refine ⟨out, w, hrun, hclassified, fun j' hj' hbad => ?_⟩
      rw [hread] at hj'
      cases hj'
      rcases hbad with hbad | hbad
      · rw [hreads j hread] at hbad
        cases hbad
      · exact hshape hbad

/-! ### A context id that is a number -/

def replied (reply : J) : HttpResponse := { status := 200, body := reply.text }

/-- The surroundings of a client that is answered with `reply`. -/
def replying (reply : J) : Env := { Env.offline [reply] with http := fun _ _ => replied reply }

/-- The answer to the first call with one task. -/
def taskReply (contextId : J) : J := .object [("jsonrpc", .str "2.0"), ("id", .str "1"),
  ("result", .object [("id", .str "remote-7"), ("contextId", contextId), ("status", .object [])])]

def asksTask : Ask := .getTask "remote-7"

/-- A task whose `contextId` is a number makes the call raise. -/
theorem numeric_context_raises : (replied (taskReply (.int 5))).success = true ∧
    (replying (taskReply (.int 5))).parse (replied (taskReply (.int 5))).body = some (taskReply (.int 5)) ∧
    Tx.result? (asksTask.call (replying (taskReply (.int 5))) builder.endpoint {} {}) = none ∧
    ¬ Copes (replying (taskReply (.int 5))) builder.endpoint {} asksTask (replied (taskReply (.int 5))) {} := by
  have hnone : Tx.result? (asksTask.call (replying (taskReply (.int 5))) builder.endpoint {} {}) = none := by decide +kernel
  refine ⟨rfl, by decide +kernel, hnone, ?_⟩
  rintro ⟨out, s', hcall, -⟩
  rw [hcall] at hnone
  cases hnone

/-- A task whose `contextId` is a string is returned. -/
theorem call_copes_iff_string :
    Copes (replying (taskReply (.str "ctx"))) builder.endpoint {} asksTask (replied (taskReply (.str "ctx"))) {} := by
  have hread : bodyRead (replying (taskReply (.str "ctx"))).parse .rpc (replied (taskReply (.str "ctx"))) =
      some (taskReply (.str "ctx")) := by decide +kernel
  refine (call_copes_iff (replying (taskReply (.str "ctx"))) (parseAmong_utf8 (by decide +kernel)) builder.endpoint {} asksTask
    (replied (taskReply (.str "ctx"))) {} (by decide +kernel) fun _ => rfl).2 ⟨⟨by decide +kernel, by decide⟩, fun j hj => ?_⟩
  cases hread.symm.trans hj
  decide +kernel

end Returns

end A2ad.Client
