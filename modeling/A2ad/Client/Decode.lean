/-
Decoding of parts, messages and tasks from the wire. A field of the wrong type is either taken as
absent or throws, as the source reads it; what is decoded from well-formed UTF-8 is well formed.
-/
import A2ad.Task.Text
import A2ad.Lib.JsonText
import A2ad.Lib.Tx

namespace A2ad.Client

open Bytes Json Utf8

/-! ## Tolerant reads -/

/-- The string at `k`, or an empty one where it is absent or of another type. -/
def stringAt (j : J) (k : Str) : Str :=
  match j.get? k with
  | some (.str s) => s
  | _ => []

def objectAt (j : J) (k : Str) : J :=
  match j.get? k with
  | some (.obj fields) => .obj fields
  | _ => .obj []

def arrayAt (j : J) (k : Str) : List J :=
  match j.get? k with
  | some (.arr xs) => xs
  | _ => []

/-- The strings among the elements of the array at `k`. -/
def stringsAt (j : J) (k : Str) : List Str :=
  (arrayAt j k).filterMap fun
    | .str s => some s
    | _ => none

def isStringAt (j : J) (k : Str) : Bool := ((j.get? k).map J.isString).getD false

def isObjectAt (j : J) (k : Str) : Bool := ((j.get? k).map J.isObject).getD false

def isArrayAt (j : J) (k : Str) : Bool := ((j.get? k).map J.isArray).getD false

/-! ## Parts and messages -/

def roleInternal (wire : Str) : Str :=
  if wire = lit "ROLE_AGENT" ∨ wire = lit "agent" then "agent"
  else if wire = lit "ROLE_USER" ∨ wire = lit "user" then "user"
  else "unknown"

/-- The text of the `data` field; a `null` counts as absent. -/
def dataAt (j : J) : Except Exception Str :=
  match j.get? "data" with
  | none | some .null => .ok []
  | some d => d.dump

def parsePart (j : J) : Except Exception Part := do
  if !j.isObject then return {}
  let data ← dataAt j
  let mediaType ← j.valueStr "mediaType" ""
  let filename ← j.valueStr "filename" ""
  return {
    text := stringAt j "text", raw := stringAt j "raw", url := stringAt j "url", data := data
    mediaType := mediaType, filename := filename, metadata := objectAt j "metadata" }

/-- `taskId` and `contextId` throw on other types than strings, as `value` does. -/
def parseMessage (j : J) : Except Exception Message := do
  if !j.isObject then return {}
  let messageId ← j.valueStr "messageId" ""
  let role ← j.valueStr "role" "ROLE_USER"
  let taskId ← j.valueStr "taskId" ""
  let contextId ← j.valueStr "contextId" ""
  let timestamp ← j.valueStr "timestamp" ""
  let parts ← (arrayAt j "parts").mapM parsePart
  return {
    messageId := messageId, role := roleInternal role, taskId := taskId, contextId := contextId
    referenceTaskIds := stringsAt j "referenceTaskIds", timestamp := timestamp
    metadata := objectAt j "metadata", extensions := stringsAt j "extensions", parts := parts }

/-! ## Tasks -/

/-- An element of `artifacts` that is an object. -/
def parseArtifact (j : J) : Except Exception Artifact := do
  let artifactId ← j.valueStr "artifactId" ""
  let name ← j.valueStr "name" ""
  let description ← j.valueStr "description" ""
  let parts ← (arrayAt j "parts").mapM parsePart
  return {
    artifactId := artifactId, name := name, description := description, parts := parts
    metadata := objectAt j "metadata", extensions := stringsAt j "extensions" }

/-- What `status` contributes to a task: its state, its text, the message in it and its time. -/
structure Status where
  state : TaskState := .submitted
  stateMessage : Str := []
  messages : List Message := []
  timestamp : Str := []

def parseStatus (st : J) : Except Exception Status := do
  let state := (parseTaskStateWire (← st.valueStr "state" "")).getD .unknown
  match st.get? "message" with
  | some (.obj fields) =>
    let message ← parseMessage (.obj fields)
    let timestamp ← st.valueStr "timestamp" ""
    return ⟨state, message.text, [message], timestamp⟩
  | some (.str text) =>
    let timestamp ← st.valueStr "timestamp" ""
    return ⟨state, text, [], timestamp⟩
  | _ =>
    let timestamp ← st.valueStr "timestamp" ""
    return ⟨state, [], [], timestamp⟩

/-- `status` counts only where it is an object; otherwise the defaults of a record stand. -/
def statusAt (j : J) : Except Exception Status :=
  match j.get? "status" with
  | some (.obj fields) => parseStatus (.obj fields)
  | _ => return {}

/-- The task a value holds, if it is an object with a string `id`. -/
def parseTask (j : J) : Except Exception (Option Task) :=
  match j.get? "id" with
  | some (.str id) => do
    let context ← j.valueStr "contextId" ""
    let status ← statusAt j
    let history ← (arrayAt j "history").mapM parseMessage
    let artifacts ← ((arrayAt j "artifacts").filter J.isObject).mapM parseArtifact
    return some {
      id := id, remoteTaskId := some id, context := context, state := status.state
      stateMessage := status.stateMessage, lastStateChange := status.timestamp
      messages := status.messages ++ history, artifacts := artifacts, metadata := objectAt j "metadata" }
  | _ => return none

/-- Only an object with a string `id` is taken for a task. -/
theorem parseTask_none {j : J} : parseTask j = .ok none ↔ ∀ id, j.get? "id" ≠ some (.str id) := by
  unfold parseTask
  split
  · rename_i id h
    constructor
    · intro hdo
      obtain ⟨_, -, hdo⟩ := Tx.except_bind_ok hdo
      obtain ⟨_, -, hdo⟩ := Tx.except_bind_ok hdo
      obtain ⟨_, -, hdo⟩ := Tx.except_bind_ok hdo
      obtain ⟨_, -, hdo⟩ := Tx.except_bind_ok hdo
      cases hdo
    · intro hno
      exact absurd h (hno id)
  · rename_i hno
    exact ⟨fun _ id h => hno id h, fun _ => rfl⟩

/-! ## What is decoded from well-formed UTF-8 -/

section Valid

variable {j : J} {k : Str}

theorem valid_stringAt (hj : j.utf8 = true) : valid (stringAt j k) = true := by
  unfold stringAt
  split
  · rename_i s h
    exact J.utf8_get? hj h
  · rfl

theorem utf8_arrayAt (hj : j.utf8 = true) : ∀ x ∈ arrayAt j k, x.utf8 = true := by
  unfold arrayAt
  split
  · rename_i xs h
    exact J.utf8_arr.1 (J.utf8_get? hj h)
  · simp

theorem valid_valueStr {d s : Str} (hj : j.utf8 = true) (hd : valid d = true) (h : j.valueStr k d = .ok s) :
    valid s = true := by
  rcases (J.valueStr_ok.1 h).2 with hs | ⟨-, rfl⟩
  · exact J.utf8_get? hj hs
  · exact hd

theorem parsePart_valid {p : Part} (hj : j.utf8 = true) (h : parsePart j = .ok p) : p.Valid := by
  unfold parsePart at h
  split at h
  · cases h
    exact ⟨rfl, rfl, rfl⟩
  · obtain ⟨data, hdata, h⟩ := Tx.except_bind_ok h
    obtain ⟨_, -, h⟩ := Tx.except_bind_ok h
    obtain ⟨_, -, h⟩ := Tx.except_bind_ok h
    cases h
    refine ⟨valid_stringAt hj, valid_stringAt hj, ?_⟩
    unfold dataAt at hdata
    split at hdata
    · cases hdata; rfl
    · cases hdata; rfl
    · obtain ⟨hd, rfl⟩ := J.dump_ok.1 hdata
      exact J.valid_text hd

theorem parseParts_valid {parts : List Part} (hj : j.utf8 = true) (h : (arrayAt j k).mapM parsePart = .ok parts) :
    ∀ p ∈ parts, p.Valid := by
  intro p hp
  obtain ⟨x, hx, hp⟩ := Tx.except_mapM_ok h p hp
  exact parsePart_valid (utf8_arrayAt hj x hx) hp

theorem valid_roleInternal (w : Str) : valid (roleInternal w) = true := by
  unfold roleInternal
  split
  · decide
  · split <;> decide

theorem parseMessage_valid {m : Message} (hj : j.utf8 = true) (h : parseMessage j = .ok m) : m.Valid := by
  unfold parseMessage at h
  split at h
  · cases h
    exact ⟨rfl, rfl, by simp⟩
  · obtain ⟨messageId, hid, h⟩ := Tx.except_bind_ok h
    obtain ⟨_, -, h⟩ := Tx.except_bind_ok h
    obtain ⟨_, -, h⟩ := Tx.except_bind_ok h
    obtain ⟨_, -, h⟩ := Tx.except_bind_ok h
    obtain ⟨_, -, h⟩ := Tx.except_bind_ok h
    obtain ⟨parts, hparts, h⟩ := Tx.except_bind_ok h
    cases h
    exact ⟨valid_valueStr hj (by decide) hid, valid_roleInternal _, parseParts_valid hj hparts⟩

/-- The ids a message names are well formed too. -/
theorem parseMessage_ids {m : Message} (hj : j.utf8 = true) (h : parseMessage j = .ok m) :
    valid m.taskId = true ∧ valid m.contextId = true := by
  unfold parseMessage at h
  split at h
  · cases h
    exact ⟨rfl, rfl⟩
  · obtain ⟨_, -, h⟩ := Tx.except_bind_ok h
    obtain ⟨_, -, h⟩ := Tx.except_bind_ok h
    obtain ⟨taskId, htask, h⟩ := Tx.except_bind_ok h
    obtain ⟨contextId, hcontext, h⟩ := Tx.except_bind_ok h
    obtain ⟨_, -, h⟩ := Tx.except_bind_ok h
    obtain ⟨_, -, h⟩ := Tx.except_bind_ok h
    cases h
    exact ⟨valid_valueStr hj (by decide) htask, valid_valueStr hj (by decide) hcontext⟩

theorem parseArtifact_valid {a : Artifact} (hj : j.utf8 = true) (h : parseArtifact j = .ok a) : a.Valid := by
  unfold parseArtifact at h
  obtain ⟨artifactId, hid, h⟩ := Tx.except_bind_ok h
  obtain ⟨name, hname, h⟩ := Tx.except_bind_ok h
  obtain ⟨description, hdesc, h⟩ := Tx.except_bind_ok h
  obtain ⟨parts, hparts, h⟩ := Tx.except_bind_ok h
  cases h
  exact ⟨valid_valueStr hj (by decide) hid, valid_valueStr hj (by decide) hname,
    valid_valueStr hj (by decide) hdesc, parseParts_valid hj hparts⟩

theorem parseStatus_valid {st : Status} (hj : j.utf8 = true) (h : parseStatus j = .ok st) :
    valid st.stateMessage = true ∧ valid st.timestamp = true ∧ ∀ m ∈ st.messages, m.Valid := by
  unfold parseStatus at h
  obtain ⟨state, -, h⟩ := Tx.except_bind_ok h
  split at h
  · rename_i fields hget
    obtain ⟨message, hmsg, h⟩ := Tx.except_bind_ok h
    obtain ⟨timestamp, htime, h⟩ := Tx.except_bind_ok h
    cases h
    have hm := parseMessage_valid (J.utf8_get? hj hget) hmsg
    exact ⟨hm.text, valid_valueStr hj (by decide) htime, by simpa using hm⟩
  · rename_i text hget
    obtain ⟨timestamp, htime, h⟩ := Tx.except_bind_ok h
    cases h
    exact ⟨J.utf8_get? hj hget, valid_valueStr hj (by decide) htime, by simp⟩
  · obtain ⟨timestamp, htime, h⟩ := Tx.except_bind_ok h
    cases h
    exact ⟨rfl, valid_valueStr hj (by decide) htime, by simp⟩

theorem statusAt_valid {st : Status} (hj : j.utf8 = true) (h : statusAt j = .ok st) :
    valid st.stateMessage = true ∧ valid st.timestamp = true ∧ ∀ m ∈ st.messages, m.Valid := by
  unfold statusAt at h
  split at h
  · rename_i fields hget
    exact parseStatus_valid (J.utf8_get? hj hget) h
  · cases h
    exact ⟨rfl, rfl, by simp⟩

/-- A decoded task has no title of its own, and its texts are well formed where the value's are. -/
theorem parseTask_valid {t : Task} (hj : j.utf8 = true) (h : parseTask j = .ok (some t)) : t.Valid ∧ t.title = [] := by
  unfold parseTask at h
  split at h
  · rename_i id hid
    obtain ⟨context, hcontext, h⟩ := Tx.except_bind_ok h
    obtain ⟨status, hstatus, h⟩ := Tx.except_bind_ok h
    obtain ⟨history, hhistory, h⟩ := Tx.except_bind_ok h
    obtain ⟨artifacts, hartifacts, h⟩ := Tx.except_bind_ok h
    cases h
    have hidv : valid id = true := J.utf8_get? hj hid
    obtain ⟨htext, htime, hmsgs⟩ := statusAt_valid hj hstatus
    refine ⟨?_, rfl⟩
    exact {
      id := hidv
      remoteTaskId := by rintro r ⟨⟩; exact hidv
      agent := rfl
      context := valid_valueStr hj (by decide) hcontext
      stateMessage := htext
      cwd := rfl
      createdAt := rfl
      updatedAt := rfl
      lastStateChange := htime
      error := rfl
      messages := by
        intro m hm
        rcases List.mem_append.1 hm with hm | hm
        · exact hmsgs m hm
        · obtain ⟨x, hx, hm⟩ := Tx.except_mapM_ok hhistory m hm
          exact parseMessage_valid (utf8_arrayAt hj x hx) hm
      artifacts := by
        intro a ha
        obtain ⟨x, hx, ha⟩ := Tx.except_mapM_ok hartifacts a ha
        exact parseArtifact_valid (utf8_arrayAt hj x (List.mem_filter.1 hx).1) ha }
  · cases h

end Valid

end A2ad.Client
