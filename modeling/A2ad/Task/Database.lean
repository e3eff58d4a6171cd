/-
The tasks table: how a task is bound to the columns of its row and read back from them. Texts are
bound as C strings; messages, artifacts and metadata are JSON texts, and reading one of them stops
at the first element that does not decode.
-/
import A2ad.Task.Record
import A2ad.Lib.JsonForm
import A2ad.Lib.Tx
import Mathlib.Data.List.AList

namespace A2ad

open Bytes Json

/-- A row of `tasks`; `remoteTaskId` is the one column that may be `NULL`. -/
structure Row where
  id : Str
  remoteTaskId : Option Str
  agent : Str
  contextId : Str
  state : Str
  stateMessage : Str
  title : Str
  cwd : Str
  createdAt : Str
  updatedAt : Str
  lastStateChange : Str
  messages : Str
  artifacts : Str
  metadata : Str
  error : Str
deriving DecidableEq

/-- The bytes a `c_str()` shows: up to the first NUL. -/
def cstr (s : Str) : Str := s.takeWhile (· ≠ 0)

theorem cstr_cstr (s : Str) : cstr (cstr s) = cstr s := by
  unfold cstr
  rw [List.takeWhile_takeWhile]
  simp

theorem cstr_eq_self {s : Str} (h : (0 : UInt8) ∉ s) : cstr s = s := by
  refine List.takeWhile_eq_self_iff.2 fun b hb => ?_
  simp only [ne_eq, decide_not, Bool.not_eq_eq_eq_not, Bool.not_true, decide_eq_false_iff_not]
  rintro rfl
  exact h hb

/-- Nothing after a NUL is seen. -/
theorem cstr_append {s : Str} (h : (0 : UInt8) ∈ s) (t u : Str) : cstr (s ++ t) = cstr (s ++ u) := by
  have hstop : (s.takeWhile (· ≠ 0)).length ≠ s.length := by
    intro hall
    have := List.takeWhile_eq_self_iff.1 (List.IsPrefix.eq_of_length (List.takeWhile_prefix _) hall) 0 h
    simp at this
  unfold cstr
  rw [List.takeWhile_append, List.takeWhile_append, if_neg hstop, if_neg hstop]

/-! ## Binding -/

/-- `json::empty()`. -/
def isEmptyJson : J → Bool
  | .null => true
  | .arr xs => xs.isEmpty
  | .obj fields => fields.isEmpty
  | _ => false

def setIf (c : Bool) (k : Str) (v : J) (j : J) : J := if c then j.set k v else j

section SetIf

variable {j v : J} {k k' : Str} {c : Bool}

/-- What an assignment to a field accepts. -/
def Open (j : J) : Prop := j = .null ∨ j.isObject = true

theorem open_null : Open .null := .inl rfl

theorem open_setIf (hj : Open j) : Open (setIf c k v j) := by
  unfold setIf
  cases c with
  | false => exact hj
  | true =>
    right
    rcases hj with rfl | hj
    · rfl
    · exact J.isObject_set hj

theorem get?_setIf (hj : Open j) : (setIf c k v j).get? k' = if c = true ∧ k = k' then some v else j.get? k' := by
  unfold setIf
  cases c with
  | false => simp
  | true =>
    rcases hj with rfl | hj
    · simp [J.set, J.find_cons]
    · simp [J.get?_set hj]

theorem null_setIf (hj : Open j) : setIf c k v j = .null ↔ c = false ∧ j = .null := by
  unfold setIf
  cases c with
  | false => simp
  | true =>
    rcases hj with rfl | hj
    · simp [J.set]
    · have hset : (j.set k v).isObject = true := J.isObject_set hj
      refine iff_of_false ?_ (by simp)
      intro h
      simp only [if_true] at h
      rw [h] at hset
      cases hset

theorem isObject_setIf (hj : j.isObject = true) : (setIf c k v j).isObject = true := by
  unfold setIf
  split
  · exact J.isObject_set hj
  · exact hj

theorem formed_setIf (hk : Utf8.valid k = true) (hv : c = true → v.formed = true)
    (hj : j.formed = true) : (setIf c k v j).formed = true := by
  unfold setIf
  split
  · rename_i hc
    exact J.formed_set hk (hv hc) hj
  · exact hj

end SetIf

/-- A part as it is stored: `null` when nothing in it is set. Data is stored as JSON where it is JSON. -/
def partJson (parse : Str → Option J) (p : Part) : J :=
  J.null
    |> setIf (!p.text.isEmpty) "text" (.str p.text)
    |> setIf (!p.raw.isEmpty) "raw" (.str p.raw)
    |> setIf (!p.url.isEmpty) "url" (.str p.url)
    |> setIf (!p.data.isEmpty) "data" ((parse p.data).getD (.str p.data))
    |> setIf (!p.mediaType.isEmpty) "mediaType" (.str p.mediaType)
    |> setIf (!p.filename.isEmpty) "filename" (.str p.filename)
    |> setIf (!isEmptyJson p.metadata) "metadata" p.metadata

def messageJson (parse : Str → Option J) (m : Message) : J :=
  .object [("messageId", .str m.messageId), ("role", .str m.role), ("contextId", .str m.contextId),
    ("taskId", .str m.taskId), ("timestamp", .str m.timestamp), ("metadata", m.metadata),
    ("extensions", .arr (m.extensions.map .str)), ("parts", .arr (m.parts.map (partJson parse)))]

def artifactJson (parse : Str → Option J) (a : Artifact) : J :=
  .object [("artifactId", .str a.artifactId), ("name", .str a.name), ("description", .str a.description),
    ("metadata", a.metadata), ("extensions", .arr (a.extensions.map .str)),
    ("parts", .arr (a.parts.map (partJson parse)))]

/-- The columns a task is bound to; texts that are no UTF-8 make the dumps throw. -/
def bindTask (parse : Str → Option J) (t : Task) : Except Exception Row := do
  let messages ← (J.arr (t.messages.map (messageJson parse))).dump
  let artifacts ← (J.arr (t.artifacts.map (artifactJson parse))).dump
  let metadata ← t.metadata.dump
  return {
    id := cstr t.id, remoteTaskId := (t.remoteTaskId.filter fun r => !r.isEmpty).map cstr, agent := cstr t.agent
    contextId := cstr t.context, state := t.state.name, stateMessage := cstr t.stateMessage, title := cstr t.title
    cwd := cstr t.cwd, createdAt := cstr t.createdAt, updatedAt := cstr t.updatedAt
    lastStateChange := cstr t.lastStateChange, messages := messages, artifacts := artifacts, metadata := metadata
    error := cstr t.error }

/-! ## Reading -/

/-- What a loop that stops at the first throw has collected. -/
def collect {α : Type} (f : J → Except Exception α) : List J → List α
  | [] => []
  | j :: rest =>
    match f j with
    | .ok a => a :: collect f rest
    | .error _ => []

/-- A present field has to be a string; other values than objects have no fields. -/
def storedString (j : J) (k : Str) : Except Exception Str :=
  match j.get? k with
  | some v => v.asStr
  | none => .ok []

def storedData (j : J) : Except Exception Str :=
  match j.get? "data" with
  | some (.str s) => .ok s
  | some v => v.dump
  | none => .ok []

def storedObject (j : J) (k : Str) : J :=
  match j.get? k with
  | some (.obj fields) => .obj fields
  | _ => .obj []

def storedStrings (j : J) (k : Str) : List Str :=
  match j.get? k with
  | some (.arr xs) => xs.filterMap fun
    | .str s => some s
    | _ => none
  | _ => []

def readPart (j : J) : Except Exception Part := do
  let text ← storedString j "text"
  let raw ← storedString j "raw"
  let url ← storedString j "url"
  let data ← storedData j
  let mediaType ← j.valueStr "mediaType" ""
  let filename ← j.valueStr "filename" ""
  return ⟨text, raw, url, data, mediaType, filename, storedObject j "metadata"⟩

def readParts (j : J) : Except Exception (List Part) :=
  match j.get? "parts" with
  | some (.arr xs) => xs.mapM readPart
  | _ => .ok []

def readMessage (j : J) : Except Exception Message := do
  let messageId ← j.valueStr "messageId" ""
  let role ← j.valueStr "role" "user"
  let contextId ← j.valueStr "contextId" ""
  let taskId ← j.valueStr "taskId" ""
  let timestamp ← j.valueStr "timestamp" ""
  let parts ← readParts j
  return {
    messageId := messageId, role := role, contextId := contextId, taskId := taskId, timestamp := timestamp
    metadata := storedObject j "metadata", extensions := storedStrings j "extensions", parts := parts }

def readArtifact (j : J) : Except Exception Artifact := do
  let artifactId ← j.valueStr "artifactId" ""
  let name ← j.valueStr "name" ""
  let description ← j.valueStr "description" ""
  let parts ← readParts j
  return {
    artifactId := artifactId, name := name, description := description, parts := parts
    metadata := storedObject j "metadata", extensions := storedStrings j "extensions" }

def readColumn {α : Type} (parse : Str → Option J) (f : J → Except Exception α) (column : Str) : List α :=
  match parse column with
  | some (.arr xs) => collect f xs
  | _ => []

def taskFromRow (parse : Str → Option J) (r : Row) : Task where
  id := cstr r.id
  remoteTaskId := r.remoteTaskId.map cstr
  agent := cstr r.agent
  context := cstr r.contextId
  state := (parseTaskState (cstr r.state)).getD .unknown
  stateMessage := cstr r.stateMessage
  title := cstr r.title
  cwd := cstr r.cwd
  createdAt := cstr r.createdAt
  updatedAt := cstr r.updatedAt
  lastStateChange := cstr r.lastStateChange
  messages := readColumn parse readMessage (cstr r.messages)
  artifacts := readColumn parse readArtifact (cstr r.artifacts)
  metadata := (parse (cstr r.metadata)).getD (.obj [])
  error := cstr r.error

/-- The tasks table. -/
abbrev Tasks := AList fun _ : Str => Row

/-! ## What survives -/

theorem cstr_name (s : TaskState) : cstr s.name = s.name := by cases s <;> decide

/-- The columns a binding fills. -/
theorem bindTask_ok {parse : Str → Option J} {t : Task} {r : Row} (h : bindTask parse t = .ok r) :
    r.id = cstr t.id ∧ r.remoteTaskId = (t.remoteTaskId.filter fun r => !r.isEmpty).map cstr ∧
      r.agent = cstr t.agent ∧ r.contextId = cstr t.context ∧ r.state = t.state.name ∧ r.title = cstr t.title ∧
      r.cwd = cstr t.cwd ∧ r.createdAt = cstr t.createdAt := by
  unfold bindTask at h
  obtain ⟨messages, -, h⟩ := Tx.except_bind_ok h
  obtain ⟨artifacts, -, h⟩ := Tx.except_bind_ok h
  obtain ⟨metadata, -, h⟩ := Tx.except_bind_ok h
  cases h
  exact ⟨rfl, rfl, rfl, rfl, rfl, rfl, rfl, rfl⟩

/-- A stored task keeps its state. -/
theorem state_of_bindTask {parse : Str → Option J} {t : Task} {r : Row} (h : bindTask parse t = .ok r) :
    (taskFromRow parse r).state = t.state := by
  obtain ⟨-, -, -, -, hstate, -⟩ := bindTask_ok h
  simp only [taskFromRow, hstate, cstr_name, (parseTaskState_name t.state).1, Option.getD_some]

end A2ad
