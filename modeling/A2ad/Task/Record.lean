/-
The daemon's task records: lifecycle states with their names, and tasks with their messages,
artifacts and parts, as the client decodes them and the database stores them.
-/
import A2ad.Lib.Json

namespace A2ad

open Bytes Json

/-! ## States -/

inductive TaskState where
  | unknown
  | submitted
  | working
  | inputRequired
  | authRequired
  | completed
  | failed
  | canceled
  | rejected
deriving DecidableEq, Repr

namespace TaskState

/-- `to_string`, and so `to_state_string`. -/
def name : TaskState → Str
  | .unknown => "UNKNOWN"
  | .submitted => "SUBMITTED"
  | .working => "WORKING"
  | .inputRequired => "INPUT_REQUIRED"
  | .authRequired => "AUTH_REQUIRED"
  | .completed => "COMPLETED"
  | .failed => "FAILED"
  | .canceled => "CANCELED"
  | .rejected => "REJECTED"

def isTerminal : TaskState → Bool
  | .completed | .failed | .canceled | .rejected => true
  | _ => false

/-- `task_state_wire_name`. -/
def wireName (s : TaskState) : Str :=
  if s = .unknown then "TASK_STATE_UNSPECIFIED" else lit "TASK_STATE_" ++ s.name

end TaskState

def lowerByte (c : UInt8) : UInt8 := if 65 ≤ c && c ≤ 90 then c + 32 else c

def upperByte (c : UInt8) : UInt8 := if 97 ≤ c && c ≤ 122 then c - 32 else c

/-- `std::tolower` on every byte, in the C locale. -/
def lower (s : Str) : Str := s.map lowerByte

def upper (s : Str) : Str := s.map upperByte

/-- Internal names, case-insensitive. -/
def parseTaskState (s : Str) : Option TaskState :=
  let v := lower s
  if v = lit "unknown" ∨ v = lit "unspecified" then some .unknown
  else if v = lit "submitted" then some .submitted
  else if v = lit "working" then some .working
  else if v = lit "input_required" ∨ v = lit "input-required" ∨ v = lit "inputrequired" then some .inputRequired
  else if v = lit "auth_required" ∨ v = lit "auth-required" ∨ v = lit "authrequired" then some .authRequired
  else if v = lit "completed" then some .completed
  else if v = lit "failed" then some .failed
  else if v = lit "canceled" ∨ v = lit "cancelled" then some .canceled
  else if v = lit "rejected" then some .rejected
  else none

/-- Wire names, with or without their prefix. -/
def parseTaskStateWire (s : Str) : Option TaskState :=
  let stem := lit "TASK_STATE_"
  parseTaskState (if stem.isPrefixOf s then s.drop stem.length else s)

/-- A state is read back from either of its names. -/
theorem parseTaskState_name (s : TaskState) :
    parseTaskState s.name = some s ∧ parseTaskStateWire s.wireName = some s := by
  cases s <;> decide

/-! ## Records -/

structure Part where
  text : Str := []
  raw : Str := []
  url : Str := []
  data : Str := []
  mediaType : Str := []
  filename : Str := []
  metadata : J := .obj []
deriving DecidableEq

structure Message where
  messageId : Str := []
  role : Str := []
  parts : List Part := []
  taskId : Str := []
  contextId : Str := []
  referenceTaskIds : List Str := []
  timestamp : Str := []
  metadata : J := .obj []
  extensions : List Str := []
deriving DecidableEq

structure Artifact where
  artifactId : Str := []
  name : Str := []
  description : Str := []
  parts : List Part := []
  metadata : J := .obj []
  extensions : List Str := []
deriving DecidableEq

/-- A task record. The three hints at the end say how a stream update is merged; they are not stored. -/
structure Task where
  id : Str := []
  remoteTaskId : Option Str := none
  agent : Str := []
  context : Str := []
  state : TaskState := .submitted
  stateMessage : Str := []
  title : Str := []
  cwd : Str := []
  createdAt : Str := []
  updatedAt : Str := []
  lastStateChange : Str := []
  messages : List Message := []
  artifacts : List Artifact := []
  metadata : J := .obj []
  error : Str := []
  partialUpdate : Bool := false
  hasStateUpdate : Bool := true
  artifactAppend : Bool := false
deriving DecidableEq

end A2ad
