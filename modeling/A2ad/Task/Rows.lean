/-
The records `TaskManager` writes: what each operation makes of the stored record and of what the
remote agent answered, apart from the times and ids it draws.
-/
import A2ad.Client.Classify
import A2ad.Task.Database

namespace A2ad

open Bytes Json Client

/-! ## Created records -/

structure CreateTaskRequest where
  agent : Str
  message : Str
  requestId : Str := []
  cwd : Str := []
  continueTaskId : Str := []
  continueContextId : Str := []
deriving DecidableEq

def orElse (own other : Str) : Str := if own.isEmpty then other else own

/-- The remote id of a record that comes from the remote agent. -/
def remoteIdOf (t : Task) : Option Str := t.remoteTaskId <|> some t.id

/-- A record for a task the agent answered with, under the local id `id`. -/
def createdTask (req : CreateTaskRequest) (t : Task) (id created : Str) : Task := { t with
  remoteTaskId := t.remoteTaskId <|> (if t.id.isEmpty then none else some t.id)
  id := id
  agent := orElse t.agent req.agent
  context := orElse t.context req.continueContextId
  title := orElse t.title (titleFromMessage req.message)
  cwd := orElse t.cwd req.cwd
  createdAt := orElse t.createdAt created }

/-- The agent's message as it is kept in a finished interaction. -/
def answerMessage (r : A2AResult) (messageId : Str) : Message :=
  let m := r.message.getD {}
  { m with
    role := orElse m.role "agent", messageId := orElse m.messageId messageId
    parts := if m.parts.isEmpty then [{ text := r.messageText }] else m.parts }

/-- A record for an answer without a task: a finished interaction. -/
def createdMessage (req : CreateTaskRequest) (r : A2AResult) (id messageId created : Str) : Task where
  id := id
  agent := req.agent
  context := r.contextId
  state := .completed
  title := titleFromMessage req.message
  cwd := req.cwd
  createdAt := created
  messages := [answerMessage r messageId]

/-! ## Updated records -/

/-- The fields of a stored record that no update touches. -/
def keepLocal (existing t : Task) : Task := { t with
  id := existing.id, agent := existing.agent, title := existing.title, cwd := existing.cwd
  createdAt := existing.createdAt }

/-- The remote agent's record in place of the stored one. -/
def replaced (existing t : Task) : Task := keepLocal existing { t with remoteTaskId := remoteIdOf t }

/-- `respondToTask`: a task replaces the record, a message is added to it and finishes it. -/
def respondedTask (existing : Task) (r : A2AResult) : Task :=
  match r.task, r.message with
  | some t, _ => replaced existing t
  | none, some m => { existing with
      messages := existing.messages ++ [m], state := .completed
      context := if r.contextId.isEmpty then existing.context else r.contextId }
  | none, none => existing

/-- `reconcileOnStartup`, which would prefer a title, directory or time of the remote record. -/
def reconciledTask (existing t : Task) : Task := { t with
  remoteTaskId := remoteIdOf t, id := existing.id, agent := existing.agent, title := orElse t.title existing.title
  cwd := orElse t.cwd existing.cwd, createdAt := orElse t.createdAt existing.createdAt }

/-! ## Merged updates -/

/-- An artifact of an update: appended to the one of its id, put in its place, or new. -/
def mergeArtifact (append : Bool) (a : Artifact) : List Artifact → List Artifact
  | [] => [a]
  | b :: rest =>
    if b.artifactId = a.artifactId then
      (if append then { b with parts := b.parts ++ a.parts } else a) :: rest
    else b :: mergeArtifact append a rest

def typeError312 (j : J) : Exception := ⟨lit "[json.exception.type_error.312] cannot use update() with " ++ j.typeName⟩

/-- `base.update(j)` unless `j` is empty; both have to be objects, and a `null` base becomes one. -/
def updateMetadata (base j : J) : Except Exception J :=
  if isEmptyJson j then .ok base
  else
    match base, j with
    | .obj fields, .obj news => .ok (news.foldl (fun acc f => acc.set f.1 f.2) (.obj fields))
    | .null, .obj news => .ok (news.foldl (fun acc f => acc.set f.1 f.2) (.obj []))
    | .obj _, j => .error (typeError312 j)
    | .null, j => .error (typeError312 j)
    | base, _ => .error (typeError312 base)

/-- A partial update: only what it carries is taken over. -/
def mergePartial (existing update : Task) : Except Exception Task := do
  let metadata ← updateMetadata existing.metadata update.metadata
  let merged : Task := { existing with
    context := if update.context.isEmpty then existing.context else update.context
    messages := existing.messages ++ update.messages
    artifacts := update.artifacts.foldl (fun acc a => mergeArtifact update.artifactAppend a acc) existing.artifacts
    metadata := metadata }
  return if update.hasStateUpdate then { merged with
      state := update.state, stateMessage := update.stateMessage, lastStateChange := update.lastStateChange }
    else merged

/-- The record after an update of a subscription: a full one replaces it, a partial one is merged. -/
def mergeUpdate (existing update : Task) : Except Exception Task := do
  let merged ← if update.partialUpdate then mergePartial existing update else .ok update
  return keepLocal existing { merged with remoteTaskId := merged.remoteTaskId <|> some update.id }

end A2ad
