/-
The replies that show tasks, and how a connection sends a reply. The text of a reply is printed
outside the handler's `try`: whether it can be printed depends only on the strings in it, and of
those only the titles and previews, which are cut by bytes, and the texts of errors, which nobody
has checked, can be ill formed.
-/
import A2ad.Client.Stream

namespace A2ad.Ipc

open Bytes Json Utf8 Client

/-! ## Tasks as JSON -/

structure TaskSummary where
  id : Str
  agent : Str
  state : TaskState
  title : Str
  cwd : Str
  createdAt : Str
  updatedAt : Str
  stateMessage : Str
  hasArtifacts : Bool
deriving DecidableEq

/-- The entry of `TaskManager::listTasks` for a task. -/
def summary (t : Task) : TaskSummary :=
  ⟨t.id, t.agent, t.state, t.title, t.cwd, t.createdAt, t.updatedAt, t.stateMessage, !t.artifacts.isEmpty⟩

def messageToJson (m : Message) : J :=
  .object [("message_id", .str m.messageId), ("role", .str m.role), ("text", .str m.text)]

def artifactToJson (a : Artifact) : J :=
  .object [("artifact_id", .str a.artifactId), ("name", .str a.name), ("description", .str a.description),
    ("content", .str a.contentSummary)]

def taskToJson (t : Task) : J :=
  .object [("task_id", .str t.id), ("remote_task_id", .str (t.remoteTaskId.getD [])), ("agent", .str t.agent),
    ("context_id", .str t.context), ("state", .str t.state.name), ("state_message", .str t.stateMessage),
    ("title", .str t.title), ("cwd", .str t.cwd), ("created_at", .str t.createdAt), ("updated_at", .str t.updatedAt),
    ("last_state_change", .str t.lastStateChange), ("error", .str t.error),
    ("messages", .arr (t.messages.map messageToJson)), ("artifacts", .arr (t.artifacts.map artifactToJson))]

def summaryToJson (s : TaskSummary) : J :=
  .object [("id", .str s.id), ("agent", .str s.agent), ("state", .str s.state.name), ("title", .str s.title),
    ("cwd", .str s.cwd), ("created_at", .str s.createdAt), ("updated_at", .str s.updatedAt),
    ("state_message", .str s.stateMessage), ("has_artifacts", .bool s.hasArtifacts)]

/-! ## Replies -/

def refusal (error kind : Str) : J :=
  .object [("ok", .bool false), ("error", .str error), ("error_kind", .str kind)]

def resultRefusal (r : A2AResult) : J := refusal r.error r.errorKind.name

def plainRefusal (error : Str) : J := .object [("ok", .bool false), ("error", .str error)]

def listReply (tasks : List Task) : J :=
  .object [("ok", .bool true), ("tasks", .arr (tasks.map fun t => summaryToJson (summary t)))]

def statusReply (t : Task) : J := .object [("ok", .bool true), ("task", taskToJson t)]

/-- The reply to `subscribe`, with the updates seen also where the stream failed. -/
def subscribeReply (r : A2AResult) (updates : List Task) : J :=
  let updates := J.arr (updates.map taskToJson)
  if r.ok then .object [("ok", .bool true), ("updates", updates)]
  else .object [("ok", .bool false), ("error", .str r.error), ("error_kind", .str r.errorKind.name), ("updates", updates)]

def remoteListReply (r : A2AResult) : J :=
  .object [("ok", .bool true), ("tasks", .arr (r.tasks.map taskToJson)), ("next_page_token", .str r.nextPageToken),
    ("page_size", .int r.pageSize), ("total_size", .int r.totalSize)]

/-- What `handleConnection` sends for what the handler returned or threw. The text is printed after
the `try` block, so that a value that cannot be printed throws on the accept thread. -/
def respond (handled : Except Exception J) : Except Exception Str := do
  let resp := match handled with
    | .ok reply => reply
    | .error e => .object [("ok", .bool false), ("error", .str (lit "bad request: " ++ e.what))]
  return (← resp.dump) ++ [10]

/-- The connection sends the reply and does not throw. -/
def Sends (reply : J) : Prop := ∃ out, respond (.ok reply) = .ok out

theorem sends_iff {reply : J} : Sends reply ↔ reply.utf8 = true := by
  unfold Sends respond
  constructor
  · rintro ⟨out, h⟩
    obtain ⟨text, htext, -⟩ := Tx.except_bind_ok h
    exact (J.dump_ok.1 htext).1
  · intro h
    refine ⟨reply.text ++ [10], ?_⟩
    simp only [J.dump, h, if_true]
    rfl

/-! ## Well-formed replies -/

theorem valid_stateName (s : TaskState) : valid s.name = true := by cases s <;> decide

theorem valid_kindName (k : ErrorKind) : valid k.name = true := by cases k <;> decide

theorem messageToJson_utf8 {m : Message} (h : m.Valid) : (messageToJson m).utf8 = true := by
  refine (J.utf8_object (by simp)).2 ?_
  simp only [List.forall_mem_cons, J.utf8_str]
  exact ⟨⟨by decide, h.messageId⟩, ⟨by decide, h.role⟩, ⟨by decide, h.text⟩, by simp⟩

theorem artifactToJson_utf8 {a : Artifact} (h : a.Valid) : (artifactToJson a).utf8 = true ↔ a.Intact := by
  rw [← h.contentSummary, artifactToJson, J.utf8_object (by simp)]
  simp only [List.forall_mem_cons, J.utf8_str]
  constructor
  · rintro ⟨-, -, -, ⟨-, hcontent⟩, -⟩
    exact hcontent
  · intro hcontent
    exact ⟨⟨by decide, h.artifactId⟩, ⟨by decide, h.name⟩, ⟨by decide, h.description⟩, ⟨by decide, hcontent⟩, by simp⟩

/-- No artifact's preview breaks a character. -/
def Intact (t : Task) : Prop := ∀ a ∈ t.artifacts, a.Intact

theorem taskToJson_utf8 {t : Task} (h : t.Received) :
    (taskToJson t).utf8 = true ↔ valid t.title = true ∧ valid t.error = true ∧ Intact t := by
  have hremote : valid (t.remoteTaskId.getD []) = true := by
    cases hr : t.remoteTaskId with
    | none => rfl
    | some r => exact h.remoteTaskId r hr
  have hmessages : ∀ x ∈ t.messages.map messageToJson, x.utf8 = true := by
    intro x hx
    obtain ⟨m, hm, rfl⟩ := List.mem_map.1 hx
    exact messageToJson_utf8 (h.messages m hm)
  have hartifacts : (∀ x ∈ t.artifacts.map artifactToJson, x.utf8 = true) ↔ Intact t := by
    rw [List.forall_mem_map]
    exact forall₂_congr fun a ha => artifactToJson_utf8 (h.artifacts a ha)
  rw [taskToJson, J.utf8_object (by simp)]
  simp only [List.forall_mem_cons, J.utf8_str, J.utf8_arr, hartifacts]
  constructor
  · rintro ⟨-, -, -, -, -, -, ⟨-, htitle⟩, -, -, -, -, ⟨-, herror⟩, -, ⟨-, hintact⟩, -⟩
    exact ⟨htitle, herror, hintact⟩
  · rintro ⟨htitle, herror, hintact⟩
    exact ⟨⟨by decide, h.id⟩, ⟨by decide, hremote⟩, ⟨by decide, h.agent⟩, ⟨by decide, h.context⟩,
      ⟨by decide, valid_stateName _⟩, ⟨by decide, h.stateMessage⟩, ⟨by decide, htitle⟩, ⟨by decide, h.cwd⟩,
      ⟨by decide, h.createdAt⟩, ⟨by decide, h.updatedAt⟩, ⟨by decide, h.lastStateChange⟩, ⟨by decide, herror⟩,
      ⟨by decide, hmessages⟩, ⟨by decide, hintact⟩, by simp⟩

theorem summaryToJson_utf8 {t : Task} (h : t.Received) : (summaryToJson (summary t)).utf8 = true ↔ valid t.title = true := by
  rw [summaryToJson, summary, J.utf8_object (by simp)]
  simp only [List.forall_mem_cons, J.utf8_str]
  constructor
  · rintro ⟨-, -, -, ⟨-, htitle⟩, -⟩
    exact htitle
  · intro htitle
    exact ⟨⟨by decide, h.id⟩, ⟨by decide, h.agent⟩, ⟨by decide, valid_stateName _⟩, ⟨by decide, htitle⟩,
      ⟨by decide, h.cwd⟩, ⟨by decide, h.createdAt⟩, ⟨by decide, h.updatedAt⟩, ⟨by decide, h.stateMessage⟩,
      ⟨by decide, rfl⟩, by simp⟩

theorem sends_listReply {tasks : List Task} (h : ∀ t ∈ tasks, t.Received) :
    Sends (listReply tasks) ↔ ∀ t ∈ tasks, valid t.title = true := by
  rw [sends_iff, listReply, J.utf8_object (by simp)]
  have hrows : (∀ x ∈ tasks.map fun t => summaryToJson (summary t), x.utf8 = true) ↔ ∀ t ∈ tasks, valid t.title = true := by
    rw [List.forall_mem_map]
    exact forall₂_congr fun t ht => summaryToJson_utf8 (h t ht)
  simp only [List.forall_mem_cons, J.utf8_arr, hrows]
  constructor
  · rintro ⟨-, ⟨-, htitles⟩, -⟩
    exact htitles
  · intro htitles
    exact ⟨⟨by decide, rfl⟩, ⟨by decide, htitles⟩, by simp⟩

theorem sends_statusReply {t : Task} (h : t.Received) :
    Sends (statusReply t) ↔ valid t.title = true ∧ valid t.error = true ∧ Intact t := by
  rw [sends_iff, statusReply, J.utf8_object (by simp), ← taskToJson_utf8 h]
  simp only [List.forall_mem_cons]
  constructor
  · rintro ⟨-, ⟨-, htask⟩, -⟩
    exact htask
  · intro htask
    exact ⟨⟨by decide, rfl⟩, ⟨by decide, htask⟩, by simp⟩

/-- Tasks fresh from a remote agent have no title and no error. -/
theorem tasksToJson_utf8 {tasks : List Task} (h : ∀ t ∈ tasks, t.Valid ∧ t.title = []) :
    (J.arr (tasks.map taskToJson)).utf8 = true ↔ ∀ t ∈ tasks, Intact t := by
  rw [J.utf8_arr, List.forall_mem_map]
  refine forall₂_congr fun t ht => ?_
  rw [taskToJson_utf8 (h t ht).1.toReceived, (h t ht).2]
  exact (and_iff_right rfl).trans (and_iff_right (h t ht).1.error)

theorem sends_refusal {error kind : Str} : Sends (refusal error kind) ↔ valid error = true ∧ valid kind = true := by
  rw [sends_iff, refusal, J.utf8_object (by simp)]
  simp only [List.forall_mem_cons, J.utf8_str]
  constructor
  · rintro ⟨-, ⟨-, herror⟩, ⟨-, hkind⟩, -⟩
    exact ⟨herror, hkind⟩
  · rintro ⟨herror, hkind⟩
    exact ⟨⟨by decide, rfl⟩, ⟨by decide, herror⟩, ⟨by decide, hkind⟩, by simp⟩

theorem sends_resultRefusal {r : A2AResult} : Sends (resultRefusal r) ↔ valid r.error = true := by
  rw [resultRefusal, sends_refusal]
  exact and_iff_left (valid_kindName _)

theorem sends_plainRefusal {error : Str} : Sends (plainRefusal error) ↔ valid error = true := by
  rw [sends_iff, plainRefusal, J.utf8_object (by simp)]
  simp only [List.forall_mem_cons, J.utf8_str]
  constructor
  · rintro ⟨-, ⟨-, herror⟩, -⟩
    exact herror
  · intro herror
    exact ⟨⟨by decide, rfl⟩, ⟨by decide, herror⟩, by simp⟩

theorem sends_subscribeReply {r : A2AResult} {updates : List Task} (h : ∀ t ∈ updates, t.Valid ∧ t.title = []) :
    Sends (subscribeReply r updates) ↔ (∀ t ∈ updates, Intact t) ∧ (r.ok = false → valid r.error = true) := by
  rw [sends_iff, ← tasksToJson_utf8 h, subscribeReply]
  cases r.ok with
  | true =>
    simp only [if_true]
    rw [J.utf8_object (by simp)]
    simp only [List.forall_mem_cons]
    constructor
    · rintro ⟨-, ⟨-, hupdates⟩, -⟩
      exact ⟨hupdates, nofun⟩
    · rintro ⟨hupdates, -⟩
      exact ⟨⟨by decide, rfl⟩, ⟨by decide, hupdates⟩, by simp⟩
  | false =>
    simp only [Bool.false_eq_true, if_false]
    rw [J.utf8_object (by simp)]
    simp only [List.forall_mem_cons, J.utf8_str]
    constructor
    · rintro ⟨-, ⟨-, herror⟩, -, ⟨-, hupdates⟩, -⟩
      exact ⟨hupdates, fun _ => herror⟩
    · rintro ⟨hupdates, herror⟩
      exact ⟨⟨by decide, rfl⟩, ⟨by decide, herror trivial⟩, ⟨by decide, valid_kindName _⟩, ⟨by decide, hupdates⟩, by simp⟩

theorem sends_remoteListReply {r : A2AResult} (hr : valid r.nextPageToken = true)
    (h : ∀ t ∈ r.tasks, t.Valid ∧ t.title = []) : Sends (remoteListReply r) ↔ ∀ t ∈ r.tasks, Intact t := by
  rw [sends_iff, ← tasksToJson_utf8 h, remoteListReply, J.utf8_object (by simp)]
  simp only [List.forall_mem_cons, J.utf8_str]
  constructor
  · rintro ⟨-, ⟨-, htasks⟩, -⟩
    exact htasks
  · intro htasks
    exact ⟨⟨by decide, rfl⟩, ⟨by decide, htasks⟩, ⟨by decide, hr⟩, ⟨by decide, rfl⟩, ⟨by decide, rfl⟩, by simp⟩

/-! ## Which replies are sent -/

/-- A stored task made from the request `msg`, all of whose texts that somebody sent came as well-formed UTF-8. -/
structure Arrived (msg : Str) (t : Task) : Prop where
  message : valid msg = true
  texts : t.Received
  title : t.title = cstr (titleFromMessage msg)

/-- The replies to `list`, `status`, `subscribe` and `remote_list` are sent exactly when no title
and no preview in them was cut inside a character and the error that they tell, if any, is well formed. -/
theorem replies_sent_iff {stored : List (Str × Task)} (hstored : ∀ x ∈ stored, Arrived x.1 x.2)
    {r : Str} (hr : valid r = true) {events : List J} (hevents : ∀ e ∈ events, e.utf8 = true) {updates : List Task}
    (hupdates : ∀ t ∈ updates, ∃ e ∈ events, decodeUpdate r e = .ok (some t))
    {result : J} (hresult : result.utf8 = true) {status : Int} {listed : A2AResult}
    (hlisted : classifyResult .listTasks status result = .ok listed) :
    (Sends (listReply (stored.map (·.2))) ↔ ∀ x ∈ stored, TitleIntact x.1) ∧
      (∀ x ∈ stored, Sends (statusReply x.2) ↔ TitleIntact x.1 ∧ valid x.2.error = true ∧ Intact x.2) ∧
      (∀ streamed : A2AResult, Sends (subscribeReply streamed updates) ↔
        (∀ t ∈ updates, Intact t) ∧ (streamed.ok = false → valid streamed.error = true)) ∧
      (Sends (remoteListReply listed) ↔ ∀ t ∈ listed.tasks, Intact t) ∧
      (∀ failed : A2AResult, Sends (resultRefusal failed) ↔ valid failed.error = true) ∧
      ∀ id, Sends (plainRefusal (lit "no such task: " ++ id)) ↔ valid id = true := by
  have htitle : ∀ x ∈ stored, (valid x.2.title = true ↔ TitleIntact x.1) := by
    intro x hx
    rw [(hstored x hx).title]
    exact valid_stored_title (hstored x hx).message
  refine ⟨?_, ?_, ?_, ?_, fun failed => sends_resultRefusal, ?_⟩
  · rw [sends_listReply, List.forall_mem_map]
    · exact forall₂_congr htitle
    · rw [List.forall_mem_map]
      exact fun x hx => (hstored x hx).texts
  · intro x hx
    rw [sends_statusReply (hstored x hx).texts, htitle x hx]
  · intro streamed
    apply sends_subscribeReply
    intro t ht
    obtain ⟨e, he, hdecode⟩ := hupdates t ht
    exact decodeUpdate_valid hr (hevents e he) hdecode
  · obtain ⟨htoken, htasks⟩ := classifyResult_valid hresult hlisted
    exact sends_remoteListReply htoken htasks
  · intro id
    rw [sends_plainRefusal, valid_append_iff (by decide)]

/-- A task as it is stored for a request, with nothing in it but its title. -/
def titled (msg : Str) : Task := { title := cstr (titleFromMessage msg) }

theorem titled_valid (msg : Str) : (titled msg).Valid :=
  ⟨⟨rfl, by nofun, rfl, rfl, rfl, rfl, rfl, rfl, rfl, by simp [titled], by simp [titled]⟩, rfl⟩

def reportJson : J := .object [("artifactId", .str "a-1"), ("parts", .arr [.object [("text", .str "résumé")]])]

def listedJson : J := .object [("tasks", .arr [.object [("id", .str "remote-1"), ("artifacts", .arr [reportJson])]])]

def report : Artifact := { artifactId := "a-1", parts := [{ text := "résumé" }] }

theorem report_valid : report.Valid := by
  refine ⟨by decide, rfl, rfl, fun p hp => ?_⟩
  cases List.mem_singleton.1 hp
  exact ⟨by decide, rfl, rfl⟩

theorem report_intact : report.Intact := report_valid.contentSummary.1 (by decide)

/-- A task with a report whose letters are not all of one byte. -/
def reported : Task := { titled "fix the build" with artifacts := [report] }

theorem reported_received : reported.Received := by
  refine { (titled_valid "fix the build").toReceived with artifacts := fun a ha => ?_ }
  cases List.mem_singleton.1 ha
  exact report_valid

theorem intact_of_reports {t : Task} (h : t.artifacts = [report]) : Intact t := by
  intro a ha
  rw [h] at ha
  cases List.mem_singleton.1 ha
  exact report_intact

theorem listed_reports : ∃ listed, classifyResult .listTasks 200 listedJson = .ok listed ∧
    listed.tasks.map (·.artifacts) = [[report]] := by
  have h : (classifyResult .listTasks 200 listedJson).toOption.map (fun listed => listed.tasks.map (·.artifacts)) =
      some [[report]] := by decide +kernel
  cases hlisted : classifyResult .listTasks 200 listedJson with
  | error e => rw [hlisted] at h; cases h
  | ok listed =>
    rw [hlisted] at h
    exact ⟨listed, rfl, Option.some.inj h⟩

/-- A report in letters of two bytes is shown, a refusal with a status text that is not UTF-8 is not. -/
theorem replies_sent_iff_plain : Sends (listReply [reported]) ∧ Sends (statusReply reported) ∧
    (∃ listed, classifyResult .listTasks 200 listedJson = .ok listed ∧ listed.tasks.map (·.artifacts) = [[report]] ∧
      Sends (remoteListReply listed)) ∧
    ¬ Sends (resultRefusal { error := lit "gRPC stream failed: " ++ [0xff] }) := by
  have hstored : ∀ x ∈ [(lit "fix the build", reported)], Arrived x.1 x.2 := by
    intro x hx
    cases List.mem_singleton.1 hx
    exact ⟨by decide, reported_received, rfl⟩
  obtain ⟨listed, hlisted, hartifacts⟩ := listed_reports
  obtain ⟨hlist, hstatus, -, hremote, hfailed, -⟩ := replies_sent_iff hstored (r := []) rfl (List.forall_mem_nil _)
    (List.forall_mem_nil _) (show listedJson.utf8 = true by decide +kernel) hlisted
  have hline : TitleIntact "fix the build" := .inl (by decide)
  refine ⟨hlist.2 fun x hx => ?_, (hstatus _ List.mem_cons_self).2 ⟨hline, rfl, intact_of_reports rfl⟩,
    ⟨listed, hlisted, hartifacts, hremote.2 fun t ht => intact_of_reports ?_⟩, fun hsent => ?_⟩
  · cases List.mem_singleton.1 hx
    exact hline
  · have hmem := List.mem_map_of_mem (f := (·.artifacts)) ht
    rw [hartifacts] at hmem
    exact List.mem_singleton.1 hmem
  · exact absurd ((hfailed _).1 hsent) (by decide)

/-- A request whose 48th byte is the first of a letter of two bytes. -/
def accented : Str := "refactor the parser module and add unit tests fée"

/-- The title of a request with a letter of two bytes across its 48th byte: neither the list of
tasks nor the task's status can be sent. -/
theorem title_inside_character : Arrived accented (titled accented) ∧ ¬ Sends (listReply [titled accented]) ∧
    ¬ Sends (statusReply (titled accented)) := by
  refine ⟨⟨by decide, (titled_valid _).toReceived, rfl⟩, ?_, ?_⟩
  · rw [sends_iff]
    decide
  · rw [sends_iff]
    decide

end A2ad.Ipc
