/-
The events of a subscription as deltas of the task, and the task that merging one after the other
makes of the stored one. Every merge starts from the record as the table gives it back, so the fold
goes through the store.
-/
import A2ad.Client.Ending
import A2ad.Lib.Upsert
import A2ad.Task.RoundTrip
import A2ad.Task.Subscription

namespace A2ad.TaskManager

open Bytes Json Client Keyed

/-! ## Deltas -/

/-- What an event says of its task: a status, an artifact, which may be more of one, or a message. -/
inductive Delta
  | status (st : Status)
  | artifact (a : Artifact) (append : Bool)
  | message (m : Message)

namespace Delta

/-- The state, its text and its time. -/
def state? : Delta → Option (TaskState × Str × Str)
  | status st => some (st.state, st.stateMessage, st.timestamp)
  | artifact _ _ => none
  | message _ => none

def messages : Delta → List Message
  | status st => st.messages
  | artifact _ _ => []
  | message m => [m]

def artifacts : Delta → List (Artifact × Bool)
  | status _ => []
  | artifact a append => [(a, append)]
  | message _ => []

end Delta

/-- No metadata, or an object. -/
def PlainMetadata (update : J) : Prop := ∀ v, update.get? "metadata" = some v → ∃ fields, v = .obj fields

/-- The event holds no task but an update of this content; of several the status comes first. -/
inductive Carries (r : Str) (e : J) : Delta → Prop
  | status {fields inner : List (Str × J)} {id context : Str} {st : Status}
      (notask : parseTask (carrier e) = .ok none)
      (update : e.get? "statusUpdate" = some (.obj fields)) (taskId : (J.obj fields).valueStr "taskId" r = .ok id)
      (contextId : (J.obj fields).valueStr "contextId" "" = .ok context)
      (value : (J.obj fields).valueJson "status" (.obj []) = .ok (.obj inner)) (read : parseStatus (.obj inner) = .ok st)
      (metadata : PlainMetadata (.obj fields)) : Carries r e (.status st)
  | artifact {fields inner : List (Str × J)} {id context : Str} {a : Artifact} {append : Bool}
      (notask : parseTask (carrier e) = .ok none) (nostatus : isObjectAt e "statusUpdate" = false)
      (update : e.get? "artifactUpdate" = some (.obj fields)) (taskId : (J.obj fields).valueStr "taskId" r = .ok id)
      (contextId : (J.obj fields).valueStr "contextId" "" = .ok context)
      (value : (J.obj fields).valueJson "artifact" (.obj []) = .ok (.obj inner)) (read : parseArtifact (.obj inner) = .ok a)
      (appended : (J.obj fields).valueBool "append" false = .ok append)
      (metadata : PlainMetadata (.obj fields)) : Carries r e (.artifact a append)
  | message {fields : List (Str × J)} {m : Message}
      (notask : parseTask (carrier e) = .ok none) (nostatus : isObjectAt e "statusUpdate" = false)
      (noartifact : isObjectAt e "artifactUpdate" = false) (update : e.get? "message" = some (.obj fields))
      (read : parseMessage (.obj fields) = .ok m) (named : m.taskId.isEmpty = false) : Carries r e (.message m)

/-- The update `u` of an event says what the delta says, and nothing else. -/
structure Fills (e : J) (d : Delta) (u : Task) : Prop where
  delta : u.partialUpdate = true
  state : (if u.hasStateUpdate then some (u.state, u.stateMessage, u.lastStateChange) else none) = d.state?
  messages : u.messages = d.messages
  artifacts : u.artifacts.map (fun a => (a, u.artifactAppend)) = d.artifacts
  metadata : ∃ fields, u.metadata = .obj fields
  formed : e.formed = true → u.metadata.formed = true

section Decoding

variable {r : Str} {e : J} {d : Delta}

theorem orObject_at {α : Type} {k : Str} {f : J → α} {next : α} {fields : List (Str × J)}
    (h : e.get? k = some (.obj fields)) : orObject e k f next = f (.obj fields) := by
  unfold orObject
  rw [h]

theorem orObject_none {α : Type} {k : Str} {f : J → α} {next : α} (h : isObjectAt e k = false) :
    orObject e k f next = next := by
  unfold orObject
  split
  · rename_i fields hget
    rw [isObjectAt, hget] at h
    cases h
  · rfl

theorem metadata_withMetadata {update : J} {t : Task} (h : PlainMetadata update) (ht : ∃ fields, t.metadata = .obj fields) :
    ∃ fields, (withMetadata update t).metadata = .obj fields := by
  show ∃ fields, (update.get? "metadata").getD t.metadata = .obj fields
  cases hget : update.get? "metadata" with
  | none => exact ht
  | some v => exact h v hget

theorem formed_withMetadata {update : J} {t : Task} (h : update.formed = true) (ht : t.metadata.formed = true) :
    (withMetadata update t).metadata.formed = true := by
  show ((update.get? "metadata").getD t.metadata).formed = true
  cases hget : update.get? "metadata" with
  | none => exact ht
  | some v => exact J.formed_get? h hget

theorem parseTask_some {j : J} {id context : Str} {st : Status} {history : List Message} {as : List Artifact}
    (hid : j.get? "id" = some (.str id)) (hcontext : j.valueStr "contextId" "" = .ok context) (hstatus : statusAt j = .ok st)
    (hhistory : (arrayAt j "history").mapM parseMessage = .ok history)
    (has : ((arrayAt j "artifacts").filter J.isObject).mapM parseArtifact = .ok as) :
    parseTask j = .ok (some {
      id := id, remoteTaskId := some id, context := context, state := st.state
      stateMessage := st.stateMessage, lastStateChange := st.timestamp
      messages := st.messages ++ history, artifacts := as, metadata := objectAt j "metadata" }) := by
  unfold parseTask
  rw [hid]
  dsimp only
  rw [hcontext, hstatus, hhistory, has]
  rfl

theorem statusTask_fills {update : J} {id context : Str} {inner : List (Str × J)} {st : Status}
    (taskId : update.valueStr "taskId" r = .ok id) (contextId : update.valueStr "contextId" "" = .ok context)
    (value : update.valueJson "status" (.obj []) = .ok (.obj inner)) (read : parseStatus (.obj inner) = .ok st)
    (metadata : PlainMetadata update) (hformed : e.formed = true → update.formed = true) :
    ∃ u, statusTask r update = .ok (some u) ∧ Fills e (.status st) u := by
  have htask : parseTask (.object [("id", .str id), ("contextId", .str context), ("status", .obj inner)]) = .ok (some {
      id := id, remoteTaskId := some id, context := context, state := st.state
      stateMessage := st.stateMessage, lastStateChange := st.timestamp
      messages := st.messages ++ [], artifacts := [], metadata := .obj [] }) :=
    parseTask_some rfl (valueStr_at rfl rfl) read rfl rfl
  unfold statusTask
  rw [taskId, contextId, value]
  show ∃ u, (parseTask (.object [("id", .str id), ("contextId", .str context), ("status", .obj inner)]) >>= fun task =>
    .ok (task.map fun t => withMetadata update { t with partialUpdate := true })) = .ok (some u) ∧ _
  rw [htask]
  refine ⟨_, rfl, ?_⟩
  exact ⟨rfl, rfl, List.append_nil _, rfl, metadata_withMetadata metadata ⟨[], rfl⟩,
    fun he => formed_withMetadata (hformed he) rfl⟩

theorem artifactTask_fills {update : J} {id context : Str} {inner : List (Str × J)} {a : Artifact} {append : Bool}
    (taskId : update.valueStr "taskId" r = .ok id) (contextId : update.valueStr "contextId" "" = .ok context)
    (value : update.valueJson "artifact" (.obj []) = .ok (.obj inner)) (read : parseArtifact (.obj inner) = .ok a)
    (appended : update.valueBool "append" false = .ok append) (metadata : PlainMetadata update)
    (hformed : e.formed = true → update.formed = true) :
    ∃ u, artifactTask r update = .ok (some u) ∧ Fills e (.artifact a append) u := by
  have has : [J.obj inner].mapM parseArtifact = .ok [a] := by
    rw [List.mapM_cons, read]
    rfl
  have htask : parseTask (.object [("id", .str id), ("contextId", .str context), ("artifacts", .arr [.obj inner])]) = .ok (some {
      id := id, remoteTaskId := some id, context := context, state := .submitted
      stateMessage := [], lastStateChange := [], messages := [] ++ [], artifacts := [a], metadata := .obj [] }) :=
    @parseTask_some _ id context {} [] [a] rfl (valueStr_at rfl rfl) rfl rfl has
  unfold artifactTask
  rw [taskId, contextId, value]
  show ∃ u, (parseTask (.object [("id", .str id), ("contextId", .str context), ("artifacts", .arr [.obj inner])]) >>= fun task =>
    update.valueBool "append" false >>= fun append => .ok (task.map fun t =>
      withMetadata update { t with partialUpdate := true, hasStateUpdate := false, artifactAppend := append })) = .ok (some u) ∧ _
  rw [htask, appended]
  refine ⟨_, rfl, ?_⟩
  exact ⟨rfl, rfl, rfl, rfl, metadata_withMetadata metadata ⟨[], rfl⟩, fun he => formed_withMetadata (hformed he) rfl⟩

/-- The update an event is decoded to says what the event carries. -/
theorem decoded_fills (h : Carries r e d) : ∃ u, updateOf r e = some u ∧ Fills e d u := by
  suffices hdecode : ∃ u, decodeUpdate r e = .ok (some u) ∧ Fills e d u by
    obtain ⟨u, hu, hfills⟩ := hdecode
    refine ⟨u, ?_, hfills⟩
    unfold updateOf
    rw [hu]
  unfold decodeUpdate
  cases h with
  | status notask update taskId contextId value read metadata =>
    rw [notask]
    show ∃ u, orObject e "statusUpdate" (statusTask r) _ = .ok (some u) ∧ _
    rw [orObject_at update]
    exact statusTask_fills taskId contextId value read metadata fun he => J.formed_get? he update
  | artifact notask nostatus update taskId contextId value read appended metadata =>
    rw [notask]
    show ∃ u, orObject e "statusUpdate" (statusTask r) _ = .ok (some u) ∧ _
    rw [orObject_none nostatus, orObject_at update]
    exact artifactTask_fills taskId contextId value read appended metadata fun he => J.formed_get? he update
  | @message fields m notask nostatus noartifact update read named =>
    rw [notask]
    show ∃ u, orObject e "statusUpdate" (statusTask r) _ = .ok (some u) ∧ _
    rw [orObject_none nostatus, orObject_none noartifact, orObject_at update]
    refine ⟨{ id := m.taskId, remoteTaskId := some m.taskId, context := m.contextId, partialUpdate := true
              hasStateUpdate := false, messages := [m] }, ?_, rfl, rfl, rfl, rfl, ⟨[], rfl⟩, fun _ => rfl⟩
    unfold messageTask
    rw [read]
    show (if m.taskId.isEmpty then _ else _) = _
    rw [named]
    rfl

end Decoding

/-! ## The law -/

def storedParts (t : Task) (artifactId : Str) : Option (List Part) :=
  (entry Artifact.artifactId artifactId t.artifacts).map Artifact.parts

/-- The artifacts of the deltas, with what is to be done with each. -/
def artifactsOf (ds : List Delta) : List (Artifact × Bool) := ds.flatMap Delta.artifacts

/-- The parts the deltas bring for one artifact, and whether they are more of it. -/
def chunksOf (artifactId : Str) (ds : List Delta) : List (List Part × Bool) :=
  ((artifactsOf ds).filter fun u => u.1.artifactId = artifactId).map fun u => (u.1.parts, u.2)

/-- What the deltas make of a stored task: the last status, all messages, and every artifact once,
in the order of first appearance, with its last whole parts and all added since. -/
structure Merged (existing : Task) (ds : List Delta) (merged : Task) : Prop where
  state : (merged.state, merged.stateMessage, merged.lastStateChange) =
    (ds.filterMap Delta.state?).getLast?.getD (existing.state, existing.stateMessage, existing.lastStateChange)
  messages : merged.messages = existing.messages ++ ds.flatMap Delta.messages
  order : FirstOrder (existing.artifacts.map Artifact.artifactId ++ (artifactsOf ds).map fun u => u.1.artifactId)
    (merged.artifacts.map Artifact.artifactId)
  parts : ∀ a ∈ merged.artifacts, Assembled (storedParts existing a.artifactId) (chunksOf a.artifactId ds) a.parts

/-- One delta taken into a record. -/
structure Takes (d : Delta) (t merged : Task) : Prop where
  state : (merged.state, merged.stateMessage, merged.lastStateChange) =
    d.state?.getD (t.state, t.stateMessage, t.lastStateChange)
  messages : merged.messages = t.messages ++ d.messages
  artifacts : merged.artifacts = d.artifacts.foldl (fun acc u => mergeArtifact u.2 u.1 acc) t.artifacts

section Law

variable {existing t merged u : Task} {ds : List Delta} {d : Delta}

/-- What an artifact `a` of an update makes of the one of its id. -/
def joined (append : Bool) (a b : Artifact) : Artifact := if append then { b with parts := b.parts ++ a.parts } else a

theorem joined_id {append : Bool} {a : Artifact} (b : Artifact) (h : b.artifactId = a.artifactId) :
    (joined append a b).artifactId = a.artifactId := by
  cases append with
  | false => rfl
  | true => exact h

theorem joined_parts (append : Bool) (a b : Artifact) :
    (joined append a b).parts = if append then b.parts ++ a.parts else a.parts := by
  cases append <;> rfl

theorem mergeArtifact_eq_upsert (append : Bool) (a : Artifact) (as : List Artifact) :
    mergeArtifact append a as = upsert Artifact.artifactId (joined append a) a as := by
  induction as with
  | nil => rfl
  | cons b rest ih =>
    rw [mergeArtifact, upsert, ih]
    rfl

theorem artifactsOf_concat (ds : List Delta) (d : Delta) : artifactsOf (ds ++ [d]) = artifactsOf ds ++ d.artifacts := by
  simp [artifactsOf]

theorem chunksOf_concat (artifactId : Str) (ds : List Delta) (d : Delta) : chunksOf artifactId (ds ++ [d]) =
    chunksOf artifactId ds ++ chunksOf artifactId [d] := by
  simp [chunksOf, artifactsOf]

/-- An artifact that has not appeared yet is neither stored nor among the deltas. -/
theorem unseen {artifactId : Str} (h : artifactId ∉ existing.artifacts.map Artifact.artifactId ++
    (artifactsOf ds).map fun u => u.1.artifactId) : storedParts existing artifactId = none ∧ chunksOf artifactId ds = [] := by
  rw [List.mem_append, not_or] at h
  constructor
  · unfold storedParts
    cases hentry : entry Artifact.artifactId artifactId existing.artifacts with
    | none => rfl
    | some a =>
      obtain ⟨ha, hid⟩ := mem_of_entry hentry
      exact absurd (List.mem_map.2 ⟨a, ha, hid⟩) h.1
  · unfold chunksOf
    rw [List.map_eq_nil_iff, List.filter_eq_nil_iff]
    intro u hu hid
    exact h.2 (List.mem_map.2 ⟨u, hu, of_decide_eq_true hid⟩)

theorem Merged.start (h : (existing.artifacts.map Artifact.artifactId).Nodup) : Merged existing [] existing where
  state := rfl
  messages := (List.append_nil _).symm
  order := by
    show FirstOrder (_ ++ []) _
    rw [List.append_nil]
    exact .of_nodup h
  parts a ha := by
    rw [storedParts, entry_of_mem h ha]
    exact .kept a.parts

theorem chunksOf_artifact (artifactId : Str) (a : Artifact) (append : Bool) :
    chunksOf artifactId [.artifact a append] = if a.artifactId = artifactId then [(a.parts, append)] else [] := by
  by_cases h : a.artifactId = artifactId
  · rw [if_pos h]
    simp [chunksOf, artifactsOf, Delta.artifacts, h]
  · rw [if_neg h]
    simp [chunksOf, artifactsOf, Delta.artifacts, h]

/-- The order after one artifact more. -/
theorem Merged.order_take (h : Merged existing ds t) (append : Bool) (a : Artifact) :
    FirstOrder (existing.artifacts.map Artifact.artifactId ++ (artifactsOf (ds ++ [.artifact a append])).map fun u => u.1.artifactId)
      ((upsert Artifact.artifactId (joined append a) a t.artifacts).map Artifact.artifactId) := by
  rw [map_upsert joined_id, artifactsOf_concat, List.map_append, ← List.append_assoc]
  exact h.order.add a.artifactId

/-- The parts after one artifact more. -/
theorem Merged.parts_take (h : Merged existing ds t) (append : Bool) (a x : Artifact)
    (hx : x ∈ upsert Artifact.artifactId (joined append a) a t.artifacts) :
    Assembled (storedParts existing x.artifactId) (chunksOf x.artifactId (ds ++ [.artifact a append])) x.parts := by
  -- the record's ids stay distinct, so that `x` is what its id is looked up as
  have hentry := entry_of_mem (h.order_take append a).nodup hx
  rw [entry_upsert joined_id] at hentry
  rw [chunksOf_concat, chunksOf_artifact]
  by_cases hid : a.artifactId = x.artifactId
  · rw [if_pos hid] at hentry ⊢
    cases hold : entry Artifact.artifactId x.artifactId t.artifacts with
    | none =>
      rw [hold] at hentry
      obtain rfl : a = x := Option.some.inj hentry
      have hnew : a.artifactId ∉ t.artifacts.map Artifact.artifactId := by
        intro hmem
        obtain ⟨b, hb, hbid⟩ := List.mem_map.1 hmem
        rw [← hbid, entry_of_mem h.order.nodup hb] at hold
        cases hold
      obtain ⟨hstored, hchunks⟩ := unseen fun hmem => hnew ((h.order.mem _).2 hmem)
      rw [hstored, hchunks]
      exact .first (a.parts, append)
    | some b =>
      rw [hold] at hentry
      obtain ⟨hb, hbid⟩ := mem_of_entry hold
      have hbefore := h.parts b hb
      rw [hbid] at hbefore
      rw [← Option.some.inj hentry, Option.elim_some, joined_parts]
      rw [← Option.some.inj hentry, Option.elim_some] at hbefore
      exact hbefore.take (a.parts, append)
  · rw [if_neg hid] at hentry ⊢
    rw [List.append_nil]
    exact h.parts x (mem_of_entry hentry).1

/-- One delta more. -/
theorem Merged.take (h : Merged existing ds t) (hd : Takes d t merged) : Merged existing (ds ++ [d]) merged := by
  have hstate : (merged.state, merged.stateMessage, merged.lastStateChange) =
      ((ds ++ [d]).filterMap Delta.state?).getLast?.getD (existing.state, existing.stateMessage, existing.lastStateChange) := by
    rw [hd.state, List.filterMap_append, List.filterMap_cons, List.filterMap_nil]
    cases hstate : d.state? with
    | none =>
      rw [List.append_nil]
      exact h.state
    | some st =>
      rw [List.getLast?_append]
      rfl
  have hmessages : merged.messages = existing.messages ++ (ds ++ [d]).flatMap Delta.messages := by
    rw [hd.messages, h.messages, List.flatMap_append, List.append_assoc]
    simp
  have hartifacts := hd.artifacts
  cases d with
  | status st =>
    exact ⟨hstate, hmessages, by simpa [hartifacts, artifactsOf, Delta.artifacts] using h.order,
      by simpa [hartifacts, chunksOf, artifactsOf, Delta.artifacts] using h.parts⟩
  | message m =>
    exact ⟨hstate, hmessages, by simpa [hartifacts, artifactsOf, Delta.artifacts] using h.order,
      by simpa [hartifacts, chunksOf, artifactsOf, Delta.artifacts] using h.parts⟩
  | artifact a append =>
    replace hartifacts : merged.artifacts = upsert Artifact.artifactId (joined append a) a t.artifacts := by
      rw [hartifacts, ← mergeArtifact_eq_upsert]
      rfl
    refine ⟨hstate, hmessages, ?_, ?_⟩
    · rw [hartifacts]
      exact h.order_take append a
    · rw [hartifacts]
      exact h.parts_take append a

end Law

/-! ## One merge -/

section Merge

variable {existing t merged u : Task} {d : Delta} {base j : J}

/-- No metadata, or an object. -/
def OpenMetadata (t : Task) : Prop := t.metadata = .null ∨ ∃ fields, t.metadata = .obj fields

/-- Objects are taken over into an object, or into no metadata. -/
theorem updateMetadata_ok {fields : List (Str × J)} (hbase : base = .null ∨ ∃ fields, base = .obj fields) :
    ∃ merged, updateMetadata base (.obj fields) = .ok merged ∧ (merged = .null ∨ ∃ fields, merged = .obj fields) ∧
      (base.formed = true → (J.obj fields).formed = true → merged.formed = true) := by
  have hfold : ∀ (news : List (Str × J)) (acc : J), (∃ fields, acc = .obj fields) →
      (∃ fields, news.foldl (fun acc f => acc.set f.1 f.2) acc = .obj fields) ∧
        (acc.formed = true → (∀ f ∈ news, Utf8.valid f.1 = true ∧ f.2.formed = true) →
          (news.foldl (fun acc f => acc.set f.1 f.2) acc).formed = true) := by
    intro news
    induction news with
    | nil => exact fun acc h => ⟨h, fun hacc _ => hacc⟩
    | cons f news ih =>
      rintro acc ⟨fields, rfl⟩
      obtain ⟨hobj, hformed⟩ := ih ((J.obj fields).set f.1 f.2) ⟨_, rfl⟩
      refine ⟨hobj, fun hacc hnews => ?_⟩
      rw [List.forall_mem_cons] at hnews
      exact hformed (J.formed_set hnews.1.1 hnews.1.2 hacc) hnews.2
  unfold updateMetadata
  split
  · exact ⟨base, rfl, hbase, fun h _ => h⟩
  · rcases hbase with rfl | ⟨fields', rfl⟩
    · obtain ⟨hobj, hformed⟩ := hfold fields (.obj []) ⟨[], rfl⟩
      exact ⟨_, rfl, .inr hobj, fun _ hj => hformed rfl (J.formed_obj.1 hj).2⟩
    · obtain ⟨hobj, hformed⟩ := hfold fields (.obj fields') ⟨fields', rfl⟩
      exact ⟨_, rfl, .inr hobj, fun hbase hj => hformed hbase (J.formed_obj.1 hj).2⟩

/-- Merging an update takes its delta into the record. -/
theorem mergeUpdate_takes (hd : Fills j d u) (hmetadata : OpenMetadata existing) :
    ∃ merged, mergeUpdate existing u = .ok merged ∧ Takes d existing merged ∧ merged.id = existing.id ∧ OpenMetadata merged ∧
      (existing.metadata.formed = true → u.metadata.formed = true → merged.metadata.formed = true) := by
  obtain ⟨fields, hfields⟩ := hd.metadata
  obtain ⟨metadata, hupdate, hopen, hformed⟩ := @updateMetadata_ok _ fields hmetadata
  have hartifacts : u.artifacts.foldl (fun acc a => mergeArtifact u.artifactAppend a acc) existing.artifacts =
      d.artifacts.foldl (fun acc a => mergeArtifact a.2 a.1 acc) existing.artifacts := by
    rw [← hd.artifacts, List.foldl_map]
  have hstate := hd.state
  unfold mergeUpdate mergePartial
  rw [hd.delta, if_pos rfl, hfields, hupdate]
  cases hhas : u.hasStateUpdate with
  | true =>
    rw [hhas, if_pos rfl] at hstate
    refine ⟨_, rfl, ⟨?_, ?_, hartifacts⟩, rfl, hopen, hformed⟩
    · rw [← hstate]
      rfl
    · rw [← hd.messages]
      rfl
  | false =>
    rw [hhas, if_neg Bool.false_ne_true] at hstate
    refine ⟨_, rfl, ⟨?_, ?_, hartifacts⟩, rfl, hopen, hformed⟩
    · rw [← hstate]
      rfl
    · rw [← hd.messages]
      rfl

end Merge

/-! ## Through the store -/

/-- What the delta brings can be stored and read back. -/
structure Delta.Kept (d : Delta) : Prop where
  messages : ∀ m ∈ d.messages, m.Keeps
  artifacts : ∀ u ∈ d.artifacts, u.1.Keeps
  state : ∀ st, d.state? = some st → (0 : UInt8) ∉ st.2.1 ∧ (0 : UInt8) ∉ st.2.2

/-- What a merge looks at of the record can be stored and read back. -/
structure Rereads (t : Task) : Prop where
  formed : t.Formed
  messages : ∀ m ∈ t.messages, m.Keeps
  artifacts : ∀ a ∈ t.artifacts, a.Keeps

/-- The record that is stored under `id`, ready to be merged with. -/
structure HoldsRecord (E : Env) (id : Str) (s : World) (t : Task) : Prop where
  stored : s.task E id = some t
  key : cstr t.id = cstr id
  metadata : OpenMetadata t

section Store

variable {E : Env} {id r : Str} {s : World} {t merged : Task} {d : Delta} {e : J}

/-- Events from a parser carry values of a parser. -/
theorem formed_carried (h : Carries r e d) (he : e.formed = true) :
    (∀ m ∈ d.messages, m.Formed) ∧ ∀ u ∈ d.artifacts, u.1.Formed := by
  have hinner : ∀ {k k' : Str} {fields inner : List (Str × J)}, e.get? k = some (.obj fields) →
      (J.obj fields).valueJson k' (.obj []) = .ok (.obj inner) → (J.obj inner).formed = true := by
    intro k k' fields inner hupdate hvalue
    rcases (J.value_ok.1 hvalue).2 with ⟨w, hw, hv⟩ | ⟨-, hv⟩
    · cases hv
      exact J.formed_get? (J.formed_get? he hupdate) hw
    · cases hv
      rfl
  cases h with
  | status notask update taskId contextId value read metadata =>
    exact ⟨parseStatus_formed (hinner update value) read, by simp [Delta.artifacts]⟩
  | artifact notask nostatus update taskId contextId value read appended metadata =>
    refine ⟨by simp [Delta.messages], ?_⟩
    simp only [Delta.artifacts, List.mem_singleton, forall_eq]
    exact parseArtifact_formed (hinner update value) read
  | message notask nostatus noartifact update read named =>
    refine ⟨?_, by simp [Delta.artifacts]⟩
    simp only [Delta.messages, List.mem_singleton, forall_eq]
    exact parseMessage_formed (J.formed_get? he update) read

/-- The artifacts of a merged record come from the record and from the update. -/
theorem mem_mergeArtifact {append : Bool} {a x : Artifact} {as : List Artifact} (h : x ∈ mergeArtifact append a as) :
    x = a ∨ x ∈ as ∨ ∃ b ∈ as, x = { b with parts := b.parts ++ a.parts } := by
  induction as with
  | nil => exact .inl (List.mem_singleton.1 h)
  | cons b rest ih =>
    unfold mergeArtifact at h
    split at h
    · rcases List.mem_cons.1 h with rfl | hx
      · cases append with
        | false => exact .inl rfl
        | true => exact .inr (.inr ⟨b, List.mem_cons_self, rfl⟩)
      · exact .inr (.inl (List.mem_cons_of_mem _ hx))
    · rcases List.mem_cons.1 h with rfl | hx
      · exact .inr (.inl List.mem_cons_self)
      · rcases ih hx with rfl | hx | ⟨b', hb', rfl⟩
        · exact .inl rfl
        · exact .inr (.inl (List.mem_cons_of_mem _ hx))
        · exact .inr (.inr ⟨b', List.mem_cons_of_mem _ hb', rfl⟩)

/-- What every part of artifacts has, merging keeps. -/
theorem artifacts_takes {P : Artifact → Prop} (hP : ∀ a b : Artifact, P a → P b → P { b with parts := b.parts ++ a.parts })
    (h : Takes d t merged) (ht : ∀ a ∈ t.artifacts, P a) (hd : ∀ u ∈ d.artifacts, P u.1) : ∀ a ∈ merged.artifacts, P a := by
  rw [h.artifacts]
  cases d with
  | status st => exact ht
  | message m => exact ht
  | artifact a append =>
    simp only [Delta.artifacts, List.mem_singleton, forall_eq] at hd
    intro x hx
    rcases mem_mergeArtifact hx with rfl | hx | ⟨b, hb, rfl⟩
    · exact hd
    · exact ht x hx
    · exact hP a b hd (ht b hb)

/-- A merged record is kept where the record and the delta are. -/
theorem Rereads.take (h : Rereads t) (hd : d.Kept) (htakes : Takes d t merged)
    (hmessages : ∀ m ∈ d.messages, m.Formed) (hartifacts : ∀ u ∈ d.artifacts, u.1.Formed)
    (hmetadata : merged.metadata.formed = true) : Rereads merged := by
  refine ⟨⟨?_, ?_, hmetadata⟩, ?_, ?_⟩
  · rw [htakes.messages]
    rintro m hm
    rcases List.mem_append.1 hm with hm | hm
    · exact h.formed.messages m hm
    · exact hmessages m hm
  · refine artifacts_takes (fun a b ha hb => ?_) htakes h.formed.artifacts hartifacts
    refine ⟨hb.artifactId, hb.name, hb.description, hb.metadata, hb.extensions, ?_⟩
    rintro p hp
    rcases List.mem_append.1 hp with hp | hp
    · exact hb.parts p hp
    · exact ha.parts p hp
  · rw [htakes.messages]
    rintro m hm
    rcases List.mem_append.1 hm with hm | hm
    · exact h.messages m hm
    · exact hd.messages m hm
  · refine artifacts_takes (fun a b ha hb => ?_) htakes h.artifacts hd.artifacts
    rintro p hp
    rcases List.mem_append.1 hp with hp | hp
    · exact hb p hp
    · exact ha p hp

theorem not_mem_cstr (b : Str) : (0 : UInt8) ∉ cstr b := by
  intro h
  have := List.mem_takeWhile_imp h
  simp at this

/-- What a merge looks at of a record is read back as it was stored. -/
theorem reread {parse : Str → Option J} (hparse : ReadsBack parse) (h : Rereads t) (hstate : (0 : UInt8) ∉ t.stateMessage)
    (htime : (0 : UInt8) ∉ t.lastStateChange) : ∃ row, bindTask parse t = .ok row ∧ row.id = cstr t.id ∧
      (taskFromRow parse row).state = t.state ∧ (taskFromRow parse row).stateMessage = t.stateMessage ∧
      (taskFromRow parse row).lastStateChange = t.lastStateChange ∧ (taskFromRow parse row).messages = t.messages ∧
      (taskFromRow parse row).artifacts = t.artifacts ∧ (taskFromRow parse row).metadata = t.metadata := by
  obtain ⟨row, hrow, hstateMessage, -, hchanged, hmessages, hartifacts, hmetadata, -⟩ := bindTask_formed hparse h.formed
  have hmessagesBack := readColumn_text hparse (f := readMessage) fun m hm => formed_messageJson hparse (h.formed.messages m hm)
  rw [← hmessages] at hmessagesBack
  have hartifactsBack := readColumn_text hparse (f := readArtifact) fun a ha => formed_artifactJson hparse (h.formed.artifacts a ha)
  rw [← hartifacts] at hartifactsBack
  refine ⟨row, hrow, (bindTask_ok hrow).1, state_of_bindTask hrow, ?_, ?_, ?_, ?_, ?_⟩
  · show cstr row.stateMessage = _
    rw [hstateMessage, cstr_cstr, cstr_eq_self hstate]
  · show cstr row.lastStateChange = _
    rw [hchanged, cstr_cstr, cstr_eq_self htime]
  · exact hmessagesBack.2 fun m hm => (readMessage_messageJson hparse (h.formed.messages m hm)).2 (h.messages m hm)
  · exact hartifactsBack.2 fun a ha => (readArtifact_artifactJson hparse (h.formed.artifacts a ha)).2 (h.artifacts a ha)
  · show (parse (cstr row.metadata)).getD (.obj []) = _
    rw [hmetadata, cstr_eq_self (J.plain_text _).nul, hparse _ h.formed.metadata]
    rfl

/-- The record that the callback computes on an event of the subscription. -/
def mergedOn (E : Env) (id r : Str) (s : World) (e : J) : Option Task :=
  match s.task E id, updateOf r e with
  | some existing, some update => (mergeUpdate existing update).toOption
  | _, _ => none

/-- The callback takes the delta of the event into the stored record. -/
theorem mergedOn_takes (hstored : s.task E id = some t) (hmetadata : OpenMetadata t) (he : Carries r e d) :
    ∃ merged, mergedOn E id r s e = some merged ∧ Takes d t merged := by
  obtain ⟨u, hu, hfills⟩ := decoded_fills he
  obtain ⟨merged, hmerge, htakes, -⟩ := mergeUpdate_takes hfills hmetadata
  refine ⟨merged, ?_, htakes⟩
  unfold mergedOn
  rw [hstored, hu]
  show (mergeUpdate t u).toOption = _
  rw [hmerge]
  rfl

/-- What it computes is what it writes, with the time of the update. -/
theorem received_merged {u : Task} (hstored : s.task E id = some t) (hu : updateOf r e = some u)
    (hmerge : mergeUpdate t u = .ok merged) {row : Row}
    (hrow : bindTask E.parse { merged with updatedAt := E.iso s.isoTicks } = .ok row) :
    (received E id r s e).tasks = (World.written E { s with isoTicks := s.isoTicks + 1 } row).tasks := by
  unfold received
  rw [onUpdate_some hu]
  dsimp only
  have hrun : onSubscribed E id u s = emitStateChanged id t.state merged.state
      (World.written E { s with isoTicks := s.isoTicks + 1 } row) := by
    unfold onSubscribed
    rw [Tx.bind_of_ok (getTask_of hstored)]
    show (do
      let merged ← mergeUpdate t u
      let updated ← nowIso E
      updateTask E { merged with updatedAt := updated }
      emitStateChanged id t.state merged.state : M Unit) s = _
    rw [hmerge]
    show (do
      updateTask E { merged with updatedAt := E.iso s.isoTicks }
      emitStateChanged id t.state merged.state : M Unit) { s with isoTicks := s.isoTicks + 1 } = _
    unfold updateTask insertTask
    rw [hrow]
    rfl
  rw [hrun]
  unfold emitStateChanged
  by_cases hsame : t.state = merged.state
  · rw [if_pos hsame]
    rfl
  · rw [if_neg hsame]
    rfl

/-- One event: the record that holds afterwards has taken its delta in. -/
theorem received_holds (hparse : ReadsBack E.parse) (h : HoldsRecord E id s t) (hkept : Rereads t) (he : Carries r e d) (hd : d.Kept)
    (hformed : e.formed = true) (hfree : E.busy s.writes = false) :
    ∃ t', HoldsRecord E id (received E id r s e) t' ∧ Rereads t' ∧ Takes d t t' := by
  obtain ⟨u, hu, hfills⟩ := decoded_fills he
  obtain ⟨merged, hmerge, htakes, hid, hmetadata, hmetadataFormed⟩ := mergeUpdate_takes hfills h.metadata
  obtain ⟨hmessages, hartifacts⟩ := formed_carried he hformed
  have hmerged : Rereads merged :=
    hkept.take hd htakes hmessages hartifacts (hmetadataFormed hkept.formed.metadata (hfills.formed hformed))
  have hnul : (0 : UInt8) ∉ merged.stateMessage ∧ (0 : UInt8) ∉ merged.lastStateChange := by
    have hstate := htakes.state
    cases hsome : d.state? with
    | some st =>
      obtain ⟨state, message, time⟩ := st
      rw [hsome] at hstate
      cases hstate
      exact hd.state _ hsome
    | none =>
      obtain ⟨row, -, hrow⟩ := Option.map_eq_some_iff.1 h.stored
      rw [hsome] at hstate
      simp only [Option.getD_none, Prod.mk.injEq] at hstate
      rw [hstate.2.1, hstate.2.2, ← hrow]
      exact ⟨not_mem_cstr _, not_mem_cstr _⟩
  have hwritten : Rereads { merged with updatedAt := E.iso s.isoTicks } :=
    ⟨⟨hmerged.formed.messages, hmerged.formed.artifacts, hmerged.formed.metadata⟩, hmerged.messages, hmerged.artifacts⟩
  obtain ⟨row, hrow, hrowId, hstate, hmessage, htime, hmessagesBack, hartifactsBack, hmetadataBack⟩ :=
    reread hparse hwritten hnul.1 hnul.2
  have hlookup : (received E id r s e).tasks.lookup (cstr id) = some row := by
    have hkey : row.id = cstr id := by
      rw [hrowId, ← h.key, ← hid]
    rw [received_merged h.stored hu hmerge hrow, written_free (s := { s with isoTicks := s.isoTicks + 1 }) hfree, hkey,
      AList.lookup_insert]
  refine ⟨taskFromRow E.parse row, ⟨?_, ?_, ?_⟩, ⟨⟨?_, ?_, ?_⟩, ?_, ?_⟩, ⟨?_, ?_, ?_⟩⟩
  · rw [World.task, hlookup, Option.map_some]
  · show cstr (cstr row.id) = _
    rw [cstr_cstr, hrowId, cstr_cstr, ← h.key, ← hid]
  · rw [OpenMetadata, hmetadataBack]
    exact hmetadata
  · rw [hmessagesBack]
    exact hmerged.formed.messages
  · rw [hartifactsBack]
    exact hmerged.formed.artifacts
  · rw [hmetadataBack]
    exact hmerged.formed.metadata
  · rw [hmessagesBack]
    exact hmerged.messages
  · rw [hartifactsBack]
    exact hmerged.artifacts
  · rw [hstate, hmessage, htime]
    exact htakes.state
  · rw [hmessagesBack]
    exact htakes.messages
  · rw [hartifactsBack]
    exact htakes.artifacts

/-- The write of every event of a run finds the database free. -/
def WritesFree (E : Env) (id r : Str) : World → List J → Prop
  | _, [] => True
  | s, e :: es => E.busy s.writes = false ∧ WritesFree E id r (received E id r s e) es

/-- A run of events: the record that holds afterwards is the fold of their deltas. -/
theorem run_holds (hparse : ReadsBack E.parse) {es : List J} {ds : List Delta} (hes : List.Forall₂ (Carries r) es ds)
    {existing : Task} {done : List Delta} (h : HoldsRecord E id s t) (hkept : Rereads t) (hmerged : Merged existing done t)
    (hds : ∀ d ∈ ds, d.Kept) (hformed : ∀ e ∈ es, e.formed = true) (hfree : WritesFree E id r s es) :
    ∃ t', HoldsRecord E id (es.foldl (received E id r) s) t' ∧ Merged existing (done ++ ds) t' := by
  induction hes generalizing s t done with
  | nil =>
    rw [List.append_nil]
    exact ⟨t, h, hmerged⟩
  | @cons e d es ds he hes ih =>
    rw [List.forall_mem_cons] at hds hformed
    obtain ⟨t', h', hkept', htakes⟩ := received_holds hparse h hkept he hds.1 hformed.1 hfree.1
    obtain ⟨t'', h'', hmerged'⟩ := ih h' hkept' (hmerged.take htakes) hds.2 hformed.2 hfree.2
    rw [List.append_assoc] at hmerged'
    exact ⟨t'', h'', hmerged'⟩

end Store

/-- Where the store keeps what the earlier events bring, and is free for their writes, the record that
the callback computes is the fold of all deltas. Only a status changes the state, only an artifact the
artifacts. -/
theorem merged_as_fold (E : Env) (hparse : ReadsBack E.parse) {id r : Str} {s : World} {existing : Task}
    (hkeyed : WellKeyed s.tasks) (hstored : s.task E id = some existing) (hmetadata : OpenMetadata existing)
    (hdistinct : (existing.artifacts.map Artifact.artifactId).Nodup) {es : List J} {e : J} {ds : List Delta} {d : Delta}
    (hes : List.Forall₂ (Carries r) es ds) (he : Carries r e d) (hformed : ∀ e' ∈ es, e'.formed = true)
    (hkept : es ≠ [] → Rereads existing) (hds : ∀ d' ∈ ds, d'.Kept) (hfree : WritesFree E id r s es) :
    ∃ prior merged, (es.foldl (received E id r) s).task E id = some prior ∧
      mergedOn E id r (es.foldl (received E id r) s) e = some merged ∧ Merged existing (ds ++ [d]) merged ∧
      (d.state? = none → merged.state = prior.state ∧ merged.stateMessage = prior.stateMessage ∧
        merged.lastStateChange = prior.lastStateChange) ∧
      (d.artifacts = [] → merged.artifacts = prior.artifacts) := by
  have hprior : ∃ prior, HoldsRecord E id (es.foldl (received E id r) s) prior ∧ Merged existing ds prior := by
    have hkey : cstr existing.id = cstr id := by
      obtain ⟨row, hrow, rfl⟩ := Option.map_eq_some_iff.1 hstored
      show cstr (cstr row.id) = _
      rw [cstr_cstr, (hkeyed _ _ hrow).1, cstr_cstr]
    have hholds : HoldsRecord E id s existing := ⟨hstored, hkey, hmetadata⟩
    cases hes with
    | nil => exact ⟨existing, hholds, .start hdistinct⟩
    | cons he' hes' =>
      exact run_holds hparse (.cons he' hes') hholds (hkept (List.cons_ne_nil _ _)) (.start hdistinct) hds hformed hfree
  obtain ⟨prior, hholds, hmerged⟩ := hprior
  obtain ⟨merged, hmergedOn, htakes⟩ := mergedOn_takes hholds.stored hholds.metadata he
  refine ⟨prior, merged, hholds.stored, hmergedOn, hmerged.take htakes, fun hnone => ?_, fun hnone => ?_⟩
  · have hstate := htakes.state
    rw [hnone] at hstate
    simpa using hstate
  · have hartifacts := htakes.artifacts
    rw [hnone] at hartifacts
    exact hartifacts

/-! ## A message with an empty part -/

def messageEvent (messageId text : Str) : J := .object [("message", .object [("messageId", .str messageId),
  ("role", .str "ROLE_AGENT"), ("taskId", .str "remote-7"), ("parts", .arr [.object [("text", .str text)]])])]

/-- The message of the event. -/
def heard (messageId text : Str) : Message where
  messageId := messageId
  role := "agent"
  taskId := "remote-7"
  parts := [{ text := text }]

theorem carries_heard (messageId text : Str) (hread : parseMessage (.object [("messageId", .str messageId),
    ("role", .str "ROLE_AGENT"), ("taskId", .str "remote-7"), ("parts", .arr [.object [("text", .str text)]])]) =
      .ok (heard messageId text)) : Carries "remote-7" (messageEvent messageId text) (.message (heard messageId text)) := by
  refine .message (parseTask_none.2 fun id h => ?_) rfl rfl rfl hread rfl
  cases h

theorem kept_heard (messageId text : Str) (h : text.isEmpty = false) : (Delta.message (heard messageId text)).Kept := by
  refine ⟨?_, by simp [Delta.artifacts], by simp [Delta.state?]⟩
  simp only [Delta.messages, List.mem_singleton, forall_eq]
  refine ⟨rfl, ?_⟩
  simp only [heard, List.mem_singleton, forall_eq]
  exact ⟨by simp [Part.isSet, h], by simp⟩

/-- Surroundings that know the column of the first message. -/
def hearingEnv : Env := .offline [.arr [messageJson (fun _ => none) (heard "m-1" [])]]

def listening : World := .offline hearingEnv [underway []]

/-- The second message is merged into a record that has lost the first one. -/
theorem empty_part_unmerged : listening.task hearingEnv "local-1" = some (underway []) ∧
    Carries "remote-7" (messageEvent "m-1" []) (.message (heard "m-1" [])) ∧
    Carries "remote-7" (messageEvent "m-2" "done") (.message (heard "m-2" "done")) ∧
    WritesFree hearingEnv "local-1" "remote-7" listening [messageEvent "m-1" []] ∧
    ∀ merged, mergedOn hearingEnv "local-1" "remote-7"
      (received hearingEnv "local-1" "remote-7" listening (messageEvent "m-1" [])) (messageEvent "m-2" "done") = some merged →
        ¬ Merged (underway []) [.message (heard "m-1" []), .message (heard "m-2" "done")] merged := by
  refine ⟨by decide +kernel, carries_heard "m-1" [] (by decide +kernel), carries_heard "m-2" "done" (by decide +kernel), ⟨rfl, trivial⟩, ?_⟩
  intro merged hmerged hlaw
  have hlost : (mergedOn hearingEnv "local-1" "remote-7" (received hearingEnv "local-1" "remote-7" listening (messageEvent "m-1" []))
      (messageEvent "m-2" "done")).map Task.messages = some [heard "m-2" "done"] := by decide +kernel
  rw [hmerged, Option.map_some] at hlost
  have hmessages := hlaw.messages
  rw [Option.some.inj hlost] at hmessages
  exact absurd hmessages (by decide)

/-- The first message has a text, and both are merged. -/
theorem merged_as_fold_heard : ∃ s existing prior merged, s.task printedEnv "local-1" = some existing ∧
    (received printedEnv "local-1" "remote-7" s (messageEvent "m-1" "one")).task printedEnv "local-1" = some prior ∧
    mergedOn printedEnv "local-1" "remote-7" (received printedEnv "local-1" "remote-7" s (messageEvent "m-1" "one"))
      (messageEvent "m-2" "done") = some merged ∧
    Merged existing [.message (heard "m-1" "one"), .message (heard "m-2" "done")] merged := by
  have hkept : Rereads (underway []) := by
    refine ⟨⟨?_, ?_, rfl⟩, ?_, ?_⟩ <;> simp [underway]
  obtain ⟨row, hrow, hid, -, -, -, hmessages, hartifacts, hmetadata⟩ :=
    @reread (underway []) printedEnv.parse readsBack_readPrinted hkept (by decide) (by decide)
  have hkey : row.id = cstr "local-1" := hid
  have hstored : (World.written printedEnv {} row).task printedEnv "local-1" = some (taskFromRow printedEnv.parse row) := by
    rw [World.task, written_free rfl, hkey, AList.lookup_insert]
    rfl
  have hkeyed : WellKeyed (World.written printedEnv {} row).tasks := by
    rw [written_free rfl]
    exact wellKeyed_empty.insert (by rw [hkey]; decide)
  obtain ⟨prior, merged, hprior, hmerged, hlaw, -⟩ := merged_as_fold printedEnv readsBack_readPrinted hkeyed hstored
    (.inr ⟨[], hmetadata⟩) (by rw [hartifacts]; exact List.nodup_nil)
    (.cons (carries_heard "m-1" "one" (by decide +kernel)) .nil)
    (carries_heard "m-2" "done" (by decide +kernel)) (by decide +kernel)
    (fun _ => ⟨⟨by rw [hmessages]; exact hkept.formed.messages, by rw [hartifacts]; exact hkept.formed.artifacts,
      by rw [hmetadata]; rfl⟩, by rw [hmessages]; exact hkept.messages, by rw [hartifacts]; exact hkept.artifacts⟩)
    (by simpa using kept_heard "m-1" "one" (by decide)) ⟨rfl, trivial⟩
  exact ⟨_, _, prior, merged, hstored, hprior, hmerged, hlaw⟩

end A2ad.TaskManager
