/-
The HTTP+JSON encoding read back: the paths of the protocol as routes, the query and the body as
parameters, and that what the client builds determines the operation and its parameters.
-/
import A2ad.Client.Ask
import A2ad.Lib.JsonForm
import A2ad.Lib.Url

namespace A2ad.Client

open Bytes Json

/-! ## Routes -/

theorem separates_unreserved : Url.Separates isUnreserved := by
  unfold Url.Separates
  decide +kernel

/-- The resources of the protocol with the ids in their paths. -/
inductive Route where
  | messageSend
  | messageStream
  | tasks
  | task (id : Str)
  | cancel (id : Str)
  | subscribe (id : Str)
  | pushConfigs (taskId : Str)
  | pushConfig (taskId id : Str)
  | extendedCard
deriving DecidableEq

def Route.path : Route → Str
  | .messageSend => "message:send"
  | .messageStream => "message:stream"
  | .tasks => "tasks"
  | .task id => lit "tasks/" ++ urlEncode id
  | .cancel id => lit "tasks/" ++ urlEncode id ++ lit ":cancel"
  | .subscribe id => lit "tasks/" ++ urlEncode id ++ lit ":subscribe"
  | .pushConfigs taskId => lit "tasks/" ++ urlEncode taskId ++ lit "/pushNotificationConfigs"
  | .pushConfig taskId id => lit "tasks/" ++ urlEncode taskId ++ lit "/pushNotificationConfigs/" ++ urlEncode id
  | .extendedCard => "extendedAgentCard"

/-- The segment of one task: its id, and an action after a colon. -/
def readTask (segment : Str) : Option Route :=
  match splitAt? [58] segment with
  | none => (Url.decode segment).map .task
  | some (id, action) =>
    if action = lit "cancel" then (Url.decode id).map .cancel
    else if action = lit "subscribe" then (Url.decode id).map .subscribe
    else none

def readRoute (path : Str) : Option Route :=
  match path.splitOn 47 with
  | [segment] =>
    if segment = lit "message:send" then some .messageSend
    else if segment = lit "message:stream" then some .messageStream
    else if segment = lit "tasks" then some .tasks
    else if segment = lit "extendedAgentCard" then some .extendedCard
    else none
  | [root, segment] => if root = lit "tasks" then readTask segment else none
  | [root, taskId, configs] =>
    if root = lit "tasks" ∧ configs = lit "pushNotificationConfigs" then (Url.decode taskId).map .pushConfigs else none
  | [root, taskId, configs, id] =>
    if root = lit "tasks" ∧ configs = lit "pushNotificationConfigs" then
      (Url.decode taskId).bind fun taskId => (Url.decode id).map (.pushConfig taskId)
    else none
  | _ => none

theorem decode_urlEncode (s : Str) : Url.decode (urlEncode s) = some s := Url.decode_encode (by decide) s

theorem notMem_urlEncode {c : UInt8} (hc : c ∈ [38, 61, 63, 47, 58]) (s : Str) : c ∉ urlEncode s :=
  separates_unreserved.notMem hc s

/-- A segment without a slash is one of the segments of a path. -/
theorem splitOn_segment {s : Str} (h : 47 ∉ s) (rest : Str) : (s ++ 47 :: rest).splitOn 47 = s :: rest.splitOn 47 :=
  List.splitOn_append_cons_self_of_not_mem h rest

theorem splitOn_tasks (rest : Str) : (lit "tasks/" ++ rest).splitOn 47 = lit "tasks" :: rest.splitOn 47 :=
  splitOn_segment (s := lit "tasks") (by decide) rest

theorem readTask_action {action : Str} (id : Str) : readTask (urlEncode id ++ 58 :: action) =
    if action = lit "cancel" then some (.cancel id) else if action = lit "subscribe" then some (.subscribe id) else none := by
  unfold readTask
  rw [splitAt?_of_notMem (notMem_urlEncode (by decide) id)]
  dsimp only
  rw [decode_urlEncode]
  rfl

theorem readRoute_tasks {segment : Str} (h : 47 ∉ segment) : readRoute (lit "tasks/" ++ segment) = readTask segment := by
  unfold readRoute
  rw [splitOn_tasks, List.splitOn_eq_singleton h]
  exact if_pos rfl

theorem slash_notMem_action {action : Str} (h : 47 ∉ action) (id : Str) : 47 ∉ urlEncode id ++ 58 :: action := by
  rw [List.mem_append, List.mem_cons]
  rintro (hm | hm | hm)
  · exact notMem_urlEncode (by decide) id hm
  · exact absurd hm (by decide)
  · exact h hm

/-- Every route is read back from its path. -/
theorem readRoute_path (r : Route) : readRoute r.path = some r := by
  have hslash : ∀ s, (47 : UInt8) ∉ urlEncode s := notMem_urlEncode (by decide)
  cases r with
  | messageSend => decide +kernel
  | messageStream => decide +kernel
  | tasks => decide +kernel
  | extendedCard => decide +kernel
  | task id =>
    show readRoute (lit "tasks/" ++ urlEncode id) = _
    rw [readRoute_tasks (hslash id)]
    unfold readTask
    rw [splitAt?_eq_none (notMem_urlEncode (by decide) id), decode_urlEncode]
    rfl
  | cancel id =>
    show readRoute (lit "tasks/" ++ urlEncode id ++ 58 :: lit "cancel") = _
    rw [List.append_assoc, readRoute_tasks (slash_notMem_action (by decide) id), readTask_action, if_pos rfl]
  | subscribe id =>
    show readRoute (lit "tasks/" ++ urlEncode id ++ 58 :: lit "subscribe") = _
    rw [List.append_assoc, readRoute_tasks (slash_notMem_action (by decide) id), readTask_action, if_neg (by decide), if_pos rfl]
  | pushConfigs taskId =>
    show readRoute (lit "tasks/" ++ urlEncode taskId ++ 47 :: lit "pushNotificationConfigs") = _
    unfold readRoute
    rw [List.append_assoc, splitOn_tasks, splitOn_segment (hslash taskId), List.splitOn_eq_singleton (by decide)]
    dsimp only
    rw [if_pos ⟨rfl, rfl⟩, decode_urlEncode]
    rfl
  | pushConfig taskId id =>
    have hpath : Route.path (.pushConfig taskId id) =
        lit "tasks/" ++ (urlEncode taskId ++ 47 :: (lit "pushNotificationConfigs" ++ 47 :: urlEncode id)) := by
      show lit "tasks/" ++ urlEncode taskId ++ (47 :: lit "pushNotificationConfigs" ++ [47]) ++ urlEncode id = _
      simp
    unfold readRoute
    rw [hpath, splitOn_tasks, splitOn_segment (hslash taskId), splitOn_segment (by decide), List.splitOn_eq_singleton (hslash id)]
    dsimp only
    rw [if_pos ⟨rfl, rfl⟩, decode_urlEncode, decode_urlEncode]
    rfl

/-! ## Queries -/

section Queries

variable {params : J}

/-- The text a value has in a query. -/
def valueText : J → Str
  | .str s => s
  | v => v.text

/-- The field of a query for a parameter, if it is there and not empty. -/
def queryField (params : J) (k : Str) : Option (Str × Str) :=
  (params.get? k).bind fun v => if v.isNull || (valueText v).isEmpty then none else some (k, valueText v)

theorem queryText_eq {v : J} (hv : v.utf8 = true) : queryText v = .ok (valueText v) := by
  cases v <;> first | rfl | exact J.dump_ok.2 ⟨hv, rfl⟩

theorem addQuery_eq {v : J} (htext : queryText v = .ok (valueText v)) (path k : Str) : addQuery path k v =
    .ok (if v.isNull || (valueText v).isEmpty then path else Url.addField isUnreserved path (k, valueText v)) := by
  unfold addQuery
  cases hnull : v.isNull with
  | true => rfl
  | false =>
    rw [htext]
    simp only [Bool.false_eq_true, if_false, Bool.false_or]
    show (if (valueText v).isEmpty = true then _ else _) = _
    split
    · rfl
    · show Except.ok _ = Except.ok _
      rw [List.append_assoc, List.append_assoc]
      rfl

theorem addFields_eq (hp : params.utf8 = true) (keys : List Str) (path : Str) : addFields params keys path =
    .ok ((keys.filterMap (queryField params)).foldl (Url.addField isUnreserved) path) := by
  unfold addFields
  induction keys generalizing path with
  | nil => rfl
  | cons k keys ih =>
    rw [List.foldlM_cons, List.filterMap_cons]
    unfold queryField at ih ⊢
    cases hv : params.get? k with
    | none => exact ih path
    | some v =>
      rw [Option.getD_some, addQuery_eq (queryText_eq (J.utf8_get? hp hv)), Option.bind_some]
      show (keys.foldlM _ (if _ then _ else _)) = _
      split
      · exact ih path
      · exact ih _

/-- Credentials can always be put into a query. -/
theorem passes_addCredentials (auth : AuthSpec) (path : Str) : Tx.Passes (addCredentials auth path) := by
  have hadd : ∀ path k s, Tx.Passes (addQuery path k (.str s)) := fun path k s => ⟨_, addQuery_eq rfl path k⟩
  have hextra : ∀ path, Tx.Passes (auth.extraQuery.foldlM (fun path q => addQuery path q.1 (.str q.2)) path) := by
    generalize auth.extraQuery = qs
    induction qs with
    | nil => exact fun path => ⟨path, rfl⟩
    | cons q qs ih =>
      intro path
      obtain ⟨path', h⟩ := hadd path q.1 q.2
      rw [List.foldlM_cons, h]
      exact ih path'
  unfold addCredentials
  split
  · exact hextra path
  · obtain ⟨path', h⟩ := hadd path auth.queryName auth.queryValue
    rw [h]
    exact hextra path'

end Queries

/-! ## Operations -/

/-- An operation of the client, with one response or a stream of them. -/
abbrev Asked := Ask ⊕ StreamAsk

namespace Asked

def name : Asked → Method ⊕ StreamMethod := Sum.map Ask.method StreamAsk.method

def params : Asked → J
  | .inl a => a.params
  | .inr a => a.params

/-- The texts are UTF-8 and the numbers are of the type `int`. -/
def Valid : Asked → Prop
  | .inl (.sendMessage text taskId contextId messageId) =>
    Utf8.valid text = true ∧ Utf8.valid taskId = true ∧ Utf8.valid contextId = true ∧ Utf8.valid messageId = true
  | .inl (.getTask id) => Utf8.valid id = true
  | .inl (.listTasks f) => Utf8.valid f.contextId = true ∧ Utf8.valid f.pageToken = true ∧
    Utf8.valid f.statusTimestampAfter = true ∧ ∀ n, f.historyLength = some n → -2 ^ 31 ≤ n ∧ n < 2 ^ 31
  | .inl (.cancelTask id) => Utf8.valid id = true
  | .inl (.createPushConfig c) => Utf8.valid c.id = true ∧ Utf8.valid c.taskId = true ∧ Utf8.valid c.url = true ∧
    Utf8.valid c.token = true ∧ Utf8.valid c.authScheme = true ∧ Utf8.valid c.authCredentials = true
  | .inl (.getPushConfig taskId id) => Utf8.valid taskId = true ∧ Utf8.valid id = true
  | .inl (.listPushConfigs taskId pageSize pageToken) =>
    Utf8.valid taskId = true ∧ (-2 ^ 31 ≤ pageSize ∧ pageSize < 2 ^ 31) ∧ Utf8.valid pageToken = true
  | .inl (.deletePushConfig taskId id) => Utf8.valid taskId = true ∧ Utf8.valid id = true
  | .inl .extendedCard => True
  | .inr (.subscribeToTask id) => Utf8.valid id = true
  | .inr (.sendStreamingMessage text taskId contextId messageId) =>
    Utf8.valid text = true ∧ Utf8.valid taskId = true ∧ Utf8.valid contextId = true ∧ Utf8.valid messageId = true

/-- The parameters as they are sent, with the tenant of the interface. -/
def wireParams (info : BindingInfo) (op : Asked) : J :=
  match op with
  | .inl a => withTenant info a.params
  | .inr a => setIf (!info.tenant.isEmpty) "tenant" (.str info.tenant) a.params

/-- The request that is built for the operation. -/
def request (auth : AuthSpec) (endpoint : Str) (info : BindingInfo) (id : Str) (op : Asked) : Except Exception HttpRequest :=
  match op with
  | .inl a => unaryRequest auth ⟨endpoint, info, a.method, wireParams info (.inl a), id⟩
  | .inr a => streamRequest auth ⟨endpoint, info, a.method, wireParams info (.inr a), id⟩

/-! ### The parts of the request -/

def verb : Asked → Str
  | .inl (.getTask _) | .inl (.listTasks _) | .inl (.getPushConfig ..) | .inl (.listPushConfigs ..) | .inl .extendedCard
  | .inr (.subscribeToTask _) => "GET"
  | .inl (.deletePushConfig ..) => "DELETE"
  | _ => "POST"

def route : Asked → Route
  | .inl (.sendMessage ..) => .messageSend
  | .inl (.getTask id) => .task id
  | .inl (.listTasks _) => .tasks
  | .inl (.cancelTask id) => .cancel id
  | .inl (.createPushConfig c) => .pushConfigs c.taskId
  | .inl (.getPushConfig taskId id) => .pushConfig taskId id
  | .inl (.listPushConfigs taskId _ _) => .pushConfigs taskId
  | .inl (.deletePushConfig taskId id) => .pushConfig taskId id
  | .inl .extendedCard => .extendedCard
  | .inr (.subscribeToTask id) => .subscribe id
  | .inr (.sendStreamingMessage ..) => .messageStream

def optional (c : Bool) (k text : Str) : List (Str × Str) := if c then [(k, text)] else []

def query : Asked → List (Str × Str)
  | .inl (.listTasks f) =>
    optional (!f.contextId.isEmpty) "contextId" f.contextId ++
      (optional f.status.isSome "status" (f.status.getD .unknown).wireName ++
        (optional (0 < f.pageSize) "pageSize" (intText (min f.pageSize 100)) ++
          (optional (!f.pageToken.isEmpty) "pageToken" f.pageToken ++
            (optional f.historyLength.isSome "historyLength" (intText (f.historyLength.getD 0)) ++
              (optional (!f.statusTimestampAfter.isEmpty) "statusTimestampAfter" f.statusTimestampAfter ++
                (optional f.includeArtifacts.isSome "includeArtifacts" (J.bool (f.includeArtifacts.getD false)).text ++ []))))))
  | .inl (.listPushConfigs _ pageSize pageToken) =>
    optional true "pageSize" (intText pageSize) ++ (optional (!pageToken.isEmpty) "pageToken" pageToken ++ [])
  | _ => []

/-- Whether the parameters are in the body. -/
def inBody : Asked → Bool
  | .inl (.sendMessage ..) | .inl (.cancelTask _) | .inl (.createPushConfig _) | .inr (.sendStreamingMessage ..) => true
  | _ => false

/-! ### The parameters -/

section Params

variable {op : Asked} {info : BindingInfo}

theorem open_params : Open op.params := by
  rcases op with a | a
  · cases a with
    | listTasks f =>
      show Open (listParams f)
      unfold listParams
      repeat apply open_setIf
      exact open_null
    | createPushConfig c => exact open_setIf (.inr rfl)
    | listPushConfigs taskId pageSize pageToken => exact open_setIf (.inr rfl)
    | _ => exact .inr rfl
  · cases a <;> exact .inr rfl

/-- No operation names a tenant of its own. -/
theorem tenant_params : op.params.get? "tenant" = none := by
  rcases op with a | a
  · cases a with
    | listTasks f =>
      show (listParams f).get? "tenant" = none
      unfold listParams
      simp +decide (disch := (repeat apply open_setIf); exact open_null) [get?_setIf]
    | createPushConfig c =>
      show (pushParams c).get? "tenant" = none
      unfold pushParams
      rw [get?_setIf (.inr rfl)]
      simp +decide [J.find_cons]
    | listPushConfigs taskId pageSize pageToken =>
      show (pushPageParams taskId pageSize pageToken).get? "tenant" = none
      unfold pushPageParams
      rw [get?_setIf (.inr rfl)]
      simp +decide [J.find_cons]
    | _ => rfl
  · cases a <;> rfl

theorem wireParams_eq : op.wireParams info = setIf (!info.tenant.isEmpty) "tenant" (.str info.tenant) op.params := by
  rcases op with a | a
  · show setIf (!info.tenant.isEmpty && !a.params.contains "tenant") _ _ _ = _
    have hno : a.params.contains "tenant" = false := by
      unfold J.contains
      rw [show a.params.get? "tenant" = none from @tenant_params (.inl a)]
      rfl
    rw [hno, Bool.not_false, Bool.and_true]
    rfl
  · rfl

/-- The tenant is the one field that is added. -/
theorem get?_wireParams {k : Str} (hk : lit "tenant" ≠ k) : (op.wireParams info).get? k = op.params.get? k := by
  rw [wireParams_eq, get?_setIf open_params, if_neg fun h => hk h.2]

/-- Fields that a parser builds. -/
def FormedFields (fields : List (Str × J)) : Prop := ∀ f ∈ fields, Utf8.valid f.1 = true ∧ f.2.formed = true

theorem formedFields_nil : FormedFields [] := fun _ h => absurd h List.not_mem_nil

theorem formedFields_cons {k : Str} {v : J} {fields : List (Str × J)} (hk : Utf8.valid k = true) (hv : v.formed = true)
    (h : FormedFields fields) : FormedFields ((k, v) :: fields) := List.forall_mem_cons.2 ⟨⟨hk, hv⟩, h⟩

/-- A message before the ids of its task and its context. -/
theorem formed_said {text messageId : Str} (htext : Utf8.valid text = true) (hid : Utf8.valid messageId = true) :
    (J.object [("role", .str "ROLE_USER"), ("messageId", .str messageId),
      ("parts", .arr [.object [("text", .str text)]])]).formed = true := by
  have hpart : (J.object [("text", .str text)]).formed = true :=
    J.formed_object (formedFields_cons (by decide) htext formedFields_nil)
  have hparts : (J.arr [.object [("text", .str text)]]).formed = true := J.formed_arr.2 (List.forall_mem_singleton.2 hpart)
  refine J.formed_object (formedFields_cons (by decide) (by decide) (formedFields_cons (by decide) hid ?_))
  exact formedFields_cons (by decide) hparts formedFields_nil

theorem formed_int {n : Int} (h : -2 ^ 31 ≤ n ∧ n < 2 ^ 31) : (J.int n).formed = true := by
  show (decide (-2 ^ 63 ≤ n) && decide (n < 2 ^ 64)) = true
  rw [Bool.and_eq_true, decide_eq_true_eq, decide_eq_true_eq]
  omega

theorem valid_wireName (s : TaskState) : Utf8.valid s.wireName = true := by cases s <;> decide +kernel

theorem formed_listParams {f : ListTasksFilter} (h : Valid (.inl (.listTasks f))) : (listParams f).formed = true := by
  obtain ⟨hcontext, htoken, htime, hlength⟩ := h
  have hhistory : f.historyLength.isSome = true → (J.int (f.historyLength.getD 0)).formed = true := by
    intro hsome
    obtain ⟨n, hn⟩ := Option.isSome_iff_exists.1 hsome
    rw [hn, Option.getD_some]
    exact formed_int (hlength n hn)
  have hsize : decide (0 < f.pageSize) = true → (J.int (min f.pageSize 100)).formed = true := by
    intro hpos
    have := of_decide_eq_true hpos
    exact formed_int (by omega)
  unfold listParams
  refine formed_setIf (by decide) (fun _ => rfl) ?_
  refine formed_setIf (by decide) (fun _ => htime) ?_
  refine formed_setIf (by decide) hhistory ?_
  refine formed_setIf (by decide) (fun _ => htoken) ?_
  refine formed_setIf (by decide) hsize ?_
  refine formed_setIf (by decide) (fun _ => valid_wireName _) ?_
  exact formed_setIf (by decide) (fun _ => hcontext) rfl

theorem formed_pushParams {c : PushNotificationConfig} (h : Valid (.inl (.createPushConfig c))) : (pushParams c).formed = true := by
  obtain ⟨hid, htask, hurl, htoken, hscheme, hcredentials⟩ := h
  unfold pushParams
  refine formed_setIf (by decide) (fun _ => J.formed_object ?_) (J.formed_object ?_)
  · exact formedFields_cons (by decide) hscheme (formedFields_cons (by decide) hcredentials formedFields_nil)
  · refine formedFields_cons (by decide) hid (formedFields_cons (by decide) htask ?_)
    exact formedFields_cons (by decide) hurl (formedFields_cons (by decide) htoken formedFields_nil)

/-- The parameters of an operation are JSON as a parser builds it. -/
theorem formed_params (h : op.Valid) : op.params.formed = true := by
  have hfield : ∀ {k v : Str}, Utf8.valid k = true → Utf8.valid v = true → (J.object [(k, .str v)]).formed = true :=
    fun hk hv => J.formed_object (formedFields_cons hk hv formedFields_nil)
  have hpair : ∀ {k v k' : Str} {v' : J}, Utf8.valid k = true → Utf8.valid v = true → Utf8.valid k' = true →
      v'.formed = true → (J.object [(k, .str v), (k', v')]).formed = true :=
    fun hk hv hk' hv' => J.formed_object (formedFields_cons hk hv (formedFields_cons hk' hv' formedFields_nil))
  rcases op with a | a
  · cases a with
    | sendMessage text taskId contextId messageId =>
      obtain ⟨htext, htask, hcontext, hmessage⟩ := h
      refine J.formed_object (formedFields_cons (by decide) ?_ (formedFields_cons (by decide) (by decide) formedFields_nil))
      refine formed_setIf (by decide) (fun _ => htask) ?_
      exact formed_setIf (by decide) (fun _ => hcontext) (formed_said htext hmessage)
    | getTask id => exact hfield (by decide) h
    | listTasks f => exact formed_listParams h
    | cancelTask id => exact hfield (by decide) h
    | createPushConfig c => exact formed_pushParams h
    | getPushConfig taskId id => exact hpair (by decide) h.1 (by decide) h.2
    | listPushConfigs taskId pageSize pageToken =>
      obtain ⟨htask, hsize, htoken⟩ := h
      exact formed_setIf (by decide) (fun _ => htoken) (hpair (by decide) htask (by decide) (formed_int hsize))
    | deletePushConfig taskId id => exact hpair (by decide) h.1 (by decide) h.2
    | extendedCard => rfl
  · cases a with
    | subscribeToTask id => exact hfield (by decide) h
    | sendStreamingMessage text taskId contextId messageId =>
      obtain ⟨htext, htask, hcontext, hmessage⟩ := h
      refine J.formed_object (formedFields_cons (by decide) ?_ formedFields_nil)
      refine formed_setIf (by decide) (fun _ => hcontext) ?_
      exact formed_setIf (by decide) (fun _ => htask) (formed_said htext hmessage)

theorem formed_wireParams (htenant : Utf8.valid info.tenant = true) (h : op.Valid) : (op.wireParams info).formed = true := by
  rw [wireParams_eq]
  exact formed_setIf (by decide) (fun _ => htenant) (formed_params h)

end Params

/-! ### The target -/

section Target

variable {info : BindingInfo} {id endpoint : Str}

theorem question_notMem_path (r : Route) : 63 ∉ r.path := by
  have hid : ∀ s, (63 : UInt8) ∉ urlEncode s := notMem_urlEncode (by decide)
  cases r <;> simp only [Route.path, List.mem_append, hid, or_false] <;> decide

theorem question_notMem_tenant : 63 ∉ tenantPrefix info := by
  unfold tenantPrefix
  split
  · exact List.not_mem_nil
  · rw [List.mem_append, not_or]
    exact ⟨notMem_urlEncode (by decide) _, by decide⟩

/-- The path of an operation with its query. -/
def target (info : BindingInfo) (op : Asked) : Str := Url.withQuery isUnreserved (tenantPrefix info ++ op.route.path) op.query

def body (info : BindingInfo) (op : Asked) : Str := if op.inBody then (op.wireParams info).text else []

theorem segment_eq {params : J} {k v : Str} (h : params.get? k = some (.str v)) : segment params k = .ok (urlEncode v) := by
  unfold segment
  rw [J.valueStr_ok.2 ⟨J.isObject_of_get? h, .inl h⟩]
  rfl

theorem filterMap_optional {f : Str → Option (Str × Str)} {k text : Str} {keys : List Str} {c : Bool}
    (h : f k = if c then some (k, text) else none) : (k :: keys).filterMap f = optional c k text ++ keys.filterMap f := by
  rw [List.filterMap_cons, h]
  unfold optional
  cases c <;> rfl

/-- A parameter that is set is a field, if its text is not empty. -/
theorem queryField_eq {params v : J} {k : Str} {c : Bool} (h : params.get? k = if c then some v else none)
    (hv : c = true → v.isNull = false ∧ (valueText v).isEmpty = false) :
    queryField params k = if c then some (k, valueText v) else none := by
  unfold queryField
  rw [h]
  cases c with
  | false => rfl
  | true =>
    obtain ⟨hnull, hempty⟩ := hv rfl
    rw [if_pos rfl, Option.bind_some, hnull, hempty]
    rfl

/-- Each parameter of a filter is there where it is set. -/
theorem get?_listParams (f : ListTasksFilter) :
    (listParams f).get? "contextId" = (if !f.contextId.isEmpty then some (.str f.contextId) else none) ∧
    (listParams f).get? "status" = (if f.status.isSome then some (.str (f.status.getD .unknown).wireName) else none) ∧
    (listParams f).get? "pageSize" = (if decide (0 < f.pageSize) then some (.int (min f.pageSize 100)) else none) ∧
    (listParams f).get? "pageToken" = (if !f.pageToken.isEmpty then some (.str f.pageToken) else none) ∧
    (listParams f).get? "historyLength" = (if f.historyLength.isSome then some (.int (f.historyLength.getD 0)) else none) ∧
    (listParams f).get? "statusTimestampAfter" =
      (if !f.statusTimestampAfter.isEmpty then some (.str f.statusTimestampAfter) else none) ∧
    (listParams f).get? "includeArtifacts" =
      (if f.includeArtifacts.isSome then some (.bool (f.includeArtifacts.getD false)) else none) := by
  unfold listParams
  simp +decide (disch := (repeat apply open_setIf); exact open_null) [get?_setIf]

theorem text_int_ne (n : Int) : (valueText (.int n)).isEmpty = false := by
  obtain ⟨c, r, h, -⟩ := J.intText_head n
  show (intText n).isEmpty = false
  rw [h]
  rfl

theorem wireName_ne (s : TaskState) : s.wireName.isEmpty = false := by cases s <;> decide +kernel

theorem listTasks_fields (f : ListTasksFilter) :
    (["contextId", "status", "pageSize", "pageToken", "historyLength", "statusTimestampAfter", "includeArtifacts"].map
      lit).filterMap (queryField (wireParams info (.inl (.listTasks f)))) = query (.inl (.listTasks f)) := by
  have hget : ∀ k, lit "tenant" ≠ k → (wireParams info (.inl (.listTasks f))).get? k = (listParams f).get? k :=
    fun k => @get?_wireParams (.inl (.listTasks f)) _ k
  have hstr : ∀ {s : Str}, (!s.isEmpty) = true → (J.str s).isNull = false ∧ (valueText (.str s)).isEmpty = false :=
    fun h => ⟨rfl, (Bool.not_eq_true' _).mp h⟩
  obtain ⟨hcontext, hstatus, hsize, htoken, hlength, htime, hartifacts⟩ := get?_listParams f
  refine (filterMap_optional (queryField_eq ((hget _ (by decide)).trans hcontext) hstr)).trans (congrArg _ ?_)
  refine (filterMap_optional (queryField_eq ((hget _ (by decide)).trans hstatus) fun _ => ⟨rfl, wireName_ne _⟩)).trans
    (congrArg _ ?_)
  refine (filterMap_optional (queryField_eq ((hget _ (by decide)).trans hsize) fun _ => ⟨rfl, text_int_ne _⟩)).trans
    (congrArg _ ?_)
  refine (filterMap_optional (queryField_eq ((hget _ (by decide)).trans htoken) hstr)).trans (congrArg _ ?_)
  refine (filterMap_optional (queryField_eq ((hget _ (by decide)).trans hlength) fun _ => ⟨rfl, text_int_ne _⟩)).trans
    (congrArg _ ?_)
  refine (filterMap_optional (queryField_eq ((hget _ (by decide)).trans htime) hstr)).trans (congrArg _ ?_)
  refine (filterMap_optional (queryField_eq ((hget _ (by decide)).trans hartifacts) fun _ => ⟨rfl, ?_⟩)).trans (congrArg _ ?_)
  · cases f.includeArtifacts.getD false <;> rfl
  · rfl

theorem listPushConfigs_fields (taskId : Str) (pageSize : Int) (pageToken : Str) :
    ([lit "pageSize", lit "pageToken"]).filterMap (queryField (wireParams info (.inl (.listPushConfigs taskId pageSize pageToken)))) =
      query (.inl (.listPushConfigs taskId pageSize pageToken)) := by
  have hget : ∀ k, lit "tenant" ≠ k → (wireParams info (.inl (.listPushConfigs taskId pageSize pageToken))).get? k =
      (pushPageParams taskId pageSize pageToken).get? k :=
    fun k => @get?_wireParams (.inl (.listPushConfigs taskId pageSize pageToken)) _ k
  have hsize : (pushPageParams taskId pageSize pageToken).get? "pageSize" = if true then some (.int pageSize) else none := by
    unfold pushPageParams
    rw [get?_setIf (.inr rfl)]
    simp +decide [J.find_cons]
  have htoken : (pushPageParams taskId pageSize pageToken).get? "pageToken" =
      if !pageToken.isEmpty then some (.str pageToken) else none := by
    unfold pushPageParams
    rw [get?_setIf (.inr rfl)]
    simp +decide [J.find_cons]
  refine (filterMap_optional (queryField_eq ((hget _ (by decide)).trans hsize) fun _ => ⟨rfl, text_int_ne _⟩)).trans
    (congrArg _ ?_)
  refine (filterMap_optional (queryField_eq ((hget _ (by decide)).trans htoken) fun h => ⟨rfl, ?_⟩)).trans (congrArg _ rfl)
  exact (Bool.not_eq_true' _).mp h

theorem target_eq {op : Asked} {path : Str} (hpath : tenantPrefix info ++ op.route.path = path) (hquery : op.query = []) :
    target info op = path := by
  unfold target
  rw [hpath, hquery]
  rfl

theorem segment_param {a : Ask} {k v : Str} (hk : lit "tenant" ≠ k) (h : a.params.get? k = some (.str v)) :
    segment (wireParams info (.inl a)) k = .ok (urlEncode v) :=
  segment_eq ((@get?_wireParams (.inl a) _ _ hk).trans h)

/-- The fields behind a path that has none of its own. -/
theorem addFields_path {a : Ask} (hp : (wireParams info (.inl a)).utf8 = true) {keys : List Str} {fields : List (Str × Str)}
    (r : Route) {path : Str} (hpath : path = tenantPrefix info ++ r.path)
    (hfields : keys.filterMap (queryField (wireParams info (.inl a))) = fields) :
    addFields (wireParams info (.inl a)) keys path = .ok (Url.withQuery isUnreserved (tenantPrefix info ++ r.path) fields) := by
  subst hpath hfields
  rw [addFields_eq hp, Url.foldl_addField]
  rw [List.mem_append, not_or]
  exact ⟨question_notMem_tenant, question_notMem_path r⟩

theorem taskId_pushParams (c : PushNotificationConfig) : (pushParams c).get? "taskId" = some (.str c.taskId) := by
  unfold pushParams
  rw [get?_setIf (.inr rfl)]
  simp +decide [J.find_cons]

theorem taskId_pushPageParams (taskId : Str) (pageSize : Int) (pageToken : Str) :
    (pushPageParams taskId pageSize pageToken).get? "taskId" = some (.str taskId) := by
  unfold pushPageParams
  rw [get?_setIf (.inr rfl)]
  simp +decide [J.find_cons]

/-- What the paths and fields of a call over HTTP+JSON come to. -/
theorem restTarget_eq (a : Ask) (hp : (wireParams info (.inl a)).utf8 = true) :
    restTarget ⟨endpoint, info, a.method, wireParams info (.inl a), id⟩ =
      .ok (verb (.inl a), target info (.inl a), body info (.inl a)) := by
  have hdump : (wireParams info (.inl a)).dump = .ok (wireParams info (.inl a)).text := J.dump_ok.2 ⟨hp, rfl⟩
  unfold restTarget
  rw [hdump]
  cases a with
  | sendMessage text taskId contextId messageId => rfl
  | getTask taskId =>
    show (do
      let seg ← segment (wireParams info (.inl (.getTask taskId))) "id"
      return (lit "GET", ← addFields (wireParams info (.inl (.getTask taskId))) ["historyLength"]
        (tenantPrefix info ++ lit "tasks/" ++ seg), [])) = _
    rw [segment_param (by decide) rfl]
    show (addFields (wireParams info (.inl (.getTask taskId))) ["historyLength"]
      (tenantPrefix info ++ lit "tasks/" ++ urlEncode taskId) >>= fun path => .ok (lit "GET", path, [])) = _
    -- the history length is asked for on no call
    have hnone : queryField (wireParams info (.inl (.getTask taskId))) "historyLength" = none := by
      unfold queryField
      rw [get?_wireParams (by decide)]
      rfl
    rw [addFields_path hp (.task taskId) (List.append_assoc ..) (by rw [List.filterMap_cons, hnone])]
    rfl
  | listTasks f =>
    show (addFields (wireParams info (.inl (.listTasks f))) _ (tenantPrefix info ++ Route.tasks.path) >>= fun path =>
      .ok (lit "GET", path, [])) = _
    rw [addFields_path hp .tasks rfl (listTasks_fields f)]
    rfl
  | cancelTask taskId =>
    have hpath : tenantPrefix info ++ (Asked.route (.inl (.cancelTask taskId))).path =
        tenantPrefix info ++ lit "tasks/" ++ urlEncode taskId ++ lit ":cancel" := by
      simp only [route, Route.path, List.append_assoc]
    show (segment (wireParams info (.inl (.cancelTask taskId))) "id" >>= fun seg =>
      .ok (lit "POST", tenantPrefix info ++ lit "tasks/" ++ seg ++ lit ":cancel", _)) = _
    rw [segment_param (by decide) rfl, target_eq hpath rfl]
    rfl
  | createPushConfig c =>
    have hpath : tenantPrefix info ++ (Asked.route (.inl (.createPushConfig c))).path =
        tenantPrefix info ++ lit "tasks/" ++ urlEncode c.taskId ++ lit "/pushNotificationConfigs" := by
      simp only [route, Route.path, List.append_assoc]
    show (segment (wireParams info (.inl (.createPushConfig c))) "taskId" >>= fun seg =>
      .ok (lit "POST", tenantPrefix info ++ lit "tasks/" ++ seg ++ lit "/pushNotificationConfigs", _)) = _
    rw [segment_param (a := .createPushConfig c) (by decide) (taskId_pushParams c), target_eq hpath rfl]
    rfl
  | getPushConfig taskId id =>
    have hpath : tenantPrefix info ++ (Asked.route (.inl (.getPushConfig taskId id))).path =
        tenantPrefix info ++ lit "tasks/" ++ urlEncode taskId ++ lit "/pushNotificationConfigs/" ++
        urlEncode id := by
      simp only [route, Route.path, List.append_assoc]
    show (segment (wireParams info (.inl (.getPushConfig taskId id))) "taskId" >>= fun task =>
      segment (wireParams info (.inl (.getPushConfig taskId id))) "id" >>= fun seg =>
      .ok (lit "GET", tenantPrefix info ++ lit "tasks/" ++ task ++ lit "/pushNotificationConfigs/" ++ seg, [])) = _
    rw [segment_param (by decide) rfl, segment_param (by decide) rfl, target_eq hpath rfl]
    rfl
  | listPushConfigs taskId pageSize pageToken =>
    show (segment (wireParams info (.inl (.listPushConfigs taskId pageSize pageToken))) "taskId" >>= fun task =>
      addFields (wireParams info (.inl (.listPushConfigs taskId pageSize pageToken))) _
        (tenantPrefix info ++ lit "tasks/" ++ task ++ lit "/pushNotificationConfigs") >>= fun path =>
      .ok (lit "GET", path, [])) = _
    rw [segment_param (a := .listPushConfigs taskId pageSize pageToken) (by decide) (taskId_pushPageParams ..)]
    show (addFields (wireParams info (.inl (.listPushConfigs taskId pageSize pageToken))) _
        (tenantPrefix info ++ lit "tasks/" ++ urlEncode taskId ++ lit "/pushNotificationConfigs") >>= fun path =>
      .ok (lit "GET", path, [])) = _
    rw [addFields_path hp (.pushConfigs taskId) (by simp [Route.path]) (listPushConfigs_fields taskId pageSize pageToken)]
    rfl
  | deletePushConfig taskId id =>
    have hpath : tenantPrefix info ++ (Asked.route (.inl (.deletePushConfig taskId id))).path =
        tenantPrefix info ++ lit "tasks/" ++ urlEncode taskId ++ lit "/pushNotificationConfigs/" ++
        urlEncode id := by
      simp only [route, Route.path, List.append_assoc]
    show (segment (wireParams info (.inl (.deletePushConfig taskId id))) "taskId" >>= fun task =>
      segment (wireParams info (.inl (.deletePushConfig taskId id))) "id" >>= fun seg =>
      .ok (lit "DELETE", tenantPrefix info ++ lit "tasks/" ++ task ++ lit "/pushNotificationConfigs/" ++ seg, [])) = _
    rw [segment_param (by decide) rfl, segment_param (by decide) rfl, target_eq hpath rfl]
    rfl
  | extendedCard => rfl

end Target

/-! ### The request -/

section Request

variable {auth : AuthSpec} {info : BindingInfo} {id endpoint : Str} {op : Asked}

theorem addCredentials_none (hname : auth.queryName = []) (hextra : auth.extraQuery = []) (path : Str) :
    addCredentials auth path = .ok path := by
  unfold addCredentials
  rw [hname, hextra]
  rfl

/-- The request of an operation over HTTP+JSON, where no credentials are in the query. -/
theorem request_eq (hname : auth.queryName = []) (hextra : auth.extraQuery = []) (hrest : info.protocol = .rest)
    (hp : (op.wireParams info).utf8 = true) :
    ∃ headers, op.request auth endpoint info id = .ok ⟨endpoint, op.verb, target info op, body info op, headers⟩ := by
  rcases op with a | a
  · apply Exists.intro
    show unaryRequest auth _ = _
    unfold unaryRequest
    dsimp only
    rw [hrest]
    dsimp only
    rw [restTarget_eq a hp]
    show (addCredentials auth (target info (.inl a)) >>= fun path => .ok (HttpRequest.mk _ _ path _ _)) = _
    rw [addCredentials_none hname hextra]
    rfl
  · apply Exists.intro
    show streamRequest auth _ = _
    unfold streamRequest
    dsimp only
    rw [hrest]
    cases a with
    | subscribeToTask taskId =>
      have hsegment : segment (wireParams info (.inr (.subscribeToTask taskId))) "id" = .ok (urlEncode taskId) :=
        segment_eq ((@get?_wireParams (.inr (.subscribeToTask taskId)) _ _ (by decide)).trans rfl)
      show (segment (wireParams info (.inr (.subscribeToTask taskId))) "id" >>= fun seg =>
        addCredentials auth (tenantPrefix info ++ (lit "tasks/" ++ seg ++ lit ":subscribe")) >>= fun path =>
        .ok (HttpRequest.mk _ _ path _ _)) = _
      rw [hsegment]
      show (addCredentials auth (tenantPrefix info ++ (lit "tasks/" ++ urlEncode taskId ++ lit ":subscribe")) >>= fun path =>
        .ok (HttpRequest.mk _ _ path _ _)) = _
      rw [addCredentials_none hname hextra]
      rfl
    | sendStreamingMessage text taskId contextId messageId =>
      show ((wireParams info (.inr (.sendStreamingMessage text taskId contextId messageId))).dump >>= fun body =>
        addCredentials auth (tenantPrefix info ++ lit "message:stream") >>= fun path =>
        .ok (HttpRequest.mk _ _ path body _)) = _
      rw [J.dump_ok.2 ⟨hp, rfl⟩]
      show (addCredentials auth (tenantPrefix info ++ lit "message:stream") >>= fun path => .ok (HttpRequest.mk _ _ path _ _)) = _
      rw [addCredentials_none hname hextra]
      rfl

end Request

end Asked

/-! ## Reading a request -/

section Reading

variable (parse : Str → Option J)

/-- The fields of a query that are not strings. -/
def isTyped (k : Str) : Bool := k == lit "pageSize" || k == lit "historyLength" || k == lit "includeArtifacts"

def readValue (k text : Str) : Option J := if isTyped k then parse text else some (.str text)

/-- The parameters with these fields. -/
def collect (base : J) (fields : List (Str × Str)) : Option J :=
  fields.foldlM (fun j f => (readValue parse f.1 f.2).map fun v => j.set f.1 v) base

/-- The operation at a route, with its parameters from the body or from the path and the query. The tenant
is that of the path. -/
def readOperation (verb : Str) (route : Route) (query : List (Str × Str)) (body : Str) : Option ((Method ⊕ StreamMethod) × J) :=
  let sent (op : Method ⊕ StreamMethod) := (parse body).map fun j => (op, j.erase "tenant")
  let named (op : Method ⊕ StreamMethod) (base : J) (fields : List (Str × Str)) :=
    (collect parse base (fields ++ query)).map fun j => (op, j)
  match route with
  | .messageSend => if verb = lit "POST" then sent (.inl .sendMessage) else none
  | .messageStream => if verb = lit "POST" then sent (.inr .sendStreamingMessage) else none
  | .tasks => if verb = lit "GET" then named (.inl .listTasks) .null [] else none
  | .task id => if verb = lit "GET" then named (.inl .getTask) (.obj []) [("id", id)] else none
  | .cancel _ => if verb = lit "POST" then sent (.inl .cancelTask) else none
  | .subscribe id => if verb = lit "GET" then named (.inr .subscribeToTask) (.obj []) [("id", id)] else none
  | .pushConfigs taskId =>
    if verb = lit "POST" then sent (.inl .createPushConfig)
    else if verb = lit "GET" then named (.inl .listPushConfigs) (.obj []) [("taskId", taskId)]
    else none
  | .pushConfig taskId id =>
    if verb = lit "GET" then named (.inl .getPushConfig) (.obj []) [("taskId", taskId), ("id", id)]
    else if verb = lit "DELETE" then named (.inl .deletePushConfig) (.obj []) [("taskId", taskId), ("id", id)]
    else none
  | .extendedCard => if verb = lit "GET" then named (.inl .extendedCard) (.obj []) [] else none

/-- A request to an interface over HTTP+JSON by the paths of the protocol. -/
def readRequest (info : BindingInfo) (verb path body : Str) : Option ((Method ⊕ StreamMethod) × J) :=
  match Url.readTarget path with
  | none => none
  | some (path, query) =>
    if (tenantPrefix info).isPrefixOf path then
      (readRoute (path.drop (tenantPrefix info).length)).bind fun route => readOperation parse verb route query body
    else none

end Reading

/-! ## What is read back -/

section Lossless

variable {parse : Str → Option J} {info : BindingInfo}

theorem collect_optional {base v : J} {k text : Str} {c : Bool} {fields : List (Str × Str)}
    (h : c = true → readValue parse k text = some v) :
    collect parse base (Asked.optional c k text ++ fields) = collect parse (setIf c k v base) fields := by
  unfold Asked.optional setIf collect
  cases c with
  | false => rfl
  | true =>
    simp only [if_true, List.singleton_append, List.foldlM_cons, h rfl]
    rfl

theorem collect_str {base : J} {k text : Str} {fields : List (Str × Str)} (hk : isTyped k = false) :
    collect parse base ((k, text) :: fields) = collect parse (base.set k (.str text)) fields := by
  unfold collect readValue
  simp only [List.foldlM_cons, hk]
  rfl

theorem readValue_str {k text : Str} (hk : isTyped k = false) : readValue parse k text = some (.str text) := by
  unfold readValue
  rw [hk]
  rfl

theorem readValue_typed (hparse : ReadsBack parse) {k : Str} {v : J} (hk : isTyped k = true) (hv : v.formed = true) :
    readValue parse k v.text = some v := by
  unfold readValue
  rw [hk]
  exact hparse v hv

/-- A value that a parser builds has no tenant left, and nothing else is gone. -/
theorem erase_wireParams {op : Asked} (htenant : Utf8.valid info.tenant = true) (hop : op.Valid)
    (hobject : op.params.isObject = true) : (op.wireParams info).erase "tenant" = op.params := by
  have hwire : (op.wireParams info).isObject = true := by
    rw [Asked.wireParams_eq]
    exact isObject_setIf hobject
  refine J.ext_get? (J.formed_erase (Asked.formed_wireParams htenant hop)) (Asked.formed_params hop)
    (by rw [J.isObject_erase]; exact hwire) hobject fun k => ?_
  rw [J.get?_erase]
  split
  · rename_i hk
    rw [hk, Asked.tenant_params]
  · rename_i hk
    exact Asked.get?_wireParams (Ne.symm hk)

/-- What an operation says in its path, its query and its body is what is read there. -/
theorem readOperation_eq (hparse : ReadsBack parse) {op : Asked} (htenant : Utf8.valid info.tenant = true) (hop : op.Valid) :
    readOperation parse op.verb op.route op.query (Asked.body info op) = some (op.name, op.params) := by
  have hsent : ∀ {o : Method ⊕ StreamMethod}, op.inBody = true → op.params.isObject = true →
      ((parse (Asked.body info op)).map fun j => (o, j.erase "tenant")) = some (o, op.params) := by
    intro o hbody hobject
    unfold Asked.body
    rw [if_pos hbody, hparse _ (Asked.formed_wireParams htenant hop), Option.map_some, erase_wireParams htenant hop hobject]
  rcases op with a | a
  · cases a with
    | sendMessage text taskId contextId messageId => exact hsent rfl rfl
    | getTask id =>
      show (collect parse (.obj []) [(lit "id", id)]).map _ = _
      rw [collect_str (by decide)]
      rfl
    | listTasks f =>
      obtain ⟨-, -, -, hlength⟩ := hop
      have hsize : decide (0 < f.pageSize) = true → readValue parse "pageSize" (intText (min f.pageSize 100)) =
          some (.int (min f.pageSize 100)) := by
        intro hpos
        have := of_decide_eq_true hpos
        exact readValue_typed hparse (by decide) (Asked.formed_int (by omega))
      have hhistory : f.historyLength.isSome = true → readValue parse "historyLength" (intText (f.historyLength.getD 0)) =
          some (.int (f.historyLength.getD 0)) := by
        intro hsome
        obtain ⟨n, hn⟩ := Option.isSome_iff_exists.1 hsome
        rw [hn, Option.getD_some]
        exact readValue_typed hparse (by decide) (Asked.formed_int (hlength n hn))
      show (collect parse .null (Asked.query (.inl (.listTasks f)))).map _ = _
      unfold Asked.query
      dsimp only
      rw [collect_optional fun _ => readValue_str (by decide), collect_optional fun _ => readValue_str (by decide),
        collect_optional hsize, collect_optional fun _ => readValue_str (by decide), collect_optional hhistory,
        collect_optional fun _ => readValue_str (by decide),
        collect_optional fun _ => readValue_typed hparse (by decide) (v := .bool (f.includeArtifacts.getD false)) rfl]
      rfl
    | cancelTask id => exact hsent rfl rfl
    | createPushConfig c => exact hsent rfl (isObject_setIf rfl)
    | getPushConfig taskId id =>
      show (collect parse (.obj []) [(lit "taskId", taskId), (lit "id", id)]).map _ = _
      rw [collect_str (by decide), collect_str (by decide)]
      rfl
    | listPushConfigs taskId pageSize pageToken =>
      have hsize : readValue parse "pageSize" (intText pageSize) = some (.int pageSize) :=
        readValue_typed hparse (by decide) (Asked.formed_int hop.2.1)
      show (collect parse (.obj []) ((lit "taskId", taskId) :: Asked.query (.inl (.listPushConfigs taskId pageSize pageToken)))).map
        _ = _
      rw [collect_str (by decide)]
      unfold Asked.query
      dsimp only
      rw [collect_optional fun _ => hsize, collect_optional fun _ => readValue_str (by decide)]
      rfl
    | deletePushConfig taskId id =>
      show (collect parse (.obj []) [(lit "taskId", taskId), (lit "id", id)]).map _ = _
      rw [collect_str (by decide), collect_str (by decide)]
      rfl
    | extendedCard => rfl
  · cases a with
    | subscribeToTask id =>
      show (collect parse (.obj []) [(lit "id", id)]).map _ = _
      rw [collect_str (by decide)]
      rfl
    | sendStreamingMessage text taskId contextId messageId => exact hsent rfl rfl

/-- The path, the query and the body of an operation are read back as the operation and its parameters. -/
theorem readRequest_eq (hparse : ReadsBack parse) {op : Asked} (htenant : Utf8.valid info.tenant = true) (hop : op.Valid) :
    readRequest parse info op.verb (Asked.target info op) (Asked.body info op) = some (op.name, op.params) := by
  have hpath : 63 ∉ tenantPrefix info ++ op.route.path := by
    rw [List.mem_append, not_or]
    exact ⟨Asked.question_notMem_tenant, Asked.question_notMem_path op.route⟩
  have hprefix : (tenantPrefix info).isPrefixOf (tenantPrefix info ++ op.route.path) = true :=
    List.isPrefixOf_iff_prefix.2 (List.prefix_append ..)
  unfold readRequest Asked.target
  rw [Url.readTarget_withQuery separates_unreserved hpath]
  dsimp only
  rw [if_pos hprefix, List.drop_left, readRoute_path, Option.bind_some]
  exact readOperation_eq hparse htenant hop

/-- **The encoding over HTTP+JSON loses nothing.** At an interface with a fixed tenant and without credentials
in the query, every operation with any parameters is put into a request from which the operation and its
parameters are read back; so two requests with one verb, path and body are one operation with one
set of parameters. -/
theorem rest_lossless (parse : Str → Option J) (hparse : ReadsBack parse) (auth : AuthSpec) (hname : auth.queryName = [])
    (hextra : auth.extraQuery = []) (endpoint : Str) (info : BindingInfo) (hrest : info.protocol = .rest)
    (htenant : Utf8.valid info.tenant = true) :
    (∀ op : Asked, op.Valid → ∀ id, ∃ req, op.request auth endpoint info id = .ok req ∧
      readRequest parse info req.verb req.path req.body = some (op.name, op.params)) ∧
    ∀ op op' : Asked, op.Valid → op'.Valid → ∀ id id' req req', op.request auth endpoint info id = .ok req →
      op'.request auth endpoint info id' = .ok req' → req.verb = req'.verb → req.path = req'.path → req.body = req'.body →
      op.name = op'.name ∧ op.params = op'.params := by
  have hread : ∀ op : Asked, op.Valid → ∀ id, ∃ req, op.request auth endpoint info id = .ok req ∧
      readRequest parse info req.verb req.path req.body = some (op.name, op.params) := by
    intro op hop id
    obtain ⟨headers, hreq⟩ := @Asked.request_eq _ _ id endpoint _ hname hextra hrest
      (J.utf8_formed (Asked.formed_wireParams htenant hop))
    exact ⟨_, hreq, readRequest_eq hparse htenant hop⟩
  refine ⟨hread, fun op op' hop hop' id id' req req' hreq hreq' hverb hpath hbody => ?_⟩
  obtain ⟨r, hr, h⟩ := hread op hop id
  obtain ⟨r', hr', h'⟩ := hread op' hop' id'
  cases hreq.symm.trans hr
  cases hreq'.symm.trans hr'
  rw [hverb, hpath, hbody, h'] at h
  obtain ⟨hop, hparams⟩ := Prod.mk.inj (Option.some.inj h)
  exact ⟨hop.symm, hparams.symm⟩

/-- A tenant and an id that look like the paths. -/
theorem rest_lossless_lookalike :
    ∃ req, Asked.request {} "https://builder.example" ⟨"HTTP+JSON", "1.0", "tasks"⟩ "1" (.inl (.getTask "a/b:cancel?id=%2F&c")) =
        .ok req ∧ req.path = lit "tasks/tasks/a%2Fb%3Acancel%3Fid%3D%252F%26c" ∧
      readRequest readPrinted ⟨"HTTP+JSON", "1.0", "tasks"⟩ req.verb req.path req.body =
        some (.inl .getTask, idParams "a/b:cancel?id=%2F&c") := by
  have hid : Utf8.valid (lit "a/b:cancel?id=%2F&c") = true := by decide +kernel
  obtain ⟨req, hreq, hread⟩ := (rest_lossless readPrinted readsBack_readPrinted {} rfl rfl "https://builder.example"
    ⟨"HTTP+JSON", "1.0", "tasks"⟩ (by decide) (by decide)).1 (.inl (.getTask "a/b:cancel?id=%2F&c")) hid "1"
  refine ⟨req, hreq, ?_, hread⟩
  have hpath : ((Asked.request {} "https://builder.example" ⟨"HTTP+JSON", "1.0", "tasks"⟩ "1"
      (.inl (.getTask "a/b:cancel?id=%2F&c"))).toOption.map HttpRequest.path) =
        some "tasks/tasks/a%2Fb%3Acancel%3Fid%3D%252F%26c" := by decide +kernel
  rw [hreq] at hpath
  exact Option.some.inj hpath

end Lossless

end A2ad.Client
