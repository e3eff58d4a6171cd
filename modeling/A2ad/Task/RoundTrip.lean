/-
Storing a task and loading it again: the record comes back as it was exactly where its remote id is
not empty, its messages name no other tasks, every part has something set, and no data part is a
JSON string.
-/
import A2ad.Client.Decode
import A2ad.Daemon.State
import A2ad.Lib.JsonForm
import A2ad.Task.Table

namespace A2ad

open Bytes Json Utf8 Client

/-! ## What survives -/

/-- Something in the part is set. -/
def Part.isSet (p : Part) : Bool :=
  !p.text.isEmpty || !p.raw.isEmpty || !p.url.isEmpty || !p.data.isEmpty || !p.mediaType.isEmpty || !p.filename.isEmpty ||
    !isEmptyJson p.metadata

/-- The part comes back: something is set in it, and its data is not the text of a string. -/
def Part.Keeps (p : Part) : Prop := p.isSet = true ∧ p.data.head? ≠ some 34

def Message.Keeps (m : Message) : Prop := m.referenceTaskIds = [] ∧ ∀ p ∈ m.parts, p.Keeps

def Artifact.Keeps (a : Artifact) : Prop := ∀ p ∈ a.parts, p.Keeps

structure Task.Keeps (t : Task) : Prop where
  remoteTaskId : t.remoteTaskId ≠ some []
  messages : ∀ m ∈ t.messages, m.Keeps
  artifacts : ∀ a ∈ t.artifacts, a.Keeps

/-- The record without its hints for merging. -/
def hintless (t : Task) : Task := { t with partialUpdate := false, hasStateUpdate := true, artifactAppend := false }

/-! ## Records from a parser's values -/

structure Part.Formed (p : Part) : Prop where
  text : valid p.text = true
  raw : valid p.raw = true
  url : valid p.url = true
  data : p.data = [] ∨ ∃ v : J, v.formed = true ∧ p.data = v.text
  mediaType : valid p.mediaType = true
  filename : valid p.filename = true
  metadata : p.metadata.formed = true ∧ ∃ fields, p.metadata = .obj fields

structure Message.Formed (m : Message) : Prop where
  messageId : valid m.messageId = true
  role : valid m.role = true
  contextId : valid m.contextId = true
  taskId : valid m.taskId = true
  timestamp : valid m.timestamp = true
  metadata : m.metadata.formed = true ∧ ∃ fields, m.metadata = .obj fields
  extensions : ∀ e ∈ m.extensions, valid e = true
  parts : ∀ p ∈ m.parts, p.Formed

structure Artifact.Formed (a : Artifact) : Prop where
  artifactId : valid a.artifactId = true
  name : valid a.name = true
  description : valid a.description = true
  metadata : a.metadata.formed = true ∧ ∃ fields, a.metadata = .obj fields
  extensions : ∀ e ∈ a.extensions, valid e = true
  parts : ∀ p ∈ a.parts, p.Formed

structure Task.Formed (t : Task) : Prop where
  messages : ∀ m ∈ t.messages, m.Formed
  artifacts : ∀ a ∈ t.artifacts, a.Formed
  metadata : t.metadata.formed = true

/-- No text that is bound to a column of its own has a NUL. -/
structure Task.NulFree (t : Task) : Prop where
  id : (0 : UInt8) ∉ t.id
  remoteTaskId : ∀ r, t.remoteTaskId = some r → (0 : UInt8) ∉ r
  agent : (0 : UInt8) ∉ t.agent
  context : (0 : UInt8) ∉ t.context
  stateMessage : (0 : UInt8) ∉ t.stateMessage
  title : (0 : UInt8) ∉ t.title
  cwd : (0 : UInt8) ∉ t.cwd
  createdAt : (0 : UInt8) ∉ t.createdAt
  updatedAt : (0 : UInt8) ∉ t.updatedAt
  lastStateChange : (0 : UInt8) ∉ t.lastStateChange
  error : (0 : UInt8) ∉ t.error

/-! ## Parts -/

section Parts

variable {parse : Str → Option J} {p : Part} {j v : J} {k k' : Str} {c : Bool}

/-- The fields of a stored part: each is there where it is set. -/
theorem get?_partJson (parse : Str → Option J) (p : Part) :
    (partJson parse p).get? "text" = (if !p.text.isEmpty then some (.str p.text) else none) ∧
    (partJson parse p).get? "raw" = (if !p.raw.isEmpty then some (.str p.raw) else none) ∧
    (partJson parse p).get? "url" = (if !p.url.isEmpty then some (.str p.url) else none) ∧
    (partJson parse p).get? "data" = (if !p.data.isEmpty then some ((parse p.data).getD (.str p.data)) else none) ∧
    (partJson parse p).get? "mediaType" = (if !p.mediaType.isEmpty then some (.str p.mediaType) else none) ∧
    (partJson parse p).get? "filename" = (if !p.filename.isEmpty then some (.str p.filename) else none) ∧
    (partJson parse p).get? "metadata" = (if !isEmptyJson p.metadata then some p.metadata else none) := by
  unfold partJson
  simp +decide (disch := (repeat apply open_setIf); exact open_null) [get?_setIf]

/-- A part is stored as an object, or as `null` where nothing in it is set. -/
theorem partJson_null (parse : Str → Option J) (p : Part) : partJson parse p = .null ↔ p.isSet = false := by
  unfold partJson Part.isSet
  simp (disch := (repeat apply open_setIf); exact open_null) [null_setIf]
  tauto

theorem open_partJson (parse : Str → Option J) (p : Part) : Open (partJson parse p) := by
  unfold partJson
  repeat apply open_setIf
  exact open_null

/-- A text that is only stored where it is set is read back. -/
theorem storedString_of {s : Str} (h : j.get? k = if !s.isEmpty then some (.str s) else none) : storedString j k = .ok s := by
  unfold storedString
  rw [h]
  cases s <;> rfl

theorem valueStr_of {s : Str} (hj : j.isObject = true) (h : j.get? k = if !s.isEmpty then some (.str s) else none) :
    j.valueStr k "" = .ok s := by
  refine J.valueStr_ok.2 ⟨hj, ?_⟩
  rw [h]
  cases s with
  | nil => exact .inr ⟨rfl, rfl⟩
  | cons b s => exact .inl rfl

/-- Data is read as it was, unless it is the text of a string: then as what the text says. -/
theorem storedData_of (hparse : ReadsBack parse) (hp : p.Formed)
    (h : j.get? "data" = if !p.data.isEmpty then some ((parse p.data).getD (.str p.data)) else none) :
    ∃ d, storedData j = .ok d ∧ (p.data.head? ≠ some 34 ∧ d = p.data ∨ p.data = (J.str d).text) := by
  unfold storedData
  rw [h]
  rcases hp.data with hnone | ⟨v, hv, hdata⟩
  · rw [hnone]
    exact ⟨[], rfl, .inl ⟨by simp, rfl⟩⟩
  · have hne : p.data.isEmpty = false := by
      obtain ⟨c, r, htext, -⟩ := J.text_head v
      rw [hdata, htext]
      rfl
    rw [hne, hdata, hparse v hv]
    cases hstr : v.isString with
    | true =>
      obtain ⟨s, rfl⟩ : ∃ s, v = .str s := by
        cases v with
        | str s => exact ⟨s, rfl⟩
        | _ => cases hstr
      exact ⟨s, rfl, .inr rfl⟩
    | false =>
      have hnot : ∀ s, v ≠ .str s := by
        rintro s rfl
        cases hstr
      refine ⟨v.text, ?_, .inl ⟨fun h => ?_, rfl⟩⟩
      · cases v with
        | str s => exact absurd rfl (hnot s)
        | _ => exact J.dump_formed hv
      · obtain ⟨s, hs⟩ := J.text_quoted.1 h
        exact hnot s hs

theorem storedObject_of {fields : List (Str × J)} (h : j.get? k = if !isEmptyJson (.obj fields) then some (.obj fields) else none) :
    storedObject j k = .obj fields := by
  unfold storedObject
  rw [h]
  cases fields <;> rfl

/-- A part in which something is set is read, with what becomes of its data. -/
theorem readPart_set (hparse : ReadsBack parse) (hp : p.Formed) (hset : p.isSet = true) :
    ∃ d, readPart (partJson parse p) = .ok { p with data := d } ∧
      (p.data.head? ≠ some 34 ∧ d = p.data ∨ p.data = (J.str d).text) := by
  have hobject : (partJson parse p).isObject = true := by
    rcases open_partJson parse p with hnull | hobject
    · rw [(partJson_null parse p).1 hnull] at hset
      cases hset
    · exact hobject
  obtain ⟨htext, hraw, hurl, hdata, hmedia, hfile, hmeta⟩ := get?_partJson parse p
  obtain ⟨d, hd, hsame⟩ := storedData_of hparse hp hdata
  obtain ⟨-, fields, hfields⟩ := hp.metadata
  rw [hfields] at hmeta
  refine ⟨d, ?_, hsame⟩
  unfold readPart
  rw [storedString_of htext, storedString_of hraw, storedString_of hurl, hd, valueStr_of hobject hmedia,
    valueStr_of hobject hfile, storedObject_of hmeta, ← hfields]
  rfl

theorem readPart_unset (hset : p.isSet = false) : ∃ e, readPart (partJson parse p) = .error e := by
  rw [(partJson_null parse p).2 hset]
  exact ⟨_, rfl⟩

/-- A part comes back exactly where it keeps. -/
theorem readPart_partJson (hparse : ReadsBack parse) (hp : p.Formed) : readPart (partJson parse p) = .ok p ↔ p.Keeps := by
  cases hset : p.isSet with
  | false =>
    obtain ⟨e, he⟩ := @readPart_unset parse p hset
    rw [he]
    refine iff_of_false (fun h => by cases h) fun h => ?_
    exact absurd (hset.symm.trans h.1) (by decide)
  | true =>
    obtain ⟨d, hread, hsame⟩ := readPart_set hparse hp hset
    rw [hread, Part.Keeps, hset]
    constructor
    · intro h
      injection h with h
      have hd : d = p.data := congrArg Part.data h
      refine ⟨rfl, (hsame.resolve_right fun hquoted => ?_).1⟩
      exact J.quote_ne d (hquoted.symm.trans hd.symm)
    · rintro ⟨-, h⟩
      rcases hsame with ⟨-, rfl⟩ | hquoted
      · rfl
      · rw [hquoted] at h
        exact absurd rfl h

/-- What is read of the part is stored as the part is: something is set in it, and a string in its data is none that
would be parsed. -/
def Part.Settles (parse : Str → Option J) (p : Part) : Prop :=
  p.isSet = true ∧ ∀ s, p.data = (J.str s).text → s ≠ [] ∧ (parse s).getD (.str s) = .str s

/-- A part is stored again as it was exactly where it settles. -/
theorem rewritten_part (hparse : ReadsBack parse) (hp : p.Formed) :
    (∃ p', readPart (partJson parse p) = .ok p' ∧ partJson parse p' = partJson parse p) ↔ p.Settles parse := by
  cases hset : p.isSet with
  | false =>
    obtain ⟨e, he⟩ := @readPart_unset parse p hset
    refine iff_of_false ?_ fun h => absurd (hset.symm.trans h.1) (by decide)
    rintro ⟨p', hread, -⟩
    rw [he] at hread
    cases hread
  | true =>
    obtain ⟨d, hread, hsame⟩ := readPart_set hparse hp hset
    have hiff : (∃ p', readPart (partJson parse p) = .ok p' ∧ partJson parse p' = partJson parse p) ↔
        partJson parse { p with data := d } = partJson parse p := by
      rw [hread]
      simp
    rw [hiff, Part.Settles, hset]
    rcases hsame with ⟨hplain, rfl⟩ | hquoted
    · refine iff_of_true rfl ⟨rfl, fun s hs => ?_⟩
      rw [hs] at hplain
      exact absurd rfl hplain
    · have hdata : p.data.isEmpty = false := by
        rw [hquoted]
        rfl
      have hstored : (parse p.data).getD (.str p.data) = .str d := by
        rcases hp.data with hnone | ⟨v, hv, htext⟩
        · rw [hnone] at hdata
          cases hdata
        · rw [htext, hparse v hv]
          exact J.text_inj (htext.symm.trans hquoted)
      constructor
      · intro h
        refine ⟨rfl, fun s hs => ?_⟩
        obtain rfl : d = s := J.str.inj (J.text_inj (hquoted.symm.trans hs))
        have hget := congrArg (fun j : J => j.get? "data") h
        rw [(get?_partJson parse p).2.2.2.1, (get?_partJson parse { p with data := d }).2.2.2.1, hdata, hstored] at hget
        cases d with
        | nil => cases hget
        | cons c r => exact ⟨List.cons_ne_nil _ _, Option.some.inj hget⟩
      · rintro ⟨-, h⟩
        obtain ⟨hne, hsame⟩ := h d hquoted
        have hd : d.isEmpty = false := by simpa using hne
        unfold partJson
        dsimp only
        rw [hd, hdata, hsame, hstored]

end Parts

/-! ## Messages and artifacts -/

section Lists

variable {α : Type} {write : α → J} {xs : List α}

/-- What is read of a list is the list exactly where every element is read back. -/
theorem mapM_map_ok {read : J → Except Exception α} :
    (xs.map write).mapM read = .ok xs ↔ ∀ x ∈ xs, read (write x) = .ok x := by
  induction xs with
  | nil => exact iff_of_true rfl (by simp)
  | cons x xs ih =>
    rw [List.map_cons, List.mapM_cons, List.forall_mem_cons, ← ih]
    constructor
    · intro h
      obtain ⟨y, hy, h⟩ := Tx.except_bind_ok h
      obtain ⟨ys, hys, h⟩ := Tx.except_bind_ok h
      cases h
      exact ⟨hy, hys⟩
    · rintro ⟨hx, hxs⟩
      rw [hx, hxs]
      rfl

theorem collect_map {read : J → Except Exception α} :
    collect read (xs.map write) = xs ↔ ∀ x ∈ xs, read (write x) = .ok x := by
  induction xs with
  | nil => exact iff_of_true rfl (by simp)
  | cons x xs ih =>
    rw [List.map_cons, collect, List.forall_mem_cons, ← ih]
    cases read (write x) with
    | error e => simp
    | ok y => simp

/-- What is read of a list is stored as the list is exactly where that is so of every element. -/
theorem rewritten_list {read : J → Except Exception α} :
    (∃ ys, (xs.map write).mapM read = .ok ys ∧ ys.map write = xs.map write) ↔
      ∀ x ∈ xs, ∃ y, read (write x) = .ok y ∧ write y = write x := by
  induction xs with
  | nil => exact iff_of_true ⟨[], rfl, rfl⟩ (by simp)
  | cons x xs ih =>
    rw [List.map_cons, List.mapM_cons, List.forall_mem_cons, ← ih]
    constructor
    · rintro ⟨ys, h, hsame⟩
      obtain ⟨y, hy, h⟩ := Tx.except_bind_ok h
      obtain ⟨ys, hys, h⟩ := Tx.except_bind_ok h
      cases h
      rw [List.map_cons, List.cons.injEq] at hsame
      exact ⟨⟨y, hy, hsame.1⟩, ys, hys, hsame.2⟩
    · rintro ⟨⟨y, hy, hsame⟩, ys, hys, hrest⟩
      refine ⟨y :: ys, ?_, by rw [List.map_cons, hsame, hrest]⟩
      rw [hy, hys]
      rfl

theorem rewritten_collect {read : J → Except Exception α} :
    (collect read (xs.map write)).map write = xs.map write ↔ ∀ x ∈ xs, ∃ y, read (write x) = .ok y ∧ write y = write x := by
  induction xs with
  | nil => exact iff_of_true rfl (by simp)
  | cons x xs ih =>
    rw [List.map_cons, collect, List.forall_mem_cons, ← ih]
    cases read (write x) with
    | error e => simp
    | ok y => simp

/-- A column of a list comes back exactly where every element does. -/
theorem readColumn_text {parse : Str → Option J} (hparse : ReadsBack parse) {f : J → Except Exception α}
    (hformed : ∀ x ∈ xs, (write x).formed = true) :
    readColumn parse f (cstr (J.arr (xs.map write)).text) = xs ↔ ∀ x ∈ xs, f (write x) = .ok x := by
  have hcolumn : (J.arr (xs.map write)).formed = true := by
    refine J.formed_arr.2 fun j hj => ?_
    obtain ⟨x, hx, rfl⟩ := List.mem_map.1 hj
    exact hformed x hx
  rw [cstr_eq_self (J.plain_text _).nul, readColumn, hparse _ hcolumn]
  exact collect_map

end Lists

section Messages

variable {parse : Str → Option J} {p : Part} {m : Message} {a : Artifact}

theorem formed_strings {xs : List Str} (h : ∀ x ∈ xs, valid x = true) : (J.arr (xs.map .str)).formed = true := by
  refine J.formed_arr.2 fun j hj => ?_
  obtain ⟨x, hx, rfl⟩ := List.mem_map.1 hj
  exact h x hx

theorem formed_partJson (hparse : ReadsBack parse) (hp : p.Formed) : (partJson parse p).formed = true := by
  have hdata : (!p.data.isEmpty) = true → ((parse p.data).getD (.str p.data)).formed = true := by
    intro hne
    rcases hp.data with hnone | ⟨v, hv, hdata⟩
    · rw [hnone] at hne
      cases hne
    · rw [hdata, hparse v hv]
      exact hv
  unfold partJson
  refine formed_setIf (by decide) (fun _ => hp.metadata.1) ?_
  refine formed_setIf (by decide) (fun _ => hp.filename) ?_
  refine formed_setIf (by decide) (fun _ => hp.mediaType) ?_
  refine formed_setIf (by decide) hdata ?_
  refine formed_setIf (by decide) (fun _ => hp.url) ?_
  refine formed_setIf (by decide) (fun _ => hp.raw) ?_
  exact formed_setIf (by decide) (fun _ => hp.text) rfl

theorem formed_parts (hparse : ReadsBack parse) {parts : List Part} (h : ∀ p ∈ parts, p.Formed) :
    (J.arr (parts.map (partJson parse))).formed = true := by
  refine J.formed_arr.2 fun j hj => ?_
  obtain ⟨p, hp, rfl⟩ := List.mem_map.1 hj
  exact formed_partJson hparse (h p hp)

theorem formed_messageJson (hparse : ReadsBack parse) (hm : m.Formed) : (messageJson parse m).formed = true := by
  refine J.formed_object ?_
  simp only [List.forall_mem_cons]
  exact ⟨⟨by decide, hm.messageId⟩, ⟨by decide, hm.role⟩, ⟨by decide, hm.contextId⟩, ⟨by decide, hm.taskId⟩,
    ⟨by decide, hm.timestamp⟩, ⟨by decide, hm.metadata.1⟩, ⟨by decide, formed_strings hm.extensions⟩,
    ⟨by decide, formed_parts hparse hm.parts⟩, by simp⟩

theorem formed_artifactJson (hparse : ReadsBack parse) (ha : a.Formed) : (artifactJson parse a).formed = true := by
  refine J.formed_object ?_
  simp only [List.forall_mem_cons]
  exact ⟨⟨by decide, ha.artifactId⟩, ⟨by decide, ha.name⟩, ⟨by decide, ha.description⟩, ⟨by decide, ha.metadata.1⟩,
    ⟨by decide, formed_strings ha.extensions⟩, ⟨by decide, formed_parts hparse ha.parts⟩, by simp⟩

theorem storedStrings_of {j : J} {k : Str} {xs : List Str} (h : j.get? k = some (.arr (xs.map .str))) : storedStrings j k = xs := by
  unfold storedStrings
  rw [h]
  simp [List.filterMap_map]

theorem except_ok_bind {ε α β : Type} (a : α) (f : α → Except ε β) : ((.ok a : Except ε α) >>= f) = f a := rfl

theorem valueStr_at {j : J} {k d s : Str} (hj : j.isObject = true) (h : j.get? k = some (.str s)) : j.valueStr k d = .ok s :=
  J.valueStr_ok.2 ⟨hj, .inl h⟩

theorem storedObject_at {j v : J} {k : Str} (h : j.get? k = some v) (hv : ∃ fields, v = .obj fields) : storedObject j k = v := by
  obtain ⟨fields, rfl⟩ := hv
  unfold storedObject
  rw [h]

/-- The parts of a message or an artifact come back exactly where each of them keeps. -/
theorem readParts_at (hparse : ReadsBack parse) {parts : List Part} (hparts : ∀ p ∈ parts, p.Formed) {j : J}
    (h : j.get? "parts" = some (.arr (parts.map (partJson parse)))) : readParts j = .ok parts ↔ ∀ p ∈ parts, p.Keeps := by
  unfold readParts
  rw [h]
  exact mapM_map_ok.trans (forall₂_congr fun p hp => readPart_partJson hparse (hparts p hp))

/-- What is read of the parts is stored as they are exactly where each of them settles. -/
theorem rewritten_parts (hparse : ReadsBack parse) {parts : List Part} (hparts : ∀ p ∈ parts, p.Formed) {j : J}
    (h : j.get? "parts" = some (.arr (parts.map (partJson parse)))) :
    (∃ parts', readParts j = .ok parts' ∧ parts'.map (partJson parse) = parts.map (partJson parse)) ↔
      ∀ p ∈ parts, p.Settles parse := by
  unfold readParts
  rw [h]
  exact rewritten_list.trans (forall₂_congr fun p hp => rewritten_part hparse (hparts p hp))

/-- The fields of a message are read but for the references, which are not stored. -/
theorem readMessage_eq (hm : m.Formed) : readMessage (messageJson parse m) =
    (readParts (messageJson parse m) >>= fun parts => .ok { m with parts := parts, referenceTaskIds := [] }) := by
  have hobject : (messageJson parse m).isObject = true := rfl
  have hid : (messageJson parse m).valueStr "messageId" "" = .ok m.messageId := valueStr_at hobject rfl
  have hrole : (messageJson parse m).valueStr "role" "user" = .ok m.role := valueStr_at hobject rfl
  have hcontext : (messageJson parse m).valueStr "contextId" "" = .ok m.contextId := valueStr_at hobject rfl
  have htask : (messageJson parse m).valueStr "taskId" "" = .ok m.taskId := valueStr_at hobject rfl
  have htimestamp : (messageJson parse m).valueStr "timestamp" "" = .ok m.timestamp := valueStr_at hobject rfl
  have hmetadata : storedObject (messageJson parse m) "metadata" = m.metadata := storedObject_at rfl hm.metadata.2
  have hextensions : storedStrings (messageJson parse m) "extensions" = m.extensions := storedStrings_of rfl
  unfold readMessage
  simp only [hid, hrole, hcontext, htask, htimestamp, hmetadata, hextensions, except_ok_bind]
  rfl

/-- A message comes back exactly where it keeps. -/
theorem readMessage_messageJson (hparse : ReadsBack parse) (hm : m.Formed) :
    readMessage (messageJson parse m) = .ok m ↔ m.Keeps := by
  have hparts := readParts_at hparse hm.parts (j := messageJson parse m) rfl
  rw [readMessage_eq hm]
  constructor
  · intro h
    obtain ⟨parts, hp, hsame⟩ := Tx.except_bind_ok h
    injection hsame with hsame
    have hsameParts : parts = m.parts := congrArg Message.parts hsame
    have hreferences : [] = m.referenceTaskIds := congrArg Message.referenceTaskIds hsame
    rw [hsameParts] at hp
    exact ⟨hreferences.symm, hparts.1 hp⟩
  · rintro ⟨hreferences, hkeeps⟩
    rw [hparts.2 hkeeps, ← hreferences]
    rfl

/-- A message is stored again as it was exactly where its parts settle. -/
theorem rewritten_message (hparse : ReadsBack parse) (hm : m.Formed) :
    (∃ m', readMessage (messageJson parse m) = .ok m' ∧ messageJson parse m' = messageJson parse m) ↔
      ∀ p ∈ m.parts, p.Settles parse := by
  rw [readMessage_eq hm, ← rewritten_parts hparse hm.parts (j := messageJson parse m) rfl]
  constructor
  · rintro ⟨m', h, hsame⟩
    obtain ⟨parts, hp, h⟩ := Tx.except_bind_ok h
    cases h
    have hget : some (J.arr (parts.map (partJson parse))) = some (J.arr (m.parts.map (partJson parse))) :=
      congrArg (fun j : J => j.get? "parts") hsame
    exact ⟨parts, hp, J.arr.inj (Option.some.inj hget)⟩
  · rintro ⟨parts, hp, hsame⟩
    refine ⟨_, by rw [hp]; rfl, ?_⟩
    unfold messageJson
    rw [hsame]

/-- The fields of an artifact are read. -/
theorem readArtifact_eq (ha : a.Formed) : readArtifact (artifactJson parse a) =
    (readParts (artifactJson parse a) >>= fun parts => .ok { a with parts := parts }) := by
  have hobject : (artifactJson parse a).isObject = true := rfl
  unfold readArtifact
  rw [valueStr_at (s := a.artifactId) hobject rfl, valueStr_at (s := a.name) hobject rfl,
    valueStr_at (s := a.description) hobject rfl, storedObject_at (v := a.metadata) rfl ha.metadata.2,
    @storedStrings_of _ _ a.extensions rfl]
  rfl

/-- An artifact comes back exactly where it keeps. -/
theorem readArtifact_artifactJson (hparse : ReadsBack parse) (ha : a.Formed) :
    readArtifact (artifactJson parse a) = .ok a ↔ a.Keeps := by
  have hparts := readParts_at hparse ha.parts (j := artifactJson parse a) rfl
  rw [readArtifact_eq ha]
  constructor
  · intro h
    obtain ⟨parts, hp, hsame⟩ := Tx.except_bind_ok h
    injection hsame with hsame
    have hsameParts : parts = a.parts := congrArg Artifact.parts hsame
    rw [hsameParts] at hp
    exact hparts.1 hp
  · intro hkeeps
    rw [hparts.2 hkeeps]
    rfl

theorem rewritten_artifact (hparse : ReadsBack parse) (ha : a.Formed) :
    (∃ a', readArtifact (artifactJson parse a) = .ok a' ∧ artifactJson parse a' = artifactJson parse a) ↔
      ∀ p ∈ a.parts, p.Settles parse := by
  rw [readArtifact_eq ha, ← rewritten_parts hparse ha.parts (j := artifactJson parse a) rfl]
  constructor
  · rintro ⟨a', h, hsame⟩
    obtain ⟨parts, hp, h⟩ := Tx.except_bind_ok h
    cases h
    have hget : some (J.arr (parts.map (partJson parse))) = some (J.arr (a.parts.map (partJson parse))) :=
      congrArg (fun j : J => j.get? "parts") hsame
    exact ⟨parts, hp, J.arr.inj (Option.some.inj hget)⟩
  · rintro ⟨parts, hp, hsame⟩
    refine ⟨_, by rw [hp]; rfl, ?_⟩
    unfold artifactJson
    rw [hsame]

end Messages

/-! ## Tasks -/

section Tasks

variable {E : Env} {parse : Str → Option J} {t : Task} {s : World}

/-- The row a formed task is bound to. -/
theorem bindTask_formed (hparse : ReadsBack parse) (ht : t.Formed) : ∃ row, bindTask parse t = .ok row ∧
    row.stateMessage = cstr t.stateMessage ∧ row.updatedAt = cstr t.updatedAt ∧ row.lastStateChange = cstr t.lastStateChange ∧
    row.messages = (J.arr (t.messages.map (messageJson parse))).text ∧
    row.artifacts = (J.arr (t.artifacts.map (artifactJson parse))).text ∧ row.metadata = t.metadata.text ∧
    row.error = cstr t.error := by
  have hmessages : (J.arr (t.messages.map (messageJson parse))).formed = true := by
    refine J.formed_arr.2 fun j hj => ?_
    obtain ⟨m, hm, rfl⟩ := List.mem_map.1 hj
    exact formed_messageJson hparse (ht.messages m hm)
  have hartifacts : (J.arr (t.artifacts.map (artifactJson parse))).formed = true := by
    refine J.formed_arr.2 fun j hj => ?_
    obtain ⟨a, ha, rfl⟩ := List.mem_map.1 hj
    exact formed_artifactJson hparse (ht.artifacts a ha)
  unfold bindTask
  rw [J.dump_formed hmessages, J.dump_formed hartifacts, J.dump_formed ht.metadata]
  exact ⟨_, rfl, rfl, rfl, rfl, rfl, rfl, rfl, rfl⟩

theorem remote_back {remote : Option Str} (hnul : ∀ r, remote = some r → (0 : UInt8) ∉ r) :
    ((remote.filter fun r => !r.isEmpty).map cstr).map cstr = remote ↔ remote ≠ some [] := by
  cases remote with
  | none => exact iff_of_true rfl (by simp)
  | some r =>
    cases r with
    | nil => exact iff_of_false (by simp) (by simp)
    | cons b r =>
      refine iff_of_true ?_ (by simp)
      show some (cstr (cstr (b :: r))) = _
      rw [cstr_cstr, cstr_eq_self (hnul _ rfl)]

/-- A task whose texts have no NUL is read back from its row, up to its hints, exactly where it keeps. -/
theorem taskFromRow_bindTask (hparse : ReadsBack parse) (ht : t.Formed) (hnul : t.NulFree) :
    ∃ row, bindTask parse t = .ok row ∧ row.id = t.id ∧ (taskFromRow parse row = hintless t ↔ t.Keeps) := by
  obtain ⟨row, hrow, hstateMessage, hupdated, hchanged, hmessages, hartifacts, hmetadata, herror⟩ := bindTask_formed hparse ht
  obtain ⟨hid, hremote, hagent, hcontext, hstate, htitle, hcwd, hcreated⟩ := bindTask_ok hrow
  refine ⟨row, hrow, by rw [hid, cstr_eq_self hnul.id], ?_⟩
  have hback : taskFromRow parse row = { hintless t with
      remoteTaskId := row.remoteTaskId.map cstr
      messages := readColumn parse readMessage (cstr row.messages)
      artifacts := readColumn parse readArtifact (cstr row.artifacts) } := by
    have hstateBack := state_of_bindTask hrow
    have hmetadataBack : (parse (cstr row.metadata)).getD (.obj []) = t.metadata := by
      rw [hmetadata, cstr_eq_self (J.plain_text _).nul, hparse _ ht.metadata]
      rfl
    unfold taskFromRow at hstateBack ⊢
    dsimp only at hstateBack
    rw [hstateBack, hmetadataBack]
    simp only [hintless, hid, hagent, hcontext, htitle, hcwd, hcreated, hstateMessage, hupdated, hchanged, herror,
      cstr_eq_self hnul.id, cstr_eq_self hnul.agent, cstr_eq_self hnul.context, cstr_eq_self hnul.stateMessage,
      cstr_eq_self hnul.title, cstr_eq_self hnul.cwd, cstr_eq_self hnul.createdAt, cstr_eq_self hnul.updatedAt,
      cstr_eq_self hnul.lastStateChange, cstr_eq_self hnul.error]
  have hremoteBack := remote_back hnul.remoteTaskId
  rw [← hremote] at hremoteBack
  have hmessagesBack := readColumn_text hparse (f := readMessage) fun m hm => formed_messageJson hparse (ht.messages m hm)
  rw [← hmessages] at hmessagesBack
  have hartifactsBack := readColumn_text hparse (f := readArtifact) fun a ha => formed_artifactJson hparse (ht.artifacts a ha)
  rw [← hartifacts] at hartifactsBack
  rw [hback]
  constructor
  · intro h
    have hsameRemote : row.remoteTaskId.map cstr = t.remoteTaskId := congrArg Task.remoteTaskId h
    have hsameMessages : readColumn parse readMessage (cstr row.messages) = t.messages := congrArg Task.messages h
    have hsameArtifacts : readColumn parse readArtifact (cstr row.artifacts) = t.artifacts := congrArg Task.artifacts h
    exact ⟨hremoteBack.1 hsameRemote,
      fun m hm => (readMessage_messageJson hparse (ht.messages m hm)).1 (hmessagesBack.1 hsameMessages m hm),
      fun a ha => (readArtifact_artifactJson hparse (ht.artifacts a ha)).1 (hartifactsBack.1 hsameArtifacts a ha)⟩
  · intro hkeeps
    rw [hremoteBack.2 hkeeps.remoteTaskId,
      hmessagesBack.2 fun m hm => (readMessage_messageJson hparse (ht.messages m hm)).2 (hkeeps.messages m hm),
      hartifactsBack.2 fun a ha => (readArtifact_artifactJson hparse (ht.artifacts a ha)).2 (hkeeps.artifacts a ha)]
    rfl

/-- What is loaded is the task that was stored, up to its hints: if it could be written and keeps, or was
there before. -/
theorem loaded_iff (hparse : ReadsBack E.parse) (ht : t.Formed) (hnul : t.NulFree) :
    ((Tx.endState (insertTask E t s)).task E t.id).map hintless = some (hintless t) ↔
      if E.busy s.writes = true then (s.task E t.id).map hintless = some (hintless t) else t.Keeps := by
  obtain ⟨row, hrow, hid, hback⟩ := taskFromRow_bindTask hparse ht hnul
  have hend : Tx.endState (insertTask E t s) = s.written E row := endState_bound hrow
  rw [hend]
  split
  · rename_i hbusy
    rw [World.task, written_busy hbusy]
    rfl
  · rename_i hfree
    have hread : (s.written E row).task E t.id = some (taskFromRow E.parse row) := by
      rw [World.task, written_free (by simpa using hfree), hid, cstr_eq_self hnul.id, AList.lookup_insert]
      rfl
    rw [hread, ← hback, Option.map_some]
    constructor
    · intro h
      exact Option.some.inj h
    · intro h
      rw [h]
      rfl

end Tasks

/-! ## Decoded tasks -/

section Decoded

variable {j : J} {k : Str}

theorem formed_objectAt (hj : j.formed = true) :
    (objectAt j k).formed = true ∧ ∃ fields, objectAt j k = .obj fields := by
  unfold objectAt
  split
  · rename_i fields h
    exact ⟨J.formed_get? hj h, fields, rfl⟩
  · exact ⟨rfl, [], rfl⟩

theorem formed_arrayAt (hj : j.formed = true) : ∀ x ∈ arrayAt j k, x.formed = true := by
  unfold arrayAt
  split
  · rename_i xs h
    exact J.formed_arr.1 (J.formed_get? hj h)
  · simp

theorem valid_stringsAt (hj : j.formed = true) : ∀ s ∈ stringsAt j k, valid s = true := by
  intro s hs
  obtain ⟨x, hx, hstr⟩ := List.mem_filterMap.1 hs
  have hformed := formed_arrayAt hj x hx
  cases x with
  | str s' =>
    cases hstr
    exact hformed
  | _ => cases hstr

theorem formed_dataAt (hj : j.formed = true) {d : Str} (h : dataAt j = .ok d) : d = [] ∨ ∃ v : J, v.formed = true ∧ d = v.text := by
  unfold dataAt at h
  split at h
  · cases h
    exact .inl rfl
  · cases h
    exact .inl rfl
  · rename_i v _ hget
    exact .inr ⟨v, J.formed_get? hj hget, (J.dump_ok.1 h).2.symm⟩

theorem valid_text_of {d s : Str} (hj : j.formed = true) (hd : valid d = true) (h : j.valueStr k d = .ok s) : valid s = true :=
  valid_valueStr (J.utf8_formed hj) hd h

theorem parsePart_formed {p : Part} (hj : j.formed = true) (h : parsePart j = .ok p) : p.Formed := by
  unfold parsePart at h
  split at h
  · cases h
    exact ⟨rfl, rfl, rfl, .inl rfl, rfl, rfl, rfl, [], rfl⟩
  · obtain ⟨data, hdata, h⟩ := Tx.except_bind_ok h
    obtain ⟨mediaType, hmedia, h⟩ := Tx.except_bind_ok h
    obtain ⟨filename, hfile, h⟩ := Tx.except_bind_ok h
    cases h
    have hutf8 := J.utf8_formed hj
    exact ⟨valid_stringAt hutf8, valid_stringAt hutf8, valid_stringAt hutf8, formed_dataAt hj hdata,
      valid_text_of hj (by decide) hmedia, valid_text_of hj (by decide) hfile, formed_objectAt hj⟩

theorem parseParts_formed {parts : List Part} (hj : j.formed = true) (h : (arrayAt j k).mapM parsePart = .ok parts) :
    ∀ p ∈ parts, p.Formed := by
  intro p hp
  obtain ⟨x, hx, hp⟩ := Tx.except_mapM_ok h p hp
  exact parsePart_formed (formed_arrayAt hj x hx) hp

theorem parseMessage_formed {m : Message} (hj : j.formed = true) (h : parseMessage j = .ok m) : m.Formed := by
  unfold parseMessage at h
  split at h
  · cases h
    exact ⟨rfl, rfl, rfl, rfl, rfl, ⟨rfl, [], rfl⟩, by simp, by simp⟩
  · obtain ⟨messageId, hid, h⟩ := Tx.except_bind_ok h
    obtain ⟨role, hrole, h⟩ := Tx.except_bind_ok h
    obtain ⟨taskId, htask, h⟩ := Tx.except_bind_ok h
    obtain ⟨contextId, hcontext, h⟩ := Tx.except_bind_ok h
    obtain ⟨timestamp, htime, h⟩ := Tx.except_bind_ok h
    obtain ⟨parts, hparts, h⟩ := Tx.except_bind_ok h
    cases h
    exact ⟨valid_text_of hj (by decide) hid, valid_roleInternal _, valid_text_of hj (by decide) hcontext,
      valid_text_of hj (by decide) htask, valid_text_of hj (by decide) htime, formed_objectAt hj, valid_stringsAt hj,
      parseParts_formed hj hparts⟩

theorem parseArtifact_formed {a : Artifact} (hj : j.formed = true) (h : parseArtifact j = .ok a) : a.Formed := by
  unfold parseArtifact at h
  obtain ⟨artifactId, hid, h⟩ := Tx.except_bind_ok h
  obtain ⟨name, hname, h⟩ := Tx.except_bind_ok h
  obtain ⟨description, hdesc, h⟩ := Tx.except_bind_ok h
  obtain ⟨parts, hparts, h⟩ := Tx.except_bind_ok h
  cases h
  exact ⟨valid_text_of hj (by decide) hid, valid_text_of hj (by decide) hname, valid_text_of hj (by decide) hdesc,
    formed_objectAt hj, valid_stringsAt hj, parseParts_formed hj hparts⟩

theorem parseStatus_formed {st : Status} (hj : j.formed = true) (h : parseStatus j = .ok st) : ∀ m ∈ st.messages, m.Formed := by
  unfold parseStatus at h
  obtain ⟨state, -, h⟩ := Tx.except_bind_ok h
  split at h
  · rename_i fields hget
    obtain ⟨message, hmessage, h⟩ := Tx.except_bind_ok h
    obtain ⟨timestamp, -, h⟩ := Tx.except_bind_ok h
    cases h
    simpa using parseMessage_formed (J.formed_get? hj hget) hmessage
  · obtain ⟨timestamp, -, h⟩ := Tx.except_bind_ok h
    cases h
    simp
  · obtain ⟨timestamp, -, h⟩ := Tx.except_bind_ok h
    cases h
    simp

theorem statusAt_formed {st : Status} (hj : j.formed = true) (h : statusAt j = .ok st) : ∀ m ∈ st.messages, m.Formed := by
  unfold statusAt at h
  split at h
  · rename_i fields hget
    exact parseStatus_formed (J.formed_get? hj hget) h
  · cases h
    simp

/-- A task that is decoded from a value a parser built. -/
theorem parseTask_formed {t : Task} (hj : j.formed = true) (h : parseTask j = .ok (some t)) : t.Formed := by
  unfold parseTask at h
  split at h
  · obtain ⟨context, -, h⟩ := Tx.except_bind_ok h
    obtain ⟨status, hstatus, h⟩ := Tx.except_bind_ok h
    obtain ⟨history, hhistory, h⟩ := Tx.except_bind_ok h
    obtain ⟨artifacts, hartifacts, h⟩ := Tx.except_bind_ok h
    cases h
    refine ⟨fun m hm => ?_, fun a ha => ?_, (formed_objectAt hj).1⟩
    · rcases List.mem_append.1 hm with hm | hm
      · exact statusAt_formed hj hstatus m hm
      · obtain ⟨x, hx, hm⟩ := Tx.except_mapM_ok hhistory m hm
        exact parseMessage_formed (formed_arrayAt hj x hx) hm
    · obtain ⟨x, hx, ha⟩ := Tx.except_mapM_ok hartifacts a ha
      exact parseArtifact_formed (formed_arrayAt hj x (List.mem_of_mem_filter hx)) ha
  · cases h

end Decoded

/-! ## Storing and loading -/

/-- The record `createTask` makes of a decoded task. -/
def completedTask (req : CreateTaskRequest) (t : Task) (id created updated changed : Str) : Task :=
  { createdTask req t id created with updatedAt := updated, lastStateChange := changed }

theorem completedTask_formed {j : J} {r : Task} (hj : j.formed = true) (h : parseTask j = .ok (some r))
    (req : CreateTaskRequest) (id created updated changed : Str) : (completedTask req r id created updated changed).Formed :=
  ⟨(parseTask_formed hj h).messages, (parseTask_formed hj h).artifacts, (parseTask_formed hj h).metadata⟩

/-- A task that is decoded from any value, completed and stored is loaded as it was exactly where it keeps. -/
theorem row_round_trip (E : Env) (hparse : ReadsBack E.parse) {j : J} (hj : j.formed = true) {r : Task}
    (hdecoded : parseTask j = .ok (some r)) (req : CreateTaskRequest) (id created updated changed : Str)
    (hnul : (completedTask req r id created updated changed).NulFree) (s : World) :
    ((Tx.endState (insertTask E (completedTask req r id created updated changed) s)).task E id).map hintless =
        some (hintless (completedTask req r id created updated changed)) ↔
      if E.busy s.writes = true then
        (s.task E id).map hintless = some (hintless (completedTask req r id created updated changed))
      else (completedTask req r id created updated changed).Keeps :=
  loaded_iff hparse (completedTask_formed hj hdecoded req id created updated changed) hnul

/-! ## An empty part -/

noncomputable def printedEnv : Env := { Env.offline [] with parse := readPrinted }

def asking : CreateTaskRequest := { agent := builder.id, message := "list the files", requestId := "req-1" }

/-- A task whose history is one message with a part of this text. -/
def saying (text : Str) : J := .object [("id", .str "remote-7"), ("contextId", .str "context-3"),
  ("history", .arr [.object [("messageId", .str "m-1"), ("role", .str "ROLE_AGENT"),
    ("parts", .arr [.object [("text", .str text)]])]])]

def said (text : Str) : Task where
  id := "remote-7"
  remoteTaskId := some (lit "remote-7")
  context := "context-3"
  messages := [{ messageId := "m-1", role := "agent", parts := [{ text := text }] }]

def storedSaying (text : Str) : Task := completedTask asking (said text) "id-0" "now" "now" "now"

theorem nulFree_storedSaying (text : Str) : (storedSaying text).NulFree where
  id := show (0 : UInt8) ∉ lit "id-0" by decide
  remoteTaskId := by
    rintro r ⟨⟩
    decide
  agent := show (0 : UInt8) ∉ builder.id by decide
  context := show (0 : UInt8) ∉ lit "context-3" by decide
  stateMessage := List.not_mem_nil
  title := show (0 : UInt8) ∉ titleFromMessage asking.message by decide +kernel
  cwd := List.not_mem_nil
  createdAt := show (0 : UInt8) ∉ lit "now" by decide
  updatedAt := show (0 : UInt8) ∉ lit "now" by decide
  lastStateChange := show (0 : UInt8) ∉ lit "now" by decide
  error := List.not_mem_nil

/-- A message with an empty part is lost. -/
theorem empty_part_lost : ReadsBack printedEnv.parse ∧ (saying []).formed = true ∧
    parseTask (saying []) = .ok (some (said [])) ∧ (storedSaying []).NulFree ∧
    ((Tx.endState (insertTask printedEnv (storedSaying []) {})).task printedEnv "id-0").map hintless ≠
      some (hintless (storedSaying [])) := by
  have hdecoded : parseTask (saying []) = .ok (some (said [])) := by decide +kernel
  have hformed : (saying []).formed = true := by decide +kernel
  refine ⟨readsBack_readPrinted, hformed, hdecoded, nulFree_storedSaying [], fun hloaded => ?_⟩
  have hkeeps := (loaded_iff (t := storedSaying []) readsBack_readPrinted
    (completedTask_formed hformed hdecoded asking "id-0" "now" "now" "now") (nulFree_storedSaying [])).1 hloaded
  have hmessage := hkeeps.messages _ List.mem_cons_self
  have hpart := hmessage.2 _ List.mem_cons_self
  exact absurd hpart.1 (by decide)

/-- A message with a text comes back. -/
theorem row_round_trip_said :
    ((Tx.endState (insertTask printedEnv (storedSaying "done") {})).task printedEnv "id-0").map hintless =
      some (hintless (storedSaying "done")) := by
  have hdecoded : parseTask (saying "done") = .ok (some (said "done")) := by decide +kernel
  refine (row_round_trip printedEnv readsBack_readPrinted (by decide +kernel) hdecoded asking "id-0" "now" "now" "now"
    (nulFree_storedSaying "done") {}).2 ?_
  rw [if_neg (by decide)]
  refine ⟨by decide, fun m hm => ?_, fun a ha => by cases ha⟩
  obtain rfl := List.mem_singleton.1 hm
  refine ⟨rfl, fun p hp => ?_⟩
  obtain rfl := List.mem_singleton.1 hp
  exact ⟨by decide, by decide⟩

end A2ad
