/-
The texts shown to a user: the title made from a request, the preview of a part, the summary of an
artifact and the text of a message. Titles and previews are cut at fixed byte counts, so that each
is well-formed UTF-8 exactly when its cut does not fall inside a character.
-/
import A2ad.Task.Database

namespace A2ad

open Bytes Json Utf8

/-! ## Titles -/

def isBlank (c : UInt8) : Bool := c == 32 || c == 9

/-- The first line of a message without blanks around it. -/
def firstLine (msg : Str) : Str := ((msg.takeWhile (· ≠ 10)).dropWhile isBlank).rdropWhile isBlank

def titleFromMessage (msg : Str) : Str :=
  let first := firstLine msg
  let first := if first.length > 48 then first.take 48 ++ lit "…" else first
  if first.isEmpty then "(untitled)" else first

/-! ## Parts and artifacts -/

namespace Part

def preview (p : Part) : Str :=
  if !p.text.isEmpty then
    (p.text.take 240).map (fun c => if c = 10 ∨ c = 13 then 32 else c) ++
      (if p.text.length > 240 then lit " …" else [])
  else if !p.url.isEmpty then lit "url: " ++ p.url
  else if !p.raw.isEmpty then lit "<binary " ++ natText p.raw.length ++ lit " b64 chars>"
  else if !p.data.isEmpty then p.data.take 240 ++ (if p.data.length > 240 then lit " …" else [])
  else "(empty part)"

/-- The text of which the preview shows the first 240 bytes. -/
def clipped (p : Part) : Str :=
  if !p.text.isEmpty then p.text
  else if !p.url.isEmpty || !p.raw.isEmpty then []
  else p.data

end Part

namespace Artifact

/-- The part an artifact is summarised by: the first with a text, else with data, else with a URL. -/
def shown (a : Artifact) : Option Part :=
  a.parts.find? (!·.text.isEmpty) <|> a.parts.find? (!·.data.isEmpty) <|> a.parts.find? (!·.url.isEmpty) <|>
    a.parts.head?

def contentSummary (a : Artifact) : Str := (a.shown.map Part.preview).getD "(no parts)"

end Artifact

/-- The text or data parts of a message, one a line. -/
def Message.text (m : Message) : Str :=
  m.parts.foldl (fun out p =>
    let piece := if !p.text.isEmpty then p.text else p.data
    if piece.isEmpty then out else if out.isEmpty then piece else out ++ 10 :: piece) []

/-! ## Well-formed texts -/

structure Part.Valid (p : Part) : Prop where
  text : valid p.text = true
  url : valid p.url = true
  data : valid p.data = true

structure Message.Valid (m : Message) : Prop where
  messageId : valid m.messageId = true
  role : valid m.role = true
  parts : ∀ p ∈ m.parts, p.Valid

structure Artifact.Valid (a : Artifact) : Prop where
  artifactId : valid a.artifactId = true
  name : valid a.name = true
  description : valid a.description = true
  parts : ∀ p ∈ a.parts, p.Valid

/-- Every text of the task that somebody sent is well-formed UTF-8: all but its title and its error. -/
structure Task.Received (t : Task) : Prop where
  id : valid t.id = true
  remoteTaskId : ∀ r, t.remoteTaskId = some r → valid r = true
  agent : valid t.agent = true
  context : valid t.context = true
  stateMessage : valid t.stateMessage = true
  cwd : valid t.cwd = true
  createdAt : valid t.createdAt = true
  updatedAt : valid t.updatedAt = true
  lastStateChange : valid t.lastStateChange = true
  messages : ∀ m ∈ t.messages, m.Valid
  artifacts : ∀ a ∈ t.artifacts, a.Valid

/-- Every text of the task but its title is well-formed UTF-8. -/
structure Task.Valid (t : Task) : Prop extends t.Received where
  error : valid t.error = true

theorem isBlank_ascii {c : UInt8} (h : isBlank c = true) : c < 0x80 := by
  simp only [isBlank, Bool.or_eq_true, beq_iff_eq] at h
  rcases h with rfl | rfl <;> decide

theorem valid_firstLine {msg : Str} (h : valid msg = true) : valid (firstLine msg) = true := by
  refine valid_rdropWhile (fun b hb => isBlank_ascii hb) (valid_dropWhile (fun b hb => isBlank_ascii hb) ?_)
  refine valid_takeWhile (fun b hb => ?_) h
  simp only [ne_eq, decide_not, Bool.not_eq_eq_eq_not, Bool.not_false, decide_eq_true_eq] at hb
  subst hb
  decide

theorem titleFromMessage_long {msg : Str} (h : (firstLine msg).length > 48) :
    titleFromMessage msg = (firstLine msg).take 48 ++ lit "…" := by
  have hne : (firstLine msg).take 48 ++ lit "…" ≠ [] := by
    intro hnil
    exact absurd (List.append_eq_nil_iff.1 hnil).2 (by decide)
  unfold titleFromMessage
  simp only [if_pos h]
  rw [if_neg (by simpa using hne)]

theorem valid_title_short {msg : Str} (hmsg : valid msg = true) (h : ¬ (firstLine msg).length > 48) :
    valid (titleFromMessage msg) = true := by
  unfold titleFromMessage
  simp only [if_neg h]
  split
  · decide
  · exact valid_firstLine hmsg

theorem valid_cstr {s : Str} (h : valid s = true) : valid (cstr s) = true := by
  refine valid_takeWhile (fun b hb => ?_) h
  simp only [ne_eq, decide_not, Bool.not_eq_eq_eq_not, Bool.not_false, decide_eq_true_eq] at hb
  subst hb
  decide

/-- The cut of a title falls between characters. A title is stored up to its first NUL, so that
a cut behind a NUL is never seen. -/
def TitleIntact (msg : Str) : Prop := boundary (firstLine msg) 48 = true ∨ 0 ∈ (firstLine msg).take 48

/-- A stored title is well formed exactly when its cut is. -/
theorem valid_stored_title {msg : Str} (h : valid msg = true) :
    valid (cstr (titleFromMessage msg)) = true ↔ TitleIntact msg := by
  have hline := valid_firstLine h
  by_cases hlong : (firstLine msg).length > 48
  · rw [titleFromMessage_long hlong]
    by_cases hnul : (0 : UInt8) ∈ (firstLine msg).take 48
    · rw [cstr_append hnul _ ((firstLine msg).drop 48), List.take_append_drop]
      exact iff_of_true (valid_cstr hline) (.inr hnul)
    · have hall : (0 : UInt8) ∉ (firstLine msg).take 48 ++ lit "…" := by
        intro hmem
        rcases List.mem_append.1 hmem with hmem | hmem
        · exact hnul hmem
        · exact absurd hmem (by decide)
      rw [cstr_eq_self hall, valid_append_lead _ (by decide) (by decide), valid_take_iff hline, TitleIntact,
        or_iff_left hnul]
  · exact iff_of_true (valid_cstr (valid_title_short h hlong)) (.inl (boundary_of_le (by omega)))

/-! ## Previews and texts -/

theorem collapse_ascii (b : UInt8) :
    (if b = 10 ∨ b = 13 then 32 else b) = b ∨ b < 0x80 ∧ (if b = 10 ∨ b = 13 then (32 : UInt8) else b) < 0x80 := by
  by_cases h : b = 10 ∨ b = 13
  · rw [if_pos h]
    right
    rcases h with rfl | rfl <;> decide
  · rw [if_neg h]
    exact .inl rfl

theorem valid_ellipsis (s : Str) (c : Bool) : valid (s ++ if c then lit " …" else []) = true ↔ valid s = true := by
  cases c with
  | false => simp
  | true => exact valid_append_lead s (by decide) (by decide)

theorem valid_natText (n : Nat) : valid (natText n) = true := by
  apply valid_ascii
  intro b hb
  have := natText_digits n b hb
  simp only [isDigit, Bool.and_eq_true, decide_eq_true_eq] at this
  exact UInt8.lt_of_le_of_lt this.2 (by decide)

namespace Part

/-- A preview is well formed exactly when the cut at 240 bytes of the text it shows is. -/
theorem Valid.preview {p : Part} (h : p.Valid) : valid p.preview = true ↔ boundary p.clipped 240 = true := by
  unfold Part.preview clipped
  cases p.text.isEmpty with
  | false =>
    simp only [Bool.not_false, if_true]
    rw [← valid_take_iff h.text, ← valid_map_ascii _ collapse_ascii (p.text.take 240)]
    simpa using valid_ellipsis _ (decide (p.text.length > 240))
  | true =>
    cases p.url.isEmpty with
    | false =>
      have hurl : valid (lit "url: " ++ p.url) = true := valid_append (by decide) h.url
      simp [hurl, boundary]
    | true =>
      cases p.raw.isEmpty with
      | false =>
        have hnum : valid (lit "<binary " ++ (natText p.raw.length ++ lit " b64 chars>")) = true :=
          valid_append (by decide) (valid_append (valid_natText _) (by decide))
        simp [hnum, boundary]
      | true =>
        simp only [Bool.not_true, Bool.false_eq_true, if_false, Bool.or_self]
        cases hdata : p.data with
        | nil => decide
        | cons c r =>
          rw [← hdata, ← valid_take_iff h.data]
          simpa [hdata] using valid_ellipsis (p.data.take 240) (decide (p.data.length > 240))

end Part

theorem Artifact.shown_mem {a : Artifact} {p : Part} (h : a.shown = some p) : p ∈ a.parts := by
  unfold Artifact.shown at h
  simp only [Option.orElse_eq_orElse, Option.orElse_eq_or, Option.or_eq_some_iff] at h
  rcases h with h | ⟨-, h | ⟨-, h | ⟨-, h⟩⟩⟩
  · exact List.mem_of_find?_eq_some h
  · exact List.mem_of_find?_eq_some h
  · exact List.mem_of_find?_eq_some h
  · exact List.mem_of_mem_head? h

/-- The cut of the part an artifact is summarised by does not break a character. -/
def Artifact.Intact (a : Artifact) : Prop := ∀ p, a.shown = some p → boundary p.clipped 240 = true

theorem Artifact.Valid.contentSummary {a : Artifact} (h : a.Valid) : valid a.contentSummary = true ↔ a.Intact := by
  unfold Artifact.contentSummary Artifact.Intact
  cases hs : a.shown with
  | none =>
    simp only [Option.map_none, Option.getD_none, reduceCtorEq, false_implies, implies_true, iff_true]
    decide
  | some p =>
    simp only [Option.map_some, Option.getD_some, Option.some.injEq, forall_eq']
    exact (h.parts p (Artifact.shown_mem hs)).preview

/-- The text of a message is never cut. -/
theorem Message.Valid.text {m : Message} (h : m.Valid) : valid m.text = true := by
  unfold Message.text
  refine List.foldlRecOn m.parts _ (motive := fun out => valid out = true) valid_nil ?_
  intro out hout p hp
  have hpiece : valid (if !p.text.isEmpty then p.text else p.data) = true := by
    split
    · exact (h.parts p hp).text
    · exact (h.parts p hp).data
  generalize (if !p.text.isEmpty then p.text else p.data) = piece at hpiece ⊢
  show valid (if piece.isEmpty then out else if out.isEmpty then piece else out ++ 10 :: piece) = true
  split
  · exact hout
  · split
    · exact hpiece
    · refine valid_append hout ?_
      rw [valid_cons_ascii (by decide)]
      exact hpiece

end A2ad
