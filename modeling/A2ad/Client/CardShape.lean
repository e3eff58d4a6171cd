/-
Which values can be read as a card. The name, the texts, the lists and the objects of a card are
looked at before they are read; the fields under them are not, and throw where they are of another type.
-/
import A2ad.Client.Readable

namespace A2ad.Client

open Bytes Json Tx

/-! ## Fields of the right type -/

def extensionReads (j : J) : Bool :=
  fieldIs J.isString j "uri" && fieldIs J.isString j "description" && fieldIs J.isBoolean j "required"

def capabilitiesReads (c : J) : Bool :=
  fieldIs J.isBoolean c "streaming" && fieldIs J.isBoolean c "pushNotifications" &&
    fieldIs J.isBoolean c "extendedAgentCard" && ((arrayAt c "extensions").filter J.isObject).all extensionReads

def skillReads (j : J) : Bool :=
  !j.isObject || fieldIs J.isString j "id" && fieldIs J.isString j "name" && fieldIs J.isString j "description"

def interfaceReads (j : J) : Bool :=
  fieldIs J.isString j "url" && fieldIs J.isString j "protocolBinding" && fieldIs J.isString j "protocolVersion" &&
    fieldIs J.isString j "tenant"

/-- What current cards nest a scheme in has to be an object, too. -/
def nestedReads (j : J) : Bool :=
  match j.get? "apiKeySecurityScheme", j.get? "httpAuthSecurityScheme" with
  | some v, _ => v.isObject && fieldIs J.isString v "location" && fieldIs J.isString v "name"
  | none, some v => v.isObject && fieldIs J.isString v "scheme"
  | none, none => true

def schemeReads (j : J) : Bool :=
  !j.isObject || fieldIs J.isString j "type" && fieldIs J.isString j "scheme" && fieldIs J.isString j "location" &&
    fieldIs J.isString j "in" && fieldIs J.isString j "name" && nestedReads j

/-- Every field that is read of a card is of the type it is read at. -/
def cardReads (j : J) : Bool :=
  fieldIs (fun c => !c.isObject || capabilitiesReads c) j "capabilities" && (arrayAt j "skills").all skillReads &&
    ((arrayAt j "supportedInterfaces").filter J.isObject).all interfaceReads &&
    (fieldsOf (objectAt j "securitySchemes")).all fun f => schemeReads f.2

/-! ## Reading passes -/

section Reads

variable {j : J} {k d : Str}

theorem passes_valueBool {b : Bool} : Passes (j.valueBool k b) ↔ j.isObject = true ∧ fieldIs J.isBoolean j k = true := by
  have hbool : ∀ v : J, Passes v.asBool ↔ v.isBoolean = true := fun v => by cases v <;> simp [J.asBool, J.isBoolean]
  rw [J.valueBool, passes_value, fieldIs_iff]
  simp only [hbool]

theorem passes_bool {α : Type} {b : Bool} {f : Bool → Except Exception α} {P : Prop} (hj : j.isObject = true)
    (h : ∀ c, Passes (f c) ↔ P) : Passes (j.valueBool k b >>= f) ↔ fieldIs J.isBoolean j k = true ∧ P := by
  rw [passes_then fun c _ => h c, passes_valueBool, and_iff_right hj]

/-- The same where nothing says that `j` is an object. -/
theorem passes_strAny {α : Type} {f : Str → Except Exception α} {P : Prop} (h : ∀ s, Passes (f s) ↔ P) :
    Passes (j.valueStr k d >>= f) ↔ (j.isObject = true ∧ fieldIs J.isString j k = true) ∧ P := by
  rw [passes_then fun s _ => h s, passes_valueStr]

theorem passes_parseExtension (hj : j.isObject = true) : Passes (parseExtension j) ↔ extensionReads j = true := by
  unfold parseExtension extensionReads
  simp only [Bool.and_eq_true, and_assoc]
  rw [passes_str hj fun _ => passes_str hj fun _ => passes_bool hj fun _ => passes_return _, and_true]

theorem passes_parseCapabilities :
    Passes (parseCapabilities j) ↔ fieldIs (fun c => !c.isObject || capabilitiesReads c) j "capabilities" = true := by
  unfold parseCapabilities
  rw [fieldIs_iff]
  cases hc : j.get? "capabilities" with
  | none => simp
  | some c =>
    simp only [Option.some.injEq, forall_eq']
    cases c with
    | obj fields =>
      unfold capabilitiesReads
      simp only [J.isObject, Bool.not_true, Bool.false_or, Bool.and_eq_true, and_assoc]
      rw [passes_bool rfl fun _ => passes_bool rfl fun _ => passes_bool rfl fun _ => passes_then fun _ _ => passes_return _,
        passes_mapM, and_true, List.all_eq_true]
      refine and_congr_right fun _ => and_congr_right fun _ => and_congr_right fun _ => forall₂_congr fun x hx => ?_
      exact passes_parseExtension (List.mem_filter.1 hx).2
    | _ => simp [J.isObject]

theorem passes_parseSkill : Passes (parseSkill j) ↔ skillReads j = true := by
  unfold parseSkill skillReads
  cases hj : j.isObject with
  | false => simp
  | true =>
    simp only [Bool.not_true, Bool.false_eq_true, if_false, Bool.false_or, Bool.and_eq_true, and_assoc]
    rw [passes_str hj fun _ => passes_str hj fun _ => passes_str hj fun _ => passes_return _, and_true]

theorem passes_parseInterface (hj : j.isObject = true) : Passes (parseInterface j) ↔ interfaceReads j = true := by
  unfold parseInterface interfaceReads
  simp only [Bool.and_eq_true, and_assoc]
  rw [passes_str hj fun _ => passes_str hj fun _ => passes_str hj fun _ => passes_str hj fun _ => passes_return _, and_true]

theorem passes_nestedScheme {base : SecurityScheme} : Passes (nestedScheme j base) ↔ nestedReads j = true := by
  unfold nestedScheme nestedReads
  cases j.get? "apiKeySecurityScheme" with
  | some v =>
    dsimp only
    rw [passes_strAny fun _ => passes_strAny fun _ => passes_return _]
    cases v.isObject <;> simp
  | none =>
    cases j.get? "httpAuthSecurityScheme" with
    | some v =>
      dsimp only
      rw [passes_strAny fun _ => passes_return _]
      cases v.isObject <;> simp
    | none =>
      refine iff_of_true ?_ rfl
      dsimp only
      repeat' split
      all_goals exact passes_pure _

theorem passes_parseScheme {name : Str} : Passes (parseScheme name j) ↔ schemeReads j = true := by
  unfold parseScheme schemeReads
  cases hj : j.isObject with
  | false => simp
  | true =>
    simp only [Bool.not_true, Bool.false_eq_true, if_false, Bool.false_or, Bool.and_eq_true, and_assoc]
    rw [passes_str hj fun _ => passes_str hj fun _ => passes_str hj fun _ => passes_str hj fun _ => passes_str hj fun _ =>
      passes_nestedScheme]

theorem passes_cardTail {card : AgentCard} :
    Passes (cardTail j card) ↔ ((fieldsOf (objectAt j "securitySchemes")).all fun f => schemeReads f.2) = true := by
  have hnamed : ∀ f : Str × J, Passes (namedScheme f) ↔ schemeReads f.2 = true := fun f => by
    unfold namedScheme
    rw [passes_then fun _ _ => passes_return _, passes_parseScheme, and_true]
  unfold cardTail
  rw [passes_then (P := True) fun _ _ => ?_, passes_mapM, and_true, List.all_eq_true]
  · exact forall₂_congr fun f _ => hnamed f
  · dsimp only
    split <;> exact passes_return _

theorem passes_cardHead : Passes (cardHead j) ↔
    fieldIs (fun c => !c.isObject || capabilitiesReads c) j "capabilities" = true ∧ (arrayAt j "skills").all skillReads = true ∧
      ((arrayAt j "supportedInterfaces").filter J.isObject).all interfaceReads = true := by
  unfold cardHead
  rw [passes_then fun _ _ => passes_then fun _ _ => passes_then fun _ _ => passes_return _, passes_parseCapabilities,
    passes_mapM, passes_mapM, and_true, List.all_eq_true, List.all_eq_true]
  refine and_congr_right fun _ => and_congr ?_ ?_
  · exact forall₂_congr fun _ _ => passes_parseSkill
  · exact forall₂_congr fun x hx => passes_parseInterface (List.mem_filter.1 hx).2

/-- A value is read as a card exactly if every field is of its type. -/
theorem passes_card : Passes (do cardTail j (← cardHead j) : Except Exception AgentCard) ↔ cardReads j = true := by
  unfold cardReads
  rw [passes_then fun _ _ => passes_cardTail, passes_cardHead]
  simp only [Bool.and_eq_true, and_assoc]

end Reads

/-! ## Cards that are read -/

section Cards

variable {j : J} {card head : AgentCard}

/-- A card that is not valid has an error. -/
theorem parseError_of_invalid (h : cardTail j head = .ok card) (hinvalid : card.valid = false) : card.parseError ≠ [] := by
  unfold cardTail at h
  obtain ⟨schemes, -, h⟩ := except_bind_ok h
  dsimp only at h
  split at h
  · cases h
    simp +decide
  · cases h
    dsimp only at hinvalid ⊢
    rw [hinvalid]
    decide

/-- What a card keeps for its snapshot. -/
structure SnapshotValid (card : AgentCard) : Prop where
  name : Utf8.valid card.name = true
  description : Utf8.valid card.description = true
  version : Utf8.valid card.version = true
  interfaces : ∀ i ∈ card.interfaces, Utf8.valid i.url = true ∧ Utf8.valid i.protocolBinding = true ∧
    Utf8.valid i.protocolVersion = true ∧ Utf8.valid i.tenant = true
  authSchemes : ∀ s ∈ card.authSchemes, Utf8.valid s = true

theorem valid_parseInterface {i : AgentInterface} (hutf : j.utf8 = true) (h : parseInterface j = .ok i) :
    Utf8.valid i.url = true ∧ Utf8.valid i.protocolBinding = true ∧ Utf8.valid i.protocolVersion = true ∧
      Utf8.valid i.tenant = true := by
  unfold parseInterface at h
  obtain ⟨url, hurl, h⟩ := except_bind_ok h
  obtain ⟨binding, hbinding, h⟩ := except_bind_ok h
  obtain ⟨version, hversion, h⟩ := except_bind_ok h
  obtain ⟨tenant, htenant, h⟩ := except_bind_ok h
  cases h
  exact ⟨valid_valueStr hutf rfl hurl, valid_valueStr hutf (by decide) hbinding, valid_valueStr hutf rfl hversion,
    valid_valueStr hutf rfl htenant⟩

theorem valid_fieldsOf (hutf : j.utf8 = true) (k : Str) : ∀ f ∈ fieldsOf (objectAt j k), Utf8.valid f.1 = true := by
  unfold objectAt
  split
  · rename_i fields hfields
    intro f hf
    exact (J.utf8Fields_iff.1 (J.utf8_get? hutf hfields) f hf).1
  · nofun

/-- A card that is read of UTF-8 can be kept. -/
theorem snapshotValid (hutf : j.utf8 = true) (hhead : cardHead j = .ok head) (h : cardTail j head = .ok card) :
    SnapshotValid card := by
  have hfrom : card.name = head.name ∧ card.description = head.description ∧ card.version = head.version ∧
      card.interfaces = head.interfaces ∧ ∀ s ∈ card.authSchemes, Utf8.valid s = true := by
    unfold cardTail at h
    obtain ⟨schemes, hschemes, h⟩ := except_bind_ok h
    have hauth : ∀ s ∈ schemes.map Prod.fst, Utf8.valid s = true := by
      intro s hs
      obtain ⟨scheme, hscheme, rfl⟩ := List.mem_map.1 hs
      obtain ⟨f, hf, hread⟩ := except_mapM_ok hschemes scheme hscheme
      unfold namedScheme at hread
      obtain ⟨parsed, -, hread⟩ := except_bind_ok hread
      cases hread
      exact valid_fieldsOf hutf _ f hf
    dsimp only at h
    split at h <;> cases h <;> exact ⟨rfl, rfl, rfl, rfl, hauth⟩
  obtain ⟨hname, hdescription, hversion, hinterfaces, hauth⟩ := hfrom
  unfold cardHead at hhead
  obtain ⟨⟨capabilities, extensions⟩, -, hhead⟩ := except_bind_ok hhead
  obtain ⟨skills, -, hhead⟩ := except_bind_ok hhead
  obtain ⟨interfaces, his, hhead⟩ := except_bind_ok hhead
  cases hhead
  refine ⟨?_, ?_, ?_, fun i hi => ?_, hauth⟩
  · rw [hname]
    exact valid_stringAt hutf
  · rw [hdescription]
    exact valid_stringAt hutf
  · rw [hversion]
    exact valid_stringAt hutf
  · rw [hinterfaces] at hi
    obtain ⟨x, hx, hread⟩ := except_mapM_ok his i hi
    exact valid_parseInterface (utf8_arrayAt hutf x (List.mem_of_mem_filter hx)) hread

end Cards
end A2ad.Client
