/-
Whether a card is valid and which of its interfaces an agent is called by. The two are decided in two
places: the one looks at extensions and versions, the other at bindings, versions and URLs.
-/
import A2ad.Task.Bindings

namespace A2ad.Client

open Bytes Json TaskManager

/-! ## Definitions -/

section Definitions

def knownBinding (i : AgentInterface) : Bool :=
  [lit "JSONRPC", lit "GRPC", lit "HTTP+JSON", lit "REST", lit "HTTP_JSON"].contains (upper i.protocolBinding)

/-- The version is 1.x or missing. -/
def speaksV1 (i : AgentInterface) : Bool := i.protocolVersion.isEmpty || isV1 i.protocolVersion

def needsExtension (card : AgentCard) : Bool := card.extensions.any AgentExtension.required

/-- An agent with a valid card is called by a supported interface that the card lists, up to the URL of a
local host; an agent whose card is not valid is called by no interface of it. -/
structure Agrees (a : Agent) (card : AgentCard) : Prop where
  selects : card.valid = true → card.interfaces ≠ [] → ∃ i ∈ card.interfaces,
    knownBinding i = true ∧ speaksV1 i = true ∧ a.effectiveInterface = some (rewriteLocal a.endpoint i)
  refuses : card.valid = false → ∀ i ∈ card.interfaces, a.effectiveInterface ≠ some (rewriteLocal a.endpoint i)

/-- Where a version is supported, a whole interface is; and a card that needs an extension has none that is. -/
structure Consistent (card : AgentCard) : Prop where
  whole : needsExtension card = false → card.interfaces.any speaksV1 = true → card.interfaces.any supported = true
  extended : needsExtension card = true → card.interfaces.any supported = false

end Definitions

/-! ## Validity -/

section Validity

variable {j : J} {card head : AgentCard} {a : Agent} {i : AgentInterface}

theorem supported_eq (i : AgentInterface) : supported i = (knownBinding i && speaksV1 i && !i.url.isEmpty) := rfl

theorem valid_eq (h : cardTail j head = .ok card) :
    card.valid = (!needsExtension card && (card.interfaces.isEmpty || card.interfaces.any speaksV1)) := by
  unfold cardTail at h
  obtain ⟨schemes, -, h⟩ := Tx.except_bind_ok h
  dsimp only at h
  split at h
  · rename_i extension hneeded
    cases h
    have hany : needsExtension head = true :=
      List.any_eq_true.2 ⟨extension, List.mem_of_find?_eq_some hneeded, List.find?_some hneeded⟩
    show false = (!needsExtension head && _)
    rw [hany]
    rfl
  · rename_i hnone
    cases h
    have hany : needsExtension head = false := by
      refine Bool.not_eq_true _ ▸ fun hany => ?_
      obtain ⟨extension, hmem, hrequired⟩ := List.any_eq_true.1 hany
      exact List.find?_eq_none.1 hnone extension hmem hrequired
    show _ = (!needsExtension head && _)
    rw [hany]
    rfl

theorem effective_supported (ha : a.card = some card) (h : card.interfaces.find? supported = some i) :
    a.effectiveInterface = some (rewriteLocal a.endpoint i) := by
  unfold Agent.effectiveInterface
  rw [ha, Option.bind_some, h]

theorem effective_fallback (ha : a.card = some card) (h : card.interfaces.any supported = false) :
    a.effectiveInterface = if a.endpoint.isEmpty then none else some ⟨a.endpoint, "JSONRPC", "1.0", []⟩ := by
  have hnone : card.interfaces.find? supported = none := by
    refine List.find?_eq_none.2 fun i hi hs => ?_
    rw [List.any_eq_true.2 ⟨i, hi, hs⟩] at h
    cases h
  unfold Agent.effectiveInterface
  rw [ha, Option.bind_some, hnone]

/-- An interface without a URL is none that the fallback could be taken for. -/
theorem rewriteLocal_unsupported (hbinding : knownBinding i = true) (hversion : speaksV1 i = true)
    (h : supported i = false) (endpoint : Str) : (rewriteLocal endpoint i).url = [] := by
  have hurl : i.url = [] := by
    rw [supported_eq, hbinding, hversion] at h
    simpa using h
  unfold rewriteLocal
  rw [hurl, show isLocalOnlyUrl [] = false by decide, Bool.and_false, if_neg Bool.false_ne_true, hurl]

theorem fallback_unlisted (hbinding : knownBinding i = true) (hversion : speaksV1 i = true) (h : supported i = false) :
    (if a.endpoint.isEmpty then none else some ⟨a.endpoint, "JSONRPC", "1.0", []⟩ : Option AgentInterface) ≠
      some (rewriteLocal a.endpoint i) := by
  split
  · exact nofun
  · rename_i hendpoint
    intro hsame
    have hurl := congrArg AgentInterface.url (Option.some.inj hsame)
    rw [rewriteLocal_unsupported hbinding hversion h] at hurl
    exact hendpoint (List.isEmpty_iff.2 hurl)

end Validity

/-- **Validity and selection agree exactly on consistent cards.** For every card that a discovery accepts and
every agent with it, whatever its endpoint. -/
theorem selection_agrees_iff (E : Env) (endpoint : Str) (s s' : World) (card : AgentCard)
    (haccepted : servedCard E (candidates endpoint) s ≠ none) (hfound : discover E endpoint s = .ok card s') (a : Agent)
    (ha : a.card = some card) : Agrees a card ↔ Consistent card := by
  have hvalid : card.valid = (!needsExtension card && (card.interfaces.isEmpty || card.interfaces.any speaksV1)) := by
    obtain ⟨w, -, hrun⟩ := candidates_run (E := E) endpoint s
    obtain ⟨j, hj⟩ := Option.ne_none_iff_exists'.1 haccepted
    rw [hj, hfound] at hrun
    cases hread : readServed (some j) with
    | error e =>
      rw [hread] at hrun
      cases hrun
    | ok card' =>
      rw [hread] at hrun
      cases hrun
      obtain ⟨head, -, htail⟩ := Tx.except_bind_ok (show (cardHead j >>= cardTail j) = .ok card from hread)
      exact valid_eq htail
  constructor
  · rintro ⟨hselects, hrefuses⟩
    refine ⟨fun hplain hv1 => ?_, fun hneeded => ?_⟩
    · have hne : card.interfaces ≠ [] := by
        intro hnil
        rw [hnil] at hv1
        cases hv1
      obtain ⟨i, hi, hbinding, hversion, heffective⟩ := hselects (by rw [hvalid, hplain, hv1]; simp) hne
      by_contra hnone
      rw [Bool.not_eq_true] at hnone
      have hi : supported i = false := List.any_eq_false.1 hnone i hi |> Bool.eq_false_iff.2
      -- the fallback is the configured endpoint, which is supported if the card lists it
      rw [effective_fallback ha hnone] at heffective
      exact fallback_unlisted hbinding hversion hi heffective
    · by_contra hsome
      obtain ⟨i, hi⟩ := Option.isSome_iff_exists.1 (List.find?_isSome.2 (List.any_eq_true.1 (Bool.not_eq_false _ ▸ hsome)))
      exact hrefuses (by rw [hvalid, hneeded]; rfl) i (List.mem_of_find?_eq_some hi) (effective_supported ha hi)
  · rintro ⟨hwhole, hextended⟩
    refine ⟨fun hval hne => ?_, fun hval i hi => ?_⟩
    · rw [hvalid, Bool.and_eq_true, Bool.or_eq_true] at hval
      have hv1 := hval.2.resolve_left (by simpa using hne)
      obtain ⟨i, hi⟩ := Option.isSome_iff_exists.1
        (List.find?_isSome.2 (List.any_eq_true.1 (hwhole (by simpa using hval.1) hv1)))
      have hsupported := List.find?_some hi
      rw [supported_eq, Bool.and_eq_true, Bool.and_eq_true] at hsupported
      exact ⟨i, List.mem_of_find?_eq_some hi, hsupported.1.1, hsupported.1.2, effective_supported ha hi⟩
    · have hnone : card.interfaces.any supported = false := by
        cases hneeded : needsExtension card with
        | true => exact hextended hneeded
        | false =>
          -- not valid without an extension: no version is supported
          rw [hvalid, hneeded, Bool.not_false, Bool.true_and, Bool.or_eq_false_iff] at hval
          refine List.any_eq_false.2 fun k hk hsupported => ?_
          rw [supported_eq, Bool.and_eq_true, Bool.and_eq_true] at hsupported
          exact List.any_eq_false.1 hval.2 k hk hsupported.1.2
      rw [effective_fallback ha hnone]
      intro hsame
      split at hsame
      · cases hsame
      · rename_i hendpoint
        have hi' : supported i = false := List.any_eq_false.1 hnone i hi |> Bool.eq_false_iff.2
        have hrest : ∀ k, rewriteLocal a.endpoint k = ⟨a.endpoint, "JSONRPC", "1.0", []⟩ →
            k.protocolBinding = lit "JSONRPC" ∧ k.protocolVersion = lit "1.0" := by
          intro k hk
          unfold rewriteLocal at hk
          split at hk
          · exact ⟨congrArg AgentInterface.protocolBinding hk, congrArg AgentInterface.protocolVersion hk⟩
          · exact ⟨congrArg AgentInterface.protocolBinding hk, congrArg AgentInterface.protocolVersion hk⟩
        obtain ⟨hbinding, hversion⟩ := hrest i (Option.some.inj hsame).symm
        have hb : knownBinding i = true := by
          unfold knownBinding
          rw [hbinding]
          decide
        have hv : speaksV1 i = true := by
          unfold speaksV1
          rw [hversion]
          decide
        refine fallback_unlisted (a := a) hb hv hi' ?_
        rw [if_neg hendpoint]
        exact hsame

/-! ### A card that needs an extension -/

/-- A card with one interface and one extension. -/
def extendedCard (required : Bool) : J := .object [("name", .str "extended"),
  ("capabilities", .object [("extensions", .arr [.object [("uri", .str "urn:required:unknown"), ("required", .bool required)]])]),
  ("supportedInterfaces", .arr [.object [("url", .str "https://agent/a2a"), ("protocolBinding", .str "JSONRPC"),
    ("protocolVersion", .str "1.0")]])]

/-- Every URL serves the card. -/
def serving (card : J) : Env := { Env.offline [card] with http := fun _ _ => { status := 200, body := card.text } }

def agentAt (endpoint : Str) (card : AgentCard) : Agent := { endpoint := endpoint, card := some card }

/-- What decides about a card that is found. -/
def verdict (card : J) : Option (Bool × List AgentInterface) :=
  (Tx.result? (discover (serving card) "https://agent/a2a" {})).map fun card => (card.valid, card.interfaces)

/-- The interface of a card that is not valid is the one the agent is called by. -/
theorem extended_selected : verdict (extendedCard true) = some (false, [⟨"https://agent/a2a", "JSONRPC", "1.0", []⟩]) ∧
    ∃ card s', discover (serving (extendedCard true)) "https://agent/a2a" {} = .ok card s' ∧
      (agentAt "https://agent/a2a" card).effectiveInterface = some ⟨"https://agent/a2a", "JSONRPC", "1.0", []⟩ ∧
      ¬ Agrees (agentAt "https://agent/a2a" card) card := by
  have hverdict : verdict (extendedCard true) = some (false, [⟨"https://agent/a2a", "JSONRPC", "1.0", []⟩]) := by decide +kernel
  obtain ⟨card, hcard, hboth⟩ := Option.map_eq_some_iff.1 hverdict
  obtain ⟨hinvalid, hlisted⟩ := Prod.mk.inj hboth
  have heffective : (agentAt "https://agent/a2a" card).effectiveInterface =
      some (rewriteLocal "https://agent/a2a" ⟨"https://agent/a2a", "JSONRPC", "1.0", []⟩) := by
    refine effective_supported (show _ = some card from rfl) ?_
    rw [hlisted]
    decide
  refine ⟨hverdict, card, _, Tx.ok_of_result hcard, heffective.trans (by decide), fun h => ?_⟩
  exact h.refuses hinvalid _ (by rw [hlisted]; exact List.mem_singleton.2 rfl) heffective

/-- Without the need the card is valid and its interface is selected. -/
theorem selection_agrees_optional : ∃ card s', discover (serving (extendedCard false)) "https://agent/a2a" {} = .ok card s' ∧
    Agrees (agentAt "https://agent/a2a" card) card := by
  have hfound : (Tx.result? (discover (serving (extendedCard false)) "https://agent/a2a" {})).map
      (fun card => (needsExtension card, card.interfaces.any supported)) = some (false, true) := by decide +kernel
  obtain ⟨card, hcard, hboth⟩ := Option.map_eq_some_iff.1 hfound
  obtain ⟨hplain, hsupported⟩ := Prod.mk.inj hboth
  have hrun := Tx.ok_of_result hcard
  have hserved : (servedCard (serving (extendedCard false)) (candidates "https://agent/a2a") {}).isSome = true := by decide +kernel
  refine ⟨card, _, hrun, (selection_agrees_iff (serving (extendedCard false)) "https://agent/a2a" {} _ card
    (Option.isSome_iff_ne_none.1 hserved) hrun (agentAt "https://agent/a2a" card) rfl).2 ⟨fun _ _ => hsupported, fun hneeded => ?_⟩⟩
  rw [hplain] at hneeded
  cases hneeded

end A2ad.Client
