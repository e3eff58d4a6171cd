/-
Agent cards: their decoding, their validity, and the interface an agent is called by.
-/
import A2ad.Client.Decode
import A2ad.Client.Wire

namespace A2ad.Client

open Bytes Json

/-! ## Cards -/

structure AgentInterface where
  url : Str := []
  protocolBinding : Str := []
  protocolVersion : Str := []
  tenant : Str := []
deriving DecidableEq

structure SecurityScheme where
  name : Str := []
  type : Str := []
  scheme : Str := []
  location : Str := []
  parameter : Str := []
deriving DecidableEq

structure AgentSkill where
  id : Str := []
  name : Str := []
  description : Str := []
  tags : List Str := []
deriving DecidableEq

structure AgentCapabilities where
  streaming : Bool := false
  pushNotifications : Bool := false
  extendedAgentCard : Bool := false
deriving DecidableEq

structure AgentExtension where
  uri : Str := []
  description : Str := []
  required : Bool := false
  params : J := .obj []
deriving DecidableEq

/-- A decoded card. Schemes, and the schemes of a requirement with their scopes, are in name order. -/
structure AgentCard where
  name : Str := []
  description : Str := []
  version : Str := []
  capabilities : AgentCapabilities := {}
  extensions : List AgentExtension := []
  skills : List AgentSkill := []
  interfaces : List AgentInterface := []
  inputModes : List Str := []
  outputModes : List Str := []
  authSchemes : List Str := []
  securitySchemes : List (Str × SecurityScheme) := []
  securityRequirements : List (List (Str × List Str)) := []
  warnings : List Str := []
  raw : J := .obj []
  valid : Bool := false
  parseError : Str := []
deriving DecidableEq

structure Agent where
  id : Str := []
  endpoint : Str := []
  hostLabel : Str := []
  card : Option AgentCard := none
  available : Bool := false
  lastError : Str := []
deriving DecidableEq

/-! ## Decoding -/

def parseExtension (j : J) : Except Exception AgentExtension := do
  let uri ← j.valueStr "uri" ""
  let description ← j.valueStr "description" ""
  let required ← j.valueBool "required" false
  return { uri := uri, description := description, required := required, params := objectAt j "params" }

def parseCapabilities (j : J) : Except Exception (AgentCapabilities × List AgentExtension) :=
  match j.get? "capabilities" with
  | some (.obj fields) => do
    let c := J.obj fields
    let streaming ← c.valueBool "streaming" false
    let push ← c.valueBool "pushNotifications" false
    let extended ← c.valueBool "extendedAgentCard" false
    let extensions ← ((arrayAt c "extensions").filter J.isObject).mapM parseExtension
    return (⟨streaming, push, extended⟩, extensions)
  | _ => return ({}, [])

def parseSkill (j : J) : Except Exception AgentSkill := do
  if !j.isObject then return {}
  let id ← j.valueStr "id" ""
  let name ← j.valueStr "name" ""
  let description ← j.valueStr "description" ""
  return { id := id, name := name, description := description, tags := stringsAt j "tags" }

def parseInterface (j : J) : Except Exception AgentInterface := do
  let url ← j.valueStr "url" ""
  let binding ← j.valueStr "protocolBinding" "jsonrpc"
  let version ← j.valueStr "protocolVersion" ""
  let tenant ← j.valueStr "tenant" ""
  return ⟨url, binding, version, tenant⟩

/-- A card up to its interfaces, which are registered before the rest is decoded. -/
def cardHead (j : J) : Except Exception AgentCard := do
  let (capabilities, extensions) ← parseCapabilities j
  let skills ← (arrayAt j "skills").mapM parseSkill
  let interfaces ← ((arrayAt j "supportedInterfaces").filter J.isObject).mapM parseInterface
  return {
    raw := j, name := stringAt j "name", description := stringAt j "description", version := stringAt j "version"
    capabilities := capabilities, extensions := extensions, skills := skills, interfaces := interfaces }

/-- What a scheme object says under one of the names that current cards nest it in. -/
def nestedScheme (j : J) (base : SecurityScheme) : Except Exception SecurityScheme :=
  match j.get? "apiKeySecurityScheme", j.get? "httpAuthSecurityScheme" with
  | some v, _ => do
    let location ← v.valueStr "location" ""
    let parameter ← v.valueStr "name" ""
    return { base with type := "apiKey", location := location, parameter := parameter }
  | none, some v => do
    let scheme ← v.valueStr "scheme" ""
    return { base with type := "http", scheme := scheme }
  | none, none =>
    if j.contains "oauth2SecurityScheme" then return { base with type := "oauth2" }
    else if j.contains "openIdConnectSecurityScheme" then return { base with type := "openIdConnect" }
    else if j.contains "mtlsSecurityScheme" then return { base with type := "mutualTLS" }
    else return base

def parseScheme (name : Str) (j : J) : Except Exception SecurityScheme := do
  if !j.isObject then return { name := name }
  let type ← j.valueStr "type" ""
  let scheme ← j.valueStr "scheme" ""
  let location ← j.valueStr "location" ""
  let location ← j.valueStr "in" location
  let parameter ← j.valueStr "name" ""
  nestedScheme j ⟨name, type, scheme, location, parameter⟩

def namedScheme (f : Str × J) : Except Exception (Str × SecurityScheme) := return (f.1, ← parseScheme f.1 f.2)

def fieldsOf : J → List (Str × J)
  | .obj fields => fields
  | _ => []

/-- The scopes of a scheme: an array, or an array under `list`. -/
def scopes (j : J) : List Str :=
  let values := if j.isObject then (j.get? "list").getD j else j
  match values with
  | .arr xs => xs.filterMap fun
    | .str s => some s
    | _ => none
  | _ => []

def parseRequirement (j : J) : List (Str × List Str) :=
  let source := if isObjectAt j "schemes" then (j.get? "schemes").getD .null else j
  (fieldsOf source).map fun f => (f.1, scopes f.2)

def parseRequirements (j : J) : List (List (Str × List Str)) :=
  let key := if j.contains "securityRequirements" then lit "securityRequirements" else lit "security"
  ((arrayAt j key).filter J.isObject).map parseRequirement

/-- The version says 1 or 1.x; a missing version is taken for 1.0. -/
def isV1 (version : Str) : Bool := version == lit "1" || (lit "1.").isPrefixOf version

def cardWarnings (j : J) (card : AgentCard) (hasV1 : Bool) : List Str :=
  let missing (absent : Bool) (text : Str) : List Str := if absent then [text] else []
  missing card.description.isEmpty "nonconforming Agent Card: required description is missing" ++
    missing card.version.isEmpty "nonconforming Agent Card: required version is missing" ++
    missing card.interfaces.isEmpty
      "nonconforming Agent Card: no supportedInterfaces were advertised; using configured endpoint" ++
    missing (!j.contains "capabilities") "nonconforming Agent Card: required capabilities are missing" ++
    missing card.inputModes.isEmpty "nonconforming Agent Card: required defaultInputModes are missing" ++
    missing card.outputModes.isEmpty "nonconforming Agent Card: required defaultOutputModes are missing" ++
    missing card.skills.isEmpty "nonconforming Agent Card: required skills are missing" ++
    card.interfaces.flatMap (fun i => missing i.protocolVersion.isEmpty
      "nonconforming Agent Card: interface protocolVersion is missing; assuming 1.0") ++
    missing (!hasV1) "Agent Card does not advertise an A2A v1.x interface" ++
    missing (!(arrayAt j "signatures").isEmpty)
      "Agent Card signatures were not verified because no trusted verification key is configured"

/-- The rest of a card: modes, security, warnings and validity. -/
def cardTail (j : J) (card : AgentCard) : Except Exception AgentCard := do
  let schemes ← (fieldsOf (objectAt j "securitySchemes")).mapM namedScheme
  let card : AgentCard := { card with
    inputModes := stringsAt j "defaultInputModes", outputModes := stringsAt j "defaultOutputModes"
    authSchemes := schemes.map Prod.fst, securitySchemes := schemes, securityRequirements := parseRequirements j }
  let hasV1 := card.interfaces.isEmpty || card.interfaces.any fun i => i.protocolVersion.isEmpty || isV1 i.protocolVersion
  let card : AgentCard := { card with warnings := cardWarnings j card hasV1 }
  match card.extensions.find? AgentExtension.required with
  | some extension =>
    return { card with
      valid := false, parseError := lit "Agent Card requires unsupported extension: " ++ extension.uri }
  | none =>
    return { card with
      valid := hasV1, parseError := if hasV1 then [] else "Agent Card has no supported A2A v1.x interface" }

/-- A value is taken for a card if it is an object with a name. -/
def isCard (j : J) : Bool := !(stringAt j "name").isEmpty

/-! ## Interfaces -/

/-- The client speaks the binding, the version is 1.x, and there is a URL. -/
def supported (i : AgentInterface) : Bool :=
  let binding := upper i.protocolBinding
  let known := [lit "JSONRPC", lit "GRPC", lit "HTTP+JSON", lit "REST", lit "HTTP_JSON"].contains binding
  known && (i.protocolVersion.isEmpty || isV1 i.protocolVersion) && !i.url.isEmpty

def urlHost (url : Str) : Str :=
  match splitAt? "://" url with
  | none => []
  | some (_, rest) =>
    let authority := afterLast 64 (rest.takeWhile fun c => c ≠ 47 ∧ c ≠ 63 ∧ c ≠ 35)
    match authority with
    | 91 :: literal => if literal.contains 93 then literal.takeWhile (· ≠ 93) else []
    | _ => lower (authority.takeWhile (· ≠ 58))

def isLocalOnlyUrl (url : Str) : Bool :=
  let host := urlHost url
  [lit "localhost", lit "::", lit "::1", lit "0.0.0.0"].contains host ||
    (host.length > 10 && (lit ".localhost").isSuffixOf host) || (lit "127.").isPrefixOf host

/-- A card of a public agent cannot send calls to the local host: they go to the configured endpoint. -/
def rewriteLocal (endpoint : Str) (i : AgentInterface) : AgentInterface :=
  if !endpoint.isEmpty && !isLocalOnlyUrl endpoint && isLocalOnlyUrl i.url then { i with url := endpoint } else i

namespace Agent

def effectiveInterface (a : Agent) : Option AgentInterface :=
  match a.card.bind fun card => card.interfaces.find? supported with
  | some i => some (rewriteLocal a.endpoint i)
  | none => if a.endpoint.isEmpty then none else some ⟨a.endpoint, "JSONRPC", "1.0", []⟩

def effectiveEndpoint (a : Agent) : Str :=
  match a.effectiveInterface with
  | some i => i.url
  | none => a.endpoint

def supportsStreaming (a : Agent) : Bool := (a.card.map (·.capabilities.streaming)).getD false

end Agent

/-- The wire information an interface stands for. -/
def AgentInterface.info (i : AgentInterface) : BindingInfo where
  binding := if i.protocolBinding.isEmpty then "JSONRPC" else i.protocolBinding
  version := if i.protocolVersion.isEmpty then "1.0" else i.protocolVersion
  tenant := i.tenant

/-! ## Candidates -/

def wellKnown : Str := "/.well-known/agent-card.json"

/-- The origin of an endpoint and the path after it. -/
def splitOrigin (url : Str) : Str × Str :=
  match splitAt? "://" url with
  | none => (url, [])
  | some (scheme, rest) =>
    let path := rest.dropWhile (· ≠ 47)
    if path.isEmpty then (url, []) else (scheme ++ lit "://" ++ rest.takeWhile (· ≠ 47), path)

/-- The URLs a card is looked for at, in order. -/
def candidates (endpoint : Str) : List Str :=
  let (origin, rest) := splitOrigin endpoint
  if !rest.isEmpty && rest ≠ [47] then
    [origin ++ wellKnown, endpoint.rdropWhile (· = 47) ++ wellKnown, endpoint]
  else [origin ++ wellKnown, origin]

example : candidates "https://h/a/" = ["https://h/.well-known/agent-card.json",
    "https://h/a/.well-known/agent-card.json", "https://h/a/"].map lit := by decide

end A2ad.Client
