/-
Credentials of a call: which configured references an agent's card asks for, and how the secret of
each is placed in the request.
-/
import A2ad.Daemon.State

namespace A2ad.Client

open Bytes Json

/-- A scheme the references are matched with, and how it wants its secret. -/
structure Placement where
  scheme : Str
  location : Str
  parameter : Str

/-- What the reference says, completed by what the card advertises. -/
def placement (reference : AuthReference) (advertised : Option SecurityScheme) : Placement :=
  let orElse (own other : Str) : Str := if own.isEmpty then other else own
  match advertised with
  | none => ⟨reference.scheme, reference.location, reference.parameter⟩
  | some a => ⟨orElse reference.scheme (if a.type = lit "http" then a.scheme else a.type),
      orElse reference.location a.location, orElse reference.parameter a.parameter⟩

def bearerPrefix : Str := "Bearer "

/-- The secret of a resolved credential, which the provider returns as a bearer header. -/
def secretOf (resolved : AuthSpec) : Str :=
  if bearerPrefix.isPrefixOf resolved.headerValue then resolved.headerValue.drop bearerPrefix.length
  else resolved.headerValue

def addHeader (auth : AuthSpec) (name value : Str) : AuthSpec :=
  if value.isEmpty then auth
  else if auth.headerValue.isEmpty then { auth with headerName := name, headerValue := value }
  else { auth with extraHeaders := auth.extraHeaders ++ [(name, value)] }

/-- Where the secret goes, by the scheme in lower case. -/
def placeSecret (auth : AuthSpec) (resolved : AuthSpec) (p : Placement) : AuthSpec :=
  let secret := secretOf resolved
  let scheme := lower p.scheme
  if scheme = lit "apikey" then
    if p.location = lit "query" then
      if auth.queryName.isEmpty then { auth with queryName := p.parameter, queryValue := secret }
      else { auth with extraQuery := auth.extraQuery ++ [(p.parameter, secret)] }
    else if p.location = lit "cookie" then
      let start := if auth.cookieValue.isEmpty then [] else auth.cookieValue ++ lit "; "
      { auth with cookieValue := start ++ (if p.parameter.isEmpty then lit "api_key" else p.parameter) ++ [61] ++ secret }
    else addHeader auth (if p.parameter.isEmpty then "X-API-Key" else p.parameter) secret
  else if scheme = lit "basic" then addHeader auth resolved.headerName (lit "Basic " ++ secret)
  else if !scheme.isEmpty && !([lit "bearer", lit "oauth2", lit "openidconnect"].contains scheme) then
    addHeader auth resolved.headerName (p.scheme ++ [32] ++ secret)
  else addHeader auth resolved.headerName resolved.headerValue

def applyCredential (auth resolved : AuthSpec) (reference : AuthReference) (advertised : Option SecurityScheme) :
    AuthSpec :=
  let auth := placeSecret auth resolved (placement reference advertised)
  let auth := if reference.clientCert.isEmpty then auth else { auth with clientCertFile := reference.clientCert }
  let auth := if reference.clientKey.isEmpty then auth else { auth with clientKeyFile := reference.clientKey }
  { auth with active := auth.active || resolved.active || !reference.clientCert.isEmpty }

def withCookie (auth : AuthSpec) : AuthSpec :=
  if auth.cookieValue.isEmpty then auth
  else { auth with extraHeaders := auth.extraHeaders ++ [(lit "Cookie", auth.cookieValue)] }

def AgentCard.scheme (card : AgentCard) (name : Str) : Option SecurityScheme :=
  (card.securitySchemes.find? fun s => s.1 = name).map Prod.snd

/-- The schemes of the first requirement the configuration can satisfy. Without a requirement on
the card the first configured scheme is taken. -/
def selectedSchemes (configured : List (Str × AuthReference)) (card : Option AgentCard) : Option (List Str) :=
  match card.filter fun c => !c.securityRequirements.isEmpty with
  | some card =>
    (card.securityRequirements.find? fun r => r.all fun s => configured.any fun c => c.1 = s.1).map fun r => r.map Prod.fst
  | none => some (configured.head?.toList.map Prod.fst)

/-- The references of the selected schemes in turn; the first that cannot be resolved ends it. -/
def applySchemes (resolve : Str → Str → AuthSpec) (configured : List (Str × AuthReference)) (card : Option AgentCard)
    (auth : AuthSpec) : List Str → AuthSpec
  | [] => withCookie auth
  | name :: rest =>
    let reference := ((configured.find? fun c => c.1 = name).map Prod.snd).getD {}
    let resolved := resolve reference.type reference.name
    if !resolved.active && reference.clientCert.isEmpty then { auth with scheme := "error", active := false }
    else
      let advertised := card.bind fun c => c.scheme name
      applySchemes resolve configured card (applyCredential auth resolved reference advertised) rest

/-- The scheme a flat reference is taken for: that of the first single requirement, or the only one. -/
def flatScheme (card : AgentCard) : Option SecurityScheme :=
  let single := card.securityRequirements.findSome? fun r =>
    match r with
    | [s] => card.scheme s.1
    | _ => none
  match single, card.securitySchemes with
  | some s, _ => some s
  | none, [s] => some s.2
  | none, _ => none

/-- The credentials `resolveEndpoint` leaves for an agent. -/
def resolveAuth (E : Env) (id : Str) (a : Agent) : AuthSpec :=
  match E.config.agent id with
  | none => {}
  | some configured =>
    if configured.authSchemes.isEmpty then
      let resolved := E.resolve configured.auth.type configured.auth.name
      let advertised := if configured.auth.scheme.isEmpty then a.card.bind flatScheme else none
      withCookie (applyCredential {} resolved configured.auth advertised)
    else
      match selectedSchemes configured.authSchemes a.card with
      | none => { scheme := "error" }
      | some names => applySchemes E.resolve configured.authSchemes a.card {} names

end A2ad.Client
