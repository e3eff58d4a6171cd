/-
A requirement whose credentials are all there: the credential the card asks for with each scheme,
and exactly when the request carries these and no others.
-/
import A2ad.Task.Withheld

namespace A2ad.Client

open Bytes Json TaskManager

/-! ## The provider -/

/-- The first line that is not empty without its carriage return. -/
def firstLine (lines : List Str) : Option Str :=
  (lines.map fun line => if line.getLast? = some 13 then line.dropLast else line).find? fun line => !line.isEmpty

/-- The provider has a secret, which it returns as a bearer header, or nothing. -/
inductive Supplies : AuthSpec → Str → Prop
  | secret {spec : AuthSpec} {s : Str} (set : s ≠ []) (active : spec.active = true) (name : spec.headerName = lit "Authorization")
      (value : spec.headerValue = bearerPrefix ++ s) : Supplies spec s
  | nothing {spec : AuthSpec} (active : spec.active = false) (name : spec.headerName = []) (value : spec.headerValue = []) :
      Supplies spec []

/-- The characters of a token: names of headers, cookies and schemes. -/
def isTokenChar (c : UInt8) : Bool :=
  isDigit c || (65 ≤ c && c ≤ 90) || (97 ≤ c && c ≤ 122) || (lit "!#$%&'*+-.^_`|~").contains c

def isToken (s : Str) : Bool := !s.isEmpty && s.all isTokenChar

/-- A text that may stand in a header: no control characters but tabs. -/
def isFieldText (s : Str) : Bool := !s.isEmpty && s.all fun c => c == 9 || (32 ≤ c && c != 127)

/-- A text that may be the value of a cookie. -/
def isCookieText (s : Str) : Bool :=
  !s.isEmpty && s.all fun c => 33 ≤ c && c < 127 && c != 34 && c != 44 && c != 59 && c != 92

/-- The headers the transport takes for itself: the files of the client certificate and its key. -/
def isReserved (name : Str) : Bool := name = lit "X-A2AD-Client-Cert-File" || name = lit "X-A2AD-Client-Key-File"

/-- A credential as a request carries it. -/
inductive Carried
  | place (p : Place)
  | certificate (file : Str)

namespace Carried

def header? : Carried → Option (Str × Str)
  | place p => p.header?
  | certificate _ => none

def query? : Carried → Option (Str × Str)
  | place p => p.query?
  | certificate _ => none

def cookie? : Carried → Option (Str × Str)
  | place p => p.cookie?
  | certificate _ => none

end Carried

/-- The credential that a scheme of the card asks for, well formed: a scheme word in any case with the
secret, the secret under the name the card gives (a header's in any case), or the client certificate. -/
inductive Asks (s : SecurityScheme) (secret cert : Str) : Carried → Prop
  | http {word : Str} (type : s.type = lit "http") (same : lower word = lower s.scheme) (token : isToken word = true)
      (text : isFieldText secret = true) : Asks s secret cert (.place (.header (lit "Authorization") (word ++ [32] ++ secret)))
  | bearer {word : Str} (type : s.type = lit "oauth2" ∨ s.type = lit "openIdConnect") (same : lower word = lit "bearer")
      (text : isFieldText secret = true) : Asks s secret cert (.place (.header (lit "Authorization") (word ++ [32] ++ secret)))
  | header {name : Str} (type : s.type = lit "apiKey") (location : s.location = lit "header")
      (same : lower name = lower s.parameter) (token : isToken s.parameter = true) (free : isReserved name = false)
      (text : isFieldText secret = true) : Asks s secret cert (.place (.header name secret))
  | query (type : s.type = lit "apiKey") (location : s.location = lit "query") (named : s.parameter ≠ [])
      (set : secret ≠ []) : Asks s secret cert (.place (.query s.parameter secret))
  | cookie (type : s.type = lit "apiKey") (location : s.location = lit "cookie") (token : isToken s.parameter = true)
      (text : isCookieText secret = true) : Asks s secret cert (.place (.cookie s.parameter secret))
  | certificate (type : s.type = lit "mutualTLS") (set : cert ≠ []) : Asks s secret cert (.certificate cert)

/-- The credential is the one that the scheme's entry on the card asks for. -/
def Credential.Asks (c : Credential) (x : Carried) : Prop :=
  ∃ s, c.advertised = some s ∧ Client.Asks s (secretOf c.resolved) c.reference.clientCert x

def renderCookie (c : Str × Str) : Str := c.1 ++ [61] ++ c.2

/-- What the requests made with the spec carry, in any order: these headers, apart from that of the cookies, these
query parameters and cookies, and this client certificate where there is to be one. -/
structure Carries (auth : AuthSpec) (xs : List Carried) : Prop where
  headers : (auth.headerList.filter fun h => !isReserved h.1).Perm (xs.filterMap Carried.header?)
  queries : (auth.queryList.filter fun q => !q.2.isEmpty).Perm (xs.filterMap Carried.query?)
  cookies : ∃ order : List (Str × Str), order.Perm (xs.filterMap Carried.cookie?) ∧
    auth.cookieValue = (lit "; ").intercalate (order.map renderCookie)
  certificates : ∀ file, .certificate file ∈ xs → auth.clientCertFile = file

/-- The same, all in the order of the schemes. -/
structure Exactly (auth : AuthSpec) (xs : List Carried) : Prop where
  headers : (auth.headerList.filter fun h => !isReserved h.1) = xs.filterMap Carried.header?
  queries : (auth.queryList.filter fun q => !q.2.isEmpty) = xs.filterMap Carried.query?
  cookies : auth.cookieValue = (lit "; ").intercalate ((xs.filterMap Carried.cookie?).map renderCookie)
  certificates : ∀ file, .certificate file ∈ xs → auth.clientCertFile = file

/-- The spec of the schemes carries exactly what the card asks for with each of them. -/
def SentAsAsked (cs : List Credential) : Prop := ∃ xs, List.Forall₂ Credential.Asks cs xs ∧ Carries (collected cs) xs

def SentInOrder (cs : List Credential) : Prop := ∃ xs, List.Forall₂ Credential.Asks cs xs ∧ Exactly (collected cs) xs

/-! ## When it is sent -/

/-- The word in front of the secret. -/
def schemeWord (scheme : Str) : Str :=
  if lower scheme = lit "basic" then "Basic"
  else if !(lower scheme).isEmpty && !([lit "bearer", lit "oauth2", lit "openidconnect"].contains (lower scheme)) then scheme
  else "Bearer"

/-- The secret goes nowhere: it is no header but one the transport takes, no cookie, and no query parameter
but one without a value, or one that is lost for want of a name. -/
structure Nowhere (earlier : List Credential) (p : Place) : Prop where
  header : ∀ h, p.header? = some h → isReserved h.1 = true
  cookie : p.cookie? = none
  query : ∀ q, p.query? = some q → q.2 = [] ∨ q.1 = [] ∧ queriesIn (placesOf earlier) = []

/-- The scheme `s` with its placement after the configuration's overrides: the overrides agree with the card,
and a client certificate comes without anything else. -/
inductive GoesWhere (earlier : List Credential) (s : SecurityScheme) (p : Placement) (secret : Str) (place : Place) : Prop
  | http (type : s.type = lit "http") (nokey : lower p.scheme ≠ lit "apikey") (same : lower (schemeWord p.scheme) = lower s.scheme)
      (token : isToken (schemeWord p.scheme) = true) (text : isFieldText secret = true)
  | bearer (type : s.type = lit "oauth2" ∨ s.type = lit "openIdConnect") (nokey : lower p.scheme ≠ lit "apikey")
      (same : lower (schemeWord p.scheme) = lit "bearer") (text : isFieldText secret = true)
  | header (type : s.type = lit "apiKey") (location : s.location = lit "header") (key : lower p.scheme = lit "apikey")
      (noquery : p.location ≠ lit "query") (nocookie : p.location ≠ lit "cookie") (same : lower p.parameter = lower s.parameter)
      (token : isToken s.parameter = true) (free : isReserved p.parameter = false) (text : isFieldText secret = true)
  | query (type : s.type = lit "apiKey") (location : s.location = lit "query") (key : lower p.scheme = lit "apikey")
      (kept : p.location = lit "query") (same : p.parameter = s.parameter) (named : s.parameter ≠ []) (set : secret ≠ [])
  | cookie (type : s.type = lit "apiKey") (location : s.location = lit "cookie") (key : lower p.scheme = lit "apikey")
      (kept : p.location = lit "cookie") (same : p.parameter = s.parameter) (token : isToken s.parameter = true)
      (text : isCookieText secret = true)
  | certificate (type : s.type = lit "mutualTLS") (nowhere : Nowhere earlier place)

/-- The scheme asks for a client certificate. -/
def Credential.IsMutual (c : Credential) : Prop := ∃ s, c.advertised = some s ∧ s.type = lit "mutualTLS"

/-- A scheme fits in after the earlier ones: it is sent as the card asks, and it replaces no certificate. -/
structure Fits (earlier : List Credential) (c : Credential) : Prop where
  agrees : ∃ s, c.advertised = some s ∧
    GoesWhere earlier s (placement c.reference c.advertised) (secretOf c.resolved) c.place
  keeps : ∀ c' ∈ earlier, c'.IsMutual → c.reference.clientCert = [] ∨ c.reference.clientCert = c'.reference.clientCert

namespace Credential

end Credential

section Asked

variable {s : SecurityScheme} {secret cert : Str} {x x' : Carried}

end Asked

/-! ## All schemes together -/

section Together

variable {cs : List Credential} {c : Credential} {x : Carried} {xs : List Carried} {h : Str × Str} {hs : List (Str × Str)}

end Together

/-! ## One scheme more -/

section Step

variable {earlier : List Credential} {c : Credential} {x : Carried} {xs : List Carried} {s : SecurityScheme}

end Step

/-! ## A whole requirement -/

/-- Nothing is lost but the order. -/
theorem SentInOrder.sent {cs : List Credential} : SentInOrder cs → SentAsAsked cs := by
  rintro ⟨xs, hxs, hexact⟩
  exact ⟨xs, hxs, .of_eq hexact.headers, .of_eq hexact.queries, ⟨_, .refl _, hexact.cookies⟩, hexact.certificates⟩

/-- The requests made with a spec are those without credentials and what goes out. -/
structure Sends (auth : AuthSpec) (o : Outgoing) : Prop where
  unary : ∀ c, unaryRequest auth c = (unaryRequest {} c).map (o.onRequest (c.info.protocol == .rest))
  stream : ∀ c, streamRequest auth c = (streamRequest {} c).map (o.onRequest (c.info.protocol == .rest))
  download : ∀ url, downloadRequest url auth = (downloadRequest url {}).map (o.onRequest false)

end A2ad.Client
