/-
The credentials that go out with a request: what an `AuthSpec` adds to the request of a call
without any, and how the schemes of a requirement fill the spec one after the other.
-/
import A2ad.Client.Grpc
import A2ad.Client.Rest
import A2ad.Task.Artifact

namespace A2ad.Client

open Bytes Json TaskManager

/-! ## What goes out -/

/-- The credentials that requests over HTTP carry. -/
structure Outgoing where
  headers : List (Str × Str) := []
  queries : List (Str × Str) := []
  certificate : Str := []
  key : Str := []
deriving DecidableEq

/-- The first header needs an active spec, a query parameter a value. -/
def outgoing (auth : AuthSpec) : Outgoing where
  headers := (if auth.active && !auth.headerValue.isEmpty then [(auth.headerName, auth.headerValue)] else []) ++ auth.extraHeaders
  queries := ((if auth.queryName.isEmpty then [] else [(auth.queryName, auth.queryValue)]) ++ auth.extraQuery).filter
    fun q => !q.2.isEmpty
  certificate := auth.clientCertFile
  key := auth.clientKeyFile

namespace Outgoing

/-- The headers of the credentials; the transport takes the files of the certificate from two of them. -/
def allHeaders (o : Outgoing) : List (Str × Str) :=
  o.headers ++ (if o.certificate.isEmpty then [] else [(lit "X-A2AD-Client-Cert-File", o.certificate)]) ++
    (if o.key.isEmpty then [] else [(lit "X-A2AD-Client-Key-File", o.key)])

/-- A target with the query parameters of the credentials. -/
def onTarget (o : Outgoing) (target : Str) : Str := o.queries.foldl (Url.addField isUnreserved) target

/-- The request with the credentials, in the query of its path over HTTP+JSON, of its URL elsewhere. -/
def onRequest (o : Outgoing) (rest : Bool) (req : HttpRequest) : HttpRequest := { req with
  endpoint := if rest then req.endpoint else o.onTarget req.endpoint
  path := if rest then o.onTarget req.path else req.path
  headers := req.headers ++ o.allHeaders }

end Outgoing

section Requests

variable (auth : AuthSpec)

theorem authHeaders_eq : authHeaders auth = (outgoing auth).allHeaders := rfl

theorem addCredentials_eq (target : Str) : addCredentials auth target = .ok ((outgoing auth).onTarget target) := by
  have hadd : ∀ (target : Str) (q : Str × Str), addQuery target q.1 (.str q.2) =
      .ok (if q.2.isEmpty then target else Url.addField isUnreserved target q) := fun target q => addQuery_eq rfl target q.1
  have hfold : ∀ (qs : List (Str × Str)) (target : Str), qs.foldlM (fun target q => addQuery target q.1 (.str q.2)) target =
      .ok ((qs.filter fun q => !q.2.isEmpty).foldl (Url.addField isUnreserved) target) := by
    intro qs
    induction qs with
    | nil => exact fun _ => rfl
    | cons q qs ih =>
      intro target
      rw [List.foldlM_cons, hadd]
      show qs.foldlM _ _ = _
      rw [ih]
      cases hvalue : q.2.isEmpty with
      | true => rw [List.filter_cons_of_neg (by simp [hvalue]), if_pos rfl]
      | false => rw [List.filter_cons_of_pos (by simp [hvalue]), if_neg Bool.false_ne_true, List.foldl_cons]
  show _ = Except.ok (((_ ++ _ : List (Str × Str)).filter _).foldl _ _)
  unfold addCredentials
  cases hname : auth.queryName.isEmpty with
  | true => exact hfold auth.extraQuery target
  | false =>
    show (addQuery target auth.queryName (.str auth.queryValue) >>= fun target =>
      auth.extraQuery.foldlM (fun target q => addQuery target q.1 (.str q.2)) target) = _
    rw [hadd target (auth.queryName, auth.queryValue)]
    show auth.extraQuery.foldlM _ _ = _
    rw [hfold]
    cases hvalue : auth.queryValue.isEmpty with
    | true =>
      simp [hvalue]
    | false =>
      simp [hvalue]

/-- A call with credentials is the call without any and what goes out of them. -/
theorem unaryRequest_eq (c : Call Method) : unaryRequest auth c =
    (unaryRequest {} c).map ((outgoing auth).onRequest (c.info.protocol == .rest)) := by
  unfold unaryRequest
  simp only [addCredentials_eq, authHeaders_eq]
  cases hprotocol : c.info.protocol with
  | rest =>
    dsimp only
    cases restTarget c with
    | error e => rfl
    | ok target =>
      show Except.ok _ = Except.ok _
      simp [Outgoing.onRequest, outgoing, Outgoing.onTarget, Outgoing.allHeaders]
  | rpc =>
    dsimp only
    cases (envelope c.id c.op.name c.params).dump with
    | error e => rfl
    | ok body =>
      show Except.ok _ = Except.ok _
      simp [Outgoing.onRequest, outgoing, Outgoing.onTarget, Outgoing.allHeaders]
  | grpc =>
    dsimp only
    cases (envelope c.id c.op.name c.params).dump with
    | error e => rfl
    | ok body =>
      show Except.ok _ = Except.ok _
      simp [Outgoing.onRequest, outgoing, Outgoing.onTarget, Outgoing.allHeaders]

theorem streamRequest_eq (c : Call StreamMethod) : streamRequest auth c =
    (streamRequest {} c).map ((outgoing auth).onRequest (c.info.protocol == .rest)) := by
  obtain ⟨endpoint, info, op, params, id⟩ := c
  unfold streamRequest
  simp only [addCredentials_eq, authHeaders_eq]
  cases hrest : info.protocol == .rest with
  | true =>
    cases op with
    | subscribeToTask =>
      show (segment params "id" >>= fun id => _) = (segment params "id" >>= fun id => _).map _
      cases segment params "id" with
      | error e => rfl
      | ok id =>
        show Except.ok _ = Except.ok _
        simp [Outgoing.onRequest, outgoing, Outgoing.onTarget, Outgoing.allHeaders]
    | sendStreamingMessage =>
      show (params.dump >>= fun body => _) = (params.dump >>= fun body => _).map _
      cases params.dump with
      | error e => rfl
      | ok body =>
        show Except.ok _ = Except.ok _
        simp [Outgoing.onRequest, outgoing, Outgoing.onTarget, Outgoing.allHeaders]
  | false =>
    cases op with
    | subscribeToTask =>
      show (segment params "id" >>= fun id => _) = (segment params "id" >>= fun id => _).map _
      cases segment params "id" with
      | error e => rfl
      | ok id' =>
        show ((envelope id _ params).dump >>= fun body => _) = ((envelope id _ params).dump >>= fun body => _).map _
        cases (envelope id _ params).dump with
        | error e => rfl
        | ok body =>
          show Except.ok _ = Except.ok _
          simp [Outgoing.onRequest, outgoing, Outgoing.onTarget, Outgoing.allHeaders]
    | sendStreamingMessage =>
      show ((envelope id _ params).dump >>= fun body => _) = ((envelope id _ params).dump >>= fun body => _).map _
      cases (envelope id _ params).dump with
      | error e => rfl
      | ok body =>
        show Except.ok _ = Except.ok _
        simp [Outgoing.onRequest, outgoing, Outgoing.onTarget, Outgoing.allHeaders]

theorem downloadRequest_eq (url : Str) : downloadRequest url auth =
    (downloadRequest url {}).map ((outgoing auth).onRequest false) := by
  unfold downloadRequest
  simp only [addCredentials_eq, authHeaders_eq]
  show Except.ok _ = Except.ok _
  simp [Outgoing.onRequest, outgoing, Outgoing.onTarget, Outgoing.allHeaders]

end Requests

/-! ## What a scheme puts into the spec -/

inductive Place
  | header (name value : Str)
  | query (name value : Str)
  | cookie (name value : Str)
deriving DecidableEq

namespace Place

/-- An empty value is no header. -/
def header? : Place → Option (Str × Str)
  | header name value => if value.isEmpty then none else some (name, value)
  | query _ _ => none
  | cookie _ _ => none

def query? : Place → Option (Str × Str)
  | header _ _ => none
  | query name value => some (name, value)
  | cookie _ _ => none

def cookie? : Place → Option (Str × Str)
  | header _ _ => none
  | query _ _ => none
  | cookie name value => some (name, value)

end Place

/-- Where the secret of a scheme goes. -/
def placeOf (resolved : AuthSpec) (p : Placement) : Place :=
  let secret := secretOf resolved
  let scheme := lower p.scheme
  if scheme = lit "apikey" then
    if p.location = lit "query" then .query p.parameter secret
    else if p.location = lit "cookie" then .cookie (if p.parameter.isEmpty then lit "api_key" else p.parameter) secret
    else .header (if p.parameter.isEmpty then "X-API-Key" else p.parameter) secret
  else if scheme = lit "basic" then .header resolved.headerName (lit "Basic " ++ secret)
  else if !scheme.isEmpty && !([lit "bearer", lit "oauth2", lit "openidconnect"].contains scheme) then
    .header resolved.headerName (p.scheme ++ [32] ++ secret)
  else .header resolved.headerName resolved.headerValue

/-- A cookie after those there are. -/
def addCookie (cookies name value : Str) : Str :=
  (if cookies.isEmpty then [] else cookies ++ lit "; ") ++ name ++ [61] ++ value

/-- The spec with one more credential. -/
def AuthSpec.withPlace (auth : AuthSpec) : Place → AuthSpec
  | .header name value => addHeader auth name value
  | .query name value =>
    if auth.queryName.isEmpty then { auth with queryName := name, queryValue := value }
    else { auth with extraQuery := auth.extraQuery ++ [(name, value)] }
  | .cookie name value => { auth with cookieValue := addCookie auth.cookieValue name value }

theorem placeSecret_eq (auth resolved : AuthSpec) (p : Placement) :
    placeSecret auth resolved p = auth.withPlace (placeOf resolved p) := by
  unfold placeSecret placeOf
  dsimp only
  by_cases hkey : lower p.scheme = lit "apikey"
  · rw [if_pos hkey, if_pos hkey]
    by_cases hquery : p.location = lit "query"
    · rw [if_pos hquery, if_pos hquery]
      rfl
    · rw [if_neg hquery, if_neg hquery]
      split <;> rfl
  · rw [if_neg hkey, if_neg hkey]
    split
    · rfl
    · split <;> rfl

/-- The headers of a spec, whether it is active or not. -/
def AuthSpec.headerList (auth : AuthSpec) : List (Str × Str) :=
  (if auth.headerValue.isEmpty then [] else [(auth.headerName, auth.headerValue)]) ++ auth.extraHeaders

def AuthSpec.queryList (auth : AuthSpec) : List (Str × Str) :=
  (if auth.queryName.isEmpty then [] else [(auth.queryName, auth.queryValue)]) ++ auth.extraQuery

/-- The lists are used only after the fields for one header and one query parameter. -/
structure AuthSpec.Filled (auth : AuthSpec) : Prop where
  header : auth.headerValue.isEmpty = true → auth.extraHeaders = []
  query : auth.queryName.isEmpty = true → auth.extraQuery = []

/-- The last text that is not empty. -/
def lastSet (xs : List Str) : Str := xs.foldl (fun last x => if x.isEmpty then last else x) []

def cookieText (cookies : List (Str × Str)) : Str := cookies.foldl (fun text c => addCookie text c.1 c.2) []

theorem lastSet_concat (xs : List Str) (x : Str) : lastSet (xs ++ [x]) = if x.isEmpty then lastSet xs else x := by
  simp [lastSet]

theorem cookieText_concat (cookies : List (Str × Str)) (c : Str × Str) :
    cookieText (cookies ++ [c]) = addCookie (cookieText cookies) c.1 c.2 := by
  simp [cookieText]

section WithPlace

variable {auth : AuthSpec}

theorem filled_withPlace (h : auth.Filled) (p : Place) : (auth.withPlace p).Filled := by
  obtain ⟨hheader, hquery⟩ := h
  cases p with
  | header name value =>
    show (addHeader auth name value).Filled
    unfold addHeader
    split
    · exact ⟨hheader, hquery⟩
    · rename_i hvalue
      split
      · rename_i hfree
        exact ⟨fun _ => hheader hfree, hquery⟩
      · rename_i hused
        exact ⟨fun hfree => absurd hfree hused, hquery⟩
  | query name value =>
    unfold AuthSpec.withPlace
    dsimp only
    split
    · rename_i hfree
      exact ⟨hheader, fun _ => hquery hfree⟩
    · rename_i hused
      exact ⟨hheader, fun hfree => absurd hfree hused⟩
  | cookie name value => exact ⟨hheader, hquery⟩

/-- A header comes after the others. -/
theorem headerList_withPlace (h : auth.Filled) (p : Place) :
    (auth.withPlace p).headerList = auth.headerList ++ p.header?.toList := by
  cases p with
  | header name value =>
    show (addHeader auth name value).headerList = _
    unfold addHeader Place.header?
    cases value with
    | nil => simp
    | cons b value =>
      cases hfree : auth.headerValue.isEmpty with
      | true => simp [AuthSpec.headerList, hfree, h.header hfree]
      | false => simp [AuthSpec.headerList, hfree]
  | query name value =>
    unfold AuthSpec.withPlace
    dsimp only
    split <;> simp [AuthSpec.headerList, Place.header?]
  | cookie name value => simp [AuthSpec.withPlace, AuthSpec.headerList, Place.header?]

/-- So does a query parameter, unless it has no name and is the first: then it is lost. -/
theorem queryList_withPlace (h : auth.Filled) (p : Place) : (auth.withPlace p).queryList =
    auth.queryList ++ if auth.queryList = [] then p.query?.toList.filter (fun q => !q.1.isEmpty) else p.query?.toList := by
  cases p with
  | header name value =>
    show (addHeader auth name value).queryList = _
    unfold addHeader
    split
    · simp [Place.query?]
    · split <;> simp [AuthSpec.queryList, Place.query?]
  | query name value =>
    unfold AuthSpec.withPlace
    dsimp only
    cases hfree : auth.queryName.isEmpty with
    | true =>
      have hnone : auth.queryList = [] := by simp [AuthSpec.queryList, hfree, h.query hfree]
      rw [hnone]
      cases hname : name.isEmpty <;> simp [AuthSpec.queryList, hname, h.query hfree, Place.query?]
    | false => simp [AuthSpec.queryList, hfree, Place.query?]
  | cookie name value => simp [AuthSpec.withPlace, AuthSpec.queryList, Place.query?]

theorem cookieValue_withPlace (p : Place) : (auth.withPlace p).cookieValue =
    match p.cookie? with
    | some (name, value) => addCookie auth.cookieValue name value
    | none => auth.cookieValue := by
  cases p with
  | header name value =>
    show (addHeader auth name value).cookieValue = _
    unfold addHeader
    split
    · rfl
    · split <;> rfl
  | query name value =>
    unfold AuthSpec.withPlace
    dsimp only
    split <;> rfl
  | cookie name value => rfl

/-- A place has nothing to do with the rest of the spec. -/
theorem frame_withPlace (p : Place) : (auth.withPlace p).active = auth.active ∧
    (auth.withPlace p).clientCertFile = auth.clientCertFile ∧ (auth.withPlace p).clientKeyFile = auth.clientKeyFile := by
  cases p with
  | header name value =>
    show (addHeader auth name value).active = _ ∧ (addHeader auth name value).clientCertFile = _ ∧
      (addHeader auth name value).clientKeyFile = _
    unfold addHeader
    split
    · exact ⟨rfl, rfl, rfl⟩
    · split <;> exact ⟨rfl, rfl, rfl⟩
  | query name value =>
    unfold AuthSpec.withPlace
    dsimp only
    split <;> exact ⟨rfl, rfl, rfl⟩
  | cookie name value => exact ⟨rfl, rfl, rfl⟩

end WithPlace

/-- One scheme of a requirement: what the provider has for it, its reference and its entry on the card. -/
structure Credential where
  resolved : AuthSpec
  reference : AuthReference
  advertised : Option SecurityScheme

namespace Credential

def place (c : Credential) : Place := placeOf c.resolved (placement c.reference c.advertised)

/-- There is a secret or a client certificate. -/
def resolves (c : Credential) : Bool := c.resolved.active || !c.reference.clientCert.isEmpty

def applied (auth : AuthSpec) (c : Credential) : AuthSpec := applyCredential auth c.resolved c.reference c.advertised

end Credential

def placesOf (cs : List Credential) : List Place := cs.map Credential.place

/-- The query parameters that are kept: those before the first with a name are lost. -/
def queriesIn (ps : List Place) : List (Str × Str) := (ps.filterMap Place.query?).dropWhile fun q => q.1.isEmpty

/-- What the schemes have put into a spec that was empty. -/
structure Collects (cs : List Credential) (auth : AuthSpec) : Prop where
  filled : auth.Filled
  headers : auth.headerList = (placesOf cs).filterMap Place.header?
  queries : auth.queryList = queriesIn (placesOf cs)
  cookies : auth.cookieValue = cookieText ((placesOf cs).filterMap Place.cookie?)
  certificate : auth.clientCertFile = lastSet (cs.map fun c => c.reference.clientCert)
  key : auth.clientKeyFile = lastSet (cs.map fun c => c.reference.clientKey)
  active : auth.active = cs.any Credential.resolves

section Collecting

variable {cs : List Credential} {auth : AuthSpec}

theorem Collects.start : Collects [] {} := ⟨⟨fun _ => rfl, fun _ => rfl⟩, rfl, rfl, rfl, rfl, rfl, rfl⟩

theorem applied_eq (c : Credential) (auth : AuthSpec) : c.applied auth = { auth.withPlace c.place with
    clientCertFile := if c.reference.clientCert.isEmpty then auth.clientCertFile else c.reference.clientCert
    clientKeyFile := if c.reference.clientKey.isEmpty then auth.clientKeyFile else c.reference.clientKey
    active := auth.active || c.resolves } := by
  obtain ⟨hactive, hcert, hkey⟩ := @frame_withPlace auth c.place
  unfold Credential.applied applyCredential
  rw [placeSecret_eq, show placeOf c.resolved (placement c.reference c.advertised) = c.place from rfl]
  generalize auth.withPlace c.place = placed at hactive hcert hkey ⊢
  cases hc : c.reference.clientCert.isEmpty with
  | true => cases hk : c.reference.clientKey.isEmpty <;> simp [hactive, hcert, hkey, hc, Credential.resolves]
  | false => cases hk : c.reference.clientKey.isEmpty <;> simp [hkey, hc, Credential.resolves]

/-- One scheme more. -/
theorem Collects.add (h : Collects cs auth) (c : Credential) : Collects (cs ++ [c]) (c.applied auth) := by
  have hplaces : placesOf (cs ++ [c]) = placesOf cs ++ [c.place] := by simp [placesOf]
  have hfilled := filled_withPlace h.filled c.place
  rw [applied_eq]
  refine ⟨⟨hfilled.header, hfilled.query⟩, ?_, ?_, ?_, ?_, ?_, ?_⟩
  · show (auth.withPlace c.place).headerList = _
    rw [headerList_withPlace h.filled, h.headers, hplaces, List.filterMap_append]
    cases hc : c.place.header? <;> simp [hc]
  · show (auth.withPlace c.place).queryList = _
    rw [queryList_withPlace h.filled, h.queries, hplaces, queriesIn, queriesIn, List.filterMap_append, List.dropWhile_append]
    simp only [List.isEmpty_iff]
    cases hc : c.place.query? with
    | none => simp [hc]
    | some q =>
      by_cases hnone : ((placesOf cs).filterMap Place.query?).dropWhile (fun q => q.1.isEmpty) = []
      · rw [if_pos hnone, if_pos hnone, hnone]
        cases hname : q.1.isEmpty <;> simp [hc, hname]
      · rw [if_neg hnone, if_neg hnone]
        simp [hc]
  · show (auth.withPlace c.place).cookieValue = _
    rw [cookieValue_withPlace, h.cookies, hplaces, List.filterMap_append]
    cases hc : c.place.cookie? with
    | none => simp [hc]
    | some q => simp [hc, cookieText_concat]
  · rw [List.map_append, List.map_singleton, lastSet_concat, ← h.certificate]
  · rw [List.map_append, List.map_singleton, lastSet_concat, ← h.key]
  · simp [h.active]

/-- The spec after some schemes. -/
def collected (cs : List Credential) : AuthSpec := cs.foldl (fun auth c => c.applied auth) {}

theorem collects_collected (cs : List Credential) : Collects cs (collected cs) := by
  induction cs using List.reverseRecOn with
  | nil => exact .start
  | append_singleton cs c ih =>
    unfold collected at ih ⊢
    rw [List.foldl_append]
    exact ih.add c

end Collecting

/-! ## The credentials of an agent -/

/-- What is known for a configured scheme. -/
def credentialFor (resolve : Str → Str → AuthSpec) (configured : List (Str × AuthReference)) (card : Option AgentCard)
    (name : Str) : Credential :=
  let reference := ((configured.find? fun c => c.1 = name).map Prod.snd).getD {}
  ⟨resolve reference.type reference.name, reference, card.bind fun c => c.scheme name⟩

/-- The flat form of an agent's credentials. -/
def flatCredential (E : Env) (configured : AgentConfig) (card : Option AgentCard) : Credential where
  resolved := E.resolve configured.auth.type configured.auth.name
  reference := configured.auth
  advertised := if configured.auth.scheme.isEmpty then card.bind flatScheme else none

theorem applySchemes_eq (resolve : Str → Str → AuthSpec) (configured : List (Str × AuthReference)) (card : Option AgentCard)
    (auth : AuthSpec) (names : List Str) : applySchemes resolve configured card auth names =
      let cs := names.map (credentialFor resolve configured card)
      if cs.all Credential.resolves then withCookie (cs.foldl (fun auth c => c.applied auth) auth)
      else { (cs.takeWhile Credential.resolves).foldl (fun auth c => c.applied auth) auth with scheme := "error", active := false } := by
  induction names generalizing auth with
  | nil => rfl
  | cons name names ih =>
    rw [applySchemes]
    dsimp only
    rw [List.map_cons, List.all_cons, List.takeWhile_cons]
    show (if !(credentialFor resolve configured card name).resolved.active &&
        (credentialFor resolve configured card name).reference.clientCert.isEmpty then _
      else applySchemes resolve configured card ((credentialFor resolve configured card name).applied auth) names) = _
    have hguard : (!(credentialFor resolve configured card name).resolved.active &&
        (credentialFor resolve configured card name).reference.clientCert.isEmpty) =
          !(credentialFor resolve configured card name).resolves := by
      simp [Credential.resolves]
    rw [hguard]
    cases (credentialFor resolve configured card name).resolves with
    | true =>
      show applySchemes resolve configured card _ names = _
      rw [ih]
      rfl
    | false => rfl

end A2ad.Client
