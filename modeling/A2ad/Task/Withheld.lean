/-
Credentials that cannot be had in full: what goes out when no requirement can be satisfied or a
credential in use does not resolve, and exactly when that is nothing.
-/
import A2ad.Task.Credentials

namespace A2ad.Client

open Bytes Json TaskManager

/-! ## Nothing sent -/

/-- With the spec every request is the one without credentials, over HTTP and over gRPC. -/
structure Bare (auth : AuthSpec) : Prop where
  unary : ∀ c, unaryRequest auth c = unaryRequest {} c
  stream : ∀ c, streamRequest auth c = streamRequest {} c
  download : ∀ url, downloadRequest url auth = downloadRequest url {}
  metadata : ∀ version, configureContext auth version = configureContext {} version
  channel : ∀ endpoint, channelFor endpoint auth = channelFor endpoint {}

section Bare

variable {auth : AuthSpec}

theorem onRequest_empty (rest : Bool) (req : HttpRequest) : Outgoing.onRequest {} rest req = req := by
  cases rest <;> simp [Outgoing.onRequest, Outgoing.onTarget, Outgoing.allHeaders]

/-- A query parameter makes a target longer. -/
theorem onTarget_nil {o : Outgoing} (h : o.onTarget [] = []) : o.queries = [] := by
  cases hqueries : o.queries with
  | nil => rfl
  | cons q qs =>
    have hgrows : ∀ (qs : List (Str × Str)) (target : Str), target ≠ [] → qs.foldl (Url.addField isUnreserved) target ≠ [] := by
      intro qs
      induction qs with
      | nil => exact fun _ h => h
      | cons q qs ih =>
        intro target htarget
        refine ih _ ?_
        unfold Url.addField
        simp [htarget]
    unfold Outgoing.onTarget at h
    rw [hqueries, List.foldl_cons] at h
    refine absurd h (hgrows qs _ ?_)
    unfold Url.addField
    simp

/-- An inactive spec sends nothing exactly where it has nothing but the one header and one query
parameter that may stand in the fields of their own, the latter without a value. -/
theorem bare_iff (hinactive : auth.active = false) : Bare auth ↔
    auth.extraHeaders = [] ∧ auth.extraQuery = [] ∧ (auth.queryName.isEmpty = false → auth.queryValue = []) ∧
      auth.clientCertFile = [] ∧ auth.clientKeyFile = [] := by
  constructor
  · rintro ⟨-, -, hdownload, hmetadata, -⟩
    have hsame := hdownload []
    rw [downloadRequest_eq] at hsame
    have hrequest : (outgoing auth).onRequest false ⟨[], "GET", [], [], [(lit "Accept", lit "*/*"), (lit "User-Agent", userAgent)]⟩ =
        ⟨[], "GET", [], [], [(lit "Accept", lit "*/*"), (lit "User-Agent", userAgent)]⟩ := Except.ok.inj hsame
    have hheaders : (outgoing auth).allHeaders = [] := by
      have := congrArg HttpRequest.headers hrequest
      simpa [Outgoing.onRequest] using this
    have hqueries : (outgoing auth).queries = [] := by
      have := congrArg HttpRequest.endpoint hrequest
      exact onTarget_nil (by simpa [Outgoing.onRequest] using this)
    simp only [Outgoing.allHeaders, List.append_eq_nil_iff] at hheaders
    obtain ⟨⟨hextra, hcert⟩, hkey⟩ := hheaders
    have hextraQuery : auth.extraQuery = [] := by
      have := hmetadata []
      unfold configureContext at this
      rw [hinactive] at this
      have hextra' : auth.extraHeaders = [] := by simpa [outgoing, hinactive] using hextra
      simpa [hextra'] using this
    refine ⟨by simpa [outgoing, hinactive] using hextra, hextraQuery, fun hname => ?_, ?_, ?_⟩
    · simpa [outgoing, hname, hextraQuery] using hqueries
    · cases hset : auth.clientCertFile with
      | nil => rfl
      | cons b cert => simp [outgoing, hset] at hcert
    · cases hset : auth.clientKeyFile with
      | nil => rfl
      | cons b key => simp [outgoing, hset] at hkey
  · rintro ⟨hextra, hextraQuery, hvalue, hcert, hkey⟩
    have hnone : outgoing auth = {} := by
      unfold outgoing
      rw [hinactive, hextra, hextraQuery, hcert, hkey]
      cases hname : auth.queryName.isEmpty with
      | true => simp
      | false => simp [hvalue hname]
    refine ⟨fun c => ?_, fun c => ?_, fun url => ?_, fun version => ?_, fun endpoint => ?_⟩
    · rw [unaryRequest_eq auth, hnone]
      cases unaryRequest {} c with
      | error e => rfl
      | ok req => exact congrArg Except.ok (onRequest_empty _ req)
    · rw [streamRequest_eq auth, hnone]
      cases streamRequest {} c with
      | error e => rfl
      | ok req => exact congrArg Except.ok (onRequest_empty _ req)
    · rw [downloadRequest_eq, hnone]
      cases downloadRequest url {} with
      | error e => rfl
      | ok req => exact congrArg Except.ok (onRequest_empty _ req)
    · unfold configureContext
      rw [hinactive, hextra, hextraQuery]
      rfl
    · unfold channelFor
      rw [hcert, hkey]

end Bare

/-! ## What cannot be had -/

/-- The credentials in use: the flat form, or those of the first requirement that can be satisfied. -/
def inUse (E : Env) (configured : AgentConfig) (card : Option AgentCard) : Option (List Credential) :=
  if configured.authSchemes.isEmpty then some [flatCredential E configured card]
  else (selectedSchemes configured.authSchemes card).map fun names =>
    names.map (credentialFor E.resolve configured.authSchemes card)

/-- No requirement can be satisfied, or a credential in use cannot be resolved. -/
def Unresolved (E : Env) (configured : AgentConfig) (card : Option AgentCard) : Prop :=
  ∀ cs, inUse E configured card = some cs → ∃ c ∈ cs, c.resolves = false

/-- What stands before the first credential that does not resolve goes nowhere: at most one header, at
most one query parameter, which has no value, and no client certificate or key. -/
structure Quiet (earlier : List Credential) : Prop where
  headers : ((placesOf earlier).filterMap Place.header?).length ≤ 1
  queries : (queriesIn (placesOf earlier)).length ≤ 1
  values : ∀ q ∈ queriesIn (placesOf earlier), q.2 = []
  certificates : ∀ c ∈ earlier, c.reference.clientCert = []
  keys : ∀ c ∈ earlier, c.reference.clientKey = []

/-- What is made of the credential in the flat form, which is placed although it does not resolve, goes
nowhere: it is no cookie, no query parameter with a name and a value, and it has no key. -/
structure QuietFlat (c : Credential) : Prop where
  cookie : c.place.cookie? = none
  query : ∀ name value, c.place = .query name value → name = [] ∨ value = []
  key : c.reference.clientKey = []

/-- The exact condition under which nothing goes out. -/
def Withheld (E : Env) (configured : AgentConfig) (card : Option AgentCard) : Prop :=
  ∀ cs, inUse E configured card = some cs →
    if configured.authSchemes.isEmpty then ∀ c ∈ cs, QuietFlat c else Quiet (cs.takeWhile Credential.resolves)

section Withheld

variable {E : Env} {id : Str} {a : Agent} {configured : AgentConfig}

theorem lastSet_nil {xs : List Str} : lastSet xs = [] ↔ ∀ x ∈ xs, x = [] := by
  induction xs using List.reverseRecOn with
  | nil => simp [lastSet]
  | append_singleton xs x ih =>
    rw [lastSet_concat]
    cases x with
    | nil => simp [ih, or_imp]
    | cons b x => simp

/-- The schemes before the first that does not resolve. -/
theorem bare_schemes (earlier : List Credential) :
    Bare { collected earlier with scheme := "error", active := false } ↔ Quiet earlier := by
  obtain ⟨⟨hfirst, hfirstQuery⟩, hheaders, hqueries, -, hcert, hkey, -⟩ := collects_collected earlier
  rw [bare_iff rfl]
  show (collected earlier).extraHeaders = [] ∧ (collected earlier).extraQuery = [] ∧
    ((collected earlier).queryName.isEmpty = false → (collected earlier).queryValue = []) ∧
    (collected earlier).clientCertFile = [] ∧ (collected earlier).clientKeyFile = [] ↔ _
  have hextra : (collected earlier).extraHeaders = [] ↔ ((placesOf earlier).filterMap Place.header?).length ≤ 1 := by
    rw [← hheaders]
    unfold AuthSpec.headerList
    cases hset : (collected earlier).headerValue.isEmpty with
    | true => simp [hfirst hset]
    | false => simp
  have hquery : (collected earlier).extraQuery = [] ∧
      ((collected earlier).queryName.isEmpty = false → (collected earlier).queryValue = []) ↔
      (queriesIn (placesOf earlier)).length ≤ 1 ∧ ∀ q ∈ queriesIn (placesOf earlier), q.2 = [] := by
    rw [← hqueries]
    unfold AuthSpec.queryList
    cases hset : (collected earlier).queryName.isEmpty with
    | true => simp [hfirstQuery hset]
    | false =>
      simp only [Bool.false_eq_true, if_false, List.singleton_append, List.length_cons, List.mem_cons, forall_eq_or_imp,
        forall_const]
      constructor
      · rintro ⟨hnone, hvalue⟩
        simp [hnone, hvalue]
      · rintro ⟨hlength, hvalue, -⟩
        exact ⟨List.length_eq_zero_iff.1 (by omega), hvalue⟩
  have hcerts : (collected earlier).clientCertFile = [] ↔ ∀ c ∈ earlier, c.reference.clientCert = [] := by
    rw [hcert, lastSet_nil]
    simp
  have hkeys : (collected earlier).clientKeyFile = [] ↔ ∀ c ∈ earlier, c.reference.clientKey = [] := by
    rw [hkey, lastSet_nil]
    simp
  rw [hextra, hcerts, hkeys, ← and_assoc (a := (collected earlier).extraQuery = []), hquery]
  constructor
  · rintro ⟨h, ⟨h', h''⟩, h''', h''''⟩
    exact ⟨h, h', h'', h''', h''''⟩
  · rintro ⟨h, h', h'', h''', h''''⟩
    exact ⟨h, ⟨h', h''⟩, h''', h''''⟩

theorem active_withCookie (auth : AuthSpec) : (withCookie auth).active = auth.active := by
  unfold withCookie
  split <;> rfl

/-- The flat form. -/
theorem bare_flat {c : Credential} (h : c.resolves = false) : Bare (withCookie (c.applied {})) ↔ QuietFlat c := by
  have hcert : c.reference.clientCert = [] := by
    unfold Credential.resolves at h
    simpa using (Bool.or_eq_false_iff.1 h).2
  have happlied : c.applied {} = { ({} : AuthSpec).withPlace c.place with
      clientCertFile := [], clientKeyFile := c.reference.clientKey, active := false } := by
    rw [applied_eq, hcert, h]
    cases c.reference.clientKey with
    | nil => rfl
    | cons b key => rfl
  rw [happlied]
  cases hplace : c.place with
  | header name value =>
    have hquiet : QuietFlat c ↔ c.reference.clientKey = [] :=
      ⟨fun h => h.key, fun h => ⟨by simp [hplace, Place.cookie?], by simp [hplace], h⟩⟩
    rw [hquiet]
    cases value with
    | nil =>
      refine (bare_iff rfl).trans ?_
      simp [withCookie, AuthSpec.withPlace, addHeader]
    | cons b value =>
      refine (bare_iff rfl).trans ?_
      simp [withCookie, AuthSpec.withPlace, addHeader]
  | query name value =>
    have hquiet : QuietFlat c ↔ (name = [] ∨ value = []) ∧ c.reference.clientKey = [] := by
      constructor
      · rintro ⟨-, hquery, hkey⟩
        exact ⟨hquery name value hplace, hkey⟩
      · rintro ⟨hquery, hkey⟩
        refine ⟨by simp [hplace, Place.cookie?], fun name' value' hplace' => ?_, hkey⟩
        rw [hplace] at hplace'
        cases hplace'
        exact hquery
    rw [hquiet]
    refine (bare_iff rfl).trans ?_
    cases name with
    | nil => simp [withCookie, AuthSpec.withPlace]
    | cons b name => simp [withCookie, AuthSpec.withPlace]
  | cookie name value =>
    refine iff_of_false (fun hbare => ?_) fun hquiet => ?_
    · have hextra := ((bare_iff (active_withCookie _)).1 hbare).1
      simp [withCookie, AuthSpec.withPlace, addCookie] at hextra
    · have := hquiet.cookie
      rw [hplace] at this
      cases this

/-- Where some credential cannot be had, nothing is sent exactly under the condition above. -/
theorem withheld_iff (hconfigured : E.config.agent id = some configured) (hfails : Unresolved E configured a.card) :
    Bare (resolveAuth E id a) ↔ Withheld E configured a.card := by
  unfold resolveAuth Withheld Unresolved inUse at *
  rw [hconfigured]
  dsimp only
  cases hflat : configured.authSchemes.isEmpty with
  | true =>
    rw [if_pos rfl]
    simp only [hflat, if_true, Option.some.injEq, forall_eq', List.mem_singleton, exists_eq_left, forall_eq] at hfails ⊢
    exact bare_flat hfails
  | false =>
    rw [if_neg Bool.false_ne_true]
    simp only [hflat, Bool.false_eq_true, if_false] at hfails ⊢
    cases hselected : selectedSchemes configured.authSchemes a.card with
    | none =>
      refine iff_of_true ?_ (by simp)
      exact (bare_iff rfl).2 ⟨rfl, rfl, fun _ => rfl, rfl, rfl⟩
    | some names =>
      rw [hselected, Option.map_some] at hfails
      obtain ⟨c, hc, hresolves⟩ := hfails _ rfl
      have hall : (names.map (credentialFor E.resolve configured.authSchemes a.card)).all Credential.resolves = false := by
        rw [List.all_eq_false]
        exact ⟨c, hc, by simp [hresolves]⟩
      dsimp only
      rw [applySchemes_eq]
      dsimp only
      rw [hall, if_neg Bool.false_ne_true]
      simp only [Option.map_some, Option.some.injEq, forall_eq']
      exact bare_schemes _

end Withheld

/-! ## A key without its token -/

/-- A key in the query and a token, both required. -/
def lockedCard : AgentCard where
  securitySchemes := [("key", { type := "apiKey", location := "query", parameter := "api_key" }),
    ("token", { type := "http", scheme := "bearer" })]
  securityRequirements := [[("key", []), ("token", [])]]

def lockedConfig : AgentConfig where
  endpoint := builder.endpoint
  authSchemes := [("key", { type := "env", name := "KEY" }), ("token", { type := "env", name := "TOKEN" })]

/-- Surroundings with one of the two variables set. -/
def lockedEnv (known : Str) : Env := { Env.offline [] with
  config := { agents := [(builder.id, lockedConfig)] }
  resolve := fun _ name =>
    if name = known then { active := true, headerName := "Authorization", headerValue := "Bearer s3cret", scheme := "env" }
    else { scheme := "error" } }

def locked : Agent := { builder with card := some lockedCard }

theorem unresolved_locked {known : Str}
    (h : (inUse (lockedEnv known) lockedConfig locked.card).map (fun cs => cs.any fun c => !c.resolves) = some true) :
    Unresolved (lockedEnv known) lockedConfig locked.card := by
  intro cs hcs
  rw [hcs, Option.map_some] at h
  obtain ⟨c, hc, hresolves⟩ := List.any_eq_true.1 (Option.some.inj h)
  exact ⟨c, hc, by simpa using hresolves⟩

/-- The key goes out although the token is missing. -/
theorem key_without_token : (lockedEnv "KEY").config.agent builder.id = some lockedConfig ∧
    Unresolved (lockedEnv "KEY") lockedConfig locked.card ∧
    (unaryRequest (resolveAuth (lockedEnv "KEY") builder.id locked) ⟨builder.endpoint, {}, .getTask, .obj [], "1"⟩).toOption.map
      HttpRequest.endpoint = some (builder.endpoint ++ lit "?api_key=s3cret") ∧
    ¬ Bare (resolveAuth (lockedEnv "KEY") builder.id locked) := by
  have hrequest : (unaryRequest (resolveAuth (lockedEnv "KEY") builder.id locked)
      ⟨builder.endpoint, {}, .getTask, .obj [], "1"⟩).toOption.map HttpRequest.endpoint =
        some (builder.endpoint ++ lit "?api_key=s3cret") := by decide +kernel
  refine ⟨by decide +kernel, unresolved_locked (by decide +kernel), hrequest, fun hbare => ?_⟩
  rw [hbare.unary] at hrequest
  exact absurd hrequest (by decide +kernel)

/-- Without the key, which comes first, nothing goes out. -/
theorem withheld_token : Bare (resolveAuth (lockedEnv "TOKEN") builder.id locked) := by
  refine (@withheld_iff (lockedEnv "TOKEN") builder.id locked lockedConfig (by decide +kernel)
    (unresolved_locked (by decide +kernel))).2 ?_
  intro cs hcs
  rw [if_neg (by decide)]
  have hearlier : (inUse (lockedEnv "TOKEN") lockedConfig locked.card).map (fun cs => (cs.takeWhile Credential.resolves).length) =
      some 0 := by decide +kernel
  rw [hcs, Option.map_some] at hearlier
  rw [List.length_eq_zero_iff.1 (Option.some.inj hearlier)]
  exact ⟨by simp [placesOf], by simp [placesOf, queriesIn], by simp [placesOf, queriesIn], by simp, by simp⟩

end A2ad.Client
