/-
Downloads and credentials: a download goes out with credentials only to the origin of the agent's
endpoint, whatever stands in the artifact's URL.
-/
import A2ad.Lib.Host
import A2ad.Task.Artifact

namespace A2ad.TaskManager

open Bytes Json Client Host

/-! ## The URL that is fetched -/

/-- The URL `CurlTransport::request` makes of an endpoint and a path, up to the first NUL. -/
def fetchedUrl (r : HttpRequest) : Str :=
  let url :=
    if r.path.isEmpty then r.endpoint
    else
      (if r.endpoint.isEmpty || r.endpoint.getLast? ≠ some 47 then r.endpoint ++ [47] else r.endpoint) ++
        if r.path.head? = some 47 then r.path.tail else r.path
  cstr url

/-- The request for a URL that carries no credential. -/
def bareDownload (url : Str) : HttpRequest where
  endpoint := url
  verb := "GET"
  headers := [(lit "Accept", lit "*/*"), (lit "User-Agent", userAgent)]

/-! ## What the credentials add -/

section Query

variable {path path' : Str}

theorem addQuery_str (path key value : Str) : addQuery path key (.str value) =
    if value.isEmpty then .ok path
    else .ok (path ++ (if path.contains 63 then [38] else [63]) ++ urlEncode key ++ [61] ++ urlEncode value) := by
  show (if value.isEmpty = true then _ else _) = _
  split <;> rfl

/-- What is added to a URL starts a query, unless there is one or nothing is added. -/
def IsQuery (path q : Str) : Prop := q = [] ∨ q.head? = some 63 ∨ (63 : UInt8) ∈ path

theorem IsQuery.append {q q' : Str} (h : IsQuery path q) (h' : IsQuery (path ++ q) q') : IsQuery path (q ++ q') := by
  rcases h with rfl | hhead | hmem
  · simpa using h'
  · refine .inr (.inl ?_)
    rw [List.head?_append, hhead]
    rfl
  · exact .inr (.inr hmem)

theorem addQuery_ok {key value : Str} (h : addQuery path key (.str value) = .ok path') :
    ∃ q, path' = path ++ q ∧ IsQuery path q := by
  rw [addQuery_str] at h
  split at h
  · cases h
    exact ⟨[], (List.append_nil _).symm, .inl rfl⟩
  cases h
  refine ⟨(if path.contains 63 then [38] else [63]) ++ urlEncode key ++ [61] ++ urlEncode value, ?_, ?_⟩
  · simp only [List.append_assoc]
  by_cases hquery : path.contains 63 = true
  · exact .inr (.inr (by simpa using hquery))
  · rw [if_neg hquery]
    exact .inr (.inl rfl)

theorem foldQuery_ok {qs : List (Str × Str)}
    (h : qs.foldlM (fun path q => addQuery path q.1 (.str q.2)) path = .ok path') : ∃ q, path' = path ++ q ∧ IsQuery path q := by
  induction qs generalizing path with
  | nil =>
    cases h
    exact ⟨[], (List.append_nil _).symm, .inl rfl⟩
  | cons q qs ih =>
    rw [List.foldlM_cons] at h
    obtain ⟨next, hnext, hrest⟩ := Tx.except_bind_ok h
    obtain ⟨q₁, rfl, h₁⟩ := addQuery_ok hnext
    obtain ⟨q₂, rfl, h₂⟩ := ih hrest
    exact ⟨q₁ ++ q₂, List.append_assoc .., h₁.append h₂⟩

theorem addCredentials_ok {auth : AuthSpec} (h : addCredentials auth path = .ok path') :
    ∃ q, path' = path ++ q ∧ IsQuery path q := by
  unfold addCredentials at h
  dsimp only at h
  split at h
  · exact foldQuery_ok h
  · obtain ⟨next, hnext, hrest⟩ := Tx.except_bind_ok h
    obtain ⟨q₁, rfl, h₁⟩ := addQuery_ok hnext
    obtain ⟨q₂, rfl, h₂⟩ := foldQuery_ok hrest
    exact ⟨q₁ ++ q₂, List.append_assoc .., h₁.append h₂⟩

end Query

/-! ## Origins as texts -/

section Texts

variable {scheme url endpoint : Str}

/-- After the scheme, the origin of a URL is its text up to the first slash. -/
theorem origin_scheme (h : isScheme scheme = true) (rest : Str) :
    origin (scheme ++ lit "://" ++ rest) = scheme ++ lit "://" ++ rest.takeWhile (· ≠ 47) := by
  have hcut : Bytes.splitAt? (lit "://") (scheme ++ lit "://" ++ rest) = some (scheme, rest) := by
    rw [List.append_assoc]
    exact splitAt?_first (colon_notMem_scheme h) [47, 47] rest
  unfold origin
  rw [hcut]

theorem splitAt?_eq {sep s : Str} {p : Str × Str} (h : Bytes.splitAt? sep s = some p) : s = p.1 ++ sep ++ p.2 := by
  induction s generalizing p with
  | nil =>
    unfold Bytes.splitAt? at h
    split at h
    · rename_i hsep
      cases h
      rw [List.isEmpty_iff.1 hsep]
      rfl
    · cases h
  | cons c s ih =>
    unfold Bytes.splitAt? at h
    split at h
    · rename_i hsep
      cases h
      obtain ⟨t, ht⟩ := List.isPrefixOf_iff_prefix.1 hsep
      rw [← ht]
      simp
    · obtain ⟨q, hq, hp⟩ := Option.map_eq_some_iff.1 h
      subst hp
      rw [ih hq]
      rfl

/-- The origin stands at the front of the URL. -/
theorem origin_prefix (url : Str) : ∃ rest, url = origin url ++ rest := by
  unfold origin
  split
  · exact ⟨url, rfl⟩
  · rename_i scheme rest hcut
    refine ⟨rest.dropWhile (· ≠ 47), ?_⟩
    rw [List.append_assoc, List.takeWhile_append_dropWhile]
    exact splitAt?_eq hcut

/-- What follows the text of an origin starts with a slash, if anything does. -/
theorem rest_outside {front rest : Str} (h : (front ++ rest).takeWhile (· ≠ 47) = front) : Outside front rest := by
  cases rest with
  | nil => exact .inl rfl
  | cons c rest =>
    have hfront : ∀ c ∈ front, decide (c ≠ 47) = true := by
      intro c hc
      rw [← h] at hc
      simpa using List.mem_takeWhile_imp hc
    rw [List.takeWhile_append_of_pos hfront] at h
    by_cases hslash : c = 47
    · exact .inr (.inl ⟨c, rfl, by rw [hslash]; rfl⟩)
    · rw [List.takeWhile_cons_of_pos (by simpa using hslash)] at h
      simp at h

/-- A URL with the origin of one with this scheme has the scheme itself. -/
theorem same_origin (hscheme : isScheme scheme = true) {front : Str}
    (h : origin url = scheme ++ lit "://" ++ front) : ∃ rest, url = scheme ++ lit "://" ++ (front ++ rest) ∧ Outside front rest := by
  obtain ⟨rest, hurl⟩ := origin_prefix url
  rw [h, List.append_assoc] at hurl
  have hcut := origin_scheme hscheme (front ++ rest)
  rw [← hurl, h] at hcut
  exact ⟨rest, hurl, rest_outside (List.append_cancel_left hcut).symm⟩

/-- The schemes a download can have. -/
def IsHttpScheme (scheme : Str) : Prop := scheme = lit "https" ∨ scheme = lit "http"

theorem IsHttpScheme.isScheme (h : IsHttpScheme scheme) : isScheme scheme = true := by
  rcases h with rfl | rfl <;> decide

theorem isHttp_scheme (h : isHttp url = true) : ∃ scheme rest, url = scheme ++ lit "://" ++ rest ∧ IsHttpScheme scheme := by
  unfold isHttp at h
  rw [Bool.or_eq_true, List.isPrefixOf_iff_prefix, List.isPrefixOf_iff_prefix] at h
  rcases h with ⟨rest, rfl⟩ | ⟨rest, rfl⟩
  · exact ⟨lit "https", rest, rfl, .inl rfl⟩
  · exact ⟨lit "http", rest, rfl, .inr rfl⟩

/-- A query that is added to the URL does not reach its authority. -/
theorem IsQuery.outside (hscheme : IsHttpScheme scheme) {text q : Str} (h : IsQuery (scheme ++ lit "://" ++ text) q) :
    Outside text q := by
  rcases h with rfl | hhead | hmem
  · exact .inl rfl
  · exact .inr (.inl ⟨63, hhead, rfl⟩)
  · refine .inr (.inr ⟨63, ?_, rfl⟩)
    rcases List.mem_append.1 hmem with hmem | hmem
    · rcases hscheme with rfl | rfl <;> exact absurd hmem (by decide)
    · exact hmem

end Texts

/-! ## Downloads -/

section Downloads

variable {scheme front rest : Str}

/-- A NUL after the authority changes nothing. -/
theorem outside_cstr (h : Outside front rest) : Outside front (cstr rest) := by
  rcases h with rfl | ⟨c, hc, hends⟩ | hmem
  · exact .inl rfl
  · obtain ⟨rest, rfl⟩ : ∃ rest', rest = c :: rest' := by
      cases rest with
      | nil => cases hc
      | cons d rest => exact ⟨rest, by rw [Option.some.inj hc]⟩
    have hnul : c ≠ 0 := by
      rintro rfl
      cases hends
    refine .inr (.inl ⟨c, ?_, hends⟩)
    unfold cstr
    rw [List.takeWhile_cons_of_pos (by simpa using hnul)]
    rfl
  · exact .inr (.inr hmem)

theorem cstr_scheme (hscheme : IsHttpScheme scheme) (s : Str) : cstr (scheme ++ lit "://" ++ s) = scheme ++ lit "://" ++ cstr s := by
  have hall : ∀ c ∈ scheme ++ lit "://", decide (c ≠ 0) = true := by
    rcases hscheme with rfl | rfl <;> decide +kernel
  unfold cstr
  rw [List.takeWhile_append_of_pos hall]

/-- What does not reach the authority does not change the origin, as a C string either. -/
theorem origin_cstr (hscheme : IsHttpScheme scheme) (h : Outside front rest) :
    origin? (cstr (scheme ++ lit "://" ++ (front ++ rest))) = origin? (cstr (scheme ++ lit "://" ++ front)) := by
  rw [cstr_scheme hscheme, cstr_scheme hscheme]
  by_cases hfront : (0 : UInt8) ∈ front
  · have hsame := cstr_append hfront rest []
    rw [List.append_nil] at hsame
    rw [hsame]
  · have hself := cstr_eq_self hfront
    have hrest : cstr (front ++ rest) = front ++ cstr rest := by
      have hall : ∀ c ∈ front, decide (c ≠ 0) = true := List.takeWhile_eq_self_iff.1 hself
      unfold cstr
      rw [List.takeWhile_append_of_pos hall]
    rw [hself, hrest]
    exact Outside.origin? hscheme.isScheme (outside_cstr h)

/-- Two URLs with one text for their origin have one origin. -/
theorem origin_outside (hscheme : IsHttpScheme scheme) {rest' : Str} (h : Outside front rest) (h' : Outside front rest') :
    origin? (scheme ++ lit "://" ++ (front ++ rest)) = origin? (scheme ++ lit "://" ++ (front ++ rest')) ∧
      origin? (cstr (scheme ++ lit "://" ++ (front ++ rest))) = origin? (cstr (scheme ++ lit "://" ++ (front ++ rest'))) := by
  rw [Outside.origin? hscheme.isScheme h, Outside.origin? hscheme.isScheme h', origin_cstr hscheme h, origin_cstr hscheme h']
  exact ⟨rfl, rfl⟩

/-- By RFC 3986 two URLs have one scheme, user information, host and port. -/
def SameOrigin (u v : Str) : Prop := ∃ o, origin? u = some o ∧ origin? v = some o

theorem sameOrigin_outside (hscheme : IsHttpScheme scheme) {rest' : Str} (h : Outside front rest) (h' : Outside front rest') :
    SameOrigin (scheme ++ lit "://" ++ (front ++ rest)) (scheme ++ lit "://" ++ (front ++ rest')) ∧
      SameOrigin (cstr (scheme ++ lit "://" ++ (front ++ rest))) (cstr (scheme ++ lit "://" ++ (front ++ rest'))) := by
  obtain ⟨htext, hcstr⟩ := origin_outside hscheme h h'
  refine ⟨⟨_, origin?_eq hscheme.isScheme _, htext.symm.trans (origin?_eq hscheme.isScheme _)⟩, ?_⟩
  rw [cstr_scheme hscheme, cstr_scheme hscheme] at hcstr ⊢
  exact ⟨_, origin?_eq hscheme.isScheme _, hcstr.symm.trans (origin?_eq hscheme.isScheme _)⟩

/-- The request for a part behind a URL is bare or goes to the origin of the endpoint. -/
theorem downloadRequest_origin {endpoint url : Str} {auth : AuthSpec} {request : HttpRequest} (hhttp : isHttp url = true)
    (h : downloadRequest url (if origin url = origin endpoint then auth else {}) = .ok request)
    (hcarries : request ≠ bareDownload url) :
    SameOrigin request.endpoint endpoint ∧ SameOrigin (fetchedUrl request) (cstr endpoint) := by
  obtain ⟨target, htarget, hrequest⟩ := Tx.except_bind_ok h
  cases hrequest
  split at htarget
  · rename_i horigin
    obtain ⟨scheme, rest, rfl, hscheme⟩ := isHttp_scheme hhttp
    have hurl := origin_scheme hscheme.isScheme rest
    generalize rest.takeWhile (· ≠ 47) = front at hurl
    obtain ⟨r, hr, hout⟩ := same_origin hscheme.isScheme hurl
    obtain ⟨r', rfl, hout'⟩ := same_origin hscheme.isScheme (horigin.symm.trans hurl)
    obtain ⟨q, rfl, hq⟩ := addCredentials_ok htarget
    rw [hr] at hq
    have htext : scheme ++ lit "://" ++ rest ++ q = scheme ++ lit "://" ++ (front ++ (r ++ q)) := by
      rw [hr]
      simp only [List.append_assoc]
    have hsame := sameOrigin_outside hscheme (hout.append (hq.outside hscheme)) hout'
    show SameOrigin (scheme ++ lit "://" ++ rest ++ q) _ ∧ SameOrigin (cstr (scheme ++ lit "://" ++ rest ++ q)) _
    rw [htext]
    exact hsame
  · rename_i horigin
    cases htarget
    rw [if_neg horigin] at hcarries
    exact absurd rfl hcarries

/-- **Agent credentials stay on the agent's origin.** The request that a materialisation makes for a part
behind a URL carries a credential only if the URL that is fetched, with the query that carries
credentials, has the origin of the endpoint of the task's agent. -/
theorem credentials_stay (E : Env) (F : Files) (taskId artifactId : Str) (index : Nat) (outputDir sha256 : Str) {w w' : World}
    {t : Task} {a : Artifact} {p : Part} {url : Str} {request : HttpRequest} (ht : w.task E taskId = some t)
    (hp : findPart t artifactId index = .ok (a, p)) (hurl : contentOf p = .url url)
    (hrequest : partRequest E t.agent url w = .ok (.ok request) w') :
    materializeArtifact E F taskId artifactId index outputDir sha256 w =
        (exchange E request >>= keepDownload F taskId ⟨a, p, index, outputDir, sha256⟩) w' ∧
      ∃ endpoint auth, resolveEndpoint E t.agent w = .ok (some (endpoint, auth)) w' ∧
        (request ≠ bareDownload url →
          SameOrigin request.endpoint endpoint ∧ SameOrigin (fetchedUrl request) (cstr endpoint)) := by
  constructor
  · have hstored : getTask E taskId w = .ok (some t) w := congrArg (EStateM.Result.ok · w) ht
    unfold materializeArtifact
    rw [Tx.bind_of_ok hstored]
    simp only [hp, hurl]
    rw [Tx.bind_of_ok hrequest]
  · unfold partRequest at hrequest
    obtain ⟨resolved, v, hresolved, hrest⟩ := Tx.bind_ok.1 hrequest
    cases resolved with
    | none =>
      obtain ⟨hunknown, -⟩ := Tx.pure_ok.1 hrest
      cases hunknown
    | some resolved =>
      obtain ⟨endpoint, auth⟩ := resolved
      dsimp only at hrest
      rcases Tx.ite_ok hrest with ⟨-, hrest⟩ | ⟨hhttp, hrest⟩
      · obtain ⟨hrefused, -⟩ := Tx.pure_ok.1 hrest
        cases hrefused
      obtain ⟨r, hdownload, hrest⟩ := Tx.lift_bind_ok hrest
      obtain ⟨hsame, rfl⟩ := Tx.pure_ok.1 hrest
      cases hsame
      exact ⟨endpoint, auth, hresolved, downloadRequest_origin (by simpa using hhttp) hdownload⟩

/-! ### A part at the agent's own server -/

def filesArtifact (url : Str) : Artifact := { artifactId := "report", parts := [{ url := url }] }

def filesTask (url : Str) : Task where
  id := "local-1"
  agent := builder.id
  artifacts := [filesArtifact url]

/-- The credential of the agent travels in the query. -/
def filesConfig : AgentConfig where
  endpoint := builder.endpoint
  auth := { type := "env", scheme := "apiKey", location := "query", parameter := "token" }

def filesEnv (url : Str) : Env := { Env.offline [.arr [artifactJson (fun _ => none) (filesArtifact url)]] with
  config := { agents := [(builder.id, filesConfig)] }
  resolve := fun _ _ => { active := true, headerName := "Authorization", headerValue := "Bearer s3cret" } }

/-- Files that are never kept. -/
def noFiles : Files where
  digest := id
  directory _ := .ok (.error "cannot create output directory")
  create _ _ _ := .error "cannot create artifact (existing files are never overwritten)"

def filesWorld (url : Str) : World := .offline (filesEnv url) [filesTask url]

def filesRequest (url : Str) : EStateM.Result Exception World (Except Str HttpRequest) :=
  partRequest (filesEnv url) builder.id url (filesWorld url)

/-- What is asked for a part at the agent's own server. -/
def ownRequest : HttpRequest :=
  { bareDownload "https://builder.example/files/1?v=2" with endpoint := "https://builder.example/files/1?v=2&token=s3cret" }

theorem files_facts :
    (filesWorld "https://builder.example/files/1?v=2").task (filesEnv "https://builder.example/files/1?v=2") "local-1" =
      some (filesTask "https://builder.example/files/1?v=2") ∧
    (Tx.result? (filesRequest "https://builder.example/files/1?v=2")).map Except.toOption = some (some ownRequest) ∧
    (Tx.result? (resolveEndpoint (filesEnv "https://builder.example/files/1?v=2") builder.id
      (filesWorld "https://builder.example/files/1?v=2"))).map (Option.map Prod.fst) = some (some builder.endpoint) := by
  decide +kernel

/-- The credential goes to the agent's own server. -/
theorem credentials_stay_own : SameOrigin ownRequest.endpoint builder.endpoint ∧
    SameOrigin (fetchedUrl ownRequest) (cstr builder.endpoint) := by
  obtain ⟨hstored, hasked, hendpoint⟩ := files_facts
  obtain ⟨asked, hresult, hrequest⟩ := Option.map_eq_some_iff.1 hasked
  cases asked with
  | error e => cases hrequest
  | ok request =>
    obtain rfl : request = ownRequest := Option.some.inj hrequest
    obtain ⟨-, endpoint, auth, hresolved, hsame⟩ := credentials_stay (filesEnv "https://builder.example/files/1?v=2") noFiles
      "local-1" "report" 0 [] [] hstored rfl rfl (Tx.ok_of_result hresult)
    rw [show resolveEndpoint _ builder.id _ = _ from hresolved] at hendpoint
    obtain rfl : endpoint = builder.endpoint := Option.some.inj (Option.some.inj hendpoint)
    exact hsame (by decide)

end Downloads

end A2ad.TaskManager
