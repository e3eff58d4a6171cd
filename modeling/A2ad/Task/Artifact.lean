/-
Materialising an artifact: the part that is asked for, its bytes (inline, in base64 or behind a
URL), and the file they are kept in. Files and the digest come from outside.
-/
import A2ad.Task.Manager

namespace A2ad.TaskManager

open Bytes Json Client

/-! ## Base64 -/

/-- The place of a character in the alphabet. -/
def base64Digit (c : UInt8) : Option Nat :=
  if 65 ≤ c && c ≤ 90 then some (c.toNat - 65)
  else if 97 ≤ c && c ≤ 122 then some (c.toNat - 71)
  else if 48 ≤ c && c ≤ 57 then some (c.toNat + 4)
  else if c = 43 then some 62
  else if c = 47 then some 63
  else none

/-- `std::isspace` in the C locale. -/
def isSpace (c : UInt8) : Bool := c == 32 || (9 ≤ c && c ≤ 13)

/-- The bytes of the rest of a text, with the 32 bits shifted in so far and how many of them beyond
eight are still to be written. -/
def decodeFrom (val : Nat) (bits : Int) : Str → Option Str
  | [] => some []
  | c :: rest =>
    if c = 61 then some []
    else if isSpace c then decodeFrom val bits rest
    else
      match base64Digit c with
      | none => none
      | some d =>
        let val := (val * 64 + d) % 2 ^ 32
        let bits := bits + 6
        if 0 ≤ bits then (decodeFrom val (bits - 8) rest).map (UInt8.ofNat (val >>> bits.toNat) :: ·)
        else decodeFrom val bits rest

def decodeBase64 (input : Str) : Option Str := decodeFrom 0 (-8) input

/-! ## Parts -/

/-- The part an artifact id and an index name. -/
def findPart (t : Task) (artifactId : Str) (index : Nat) : Except Str (Artifact × Part) :=
  match t.artifacts.find? fun a => a.artifactId = artifactId with
  | none => .error (lit "no such artifact: " ++ artifactId)
  | some a =>
    match a.parts[index]? with
    | none => .error "artifact part index out of range"
    | some p => .ok (a, p)

inductive Content where
  | bytes (bytes : Str)
  | url (url : Str)
  | bad (error : Str)

/-- Where the bytes of a part are: in its first field that is not empty. -/
def contentOf (p : Part) : Content :=
  if !p.raw.isEmpty then
    match decodeBase64 p.raw with
    | none => .bad "invalid base64 artifact data"
    | some bytes => .bytes bytes
  else if !p.text.isEmpty then .bytes p.text
  else if !p.data.isEmpty then .bytes p.data
  else if !p.url.isEmpty then .url p.url
  else .bad "artifact part has no materializable content"

/-! ## Downloads -/

/-- The scheme and the authority of a URL. -/
def origin (url : Str) : Str :=
  match splitAt? (lit "://") url with
  | none => []
  | some (scheme, rest) => scheme ++ lit "://" ++ rest.takeWhile (· ≠ 47)

def isHttp (url : Str) : Bool := (lit "https://").isPrefixOf url || (lit "http://").isPrefixOf url

/-- `A2AClient::download`. -/
def downloadRequest (url : Str) (auth : AuthSpec) : Except Exception HttpRequest := do
  let target ← addCredentials auth url
  return {
    endpoint := target, verb := "GET"
    headers := [(lit "Accept", lit "*/*"), (lit "User-Agent", userAgent)] ++ authHeaders auth }

/-- The body of a download, or what is said about its failure. -/
def downloaded (r : HttpResponse) : Except Str Str :=
  if r.transportError then .error r.transportErrorDetail
  else if !r.success then .error (lit "artifact download returned HTTP " ++ intText r.status)
  else .ok r.body

/-! ## Files -/

/-- What the file system does: `directory` creates and resolves the output directory, `create`
writes a new file in it; both say what went wrong. `digest` is SHA-256 in hexadecimal. -/
structure Files where
  digest : Str → Str
  directory : Str → Except Exception (Except Str Str)
  create : Str → Str → Str → Except Str Str

/-- The last component of a path. -/
def fileName (path : Str) : Str := afterLast 47 path

def safeFilename (name : Str) (a : Artifact) (index : Nat) : Str :=
  let name := fileName name
  let name := if name.isEmpty ∨ name = lit "." ∨ name = lit ".." then a.name else name
  let name := fileName name
  if name.isEmpty then a.artifactId ++ lit "-part-" ++ natText index else name

/-- An artifact's part to be kept in a file, with what the client asks of it. -/
structure Keeping where
  artifact : Artifact
  part : Part
  index : Nat
  outputDir : Str
  sha256 : Str

/-- The digest the client expects, or else the one the part names. -/
def Keeping.expected (k : Keeping) : Str := orElse k.sha256 (stringAt k.part.metadata "sha256")

/-- The path of the file the bytes are kept in, or why they are not. -/
def Keeping.keep (F : Files) (k : Keeping) (bytes : Str) : Except Exception (Except Str Str) := do
  if !k.expected.isEmpty && k.expected ≠ F.digest bytes then return .error "artifact SHA-256 mismatch"
  match ← F.directory k.outputDir with
  | .error e => return .error e
  | .ok dir =>
    let name := safeFilename k.part.filename k.artifact k.index
    if name.isEmpty ∨ name = lit "." ∨ name = lit ".." ∨ name.contains 47 ∨ name.contains 0 then
      return .error "invalid artifact filename"
    return F.create dir name bytes

def materializedEvent (F : Files) (taskId : Str) (k : Keeping) (bytes path : Str) : J :=
  .object [("type", .str "artifact.materialized"), ("task_id", .str taskId), ("artifact_id", .str k.artifact.artifactId),
    ("part", .int k.index), ("sha256", .str (F.digest bytes)), ("bytes", .int bytes.length),
    ("verified_expected_digest", .bool (!k.expected.isEmpty)), ("path", .str path)]

/-- Keeps the bytes and announces the file. -/
def keepBytes (F : Files) (taskId : Str) (k : Keeping) (bytes : Str) : M (Except Str Str) := do
  match ← k.keep F bytes with
  | .error e => return .error e
  | .ok path =>
    emit (materializedEvent F taskId k bytes path)
    return .ok path

/-! ## Materialising -/

/-- What a download has brought is kept, unless it failed. -/
def keepDownload (F : Files) (taskId : Str) (k : Keeping) (r : HttpResponse) : M (Except Str Str) :=
  match downloaded r with
  | .error e => return .error e
  | .ok bytes => keepBytes F taskId k bytes

/-- How the bytes of a part are had: they are there, or the request that brings them. -/
def partRequest (E : Env) (agent url : Str) : M (Except Str HttpRequest) := do
  match ← resolveEndpoint E agent with
  | none => return .error "unknown task agent"
  | some (endpoint, auth) =>
    if !isHttp url then return .error "artifact URL must use HTTP(S)"
    -- the credentials of the agent stay with its own origin
    let request ← downloadRequest url (if origin url = origin endpoint then auth else {})
    return .ok request

def materializeArtifact (E : Env) (F : Files) (taskId artifactId : Str) (index : Nat) (outputDir sha256 : Str) :
    M (Except Str Str) := do
  match ← getTask E taskId with
  | none => return .error (lit "no such task: " ++ taskId)
  | some t =>
    match findPart t artifactId index with
    | .error e => return .error e
    | .ok (a, p) =>
      let k : Keeping := ⟨a, p, index, outputDir, sha256⟩
      match contentOf p with
      | .bad e => return .error e
      | .bytes bytes => keepBytes F taskId k bytes
      | .url url =>
        match ← partRequest E t.agent url with
        | .error e => return .error e
        | .ok request => keepDownload F taskId k (← exchange E request)

example : decodeBase64 "aGVsbG8=" = some (lit "hello") := by decide

end A2ad.TaskManager
