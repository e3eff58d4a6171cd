/-
Materialising an artifact on a disk: the directory, the file that is created in it where nothing
stands, and what the calls of the operating system leave behind when one of them fails.
-/
import A2ad.Lib.Disk
import A2ad.Task.Artifact

namespace A2ad.TaskManager

open Bytes Json Client

/-! ## The disk -/

/-- A directory and a name in it. -/
abbrev Place := Str × Str

abbrev FileSystem := Disk Place UInt8

/-- How the operating system answers one materialisation: the directories it makes and the path they
come to, whether the directory opens, and the calls on the file. `digest` is SHA-256 in hexadecimal. -/
structure Host where
  digest : Str → Str
  made : Str → List Place
  resolved : Str → Except Exception (Except Str Str)
  opened : Bool
  saving : Disk.Saving

/-- `dir / name`, for a name of one component. -/
def joinPath (dir name : Str) : Str := if dir.getLast? = some 47 then dir ++ name else dir ++ lit "/" ++ name

/-- The file in the opened directory. -/
def Host.createFile (H : Host) (dir name bytes : Str) (d : FileSystem) : Except Str Str × FileSystem :=
  if H.opened then
    match d.save H.saving (dir, name) bytes with
    | (.notCreated, d) => (.error "cannot create artifact (existing files are never overwritten)", d)
    | (.notWritten, d) => (.error "artifact write failed", d)
    | (.saved, d) => (.ok (joinPath dir name), d)
  else (.error "cannot open output directory", d)

/-- What is seen of the disk by a program that does not carry it. -/
def Host.files (H : Host) (outputDir : Str) (d : FileSystem) : Files where
  digest := H.digest
  directory := H.resolved
  create dir name bytes := (H.createFile dir name bytes (d.makeDirectories (H.made outputDir))).1

/-! ## Materialising -/

/-- Programs on the daemon's state and the disk. -/
abbrev DM := Tx Exception (World × FileSystem)

def onWorld {α : Type} (x : M α) : DM α := fun s =>
  match x s.1 with
  | .ok a w => .ok a (w, s.2)
  | .error e w => .error e (w, s.2)

def onDisk {α : Type} (x : Tx Exception FileSystem α) : DM α := fun s =>
  match x s.2 with
  | .ok a d => .ok a (s.1, d)
  | .error e d => .error e (s.1, d)

/-- As `Keeping.keep`, on the disk. -/
def Keeping.save (H : Host) (k : Keeping) (bytes : Str) : Tx Exception FileSystem (Except Str Str) := do
  if !k.expected.isEmpty && k.expected ≠ H.digest bytes then return .error "artifact SHA-256 mismatch"
  modify (Disk.makeDirectories (H.made k.outputDir))
  match ← H.resolved k.outputDir with
  | .error e => return .error e
  | .ok dir =>
    let name := safeFilename k.part.filename k.artifact k.index
    if name.isEmpty ∨ name = lit "." ∨ name = lit ".." ∨ name.contains 47 ∨ name.contains 0 then
      return .error "invalid artifact filename"
    modifyGet (H.createFile dir name bytes)

/-- Saves the bytes and announces the file. -/
def saveBytes (H : Host) (taskId : Str) (k : Keeping) (bytes : Str) : DM (Except Str Str) := do
  match ← onDisk (k.save H bytes) with
  | .error e => return .error e
  | .ok path =>
    onWorld (emit (materializedEvent (H.files k.outputDir fun _ => none) taskId k bytes path))
    return .ok path

def saveDownload (H : Host) (taskId : Str) (k : Keeping) (r : HttpResponse) : DM (Except Str Str) :=
  match downloaded r with
  | .error e => return .error e
  | .ok bytes => saveBytes H taskId k bytes

/-- `TaskManager::materializeArtifact` with the disk it works on. -/
def saveArtifact (E : Env) (H : Host) (taskId artifactId : Str) (index : Nat) (outputDir sha256 : Str) :
    DM (Except Str Str) := do
  match ← onWorld (getTask E taskId) with
  | none => return .error (lit "no such task: " ++ taskId)
  | some t =>
    match findPart t artifactId index with
    | .error e => return .error e
    | .ok (a, p) =>
      let k : Keeping := ⟨a, p, index, outputDir, sha256⟩
      match contentOf p with
      | .bad e => return .error e
      | .bytes bytes => saveBytes H taskId k bytes
      | .url url =>
        match ← onWorld (partRequest E t.agent url) with
        | .error e => return .error e
        | .ok request => saveDownload H taskId k (← onWorld (exchange E request))

/-! ## The disk left out -/

section Forget

variable {α β : Type} {E : Env} {H : Host} {k : Keeping} {bytes : Str} {w : World} {d d' : FileSystem}

/-- The daemon's part of what a program comes to. -/
def forget : EStateM.Result Exception (World × FileSystem) α → EStateM.Result Exception World α
  | .ok a s => .ok a s.1
  | .error e s => .error e s.1

theorem onWorld_bind (x : M α) (f : α → DM β) : (onWorld x >>= f) (w, d) =
    match x w with
    | .ok a v => f a (v, d)
    | .error e v => .error e (v, d) := by
  show EStateM.bind (onWorld x) f (w, d) = _
  unfold EStateM.bind onWorld
  cases x w <;> rfl

theorem onDisk_bind (x : Tx Exception FileSystem α) (f : α → DM β) : (onDisk x >>= f) (w, d) =
    match x d with
    | .ok a d' => f a (w, d')
    | .error e d' => .error e (w, d') := by
  show EStateM.bind (onDisk x) f (w, d) = _
  unfold EStateM.bind onDisk
  cases x d <;> rfl

theorem forget_bind {x : M α} {f : α → DM β} {g : α → M β} (h : ∀ a v, forget (f a (v, d)) = g a v) :
    forget ((onWorld x >>= f) (w, d)) = (x >>= g) w := by
  rw [onWorld_bind]
  show _ = EStateM.bind x g w
  unfold EStateM.bind
  cases x w with
  | ok a v => exact h a v
  | error e v => rfl

/-- What `Keeping.save` comes to. -/
theorem save_eq : k.save H bytes d =
    if !k.expected.isEmpty && k.expected ≠ H.digest bytes then .ok (.error "artifact SHA-256 mismatch") d
    else
      let made := d.makeDirectories (H.made k.outputDir)
      match H.resolved k.outputDir with
      | .error e => .error e made
      | .ok (.error e) => .ok (.error e) made
      | .ok (.ok dir) =>
        let name := safeFilename k.part.filename k.artifact k.index
        if name.isEmpty ∨ name = lit "." ∨ name = lit ".." ∨ name.contains 47 ∨ name.contains 0 then
          .ok (.error "invalid artifact filename") made
        else .ok (H.createFile dir name bytes made).1 (H.createFile dir name bytes made).2 := by
  unfold Keeping.save
  split
  · rfl
  · have hmade : (modify (Disk.makeDirectories (H.made k.outputDir)) : Tx Exception FileSystem PUnit) d =
        .ok () (d.makeDirectories (H.made k.outputDir)) := rfl
    rw [Tx.bind_of_ok hmade]
    cases H.resolved k.outputDir with
    | error e => rfl
    | ok found =>
      rw [Tx.bind_of_ok (Tx.lift_of_ok rfl)]
      cases found with
      | error e => rfl
      | ok dir =>
        dsimp only
        split
        · rfl
        · rfl

/-- Seen without the disk, the bytes are kept. -/
theorem save_keep : k.keep (H.files k.outputDir d) bytes =
    match k.save H bytes d with
    | .ok r _ => .ok r
    | .error e _ => .error e := by
  rw [save_eq]
  unfold Keeping.keep Host.files
  dsimp only
  split
  · rfl
  · cases H.resolved k.outputDir with
    | error e => rfl
    | ok found =>
      cases found with
      | error e => rfl
      | ok dir =>
        dsimp only [bind, Except.bind]
        split <;> rfl

theorem forget_saveBytes {taskId : Str} : forget (saveBytes H taskId k bytes (w, d)) =
    keepBytes (H.files k.outputDir d) taskId k bytes w := by
  unfold saveBytes keepBytes
  rw [onDisk_bind, save_keep]
  cases k.save H bytes d with
  | error e d' => rfl
  | ok r d' => cases r <;> rfl

/-- A materialisation on a disk is, but for the disk, one against what is seen of it. -/
theorem forget_saveArtifact {taskId artifactId outputDir sha256 : Str} {index : Nat} :
    forget (saveArtifact E H taskId artifactId index outputDir sha256 (w, d)) =
      materializeArtifact E (H.files outputDir d) taskId artifactId index outputDir sha256 w := by
  unfold saveArtifact materializeArtifact
  refine forget_bind fun stored v => ?_
  cases stored with
  | none => rfl
  | some t =>
    dsimp only
    cases findPart t artifactId index with
    | error e => rfl
    | ok found =>
      obtain ⟨a, p⟩ := found
      dsimp only
      cases contentOf p with
      | bad e => rfl
      | bytes bytes => exact forget_saveBytes
      | url url =>
        refine forget_bind fun request v => ?_
        cases request with
        | error e => rfl
        | ok request =>
          refine forget_bind fun r v => ?_
          unfold saveDownload keepDownload
          cases downloaded r with
          | error e => rfl
          | ok bytes => exact forget_saveBytes

end Forget

/-! ## All or nothing -/

/-- A name that stands for one entry of its directory. -/
structure SingleComponent (name : Str) : Prop where
  nonempty : name ≠ []
  notDot : name ≠ "."
  notDots : name ≠ ".."
  noSlash : (47 : UInt8) ∉ name
  noNul : (0 : UInt8) ∉ name

/-- The bytes of a part: decoded, its text or data as it stands, or fetched from its URL with a
request made for it. -/
inductive PartBytes (E : Env) (agent : Str) (p : Part) (w : World) : Str → Prop
  | raw {bytes} (hraw : p.raw ≠ []) (hdecoded : decodeBase64 p.raw = some bytes) : PartBytes E agent p w bytes
  | text (hraw : p.raw = []) (htext : p.text ≠ []) : PartBytes E agent p w p.text
  | data (hraw : p.raw = []) (htext : p.text = []) (hdata : p.data ≠ []) : PartBytes E agent p w p.data
  | fetched {request r v v'} (hraw : p.raw = []) (htext : p.text = []) (hdata : p.data = []) (hurl : p.url ≠ [])
    (hrequest : partRequest E agent p.url w = .ok (.ok request) v) (hr : exchange E request v = .ok r v')
    (hok : r.transportError = false ∧ r.success = true) : PartBytes E agent p w r.body

section Outcome

variable {E : Env} {bytes name : Str} {w : World} {p : Part}

/-- A file is created whole under a free name, or the disk is as it was. -/
theorem createFile_cases (H : Host) (dir name bytes : Str) (d : FileSystem) :
    H.createFile dir name bytes d = (.ok (joinPath dir name), d.put (dir, name) (.file bytes)) ∧
    d (dir, name) = none ∨ ∃ e, H.createFile dir name bytes d = (.error e, d) := by
  unfold Host.createFile
  split
  · rcases d.save_cases H.saving (dir, name) bytes with ⟨hsaved, habsent, hdisk⟩ | ⟨hnot, hdisk⟩
    · left
      generalize d.save H.saving (dir, name) bytes = s at hsaved hdisk
      obtain ⟨outcome, d'⟩ := s
      subst hsaved hdisk
      exact ⟨rfl, habsent⟩
    · right
      generalize d.save H.saving (dir, name) bytes = s at hnot hdisk
      obtain ⟨outcome, d'⟩ := s
      subst hdisk
      cases outcome with
      | notCreated => exact ⟨_, rfl⟩
      | notWritten => exact ⟨_, rfl⟩
      | saved => exact absurd rfl hnot
  · exact .inr ⟨_, rfl⟩

theorem singleComponent_of (h : ¬ (name.isEmpty ∨ name = lit "." ∨ name = lit ".." ∨ name.contains 47 ∨ name.contains 0)) :
    SingleComponent name := by
  simp only [List.isEmpty_iff, List.contains_iff_mem, not_or] at h
  exact ⟨h.1, h.2.1, h.2.2.1, h.2.2.2.1, h.2.2.2.2⟩

/-- What saving the bytes of a part does to the disk. -/
theorem save_outcome (H : Host) (k : Keeping) (bytes : Str) (d : FileSystem) :
    match k.save H bytes d with
    | .ok (.ok path) d' => ∃ dir name, H.resolved k.outputDir = .ok (.ok dir) ∧ SingleComponent name ∧
      path = joinPath dir name ∧ Disk.Kept d d' ∧ Disk.OneNew (dir, name) bytes d d' ∧
      (k.expected ≠ [] → H.digest bytes = k.expected)
    | .ok (.error _) d' => Disk.Kept d d' ∧ Disk.NothingNew d d'
    | .error _ d' => Disk.Kept d d' ∧ Disk.NothingNew d d' := by
  have hkept : Disk.Kept d (d.makeDirectories (H.made k.outputDir)) := Disk.kept_makeDirectories _
  have hnothing : Disk.NothingNew d (d.makeDirectories (H.made k.outputDir)) := Disk.nothingNew_makeDirectories _
  rw [save_eq]
  by_cases hmismatch : (!k.expected.isEmpty && k.expected ≠ H.digest bytes) = true
  · rw [if_pos hmismatch]
    exact ⟨refl d, Disk.nothingNew_rfl⟩
  · rw [if_neg hmismatch]
    dsimp only
    cases hdir : H.resolved k.outputDir with
    | error e => exact ⟨hkept, hnothing⟩
    | ok found =>
      cases found with
      | error e => exact ⟨hkept, hnothing⟩
      | ok dir =>
        dsimp only
        generalize safeFilename k.part.filename k.artifact k.index = name
        by_cases hname : name.isEmpty ∨ name = lit "." ∨ name = lit ".." ∨ name.contains 47 ∨ name.contains 0
        · rw [if_pos hname]
          exact ⟨hkept, hnothing⟩
        · rw [if_neg hname]
          rcases createFile_cases H dir name bytes (d.makeDirectories (H.made k.outputDir)) with ⟨hcreated, habsent⟩ | ⟨e, hcreated⟩
          · have hnew : Disk.OneNew (dir, name) bytes _ _ := Disk.oneNew_put habsent
            rw [hcreated]
            have hkept' := IsTrans.trans _ _ _ hkept hnew.kept
            refine ⟨dir, name, rfl, singleComponent_of hname, rfl, hkept', hnew.after hnothing hkept, fun hexpected => ?_⟩
            simp only [Bool.and_eq_true, Bool.not_eq_true', List.isEmpty_eq_false_iff, decide_eq_true_eq, not_and,
              not_not] at hmismatch
            exact (hmismatch hexpected).symm
          · rw [hcreated]
            exact ⟨hkept, hnothing⟩

theorem partBytes_of_bytes {agent : Str} (h : contentOf p = .bytes bytes) : PartBytes E agent p w bytes := by
  unfold contentOf at h
  split at h
  · rename_i hraw
    cases hdecoded : decodeBase64 p.raw with
    | none =>
      rw [hdecoded] at h
      cases h
    | some decoded =>
      rw [hdecoded] at h
      cases h
      exact .raw (by simpa using hraw) hdecoded
  · rename_i hraw
    have hraw : p.raw = [] := by simpa using hraw
    split at h
    · rename_i htext
      cases h
      exact .text hraw (by simpa using htext)
    · rename_i htext
      split at h
      · rename_i hdata
        cases h
        exact .data hraw (by simpa using htext) (by simpa using hdata)
      · split at h <;> cases h

theorem contentOf_url {url : Str} (h : contentOf p = .url url) :
    p.raw = [] ∧ p.text = [] ∧ p.data = [] ∧ p.url ≠ [] ∧ url = p.url := by
  unfold contentOf at h
  split at h
  · split at h <;> cases h
  · rename_i hraw
    split at h
    · cases h
    · rename_i htext
      split at h
      · cases h
      · rename_i hdata
        split at h
        · rename_i hurl
          cases h
          exact ⟨by simpa using hraw, by simpa using htext, by simpa using hdata, by simpa using hurl, rfl⟩
        · cases h

/-- What materialising comes to: it fails before anything is saved, or is the saving of the bytes of
the part. -/
theorem saveArtifact_cases (E : Env) (H : Host) (taskId artifactId : Str) (index : Nat) (outputDir sha256 : Str) (w : World)
    (d : FileSystem) :
    (∃ e w', saveArtifact E H taskId artifactId index outputDir sha256 (w, d) = .ok (.error e) (w', d)) ∨
    (∃ x w', saveArtifact E H taskId artifactId index outputDir sha256 (w, d) = .error x (w', d)) ∨
    ∃ t a p bytes v, w.task E taskId = some t ∧ findPart t artifactId index = .ok (a, p) ∧ PartBytes E t.agent p w bytes ∧
      saveArtifact E H taskId artifactId index outputDir sha256 (w, d) =
        saveBytes H taskId ⟨a, p, index, outputDir, sha256⟩ bytes (v, d) := by
  unfold saveArtifact
  rw [onWorld_bind]
  cases ht : w.task E taskId with
  | none =>
    left
    refine ⟨lit "no such task: " ++ taskId, w, ?_⟩
    rw [getTask, observe, ht]
    rfl
  | some t =>
    rw [getTask, observe, ht]
    dsimp only
    cases hp : findPart t artifactId index with
    | error e => exact .inl ⟨_, _, rfl⟩
    | ok found =>
      obtain ⟨a, p⟩ := found
      dsimp only
      cases hcontent : contentOf p with
      | bad e => exact .inl ⟨_, _, rfl⟩
      | bytes bytes => exact .inr (.inr ⟨t, a, p, bytes, w, rfl, hp, partBytes_of_bytes hcontent, rfl⟩)
      | url url =>
        dsimp only
        rw [onWorld_bind]
        cases hrequest : partRequest E t.agent url w with
        | error x v => exact .inr (.inl ⟨_, _, rfl⟩)
        | ok request v =>
          cases request with
          | error e => exact .inl ⟨_, _, rfl⟩
          | ok request =>
            dsimp only
            rw [onWorld_bind]
            cases hr : exchange E request v with
            | error x v' => exact .inr (.inl ⟨_, _, rfl⟩)
            | ok r v' =>
              dsimp only
              unfold saveDownload downloaded
              split
              · exact .inl ⟨_, _, rfl⟩
              · split
                · exact .inl ⟨_, _, rfl⟩
                · rename_i htransport hsuccess
                  obtain ⟨hraw, htext, hdata, hurl, rfl⟩ := contentOf_url hcontent
                  refine .inr (.inr ⟨t, a, p, r.body, v', rfl, hp, ?_, rfl⟩)
                  exact .fetched hraw htext hdata hurl hrequest hr ⟨by simpa using htransport, by simpa using hsuccess⟩

/-- **All or nothing.** Whatever the calls of the operating system come to: a materialisation that
succeeds has made exactly one file, new, under a single name in the directory that the output
directory comes to, with the bytes of the part, and their digest is the one asked for, or else the one
the part names; a materialisation that fails has made no file; and whatever was on the disk stays as
it is. -/
theorem materialized_all_or_nothing (E : Env) (H : Host) (taskId artifactId : Str) (index : Nat) (outputDir sha256 : Str)
    (w : World) (d : FileSystem) :
    match saveArtifact E H taskId artifactId index outputDir sha256 (w, d) with
    | .ok (.ok path) (_, d') => ∃ t a p bytes dir name, w.task E taskId = some t ∧
      findPart t artifactId index = .ok (a, p) ∧ PartBytes E t.agent p w bytes ∧
      H.resolved outputDir = .ok (.ok dir) ∧ SingleComponent name ∧ path = joinPath dir name ∧ Disk.Kept d d' ∧
      Disk.OneNew (dir, name) bytes d d' ∧ (sha256 ≠ [] → H.digest bytes = sha256) ∧
      (sha256 = [] → ∀ s, p.metadata.get? "sha256" = some (.str s) → s ≠ [] → H.digest bytes = s)
    | .ok (.error _) (_, d') => Disk.Kept d d' ∧ Disk.NothingNew d d'
    | .error _ (_, d') => Disk.Kept d d' := by
  rcases saveArtifact_cases E H taskId artifactId index outputDir sha256 w d with
    ⟨e, w', hfailed⟩ | ⟨x, w', hthrown⟩ | ⟨t, a, p, bytes, v, ht, hp, hbytes, hsave⟩
  · rw [hfailed]
    exact ⟨refl d, Disk.nothingNew_rfl⟩
  · rw [hthrown]
    exact fun _ _ hn => hn
  · have houtcome := save_outcome H ⟨a, p, index, outputDir, sha256⟩ bytes d
    rw [hsave]
    unfold saveBytes
    rw [onDisk_bind]
    generalize Keeping.save H ⟨a, p, index, outputDir, sha256⟩ bytes d = outcome at houtcome ⊢
    match outcome with
    | .error x d' => exact houtcome.1
    | .ok (.error e) d' => exact houtcome
    | .ok (.ok path) d' =>
      obtain ⟨dir, name, hdir, hname, hpath, hkept, hnew, hdigest⟩ := houtcome
      refine ⟨t, a, p, bytes, dir, name, ht, hp, hbytes, hdir, hname, hpath, hkept, hnew, fun hgiven => ?_, ?_⟩
      · have hexpected : orElse sha256 (stringAt p.metadata "sha256") = sha256 := by
          rw [orElse, if_neg (by simpa using hgiven)]
        rw [Keeping.expected, hexpected] at hdigest
        exact hdigest hgiven
      · rintro rfl s hs hne
        have hexpected : orElse [] (stringAt p.metadata "sha256") = s := by
          rw [orElse, List.isEmpty_nil, if_pos rfl, stringAt, hs]
        rw [Keeping.expected, hexpected] at hdigest
        exact hdigest hne

/-! ### A report in a new directory -/

def reportArtifact : Artifact := { artifactId := "report", parts := [{ text := "all green", filename := "../report.txt" }] }

def reportEnv : Env := .offline [.arr [artifactJson (fun _ => none) reportArtifact]]

def reportWorld : World := .offline reportEnv [{ id := "local-1", agent := builder.id, artifacts := [reportArtifact] }]

def reportDigest : Str := "8c5ab583e7c4e1f7c512f74e3802f2f1047231d3330636a624bb8b4158460b43"

/-- `~/out` comes to `/home/out`, which is made; the write is interrupted and goes on. -/
def reportHost : Host where
  digest bytes := if bytes = lit "all green" then reportDigest else List.replicate 64 48
  made _ := [(lit "/home", lit "out")]
  resolved _ := .ok (.ok "/home/out")
  opened := true
  saving := ⟨true, [.wrote 3, .interrupted, .wrote 6], true, true⟩

def reportSaved : EStateM.Result Exception (World × FileSystem) (Except Str Str) :=
  saveArtifact reportEnv reportHost "local-1" "report" 0 "~/out" reportDigest (reportWorld, fun _ => none)

theorem report_facts : (Tx.result? reportSaved).bind Except.toOption = some (lit "/home/out/report.txt") ∧
    ((reportWorld.task reportEnv "local-1").bind fun t => (findPart t "report" 0).toOption).map (fun found =>
      (found.2.raw, found.2.text)) = some ([], lit "all green") := by
  decide +kernel

/-- The report is whole, in the directory that was asked for, and its digest the one that was given. -/
theorem materialized_all_or_nothing_report : ∃ name, joinPath "/home/out" name = "/home/out/report.txt" ∧
    SingleComponent name ∧
    Disk.OneNew (lit "/home/out", name) (lit "all green") (fun _ => none) (Tx.endState reportSaved).2 ∧
    reportHost.digest (lit "all green") = reportDigest := by
  obtain ⟨hresult, hpart⟩ := report_facts
  obtain ⟨saved, hresult, hpath⟩ := Option.bind_eq_some_iff.1 hresult
  cases saved with
  | error e => cases hpath
  | ok path =>
    obtain rfl : path = lit "/home/out/report.txt" := Option.some.inj hpath
    have hsaved := materialized_all_or_nothing reportEnv reportHost "local-1" "report" 0 "~/out" reportDigest reportWorld fun _ => none
    rw [show saveArtifact .. = _ from Tx.ok_of_result hresult] at hsaved
    obtain ⟨t, a, p, bytes, dir, name, ht, hp, hbytes, hdir, hname, hjoined, -, hnew, hdigest, -⟩ := hsaved
    cases hdir
    simp only [ht, hp, Option.bind_some, Except.toOption, Option.map_some, Option.some.injEq, Prod.mk.injEq] at hpart
    obtain ⟨hraw, htext⟩ := hpart
    -- the bytes of the part are its text
    have hbytes : bytes = lit "all green" := by
      cases hbytes with
      | raw hne _ => exact absurd hraw hne
      | text _ _ => exact htext
      | data _ hempty _ | fetched _ hempty _ _ _ _ _ =>
        rw [htext] at hempty
        cases hempty
    rw [hbytes] at hnew hdigest
    exact ⟨name, hjoined.symm, hname, hnew, hdigest (by decide)⟩

end Outcome

end A2ad.TaskManager
