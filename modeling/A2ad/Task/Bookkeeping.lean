/-
What the daemon keeps about its tasks on its own account: no answer and no event of a remote agent
changes it, and an operation on one task leaves the rows of the others alone.
-/
import A2ad.Task.Steps

namespace A2ad.TaskManager

open Bytes Json Client

/-! ## Definitions -/

/-- Every stored task is still there, with the same account. -/
def BooksKept (E : Env) (s s' : World) : Prop :=
  ∀ id t, s.task E id = some t → ∃ t', s'.task E id = some t' ∧ SameBooks t t'

/-- The rows an action leaves alone: all but a new one, all but that of its task, or those of the tasks
that have ended. -/
def Action.Confined (s s' : World) : Action → Prop
  | create _ => ∃ new, s.tasks.lookup new = none ∧ Elsewhere new s s'
  | respond taskId _ _ | cancel taskId | refresh taskId | event taskId _ _ => Elsewhere (cstr taskId) s s'
  | startup => ∀ id, (∀ row, s.tasks.lookup id = some row → row.state ∈ terminalNames) →
      s'.tasks.lookup id = s.tasks.lookup id

/-- No two local ids are one. -/
def DistinctIds (E : Env) : Prop := Function.Injective fun n => cstr (E.rand n)

/-- No task stands under an id that is still to be drawn. -/
def Unissued (E : Env) (s : World) : Prop := ∀ n, s.nonce ≤ n → s.tasks.lookup (cstr (E.rand n)) = none

/-- The rows stand under their own ids, which have been drawn. -/
structure Issued (E : Env) (s : World) : Prop where
  keys : WellKeyed s.tasks
  unissued : Unissued E s

/-! ## Accounts -/

section Accounts

variable {E : Env} {s s' u : World} {existing : Task}

instance : IsPreorder World (BooksKept E) where
  refl _ _ t h := ⟨t, h, rfl⟩
  trans _ _ _ h h' id t ht := by
    obtain ⟨t', ht', hbooks⟩ := h id t ht
    obtain ⟨t'', ht'', hbooks'⟩ := h' id t' ht'
    exact ⟨t'', ht'', hbooks'.trans hbooks⟩

theorem BooksKept.of_rows (h : s'.tasks = s.tasks) : BooksKept E s s' := by
  intro id t ht
  exact ⟨t, by rw [World.task, h]; exact ht, rfl⟩

/-- An account that has been read is bound to the columns and read back as it is. -/
theorem books_bound {parse : Str → Option J} {row row' : Row} {new : Task}
    (hbooks : SameBooks (taskFromRow parse row) new) (h : bindTask parse new = .ok row') :
    SameBooks (taskFromRow parse row) (taskFromRow parse row') := by
  obtain ⟨hid, -, hagent, -, -, htitle, hcwd, hcreated⟩ := bindTask_ok h
  unfold SameBooks bookkeeping taskFromRow at hbooks
  injection hbooks with h₁ _ h₃ _ _ _ h₇ h₈ h₉
  unfold SameBooks bookkeeping taskFromRow
  simp only [hid, hagent, htitle, hcwd, hcreated, h₁, h₃, h₇, h₈, h₉, cstr_cstr]

/-- A row that is written for a stored task keeps its account. -/
theorem Updates.books (hkept : Kept E s existing) (h : Updates E existing s s') : BooksKept E s s' := by
  have helsewhere := h.elsewhere
  obtain ⟨-, ⟨hsame, -⟩ | ⟨new, row', hbooks, hrow', htasks, -⟩⟩ := h
  · exact .of_rows hsame
  intro id t ht
  have hrowid : row'.id = existing.id := by rw [(bindTask_ok hrow').1, hbooks.id, hkept.1]
  by_cases hid : cstr id = existing.id
  · obtain rfl : existing = t := by
      have hread := hkept.2
      rw [World.task, hkept.1, ← hid] at hread
      exact Option.some.inj (hread.symm.trans ht)
    obtain ⟨row, hrow, hread⟩ := Option.map_eq_some_iff.1 ht
    subst hread
    rw [World.task, htasks]
    show ∃ t', ((if E.busy s.writes then s.tasks else s.tasks.insert row'.id row').lookup (cstr id)).map _ = _ ∧ _
    split
    · exact ⟨_, ht, rfl⟩
    · refine ⟨_, ?_, books_bound hbooks hrow'⟩
      rw [hrowid, ← hid, AList.lookup_insert]
      rfl
  · exact ⟨t, by rw [World.task, helsewhere (cstr id) (by rw [hkept.1]; exact hid)]; exact ht, rfl⟩

end Accounts

/-! ## Drawn ids -/

section Ids

variable {E : Env} {s s' : World} {existing : Task}

/-- A new row changes no other. -/
theorem Created.elsewhere (h : Created E s s') :
    ∃ n, s.nonce ≤ n ∧ (n < s'.nonce ∨ s'.tasks = s.tasks) ∧ Elsewhere (cstr (E.rand n)) s s' := by
  obtain ⟨-, ⟨hsame, -⟩ | ⟨new, row, n, hle, hlt, hid, hrow, htasks, -⟩⟩ := h
  · exact ⟨s.nonce, le_rfl, .inr hsame, fun id' _ => by rw [hsame]⟩
  · refine ⟨n, hle, .inl hlt, fun id' hne => ?_⟩
    rw [htasks]
    show (if E.busy s.writes then s.tasks else s.tasks.insert row.id row).lookup id' = _
    split
    · rfl
    · exact AList.lookup_insert_ne (by rwa [(bindTask_ok hrow).1, hid])

theorem Created.keys (h : Created E s s') (hkeys : WellKeyed s.tasks) : WellKeyed s'.tasks := by
  obtain ⟨-, ⟨hsame, -⟩ | ⟨new, row, n, -, -, -, hrow, htasks, -⟩⟩ := h
  · rwa [hsame]
  · rw [htasks]
    show WellKeyed (if E.busy s.writes then s.tasks else s.tasks.insert row.id row)
    split
    · exact hkeys
    · exact hkeys.insert (cstr_bound hrow).2

theorem Created.issued (hids : DistinctIds E) (hissued : Issued E s) (h : Created E s s') : Issued E s' := by
  refine ⟨h.keys hissued.keys, fun n hn => ?_⟩
  have hearlier := hissued.unissued n (h.1.trans hn)
  obtain ⟨m, -, hlt | hsame, helsewhere⟩ := h.elsewhere
  · rw [helsewhere, hearlier]
    intro hid
    have hnm : n = m := hids hid
    omega
  · rw [hsame, hearlier]

theorem Updates.issued (hkept : Kept E s existing) (hissued : Issued E s) (h : Updates E existing s s') : Issued E s' := by
  refine ⟨h.keys hissued.keys, fun n hn => ?_⟩
  have hearlier := hissued.unissued n (h.1.trans hn)
  rw [h.elsewhere, hearlier]
  rintro hid
  have hstored := hkept.2
  rw [World.task, ← hid, hearlier] at hstored
  cases hstored

theorem Issued.of_frame (hissued : Issued E s) (h : Frame quiet s s') : Issued E s' := by
  have hrows := h.rows (by decide)
  refine ⟨by rw [hrows]; exact hissued.keys, fun n hn => ?_⟩
  rw [hrows]
  exact hissued.unissued n (h.nonce.trans hn)

/-- What reconciling one task keeps. -/
def KeepsIssued (E : Env) (s s' : World) : Prop := Issued E s → Issued E s'

instance : IsPreorder World (KeepsIssued E) where
  refl _ := id
  trans _ _ _ h h' hs := h' (h hs)

theorem Step.issued (hids : DistinctIds E) {a : Action} (hissued : Issued E s) (h : Step E s a s') : Issued E s' := by
  rcases h.cases hissued.keys with ⟨req, -, hcreated⟩ | ⟨-, rfl⟩ | ⟨taskId, -, hquiet | ⟨existing, -, hkept, hupdate⟩⟩
  · exact hcreated.issued hids hissued
  · have hstep : KeepsIssued E s (Action.after E s .startup) :=
      startup_rule hissued.keys fun t row u u' _ _ _ hkept hupdate hu => hupdate.issued hkept hu
    exact hstep hissued
  · exact hissued.of_frame hquiet
  · exact hupdate.issued hkept hissued

/-! ## Steps -/

theorem Step.books {a : Action} (hissued : Issued E s) (h : Step E s a s') : BooksKept E s s' := by
  rcases h.cases hissued.keys with ⟨req, -, hcreated⟩ | ⟨-, rfl⟩ | ⟨taskId, -, hquiet | ⟨existing, -, hkept, hupdate⟩⟩
  · obtain ⟨n, hle, -, helsewhere⟩ := hcreated.elsewhere
    intro id t ht
    refine ⟨t, ?_, rfl⟩
    have hne : cstr id ≠ cstr (E.rand n) := by
      intro hid
      rw [World.task, hid, hissued.unissued n hle] at ht
      cases ht
    rw [World.task, helsewhere _ hne]
    exact ht
  · exact startup_rule hissued.keys fun t row u u' _ _ _ hkept hupdate => hupdate.books hkept
  · exact .of_rows (hquiet.rows (by decide))
  · exact hupdate.books hkept

/-- The rows that reconciling at startup is not for. -/
def EndedKept (tasks : Tasks) (s s' : World) : Prop :=
  ∀ id, (∀ row, tasks.lookup id = some row → row.state ∈ terminalNames) → s'.tasks.lookup id = s.tasks.lookup id

instance (tasks : Tasks) : IsPreorder World (EndedKept tasks) where
  refl _ _ _ := rfl
  trans _ _ _ h h' id hid := (h' id hid).trans (h id hid)

theorem confined_startup (hkeys : WellKeyed s.tasks) : EndedKept s.tasks s (Action.after E s .startup) := by
  refine startup_rule hkeys fun t row u u' hrow hstate _ hkept hupdate id hended => hupdate.elsewhere id ?_
  rw [hkept.1]
  rintro rfl
  exact hstate (hended row hrow)

theorem Step.confined {a : Action} (hissued : Issued E s) (h : Step E s a s') : a.Confined s s' := by
  rcases h.cases hissued.keys with ⟨req, rfl, hcreated⟩ | ⟨rfl, rfl⟩ | ⟨taskId, htarget, htargets⟩
  · obtain ⟨n, hle, -, helsewhere⟩ := hcreated.elsewhere
    exact ⟨cstr (E.rand n), hissued.unissued n hle, helsewhere⟩
  · exact confined_startup hissued.keys
  · have helsewhere : Elsewhere (cstr taskId) s s' := by
      rcases htargets with hquiet | ⟨existing, hid, hkept, hupdate⟩
      · intro id' _
        rw [hquiet.rows (by decide)]
      · rw [← hid, ← hkept.1]
        exact hupdate.elsewhere
    cases a with
    | create _ | startup => cases htarget
    | respond _ _ _ | cancel _ | refresh _ | event _ _ _ =>
      cases htarget
      exact helsewhere

end Ids

/-! ## Runs -/

/-- In every run, each action keeps the id, agent, title, directory and time of creation of every stored
task, and leaves every row alone that it is not for; a new task stands in a row of its own. -/
theorem bookkeeping_kept (E : Env) (hids : DistinctIds E) {s₀ s : World} {tr : List (Move World Action)}
    (hissued : Issued E s₀) (hrun : Run (Step E) s₀ tr s) :
    ∀ m ∈ tr, BooksKept E m.pre m.post ∧ m.label.Confined m.pre m.post := by
  intro m hm
  have hpre : Issued E m.pre :=
    hrun.invariant_pre (I := Issued E) hissued (fun _ _ _ hs hstep => hstep.issued hids hs) hm
  have hstep : Step E m.pre m.label m.post := hrun.mem_step hm
  exact ⟨hstep.books hpre, hstep.confined hpre⟩

/-! ## Two tasks of one remote id -/

/-- What an agent answers that gives every task one id. -/
def sameTask (n : Nat) : J := .object [("jsonrpc", .str "2.0"), ("id", .str (natText (n + 1))),
  ("result", .object [("id", .str "remote-7"), ("status", .object [("state", .str "TASK_STATE_WORKING")])])]

def sameEnv : Env := { Env.offline [sameTask 0, sameTask 1] with
  http := fun n _ => { status := 200, body := (sameTask n).text } }

def listing : CreateTaskRequest := { agent := builder.id, message := "list the files", requestId := "req-1" }

def emptyWorld : World := .offline sameEnv []

def onceCreated : World := Action.after sameEnv emptyWorld (.create listing)

def twiceCreated : World := Action.after sameEnv onceCreated (.create listing)

theorem plain_sameEnv (n : Nat) : cstr (sameEnv.rand n) = sameEnv.rand n := by
  refine cstr_eq_self fun hzero => ?_
  rcases List.mem_append.1 hzero with h | h
  · exact absurd h (by decide)
  · exact absurd (natText_digits n 0 h) (by decide)

theorem distinctIds_sameEnv : DistinctIds sameEnv := by
  intro a b hab
  dsimp only at hab
  rw [plain_sameEnv, plain_sameEnv] at hab
  exact natText_inj (List.append_cancel_left hab)

theorem issued_emptyWorld : Issued sameEnv emptyWorld :=
  ⟨wellKeyed_offline sameEnv [], fun _ _ => rfl⟩

/-- The run of the two requests. -/
def twice : List (Move World Action) :=
  [⟨emptyWorld, .create listing, onceCreated⟩, ⟨onceCreated, .create listing, twiceCreated⟩]

/-- Two tasks that the agent gives one id are two rows. -/
theorem bookkeeping_kept_same_id :
    ((twiceCreated.task sameEnv "id-0").map Task.remoteTaskId = some (some (lit "remote-7")) ∧
      (twiceCreated.task sameEnv "id-1").map Task.remoteTaskId = some (some (lit "remote-7"))) ∧
    ∀ m ∈ twice, BooksKept sameEnv m.pre m.post ∧ m.label.Confined m.pre m.post := by
  have hfirst : Step sameEnv emptyWorld (.create listing) onceCreated := .of_sound trivial
  have hsecond : Step sameEnv onceCreated (.create listing) twiceCreated := .of_sound trivial
  have hrun : Run (Step sameEnv) emptyWorld twice twiceCreated := (Run.nil.snoc hfirst).snoc hsecond
  exact ⟨by decide +kernel, bookkeeping_kept sameEnv distinctIds_sameEnv issued_emptyWorld hrun⟩

end A2ad.TaskManager
