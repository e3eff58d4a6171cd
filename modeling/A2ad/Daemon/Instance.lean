/-
The instance lock: a process locks a file beside its database before it opens the database, and whatever
processes are started, a database is served by one of them at a time. The second would take the calls of
the first for the remains of a crash.
-/
import A2ad.Ipc.System
import A2ad.Lib.Exclusive

namespace A2ad.Daemon

open Bytes Exclusive Ipc

/-! ## What is in a process and what outlives it -/

/-- What outlives a process: its database, and what has gone out into the world. -/
structure Lasting where
  store : Control.St
  tasks : Tasks
  saved : AList fun _ : Str => SavedAgent
  sent : List Sent
  events : List Json.J
  isoTicks : Nat
  steadyTicks : Nat
  nonce : Nat
  exchanges : Nat
  writes : Nat
  saves : Nat

def lasting (s : Service) : Lasting :=
  ⟨s.control.st, s.tasks.tasks, s.tasks.saved, s.tasks.sent, s.tasks.events, s.tasks.isoTicks, s.tasks.steadyTicks, s.tasks.nonce,
    s.tasks.exchanges, s.tasks.writes, s.tasks.saves⟩

/-- The memory of the process, over what is in the database now. -/
def mount (s : Service) (d : Lasting) : Service := { s with
  control := { s.control with st := d.store }
  tasks := { s.tasks with
    tasks := d.tasks, saved := d.saved, sent := d.sent, events := d.events, isoTicks := d.isoTicks, steadyTicks := d.steadyTicks
    nonce := d.nonce, exchanges := d.exchanges, writes := d.writes, saves := d.saves } }

/-- Nothing is running. -/
structure Down (s : Service) : Prop where
  up : s.control.up = false
  flights : s.control.flights = []
  callbacks : s.callbacks = []

/-- The same state, or nothing running on the same database: what is left in memory is not looked at again. -/
def Alike (s t : Service) : Prop := s = t ∨ Down s ∧ Down t ∧ lasting t = lasting s

section Machine

variable {C : Control.Env} {E : Env} {F : TaskManager.Files} {s t s' : Service} {turn : Service.Turn}

theorem restart_lasting {c : Config} (h : lasting t = lasting s) : TaskManager.restart c t.tasks = TaskManager.restart c s.tasks := by
  unfold lasting at h
  cases hs : s.tasks
  cases ht : t.tasks
  simp only [hs, ht, Lasting.mk.injEq] at h
  obtain ⟨-, rfl, rfl, rfl, rfl, rfl, rfl, rfl, rfl, rfl, rfl⟩ := h
  rfl

/-- Where nothing is running a process can only be started, or end. -/
theorem Down.step (hs : Down s) (h : Service.Step C E F s turn s') :
    (∃ config u v, turn = .boots config ∧ Control.startup C s.control.st = .ok u v ∧
      s' = ⟨⟨v, true, config.enforcePolicy, []⟩, config, TaskManager.restart config s.tasks, []⟩) ∨
    turn = .crashes ∧ Down s' ∧ lasting s' = lasting s := by
  have hnone : ∀ {f : Control.Flight} {l l' : List Control.Flight}, s.control.flights ≠ l ++ f :: l' := by
    intro f l l'
    rw [hs.flights]
    simp
  have hnobody : ∀ {c : Callback} {l l' : List Callback}, s.callbacks ≠ l ++ c :: l' := by
    intro c l l'
    rw [hs.callbacks]
    simp
  have hdown : s.control.up ≠ true := by simp [hs.up]
  cases h with
  | enters h =>
    cases h with
    | enter hup => exact absurd hup hdown
  | refuses h =>
    cases h with
    | enterThrows hup => exact absurd hup hdown
    | enterFails hup => exact absurd hup hdown
    | leaveThrows hf => exact absurd hf hnone
    | leaveFails hf => exact absurd hf hnone
  | starts h =>
    cases h with
    | start hf => exact absurd hf hnone
  | advances hl => exact absurd hl hnobody
  | leaves hl => exact absurd hl hnobody
  | drops hl => exact absurd hl hnobody
  | logs _ h =>
    cases h with
    | event hup => exact absurd hup hdown
  | works hup => exact absurd hup hdown
  | boots h =>
    cases h with
    | boot _ hstart => exact .inl ⟨_, _, _, rfl, hstart, rfl⟩
  | crashes h =>
    cases h with
    | crash => exact .inr ⟨rfl, ⟨rfl, rfl, rfl⟩, rfl⟩

/-- No step tells apart what is left in memory where nothing is running. -/
theorem alike_step (h : Alike s t) (hstep : Service.Step C E F s turn s') : ∃ t', Service.Step C E F t turn t' ∧ Alike s' t' := by
  rcases h with rfl | ⟨hs, ht, hlasting⟩
  · exact ⟨s', hstep, .inl rfl⟩
  · have hstore : t.control.st = s.control.st := congrArg Lasting.store hlasting
    rcases hs.step hstep with ⟨config, u, v, rfl, hstart, rfl⟩ | ⟨rfl, hdown, hlasting'⟩
    · refine ⟨_, .boots (.boot ht.up (hstore ▸ hstart)), .inl ?_⟩
      rw [restart_lasting hlasting]
    · exact ⟨_, .crashes .crash, .inr ⟨hdown, ⟨rfl, rfl, rfl⟩, hlasting.trans hlasting'.symm⟩⟩

/-- The daemon as one process on one database. -/
def machine (C : Control.Env) (E : Env) (F : TaskManager.Files) : Machine Service Lasting Service.Turn where
  Step := Service.Step C E F
  disk := lasting
  mount := mount
  fresh := {}
  ends := .crashes
  Same := Alike
  mount_disk _ := rfl
  disk_mount _ _ := rfl
  same_refl _ := .inl rfl
  same_disk h := h.elim (fun h => congrArg lasting h.symm) fun h => h.2.2
  same_step := alike_step
  ends_step _ := ⟨_, .crashes .crash, .inr ⟨⟨rfl, rfl, rfl⟩, ⟨rfl, rfl, rfl⟩, rfl⟩⟩

end Machine

/-! ## Processes -/

/-- Which file a path names. A database goes by one name, or its other names stand beside one lock file. -/
structure Inodes (ι : Type) where
  inode : Str → ι
  guarded : ∀ {p q : Str}, inode p = inode q → inode (p ++ lit ".lock") = inode (q ++ lit ".lock")

/-- The lock that `main` takes for the database at a path. -/
def Inodes.layout {ι : Type} (I : Inodes ι) : Layout Str ι ι := ⟨I.inode, fun db => I.inode (db ++ lit ".lock"), I.guarded⟩

/-- A computer on which daemons are started, each a process with a number. -/
abbrev Computer (ι : Type) := Host Str ι ι Nat Service Lasting

/-- No database has been written to. -/
def Computer.new (ι : Type) : Computer ι := .idle fun _ => lasting {}

section Computers

variable {ι : Type} [DecidableEq ι]

abbrev Computer.Step (C : Control.Env) (E : Env) (F : TaskManager.Files) (I : Inodes ι) :
    Computer ι → Act Str Nat Service.Turn → Computer ι → Prop := Host.Step I.layout (machine C E F)

/-- What a process does, it does to its own database. -/
theorem acts_apart {C : Control.Env} {E : Env} {F : TaskManager.Files} {I : Inodes ι} {h h' : Computer ι} (hh : Held I.layout h)
    {pid pid' : Nat} {turn : Service.Turn} (hstep : Computer.Step C E F I h (.acts pid turn) h') (hpid : pid' ≠ pid)
    {p' : Process Str Service} (hp' : h.process pid' = some p') :
    h'.disk (I.inode p'.path) = h.disk (I.inode p'.path) ∧ h'.process pid' = some p' := by
  cases hstep with
  | acts hp =>
    refine ⟨Function.update_of_ne (fun hfile => hpid ?_) .., (Function.update_of_ne hpid ..).trans hp'⟩
    exact hh.alone hp' hp hfile

/-- **One daemon to a database.** However daemons are started on a computer, on whatever paths, and however they end: no
two have one database open; what has been done to a database is a run of one service that is started again and again,
turn by turn, and a process that serves it is in the state of that service; and no turn of a process, its recovery at
the start among them, changes the database or the calls of another. -/
theorem one_daemon_per_database (C : Control.Env) (E : Env) (F : TaskManager.Files) (I : Inodes ι)
    {tr : List (Move (Computer ι) (Act Str Nat Service.Turn))} {h : Computer ι} (hrun : Run (Computer.Step C E F I) (Computer.new ι) tr h) :
    (∀ pid pid' p p', h.process pid = some p → h.process pid' = some p' → I.inode p.path = I.inode p'.path → pid = pid') ∧
      (∀ f, ∃ turns s, Run (Service.Step C E F) {} turns s ∧
        turns.map Move.label = tr.filterMap (seen I.layout (machine C E F) f) ∧ lasting s = h.disk f ∧
        ∀ pid p, h.process pid = some p → I.inode p.path = f → Alike (mount p.memory (h.disk f)) s) ∧
      ∀ pid turn h', Computer.Step C E F I h (.acts pid turn) h' → ∀ pid' p', pid' ≠ pid → h.process pid' = some p' →
        h'.disk (I.inode p'.path) = h.disk (I.inode p'.path) ∧ h'.process pid' = some p' := by
  have hheld := held_run hrun
  refine ⟨fun pid pid' p p' hp hp' hfile => hheld.alone hp hp' hfile, fun f => ?_,
    fun pid turn h' hstep pid' p' hpid hp' => acts_apart hheld hstep hpid hp'⟩
  obtain ⟨turns, s, hturns, hlabels, hstands⟩ := stands_run hrun f
  exact ⟨turns, s, hturns, hlabels, hstands.disk, hstands.process⟩

end Computers

/-- Every path is a file of its own. -/
def plainInodes : Inodes Str where
  inode p := p
  guarded h := congrArg (· ++ lit ".lock") h

/-- A daemon has locked its database. -/
def lockedProcess : Process Str Service := ⟨"a2ad.db", {}⟩

def lockedComputer : Computer Str :=
  ⟨fun _ => lasting {}, Function.update (fun _ => none) (lit "a2ad.db.lock") (some 1), Function.update (fun _ => none) 1 (some lockedProcess)⟩

theorem lockedComputer_process : lockedComputer.process 1 = some lockedProcess := rfl

theorem lockedComputer_step : Computer.Step Control.sampleEnv (Env.offline []) keepingFiles plainInodes (Computer.new Str)
    (.locks 1 "a2ad.db") lockedComputer :=
  Host.Step.locks rfl rfl

/-- The daemon after its start. -/
def bootedService : Service :=
  ⟨⟨Control.Sys.init.st, true, false, []⟩, {}, TaskManager.restart {} {}, []⟩

theorem bootedService_step : (machine Control.sampleEnv (Env.offline []) keepingFiles).Step (mount lockedProcess.memory (lasting {}))
    (.boots {}) bootedService :=
  @Service.Step.boots Control.sampleEnv (Env.offline []) keepingFiles {} {} _ (.boot rfl rfl)

/-- The computer once the daemon serves its database. -/
def servedComputer : Computer Str where
  disk := Function.update lockedComputer.disk (lit "a2ad.db") (lasting bootedService)
  holder := lockedComputer.holder
  process := Function.update lockedComputer.process 1 (some ⟨"a2ad.db", bootedService⟩)

theorem servedComputer_step : Computer.Step Control.sampleEnv (Env.offline []) keepingFiles plainInodes lockedComputer
    (.acts 1 (.boots {})) servedComputer :=
  Host.Step.acts lockedComputer_process bootedService_step

/-- A daemon serves a database, and a second one gives up: the first is the only one that has it open. -/
theorem one_daemon_per_database_second : ∃ tr,
    Run (Computer.Step Control.sampleEnv (Env.offline []) keepingFiles plainInodes) (Computer.new Str) tr servedComputer ∧
      (tr.map Move.label).getLast? = some (.fails 2 "a2ad.db") ∧
      ∀ pid p, servedComputer.process pid = some p → p.path = lit "a2ad.db" → pid = 1 := by
  have hfails : Computer.Step Control.sampleEnv (Env.offline []) keepingFiles plainInodes servedComputer (.fails 2 "a2ad.db")
      servedComputer := Host.Step.fails rfl
  have hrun := ((Run.nil.snoc lockedComputer_step).snoc servedComputer_step).snoc hfails
  refine ⟨_, hrun, rfl, fun pid p hp hpath => ?_⟩
  exact (one_daemon_per_database _ _ _ _ hrun).1 pid 1 p _ hp rfl hpath

end A2ad.Daemon
