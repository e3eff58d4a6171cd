/-
Processes on shared files, each with a memory of its own, that take an exclusive lock before they open
a file. What they do to a file together is what one process does that is started again and again.
-/
import A2ad.Lib.Trace
import Mathlib.Logic.Function.Basic

namespace Exclusive

/-- The file that a path opens, and the file that is locked before. -/
structure Layout (Path File Lock : Type) where
  file : Path → File
  lock : Path → Lock
  guarded : ∀ {p q : Path}, file p = file q → lock p = lock q

/-- One process on one file. A state holds what is on the file and what is in memory; `mount` puts another content
of the file in place. -/
structure Machine (σ δ ℓ : Type) where
  Step : σ → ℓ → σ → Prop
  disk : σ → δ
  mount : σ → δ → σ
  /-- before the process does anything -/
  fresh : σ
  /-- the end of the process -/
  ends : ℓ
  /-- states that no step tells apart -/
  Same : σ → σ → Prop
  mount_disk : ∀ s, mount s (disk s) = s
  disk_mount : ∀ s d, disk (mount s d) = d
  same_refl : ∀ s, Same s s
  same_disk : ∀ {s t}, Same s t → disk t = disk s
  same_step : ∀ {s t l s'}, Same s t → Step s l s' → ∃ t', Step t l t' ∧ Same s' t'
  ends_step : ∀ s, ∃ t, Step s ends t ∧ Same (mount fresh (disk s)) t

structure Process (Path σ : Type) where
  path : Path
  memory : σ

structure Host (Path File Lock Pid σ δ : Type) where
  disk : File → δ
  holder : Lock → Option Pid
  process : Pid → Option (Process Path σ)

inductive Act (Path Pid ℓ : Type) where
  | locks (pid : Pid) (path : Path)
  /-- the lock is held, or the lock file cannot be opened: the process gives up -/
  | fails (pid : Pid) (path : Path)
  | acts (pid : Pid) (l : ℓ)
  /-- the process ends, however it does, and the kernel drops its lock -/
  | exits (pid : Pid)

section Hosts

variable {Path File Lock Pid σ δ ℓ : Type} {L : Layout Path File Lock} {M : Machine σ δ ℓ}
variable {h h' : Host Path File Lock Pid σ δ} {f : File} {s : σ}

/-- The host before any process is started. -/
def Host.idle (d : File → δ) : Host Path File Lock Pid σ δ := ⟨d, fun _ => none, fun _ => none⟩

/-! ## Who has a file open -/

/-- Every process holds the lock of its path. -/
def Held (L : Layout Path File Lock) (h : Host Path File Lock Pid σ δ) : Prop :=
  ∀ pid p, h.process pid = some p → h.holder (L.lock p.path) = some pid

/-- No two processes have one file open. -/
theorem Held.alone (hh : Held L h) {pid pid' : Pid} {p p' : Process Path σ} (hp : h.process pid = some p)
    (hp' : h.process pid' = some p') (hfile : L.file p.path = L.file p'.path) : pid = pid' := by
  have hheld := hh _ _ hp
  rw [L.guarded hfile, hh _ _ hp'] at hheld
  exact (Option.some.inj hheld).symm

/-- The one process on the file `f` is in the state `s`: in that of the process that has the file open, and before
anything where none has. -/
structure Stands (L : Layout Path File Lock) (M : Machine σ δ ℓ) (f : File) (h : Host Path File Lock Pid σ δ) (s : σ) : Prop where
  disk : M.disk s = h.disk f
  process : ∀ pid p, h.process pid = some p → L.file p.path = f → M.Same (M.mount p.memory (h.disk f)) s
  vacant : (∀ pid p, h.process pid = some p → L.file p.path ≠ f) → M.Same (M.mount M.fresh (h.disk f)) s

/-- What touches neither the file nor the processes that have it open. -/
theorem Stands.frame (hs : Stands L M f h s) (hdisk : h'.disk f = h.disk f)
    (hprocess : ∀ pid p, L.file p.path = f → (h'.process pid = some p ↔ h.process pid = some p)) : Stands L M f h' s := by
  refine ⟨hs.disk.trans hdisk.symm, fun pid p hp hfile => ?_, fun hother => ?_⟩
  · rw [hdisk]
    exact hs.process pid p ((hprocess pid p hfile).1 hp) hfile
  · rw [hdisk]
    exact hs.vacant fun pid p hp hfile => hother pid p ((hprocess pid p hfile).2 hp) hfile

section Processes

variable [DecidableEq Pid]

/-- A process on another file is set aside without a trace in the processes on this one. -/
theorem process_update {processes : Pid → Option (Process Path σ)} {pid pid' : Pid} {p : Process Path σ} {o : Option (Process Path σ)}
    (hold : ∀ q, processes pid = some q → L.file q.path ≠ f) (hnew : ∀ q, o = some q → L.file q.path ≠ f)
    (hfile : L.file p.path = f) : Function.update processes pid o pid' = some p ↔ processes pid' = some p := by
  by_cases hpid : pid' = pid
  · subst hpid
    rw [Function.update_self]
    exact iff_of_false (fun h => hnew p h hfile) fun h => hold p h hfile
  · rw [Function.update_of_ne hpid]

/-- The process that has the file open ends. -/
theorem Stands.exits (hh : Held L h) {pid : Pid} {p : Process Path σ} {holder : Lock → Option Pid}
    (hs : Stands L M (L.file p.path) h s) (hp : h.process pid = some p) :
    ∃ t, M.Step s M.ends t ∧ Stands L M (L.file p.path) ⟨h.disk, holder, Function.update h.process pid none⟩ t := by
  obtain ⟨t, hnext, hsame⟩ := M.ends_step s
  refine ⟨t, hnext, ((M.same_disk hsame).trans (M.disk_mount ..)).trans hs.disk, fun pid' p' hp' hfile' => ?_, fun _ => ?_⟩
  · replace hp' : Function.update h.process pid none pid' = some p' := hp'
    rw [Function.update_apply] at hp'
    split at hp'
    · cases hp'
    · rename_i hpid
      exact absurd (hh.alone hp' hp hfile') hpid
  · rwa [← hs.disk]

/-- A process takes the lock: whoever had the file open would hold it. -/
theorem Stands.locks (hh : Held L h) {pid : Pid} {path : Path} {holder : Lock → Option Pid} (hs : Stands L M f h s)
    (hnone : h.process pid = none) (hfree : h.holder (L.lock path) = none) :
    Stands L M f ⟨h.disk, holder, Function.update h.process pid (some ⟨path, M.fresh⟩)⟩ s := by
  have hold : ∀ q, h.process pid = some q → L.file q.path ≠ f := fun q hq => by
    rw [hnone] at hq
    cases hq
  by_cases hfile : L.file path = f
  · refine ⟨hs.disk, fun pid' p' hp hfile' => ?_, fun hother => absurd hfile (hother pid ⟨path, M.fresh⟩ (Function.update_self ..))⟩
    replace hp : Function.update h.process pid (some ⟨path, M.fresh⟩) pid' = some p' := hp
    rw [Function.update_apply] at hp
    split at hp
    · cases hp
      refine hs.vacant fun pid'' p'' hp'' hfile'' => ?_
      have hheld := hh _ _ hp''
      rw [L.guarded (hfile''.trans hfile.symm), hfree] at hheld
      cases hheld
    · exact hs.process _ _ hp hfile'
  · refine hs.frame rfl fun pid' p' hfile' => process_update (L := L) hold (fun q hq => ?_) hfile'
    cases hq
    exact hfile

end Processes

/-! ## Steps -/

variable [DecidableEq File] [DecidableEq Lock] [DecidableEq Pid]

inductive Host.Step (L : Layout Path File Lock) (M : Machine σ δ ℓ) :
    Host Path File Lock Pid σ δ → Act Path Pid ℓ → Host Path File Lock Pid σ δ → Prop
  | locks {h : Host Path File Lock Pid σ δ} {pid : Pid} {path : Path} : h.process pid = none → h.holder (L.lock path) = none →
    Host.Step L M h (.locks pid path) { h with
      holder := Function.update h.holder (L.lock path) (some pid)
      process := Function.update h.process pid (some ⟨path, M.fresh⟩) }
  | fails {h : Host Path File Lock Pid σ δ} {pid : Pid} {path : Path} : h.process pid = none → Host.Step L M h (.fails pid path) h
  | acts {h : Host Path File Lock Pid σ δ} {pid : Pid} {p : Process Path σ} {l : ℓ} {t : σ} : h.process pid = some p →
    M.Step (M.mount p.memory (h.disk (L.file p.path))) l t →
    Host.Step L M h (.acts pid l) { h with
      disk := Function.update h.disk (L.file p.path) (M.disk t)
      process := Function.update h.process pid (some ⟨p.path, t⟩) }
  | exits {h : Host Path File Lock Pid σ δ} {pid : Pid} {p : Process Path σ} : h.process pid = some p →
    Host.Step L M h (.exits pid) { h with
      holder := Function.update h.holder (L.lock p.path) none
      process := Function.update h.process pid none }

/-- What a move does to the file `f`, as a step of the one process on it. -/
def seen (L : Layout Path File Lock) (M : Machine σ δ ℓ) (f : File) (m : Move (Host Path File Lock Pid σ δ) (Act Path Pid ℓ)) :
    Option ℓ :=
  match m.label with
  | .acts pid l => (m.pre.process pid).bind fun p => if L.file p.path = f then some l else none
  | .exits pid => (m.pre.process pid).bind fun p => if L.file p.path = f then some M.ends else none
  | .locks _ _ | .fails _ _ => none

variable {act : Act Path Pid ℓ} {tr : List (Move (Host Path File Lock Pid σ δ) (Act Path Pid ℓ))} {pid : Pid} {p : Process Path σ}

omit [DecidableEq Lock] [DecidableEq Pid] in
theorem seen_acts (hp : h.process pid = some p) {l : ℓ} :
    seen L M f ⟨h, .acts pid l, h'⟩ = if L.file p.path = f then some l else none := by
  unfold seen
  simp only [hp, Option.bind_some]

omit [DecidableEq Lock] [DecidableEq Pid] in
theorem seen_exits (hp : h.process pid = some p) :
    seen L M f ⟨h, .exits pid, h'⟩ = if L.file p.path = f then some M.ends else none := by
  unfold seen
  simp only [hp, Option.bind_some]

theorem Held.step (hh : Held L h) (hstep : Host.Step L M h act h') : Held L h' := by
  cases hstep with
  | @locks pid path hnone hfree =>
    intro pid' p' hp
    show Function.update h.holder (L.lock path) (some pid) (L.lock p'.path) = some pid'
    replace hp : Function.update h.process pid (some ⟨path, M.fresh⟩) pid' = some p' := hp
    rw [Function.update_apply] at hp ⊢
    by_cases hpid : pid' = pid
    · rw [if_pos hpid] at hp
      cases hp
      rw [if_pos rfl, hpid]
    · rw [if_neg hpid] at hp
      have hheld := hh _ _ hp
      rw [if_neg, hheld]
      intro hlock
      rw [hlock, hfree] at hheld
      cases hheld
  | fails => exact hh
  | @acts pid p l t hp hact =>
    intro pid' p' hp'
    replace hp' : Function.update h.process pid (some ⟨p.path, t⟩) pid' = some p' := hp'
    rw [Function.update_apply] at hp'
    by_cases hpid : pid' = pid
    · rw [if_pos hpid] at hp'
      cases hp'
      rw [hpid]
      exact hh pid p hp
    · rw [if_neg hpid] at hp'
      exact hh _ _ hp'
  | @exits pid p hp =>
    intro pid' p' hp'
    show Function.update h.holder (L.lock p.path) none (L.lock p'.path) = some pid'
    replace hp' : Function.update h.process pid none pid' = some p' := hp'
    rw [Function.update_apply] at hp' ⊢
    by_cases hpid : pid' = pid
    · rw [if_pos hpid] at hp'
      cases hp'
    · rw [if_neg hpid] at hp'
      have hheld := hh _ _ hp'
      rw [if_neg, hheld]
      intro hlock
      rw [hlock, hh _ _ hp] at hheld
      exact hpid (Option.some.inj hheld).symm

theorem held_run {d : File → δ} (hrun : Run (Host.Step L M) (Host.idle d) tr h) : Held L h := by
  refine hrun.invariant (I := fun _ h => Held L h) ?_ fun _ _ _ _ hh hstep => hh.step hstep
  intro pid p hp
  cases hp

omit [DecidableEq Lock] in
/-- The process that has the file open takes a step. -/
theorem Stands.acts (hh : Held L h) {l : ℓ} {t : σ} (hs : Stands L M (L.file p.path) h s)
    (hp : h.process pid = some p) (hact : M.Step (M.mount p.memory (h.disk (L.file p.path))) l t) :
    ∃ t', M.Step s l t' ∧ Stands L M (L.file p.path) { h with
      disk := Function.update h.disk (L.file p.path) (M.disk t)
      process := Function.update h.process pid (some ⟨p.path, t⟩) } t' := by
  obtain ⟨t', hnext, hsame⟩ := M.same_step (hs.process _ _ hp rfl) hact
  have hdisk : Function.update h.disk (L.file p.path) (M.disk t) (L.file p.path) = M.disk t := Function.update_self ..
  refine ⟨t', hnext, (M.same_disk hsame).trans hdisk.symm, fun pid' p' hp' hfile' => ?_, fun hother => ?_⟩
  · show M.Same (M.mount p'.memory (Function.update h.disk (L.file p.path) (M.disk t) (L.file p.path))) t'
    rw [hdisk]
    replace hp' : Function.update h.process pid (some ⟨p.path, t⟩) pid' = some p' := hp'
    rw [Function.update_apply] at hp'
    split at hp'
    · cases hp'
      rwa [M.mount_disk]
    · rename_i hpid
      exact absurd (hh.alone hp' hp hfile') hpid
  · exact absurd rfl (hother pid ⟨p.path, t⟩ (Function.update_self ..))

/-- A move of the host is a move of the one process on the file, or none. -/
theorem Stands.step (hh : Held L h) (hs : Stands L M f h s) (hstep : Host.Step L M h act h') :
    ∃ moves t, Run M.Step s moves t ∧ moves.map Move.label = (seen L M f ⟨h, act, h'⟩).toList ∧ Stands L M f h' t := by
  cases hstep with
  | locks hnone hfree => exact ⟨[], s, .nil, rfl, hs.locks hh hnone hfree⟩
  | fails => exact ⟨[], s, .nil, rfl, hs⟩
  | @acts pid p l t hp hact =>
    rw [seen_acts hp]
    by_cases hfile : L.file p.path = f
    · subst hfile
      obtain ⟨t', hnext, ht'⟩ := hs.acts hh hp hact
      rw [if_pos rfl]
      exact ⟨_, t', .snoc .nil hnext, rfl, ht'⟩
    · rw [if_neg hfile]
      refine ⟨[], s, .nil, rfl, hs.frame (Function.update_of_ne (Ne.symm hfile) ..) fun pid' p' => process_update (L := L) ?_ ?_⟩
      · intro q hq
        rw [hp] at hq
        cases hq
        exact hfile
      · intro q hq
        cases hq
        exact hfile
  | @exits pid p hp =>
    rw [seen_exits hp]
    by_cases hfile : L.file p.path = f
    · subst hfile
      obtain ⟨t, hnext, ht⟩ := hs.exits hh hp
      rw [if_pos rfl]
      exact ⟨_, t, .snoc .nil hnext, rfl, ht⟩
    · rw [if_neg hfile]
      refine ⟨[], s, .nil, rfl, hs.frame rfl fun pid' p' => process_update (L := L) (fun q hq => ?_) nofun⟩
      rw [hp] at hq
      cases hq
      exact hfile

/-- To a file the processes are one process: what they do to it is a run of the machine, label by label. -/
theorem stands_run {d : File → δ} (hrun : Run (Host.Step L M) (Host.idle d) tr h) (f : File) :
    ∃ moves s, Run M.Step (M.mount M.fresh (d f)) moves s ∧ moves.map Move.label = tr.filterMap (seen L M f) ∧ Stands L M f h s := by
  induction hrun with
  | nil =>
    refine ⟨[], _, .nil, rfl, M.disk_mount .., fun pid p hp => ?_, fun _ => M.same_refl _⟩
    cases hp
  | @snoc tr h h' act hbefore hstep ih =>
    obtain ⟨moves, s, hmoves, hlabels, hs⟩ := ih
    obtain ⟨more, t, hmore, hmoreLabels, ht⟩ := hs.step (held_run hbefore) hstep
    refine ⟨_, t, hmoves.append hmore, ?_, ht⟩
    rw [List.map_append, hlabels, hmoreLabels, List.filterMap_append, List.filterMap_cons]
    cases seen L M f ⟨h, act, h'⟩ <;> rfl

end Hosts

end Exclusive
