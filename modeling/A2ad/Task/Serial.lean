/-
Operations and merges on one stored task that run at the same time: each reads the record, goes
away, and replaces the whole record by what it made of the one it had read.
-/
import A2ad.Lib.Serial
import A2ad.Task.Bookkeeping

namespace A2ad.TaskManager

open Bytes Json Client

/-! ## Operations on one task -/

/-- What an operation brings with it from the remote agent: an accepted answer to a message, the
canceled task, the fetched task, or an update of the subscription. -/
inductive Payload where
  | respond (r : A2AResult)
  | cancel (t : Task)
  | refresh (t : Task)
  | merge (update : Task)

/-- What an operation does after its call with the record it had read before. -/
def conclude (E : Env) (id : Str) (existing : Task) : Payload → M Unit
  | .respond r => do let _ ← concludeRespond E existing r
  | .cancel t => concludeCancel E existing t
  | .refresh t => concludeRefresh E existing t
  | .merge update => do
    let merged ← mergeUpdate existing update
    let updated ← nowIso E
    updateTask E { merged with updatedAt := updated }
    emitStateChanged id existing.state merged.state

def finish (E : Env) (id : Str) (p : Payload) : Option Task → M Unit
  | none => pure ()
  | some existing => conclude E id existing p

/-- The operations `ops` on the task `id`: they share the table, and see of it the stored record. -/
def together (E : Env) (id : Str) {ι : Type} (ops : ι → Payload) : Serial.System ι World (Option Task) where
  look s := s.task E id
  act i found s := Tx.endState (finish E id (ops i) found s)

/-! ### The operations of the task manager -/

section Operations

variable {E : Env} {id : Str} {u v : World} {r : A2AResult}

/-- A merge reads and finishes. -/
theorem onSubscribed_eq (update : Task) :
    onSubscribed E id update = getTask E id >>= fun found => finish E id (.merge update) found := by
  unfold onSubscribed
  congr 1

/-- What is returned at the end moves nothing. -/
theorem endState_return {α β : Type} (x : M α) (b : β) (s : World) :
    Tx.endState ((x >>= fun _ => pure b) s) = Tx.endState (x s) := by
  show Tx.endState (EStateM.bind x _ s) = _
  unfold EStateM.bind
  cases x s <;> rfl

/-- An operation whose call is answered reads, calls, and finishes. -/
theorem respondToTask_eq {text requestId : Str} (h : (Operation.respond id text requestId).Calls E u r v) (hok : r.ok = true) :
    Tx.endState (respondToTask E id text requestId u) = Tx.endState (finish E id (.respond r) (u.task E id) v) := by
  obtain ⟨existing, hstored, hrun⟩ := respondToTask_calls h
  rw [hrun, hstored, if_pos hok]
  exact (endState_return (concludeRespond E existing r) () v).symm

theorem cancelTask_eq {t : Task} (h : (Operation.cancel id).Calls E u r v) (hok : r.ok = true) (htask : r.task = some t) :
    Tx.endState (cancelTask E id u) = Tx.endState (finish E id (.cancel t) (u.task E id) v) := by
  obtain ⟨existing, hstored, hrun⟩ := cancelTask_calls h
  rw [hrun, hstored, onTask, hok, htask]
  exact endState_return (concludeCancel E existing t) r v

theorem refreshTask_eq {t : Task} (h : (Operation.refresh id).Calls E u r v) (hok : r.ok = true) (htask : r.task = some t) :
    Tx.endState (refreshTask E id u) = Tx.endState (finish E id (.refresh t) (u.task E id) v) := by
  obtain ⟨existing, hstored, hrun⟩ := refreshTask_calls h
  rw [hrun, hstored, onTask, hok, htask]
  exact endState_return (concludeRefresh E existing t) r v

end Operations

/-! ## What is stored -/

/-- What a write depends on and changes of the world. -/
structure Store where
  tasks : Tasks
  writes : Nat
  isoTicks : Nat

def World.store (s : World) : Store := ⟨s.tasks, s.writes, s.isoTicks⟩

/-- The record an operation makes of the one it has read, at two readings of the clock. -/
def Payload.made (existing : Task) (first second : Str) : Payload → Except Exception Task
  | respond r => .ok { respondedTask existing r with updatedAt := first, lastStateChange := second }
  | cancel t => .ok { replaced existing t with updatedAt := first, lastStateChange := second }
  | refresh t => .ok { replaced existing t with updatedAt := first }
  | merge update => (mergeUpdate existing update).map fun merged => { merged with updatedAt := first }

/-- The readings of the clock. -/
def Payload.ticks : Payload → Nat
  | respond _ | cancel _ => 2
  | refresh _ | merge _ => 1

/-- The store after the record is written; what has no row is not written, and what is not made is not timed. -/
def Store.put (E : Env) (st : Store) (ticks : Nat) : Except Exception Task → Store
  | .error _ => st
  | .ok new =>
    match bindTask E.parse new with
    | .error _ => { st with isoTicks := st.isoTicks + ticks }
    | .ok row => ⟨if E.busy st.writes then st.tasks else st.tasks.insert row.id row, st.writes + 1, st.isoTicks + ticks⟩

section Stores

variable {E : Env} {id : Str} {s : World} {existing : Task}

theorem store_emit (before after : TaskState) (s : World) :
    World.store (Tx.endState (emitStateChanged id before after s)) = World.store s := by
  rw [emitStateChanged_run]
  rfl

/-- A write, with an end that stores nothing. -/
theorem store_written {α : Type} {new : Task} {k : M α} (hk : ∀ u, World.store (Tx.endState (k u)) = World.store u) :
    World.store (Tx.endState ((updateTask E new >>= fun _ => k) s)) = (World.store s).put E 0 (.ok new) := by
  dsimp only [Store.put]
  cases hrow : bindTask E.parse new with
  | error e =>
    have hthrown : updateTask E new s = .error e s := by
      unfold updateTask insertTask
      rw [hrow]
      rfl
    show World.store (Tx.endState (EStateM.bind (updateTask E new) _ s)) = _
    unfold EStateM.bind
    rw [hthrown]
    rfl
  | ok row =>
    have hwritten : updateTask E new s = .ok () (s.written E row) := insertTask_ok.2 ⟨row, hrow, rfl⟩
    rw [Tx.bind_of_ok hwritten, hk]
    rfl

/-- What an operation stores, as a function of what is stored and of the record it had read. -/
theorem store_conclude (p : Payload) : World.store (Tx.endState (conclude E id existing p s)) =
    (World.store s).put E p.ticks (p.made existing (E.iso s.isoTicks) (E.iso (s.isoTicks + 1))) := by
  have hfirst : nowIso E s = .ok (E.iso s.isoTicks) { s with isoTicks := s.isoTicks + 1 } := rfl
  have hsecond : nowIso E { s with isoTicks := s.isoTicks + 1 } =
      .ok (E.iso (s.isoTicks + 1)) { s with isoTicks := s.isoTicks + 1 + 1 } := rfl
  cases p with
  | respond r =>
    show World.store (Tx.endState ((concludeRespond E existing r >>= fun _ => pure ()) s)) = _
    rw [endState_return]
    unfold concludeRespond
    rw [Tx.bind_of_ok hfirst, Tx.bind_of_ok hsecond, store_written fun u => ?_]
    · rfl
    · rw [endState_return]
      exact store_emit _ _ u
  | cancel t =>
    show World.store (Tx.endState (concludeCancel E existing t s)) = _
    unfold concludeCancel
    rw [Tx.bind_of_ok hfirst, Tx.bind_of_ok hsecond, store_written (store_emit _ _)]
    rfl
  | refresh t =>
    show World.store (Tx.endState (concludeRefresh E existing t s)) = _
    unfold concludeRefresh
    rw [Tx.bind_of_ok hfirst, store_written (store_emit _ _)]
    rfl
  | merge update =>
    show World.store (Tx.endState (((liftM (mergeUpdate existing update) : M Task) >>= fun merged => do
      let updated ← nowIso E
      updateTask E { merged with updatedAt := updated }
      emitStateChanged id existing.state merged.state) s)) = (World.store s).put E 1 ((mergeUpdate existing update).map _)
    cases hmerged : mergeUpdate existing update with
    | error e => rfl
    | ok merged =>
      rw [Tx.bind_of_ok (Tx.lift_of_ok rfl), Tx.bind_of_ok hfirst, store_written (store_emit _ _)]
      rfl

/-! ## What a record is built on -/

namespace Payload

/-- The remote agent's record, where it is put in the place of the stored one. -/
def answer : Payload → Option Task
  | respond r => r.task
  | cancel t | refresh t => some t
  | merge update => if update.partialUpdate then none else some update

/-- The messages, the state and the artifacts that are added to the stored record otherwise. -/
def messages : Payload → List Message
  | respond r => r.message.toList
  | cancel _ | refresh _ => []
  | merge update => update.messages

def state : Payload → Option TaskState
  | respond r => r.message.map fun _ => .completed
  | cancel _ | refresh _ => none
  | merge update => if update.hasStateUpdate then some update.state else none

def artifacts : Payload → List Artifact
  | merge update => update.artifacts
  | _ => []

/-- Parts are appended to the artifact of the same id, and do not replace it. -/
def appends : Payload → Bool
  | merge update => update.artifactAppend
  | _ => false

/-- The new record is the remote agent's, or the stored one with what is added to it: all its messages and parts
are there but for those of an artifact that is replaced, and its state unless there is a newer one. -/
inductive Builds (p : Payload) (stored new : Task) : Prop
  | replaces {t : Task} (answer : p.answer = some t) (id : new.id = stored.id) (state : new.state = t.state)
      (messages : new.messages = t.messages) (artifacts : new.artifacts = t.artifacts)
  | adds (answer : p.answer = none) (id : new.id = stored.id) (state : new.state = p.state.getD stored.state)
      (messages : new.messages = stored.messages ++ p.messages)
      (keeps : ∀ a ∈ stored.artifacts, ∃ b ∈ new.artifacts, b.artifactId = a.artifactId ∧
        (a.parts <+: b.parts ∨ p.appends = false ∧ ∃ u ∈ p.artifacts, u.artifactId = a.artifactId))
      (brings : p.appends = true → ∀ u ∈ p.artifacts, ∃ b ∈ new.artifacts, b.artifactId = u.artifactId ∧ u.parts <:+: b.parts)

end Payload

section Building

variable {append : Bool} {a u : Artifact} {as us : List Artifact}

theorem mergeArtifact_keeps (ha : a ∈ as) : ∃ b ∈ mergeArtifact append u as, b.artifactId = a.artifactId ∧
    (a.parts <+: b.parts ∨ append = false ∧ u.artifactId = a.artifactId) := by
  induction as with
  | nil => cases ha
  | cons c rest ih =>
    unfold mergeArtifact
    by_cases hc : c.artifactId = u.artifactId
    · rw [if_pos hc]
      rcases List.mem_cons.1 ha with rfl | hrest
      · cases append with
        | false => exact ⟨u, List.mem_cons_self, hc.symm, .inr ⟨rfl, hc.symm⟩⟩
        | true => exact ⟨_, List.mem_cons_self, rfl, .inl (List.prefix_append _ _)⟩
      · exact ⟨a, List.mem_cons_of_mem _ hrest, rfl, .inl (List.prefix_refl _)⟩
    · rw [if_neg hc]
      rcases List.mem_cons.1 ha with rfl | hrest
      · exact ⟨a, List.mem_cons_self, rfl, .inl (List.prefix_refl _)⟩
      · obtain ⟨b, hb, hkept⟩ := ih hrest
        exact ⟨b, List.mem_cons_of_mem _ hb, hkept⟩

theorem mergeArtifact_brings : ∃ b ∈ mergeArtifact append u as, b.artifactId = u.artifactId ∧ u.parts <:+ b.parts := by
  induction as with
  | nil => exact ⟨u, List.mem_cons_self, rfl, List.suffix_refl _⟩
  | cons c rest ih =>
    unfold mergeArtifact
    by_cases hc : c.artifactId = u.artifactId
    · rw [if_pos hc]
      cases append with
      | false => exact ⟨u, List.mem_cons_self, rfl, List.suffix_refl _⟩
      | true => exact ⟨_, List.mem_cons_self, hc, List.suffix_append _ _⟩
    · rw [if_neg hc]
      obtain ⟨b, hb, hbrought⟩ := ih
      exact ⟨b, List.mem_cons_of_mem _ hb, hbrought⟩

theorem artifacts_keep (ha : a ∈ as) : ∃ b ∈ us.foldl (fun acc u => mergeArtifact append u acc) as,
    b.artifactId = a.artifactId ∧ (a.parts <+: b.parts ∨ append = false ∧ ∃ u ∈ us, u.artifactId = a.artifactId) := by
  induction us generalizing a as with
  | nil => exact ⟨a, ha, rfl, .inl (List.prefix_refl _)⟩
  | cons u us ih =>
    obtain ⟨b, hb, hid, hparts⟩ := @mergeArtifact_keeps append a u as ha
    obtain ⟨c, hc, hid', hparts'⟩ := ih hb
    refine ⟨c, hc, hid'.trans hid, ?_⟩
    rcases hparts with hparts | ⟨hreplaced, hu⟩
    · rcases hparts' with hparts' | ⟨hreplaced, u', hu', heq⟩
      · exact .inl (hparts.trans hparts')
      · exact .inr ⟨hreplaced, u', List.mem_cons_of_mem _ hu', heq.trans hid⟩
    · exact .inr ⟨hreplaced, u, List.mem_cons_self, hu⟩

theorem artifacts_bring (hu : u ∈ us) : ∃ b ∈ us.foldl (fun acc u => mergeArtifact true u acc) as,
    b.artifactId = u.artifactId ∧ u.parts <:+: b.parts := by
  induction us generalizing as with
  | nil => cases hu
  | cons u' us ih =>
    rcases List.mem_cons.1 hu with rfl | hrest
    · obtain ⟨b, hb, hid, hsuffix⟩ := @mergeArtifact_brings true u as
      obtain ⟨c, hc, hid', hparts⟩ := @artifacts_keep true b _ us hb
      obtain hprefix := hparts.resolve_right fun hreplaced => Bool.noConfusion hreplaced.1
      exact ⟨c, hc, hid'.trans hid, hsuffix.isInfix.trans hprefix.isInfix⟩
    · exact ih hrest

theorem builds_merge {stored update merged : Task} (h : mergeUpdate stored update = .ok merged) (first : Str) :
    (Payload.merge update).Builds stored { merged with updatedAt := first } := by
  unfold mergeUpdate at h
  split at h
  · rename_i hpartial
    obtain ⟨t, ht, h⟩ := Tx.except_bind_ok h
    cases h
    unfold mergePartial at ht
    obtain ⟨metadata, -, ht⟩ := Tx.except_bind_ok ht
    have hanswer : (Payload.merge update).answer = none := if_pos hpartial
    have hbrings : ∀ as : List Artifact, (Payload.merge update).appends = true → ∀ u ∈ update.artifacts,
        ∃ b ∈ update.artifacts.foldl (fun acc a => mergeArtifact update.artifactAppend a acc) as,
          b.artifactId = u.artifactId ∧ u.parts <:+: b.parts := by
      intro as happends u hu
      rw [show update.artifactAppend = true from happends]
      exact artifacts_bring hu
    cases hstate : update.hasStateUpdate with
    | true =>
      rw [hstate] at ht
      cases ht
      exact .adds hanswer rfl (by simp [Payload.state, hstate, keepLocal]) rfl (fun a ha => artifacts_keep ha) (hbrings _)
    | false =>
      rw [hstate] at ht
      cases ht
      exact .adds hanswer rfl (by simp [Payload.state, hstate, keepLocal]) rfl (fun a ha => artifacts_keep ha) (hbrings _)
  · rename_i hfull
    obtain ⟨t, ht, h⟩ := Tx.except_bind_ok h
    cases ht
    cases h
    exact .replaces (if_neg hfull) rfl rfl rfl rfl

/-- What an operation makes of a record is built on it. -/
theorem builds_made {p : Payload} {stored new : Task} {first second : Str} (h : p.made stored first second = .ok new) :
    p.Builds stored new := by
  cases p with
  | respond r =>
    cases h
    unfold respondedTask
    cases htask : r.task with
    | some t => exact .replaces htask rfl rfl rfl rfl
    | none =>
      have hkeeps : ∀ a ∈ stored.artifacts, ∃ b ∈ stored.artifacts, b.artifactId = a.artifactId ∧
          (a.parts <+: b.parts ∨ (Payload.respond r).appends = false ∧ ∃ u ∈ (Payload.respond r).artifacts, u.artifactId = a.artifactId) :=
        fun a ha => ⟨a, ha, rfl, .inl (List.prefix_refl _)⟩
      cases hmessage : r.message with
      | some m =>
        exact .adds htask rfl (by simp [Payload.state, hmessage]) (by simp [Payload.messages, hmessage]) hkeeps
          fun happends => Bool.noConfusion happends
      | none =>
        exact .adds htask rfl (by simp [Payload.state, hmessage]) (by simp [Payload.messages, hmessage]) hkeeps
          fun happends => Bool.noConfusion happends
  | cancel t =>
    cases h
    exact .replaces rfl rfl rfl rfl rfl
  | refresh t =>
    cases h
    exact .replaces rfl rfl rfl rfl rfl
  | merge update =>
    change (mergeUpdate stored update).map _ = _ at h
    cases hmerge : mergeUpdate stored update with
    | error e =>
      rw [hmerge] at h
      cases h
    | ok merged =>
      rw [hmerge] at h
      cases h
      exact builds_merge hmerge first

end Building

end Stores

/-! ## What was read and what is stored -/

/-- The record without the time of its last update, which every operation sets anew. -/
def timeless (t : Task) : Task := { t with updatedAt := [] }

theorem timeless_eq {t t' : Task} (h : timeless t = timeless t') : t' = { t with updatedAt := t'.updatedAt } := by
  cases t
  cases t'
  unfold timeless at h
  simp only [Task.mk.injEq] at h ⊢
  simp [h]

/-- Nothing is made of that time. -/
theorem made_timeless (p : Payload) {existing existing' : Task} (h : timeless existing = timeless existing') (first second : Str) :
    p.made existing first second = p.made existing' first second := by
  rw [timeless_eq h]
  generalize existing'.updatedAt = time
  cases p with
  | respond r =>
    show Except.ok { respondedTask existing r with updatedAt := first, lastStateChange := second } = Except.ok
      { respondedTask { existing with updatedAt := time } r with updatedAt := first, lastStateChange := second }
    unfold respondedTask
    cases r.task with
    | some t => rfl
    | none =>
      cases r.message with
      | some m => rfl
      | none => rfl
  | cancel t => rfl
  | refresh t => rfl
  | merge update =>
    show (mergeUpdate existing update).map _ = (mergeUpdate { existing with updatedAt := time } update).map _
    unfold mergeUpdate
    cases update.partialUpdate with
    | false => rfl
    | true =>
      unfold mergePartial
      dsimp only
      cases updateMetadata existing.metadata update.metadata with
      | error e => rfl
      | ok metadata =>
        cases update.hasStateUpdate with
        | true => rfl
        | false => rfl

/-- Two worlds that store the same. -/
def SameStore (s s' : World) : Prop := World.store s = World.store s'

instance : IsPreorder World SameStore where
  refl _ := rfl
  trans _ _ _ h h' := h.trans h'

section Runs

variable {E : Env} {id : Str} {s s' : World}

theorem SameStore.tasks (h : SameStore s s') : s.tasks = s'.tasks := congrArg Store.tasks h

theorem SameStore.task (h : SameStore s s') : s.task E id = s'.task E id := by
  rw [World.task, h.tasks]
  rfl

theorem sameStore_finish (h : SameStore s s') (p : Payload) {found found' : Option Task}
    (hfound : found.map timeless = found'.map timeless) :
    SameStore (Tx.endState (finish E id p found s)) (Tx.endState (finish E id p found' s')) := by
  have hticks : s.isoTicks = s'.isoTicks := congrArg Store.isoTicks h
  cases found with
  | none =>
    obtain rfl : found' = none := Option.map_eq_none_iff.1 hfound.symm
    exact h
  | some existing =>
    obtain ⟨existing', rfl, hsame⟩ := Option.map_eq_some_iff.1 hfound.symm
    unfold SameStore finish
    rw [store_conclude, store_conclude, made_timeless p hsame.symm, h, hticks]

/-- Nothing is written, or a record built on the one that is stored. -/
def BuildsOn (E : Env) (id : Str) (p : Payload) (s s' : World) : Prop :=
  s'.tasks = s.tasks ∨ ∃ stored new row, s.task E id = some stored ∧ p.Builds stored new ∧ bindTask E.parse new = .ok row ∧
    s'.tasks = s.tasks.insert row.id row

/-- An operation without a pause writes in this way. -/
theorem buildsOn_finish (p : Payload) (s : World) : BuildsOn E id p s (Tx.endState (finish E id p (s.task E id) s)) := by
  cases hstored : s.task E id with
  | none => exact .inl rfl
  | some stored =>
    have htasks : (Tx.endState (conclude E id stored p s)).tasks = _ := congrArg Store.tasks (store_conclude p)
    unfold BuildsOn finish
    dsimp only
    rw [htasks]
    unfold Store.put
    split
    · exact .inl rfl
    · rename_i new hmade
      split
      · exact .inl rfl
      · rename_i row hrow
        dsimp only
        split
        · exact .inl rfl
        · exact .inr ⟨stored, new, row, hstored, builds_made hmade, hrow, rfl⟩

/-- What spares a write from overwriting what it has not seen: the record that is stored is the one that was read, but
for the time of its last update. -/
def Undisturbed (E : Env) (id : Str) {ι : Type} (m : Move (Serial.State ι World (Option Task)) (Serial.Turn ι)) : Prop :=
  ∀ i found, m.label = .write i → m.pre.phase i = .holding found → (m.pre.shared.task E id).map timeless = found.map timeless

/-- In every interleaving whose writes are undisturbed, the rows are those which the operations leave that have
finished, one after another in the order of their writes. And nothing is lost: each write is built on the record
that is stored when it comes. -/
theorem serialisable_undisturbed (E : Env) (id : Str) {ι : Type} [DecidableEq ι] (ops : ι → Payload) {s₀ : World}
    {s : Serial.State ι World (Option Task)} {tr : List (Move (Serial.State ι World (Option Task)) (Serial.Turn ι))}
    (hrun : Run (Serial.Step (together E id ops)) (Serial.System.start ι (Option Task) s₀) tr s)
    (hundisturbed : ∀ m ∈ tr, Undisturbed E id m) :
    (∃ order : List ι, order.Nodup ∧ (∀ i, i ∈ order ↔ s.phase i = .finished) ∧
      s.shared.tasks = ((together E id ops).serial order s₀).tasks) ∧
    ∀ m ∈ tr, ∀ i, m.label = .write i → BuildsOn E id (ops i) m.pre.shared m.post.shared := by
  have hatomic : ∀ i u u', SameStore u u' →
      SameStore ((together E id ops).atomic u i) ((together E id ops).atomic u' i) := fun i u u' h =>
    sameStore_finish h (ops i) (by rw [show (together E id ops).look u = (together E id ops).look u' from h.task])
  -- what was read and what is stored differ in a time of which nothing is made
  have htimely : ∀ m ∈ tr, (together E id ops).Timely SameStore m := fun m hm i found hlabel hheld =>
    sameStore_finish (refl_of SameStore m.pre.shared) (ops i) (hundisturbed m hm i found hlabel hheld).symm
  constructor
  · obtain ⟨order, hnodup, hfinished, hstore⟩ := Serial.System.serialisable hatomic hrun htimely
    exact ⟨order, hnodup, hfinished, hstore.tasks⟩
  · intro m hm i hlabel
    have hstep := hrun.mem_step hm
    obtain ⟨pre, label, post⟩ := m
    dsimp only at hlabel hstep ⊢
    subst hlabel
    cases hstep with
    | @write _ found hheld =>
      have hbuilds := @buildsOn_finish E id (ops i) pre.shared
      have hsame := (htimely _ hm i found rfl hheld).tasks
      unfold BuildsOn at hbuilds ⊢
      rw [show (Tx.endState (finish E id (ops i) (pre.shared.task E id) pre.shared)).tasks = _ from hsame.symm] at hbuilds
      exact hbuilds

end Runs

/-! ## Two operations on one task -/

/-- An update with a message, and one that only moves the task. -/
def reporting : Task := { messages := [spoken], partialUpdate := true, hasStateUpdate := false }

def moving : Task := { context := "ctx-2", partialUpdate := true, hasStateUpdate := false }

/-- The task is fetched as it is known, while an update is merged. -/
def refreshAndAnswer : Bool → Payload
  | false => .refresh (underway [])
  | true => .merge reporting

/-- The task is fetched and has been completed, while an update is merged. -/
def refreshAndMove : Bool → Payload
  | false => .refresh { id := "remote-7", state := .completed }
  | true => .merge moving

/-- A merge that has read before a refresh brought nothing new keeps what it has brought. -/
theorem serialisable_undisturbed_refresh :
    ∃ tr s, Run (Serial.Step (together subscribedEnv "local-1" refreshAndAnswer))
      (Serial.System.start Bool (Option Task) subscribedWorld) tr s ∧
      tr.map Move.label = [.read false, .read true, .write false, .write true] ∧
      (∃ order : List Bool, order.Nodup ∧ (∀ i, i ∈ order ↔ s.phase i = .finished) ∧
        s.shared.tasks = ((together subscribedEnv "local-1" refreshAndAnswer).serial order subscribedWorld).tasks) ∧
      ∀ m ∈ tr, ∀ i, m.label = .write i → BuildsOn subscribedEnv "local-1" (refreshAndAnswer i) m.pre.shared m.post.shared := by
  have hrun : Run (Serial.Step (together subscribedEnv "local-1" refreshAndAnswer))
      (Serial.System.start Bool (Option Task) subscribedWorld) _ _ :=
    (((Run.nil.snoc (.read (i := false) rfl)).snoc (.read (i := true) rfl)).snoc (.write (i := false) rfl)).snoc
      (.write (i := true) rfl)
  refine ⟨_, _, hrun, rfl, serialisable_undisturbed subscribedEnv "local-1" refreshAndAnswer hrun ?_⟩
  intro m hm i found hlabel hheld
  simp only [List.nil_append, List.cons_append, List.mem_cons, List.not_mem_nil, or_false] at hm
  rcases hm with rfl | rfl | rfl | rfl
  · cases hlabel
  · cases hlabel
  · cases hlabel
    cases hheld
    rfl
  · cases hlabel
    cases hheld
    decide +kernel

theorem bool_orders {order : List Bool} (hnodup : order.Nodup) (hall : ∀ i, i ∈ order) :
    order = [false, true] ∨ order = [true, false] := by
  have hperm : order.Perm [false, true] := (List.perm_ext_iff_of_nodup hnodup (by decide)).2 fun i => by
    cases i <;> simp [hall]
  revert hperm
  rcases order with _ | ⟨a, _ | ⟨b, _ | ⟨c, rest⟩⟩⟩
  · simp
  · simp
  · revert a b
    decide
  · intro hperm
    have hlength := hperm.length_eq
    simp at hlength

/-- A completion that was fetched is overwritten by a merge that had read before it. -/
theorem completion_overwritten :
    ∃ tr s, Run (Serial.Step (together subscribedEnv "local-1" refreshAndMove))
      (Serial.System.start Bool (Option Task) subscribedWorld) tr s ∧ (∀ i, s.phase i = .finished) ∧
      ∀ order : List Bool, order.Nodup → (∀ i, i ∈ order) →
        s.shared.task subscribedEnv "local-1" ≠
          ((together subscribedEnv "local-1" refreshAndMove).serial order subscribedWorld).task subscribedEnv "local-1" := by
  have hrun : Run (Serial.Step (together subscribedEnv "local-1" refreshAndMove))
      (Serial.System.start Bool (Option Task) subscribedWorld) _ _ :=
    (((Run.nil.snoc (.read (i := false) rfl)).snoc (.read (i := true) rfl)).snoc (.write (i := false) rfl)).snoc
      (.write (i := true) rfl)
  refine ⟨_, _, hrun, ?_, ?_⟩
  · intro i
    cases i <;> rfl
  · intro order hnodup hall hsame
    have hserial : ((((together subscribedEnv "local-1" refreshAndMove).serial order subscribedWorld).task subscribedEnv "local-1").map
        fun t => t.state) = some .completed := by
      rcases bool_orders hnodup hall with rfl | rfl <;> decide +kernel
    rw [← hsame] at hserial
    revert hserial
    decide +kernel

end A2ad.TaskManager
