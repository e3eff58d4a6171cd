/-
The control-plane store: records of eight kinds keyed by kind and id, the append-only event log
with its hash chain, and the primitive reads and writes every operation is made of. The clock, the
random ids and SHA-256 come from outside; readings of the clock are numbered over the whole run.
-/
import A2ad.Lib.JsonText
import A2ad.Lib.Tx
import Mathlib.Data.List.AList
import Mathlib.Data.List.Sort

namespace A2ad.Control

open Bytes Json

/-! ## State -/

inductive Kind where
  | execution
  | session
  | approval
  | provenance
  | continuation
  | lease
  | health
  | channel
deriving DecidableEq, Repr

/-- What the control plane draws from outside: the `n`-th reading of the clock in seconds, the
`n`-th random id, and the hexadecimal SHA-256 of a text. The system clock counts nanoseconds in 64
bits, so that its seconds stay below `2 ^ 34`. -/
structure Env where
  clock : Nat → Int
  range : ∀ n, -2 ^ 34 < clock n ∧ clock n < 2 ^ 34
  rand : Nat → Str
  digest : Str → Str

/-- A row of `control_events`; its sequence number is its position, counted from 1. The `value`
column holds the dump of `value`. -/
structure Event where
  time : Int
  value : J
  previousHash : Str
  hash : Str
deriving DecidableEq

/-- The tables `control_records` and `control_events`; the `value` column of a record holds the
dump of the value stored here. -/
structure Db where
  records : AList fun _ : Kind × Str => J
  events : List Event

/-- The store, with the number of clock readings and of random ids drawn so far. -/
structure St where
  db : Db
  tick : Nat
  nonce : Nat

abbrev M := Tx Exception St

namespace Db

def empty : Db := ⟨∅, []⟩

/-- The record, or `null` when there is none. -/
def get (db : Db) (kind : Kind) (id : Str) : J := (db.records.lookup (kind, id)).getD .null

def put (db : Db) (kind : Kind) (id : Str) (value : J) : Db :=
  { db with records := db.records.insert (kind, id) value }

/-- `ORDER BY id`. -/
def rows (db : Db) (kind : Kind) : List (Str × J) :=
  ((db.records.entries.filter fun e => e.1.1 = kind).map fun e => (e.1.2, e.2)).insertionSort fun a b => a.1 ≤ b.1

@[simp] theorem get_empty (kind : Kind) (id : Str) : empty.get kind id = .null := rfl

@[simp] theorem get_put_self (db : Db) (kind : Kind) (id : Str) (value : J) :
    (db.put kind id value).get kind id = value := by
  simp [get, put]

theorem get_put_ne (db : Db) {kind kind' : Kind} {id id' : Str} (value : J) (h : (kind', id') ≠ (kind, id)) :
    (db.put kind id value).get kind' id' = db.get kind' id' := by
  simp only [get, put, AList.lookup_insert_ne h]

@[simp] theorem events_put (db : Db) (kind : Kind) (id : Str) (value : J) :
    (db.put kind id value).events = db.events := rfl

/-- The rows of a kind are its records. -/
theorem mem_rows {db : Db} {kind : Kind} {id : Str} {value : J} :
    (id, value) ∈ db.rows kind ↔ db.records.lookup (kind, id) = some value := by
  unfold rows
  rw [List.mem_insertionSort]
  constructor
  · intro h
    obtain ⟨e, he, hv⟩ := List.mem_map.1 h
    obtain ⟨hmem, hk⟩ := List.mem_filter.1 he
    obtain ⟨⟨k, i⟩, v⟩ := e
    simp only [decide_eq_true_eq] at hk
    simp only [Prod.mk.injEq] at hv
    obtain ⟨rfl, rfl⟩ := hv
    subst hk
    exact AList.mem_lookup_iff.2 hmem
  · intro h
    exact List.mem_map.2 ⟨⟨(kind, id), value⟩, List.mem_filter.2 ⟨AList.mem_lookup_iff.1 h, by simp⟩, rfl⟩

end Db

/-! ## Primitives -/

def now (E : Env) : M Int := fun s => .ok (E.clock s.tick) { s with tick := s.tick + 1 }

def newId (E : Env) : M Str := fun s => .ok (E.rand s.nonce) { s with nonce := s.nonce + 1 }

def read (kind : Kind) (id : Str) : M J := fun s => .ok (s.db.get kind id) s

def list (kind : Kind) : M (List J) := fun s => .ok ((s.db.rows kind).map (·.2)) s

/-- The whole store, for queries over the event log. -/
def snapshot : M Db := fun s => .ok s.db s

def store (kind : Kind) (id : Str) (value : J) : M Unit := fun s => .ok () { s with db := s.db.put kind id value }

/-- `write` dumps the value first, which throws on ill-formed UTF-8. -/
def write (kind : Kind) (id : Str) (value : J) : M Unit := do
  let _ ← value.dump
  store kind id value

/-- A sequence number from `AUTOINCREMENT` is never handed out twice: after the largest, inserts fail. -/
def push (event : Event) : M Unit := fun s =>
  if s.db.events.length < 2 ^ 63 - 1 then .ok () { s with db := { s.db with events := s.db.events ++ [event] } }
  else .error ⟨"database or disk is full"⟩ s

/-- `Statement::text` of a text column: a C string, which ends at the first NUL. -/
def cText (s : Str) : Str := s.takeWhile (· ≠ 0)

theorem cText_eq {s : Str} : cText s = s ↔ (0 : UInt8) ∉ s := by
  unfold cText
  rw [List.takeWhile_eq_self_iff]
  constructor
  · intro h hmem
    exact absurd (h 0 hmem) (by decide)
  · intro h c hc
    simpa using fun (hzero : c = 0) => h (hzero ▸ hc)

theorem cText_cText (s : Str) : cText (cText s) = cText s := by
  unfold cText
  rw [List.takeWhile_takeWhile]
  simp

/-- The hash that the next event is linked to: nothing before the first. -/
def lastHash (events : List Event) : Str := cText ((events.getLast?.map (·.hash)).getD [])

def append (E : Env) (value : J) : M Unit := do
  let db ← snapshot
  let previous := lastHash db.events
  let timestamp ← now E
  let body ← value.dump
  push ⟨timestamp, value, previous, E.digest (previous ++ "\n" ++ intText timestamp ++ "\n" ++ body)⟩

/-- `BEGIN IMMEDIATE … COMMIT`: a throw rolls the store back. -/
def transaction {α : Type} (x : M α) : M α := Tx.transaction (fun start s => { s with db := start.db }) x

section Ok

variable {E : Env} {s s' : St}

theorem now_ok {t : Int} : now E s = .ok t s' ↔ E.clock s.tick = t ∧ { s with tick := s.tick + 1 } = s' := by
  simp [now]

theorem newId_ok {i : Str} : newId E s = .ok i s' ↔ E.rand s.nonce = i ∧ { s with nonce := s.nonce + 1 } = s' := by
  simp [newId]

theorem read_ok {kind : Kind} {id : Str} {v : J} : read kind id s = .ok v s' ↔ s.db.get kind id = v ∧ s = s' := by
  simp [read]

theorem write_ok {kind : Kind} {id : Str} {v : J} {u : Unit} :
    write kind id v s = .ok u s' ↔ v.utf8 = true ∧ { s with db := s.db.put kind id v } = s' := by
  simp only [write, Tx.bind_ok, Tx.lift_ok, J.dump_ok, store, EStateM.Result.ok.injEq]
  constructor
  · rintro ⟨_, _, ⟨⟨h, -⟩, rfl⟩, -, hs⟩
    exact ⟨h, hs⟩
  · rintro ⟨h, hs⟩
    exact ⟨_, s, ⟨⟨h, rfl⟩, rfl⟩, by simpa using hs⟩

theorem push_ok {e : Event} {u : Unit} : push e s = .ok u s' ↔
    s.db.events.length < 2 ^ 63 - 1 ∧ { s with db := { s.db with events := s.db.events ++ [e] } } = s' := by
  unfold push
  split <;> simp_all

/-- The event `append` adds to a log. -/
def eventFor (E : Env) (events : List Event) (time : Int) (v : J) : Event :=
  let previous := lastHash events
  ⟨time, v, previous, E.digest (previous ++ "\n" ++ intText time ++ "\n" ++ v.text)⟩

/-- `append` reads the clock once and leaves the records alone. -/
theorem append_ok {v : J} {u : Unit} (h : append E v s = .ok u s') :
    v.utf8 = true ∧ s'.tick = s.tick + 1 ∧ s'.nonce = s.nonce ∧ s'.db.records = s.db.records := by
  simp only [append, Tx.bind_ok, Tx.lift_ok, J.dump_ok, snapshot, now_ok, push_ok, EStateM.Result.ok.injEq] at h
  obtain ⟨_, _, ⟨rfl, rfl⟩, _, _, ⟨-, rfl⟩, _, _, ⟨⟨hv, -⟩, rfl⟩, -, rfl⟩ := h
  exact ⟨hv, rfl, rfl, rfl⟩

/-- The log after an append. -/
theorem append_events {v : J} {u : Unit} (h : append E v s = .ok u s') :
    s'.db.events = s.db.events ++ [eventFor E s.db.events (E.clock s.tick) v] ∧ s.db.events.length < 2 ^ 63 - 1 := by
  simp only [append, Tx.bind_ok, Tx.lift_ok, J.dump_ok, snapshot, now_ok, push_ok, EStateM.Result.ok.injEq] at h
  obtain ⟨_, _, ⟨rfl, rfl⟩, _, _, ⟨rfl, rfl⟩, _, _, ⟨⟨-, rfl⟩, rfl⟩, hroom, rfl⟩ := h
  exact ⟨rfl, hroom⟩

theorem get_of_records {db db' : Db} (h : db'.records = db.records) (kind : Kind) (id : Str) :
    db'.get kind id = db.get kind id := by
  unfold Db.get; rw [h]

/-- A record written together with its event. -/
theorem write_append_ok {kind : Kind} {id : Str} {v e : J} {u u' : Unit} {t : St} (hw : write kind id v s = .ok u t)
    (ha : append E e t = .ok u' s') :
    s'.db.get kind id = v ∧ (∀ kind' id', (kind', id') ≠ (kind, id) → s'.db.get kind' id' = s.db.get kind' id') ∧
      s'.tick = s.tick + 1 := by
  obtain ⟨-, rfl⟩ := write_ok.1 hw
  obtain ⟨-, htick, -, hrec⟩ := append_ok ha
  refine ⟨?_, fun kind' id' hne => ?_, htick⟩
  · rw [get_of_records hrec, Db.get_put_self]
  · rw [get_of_records hrec, Db.get_put_ne _ _ hne]

end Ok

/-! ## Frames -/

/-- Records of kinds outside `K` stay as they are; readings and draws are only ever added. -/
structure Frame (K : List Kind) (s s' : St) : Prop where
  get : ∀ kind id, kind ∉ K → s'.db.get kind id = s.db.get kind id
  tick : s.tick ≤ s'.tick
  nonce : s.nonce ≤ s'.nonce

instance (K : List Kind) : IsPreorder St (Frame K) where
  refl _ := ⟨fun _ _ _ => rfl, le_refl _, le_refl _⟩
  trans _ _ _ h h' := ⟨fun kind id hk => (h'.get kind id hk).trans (h.get kind id hk), h.tick.trans h'.tick,
    h.nonce.trans h'.nonce⟩

/-- A program that only touches records of the kinds `K`. -/
abbrev Touches (K : List Kind) {α : Type} (x : M α) : Prop := Tx.Keeps (Frame K) x

theorem Frame.mono {K K' : List Kind} (hK : K ⊆ K') (s s' : St) (h : Frame K s s') : Frame K' s s' :=
  ⟨fun kind id hk => h.get kind id fun hm => hk (hK hm), h.tick, h.nonce⟩

/-- Nothing has happened but readings of the clock and draws of ids. -/
structure Still (s s' : St) : Prop where
  db : s'.db = s.db
  tick : s.tick ≤ s'.tick
  nonce : s.nonce ≤ s'.nonce

instance : IsPreorder St Still where
  refl _ := ⟨rfl, le_refl _, le_refl _⟩
  trans _ _ _ h h' := ⟨h'.db.trans h.db, h.tick.trans h'.tick, h.nonce.trans h'.nonce⟩

theorem Still.trans {s t u : St} (h : Still s t) (h' : Still t u) : Still s u := IsTrans.trans _ _ _ h h'

/-- A program that writes nothing. -/
abbrev Quiet {α : Type} (x : M α) : Prop := Tx.Keeps Still x

theorem Still.frame {K : List Kind} (s s' : St) (h : Still s s') : Frame K s s' :=
  ⟨fun kind id _ => by rw [h.db], h.tick, h.nonce⟩

theorem Quiet.touches {K : List Kind} {α : Type} {x : M α} (hx : Quiet x) : Touches K x := Tx.keeps_mono Still.frame hx

instance (kind : Kind) (id : Str) : Quiet (read kind id) := ⟨fun s => refl s⟩

instance (kind : Kind) : Quiet (list kind) := ⟨fun s => refl s⟩

instance : Quiet snapshot := ⟨fun s => refl s⟩

instance (E : Env) : Quiet (now E) := ⟨fun _ => ⟨rfl, Nat.le_succ _, le_refl _⟩⟩

instance (E : Env) : Quiet (newId E) := ⟨fun _ => ⟨rfl, le_refl _, Nat.le_succ _⟩⟩

/-- Membership of a kind, for instances to find. -/
class Allows (K : List Kind) (kind : Kind) : Prop where
  mem : kind ∈ K

instance (K : List Kind) (kind : Kind) : Allows (kind :: K) kind := ⟨List.mem_cons_self⟩

instance (K : List Kind) (kind kind' : Kind) [h : Allows K kind] : Allows (kind' :: K) kind :=
  ⟨List.mem_cons_of_mem _ h.mem⟩

section Touches

variable {K : List Kind}

instance (kind : Kind) (id : Str) : Touches K (read kind id) := ⟨fun s => refl s⟩

instance (kind : Kind) : Touches K (list kind) := ⟨fun s => refl s⟩

instance : Touches K snapshot := ⟨fun s => refl s⟩

instance (E : Env) : Touches K (now E) := ⟨fun _ => ⟨fun _ _ _ => rfl, Nat.le_succ _, le_refl _⟩⟩

instance (E : Env) : Touches K (newId E) := ⟨fun _ => ⟨fun _ _ _ => rfl, le_refl _, Nat.le_succ _⟩⟩

instance {kind : Kind} [hk : Allows K kind] (id : Str) (v : J) : Touches K (store kind id v) :=
  ⟨fun _ => ⟨fun _ _ h => Db.get_put_ne _ _ fun e => h ((Prod.mk.inj e).1 ▸ hk.mem), le_refl _, le_refl _⟩⟩

instance {kind : Kind} [Allows K kind] (id : Str) (v : J) : Touches K (write kind id v) := by
  unfold write
  infer_instance

instance (event : Event) : Touches K (push event) := by
  refine ⟨fun s => ?_⟩
  unfold push
  split
  · exact ⟨fun _ _ _ => rfl, le_refl _, le_refl _⟩
  · exact refl s

instance (E : Env) (v : J) : Touches K (append E v) := by
  unfold append
  infer_instance

/-- A rolled-back transaction has touched nothing. -/
instance {α : Type} (x : M α) [hx : Touches K x] : Touches K (transaction x) := by
  refine ⟨fun s => ?_⟩
  have h := hx.out s
  unfold transaction Tx.transaction
  cases hs : x s with
  | ok a t => rwa [hs] at h
  | error e t =>
    rw [hs] at h
    exact ⟨fun _ _ _ => rfl, h.tick, h.nonce⟩

end Touches
end A2ad.Control
