/-
Two stores that hold the same but for the hashes of requests and of the event log, and the primitive
reads and writes on both of them.
-/
import A2ad.Control.Renaming
import Mathlib.Data.List.Sort

namespace A2ad.Control

open Bytes Json

variable {E : Env} {R : Str → Str → Prop}

/-! ## Stores -/

/-- The kinds of records that bear the hash of a request. -/
def bearsHash : Kind → Bool
  | .execution | .approval => true
  | _ => false

/-- Records of one kind and id in the two stores. -/
def RecordTwin (R : Str → Str → Prop) (kind : Kind) (v v' : J) : Prop :=
  if bearsHash kind then J.Twin "request_sha256" R v v' else v = v'

/-- Two hashes of the event log at one place; before the first event there is none. -/
def ChainTwin (E : Env) (h h' : Str) : Prop := h = h' ∨ ∃ x x', h = E.digest x ∧ h' = E.digest x'

structure EventTwin (E : Env) (R : Str → Str → Prop) (e e' : Event) : Prop where
  time : e.time = e'.time
  value : e.value = e'.value ∨ J.Twin "request_sha256" R e.value e'.value
  previous : ChainTwin E e.previousHash e'.previousHash
  hash : ChainTwin E e.hash e'.hash

/-- An entry of the record table. -/
abbrev TableEntry := Sigma fun _ : Kind × Str => J

/-- Entries of one key, with twin records. -/
def EntryTwin (R : Str → Str → Prop) (e e' : TableEntry) : Prop :=
  e.1 = e'.1 ∧ RecordTwin R e.1.1 e.2 e'.2

structure DbTwin (E : Env) (R : Str → Str → Prop) (db db' : Db) : Prop where
  records : List.Forall₂ (EntryTwin R) db.records.entries db'.records.entries
  events : List.Forall₂ (EventTwin E R) db.events db'.events
  sha : ∀ text, IsSha (E.digest text)
  intact : Intact E db
  intact' : Intact E db'

/-- Two stores after the same readings of the clock and the same draws. -/
structure Twins (E : Env) (R : Str → Str → Prop) (s s' : St) : Prop where
  db : DbTwin E R s.db s'.db
  tick : s.tick = s'.tick
  nonce : s.nonce = s'.nonce

section Records

variable {kind : Kind} {id : Str} {v v' : J} {db db' : Db}

theorem RecordTwin.eq (h : RecordTwin R kind v v') (hk : bearsHash kind = false) : v = v' := by
  rwa [RecordTwin, if_neg (by simp [hk])] at h

theorem RecordTwin.twin (h : RecordTwin R kind v v') (hk : bearsHash kind = true) : J.Twin "request_sha256" R v v' := by
  rwa [RecordTwin, if_pos hk] at h

theorem recordTwin_null : RecordTwin R kind .null .null := by
  unfold RecordTwin
  split
  · exact .null
  · rfl

theorem recordTwin_of_eq (hk : bearsHash kind = false) : RecordTwin R kind v v := by
  rw [RecordTwin, if_neg (by simp [hk])]

theorem recordTwin_of_twin (hk : bearsHash kind = true) (h : J.Twin "request_sha256" R v v') : RecordTwin R kind v v' := by
  rwa [RecordTwin, if_pos hk]

theorem RecordTwin.eq_or_twin (h : RecordTwin R kind v v') : v = v' ∨ J.Twin "request_sha256" R v v' := by
  unfold RecordTwin at h
  split at h
  · exact .inr h
  · exact .inl h

theorem RecordTwin.isNull (h : RecordTwin R kind v v') : v'.isNull = v.isNull := by
  unfold RecordTwin at h
  split at h
  · exact h.isNull
  · rw [h]

theorem twin_sameBut {k : Str} (h : J.Twin "request_sha256" R v v') : J.SameBut (HashDiffers E R) k v v' :=
  h.sameBut fun _ _ => .request

theorem RecordTwin.sameBut {k : Str} (h : RecordTwin R kind v v') : J.SameBut (HashDiffers E R) k v v' := by
  unfold RecordTwin at h
  split at h
  · exact twin_sameBut h
  · rw [h]
    exact .same _

theorem dlookup_twin {es es' : List TableEntry} (h : List.Forall₂ (EntryTwin R) es es') :
    Option.Rel (RecordTwin R kind) (List.dlookup (kind, id) es) (List.dlookup (kind, id) es') := by
  induction h with
  | nil => exact .none
  | @cons e e' es es' he _ ih =>
    obtain ⟨k, v⟩ := e
    obtain ⟨k', v'⟩ := e'
    obtain ⟨hkey, hrec⟩ := he
    obtain rfl : k = k' := hkey
    by_cases hk : (kind, id) = k
    · subst hk
      rw [List.dlookup_cons_eq, List.dlookup_cons_eq]
      exact .some hrec
    · rw [List.dlookup_cons_ne es (⟨k, v⟩ : TableEntry) hk, List.dlookup_cons_ne es' (⟨k, v'⟩ : TableEntry) hk]
      exact ih

theorem kerase_twin {es es' : List TableEntry} {k : Kind × Str} (h : List.Forall₂ (EntryTwin R) es es') :
    List.Forall₂ (EntryTwin R) (List.kerase k es) (List.kerase k es') := by
  induction h with
  | nil => exact .nil
  | @cons e e' es es' he hrest ih =>
    by_cases hk : k = e.1
    · rw [List.kerase_cons_eq hk, List.kerase_cons_eq (hk.trans he.1)]
      exact hrest
    · rw [List.kerase_cons_ne hk, List.kerase_cons_ne (he.1 ▸ hk)]
      exact .cons he ih

theorem DbTwin.get (h : DbTwin E R db db') (kind : Kind) (id : Str) : RecordTwin R kind (db.get kind id) (db'.get kind id) := by
  have hfound : Option.Rel (RecordTwin R kind) (db.records.lookup (kind, id)) (db'.records.lookup (kind, id)) :=
    dlookup_twin h.records
  unfold Db.get
  generalize db.records.lookup (kind, id) = o at hfound ⊢
  generalize db'.records.lookup (kind, id) = o' at hfound ⊢
  cases hfound with
  | none => exact recordTwin_null
  | some hv => exact hv

theorem DbTwin.put (h : DbTwin E R db db') (hv : RecordTwin R kind v v') : DbTwin E R (db.put kind id v) (db'.put kind id v') :=
  ⟨.cons ⟨rfl, hv⟩ (kerase_twin h.records), h.events, h.sha, h.intact, h.intact'⟩

/-- Rows in step: one id, twin records. -/
abbrev RowTwin (R : Str → Str → Prop) (kind : Kind) (row row' : Str × J) : Prop :=
  row.1 = row'.1 ∧ RecordTwin R kind row.2 row'.2

/-- Sorting by keys that agree keeps two lists in step. -/
theorem forall₂_insertionSort {κ α α' : Type} [LE κ] [DecidableLE κ] {Q : κ × α → κ × α' → Prop}
    (hQ : ∀ a b, Q a b → a.1 = b.1) {as : List (κ × α)} {bs : List (κ × α')} (h : List.Forall₂ Q as bs) :
    List.Forall₂ Q (as.insertionSort fun a b => a.1 ≤ b.1) (bs.insertionSort fun a b => a.1 ≤ b.1) := by
  have hinsert : ∀ {a b} {as : List (κ × α)} {bs : List (κ × α')}, Q a b → List.Forall₂ Q as bs →
      List.Forall₂ Q (as.orderedInsert (fun a b => a.1 ≤ b.1) a) (bs.orderedInsert (fun a b => a.1 ≤ b.1) b) := by
    intro a b as bs hab h
    induction h with
    | nil => exact .cons hab .nil
    | @cons c d cs ds hcd hrest ih =>
      simp only [List.orderedInsert, ← hQ _ _ hab, ← hQ _ _ hcd]
      split
      · exact .cons hab (.cons hcd hrest)
      · exact .cons hcd ih
  induction h with
  | nil => exact .nil
  | cons hab _ ih =>
    rw [List.insertionSort_cons, List.insertionSort_cons]
    exact hinsert hab ih

theorem DbTwin.rows (h : DbTwin E R db db') (kind : Kind) : List.Forall₂ (RowTwin R kind) (db.rows kind) (db'.rows kind) := by
  have hselected : ∀ {es es'}, List.Forall₂ (EntryTwin R) es es' →
      List.Forall₂ (RowTwin R kind) ((es.filter fun e => e.1.1 = kind).map fun e => (e.1.2, e.2))
        ((es'.filter fun e => e.1.1 = kind).map fun e => (e.1.2, e.2)) := by
    intro es es' h
    induction h with
    | nil => exact .nil
    | @cons e e' es es' he _ ih =>
      rw [List.filter_cons, List.filter_cons, ← he.1]
      by_cases hk : e.1.1 = kind
      · rw [if_pos (by simpa using hk), if_pos (by simpa using hk), List.map_cons, List.map_cons]
        exact .cons ⟨by rw [he.1], hk ▸ he.2⟩ ih
      · rw [if_neg (by simpa using hk), if_neg (by simpa using hk)]
        exact ih
  exact forall₂_insertionSort (fun _ _ h => h.1) (hselected h.records)

theorem Twins.put {s s' : St} (h : Twins E R s s') (hv : RecordTwin R kind v v') :
    Twins E R { s with db := s.db.put kind id v } { s' with db := s'.db.put kind id v' } :=
  ⟨h.db.put hv, h.tick, h.nonce⟩

end Records

/-! ## Primitives -/

/-- Records of the kind bear no hash. -/
class Hashless (kind : Kind) : Prop where
  bears : bearsHash kind = false

instance : Hashless .session := ⟨rfl⟩

instance : Hashless .provenance := ⟨rfl⟩

instance : Hashless .continuation := ⟨rfl⟩

instance : Hashless .lease := ⟨rfl⟩

instance : Hashless .health := ⟨rfl⟩

instance : Hashless .channel := ⟨rfl⟩

/-- The program does not tell the two stores apart. -/
abbrev Unaware (E : Env) (R : Str → Str → Prop) {α : Type} (x : M α) : Prop := Tx.Blind (Twins E R) x

section Primitives

variable {kind : Kind} {v v' : J}

instance : Unaware E R (now E) := by
  refine ⟨fun s s' h => ?_⟩
  obtain ⟨db, tick, nonce⟩ := s
  obtain ⟨db', tick', nonce'⟩ := s'
  obtain ⟨hdb, rfl, rfl⟩ := h
  exact .ok rfl ⟨hdb, rfl, rfl⟩

instance : Unaware E R (newId E) := by
  refine ⟨fun s s' h => ?_⟩
  obtain ⟨db, tick, nonce⟩ := s
  obtain ⟨db', tick', nonce'⟩ := s'
  obtain ⟨hdb, rfl, rfl⟩ := h
  exact .ok rfl ⟨hdb, rfl, rfl⟩

theorem agree_read (kind : Kind) (id : Str) : Tx.Agree (Twins E R) (RecordTwin R kind) (read kind id) (read kind id) :=
  fun _ _ h => .ok (h.db.get kind id) h

instance [hk : Hashless kind] {id : Str} : Unaware E R (read kind id) :=
  ⟨(agree_read kind id).mono fun _ _ h => h.eq hk.bears⟩

theorem agree_list (kind : Kind) :
    Tx.Agree (Twins E R) (List.Forall₂ (RecordTwin R kind)) (list kind) (list kind) := by
  refine fun s s' h => .ok ?_ h
  rw [List.forall₂_map_left_iff, List.forall₂_map_right_iff]
  exact (h.db.rows kind).imp fun _ _ hrow => hrow.2

theorem agree_snapshot : Tx.Agree (Twins E R) (DbTwin E R) snapshot snapshot := fun _ _ h => .ok h.db h

theorem utf8_twin [hR : Pairing R] (h : v = v' ∨ J.Twin "request_sha256" R v v') : v'.utf8 = v.utf8 := by
  rcases h with rfl | h
  · rfl
  · exact h.utf8 hR.utf8

theorem agree_dump [Pairing R] (h : v = v' ∨ J.Twin "request_sha256" R v v') :
    Tx.Alike (fun _ _ => True) v.dump v'.dump := by
  rw [J.dump, J.dump, utf8_twin h]
  split
  · exact .ok trivial
  · exact .error _

theorem agree_write [Pairing R] {id : Str} (h : RecordTwin R kind v v') :
    Tx.Agree (Twins E R) Eq (write kind id v) (write kind id v') :=
  Tx.agree_bind (Tx.agree_lift (agree_dump h.eq_or_twin)) fun _ _ _ _ _ hs => .ok rfl (hs.put h)

instance [Pairing R] [hk : Hashless kind] {id : Str} : Unaware E R (write kind id v) :=
  ⟨agree_write (recordTwin_of_eq hk.bears)⟩

/-- Two lists in step end in step. -/
theorem forall₂_getLast? {α β : Type} {Q : α → β → Prop} {as : List α} {bs : List β} (h : List.Forall₂ Q as bs) :
    Option.Rel Q as.getLast? bs.getLast? := by
  have hrev := List.rel_reverse h
  rw [List.getLast?_eq_head?_reverse, List.getLast?_eq_head?_reverse]
  generalize as.reverse = l at hrev ⊢
  generalize bs.reverse = l' at hrev ⊢
  cases hrev with
  | nil => exact .none
  | cons he _ => exact .some he

/-- Hashes in step are read in step. -/
theorem ChainTwin.cText (hsha : ∀ text, IsSha (E.digest text)) {h h' : Str} (hc : ChainTwin E h h') :
    ChainTwin E (cText h) (cText h') := by
  have hdigest : ∀ x, Control.cText (E.digest x) = E.digest x := fun x => cText_eq.2 ((hsha x).notMem (by decide))
  rcases hc with rfl | ⟨x, x', rfl, rfl⟩
  · exact .inl rfl
  · rw [hdigest, hdigest]
    exact .inr ⟨x, x', rfl, rfl⟩

theorem last_twin (hsha : ∀ text, IsSha (E.digest text)) {events events' : List Event}
    (h : List.Forall₂ (EventTwin E R) events events') : ChainTwin E (lastHash events) (lastHash events') := by
  refine ChainTwin.cText hsha ?_
  have hlast := forall₂_getLast? h
  generalize events.getLast? = o at hlast ⊢
  generalize events'.getLast? = o' at hlast ⊢
  cases hlast with
  | none => exact .inl rfl
  | some he => exact he.hash

theorem append_eq (v : J) (s : St) : append E v s =
    if v.utf8 then
      if s.db.events.length < 2 ^ 63 - 1 then
        .ok () ⟨{ s.db with events := s.db.events ++ [eventFor E s.db.events (E.clock s.tick) v] }, s.tick + 1, s.nonce⟩
      else .error ⟨"database or disk is full"⟩ { s with tick := s.tick + 1 }
    else .error ⟨"[json.exception.type_error.316] invalid UTF-8 byte"⟩ { s with tick := s.tick + 1 } := by
  unfold append
  rw [Tx.bind_of_ok (show snapshot s = .ok s.db s from rfl),
    Tx.bind_of_ok (show now E s = .ok (E.clock s.tick) { s with tick := s.tick + 1 } from rfl)]
  by_cases hv : v.utf8 = true
  · rw [if_pos hv, Tx.bind_of_ok (Tx.lift_of_ok (J.dump_ok.2 ⟨hv, rfl⟩))]
    rfl
  · rw [if_neg hv, J.dump, if_neg hv]
    rfl

theorem agree_append [Pairing R] (h : v = v' ∨ J.Twin "request_sha256" R v v') :
    Tx.Agree (Twins E R) Eq (append E v) (append E v') := by
  intro s s' hs
  rw [append_eq, append_eq, utf8_twin h, ← hs.db.events.length_eq, ← hs.tick, ← hs.nonce]
  split
  · split
    · have hevent : EventTwin E R (eventFor E s.db.events (E.clock s.tick) v) (eventFor E s'.db.events (E.clock s.tick) v') :=
        ⟨rfl, h, last_twin hs.db.sha hs.db.events, .inr ⟨_, _, rfl, rfl⟩⟩
      exact .ok rfl ⟨⟨hs.db.records, List.rel_append hs.db.events (.cons hevent .nil), hs.db.sha,
        intact_append hs.db.sha hs.db.intact rfl, intact_append hs.db.sha hs.db.intact' rfl⟩, rfl, rfl⟩
    · exact .error ⟨hs.db, rfl, rfl⟩
  · exact .error ⟨hs.db, rfl, rfl⟩

instance [Pairing R] : Unaware E R (append E v) := ⟨agree_append (.inl rfl)⟩

/-- A program that does not tell the stores apart answers with one reply. -/
theorem agree_unaware {x : M J} [hx : Unaware E R x] : Tx.Agree (Twins E R) (Matches E R) x x :=
  hx.out.mono fun _ _ h => h ▸ .same _

theorem agree_transaction {α α' : Type} {A : α → α' → Prop} {x : M α} {y : M α'} (h : Tx.Agree (Twins E R) A x y) :
    Tx.Agree (Twins E R) A (transaction x) (transaction y) :=
  Tx.agree_transaction (fun _ _ _ _ hs ht => ⟨hs.db, ht.tick, ht.nonce⟩) h

end Primitives

end A2ad.Control
