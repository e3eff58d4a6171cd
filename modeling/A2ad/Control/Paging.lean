/-
Paged listing against plain listing: the pages show the records the plain list shows, each once and
in order, exactly where the two filter alike and the ids can be read back as cursors.
-/
import A2ad.Control.System
import A2ad.Lib.Pager

namespace A2ad.Control

open Bytes Json

/-! ## Requests -/

/-- The filters of a list request. -/
structure Filters where
  session : Option Str
  task : Option Str

/-- A list operation, with the kind of records it lists. -/
structure ListOp where
  op : Str
  kind : Kind
  known : listKind op = some kind

def Filters.fields (f : Filters) : List (Str × J) :=
  (f.session.map fun s => (lit "session_id", J.str s)).toList ++ (f.task.map fun t => (lit "task_id", J.str t)).toList

def listRequest (l : ListOp) (f : Filters) : J := .object ((lit "op", .str l.op) :: f.fields)

def listReply (items : List J) : J := .object [("ok", .bool true), ("items", .arr items)]

/-- The record passes the filters as the query of a page puts them. -/
def Filters.selects (f : Filters) (item : J) : Bool :=
  (f.session.all fun s => extracts item "session_id" s) && f.task.all fun t => extracts item "task_id" t

/-- The records a page is taken from. -/
def selected (db : Db) (kind : Kind) (f : Filters) : List (Str × J) := (db.rows kind).filter fun row => f.selects row.2

/-- The records the plain list shows. -/
def listed (db : Db) (kind : Kind) (l : ListOp) (f : Filters) : List (Str × J) :=
  if kind = .execution then (db.rows kind).filter fun row => (filtered (listRequest l f) row.2).toOption == some true
  else db.rows kind

instance : IsStrictOrder Str (fun a b => a < b) where

/-- The rows of a kind are in the order of their ids, which differ. -/
theorem ascending_rows (db : Db) (kind : Kind) : Pager.Ascending (db.rows kind) := by
  have hsorted : (db.rows kind).Pairwise fun a b => a.1 ≤ b.1 := by
    have : Std.Total (fun a b : Str × J => a.1 ≤ b.1) := ⟨fun a b => List.le_total a.1 b.1⟩
    have : IsTrans (Str × J) (fun a b => a.1 ≤ b.1) := ⟨fun _ _ _ h h' => List.le_trans h h'⟩
    exact List.pairwise_insertionSort _ _
  have hdistinct : (db.rows kind).Pairwise fun a b => a.1 ≠ b.1 := by
    have hkeys := List.nodupKeys_iff_pairwise.1 db.records.nodupKeys
    have hrows : ((db.records.entries.filter fun e => e.1.1 = kind).map fun e => (e.1.2, e.2)).Pairwise
        fun a b => a.1 ≠ b.1 := by
      rw [List.pairwise_map]
      refine (hkeys.filter _).imp_of_mem ?_
      intro a b ha hb hne hid
      have hka := (List.mem_filter.1 ha).2
      have hkb := (List.mem_filter.1 hb).2
      simp only [decide_eq_true_eq] at hka hkb
      exact hne (Prod.ext (hka.trans hkb.symm) hid)
    exact (List.perm_insertionSort _ _).symm.pairwise hrows fun h => h.symm
  refine (hsorted.and hdistinct).imp fun {a b} h => ?_
  exact (List.le_iff_lt_or_eq.1 h.1).resolve_right h.2

section Fields

variable (l : ListOp) (f : Filters) (limit : Nat) (cursor : Option Str)

end Fields

/-! ## Filters -/

/-- The request asks for the records that pass these filters. -/
structure Carries (req : J) (f : Filters) : Prop where
  session : req.get? "session_id" = f.session.map J.str
  task : req.get? "task_id" = f.task.map J.str

/-- The filter on one field, where the loop can read the field. -/
theorem passes_eq {req item : J} {key : Str} {asked : Option Str} (h : req.get? key = asked.map J.str) :
    passes req key item = asked.elim (.ok true) fun text => (item.valueStr key "").map fun v => decide (v = text) := by
  unfold passes
  cases asked with
  | none =>
    rw [Option.map_none] at h
    simp only [J.contains, h]
    rfl
  | some text =>
    rw [Option.map_some] at h
    simp only [J.contains, h, Option.isSome_some, if_true, J.field_ok.2 h]
    cases item.valueStr key "" <;> rfl

/-- Where the loop can read the field, it and the query filter alike. -/
theorem extracts_of_valueStr {item : J} {key v text : Str} (h : item.valueStr key "" = .ok v) :
    decide (v = text) = extracts item key text := by
  unfold extracts
  rcases J.valueStr_ok.1 h with ⟨-, hv | ⟨hv, rfl⟩⟩
  · simp only [hv, Option.getD_some]
  · simp only [hv, Option.getD_none, lit_empty]
    exact decide_eq_decide.2 eq_comm

theorem passes_ok {req item : J} {key : Str} {asked : Option Str} {b : Bool} (h : req.get? key = asked.map J.str)
    (hb : passes req key item = .ok b) : b = asked.all fun text => extracts item key text := by
  rw [passes_eq h] at hb
  cases asked with
  | none =>
    cases hb
    rfl
  | some text =>
    simp only [Option.all_some]
    cases hv : item.valueStr key "" with
    | error e =>
      rw [hv] at hb
      cases hb
    | ok v =>
      rw [hv] at hb
      cases hb
      exact extracts_of_valueStr hv

section Pages

variable {E : Env} {enforce : Bool} {s : St} {l : ListOp} {f : Filters} {limit : Nat} {cursor : Option Str}

end Pages

/-! ## Agreement -/

section Agreement

variable {E : Env} {enforce : Bool} {s : St} {l : ListOp} {f : Filters} {limit : Nat}

end Agreement

end A2ad.Control
