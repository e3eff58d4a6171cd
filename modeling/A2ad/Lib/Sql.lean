/-
Tables of named columns, as SQL statements change them: a column added with the value it gives to
the rows that are there, a column filled from another where it is null, and a row inserted in place
of the one of its key.
-/
import Mathlib.Data.List.Forall2
import Mathlib.Data.List.Nodup

namespace Sql

/-- A column, with what a row holds there when it is given nothing. -/
structure Column (C V : Type) where
  name : C
  default : V
deriving DecidableEq

/-- A table: columns of distinct names, and rows with a value for each of them. -/
structure Table (C V : Type) where
  columns : List (Column C V)
  rows : List (List V)
  nodup : (columns.map Column.name).Nodup
  width : ∀ r ∈ rows, r.length = columns.length
deriving DecidableEq

theorem forall₂_comp {α β γ : Type} {P : α → β → Prop} {Q : β → γ → Prop} {R : α → γ → Prop} {as : List α}
    {bs : List β} {cs : List γ} (hR : ∀ a b c, P a b → Q b c → R a c) (h : List.Forall₂ P as bs)
    (h' : List.Forall₂ Q bs cs) : List.Forall₂ R as cs := by
  induction h generalizing cs with
  | nil =>
    cases h'
    exact .nil
  | cons hab _ ih =>
    obtain ⟨c, cs, hbc, hrest, rfl⟩ := List.forall₂_cons_left_iff.1 h'
    exact .cons (hR _ _ _ hab hbc) (ih hrest)

namespace Table

variable {C V : Type} {t t' : Table C V} {c dst src : C} {r : List V}

def names (t : Table C V) : List C := t.columns.map Column.name

@[simp] theorem length_names : t.names.length = t.columns.length := List.length_map _

variable [DecidableEq C]

/-- The value of a row in a column. -/
def cell (t : Table C V) (r : List V) (c : C) : Option V := r[t.names.idxOf c]?

theorem cell_congr (h : t'.columns = t.columns) : t'.cell r c = t.cell r c := by
  unfold cell names
  rw [h]

/-- A row has a value in every column. -/
theorem cell_isSome (hr : r ∈ t.rows) (hc : c ∈ t.names) : (t.cell r c).isSome = true := by
  have hlt := List.idxOf_lt_length_iff.2 hc
  rw [length_names, ← t.width r hr] at hlt
  rw [cell, List.getElem?_eq_getElem hlt, Option.isSome_some]

/-! ## Adding a column -/

/-- `ALTER TABLE t ADD COLUMN`. -/
def addColumn (col : Column C V) (t : Table C V) : Option (Table C V) :=
  if h : col.name ∈ t.names then none
  else some {
    columns := t.columns ++ [col]
    rows := t.rows.map (· ++ [col.default])
    nodup := by
      rw [List.map_append, List.map_singleton, List.nodup_append]
      refine ⟨t.nodup, List.nodup_singleton _, fun a ha b hb => ?_⟩
      rw [List.mem_singleton.1 hb]
      exact fun heq => h (heq ▸ ha)
    width := by
      intro r hr
      obtain ⟨q, hq, rfl⟩ := List.mem_map.1 hr
      rw [List.length_append, List.length_append, t.width q hq, List.length_singleton, List.length_singleton] }

variable {col : Column C V}

/-- The rows keep what they have and hold the default in the new column. -/
theorem addColumn_some (h : t.addColumn col = some t') :
    col.name ∉ t.names ∧ t'.names = t.names ++ [col.name] ∧
      List.Forall₂ (fun r r' => (∀ c ∈ t.names, t'.cell r' c = t.cell r c) ∧ t'.cell r' col.name = some col.default)
        t.rows t'.rows := by
  unfold addColumn at h
  split at h
  · cases h
  · rename_i hnew
    cases h
    refine ⟨hnew, by simp [names], ?_⟩
    rw [List.forall₂_map_right_iff, List.forall₂_same]
    intro r hr
    have hwidth : r.length = t.names.length := by rw [t.width r hr, length_names]
    have hnames : (t.columns ++ [col]).map Column.name = t.names ++ [col.name] := by simp [names]
    constructor
    · intro c hc
      have hlt := List.idxOf_lt_length_iff.2 hc
      unfold cell
      rw [names, hnames, List.idxOf_append_of_mem hc]
      exact List.getElem?_append_left (hwidth ▸ hlt)
    · unfold cell
      rw [names, hnames, List.idxOf_append_of_notMem hnew, List.idxOf_cons_self, Nat.add_zero, ← hwidth,
        List.getElem?_concat_length]

/-! ## Filling a column -/

section Fill

variable [DecidableEq V] {null : V}

/-- `dst` set to `src`, where it is null. -/
def fillRow (null : V) (dst src : C) (t : Table C V) (r : List V) : List V :=
  if t.cell r dst = some null then r.set (t.names.idxOf dst) ((t.cell r src).getD null) else r

/-- `UPDATE t SET dst=src WHERE dst IS NULL`. -/
def fill (null : V) (dst src : C) (t : Table C V) : Option (Table C V) :=
  if dst ∈ t.names ∧ src ∈ t.names then some { t with
    rows := t.rows.map (t.fillRow null dst src)
    width := by
      intro r hr
      obtain ⟨q, hq, rfl⟩ := List.mem_map.1 hr
      unfold fillRow
      split
      · rw [List.length_set, t.width q hq]
      · exact t.width q hq }
  else none

theorem cell_fillRow_of_ne (hdst : dst ∈ t.names) (hne : c ≠ dst) :
    t.cell (t.fillRow null dst src r) c = t.cell r c := by
  unfold fillRow
  split
  · refine List.getElem?_set_ne fun heq => hne ?_
    exact ((List.idxOf_inj hdst).1 heq).symm
  · rfl

/-- Only the filled column changes, and only where it was null. -/
theorem fill_some (h : t.fill null dst src = some t') :
    dst ∈ t.names ∧ src ∈ t.names ∧ t'.names = t.names ∧
      List.Forall₂ (fun r r' => (∀ c, c ≠ dst → t'.cell r' c = t.cell r c) ∧
        (t.cell r dst = some null → t'.cell r' dst = t.cell r src)) t.rows t'.rows := by
  unfold fill at h
  split at h
  · rename_i hnames
    obtain ⟨hdst, hsrc⟩ := hnames
    cases h
    refine ⟨hdst, hsrc, rfl, ?_⟩
    rw [List.forall₂_map_right_iff, List.forall₂_same]
    intro r hr
    refine ⟨fun c hne => cell_fillRow_of_ne hdst hne, fun hnull => ?_⟩
    obtain ⟨v, hv⟩ := Option.isSome_iff_exists.1 (cell_isSome hr hsrc)
    have hlt : t.names.idxOf dst < r.length := by
      rw [t.width r hr, ← length_names]
      exact List.idxOf_lt_length_iff.2 hdst
    show (t.fillRow null dst src r)[t.names.idxOf dst]? = t.cell r src
    rw [fillRow, if_pos hnull, List.getElem?_set_self hlt, hv]
    rfl
  · cases h

end Fill

/-! ## Inserting a row -/

variable {key : C} {given : List (C × V)} {v : V}

/-- The row that holds `given`, and the default where nothing is given. -/
def newRow (given : List (C × V)) (t : Table C V) : List V :=
  t.columns.map fun col => (given.lookup col.name).getD col.default

theorem cell_newRow (hc : c ∈ t.names) (hv : given.lookup c = some v) : t.cell (t.newRow given) c = some v := by
  have hlt := List.idxOf_lt_length_iff.2 hc
  have hname := List.getElem?_eq_some_iff.2 ⟨hlt, List.getElem_idxOf hlt⟩
  rw [names, List.getElem?_map, Option.map_eq_some_iff] at hname
  obtain ⟨col, hcol, hname⟩ := hname
  rw [cell, newRow, List.getElem?_map, names, hcol, Option.map_some, hname, hv]
  rfl

variable [DecidableEq V]

/-- `INSERT OR REPLACE INTO t(..) VALUES(..)`, with the primary key `key`. -/
def insert (key : C) (given : List (C × V)) (t : Table C V) : Option (Table C V) :=
  if ∀ g ∈ given, g.1 ∈ t.names then some { t with
    rows := t.rows.filter (fun r => t.cell r key ≠ t.cell (t.newRow given) key) ++ [t.newRow given]
    width := by
      intro r hr
      rcases List.mem_append.1 hr with hr | hr
      · exact t.width r (List.mem_filter.1 hr).1
      · rw [List.mem_singleton.1 hr, newRow, List.length_map] }
  else none

/-- Every row of another key stays. -/
theorem insert_some (h : t.insert key given = some t') :
    (∀ g ∈ given, g.1 ∈ t.names) ∧ t'.columns = t.columns ∧ t.newRow given ∈ t'.rows ∧
      ∀ r ∈ t.rows, t.cell r key ≠ t.cell (t.newRow given) key → r ∈ t'.rows := by
  unfold insert at h
  split at h
  · rename_i hgiven
    cases h
    refine ⟨hgiven, rfl, List.mem_append_right _ (List.mem_singleton_self _), fun r hr hne => ?_⟩
    exact List.mem_append_left _ (List.mem_filter.2 ⟨hr, decide_eq_true hne⟩)
  · cases h

end Table

end Sql
