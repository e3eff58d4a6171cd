/-
Absolute paths and their components: the text of a path, the components of a text, and how the
text of an ancestor directory sits in that of the paths below it.
-/
import A2ad.Lib.Bytes
import Mathlib.Data.List.Infix

namespace Dirs

open Bytes

/-! ## Paths -/

def IsComponent (c : Str) : Prop := c ≠ [] ∧ 47 ∉ c

def dirPath (cs : List Str) : Str := if cs.isEmpty then [47] else cs.flatMap (47 :: ·)

/-- An absolute path of components, without a slash at its end unless it is the root. -/
def Normal (p : Str) : Prop := ∃ cs, (∀ c ∈ cs, IsComponent c) ∧ p = dirPath cs

def components (p : Str) : List Str := (p.splitOn 47).filter fun c => !c.isEmpty

/-! ## Text and components -/

section Components

variable {cs ds : List Str} {p q : Str}

theorem dirPath_nil : dirPath [] = [47] := rfl

theorem dirPath_cons (c : Str) (cs : List Str) : dirPath (c :: cs) = 47 :: (c ++ cs.flatMap (47 :: ·)) := rfl

theorem flatMap_eq_intercalate (c : Str) (cs : List Str) :
    c ++ cs.flatMap (47 :: ·) = [47].intercalate (c :: cs) := by
  induction cs generalizing c with
  | nil => simp
  | cons d ds ih =>
    rw [List.intercalate_cons_cons, List.flatMap_cons, List.cons_append, ih d]
    simp

theorem components_dirPath (h : ∀ c ∈ cs, IsComponent c) : components (dirPath cs) = cs := by
  unfold components
  cases cs with
  | nil => decide
  | cons c cs =>
    have hslash : ∀ d ∈ [] :: c :: cs, 47 ∉ d := by
      intro d hd
      rcases List.mem_cons.1 hd with rfl | hd
      · exact List.not_mem_nil
      · exact (h d hd).2
    have htext : dirPath (c :: cs) = [47].intercalate ([] :: c :: cs) := by
      rw [← flatMap_eq_intercalate]
      rfl
    rw [htext, List.splitOn_intercalate 47 hslash (by simp)]
    have hkept : ∀ d ∈ c :: cs, (!d.isEmpty) = true := fun d hd => by simpa using (h d hd).1
    rw [List.filter_cons_of_neg (by simp), List.filter_eq_self.2 hkept]

theorem Normal.eq_text (h : Normal p) : dirPath (components p) = p := by
  obtain ⟨cs, hcs, rfl⟩ := h
  rw [components_dirPath hcs]

theorem Normal.ne_nil (h : Normal p) : p ≠ [] := by
  obtain ⟨cs, -, rfl⟩ := h
  cases cs <;> simp [dirPath]

/-- A path is its components. -/
theorem Normal.inj (hp : Normal p) (hq : Normal q) (h : components p = components q) : p = q := by
  rw [← hp.eq_text, ← hq.eq_text, h]

end Components

/-! ## Any text -/

section Text

variable {p : Str}

theorem splitOn_isComponent : ∀ c ∈ p.splitOn 47, 47 ∉ c := by
  induction p with
  | nil => simp
  | cons x p ih =>
    rw [List.splitOn_cons_eq_if_modifyHead]
    split
    · simpa using ih
    · rename_i hx
      cases hp : p.splitOn 47 with
      | nil => simp
      | cons d ds =>
        rw [hp] at ih
        rw [List.modifyHead_cons]
        obtain ⟨hd, hds⟩ := List.forall_mem_cons.1 ih
        refine List.forall_mem_cons.2 ⟨fun h => ?_, hds⟩
        rcases List.mem_cons.1 h with h | h
        · exact hx (by rw [h]; exact beq_self_eq_true x)
        · exact hd h

/-- The path that a text spells, with single slashes. -/
def tidy (p : Str) : Str := dirPath (components p)

theorem normal_tidy (p : Str) : Normal (tidy p) := by
  refine ⟨components p, fun c hc => ?_, rfl⟩
  obtain ⟨hc, hne⟩ := List.mem_filter.1 hc
  exact ⟨by simpa using hne, splitOn_isComponent c hc⟩

end Text

/-! ## Ancestors -/

section Ancestors

variable {cs ds : List Str} {p q : Str}

theorem flatMap_slash (cs : List Str) : ∃ rest, cs.flatMap (47 :: ·) ++ [47] = 47 :: rest := by
  cases cs with
  | nil => exact ⟨[], rfl⟩
  | cons c cs => exact ⟨_, rfl⟩

/-- The components of one path begin those of another if its text, closed by a slash, begins the other's. -/
theorem flatMap_prefix (hcs : ∀ c ∈ cs, IsComponent c) (hds : ∀ d ∈ ds, IsComponent d) :
    cs.flatMap (47 :: ·) ++ [47] <+: ds.flatMap (47 :: ·) ++ [47] ↔ cs <+: ds := by
  induction cs generalizing ds with
  | nil =>
    obtain ⟨rest, hrest⟩ := flatMap_slash ds
    rw [hrest]
    simp
  | cons c cs ih =>
    obtain ⟨hc, hcs⟩ := List.forall_mem_cons.1 hcs
    cases ds with
    | nil =>
      refine iff_of_false (fun h => ?_) (by simp)
      have hlength := h.length_le
      simp at hlength
    | cons d ds =>
      obtain ⟨hd, hds⟩ := List.forall_mem_cons.1 hds
      simp only [List.flatMap_cons, List.cons_append, List.append_assoc, List.cons_prefix_cons, true_and]
      rw [← ih hcs hds]
      obtain ⟨x, hx⟩ := flatMap_slash cs
      obtain ⟨y, hy⟩ := flatMap_slash ds
      rw [hx, hy]
      constructor
      · rintro ⟨t, ht⟩
        rw [List.append_assoc, List.cons_append] at ht
        obtain ⟨rfl, hrest⟩ := cut_inj hc.2 hd.2 ht
        exact ⟨rfl, t, by rw [List.cons_append, hrest]⟩
      · rintro ⟨rfl, t, ht⟩
        exact ⟨t, by rw [List.append_assoc, ht]⟩

/-- A path other than the root is another, or followed by a slash begins it, exactly if it is the same
directory or an ancestor of it. -/
theorem Normal.covers_iff (hp : Normal p) (hq : Normal q) (hroot : p ≠ [47]) :
    q = p ∨ p ++ [47] <+: q ↔ components p <+: components q := by
  obtain ⟨cs, hcs, rfl⟩ := hp
  obtain ⟨ds, hds, rfl⟩ := hq
  rw [components_dirPath hcs, components_dirPath hds]
  cases cs with
  | nil => exact absurd rfl hroot
  | cons c cs =>
    cases ds with
    | nil =>
      refine iff_of_false ?_ (by simp)
      rintro (h | h)
      · rw [dirPath_nil, dirPath_cons] at h
        have hempty := List.append_eq_nil_iff.1 (List.cons.inj h).2.symm
        exact (hcs c (List.mem_cons_self ..)).1 hempty.1
      · have hlength := h.length_le
        simp [dirPath] at hlength
    | cons d ds =>
      rw [← flatMap_prefix hcs hds]
      show (d :: ds).flatMap _ = (c :: cs).flatMap _ ∨ _ ↔ _
      rw [List.prefix_concat_iff, List.append_cancel_right_eq, eq_comm]
      exact Iff.rfl

/-- An ancestor with more components has the longer text. -/
theorem Normal.length_lt (hp : Normal p) (hq : Normal q) (h : components p <+: components q)
    (hne : p ≠ q) : p.length < q.length := by
  by_cases hroot : p = [47]
  · subst hroot
    obtain ⟨ds, hds, rfl⟩ := hq
    cases ds with
    | nil => exact absurd rfl hne
    | cons d ds =>
      have hd := List.length_pos_iff.2 (hds d (List.mem_cons_self ..)).1
      simp [dirPath]
      omega
  · rcases (hp.covers_iff hq hroot).2 h with heq | hunder
    · exact absurd heq.symm hne
    · have hlength := hunder.length_le
      simp at hlength
      omega

end Ancestors
end Dirs
