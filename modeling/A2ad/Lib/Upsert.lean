/-
Lists keyed by a function of their elements: an element put in place of the one of its key, or at
the end. After any such updates the keys stand in the order of their first appearance, and a value
that is assembled of chunks is its last whole chunk followed by the chunks added since.
-/
import Mathlib.Data.List.Basic

namespace Keyed

/-! ## Updates -/

section Upsert

variable {α κ : Type} [DecidableEq κ] (key : α → κ)

/-- `into` applied to the first element of the key of `a`, or `a` at the end. -/
def upsert (into : α → α) (a : α) : List α → List α
  | [] => [a]
  | b :: rest => if key b = key a then into b :: rest else b :: upsert into a rest

def entry (k : κ) (l : List α) : Option α := l.find? fun a => key a = k

/-- A key after the others, unless it is there. -/
def addKey (ks : List κ) (k : κ) : List κ := if k ∈ ks then ks else ks ++ [k]

variable {key} {into : α → α} {a b : α} {l : List α} {k : κ}

/-- An update keeps the keys and their order, and adds its own at the end where it is new. -/
theorem map_upsert (hinto : ∀ b, key b = key a → key (into b) = key a) :
    (upsert key into a l).map key = addKey (l.map key) (key a) := by
  induction l with
  | nil => rfl
  | cons b rest ih =>
    rw [upsert]
    by_cases hb : key b = key a
    · rw [if_pos hb, addKey, if_pos (by simp [hb]), List.map_cons, List.map_cons, hinto b hb, hb]
    · rw [if_neg hb, List.map_cons, ih, addKey, addKey, List.map_cons]
      by_cases hmem : key a ∈ rest.map key
      · rw [if_pos hmem, if_pos (List.mem_cons_of_mem _ hmem)]
      · have hnot : key a ∉ key b :: rest.map key := by
          rw [List.mem_cons, not_or]
          exact ⟨fun h => hb h.symm, hmem⟩
        rw [if_neg hmem, if_neg hnot, List.cons_append]

theorem entry_cons : entry key k (b :: l) = if key b = k then some b else entry key k l := by
  unfold entry
  by_cases hb : key b = k
  · rw [List.find?_cons_of_pos (by simpa using hb), if_pos hb]
  · rw [List.find?_cons_of_neg (by simpa using hb), if_neg hb]

/-- An update changes the entry of its own key only. -/
theorem entry_upsert (hinto : ∀ b, key b = key a → key (into b) = key a) :
    entry key k (upsert key into a l) =
      if key a = k then some ((entry key k l).elim a into) else entry key k l := by
  induction l with
  | nil =>
    rw [upsert, entry_cons]
    rfl
  | cons b rest ih =>
    rw [upsert]
    by_cases hb : key b = key a
    · rw [if_pos hb, entry_cons, entry_cons, hinto b hb, hb]
      by_cases hk : key a = k
      · simp [hk]
      · simp [hk]
    · rw [if_neg hb, entry_cons, entry_cons, ih]
      by_cases hbk : key b = k
      · have hk : key a ≠ k := fun h => hb (hbk.trans h.symm)
        rw [if_pos hbk, if_neg hk, if_pos hbk]
      · rw [if_neg hbk, if_neg hbk]

theorem mem_of_entry (h : entry key k l = some a) : a ∈ l ∧ key a = k :=
  ⟨List.mem_of_find?_eq_some h, by simpa using List.find?_some h⟩

/-- With distinct keys every element is the entry of its key. -/
theorem entry_of_mem (hnodup : (l.map key).Nodup) (ha : a ∈ l) : entry key (key a) l = some a := by
  induction l with
  | nil => cases ha
  | cons b rest ih =>
    rw [entry_cons]
    rw [List.map_cons, List.nodup_cons] at hnodup
    rcases List.mem_cons.1 ha with rfl | ha
    · rw [if_pos rfl]
    · have hb : key b ≠ key a := by
        rintro heq
        exact hnodup.1 (heq ▸ List.mem_map_of_mem ha)
      rw [if_neg hb]
      exact ih hnodup.2 ha

end Upsert

/-! ## First appearance -/

section Order

variable {κ : Type} [DecidableEq κ] {ks all : List κ} {k : κ}

/-- The keys of `all`, each once, in the order of their first appearance. -/
structure FirstOrder (all ks : List κ) : Prop where
  mem : ∀ k, k ∈ ks ↔ k ∈ all
  order : ks.Pairwise fun x y => all.idxOf x < all.idxOf y

theorem FirstOrder.nodup (h : FirstOrder all ks) : ks.Nodup :=
  h.order.imp fun hlt heq => by
    rw [heq] at hlt
    omega

theorem FirstOrder.of_nodup (h : ks.Nodup) : FirstOrder ks ks where
  mem _ := Iff.rfl
  order := by
    rw [List.pairwise_iff_getElem]
    intro i j hi hj hij
    rw [h.idxOf_getElem, h.idxOf_getElem]
    exact hij

/-- One more appearance: the key is there, or comes last. -/
theorem FirstOrder.add (h : FirstOrder all ks) (k : κ) : FirstOrder (all ++ [k]) (addKey ks k) := by
  have hearlier : ks.Pairwise fun x y => (all ++ [k]).idxOf x < (all ++ [k]).idxOf y := by
    refine h.order.imp_of_mem fun {x y} hx hy hlt => ?_
    rw [List.idxOf_append_of_mem ((h.mem x).1 hx), List.idxOf_append_of_mem ((h.mem y).1 hy)]
    exact hlt
  unfold addKey
  by_cases hk : k ∈ ks
  · rw [if_pos hk]
    refine ⟨fun x => ?_, hearlier⟩
    rw [h.mem, List.mem_append, List.mem_singleton]
    constructor
    · exact .inl
    · rintro (hx | rfl)
      · exact hx
      · exact (h.mem _).1 hk
  · rw [if_neg hk]
    refine ⟨fun x => ?_, List.pairwise_append.2 ⟨hearlier, List.pairwise_singleton _ _, ?_⟩⟩
    · rw [List.mem_append, List.mem_append, h.mem]
    · intro x hx y hy
      obtain rfl := List.mem_singleton.1 hy
      have hnew : y ∉ all := fun hy => hk ((h.mem y).2 hy)
      have hxall : x ∈ all := (h.mem x).1 hx
      rw [List.idxOf_append_of_mem hxall, List.idxOf_append_of_notMem hnew]
      have := List.idxOf_lt_length_iff.2 hxall
      omega

end Order

/-! ## Chunks -/

section Chunks

variable {γ : Type} {stored : Option (List γ)} {us : List (List γ × Bool)} {v : List γ}

/-- The value after the chunks `us` on a stored one: the last chunk that replaced it, or else the
stored value or the very first chunk, and all chunks added after that. -/
def Assembled (stored : Option (List γ)) (us : List (List γ × Bool)) (v : List γ) : Prop :=
  ∃ base later, (∀ u ∈ later, u.2 = true) ∧ v = base ++ later.flatMap (·.1) ∧
    ((∃ earlier, us = earlier ++ (base, false) :: later) ∨ (stored = some base ∧ us = later) ∨
      (stored = none ∧ us = (base, true) :: later))

theorem Assembled.kept (v : List γ) : Assembled (some v) [] v :=
  ⟨v, [], by simp, by simp, .inr (.inl ⟨rfl, rfl⟩)⟩

theorem Assembled.first (u : List γ × Bool) : Assembled none [u] u.1 := by
  obtain ⟨chunk, added⟩ := u
  cases added with
  | false => exact ⟨chunk, [], by simp, by simp, .inl ⟨[], rfl⟩⟩
  | true => exact ⟨chunk, [], by simp, by simp, .inr (.inr ⟨rfl, rfl⟩)⟩

theorem Assembled.take (h : Assembled stored us v) (u : List γ × Bool) :
    Assembled stored (us ++ [u]) (if u.2 then v ++ u.1 else u.1) := by
  obtain ⟨chunk, added⟩ := u
  cases added with
  | false => exact ⟨chunk, [], by simp, by simp, .inl ⟨us, rfl⟩⟩
  | true =>
    obtain ⟨base, later, hadded, hv, horigin⟩ := h
    refine ⟨base, later ++ [(chunk, true)], ?_, by simp [hv], ?_⟩
    · intro u hu
      rcases List.mem_append.1 hu with hu | hu
      · exact hadded u hu
      · rw [List.mem_singleton.1 hu]
    · rcases horigin with ⟨earlier, rfl⟩ | ⟨hstored, rfl⟩ | ⟨hstored, rfl⟩
      · exact .inl ⟨earlier, by simp⟩
      · exact .inr (.inl ⟨hstored, rfl⟩)
      · exact .inr (.inr ⟨hstored, rfl⟩)

end Chunks

end Keyed
