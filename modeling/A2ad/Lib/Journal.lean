/-
A journal of posts, each a key with a value, and the map it plays to: the last post under a key
counts, whatever was posted under its key before.
-/
import Mathlib.Logic.Function.Basic

namespace Journal

variable {κ κ' υ : Type} [DecidableEq κ]

/-- The map `m` after the posts. -/
def play (m : κ → Option υ) : List (κ × υ) → κ → Option υ
  | [] => m
  | p :: rest => play (Function.update m p.1 (some p.2)) rest

variable {m m' : κ → Option υ} {posts : List (κ × υ)} {k : κ}

@[simp] theorem play_nil : play m [] = m := rfl

@[simp] theorem play_cons (p : κ × υ) (rest : List (κ × υ)) :
    play m (p :: rest) = play (Function.update m p.1 (some p.2)) rest := rfl

theorem play_append (a b : List (κ × υ)) : play m (a ++ b) = play (play m a) b := by
  induction a generalizing m with
  | nil => rfl
  | cons p a ih => exact ih

/-- Where nothing is posted, the map stays. -/
theorem play_of_notMem (h : ∀ p ∈ posts, p.1 ≠ k) : play m posts k = m k := by
  induction posts generalizing m with
  | nil => rfl
  | cons p rest ih =>
    obtain ⟨hp, hrest⟩ := List.forall_mem_cons.1 h
    rw [play_cons, ih hrest, Function.update_of_ne hp.symm]

/-- Where something is posted, it does not matter what the map was. -/
theorem play_congr (h : (∃ p ∈ posts, p.1 = k) ∨ m k = m' k) : play m posts k = play m' posts k := by
  induction posts generalizing m m' with
  | nil =>
    rcases h with ⟨p, hp, -⟩ | h
    · cases hp
    · exact h
  | cons p rest ih =>
    rw [play_cons, play_cons]
    by_cases hpk : p.1 = k
    · refine ih (.inr ?_)
      rw [hpk, Function.update_self, Function.update_self]
    · refine ih ?_
      rw [Function.update_of_ne (Ne.symm hpk), Function.update_of_ne (Ne.symm hpk)]
      refine h.imp_left ?_
      rintro ⟨q, hq, hqk⟩
      rcases List.mem_cons.1 hq with rfl | hq
      · exact absurd hqk hpk
      · exact ⟨q, hq, hqk⟩

/-- A post that still stands in the end could as well have come last. -/
theorem play_later {p : κ × υ} (h : play m (p :: posts) p.1 = some p.2) : play m (posts ++ [p]) = play m (p :: posts) := by
  funext k
  rw [play_append, play_cons, play_nil]
  by_cases hk : k = p.1
  · rw [hk, Function.update_self, h]
  · rw [Function.update_of_ne hk, play_cons]
    refine play_congr (.inr ?_)
    rw [Function.update_of_ne hk]

/-! ## Posts under some of the keys -/

/-- The posts, each key renamed. -/
def place (g : κ' → κ) (posts : List (κ' × υ)) : List (κ × υ) := posts.map fun p => (g p.1, p.2)

theorem play_place [DecidableEq κ'] {g : κ' → κ} (hg : Function.Injective g) (posts : List (κ' × υ)) (k : κ') :
    play m (place g posts) (g k) = play (fun k => m (g k)) posts k := by
  induction posts generalizing m with
  | nil => rfl
  | cons p rest ih =>
    rw [place, List.map_cons, play_cons, play_cons]
    refine (ih ..).trans (congrArg (fun m => play m rest k) ?_)
    funext k'
    by_cases hk : k' = p.1
    · rw [hk, Function.update_self, Function.update_self]
    · rw [Function.update_of_ne hk, Function.update_of_ne (hg.ne hk)]

theorem play_place_of_ne {g : κ' → κ} (posts : List (κ' × υ)) (h : ∀ k', g k' ≠ k) :
    play m (place g posts) k = m k := by
  refine play_of_notMem fun p hp => ?_
  obtain ⟨q, -, rfl⟩ := List.mem_map.1 hp
  exact h q.1

end Journal
