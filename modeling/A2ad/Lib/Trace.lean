/-
Runs of a labelled transition system as lists of transitions, with the rules that carry an
invariant of the history along a run and that simulate one system by another, step by step.
-/
import Mathlib.Data.List.Forall2
import Mathlib.Order.Defs.Unbundled

/-- One step taken: the state before it, its label, the state after it. -/
structure Move (σ ℓ : Type) where
  pre : σ
  label : ℓ
  post : σ

/-- The runs of `Step` from `s₀`: the transitions taken, oldest first, and the state reached. -/
inductive Run {σ ℓ : Type} (Step : σ → ℓ → σ → Prop) (s₀ : σ) : List (Move σ ℓ) → σ → Prop
  | nil : Run Step s₀ [] s₀
  | snoc {tr : List (Move σ ℓ)} {s t : σ} {l : ℓ} :
    Run Step s₀ tr s → Step s l t → Run Step s₀ (tr ++ [⟨s, l, t⟩]) t

namespace Run

variable {σ ℓ : Type} {Step : σ → ℓ → σ → Prop} {s₀ s t : σ} {tr tr' : List (Move σ ℓ)}

/-- An invariant of histories that every step keeps holds after every run. -/
theorem invariant {I : List (Move σ ℓ) → σ → Prop} (h₀ : I [] s₀)
    (hstep : ∀ tr s l t, I tr s → Step s l t → I (tr ++ [⟨s, l, t⟩]) t) (h : Run Step s₀ tr s) : I tr s := by
  induction h with
  | nil => exact h₀
  | snoc _ hs ih => exact hstep _ _ _ _ ih hs

/-- As `invariant`, with the run up to the step at hand. -/
theorem invariant_of {I : List (Move σ ℓ) → σ → Prop} (h₀ : I [] s₀)
    (hstep : ∀ tr s l t, Run Step s₀ tr s → I tr s → Step s l t → I (tr ++ [⟨s, l, t⟩]) t)
    (h : Run Step s₀ tr s) : I tr s := by
  induction h with
  | nil => exact h₀
  | snoc hr hs ih => exact hstep _ _ _ _ hr ih hs

theorem eq_of_nil (h : Run Step s₀ [] s) : s = s₀ := by
  generalize hl : ([] : List (Move σ ℓ)) = l at h
  cases h with
  | nil => rfl
  | snoc => simp at hl

theorem append (h : Run Step s₀ tr s) (h' : Run Step s tr' t) : Run Step s₀ (tr ++ tr') t := by
  induction h' with
  | nil => simpa using h
  | snoc _ hs ih => rw [← List.append_assoc]; exact ih.snoc hs

/-- A step before a run. -/
theorem cons {x : Move σ ℓ} (hpre : x.pre = s₀) (hs : Step s₀ x.label x.post) (h : Run Step x.post tr t) :
    Run Step s₀ (x :: tr) t := by
  subst hpre
  exact (nil.snoc hs).append h

/-- A run through a transition is a run up to it, the step itself, and a run after it. -/
theorem split {x : Move σ ℓ} (h : Run Step s₀ (tr ++ x :: tr') t) :
    Run Step s₀ tr x.pre ∧ Step x.pre x.label x.post ∧ Run Step x.post tr' t := by
  generalize hl : tr ++ x :: tr' = l at h
  induction h generalizing tr' with
  | nil => cases tr <;> cases hl
  | @snoc l s u lb hr hs ih =>
    rcases List.eq_nil_or_concat tr' with rfl | ⟨tr'', y, rfl⟩
    · obtain ⟨rfl, hx⟩ := List.append_inj' hl rfl
      cases hx
      exact ⟨hr, hs, .nil⟩
    · rw [List.concat_eq_append, ← List.cons_append, ← List.append_assoc] at hl
      obtain ⟨htr, hy⟩ := List.append_inj' hl rfl
      cases hy
      obtain ⟨h₁, h₂, h₃⟩ := ih htr
      exact ⟨h₁, h₂, by rw [List.concat_eq_append]; exact h₃.snoc hs⟩

theorem mem_step {x : Move σ ℓ} (h : Run Step s₀ tr t) (hx : x ∈ tr) : Step x.pre x.label x.post := by
  obtain ⟨a, b, rfl⟩ := List.append_of_mem hx
  exact h.split.2.1

/-- An invariant of the states holds before every step taken. -/
theorem invariant_pre {I : σ → Prop} (h₀ : I s₀) (hstep : ∀ s l t, I s → Step s l t → I t) {x : Move σ ℓ}
    (h : Run Step s₀ tr s) (hx : x ∈ tr) : I x.pre := by
  obtain ⟨before, after, rfl⟩ := List.append_of_mem hx
  exact h.split.1.invariant (I := fun _ s => I s) h₀ fun _ s l t hs hst => hstep s l t hs hst

/-- What every step taken keeps, the run keeps. -/
theorem keeps {R : σ → σ → Prop} [hR : IsPreorder σ R] (h : Run Step s₀ tr s) (hstep : ∀ m ∈ tr, R m.pre m.post) :
    R s₀ s := by
  induction h with
  | nil => exact hR.refl s₀
  | snoc _ _ ih =>
    refine hR.trans _ _ _ (ih fun m hm => hstep m (List.mem_append_left _ hm)) ?_
    exact hstep ⟨_, _, _⟩ (List.mem_append_right _ (List.mem_singleton_self _))

/-- A fold is a run that takes the elements of its list one by one. -/
theorem of_foldl (f : σ → ℓ → σ) (s : σ) (ls : List ℓ) :
    ∃ tr, Run (fun s l t => t = f s l) s tr (ls.foldl f s) ∧ tr.map Move.label = ls := by
  induction ls generalizing s with
  | nil => exact ⟨[], .nil, rfl⟩
  | cons l ls ih =>
    obtain ⟨tr, hrun, hlabels⟩ := ih (f s l)
    exact ⟨_, (Run.nil.snoc rfl).append hrun, by rw [List.map_append, hlabels]; rfl⟩

/-! ## Simulation -/

section Simulation

variable {σ' ℓ' : Type} {Step' : σ' → ℓ' → σ' → Prop} {s₀' : σ'} {R : σ → σ' → Prop} {L : Move σ ℓ → ℓ' → Prop}

/-- When every step from related states is matched by a step to related states, every run is matched
by a run, move by move. -/
theorem simulate (h₀ : R s₀ s₀') (hstep : ∀ tr s l t s', Run Step s₀ tr s → R s s' → Step s l t →
    ∃ l' t', R t t' ∧ Step' s' l' t' ∧ L ⟨s, l, t⟩ l') (h : Run Step s₀ tr s) :
    ∃ tr' s', R s s' ∧ Run Step' s₀' tr' s' ∧ List.Forall₂ (fun m m' => L m m'.label) tr tr' := by
  induction h with
  | nil => exact ⟨[], s₀', h₀, .nil, .nil⟩
  | snoc hr hs ih =>
    obtain ⟨tr', s', hR, hrun, hmatch⟩ := ih
    obtain ⟨l', t', hR', hs', hL⟩ := hstep _ _ _ _ _ hr hR hs
    exact ⟨_, t', hR', hrun.snoc hs', List.rel_append hmatch (.cons hL .nil)⟩

end Simulation

end Run

/-! ## Matched histories -/

section Matched

variable {α β : Type} {R : α → β → Prop} {as : List α} {bs : List β}

theorem matched_of_mem (h : List.Forall₂ R as bs) {a : α} (ha : a ∈ as) : ∃ b ∈ bs, R a b := by
  induction h with
  | nil => cases ha
  | cons hab _ ih =>
    rcases List.mem_cons.1 ha with rfl | ha
    · exact ⟨_, List.mem_cons_self, hab⟩
    · obtain ⟨b, hb, hR⟩ := ih ha
      exact ⟨b, List.mem_cons_of_mem _ hb, hR⟩

/-- A place in the one history is matched by a place in the other, with what lies around it. -/
theorem matched_around {a : α} {l r : List α} (h : List.Forall₂ R (l ++ a :: r) bs) :
    ∃ l' b r', bs = l' ++ b :: r' ∧ List.Forall₂ R l l' ∧ R a b ∧ List.Forall₂ R r r' := by
  induction l generalizing bs with
  | nil =>
    obtain ⟨b, r', hab, hr, rfl⟩ := List.forall₂_cons_left_iff.1 h
    exact ⟨[], b, r', rfl, .nil, hab, hr⟩
  | cons _ l ih =>
    obtain ⟨b', bs', hab, hrest, rfl⟩ := List.forall₂_cons_left_iff.1 h
    obtain ⟨l', b, r', rfl, hl, hab', hr⟩ := ih hrest
    exact ⟨b' :: l', b, r', rfl, .cons hab hl, hab', hr⟩

/-- A place in the one history is matched by a place in the other. -/
theorem matched_split {b : β} {l r : List β} (h : List.Forall₂ R as (l ++ b :: r)) :
    ∃ l' a r', as = l' ++ a :: r' ∧ R a b ∧ List.Forall₂ R r' r := by
  obtain ⟨l', a, r', rfl, -, hab, hr⟩ := matched_around h.flip
  exact ⟨l', a, r', rfl, hab, hr.flip⟩

end Matched
