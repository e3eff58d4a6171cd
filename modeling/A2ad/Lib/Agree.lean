/-
Two programs side by side: from related states they return related results in related states, or
throw the same exception in related states. A program agrees with itself by its parts; the rules
below take a pair of programs apart in lockstep.
-/
import A2ad.Lib.Tx
import Mathlib.Data.List.Forall2

namespace Tx

variable {ε σ τ α α' β β' : Type}

/-! ## Checked computations -/

/-- Both return, and `A` relates what they return; or both throw the same. -/
inductive Alike (A : α → α' → Prop) : Except ε α → Except ε α' → Prop
  | ok {a : α} {a' : α'} : A a a' → Alike A (.ok a) (.ok a')
  | error (e : ε) : Alike A (.error e) (.error e)

section Alike

variable {A : α → α' → Prop} {B : β → β' → Prop}

theorem alike_same (x : Except ε α) : Alike Eq x x := by
  cases x with
  | ok a => exact .ok rfl
  | error e => exact .error e

theorem alike_of_eq {x y : Except ε α} (h : x = y) : Alike Eq x y := h ▸ alike_same x

theorem alike_bind {x : Except ε α} {x' : Except ε α'} {f : α → Except ε β} {f' : α' → Except ε β'} (h : Alike A x x')
    (hf : ∀ a a', A a a' → Alike B (f a) (f' a')) : Alike B (x >>= f) (x' >>= f') := by
  cases h with
  | ok ha => exact hf _ _ ha
  | error e => exact .error e

theorem Alike.mono {A' : α → α' → Prop} {x : Except ε α} {x' : Except ε α'} (h : Alike A x x')
    (hA : ∀ a a', A a a' → A' a a') : Alike A' x x' := by
  cases h with
  | ok ha => exact .ok (hA _ _ ha)
  | error e => exact .error e

end Alike

/-! ## Programs -/

/-- The results of two runs. -/
inductive Paired (S : σ → τ → Prop) (A : α → α' → Prop) : EStateM.Result ε σ α → EStateM.Result ε τ α' → Prop
  | ok {a : α} {a' : α'} {s : σ} {t : τ} : A a a' → S s t → Paired S A (.ok a s) (.ok a' t)
  | error {e : ε} {s : σ} {t : τ} : S s t → Paired S A (.error e s) (.error e t)

/-- From states related by `S` the two programs end in related states, with results related by `A`
or the same exception. -/
def Agree (S : σ → τ → Prop) (A : α → α' → Prop) (x : Tx ε σ α) (y : Tx ε τ α') : Prop :=
  ∀ s t, S s t → Paired S A (x s) (y t)

section Agree

variable {S : σ → τ → Prop} {A : α → α' → Prop} {B : β → β' → Prop} {x : Tx ε σ α} {y : Tx ε τ α'}

theorem Agree.mono {A' : α → α' → Prop} (h : Agree S A x y) (hA : ∀ a a', A a a' → A' a a') : Agree S A' x y := by
  intro s t hst
  have hxy := h s t hst
  generalize x s = r at hxy ⊢
  generalize y t = r' at hxy ⊢
  cases hxy with
  | ok ha hs => exact .ok (hA _ _ ha) hs
  | error hs => exact .error hs

theorem agree_pure {a : α} {a' : α'} (h : A a a') : Agree S A (pure a : Tx ε σ α) (pure a') := fun _ _ hst => .ok h hst

theorem agree_throw (e : ε) : Agree S A (throw e : Tx ε σ α) (throw e) := fun _ _ hst => .error hst

theorem agree_lift {c : Except ε α} {c' : Except ε α'} (h : Alike A c c') :
    Agree S A (liftM c : Tx ε σ α) (liftM c' : Tx ε τ α') := by
  intro s t hst
  cases h with
  | ok ha => exact .ok ha hst
  | error e => exact .error hst

theorem agree_bind {f : α → Tx ε σ β} {g : α' → Tx ε τ β'} (h : Agree S A x y)
    (hf : ∀ a a', A a a' → Agree S B (f a) (g a')) : Agree S B (x >>= f) (y >>= g) := by
  intro s t hst
  show Paired S B (EStateM.bind x f s) (EStateM.bind y g t)
  unfold EStateM.bind
  have hxy := h s t hst
  generalize x s = r at hxy ⊢
  generalize y t = r' at hxy ⊢
  cases hxy with
  | ok ha huv => exact hf _ _ ha _ _ huv
  | error huv => exact .error huv

/-- Where both read the same, they go on with the same. -/
theorem agree_bind_eq {x : Tx ε σ α} {y : Tx ε τ α} {f : α → Tx ε σ β} {g : α → Tx ε τ β'} (h : Agree S Eq x y)
    (hf : ∀ a, Agree S B (f a) (g a)) : Agree S B (x >>= f) (y >>= g) :=
  agree_bind h fun a _ ha => ha ▸ hf a

/-- The same checked computation on both sides, for what it returns. -/
theorem agree_lift_ok {c : Except ε α} {f : α → Tx ε σ β} {g : α → Tx ε τ β'} (hf : ∀ a, c = .ok a → Agree S B (f a) (g a)) :
    Agree S B ((liftM c : Tx ε σ α) >>= f) ((liftM c : Tx ε τ α) >>= g) := by
  have hc : Alike (fun a a' => c = .ok a ∧ a = a') c c := by
    cases c with
    | ok a => exact .ok ⟨rfl, rfl⟩
    | error e => exact .error e
  refine agree_bind (agree_lift hc) fun a a' h => ?_
  obtain ⟨ha, rfl⟩ := h
  exact hf a ha

/-- The same checked computation on both sides. -/
theorem agree_lift_bind {c : Except ε α} {f : α → Tx ε σ β} {g : α → Tx ε τ β'} (hf : ∀ a, Agree S B (f a) (g a)) :
    Agree S B ((liftM c : Tx ε σ α) >>= f) ((liftM c : Tx ε τ α) >>= g) :=
  agree_bind_eq (agree_lift (alike_same c)) hf

theorem agree_ite {c c' : Prop} [Decidable c] [Decidable c'] {x₁ x₂ : Tx ε σ α} {y₁ y₂ : Tx ε τ α'} (hc : c ↔ c')
    (h₁ : Agree S A x₁ y₁) (h₂ : Agree S A x₂ y₂) : Agree S A (if c then x₁ else x₂) (if c' then y₁ else y₂) := by
  by_cases h : c
  · rw [if_pos h, if_pos (hc.1 h)]
    exact h₁
  · rw [if_neg h, if_neg fun h' => h (hc.2 h')]
    exact h₂

/-- Transactions agree where what they restore is related. -/
theorem agree_transaction {restore : σ → σ → σ} {restore' : τ → τ → τ}
    (hrestore : ∀ s t u v, S s t → S u v → S (restore s u) (restore' t v)) (h : Agree S A x y) :
    Agree S A (transaction restore x) (transaction restore' y) := by
  intro s t hst
  have hxy := h s t hst
  unfold transaction
  generalize x s = r at hxy ⊢
  generalize y t = r' at hxy ⊢
  cases hxy with
  | ok ha huv => exact .ok ha huv
  | error huv => exact .error (hrestore _ _ _ _ hst huv)

theorem Agree.ok (h : Agree S A x y) {s u : σ} {t : τ} {a : α} (hst : S s t) (hx : x s = .ok a u) :
    ∃ a' v, y t = .ok a' v ∧ A a a' ∧ S u v := by
  have hxy := h s t hst
  rw [hx] at hxy
  generalize y t = r at hxy ⊢
  cases hxy with
  | ok ha huv => exact ⟨_, _, rfl, ha, huv⟩

theorem Agree.error (h : Agree S A x y) {s u : σ} {t : τ} {e : ε} (hst : S s t) (hx : x s = .error e u) :
    ∃ v, y t = .error e v ∧ S u v := by
  have hxy := h s t hst
  rw [hx] at hxy
  generalize y t = r at hxy ⊢
  cases hxy with
  | error huv => exact ⟨_, rfl, huv⟩

/-- Agreement read the other way. -/
theorem Agree.flip (h : Agree S A x y) : Agree (fun t s => S s t) (fun a' a => A a a') y x := by
  intro t s hst
  have hxy := h s t hst
  generalize x s = r at hxy ⊢
  generalize y t = r' at hxy ⊢
  cases hxy with
  | ok ha huv => exact .ok ha huv
  | error huv => exact .error huv

end Agree

/-! ## Programs that do not tell related states apart -/

/-- From related states the program returns the same, or throws the same. -/
class Blind (S : σ → σ → Prop) (x : Tx ε σ α) : Prop where
  out : Agree S Eq x x

section Blind

variable {S : σ → σ → Prop}

theorem blind (x : Tx ε σ α) [h : Blind S x] : Agree S Eq x x := h.out

instance blind_pure (a : α) : Blind S (pure a : Tx ε σ α) := ⟨agree_pure rfl⟩

instance blind_throw (e : ε) : Blind S (throw e : Tx ε σ α) := ⟨agree_throw e⟩

instance blind_lift (c : Except ε α) : Blind S (liftM c : Tx ε σ α) := ⟨agree_lift (alike_same c)⟩

instance blind_bind {x : Tx ε σ α} {f : α → Tx ε σ β} [h : Blind S x] [k : ∀ a, Blind S (f a)] : Blind S (x >>= f) :=
  ⟨agree_bind_eq h.out fun a => (k a).out⟩

instance blind_ite {c : Prop} [Decidable c] {x y : Tx ε σ α} [h : Blind S x] [k : Blind S y] :
    Blind S (if c then x else y) :=
  ⟨agree_ite Iff.rfl h.out k.out⟩

/-- A program that does not tell the states apart, before two that agree on what it returns. -/
theorem agree_blind {x : Tx ε σ α} {f : α → Tx ε σ β} {g : α → Tx ε σ β'} {B : β → β' → Prop} [h : Blind S x]
    (hf : ∀ a, Agree S B (f a) (g a)) : Agree S B (x >>= f) (x >>= g) :=
  agree_bind_eq h.out hf

end Blind
end Tx
