/-
State-and-exception programs and the transactions made of them: how a successful run decomposes,
and the frame rules by which a program that only takes `R`-steps relates its start to its end by
`R`, whatever it returns and wherever it throws.
-/
import Mathlib.Order.Defs.Unbundled

/-- Programs over a state `σ` that may throw `ε`; the state at the throw is kept. -/
abbrev Tx (ε σ α : Type) := EStateM ε σ α

namespace Tx

variable {ε σ α β : Type}

/-- A checked computation as a program that leaves the state alone. -/
def lift (x : Except ε α) : Tx ε σ α := fun s =>
  match x with
  | .ok a => .ok a s
  | .error e => .error e s

instance : MonadLift (Except ε) (EStateM ε σ) := ⟨lift⟩

/-- The state a run ends in, returned or thrown. -/
def endState : EStateM.Result ε σ α → σ
  | .ok _ s => s
  | .error _ s => s

/-- A program whose throw restores the part of the state that `restore` takes from the start. -/
def transaction (restore : σ → σ → σ) (x : Tx ε σ α) : Tx ε σ α := fun s =>
  match x s with
  | .ok a t => .ok a t
  | .error e t => .error e (restore s t)

/-- A program whose throw is caught and turned into a value. -/
def caught (handler : ε → α) (x : Tx ε σ α) (s : σ) : α × σ :=
  match x s with
  | .ok a t => (a, t)
  | .error e t => (handler e, t)

/-! ## Successful runs -/

/-- What a run returns. -/
def result? : EStateM.Result ε σ α → Option α
  | .ok a _ => some a
  | .error _ _ => none

theorem ok_of_result {r : EStateM.Result ε σ α} {a : α} (h : result? r = some a) : r = .ok a (endState r) := by
  cases r with
  | ok b s =>
    cases h
    rfl
  | error e s => cases h

theorem except_bind_ok {x : Except ε α} {f : α → Except ε β} {b : β} (h : x >>= f = .ok b) :
    ∃ a, x = .ok a ∧ f a = .ok b := by
  cases x with
  | ok a => exact ⟨a, rfl, h⟩
  | error e => cases h

theorem except_mapM_ok {f : α → Except ε β} {xs : List α} {ys : List β} (h : xs.mapM f = .ok ys) :
    ∀ y ∈ ys, ∃ x ∈ xs, f x = .ok y := by
  induction xs generalizing ys with
  | nil =>
    cases h
    simp
  | cons x xs ih =>
    rw [List.mapM_cons] at h
    obtain ⟨y, hy, h⟩ := except_bind_ok h
    obtain ⟨rest, hrest, h⟩ := except_bind_ok h
    cases h
    intro z hz
    rcases List.mem_cons.1 hz with rfl | hz
    · exact ⟨x, List.mem_cons_self .., hy⟩
    · obtain ⟨w, hw, hf⟩ := ih hrest z hz
      exact ⟨w, List.mem_cons_of_mem _ hw, hf⟩

/-- A checked computation that does not throw. -/
def Passes (x : Except ε α) : Prop := ∃ a, x = .ok a

@[simp] theorem passes_ok (a : α) : Passes (.ok a : Except ε α) := ⟨a, rfl⟩

@[simp] theorem passes_pure (a : α) : Passes (pure a : Except ε α) := ⟨a, rfl⟩

@[simp] theorem not_passes_error (e : ε) : ¬ Passes (.error e : Except ε α) := by
  rintro ⟨a, h⟩
  cases h

theorem passes_bind {x : Except ε α} {f : α → Except ε β} : Passes (x >>= f) ↔ ∃ a, x = .ok a ∧ Passes (f a) := by
  constructor
  · rintro ⟨b, h⟩
    obtain ⟨a, hx, h⟩ := except_bind_ok h
    exact ⟨a, hx, b, h⟩
  · rintro ⟨a, rfl, h⟩
    exact h

/-- A sequence passes when its parts do, if what the first part returns does not decide about the rest. -/
theorem passes_then {x : Except ε α} {f : α → Except ε β} {P : Prop} (h : ∀ a, x = .ok a → (Passes (f a) ↔ P)) :
    Passes (x >>= f) ↔ Passes x ∧ P := by
  rw [passes_bind]
  constructor
  · rintro ⟨a, hx, hf⟩
    exact ⟨⟨a, hx⟩, (h a hx).1 hf⟩
  · rintro ⟨⟨a, hx⟩, hp⟩
    exact ⟨a, hx, (h a hx).2 hp⟩

theorem passes_mapM {f : α → Except ε β} {xs : List α} : Passes (xs.mapM f) ↔ ∀ x ∈ xs, Passes (f x) := by
  induction xs with
  | nil => simp
  | cons x xs ih =>
    rw [List.mapM_cons, passes_then (P := ∀ x ∈ xs, Passes (f x)), List.forall_mem_cons]
    intro y _
    rw [passes_then (P := True) fun ys _ => iff_of_true (passes_pure _) trivial, ih, and_true]

theorem bind_ok {x : Tx ε σ α} {f : α → Tx ε σ β} {s t : σ} {b : β} :
    (x >>= f) s = .ok b t ↔ ∃ a u, x s = .ok a u ∧ f a u = .ok b t := by
  show EStateM.bind x f s = _ ↔ _
  unfold EStateM.bind
  cases x s with
  | ok a u =>
    constructor
    · intro h
      exact ⟨a, u, rfl, h⟩
    · rintro ⟨a', u', hx, h⟩
      cases hx
      exact h
  | error e u => simp

theorem bind_of_ok {x : Tx ε σ α} {f : α → Tx ε σ β} {s t : σ} {a : α} (h : x s = .ok a t) : (x >>= f) s = f a t := by
  show EStateM.bind x f s = _
  rw [EStateM.bind, h]

theorem pure_ok {a b : α} {s t : σ} : (pure a : Tx ε σ α) s = .ok b t ↔ a = b ∧ s = t := by
  show EStateM.Result.ok a s = _ ↔ _
  simp

theorem lift_ok {x : Except ε α} {s t : σ} {a : α} :
    (liftM x : Tx ε σ α) s = .ok a t ↔ x = .ok a ∧ s = t := by
  show lift x s = _ ↔ _
  cases x <;> simp [lift]

theorem lift_of_ok {x : Except ε α} {s : σ} {a : α} (h : x = .ok a) : (liftM x : Tx ε σ α) s = .ok a s :=
  lift_ok.2 ⟨h, rfl⟩

theorem throw_ok {e : ε} {s t : σ} {a : α} : (throw e : Tx ε σ α) s = .ok a t ↔ False := by
  show EStateM.Result.error e s = _ ↔ _
  simp

/-- A checked computation at the start of a program has succeeded. -/
theorem lift_bind_ok {x : Except ε α} {f : α → Tx ε σ β} {s t : σ} {b : β}
    (h : ((liftM x : Tx ε σ α) >>= f) s = .ok b t) : ∃ a, x = .ok a ∧ f a s = .ok b t := by
  obtain ⟨a, u, hl, h⟩ := bind_ok.1 h
  obtain ⟨hx, rfl⟩ := lift_ok.1 hl
  exact ⟨a, hx, h⟩

/-- A run of a conditional is a run of one of its branches. -/
theorem ite_ok {c : Prop} [Decidable c] {x y : Tx ε σ α} {s t : σ} {a : α} (h : (if c then x else y) s = .ok a t) :
    c ∧ x s = .ok a t ∨ ¬ c ∧ y s = .ok a t := by
  split at h
  · rename_i hc
    exact .inl ⟨hc, h⟩
  · rename_i hc
    exact .inr ⟨hc, h⟩

theorem transaction_ok {restore : σ → σ → σ} {x : Tx ε σ α} {s t : σ} {a : α} :
    transaction restore x s = .ok a t ↔ x s = .ok a t := by
  unfold transaction
  cases x s <;> simp

/-! ## Throws -/

theorem bind_error {x : Tx ε σ α} {f : α → Tx ε σ β} {s t : σ} {e : ε} :
    (x >>= f) s = .error e t ↔ x s = .error e t ∨ ∃ a u, x s = .ok a u ∧ f a u = .error e t := by
  show EStateM.bind x f s = _ ↔ _
  unfold EStateM.bind
  cases x s with
  | ok a u =>
    constructor
    · intro h
      exact .inr ⟨a, u, rfl, h⟩
    · rintro (h | ⟨a', u', hx, h⟩)
      · cases h
      · cases hx
        exact h
  | error e' u => simp

theorem pure_error {a : α} {s t : σ} {e : ε} : (pure a : Tx ε σ α) s = .error e t ↔ False := by
  show EStateM.Result.ok a s = _ ↔ _
  simp

theorem lift_error {x : Except ε α} {s t : σ} {e : ε} :
    (liftM x : Tx ε σ α) s = .error e t ↔ x = .error e ∧ s = t := by
  show lift x s = _ ↔ _
  cases x <;> simp [lift]

theorem transaction_error {restore : σ → σ → σ} {x : Tx ε σ α} {s t : σ} {e : ε} :
    transaction restore x s = .error e t ↔ ∃ u, x s = .error e u ∧ restore s u = t := by
  unfold transaction
  cases x s <;> simp [and_assoc]

/-! ## Frames -/

/-- Every run of `x` relates its start to its end by `R`. -/
class Keeps (R : σ → σ → Prop) (x : Tx ε σ α) : Prop where
  out : ∀ s, R s (endState (x s))

section Frame

variable {R : σ → σ → Prop}

theorem keeps_ok {x : Tx ε σ α} [k : Keeps R x] {s t : σ} {a : α} (h : x s = .ok a t) : R s t := by
  have := k.out s
  rwa [h] at this

theorem keeps_error {x : Tx ε σ α} [k : Keeps R x] {s t : σ} {e : ε} (h : x s = .error e t) : R s t := by
  have := k.out s
  rwa [h] at this

theorem keeps_mono {R' : σ → σ → Prop} (hR : ∀ s t, R s t → R' s t) {x : Tx ε σ α} (hx : Keeps R x) : Keeps R' x :=
  ⟨fun s => hR _ _ (hx.out s)⟩

instance keeps_ite {c : Prop} [Decidable c] {x y : Tx ε σ α} [h : Keeps R x] [k : Keeps R y] :
    Keeps R (if c then x else y) := by
  split <;> assumption

variable [hR : IsPreorder σ R]

instance keeps_pure (a : α) : Keeps R (pure a : Tx ε σ α) := ⟨hR.refl⟩

instance keeps_throw (e : ε) : Keeps R (throw e : Tx ε σ α) := ⟨hR.refl⟩

instance keeps_lift (x : Except ε α) : Keeps R (liftM x : Tx ε σ α) := by
  refine ⟨fun s => ?_⟩
  show R s (endState (lift x s))
  cases x <;> exact hR.refl s

instance keeps_bind {x : Tx ε σ α} {f : α → Tx ε σ β} [h : Keeps R x] [k : ∀ a, Keeps R (f a)] :
    Keeps R (x >>= f) := by
  refine ⟨fun s => ?_⟩
  show R s (endState (EStateM.bind x f s))
  have hx := h.out s
  unfold EStateM.bind
  cases hs : x s with
  | ok a t =>
    rw [hs] at hx
    exact hR.trans _ _ _ hx ((k a).out t)
  | error e t => rwa [hs] at hx

/-! ## Frames of one run -/

theorem ends_pure (a : α) (s : σ) : R s (endState ((pure a : Tx ε σ α) s)) := hR.refl s

/-- A run that ends related to its start, part by part. -/
theorem ends_bind {x : Tx ε σ α} {f : α → Tx ε σ β} {s : σ} (hx : R s (endState (x s)))
    (hf : ∀ a t, x s = .ok a t → R t (endState (f a t))) : R s (endState ((x >>= f) s)) := by
  show R s (endState (EStateM.bind x f s))
  unfold EStateM.bind
  cases hs : x s with
  | ok a t =>
    rw [hs] at hx
    exact hR.trans _ _ _ hx (hf a t hs)
  | error e t => rwa [hs] at hx

/-- A checked computation moves nothing: only its successes count. -/
theorem ends_lift_bind {x : Except ε α} {f : α → Tx ε σ β} {s : σ} (hf : ∀ a, x = .ok a → R s (endState (f a s))) :
    R s (endState (((liftM x : Tx ε σ α) >>= f) s)) := by
  refine ends_bind ((keeps_lift x).out s) fun a t h => ?_
  obtain ⟨ha, rfl⟩ := lift_ok.1 h
  exact hf a ha

end Frame

/-! ## Frames of successful runs -/

/-- Every run of `x` that returns relates its start to its end by `R`; a throw may leave anything,
as a transaction around it takes that back. -/
class Yields (R : σ → σ → Prop) (x : Tx ε σ α) : Prop where
  out : ∀ s a t, x s = .ok a t → R s t

section Yields

variable {R S T : σ → σ → Prop}

theorem yields_mono (h : ∀ s t, R s t → S s t) {x : Tx ε σ α} (hx : Yields R x) : Yields S x :=
  ⟨fun s a t hs => h _ _ (hx.out s a t hs)⟩

theorem Keeps.yields {x : Tx ε σ α} (hx : Keeps R x) : Yields R x := ⟨fun _ _ _ h => keeps_ok h⟩

/-- Two programs in a row, by any composition of their relations. -/
theorem yields_comp (h : ∀ s t u, R s t → S t u → T s u) {x : Tx ε σ α} {f : α → Tx ε σ β} (hx : Yields R x)
    (hf : ∀ a, Yields S (f a)) : Yields T (x >>= f) := by
  refine ⟨fun s b u hs => ?_⟩
  obtain ⟨a, t, hxs, hft⟩ := bind_ok.1 hs
  exact h _ _ _ (hx.out _ _ _ hxs) ((hf a).out _ _ _ hft)

instance yields_ite {c : Prop} [Decidable c] {x y : Tx ε σ α} [h : Yields R x] [k : Yields R y] :
    Yields R (if c then x else y) := by
  split <;> assumption

instance yields_transaction {restore : σ → σ → σ} {x : Tx ε σ α} [h : Yields R x] : Yields R (transaction restore x) :=
  ⟨fun s a t hs => h.out s a t (transaction_ok.1 hs)⟩

instance yields_throw (e : ε) : Yields R (throw e : Tx ε σ α) := ⟨fun _ _ _ h => (throw_ok.1 h).elim⟩

variable [hR : IsPreorder σ R]

instance yields_pure (a : α) : Yields R (pure a : Tx ε σ α) := (keeps_pure a).yields

instance yields_lift (x : Except ε α) : Yields R (liftM x : Tx ε σ α) := (keeps_lift x).yields

instance yields_bind {x : Tx ε σ α} {f : α → Tx ε σ β} [h : Yields R x] [k : ∀ a, Yields R (f a)] : Yields R (x >>= f) :=
  yields_comp hR.trans h k

end Yields

/-! ## What a program returns -/

/-- Every value that `x` returns satisfies `P`. -/
def Returns (P : α → Prop) (x : Tx ε σ α) : Prop := ∀ s a t, x s = .ok a t → P a

section Returns

variable {P : β → Prop}

theorem returns_pure {b : β} (h : P b) : Returns P (pure b : Tx ε σ β) := by
  intro s b' t hb
  obtain ⟨rfl, -⟩ := pure_ok.1 hb
  exact h

/-- Only the end of a program returns. -/
theorem returns_bind {x : Tx ε σ α} {f : α → Tx ε σ β} (h : ∀ a, Returns P (f a)) : Returns P (x >>= f) := by
  intro s b t hb
  obtain ⟨a, u, -, hf⟩ := bind_ok.1 hb
  exact h a u b t hf

/-- A checked computation at the start of a program gives the value it checks. -/
theorem returns_lift_bind {x : Except ε α} {f : α → Tx ε σ β} (h : ∀ a, x = .ok a → Returns P (f a)) :
    Returns P ((liftM x : Tx ε σ α) >>= f) := by
  intro s b t hb
  obtain ⟨a, ha, hf⟩ := lift_bind_ok hb
  exact h a ha s b t hf

theorem returns_ite {c : Prop} [Decidable c] {x y : Tx ε σ β} (hx : Returns P x) (hy : Returns P y) :
    Returns P (if c then x else y) := by
  split <;> assumption

end Returns
end Tx
