/-
Operations that look at a shared state, go away, and come back to change it by what they have seen.
When each of them finds at its return what it would need to have seen, an interleaving of them ends
as they end one after another, in the order of their returns.
-/
import A2ad.Lib.Trace
import Mathlib.Logic.Function.Basic

namespace Serial

/-- What is seen of the state, and what each operation makes of the state and of what it has seen. -/
structure System (ι σ ω : Type) where
  look : σ → ω
  act : ι → ω → σ → σ

/-- How far an operation is. -/
inductive Phase (ω : Type) where
  | waiting
  | holding (seen : ω)
  | finished

inductive Turn (ι : Type) where
  | read (i : ι)
  | write (i : ι)

structure State (ι σ ω : Type) where
  shared : σ
  phase : ι → Phase ω

variable {ι σ ω : Type} [DecidableEq ι]

/-- Every operation reads once and then writes once; the turns are taken in any order. -/
inductive Step (S : System ι σ ω) : State ι σ ω → Turn ι → State ι σ ω → Prop
  | read {s : State ι σ ω} {i : ι} (h : s.phase i = .waiting) :
    Step S s (.read i) ⟨s.shared, Function.update s.phase i (.holding (S.look s.shared))⟩
  | write {s : State ι σ ω} {i : ι} {seen : ω} (h : s.phase i = .holding seen) :
    Step S s (.write i) ⟨S.act i seen s.shared, Function.update s.phase i .finished⟩

namespace System

variable (S : System ι σ ω)

def start (ι ω : Type) (s : σ) : State ι σ ω := ⟨s, fun _ => .waiting⟩

/-- An operation without a pause. -/
def atomic (s : σ) (i : ι) : σ := S.act i (S.look s) s

def serial (order : List ι) (s : σ) : σ := order.foldl S.atomic s

/-- The write has the effect it would have if the operation read just now. -/
def Timely (R : σ → σ → Prop) (m : Move (State ι σ ω) (Turn ι)) : Prop :=
  ∀ i seen, m.label = .write i → m.pre.phase i = .holding seen →
    R (S.act i seen m.pre.shared) (S.atomic m.pre.shared i)

variable {S} {s₀ : σ} {s t : State ι σ ω} {tr : List (Move (State ι σ ω) (Turn ι))}

/-- A run of timely writes ends as the finished operations do one after another. -/
theorem serialisable {R : σ → σ → Prop} [hR : IsPreorder σ R] (hcongr : ∀ i s s', R s s' → R (S.atomic s i) (S.atomic s' i))
    (hrun : Run (Step S) (start ι ω s₀) tr s) (htimely : ∀ m ∈ tr, S.Timely R m) :
    ∃ order : List ι, order.Nodup ∧ (∀ i, i ∈ order ↔ s.phase i = .finished) ∧ R s.shared (S.serial order s₀) := by
  induction hrun with
  | nil => exact ⟨[], List.nodup_nil, fun i => by simp [start], hR.refl s₀⟩
  | @snoc tr s t l _ hstep ih =>
    obtain ⟨order, hnodup, hfinished, hshared⟩ := ih fun m hm => htimely m (List.mem_append_left _ hm)
    have hlast : S.Timely R ⟨s, l, t⟩ := htimely _ (List.mem_append_right _ (List.mem_singleton_self _))
    cases hstep with
    | @read i h =>
      refine ⟨order, hnodup, fun j => ?_, hshared⟩
      by_cases hij : j = i
      · subst hij
        simp [hfinished, h]
      · simp [hfinished, Function.update_of_ne hij]
    | @write i seen h =>
      have hnew : i ∉ order := by simp [hfinished, h]
      refine ⟨order ++ [i], ?_, fun j => ?_, ?_⟩
      · rw [List.nodup_append]
        refine ⟨hnodup, by simp, fun a ha b hb => ?_⟩
        rw [List.mem_singleton.1 hb]
        rintro rfl
        exact hnew ha
      · by_cases hij : j = i
        · subst hij
          simp
        · simp [hfinished, hij]
      · unfold serial
        rw [List.foldl_append]
        exact hR.trans _ _ _ (hlast i seen rfl h) (hcongr i _ _ hshared)

end System

end Serial
