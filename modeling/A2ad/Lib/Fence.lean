/-
Fenced leases: one holder at a time, under a token drawn at each acquisition and a fence that grows
with it. An acquisition waits for the last lease to lapse; a holder extends, ends or uses the lease
it holds. Owners, tokens and times are arbitrary.
-/
import A2ad.Lib.Trace
import Mathlib.Order.Basic
import Mathlib.Data.Set.Basic

namespace Fence

structure Lease (Owner Token Time : Type) where
  owner : Owner
  token : Token
  fence : Int
  expires : Time

inductive Act (Owner Token Time : Type) where
  | acquire (now : Time) (lease : Lease Owner Token Time)
  /-- a new expiry, which ends the lease when it has come already -/
  | extend (now : Time) (owner : Owner) (token : Token) (expires : Time)
  | use (now : Time) (owner : Owner) (token : Token) (fence : Int)
  | idle

/-- The lease, with the time and the tokens drawn so far. -/
structure State (Owner Token Time : Type) where
  held : Option (Lease Owner Token Time)
  time : Time
  drawn : Set Token

variable {Owner Token Time : Type}

/-- The time an action is taken at. -/
def Act.time? : Act Owner Token Time → Option Time
  | .acquire now _ => some now
  | .extend now _ _ _ => some now
  | .use now _ _ _ => some now
  | .idle => none

/-- The action is one of the holder, and goes by this owner and token. -/
def Act.By (owner : Owner) (token : Token) : Act Owner Token Time → Prop
  | .extend _ o k _ => o = owner ∧ k = token
  | .use _ o k _ => o = owner ∧ k = token
  | _ => False

section Steps

variable [Preorder Time]

structure Advances (s t : State Owner Token Time) : Prop where
  time : s.time ≤ t.time
  drawn : s.drawn ⊆ t.drawn

/-- The lease is held by this owner under this token, and has not lapsed at `now`. -/
structure Live (s : State Owner Token Time) (now : Time) (owner : Owner) (token : Token)
    (y : Lease Owner Token Time) : Prop where
  held : s.held = some y
  owner : y.owner = owner
  token : y.token = token
  after : s.time ≤ now
  before : now < y.expires

inductive Step : State Owner Token Time → Act Owner Token Time → State Owner Token Time → Prop
  | acquire {s t : State Owner Token Time} {now : Time} {x : Lease Owner Token Time} : Advances s t →
    (∀ y, s.held = some y → y.expires ≤ now ∧ y.fence < x.fence) → now ≤ t.time → x.token ∉ s.drawn →
    x.token ∈ t.drawn → t.held = some x → Step s (.acquire now x) t
  | extend {s t : State Owner Token Time} {now expires : Time} {owner : Owner} {token : Token}
    {y : Lease Owner Token Time} : Advances s t → Live s now owner token y →
    t.held = some { y with expires := expires } → Step s (.extend now owner token expires) t
  | use {s t : State Owner Token Time} {now : Time} {owner : Owner} {token : Token} {y : Lease Owner Token Time} :
    Advances s t → Live s now owner token y → t.held = s.held → Step s (.use now owner token y.fence) t
  | idle {s t : State Owner Token Time} : Advances s t → t.held = s.held → Step s .idle t

end Steps

/-- The acquisition of `x` is the last one of the history. -/
def Latest (tr : List (Move (State Owner Token Time) (Act Owner Token Time))) (x : Lease Owner Token Time) : Prop :=
  ∃ a m b now, tr = a ++ m :: b ∧ m.label = .acquire now x ∧ ∀ m' ∈ b, ∀ now' x', m'.label ≠ .acquire now' x'

/-! ## Histories -/

/-- The lease held is that of the last acquisition, and no fence of the history is above its own. -/
structure Kept (tr : List (Move (State Owner Token Time) (Act Owner Token Time))) (s : State Owner Token Time) : Prop where
  latest : ∀ y, s.held = some y → ∃ x, Latest tr x ∧ x.owner = y.owner ∧ x.token = y.token ∧ x.fence = y.fence
  acquired : ∀ m ∈ tr, ∀ now x, m.label = .acquire now x → ∃ y, s.held = some y ∧ x.fence ≤ y.fence
  used : ∀ m ∈ tr, ∀ now owner token fence, m.label = .use now owner token fence →
    ∃ y, s.held = some y ∧ fence ≤ y.fence

section Run

variable {tr : List (Move (State Owner Token Time) (Act Owner Token Time))} {s t s₀ : State Owner Token Time}
  {act : Act Owner Token Time}

theorem Latest.snoc {x : Lease Owner Token Time} {m : Move (State Owner Token Time) (Act Owner Token Time)}
    (h : Latest tr x) (hm : ∀ now x', m.label ≠ .acquire now x') : Latest (tr ++ [m]) x := by
  obtain ⟨a, g, b, now, rfl, hg, hb⟩ := h
  refine ⟨a, g, b ++ [m], now, by rw [List.append_assoc, List.cons_append], hg, ?_⟩
  intro m' hm'
  rcases List.mem_append.1 hm' with hm' | hm'
  · exact hb m' hm'
  · rw [List.mem_singleton.1 hm']
    exact hm

/-- A step that acquires nothing and leaves owner, token and fence as they were keeps the history. -/
theorem Kept.snoc {y y' : Lease Owner Token Time} (hk : Kept tr s) (hy : s.held = some y) (hy' : t.held = some y')
    (howner : y'.owner = y.owner) (htoken : y'.token = y.token) (hfence : y'.fence = y.fence)
    (ha : ∀ now x, act ≠ .acquire now x) (hu : ∀ now owner token fence, act = .use now owner token fence → fence = y.fence) :
    Kept (tr ++ [⟨s, act, t⟩]) t := by
  have hpast : ∀ {f : Int}, (∃ z, s.held = some z ∧ f ≤ z.fence) → ∃ z, t.held = some z ∧ f ≤ z.fence := by
    rintro f ⟨z, hz, hf⟩
    rw [hy] at hz
    cases hz
    exact ⟨y', hy', by omega⟩
  constructor
  · intro z hz
    rw [hy'] at hz
    cases hz
    obtain ⟨x, hx, ho, ht, hf⟩ := hk.latest y hy
    exact ⟨x, hx.snoc ha, ho.trans howner.symm, ht.trans htoken.symm, hf.trans hfence.symm⟩
  · intro m hm now x hx
    rcases List.mem_append.1 hm with hm | hm
    · exact hpast (hk.acquired m hm now x hx)
    · rw [List.mem_singleton.1 hm] at hx
      exact absurd hx (ha now x)
  · intro m hm now owner token fence hx
    rcases List.mem_append.1 hm with hm | hm
    · exact hpast (hk.used m hm now owner token fence hx)
    · rw [List.mem_singleton.1 hm] at hx
      exact ⟨y', hy', by rw [hu now owner token fence hx, hfence]⟩

variable [Preorder Time]

theorem Kept.step (hk : Kept tr s) (h : Step s act t) : Kept (tr ++ [⟨s, act, t⟩]) t := by
  cases h with
  | @acquire _ now x _ hfree _ _ _ ht =>
    constructor
    · intro y hy
      rw [ht] at hy
      cases hy
      exact ⟨x, ⟨tr, _, [], now, rfl, rfl, nofun⟩, rfl, rfl, rfl⟩
    · intro m hm now' x' hx'
      rcases List.mem_append.1 hm with hm | hm
      · obtain ⟨y, hy, hle⟩ := hk.acquired m hm now' x' hx'
        exact ⟨x, ht, by have := (hfree y hy).2; omega⟩
      · rw [List.mem_singleton.1 hm] at hx'
        cases hx'
        exact ⟨x, ht, le_refl _⟩
    · intro m hm now' owner token fence hx'
      rcases List.mem_append.1 hm with hm | hm
      · obtain ⟨y, hy, hle⟩ := hk.used m hm now' owner token fence hx'
        exact ⟨x, ht, by have := (hfree y hy).2; omega⟩
      · rw [List.mem_singleton.1 hm] at hx'
        cases hx'
  | extend _ hlive ht => exact hk.snoc hlive.held ht rfl rfl rfl nofun nofun
  | use _ hlive ht =>
    refine hk.snoc hlive.held (ht.trans hlive.held) rfl rfl rfl nofun ?_
    rintro now owner token fence ⟨⟩
    rfl
  | idle _ ht =>
    cases hs : s.held with
    | some y => exact hk.snoc hs (ht.trans hs) rfl rfl rfl nofun nofun
    | none =>
      -- nothing was ever acquired, so nothing was used either
      have hnone : ∀ {f : Int}, (∃ z, s.held = some z ∧ f ≤ z.fence) → False := by
        rintro f ⟨z, hz, -⟩
        rw [hs] at hz
        cases hz
      constructor
      · intro y hy
        rw [ht, hs] at hy
        cases hy
      · intro m hm now x hx
        rcases List.mem_append.1 hm with hm | hm
        · exact (hnone (hk.acquired m hm now x hx)).elim
        · rw [List.mem_singleton.1 hm] at hx
          cases hx
      · intro m hm now owner token fence hx
        rcases List.mem_append.1 hm with hm | hm
        · exact (hnone (hk.used m hm now owner token fence hx)).elim
        · rw [List.mem_singleton.1 hm] at hx
          cases hx

theorem kept_run (h₀ : s₀.held = none) (h : Run Step s₀ tr s) : Kept tr s := by
  refine h.invariant ⟨?_, nofun, nofun⟩ fun _ _ _ _ hk hs => hk.step hs
  intro y hy
  rw [h₀] at hy
  cases hy

theorem Step.advances (h : Step s act t) : Advances s t := by
  cases h with
  | acquire hadv => exact hadv
  | extend hadv => exact hadv
  | use hadv => exact hadv
  | idle hadv => exact hadv

/-- Every token acquired in the history is drawn. -/
theorem drawn_run (h : Run Step s₀ tr s) : ∀ m ∈ tr, ∀ now x, m.label = .acquire now x → x.token ∈ s.drawn := by
  refine h.invariant (I := fun tr s => ∀ m ∈ tr, ∀ now x, m.label = .acquire now x → x.token ∈ s.drawn) nofun ?_
  intro tr s act t ih hs m hm now x hx
  rcases List.mem_append.1 hm with hm | hm
  · exact hs.advances.drawn (ih m hm now x hx)
  · rw [List.mem_singleton.1 hm] at hx
    cases hx
    cases hs with
    | acquire _ _ _ _ hmem => exact hmem

/-- The token of the lease held is drawn. -/
theorem held_drawn (h₀ : s₀.held = none) (h : Run Step s₀ tr s) {y : Lease Owner Token Time} (hy : s.held = some y) :
    y.token ∈ s.drawn := by
  obtain ⟨x, ⟨a, m, b, now, rfl, hm, -⟩, -, ht, -⟩ := (kept_run h₀ h).latest y hy
  exact ht ▸ drawn_run h m (by simp) now x hm

/-- A fence is above those of all earlier acquisitions. -/
theorem fence_lt (h₀ : s₀.held = none) (h : Run Step s₀ tr s) {now now' : Time} {x x' : Lease Owner Token Time}
    (hs : Step s (.acquire now x) t) {m : Move (State Owner Token Time) (Act Owner Token Time)} (hm : m ∈ tr)
    (hx' : m.label = .acquire now' x') : x'.fence < x.fence := by
  obtain ⟨y, hy, hle⟩ := (kept_run h₀ h).acquired m hm now' x' hx'
  cases hs with
  | acquire _ hfree =>
    have := (hfree y hy).2
    omega

theorem Step.by_live {owner : Owner} {token : Token} (h : Step s act t) (hby : act.By owner token) :
    ∃ now y, act.time? = some now ∧ Live s now owner token y ∧
      ∀ now' o k fence, act = .use now' o k fence → fence = y.fence := by
  cases h with
  | extend _ hlive =>
    obtain ⟨rfl, rfl⟩ := hby
    exact ⟨_, _, rfl, hlive, nofun⟩
  | use _ hlive =>
    obtain ⟨rfl, rfl⟩ := hby
    refine ⟨_, _, rfl, hlive, ?_⟩
    rintro now' o k fence ⟨⟩
    rfl
  | _ => cases hby

/-- What the holder does goes by the owner, the token and the fence of the last acquisition. -/
theorem by_latest (h₀ : s₀.held = none) (h : Run Step s₀ tr s) {owner : Owner} {token : Token} (hs : Step s act t)
    (hby : act.By owner token) :
    ∃ x, Latest tr x ∧ x.owner = owner ∧ x.token = token ∧
      ∀ now o k fence, act = .use now o k fence → fence = x.fence := by
  obtain ⟨now, y, -, hlive, hfence⟩ := hs.by_live hby
  obtain ⟨x, hx, ho, ht, hf⟩ := (kept_run h₀ h).latest y hlive.held
  refine ⟨x, hx, ho.trans hlive.owner, ht.trans hlive.token, ?_⟩
  intro now' o k fence hact
  rw [hfence now' o k fence hact, hf]

/-- The fences under which the lease is used never decrease. -/
theorem use_fence_le (h₀ : s₀.held = none) (h : Run Step s₀ tr s) {now now' : Time} {owner owner' : Owner}
    {token token' : Token} {fence fence' : Int} (hs : Step s (.use now owner token fence) t)
    {m : Move (State Owner Token Time) (Act Owner Token Time)} (hm : m ∈ tr)
    (hu : m.label = .use now' owner' token' fence') : fence' ≤ fence := by
  obtain ⟨y, hy, hle⟩ := (kept_run h₀ h).used m hm now' owner' token' fence' hu
  cases hs with
  | use _ hlive =>
    have := hlive.held
    rw [hy] at this
    cases this
    exact hle

/-! ## Dead tokens -/

/-- The token was drawn, and no live lease is held under it. -/
structure Dead (token : Token) (s : State Owner Token Time) : Prop where
  drawn : token ∈ s.drawn
  lapsed : ∀ y, s.held = some y → y.token = token → y.expires ≤ s.time

theorem Dead.refused {token : Token} (hd : Dead token s) (h : Step s act t) (owner : Owner) : ¬ act.By owner token := by
  intro hby
  obtain ⟨now, y, -, hlive, -⟩ := h.by_live hby
  have := hd.lapsed y hlive.held hlive.token
  exact absurd hlive.before (not_lt_of_ge (this.trans hlive.after))

theorem Dead.step {token : Token} (hd : Dead token s) (h : Step s act t) : Dead token t := by
  cases h with
  | acquire hadv _ _ hnew _ ht =>
    refine ⟨hadv.drawn hd.drawn, fun y hy htoken => ?_⟩
    rw [ht] at hy
    cases hy
    exact absurd (htoken ▸ hd.drawn) hnew
  | extend hadv hlive ht =>
    refine ⟨hadv.drawn hd.drawn, fun y hy htoken => ?_⟩
    rw [ht] at hy
    cases hy
    have := hd.lapsed _ hlive.held htoken
    exact absurd hlive.before (not_lt_of_ge (this.trans hlive.after))
  | use hadv _ ht => exact ⟨hadv.drawn hd.drawn, fun y hy htoken => (hd.lapsed y (ht ▸ hy) htoken).trans hadv.time⟩
  | idle hadv ht => exact ⟨hadv.drawn hd.drawn, fun y hy htoken => (hd.lapsed y (ht ▸ hy) htoken).trans hadv.time⟩

/-- A dead token stays dead: no later action goes by it. -/
theorem Dead.run {token : Token} (hd : Dead token s) (h : Run Step s tr t) : Dead token t :=
  h.invariant (I := fun _ s => Dead token s) hd fun _ _ _ _ hd hs => hd.step hs

end Run

end Fence
