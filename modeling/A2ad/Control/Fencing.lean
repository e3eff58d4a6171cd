/-
Lease fencing. Every step is an act of the fenced lease of every resource, so that fences grow with
every acquisition, and a lease that was released, has expired or was superseded is never accepted
again.
-/
import A2ad.Control.Lease
import Mathlib.Data.Int.ConditionallyCompleteOrder

namespace A2ad.Control

open Bytes Json

variable {E : Env} {enforce : Bool}

section Step

variable {s t : Sys} {l : Label} {resource : Str}

/-! ## Acts of a fenced lease -/

/-- The lease of a resource, with the reading of the clock to come and the ids drawn. -/
def fenced (E : Env) (s : Sys) (o : Option Lease) : Fence.State Str Str Int :=
  ⟨o, E.clock s.st.tick, {token | ∃ n, n < s.st.nonce ∧ token = E.rand n}⟩

/-- A reading of the clock made in the step. -/
def ReadIn (E : Env) (m : Move Sys Label) (now : Int) : Prop :=
  ∃ k, m.pre.st.tick ≤ k ∧ k < m.post.st.tick ∧ now = E.clock k

/-- The act that a step is on the lease of a resource. -/
inductive Acts (E : Env) (resource : Str) (m : Move Sys Label) : Fence.Act Str Str Int → Prop
  | acquire {req r : J} {x : Lease} {now : Int} : Leases "lease.acquire" resource req r m →
    r = leaseReply resource x → ReadIn E m now → Acts E resource m (.acquire now x)
  | extend {op owner token : Str} {req r : J} {x : Lease} {now : Int} : op = "lease.renew" ∨ op = "lease.release" →
    Leases op resource req r m → req.get? "owner" = some (.str owner) → req.get? "token" = some (.str token) →
    r = leaseReply resource x → ReadIn E m now → Acts E resource m (.extend now owner token x.expires)
  | use {supplied fence : J} {owner token : Str} {n now : Int} : Supplies resource supplied m →
    supplied.get? "owner" = some (.str owner) → supplied.get? "token" = some (.str token) →
    supplied.get? "fence" = some fence → (J.int n).same fence = true → ReadIn E m now →
    Acts E resource m (.use now owner token n)
  | idle : (∀ op req r, ¬ Leases op resource req r m) → (∀ supplied, ¬ Supplies resource supplied m) →
    Acts E resource m .idle

theorem Step.advances (hclock : Monotone E.clock) (h : Step E s l t) (o o' : Option Lease) :
    Fence.Advances (fenced E s o) (fenced E t o') := by
  obtain ⟨htick, hnonce⟩ := h.counts
  refine ⟨hclock htick, ?_⟩
  rintro token ⟨n, hn, rfl⟩
  exact ⟨n, by omega, rfl⟩

theorem FoundLive.fenced {x : Lease} {owner token : Str} {u v : St} (hclock : Monotone E.clock) (h : FoundLive E x owner token u v)
    (hu : s.st.tick ≤ u.tick) : ∃ k, s.st.tick ≤ k ∧ k < v.tick ∧ Fence.Live (fenced E s (some x)) (E.clock k) owner token x := by
  obtain ⟨k, hk, hlt, hlive⟩ := h.live
  exact ⟨k, hu.trans hk, hlt, rfl, h.owner, h.token, hclock (hu.trans hk), hlive⟩

/-- A lease operation that succeeds is an act of the fenced lease. -/
theorem Leased.act (hclock : Monotone E.clock) (hrand : Function.Injective E.rand) {op : Str} {req r : J} {owner : Str}
    {o : Option Lease} {x : Lease} {u : St} (hstep : Step E s l t) (hm : Leases op resource req r ⟨s, l, t⟩)
    (hu : Still s.st u) (ho : LeasedAs s resource o) (h : Leased E op req resource owner o x r u t.st) :
    LeasedAs t resource (some x) ∧
      ∃ act, Fence.Step (fenced E s o) act (fenced E t (some x)) ∧ Acts E resource ⟨s, l, t⟩ act := by
  have hadv := hstep.advances hclock o (some x)
  have hlen : t.st.db.events.length = s.st.db.events.length + 1 := by rw [h.events, hu.db]
  have hexpires : -2 ^ 35 < x.expires ∧ x.expires < 2 ^ 35 := by
    obtain ⟨k, ttl, hpos, hmax, hx⟩ := h.ttl
    have := E.range k
    constructor <;> omega
  have howner := (required_ok h.caller).1
  cases h.granted with
  | acquired hop hx =>
    subst hop
    obtain ⟨n, hn, hlt, htoken⟩ := hx.token
    -- no earlier draw gave this token
    have hnew : x.token ∉ (fenced E s o).drawn := by
      rintro ⟨n', hn', heq⟩
      have := hrand (htoken.symm.trans heq)
      have := hu.nonce
      omega
    -- the reading at which the last lease was found lapsed, when there was one
    obtain ⟨now, ⟨k, hk, hkt, rfl⟩, hfree⟩ : ∃ now, ReadIn E ⟨s, l, t⟩ now ∧ ∀ y, o = some y → y.expires ≤ now ∧ y.fence < x.fence := by
      cases o with
      | none =>
        obtain ⟨k, hk, hkt, -⟩ := hx.expires
        exact ⟨E.clock k, ⟨k, hu.tick.trans hk, hkt, rfl⟩, nofun⟩
      | some y =>
        obtain ⟨hf, k, hk, hkt, hle⟩ := hx.next y rfl
        refine ⟨E.clock k, ⟨k, hu.tick.trans hk, hkt, rfl⟩, ?_⟩
        rintro z ⟨⟩
        exact ⟨hle, by omega⟩
    refine ⟨⟨h.record, ?_, ?_⟩, _, .acquire hadv hfree (hclock (Nat.le_of_lt hkt)) hnew ⟨n, hlt, htoken⟩ rfl,
      .acquire hm h.reply ⟨k, hk, hkt, rfl⟩⟩
    · rintro z ⟨⟩
      cases o with
      | none =>
        have := hx.first rfl
        constructor <;> omega
      | some y =>
        obtain ⟨hf, -⟩ := hx.next y rfl
        have := ho.pos y rfl
        constructor <;> omega
    · rintro z ⟨⟩
      exact hexpires
  | @kept y token k ttl hop htoken hy hlive hk hx =>
    subst hy
    obtain ⟨k', hk', hlt, hlive⟩ := hlive.fenced (s := s) hclock hu.tick
    refine ⟨⟨h.record, ?_, ?_⟩, _, .extend hadv hlive (by rw [fenced, hx]), ?_⟩
    · rintro z ⟨⟩
      have := ho.pos y rfl
      rw [hx]
      constructor <;> dsimp only <;> omega
    · rintro z ⟨⟩
      exact hexpires
    · have : E.clock k + ttl = x.expires := by rw [hx]
      rw [this]
      exact .extend (hop.imp id fun h => h.1) hm howner htoken h.reply ⟨k', hk', hlt, rfl⟩

/-- Readings of the clock follow the checks of an admission. -/
theorem Admission.reviewed_tick {request : J} {g : Grant} {u v w x : St} (h : Admission E enforce request g u v w x) :
    v.tick ≤ x.tick := by
  have happroved := h.approved
  have hrecorded := h.recorded.tick
  split at happroved
  · rw [happroved.post] at hrecorded
    dsimp only at hrecorded
    omega
  · rw [happroved] at hrecorded
    omega

/-- An admission under a supplied lease is a use of the fenced lease. -/
theorem Supplies.act (hclock : Monotone E.clock) (hsafe : Safe s) (hb : s.st.db.events.length < 2 ^ 63) {o : Option Lease}
    (ho : LeasedAs s resource o) (hstep : Step E s l t) {supplied : J}
    (hm : Supplies resource supplied ⟨s, l, t⟩) :
    ∃ act, Fence.Step (fenced E s o) act (fenced E t o) ∧ Acts E resource ⟨s, l, t⟩ act := by
  have hadv := hstep.advances hclock o o
  obtain ⟨req, request, rfl, hlease⟩ := hm.label
  obtain ⟨g, u, v, w, -, hu, ha⟩ := hsafe.admission hstep
  obtain ⟨t₁, t₂, h₁, hcheck, h₂⟩ := ha.reviewed.leaseHeld
  have hu₁ : Still s.st t₁ := hu.trans h₁
  obtain ⟨x, owner, token, fence, hfound⟩ :=
    leaseCheck_ok hlease hm.on ((hu₁.exec ..).trans ho.record) (ho.bounds hb) hcheck
  obtain rfl := hfound.held
  obtain ⟨k, hk, hlt, hlive⟩ := hfound.live.fenced (s := s) hclock hu₁.tick
  refine ⟨_, .use hadv hlive rfl, .use hm hfound.byOwner hfound.byToken hfound.atFence hfound.same ⟨k, hk, ?_, rfl⟩⟩
  have := h₂.tick
  have := ha.reviewed_tick
  show k < t.st.tick
  omega

/-- A step is an act of the fenced lease of every resource. -/
theorem Step.fenced (hclock : Monotone E.clock) (hrand : Function.Injective E.rand) (hsafe : Safe s) (hs : LeasesOk s)
    (hb : s.st.db.events.length < 2 ^ 63) (h : Step E s l t) {o : Option Lease} (ho : LeasedAs s resource o) :
    ∃ o' act, LeasedAs t resource o' ∧ Fence.Step (fenced E s o) act (fenced E t o') ∧ Acts E resource ⟨s, l, t⟩ act := by
  rcases h.lease hs hb resource with ⟨hkept, hnone⟩ | ⟨op, req, r, owner, o', x, u, hm, hu, ho', hx⟩
  · have hgrows := h.logged.toChained.grows.length_le
    have hpost : LeasedAs t resource o := by
      refine ⟨hkept.trans ho.record, ?_, ho.expires⟩
      intro y hy
      have := ho.pos y hy
      constructor <;> omega
    by_cases hm : ∃ supplied, Supplies resource supplied ⟨s, l, t⟩
    · obtain ⟨supplied, hm⟩ := hm
      obtain ⟨act, hact⟩ := hm.act hclock hsafe hb ho h
      exact ⟨o, act, hpost, hact⟩
    · exact ⟨o, .idle, hpost, .idle (h.advances hclock o o) rfl, .idle hnone fun supplied hs => hm ⟨supplied, hs⟩⟩
  · obtain rfl : o = o' := leaseAt_inj (ho.record.symm.trans ho'.record)
    obtain ⟨hpost, act, hact⟩ := hx.act hclock hrand h hm hu ho
    exact ⟨some x, act, hpost, hact⟩

end Step

/-! ## Runs -/

section Runs

variable {s t : Sys} {l : Label} {tr : List (Move Sys Label)} {resource : Str}

theorem leasesOk_step (hclock : Monotone E.clock) (hrand : Function.Injective E.rand) (hsafe : Safe s) (hs : LeasesOk s)
    (hb : s.st.db.events.length < 2 ^ 63) (h : Step E s l t) : LeasesOk t := by
  intro resource
  obtain ⟨o, ho⟩ := hs resource
  obtain ⟨o', -, ho', -⟩ := h.fenced hclock hrand hsafe hs hb ho
  exact ⟨o', ho'⟩

theorem leasesOk_run (hclock : Monotone E.clock) (hrand : Function.Injective E.rand) (h : Run (Step E) Sys.init tr s) :
    LeasesOk s :=
  h.invariant_of (I := fun _ s => LeasesOk s) (fun _ => ⟨none, rfl, nofun, nofun⟩) fun _ _ _ _ hr hs hstep =>
    leasesOk_step hclock hrand (safe_run hr) hs (bounded_run hr) hstep

/-- A run is a run of the fenced lease of every resource, one act a step. -/
theorem fenced_run (hclock : Monotone E.clock) (hrand : Function.Injective E.rand) (h : Run (Step E) Sys.init tr s) {o : Option Lease}
    (ho : LeasedAs s resource o) :
    ∃ acts, Run Fence.Step (fenced E Sys.init none) acts (fenced E s o) ∧
      List.Forall₂ (fun m a => Acts E resource m a.label) tr acts := by
  have hR : ∃ acts σ, (∃ o, LeasedAs s resource o ∧ σ = fenced E s o) ∧
      Run Fence.Step (fenced E Sys.init none) acts σ ∧ List.Forall₂ (fun m a => Acts E resource m a.label) tr acts := by
    refine Run.simulate (R := fun s σ => ∃ o, LeasedAs s resource o ∧ σ = fenced E s o) ⟨none, ⟨rfl, nofun, nofun⟩, rfl⟩ ?_ h
    rintro tr s l t σ hr ⟨o, ho, rfl⟩ hstep
    obtain ⟨o', act, ho', hact, hacting⟩ :=
      hstep.fenced hclock hrand (safe_run hr) (leasesOk_run hclock hrand hr) (bounded_run hr) ho
    exact ⟨act, _, ⟨o', ho', rfl⟩, hact, hacting⟩
  obtain ⟨acts, σ, ⟨o', ho', rfl⟩, hrun, hacts⟩ := hR
  obtain rfl : o = o' := leaseAt_inj (ho.record.symm.trans ho'.record)
  exact ⟨acts, hrun, hacts⟩

/-- The step gives the lease `x` of the resource to whom it asks for it. -/
def Acquires (resource : Str) (x : Lease) (m : Move Sys Label) : Prop :=
  ∃ req, Leases "lease.acquire" resource req (leaseReply resource x) m

/-- The acquisition of `x` is the last one of the resource in the history. -/
def LastAcquired (resource : Str) (tr : List (Move Sys Label)) (x : Lease) : Prop :=
  ∃ a m b, tr = a ++ m :: b ∧ Acquires resource x m ∧ ∀ m' ∈ b, ∀ x', ¬ Acquires resource x' m'

/-- The step accepts these credentials of a holder: those of a renewal or a release that succeeds, or
of the lease that an admitted request supplies. -/
inductive Presents (resource : Str) (m : Move Sys Label) : J → Prop
  | kept {op : Str} {req r : J} : op = "lease.renew" ∨ op = "lease.release" → Leases op resource req r m →
    Presents resource m req
  | supplied {supplied : J} : Supplies resource supplied m → Presents resource m supplied

/-- The step ends what the token stands for: it releases the lease, gives the resource to another,
or finds the lease expired. -/
inductive Ends (E : Env) (resource token : Str) (past : List (Move Sys Label)) (m : Move Sys Label) : Prop
  | released {req r : J} : Leases "lease.release" resource req r m → req.get? "token" = some (.str token) →
    Ends E resource token past m
  | superseded {x x' : Lease} {m' : Move Sys Label} : m' ∈ past → Acquires resource x' m' → x'.token = token →
    Acquires resource x m → x.token ≠ token → Ends E resource token past m
  | expired {y : Lease} : m.pre.lease resource = leaseRecord resource y → y.token = token →
    y.expires ≤ E.clock m.pre.st.tick → Ends E resource token past m

theorem leaseReply_inj {x y : Lease} (h : leaseReply resource x = leaseReply resource y) : x = y := by
  have hl := congrArg (fun j => j.get? "lease") h
  simp only [leaseReply, J.get?_object, J.find_cons, lit_inj, String.reduceEq, if_true, if_false, Option.some.injEq] at hl
  exact leaseRecord_inj hl

/-- The act of a step that a lease operation, or the use of a lease, is. -/
theorem Acts.of_leases {m : Move Sys Label} {act : Fence.Act Str Str Int} (h : Acts E resource m act) {op : Str} {req r : J}
    (hm : Leases op resource req r m) : ∃ x now, r = leaseReply resource x ∧ ReadIn E m now ∧
      (op = "lease.acquire" ∧ act = .acquire now x ∨
        (op = "lease.renew" ∨ op = "lease.release") ∧ ∃ owner token, req.get? "owner" = some (.str owner) ∧
          req.get? "token" = some (.str token) ∧ act = .extend now owner token x.expires) := by
  have hsame : ∀ {op' : Str} {req' r' : J}, Leases op' resource req' r' m → op' = op ∧ req' = req ∧ r' = r := by
    intro op' req' r' hm'
    have hl := hm'.label.symm.trans hm.label
    cases hl
    have hop := hm'.asked.symm.trans hm.asked
    cases hop
    exact ⟨rfl, rfl, rfl⟩
  cases h with
  | acquire hm' hr hnow =>
    obtain ⟨rfl, rfl, rfl⟩ := hsame hm'
    exact ⟨_, _, hr, hnow, .inl ⟨rfl, rfl⟩⟩
  | extend hop hm' ho ht hr hnow =>
    obtain ⟨rfl, rfl, rfl⟩ := hsame hm'
    exact ⟨_, _, hr, hnow, .inr ⟨hop, _, _, ho, ht, rfl⟩⟩
  | use hs =>
    obtain ⟨_, _, hl, -⟩ := hs.label
    cases hl.symm.trans hm.label
  | idle hnone => exact absurd hm (hnone op req r)

theorem Acts.of_supplies {m : Move Sys Label} {act : Fence.Act Str Str Int} (h : Acts E resource m act) {supplied : J}
    (hm : Supplies resource supplied m) : ∃ owner token fence n now, supplied.get? "owner" = some (.str owner) ∧
      supplied.get? "token" = some (.str token) ∧ supplied.get? "fence" = some fence ∧ (J.int n).same fence = true ∧
      ReadIn E m now ∧ act = .use now owner token n := by
  obtain ⟨req, request, hl, hlease⟩ := hm.label
  cases h with
  | acquire hm' => cases hm'.label.symm.trans hl
  | extend _ hm' => cases hm'.label.symm.trans hl
  | use hs ho ht hf hsame hnow =>
    obtain ⟨req', request', hl', hlease'⟩ := hs.label
    cases hl'.symm.trans hl
    obtain rfl := Option.some.inj (hlease'.symm.trans hlease)
    exact ⟨_, _, _, _, _, ho, ht, hf, hsame, hnow, rfl⟩
  | idle _ hnone => exact absurd hm (hnone supplied)

/-- The credentials a step accepts are those its act goes by. -/
theorem Acts.of_presents {m : Move Sys Label} {act : Fence.Act Str Str Int} (h : Acts E resource m act) {creds : J}
    (hm : Presents resource m creds) : ∃ owner token now, creds.get? "owner" = some (.str owner) ∧
      creds.get? "token" = some (.str token) ∧ act.By owner token ∧ act.time? = some now ∧ ReadIn E m now := by
  cases hm with
  | kept hop hm =>
    obtain ⟨x, now, -, hnow, ⟨hacq, -⟩ | ⟨-, owner, token, ho, ht, rfl⟩⟩ := h.of_leases hm
    · subst hacq
      rcases hop with hop | hop <;> cases hop
    · exact ⟨owner, token, now, ho, ht, ⟨rfl, rfl⟩, rfl, hnow⟩
  | supplied hm =>
    obtain ⟨owner, token, -, -, now, ho, ht, -, -, hnow, rfl⟩ := h.of_supplies hm
    exact ⟨owner, token, now, ho, ht, ⟨rfl, rfl⟩, rfl, hnow⟩

theorem Acts.of_acquires {m : Move Sys Label} {act : Fence.Act Str Str Int} (h : Acts E resource m act) {x : Lease}
    (hm : Acquires resource x m) : ∃ now, act = .acquire now x := by
  obtain ⟨req, hm⟩ := hm
  obtain ⟨x', now, hr, -, ⟨-, rfl⟩ | ⟨hop, -⟩⟩ := h.of_leases hm
  · exact ⟨now, by rw [leaseReply_inj hr]⟩
  · rcases hop with hop | hop <;> cases hop

theorem Acts.acquires {m : Move Sys Label} {now : Int} {x : Lease} (h : Acts E resource m (.acquire now x)) :
    Acquires resource x m := by
  cases h with
  | acquire hm hr => exact ⟨_, hr ▸ hm⟩

theorem LastAcquired.of_acts {acts : List (Move (Fence.State Str Str Int) (Fence.Act Str Str Int))}
    (hacts : List.Forall₂ (fun m a => Acts E resource m a.label) tr acts) {x : Lease} (hx : Fence.Latest acts x) :
    LastAcquired resource tr x := by
  obtain ⟨a, g, b, now, rfl, hg, hb⟩ := hx
  obtain ⟨a', m, b', rfl, hm, hrest⟩ := matched_split hacts
  rw [hg] at hm
  refine ⟨a', m, b', rfl, hm.acquires, ?_⟩
  intro m' hm' x' hx'
  obtain ⟨g', hg', hact⟩ := matched_of_mem hrest hm'
  obtain ⟨now', heq⟩ := hact.of_acquires hx'
  exact hb g' hg' now' x' heq

/-- A step that ends what a token stands for leaves it dead. -/
theorem Ends.dead (hclock : Monotone E.clock) (hrand : Function.Injective E.rand) (hr : Run (Step E) Sys.init tr s)
    (hstep : Step E s l t) {token : Str} (hends : Ends E resource token tr ⟨s, l, t⟩) {o' : Option Lease}
    (ho' : LeasedAs t resource o') : Fence.Dead token (fenced E t o') := by
  have hs := leasesOk_run hclock hrand hr
  have hb := bounded_run hr
  obtain ⟨o, ho⟩ := hs resource
  obtain ⟨acts, hrun, hacts⟩ := fenced_run hclock hrand hr ho
  obtain ⟨o'', act, ho'', hact, hacting⟩ := hstep.fenced hclock hrand (safe_run hr) hs hb ho
  obtain rfl : o'' = o' := leaseAt_inj (ho''.record.symm.trans ho'.record)
  have hheld : ∀ y, o = some y → y.token ∈ (fenced E s o).drawn := fun y hy => Fence.held_drawn rfl hrun hy
  cases hends with
  | @released req r hm htoken =>
    rcases hstep.lease hs hb resource with ⟨-, hnone⟩ | ⟨op, req', r', owner, o₁, x, u, hm', hu, ho₁, hx⟩
    · exact absurd hm (hnone _ _ _)
    obtain rfl : o = o₁ := leaseAt_inj (ho.record.symm.trans ho₁.record)
    obtain rfl : o'' = some x := leaseAt_inj (ho''.record.symm.trans hx.record)
    cases hm'.label.symm.trans hm.label
    cases hm'.asked.symm.trans hm.asked
    cases hx.granted with
    | acquired hop => cases hop
    | @kept y token' k ttl hop htoken' hy hlive hk hx =>
      rcases hop with hop | ⟨-, rfl⟩
      · cases hop
      cases htoken.symm.trans htoken'
      refine ⟨hact.advances.drawn ?_, ?_⟩
      · exact hlive.token ▸ hheld y hy
      · rintro z ⟨⟩ -
        rw [hx, add_zero]
        exact hclock (Nat.le_of_lt hk)
  | @superseded x x' m' hm' hx' htoken hx hne =>
    obtain ⟨a, ha, hact'⟩ := matched_of_mem hacts hm'
    obtain ⟨now', heq⟩ := hact'.of_acquires hx'
    obtain ⟨now, rfl⟩ := hacting.of_acquires hx
    refine ⟨hact.advances.drawn (htoken ▸ Fence.drawn_run hrun a ha now' x' heq), ?_⟩
    intro y hy hy'
    cases hact with
    | acquire _ _ _ _ _ ht =>
      rw [ht] at hy
      cases hy
      exact absurd hy' hne
  | @expired y hrec htoken hle =>
    obtain rfl : o = some y := leaseAt_inj (ho.record.symm.trans hrec)
    have hdead : Fence.Dead token (fenced E s (some y)) := by
      refine ⟨htoken ▸ hheld y rfl, ?_⟩
      rintro z ⟨⟩ -
      exact hle
    exact hdead.step hact

/-- Once a step has ended what a token stands for, the token is dead. -/
theorem dead_run (hclock : Monotone E.clock) (hrand : Function.Injective E.rand) (h : Run (Step E) Sys.init tr s) {token : Str} :
    ∀ a m b, tr = a ++ m :: b → Ends E resource token a m → ∀ o, LeasedAs s resource o → Fence.Dead token (fenced E s o) := by
  induction h with
  | nil =>
    intro a m b htr
    simp at htr
  | @snoc tr s t l hr hstep ih =>
    intro a m b htr hends o' ho'
    rcases List.eq_nil_or_concat b with rfl | ⟨b, last, rfl⟩
    · obtain ⟨rfl, hm⟩ := List.append_inj' htr rfl
      cases hm
      exact hends.dead hclock hrand hr hstep ho'
    · rw [List.concat_eq_append, ← List.cons_append, ← List.append_assoc] at htr
      obtain ⟨rfl, -⟩ := List.append_inj' htr rfl
      obtain ⟨o, ho⟩ := leasesOk_run hclock hrand hr resource
      obtain ⟨o'', act, ho'', hact, -⟩ :=
        hstep.fenced hclock hrand (safe_run hr) (leasesOk_run hclock hrand hr) (bounded_run hr) ho
      obtain rfl : o'' = o' := leaseAt_inj (ho''.record.symm.trans ho'.record)
      exact (ih a m b rfl hends o ho).step hact

/-- **Lease fencing.** On a clock that never goes back, and with ids that never repeat, after every
run: a lease is given only when the last one of the resource has lapsed, with a fence above all
earlier ones; a renewal, a release and an admission go by the owner and the token of the last
acquisition, which has not lapsed, an admission by its fence as well; the fences of admissions never
decrease; and a lease that was released, superseded or found expired is accepted no more. -/
theorem lease_fencing (E : Env) (hclock : Monotone E.clock) (hrand : Function.Injective E.rand) {tr : List (Move Sys Label)}
    {s t : Sys} {l : Label} (h : Run (Step E) Sys.init tr s) (hstep : Step E s l t) (resource : Str) :
    (∀ req r, Leases "lease.acquire" resource req r ⟨s, l, t⟩ → ∃ x, r = leaseReply resource x ∧
      (∀ m ∈ tr, ∀ x', Acquires resource x' m → x'.fence < x.fence) ∧
      (s.lease resource = .null ∨
        ∃ y now, s.lease resource = leaseRecord resource y ∧ ReadIn E ⟨s, l, t⟩ now ∧ y.expires ≤ now)) ∧
    (∀ creds, Presents resource ⟨s, l, t⟩ creds → ∃ x y now, LastAcquired resource tr x ∧
      creds.get? "owner" = some (.str x.owner) ∧ creds.get? "token" = some (.str x.token) ∧
      s.lease resource = leaseRecord resource y ∧ y.token = x.token ∧ ReadIn E ⟨s, l, t⟩ now ∧ now < y.expires) ∧
    (∀ supplied, Supplies resource supplied ⟨s, l, t⟩ → ∃ x fence, LastAcquired resource tr x ∧
      supplied.get? "fence" = some fence ∧ (J.int x.fence).same fence = true ∧
      ∀ m ∈ tr, ∀ supplied', Supplies resource supplied' m → ∃ n fence', supplied'.get? "fence" = some fence' ∧
        (J.int n).same fence' = true ∧ n ≤ x.fence) ∧
    (∀ token, (∃ a m b, tr = a ++ m :: b ∧ Ends E resource token a m) → ∀ creds, Presents resource ⟨s, l, t⟩ creds →
      creds.get? "token" ≠ some (.str token)) := by
  have hs := leasesOk_run hclock hrand h
  obtain ⟨o, ho⟩ := hs resource
  obtain ⟨acts, hrun, hacts⟩ := fenced_run hclock hrand h ho
  obtain ⟨o', act, -, hact, hacting⟩ := hstep.fenced hclock hrand (safe_run h) hs (bounded_run h) ho
  refine ⟨?_, ?_, ?_, ?_⟩
  · intro req r hm
    obtain ⟨x, now, hr, hnow, ⟨-, rfl⟩ | ⟨hop, -⟩⟩ := hacting.of_leases hm
    swap
    · rcases hop with hop | hop <;> cases hop
    refine ⟨x, hr, ?_, ?_⟩
    · intro m hm' x' hx'
      obtain ⟨a, ha, hact'⟩ := matched_of_mem hacts hm'
      obtain ⟨now', heq⟩ := hact'.of_acquires hx'
      exact Fence.fence_lt rfl hrun hact ha heq
    · cases o with
      | none => exact .inl ho.record
      | some y =>
        cases hact with
        | acquire _ hfree => exact .inr ⟨y, now, ho.record, hnow, (hfree y rfl).1⟩
  · intro creds hm
    obtain ⟨owner, token, now, howner, htoken, hby, htime, hnow⟩ := hacting.of_presents hm
    obtain ⟨x, hx, rfl, rfl, -⟩ := Fence.by_latest rfl hrun hact hby
    obtain ⟨now', y, htime', hlive, -⟩ := hact.by_live hby
    cases htime.symm.trans htime'
    obtain rfl : o = some y := hlive.held
    exact ⟨x, y, now, .of_acts hacts hx, howner, htoken, ho.record, hlive.token, hnow, hlive.before⟩
  · intro supplied hm
    obtain ⟨owner, token, fence, n, now, -, -, hfence, hsame, -, rfl⟩ := hacting.of_supplies hm
    obtain ⟨x, hx, -, -, hn⟩ := Fence.by_latest rfl hrun hact ⟨rfl, rfl⟩
    obtain rfl := hn _ _ _ _ rfl
    refine ⟨x, fence, .of_acts hacts hx, hfence, hsame, ?_⟩
    intro m hm' supplied' hs'
    obtain ⟨a, ha, hact'⟩ := matched_of_mem hacts hm'
    obtain ⟨_, _, fence', n', _, -, -, hfence', hsame', -, heq⟩ := hact'.of_supplies hs'
    exact ⟨n', fence', hfence', hsame', Fence.use_fence_le rfl hrun hact ha heq⟩
  · rintro token ⟨a, m, b, htr, hends⟩ creds hm htoken
    obtain ⟨owner, token', -, -, htoken', hby, -⟩ := hacting.of_presents hm
    cases htoken.symm.trans htoken'
    exact (dead_run hclock hrand h a m b htr hends o ho).refused hact owner hby

/-- A clock that ticks by the second and stops in the end. -/
def steadyEnv : Env where
  clock n := (min n (2 ^ 33) : Nat)
  range n := by omega
  rand := natText
  digest := id

def doorLease : J := .object [("resource", .str "door"), ("owner", .str "ann"), ("token", .str "0"), ("fence", .int 1)]

/-- The door is leased, and a request under the lease comes in. -/
def doorMoves : List (Move Sys Label) :=
  let m₀ : Move Sys Label := ⟨Sys.init, .boot false, { Sys.init with up := true }⟩
  let m₁ := enterMove steadyEnv (.object [("op", .str "lease.acquire"), ("resource", .str "door"), ("owner", .str "ann")]) m₀.post
  [m₀, m₁]

def doorMove : Move Sys Label :=
  enterMove steadyEnv (sampleSubmit "r" [("lease", doorLease)]) (lastState doorMoves)

set_option maxRecDepth 10000 in
theorem door_run : Run (Step steadyEnv) Sys.init doorMoves doorMove.pre := by
  refine .snoc (.snoc .nil ?_) ?_
  · exact .boot rfl rfl
  · exact .enter rfl rfl

set_option maxRecDepth 10000 in
theorem lease_fencing_door : ∃ x fence, LastAcquired "door" doorMoves x ∧ doorLease.get? "fence" = some fence ∧
    (J.int x.fence).same fence = true := by
  have hclock : Monotone steadyEnv.clock := by
    intro m n hmn
    show ((min m (2 ^ 33) : Nat) : Int) ≤ (min n (2 ^ 33) : Nat)
    omega
  have hrand : Function.Injective steadyEnv.rand := fun _ _ h => natText_inj h
  have hstep : Step steadyEnv doorMove.pre doorMove.label doorMove.post := .enter rfl rfl
  obtain ⟨-, -, hsupplies, -⟩ := lease_fencing steadyEnv hclock hrand door_run hstep "door"
  obtain ⟨x, fence, hx, hfence, hsame, -⟩ := hsupplies doorLease ⟨⟨_, _, rfl, rfl⟩, rfl⟩
  exact ⟨x, fence, hx, hfence, hsame⟩

end Runs

end A2ad.Control
