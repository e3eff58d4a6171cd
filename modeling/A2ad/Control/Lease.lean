/-
Leases: what the operations on them and the lease check of `begin` find and leave, and the two ways
a step treats the lease of a resource.
-/
import A2ad.Lib.Fence
import A2ad.Control.Channel

namespace A2ad.Control

open Bytes Json

variable {E : Env} {enforce : Bool} {req : J}

/-! ## Lease records -/

abbrev Lease := Fence.Lease Str Str Int

def leaseRecord (resource : Str) (x : Lease) : J := .object [("resource", .str resource), ("owner", .str x.owner),
  ("token", .str x.token), ("fence", .int x.fence), ("expires_at", .int x.expires)]

def leaseReply (resource : Str) (x : Lease) : J := .object [("ok", .bool true), ("lease", leaseRecord resource x)]

/-- The bounds a stored lease keeps: its fence counts events, its expiry is a reading and some. -/
structure InBounds (x : Lease) : Prop where
  pos : 1 ≤ x.fence
  fence : x.fence < 2 ^ 63
  expires : -2 ^ 35 < x.expires ∧ x.expires < 2 ^ 35

theorem leaseRecord_inj {resource : Str} {x y : Lease} (h : leaseRecord resource x = leaseRecord resource y) : x = y := by
  have ho := congrArg (fun j => j.get? "owner") h
  have ht := congrArg (fun j => j.get? "token") h
  have hf := congrArg (fun j => j.get? "fence") h
  have he := congrArg (fun j => j.get? "expires_at") h
  simp only [leaseRecord, J.get?_object, J.find_cons, lit_inj, String.reduceEq, if_true, if_false] at ho ht hf he
  obtain ⟨o, t, f, e⟩ := x
  cases ho
  cases ht
  cases hf
  cases he
  rfl

theorem leaseRecord_expires {resource : Str} {x : Lease} (hx : InBounds x) :
    (leaseRecord resource x).valueInt64 "expires_at" 0 = .ok x.expires := by
  refine J.value_ok.2 ⟨rfl, .inl ⟨.int x.expires, by simp [leaseRecord], ?_⟩⟩
  have := hx.expires
  exact J.asInt64_int (by omega) (by omega)

theorem leaseRecord_fence {resource : Str} {x : Lease} (hx : InBounds x) : leaseFence (leaseRecord resource x) = .ok (x.fence + 1) := by
  have hint : (J.int x.fence).asInt64 = .ok x.fence := by
    have := hx.pos
    have := hx.fence
    exact J.asInt64_int (by omega) (by omega)
  show (do return (← (J.int x.fence).asInt64) + 1 : Except Exception Int) = _
  rw [hint]
  rfl

/-! ## The operations -/

theorem lapsed_lease {resource : Str} {x : Lease} (hx : InBounds x) {b : Bool} {s s' : St}
    (h : lapsed E (leaseRecord resource x) s = .ok b s') :
    b = decide (x.expires ≤ E.clock s.tick) ∧ s' = { s with tick := s.tick + 1 } := by
  obtain ⟨y, hy, hb, hs⟩ := lapsed_ok h
  rw [leaseRecord_expires hx] at hy
  cases hy
  exact ⟨hb, hs⟩

/-- The record of a resource: `null` when it was never leased. -/
def leaseAt (resource : Str) : Option Lease → J
  | none => .null
  | some x => leaseRecord resource x

theorem leaseAt_inj {resource : Str} {o o' : Option Lease} (h : leaseAt resource o = leaseAt resource o') : o = o' := by
  cases o with
  | none =>
    cases o' with
    | none => rfl
    | some _ => cases h
  | some _ =>
    cases o' with
    | none => cases h
    | some _ => exact congrArg some (leaseRecord_inj h)

/-- What `lease.acquire` has found when it gives a lease. -/
structure Taken (E : Env) (o : Option Lease) (owner : Str) (ttl : Int) (x : Lease) (s s' : St) : Prop where
  owner : x.owner = owner
  first : o = none → x.fence = 1
  next : ∀ y, o = some y → x.fence = y.fence + 1 ∧ ∃ k, s.tick ≤ k ∧ k < s'.tick ∧ y.expires ≤ E.clock k
  token : ∃ n, s.nonce ≤ n ∧ n < s'.nonce ∧ x.token = E.rand n
  expires : ∃ k, s.tick ≤ k ∧ k < s'.tick ∧ x.expires = E.clock k + ttl

theorem Taken.mono {o : Option Lease} {owner : Str} {ttl : Int} {x : Lease} {s t t' : St} (h : Taken E o owner ttl x s t)
    (htick : t.tick ≤ t'.tick) (hnonce : t.nonce ≤ t'.nonce) : Taken E o owner ttl x s t' := by
  refine ⟨h.owner, h.first, fun y hy => ?_, ?_, ?_⟩
  · obtain ⟨hf, k, hk, hlt, hle⟩ := h.next y hy
    exact ⟨hf, k, hk, by omega, hle⟩
  · obtain ⟨n, hn, hlt, ht⟩ := h.token
    exact ⟨n, hn, by omega, ht⟩
  · obtain ⟨k, hk, hlt, hx⟩ := h.expires
    exact ⟨k, hk, by omega, hx⟩

theorem leaseTake_cases {resource owner : Str} {o : Option Lease} {ttl : Int} {r : J} {s s' : St} (ho : ∀ y, o = some y → InBounds y)
    (h : leaseTake E resource owner (leaseAt resource o) ttl s = .ok r s') :
    r = .null ∨ ∃ x, r = leaseRecord resource x ∧ Taken E o owner ttl x s s' := by
  unfold leaseTake at h
  have hgive : ∀ {lease : J} {u : St}, Still s u → (do
      let fence ← leaseFence lease
      let token ← newId E
      return .object [("resource", .str resource), ("owner", .str owner), ("token", .str token), ("fence", .int fence),
        ("expires_at", .int ((← now E) + ttl))] : M J) u = .ok r s' →
      ∃ fence, leaseFence lease = .ok fence ∧ ∃ x : Lease, r = leaseRecord resource x ∧ x.owner = owner ∧ x.fence = fence ∧
        (∃ n, s.nonce ≤ n ∧ n < s'.nonce ∧ x.token = E.rand n) ∧ (∃ k, s.tick ≤ k ∧ k < s'.tick ∧ x.expires = E.clock k + ttl) ∧
        u.tick ≤ s'.tick := by
    intro lease u hu h
    obtain ⟨fence, _, hl, h⟩ := Tx.bind_ok.1 h
    obtain ⟨hfence, rfl⟩ := Tx.lift_ok.1 hl
    obtain ⟨_, _, hn, h⟩ := Tx.bind_ok.1 h
    obtain ⟨rfl, rfl⟩ := newId_ok.1 hn
    obtain ⟨_, _, hn, h⟩ := Tx.bind_ok.1 h
    obtain ⟨rfl, rfl⟩ := now_ok.1 hn
    obtain ⟨rfl, rfl⟩ := Tx.pure_ok.1 h
    exact ⟨fence, hfence, ⟨owner, E.rand u.nonce, fence, E.clock u.tick + ttl⟩, rfl, rfl, rfl,
      ⟨u.nonce, hu.nonce, Nat.lt_succ_self _, rfl⟩, ⟨u.tick, hu.tick, Nat.lt_succ_self _, rfl⟩, Nat.le_succ _⟩
  cases o with
  | none =>
    obtain ⟨fence, hf, x, rfl, hown, hfence, htok, hexp, -⟩ := hgive (refl s) h
    cases hf
    exact .inr ⟨x, rfl, hown, fun _ => hfence, nofun, htok, hexp⟩
  | some y =>
    have hy := ho y rfl
    rw [show leaseAt resource (some y) = leaseRecord resource y from rfl] at h
    rcases Tx.ite_ok h with ⟨-, h⟩ | ⟨hnull, -⟩
    swap
    · exact absurd rfl hnull
    obtain ⟨b, u, hl, h⟩ := Tx.bind_ok.1 h
    obtain ⟨rfl, rfl⟩ := lapsed_lease hy hl
    rcases Tx.ite_ok h with ⟨-, h⟩ | ⟨hlapsed, h⟩
    · exact .inl (Tx.pure_ok.1 h).1.symm
    simp only [Bool.not_eq_true', decide_eq_false_iff_not, not_not] at hlapsed
    obtain ⟨fence, hf, x, rfl, hown, hfence, htok, hexp, htick⟩ := hgive (u := { s with tick := s.tick + 1 })
      ⟨rfl, Nat.le_succ _, le_refl _⟩ h
    rw [leaseRecord_fence hy] at hf
    cases hf
    refine .inr ⟨x, rfl, hown, nofun, ?_, htok, hexp⟩
    rintro z ⟨⟩
    exact ⟨hfence, s.tick, le_refl _, htick, hlapsed⟩

/-- A lease found live, at a reading of the clock between the two states. -/
structure FoundLive (E : Env) (x : Lease) (owner token : Str) (s s' : St) : Prop where
  owner : x.owner = owner
  token : x.token = token
  live : ∃ k, s.tick ≤ k ∧ k < s'.tick ∧ E.clock k < x.expires

theorem FoundLive.mono {x : Lease} {owner token : Str} {s t t' : St} (h : FoundLive E x owner token s t)
    (htick : t.tick ≤ t'.tick) : FoundLive E x owner token s t' := by
  obtain ⟨k, hk, hlt, hlive⟩ := h.live
  exact ⟨h.owner, h.token, k, hk, by omega, hlive⟩

theorem leaseHeld_ok {resource owner : Str} {o : Option Lease} {s s' : St} (ho : ∀ y, o = some y → InBounds y)
    (h : leaseHeld E req owner (leaseAt resource o) s = .ok true s') :
    ∃ x token, o = some x ∧ required req "token" = .ok token ∧ FoundLive E x owner token s s' := by
  unfold leaseHeld at h
  cases o with
  | none => cases (Tx.pure_ok.1 h).1
  | some x =>
    rcases Tx.ite_ok h with ⟨hnull, -⟩ | ⟨-, h⟩
    · cases hnull
    obtain ⟨b, u, hl, h⟩ := Tx.bind_ok.1 h
    obtain ⟨rfl, rfl⟩ := lapsed_lease (ho x rfl) hl
    rcases Tx.ite_ok h with ⟨-, h⟩ | ⟨hlive, h⟩
    · cases (Tx.pure_ok.1 h).1
    obtain ⟨v, _, hl, h⟩ := Tx.bind_ok.1 h
    obtain ⟨hv, rfl⟩ := Tx.lift_ok.1 hl
    cases hv
    rcases Tx.ite_ok h with ⟨-, h⟩ | ⟨howner, h⟩
    · cases (Tx.pure_ok.1 h).1
    obtain ⟨v, _, hl, h⟩ := Tx.bind_ok.1 h
    obtain ⟨hv, rfl⟩ := Tx.lift_ok.1 hl
    cases hv
    obtain ⟨token, _, hl, h⟩ := Tx.bind_ok.1 h
    obtain ⟨htoken, rfl⟩ := Tx.lift_ok.1 hl
    obtain ⟨hsame, rfl⟩ := Tx.pure_ok.1 h
    simp only [decide_eq_true_eq, not_le] at hlive
    simp only [Bool.not_eq_true', Bool.not_eq_false, J.same_str, J.str.injEq] at howner hsame
    exact ⟨x, token, rfl, htoken, howner, hsame, s.tick, le_refl _, Nat.lt_succ_self _, hlive⟩

/-- A lease operation that was granted: the lease found, and the lease left in its place. -/
inductive Granted (E : Env) (op : Str) (req : J) (owner : Str) (o : Option Lease) (x : Lease) (s s' : St) : Prop
  | acquired {ttl : Int} : op = "lease.acquire" → Taken E o owner ttl x s s' → Granted E op req owner o x s s'
  | kept {y : Lease} {token : Str} {k : Nat} {ttl : Int} : op = "lease.renew" ∨ op = "lease.release" ∧ ttl = 0 →
    req.get? "token" = some (.str token) → o = some y → FoundLive E y owner token s s' → k < s'.tick →
    x = { y with expires := E.clock k + ttl } → Granted E op req owner o x s s'

/-- What a lease operation has done to the store. -/
structure Leased (E : Env) (op : Str) (req : J) (resource owner : Str) (o : Option Lease) (x : Lease) (r : J) (s s' : St) :
    Prop where
  on : required req "resource" = .ok resource
  caller : required req "owner" = .ok owner
  granted : Granted E op req owner o x s s'
  ttl : ∃ k ttl, 0 ≤ ttl ∧ ttl ≤ 3600 ∧ x.expires = E.clock k + ttl
  reply : r = leaseReply resource x
  record : s'.db.get .lease resource = leaseRecord resource x
  others : ∀ resource', resource' ≠ resource → s'.db.get .lease resource' = s.db.get .lease resource'
  events : s'.db.events.length = s.db.events.length + 1

theorem leaseOp_cases {op : Str} {r : J} {s s' : St} (hop : isLease op = true)
    (hs : ∀ resource, ∃ o, s.db.get .lease resource = leaseAt resource o ∧ ∀ y, o = some y → InBounds y)
    (h : leaseOp E op req s = .ok r s') :
    r.get? "ok" = some (.bool false) ∧ Still s s' ∨
    ∃ resource owner o x, s.db.get .lease resource = leaseAt resource o ∧ Leased E op req resource owner o x r s s' := by
  unfold leaseOp at h
  obtain ⟨resource, _, hl, h⟩ := Tx.bind_ok.1 h
  obtain ⟨hresource, rfl⟩ := Tx.lift_ok.1 hl
  obtain ⟨owner, _, hl, h⟩ := Tx.bind_ok.1 h
  obtain ⟨howner, rfl⟩ := Tx.lift_ok.1 hl
  obtain ⟨_, _, hr, h⟩ := Tx.bind_ok.1 h
  obtain ⟨rfl, rfl⟩ := read_ok.1 hr
  obtain ⟨ttl, _, hl, h⟩ := Tx.bind_ok.1 h
  obtain ⟨-, rfl⟩ := Tx.lift_ok.1 hl
  obtain ⟨o, ho, hbounds⟩ := hs resource
  rw [ho] at h
  rcases Tx.ite_ok h with ⟨-, h⟩ | ⟨httl, h⟩
  · obtain ⟨rfl, rfl⟩ := Tx.pure_ok.1 h
    exact .inl ⟨by simp [failure], refl _⟩
  simp only [Bool.or_eq_true, decide_eq_true_eq, not_or, not_lt] at httl
  -- the record is written together with its event
  have hwrite : ∀ {x : Lease} {u : St}, Still s u → (do
      write .lease resource (leaseRecord resource x)
      append E (.object [("type", .str op), ("resource", .str resource), ("owner", .str owner),
        ("fence", ← (leaseRecord resource x).index "fence")])
      return .object [("ok", .bool true), ("lease", leaseRecord resource x)] : M J) u = .ok r s' →
      r = leaseReply resource x ∧ s'.db.get .lease resource = leaseRecord resource x ∧
        (∀ resource', resource' ≠ resource → s'.db.get .lease resource' = s.db.get .lease resource') ∧
        s'.db.events.length = s.db.events.length + 1 ∧ u.tick ≤ s'.tick ∧ u.nonce ≤ s'.nonce := by
    intro x u hu h
    obtain ⟨_, _, hw, h⟩ := Tx.bind_ok.1 h
    obtain ⟨fence, _, hl, h⟩ := Tx.bind_ok.1 h
    obtain ⟨-, rfl⟩ := Tx.lift_ok.1 hl
    obtain ⟨_, _, ha, hdone⟩ := Tx.bind_ok.1 h
    obtain ⟨hget, hothers, htick⟩ := write_append_ok hw ha
    obtain ⟨-, rfl⟩ := write_ok.1 hw
    obtain ⟨-, -, hnonce, -⟩ := append_ok ha
    obtain ⟨hevents, -⟩ := append_events ha
    obtain ⟨rfl, rfl⟩ := Tx.pure_ok.1 hdone
    refine ⟨rfl, hget, fun resource' hne => ?_, ?_, by omega, hnonce.ge⟩
    · rw [hothers _ _ (by simpa using hne), hu.db]
    · rw [hevents, List.length_append, List.length_singleton, Db.events_put, hu.db]
  -- a free lease is anybody's to acquire, a held one its holder's to renew and release
  rcases Tx.ite_ok h with ⟨rfl, h⟩ | ⟨hne, h⟩
  · obtain ⟨lease, u, hl, h⟩ := Tx.bind_ok.1 h
    have hu : Still s u := Tx.keeps_ok hl
    rcases leaseTake_cases hbounds hl with rfl | ⟨x, rfl, hx⟩
    · obtain ⟨rfl, rfl⟩ := Tx.pure_ok.1 h
      exact .inl ⟨by simp [failure], hu⟩
    · obtain ⟨hreply, hrec, hothers, hlen, htick, hnonce⟩ := hwrite hu h
      refine .inr ⟨resource, owner, o, x, ho, hresource, howner, .acquired rfl (hx.mono htick hnonce), ?_, hreply, hrec,
        hothers, hlen⟩
      obtain ⟨k, -, -, hk⟩ := hx.expires
      exact ⟨k, ttl, by omega, by omega, hk⟩
  · obtain ⟨b, u, hl, h⟩ := Tx.bind_ok.1 h
    have hu : Still s u := Tx.keeps_ok hl
    rcases Tx.ite_ok h with ⟨-, h⟩ | ⟨hb, h⟩
    · obtain ⟨rfl, rfl⟩ := Tx.pure_ok.1 h
      exact .inl ⟨by simp [failure], hu⟩
    simp only [Bool.not_eq_true', Bool.not_eq_false] at hb
    subst hb
    obtain ⟨y, token, rfl, htoken, hlive⟩ := leaseHeld_ok hbounds hl
    obtain ⟨_, v, hn, h⟩ := Tx.bind_ok.1 h
    obtain ⟨rfl, rfl⟩ := now_ok.1 hn
    obtain ⟨lease, _, hl, h⟩ := Tx.bind_ok.1 h
    obtain ⟨hlease, rfl⟩ := Tx.lift_ok.1 hl
    cases hlease
    -- a release is an extension by nothing
    have hexpires : ∃ ttl', (if op = "lease.release" then E.clock u.tick else E.clock u.tick + ttl) = E.clock u.tick + ttl' ∧
        0 ≤ ttl' ∧ ttl' ≤ 3600 ∧ (op = "lease.renew" ∨ op = "lease.release" ∧ ttl' = 0) := by
      by_cases hrelease : op = "lease.release"
      · exact ⟨0, by rw [if_pos hrelease, add_zero], le_refl _, by omega, .inr ⟨hrelease, rfl⟩⟩
      · refine ⟨ttl, if_neg hrelease, by omega, by omega, .inl ?_⟩
        simp only [isLease, Bool.or_eq_true, decide_eq_true_eq, or_assoc] at hop
        rcases hop with hop | hop | hop
        · exact absurd hop hne
        · exact hop
        · exact absurd hop hrelease
    obtain ⟨ttl', hexpires, hpos, hmax, hkind⟩ := hexpires
    rw [hexpires] at h
    obtain ⟨hreply, hrec, hothers, hlen, htick, -⟩ := hwrite (x := { y with expires := E.clock u.tick + ttl' })
      (u := { u with tick := u.tick + 1 }) (hu.trans ⟨rfl, Nat.le_succ _, le_refl _⟩) h
    exact .inr ⟨resource, owner, some y, _, ho, hresource, howner,
      .kept hkind (required_ok htoken).1 rfl (hlive.mono (Nat.le_of_succ_le htick)) htick rfl,
      ⟨u.tick, ttl', hpos, hmax, rfl⟩, hreply, hrec, hothers, hlen⟩

/-- What an admission has found of the lease its request supplies. -/
structure LeaseFound (E : Env) (resource : Str) (supplied : J) (o : Option Lease) (x : Lease) (owner token : Str) (fence : J)
    (s s' : St) : Prop where
  held : o = some x
  byOwner : supplied.get? "owner" = some (.str owner)
  byToken : supplied.get? "token" = some (.str token)
  atFence : supplied.get? "fence" = some fence
  same : (J.int x.fence).same fence = true
  live : FoundLive E x owner token s s'

theorem leaseCheck_ok {supplied : J} {resource : Str} {o : Option Lease} {s s' : St} (hreq : req.get? "lease" = some supplied)
    (hresource : supplied.get? "resource" = some (.str resource)) (ho : s.db.get .lease resource = leaseAt resource o)
    (hbounds : ∀ y, o = some y → InBounds y) (h : leaseCheck E req s = .ok .null s') :
    ∃ x owner token fence, LeaseFound E resource supplied o x owner token fence s s' := by
  unfold leaseCheck at h
  rcases Tx.ite_ok h with ⟨hc, -⟩ | ⟨-, h⟩
  · simp [J.contains, hreq] at hc
  obtain ⟨v, _, hl, h⟩ := Tx.bind_ok.1 h
  obtain ⟨hv, rfl⟩ := Tx.lift_ok.1 hl
  obtain rfl := Option.some.inj ((J.field_ok.1 hv).symm.trans hreq)
  obtain ⟨i, _, hl, h⟩ := Tx.bind_ok.1 h
  obtain ⟨hi, rfl⟩ := Tx.lift_ok.1 hl
  have hi := (required_ok hi).1
  rw [hresource] at hi
  cases hi
  obtain ⟨_, _, hr, h⟩ := Tx.bind_ok.1 h
  obtain ⟨rfl, rfl⟩ := read_ok.1 hr
  rw [ho] at h
  obtain ⟨b, u, hm, h⟩ := Tx.bind_ok.1 h
  rcases Tx.ite_ok h with ⟨rfl, h⟩ | ⟨-, h⟩
  swap
  · cases (Tx.pure_ok.1 h).1
  obtain ⟨-, rfl⟩ := Tx.pure_ok.1 h
  unfold leaseMatches at hm
  cases o with
  | none => cases (Tx.pure_ok.1 hm).1
  | some x =>
    rcases Tx.ite_ok hm with ⟨hnull, -⟩ | ⟨-, hm⟩
    · cases hnull
    obtain ⟨b, u', hl, hm⟩ := Tx.bind_ok.1 hm
    obtain ⟨rfl, rfl⟩ := lapsed_lease (hbounds x rfl) hl
    rcases Tx.ite_ok hm with ⟨-, hm⟩ | ⟨hlive, hm⟩
    · cases (Tx.pure_ok.1 hm).1
    obtain ⟨v, _, hl, hm⟩ := Tx.bind_ok.1 hm
    obtain ⟨hv, rfl⟩ := Tx.lift_ok.1 hl
    cases hv
    obtain ⟨owner, _, hl, hm⟩ := Tx.bind_ok.1 hm
    obtain ⟨howner, rfl⟩ := Tx.lift_ok.1 hl
    rcases Tx.ite_ok hm with ⟨-, hm⟩ | ⟨hsame, hm⟩
    · cases (Tx.pure_ok.1 hm).1
    obtain ⟨v, _, hl, hm⟩ := Tx.bind_ok.1 hm
    obtain ⟨hv, rfl⟩ := Tx.lift_ok.1 hl
    cases hv
    obtain ⟨token, _, hl, hm⟩ := Tx.bind_ok.1 hm
    obtain ⟨htoken, rfl⟩ := Tx.lift_ok.1 hl
    rcases Tx.ite_ok hm with ⟨-, hm⟩ | ⟨hsame', hm⟩
    · cases (Tx.pure_ok.1 hm).1
    obtain ⟨v, _, hl, hm⟩ := Tx.bind_ok.1 hm
    obtain ⟨hv, rfl⟩ := Tx.lift_ok.1 hl
    cases hv
    obtain ⟨fence, _, hl, hm⟩ := Tx.bind_ok.1 hm
    obtain ⟨hfence, rfl⟩ := Tx.lift_ok.1 hl
    obtain ⟨hf, rfl⟩ := Tx.pure_ok.1 hm
    simp only [decide_eq_true_eq, not_le] at hlive
    simp only [Bool.not_eq_true', Bool.not_eq_false, J.same_str, J.str.injEq] at hsame hsame'
    exact ⟨x, owner, token, fence, rfl, (required_ok howner).1, (required_ok htoken).1, J.field_ok.1 hfence, hf, hsame, hsame',
      s.tick, le_refl _, Nat.lt_succ_self _, hlive⟩

/-! ## Steps -/

def Sys.lease (s : Sys) (resource : Str) : J := s.st.db.get .lease resource

/-- The step answers this request for a lease operation with success. -/
structure Leases (op resource : Str) (req r : J) (m : Move Sys Label) : Prop where
  label : m.label = .enter req (.reply r)
  own : isLease op = true
  asked : req.get? "op" = some (.str op)
  on : req.get? "resource" = some (.str resource)
  ok : r.get? "ok" = some (.bool true)

/-- The step admits a request under the lease it supplies for the resource. -/
structure Supplies (resource : Str) (supplied : J) (m : Move Sys Label) : Prop where
  label : ∃ req request, m.label = .enter req (.admitted request) ∧ request.get? "lease" = some supplied
  on : supplied.get? "resource" = some (.str resource)

/-- The resource has this lease, or none, and the lease keeps its bounds. -/
structure LeasedAs (s : Sys) (resource : Str) (o : Option Lease) : Prop where
  record : s.lease resource = leaseAt resource o
  pos : ∀ y, o = some y → 1 ≤ y.fence ∧ y.fence ≤ s.st.db.events.length
  expires : ∀ y, o = some y → -2 ^ 35 < y.expires ∧ y.expires < 2 ^ 35

def LeasesOk (s : Sys) : Prop := ∀ resource, ∃ o, LeasedAs s resource o

theorem LeasedAs.bounds {s : Sys} {resource : Str} {o : Option Lease} (h : LeasedAs s resource o)
    (hb : s.st.db.events.length < 2 ^ 63) (y : Lease) (hy : o = some y) : InBounds y := by
  have := h.pos y hy
  exact ⟨by omega, by omega, h.expires y hy⟩

section Step

variable {s t : Sys} {l : Label} {resource : Str}

theorem Step.leaseOp {op : Str} {req r : J} (h : Step E s (.enter req (.reply r)) t) (hop : isLease op = true)
    (hget : req.get? "op" = some (.str op)) : ∃ u, Still s.st u ∧ leaseOp E op req u = .ok r t.st := by
  have hnot : isQuery op = false ∧ mutation op = false := by
    simp only [isLease, Bool.or_eq_true, decide_eq_true_eq, or_assoc] at hop
    rcases hop with rfl | rfl | rfl <;> decide
  obtain ⟨u, hu, hc⟩ := h.own_op hget hnot.1 hnot.2
  rw [control_lease hop hget] at hc
  exact ⟨u, hu, hc⟩

/-- A lease operation that ran: refused, or done on the resource it names. -/
theorem LeasesOk.leaseOp (hs : LeasesOk s) (hb : s.st.db.events.length < 2 ^ 63) {op : Str} {req r : J} {u v : St}
    (hop : isLease op = true) (hu : Still s.st u) (h : leaseOp E op req u = .ok r v) :
    r.get? "ok" = some (.bool false) ∧ Still s.st v ∨
    ∃ resource owner o x, LeasedAs s resource o ∧ Leased E op req resource owner o x r u v := by
  have hstored : ∀ resource, ∃ o, u.db.get .lease resource = leaseAt resource o ∧ ∀ y, o = some y → InBounds y := by
    intro resource
    obtain ⟨o, ho⟩ := hs resource
    exact ⟨o, (hu.exec ..).trans ho.record, ho.bounds hb⟩
  rcases leaseOp_cases hop hstored h with ⟨hr, hst⟩ | ⟨resource, owner, o, x, ho, hx⟩
  · exact .inl ⟨hr, hu.trans hst⟩
  · obtain ⟨o', ho'⟩ := hs resource
    obtain rfl : o = o' := leaseAt_inj (ho.symm.trans ((hu.exec ..).trans ho'.record))
    exact .inr ⟨resource, owner, o, x, ho', hx⟩

/-- A step treats the lease of a resource in one of two ways: it leaves it alone and is no lease
operation that succeeds there, or it is one. -/
theorem Step.lease (hs : LeasesOk s) (hb : s.st.db.events.length < 2 ^ 63) (h : Step E s l t) (resource : Str) :
    t.lease resource = s.lease resource ∧ (∀ op req r, ¬ Leases op resource req r ⟨s, l, t⟩) ∨
    ∃ op req r owner o x u, Leases op resource req r ⟨s, l, t⟩ ∧ Still s.st u ∧ LeasedAs s resource o ∧
      Leased E op req resource owner o x r u t.st := by
  by_cases hm : ∃ op req r, Leases op resource req r ⟨s, l, t⟩
  · obtain ⟨op, req, r, hm⟩ := hm
    obtain rfl : l = .enter req (.reply r) := hm.label
    obtain ⟨u, hu, hrun⟩ := h.leaseOp hm.own hm.asked
    rcases hs.leaseOp hb hm.own hu hrun with ⟨hr, -⟩ | ⟨resource', owner, o, x, ho, hx⟩
    · rw [hm.ok] at hr
      cases hr
    · have hon := (required_ok hx.on).1
      rw [hm.on] at hon
      cases hon
      exact .inr ⟨op, req, r, owner, o, x, u, hm, hu, ho, hx⟩
  refine .inl ⟨?_, fun op req r hl => hm ⟨op, req, r, hl⟩⟩
  rcases h.controlled with ⟨req, r, u, K, hl, hu, hc⟩ | hframe
  swap
  · exact hframe.get _ _ (by decide)
  have hframe := hc.frame
  cases hc with
  | @lease op _ _ hop hget hrun =>
    have hop : isLease op = true := by simpa only [isLease, Bool.or_eq_true, decide_eq_true_eq, or_assoc] using hop
    rcases hs.leaseOp hb hop hu hrun with ⟨-, hst⟩ | ⟨resource', owner, o, x, -, hx⟩
    · exact hst.exec ..
    · have hok : r.get? "ok" = some (.bool true) := by simp [hx.reply, leaseReply]
      have hl : l = .enter req (.reply r) := by
        refine hl.resolve_right ?_
        rintro ⟨-, rfl⟩
        cases hok
      refine (hx.others resource ?_).trans (hu.exec ..)
      rintro rfl
      exact hm ⟨_, req, r, hl, hop, hget, (required_ok hx.on).1, hok⟩
  | _ => exact (hframe.get _ _ (by decide)).trans (hu.exec ..)

end Step

end A2ad.Control
