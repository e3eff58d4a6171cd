/-
Delegation only attenuates: the identity chain of every execution is a chain of distinct recorded
executions, each the parent of the next and each granting the next no more than it has; and every
ancestor holds a live grant at the moment a delegated execution is admitted.
-/
import A2ad.Control.System

namespace A2ad.Control

open Bytes Json

variable {E : Env} {s t : Sys} {l : Label} {tr : List (Move Sys Label)}

/-! ## Chains and effects of a record -/

def textOf : J → Option Str
  | .str s => some s
  | _ => none

def entryId (x : J) : Option Str := (x.get? "execution_id").bind textOf

/-- The ids of the identity chain of an execution, root first. -/
def chainIds (e : J) : List Str := ((e.get? "identity_chain").map J.elems).getD [] |>.filterMap entryId

/-- The effects recorded with an execution. -/
def effectsOf (e : J) : List Str := ((e.get? "effects").map J.elems).getD [] |>.filterMap textOf

theorem textOf_eq {j : J} {s : Str} : textOf j = some s ↔ j = .str s := by
  cases j <;> simp [textOf]

theorem entryId_eq {x : J} {id : Str} : entryId x = some id ↔ x.get? "execution_id" = some (.str id) := by
  simp [entryId, Option.bind_eq_some_iff, textOf_eq]

theorem chainIds_of {e : J} {xs : List J} (h : e.get? "identity_chain" = some (.arr xs)) :
    chainIds e = xs.filterMap entryId := by
  rw [chainIds, h]
  rfl

theorem effectsOf_setJson {e : J} {set : List Str} (h : e.get? "effects" = some (setJson set)) : effectsOf e = set := by
  rw [effectsOf, h]
  show (set.map J.str).filterMap textOf = set
  rw [List.filterMap_map]
  exact List.filterMap_some

theorem addEffect_ok {out out' : List Str} {e : J} (h : addEffect out e = .ok out') :
    ∃ name, e = .str name ∧ out' = insertEffect name out := by
  unfold addEffect at h
  obtain ⟨name, hname, h⟩ := Tx.except_bind_ok h
  split at h
  · exact ⟨name, J.asStr_ok.1 hname, (Except.ok.inj h).symm⟩
  · cases h

/-- The loop of `effectSet` collects the names it reads. -/
theorem addEffects_ok {xs : List J} {acc out : List Str} (h : xs.foldlM addEffect acc = .ok out) (name : Str) :
    name ∈ out ↔ name ∈ acc ∨ name ∈ xs.filterMap textOf := by
  induction xs generalizing acc with
  | nil =>
    cases h
    simp
  | cons x rest ih =>
    rw [List.foldlM_cons] at h
    obtain ⟨acc', hx, h⟩ := Tx.except_bind_ok h
    obtain ⟨n, rfl, rfl⟩ := addEffect_ok hx
    rw [ih h, mem_insertEffect]
    simp only [List.filterMap_cons, textOf, List.mem_cons]
    tauto

theorem effectSet_ok {e eff : J} {out : List Str} (he : e.get? "effects" = some eff) (h : effectSet eff = .ok out) (name : Str) :
    name ∈ out ↔ name ∈ effectsOf e := by
  cases eff with
  | arr xs =>
    rw [addEffects_ok h, effectsOf, he]
    simp [J.elems]
  | _ => cases h

/-! ## The invariant -/

/-- The chain of the execution `e` of `id` runs over recorded executions, attenuating at each link. -/
structure Attenuates (s : Sys) (id : Str) (e : J) : Prop where
  formed : ∃ xs, e.get? "identity_chain" = some (.arr xs) ∧ xs.length = (chainIds e).length
  length : (chainIds e).length ≤ 16
  last : (chainIds e).getLast? = some id
  distinct : (chainIds e).Nodup
  links : ∀ i a, (chainIds e)[i]? = some a → s.exec a ≠ .null ∧ chainIds (s.exec a) = (chainIds e).take (i + 1)
  steps : ∀ i a b, (chainIds e)[i]? = some a → (chainIds e)[i + 1]? = some b →
    (s.exec b).get? "parent_execution_id" = some (.str a) ∧ lit "DELEGATE" ∈ effectsOf (s.exec a) ∧
      effectsOf (s.exec b) ⊆ effectsOf (s.exec a)

/-- The fields of an execution that delegation rests on. -/
structure SameGrant (e e' : J) : Prop where
  chain : e'.get? "identity_chain" = e.get? "identity_chain"
  effects : e'.get? "effects" = e.get? "effects"
  parent : e'.get? "parent_execution_id" = e.get? "parent_execution_id"

theorem SameGrant.chainIds {e e' : J} (h : SameGrant e e') : chainIds e' = chainIds e := by
  rw [Control.chainIds, h.chain, Control.chainIds]

theorem SameGrant.effectsOf {e e' : J} (h : SameGrant e e') : effectsOf e' = effectsOf e := by
  rw [Control.effectsOf, h.effects, Control.effectsOf]

theorem Settles.sameGrant {e e' : J} (h : Settles e e') : SameGrant e e' :=
  ⟨h.kept _ (by decide), h.kept _ (by decide), h.kept _ (by decide)⟩

/-- No step changes what a recorded execution has been granted. -/
theorem Safe.grant_step (hs : Safe s) (h : Step E s l t) {id : Str} (hne : s.exec id ≠ .null) :
    SameGrant (s.exec id) (t.exec id) := by
  cases hs.exec_step h id with
  | same he => rw [he]; exact ⟨rfl, rfl, rfl⟩
  | admitted _ _ hst ha hg => exact absurd (by rw [← hg]; exact (hst.exec ..).symm.trans ha.fresh) hne
  | finished _ _ _ _ hfin => exact hfin.settles.sameGrant
  | recovered _ he hid _ hset =>
    subst he
    obtain rfl := hs.recovered_id hid
    exact hset.sameGrant

theorem Attenuates.mono {id : Str} {e e' : J} (h : Attenuates s id e) (he : SameGrant e e')
    (hst : ∀ a, s.exec a ≠ .null → t.exec a ≠ .null ∧ SameGrant (s.exec a) (t.exec a)) : Attenuates t id e' := by
  have hids := he.chainIds
  obtain ⟨xs, hxs, hlen⟩ := h.formed
  refine ⟨⟨xs, he.chain.trans hxs, by rw [hids]; exact hlen⟩, hids ▸ h.length, hids ▸ h.last, hids ▸ h.distinct,
    fun i a ha => ?_, fun i a b ha hb => ?_⟩
  · rw [hids] at ha ⊢
    obtain ⟨hne, hchain⟩ := h.links i a ha
    obtain ⟨hne', hsame⟩ := hst a hne
    exact ⟨hne', hsame.chainIds.trans hchain⟩
  · rw [hids] at ha hb
    have hsa := (hst a (h.links i a ha).1).2
    have hsb := (hst b (h.links (i + 1) b hb).1).2
    rw [hsa.effectsOf, hsb.effectsOf, hsb.parent]
    exact h.steps i a b ha hb

/-! ## Admissions -/

/-- The fields of a freshly admitted execution. -/
structure Fresh (g : Grant) (e : J) : Prop where
  chain : e.get? "identity_chain" = some g.chain
  effects : effectsOf e = g.effects
  parent : e.get? "parent_execution_id" = some (.str g.parentId)

theorem Admission.freshRecord {enforce : Bool} {r : J} {g : Grant} {u v w x : St} (h : Admission E enforce r g u v w x) :
    Fresh g (x.db.get .execution g.id) := by
  obtain ⟨started, deadline, taskId, hc⟩ := h.created
  rw [hc]
  refine ⟨by simp [Grant.execution], effectsOf_setJson (by simp [Grant.execution]), by simp [Grant.execution]⟩

theorem entryId_entry (agent id : Str) :
    entryId (.object [("agent", .str agent), ("execution_id", .str id)]) = some id := by
  simp [entryId_eq]

theorem attenuates_root {g : Grant} {e : J} (he : Fresh g e) (ht : t.exec g.id = e) (hne : e ≠ .null)
    (hc : g.chain = .arr [.object [("agent", .str g.agent), ("execution_id", .str g.id)]]) : Attenuates t g.id e := by
  have hchain := he.chain
  rw [hc] at hchain
  have hids : chainIds e = [g.id] := by
    rw [chainIds_of hchain]
    simp [entryId_entry]
  refine ⟨⟨_, hchain, by rw [hids]; rfl⟩, by simp [hids], by simp [hids], by simp [hids],
    fun i a ha => ?_, fun i a b _ hb => ?_⟩
  · rw [hids] at ha ⊢
    obtain ⟨rfl, rfl⟩ : i = 0 ∧ a = g.id := by
      cases i with
      | zero => simpa using ha.symm
      | succ i => simp at ha
    exact ⟨by rwa [ht], by rw [ht, hids]; rfl⟩
  · rw [hids] at hb
    simp at hb

/-- A child extends the chain of its parent by itself. -/
theorem attenuates_child {g : Grant} {e : J} {xs : List J} (he : Fresh g e) (ht : t.exec g.id = e) (hne : e ≠ .null)
    (hp : Attenuates t g.parentId (t.exec g.parentId))
    (hinherited : (t.exec g.parentId).get? "identity_chain" = some (.arr xs)) (hdepth : xs.length < 16)
    (hdelegate : lit "DELEGATE" ∈ effectsOf (t.exec g.parentId)) (hsub : g.effects ⊆ effectsOf (t.exec g.parentId))
    (hfresh : ∀ a ∈ chainIds (t.exec g.parentId), a ≠ g.id)
    (hc : g.chain = .arr (xs ++ [.object [("agent", .str g.agent), ("execution_id", .str g.id)]])) : Attenuates t g.id e := by
  have hchain := he.chain
  rw [hc] at hchain
  have hids : chainIds e = chainIds (t.exec g.parentId) ++ [g.id] := by
    rw [chainIds_of hchain, chainIds_of hinherited]
    simp [entryId_entry]
  generalize hL : chainIds (t.exec g.parentId) = L at hids hfresh
  obtain ⟨ys, hys, hlen⟩ := hp.formed
  rw [hinherited] at hys
  obtain rfl : xs = ys := by simpa using hys
  rw [hL] at hlen
  refine ⟨⟨_, hchain, by simp [hids, hlen]⟩, by simp [hids]; omega, by simp [hids], ?_, fun i a ha => ?_, fun i a b ha hb => ?_⟩
  · rw [hids, List.nodup_append_comm]
    exact List.nodup_cons.2 ⟨fun hm => hfresh _ hm rfl, hL ▸ hp.distinct⟩
  · rw [hids] at ha ⊢
    rcases Nat.lt_or_ge i L.length with hi | hi
    · rw [List.getElem?_append_left hi] at ha
      obtain ⟨hne, hlink⟩ := hp.links i a (hL ▸ ha)
      refine ⟨hne, ?_⟩
      rw [hlink, hL, List.take_append_of_le_length (by omega)]
    · rw [List.getElem?_append_right hi] at ha
      obtain ⟨hi', rfl⟩ : i - L.length = 0 ∧ a = g.id := by
        cases hk : i - L.length with
        | zero => rw [hk] at ha; simpa using ha.symm
        | succ k => rw [hk] at ha; simp at ha
      refine ⟨by rwa [ht], ?_⟩
      rw [ht, hids, List.take_of_length_le (by simp; omega)]
  · rw [hids] at ha hb
    rcases Nat.lt_or_ge (i + 1) L.length with hi | hi
    · rw [List.getElem?_append_left hi] at hb
      rw [List.getElem?_append_left (by omega)] at ha
      exact hp.steps i a b (hL ▸ ha) (hL ▸ hb)
    · rw [List.getElem?_append_right hi] at hb
      obtain ⟨hi', rfl⟩ : i + 1 - L.length = 0 ∧ b = g.id := by
        cases hk : i + 1 - L.length with
        | zero => rw [hk] at hb; simpa using hb.symm
        | succ k => rw [hk] at hb; simp at hb
      -- the last of the parent's chain is the parent itself
      have hlast := hp.last
      rw [hL, List.getLast?_eq_getElem?] at hlast
      rw [List.getElem?_append_left (by omega), show i = L.length - 1 by omega, hlast] at ha
      obtain rfl : g.parentId = a := by simpa using ha
      rw [ht]
      exact ⟨he.parent, hdelegate, by rw [he.effects]; exact hsub⟩

/-- What an admission under the parent `g.parentId` has found: the chain it extends, the effects it
stays within, and a live grant of every ancestor. -/
structure Inherits (E : Env) (g : Grant) (xs : List J) (s t : Sys) : Prop where
  parent : s.exec g.parentId ≠ .null
  inherited : (s.exec g.parentId).get? "identity_chain" = some (.arr xs)
  depth : xs.length < 16
  delegate : lit "DELEGATE" ∈ effectsOf (s.exec g.parentId)
  within : g.effects ⊆ effectsOf (s.exec g.parentId)
  chain : g.chain = .arr (xs ++ [.object [("agent", .str g.agent), ("execution_id", .str g.id)]])
  live : ∀ a ∈ xs.filterMap entryId, ∃ n, s.st.tick ≤ n ∧ n < t.st.tick ∧ Live E (s.grant a) n

theorem inherits_of_admission (hA : ∀ id, s.exec id ≠ .null → Attenuates s id (s.exec id)) {r : J} {g : Grant} {u v w : St}
    (hst : Still s.st u) (ha : Admission E s.enforce r g u v w t.st) :
    g.chain = .arr [.object [("agent", .str g.agent), ("execution_id", .str g.id)]] ∨ ∃ xs, Inherits E g xs s t := by
  obtain ⟨t₁, t₂, chain, h₁, h₂, hdel, hpush⟩ := ha.reviewed.delegation
  have hstill : Still s.st t₁ := hst.trans h₁
  rcases hdel with ⟨-, rfl⟩ | ⟨-, hdel⟩
  · rcases J.pushBack_ok hpush with ⟨xs, hxs, hg⟩ | ⟨hnull, -⟩
    · cases hxs
      exact .inl hg
    · cases hnull
  · have hexec : t₁.db.get .execution g.parentId = s.exec g.parentId := hstill.exec ..
    have hparent := hexec ▸ hdel.parent
    have hinherited := hexec ▸ hdel.inherited
    obtain ⟨xs, hxs, -⟩ := (hA _ hparent).formed
    obtain rfl : chain = .arr xs := by simpa using hinherited.symm.trans hxs
    obtain ⟨eff, allowed, heff, hallowed, hdelegate, hsub⟩ := hdel.effects
    rw [hexec] at heff
    have hmem := effectSet_ok heff hallowed
    refine .inr ⟨xs, hparent, hxs, hdel.depth, (hmem _).1 hdelegate, fun x hx => (hmem x).1 (hsub hx), ?_, fun a hx => ?_⟩
    · rcases J.pushBack_ok hpush with ⟨ys, hys, hg⟩ | ⟨hnull, -⟩
      · cases hys
        exact hg
      · cases hnull
    · obtain ⟨x, hx, hid⟩ := List.mem_filterMap.1 hx
      obtain ⟨id, n, hid', hm, hn, hlive⟩ := hdel.live x hx
      obtain rfl : a = id := by simpa using (entryId_eq.1 hid).symm.trans hid'
      have hlast : t₂.tick ≤ t.st.tick := by
        have hrec := ha.recorded.tick
        have happ := ha.approved
        have h₃ := h₂.tick
        split at happ
        · rw [happ.post] at hrec
          simp only at hrec
          omega
        · rw [happ] at hrec
          omega
      have hgrant : t₁.db.get .approval a = s.grant a := hstill.exec ..
      exact ⟨n, hstill.tick.trans hm, by omega, hgrant ▸ hlive⟩

theorem attenuates_step (hs : Safe s) (hA : ∀ id, s.exec id ≠ .null → Attenuates s id (s.exec id)) (h : Step E s l t)
    (id : Str) (hne : t.exec id ≠ .null) : Attenuates t id (t.exec id) := by
  have hkeep : ∀ a, s.exec a ≠ .null → t.exec a ≠ .null ∧ SameGrant (s.exec a) (t.exec a) :=
    fun a ha => ⟨hs.exec_ne_null h ha, hs.grant_step h ha⟩
  by_cases hold : s.exec id = .null
  swap
  · exact (hA id hold).mono (hkeep id hold).2 hkeep
  cases hs.exec_step h id with
  | same he => exact absurd (he.trans hold) hne
  | finished _ hid hf =>
    have hdisp := (hs.flight_exec hf hid).1
    rw [hold] at hdisp
    cases hdisp
  | recovered _ he hid =>
    subst he
    obtain rfl := hs.recovered_id hid
    rw [hold] at hid
    cases hid
  | @admitted _ _ g _ _ _ _ _ hst ha hg =>
    subst hg
    have hfresh : Fresh g (t.exec g.id) := ha.freshRecord
    rcases inherits_of_admission hA hst ha with hroot | ⟨xs, hin⟩
    · exact attenuates_root hfresh rfl hne hroot
    · obtain ⟨hne', hsame⟩ := hkeep _ hin.parent
      have hparent := hA _ hin.parent
      refine attenuates_child hfresh rfl hne (hparent.mono hsame hkeep) (hsame.chain.trans hin.inherited) hin.depth
        (by rw [hsame.effectsOf]; exact hin.delegate) (by rw [hsame.effectsOf]; exact hin.within) (fun a ha' => ?_) hin.chain
      rintro rfl
      rw [hsame.chainIds] at ha'
      obtain ⟨i, hi⟩ := List.getElem?_of_mem ha'
      exact (hparent.links i _ hi).1 hold

theorem attenuates_run (h : Run (Step E) Sys.init tr s) (id : Str) (hne : s.exec id ≠ .null) : Attenuates s id (s.exec id) :=
  h.invariant_of (I := fun _ s => ∀ id, s.exec id ≠ .null → Attenuates s id (s.exec id)) (fun _ h => absurd rfl h)
    (fun _ _ _ _ hr hA hstep => attenuates_step (safe_run hr) hA hstep) id hne

/-- Along a chain the effects only shrink. -/
theorem Attenuates.effects_subset {id : Str} {e : J} (h : Attenuates s id e) {i j : Nat} (hij : i ≤ j) {a b : Str}
    (ha : (chainIds e)[i]? = some a) (hb : (chainIds e)[j]? = some b) : effectsOf (s.exec b) ⊆ effectsOf (s.exec a) := by
  induction j, hij using Nat.le_induction generalizing b with
  | base =>
    rw [ha] at hb
    cases hb
    exact List.Subset.refl _
  | succ j hij ih =>
    have hlt : j < (chainIds e).length := by
      have := (List.getElem?_eq_some_iff.1 hb).1
      omega
    have hj := List.getElem?_eq_getElem hlt
    exact List.Subset.trans (h.steps j _ b hj hb).2.2 (ih hj)

/-- **Delegation only attenuates.** In every reachable state the identity chain of every execution has
at most 16 ids, ends in the execution itself, names distinct recorded executions whose own chains
are its prefixes, each the recorded parent of the next and holding `DELEGATE`, with effects that
shrink along the chain; and whenever an execution is admitted, the approval of each of its proper
ancestors is granted and has not run out at a reading of the clock taken in that admission. -/
theorem delegation_attenuates (E : Env) {tr : List (Move Sys Label)} {s : Sys} (h : Run (Step E) Sys.init tr s) :
    (∀ id, s.exec id ≠ .null → Attenuates s id (s.exec id) ∧
      ∀ a ∈ chainIds (s.exec id), effectsOf (s.exec id) ⊆ effectsOf (s.exec a)) ∧
    ∀ m ∈ tr, ∀ req r, m.label = .enter req (.admitted r) → ∃ id, r.get? "request_id" = some (.str id) ∧
      m.post.exec id ≠ .null ∧ ∀ a ∈ (chainIds (m.post.exec id)).dropLast,
        ∃ n, m.pre.st.tick ≤ n ∧ n < m.post.st.tick ∧ Live E (m.pre.grant a) n := by
  constructor
  · intro id hne
    have hA := attenuates_run h id hne
    refine ⟨hA, fun a ha => ?_⟩
    obtain ⟨i, hi⟩ := List.getElem?_of_mem ha
    have hlast := hA.last
    rw [List.getLast?_eq_getElem?] at hlast
    have hlt := (List.getElem?_eq_some_iff.1 hi).1
    exact hA.effects_subset (by omega) hi hlast
  · intro m hm req r hl
    obtain ⟨a₁, a₂, rfl⟩ := List.append_of_mem hm
    obtain ⟨hpre, hstep, -⟩ := h.split
    rw [hl] at hstep
    have hs := safe_run hpre
    obtain ⟨g, u, v, w, -, hst, ha⟩ := hs.admission hstep
    have hne : m.post.exec g.id ≠ .null := J.ne_null_of_get? ha.dispatching
    refine ⟨g.id, (required_ok ha.id).1, hne, fun a hmem => ?_⟩
    have hfresh : Fresh g (m.post.exec g.id) := ha.freshRecord
    have hchain := hfresh.chain
    rcases inherits_of_admission (attenuates_run hpre) hst ha with hroot | ⟨xs, hin⟩
    · rw [hroot] at hchain
      rw [chainIds_of hchain] at hmem
      simp [entryId_entry] at hmem
    · rw [hin.chain] at hchain
      rw [chainIds_of hchain] at hmem
      simp only [List.filterMap_append, List.filterMap_cons, entryId_entry, List.filterMap_nil, List.dropLast_concat] at hmem
      exact hin.live a hmem

set_option maxRecDepth 10000 in
theorem delegation_attenuates_sample : chainIds (sampleEnd.exec "c") = ["p", "c"] ∧
    Attenuates sampleEnd "c" (sampleEnd.exec "c") :=
  ⟨rfl, ((delegation_attenuates sampleEnv sample_run).1 "c" (by rw [show sampleEnd.exec "c" = .obj _ from rfl]; nofun)).1⟩

end A2ad.Control
