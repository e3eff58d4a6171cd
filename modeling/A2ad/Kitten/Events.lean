/-
What the kittens print of their channel: as long as kittens alone acknowledge it, whatever the cursor has
got past has been printed, by each kitten in order, and a kitten that returns has left nothing out.
-/
import A2ad.Kitten.Viewing

namespace A2ad.Kitten

open Bytes Json Control

namespace Viewing

/-! ## What has been printed -/

/-- The events of the log from `a₀` up to `m` have been printed, by whomever. -/
def Upto (s : Viewing) (a₀ m : Int) : Prop :=
  ∀ (n : Nat) (e : Event), s.daemon.st.db.events[n]? = some e → a₀ < n + 1 → (n + 1 : Int) ≤ m →
    ∃ i, (i, eventRow (e, n + 1)) ∈ s.shown

/-- The page holds rows that follow `c` in the log, and of these the kitten `i` has printed `gone`. -/
structure Backing (s : Viewing) (a₀ : Int) (i since : Nat) (page : J) (left : List J) (c : Int) (limit : Nat)
    (gone rest : List (Event × Nat)) : Prop where
  reply : page = readReply (gone ++ rest) c limit
  left : left = rest.map eventRow
  start : a₀ ≤ c
  nonneg : 0 ≤ c
  rows : ∀ (j q : Nat) (e : Event), (gone ++ rest)[j]? = some (e, q) → q = c.toNat + j + 1 ∧ s.daemon.st.db.events[c.toNat + j]? = some e
  within : c + (gone ++ rest).length ≤ max a₀ s.daemon.st.db.events.length
  printed : s.Upto a₀ (c + gone.length)
  own : ∀ e q, (i, eventRow (e, q)) ∈ s.shown → (q : Int) ≤ c + gone.length
  full : (gone ++ rest).length ≠ limit → (since : Int) ≤ c + (gone ++ rest).length

def Backed (s : Viewing) (a₀ : Int) (i since : Nat) (page : J) (left : List J) : Prop :=
  ∃ c limit gone rest, Backing s a₀ i since page left c limit gone rest

end Viewing

/-! ## What a kitten is at -/

/-- The pages that a kitten has in hand, with what is left of them to print. -/
def State.pages : State → List (J × List J)
  | .asks (.acks page) => [(page, [])]
  | .prints left page => [(page, left)]
  | _ => []

def Wire.pages : Wire → List (J × List J)
  | .sent (.acks page) | .replied (.acks page) _ => [(page, [])]
  | .replied .reads r =>
    if holds r "ok" then
      match r.get? "events" with
      | some (.arr events) => [(r, events)]
      | _ => []
    else []
  | _ => []

/-- What the kitten has printed has been acknowledged. -/
def State.settled : State → Bool
  | .asks .reads => true
  | _ => false

def Wire.settled : Wire → Bool
  | .sent .reads => true
  | .replied (.acks _) r => holds r "ok"
  | _ => false

/-- The kitten has printed nothing yet. -/
def State.opening : State → Bool
  | .asks .opens => true
  | _ => false

def Wire.opening : Wire → Bool
  | .sent .opens | .replied .opens _ => true
  | _ => false

/-- A kitten that goes on by itself has no connection. -/
def Viewer.Calm (k : Viewer) : Prop := k.wire = .idle ∨ k.state = .waits ∨ k.state = .dead

theorem Viewer.Calm.replied {k : Viewer} {a : Ask} {r : J} (h : k.Calm) (hwire : k.wire = .sent a) :
    Viewer.Calm { k with wire := .replied a r } := by
  unfold Viewer.Calm at h
  rw [hwire] at h
  exact .inr (h.resolve_left nofun)

/-- While it prints or is done the connection is closed. -/
theorem Viewer.Calm.closed {k : Viewer} (h : k.Calm) (hwaits : k.state ≠ .waits) (hdead : k.state ≠ .dead) : k.wire = .idle := by
  rcases h with h | h | h
  · exact h
  · exact absurd h hwaits
  · exact absurd h hdead

namespace Viewing

/-- What is known of the kitten `i` while the cursor of its channel is `c`. -/
structure Fine (s : Viewing) (a₀ c : Int) (i : Nat) (k : Viewer) : Prop where
  pages : ∀ p ∈ k.state.pages ++ k.wire.pages, Backed s a₀ i k.since p.1 p.2
  settled : k.state.settled || k.wire.settled → ∀ e q, (i, eventRow (e, q)) ∈ s.shown → (q : Int) ≤ c
  opening : k.state.opening || k.wire.opening → ∀ x ∈ s.shown, x.1 ≠ i
  done : k.state = .done → s.Upto a₀ k.since
  since : k.since ≤ s.daemon.st.db.events.length
  calm : k.Calm

/-- The channel stands between `a₀` and the end of the log. -/
structure Open (s : Sys) (ch : Str) (a₀ c d : Int) : Prop where
  record : s.channel ch = channelRecord ch c d
  order : InOrder c d
  start : a₀ ≤ c
  reached : d ≤ max a₀ s.st.db.events.length

/-- What the kittens have printed of the channel, whose cursor is `c`. -/
structure Kept (s : Viewing) (a₀ c : Int) : Prop where
  printed : s.Upto a₀ c
  fine : ∀ i k, s.viewers i = some k → s.Fine a₀ c i k
  genuine : ∀ x ∈ s.shown, ∃ (n : Nat) (e : Event), s.daemon.st.db.events[n]? = some e ∧ a₀ < n + 1 ∧ x.2 = eventRow (e, n + 1)
  owned : ∀ x ∈ s.shown, s.viewers x.1 ≠ none
  ordered : ∀ i, (s.shown.filter fun x => x.1 = i).Pairwise fun x y =>
    ∀ e q e' q', x.2 = eventRow (e, q) → y.2 = eventRow (e', q') → q < q'

/-! ## What stays -/

section Over

variable {E : Env} {ch : Str} {s t : Viewing} {a₀ c d m : Int} {i : Nat} {k : Viewer}

/-- Events are only added to the log, and nothing is taken back that has been printed. -/
structure Over (s t : Viewing) : Prop where
  log : s.daemon.st.db.events <+: t.daemon.st.db.events
  shown : ∀ x ∈ s.shown, x ∈ t.shown

theorem Over.length (h : Over s t) : s.daemon.st.db.events.length ≤ t.daemon.st.db.events.length := h.log.length_le

theorem Over.event (h : Over s t) {n : Nat} {e : Event} (hn : s.daemon.st.db.events[n]? = some e) :
    t.daemon.st.db.events[n]? = some e := by
  obtain ⟨new, hnew⟩ := h.log
  rw [← hnew, List.getElem?_append_left (List.getElem?_eq_some_iff.1 hn).1]
  exact hn

theorem Over.event_back (h : Over s t) {n : Nat} {e : Event} (hn : t.daemon.st.db.events[n]? = some e)
    (hlt : n < s.daemon.st.db.events.length) : s.daemon.st.db.events[n]? = some e := by
  obtain ⟨new, hnew⟩ := h.log
  rwa [← hnew, List.getElem?_append_left hlt] at hn

theorem Upto.over (hu : s.Upto a₀ m) (h : Over s t) (hm : m ≤ max a₀ s.daemon.st.db.events.length) : t.Upto a₀ m := by
  intro n e hn hlt hle
  obtain ⟨i, hi⟩ := hu n e (h.event_back hn (by omega)) hlt hle
  exact ⟨i, h.shown _ hi⟩

/-- A kitten that prints nothing has the same page in hand. -/
theorem Backed.over {since : Nat} {page : J} {left : List J} (hb : s.Backed a₀ i since page left) (h : Over s t)
    (hown : ∀ x ∈ t.shown, x.1 = i → x ∈ s.shown) : t.Backed a₀ i since page left := by
  obtain ⟨c, limit, gone, rest, hb⟩ := hb
  have hlength := h.length
  have hwithin := hb.within
  have hgone : (gone ++ rest).length = gone.length + rest.length := List.length_append
  refine ⟨c, limit, gone, rest, hb.reply, hb.left, hb.start, hb.nonneg, fun j q e hj => ?_, by omega,
    hb.printed.over h (by omega), fun e q hq => hb.own e q (hown _ hq rfl), hb.full⟩
  obtain ⟨hq, he⟩ := hb.rows j q e hj
  exact ⟨hq, h.event he⟩

theorem Fine.over {c' : Int} (hf : s.Fine a₀ c i k) (h : Over s t) (hc : c ≤ c') (hown : ∀ x ∈ t.shown, x.1 = i → x ∈ s.shown) :
    t.Fine a₀ c' i k where
  pages p hp := (hf.pages p hp).over h hown
  settled hs e q hq := (hf.settled hs e q (hown _ hq rfl)).trans hc
  opening ho x hx hi := hf.opening ho x (hown x hx hi) hi
  done hd := (hf.done hd).over h (by have := hf.since; omega)
  since := hf.since.trans h.length
  calm := hf.calm

/-- The daemon takes a step, and the kittens do nothing. -/
theorem Kept.served {c' : Int} {u : Sys} (hk : s.Kept a₀ c) (hgrows : s.daemon.st.db.events <+: u.st.db.events) (hc : c ≤ c')
    (hprinted : Upto { s with daemon := u } a₀ c') : Kept { s with daemon := u } a₀ c' := by
  have hover : Over s { s with daemon := u } := ⟨hgrows, fun _ hx => hx⟩
  refine ⟨hprinted, fun i k hi => (hk.fine i k hi).over hover hc fun _ hx _ => hx, fun x hx => ?_, hk.owned, hk.ordered⟩
  obtain ⟨n, e, hn, hlt, hrow⟩ := hk.genuine x hx
  exact ⟨n, e, hover.event hn, hlt, hrow⟩

/-- A kitten changes, and prints nothing. -/
theorem Kept.put (hk : s.Kept a₀ c) (hf : s.Fine a₀ c i k) : (s.put i k).Kept a₀ c := by
  have hover : Over s (s.put i k) := ⟨List.prefix_rfl, fun _ hx => hx⟩
  refine ⟨hk.printed, fun j k' hj => ?_, hk.genuine, fun x hx => ?_, hk.ordered⟩
  · replace hj : Function.update s.viewers i (some k) j = some k' := hj
    rw [Function.update_apply] at hj
    split at hj
    · rename_i hji
      cases hj
      rw [hji]
      exact hf.over hover le_rfl fun _ hx _ => hx
    · exact (hk.fine j k' hj).over hover le_rfl fun _ hx _ => hx
  · show Function.update s.viewers i (some k) x.1 ≠ none
    rw [Function.update_apply]
    split
    · nofun
    · exact hk.owned x hx

end Over

/-! ## What a kitten does -/

section Kittens

variable {E : Env} {ch : Str} {s t : Viewing} {a₀ c d m : Int} {i : Nat} {k : Viewer}

theorem Fine.left (hf : s.Fine a₀ c i k) {p : J × List J} (hp : p ∈ k.state.pages) : Backed s a₀ i k.since p.1 p.2 :=
  hf.pages p (List.mem_append_left _ hp)

theorem Fine.right (hf : s.Fine a₀ c i k) {p : J × List J} (hp : p ∈ k.wire.pages) : Backed s a₀ i k.since p.1 p.2 :=
  hf.pages p (List.mem_append_right _ hp)

/-- A kitten that has died, on whatever connection of its own. -/
theorem Fine.dead {w : Wire} (hf : s.Fine a₀ c i k) (hw : w = k.wire ∨ w = .idle) : s.Fine a₀ c i { k with state := .dead, wire := w } := by
  rcases hw with rfl | rfl
  · exact ⟨fun p hp => hf.right hp, fun hs => hf.settled (by simpa [State.settled] using .inr hs),
      fun ho => hf.opening (by simpa [State.opening] using .inr ho), nofun, hf.since, .inr (.inr rfl)⟩
  · exact ⟨nofun, nofun, nofun, nofun, hf.since, .inl rfl⟩

/-- A request goes out. -/
theorem Fine.sends {a : Ask} (hf : s.Fine a₀ c i k) (hstate : k.state = .asks a) :
    s.Fine a₀ c i { k with state := .waits, wire := .sent a } := by
  refine ⟨fun p hp => hf.left ?_, fun hs => hf.settled ?_, fun ho => hf.opening ?_, nofun, hf.since, .inr (.inl rfl)⟩
  · rw [hstate]
    cases a <;> exact hp
  · rw [hstate]
    cases a <;> simp_all [State.settled, Wire.settled]
  · rw [hstate]
    cases a <;> simp_all [State.opening, Wire.opening]

theorem holds_more {rows : List (Event × Nat)} {limit : Nat} {c : Int} :
    holds (readReply rows c limit) "may_have_more" = decide (rows.length = limit) := by
  simp [holds, readReply, truthy]

/-- A page of which nothing is left has been printed; if it was not full, everything that was there has been. -/
theorem Backed.printed {since : Nat} {page : J} (hb : s.Backed a₀ i since page []) (hmore : holds page "may_have_more" = false) :
    s.Upto a₀ since := by
  obtain ⟨c', limit, gone, rest, hb⟩ := hb
  obtain rfl : rest = [] := List.map_eq_nil_iff.1 hb.left.symm
  rw [hb.reply, holds_more, decide_eq_false_iff_not] at hmore
  have hfull := hb.full hmore
  rw [List.append_nil] at hfull
  intro n e hn hlt hle
  exact hb.printed n e hn hlt (by omega)

/-- A reply comes in. -/
theorem Fine.hears {a : Ask} {r : J} (hf : s.Fine a₀ c i k) (hwire : k.wire = .replied a r) :
    s.Fine a₀ c i { k with state := k.after a r, wire := .idle } := by
  have hdead : s.Fine a₀ c i { k with state := .dead, wire := .idle } := hf.dead (.inr rfl)
  have hopening := hf.opening
  have hsettled := hf.settled
  have hpages : ∀ p ∈ k.wire.pages, Backed s a₀ i k.since p.1 p.2 := fun p hp => hf.right hp
  rw [hwire] at hopening hsettled hpages
  unfold Viewer.after
  cases a with
  | opens =>
    simp only
    split
    · exact ⟨nofun, fun _ e q hq => absurd rfl (hopening (by simp [Wire.opening]) _ hq), nofun, nofun, hf.since, .inl rfl⟩
    · exact hdead
  | reads =>
    simp only
    split
    swap
    · exact hdead
    rename_i hok
    cases hevents : r.get? "events" with
    | none => exact hdead
    | some v =>
      cases v with
      | arr events =>
        refine ⟨fun p hp => hpages p ?_, nofun, nofun, nofun, hf.since, .inl rfl⟩
        unfold Wire.pages
        simp only [hok, hevents, if_true]
        exact (List.mem_append.1 hp).resolve_right nofun
      | _ => exact hdead
  | acks page =>
    have hbacked : Backed s a₀ i k.since page [] := hpages (page, []) (List.mem_singleton_self _)
    simp only
    split
    swap
    · exact hdead
    rename_i hok
    split
    · exact ⟨nofun, fun _ => hsettled (by simpa [Wire.settled] using .inr hok), nofun, nofun, hf.since, .inl rfl⟩
    · rename_i hmore
      have hmore : holds page "may_have_more" = false := by simp_all
      exact ⟨nofun, nofun, nofun, fun _ => hbacked.printed hmore, hf.since, .inl rfl⟩

/-- A page has been printed. -/
theorem Fine.acknowledges {page : J} (hf : s.Fine a₀ c i k) (hstate : k.state = .prints [] page) :
    s.Fine a₀ c i { k with state := acknowledges page } := by
  have hidle : k.wire = .idle := hf.calm.closed (by rw [hstate]; nofun) (by rw [hstate]; nofun)
  have hbacked : Backed s a₀ i k.since page [] := hf.left (p := (page, [])) (by rw [hstate]; exact List.mem_singleton_self _)
  unfold Kitten.acknowledges
  split
  · refine ⟨fun p hp => ?_, by simp [hidle, State.settled, Wire.settled], by simp [hidle, State.opening, Wire.opening], nofun,
      hf.since, .inl hidle⟩
    rw [hidle] at hp
    obtain rfl : p = (page, []) := by simpa [State.pages, Wire.pages] using hp
    exact hbacked
  · exact hf.dead (.inl rfl)

theorem eventRow_seq {a b : Event × Nat} (h : eventRow a = eventRow b) : a.2 = b.2 := by
  have hseq := congrArg (fun j => j.get? "sequence") h
  simp only [eventRow, J.get?_object, J.find_cons, lit_inj, String.reduceEq, if_true, if_false] at hseq
  exact Int.ofNat.inj (J.int.inj (Option.some.inj hseq))

/-- The next event of a page in hand is the next of the log. -/
theorem Backed.next {since : Nat} {page e : J} {left : List J} (hb : s.Backed a₀ i since page (e :: left)) :
    ∃ (n : Nat) (ev : Event), e = eventRow (ev, n + 1) ∧ s.daemon.st.db.events[n]? = some ev ∧ a₀ ≤ n ∧
      (∀ ev' q, (i, eventRow (ev', q)) ∈ s.shown → q ≤ n) ∧
      Backed { s with shown := s.shown ++ [(i, e)] } a₀ i since page left := by
  obtain ⟨c', limit, gone, rest, hb⟩ := hb
  obtain ⟨⟨ev, q⟩, rest, rfl, he, hleft⟩ := List.map_eq_cons_iff.1 hb.left.symm
  have hlast : (gone ++ (ev, q) :: rest)[gone.length]? = some (ev, q) := by simp
  obtain ⟨rfl, hev⟩ := hb.rows _ _ _ hlast
  have hstart := hb.start
  have hnonneg := hb.nonneg
  have happend : gone ++ (ev, c'.toNat + gone.length + 1) :: rest = (gone ++ [(ev, c'.toNat + gone.length + 1)]) ++ rest := by simp
  have hlength : (gone ++ [(ev, c'.toNat + gone.length + 1)]).length = gone.length + 1 := by simp
  refine ⟨c'.toNat + gone.length, ev, he.symm, hev, by omega, fun ev' q hq => ?_, c', limit, _, rest,
    happend ▸ hb.reply, hleft.symm, hstart, hnonneg, ?_, ?_, ?_, ?_, ?_⟩
  · have := hb.own ev' q hq
    omega
  · rw [← happend]
    exact hb.rows
  · rw [← happend]
    exact hb.within
  · intro n e' hn hlt hle
    rw [hlength] at hle
    by_cases hlate : (n + 1 : Int) ≤ c' + gone.length
    · obtain ⟨i', hi'⟩ := hb.printed n e' hn hlt hlate
      exact ⟨i', List.mem_append_left _ hi'⟩
    · obtain rfl : n = c'.toNat + gone.length := by omega
      obtain rfl : ev = e' := Option.some.inj (hev.symm.trans hn)
      exact ⟨i, List.mem_append_right _ (by rw [← he]; exact List.mem_singleton_self _)⟩
  · intro e' q' hq'
    rw [hlength]
    rcases List.mem_append.1 hq' with hq' | hq'
    · have := hb.own e' q' hq'
      omega
    · have hrow := congrArg Prod.snd (List.mem_singleton.1 hq')
      have hseq : q' = c'.toNat + gone.length + 1 := eventRow_seq (hrow.trans he.symm)
      omega
  · rw [← happend]
    exact hb.full

/-- A kitten prints an event. -/
theorem Kept.prints {e page : J} {left : List J} (hk : s.Kept a₀ c) (hc : c ≤ max a₀ s.daemon.st.db.events.length)
    (hi : s.viewers i = some k) (hstate : k.state = .prints (e :: left) page) :
    Kept ({ s with shown := s.shown ++ [(i, e)] }.put i { k with state := .prints left page }) a₀ c := by
  have hf := hk.fine i k hi
  have hidle : k.wire = .idle := hf.calm.closed (by rw [hstate]; nofun) (by rw [hstate]; nofun)
  have hhand : Backed s a₀ i k.since page (e :: left) :=
    hf.left (p := (page, e :: left)) (by rw [hstate]; exact List.mem_singleton_self _)
  obtain ⟨n, ev, he, hev, hstart, hown, hbacked⟩ := hhand.next
  have hover : Over s ({ s with shown := s.shown ++ [(i, e)] }.put i { k with state := .prints left page }) :=
    ⟨List.prefix_rfl, fun _ hx => List.mem_append_left _ hx⟩
  refine ⟨hk.printed.over hover hc, fun j k' hj => ?_, fun x hx => ?_, fun x hx => ?_, fun j => ?_⟩
  · replace hj : Function.update s.viewers i (some { k with state := .prints left page }) j = some k' := hj
    rw [Function.update_apply] at hj
    split at hj
    · rename_i hji
      cases hj
      subst hji
      refine ⟨fun p hp => ?_, by simp [hidle, State.settled, Wire.settled], by simp [hidle, State.opening, Wire.opening], nofun,
        hf.since, .inl hidle⟩
      rw [hidle] at hp
      obtain rfl : p = (page, left) := by simpa [State.pages, Wire.pages] using hp
      exact hbacked.over ⟨List.prefix_rfl, fun _ hx => hx⟩ fun _ hx _ => hx
    · rename_i hji
      refine (hk.fine j k' hj).over hover le_rfl fun x hx hxj => (List.mem_append.1 hx).resolve_right fun hnew => hji ?_
      rw [← hxj, List.mem_singleton.1 hnew]
  · rcases List.mem_append.1 hx with hx | hx
    · exact hk.genuine x hx
    · rw [List.mem_singleton.1 hx]
      exact ⟨n, ev, hev, by omega, he⟩
  · show Function.update s.viewers i (some _) x.1 ≠ none
    rw [Function.update_apply]
    split
    · nofun
    · rename_i hxi
      refine hk.owned x ((List.mem_append.1 hx).resolve_right fun hnew => hxi ?_)
      rw [List.mem_singleton.1 hnew]
  · show ((s.shown ++ [(i, e)]).filter fun x => x.1 = j).Pairwise _
    rw [List.filter_append, List.pairwise_append]
    refine ⟨hk.ordered j, List.Pairwise.filter _ (List.pairwise_singleton ..), fun x hx y hy e₁ q₁ e₂ q₂ h₁ h₂ => ?_⟩
    obtain ⟨hx, hxj⟩ := List.mem_filter.1 hx
    obtain ⟨hy, hyj⟩ := List.mem_filter.1 hy
    obtain rfl := List.mem_singleton.1 hy
    have hxi : x = (i, eventRow (e₁, q₁)) := Prod.ext ((of_decide_eq_true hxj).trans (of_decide_eq_true hyj).symm) h₁
    have hle := hown e₁ q₁ (hxi ▸ hx)
    have hseq : n + 1 = q₂ := eventRow_seq (he.symm.trans h₂)
    omega

end Kittens

/-! ## What the daemon does -/

section Served

variable {E : Env} {ch : Str} {s : Viewing} {a₀ c d : Int} {i : Nat} {k : Viewer} {t : Sys} {r : J}

theorem not_holds {k : Str} (h : r.get? k = some (.bool false)) : holds r k = false := by
  unfold holds
  rw [h]
  rfl

/-- A request is answered, and the reply gives no page. -/
theorem Fine.refused {a : Ask} (hf : s.Fine a₀ c i k) (hwire : k.wire = .sent a) (hok : r.get? "ok" = some (.bool false) ∨ a = .opens) :
    s.Fine a₀ c i { k with wire := .replied a r } := by
  have hright : ∀ p ∈ k.wire.pages, Backed s a₀ i k.since p.1 p.2 := fun p hp => hf.right hp
  have hopening := hf.opening
  rw [hwire] at hright hopening
  refine ⟨fun p hp => ?_, fun hs => hf.settled ?_, fun ho => hopening ?_, hf.done, hf.since, ?_⟩
  · rcases List.mem_append.1 hp with hp | hp
    · exact hf.left hp
    · refine hright p ?_
      cases a with
      | opens => exact hp
      | reads =>
        have hnot := not_holds (hok.resolve_right nofun)
        simp [Wire.pages, hnot] at hp
      | acks => exact hp
  · cases a with
    | acks =>
      have hnot := not_holds (hok.resolve_right nofun)
      simp_all [Wire.settled]
    | _ => simp_all [Wire.settled]
  · cases a <;> simp_all [Wire.opening]
  · exact hf.calm.replied hwire

/-- A page comes back: it follows the cursor, up to which everything has been printed. -/
theorem Backed.page {rows : List (Event × Nat)} {limit since : Nat} (hp : Page s.daemon t ch r c d rows limit) (hstart : a₀ ≤ c)
    (hprinted : s.Upto a₀ c) (hreached : c ≤ max a₀ s.daemon.st.db.events.length)
    (hown : ∀ e q, (i, eventRow (e, q)) ∈ s.shown → (q : Int) ≤ c) (hsince : since ≤ s.daemon.st.db.events.length) :
    s.Backed a₀ i since r (rows.map eventRow) := by
  have hnonneg := hp.order.nonneg
  have hlength : rows.length = min limit (s.daemon.st.db.events.length - c.toNat) := by
    rw [hp.page, rowsFrom, List.length_take, List.length_drop, List.length_zipIdx]
  refine ⟨c, limit, [], rows, hp.reply, rfl, hstart, hnonneg, fun j q e hj => ?_, ?_, by simpa using hprinted, by simpa using hown, ?_⟩
  · rw [List.nil_append, hp.page, List.getElem?_take] at hj
    split at hj
    · rw [rowsFrom_getElem?] at hj
      obtain ⟨e', he', heq⟩ := Option.map_eq_some_iff.1 hj
      cases heq
      exact ⟨rfl, he'⟩
    · cases hj
  · rw [List.nil_append]
    omega
  · rw [List.nil_append]
    omega

theorem Step.grows (h : Control.Step E s.daemon l t) : s.daemon.st.db.events <+: t.st.db.events := h.logged.toChained.grows

/-- A request of a kitten is handled. -/
theorem Kept.handles {a : Ask} (hs : ChannelsOk s.daemon) (hbounded : s.daemon.st.db.events.length < 2 ^ 63) (hk : s.Kept a₀ c) (ho : Open s.daemon ch a₀ c d)
    (hi : s.viewers i = some k) (hwire : k.wire = .sent a) (h : Control.Step E s.daemon (.enter (a.request ch k.limit) (.reply r)) t)
    {c' d' : Int} (ho' : Open t ch a₀ c' d') : Kept ({ s with daemon := t }.put i { k with wire := .replied a r }) a₀ c' := by
  have hgrows := Step.grows h
  have hf := hk.fine i k hi
  have hreached : c ≤ max a₀ s.daemon.st.db.events.length := ho.order.le.trans ho.reached
  have hover : Over s { s with daemon := t } := ⟨hgrows, fun _ hx => hx⟩
  -- a refusal or an opened channel leaves the cursor, and brings no page
  have hsame : c' = c → (r.get? "ok" = some (.bool false) ∨ a = .opens) →
      Kept ({ s with daemon := t }.put i { k with wire := .replied a r }) a₀ c' := by
    rintro rfl hok
    exact (hk.served hgrows le_rfl (hk.printed.over hover hreached)).put
      ((hf.refused hwire hok).over hover le_rfl fun _ hx _ => hx)
  have hid : (a.request ch k.limit).get? "id" = some (.str ch) := by
    cases a <;> simp [Ask.request]
  cases a with
  | opens =>
    refine hsame ?_ (.inr rfl)
    obtain ⟨d₁, hrec⟩ := h.cursor_kept hs ho.record (by
      rintro req entry ⟨⟩ hop
      simp [Ask.request] at hop)
    exact (channelRecord_inj (ho'.record.symm.trans hrec)).1
  | reads =>
    rcases h.page hs (by simp [Ask.request]) hid with ⟨hok, hpost⟩ | ⟨c₁, d₁, rows, limit, hp⟩
    · exact hsame (channelRecord_inj (ho'.record.symm.trans (hpost.trans ho.record))).1 (.inl hok)
    · obtain rfl : c₁ = c := (channelRecord_inj (hp.pre.symm.trans ho.record)).1
      obtain rfl : c' = c₁ := (channelRecord_inj (ho'.record.symm.trans hp.post)).1
      have hown := hf.settled (by simp [hwire, Wire.settled])
      have hbacked := Backed.page hp ho.start hk.printed hreached hown hf.since
      refine (hk.served hgrows le_rfl (hk.printed.over hover hreached)).put ?_
      refine Fine.over (s := s) ⟨fun p hmem => ?_, fun hset => ?_, fun hopen => ?_, hf.done, hf.since, ?_⟩ hover le_rfl fun _ hx _ => hx
      · rcases List.mem_append.1 hmem with hmem | hmem
        · exact hf.left hmem
        · obtain rfl : p = (r, rows.map eventRow) := by
            simpa [Wire.pages, hp.reply, readReply, holds, truthy] using hmem
          exact hbacked
      · exact hf.settled (by simp [hwire, Wire.settled])
      · refine hf.opening ?_
        rw [Bool.or_eq_true] at hopen ⊢
        exact .inl (hopen.resolve_right Bool.false_ne_true)
      · exact hf.calm.replied hwire
  | acks page =>
    rcases h.ack hs (by simp [Ask.request]) hid with ⟨hok, hpost⟩ | ⟨c₁, d₁, c₂, hrec, hin, ⟨x, hx, hc₂⟩, hforward, hwithin, hpost⟩
    · exact hsame (channelRecord_inj (ho'.record.symm.trans (hpost.trans ho.record))).1 (.inl hok)
    · obtain ⟨rfl, rfl⟩ := channelRecord_inj (hrec.symm.trans ho.record)
      obtain ⟨rfl, -⟩ := channelRecord_inj (ho'.record.symm.trans hpost)
      have hhand : Backed s a₀ i k.since page [] := hf.right (p := (page, [])) (by rw [hwire]; exact List.mem_singleton_self _)
      obtain ⟨c₃, limit, gone, rest, hb⟩ := hhand
      obtain rfl : rest = [] := List.map_eq_nil_iff.1 hb.left.symm
      have hwithin' := hb.within
      have hstart := hb.start
      have hnonneg := hb.nonneg
      have hlt := ho.order.lt
      have hle := ho.order.le
      have hstart' := ho.start
      rw [List.append_nil] at hwithin'
      -- the cursor goes to the end of the page, which has been printed
      obtain rfl : c' = c₃ + gone.length := by
        have hnext : page.get? "next_cursor" = some (.int (c₃ + gone.length)) := by
          rw [hb.reply, List.append_nil]
          simp [readReply]
        have hgiven : (Ask.request ch k.limit (.acks page)).get? "cursor" = some (.int (c₃ + gone.length)) := by
          simp [Ask.request, hnext]
        rw [hgiven] at hx
        cases hx
        rw [J.asInt64_int (by omega) (by omega)] at hc₂
        exact (Except.ok.inj hc₂).symm
      have hserved := hk.served hgrows hforward (hb.printed.over hover hwithin')
      refine hserved.put ⟨fun p hmem => ?_, fun hset e q hq => ?_, fun hopen => ?_, (hserved.fine i k hi).done, (hserved.fine i k hi).since, ?_⟩
      · refine (hserved.fine i k hi).pages p ?_
        rw [hwire]
        exact hmem
      · exact hb.own e q hq
      · refine hf.opening ?_
        rw [Bool.or_eq_true] at hopen ⊢
        exact .inl (hopen.resolve_right Bool.false_ne_true)
      · exact hf.calm.replied hwire

/-! ## Before the channel is open -/

/-- A kitten that has been given nothing. -/
structure Bare (s : Viewing) (k : Viewer) : Prop where
  state : k.state.pages = []
  wire : k.wire.pages = []
  done : k.state ≠ .done
  since : k.since ≤ s.daemon.st.db.events.length
  calm : k.Calm

/-- Nothing has been read of the channel. -/
structure Blank (s : Viewing) : Prop where
  shown : s.shown = []
  viewers : ∀ i k, s.viewers i = some k → s.Bare k

theorem Blank.put (hb : s.Blank) (hk : s.Bare k) : (s.put i k).Blank := by
  refine ⟨hb.shown, fun j k' hj => ?_⟩
  replace hj : Function.update s.viewers i (some k) j = some k' := hj
  rw [Function.update_apply] at hj
  split at hj
  · cases hj
    exact ⟨hk.state, hk.wire, hk.done, hk.since, hk.calm⟩
  · obtain ⟨hstate, hwire, hdone, hsince, hcalm⟩ := hb.viewers j k' hj
    exact ⟨hstate, hwire, hdone, hsince, hcalm⟩

theorem Blank.served (hb : s.Blank) (hgrows : s.daemon.st.db.events <+: t.st.db.events) : Blank { s with daemon := t } := by
  refine ⟨hb.shown, fun j k hj => ?_⟩
  obtain ⟨hstate, hwire, hdone, hsince, hcalm⟩ := hb.viewers j k hj
  exact ⟨hstate, hwire, hdone, hsince.trans hgrows.length_le, hcalm⟩

/-- Without a channel no kitten is given anything. -/
theorem Blank.step {s t : Viewing} {act : Act} (hs : ChannelsOk s.daemon) (hb : s.Blank) (hnull : s.daemon.channel ch = .null)
    (h : Step E ch s act t) : t.Blank := by
  cases h with
  | serves h => exact hb.served (Step.grows h)
  | starts => exact hb.put ⟨rfl, rfl, by rintro ⟨⟩, le_rfl, .inl rfl⟩
  | @sends i k a hi hstate =>
    have hk := hb.viewers i k hi
    refine hb.put ⟨rfl, ?_, by rintro ⟨⟩, hk.since, .inr (.inl rfl)⟩
    have hpages := hk.state
    rw [hstate] at hpages
    cases a <;> exact hpages
  | @handles i k a r u hi hwire h =>
    have hk := (hb.served (Step.grows h)).viewers i k hi
    refine (hb.served (Step.grows h)).put ⟨hk.state, ?_, hk.done, hk.since, hk.calm.replied hwire⟩
    have hpages := hk.wire
    rw [hwire] at hpages
    cases a with
    | opens => rfl
    | reads =>
      have hid : (Ask.reads.request ch k.limit).get? "id" = some (.str ch) := by simp [Ask.request]
      rcases h.page hs (by simp [Ask.request]) hid with ⟨hok, -⟩ | ⟨_, _, _, _, hp⟩
      · simp [Wire.pages, not_holds hok]
      · have hrec := hp.pre
        rw [hnull] at hrec
        cases hrec
    | acks => cases hpages
  | @throws i k a r u hi hwire h hok =>
    have hk := (hb.served (Step.grows h)).viewers i k hi
    refine (hb.served (Step.grows h)).put ⟨hk.state, ?_, hk.done, hk.since, hk.calm.replied hwire⟩
    have hpages := hk.wire
    rw [hwire] at hpages
    cases a with
    | opens => rfl
    | reads => simp [Wire.pages, not_holds hok]
    | acks => cases hpages
  | @hears i k a r hi _ hwire =>
    have hk := hb.viewers i k hi
    have hpages := hk.wire
    rw [hwire] at hpages
    refine hb.put ?_
    unfold Viewer.after
    cases a with
    | opens =>
      simp only
      split <;> exact ⟨rfl, rfl, by rintro ⟨⟩, hk.since, .inl rfl⟩
    | reads =>
      simp only
      split
      · rename_i hok
        simp only [Wire.pages, hok, if_true] at hpages
        cases hevents : r.get? "events" with
        | none => exact ⟨rfl, rfl, by rintro ⟨⟩, hk.since, .inl rfl⟩
        | some v =>
          rw [hevents] at hpages
          cases v with
          | arr => cases hpages
          | _ => exact ⟨rfl, rfl, by rintro ⟨⟩, hk.since, .inl rfl⟩
      · exact ⟨rfl, rfl, by rintro ⟨⟩, hk.since, .inl rfl⟩
    | acks => cases hpages
  | @prints i k e left page hi hstate =>
    have hpages := (hb.viewers i k hi).state
    rw [hstate] at hpages
    cases hpages
  | @acknowledges i k page hi hstate =>
    have hpages := (hb.viewers i k hi).state
    rw [hstate] at hpages
    cases hpages
  | @breaks i k hi => exact hb.put ⟨rfl, rfl, by rintro ⟨⟩, (hb.viewers i k hi).since, .inl rfl⟩
  | @dies i k hi => exact hb.put ⟨rfl, (hb.viewers i k hi).wire, by rintro ⟨⟩, (hb.viewers i k hi).since, .inr (.inr rfl)⟩

/-- The channel is opened: it is printed up to its start, where nothing is to be printed. -/
theorem Blank.kept (hb : s.Blank) : s.Kept a₀ a₀ := by
  have hnone : ∀ x, x ∉ s.shown := by
    intro x
    rw [hb.shown]
    exact List.not_mem_nil
  refine ⟨fun n e _ hlt hle => by omega, fun i k hi => ?_, fun x hx => absurd hx (hnone x), fun x hx => absurd hx (hnone x), fun i => ?_⟩
  · obtain ⟨hstate, hwire, hdone, hsince, hcalm⟩ := hb.viewers i k hi
    refine ⟨fun p hp => ?_, fun _ e q hq => absurd hq (hnone _), fun _ x hx => absurd hx (hnone x), fun h => absurd h hdone, hsince, hcalm⟩
    rw [hstate, hwire] at hp
    cases hp
  · rw [hb.shown]
    exact List.Pairwise.nil

/-! ## Runs -/

/-- A step keeps what has been printed up to the cursor. -/
theorem Kept.step {s t : Viewing} {act : Act} (hs : ChannelsOk s.daemon) (hbounded : s.daemon.st.db.events.length < 2 ^ 63)
    (hk : s.Kept a₀ c) (ho : Open s.daemon ch a₀ c d) (h : Step E ch s act t) {c' d' : Int} (ho' : Open t.daemon ch a₀ c' d') :
    t.Kept a₀ c' := by
  have hreached : c ≤ max a₀ s.daemon.st.db.events.length := ho.order.le.trans ho.reached
  have hstays : s.daemon.channel ch = t.daemon.channel ch → c' = c := fun heq =>
    (channelRecord_inj (ho'.record.symm.trans (heq.symm.trans ho.record))).1
  cases h with
  | serves h hother =>
    obtain ⟨d₁, hrec⟩ := h.cursor_kept hs ho.record hother
    obtain rfl := (channelRecord_inj (ho'.record.symm.trans hrec)).1
    exact hk.served (Step.grows h) le_rfl (hk.printed.over ⟨Step.grows h, fun _ hx => hx⟩ hreached)
  | @starts i limit follow hnone =>
    obtain rfl := hstays rfl
    refine hk.put ⟨nofun, nofun, fun _ x hx hxi => hk.owned x hx (hxi ▸ hnone), nofun, le_rfl, .inl rfl⟩
  | @sends i k a hi hstate =>
    obtain rfl := hstays rfl
    exact hk.put ((hk.fine i k hi).sends hstate)
  | handles hi hwire h => exact hk.handles hs hbounded ho hi hwire h ho'
  | @throws i k a r u hi hwire h hok =>
    obtain ⟨d₁, hrec⟩ := h.cursor_kept hs ho.record nofun
    obtain rfl := (channelRecord_inj (ho'.record.symm.trans hrec)).1
    have hover : Over s { s with daemon := u } := ⟨Step.grows h, fun _ hx => hx⟩
    exact (hk.served (Step.grows h) le_rfl (hk.printed.over hover hreached)).put
      (((hk.fine i k hi).refused hwire (.inl hok)).over hover le_rfl fun _ hx _ => hx)
  | @hears i k a r hi _ hwire =>
    obtain rfl := hstays rfl
    exact hk.put ((hk.fine i k hi).hears hwire)
  | prints hi hstate =>
    obtain rfl := hstays rfl
    exact hk.prints hreached hi hstate
  | @acknowledges i k page hi hstate =>
    obtain rfl := hstays rfl
    exact hk.put ((hk.fine i k hi).acknowledges hstate)
  | @breaks i k hi =>
    obtain rfl := hstays rfl
    exact hk.put ((hk.fine i k hi).dead (.inr rfl))
  | @dies i k hi =>
    obtain rfl := hstays rfl
    exact hk.put ((hk.fine i k hi).dead (.inl rfl))

/-- The channel as the daemon keeps it. -/
theorem open_run {s : Viewing} {tr : List (Move Viewing Act)} (h : Run (Step E ch) {} tr s) {m : Move Sys Label} (hm : m ∈ daemonTrace tr)
    (ho : Opens ch a₀ m) : ∃ c d, Open s.daemon ch a₀ c d := by
  obtain ⟨c, d, hd⟩ := delivered_run (daemon_run h) hm ho
  exact ⟨c, d, hd.record, hd.order, hd.start, hd.reached⟩

theorem daemonMove_some {m : Move Viewing Act} {m' : Move Sys Label} (h : daemonMove m = some m') :
    m'.pre = m.pre.daemon ∧ m'.post = m.post.daemon := by
  unfold daemonMove at h
  split at h
  · cases h
    exact ⟨rfl, rfl⟩
  · cases h
    exact ⟨rfl, rfl⟩
  · cases h

/-- A channel is never closed. -/
theorem channel_stays {s : Sys} {l : Label} (hs : ChannelsOk s) (h : Control.Step E s l t) (hnull : t.channel ch = .null) :
    s.channel ch = .null := by
  cases h.channel hs ch with
  | same he => exact he.symm.trans hnull
  | opened _ ho => exact ho.1
  | read _ _ ht =>
    rw [ht] at hnull
    cases hnull
  | acked _ _ _ _ _ ht =>
    rw [ht] at hnull
    cases hnull

theorem Step.stays {s t : Viewing} {act : Act} (hs : ChannelsOk s.daemon) (h : Step E ch s act t) (hnull : t.daemon.channel ch = .null) :
    s.daemon.channel ch = .null := by
  cases h with
  | serves h => exact channel_stays hs h hnull
  | handles _ _ h => exact channel_stays hs h hnull
  | throws _ _ h => exact channel_stays hs h hnull
  | _ => exact hnull

theorem kept_run {s : Viewing} {tr : List (Move Viewing Act)} (h : Run (Step E ch) {} tr s) :
    (s.daemon.channel ch = .null → s.Blank) ∧
      ∀ m ∈ daemonTrace tr, ∀ a₀, Opens ch a₀ m → ∀ c d, Open s.daemon ch a₀ c d → s.Kept a₀ c := by
  induction h with
  | nil => exact ⟨fun _ => ⟨rfl, nofun⟩, nofun⟩
  | @snoc tr s t act hrun hstep ih =>
    obtain ⟨hblank, hkept⟩ := ih
    have hs := channels_run (daemon_run hrun)
    have hbounded := bounded_run (daemon_run hrun)
    have hstart : s.daemon.channel ch = .null → t.Blank := fun hnull => (hblank hnull).step hs hnull hstep
    refine ⟨fun hnull => hstart (hstep.stays hs hnull), fun m hm a₀ ho c d ho' => ?_⟩
    rw [daemonTrace_snoc, List.mem_append] at hm
    rcases hm with hm | hm
    · obtain ⟨c₁, d₁, ho₁⟩ := open_run hrun hm ho
      exact (hkept m hm a₀ ho c₁ d₁ ho₁).step hs hbounded ho₁ hstep ho'
    · obtain ⟨hpre, hpost⟩ := daemonMove_some (Option.mem_toList.1 hm)
      obtain ⟨hnull, hopened⟩ := ho
      rw [hpre] at hnull
      rw [hpost] at hopened
      obtain rfl : c = a₀ := (channelRecord_inj (ho'.record.symm.trans hopened)).1
      exact (hstart hnull).kept

/-- **What the channel has got past has been printed.** Over every interleaving of kittens and daemon, with kittens
and daemon killed and connections broken anywhere, of a channel opened at `a₀` that nobody but kittens acknowledges:
every event from `a₀` up to the cursor has been printed; what has been printed are rows of the log from `a₀` on;
each kitten prints its rows in order, none twice; and when a kitten returns 0, everything has been printed that was
in the log when it was started. -/
theorem events_at_least_once (E : Env) (ch : Str) {tr : List (Move Viewing Act)} {s : Viewing} (h : Run (Step E ch) {} tr s)
    {a₀ : Int} {m : Move Sys Label} (hm : m ∈ daemonTrace tr) (ho : Opens ch a₀ m) :
    ∃ c d, s.daemon.channel ch = channelRecord ch c d ∧ a₀ ≤ c ∧
      (∀ (n : Nat) (e : Event), s.daemon.st.db.events[n]? = some e → a₀ < n + 1 → (n + 1 : Int) ≤ c →
        ∃ i, (i, eventRow (e, n + 1)) ∈ s.shown) ∧
      (∀ x ∈ s.shown, ∃ (n : Nat) (e : Event), s.daemon.st.db.events[n]? = some e ∧ a₀ < n + 1 ∧ x.2 = eventRow (e, n + 1)) ∧
      (∀ i, (s.shown.filter fun x => x.1 = i).Pairwise fun x y =>
        ∀ e q e' q', x.2 = eventRow (e, q) → y.2 = eventRow (e', q') → q < q') ∧
      ∀ i k, s.viewers i = some k → k.state = .done → ∀ (n : Nat) (e : Event), n < k.since →
        s.daemon.st.db.events[n]? = some e → a₀ < n + 1 → ∃ j, (j, eventRow (e, n + 1)) ∈ s.shown := by
  obtain ⟨c, d, hopen⟩ := open_run h hm ho
  have hk := (kept_run h).2 m hm a₀ ho c d hopen
  refine ⟨c, d, hopen.record, hopen.start, hk.printed, hk.genuine, hk.ordered, fun i k hi hdone n e hlt hn hstart => ?_⟩
  exact (hk.fine i k hi).done hdone n e hn hstart (by omega)

/-- A request and its reply that nothing comes between. -/
theorem exchange_run {a : Ask} (hi : s.viewers i = some k) (hstate : k.state = .asks a)
    (h : Control.Step E s.daemon (.enter (a.request ch k.limit) (.reply r)) t) :
    ∃ tr, Run (Step E ch) s tr ({ s with daemon := t }.put i { k with state := k.after a r, wire := .idle }) ∧
      ⟨s.daemon, .enter (a.request ch k.limit) (.reply r), t⟩ ∈ daemonTrace tr := by
  have hself : ∀ (u : Viewing) (k' : Viewer), (u.put i k').viewers i = some k' := fun _ _ => Function.update_self ..
  have hsent : Step E ch s (.sends i) (s.put i { k with state := .waits, wire := .sent a }) := .sends hi hstate
  have hhandled := @Step.handles E ch _ _ _ _ _ _ (hself s { k with state := .waits, wire := .sent a }) rfl h
  have hheard := @Step.hears E ch _ _ _ _ _ (hself ({ s.put i { k with state := .waits, wire := .sent a } with daemon := t })
    { k with state := .waits, wire := .replied a r }) rfl rfl
  have hend : (({ s.put i { k with state := .waits, wire := .sent a } with daemon := t }.put i
      { k with state := .waits, wire := .replied a r }).put i { k with state := k.after a r, wire := .idle }) =
      { s with daemon := t }.put i { k with state := k.after a r, wire := .idle } := by
    simp only [put, Function.update_idem]
  refine ⟨_, hend ▸ ((Run.nil.snoc hsent).snoc hhandled).snoc hheard, ?_⟩
  exact List.mem_filterMap.2 ⟨_, List.mem_append_left _ (List.mem_append_right _ (List.mem_singleton_self _)), rfl⟩

end Served

/-! ### A kitten that prints the only event -/

/-- The daemon has been started, and has logged an event. -/
def inboxDaemon : Sys :=
  { Sys.init with st := { Sys.init.st with db := { Sys.init.st.db with events := [eventFor sampleEnv [] 0 createdEvent] }, tick := 1 }, up := true }

def onceViewer : Viewer := ⟨100, false, 1, .asks .opens, .idle⟩

def openMove : Move Sys Label := sampleEnter (Ask.opens.request "inbox" 100) inboxDaemon

def readMove : Move Sys Label := sampleEnter (Ask.reads.request "inbox" 100) openMove.post

/-- The event as the page has it. -/
def onlyRow : J := eventRow (eventFor sampleEnv [] 0 createdEvent, 1)

def onlyPage : J := readReply [(eventFor sampleEnv [] 0 createdEvent, 1)] 0 100

def ackMove : Move Sys Label := sampleEnter ((Ask.acks onlyPage).request "inbox" 100) readMove.post

def opened : J := .object [("ok", .bool true), ("channel", channelRecord "inbox" 0 0)]

def acked : J := .object [("ok", .bool true), ("channel", channelRecord "inbox" 1 1)]

set_option maxRecDepth 10000 in
theorem openMove_label : openMove.label = .enter (Ask.opens.request "inbox" 100) (.reply opened) := rfl

set_option maxRecDepth 10000 in
theorem readMove_label : readMove.label = .enter (Ask.reads.request "inbox" 100) (.reply onlyPage) := rfl

set_option maxRecDepth 10000 in
theorem ackMove_label : ackMove.label = .enter ((Ask.acks onlyPage).request "inbox" 100) (.reply acked) := rfl

theorem openMove_step : Control.Step sampleEnv inboxDaemon (.enter (Ask.opens.request "inbox" 100) (.reply opened)) openMove.post :=
  openMove_label ▸ @enterMove_step sampleEnv inboxDaemon (Ask.opens.request "inbox" 100) rfl

theorem readMove_step : Control.Step sampleEnv openMove.post (.enter (Ask.reads.request "inbox" 100) (.reply onlyPage)) readMove.post :=
  readMove_label ▸ @enterMove_step sampleEnv openMove.post (Ask.reads.request "inbox" 100) rfl

theorem ackMove_step : Control.Step sampleEnv readMove.post (.enter ((Ask.acks onlyPage).request "inbox" 100) (.reply acked)) ackMove.post :=
  ackMove_label ▸ @enterMove_step sampleEnv readMove.post ((Ask.acks onlyPage).request "inbox" 100) rfl

/-- A state in which one kitten, number 0, has printed `shown`. -/
def viewed (daemon : Sys) (state : State) (shown : List J) : Viewing :=
  { daemon := daemon, viewers := Function.update (fun _ => none) 0 (some { onceViewer with state := state })
    shown := shown.map fun e => (0, e) }

theorem viewed_put (daemon : Sys) (state state' : State) (shown : List J) :
    (viewed daemon state shown).put 0 { onceViewer with state := state' } = viewed daemon state' shown := by
  simp only [viewed, put, Function.update_idem]

/-- An exchange of the only kitten. -/
theorem viewed_exchange {daemon t : Sys} {a : Ask} {r : J} (state : State) (shown : List J)
    (h : Control.Step sampleEnv daemon (.enter (a.request "inbox" 100) (.reply r)) t) (hafter : onceViewer.after a r = state) :
    ∃ tr, Run (Step sampleEnv "inbox") (viewed daemon (.asks a) shown) tr (viewed t state shown) ∧
      ⟨daemon, .enter (a.request "inbox" 100) (.reply r), t⟩ ∈ daemonTrace tr := by
  obtain ⟨tr, hrun, hmem⟩ := @exchange_run sampleEnv "inbox" (viewed daemon (.asks a) shown) 0 { onceViewer with state := .asks a } _ _ _
    rfl rfl h
  have hstate : Viewer.after { onceViewer with state := .asks a } a r = onceViewer.after a r := by cases a <;> rfl
  have hend : { viewed daemon (.asks a) shown with daemon := t }.put 0
      { onceViewer with state := Viewer.after { onceViewer with state := .asks a } a r } = viewed t state shown := by
    rw [hstate, hafter]
    exact viewed_put t (.asks a) state shown
  exact ⟨tr, hend ▸ hrun, hmem⟩

theorem viewed_start : ∃ tr, Run (Step sampleEnv "inbox") {} tr (viewed inboxDaemon (.asks .opens) []) := by
  have hboot : Control.Step sampleEnv Sys.init (.boot false) { Sys.init with up := true } := .boot rfl rfl
  have hevent : Control.Step sampleEnv { Sys.init with up := true } (.event createdEvent) inboxDaemon := .event rfl rfl
  have hboots : Step sampleEnv "inbox" {} (.serves (.boot false)) { daemon := { Sys.init with up := true } } := .serves hboot nofun
  have hlogs : Step sampleEnv "inbox" { daemon := { Sys.init with up := true } } (.serves (.event createdEvent)) { daemon := inboxDaemon } :=
    .serves hevent nofun
  have hstarts : Step sampleEnv "inbox" { daemon := inboxDaemon } (.starts 0) (viewed inboxDaemon (.asks .opens) []) :=
    @Step.starts sampleEnv "inbox" { daemon := inboxDaemon } 0 100 false rfl
  exact ⟨_, ((Run.nil.snoc hboots).snoc hlogs).snoc hstarts⟩

set_option maxRecDepth 10000 in
/-- The kitten opens its channel, prints the event, acknowledges it and returns 0. -/
theorem events_at_least_once_inbox : ∃ tr s k, Run (Step sampleEnv "inbox") {} tr s ∧ s.viewers 0 = some k ∧ k.state = .done ∧
    ∃ j, (j, onlyRow) ∈ s.shown := by
  obtain ⟨tr₀, hstart⟩ := viewed_start
  obtain ⟨tr₁, hopens, hmem⟩ := viewed_exchange (.asks .reads) [] openMove_step rfl
  obtain ⟨tr₂, hreads, -⟩ := viewed_exchange (.prints [onlyRow] onlyPage) [] readMove_step rfl
  have hprints : Step sampleEnv "inbox" (viewed readMove.post (.prints [onlyRow] onlyPage) []) (.prints 0)
      (viewed readMove.post (.prints [] onlyPage) [onlyRow]) := by
    have h := @Step.prints sampleEnv "inbox" (viewed readMove.post (.prints [onlyRow] onlyPage) []) 0
      { onceViewer with state := .prints [onlyRow] onlyPage } _ _ _ rfl rfl
    have hend := viewed_put readMove.post (.prints [onlyRow] onlyPage) (.prints [] onlyPage) [onlyRow]
    exact hend ▸ h
  have hacknowledges : Step sampleEnv "inbox" (viewed readMove.post (.prints [] onlyPage) [onlyRow]) (.acknowledges 0)
      (viewed readMove.post (.asks (.acks onlyPage)) [onlyRow]) := by
    have h := @Step.acknowledges sampleEnv "inbox" (viewed readMove.post (.prints [] onlyPage) [onlyRow]) 0
      { onceViewer with state := .prints [] onlyPage } _ rfl rfl
    have hend := viewed_put readMove.post (.prints [] onlyPage) (.asks (.acks onlyPage)) [onlyRow]
    exact hend ▸ h
  obtain ⟨tr₃, hacks, -⟩ := viewed_exchange .done [onlyRow] ackMove_step rfl
  have hrun := (hstart.append hopens).append (((hreads.snoc hprints).snoc hacknowledges).append hacks)
  have hopened : Opens "inbox" 0 ⟨inboxDaemon, .enter (Ask.opens.request "inbox" 100) (.reply opened), openMove.post⟩ := ⟨rfl, rfl⟩
  obtain ⟨c, d, -, -, -, -, -, hdone⟩ := events_at_least_once sampleEnv "inbox" hrun (daemonTrace_within hmem) hopened
  have hviewer : (viewed ackMove.post .done [onlyRow]).viewers 0 = some { onceViewer with state := .done } := rfl
  have hlogged : ackMove.post.st.db.events[0]? = some (eventFor sampleEnv [] 0 createdEvent) := rfl
  exact ⟨_, _, _, hrun, hviewer, rfl, hdone 0 _ hviewer rfl 0 _ (by decide) hlogged (by decide)⟩

end Viewing

end A2ad.Kitten
