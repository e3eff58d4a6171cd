/-
Channels: durable cursors over the event log. What a channel has delivered has been returned by its
reads, from its starting point on without a gap, and cursors never go back.
-/
import A2ad.Control.Effects
import A2ad.Control.Refusal

namespace A2ad.Control

open Bytes Json

variable {E : Env} {req : J}

/-! ## Pages of the log -/

/-- The rows of the log with their sequence numbers, after the first `n`. -/
def rowsFrom (db : Db) (n : Nat) : List (Event × Nat) := (db.events.zipIdx 1).drop n

theorem filter_zipIdx (events : List Event) (start n : Nat) :
    ((events.zipIdx start).filter fun row => ((n : Int) < row.2 : Bool)) = (events.zipIdx start).drop (n + 1 - start) := by
  induction events generalizing start with
  | nil => simp
  | cons e events ih =>
    rw [List.zipIdx_cons, List.filter_cons]
    split
    · rename_i hlt
      simp only [decide_eq_true_eq, Nat.cast_lt] at hlt
      rw [ih, show n + 1 - start = 0 by omega, show n + 1 - (start + 1) = 0 by omega, List.drop_zero, List.drop_zero]
    · rename_i hle
      simp only [decide_eq_true_eq, Nat.cast_lt, not_lt] at hle
      rw [ih, show n + 1 - start = (n + 1 - (start + 1)) + 1 by omega, List.drop_succ_cons]

theorem eventsAfter_eq {db : Db} {c : Int} (hc : 0 ≤ c) (limit : Nat) :
    eventsAfter db c limit = (rowsFrom db c.toNat).take limit := by
  unfold eventsAfter rowsFrom
  conv_lhs => rw [← Int.toNat_of_nonneg hc]
  rw [filter_zipIdx, Nat.add_sub_cancel]

/-- The rows of a page are consecutive. -/
theorem rowsFrom_getElem? (db : Db) (n i : Nat) :
    (rowsFrom db n)[i]? = (db.events[n + i]?).map fun e => (e, n + i + 1) := by
  rw [rowsFrom, List.getElem?_drop, List.getElem?_zipIdx, Nat.add_comm 1]

/-- The cursor after a page is the sequence of its last row. -/
theorem next_eventsAfter {db : Db} {c : Int} (hc : 0 ≤ c) (limit : Nat) :
    (((eventsAfter db c limit).getLast?.map fun row => (row.2 : Int)).getD c) = c + (eventsAfter db c limit).length := by
  rw [eventsAfter_eq hc]
  generalize hrows : (rowsFrom db c.toNat).take limit = rows
  rcases List.eq_nil_or_concat rows with rfl | ⟨init, row, rfl⟩
  · simp
  have hrow : (rowsFrom db c.toNat)[init.length]? = some row := by
    have := congrArg (fun l => l[init.length]?) hrows
    simp only [List.concat_eq_append, List.getElem?_append_right (le_refl _), Nat.sub_self, List.getElem?_cons_zero] at this
    rw [List.getElem?_take] at this
    split at this
    · exact this
    · cases this
  rw [rowsFrom_getElem?] at hrow
  obtain ⟨e, -, rfl⟩ := Option.map_eq_some_iff.1 hrow
  simp only [List.concat_eq_append, List.getLast?_concat, Option.map_some, Option.getD_some, List.length_append,
    List.length_singleton]
  push_cast
  omega

/-! ## The operations on channels -/

def channelRecord (id : Str) (c d : Int) : J := .object [("id", .str id), ("cursor", .int c), ("delivered", .int d)]

/-- The reply of a read from the cursor `c`. -/
def readReply (rows : List (Event × Nat)) (c : Int) (limit : Nat) : J :=
  .object [("ok", .bool true), ("events", .arr (rows.map eventRow)), ("next_cursor", .int (c + rows.length)),
    ("may_have_more", .bool (rows.length = limit))]

/-- A cursor within what was delivered, both 64-bit numbers. -/
structure InOrder (c d : Int) : Prop where
  nonneg : 0 ≤ c
  le : c ≤ d
  lt : d < 2 ^ 63

theorem channelRecord_fields (id : Str) {c d : Int} (h : InOrder c d) :
    (do (← (channelRecord id c d).field "cursor").asInt64 : Except Exception Int) = .ok c ∧
      (do (← (channelRecord id c d).field "delivered").asInt64 : Except Exception Int) = .ok d := by
  have := h.nonneg
  have := h.le
  have := h.lt
  constructor
  · exact J.asInt64_int (by omega) (by omega)
  · exact J.asInt64_int (by omega) (by omega)

theorem channelOpen_cases {r : J} {s s' : St} (h : channelOpen req s = .ok r s') :
    s' = s ∨ ∃ id a, required req "id" = .ok id ∧ s.db.get .channel id = .null ∧ InOrder a a ∧
      s' = { s with db := s.db.put .channel id (channelRecord id a a) } := by
  unfold channelOpen at h
  obtain ⟨id, _, hl, h⟩ := Tx.bind_ok.1 h
  obtain ⟨hid, rfl⟩ := Tx.lift_ok.1 hl
  obtain ⟨_, _, hr, h⟩ := Tx.bind_ok.1 h
  obtain ⟨rfl, rfl⟩ := read_ok.1 hr
  split at h
  · obtain ⟨-, rfl⟩ := Tx.pure_ok.1 h
    exact .inl rfl
  rename_i hnull
  obtain ⟨a, _, hl, h⟩ := Tx.bind_ok.1 h
  obtain ⟨ha, rfl⟩ := Tx.lift_ok.1 hl
  split at h
  · obtain ⟨-, rfl⟩ := Tx.pure_ok.1 h
    exact .inl rfl
  rename_i hneg
  obtain ⟨_, _, hw, h⟩ := Tx.bind_ok.1 h
  obtain ⟨-, rfl⟩ := write_ok.1 hw
  obtain ⟨-, rfl⟩ := Tx.pure_ok.1 h
  exact .inr ⟨id, a, hid, null_of_not hnull, ⟨by omega, le_refl _, (J.valueInt64_range ha).2⟩, rfl⟩

theorem channelAck_cases {r : J} {s s' : St} (h : channelAck req s = .ok r s') :
    s' = s ∨ ∃ id, required req "id" = .ok id ∧ s.db.get .channel id ≠ .null ∧
      ∀ c d, s.db.get .channel id = channelRecord id c d → InOrder c d →
        ∃ c', c ≤ c' ∧ c' ≤ d ∧ s' = { s with db := s.db.put .channel id (channelRecord id c' d) } := by
  unfold channelAck at h
  obtain ⟨id, _, hl, h⟩ := Tx.bind_ok.1 h
  obtain ⟨hid, rfl⟩ := Tx.lift_ok.1 hl
  obtain ⟨_, _, hr, h⟩ := Tx.bind_ok.1 h
  obtain ⟨rfl, rfl⟩ := read_ok.1 hr
  split at h
  · obtain ⟨-, rfl⟩ := Tx.pure_ok.1 h
    exact .inl rfl
  rename_i hnull
  obtain ⟨v, _, hl, h⟩ := Tx.bind_ok.1 h
  obtain ⟨-, rfl⟩ := Tx.lift_ok.1 hl
  obtain ⟨c', _, hl, h⟩ := Tx.bind_ok.1 h
  obtain ⟨-, rfl⟩ := Tx.lift_ok.1 hl
  obtain ⟨vc, _, hl, h⟩ := Tx.bind_ok.1 h
  obtain ⟨hvc, rfl⟩ := Tx.lift_ok.1 hl
  obtain ⟨oldc, _, hl, h⟩ := Tx.bind_ok.1 h
  obtain ⟨holdc, rfl⟩ := Tx.lift_ok.1 hl
  split at h
  · obtain ⟨-, rfl⟩ := Tx.pure_ok.1 h
    exact .inl rfl
  rename_i hlow
  obtain ⟨vd, _, hl, h⟩ := Tx.bind_ok.1 h
  obtain ⟨hvd, rfl⟩ := Tx.lift_ok.1 hl
  obtain ⟨oldd, _, hl, h⟩ := Tx.bind_ok.1 h
  obtain ⟨holdd, rfl⟩ := Tx.lift_ok.1 hl
  split at h
  · obtain ⟨-, rfl⟩ := Tx.pure_ok.1 h
    exact .inl rfl
  rename_i hhigh
  obtain ⟨rec, _, hl, h⟩ := Tx.bind_ok.1 h
  obtain ⟨hrec, rfl⟩ := Tx.lift_ok.1 hl
  obtain ⟨_, _, hw, h⟩ := Tx.bind_ok.1 h
  obtain ⟨-, rfl⟩ := write_ok.1 hw
  obtain ⟨-, rfl⟩ := Tx.pure_ok.1 h
  refine .inr ⟨id, hid, fun e => by simp [e, J.isNull] at hnull, fun c d hcd hin => ?_⟩
  obtain ⟨hc, hd⟩ := channelRecord_fields id hin
  rw [← hcd, hvc] at hc
  rw [← hcd, hvd] at hd
  obtain rfl : oldc = c := Except.ok.inj (holdc.symm.trans hc)
  obtain rfl : oldd = d := Except.ok.inj (holdd.symm.trans hd)
  refine ⟨c', not_lt.1 hlow, not_lt.1 hhigh, ?_⟩
  rw [hcd] at hrec
  cases hrec
  rfl

/-- `events.read` writes nothing. -/
theorem eventsRead_still {r : J} {s s' : St} (h : eventsRead "events.read" req s = .ok r s') : s' = s := by
  unfold eventsRead at h
  obtain ⟨after, _, hl, h⟩ := Tx.bind_ok.1 h
  obtain ⟨-, rfl⟩ := Tx.lift_ok.1 hl
  rcases Tx.ite_ok h with ⟨hop, -⟩ | ⟨-, h⟩
  · exact absurd hop (by decide)
  obtain ⟨limit, _, hl, h⟩ := Tx.bind_ok.1 h
  obtain ⟨-, rfl⟩ := Tx.lift_ok.1 hl
  rcases Tx.ite_ok h with ⟨-, h⟩ | ⟨-, h⟩
  · exact (Tx.pure_ok.1 h).2.symm
  obtain ⟨db, u, hsnap, h⟩ := Tx.bind_ok.1 h
  cases hsnap
  rcases Tx.ite_ok h with ⟨hnull, -⟩ | ⟨-, h⟩
  · cases hnull
  · exact (Tx.pure_ok.1 h).2.symm

/-- A successful read returns the rows after the cursor and remembers how far it got. -/
structure ChannelRead (id : Str) (c d : Int) (rows : List (Event × Nat)) (limit : Nat) (r : J) (s s' : St) : Prop where
  reply : r = readReply rows c limit
  page : rows = (rowsFrom s.db c.toNat).take limit
  post : s' = { s with db := s.db.put .channel id (channelRecord id c (max d (c + rows.length))) }

theorem eventsRead_cases {r : J} {s s' : St} (h : eventsRead "channel.read" req s = .ok r s') :
    s' = s ∧ r.get? "ok" = some (.bool false) ∨ ∃ id, required req "id" = .ok id ∧ s.db.get .channel id ≠ .null ∧
      ∀ c d, s.db.get .channel id = channelRecord id c d → InOrder c d →
        ∃ rows limit, ChannelRead id c d rows limit r s s' := by
  unfold eventsRead at h
  obtain ⟨after, _, hl, h⟩ := Tx.bind_ok.1 h
  obtain ⟨-, rfl⟩ := Tx.lift_ok.1 hl
  rcases Tx.ite_ok h with ⟨-, h⟩ | ⟨hop, -⟩
  swap
  · exact absurd rfl hop
  obtain ⟨id, _, hl, h⟩ := Tx.bind_ok.1 h
  obtain ⟨hid, rfl⟩ := Tx.lift_ok.1 hl
  obtain ⟨_, _, hr, h⟩ := Tx.bind_ok.1 h
  obtain ⟨rfl, rfl⟩ := read_ok.1 hr
  rcases Tx.ite_ok h with ⟨-, h⟩ | ⟨hnull, h⟩
  · obtain ⟨rfl, rfl⟩ := Tx.pure_ok.1 h
    exact .inl ⟨rfl, by simp [failure]⟩
  obtain ⟨v, _, hl, h⟩ := Tx.bind_ok.1 h
  obtain ⟨hv, rfl⟩ := Tx.lift_ok.1 hl
  obtain ⟨cursor, _, hl, h⟩ := Tx.bind_ok.1 h
  obtain ⟨hcursor, rfl⟩ := Tx.lift_ok.1 hl
  obtain ⟨limit, _, hl, h⟩ := Tx.bind_ok.1 h
  obtain ⟨-, rfl⟩ := Tx.lift_ok.1 hl
  rcases Tx.ite_ok h with ⟨-, h⟩ | ⟨-, h⟩
  · obtain ⟨rfl, rfl⟩ := Tx.pure_ok.1 h
    exact .inl ⟨rfl, by simp [failure]⟩
  refine .inr ⟨id, hid, fun e => by simp [e, J.isNull] at hnull, fun c d hcd hin => ?_⟩
  -- from here on the fields of the record are read one by one
  obtain ⟨hc, hd⟩ := channelRecord_fields id hin
  rw [← hcd, hv] at hc
  obtain rfl : cursor = c := Except.ok.inj (hcursor.symm.trans hc)
  obtain ⟨db, u, hsnap, h⟩ := Tx.bind_ok.1 h
  cases hsnap
  rcases Tx.ite_ok h with ⟨-, h⟩ | ⟨hnot, -⟩
  swap
  · exact absurd (not_null (fun e => by simp [e, J.isNull] at hnull)) hnot
  obtain ⟨vd, _, hl, h⟩ := Tx.bind_ok.1 h
  obtain ⟨hvd, rfl⟩ := Tx.lift_ok.1 hl
  obtain ⟨delivered, _, hl, h⟩ := Tx.bind_ok.1 h
  obtain ⟨hdelivered, rfl⟩ := Tx.lift_ok.1 hl
  rw [← hcd, hvd] at hd
  obtain rfl : delivered = d := Except.ok.inj (hdelivered.symm.trans hd)
  obtain ⟨rec, _, hl, h⟩ := Tx.bind_ok.1 h
  obtain ⟨hrec, rfl⟩ := Tx.lift_ok.1 hl
  rw [hcd] at hrec
  cases hrec
  obtain ⟨vid, _, hl, h⟩ := Tx.bind_ok.1 h
  obtain ⟨hvid, rfl⟩ := Tx.lift_ok.1 hl
  cases hvid
  obtain ⟨id', _, hl, h⟩ := Tx.bind_ok.1 h
  obtain ⟨hid', rfl⟩ := Tx.lift_ok.1 hl
  cases hid'
  obtain ⟨_, _, hw, h⟩ := Tx.bind_ok.1 h
  obtain ⟨-, rfl⟩ := write_ok.1 hw
  obtain ⟨rfl, rfl⟩ := Tx.pure_ok.1 h
  refine ⟨eventsAfter s.db cursor limit.toNat, limit.toNat, ?_, eventsAfter_eq hin.nonneg _, ?_⟩
  · rw [readReply, ← next_eventsAfter hin.nonneg]
  · rw [← next_eventsAfter hin.nonneg]
    rfl

/-! ## Steps -/

def Sys.channel (s : Sys) (id : Str) : J := s.st.db.get .channel id

/-- The step opens the channel `id` at `a`. -/
def Opens (id : Str) (a : Int) (m : Move Sys Label) : Prop :=
  m.pre.channel id = .null ∧ m.post.channel id = channelRecord id a a

/-- The step answers a read of the channel `id` with these rows, which follow its cursor `c`. -/
structure Reads (id : Str) (c : Int) (rows : List (Event × Nat)) (m : Move Sys Label) : Prop where
  label : ∃ req limit, req.get? "op" = some (.str "channel.read") ∧ req.get? "id" = some (.str id) ∧
    m.label = .enter req (.reply (readReply rows c limit)) ∧ rows = (rowsFrom m.pre.st.db c.toNat).take limit
  cursor : ∃ d, m.pre.channel id = channelRecord id c d

/-- The ways a step can treat the channel `id`. -/
inductive ChannelStep (s : Sys) (l : Label) (t : Sys) (id : Str) : Prop
  | same : t.channel id = s.channel id → ChannelStep s l t id
  | opened {a : Int} : InOrder a a → Opens id a ⟨s, l, t⟩ → ChannelStep s l t id
  | read {c d : Int} {rows : List (Event × Nat)} : Reads id c rows ⟨s, l, t⟩ → s.channel id = channelRecord id c d →
    t.channel id = channelRecord id c (max d (c + rows.length)) → ChannelStep s l t id
  | acked {c d c' : Int} {req : J} {entry : Entry} : l = .enter req entry →
    req.get? "op" = some (.str "channel.ack") → s.channel id = channelRecord id c d → c ≤ c' → c' ≤ d →
    t.channel id = channelRecord id c' d → ChannelStep s l t id

/-- A channel that is stored is in order. -/
def ChannelsOk (s : Sys) : Prop := ∀ id, s.channel id = .null ∨ ∃ c d, InOrder c d ∧ s.channel id = channelRecord id c d

theorem ChannelsOk.of_ne_null {s : Sys} (h : ChannelsOk s) {id : Str} (hne : s.channel id ≠ .null) :
    ∃ c d, InOrder c d ∧ s.channel id = channelRecord id c d := (h id).resolve_left hne

theorem Step.channel {s t : Sys} {l : Label} (hs : ChannelsOk s) (h : Step E s l t) (id : Str) : ChannelStep s l t id := by
  rcases h.controlled with ⟨req, r, u, K, hl, hu, hc⟩ | hframe
  swap
  · exact .same (hframe.get _ _ (by decide))
  have hpre : ∀ id, u.db.get .channel id = s.channel id := fun id => hu.exec ..
  have hframe := hc.frame
  -- a channel record is put in place, here or at another id
  have hput : ∀ {i : Str} {v : J}, t.st = { u with db := u.db.put .channel i v } → i ≠ id → ChannelStep s l t id := by
    intro i v ht hi
    refine .same ?_
    rw [Sys.channel, ht, ← hpre]
    exact Db.get_put_ne _ _ (by simpa using hi.symm)
  have hself : ∀ {v : J}, t.st = { u with db := u.db.put .channel id v } → t.channel id = v := by
    intro v ht
    rw [Sys.channel, ht]
    exact Db.get_put_self ..
  have hsame : t.st = u → ChannelStep s l t id := by
    intro ht
    refine .same ?_
    rw [Sys.channel, ht, hpre]
  cases hc with
  | channelOpen _ h =>
    rcases channelOpen_cases h with ht | ⟨i, a, -, hnull, ha, ht⟩
    · exact hsame ht
    · by_cases hi : i = id
      · subst hi
        exact .opened ha ⟨(hpre i).symm.trans hnull, hself ht⟩
      · exact hput ht hi
  | channelAck hget h =>
    rcases channelAck_cases h with ht | ⟨i, -, hne, hack⟩
    · exact hsame ht
    · rw [hpre] at hne
      obtain ⟨c, d, hcd, hrec⟩ := hs.of_ne_null hne
      obtain ⟨c', hle, hle', ht⟩ := hack c d ((hpre i).trans hrec) hcd
      by_cases hi : i = id
      · subst hi
        rcases hl with hl | ⟨hl, -⟩
        · exact .acked hl hget hrec hle hle' (hself ht)
        · exact .acked hl hget hrec hle hle' (hself ht)
      · exact hput ht hi
  | eventsRead hop hget h =>
    rcases hop with rfl | rfl
    swap
    · exact hsame (eventsRead_still h)
    rcases eventsRead_cases h with ⟨ht, -⟩ | ⟨i, hid, hne, hread⟩
    · exact hsame ht
    · rw [hpre] at hne
      obtain ⟨c, d, hcd, hrec⟩ := hs.of_ne_null hne
      obtain ⟨rows, limit, hr⟩ := hread c d ((hpre i).trans hrec) hcd
      by_cases hi : i = id
      · subst hi
        rcases hl with hl | ⟨-, rfl⟩
        · refine .read ⟨⟨req, limit, hget, (required_ok hid).1, by rw [hl, hr.reply], ?_⟩, d, hrec⟩ hrec (hself hr.post)
          rw [hr.page, rowsFrom, rowsFrom, hu.db]
        · cases hr.reply
      · exact hput hr.post hi
  | _ => exact .same ((hframe.get _ _ (by decide)).trans (hpre id))

/-! ## What a channel has delivered -/

/-- A read does not get past the log. -/
theorem Reads.length_le {id : Str} {c : Int} {rows : List (Event × Nat)} {m : Move Sys Label} (h : Reads id c rows m) :
    rows = [] ∨ c.toNat + rows.length ≤ m.pre.st.db.events.length := by
  obtain ⟨_, limit, -, -, -, hrows⟩ := h.label
  rcases List.eq_nil_or_concat rows with rfl | ⟨init, row, rfl⟩
  · exact .inl rfl
  · have hlen := congrArg List.length hrows
    simp only [rowsFrom, List.length_take, List.length_drop, List.length_zipIdx] at hlen
    have hpos : 0 < (init.concat row).length := by simp
    omega

/-- The rows of a read are the events of the log that follow the cursor, one after the other. -/
theorem Reads.consecutive {id : Str} {c : Int} {rows : List (Event × Nat)} {m : Move Sys Label} (h : Reads id c rows m)
    {i q : Nat} {e : Event} (hi : rows[i]? = some (e, q)) :
    q = c.toNat + i + 1 ∧ m.pre.st.db.events[c.toNat + i]? = some e := by
  obtain ⟨_, limit, -, -, -, rfl⟩ := h.label
  rw [List.getElem?_take] at hi
  split at hi
  · rw [rowsFrom_getElem?] at hi
    obtain ⟨e', he', heq⟩ := Option.map_eq_some_iff.1 hi
    cases heq
    exact ⟨rfl, he'⟩
  · cases hi

/-- Every event of the log that a read gets past is among its rows. -/
theorem Reads.covers {id : Str} {c : Int} {rows : List (Event × Nat)} {m : Move Sys Label} (h : Reads id c rows m)
    {n : Nat} {e : Event} (hn : m.pre.st.db.events[n]? = some e) (hc : c.toNat ≤ n) (hlt : n < c.toNat + rows.length) :
    (e, n + 1) ∈ rows := by
  obtain ⟨_, limit, -, -, -, rfl⟩ := h.label
  have hget : ((rowsFrom m.pre.st.db c.toNat).take limit)[n - c.toNat]? = some (e, n + 1) := by
    rw [List.getElem?_take, if_pos]
    · rw [rowsFrom_getElem?, Nat.add_sub_cancel' hc, hn]
      rfl
    · rw [List.length_take] at hlt
      omega
  exact List.mem_of_getElem? hget

/-- What the channel `id`, opened at `a₀`, has delivered in the history `tr`. -/
structure Delivered (id : Str) (a₀ : Int) (tr : List (Move Sys Label)) (s : Sys) (c d : Int) : Prop where
  record : s.channel id = channelRecord id c d
  order : InOrder c d
  start : a₀ ≤ c
  reached : d ≤ max a₀ s.st.db.events.length
  covered : ∀ (n : Nat) (e : Event), s.st.db.events[n]? = some e → a₀ < n + 1 → (n + 1 : Int) ≤ d →
    ∃ m ∈ tr, ∃ c rows, Reads id c rows m ∧ (e, n + 1) ∈ rows

theorem channelRecord_inj {id : Str} {c d c' d' : Int} (h : channelRecord id c d = channelRecord id c' d') :
    c = c' ∧ d = d' := by
  have hc := congrArg (fun j => j.get? "cursor") h
  have hd := congrArg (fun j => j.get? "delivered") h
  simp only [channelRecord, J.get?_object, J.find_cons, lit_inj, String.reduceEq, if_true, if_false] at hc hd
  cases hc
  cases hd
  exact ⟨rfl, rfl⟩

section Step

variable {s t : Sys} {l : Label} {tr : List (Move Sys Label)} {id : Str}

theorem ChannelsOk.step (hs : ChannelsOk s) (hb : s.st.db.events.length < 2 ^ 63) (h : Step E s l t) : ChannelsOk t := by
  intro id
  cases h.channel hs id with
  | same he => rw [he]; exact hs id
  | opened ha ho => exact .inr ⟨_, _, ha, ho.2⟩
  | @read c d rows hr hrec ht =>
    obtain ⟨c', d', hcd, hrec'⟩ := hs.of_ne_null (by rw [hrec]; nofun)
    obtain ⟨rfl, rfl⟩ := channelRecord_inj (hrec'.symm.trans hrec)
    refine .inr ⟨_, _, ⟨hcd.nonneg, le_max_of_le_left hcd.le, max_lt hcd.lt ?_⟩, ht⟩
    have := hcd.nonneg
    have := hcd.le
    have := hcd.lt
    rcases hr.length_le with rfl | hle
    · simp only [List.length_nil, Nat.cast_zero, add_zero]
      omega
    · replace hle : c'.toNat + rows.length ≤ s.st.db.events.length := hle
      omega
  | @acked c d c' _ _ _ _ hrec hle hle' ht =>
    obtain ⟨c₁, d₁, hcd, hrec'⟩ := hs.of_ne_null (by rw [hrec]; nofun)
    obtain ⟨rfl, rfl⟩ := channelRecord_inj (hrec'.symm.trans hrec)
    have := hcd.nonneg
    exact .inr ⟨_, _, ⟨by omega, hle', hcd.lt⟩, ht⟩

/-- A step keeps what was delivered, and takes neither cursor back. -/
theorem Delivered.step {a₀ c d : Int} (hs : ChannelsOk s) (hb : s.st.db.events.length < 2 ^ 63) (hd : Delivered id a₀ tr s c d) (h : Step E s l t) :
    ∃ c' d', Delivered id a₀ (tr ++ [⟨s, l, t⟩]) t c' d' ∧ c ≤ c' ∧ d ≤ d' := by
  have hgrows := h.logged.toChained.grows
  have hlength := hgrows.length_le
  -- an event that was delivered already was there before the step
  have hold : ∀ (n : Nat) (e : Event), t.st.db.events[n]? = some e → a₀ < n + 1 → (n + 1 : Int) ≤ d →
      ∃ m ∈ tr ++ [⟨s, l, t⟩], ∃ c rows, Reads id c rows m ∧ (e, n + 1) ∈ rows := by
    intro n e hn hlt hle
    have hreached := hd.reached
    have hs' : s.st.db.events[n]? = some e := by
      obtain ⟨new, hnew⟩ := hgrows
      rw [← hnew, List.getElem?_append_left (by omega)] at hn
      exact hn
    obtain ⟨m, hm, hr⟩ := hd.covered n e hs' hlt hle
    exact ⟨m, List.mem_append_left _ hm, hr⟩
  have hreached : d ≤ max a₀ t.st.db.events.length := by
    have := hd.reached
    omega
  cases h.channel hs id with
  | same he => exact ⟨c, d, ⟨he.trans hd.record, hd.order, hd.start, hreached, hold⟩, le_refl _, le_refl _⟩
  | opened _ ho =>
    have hrec := hd.record
    rw [show s.channel id = .null from ho.1] at hrec
    cases hrec
  | @read c₁ d₁ rows hr hrec ht =>
    obtain ⟨rfl, rfl⟩ := channelRecord_inj (hrec.symm.trans hd.record)
    have := hd.order.nonneg
    have := hd.order.le
    have := hd.order.lt
    have := hd.start
    have hlen : c₁ + rows.length ≤ max c₁ s.st.db.events.length := by
      rcases hr.length_le with rfl | hle
      · simp
      · replace hle : c₁.toNat + rows.length ≤ s.st.db.events.length := hle
        omega
    refine ⟨c₁, max d₁ (c₁ + rows.length), ⟨ht, ⟨hd.order.nonneg, by omega, by omega⟩, hd.start, by omega, ?_⟩, le_refl _,
      by omega⟩
    intro n e hn hlt hle
    by_cases hdn : (n + 1 : Int) ≤ d₁
    · exact hold n e hn hlt hdn
    · -- the read gets past the event, so it is among its rows
      have hs' : s.st.db.events[n]? = some e := by
        obtain ⟨new, hnew⟩ := hgrows
        rw [← hnew, List.getElem?_append_left (by omega)] at hn
        exact hn
      exact ⟨_, List.mem_append_right _ (List.mem_singleton_self _), c₁, rows, hr, hr.covers hs' (by omega) (by omega)⟩
  | @acked c₁ d₁ c' _ _ _ _ hrec hle hle' ht =>
    obtain ⟨rfl, rfl⟩ := channelRecord_inj (hrec.symm.trans hd.record)
    have := hd.order.nonneg
    have := hd.start
    exact ⟨c', d₁, ⟨ht, ⟨by omega, hle', hd.order.lt⟩, by omega, hreached, hold⟩, hle, le_refl _⟩

end Step

/-! ## Runs -/

section Runs

variable {s t : Sys} {l : Label} {tr : List (Move Sys Label)} {id : Str}

theorem bounded_run (h : Run (Step E) Sys.init tr s) : s.st.db.events.length < 2 ^ 63 :=
  (chained_run h).bounded (by decide)

theorem channels_run (h : Run (Step E) Sys.init tr s) : ChannelsOk s :=
  h.invariant_of (I := fun _ s => ChannelsOk s) (fun _ => .inl rfl) fun _ _ _ _ hr hs hstep => hs.step (bounded_run hr) hstep

/-- A channel that was opened at `a₀` delivers from there on. -/
theorem delivered_run {a₀ : Int} (h : Run (Step E) Sys.init tr s) {m : Move Sys Label} (hm : m ∈ tr) (ho : Opens id a₀ m) :
    ∃ c d, Delivered id a₀ tr s c d := by
  induction h with
  | nil => cases hm
  | @snoc tr s t l hr hstep ih =>
    have hs := channels_run hr
    rcases List.mem_append.1 hm with hm | hm
    · obtain ⟨c, d, hd⟩ := ih hm
      obtain ⟨c', d', hd', -⟩ := hd.step hs (bounded_run hr) hstep
      exact ⟨c', d', hd'⟩
    · rw [List.mem_singleton.1 hm] at ho
      obtain ⟨c, d, hcd, hrec⟩ := (hs.step (bounded_run hr) hstep).of_ne_null
        (show t.channel id ≠ .null by rw [show t.channel id = _ from ho.2]; nofun)
      obtain ⟨rfl, rfl⟩ := channelRecord_inj (hrec.symm.trans ho.2)
      exact ⟨_, _, hrec, hcd, le_refl _, le_max_left _ _, fun n e _ hlt hle => absurd hlt (by omega)⟩

/-- A refused request, one that throws and a repeated `channel.open` change no channel. -/
theorem Step.channel_kept (hs : ChannelsOk s) (h : Step E s l t) (hne : s.channel id ≠ .null)
    (hl : (∃ req, l = .throws req) ∨ (∃ req r, (l = .enter req (.reply r) ∨ ∃ request, l = .enter req (.refused request r)) ∧ Refuses r) ∨
      ∃ req entry, l = .enter req entry ∧ req.get? "op" = some (.str "channel.open")) : t.channel id = s.channel id := by
  rcases hl with ⟨req, rfl⟩ | ⟨req, r, hl, hr⟩ | ⟨req, entry, rfl, hop⟩
  · cases h with
    | enterThrows _ h => exact (enter_error h).exec ..
    | enterFails _ h => exact h.exec ..
    | leaveThrows _ h => exact (leave_error h).exec ..
    | leaveFails _ h => exact h.exec ..
  · rcases hl with rfl | ⟨request, rfl⟩
    · cases h with
      | enter _ h => exact congrArg (fun db : Db => db.get .channel id) (enter_refuses.1 h hr)
    · rcases h.controlled with ⟨_, _, _, _, hl | ⟨hl, -⟩, -⟩ | hframe
      · cases hl
      · cases hl
      · exact hframe.get _ _ (by decide)
  · cases h.channel hs id with
    | same he => exact he
    | opened _ ho => exact absurd ho.1 hne
    | read hr =>
      obtain ⟨req', _, hop', -, hl, -⟩ := hr.label
      cases hl
      rw [hop] at hop'
      cases hop'
    | acked hl hop' =>
      cases hl
      rw [hop] at hop'
      cases hop'

/-- **At-least-once delivery without gaps.** In every run, a channel opened at `a₀` has its cursor
between `a₀` and what was delivered; every event of the log after `a₀` up to there was among the
rows of a read of the channel, and the rows of every read are the events that follow its cursor,
in order; no step takes either cursor back, and refusals, throws and repeated opens change none. -/
theorem channel_at_least_once (E : Env) {tr : List (Move Sys Label)} {s : Sys} (h : Run (Step E) Sys.init tr s) {id : Str}
    {a₀ : Int} {m : Move Sys Label} (hm : m ∈ tr) (ho : Opens id a₀ m) :
    ∃ c d, s.channel id = channelRecord id c d ∧ a₀ ≤ c ∧ c ≤ d ∧
      (∀ (n : Nat) (e : Event), s.st.db.events[n]? = some e → a₀ < n + 1 → (n + 1 : Int) ≤ d →
        ∃ m ∈ tr, ∃ c rows, Reads id c rows m ∧ (e, n + 1) ∈ rows) ∧
      (∀ m ∈ tr, ∀ c rows, Reads id c rows m → ∀ (i q : Nat) (e : Event), rows[i]? = some (e, q) →
        q = c.toNat + i + 1 ∧ m.pre.st.db.events[c.toNat + i]? = some e) ∧
      ∀ l t, Step E s l t → (∃ c' d', t.channel id = channelRecord id c' d' ∧ c ≤ c' ∧ d ≤ d') ∧
        ((∃ req, l = .throws req) ∨
          (∃ req r, (l = .enter req (.reply r) ∨ ∃ request, l = .enter req (.refused request r)) ∧ Refuses r) ∨
          (∃ req entry, l = .enter req entry ∧ req.get? "op" = some (.str "channel.open")) →
          t.channel id = s.channel id) := by
  have hs := channels_run h
  obtain ⟨c, d, hd⟩ := delivered_run h hm ho
  refine ⟨c, d, hd.record, hd.start, hd.order.le, hd.covered, fun m hm c rows hr i q e hi => hr.consecutive hi,
    fun l t hstep => ⟨?_, ?_⟩⟩
  · obtain ⟨c', d', hd', hc, hd''⟩ := hd.step hs (bounded_run h) hstep
    exact ⟨c', d', hd'.record, hc, hd''⟩
  · exact hstep.channel_kept hs (by rw [hd.record]; nofun)

/-- A channel is opened, an event is appended, and the channel is read. -/
def inboxMoves : List (Move Sys Label) :=
  let m₀ : Move Sys Label := ⟨Sys.init, .boot false, { Sys.init with up := true }⟩
  let m₁ := sampleEnter (.object [("op", .str "channel.open"), ("id", .str "inbox")]) m₀.post
  let e := eventFor sampleEnv [] (sampleEnv.clock m₁.post.st.tick) createdEvent
  let m₂ : Move Sys Label := ⟨m₁.post, .event createdEvent,
    { m₁.post with st := { m₁.post.st with db := { m₁.post.st.db with events := [e] }, tick := m₁.post.st.tick + 1 } }⟩
  let m₃ := sampleEnter (.object [("op", .str "channel.read"), ("id", .str "inbox")]) m₂.post
  [m₀, m₁, m₂, m₃]

def inboxEnd : Sys := lastState inboxMoves

set_option maxRecDepth 10000 in
theorem inbox_run : Run (Step sampleEnv) Sys.init inboxMoves inboxEnd := by
  refine .snoc (.snoc (.snoc (.snoc .nil ?_) ?_) ?_) ?_
  · exact .boot rfl rfl
  · exact .enter rfl rfl
  · exact .event rfl rfl
  · exact .enter rfl rfl

set_option maxRecDepth 10000 in
theorem channel_at_least_once_inbox : inboxEnd.channel "inbox" = channelRecord "inbox" 0 1 ∧
    ∀ e, inboxEnd.st.db.events[0]? = some e → ∃ m ∈ inboxMoves, ∃ c rows, Reads "inbox" c rows m ∧ (e, 1) ∈ rows := by
  have hopens : Opens "inbox" 0 inboxMoves[1] := ⟨rfl, rfl⟩
  obtain ⟨c, d, hrec, -, -, hcovered, -⟩ := channel_at_least_once sampleEnv inbox_run (List.getElem_mem _) hopens
  have hend : inboxEnd.channel "inbox" = channelRecord "inbox" 0 1 := rfl
  obtain ⟨rfl, rfl⟩ := channelRecord_inj (hrec.symm.trans hend)
  exact ⟨hend, fun e he => hcovered 0 e he (by decide) (by decide)⟩

end Runs

end A2ad.Control
