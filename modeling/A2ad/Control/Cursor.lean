/-
What one request does to the cursor of a channel, and with what reply: a page is what stands in the reply
of the read, an acknowledgement moves the cursor exactly to where it says, and nothing else moves it.
-/
import A2ad.Control.Channel

namespace A2ad.Control

open Bytes Json

variable {E : Env} {enforce : Bool} {req r : J} {s t : Sys} {l : Label} {id : Str}

/-! ## The operations -/

theorem control_channelRead (h : req.get? "op" = some (.str "channel.read")) : control E enforce req = eventsRead "channel.read" req := by
  have hop : req.valueStr "op" "" = .ok "channel.read" := J.valueStr_ok.2 ⟨J.isObject_of_get? h, .inl h⟩
  unfold control
  rw [hop]
  rfl

theorem control_channelAck (h : req.get? "op" = some (.str "channel.ack")) : control E enforce req = channelAck req := by
  have hop : req.valueStr "op" "" = .ok "channel.ack" := J.valueStr_ok.2 ⟨J.isObject_of_get? h, .inl h⟩
  unfold control
  rw [hop]
  rfl

/-- What an acknowledgement that succeeds writes: the cursor that it names, which lies within what was delivered. -/
structure Acked (req : J) (id : Str) (c d c' : Int) (u v : St) : Prop where
  named : ∃ x, req.get? "cursor" = some x ∧ x.asInt64 = .ok c'
  forward : c ≤ c'
  within : c' ≤ d
  post : v = { u with db := u.db.put .channel id (channelRecord id c' d) }

theorem channelAck_exact {u v : St} (h : channelAck req u = .ok r v) : v = u ∧ r.get? "ok" = some (.bool false) ∨
    ∃ id, required req "id" = .ok id ∧ u.db.get .channel id ≠ .null ∧
      ∀ c d, u.db.get .channel id = channelRecord id c d → InOrder c d → ∃ c', Acked req id c d c' u v := by
  unfold channelAck at h
  obtain ⟨id, hid, h⟩ := Tx.lift_bind_ok h
  obtain ⟨_, _, hr, h⟩ := Tx.bind_ok.1 h
  obtain ⟨rfl, rfl⟩ := read_ok.1 hr
  split at h
  · obtain ⟨rfl, rfl⟩ := Tx.pure_ok.1 h
    exact .inl ⟨rfl, by simp [failure]⟩
  rename_i hnull
  obtain ⟨x, hx, h⟩ := Tx.lift_bind_ok h
  obtain ⟨c', hc', h⟩ := Tx.lift_bind_ok h
  obtain ⟨vc, hvc, h⟩ := Tx.lift_bind_ok h
  obtain ⟨oldc, holdc, h⟩ := Tx.lift_bind_ok h
  split at h
  · obtain ⟨rfl, rfl⟩ := Tx.pure_ok.1 h
    exact .inl ⟨rfl, by simp [failure]⟩
  rename_i hlow
  obtain ⟨vd, hvd, h⟩ := Tx.lift_bind_ok h
  obtain ⟨oldd, holdd, h⟩ := Tx.lift_bind_ok h
  split at h
  · obtain ⟨rfl, rfl⟩ := Tx.pure_ok.1 h
    exact .inl ⟨rfl, by simp [failure]⟩
  rename_i hhigh
  obtain ⟨rec, hrec, h⟩ := Tx.lift_bind_ok h
  obtain ⟨_, _, hw, h⟩ := Tx.bind_ok.1 h
  obtain ⟨-, rfl⟩ := write_ok.1 hw
  obtain ⟨-, rfl⟩ := Tx.pure_ok.1 h
  refine .inr ⟨id, hid, fun e => by simp [e, J.isNull] at hnull, fun c d hcd hin => ⟨c', ?_⟩⟩
  obtain ⟨hc, hd⟩ := channelRecord_fields id hin
  rw [← hcd, hvc] at hc
  rw [← hcd, hvd] at hd
  obtain rfl : oldc = c := Except.ok.inj (holdc.symm.trans hc)
  obtain rfl : oldd = d := Except.ok.inj (holdd.symm.trans hd)
  rw [hcd] at hrec
  cases hrec
  exact ⟨⟨x, J.field_ok.1 hx, hc'⟩, not_lt.1 hlow, not_lt.1 hhigh, rfl⟩

/-- An operation that is neither a query nor a mutation is answered by `control`. -/
theorem enter_control {op : Str} (hop : req.get? "op" = some (.str op)) (hquery : isQuery op = false) (hmutation : mutation op = false)
    {u v : St} (h : enter E enforce req u = .ok (.reply r) v) : ∃ w, Still u w ∧ control E enforce req w = .ok r v := by
  cases enter_cases h with
  | answered hanswered =>
    rcases hanswered op hop with h | h
    · rw [hquery] at h
      cases h
    · rw [hmutation] at h
      cases h
  | controlled hstill hcontrol => exact ⟨_, hstill, hcontrol⟩

/-! ## Steps -/

/-- The page that a reply to a read holds. -/
structure Page (s t : Sys) (id : Str) (r : J) (c d : Int) (rows : List (Event × Nat)) (limit : Nat) : Prop where
  reply : r = readReply rows c limit
  page : rows = (rowsFrom s.st.db c.toNat).take limit
  pre : s.channel id = channelRecord id c d
  order : InOrder c d
  post : t.channel id = channelRecord id c (max d (c + rows.length))

/-- A read is refused, or its reply is the page that follows the cursor. -/
theorem Step.page (hs : ChannelsOk s) (h : Step E s (.enter req (.reply r)) t) (hop : req.get? "op" = some (.str "channel.read"))
    (hid : req.get? "id" = some (.str id)) :
    r.get? "ok" = some (.bool false) ∧ t.channel id = s.channel id ∨ ∃ c d rows limit, Page s t id r c d rows limit := by
  cases h with
  | enter _ henter =>
    obtain ⟨w, hstill, hcontrol⟩ := enter_control hop (by decide) (by decide) henter
    rw [control_channelRead hop] at hcontrol
    rcases eventsRead_cases hcontrol with ⟨rfl, hok⟩ | ⟨i, hi, hne, hread⟩
    · exact .inl ⟨hok, hstill.exec ..⟩
    · obtain rfl : i = id := by
        have hgiven := (required_ok hi).1
        rw [hid] at hgiven
        cases hgiven
        rfl
      have hsame : w.db.get .channel i = s.channel i := hstill.exec ..
      rw [hsame] at hne
      obtain ⟨c, d, hcd, hrec⟩ := hs.of_ne_null hne
      obtain ⟨rows, limit, hr⟩ := hread c d (hsame.trans hrec) hcd
      refine .inr ⟨c, d, rows, limit, hr.reply, ?_, hrec, hcd, ?_⟩
      · rw [hr.page, rowsFrom, rowsFrom, hstill.db]
      · show (Sys.channel ⟨_, _, _, _⟩ i) = _
        unfold Sys.channel
        simp only [hr.post]
        exact Db.get_put_self ..

/-- An acknowledgement is refused, or the cursor stands where it says. -/
theorem Step.ack (hs : ChannelsOk s) (h : Step E s (.enter req (.reply r)) t) (hop : req.get? "op" = some (.str "channel.ack"))
    (hid : req.get? "id" = some (.str id)) :
    r.get? "ok" = some (.bool false) ∧ t.channel id = s.channel id ∨
      ∃ c d c', s.channel id = channelRecord id c d ∧ InOrder c d ∧ (∃ x, req.get? "cursor" = some x ∧ x.asInt64 = .ok c') ∧
        c ≤ c' ∧ c' ≤ d ∧ t.channel id = channelRecord id c' d := by
  cases h with
  | enter _ henter =>
    obtain ⟨w, hstill, hcontrol⟩ := enter_control hop (by decide) (by decide) henter
    rw [control_channelAck hop] at hcontrol
    rcases channelAck_exact hcontrol with ⟨rfl, hok⟩ | ⟨i, hi, hne, hack⟩
    · exact .inl ⟨hok, hstill.exec ..⟩
    · obtain rfl : i = id := by
        have hgiven := (required_ok hi).1
        rw [hid] at hgiven
        cases hgiven
        rfl
      have hsame : w.db.get .channel i = s.channel i := hstill.exec ..
      rw [hsame] at hne
      obtain ⟨c, d, hcd, hrec⟩ := hs.of_ne_null hne
      obtain ⟨c', hacked⟩ := hack c d (hsame.trans hrec) hcd
      refine .inr ⟨c, d, c', hrec, hcd, hacked.named, hacked.forward, hacked.within, ?_⟩
      show (Sys.channel ⟨_, _, _, _⟩ i) = _
      unfold Sys.channel
      simp only [hacked.post]
      exact Db.get_put_self ..

/-- Only an acknowledgement of the channel moves its cursor. -/
theorem Step.cursor_kept (hs : ChannelsOk s) (h : Step E s l t) {c d : Int} (hrec : s.channel id = channelRecord id c d)
    (hother : ∀ req entry, l = .enter req entry → req.get? "op" = some (.str "channel.ack") → req.get? "id" ≠ some (.str id)) :
    ∃ d', t.channel id = channelRecord id c d' := by
  cases h.channel hs id with
  | same he => exact ⟨d, he.trans hrec⟩
  | opened _ ho =>
    have hnull : s.channel id = .null := ho.1
    rw [hnull] at hrec
    cases hrec
  | read _ hrec' ht =>
    obtain ⟨rfl, rfl⟩ := channelRecord_inj (hrec'.symm.trans hrec)
    exact ⟨_, ht⟩
  | @acked _ _ _ req entry hl hop hrec' =>
    refine ⟨d, ?_⟩
    rcases h.controlled with ⟨req', r, u, K, hl', hu, hc⟩ | hframe
    swap
    · exact (hframe.get _ _ (by decide)).trans hrec
    have hreq : req' = req := by
      rcases hl' with rfl | ⟨rfl, -⟩
      · cases hl
        rfl
      · cases hl
        rfl
    subst hreq
    have hpre : ∀ i, u.db.get .channel i = s.channel i := fun i => hu.exec ..
    have hframe := hc.frame
    cases hc with
    | channelAck _ hack =>
      rcases channelAck_cases hack with ht | ⟨i, hi, hne', hput⟩
      · rw [← hrec, Sys.channel, ht, hpre]
      · -- the channel that is acknowledged is another
        have hne : id ≠ i := by
          rintro rfl
          exact hother _ _ hl hop (required_ok hi).1
        rw [hpre] at hne'
        obtain ⟨ci, di, hin, hci⟩ := hs.of_ne_null hne'
        obtain ⟨c', -, -, ht⟩ := hput ci di ((hpre i).trans hci) hin
        rw [← hrec, Sys.channel, ht, ← hpre]
        exact Db.get_put_ne _ _ (by simpa using hne)
    | channelOpen hop' =>
      rw [hop] at hop'
      cases hop'
    | eventsRead hop'' hop' =>
      rw [hop] at hop'
      cases hop'
      exact absurd hop'' (by decide)
    | _ => exact ((hframe.get _ _ (by decide)).trans (hpre id)).trans hrec

end A2ad.Control
