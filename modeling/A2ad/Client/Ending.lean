/-
Where a subscription ends. The events that one chunk completes are all handled before the stop is
looked at, so what is delivered is what the stream says up to its first terminal update only if no
other update arrives in the chunk of that update.
-/
import A2ad.Client.Events

namespace A2ad.Client

open Bytes Json

/-! ## Batches -/

section Batches

variable {σ τ : Type} (onEvent : J → σ → σ) (stopped : σ → Bool)

/-- Events that arrive in batches; between two of them the stop is looked at. -/
def batches (s : σ) (bs : List (List J)) : σ :=
  bs.foldl (fun s b => if stopped s then s else b.foldl (fun s e => onEvent e s) s) s

/-- The values of the events that each chunk completes, after what is pending. -/
def cut (parse : Str → Option J) : Str → List Str → List (List J)
  | _, [] => []
  | pending, chunk :: rest =>
    let framed := frames ((pending ++ chunk).filter (· ≠ 13))
    framed.1.filterMap (eventValue parse) :: cut parse framed.2 rest

variable {onEvent stopped}

theorem batches_stopped {s : σ} (h : stopped s = true) (bs : List (List J)) : batches onEvent stopped s bs = s := by
  induction bs with
  | nil => rfl
  | cons b bs ih =>
    unfold batches at ih ⊢
    rw [List.foldl_cons, if_pos h, ih]

theorem batches_cons {s : σ} (h : stopped s = false) (b : List J) (bs : List (List J)) :
    batches onEvent stopped s (b :: bs) = batches onEvent stopped (b.foldl (fun s e => onEvent e s) s) bs := by
  unfold batches
  rw [List.foldl_cons, if_neg (by simp [h])]

/-- Chunks are handled as the batches they are cut into. -/
theorem consumeAll_batches (parse : Str → Option J) (s : σ) (chunks : List Str) :
    consumeAll parse onEvent stopped s chunks = batches onEvent stopped s (cut parse [] chunks) := by
  have hfold : ∀ (chunks : List Str) (pending : Str) (s : σ),
      (chunks.foldl (consume parse onEvent stopped) (pending, s)).2 = batches onEvent stopped s (cut parse pending chunks) := by
    intro chunks
    induction chunks with
    | nil => exact fun _ _ => rfl
    | cons chunk chunks ih =>
      intro pending s
      rw [List.foldl_cons]
      cases hs : stopped s with
      | true =>
        have hkept : consume parse onEvent stopped (pending, s) chunk = (pending, s) := if_pos hs
        rw [hkept, ih, batches_stopped hs, batches_stopped hs]
      | false =>
        have htaken : consume parse onEvent stopped (pending, s) chunk =
            ((frames ((pending ++ chunk).filter (· ≠ 13))).2,
              ((frames ((pending ++ chunk).filter (· ≠ 13))).1.filterMap (eventValue parse)).foldl (fun s e => onEvent e s) s) :=
          if_neg (by simp [hs])
        rw [htaken, ih]
        exact (batches_cons hs _ _).symm
  exact hfold chunks [] s

theorem consumeEvents_batches (s : σ) (events : List J) :
    consumeEvents onEvent stopped s events = batches onEvent stopped s (events.map fun e => [e]) := by
  induction events generalizing s with
  | nil => rfl
  | cons e events ih =>
    unfold consumeEvents
    cases hs : stopped s with
    | true => rw [if_pos rfl, batches_stopped hs]
    | false => rw [if_neg (by simp), List.map_cons, batches_cons hs, ih]; rfl

/-- All batches together are the events of the bytes, however these are cut. -/
theorem cut_flatten (parse : Str → Option J) (chunks : List Str) :
    (cut parse [] chunks).flatten = (frames (chunks.flatten.filter (· ≠ 13))).1.filterMap (eventValue parse) := by
  have hcollect : ∀ (events : List J) (seen : List J), events.foldl (fun seen e => seen ++ [e]) seen = seen ++ events := by
    intro events
    induction events with
    | nil => simp
    | cons e events ih =>
      intro seen
      rw [List.foldl_cons, ih]
      simp
  have hall : ∀ (bs : List (List J)) (seen : List J),
      batches (fun e seen => seen ++ [e]) (fun _ => false) seen bs = seen ++ bs.flatten := by
    intro bs
    induction bs with
    | nil => simp [batches]
    | cons b bs ih =>
      intro seen
      rw [batches_cons rfl, ih, hcollect]
      simp
  have hboth := @consumeAll_batches (List J) (fun e seen => seen ++ [e]) (fun _ => false) parse [] chunks
  rw [hall, List.nil_append, consumeAll_eq, handed, hcollect, List.nil_append] at hboth
  exact hboth.symm

/-- What is forgotten of the state on the way can be forgotten at the end. -/
theorem batches_map {onEvent' : J → τ → τ} {stopped' : τ → Bool} (f : σ → τ) (hevent : ∀ e s, f (onEvent e s) = onEvent' e (f s))
    (hstop : ∀ s, stopped s = stopped' (f s)) (s : σ) (bs : List (List J)) :
    f (batches onEvent stopped s bs) = batches onEvent' stopped' (f s) bs := by
  have hfold : ∀ (b : List J) (s : σ), f (b.foldl (fun s e => onEvent e s) s) = b.foldl (fun s e => onEvent' e s) (f s) := by
    intro b
    induction b with
    | nil => exact fun _ => rfl
    | cons e b ih =>
      intro s
      rw [List.foldl_cons, ih, hevent]
      rfl
  induction bs generalizing s with
  | nil => rfl
  | cons b bs ih =>
    cases hs : stopped s with
    | true => rw [batches_stopped hs, batches_stopped (by rw [← hstop, hs])]
    | false => rw [batches_cons hs, batches_cons (by rw [← hstop, hs]), ih, hfold]

end Batches

/-! ## Deliveries -/

section Deliveries

variable {β : Type} (r : Str) (onTask : Task → β → M β)

/-- The update that `on_task` is called with for an event. -/
def updateOf (event : J) : Option Task :=
  match decodeUpdate r event with
  | .ok update => update
  | .error _ => none

def updatesOf (events : List J) : List Task := events.filterMap (updateOf r)

def terminalOf (event : J) : Option Task := (updateOf r event).filter fun t => t.state.isTerminal

/-- `onUpdate` with a record of the calls of `on_task`, whether they return or throw. -/
def onLogged (event : J) (st : (World × β × Bool) × List Task) : (World × β × Bool) × List Task :=
  (onUpdate r onTask event st.1, st.2 ++ (updateOf r event).toList)

/-- The updates up to the first terminal one. -/
def throughTerminal : List Task → List Task
  | [] => []
  | t :: ts => if t.state.isTerminal then [t] else t :: throughTerminal ts

/-- The first terminal update among events in batches: the events before it, those behind it in its
batch, and those of later batches. -/
structure Ending where
  earlier : List J
  update : Task
  same : List J
  later : List J

def endingIn : List J → Option (List J × Task × List J)
  | [] => none
  | e :: es =>
    match terminalOf r e with
    | some t => some ([], t, es)
    | none => (endingIn es).map fun x => (e :: x.1, x.2)

def ending : List (List J) → Option Ending
  | [] => none
  | b :: bs =>
    match endingIn r b with
    | some (earlier, t, same) => some ⟨earlier, t, same, bs.flatten⟩
    | none => (ending bs).map fun x => { x with earlier := b ++ x.earlier }

end Deliveries

section Logged

variable {β : Type} {r : Str} {onTask : Task → β → M β} {st : World × β × Bool}

/-- An event without an update does nothing. -/
theorem onUpdate_none {e : J} (h : updateOf r e = none) : onUpdate r onTask e st = st := by
  obtain ⟨s, b, stop⟩ := st
  unfold updateOf at h
  unfold onUpdate
  cases hdecode : decodeUpdate r e with
  | error ex => rfl
  | ok update =>
    rw [hdecode] at h
    cases h
    show (s, b, stop || false) = (s, b, stop)
    rw [Bool.or_false]

/-- An update goes to `on_task`; a terminal one asks for the stop if that returns. -/
theorem onUpdate_some {e : J} {t : Task} (h : updateOf r e = some t) : onUpdate r onTask e st =
    match onTask t st.2.1 st.1 with
    | .ok b s => (s, b, st.2.2 || t.state.isTerminal)
    | .error _ s => (s, st.2) := by
  unfold updateOf at h
  unfold onUpdate
  cases hdecode : decodeUpdate r e with
  | error ex =>
    rw [hdecode] at h
    cases h
  | ok update =>
    rw [hdecode] at h
    cases h
    dsimp only
    rw [Tx.bind_of_ok (Tx.lift_of_ok rfl)]
    cases hrun : onTask t st.2.1 st.1 with
    | ok b s =>
      dsimp only
      rw [Tx.bind_of_ok hrun]
      rfl
    | error e s =>
      dsimp only
      rw [Tx.bind_error.2 (.inl hrun)]

/-- Without a terminal update the stop is as it was. -/
theorem onUpdate_stop {e : J} (h : terminalOf r e = none) : (onUpdate r onTask e st).2.2 = st.2.2 := by
  cases hupdate : updateOf r e with
  | none => rw [onUpdate_none hupdate]
  | some t =>
    unfold terminalOf at h
    rw [hupdate] at h
    have hnot : t.state.isTerminal = false := by simpa using h
    rw [onUpdate_some hupdate]
    cases onTask t st.2.1 st.1 with
    | ok b s => show (st.2.2 || t.state.isTerminal) = st.2.2; rw [hnot, Bool.or_false]
    | error ex s => rfl

theorem fold_stop (es : List J) (h : ∀ e ∈ es, terminalOf r e = none) (st : World × β × Bool) :
    (es.foldl (fun st e => onUpdate r onTask e st) st).2.2 = st.2.2 := by
  induction es generalizing st with
  | nil => rfl
  | cons e es ih =>
    obtain ⟨he, hes⟩ := List.forall_mem_cons.1 h
    rw [List.foldl_cons, ih hes, onUpdate_stop he]

theorem fold_stopped (es : List J) (st : World × β × Bool) (h : st.2.2 = true) :
    (es.foldl (fun st e => onUpdate r onTask e st) st).2.2 = true := by
  induction es generalizing st with
  | nil => exact h
  | cons e es ih =>
    rw [List.foldl_cons]
    refine ih _ ?_
    cases hupdate : updateOf r e with
    | none => rw [onUpdate_none hupdate, h]
    | some t =>
      rw [onUpdate_some hupdate]
      cases onTask t st.2.1 st.1 with
      | ok b s => show (st.2.2 || t.state.isTerminal) = true; rw [h, Bool.true_or]
      | error ex s => exact h

theorem fold_quiet (es : List J) (h : updatesOf r es = []) (st : World × β × Bool) :
    es.foldl (fun st e => onUpdate r onTask e st) st = st := by
  induction es with
  | nil => rfl
  | cons e es ih =>
    unfold updatesOf at h ih
    cases hupdate : updateOf r e with
    | none =>
      rw [List.filterMap_cons_none hupdate] at h
      rw [List.foldl_cons, onUpdate_none hupdate, ih h]
    | some t =>
      rw [List.filterMap_cons_some hupdate] at h
      cases h

/-- The record of a fold. -/
theorem fold_logged (es : List J) (st : World × β × Bool) (log : List Task) :
    es.foldl (fun st e => onLogged r onTask e st) (st, log) =
      (es.foldl (fun st e => onUpdate r onTask e st) st, log ++ updatesOf r es) := by
  induction es generalizing st log with
  | nil => simp [updatesOf]
  | cons e es ih =>
    rw [List.foldl_cons, List.foldl_cons]
    show es.foldl _ (onUpdate r onTask e st, log ++ (updateOf r e).toList) = _
    rw [ih, List.append_assoc]
    refine Prod.ext rfl ?_
    unfold updatesOf
    cases hupdate : updateOf r e with
    | none => rw [List.filterMap_cons_none hupdate]; rfl
    | some t => rw [List.filterMap_cons_some hupdate]; rfl

theorem endingIn_none {es : List J} (h : endingIn r es = none) : ∀ e ∈ es, terminalOf r e = none := by
  induction es with
  | nil => nofun
  | cons e es ih =>
    unfold endingIn at h
    cases he : terminalOf r e with
    | some t =>
      rw [he] at h
      cases h
    | none =>
      rw [he] at h
      exact List.forall_mem_cons.2 ⟨he, ih (Option.map_eq_none_iff.1 h)⟩

theorem endingIn_some {es earlier same : List J} {t : Task} (h : endingIn r es = some (earlier, t, same)) :
    (∀ e ∈ earlier, terminalOf r e = none) ∧ ∃ e, terminalOf r e = some t ∧ es = earlier ++ e :: same := by
  induction es generalizing earlier with
  | nil => cases h
  | cons e es ih =>
    unfold endingIn at h
    cases he : terminalOf r e with
    | some u =>
      rw [he] at h
      cases h
      exact ⟨nofun, e, he, rfl⟩
    | none =>
      rw [he] at h
      obtain ⟨⟨earlier', x⟩, hin, hcut⟩ := Option.map_eq_some_iff.1 h
      cases hcut
      obtain ⟨hnone, e', he', rfl⟩ := ih hin
      exact ⟨List.forall_mem_cons.2 ⟨he, hnone⟩, e', he', rfl⟩

theorem terminalOf_some {e : J} {t : Task} (h : terminalOf r e = some t) : updateOf r e = some t ∧ t.state.isTerminal = true := by
  unfold terminalOf at h
  simpa using h

theorem throughTerminal_none {es : List J} (h : ∀ e ∈ es, terminalOf r e = none) (ts : List Task) :
    throughTerminal (updatesOf r es ++ ts) = updatesOf r es ++ throughTerminal ts := by
  induction es with
  | nil => rfl
  | cons e es ih =>
    obtain ⟨he, hes⟩ := List.forall_mem_cons.1 h
    have ih := ih hes
    unfold updatesOf at ih ⊢
    cases hupdate : updateOf r e with
    | none => rw [List.filterMap_cons_none hupdate, ih]
    | some t =>
      unfold terminalOf at he
      rw [hupdate] at he
      have hnot : t.state.isTerminal = false := by simpa using he
      rw [List.filterMap_cons_some hupdate, List.cons_append, throughTerminal, hnot, if_neg Bool.false_ne_true, ih]
      rfl

/-- Nothing follows a terminal update in what ends with the first one. -/
theorem throughTerminal_ends (ts before after : List Task) (t : Task) (h : throughTerminal ts = before ++ t :: after)
    (ht : t.state.isTerminal = true) : after = [] := by
  induction ts generalizing before with
  | nil => cases before <;> cases h
  | cons u us ih =>
    unfold throughTerminal at h
    split at h
    · cases before with
      | nil =>
        cases h
        rfl
      | cons v before => cases before <;> cases h
    · rename_i hu
      cases before with
      | nil =>
        cases h
        exact absurd ht hu
      | cons v before =>
        obtain ⟨-, h⟩ := List.cons.inj h
        exact ih before h

end Logged

/-! ## Batches of a subscription -/

section Subscription

variable {β : Type} {r : Str} {onTask : Task → β → M β}

/-- The state after some batches, and the record of what was delivered. -/
def delivered (r : Str) (onTask : Task → β → M β) (st : World × β × Bool) (log : List Task) (bs : List (List J)) :
    (World × β × Bool) × List Task :=
  batches (onLogged r onTask) (fun st => st.1.2.2) (st, log) bs

theorem deliver_stopped {st : World × β × Bool} (h : st.2.2 = true) (log : List Task) (bs : List (List J)) :
    delivered r onTask st log bs = (st, log) :=
  @batches_stopped _ _ (fun st : (World × β × Bool) × List Task => st.1.2.2) (st, log) h bs

theorem deliver_cons {st : World × β × Bool} (h : st.2.2 = false) (log : List Task) (b : List J) (bs : List (List J)) :
    delivered r onTask st log (b :: bs) =
      delivered r onTask (b.foldl (fun st e => onUpdate r onTask e st) st) (log ++ updatesOf r b) bs := by
  unfold delivered
  rw [@batches_cons _ _ (fun st : (World × β × Bool) × List Task => st.1.2.2) (st, log) h, fold_logged]

/-- As long as the stream is not stopped, something more is delivered if there is anything more. -/
theorem deliver_more (bs : List (List J)) (st : World × β × Bool) (h : st.2.2 = false) (log : List Task) :
    ∃ more, (delivered r onTask st log bs).2 = log ++ more ∧ (more = [] ↔ updatesOf r bs.flatten = []) := by
  induction bs generalizing st log with
  | nil => exact ⟨[], (List.append_nil _).symm, by simp [updatesOf]⟩
  | cons b bs ih =>
    have hsplit : updatesOf r (b :: bs).flatten = updatesOf r b ++ updatesOf r bs.flatten := List.filterMap_append
    rw [deliver_cons h, hsplit]
    cases hb : updatesOf r b with
    | nil =>
      rw [fold_quiet b hb, List.append_nil]
      exact ih st h log
    | cons t ts =>
      obtain ⟨st', hst'⟩ : ∃ st', st' = b.foldl (fun st e => onUpdate r onTask e st) st := ⟨_, rfl⟩
      rw [← hst']
      cases hstop : st'.2.2 with
      | true =>
        rw [deliver_stopped hstop]
        exact ⟨t :: ts, rfl, by simp⟩
      | false =>
        obtain ⟨more, hmore, -⟩ := ih st' hstop (log ++ t :: ts)
        exact ⟨t :: ts ++ more, by rw [hmore, List.append_assoc], by simp⟩

/-- Nothing of the record is taken back. -/
theorem deliver_grows (bs : List (List J)) (st : World × β × Bool) (log : List Task) :
    ∃ more, (delivered r onTask st log bs).2 = log ++ more := by
  cases hstop : st.2.2 with
  | true =>
    rw [deliver_stopped hstop]
    exact ⟨[], (List.append_nil _).symm⟩
  | false =>
    obtain ⟨more, hmore, -⟩ := @deliver_more β r onTask bs st hstop log
    exact ⟨more, hmore⟩

theorem updates_around {e : J} {t : Task} (hupdate : updateOf r e = some t) (earlier same : List J) :
    updatesOf r (earlier ++ e :: same) = updatesOf r earlier ++ [t] ++ updatesOf r same := by
  unfold updatesOf
  rw [List.filterMap_append, List.filterMap_cons_some hupdate, List.append_assoc]
  rfl

/-- `on_task` returns from a call. -/
def Takes (onTask : Task → β → M β) (t : Task) (st : World × β × Bool) : Prop := ∃ b s, onTask t st.2.1 st.1 = .ok b s

/-- The batch with the terminal update: what stands behind the update in the batch is handed on as well, and what
comes in later batches only if nothing stops the stream by then. -/
theorem deliver_terminal (earlier same : List J) {e : J} {t : Task} (bs : List (List J)) (st : World × β × Bool)
    (h : st.2.2 = false) (log : List Task) (hnone : ∀ e ∈ earlier, terminalOf r e = none) (he : terminalOf r e = some t) :
    ∃ more, (delivered r onTask ((earlier ++ e :: same).foldl (fun st e => onUpdate r onTask e st) st)
        (log ++ updatesOf r (earlier ++ e :: same)) bs).2 =
        log ++ (updatesOf r earlier ++ [t]) ++ updatesOf r same ++ more ∧
      (updatesOf r same = [] → (more = [] ↔
        Takes onTask t (earlier.foldl (fun st e => onUpdate r onTask e st) st) ∨ updatesOf r bs.flatten = [])) := by
  obtain ⟨hupdate, hterminal⟩ := terminalOf_some he
  obtain ⟨st₁, hst₁⟩ : ∃ st₁, st₁ = earlier.foldl (fun st e => onUpdate r onTask e st) st := ⟨_, rfl⟩
  have hfold : (earlier ++ e :: same).foldl (fun st e => onUpdate r onTask e st) st =
      same.foldl (fun st e => onUpdate r onTask e st) (onUpdate r onTask e st₁) := by
    rw [List.foldl_append, List.foldl_cons, hst₁]
  rw [hfold, updates_around hupdate, ← hst₁, ← List.append_assoc]
  have hstop₁ : st₁.2.2 = false := by rw [hst₁, fold_stop earlier hnone, h]
  by_cases htakes : Takes onTask t st₁
  · -- the stop is asked for and ends the stream with this batch
    obtain ⟨b', w, hreturns⟩ := htakes
    have hasked : (onUpdate r onTask e st₁).2.2 = true := by
      rw [onUpdate_some hupdate, hreturns]
      show (st₁.2.2 || t.state.isTerminal) = true
      rw [hterminal, Bool.or_true]
    refine ⟨[], ?_, fun _ => iff_of_true rfl (.inl ⟨b', w, hreturns⟩)⟩
    rw [deliver_stopped (fold_stopped same _ hasked), List.append_nil]
  · -- the call throws before the stop is asked for, and the stream goes on
    have hkept : (onUpdate r onTask e st₁).2.2 = false := by
      rw [onUpdate_some hupdate]
      cases hthrown : onTask t st₁.2.1 st₁.1 with
      | ok b' w => exact absurd ⟨b', w, hthrown⟩ htakes
      | error ex w => exact hstop₁
    cases hsame : updatesOf r same with
    | nil =>
      rw [fold_quiet same hsame]
      obtain ⟨more, hmore, hiff⟩ := deliver_more bs _ hkept (log ++ (updatesOf r earlier ++ [t]) ++ [])
      refine ⟨more, ?_, fun _ => ?_⟩
      · rw [← hmore]
      · rw [hiff, or_iff_right htakes]
    | cons u us =>
      -- an update of the same batch can still ask for the stop
      obtain ⟨more, hmore⟩ := deliver_grows bs (same.foldl (fun st e => onUpdate r onTask e st) (onUpdate r onTask e st₁))
        (log ++ (updatesOf r earlier ++ [t]) ++ u :: us)
      exact ⟨more, hmore, nofun⟩

/-- What is delivered of a stream that has a terminal update, and what of one that has none. -/
theorem deliver_ending (bs : List (List J)) (st : World × β × Bool) (h : st.2.2 = false) (log : List Task) :
    match ending r bs with
    | none => (delivered r onTask st log bs).2 = log ++ updatesOf r bs.flatten ∧
        throughTerminal (updatesOf r bs.flatten) = updatesOf r bs.flatten
    | some x => throughTerminal (updatesOf r bs.flatten) = updatesOf r x.earlier ++ [x.update] ∧
        ∃ more, (delivered r onTask st log bs).2 = log ++ (updatesOf r x.earlier ++ [x.update]) ++ updatesOf r x.same ++ more ∧
          (updatesOf r x.same = [] → (more = [] ↔
            Takes onTask x.update (x.earlier.foldl (fun st e => onUpdate r onTask e st) st) ∨ updatesOf r x.later = [])) := by
  induction bs generalizing st log with
  | nil => exact ⟨(List.append_nil _).symm, rfl⟩
  | cons b bs ih =>
    have hsplit : updatesOf r (b :: bs).flatten = updatesOf r b ++ updatesOf r bs.flatten := List.filterMap_append
    rw [deliver_cons h, hsplit]
    unfold ending
    cases hb : endingIn r b with
    | none =>
      -- this batch only moves the start of the ones behind it
      have hnone := endingIn_none hb
      have hstop : (b.foldl (fun st e => onUpdate r onTask e st) st).2.2 = false := by rw [fold_stop b hnone, h]
      have hrest := ih _ hstop (log ++ updatesOf r b)
      rw [throughTerminal_none hnone]
      cases hbs : ending r bs with
      | none =>
        rw [hbs] at hrest
        exact ⟨by rw [hrest.1, List.append_assoc], by rw [hrest.2]⟩
      | some x =>
        rw [hbs] at hrest
        obtain ⟨hthrough, more, hmore, hiff⟩ := hrest
        have hearlier : updatesOf r (b ++ x.earlier) = updatesOf r b ++ updatesOf r x.earlier := List.filterMap_append
        refine ⟨?_, more, ?_, fun hsame => ?_⟩
        · show _ = updatesOf r (b ++ x.earlier) ++ [x.update]
          rw [hthrough, hearlier, List.append_assoc]
        · show _ = log ++ (updatesOf r (b ++ x.earlier) ++ [x.update]) ++ updatesOf r x.same ++ more
          rw [hmore, hearlier]
          simp only [List.append_assoc]
        · rw [hiff hsame, ← List.foldl_append]
    | some x =>
      obtain ⟨earlier, t, same⟩ := x
      obtain ⟨hnone, e, he, rfl⟩ := endingIn_some hb
      obtain ⟨hupdate, hterminal⟩ := terminalOf_some he
      refine ⟨?_, deliver_terminal earlier same bs st h log hnone he⟩
      dsimp only
      rw [updates_around hupdate, List.append_assoc, List.append_assoc, throughTerminal_none hnone]
      simp [throughTerminal, hterminal]

/-! ### The call -/

variable (E : Env) (endpoint : Str) (auth : AuthSpec) (r onTask) (start : β) (s : World)

/-- The world next to everything else, as `streamCall` hands it on. -/
def beside (st : (World × β × Bool) × List Task) : World × (β × Bool) × List Task := (st.1.1, st.1.2, st.2)

def onBeside (event : J) (st : World × (β × Bool) × List Task) : World × (β × Bool) × List Task :=
  beside (onLogged r onTask event ((st.1, st.2.1), st.2.2))

/-- `subscribeToTask` with a record of the calls of `on_task`. -/
def subscribeLogged : M (A2AResult × (β × Bool) × List Task) :=
  streamCall E endpoint auth .subscribeToTask (idParams r) (onBeside r onTask) (fun st => st.1.2) ((start, false), [])

/-- The world in which the first event arrives. -/
def opened : World := { s with
  rpcIds := s.rpcIds + 1
  sent := s.sent ++ [⟨endpoint, bindingAt s endpoint, StreamMethod.subscribeToTask.name,
    (openedCall s endpoint .subscribeToTask (idParams r)).params⟩]
  exchanges := s.exchanges + 1 }

/-- The events as they arrive: over gRPC one by one, over HTTP those together that a chunk completes. -/
def arrivals : List (List J) :=
  let c := openedCall s endpoint .subscribeToTask (idParams r)
  if c.info.protocol = .grpc then (E.grpcStream s.exchanges auth c).1.map fun e => [e]
  else match streamRequest auth c with
    | .ok req => cut E.parse [] (E.stream s.exchanges req).1
    | .error _ => []

/-- The events in the bytes of the stream, or those of a gRPC stream. -/
def streamed : List J :=
  let c := openedCall s endpoint .subscribeToTask (idParams r)
  if c.info.protocol = .grpc then (E.grpcStream s.exchanges auth c).1
  else match streamRequest auth c with
    | .ok req => (frames ((E.stream s.exchanges req).1.flatten.filter (· ≠ 13))).1.filterMap (eventValue E.parse)
    | .error _ => []

theorem arrivals_flatten : (arrivals r E endpoint auth s).flatten = streamed r E endpoint auth s := by
  unfold arrivals streamed
  dsimp only
  split
  · rw [← List.flatMap_def]
    exact List.flatMap_singleton' _
  · split
    · exact cut_flatten _ _
    · rfl

variable {r onTask E endpoint auth start s}

/-- A subscription delivers the batches that arrive. -/
theorem subscribeLogged_run {out : A2AResult × (β × Bool) × List Task} {s' : World}
    (h : subscribeLogged r onTask E endpoint auth start s = .ok out s') :
    out.2.2 = (delivered r onTask (opened r endpoint s, start, false) [] (arrivals r E endpoint auth s)).2 := by
  have hbeside : ∀ bs, (batches (onBeside r onTask) (fun st => st.2.1.2) (opened r endpoint s, (start, false), []) bs).2.2 =
      (delivered r onTask (opened r endpoint s, start, false) [] bs).2 := by
    intro bs
    have hmap := @batches_map _ _ (onLogged r onTask) (fun st => st.1.2.2) (onBeside r onTask) (fun st => st.2.1.2) beside
      (fun _ _ => rfl) (fun _ => rfl) ((opened r endpoint s, start, false), []) bs
    exact congrArg (fun st => st.2.2) hmap.symm
  obtain ⟨info, w, hinfo, h⟩ := Tx.bind_ok.1 h
  obtain ⟨rfl, rfl⟩ := observe_ok.1 hinfo
  obtain ⟨id, w, hid, h⟩ := Tx.bind_ok.1 h
  obtain ⟨rfl, rfl⟩ := nextRpcId_ok.1 hid
  unfold arrivals
  rcases Tx.ite_ok h with ⟨hgrpc, h⟩ | ⟨hother, h⟩
  · obtain ⟨_, w, hrecord, h⟩ := Tx.bind_ok.1 h
    obtain ⟨-, rfl⟩ := change_ok.1 hrecord
    rw [if_pos (show (openedCall s endpoint .subscribeToTask (idParams r)).info.protocol = .grpc from hgrpc), ← hbeside,
      ← consumeEvents_batches]
    cases h
    rfl
  · obtain ⟨req, w, hlift, h⟩ := Tx.bind_ok.1 h
    obtain ⟨hreq, rfl⟩ := Tx.lift_ok.1 hlift
    obtain ⟨_, w, hrecord, h⟩ := Tx.bind_ok.1 h
    obtain ⟨-, rfl⟩ := change_ok.1 hrecord
    rw [if_neg (show ¬ (openedCall s endpoint .subscribeToTask (idParams r)).info.protocol = .grpc from hother),
      show streamRequest auth (openedCall s endpoint .subscribeToTask (idParams r)) = .ok req from hreq]
    dsimp only
    rw [← hbeside, ← consumeAll_batches]
    cases h
    rfl

/-- What a callback keeps beside the world can be forgotten at the end of the stream. -/
theorem streamCall_map {α γ : Type} {op : StreamMethod} {params : J} (onEvent : J → World × α → World × α)
    (onEvent' : J → World × γ → World × γ) (stopped : α → Bool) (stopped' : γ → Bool) (g : α → γ)
    (hevent : ∀ e st, Prod.map id g (onEvent e st) = onEvent' e (Prod.map id g st)) (hstop : ∀ a, stopped a = stopped' (g a))
    (start : α) : streamCall E endpoint auth op params onEvent' stopped' (g start) =
      (do let out ← streamCall E endpoint auth op params onEvent stopped start; return (out.1, g out.2)) := by
  have hbatches : ∀ w bs, batches onEvent' (fun st => stopped' st.2) (w, g start) bs =
      Prod.map id g (batches onEvent (fun st => stopped st.2) (w, start) bs) := fun w bs =>
    (batches_map (Prod.map id g) hevent (fun st => hstop st.2) (w, start) bs).symm
  have hgrpc : ∀ c, overGrpc E auth c onEvent' stopped' (g start) =
      (do let out ← overGrpc E auth c onEvent stopped start; return (out.1, g out.2)) := by
    intro c
    funext w
    show overGrpc E auth c onEvent' stopped' (g start) w = EStateM.bind (overGrpc E auth c onEvent stopped start) _ w
    unfold EStateM.bind overGrpc
    simp only [consumeEvents_batches, hbatches, hstop]
    rfl
  have hhttp : ∀ req c, overHttp E req c onEvent' stopped' (g start) =
      (do let out ← overHttp E req c onEvent stopped start; return (out.1, g out.2)) := by
    intro req c
    funext w
    show overHttp E req c onEvent' stopped' (g start) w = EStateM.bind (overHttp E req c onEvent stopped start) _ w
    unfold EStateM.bind overHttp
    simp only [consumeAll_batches, hbatches, hstop]
    rfl
  unfold streamCall
  simp only [hgrpc, hhttp, bind_assoc]
  refine bind_congr fun info => bind_congr fun id => ?_
  split
  · rfl
  · simp only [bind_assoc]

/-- The record takes nothing away from a subscription. -/
theorem subscribe_erased : subscribeToTask E endpoint auth r onTask start =
    (do let out ← subscribeLogged r onTask E endpoint auth start; return (out.1, out.2.1.1)) := by
  unfold subscribeToTask subscribeLogged
  rw [streamCall_map (onBeside r onTask) (onUpdate r onTask) (fun st => st.1.2) (fun st => st.2) Prod.fst (fun _ _ => rfl)
    (fun _ => rfl) ((start, false), []), bind_assoc]
  rfl

/-- Nothing is delivered after a terminal update, and what is delivered is what the events of the stream say
up to the first one. -/
structure EndsAtTerminal (r : Str) (events : List J) (log : List Task) : Prop where
  ends : ∀ before t after, log = before ++ t :: after → t.state.isTerminal = true → after = []
  bytes : log = throughTerminal (updatesOf r events)

end Subscription

/-- **A subscription ends at the first terminal update exactly if its chunk brings no other after it.** For
every stream, however it is cut, and every `on_task`: unless an update follows the first terminal one in the
same chunk; or `on_task` throws on that one, and any update follows at all. -/
theorem ends_at_terminal_iff {β : Type} (E : Env) (endpoint : Str) (auth : AuthSpec) (r : Str) (onTask : Task → β → M β)
    (start b : β) (s s' : World) (res : A2AResult) (hrun : subscribeToTask E endpoint auth r onTask start s = .ok (res, b) s') :
    ∃ stop log, subscribeLogged r onTask E endpoint auth start s = .ok (res, (b, stop), log) s' ∧
      (EndsAtTerminal r (streamed r E endpoint auth s) log ↔
        ∀ x, ending r (arrivals r E endpoint auth s) = some x → updatesOf r x.same = [] ∧
          (Takes onTask x.update (x.earlier.foldl (fun st e => onUpdate r onTask e st) (opened r endpoint s, start, false)) ∨
            updatesOf r x.later = [])) := by
  rw [subscribe_erased] at hrun
  obtain ⟨⟨res', ⟨b', stop⟩, log⟩, w, hlogged, hreturn⟩ := Tx.bind_ok.1 hrun
  obtain ⟨hout, rfl⟩ := Tx.pure_ok.1 hreturn
  obtain ⟨rfl, rfl⟩ := Prod.mk.inj hout
  refine ⟨stop, log, hlogged, ?_⟩
  have hlog : log = _ := subscribeLogged_run hlogged
  have hending := @deliver_ending β r onTask (arrivals r E endpoint auth s) (opened r endpoint s, start, false)
    rfl []
  have hiff : EndsAtTerminal r (streamed r E endpoint auth s) log ↔
      log = throughTerminal (updatesOf r (streamed r E endpoint auth s)) := by
    refine ⟨EndsAtTerminal.bytes, fun h => ⟨fun before t after hsplit ht => ?_, h⟩⟩
    exact throughTerminal_ends _ before after t (h.symm.trans hsplit) ht
  rw [hiff, ← arrivals_flatten, hlog]
  cases hx : ending r (arrivals r E endpoint auth s) with
  | none =>
    rw [hx] at hending
    rw [hending.1, hending.2]
    exact iff_of_true rfl nofun
  | some x =>
    rw [hx] at hending
    obtain ⟨hthrough, more, hmore, hmoreiff⟩ := hending
    rw [hthrough, hmore]
    simp only [List.nil_append, Option.some.injEq, forall_eq']
    rw [List.append_assoc, List.append_right_eq_self, List.append_eq_nil_iff]
    exact and_congr_right fun hsame => hmoreiff hsame

/-! ### An artifact behind the end -/

def completedEvent : J := .object [("statusUpdate", .object [("taskId", .str "remote-7"),
  ("status", .object [("state", .str "TASK_STATE_COMPLETED")])])]

def lateEvent : J := .object [("artifactUpdate", .object [("taskId", .str "remote-7"),
  ("artifact", .object [("artifactId", .str "report")])])]

def sseText (j : J) : Str := lit "data: " ++ j.text ++ lit "\n\n"

/-- A stream of the two events in these chunks. -/
def endingEnv (chunks : List Str) : Env := { Env.offline [completedEvent, lateEvent] with
  stream := fun _ _ => (chunks, { status := 200 }) }

def together : List Str := [sseText completedEvent ++ sseText lateEvent]

def apart : List Str := [sseText completedEvent, sseText lateEvent]

/-- A subscription whose callback does nothing. -/
def idleSubscription (chunks : List Str) : EStateM.Result Exception World (A2AResult × Unit) :=
  subscribeToTask (endingEnv chunks) builder.endpoint {} "remote-7" (fun _ _ => pure ()) () {}

/-- The states that are delivered. -/
def statesOf (chunks : List Str) : Option (List TaskState) :=
  (Tx.result? (subscribeLogged "remote-7" (fun _ _ => pure ()) (endingEnv chunks) builder.endpoint {} () {})).map fun out =>
    out.2.2.map Task.state

/-- The same bytes deliver the artifact in one chunk and not in two. -/
theorem late_artifact_delivered : together.flatten = apart.flatten ∧
    statesOf together = some [.completed, .submitted] ∧ statesOf apart = some [.completed] ∧
    ∃ log, (Tx.result? (subscribeLogged "remote-7" (fun _ _ => pure ()) (endingEnv together) builder.endpoint {} () {})).map
      (fun out => out.2.2) = some log ∧ ¬ EndsAtTerminal "remote-7" [completedEvent, lateEvent] log := by
  have hstates : statesOf together = some [.completed, .submitted] := by decide +kernel
  refine ⟨by decide +kernel, hstates, by decide +kernel, ?_⟩
  obtain ⟨out, hout, hlog⟩ := Option.map_eq_some_iff.1 hstates
  refine ⟨out.2.2, by rw [hout]; rfl, fun h => ?_⟩
  obtain ⟨first, rest, hsplit, hcompleted, hrest⟩ := List.map_eq_cons_iff.1 hlog
  rw [h.ends [] first rest hsplit (by rw [hcompleted]; rfl)] at hrest
  cases hrest

/-- In two chunks the stream ends with the terminal update. -/
theorem ends_at_terminal_apart : ∃ stop log, subscribeLogged "remote-7" (fun _ _ => pure ()) (endingEnv apart) builder.endpoint
      {} () {} = .ok (((Tx.result? (idleSubscription apart)).getD ({}, ())).1, ((), stop), log) (Tx.endState (idleSubscription apart)) ∧
    EndsAtTerminal "remote-7" (streamed "remote-7" (endingEnv apart) builder.endpoint {} {}) log := by
  have hresult : (Tx.result? (idleSubscription apart)).isSome = true := by decide +kernel
  obtain ⟨⟨res, u⟩, hres⟩ := Option.isSome_iff_exists.1 hresult
  obtain ⟨stop, log, hlogged, hiff⟩ := ends_at_terminal_iff (endingEnv apart) builder.endpoint {} "remote-7" (fun _ _ => pure ())
    () u {} _ res (Tx.ok_of_result hres)
  rw [hres]
  refine ⟨stop, log, hlogged, hiff.2 fun x hx => ?_⟩
  have hquiet : (ending "remote-7" (arrivals "remote-7" (endingEnv apart) builder.endpoint {} {})).all
      (fun x => (updatesOf "remote-7" x.same).isEmpty) = true := by decide +kernel
  rw [hx] at hquiet
  exact ⟨List.isEmpty_iff.1 hquiet, .inl ⟨(), _, rfl⟩⟩

end A2ad.Client
