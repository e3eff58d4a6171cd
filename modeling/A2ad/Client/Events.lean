/-
The events of a stream whatever its chunks: the buffer in between holds exactly the bytes of the
event that is not complete, so what is handed on is what the whole stream decodes to by the grammar
of server-sent events.
-/
import A2ad.Client.Stream
import A2ad.Lib.Sse

namespace A2ad.Client

open Bytes Json

/-! ## Frames -/

/-- Text before the first event, or before what is pending when there is none. -/
def push (l : Str) : List Str × Str → List Str × Str
  | ([], pending) => ([], l ++ pending)
  | (e :: es, pending) => ((l ++ e) :: es, pending)

theorem push_push (l m : Str) (x : List Str × Str) : push l (push m x) = push (l ++ m) x := by
  obtain ⟨_ | ⟨e, es⟩, pending⟩ := x
  · simp [push]
  · simp [push]

theorem push_fst (l : Str) (x : List Str × Str) : (push l x).1 = x.1.modifyHead (l ++ ·) := by
  obtain ⟨_ | ⟨e, es⟩, pending⟩ := x <;> rfl

theorem frames_boundary (rest : Str) : frames (10 :: 10 :: rest) = ([] :: (frames rest).1, (frames rest).2) := by
  rw [frames, if_pos ⟨rfl, rfl⟩]

theorem frames_step {c : UInt8} {rest : Str} (hrest : rest ≠ []) (h : c = 10 → rest.head? ≠ some 10) :
    frames (c :: rest) = push [c] (frames rest) := by
  cases rest with
  | nil => exact absurd rfl hrest
  | cons d rest =>
    rw [frames, if_neg fun hb => h hb.1 (congrArg some hb.2)]
    cases hx : frames (d :: rest) with
    | mk es pending => cases es <;> rfl

theorem frames_open {l : Str} (h : (10 : UInt8) ∉ l) : frames l = ([], l) := by
  induction l with
  | nil => rfl
  | cons c l ih =>
    cases l with
    | nil => rfl
    | cons d l =>
      have hc : c ≠ 10 := fun hc => h (by simp [hc])
      rw [frames_step (List.cons_ne_nil d l) fun heq => absurd heq hc, ih fun hm => h (List.mem_cons_of_mem _ hm)]
      rfl

/-- A line that a blank line follows is the end of an event. -/
theorem frames_event {l : Str} (h : (10 : UInt8) ∉ l) (rest : Str) :
    frames (l ++ 10 :: 10 :: rest) = (l :: (frames rest).1, (frames rest).2) := by
  induction l with
  | nil => exact frames_boundary rest
  | cons c l ih =>
    have hc : c ≠ 10 := fun hc => h (by simp [hc])
    rw [List.cons_append, frames_step (by simp) fun heq => absurd heq hc, ih fun hm => h (List.mem_cons_of_mem _ hm)]
    rfl

/-- A line that no blank line follows belongs to the event after it. -/
theorem frames_line {l : Str} (h : (10 : UInt8) ∉ l) {rest : Str} (hrest : rest.head? ≠ some 10) :
    frames (l ++ 10 :: rest) = push (l ++ [10]) (frames rest) := by
  induction l with
  | nil =>
    cases rest with
    | nil => rfl
    | cons d rest => exact frames_step (List.cons_ne_nil d rest) fun _ => hrest
  | cons c l ih =>
    have hc : c ≠ 10 := fun hc => h (by simp [hc])
    rw [List.cons_append, frames_step (by simp) fun heq => absurd heq hc, ih fun hm => h (List.mem_cons_of_mem _ hm),
      push_push]
    rfl

theorem frames_cons {c : UInt8} {rest : Str} (h : ∀ t, ¬ (c = 10 ∧ rest = 10 :: t)) :
    frames (c :: rest) = push [c] (frames rest) := by
  cases rest with
  | nil => rfl
  | cons d t =>
    refine frames_step (List.cons_ne_nil d t) fun hc hd => ?_
    obtain rfl : d = 10 := Option.some.inj hd
    exact h t ⟨hc, rfl⟩

/-- Texts from their end: a text starts with a blank line, or with a byte of what the rest starts with. -/
theorem frames_induction {P : Str → Prop} (nil : P []) (blank : ∀ t, P t → P (10 :: 10 :: t))
    (step : ∀ c rest, (∀ t, ¬ (c = 10 ∧ rest = 10 :: t)) → P rest → P (c :: rest)) (t : Str) : P t := by
  induction h : t.length using Nat.strong_induction_on generalizing t with
  | _ n ih =>
    subst h
    cases t with
    | nil => exact nil
    | cons c rest =>
      by_cases hb : ∃ t, c = 10 ∧ rest = 10 :: t
      · obtain ⟨t, rfl, rfl⟩ := hb
        refine blank t (ih t.length ?_ t rfl)
        simp only [List.length_cons]
        omega
      · exact step c rest (fun t ht => hb ⟨t, ht⟩) (ih rest.length (by simp) rest rfl)

/-- A text without a complete event is pending as a whole. -/
theorem frames_pending {t : Str} (h : (frames t).1 = []) : (frames t).2 = t := by
  induction t using frames_induction with
  | nil => rfl
  | blank t ih =>
    rw [frames_boundary] at h
    cases h
  | step c rest hb ih =>
    rw [frames_cons hb] at h ⊢
    cases hx : frames rest with
    | mk es pending =>
      rw [hx] at h ih
      cases es with
      | nil =>
        obtain rfl : pending = rest := ih rfl
        rfl
      | cons e es => cases h

/-- Nothing is left over from what is pending. -/
theorem frames_rest (t : Str) : frames (frames t).2 = ([], (frames t).2) := by
  induction t using frames_induction with
  | nil => rfl
  | blank t ih =>
    rw [frames_boundary]
    exact ih
  | step c rest hb ih =>
    cases hnone : (frames (c :: rest)).1 with
    | nil =>
      rw [frames_pending hnone]
      exact Prod.ext hnone (frames_pending hnone)
    | cons e es =>
      rw [frames_cons hb] at hnone ⊢
      cases hx : frames rest with
      | mk es' pending =>
        rw [hx] at hnone ih
        cases es' with
        | nil => cases hnone
        | cons e' es' => exact ih

/-- What a text is framed to first is what it is framed to with more behind it. -/
theorem frames_append (a b : Str) :
    frames (a ++ b) = ((frames a).1 ++ (frames ((frames a).2 ++ b)).1, (frames ((frames a).2 ++ b)).2) := by
  induction a using frames_induction with
  | nil => rfl
  | blank t ih =>
    simp only [List.cons_append, frames_boundary]
    rw [ih]
  | step c rest hb ih =>
    cases hnone : (frames (c :: rest)).1 with
    | nil =>
      rw [frames_pending hnone]
      rfl
    | cons e es =>
      have hmore : ∀ t, ¬ (c = 10 ∧ rest ++ b = 10 :: t) := by
        rintro t ⟨rfl, ht⟩
        cases rest with
        | nil => cases hnone
        | cons d rest =>
          obtain ⟨rfl, -⟩ := List.cons.inj ht
          exact hb rest ⟨rfl, rfl⟩
      rw [frames_cons hb] at hnone ⊢
      rw [List.cons_append, frames_cons hmore, ih]
      cases hx : frames rest with
      | mk es' pending =>
        rw [hx] at hnone
        cases es' with
        | nil => cases hnone
        | cons e' es' =>
          cases hnone
          rfl

/-- What is pending is the end of the text. -/
theorem frames_suffix (t : Str) : (frames t).2 <:+ t := by
  induction t using frames_induction with
  | nil => exact List.suffix_rfl
  | blank t ih =>
    rw [frames_boundary]
    exact ih.trans ⟨[10, 10], rfl⟩
  | step c rest hb ih =>
    rw [frames_cons hb]
    cases hx : frames rest with
    | mk es pending =>
      rw [hx] at ih
      cases es with
      | nil =>
        have hwhole : (frames rest).2 = rest := frames_pending (by rw [hx])
        rw [hx] at hwhole
        obtain rfl : pending = rest := hwhole
        exact List.suffix_rfl
      | cons e es => exact ih.trans (List.suffix_cons c rest)

/-! ## What frames hold -/

/-- Blank lines before an event do nothing to its data. -/
theorem data_modifyHead_blank (es : List (List Str)) :
    (es.modifyHead ([[]] ++ ·)).filterMap Sse.data? = es.filterMap Sse.data? := by
  cases es with
  | nil => rfl
  | cons e es => rfl

theorem splitOn_push {l : Str} (h : (10 : UInt8) ∉ l) (es : List Str) :
    (es.modifyHead (l ++ [10] ++ ·)).map (List.splitOn 10) = (es.map (List.splitOn 10)).modifyHead ([l] ++ ·) := by
  cases es with
  | nil => rfl
  | cons e es =>
    simp only [List.modifyHead_cons, List.map_cons, List.append_assoc, List.singleton_append]
    rw [List.splitOn_append_cons_self_of_not_mem h]

theorem modifyHead_none (es : List (List Str)) : es.modifyHead ([] ++ ·) = es := by cases es <;> rfl

theorem modifyHead_held (held : List Str) (l : Str) (es : List (List Str)) :
    (es.modifyHead ([l] ++ ·)).modifyHead (held ++ ·) = es.modifyHead (held ++ [l] ++ ·) := by
  cases es with
  | nil => rfl
  | cons e es => simp

/-- The frames of a text hold the data of the events that its lines are grouped to; `held` are the
lines of the first event that come before the text. -/
theorem frames_data (t : Str) : ∀ held : List Str, held = [] ∨ t.head? ≠ some 10 →
    (((frames t).1.map (List.splitOn 10)).modifyHead (held ++ ·)).filterMap Sse.data? =
      ((Sse.events (Sse.lines t)).modifyHead (held ++ ·)).filterMap Sse.data? := by
  induction hlen : t.length using Nat.strong_induction_on generalizing t with
  | _ n ih =>
    subst hlen
    intro held hheld
    by_cases hline : (10 : UInt8) ∈ t
    · obtain ⟨l, rest, rfl, hl⟩ := List.eq_append_cons_of_mem hline
      have hshort : rest.length < (l ++ 10 :: rest).length := by
        simp only [List.length_append, List.length_cons]
        omega
      rw [Sse.lines_line hl]
      by_cases hblank : rest.head? = some 10
      · -- the line is the last one of its event
        obtain ⟨r, rfl⟩ : ∃ r, rest = 10 :: r := by
          cases rest with
          | nil => cases hblank
          | cons d r => exact ⟨r, by rw [Option.some.inj hblank]⟩
        have hrest := ih r.length (by simp only [List.length_cons] at hshort; omega) r rfl [] (.inl rfl)
        rw [modifyHead_none, modifyHead_none] at hrest
        rw [frames_event hl, Sse.lines_line_feed]
        simp only [List.map_cons, List.splitOn_eq_singleton hl, List.modifyHead_cons]
        by_cases hempty : l = []
        · subst hempty
          obtain rfl : held = [] := hheld.resolve_right fun hne => hne rfl
          exact hrest
        · rw [Sse.events_line hempty, Sse.events_blank, List.modifyHead_cons, List.modifyHead_cons,
            List.filterMap_cons, List.filterMap_cons, hrest]
      · -- the line belongs to the event after it
        rw [frames_line hl hblank, push_fst, splitOn_push hl]
        by_cases hempty : l = []
        · subst hempty
          obtain rfl : held = [] := hheld.resolve_right fun hne => hne rfl
          have hrest := ih rest.length hshort rest rfl [] (.inl rfl)
          rw [modifyHead_none, modifyHead_none] at hrest
          rw [modifyHead_none, modifyHead_none, data_modifyHead_blank, hrest]
          rfl
        · rw [Sse.events_line hempty]
          have hrest := ih rest.length hshort rest rfl (held ++ [l]) (.inr hblank)
          rw [← modifyHead_held, ← modifyHead_held] at hrest
          exact hrest
    · rw [Sse.lines_open hline, frames_open hline]
      rfl

/-! ## Chunks -/

section Chunks

variable {σ : Type} {parse : Str → Option J} {onEvent : J → σ → σ}

/-- The events in a text without carriage returns, handed on in order. -/
def handed (parse : Str → Option J) (onEvent : J → σ → σ) (t : Str) (s : σ) : σ :=
  ((frames t).1.filterMap (eventValue parse)).foldl (fun s event => onEvent event s) s

/-- Chunk by chunk, what is pending is what the bytes so far have left over, and the events handed on
are those of all bytes so far. -/
theorem consume_chunks (chunks : List Str) : ∀ (pending : Str) (s : σ), frames pending = ([], pending) →
    (13 : UInt8) ∉ pending →
    chunks.foldl (consume parse onEvent fun _ => false) (pending, s) =
      ((frames (pending ++ chunks.flatten.filter (· ≠ 13))).2,
        handed parse onEvent (pending ++ chunks.flatten.filter (· ≠ 13)) s) := by
  induction chunks with
  | nil =>
    intro pending s hpending hcr
    rw [List.foldl_nil, List.flatten_nil, List.filter_nil, List.append_nil, handed, hpending]
    rfl
  | cons chunk chunks ih =>
    intro pending s hpending hcr
    have hfilter : (pending ++ chunk).filter (· ≠ 13) = pending ++ chunk.filter (· ≠ 13) := by
      have hself : pending.filter (· ≠ 13) = pending := by
        refine List.filter_eq_self.2 fun c hc => ?_
        simp only [ne_eq, decide_not, Bool.not_eq_true', decide_eq_false_iff_not]
        rintro rfl
        exact hcr hc
      rw [List.filter_append, hself]
    have hconsume : consume parse onEvent (fun _ => false) (pending, s) chunk =
        ((frames (pending ++ chunk.filter (· ≠ 13))).2, handed parse onEvent (pending ++ chunk.filter (· ≠ 13)) s) := by
      rw [consume, if_neg Bool.false_ne_true, hfilter]
      rfl
    have hfree : (13 : UInt8) ∉ (frames (pending ++ chunk.filter (· ≠ 13))).2 := by
      intro hmem
      have hbefore := (frames_suffix _).subset hmem
      rw [← hfilter] at hbefore
      simp at hbefore
    rw [List.foldl_cons, hconsume, ih _ _ (frames_rest _) hfree, List.flatten_cons, List.filter_append,
      ← List.append_assoc, frames_append (pending ++ chunk.filter (· ≠ 13))]
    refine Prod.ext rfl ?_
    show handed parse onEvent _ (handed parse onEvent _ s) = handed parse onEvent _ s
    unfold handed
    rw [frames_append (pending ++ chunk.filter (· ≠ 13)), List.filterMap_append, List.foldl_append]

/-- Without a stop, the events of all chunks are the events of the whole stream. -/
theorem consumeAll_eq (chunks : List Str) (s : σ) :
    consumeAll parse onEvent (fun _ => false) s chunks = handed parse onEvent (chunks.flatten.filter (· ≠ 13)) s := by
  unfold consumeAll
  rw [consume_chunks chunks [] s rfl List.not_mem_nil]
  rfl

/-- A stop ends the stream after one of its chunks. -/
theorem consumeAll_stopped (stopped : σ → Bool) (chunks : List Str) (s : σ) :
    ∃ n, consumeAll parse onEvent stopped s chunks = handed parse onEvent ((chunks.take n).flatten.filter (· ≠ 13)) s := by
  have hstop : ∀ (chunks : List Str) (st : Str × σ), stopped st.2 = true →
      chunks.foldl (consume parse onEvent stopped) st = st := by
    intro chunks st hst
    induction chunks with
    | nil => rfl
    | cons chunk chunks ih => rw [List.foldl_cons, consume, if_pos hst, ih]
  have hfold : ∀ (chunks : List Str) (st : Str × σ), ∃ n, chunks.foldl (consume parse onEvent stopped) st =
      (chunks.take n).foldl (consume parse onEvent fun _ => false) st := by
    intro chunks
    induction chunks with
    | nil => exact fun st => ⟨0, rfl⟩
    | cons chunk chunks ih =>
      intro st
      cases hst : stopped st.2 with
      | true => exact ⟨0, hstop _ st hst⟩
      | false =>
        obtain ⟨n, hn⟩ := ih (consume parse onEvent (fun _ => false) st chunk)
        refine ⟨n + 1, ?_⟩
        rw [List.foldl_cons, List.take_succ_cons, List.foldl_cons, ← hn, consume, if_neg (by simp [hst]), consume,
          if_neg Bool.false_ne_true]
  obtain ⟨n, hn⟩ := hfold chunks ([], s)
  refine ⟨n, ?_⟩
  rw [← consumeAll_eq, consumeAll, consumeAll, hn]

theorem consumeEvents_stopped (stopped : σ → Bool) (events : List J) (s : σ) :
    ∃ n, consumeEvents onEvent stopped s events = (events.take n).foldl (fun s event => onEvent event s) s := by
  induction events generalizing s with
  | nil => exact ⟨0, rfl⟩
  | cons event events ih =>
    cases hs : stopped s with
    | true => exact ⟨0, by rw [consumeEvents, if_pos hs]; rfl⟩
    | false =>
      obtain ⟨n, hn⟩ := ih (onEvent event s)
      exact ⟨n + 1, by rw [consumeEvents, if_neg (by simp [hs]), hn]; rfl⟩

end Chunks

/-! ## The grammar -/

/-- `nlohmann::json::parse` on the data of events: a line feed stands between tokens only, where any
number of them reads as one; the empty text and `[DONE]` are no JSON. -/
structure ReadsJson (parse : Str → Option J) : Prop where
  blank : ∀ a b, Sse.texts a = Sse.texts b → parse a = parse b
  empty : parse [] = none
  done : parse (lit "[DONE]") = none

/-- The values of a stream by the grammar of server-sent events: one for each complete event that has
data other than `[DONE]` which is JSON, with the result in place of a JSON-RPC envelope. -/
def sseValues (parse : Str → Option J) (stream : Str) : List J :=
  (Sse.decode stream).filterMap fun data =>
    if data = lit "[DONE]" then none else (parse data).map fun j => (j.get? "result").getD j

section Grammar

variable {parse : Str → Option J}

theorem dataLine?_eq (line : Str) : Sse.dataLine? line =
    if (lit "data:").isPrefixOf line then
      some (if (line.drop 5).head? = some 32 then (line.drop 5).drop 1 else line.drop 5)
    else if line = lit "data" then some [] else none := by
  unfold Sse.dataLine? Sse.field
  by_cases hcolon : (58 : UInt8) ∈ line
  · obtain ⟨name, value, rfl, hname⟩ := List.eq_append_cons_of_mem hcolon
    rw [splitAt?_of_notMem hname]
    have hne : name ++ 58 :: value ≠ lit "data" := by
      intro heq
      rw [heq] at hcolon
      revert hcolon
      decide
    by_cases hdata : name = lit "data"
    · subst hdata
      rfl
    · have hnot : ¬ (lit "data:").isPrefixOf (name ++ 58 :: value) = true := by
        intro hprefix
        obtain ⟨rest, hrest⟩ := List.isPrefixOf_iff_prefix.1 hprefix
        have hcut : lit "data" ++ 58 :: rest = name ++ 58 :: value := hrest
        exact hdata (cut_inj (by decide) hname hcut).1.symm
      rw [if_neg hnot, if_neg hne, if_neg hdata]
  · rw [splitAt?_eq_none hcolon]
    have hnot : ¬ (lit "data:").isPrefixOf line = true := by
      intro hprefix
      obtain ⟨rest, rfl⟩ := List.isPrefixOf_iff_prefix.1 hprefix
      exact hcolon (List.mem_append_left _ (by decide))
    rw [if_neg hnot]

theorem not_newline_of_dataLine {line v : Str} (h : (10 : UInt8) ∉ line) (hv : Sse.dataLine? line = some v) :
    (10 : UInt8) ∉ v := by
  rw [dataLine?_eq] at hv
  split at hv
  · cases hv
    split
    · exact fun hm => h (List.mem_of_mem_drop (List.mem_of_mem_drop hm))
    · exact fun hm => h (List.mem_of_mem_drop hm)
  · split at hv
    · cases hv
      exact List.not_mem_nil
    · cases hv

/-- The lines of the data so far, next to those of the grammar. -/
theorem texts_addLine (data : Str) {line : Str} (h : (10 : UInt8) ∉ line) :
    Sse.texts (addLine data line) =
      Sse.texts data ++ ((Sse.dataLine? line).toList.filter fun l => !l.isEmpty) := by
  cases hline : Sse.dataLine? line with
  | none =>
    have hdata : addLine data line = data := by
      rw [dataLine?_eq] at hline
      split at hline
      · cases hline
      · rename_i hdata
        rw [addLine, if_neg hdata]
    rw [hdata]
    exact (List.append_nil _).symm
  | some v =>
    have hv := Sse.texts_line (not_newline_of_dataLine h hline)
    rw [dataLine?_eq] at hline
    split at hline
    · rename_i hdata
      cases hline
      rw [addLine, if_pos hdata]
      cases data with
      | nil => exact hv
      | cons c data =>
        show Sse.texts ((c :: data ++ [10]) ++ _) = _
        rw [List.append_assoc, List.singleton_append, Sse.texts_append, hv]
        rfl
    · rename_i hdata
      rw [addLine, if_neg hdata]
      split at hline
      · cases hline
        exact (List.append_nil _).symm
      · cases hline

theorem texts_eventData (ls : List Str) (h : ∀ l ∈ ls, (10 : UInt8) ∉ l) (data : Str) :
    Sse.texts (ls.foldl addLine data) =
      Sse.texts data ++ ((ls.filterMap Sse.dataLine?).filter fun l => !l.isEmpty) := by
  induction ls generalizing data with
  | nil => exact (List.append_nil _).symm
  | cons l ls ih =>
    rw [List.foldl_cons, ih (fun x hx => h x (List.mem_cons_of_mem _ hx)), texts_addLine data (h l List.mem_cons_self),
      List.append_assoc, ← List.filter_append]
    cases hl : Sse.dataLine? l with
    | none => rw [List.filterMap_cons_none hl]; rfl
    | some v => rw [List.filterMap_cons_some hl]; rfl

theorem notMem_splitOn {s : Str} : ∀ l ∈ s.splitOn 10, (10 : UInt8) ∉ l := by
  induction s with
  | nil =>
    intro l hl
    rw [List.splitOn_nil, List.mem_singleton] at hl
    subst hl
    exact List.not_mem_nil
  | cons c s ih =>
    intro l hl
    rw [List.splitOn_cons_eq_if_modifyHead] at hl
    split at hl
    · rcases List.mem_cons.1 hl with rfl | hl
      · exact List.not_mem_nil
      · exact ih l hl
    · rename_i hc
      cases hs : s.splitOn 10 with
      | nil => exact absurd hs (List.splitOn_ne_nil 10 s)
      | cons m ms =>
        rw [hs] at hl ih
        rcases List.mem_cons.1 hl with rfl | hl
        · intro hm
          rcases List.mem_cons.1 hm with rfl | hm
          · exact hc (by decide)
          · exact ih m List.mem_cons_self hm
        · exact ih l (List.mem_cons_of_mem _ hl)

/-- One event carries the value that the grammar gives its lines. -/
theorem eventValue_eq (hparse : ReadsJson parse) (event : Str) :
    eventValue parse event = (Sse.data? (event.splitOn 10)).bind fun data =>
      if data = lit "[DONE]" then none else (parse data).map fun j => (j.get? "result").getD j := by
  have htexts : Sse.texts (eventData event) = (((event.splitOn 10).filterMap Sse.dataLine?).filter fun l => !l.isEmpty) :=
    texts_eventData _ notMem_splitOn []
  have hfree : ∀ v ∈ (event.splitOn 10).filterMap Sse.dataLine?, (10 : UInt8) ∉ v := by
    intro v hv
    obtain ⟨line, hline, hv⟩ := List.mem_filterMap.1 hv
    exact not_newline_of_dataLine (notMem_splitOn line hline) hv
  -- nothing else than the text, its emptiness and `[DONE]` is looked at, and parsing tells none of them apart
  have hvalue : eventValue parse event = (parse (eventData event)).map fun j => (j.get? "result").getD j := by
    unfold eventValue
    dsimp only
    split
    · rename_i hskip
      rcases Bool.or_eq_true_iff.1 hskip with hempty | hdone
      · rw [List.isEmpty_iff.1 hempty, hparse.empty]
        rfl
      · rw [of_decide_eq_true hdone, hparse.done]
        rfl
    · rfl
  rw [hvalue]
  unfold Sse.data?
  cases hlines : (event.splitOn 10).filterMap Sse.dataLine? with
  | nil =>
    rw [hlines] at htexts
    rw [hparse.blank (eventData event) [] htexts, hparse.empty]
    rfl
  | cons v vs =>
    rw [hlines] at htexts hfree
    rw [hparse.blank (eventData event) _ (htexts.trans (Sse.texts_intercalate hfree).symm)]
    show _ = if _ then _ else _
    split
    · rename_i hdone
      rw [hdone, hparse.done]
      rfl
    · rfl

/-- All chunks hand on the values of the stream, in order. -/
theorem handed_eq {σ : Type} {onEvent : J → σ → σ} (hparse : ReadsJson parse) {stream : Str} (hcr : Sse.CrBeforeLf stream)
    (s : σ) : handed parse onEvent (stream.filter (· ≠ 13)) s =
      (sseValues parse stream).foldl (fun s event => onEvent event s) s := by
  have hdata := frames_data (stream.filter (· ≠ 13)) [] (.inl rfl)
  rw [modifyHead_none, modifyHead_none, Sse.lines_filter hcr] at hdata
  have hvalues : (frames (stream.filter (· ≠ 13))).1.filterMap (eventValue parse) = sseValues parse stream := by
    unfold sseValues Sse.decode
    rw [← hdata, List.filterMap_map, List.filterMap_filterMap]
    refine congrArg (fun f => List.filterMap f _) (funext fun event => ?_)
    exact eventValue_eq hparse event
  rw [handed, hvalues]

end Grammar

/-! ## Streams -/

/-- Every event handed on is recorded, whatever the callback makes of it; what it throws is swallowed. -/
def recording (callback : J → M Unit) (event : J) (st : World × List J) : World × List J :=
  (Tx.endState (callback event st.1), st.2 ++ [event])

theorem recorded (callback : J → M Unit) (events : List J) (st : World × List J) :
    (events.foldl (fun st event => recording callback event st) st).2 = st.2 ++ events := by
  induction events generalizing st with
  | nil => exact (List.append_nil _).symm
  | cons event events ih =>
    rw [List.foldl_cons, ih]
    simp [recording]

/-- The call a stream is opened with. -/
def openedCall (s : World) (endpoint : Str) (op : StreamMethod) (params : J) : Call StreamMethod :=
  let info := bindingAt s endpoint
  ⟨endpoint, info, op, setIf (!info.tenant.isEmpty) "tenant" (.str info.tenant) params, natText s.rpcIds⟩

/-- However a stream is cut into chunks, and whatever the callback throws, the events handed on are the
values of the stream by the grammar of server-sent events, in order. -/
theorem stream_events (E : Env) (hparse : ReadsJson E.parse) {endpoint : Str} {auth : AuthSpec} {op : StreamMethod}
    {params : J} {callback : J → M Unit} {s s' : World} {r : A2AResult} {events : List J}
    (hbinding : (bindingAt s endpoint).protocol ≠ .grpc)
    (hrun : streamCall E endpoint auth op params (recording callback) (fun _ => false) [] s = .ok (r, events) s') :
    ∃ req, streamRequest auth (openedCall s endpoint op params) = .ok req ∧
      (Sse.CrBeforeLf (E.stream s.exchanges req).1.flatten →
        events = sseValues E.parse (E.stream s.exchanges req).1.flatten) := by
  obtain ⟨info, w, hinfo, hrun⟩ := Tx.bind_ok.1 hrun
  obtain ⟨rfl, rfl⟩ := observe_ok.1 hinfo
  obtain ⟨id, w, hid, hrun⟩ := Tx.bind_ok.1 hrun
  obtain ⟨rfl, rfl⟩ := nextRpcId_ok.1 hid
  rcases Tx.ite_ok hrun with ⟨hgrpc, -⟩ | ⟨-, hrun⟩
  · exact absurd hgrpc hbinding
  · obtain ⟨req, w, hlift, hrun⟩ := Tx.bind_ok.1 hrun
    obtain ⟨hreq, rfl⟩ := Tx.lift_ok.1 hlift
    obtain ⟨_, w, hrecord, hrun⟩ := Tx.bind_ok.1 hrun
    obtain ⟨-, rfl⟩ := change_ok.1 hrecord
    refine ⟨req, hreq, fun hcr => ?_⟩
    cases hrun
    dsimp only
    rw [consumeAll_eq, handed_eq hparse hcr, recorded]
    rfl

/-! ## A stream cut inside a line end -/

/-- Reads the one number `1`. -/
def readsOne (text : Str) : Option J := if Sse.texts text = [lit "1"] then some (.int 1) else none

theorem readsOne_json : ReadsJson readsOne where
  blank a b h := by rw [readsOne, readsOne, h]
  empty := by decide
  done := by decide

/-- An event without data and the number one twice, cut inside line ends and words. -/
def cutChunks : List Str := [lit "data:\r\n\r\ndata: 1\r", [], lit "\n\r\n\r\nda", lit "ta:1\n\n"]

def cutEnv : Env := { Env.offline [] with stream := fun _ _ => (cutChunks, { status := 200 }), parse := readsOne }

/-- The callback throws on every event. -/
def cutCall : EStateM.Result Exception World (A2AResult × List J) :=
  streamCall cutEnv builder.endpoint {} .sendStreamingMessage (.obj []) (recording fun _ => throw ⟨[]⟩) (fun _ => false) []
    (World.offline cutEnv [])

theorem stream_events_cut : (Tx.result? cutCall).map Prod.snd = some [.int 1, .int 1] := by
  have hresult : (Tx.result? cutCall).isSome = true := by decide +kernel
  obtain ⟨⟨r, events⟩, hr⟩ := Option.isSome_iff_exists.1 hresult
  obtain ⟨req, -, hevents⟩ := stream_events cutEnv readsOne_json (by decide +kernel) (Tx.ok_of_result hr)
  have hcr : Sse.CrBeforeLf cutChunks.flatten := by decide +kernel
  have hvalues : sseValues readsOne cutChunks.flatten = [.int 1, .int 1] := by decide +kernel
  rw [hr, hevents hcr]
  exact congrArg some hvalues

end A2ad.Client
