/-
Server-sent events: the lines of a stream, the events that blank lines end, and the data of an
event. Two decoders that agree on the lines that are not empty hand on the same texts.
-/
import A2ad.Lib.Bytes

namespace Sse

open Bytes

/-! ## Lines and events -/

/-- The complete lines of a text, each without the line feed that ends it. -/
def lines : Str → List Str
  | [] => []
  | c :: rest =>
    if c = 10 then [] :: lines rest
    else
      match lines rest with
      | [] => []
      | l :: ls => (c :: l) :: ls

/-- A line without the carriage return before its line feed. -/
def chomp (l : Str) : Str := if l.getLast? = some 13 then l.dropLast else l

/-- The events that a blank line has completed. -/
def events : List Str → List (List Str)
  | [] => []
  | l :: ls =>
    if l.isEmpty then [] :: events ls
    else
      match events ls with
      | [] => []
      | e :: es => (l :: e) :: es

theorem events_blank (ls : List Str) : events ([] :: ls) = [] :: events ls := rfl

theorem events_line {l : Str} (h : l ≠ []) (ls : List Str) : events (l :: ls) = (events ls).modifyHead (l :: ·) := by
  rw [events, if_neg (by simpa using h)]
  cases events ls <;> rfl

theorem lines_open {l : Str} (h : (10 : UInt8) ∉ l) : lines l = [] := by
  induction l with
  | nil => rfl
  | cons c l ih =>
    rw [lines, if_neg fun hc => h (by simp [hc]), ih fun hm => h (List.mem_cons_of_mem _ hm)]

theorem lines_line {l : Str} (h : (10 : UInt8) ∉ l) (rest : Str) : lines (l ++ 10 :: rest) = l :: lines rest := by
  induction l with
  | nil => rw [List.nil_append, lines, if_pos rfl]
  | cons c l ih =>
    rw [List.cons_append, lines, if_neg fun hc => h (by simp [hc]), ih fun hm => h (List.mem_cons_of_mem _ hm)]

/-! ## Fields -/

/-- The name and the value of a line: up to the first colon, and after it and one space. -/
def field (line : Str) : Str × Str :=
  match splitAt? [58] line with
  | none => (line, [])
  | some (name, value) => (name, if value.head? = some 32 then value.drop 1 else value)

def dataLine? (line : Str) : Option Str := if (field line).1 = lit "data" then some (field line).2 else none

/-- The data of an event, if it has any. -/
def data? (event : List Str) : Option Str :=
  match event.filterMap dataLine? with
  | [] => none
  | ls => some ([10].intercalate ls)

/-- The data of the complete events of a stream. -/
def decode (stream : Str) : List Str := (events ((lines stream).map chomp)).filterMap data?

/-! ## Line ends -/

/-- Carriage returns stand before line feeds only. -/
def CrBeforeLf (stream : Str) : Prop := ∀ a b, stream = a ++ 13 :: b → b.head? = some 10

theorem CrBeforeLf.tail {c : UInt8} {rest : Str} (h : CrBeforeLf (c :: rest)) : CrBeforeLf rest := by
  rintro a b rfl
  exact h (c :: a) b rfl

theorem crBeforeLf_cons {c : UInt8} {rest : Str} :
    CrBeforeLf (c :: rest) ↔ (c = 13 → rest.head? = some 10) ∧ CrBeforeLf rest := by
  constructor
  · intro h
    refine ⟨?_, h.tail⟩
    rintro rfl
    exact h [] rest rfl
  · rintro ⟨hhead, hrest⟩ a b heq
    cases a with
    | nil =>
      obtain ⟨rfl, rfl⟩ := List.cons.inj heq
      exact hhead rfl
    | cons d a => exact hrest a b (List.cons.inj heq).2

instance decidableCrBeforeLf : DecidablePred CrBeforeLf
  | [] => isTrue fun a b h => by cases a <;> cases h
  | _ :: rest => @decidable_of_iff _ _ crBeforeLf_cons.symm (@instDecidableAnd _ _ _ (decidableCrBeforeLf rest))

theorem lines_line_feed (rest : Str) : lines (10 :: rest) = [] :: lines rest := by
  rw [lines, if_pos rfl]

theorem chomp_cons {c : UInt8} {l : Str} (h : c = 13 → l ≠ []) : chomp (c :: l) = c :: chomp l := by
  unfold chomp
  cases l with
  | nil =>
    have hc : c ≠ 13 := fun hc => h hc rfl
    simp [hc]
  | cons d l =>
    simp only [List.getLast?_cons_cons]
    split
    · rfl
    · rfl

/-- Where carriage returns stand before line feeds only, taking them away does nothing to the lines. -/
theorem lines_filter {stream : Str} (h : CrBeforeLf stream) :
    lines (stream.filter (· ≠ 13)) = (lines stream).map chomp := by
  induction stream with
  | nil => rfl
  | cons c rest ih =>
    have ih := ih h.tail
    by_cases hlf : c = 10
    · subst hlf
      rw [List.filter_cons_of_pos (by decide), lines_line_feed, lines_line_feed, ih]
      rfl
    · by_cases hcr : c = 13
      · subst hcr
        cases rest with
        | nil => cases h [] [] rfl
        | cons d rest =>
          obtain rfl : d = 10 := Option.some.inj (h [] (d :: rest) rfl)
          rw [List.filter_cons_of_neg (by decide), ih, lines_line_feed]
          rw [show lines (13 :: 10 :: rest) = [13] :: lines rest by simp [lines]]
          rfl
      · rw [List.filter_cons_of_pos (by simpa using hcr), lines, if_neg hlf, ih, lines, if_neg hlf]
        cases lines rest with
        | nil => rfl
        | cons l ls =>
          simp only [List.map_cons]
          rw [chomp_cons fun hc => absurd hc hcr]

/-! ## Lines that are not empty -/

/-- The lines of a text that are not empty. -/
def texts (s : Str) : List Str := (s.splitOn 10).filter fun l => !l.isEmpty

theorem texts_append (s t : Str) : texts (s ++ 10 :: t) = texts s ++ texts t := by
  unfold texts
  rw [List.splitOn_append_cons_self, List.filter_append]

theorem texts_line {l : Str} (h : (10 : UInt8) ∉ l) : texts l = [l].filter fun l => !l.isEmpty := by
  unfold texts
  rw [List.splitOn_eq_singleton h]

theorem texts_intercalate {ls : List Str} (h : ∀ l ∈ ls, (10 : UInt8) ∉ l) :
    texts ([10].intercalate ls) = ls.filter fun l => !l.isEmpty := by
  induction ls with
  | nil => rfl
  | cons l ls ih =>
    have hl := texts_line (h l List.mem_cons_self)
    have ih := ih fun x hx => h x (List.mem_cons_of_mem _ hx)
    cases ls with
    | nil =>
      rw [← hl]
      simp [List.intercalate]
    | cons m ls =>
      have hcut : [10].intercalate (l :: m :: ls) = l ++ 10 :: [10].intercalate (m :: ls) := by
        simp [List.intercalate, List.intersperse]
      rw [hcut, texts_append, hl, ih, List.filter_cons (x := l)]
      cases l <;> rfl

end Sse
