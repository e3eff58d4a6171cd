/-
Well-formed UTF-8 as a byte automaton: the state is the list of byte ranges still owed to the
character being read. A well-formed text cut at a byte offset is well formed exactly when the
offset does not fall inside a character, i.e. when the byte there is no continuation byte.
-/
import A2ad.Lib.Bytes
import Mathlib.Data.List.DropRight

namespace Utf8

open Bytes

/-- The ranges of the bytes a character still owes. -/
abbrev Owed := List (UInt8 × UInt8)

/-- Continuation bytes are `80..BF`. -/
def isCont (b : UInt8) : Bool := 0x80 ≤ b && b ≤ 0xBF

/-- What a lead byte owes: RFC 3629 without overlong forms, surrogates and values past `10FFFF`. -/
def lead (b : UInt8) : Option Owed :=
  if b < 0x80 then some []
  else if b < 0xC2 then none
  else if b < 0xE0 then some [(0x80, 0xBF)]
  else if b = 0xE0 then some [(0xA0, 0xBF), (0x80, 0xBF)]
  else if b = 0xED then some [(0x80, 0x9F), (0x80, 0xBF)]
  else if b < 0xF0 then some [(0x80, 0xBF), (0x80, 0xBF)]
  else if b = 0xF0 then some [(0x90, 0xBF), (0x80, 0xBF), (0x80, 0xBF)]
  else if b < 0xF4 then some [(0x80, 0xBF), (0x80, 0xBF), (0x80, 0xBF)]
  else if b = 0xF4 then some [(0x80, 0x8F), (0x80, 0xBF), (0x80, 0xBF)]
  else none

/-- One byte of the automaton. -/
def step : Owed → UInt8 → Option Owed
  | [], b => lead b
  | r :: rest, b => if r.1 ≤ b ∧ b ≤ r.2 then some rest else none

/-- The automaton over a text. -/
def run : Owed → Str → Option Owed
  | q, [] => some q
  | q, b :: s => (step q b).bind fun q' => run q' s

/-- A text is well formed when the automaton ends between characters. -/
def valid (s : Str) : Bool := run [] s == some []

/-- The byte offset `n` does not fall inside a character: the text ends there, or no
continuation byte stands there. -/
def boundary (s : Str) (n : Nat) : Bool := (s[n]?).all fun b => !isCont b

/-! ## Runs -/

/-- Owed ranges hold continuation bytes only. -/
def Tails (q : Owed) : Prop := ∀ r ∈ q, 0x80 ≤ r.1 ∧ r.2 ≤ 0xBF

theorem tails_nil : Tails [] := by simp [Tails]

theorem lead_tails {b : UInt8} {q : Owed} (h : lead b = some q) : Tails q := by
  unfold lead at h
  repeat' split at h
  all_goals cases h
  all_goals simp [Tails]

theorem step_tails {q q' : Owed} {b : UInt8} (hq : Tails q) (h : step q b = some q') : Tails q' := by
  cases q with
  | nil => exact lead_tails h
  | cons r rest =>
    simp only [step] at h
    split at h
    · cases h
      exact fun x hx => hq x (List.mem_cons_of_mem _ hx)
    · cases h

theorem run_append (q : Owed) (s t : Str) : run q (s ++ t) = (run q s).bind fun q' => run q' t := by
  induction s generalizing q with
  | nil => rfl
  | cons b s ih =>
    simp only [List.cons_append, run]
    cases step q b with
    | none => rfl
    | some q' => simpa using ih q'

theorem run_tails {q q' : Owed} {s : Str} (hq : Tails q) (h : run q s = some q') : Tails q' := by
  induction s generalizing q with
  | nil => cases h; exact hq
  | cons b s ih =>
    simp only [run, Option.bind_eq_some_iff] at h
    obtain ⟨q₁, h₁, h₂⟩ := h
    exact ih (step_tails hq h₁) h₂

/-- Inside a character only continuation bytes are taken. -/
theorem step_cont {q q' : Owed} {b : UInt8} (hq : Tails q) (hne : q ≠ []) (h : step q b = some q') :
    isCont b = true := by
  cases q with
  | nil => exact absurd rfl hne
  | cons r rest =>
    simp only [step] at h
    split at h
    · rename_i hb
      obtain ⟨h1, h2⟩ := hq r (List.mem_cons_self ..)
      simp only [isCont, Bool.and_eq_true, decide_eq_true_eq]
      exact ⟨UInt8.le_trans h1 hb.1, UInt8.le_trans hb.2 h2⟩
    · cases h

/-- Between characters no continuation byte is taken. -/
theorem lead_not_cont {q : Owed} {b : UInt8} (h : lead b = some q) : isCont b = false := by
  unfold lead at h
  simp only [isCont, Bool.and_eq_false_iff, decide_eq_false_iff_not, UInt8.not_le]
  split at h
  · left; assumption
  · split at h
    · cases h
    · right
      rename_i _ h2
      exact UInt8.lt_of_lt_of_le (by decide) (UInt8.not_lt.1 h2)

/-! ## Concatenations and cuts -/

theorem valid_iff (s : Str) : valid s = true ↔ run [] s = some [] := by
  unfold valid; exact beq_iff_eq

@[simp] theorem valid_nil : valid [] = true := rfl

/-- After a well-formed text the automaton starts afresh. -/
theorem valid_append_iff {s : Str} (hs : valid s = true) (t : Str) : valid (s ++ t) = valid t := by
  unfold valid
  rw [run_append, (valid_iff s).1 hs]
  rfl

theorem valid_append {s t : Str} (hs : valid s = true) (ht : valid t = true) : valid (s ++ t) = true := by
  rw [valid_append_iff hs, ht]

theorem valid_cons_ascii {b : UInt8} (hb : b < 0x80) (s : Str) : valid (b :: s) = valid s := by
  have : run [] (b :: s) = run [] s := by simp [run, step, lead, hb]
  unfold valid; rw [this]

theorem valid_ascii {s : Str} (h : ∀ b ∈ s, b < 0x80) : valid s = true := by
  induction s with
  | nil => rfl
  | cons b s ih =>
    rw [valid_cons_ascii (h b (List.mem_cons_self ..))]
    exact ih fun c hc => h c (List.mem_cons_of_mem _ hc)

/-- The state after `n` bytes of a well-formed text is between characters exactly at a boundary. -/
theorem valid_take_iff {s : Str} (hs : valid s = true) (n : Nat) :
    valid (s.take n) = true ↔ boundary s n = true := by
  have hrun : run [] (s.take n ++ s.drop n) = some [] := by rw [List.take_append_drop]; exact (valid_iff s).1 hs
  rw [run_append, Option.bind_eq_some_iff] at hrun
  obtain ⟨q, hq, hrest⟩ := hrun
  have htails := run_tails tails_nil hq
  have hhead : s[n]? = (s.drop n).head? := by rw [List.head?_drop]
  rw [valid_iff, hq, Option.some.injEq]
  unfold boundary
  rw [hhead]
  cases hd : s.drop n with
  | nil =>
    rw [hd] at hrest
    cases hrest
    simp
  | cons b t =>
    rw [hd] at hrest
    simp only [run, Option.bind_eq_some_iff] at hrest
    obtain ⟨q', hstep, -⟩ := hrest
    simp only [List.head?_cons, Option.all_some, Bool.not_eq_true']
    constructor
    · rintro rfl
      exact lead_not_cont hstep
    · intro hb
      by_contra hne
      rw [step_cont htails hne hstep] at hb
      cases hb

/-- After a text that was broken off inside a character no lead byte may follow. -/
theorem valid_append_lead (s : Str) {t : Str} (ht : valid t = true) (hlead : (t.head?.any fun b => !isCont b) = true) :
    valid (s ++ t) = true ↔ valid s = true := by
  constructor
  · intro h
    rw [valid_iff, run_append, Option.bind_eq_some_iff] at h
    obtain ⟨q, hq, hrest⟩ := h
    rw [valid_iff, hq, Option.some.injEq]
    by_contra hne
    cases t with
    | nil => cases hlead
    | cons b r =>
      simp only [run, Option.bind_eq_some_iff] at hrest
      obtain ⟨q', hstep, -⟩ := hrest
      simp [step_cont (run_tails tails_nil hq) hne hstep] at hlead
  · intro h
    exact valid_append h ht

theorem boundary_of_le {s : Str} {n : Nat} (h : s.length ≤ n) : boundary s n = true := by
  unfold boundary
  rw [List.getElem?_eq_none h, Option.all_none]

/-- A well-formed text cut before an ASCII byte is well formed. -/
theorem valid_of_append {s t : Str} (h : valid (s ++ t) = true) (ht : ∀ b ∈ t.head?, b < 0x80) : valid s = true := by
  have hcut := valid_take_iff h s.length
  rw [List.take_left'] at hcut
  · rw [hcut]
    unfold boundary
    rw [List.getElem?_append_right (Nat.le_refl _), Nat.sub_self, ← List.head?_eq_getElem?]
    cases hb : t.head? with
    | none => rfl
    | some b =>
      have hlt := ht b hb
      simp only [Option.all_some, isCont, Bool.not_eq_true', Bool.and_eq_false_iff, decide_eq_false_iff_not]
      exact .inl (UInt8.not_le.2 hlt)
  · rfl

/-! ## Trimming -/

section Trim

variable {p : UInt8 → Bool} {s : Str}

theorem valid_takeWhile (hp : ∀ b, p b = false → b < 0x80) (hs : valid s = true) : valid (s.takeWhile p) = true := by
  rw [← List.takeWhile_append_dropWhile (p := p) (l := s)] at hs
  refine valid_of_append hs fun b hb => hp b ?_
  have := List.head?_dropWhile_not p s
  rw [Option.mem_def.1 hb] at this
  simpa using this

theorem valid_dropWhile (hp : ∀ b, p b = true → b < 0x80) (hs : valid s = true) : valid (s.dropWhile p) = true := by
  have hpre : valid (s.takeWhile p) = true := valid_ascii fun b hb => hp b (List.mem_takeWhile_imp hb)
  rw [← valid_append_iff hpre, List.takeWhile_append_dropWhile]
  exact hs

theorem valid_rdropWhile (hp : ∀ b, p b = true → b < 0x80) (hs : valid s = true) : valid (s.rdropWhile p) = true := by
  have hsplit : s.rdropWhile p ++ s.rtakeWhile p = s := by
    rw [List.rdropWhile, List.rtakeWhile, ← List.reverse_append, List.takeWhile_append_dropWhile, List.reverse_reverse]
  rw [← hsplit] at hs
  exact valid_of_append hs fun b hb => hp b (List.mem_rtakeWhile_imp (List.mem_of_mem_head? hb))

end Trim

/-- Inside a character no ASCII byte is taken. -/
theorem step_ascii {r : UInt8 × UInt8} {rest : Owed} (hq : Tails (r :: rest)) {b : UInt8} (hb : b < 0x80) :
    step (r :: rest) b = none := by
  have hlo := (hq r (List.mem_cons_self ..)).1
  have hnot : ¬ r.1 ≤ b := UInt8.not_le.2 (UInt8.lt_of_lt_of_le hb hlo)
  simp only [step, hnot, false_and, if_false]

/-- Replacing ASCII bytes by ASCII texts keeps the automaton's run. -/
theorem run_flatMap_ascii (f : UInt8 → Str) (hf : ∀ b, f b = [b] ∨ b < 0x80 ∧ f b ≠ [] ∧ ∀ c ∈ f b, c < 0x80) :
    ∀ {q : Owed}, Tails q → ∀ s, run q (s.flatMap f) = run q s
  | _, _, [] => rfl
  | q, hq, b :: s => by
    have hstep : run q (f b) = step q b := by
      rcases hf b with h | ⟨hb, hne, hall⟩
      · rw [h]
        simp [run]
      · cases q with
        | nil =>
          rw [(valid_iff _).1 (valid_ascii hall)]
          simp [step, lead, hb]
        | cons r rest =>
          obtain ⟨c, t, hc⟩ := List.exists_cons_of_ne_nil hne
          have hc80 : c < 0x80 := hall c (by rw [hc]; exact List.mem_cons_self ..)
          rw [hc, run, step_ascii hq hc80, step_ascii hq hb]
          rfl
    rw [List.flatMap_cons, run_append, hstep, run]
    cases hs : step q b with
    | none => rfl
    | some q' => simpa using run_flatMap_ascii f hf (step_tails hq hs) s

theorem valid_flatMap_ascii (f : UInt8 → Str) (hf : ∀ b, f b = [b] ∨ b < 0x80 ∧ f b ≠ [] ∧ ∀ c ∈ f b, c < 0x80)
    (s : Str) : valid (s.flatMap f) = valid s := by
  unfold valid
  rw [run_flatMap_ascii f hf tails_nil]

theorem valid_map_ascii (f : UInt8 → UInt8) (hf : ∀ b, f b = b ∨ b < 0x80 ∧ f b < 0x80) (s : Str) :
    valid (s.map f) = valid s := by
  rw [List.map_eq_flatMap]
  refine valid_flatMap_ascii _ (fun b => ?_) s
  rcases hf b with h | ⟨hb, hfb⟩
  · exact .inl (by rw [h])
  · refine .inr ⟨hb, by simp, ?_⟩
    simpa using hfb

example : valid ("é…" : String) = true ∧ valid (("é" : Str).take 1) = false := by decide

end Utf8
