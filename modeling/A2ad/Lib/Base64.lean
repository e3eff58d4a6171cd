/-
Base64 texts (RFC 4648, section 4): the standard alphabet, the text of a byte string, padded or
not, and the texts that are well formed.
-/
import A2ad.Lib.Bytes

namespace Base64

open Bytes

/-! ## The alphabet -/

/-- The character that stands for six bits. -/
def char (n : Nat) : UInt8 :=
  if n < 26 then UInt8.ofNat (n + 65)
  else if n < 52 then UInt8.ofNat (n + 71)
  else if n < 62 then UInt8.ofNat (n - 4)
  else if n = 62 then 43
  else 47

example : (List.range 64).map char = lit "ABCDEFGHIJKLMNOPQRSTUVWXYZabcdefghijklmnopqrstuvwxyz0123456789+/" := by decide

def IsChar (c : UInt8) : Prop := ∃ n < 64, c = char n

/-! ## Texts -/

/-- What fills up a last group of so many characters. -/
def padding (n : Nat) : Str :=
  match n % 4 with
  | 2 => [61, 61]
  | 3 => [61]
  | _ => []

/-- The text of a byte string: four characters for three bytes, and a shorter last group. -/
def encode (padded : Bool) : Str → Str
  | [] => []
  | [a] => [char (a.toNat / 4), char (a.toNat % 4 * 16)] ++ if padded then padding 2 else []
  | [a, b] =>
    [char (a.toNat / 4), char (a.toNat % 4 * 16 + b.toNat / 16), char (b.toNat % 16 * 4)] ++
      if padded then padding 3 else []
  | a :: b :: c :: rest =>
    char (a.toNat / 4) :: char (a.toNat % 4 * 16 + b.toNat / 16) :: char (b.toNat % 16 * 4 + c.toNat / 64) ::
      char (c.toNat % 64) :: encode padded rest

/-- Characters of the alphabet, not one alone in the last group, and the padding of that group or none. -/
structure IsText (s digits pad : Str) : Prop where
  eq : s = digits ++ pad
  chars : ∀ c ∈ digits, IsChar c
  grouped : digits.length % 4 ≠ 1
  padded : pad = [] ∨ pad = padding digits.length

/-- The text is well formed. -/
def Wellformed (s : Str) : Prop := ∃ digits pad, IsText s digits pad

/-- The padding is no character of the alphabet. -/
theorem char_ne_pad (n : Nat) : char n ≠ 61 := by
  unfold char
  split_ifs with h₁ h₂ h₃ h₄
  all_goals
    intro h
    have hnat := congrArg UInt8.toNat h
    first
      | exact absurd h (by decide)
      | rw [UInt8.toNat_ofNat'] at hnat
        have h61 : (61 : UInt8).toNat = 61 := rfl
        omega

theorem IsChar.ne_pad {c : UInt8} (h : IsChar c) : c ≠ 61 := by
  obtain ⟨n, -, rfl⟩ := h
  exact char_ne_pad n

/-! ## Where a text is cut -/

/-- The characters before the padding. -/
def before (s : Str) : Str := s.takeWhile fun c => decide (c ≠ 61)

/-- The text from the first sign of the padding on. -/
def after (s : Str) : Str := s.dropWhile fun c => decide (c ≠ 61)

theorem padding_head {n : Nat} (h : padding n ≠ []) : (padding n).head? = some 61 := by
  unfold padding at h ⊢
  split at h <;> first | rfl | exact absurd rfl h

theorem IsText.cut {s digits pad : Str} (h : IsText s digits pad) : before s = digits ∧ after s = pad := by
  have hdigits : ∀ c ∈ digits, decide (c ≠ 61) = true := fun c hc => by simpa using (h.chars c hc).ne_pad
  have hstop : pad.takeWhile (fun c => decide (c ≠ 61)) = [] ∧ pad.dropWhile (fun c => decide (c ≠ 61)) = pad := by
    by_cases hpad : pad = []
    · subst hpad
      exact ⟨rfl, rfl⟩
    obtain rfl := h.padded.resolve_left hpad
    have hhead := padding_head hpad
    generalize padding digits.length = pad at hhead
    cases pad with
    | nil => cases hhead
    | cons c pad =>
      obtain rfl : c = 61 := Option.some.inj hhead
      exact ⟨by simp, by simp⟩
  unfold before after
  rw [h.eq, List.takeWhile_append_of_pos hdigits, List.dropWhile_append_of_pos hdigits, hstop.1, hstop.2]
  exact ⟨List.append_nil _, rfl⟩

theorem wellformed_iff {s : Str} : Wellformed s ↔
    (∀ c ∈ before s, IsChar c) ∧ (before s).length % 4 ≠ 1 ∧ (after s = [] ∨ after s = padding (before s).length) := by
  constructor
  · rintro ⟨digits, pad, h⟩
    obtain ⟨hbefore, hafter⟩ := h.cut
    rw [hbefore, hafter]
    exact ⟨h.chars, h.grouped, h.padded⟩
  · rintro ⟨hchars, hgrouped, hpadded⟩
    exact ⟨before s, after s, (List.takeWhile_append_dropWhile ..).symm, hchars, hgrouped, hpadded⟩

end Base64
