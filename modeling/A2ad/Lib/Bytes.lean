/-
Byte strings: the values of a `std::string`. Literals stand for their UTF-8 bytes, and decimal
texts of numbers determine the number.
-/
import Mathlib.Data.Nat.Digits.Defs

namespace Bytes

/-- A string of bytes. -/
abbrev Str := List UInt8

/-- The bytes of a literal. -/
def lit (s : String) : Str := s.toByteArray.data.toList

instance : Coe String Str := ⟨lit⟩

instance : LawfulBEq Str := inferInstance

@[simp] theorem lit_inj {a b : String} : lit a = lit b ↔ a = b := by
  unfold lit
  rw [Array.toList_inj, ← ByteArray.ext_iff, String.toByteArray_inj]

@[simp] theorem lit_empty : lit "" = [] := by decide

/-! ## Searching -/

/-- The text before the first occurrence of `sep` and the text after it. -/
def splitAt? (sep : Str) : Str → Option (Str × Str)
  | [] => if sep.isEmpty then some ([], []) else none
  | c :: r =>
    if sep.isPrefixOf (c :: r) then some ([], (c :: r).drop sep.length)
    else (splitAt? sep r).map fun p => (c :: p.1, p.2)

theorem splitAt?_of_notMem {c : UInt8} {s : Str} (h : c ∉ s) (t : Str) : splitAt? [c] (s ++ c :: t) = some (s, t) := by
  induction s with
  | nil => simp [splitAt?]
  | cons d s ih =>
    have hd : c ≠ d := fun hd => h (by simp [hd])
    rw [List.cons_append, splitAt?, if_neg (by simp [List.isPrefixOf, hd]), ih fun hm => h (List.mem_cons_of_mem _ hm)]
    rfl

theorem splitAt?_eq_none {c : UInt8} {s : Str} (h : c ∉ s) : splitAt? [c] s = none := by
  induction s with
  | nil => rfl
  | cons d s ih =>
    have hd : c ≠ d := fun hd => h (by simp [hd])
    rw [splitAt?, if_neg (by simp [List.isPrefixOf, hd]), ih fun hm => h (List.mem_cons_of_mem _ hm)]
    rfl

/-- The text after the last `c`, or all of it when there is none. -/
def afterLast (c : UInt8) (s : Str) : Str := (s.reverse.takeWhile (· ≠ c)).reverse

/-- A text is cut at the first separator in one way only. -/
theorem cut_inj {c : UInt8} {s s' r r' : Str} (hs : c ∉ s) (hs' : c ∉ s') (h : s ++ c :: r = s' ++ c :: r') :
    s = s' ∧ r = r' := by
  induction s generalizing s' with
  | nil =>
    cases s' with
    | nil => exact ⟨rfl, (List.cons.inj h).2⟩
    | cons d s' =>
      obtain ⟨rfl, -⟩ := List.cons.inj h
      exact absurd (List.mem_cons_self ..) hs'
  | cons d s ih =>
    cases s' with
    | nil =>
      obtain ⟨rfl, -⟩ := List.cons.inj h
      exact absurd (List.mem_cons_self ..) hs
    | cons d' s' =>
      obtain ⟨rfl, hrest⟩ := List.cons.inj h
      obtain ⟨rfl, hr⟩ := ih (fun m => hs (List.mem_cons_of_mem _ m)) (fun m => hs' (List.mem_cons_of_mem _ m)) hrest
      exact ⟨rfl, hr⟩

/-! ## Decimal texts -/

def digit (n : Nat) : UInt8 := UInt8.ofNat (48 + n)

def isDigit (c : UInt8) : Bool := 48 ≤ c && c ≤ 57

/-- `std::to_string` of an unsigned value. -/
def natText (n : Nat) : Str := if n = 0 then [48] else (Nat.digits 10 n).reverse.map digit

/-- `std::to_string` of a signed value. -/
def intText : Int → Str
  | .ofNat n => natText n
  | .negSucc n => 45 :: natText (n + 1)

/-- The number a run of digits stands for. -/
def textNat (s : Str) : Nat := Nat.ofDigits 10 (s.reverse.map fun c => c.toNat - 48)

theorem digit_toNat {n : Nat} (h : n < 10) : (digit n).toNat = 48 + n := by
  unfold digit
  rw [UInt8.toNat_ofNat']
  omega

theorem isDigit_digit {n : Nat} (h : n < 10) : isDigit (digit n) = true := by
  have := digit_toNat h
  simp only [isDigit, Bool.and_eq_true, decide_eq_true_eq, UInt8.le_iff_toNat_le, this]
  constructor
  · show 48 ≤ 48 + n
    omega
  · show 48 + n ≤ 57
    omega

theorem natText_digits (n : Nat) : ∀ c ∈ natText n, isDigit c = true := by
  intro c hc
  unfold natText at hc
  split at hc
  · simp only [List.mem_singleton] at hc
    subst hc; decide
  · obtain ⟨d, hd, rfl⟩ := List.mem_map.1 hc
    exact isDigit_digit (Nat.digits_lt_base (by omega) (List.mem_reverse.1 hd))

theorem natText_ne_nil (n : Nat) : natText n ≠ [] := by
  unfold natText
  split
  · simp
  · rename_i h
    simpa [Nat.digits_eq_nil_iff_eq_zero] using h

theorem textNat_natText (n : Nat) : textNat (natText n) = n := by
  unfold natText
  split
  · rename_i h; subst h; decide
  · unfold textNat
    have hmap : ((Nat.digits 10 n).map digit).map (fun c => c.toNat - 48) = Nat.digits 10 n := by
      rw [List.map_map]
      conv_rhs => rw [← List.map_id (Nat.digits 10 n)]
      refine List.map_congr_left fun d hd => ?_
      have := digit_toNat (Nat.digits_lt_base (by omega) hd)
      simp only [Function.comp_apply, this, id_eq]
      omega
    rw [← List.map_reverse, List.reverse_reverse, hmap, Nat.ofDigits_digits]

theorem natText_inj {a b : Nat} (h : natText a = natText b) : a = b := by
  rw [← textNat_natText a, h, textNat_natText]

/-- A signed text starts with a digit or a minus sign followed by one. -/
theorem natText_head_ne (n : Nat) (s : Str) : natText n ≠ 45 :: s := by
  intro h
  have := natText_digits n 45 (by rw [h]; exact List.mem_cons_self ..)
  exact absurd this (by decide)

/-- A decimal text is one line. -/
theorem newline_notMem_intText (n : Int) : (10 : UInt8) ∉ intText n := by
  have hnat : ∀ m, (10 : UInt8) ∉ natText m := fun m h => absurd (natText_digits m 10 h) (by decide)
  cases n with
  | ofNat m => exact hnat m
  | negSucc m =>
    intro h
    rcases List.mem_cons.1 h with h | h
    · exact absurd h (by decide)
    · exact hnat _ h

theorem intText_inj {a b : Int} (h : intText a = intText b) : a = b := by
  cases a with
  | ofNat m =>
    cases b with
    | ofNat n => rw [natText_inj h]
    | negSucc n => exact absurd h (natText_head_ne m _)
  | negSucc m =>
    cases b with
    | ofNat n => exact absurd h.symm (natText_head_ne n _)
    | negSucc n =>
      have := natText_inj (List.cons.inj h).2
      rw [Nat.succ.inj this]

end Bytes
