/-
Raw parts: decoding inverts the encoding of every byte string, whatever white space stands in its
text, and which malformed texts are taken for whole ones.
-/
import A2ad.Lib.Base64
import A2ad.Task.Artifact

namespace A2ad.TaskManager

open Bytes Json Client

/-! ## The decoder on machine words -/

/-- `decodeFrom` with the `int` of the code: shifting left wraps around, shifting right keeps the sign. -/
def decodeWord (val : BitVec 32) (bits : Int) : Str → Option Str
  | [] => some []
  | c :: rest =>
    if c = 61 then some []
    else if isSpace c then decodeWord val bits rest
    else
      match base64Digit c with
      | none => none
      | some d =>
        let val := val <<< 6 + BitVec.ofNat 32 d
        let bits := bits + 6
        if 0 ≤ bits then
          (decodeWord val (bits - 8) rest).map (UInt8.ofNat (val.sshiftRight bits.toNat &&& 0xff#32).toNat :: ·)
        else decodeWord val bits rest

section Words

variable {c : UInt8} {d : Nat}

theorem base64Digit_lt (h : base64Digit c = some d) : d < 64 := by
  unfold base64Digit at h
  have hc := c.toNat_lt
  simp only [Bool.and_eq_true, decide_eq_true_eq, UInt8.le_iff_toNat_le] at h
  have h65 : (65 : UInt8).toNat = 65 := rfl
  have h90 : (90 : UInt8).toNat = 90 := rfl
  have h97 : (97 : UInt8).toNat = 97 := rfl
  have h122 : (122 : UInt8).toNat = 122 := rfl
  have h48 : (48 : UInt8).toNat = 48 := rfl
  have h57 : (57 : UInt8).toNat = 57 := rfl
  split_ifs at h
  all_goals
    simp only [Option.some.injEq] at h
    omega

theorem toNat_accumulate (val : BitVec 32) (d : Nat) :
    (val <<< 6 + BitVec.ofNat 32 d).toNat = (val.toNat * 64 + d) % 2 ^ 32 := by
  simp only [BitVec.toNat_add, BitVec.toNat_shiftLeft, BitVec.toNat_ofNat, Nat.shiftLeft_eq]
  omega

/-- Of a word shifted by a few bits, the low byte does not depend on the sign. -/
theorem low_sshiftRight (val : BitVec 32) {k : Nat} (hk : k ≤ 5) :
    (val.sshiftRight k &&& 0xff#32).toNat = (val.toNat >>> k) % 256 := by
  have hmask : (0xff#32).toNat = 2 ^ 8 - 1 := rfl
  have hshift : (val.sshiftRight k).toInt = val.toInt / 2 ^ k := by
    rw [BitVec.toInt_sshiftRight, Int.shiftRight_eq_div_pow]
    rfl
  rw [BitVec.toNat_and, hmask, Nat.and_two_pow_sub_one_eq_mod, Nat.shiftRight_eq_div_pow]
  rw [BitVec.toInt_eq_toNat_cond, BitVec.toInt_eq_toNat_cond] at hshift
  have hval := val.isLt
  obtain rfl | rfl | rfl | rfl | rfl | rfl : k = 0 ∨ k = 1 ∨ k = 2 ∨ k = 3 ∨ k = 4 ∨ k = 5 := by omega
  all_goals split_ifs at hshift <;> omega

/-- The decoder on words is the decoder of the model. -/
theorem decodeWord_eq (s : Str) (val : BitVec 32) {bits : Int} (hbits : bits < 0) :
    decodeWord val bits s = decodeFrom val.toNat bits s := by
  induction s generalizing val bits with
  | nil => rfl
  | cons c s ih =>
    unfold decodeWord decodeFrom
    split
    · rfl
    split
    · exact ih val hbits
    cases hdigit : base64Digit c with
    | none => rfl
    | some d =>
      dsimp only
      have hval := toNat_accumulate val d
      split
      · rename_i hpush
        have hlow := low_sshiftRight (val <<< 6 + BitVec.ofNat 32 d) (show (bits + 6).toNat ≤ 5 by omega)
        have hbyte : UInt8.ofNat ((val <<< 6 + BitVec.ofNat 32 d).sshiftRight (bits + 6).toNat &&& 0xff#32).toNat =
            UInt8.ofNat (((val.toNat * 64 + d) % 2 ^ 32) >>> (bits + 6).toNat) := by
          apply UInt8.toNat_inj.1
          rw [hlow, hval, UInt8.toNat_ofNat', UInt8.toNat_ofNat']
          omega
        rw [hbyte, ih _ (by omega), hval]
      · rename_i hwait
        rw [ih _ (by omega), hval]

end Words

/-! ## Characters -/

section Characters

variable {c : UInt8} {d : Nat}

theorem base64Digit_char {n : Nat} (h : n < 64) : base64Digit (Base64.char n) = some n := by
  have hall : ∀ n < 64, base64Digit (Base64.char n) = some n := by decide
  exact hall n h

theorem base64Digit_space (h : isSpace c = true) : base64Digit c = none := by
  unfold isSpace at h
  simp only [Bool.or_eq_true, beq_iff_eq, Bool.and_eq_true, decide_eq_true_eq] at h
  rcases h with rfl | ⟨hlow, hhigh⟩
  · decide
  · have hall : ∀ n < 14, base64Digit (UInt8.ofNat n) = none := by decide
    rw [UInt8.le_iff_toNat_le] at hhigh
    have h13 : (13 : UInt8).toNat = 13 := rfl
    simpa using hall c.toNat (by omega)

/-- The characters the decoder knows are those of the alphabet. -/
theorem isChar_iff : Base64.IsChar c ↔ ∃ d, base64Digit c = some d := by
  constructor
  · rintro ⟨n, hn, rfl⟩
    exact ⟨n, base64Digit_char hn⟩
  · rintro ⟨d, hd⟩
    have hall : ∀ n < 256, ∀ d ∈ base64Digit (UInt8.ofNat n), Base64.char d = UInt8.ofNat n := by decide +kernel
    have hchar := hall c.toNat c.toNat_lt d (by simpa using hd)
    exact ⟨d, base64Digit_lt hd, by simpa using hchar.symm⟩

/-- A character of the alphabet shifts six bits in. -/
theorem decodeFrom_char (hc : base64Digit c = some d) (val : Nat) (bits : Int) (rest : Str) :
    decodeFrom val bits (c :: rest) =
      if 0 ≤ bits + 6 then
        (decodeFrom ((val * 64 + d) % 2 ^ 32) (bits + 6 - 8) rest).map
          (UInt8.ofNat (((val * 64 + d) % 2 ^ 32) >>> (bits + 6).toNat) :: ·)
      else decodeFrom ((val * 64 + d) % 2 ^ 32) (bits + 6) rest := by
  have hpad : c ≠ 61 := by
    rintro rfl
    cases hc
  have hspace : isSpace c = false := by
    by_contra h
    rw [base64Digit_space (by simpa using h)] at hc
    cases hc
  rw [decodeFrom, if_neg hpad, hspace, hc]
  rfl

/-- A text without the white space in it. -/
def stripped (s : Str) : Str := s.filter fun c => !isSpace c

theorem decodeFrom_stripped (s : Str) (val : Nat) (bits : Int) :
    decodeFrom val bits (stripped s) = decodeFrom val bits s := by
  unfold stripped
  induction s generalizing val bits with
  | nil => rfl
  | cons c s ih =>
    cases hspace : isSpace c with
    | true =>
      have hpad : c ≠ 61 := by
        rintro rfl
        cases hspace
      rw [List.filter_cons_of_neg (by simp [hspace]), ih, decodeFrom.eq_2, if_neg hpad, hspace]
      rfl
    | false =>
      rw [List.filter_cons_of_pos (by simp [hspace])]
      unfold decodeFrom
      simp only [ih]

end Characters

/-! ## Decoding what was encoded -/

section Groups

variable {d₁ d₂ d : Nat}

/-- Of the first two characters of a group come its first byte and four bits. -/
theorem decodeFrom_two (h₁ : d₁ < 64) (h₂ : d₂ < 64) (val : Nat) :
    ∃ v, v % 16 = d₂ % 16 ∧ ∀ rest, decodeFrom val (-8) (Base64.char d₁ :: Base64.char d₂ :: rest) =
      (decodeFrom v (-4) rest).map (UInt8.ofNat (d₁ * 4 + d₂ / 16) :: ·) := by
  refine ⟨((val * 64 + d₁) % 2 ^ 32 * 64 + d₂) % 2 ^ 32, by omega, fun rest => ?_⟩
  rw [decodeFrom_char (base64Digit_char h₁), if_neg (by omega), decodeFrom_char (base64Digit_char h₂), if_pos (by omega)]
  have hbyte : UInt8.ofNat ((((val * 64 + d₁) % 2 ^ 32 * 64 + d₂) % 2 ^ 32) >>> 4) = UInt8.ofNat (d₁ * 4 + d₂ / 16) := by
    apply UInt8.toNat_inj.1
    rw [UInt8.toNat_ofNat', UInt8.toNat_ofNat', Nat.shiftRight_eq_div_pow]
    omega
  exact congrArg (fun b => (decodeFrom _ (-4) rest).map (b :: ·)) hbyte

/-- The third character completes the second byte. -/
theorem decodeFrom_third (h : d < 64) (val : Nat) :
    ∃ v, v % 4 = d % 4 ∧ ∀ rest, decodeFrom val (-4) (Base64.char d :: rest) =
      (decodeFrom v (-6) rest).map (UInt8.ofNat (val % 16 * 16 + d / 4) :: ·) := by
  refine ⟨(val * 64 + d) % 2 ^ 32, by omega, fun rest => ?_⟩
  rw [decodeFrom_char (base64Digit_char h), if_pos (by omega)]
  have hbyte : UInt8.ofNat (((val * 64 + d) % 2 ^ 32) >>> 2) = UInt8.ofNat (val % 16 * 16 + d / 4) := by
    apply UInt8.toNat_inj.1
    rw [UInt8.toNat_ofNat', UInt8.toNat_ofNat', Nat.shiftRight_eq_div_pow]
    omega
  exact congrArg (fun b => (decodeFrom _ (-6) rest).map (b :: ·)) hbyte

/-- The fourth character completes the third byte. -/
theorem decodeFrom_fourth (h : d < 64) (val : Nat) :
    ∃ v, ∀ rest, decodeFrom val (-6) (Base64.char d :: rest) =
      (decodeFrom v (-8) rest).map (UInt8.ofNat (val % 4 * 64 + d) :: ·) := by
  refine ⟨(val * 64 + d) % 2 ^ 32, fun rest => ?_⟩
  rw [decodeFrom_char (base64Digit_char h), if_pos (by omega)]
  have hbyte : UInt8.ofNat (((val * 64 + d) % 2 ^ 32) >>> 0) = UInt8.ofNat (val % 4 * 64 + d) := by
    apply UInt8.toNat_inj.1
    rw [UInt8.toNat_ofNat', UInt8.toNat_ofNat', Nat.shiftRight_eq_div_pow]
    omega
  exact congrArg (fun b => (decodeFrom _ (-8) rest).map (b :: ·)) hbyte

theorem decodeFrom_padding (val : Nat) (bits : Int) (padded : Bool) (n : Nat) :
    decodeFrom val bits (if padded then Base64.padding n else []) = some [] := by
  cases padded with
  | false => rfl
  | true =>
    rw [if_pos rfl]
    unfold Base64.padding
    split <;> rfl

theorem ofNat_of_toNat {n : Nat} {b : UInt8} (h : n = b.toNat) : UInt8.ofNat n = b := by
  rw [h]
  exact UInt8.ofNat_toNat

/-- The text of a byte string is decoded to it, whatever was shifted in before. -/
theorem decodeFrom_encode (padded : Bool) (b : Str) (val : Nat) : decodeFrom val (-8) (Base64.encode padded b) = some b := by
  fun_induction Base64.encode padded b generalizing val with
  | case1 => rfl
  | case2 a =>
    have ha := a.toNat_lt
    obtain ⟨v, -, h⟩ := decodeFrom_two
      (show a.toNat / 4 < 64 by omega) (show a.toNat % 4 * 16 < 64 by omega) val
    rw [List.cons_append, List.singleton_append, h, decodeFrom_padding, ofNat_of_toNat (b := a) (by omega)]
    rfl
  | case3 a b =>
    have ha := a.toNat_lt
    have hb := b.toNat_lt
    obtain ⟨v, hv, h⟩ := decodeFrom_two
      (show a.toNat / 4 < 64 by omega) (show a.toNat % 4 * 16 + b.toNat / 16 < 64 by omega) val
    obtain ⟨w, -, hthird⟩ := decodeFrom_third (show b.toNat % 16 * 4 < 64 by omega) v
    rw [List.cons_append, List.cons_append, List.singleton_append, h, hthird, decodeFrom_padding,
      ofNat_of_toNat (b := a) (by omega), ofNat_of_toNat (b := b) (by omega)]
    rfl
  | case4 a b c rest ih =>
    have ha := a.toNat_lt
    have hb := b.toNat_lt
    have hc := c.toNat_lt
    obtain ⟨v, hv, h⟩ := decodeFrom_two
      (show a.toNat / 4 < 64 by omega) (show a.toNat % 4 * 16 + b.toNat / 16 < 64 by omega) val
    obtain ⟨w, hw, hthird⟩ := decodeFrom_third (show b.toNat % 16 * 4 + c.toNat / 64 < 64 by omega) v
    obtain ⟨x, hfourth⟩ := decodeFrom_fourth (show c.toNat % 64 < 64 by omega) w
    rw [h, hthird, hfourth, ih, ofNat_of_toNat (b := a) (by omega), ofNat_of_toNat (b := b) (by omega),
      ofNat_of_toNat (b := c) (by omega)]
    rfl

end Groups

/-- **Decoding inverts encoding.** A text that is the text of a byte string but for white space, with or
without padding, is decoded to that byte string; so it is on 32 bits with a sign. -/
theorem decodes_encoded (padded : Bool) (b text : Str) (h : stripped text = Base64.encode padded b) :
    decodeBase64 text = some b ∧ decodeWord 0 (-8) text = some b := by
  have hdecoded : decodeBase64 text = some b := by
    rw [decodeBase64, ← decodeFrom_stripped, h, decodeFrom_encode]
  exact ⟨hdecoded, (decodeWord_eq text 0 (by omega)).trans hdecoded⟩

/-- A text with a line break in a group. -/
theorem decodes_encoded_wrapped :
    decodeBase64 "aGVs\nbG8" = some (lit "hello") ∧ decodeWord 0 (-8) "aGVs\nbG8" = some (lit "hello") :=
  decodes_encoded false (lit "hello") "aGVs\nbG8" (by decide)

/-! ## Damaged texts -/

theorem decodeFrom_isSome (s : Str) (val : Nat) (bits : Int) :
    (decodeFrom val bits s).isSome = true ↔ ∀ c ∈ Base64.before s, isSpace c = true ∨ Base64.IsChar c := by
  unfold Base64.before
  fun_induction decodeFrom val bits s with
  | case1 => simp
  | case2 => simp
  | case3 val bits c rest hpad hspace ih =>
    rw [ih, List.takeWhile_cons_of_pos (by simpa using hpad), List.forall_mem_cons, and_iff_right (.inl hspace)]
  | case4 val bits c rest hpad hspace hdigit =>
    rw [List.takeWhile_cons_of_pos (by simpa using hpad), List.forall_mem_cons]
    refine ⟨fun h => (nomatch h), fun h => ?_⟩
    obtain ⟨d, hd⟩ := isChar_iff.1 (h.1.resolve_left hspace)
    rw [hdigit] at hd
    cases hd
  | case5 val bits c rest hpad hspace d hdigit _ _ _ ih =>
    rw [Option.isSome_map, ih, List.takeWhile_cons_of_pos (by simpa using hpad), List.forall_mem_cons,
      and_iff_right (.inr (isChar_iff.2 ⟨d, hdigit⟩))]
  | case6 val bits c rest hpad hspace d hdigit _ _ _ ih =>
    rw [ih, List.takeWhile_cons_of_pos (by simpa using hpad), List.forall_mem_cons,
      and_iff_right (.inr (isChar_iff.2 ⟨d, hdigit⟩))]

/-- A text is decoded exactly if the characters before its padding are of the alphabet. -/
theorem decodeBase64_isSome {s : Str} : (decodeBase64 s).isSome = true ↔ ∀ c ∈ Base64.before (stripped s), Base64.IsChar c := by
  rw [decodeBase64, ← decodeFrom_stripped, decodeFrom_isSome]
  refine forall₂_congr fun c hc => or_iff_right ?_
  have hmem : c ∈ stripped s := (List.takeWhile_sublist _).subset hc
  have hnot := (List.mem_filter.1 hmem).2
  simpa using hnot

/-- A damaged text is refused, and the part that has it is reported as invalid. -/
def Refused (s : Str) : Prop :=
  ¬ Base64.Wellformed (stripped s) → decodeBase64 s = none ∧
    ∀ (E : Env) (F : Files) (taskId artifactId : Str) (index : Nat) (outputDir sha256 : Str) (w : World) (t : Task)
      (a : Artifact) (p : Part), w.task E taskId = some t → findPart t artifactId index = .ok (a, p) → p.raw = s →
      materializeArtifact E F taskId artifactId index outputDir sha256 w = .ok (.error "invalid base64 artifact data") w

/-- A raw part that does not decode is reported. -/
theorem materialize_undecoded {E : Env} {F : Files} {taskId artifactId outputDir sha256 : Str} {index : Nat} {w : World}
    {t : Task} {a : Artifact} {p : Part} (ht : w.task E taskId = some t) (hp : findPart t artifactId index = .ok (a, p))
    (hraw : p.raw ≠ []) (hnone : decodeBase64 p.raw = none) :
    materializeArtifact E F taskId artifactId index outputDir sha256 w = .ok (.error "invalid base64 artifact data") w := by
  have hcontent : contentOf p = .bad "invalid base64 artifact data" := by
    unfold contentOf
    rw [if_pos (by simpa using hraw), hnone]
  have hstored : getTask E taskId w = .ok (some t) w := congrArg (EStateM.Result.ok · w) ht
  unfold materializeArtifact
  rw [Tx.bind_of_ok hstored]
  simp only [hp, hcontent]
  rfl

/-- Damaged texts are refused exactly where the damage is a foreign character before the padding: a
character left over in the last group and anything after a sign of padding pass unnoticed. -/
theorem refused_iff (s : Str) : Refused s ↔
    (∃ c ∈ Base64.before (stripped s), ¬ Base64.IsChar c) ∨
      (Base64.before (stripped s)).length % 4 ≠ 1 ∧
        (Base64.after (stripped s) = [] ∨
          Base64.after (stripped s) = Base64.padding (Base64.before (stripped s)).length) := by
  unfold Refused
  rw [Base64.wellformed_iff]
  by_cases hchars : ∀ c ∈ Base64.before (stripped s), Base64.IsChar c
  · have hsome := decodeBase64_isSome.2 hchars
    constructor
    · intro h
      by_contra hnot
      obtain ⟨hnone, -⟩ := h fun hwell => hnot (.inr hwell.2)
      rw [hnone] at hsome
      cases hsome
    · rintro (⟨c, hc, hforeign⟩ | hwhole) hdamaged
      · exact absurd (hchars c hc) hforeign
      · exact absurd ⟨hchars, hwhole⟩ hdamaged
  · have hnone : decodeBase64 s = none := by
      rw [← Option.not_isSome_iff_eq_none, decodeBase64_isSome]
      exact hchars
    refine ⟨fun _ => .inl (by simpa using hchars), fun _ _ => ⟨hnone, ?_⟩⟩
    rintro E F taskId artifactId index outputDir sha256 w t a p ht hp rfl
    refine materialize_undecoded ht hp ?_ hnone
    intro hraw
    rw [hraw] at hnone
    cases hnone

/-- Two texts run together are cut after the first. -/
theorem joined_texts_accepted :
    decodeBase64 "aGVsbG8=IHdvcmxk" = some (lit "hello") ∧ ¬ Base64.Wellformed (stripped "aGVsbG8=IHdvcmxk") ∧
      ¬ ∀ s, Refused s := by
  have hdecoded : decodeBase64 "aGVsbG8=IHdvcmxk" = some (lit "hello") := by decide
  have hdamaged : ¬ Base64.Wellformed (stripped "aGVsbG8=IHdvcmxk") := by
    rw [Base64.wellformed_iff]
    rintro ⟨-, -, hpadded⟩
    exact absurd hpadded (by decide)
  refine ⟨hdecoded, hdamaged, fun h => ?_⟩
  rw [(h _ hdamaged).1] at hdecoded
  cases hdecoded

end A2ad.TaskManager
