/-
The compact text of a JSON value, as the library's `dump()` prints it, and its injectivity: the
text of a value determines the value. `dump` throws on a string that is not well-formed UTF-8.
-/
import A2ad.Lib.Json

namespace Json

open Bytes

/-! ## Strings -/

def hexDigit (n : Nat) : UInt8 := if n < 10 then UInt8.ofNat (48 + n) else UInt8.ofNat (87 + n)

/-- A byte inside a quoted string; only quotes, backslashes and control characters are escaped. -/
def escape (c : UInt8) : Str :=
  if c = 34 then [92, 34]
  else if c = 92 then [92, 92]
  else if c = 8 then [92, 98]
  else if c = 9 then [92, 116]
  else if c = 10 then [92, 110]
  else if c = 12 then [92, 102]
  else if c = 13 then [92, 114]
  else if c < 32 then [92, 117, 48, 48, hexDigit (c.toNat / 16), hexDigit (c.toNat % 16)]
  else [c]

def quote (s : Str) : Str := 34 :: (s.flatMap escape ++ [34])

/-- The byte an escape sequence stands for, by the bytes after the backslash. -/
def unescapeBody : Str → Option (UInt8 × Str)
  | 117 :: _ :: _ :: h :: l :: r =>
    let digit (c : UInt8) : Nat := if c < 58 then c.toNat - 48 else c.toNat - 87
    some (UInt8.ofNat (16 * digit h + digit l), r)
  | 98 :: r => some (8, r)
  | 116 :: r => some (9, r)
  | 110 :: r => some (10, r)
  | 102 :: r => some (12, r)
  | 114 :: r => some (13, r)
  | c :: r => some (c, r)
  | [] => none

/-- The first byte of a string's escaped text, or none at the closing quote. -/
def unescape : Str → Option (UInt8 × Str)
  | c :: r => if c = 34 then none else if c = 92 then unescapeBody r else some (c, r)
  | [] => none

theorem unescape_escape (c : UInt8) (r : Str) : unescape (escape c ++ r) = some (c, r) := by
  unfold escape
  repeat' split
  all_goals first | (subst c; rfl) | skip
  · rename_i hlt
    have hc : c.toNat < 32 := UInt8.lt_iff_toNat_lt.1 hlt
    have hex : ∀ n < 32, UInt8.ofNat (16 * (if hexDigit (n / 16) < 58 then (hexDigit (n / 16)).toNat - 48
        else (hexDigit (n / 16)).toNat - 87) + (if hexDigit (n % 16) < 58 then (hexDigit (n % 16)).toNat - 48
        else (hexDigit (n % 16)).toNat - 87)) = UInt8.ofNat n := by decide
    have := hex c.toNat hc
    simp only [List.cons_append, List.nil_append, unescape, unescapeBody, this, UInt8.ofNat_toNat]
    rfl
  · rename_i h34 h92 _ _ _ _ _ _
    simp only [List.cons_append, List.nil_append, unescape, if_neg h34, if_neg h92]

theorem escaped_inj : ∀ {a b : Str} {s t : Str},
    a.flatMap escape ++ 34 :: s = b.flatMap escape ++ 34 :: t → a = b ∧ s = t
  | [], [], _, _, h => by simpa using h
  | c :: a, [], s, t, h => by
    have := congrArg unescape h
    simp only [List.flatMap_cons, List.append_assoc, unescape_escape, List.flatMap_nil, List.nil_append] at this
    simp [unescape] at this
  | [], d :: b, s, t, h => by
    have := congrArg unescape h
    simp only [List.flatMap_cons, List.append_assoc, unescape_escape, List.flatMap_nil, List.nil_append] at this
    simp [unescape] at this
  | c :: a, d :: b, s, t, h => by
    have := congrArg unescape h
    simp only [List.flatMap_cons, List.append_assoc, unescape_escape, Option.some.injEq, Prod.mk.injEq] at this
    obtain ⟨hcd, hrest⟩ := this
    obtain ⟨hab, hst⟩ := escaped_inj hrest
    exact ⟨by rw [hcd, hab], hst⟩

theorem quote_inj {a b s t : Str} (h : quote a ++ s = quote b ++ t) : a = b ∧ s = t := by
  unfold quote at h
  simp only [List.cons_append, List.append_assoc, List.nil_append, List.cons.injEq, true_and] at h
  exact escaped_inj h

/-! ## Numbers -/

/-- The next byte, if any, does not continue a number. -/
def Delim (s : Str) : Prop := ∀ c r, s = c :: r → isNumChar c = false

theorem takeWhile_token {a s : Str} (ha : a.all isNumChar = true) (hs : Delim s) :
    (a ++ s).takeWhile isNumChar = a := by
  rw [List.all_eq_true] at ha
  rw [List.takeWhile_append_of_pos ha]
  cases s with
  | nil => simp
  | cons c r => rw [List.takeWhile_cons_of_neg (by rw [hs c r rfl]; decide), List.append_nil]

theorem token_inj {a b s t : Str} (ha : a.all isNumChar = true) (hb : b.all isNumChar = true) (hs : Delim s)
    (ht : Delim t) (h : a ++ s = b ++ t) : a = b ∧ s = t := by
  have hab : a = b := by rw [← takeWhile_token ha hs, h, takeWhile_token hb ht]
  subst hab
  exact ⟨rfl, List.append_cancel_left h⟩

theorem isNumChar_of_isDigit {c : UInt8} (h : isDigit c = true) : isNumChar c = true := by
  simp [isNumChar, h]

theorem intText_chars (n : Int) : (intText n).all isNumChar = true := by
  have hnat : ∀ m, (natText m).all isNumChar = true := fun m =>
    List.all_eq_true.2 fun c hc => isNumChar_of_isDigit (natText_digits m c hc)
  cases n with
  | ofNat m => exact hnat m
  | negSucc m =>
    simp only [intText, List.all_cons, Bool.and_eq_true]
    exact ⟨by decide, hnat _⟩

theorem intText_unmarked (n : Int) : (intText n).any isMark = false := by
  have hnat : ∀ m, (natText m).any isMark = false := by
    intro m
    rw [List.any_eq_false]
    intro c hc
    have := natText_digits m c hc
    simp only [isDigit, Bool.and_eq_true, decide_eq_true_eq] at this
    simp only [isMark, Bool.or_eq_true, beq_iff_eq, not_or]
    constructor
    · rintro rfl
      exact absurd this.1 (by decide)
    · rintro rfl
      exact absurd this.2 (by decide)
  cases n with
  | ofNat m => exact hnat m
  | negSucc m =>
    simp only [intText, List.any_cons, hnat, Bool.or_false]
    decide

/-! ## Values -/

namespace J

mutual

/-- The text `dump()` prints. -/
def text : J → Str
  | .null => "null"
  | .bool true => "true"
  | .bool false => "false"
  | .int n => intText n
  | .flt x => x.text
  | .str s => quote s
  | .arr [] => [91, 93]
  | .arr (x :: xs) => 91 :: (x.text ++ moreItems xs)
  | .obj [] => [123, 125]
  | .obj ((k, v) :: fs) => 123 :: (quote k ++ 58 :: (v.text ++ moreFields fs))

def moreItems : List J → Str
  | [] => [93]
  | x :: xs => 44 :: (x.text ++ moreItems xs)

def moreFields : List (Str × J) → Str
  | [] => [125]
  | (k, v) :: fs => 44 :: (quote k ++ 58 :: (v.text ++ moreFields fs))

end

mutual

/-- Every string in the value is well-formed UTF-8. -/
def utf8 : J → Bool
  | .str s => Utf8.valid s
  | .arr xs => utf8List xs
  | .obj fs => utf8Fields fs
  | _ => true

def utf8List : List J → Bool
  | [] => true
  | x :: xs => x.utf8 && utf8List xs

def utf8Fields : List (Str × J) → Bool
  | [] => true
  | (k, v) :: fs => Utf8.valid k && v.utf8 && utf8Fields fs

end

/-- `dump()`, which throws on ill-formed UTF-8; the byte the message names is left out. -/
def dump (j : J) : Except Exception Str :=
  if j.utf8 then .ok j.text else .error ⟨"[json.exception.type_error.316] invalid UTF-8 byte"⟩

/-! ## Well-formed texts -/

theorem utf8List_iff {xs : List J} : utf8List xs = true ↔ ∀ x ∈ xs, x.utf8 = true := by
  induction xs with
  | nil => simp [utf8List]
  | cons x xs ih => simp [utf8List, ih]

theorem utf8Fields_iff {fs : List (Str × J)} :
    utf8Fields fs = true ↔ ∀ f ∈ fs, Utf8.valid f.1 = true ∧ f.2.utf8 = true := by
  induction fs with
  | nil => simp [utf8Fields]
  | cons f fs ih => simp [utf8Fields, ih]

@[simp] theorem utf8_str (s : Str) : (J.str s).utf8 = Utf8.valid s := rfl

theorem utf8_arr {xs : List J} : (J.arr xs).utf8 = true ↔ ∀ x ∈ xs, x.utf8 = true := utf8List_iff

theorem utf8_get? {j v : J} {k : Str} (hj : j.utf8 = true) (h : j.get? k = some v) : v.utf8 = true := by
  cases j with
  | obj fs =>
    rw [get?_obj] at h
    have hfs := utf8Fields_iff.1 hj
    induction fs with
    | nil => cases h
    | cons f fs ih =>
      rw [find_cons] at h
      split at h
      · cases h
        exact (hfs f (List.mem_cons_self ..)).2
      · exact ih (utf8Fields_iff.2 fun g hg => hfs g (List.mem_cons_of_mem _ hg)) h
          fun g hg => hfs g (List.mem_cons_of_mem _ hg)
  | _ => cases h

theorem utf8_insert {k : Str} {v : J} {fs : List (Str × J)} (hk : ∀ f ∈ fs, f.1 ≠ k) :
    utf8Fields (insert k v fs) = true ↔ (Utf8.valid k = true ∧ v.utf8 = true) ∧ utf8Fields fs = true := by
  induction fs with
  | nil => simp [insert, utf8Fields]
  | cons f fs ih =>
    have hne : f.1 ≠ k := hk f (List.mem_cons_self ..)
    have hrest := ih fun g hg => hk g (List.mem_cons_of_mem _ hg)
    simp only [insert, if_neg hne]
    split
    · simp only [utf8Fields, Bool.and_eq_true]
    · simp only [utf8Fields, Bool.and_eq_true, hrest]
      tauto

theorem mem_insert {k : Str} {v : J} {fs : List (Str × J)} {f : Str × J} (hf : f ∈ insert k v fs) :
    f = (k, v) ∨ f ∈ fs := by
  induction fs with
  | nil => simpa [insert] using hf
  | cons g fs ih =>
    simp only [insert] at hf
    split at hf
    · rcases List.mem_cons.1 hf with h | h
      · exact .inl h
      · exact .inr (List.mem_cons_of_mem _ h)
    · split at hf
      · rcases List.mem_cons.1 hf with h | h
        · exact .inl h
        · exact .inr h
      · rcases List.mem_cons.1 hf with h | h
        · exact .inr (h ▸ List.mem_cons_self ..)
        · rcases ih h with h | h
          · exact .inl h
          · exact .inr (List.mem_cons_of_mem _ h)

/-- An object built from fields of different names is well formed when they all are. -/
theorem utf8_object {fields : List (Str × J)} (hn : (fields.map (·.1)).Nodup) :
    (object fields).utf8 = true ↔ ∀ f ∈ fields, Utf8.valid f.1 = true ∧ f.2.utf8 = true := by
  have hmem : ∀ (l : List (Str × J)) (f : Str × J), f ∈ l.foldr (fun f acc => insert f.1 f.2 acc) [] → f ∈ l := by
    intro l
    induction l with
    | nil => intro f hf; exact hf
    | cons g l ih =>
      intro f hf
      rcases mem_insert hf with h | h
      · exact h ▸ List.mem_cons_self ..
      · exact List.mem_cons_of_mem _ (ih f h)
  show utf8Fields (fields.foldr (fun f acc => insert f.1 f.2 acc) []) = true ↔ _
  induction fields with
  | nil => simp [utf8Fields]
  | cons f fields ih =>
    rw [List.map_cons, List.nodup_cons] at hn
    have hk : ∀ g ∈ fields.foldr (fun f acc => insert f.1 f.2 acc) [], g.1 ≠ f.1 := by
      intro g hg hkey
      exact hn.1 (hkey ▸ List.mem_map.2 ⟨g, hmem fields g hg, rfl⟩)
    rw [List.foldr_cons, utf8_insert hk, ih hn.2, List.forall_mem_cons]

theorem hexDigit_ascii {n : Nat} (h : n < 16) : hexDigit n < 0x80 := by
  have htable : ∀ i : Fin 16, hexDigit i < 0x80 := by decide
  exact htable ⟨n, h⟩

theorem escape_ascii (b : UInt8) : escape b = [b] ∨ b < 0x80 ∧ escape b ≠ [] ∧ ∀ c ∈ escape b, c < 0x80 := by
  unfold escape
  repeat' split
  all_goals first | (subst b; exact .inr ⟨by decide, by simp, by simp⟩) | skip
  · rename_i hlt
    have hn : b.toNat < 32 := UInt8.lt_iff_toNat_lt.1 hlt
    refine .inr ⟨UInt8.lt_trans hlt (by decide), by simp, ?_⟩
    intro c hc
    simp only [List.mem_cons, List.not_mem_nil, or_false] at hc
    rcases hc with rfl | rfl | rfl | rfl | rfl | rfl
    iterate 4 decide
    · exact hexDigit_ascii (by omega)
    · exact hexDigit_ascii (by omega)
  · exact .inl rfl

theorem valid_quote {s : Str} (h : Utf8.valid s = true) : Utf8.valid (quote s) = true := by
  rw [quote, Utf8.valid_cons_ascii (by decide)]
  refine Utf8.valid_append ?_ (by decide)
  rw [Utf8.valid_flatMap_ascii _ escape_ascii, h]

theorem isNumChar_ascii {c : UInt8} (h : isNumChar c = true) : c < 0x80 := by
  simp only [isNumChar, isDigit, Bool.or_eq_true, Bool.and_eq_true, decide_eq_true_eq, beq_iff_eq] at h
  rcases h with ((((⟨-, h⟩ | rfl) | rfl) | rfl) | rfl) | rfl
  · exact UInt8.lt_of_le_of_lt h (by decide)
  all_goals decide

theorem valid_token {s : Str} (h : s.all isNumChar = true) : Utf8.valid s = true :=
  Utf8.valid_ascii fun b hb => isNumChar_ascii (List.all_eq_true.1 h b hb)

mutual

/-- The text of a well-formed value is well formed. -/
theorem valid_text : ∀ {j : J}, j.utf8 = true → Utf8.valid j.text = true
  | .null, _ => by decide
  | .bool true, _ => by decide
  | .bool false, _ => by decide
  | .int n, _ => valid_token (intText_chars n)
  | .flt x, _ => valid_token x.chars
  | .str s, h => valid_quote h
  | .arr [], _ => by decide
  | .arr (x :: xs), h => by
    simp only [utf8, utf8List, Bool.and_eq_true] at h
    rw [text, Utf8.valid_cons_ascii (by decide)]
    exact Utf8.valid_append (valid_text h.1) (valid_moreItems h.2)
  | .obj [], _ => by decide
  | .obj ((k, v) :: fs), h => by
    simp only [utf8, utf8Fields, Bool.and_eq_true] at h
    rw [text, Utf8.valid_cons_ascii (by decide)]
    refine Utf8.valid_append (valid_quote h.1.1) ?_
    rw [Utf8.valid_cons_ascii (by decide)]
    exact Utf8.valid_append (valid_text h.1.2) (valid_moreFields h.2)

theorem valid_moreItems : ∀ {xs : List J}, utf8List xs = true → Utf8.valid (moreItems xs) = true
  | [], _ => by decide
  | x :: xs, h => by
    simp only [utf8List, Bool.and_eq_true] at h
    rw [moreItems, Utf8.valid_cons_ascii (by decide)]
    exact Utf8.valid_append (valid_text h.1) (valid_moreItems h.2)

theorem valid_moreFields : ∀ {fs : List (Str × J)}, utf8Fields fs = true → Utf8.valid (moreFields fs) = true
  | [], _ => by decide
  | (k, v) :: fs, h => by
    simp only [utf8Fields, Bool.and_eq_true] at h
    rw [moreFields, Utf8.valid_cons_ascii (by decide)]
    refine Utf8.valid_append (valid_quote h.1.1) ?_
    rw [Utf8.valid_cons_ascii (by decide)]
    exact Utf8.valid_append (valid_text h.1.2) (valid_moreFields h.2)

end

theorem dump_ok {j : J} {s : Str} : j.dump = .ok s ↔ j.utf8 = true ∧ j.text = s := by
  unfold dump
  split <;> simp_all

/-- The shapes a text can start with. -/
def shape : J → Nat
  | .null => 0
  | .bool true => 1
  | .bool false => 2
  | .int _ | .flt _ => 3
  | .str _ => 4
  | .arr _ => 5
  | .obj _ => 6

/-- The shape a first byte announces; 7 for the bracket that closes an array. -/
def byteShape (c : UInt8) : Nat :=
  if c = 110 then 0 else if c = 116 then 1 else if c = 102 then 2 else if c = 34 then 4
  else if c = 91 then 5 else if c = 123 then 6 else if c = 93 then 7 else 3

theorem byteShape_number {c : UInt8} (h : isDigit c = true ∨ c = 45) : byteShape c = 3 := by
  unfold byteShape
  repeat' split
  all_goals first | rfl | (rename_i hc; subst hc; exact absurd h (by decide))

theorem intText_head (n : Int) : ∃ c r, intText n = c :: r ∧ (isDigit c = true ∨ c = 45) := by
  cases n with
  | ofNat m =>
    obtain ⟨c, r, h⟩ := List.exists_cons_of_ne_nil (natText_ne_nil m)
    exact ⟨c, r, h, .inl (natText_digits m c (by rw [h]; exact List.mem_cons_self ..))⟩
  | negSucc m => exact ⟨45, _, rfl, .inr rfl⟩

theorem text_head (j : J) : ∃ c r, j.text = c :: r ∧ byteShape c = j.shape := by
  cases j with
  | null => exact ⟨110, [117, 108, 108], by decide, rfl⟩
  | bool b =>
    cases b with
    | true => exact ⟨116, [114, 117, 101], by decide, rfl⟩
    | false => exact ⟨102, [97, 108, 115, 101], by decide, rfl⟩
  | int n =>
    obtain ⟨c, r, h, hc⟩ := intText_head n
    exact ⟨c, r, by rw [text, h], byteShape_number hc⟩
  | flt x =>
    have hs := x.start
    cases ht : x.text with
    | nil => rw [ht] at hs; cases hs
    | cons c r =>
      rw [ht] at hs
      simp only [List.head?_cons, Option.any_some, Bool.or_eq_true, beq_iff_eq] at hs
      exact ⟨c, r, by rw [text, ht], byteShape_number hs⟩
  | str s => exact ⟨34, _, rfl, rfl⟩
  | arr xs =>
    cases xs with
    | nil => exact ⟨91, [93], by decide, rfl⟩
    | cons x xs => exact ⟨91, _, rfl, rfl⟩
  | obj fs =>
    cases fs with
    | nil => exact ⟨123, [125], by decide, rfl⟩
    | cons f fs => exact ⟨123, _, rfl, rfl⟩

/-- No text starts with a closing bracket. -/
theorem text_ne_close (j : J) (r : Str) : j.text ≠ 93 :: r := by
  intro h
  obtain ⟨c, r', hc, hcs⟩ := text_head j
  rw [h] at hc
  rw [← (List.cons.inj hc).1] at hcs
  cases j with
  | bool b => cases b <;> cases hcs
  | _ => cases hcs

theorem shape_eq {a b : J} {s t : Str} (h : a.text ++ s = b.text ++ t) : a.shape = b.shape := by
  obtain ⟨c, r, hc, hcs⟩ := text_head a
  obtain ⟨d, r', hd, hds⟩ := text_head b
  rw [hc, hd, List.cons_append, List.cons_append] at h
  rw [← hcs, ← hds, (List.cons.inj h).1]

theorem delim_moreItems (xs : List J) (s : Str) : Delim (moreItems xs ++ s) := by
  intro c r h
  cases xs <;> simp only [moreItems, List.cons_append] at h <;> rw [← (List.cons.inj h).1] <;> decide

theorem delim_moreFields (fs : List (Str × J)) (s : Str) : Delim (moreFields fs ++ s) := by
  intro c r h
  cases fs <;> simp only [moreFields, List.cons_append] at h <;> rw [← (List.cons.inj h).1] <;> decide

/-- The two kinds of numbers, told apart by their marks. -/
theorem number_inj {a b : J} {s t : Str} (ha : a.shape = 3) (hb : b.shape = 3) (hs : Delim s) (ht : Delim t)
    (h : a.text ++ s = b.text ++ t) : a = b ∧ s = t := by
  have token : ∀ {j : J}, j.shape = 3 → j.text.all isNumChar = true ∧ (j.text.any isMark = true ↔ ∃ x, j = .flt x) := by
    intro j hj
    cases j with
    | int n => exact ⟨intText_chars n, by simp [text, intText_unmarked]⟩
    | flt x => exact ⟨x.chars, by simp [text, x.marked]⟩
    | bool b => cases b <;> cases hj
    | _ => cases hj
  obtain ⟨ha1, ha2⟩ := token ha
  obtain ⟨hb1, hb2⟩ := token hb
  obtain ⟨hab, hst⟩ := token_inj ha1 hb1 hs ht h
  refine ⟨?_, hst⟩
  rw [hab] at ha2
  have hiff := ha2.symm.trans hb2
  cases a with
  | int m =>
    cases b with
    | int n => rw [intText_inj hab]
    | flt y => exact absurd (hiff.2 ⟨y, rfl⟩) (by simp)
    | bool b => cases b <;> cases hb
    | _ => cases hb
  | flt x =>
    cases b with
    | int n => exact absurd (hiff.1 ⟨x, rfl⟩) (by simp)
    | flt y =>
      cases x; cases y
      simp only [text] at hab
      subst hab
      rfl
    | bool b => cases b <;> cases hb
    | _ => cases hb
  | bool b => cases b <;> cases ha
  | _ => cases ha

mutual

theorem text_append_inj : ∀ (a b : J) {s t : Str}, Delim s → Delim t → a.text ++ s = b.text ++ t → a = b ∧ s = t
  | .str x, .str y, s, t, _, _, h => by
    obtain ⟨hxy, hst⟩ := quote_inj h
    exact ⟨by rw [hxy], hst⟩
  | .arr [], .arr [], s, t, _, _, h => ⟨rfl, List.append_cancel_left h⟩
  | .arr (x :: xs), .arr (y :: ys), s, t, _, _, h => by
    simp only [text, List.cons_append, List.append_assoc, List.cons.injEq, true_and] at h
    obtain ⟨hxy, hrest⟩ := text_append_inj x y (delim_moreItems xs s) (delim_moreItems ys t) h
    obtain ⟨hxs, hst⟩ := moreItems_append_inj xs ys hrest
    exact ⟨by rw [hxy, hxs], hst⟩
  | .arr [], .arr (y :: ys), s, t, _, _, h => by
    obtain ⟨c, r, hc, -⟩ := text_head y
    have hclose := (List.cons.inj h).2
    rw [hc] at hclose
    exact absurd (hc.trans (by rw [← (List.cons.inj hclose).1])) (text_ne_close y r)
  | .arr (x :: xs), .arr [], s, t, _, _, h => by
    obtain ⟨c, r, hc, -⟩ := text_head x
    have hclose := (List.cons.inj h).2
    rw [hc] at hclose
    exact absurd (hc.trans (by rw [(List.cons.inj hclose).1])) (text_ne_close x r)
  | .obj [], .obj [], s, t, _, _, h => ⟨rfl, List.append_cancel_left h⟩
  | .obj ((k, x) :: fs), .obj ((l, y) :: gs), s, t, _, _, h => by
    simp only [text, List.cons_append, List.append_assoc, List.cons.injEq, true_and] at h
    obtain ⟨hkl, h⟩ := quote_inj h
    obtain ⟨hxy, hrest⟩ := text_append_inj x y (delim_moreFields fs s) (delim_moreFields gs t) (List.cons.inj h).2
    obtain ⟨hfs, hst⟩ := moreFields_append_inj fs gs hrest
    exact ⟨by rw [hkl, hxy, hfs], hst⟩
  | .obj [], .obj ((l, y) :: gs), s, t, _, _, h => by
    have h2 := (List.cons.inj h).2
    exact absurd (List.cons.inj h2).1 (by decide)
  | .obj ((k, x) :: fs), .obj [], s, t, _, _, h => by
    have h2 := (List.cons.inj h).2
    exact absurd (List.cons.inj h2).1 (by decide)
  | .null, .null, s, t, _, _, h => ⟨rfl, List.append_cancel_left h⟩
  | .bool true, .bool true, s, t, _, _, h => ⟨rfl, List.append_cancel_left h⟩
  | .bool false, .bool false, s, t, _, _, h => ⟨rfl, List.append_cancel_left h⟩
  | .int m, b, s, t, hs, ht, h => number_inj rfl (shape_eq h).symm hs ht h
  | .flt x, b, s, t, hs, ht, h => number_inj rfl (shape_eq h).symm hs ht h
  | a, .int n, s, t, hs, ht, h => number_inj (shape_eq h) rfl hs ht h
  | a, .flt y, s, t, hs, ht, h => number_inj (shape_eq h) rfl hs ht h
  | .null, .bool b, _, _, _, _, h => by cases b <;> cases shape_eq h
  | .null, .str _, _, _, _, _, h | .null, .arr _, _, _, _, _, h | .null, .obj _, _, _, _, _, h => by cases shape_eq h
  | .bool b, .null, _, _, _, _, h | .bool b, .str _, _, _, _, _, h | .bool b, .arr _, _, _, _, _, h
  | .bool b, .obj _, _, _, _, _, h => by cases b <;> cases shape_eq h
  | .bool true, .bool false, _, _, _, _, h | .bool false, .bool true, _, _, _, _, h => by cases shape_eq h
  | .str _, .null, _, _, _, _, h | .str _, .arr _, _, _, _, _, h | .str _, .obj _, _, _, _, _, h => by cases shape_eq h
  | .str _, .bool b, _, _, _, _, h | .arr _, .bool b, _, _, _, _, h | .obj _, .bool b, _, _, _, _, h => by
    cases b <;> cases shape_eq h
  | .arr _, .null, _, _, _, _, h | .arr _, .str _, _, _, _, _, h | .arr _, .obj _, _, _, _, _, h => by cases shape_eq h
  | .obj _, .null, _, _, _, _, h | .obj _, .str _, _, _, _, _, h | .obj _, .arr _, _, _, _, _, h => by cases shape_eq h

theorem moreItems_append_inj : ∀ (xs ys : List J) {s t : Str}, moreItems xs ++ s = moreItems ys ++ t → xs = ys ∧ s = t
  | [], [], s, t, h => ⟨rfl, List.append_cancel_left h⟩
  | x :: xs, y :: ys, s, t, h => by
    simp only [moreItems, List.cons_append, List.append_assoc, List.cons.injEq, true_and] at h
    obtain ⟨hxy, hrest⟩ := text_append_inj x y (delim_moreItems xs s) (delim_moreItems ys t) h
    obtain ⟨hxs, hst⟩ := moreItems_append_inj xs ys hrest
    exact ⟨by rw [hxy, hxs], hst⟩
  | [], _ :: _, _, _, h | _ :: _, [], _, _, h => absurd (List.cons.inj h).1 (by decide)

theorem moreFields_append_inj : ∀ (fs gs : List (Str × J)) {s t : Str},
    moreFields fs ++ s = moreFields gs ++ t → fs = gs ∧ s = t
  | [], [], s, t, h => ⟨rfl, List.append_cancel_left h⟩
  | (k, x) :: fs, (l, y) :: gs, s, t, h => by
    simp only [moreFields, List.cons_append, List.append_assoc, List.cons.injEq, true_and] at h
    obtain ⟨hkl, h⟩ := quote_inj h
    obtain ⟨hxy, hrest⟩ := text_append_inj x y (delim_moreFields fs s) (delim_moreFields gs t) (List.cons.inj h).2
    obtain ⟨hfs, hst⟩ := moreFields_append_inj fs gs hrest
    exact ⟨by rw [hkl, hxy, hfs], hst⟩
  | [], _ :: _, _, _, h | _ :: _, [], _, _, h => absurd (List.cons.inj h).1 (by decide)

end

/-- The text of a value determines the value. -/
theorem text_inj {a b : J} (h : a.text = b.text) : a = b := by
  have hnil : Delim [] := fun c r h => by cases h
  exact (text_append_inj a b hnil hnil (by rw [h])).1

end J
end Json
