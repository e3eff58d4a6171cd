/-
Values in the form a parser builds them in: the keys of an object in order, strings well formed,
integers of 64 bits. Objects that are put together keep the form, and a printed text shows whether
it is that of a string.
-/
import A2ad.Lib.JsonText

namespace Json

open Bytes

namespace J

mutual

/-- The value as a parser builds it. -/
def formed : J → Bool
  | .str s => Utf8.valid s
  | .int n => -2 ^ 63 ≤ n && n < 2 ^ 64
  | .arr xs => formedList xs
  | .obj fs => decide (fs.Pairwise fun f g => f.1 < g.1) && formedFields fs
  | _ => true

def formedList : List J → Bool
  | [] => true
  | x :: xs => x.formed && formedList xs

def formedFields : List (Str × J) → Bool
  | [] => true
  | (k, v) :: fs => Utf8.valid k && v.formed && formedFields fs

end

theorem formedList_iff {xs : List J} : formedList xs = true ↔ ∀ x ∈ xs, x.formed = true := by
  induction xs with
  | nil => simp [formedList]
  | cons x xs ih => simp [formedList, ih]

theorem formedFields_iff {fs : List (Str × J)} :
    formedFields fs = true ↔ ∀ f ∈ fs, Utf8.valid f.1 = true ∧ f.2.formed = true := by
  induction fs with
  | nil => simp [formedFields]
  | cons f fs ih => simp [formedFields, ih]

@[simp] theorem formed_str (s : Str) : (J.str s).formed = Utf8.valid s := rfl

theorem formed_arr {xs : List J} : (J.arr xs).formed = true ↔ ∀ x ∈ xs, x.formed = true := formedList_iff

theorem formed_obj {fs : List (Str × J)} : (J.obj fs).formed = true ↔
    fs.Pairwise (fun f g => f.1 < g.1) ∧ ∀ f ∈ fs, Utf8.valid f.1 = true ∧ f.2.formed = true := by
  rw [← formedFields_iff]
  show (decide _ && formedFields fs) = true ↔ _
  rw [Bool.and_eq_true, decide_eq_true_eq]

mutual

/-- What a parser builds can be printed. -/
theorem utf8_formed : ∀ {j : J}, j.formed = true → j.utf8 = true
  | .null, _ | .bool _, _ | .int _, _ | .flt _, _ => rfl
  | .str _, h => h
  | .arr _, h => utf8List_formed h
  | .obj _, h => utf8Fields_formed (formedFields_iff.2 (formed_obj.1 h).2)

theorem utf8List_formed : ∀ {xs : List J}, formedList xs = true → utf8List xs = true
  | [], _ => rfl
  | x :: xs, h => by
    simp only [formedList, Bool.and_eq_true] at h
    simp only [utf8List, Bool.and_eq_true]
    exact ⟨utf8_formed h.1, utf8List_formed h.2⟩

theorem utf8Fields_formed : ∀ {fs : List (Str × J)}, formedFields fs = true → utf8Fields fs = true
  | [], _ => rfl
  | (k, v) :: fs, h => by
    simp only [formedFields, Bool.and_eq_true] at h
    simp only [utf8Fields, Bool.and_eq_true]
    exact ⟨⟨h.1.1, utf8_formed h.1.2⟩, utf8Fields_formed h.2⟩

end

theorem dump_formed {j : J} (h : j.formed = true) : j.dump = .ok j.text := dump_ok.2 ⟨utf8_formed h, rfl⟩

theorem mem_of_find {k : Str} {v : J} {fs : List (Str × J)} (h : find k fs = some v) : (k, v) ∈ fs := by
  induction fs with
  | nil => cases h
  | cons f fs ih =>
    rw [find_cons] at h
    split at h
    · rename_i hk
      cases h
      rw [← hk]
      exact List.mem_cons_self
    · exact List.mem_cons_of_mem _ (ih h)

theorem formed_get? {j v : J} {k : Str} (hj : j.formed = true) (h : j.get? k = some v) : v.formed = true := by
  cases j with
  | obj fs => exact ((formed_obj.1 hj).2 (k, v) (mem_of_find h)).2
  | _ => cases h

/-! ## Building -/

theorem ordered_insert {k : Str} {v : J} {fs : List (Str × J)} (h : fs.Pairwise fun f g => f.1 < g.1) :
    (insert k v fs).Pairwise fun f g => f.1 < g.1 := by
  induction fs with
  | nil => simp [insert]
  | cons f fs ih =>
    obtain ⟨hfirst, hrest⟩ := List.pairwise_cons.1 h
    unfold insert
    split
    · rename_i hk
      rw [← hk]
      exact List.pairwise_cons.2 ⟨hfirst, hrest⟩
    · rename_i hne
      split
      · rename_i hlt
        refine List.pairwise_cons.2 ⟨fun g hg => ?_, h⟩
        rcases List.mem_cons.1 hg with rfl | hg
        · exact hlt
        · exact List.lt_trans hlt (hfirst g hg)
      · rename_i hnlt
        refine List.pairwise_cons.2 ⟨fun g hg => ?_, ih hrest⟩
        rcases mem_insert hg with rfl | hg
        · exact Std.lt_of_le_of_ne hnlt hne
        · exact hfirst g hg

theorem formed_insert {k : Str} {v : J} {fs : List (Str × J)} (hk : Utf8.valid k = true) (hv : v.formed = true)
    (h : (J.obj fs).formed = true) : (J.obj (insert k v fs)).formed = true := by
  obtain ⟨hordered, hall⟩ := formed_obj.1 h
  refine formed_obj.2 ⟨ordered_insert hordered, fun f hf => ?_⟩
  rcases mem_insert hf with rfl | hf
  · exact ⟨hk, hv⟩
  · exact hall f hf

theorem formed_object {fields : List (Str × J)} (h : ∀ f ∈ fields, Utf8.valid f.1 = true ∧ f.2.formed = true) :
    (object fields).formed = true := by
  unfold object
  induction fields with
  | nil => rfl
  | cons f fields ih =>
    obtain ⟨hk, hv⟩ := h f List.mem_cons_self
    exact formed_insert hk hv (ih fun g hg => h g (List.mem_cons_of_mem _ hg))

theorem formed_set {j v : J} {k : Str} (hk : Utf8.valid k = true) (hv : v.formed = true) (h : j.formed = true) :
    (j.set k v).formed = true := by
  cases j with
  | obj fs => exact formed_insert hk hv h
  | null => exact @formed_insert _ _ [] hk hv rfl
  | _ => exact h

theorem formed_erase {j : J} {k : Str} (h : j.formed = true) : (j.erase k).formed = true := by
  cases j with
  | obj fs =>
    obtain ⟨hordered, hall⟩ := formed_obj.1 h
    exact formed_obj.2 ⟨hordered.filter _, fun f hf => hall f (List.mem_filter.1 hf).1⟩
  | _ => exact h

/-! ## Extensionality -/

theorem find_none_of_above {k : Str} {fs : List (Str × J)} (h : ∀ f ∈ fs, k < f.1) : find k fs = none := by
  induction fs with
  | nil => rfl
  | cons f fs ih =>
    rw [find_cons, if_neg (Std.ne_of_lt (h f List.mem_cons_self)).symm]
    exact ih fun g hg => h g (List.mem_cons_of_mem _ hg)

/-- Ordered fields are known by what is found in them. -/
theorem fields_ext {fs gs : List (Str × J)} (hf : fs.Pairwise fun f g => f.1 < g.1)
    (hg : gs.Pairwise fun f g => f.1 < g.1) (h : ∀ k, find k fs = find k gs) : fs = gs := by
  induction fs generalizing gs with
  | nil =>
    cases gs with
    | nil => rfl
    | cons g gs => simpa using h g.1
  | cons f fs ih =>
    obtain ⟨hfirst, hrest⟩ := List.pairwise_cons.1 hf
    cases gs with
    | nil => simpa using h f.1
    | cons g gs =>
      obtain ⟨hgfirst, hgrest⟩ := List.pairwise_cons.1 hg
      have hkey : f.1 = g.1 := by
        by_contra hne
        by_cases hlt : f.1 < g.1
        · have hnone : find f.1 (g :: gs) = none := find_none_of_above fun x hx => by
            rcases List.mem_cons.1 hx with rfl | hx
            · exact hlt
            · exact List.lt_trans hlt (hgfirst x hx)
          rw [← h f.1, find_cons, if_pos rfl] at hnone
          cases hnone
        · have hgt : g.1 < f.1 := Std.lt_of_le_of_ne hlt (Ne.symm hne)
          have hnone : find g.1 (f :: fs) = none := find_none_of_above fun x hx => by
            rcases List.mem_cons.1 hx with rfl | hx
            · exact hgt
            · exact List.lt_trans hgt (hfirst x hx)
          rw [h g.1, find_cons, if_pos rfl] at hnone
          cases hnone
      have hvalue : f.2 = g.2 := by
        have hfound := h f.1
        rw [find_cons, if_pos rfl, find_cons, if_pos hkey.symm] at hfound
        exact Option.some.inj hfound
      have htail : fs = gs := by
        refine ih hrest hgrest fun k => ?_
        by_cases hk : f.1 = k
        · subst hk
          rw [find_none_of_above hfirst, find_none_of_above (hkey ▸ hgfirst)]
        · have hfound := h k
          rwa [find_cons, if_neg hk, find_cons, if_neg (hkey ▸ hk)] at hfound
      rw [htail, Prod.ext hkey hvalue]

/-- Two objects with the same fields are one. -/
theorem ext_get? {j j' : J} (hj : j.formed = true) (hj' : j'.formed = true) (ho : j.isObject = true)
    (ho' : j'.isObject = true) (h : ∀ k, j.get? k = j'.get? k) : j = j' := by
  cases j with
  | obj fs =>
    cases j' with
    | obj gs => rw [fields_ext (formed_obj.1 hj).1 (formed_obj.1 hj').1 h]
    | _ => cases ho'
  | _ => cases ho

/-! ## Texts -/

/-- Only a string is printed with a quotation mark in front. -/
theorem text_quoted {j : J} : j.text.head? = some 34 ↔ ∃ s, j = .str s := by
  constructor
  · intro h
    obtain ⟨c, r, htext, hshape⟩ := text_head j
    rw [htext] at h
    cases h
    cases j with
    | str s => exact ⟨s, rfl⟩
    | bool b => cases b <;> cases hshape
    | _ => cases hshape
  · rintro ⟨s, rfl⟩
    rfl

theorem escape_ne_nil (c : UInt8) : escape c ≠ [] := by
  unfold escape
  repeat' split
  all_goals simp

/-- A quoted string is longer than the string. -/
theorem quote_ne (s : Str) : quote s ≠ s := by
  have hlength : s.length ≤ (s.flatMap escape).length := by
    induction s with
    | nil => exact Nat.zero_le _
    | cons c s ih =>
      have hc : 0 < (escape c).length := List.length_pos_iff.2 (escape_ne_nil c)
      rw [List.flatMap_cons, List.length_append, List.length_cons]
      omega
  intro h
  have hlen := congrArg List.length h
  rw [quote, List.length_cons, List.length_append, List.length_singleton] at hlen
  omega

/-- The bytes that are no control characters. -/
def Plain (s : Str) : Prop := ∀ c ∈ s, 32 ≤ c

instance (s : Str) : Decidable (Plain s) := List.decidableBAll _ s

theorem Plain.cons {c : UInt8} {s : Str} (hc : 32 ≤ c) (h : Plain s) : Plain (c :: s) := List.forall_mem_cons.2 ⟨hc, h⟩

theorem Plain.append {s t : Str} (hs : Plain s) (ht : Plain t) : Plain (s ++ t) := List.forall_mem_append.2 ⟨hs, ht⟩

theorem Plain.nul {s : Str} (h : Plain s) : (0 : UInt8) ∉ s := fun hmem => absurd (h 0 hmem) (by decide)

theorem plain_escape (c : UInt8) : Plain (escape c) := by
  unfold escape
  repeat' split
  all_goals first | decide | skip
  · have hhex : ∀ i : Fin 16, 32 ≤ hexDigit i := by decide
    rename_i hlt
    have hn : c.toNat < 32 := UInt8.lt_iff_toNat_lt.1 hlt
    have hhigh := hhex ⟨c.toNat / 16, by omega⟩
    have hlow := hhex ⟨c.toNat % 16, by omega⟩
    exact .cons (by decide) (.cons (by decide) (.cons (by decide) (.cons (by decide) (.cons hhigh (.cons hlow (by decide))))))
  · rename_i hle
    exact .cons (UInt8.not_lt.1 hle) (by decide)

theorem plain_quote (s : Str) : Plain (quote s) := by
  refine .cons (by decide) (.append ?_ (by decide))
  intro c hc
  obtain ⟨b, -, hb⟩ := List.mem_flatMap.1 hc
  exact plain_escape b c hb

theorem plain_token {s : Str} (h : s.all isNumChar = true) : Plain s := by
  intro c hc
  have hchar := List.all_eq_true.1 h c hc
  simp only [isNumChar, isDigit, Bool.or_eq_true, Bool.and_eq_true, decide_eq_true_eq, beq_iff_eq] at hchar
  rcases hchar with ((((⟨hdigit, -⟩ | rfl) | rfl) | rfl) | rfl) | rfl
  · exact UInt8.le_trans (by decide) hdigit
  all_goals decide

mutual

/-- Control characters are escaped. -/
theorem plain_text : ∀ j : J, Plain j.text
  | .null | .bool true | .bool false => by decide
  | .int n => plain_token (intText_chars n)
  | .flt x => plain_token x.chars
  | .str s => plain_quote s
  | .arr [] | .obj [] => by decide
  | .arr (x :: xs) => .cons (by decide) (.append (plain_text x) (plain_moreItems xs))
  | .obj ((k, v) :: fs) => .cons (by decide) (.append (plain_quote k) (.cons (by decide)
      (.append (plain_text v) (plain_moreFields fs))))

theorem plain_moreItems : ∀ xs : List J, Plain (moreItems xs)
  | [] => by decide
  | x :: xs => .cons (by decide) (.append (plain_text x) (plain_moreItems xs))

theorem plain_moreFields : ∀ fs : List (Str × J), Plain (moreFields fs)
  | [] => by decide
  | (k, v) :: fs => .cons (by decide) (.append (plain_quote k) (.cons (by decide)
      (.append (plain_text v) (plain_moreFields fs))))

end

end J

/-! ## Reading -/

/-- A parser that reads back what is printed of the values it builds. -/
def ReadsBack (parse : Str → Option J) : Prop := ∀ j : J, j.formed = true → parse j.text = some j

open Classical in
/-- A parser of exactly the printed texts. -/
noncomputable def readPrinted (text : Str) : Option J :=
  if h : ∃ j : J, j.formed = true ∧ j.text = text then some h.choose else none

theorem readsBack_readPrinted : ReadsBack readPrinted := by
  intro j hj
  have h : ∃ i : J, i.formed = true ∧ i.text = j.text := ⟨j, hj, rfl⟩
  rw [readPrinted, dif_pos h, J.text_inj h.choose_spec.2]

end Json
