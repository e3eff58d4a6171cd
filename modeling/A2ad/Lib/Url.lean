/-
Percent encoding and query strings: a text is encoded byte by byte, the encoded bytes are none of
the separators, and a path with a query is read back as it was put together.
-/
import A2ad.Lib.Bytes

namespace Url

open Bytes

/-! ## Percent encoding -/

/-- The value of a hexadecimal digit in either case. -/
def hexValue (c : UInt8) : Option Nat :=
  if isDigit c then some (c.toNat - 48)
  else if 65 ≤ c ∧ c ≤ 70 then some (c.toNat - 55)
  else if 97 ≤ c ∧ c ≤ 102 then some (c.toNat - 87)
  else none

def upperHex (n : Nat) : UInt8 := if n < 10 then UInt8.ofNat (48 + n) else UInt8.ofNat (55 + n)

/-- A byte as it is, or as `%` and two digits. -/
def encodeByte (keep : UInt8 → Bool) (c : UInt8) : Str :=
  if keep c then [c] else [37, upperHex (c.toNat / 16), upperHex (c.toNat % 16)]

def encode (keep : UInt8 → Bool) (s : Str) : Str := s.flatMap (encodeByte keep)

def decode : Str → Option Str
  | [] => some []
  | 37 :: a :: b :: rest =>
    match hexValue a, hexValue b with
    | some h, some l => (decode rest).map (UInt8.ofNat (16 * h + l) :: ·)
    | _, _ => none
  | 37 :: _ => none
  | c :: rest => (decode rest).map (c :: ·)

theorem hexValue_upperHex : ∀ n < 16, hexValue (upperHex n) = some n := by decide

section Encode

variable {keep : UInt8 → Bool}

theorem decode_encodeByte (hkeep : keep 37 = false) (c : UInt8) (t : Str) :
    decode (encodeByte keep c ++ t) = (decode t).map (c :: ·) := by
  unfold encodeByte
  split
  · rename_i hc
    have hne : c ≠ 37 := by
      rintro rfl
      rw [hkeep] at hc
      cases hc
    rw [List.singleton_append, decode]
    · exact fun _ _ _ h => absurd h hne
    · exact hne
  · have hlt : c.toNat < 256 := c.toNat_lt
    show decode (37 :: upperHex (c.toNat / 16) :: upperHex (c.toNat % 16) :: t) = _
    rw [decode, hexValue_upperHex _ (by omega), hexValue_upperHex _ (by omega)]
    dsimp only
    rw [Nat.div_add_mod, UInt8.ofNat_toNat]

theorem decode_encode_append (hkeep : keep 37 = false) (s t : Str) :
    decode (encode keep s ++ t) = (decode t).map (s ++ ·) := by
  induction s with
  | nil => simp [encode]
  | cons c s ih =>
    unfold encode at ih ⊢
    rw [List.flatMap_cons, List.append_assoc, decode_encodeByte hkeep, ih, Option.map_map]
    rfl

/-- An encoded text is read back. -/
theorem decode_encode (hkeep : keep 37 = false) (s : Str) : decode (encode keep s) = some s := by
  have h := decode_encode_append hkeep s []
  simpa [decode] using h

/-- An encoded text holds no byte that is to be encoded but `%`, unless it is a digit of the encoding. -/
theorem notMem_encode {c : UInt8} (hc : keep c = false) (hpercent : c ≠ 37) (hhex : hexValue c = none) (s : Str) :
    c ∉ encode keep s := by
  intro h
  obtain ⟨d, -, hd⟩ := List.mem_flatMap.1 h
  unfold encodeByte at hd
  split at hd
  · rename_i hkept
    rw [List.mem_singleton] at hd
    rw [← hd, hc] at hkept
    cases hkept
  · have hlt : d.toNat < 256 := d.toNat_lt
    have hdigit : ∀ n < 16, c ≠ upperHex n := by
      rintro n hn rfl
      rw [hexValue_upperHex n hn] at hhex
      cases hhex
    simp only [List.mem_cons, List.not_mem_nil, or_false] at hd
    rcases hd with rfl | rfl | rfl
    · exact hpercent rfl
    · exact hdigit _ (by omega) rfl
    · exact hdigit _ (by omega) rfl

end Encode

/-! ## Queries -/

section Query

variable {keep : UInt8 → Bool}

def renderField (keep : UInt8 → Bool) (f : Str × Str) : Str := encode keep f.1 ++ 61 :: encode keep f.2

def readField (s : Str) : Option (Str × Str) :=
  match splitAt? [61] s with
  | none => none
  | some (k, v) => (decode k).bind fun k => (decode v).map fun v => (k, v)

/-- A path with the fields of a query after it. -/
def withQuery (keep : UInt8 → Bool) (path : Str) (fields : List (Str × Str)) : Str :=
  if fields.isEmpty then path else path ++ 63 :: [38].intercalate (fields.map (renderField keep))

/-- One more field: the separator depends on what is there. -/
def addField (keep : UInt8 → Bool) (path : Str) (f : Str × Str) : Str :=
  path ++ (if path.contains 63 then [38] else [63]) ++ renderField keep f

/-- The path before the query, and the fields of the query. -/
def readTarget (target : Str) : Option (Str × List (Str × Str)) :=
  match splitAt? [63] target with
  | none => some (target, [])
  | some (path, query) => ((query.splitOn 38).mapM readField).map fun fields => (path, fields)

/-- What must be encoded for a query to be read back. -/
def Separates (keep : UInt8 → Bool) : Prop := ∀ c ∈ [37, 38, 61, 63, 47, 58], keep c = false

theorem Separates.notMem (h : Separates keep) {c : UInt8} (hc : c ∈ [38, 61, 63, 47, 58]) (s : Str) : c ∉ encode keep s := by
  have hhex : c ≠ 37 ∧ hexValue c = none := by
    revert c
    decide +kernel
  exact notMem_encode (h c (List.mem_cons_of_mem _ hc)) hhex.1 hhex.2 s

theorem readField_renderField (h : Separates keep) (f : Str × Str) : readField (renderField keep f) = some f := by
  unfold readField renderField
  rw [splitAt?_of_notMem (h.notMem (by decide) f.1)]
  dsimp only
  rw [decode_encode (h 37 (by decide)), decode_encode (h 37 (by decide))]
  rfl

theorem amp_notMem_renderField (h : Separates keep) (f : Str × Str) : 38 ∉ renderField keep f := by
  unfold renderField
  rw [List.mem_append, List.mem_cons]
  rintro (hm | hm | hm)
  · exact h.notMem (by decide) f.1 hm
  · exact absurd hm (by decide)
  · exact h.notMem (by decide) f.2 hm

theorem mapM_readField (h : Separates keep) (fields : List (Str × Str)) :
    (fields.map (renderField keep)).mapM readField = some fields := by
  induction fields with
  | nil => rfl
  | cons f fields ih =>
    rw [List.map_cons, List.mapM_cons, readField_renderField h, ih]
    rfl

/-- A path without `?` and the fields added to it are read back. -/
theorem readTarget_withQuery (h : Separates keep) {path : Str} (hpath : 63 ∉ path) (fields : List (Str × Str)) :
    readTarget (withQuery keep path fields) = some (path, fields) := by
  unfold readTarget withQuery
  cases fields with
  | nil =>
    rw [List.isEmpty_nil, if_pos rfl, splitAt?_eq_none hpath]
  | cons f fields =>
    rw [List.isEmpty_cons, if_neg (by decide), splitAt?_of_notMem hpath]
    dsimp only
    rw [List.splitOn_intercalate 38 ?_ (by simp), mapM_readField h]
    · rfl
    · intro l hl
      obtain ⟨g, -, rfl⟩ := List.mem_map.1 hl
      exact amp_notMem_renderField h g

theorem foldl_addField_more {path : Str} (hpath : 63 ∈ path) (fields : List (Str × Str)) :
    fields.foldl (addField keep) path = path ++ fields.flatMap fun f => 38 :: renderField keep f := by
  induction fields generalizing path with
  | nil => simp
  | cons f fields ih =>
    have hadd : addField keep path f = path ++ 38 :: renderField keep f := by
      unfold addField
      rw [if_pos (by simpa using hpath), List.append_assoc]
      rfl
    rw [List.foldl_cons, hadd, ih (List.mem_append_left _ hpath), List.flatMap_cons, List.append_assoc]

theorem intercalate_render (f : Str × Str) (fields : List (Str × Str)) :
    [38].intercalate ((f :: fields).map (renderField keep)) =
      renderField keep f ++ fields.flatMap fun f => 38 :: renderField keep f := by
  induction fields generalizing f with
  | nil => simp
  | cons g fields ih =>
    rw [List.map_cons, List.map_cons, List.intercalate_cons_cons, ← List.map_cons, ih, List.flatMap_cons, List.append_assoc]
    rfl

/-- Fields added one after the other make a query. -/
theorem foldl_addField {path : Str} (hpath : 63 ∉ path) (fields : List (Str × Str)) :
    fields.foldl (addField keep) path = withQuery keep path fields := by
  cases fields with
  | nil => rfl
  | cons f fields =>
    have hadd : addField keep path f = path ++ 63 :: renderField keep f := by
      unfold addField
      rw [if_neg (by simpa using hpath), List.append_assoc]
      rfl
    unfold withQuery
    rw [List.foldl_cons, hadd, foldl_addField_more (by simp), List.isEmpty_cons, if_neg (by decide), intercalate_render,
      List.append_assoc, List.cons_append]

end Query

end Url
