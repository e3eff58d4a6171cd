/-
JSON values and their checked accessors. Objects are association lists kept in key order by
`set`; reading a field at the wrong type, or of a value that is no object, throws the exception
the JSON library throws, with its message.
-/
import A2ad.Lib.Utf8

namespace Json

open Bytes

/-- A thrown exception, known by its message. -/
structure Exception where
  what : Str
deriving DecidableEq, Repr

/-! ## Values -/

def isNumChar (c : UInt8) : Bool := isDigit c || c == 43 || c == 45 || c == 46 || c == 69 || c == 101

/-- The characters that tell a floating-point text from an integer: `.` and `e`. -/
def isMark (c : UInt8) : Bool := c == 46 || c == 101

/-- Digits on both sides of a point, none too many: up to 15 before it, up to three zeros after a single one, and 17
that count. -/
def isFixed (s : Str) : Bool :=
  let whole := s.takeWhile (· ≠ 46)
  let frac := (s.dropWhile (· ≠ 46)).drop 1
  s.contains 46 && !whole.isEmpty && !frac.isEmpty && whole.all isDigit && frac.all isDigit &&
    (whole == [48] || whole.head? != some 48) && (frac == [48] || frac.getLast? != some 48) && whole.length ≤ 15 &&
    (whole != [48] || frac == [48] || (frac.takeWhile (· = 48)).length ≤ 3) &&
    ((whole ++ frac).dropWhile (· = 48)).length ≤ 17

/-- One digit but zero, perhaps more after a point, and an exponent for which there is no other form. -/
def isScientific (s : Str) : Bool :=
  let mant := s.takeWhile (· ≠ 101)
  let frac := mant.drop 2
  let exp := (s.dropWhile (· ≠ 101)).drop 1
  let digits := exp.drop 1
  let e := textNat digits
  (mant.head?.any fun c => isDigit c && c != 48) &&
    (mant.length = 1 || (mant.drop 1).head? == some 46 && !frac.isEmpty && frac.all isDigit && frac.getLast? != some 48 && frac.length ≤ 16) &&
    digits.all isDigit && (digits.length = 2 || digits.length = 3 && digits.head? != some 48) &&
    (exp.head? == some 43 && 15 ≤ e && e ≤ 308 || exp.head? == some 45 && 5 ≤ e && e ≤ 324)

/-- A text in the form a double is printed in. -/
def isDouble (s : Str) : Bool :=
  let size := if s.head? = some 45 then s.drop 1 else s
  isFixed size || isScientific size

/-- A finite double, by the decimal text that it is printed as. -/
structure Flt where
  text : Str
  chars : text.all isNumChar = true
  marked : text.any isMark = true
  start : (text.head?.any fun c => isDigit c || c == 45) = true
  form : isDouble text = true
deriving DecidableEq, Repr

namespace Flt

def negative (x : Flt) : Bool := x.text.head? == some 45

/-- The digits of the text as one number, and the power of ten it is scaled by. -/
def scaled (x : Flt) : Nat × Int :=
  let mant := x.text.takeWhile (· ≠ 101)
  let whole := (mant.takeWhile (· ≠ 46)).filter isDigit
  let frac := (mant.dropWhile (· ≠ 46)).filter isDigit
  let exp := x.text.dropWhile (· ≠ 101)
  let e : Int := textNat (exp.filter isDigit)
  (textNat (whole ++ frac), (if exp.contains 45 then -e else e) - frac.length)

/-- Truncation toward zero. -/
def trunc (x : Flt) : Int :=
  let (d, e) := x.scaled
  let size : Nat := if 0 ≤ e then d * 10 ^ e.toNat else d / 10 ^ (-e).toNat
  if x.negative then -(size : Int) else size

/-- The double and the integer are the same number. -/
def isInt (x : Flt) (n : Int) : Bool :=
  let (d, e) := x.scaled
  x.trunc == n && (0 ≤ e || d % 10 ^ (-e).toNat == 0)

end Flt

/-- A JSON value. -/
inductive J where
  | null
  | bool (b : Bool)
  | int (n : Int)
  | flt (x : Flt)
  | str (s : Str)
  | arr (xs : List J)
  | obj (fields : List (Str × J))
deriving Repr

instance : Inhabited J := ⟨.null⟩

mutual

def J.decEq : (a b : J) → Decidable (a = b)
  | .null, .null => isTrue rfl
  | .bool a, .bool b => decidable_of_iff (a = b) (by simp)
  | .int a, .int b => decidable_of_iff (a = b) (by simp)
  | .flt a, .flt b => decidable_of_iff (a = b) (by simp)
  | .str a, .str b => decidable_of_iff (a = b) (by simp)
  | .arr a, .arr b =>
    match J.decEqList a b with
    | isTrue h => isTrue (by rw [h])
    | isFalse h => isFalse (by simpa using h)
  | .obj a, .obj b =>
    match J.decEqFields a b with
    | isTrue h => isTrue (by rw [h])
    | isFalse h => isFalse (by simpa using h)
  | .null, .bool _ | .null, .int _ | .null, .flt _ | .null, .str _ | .null, .arr _ | .null, .obj _
  | .bool _, .null | .bool _, .int _ | .bool _, .flt _ | .bool _, .str _ | .bool _, .arr _ | .bool _, .obj _
  | .int _, .null | .int _, .bool _ | .int _, .flt _ | .int _, .str _ | .int _, .arr _ | .int _, .obj _
  | .flt _, .null | .flt _, .bool _ | .flt _, .int _ | .flt _, .str _ | .flt _, .arr _ | .flt _, .obj _
  | .str _, .null | .str _, .bool _ | .str _, .int _ | .str _, .flt _ | .str _, .arr _ | .str _, .obj _
  | .arr _, .null | .arr _, .bool _ | .arr _, .int _ | .arr _, .flt _ | .arr _, .str _ | .arr _, .obj _
  | .obj _, .null | .obj _, .bool _ | .obj _, .int _ | .obj _, .flt _ | .obj _, .str _ | .obj _, .arr _ =>
    isFalse (by simp)

def J.decEqList : (a b : List J) → Decidable (a = b)
  | [], [] => isTrue rfl
  | x :: xs, y :: ys =>
    match J.decEq x y, J.decEqList xs ys with
    | isTrue h, isTrue h' => isTrue (by rw [h, h'])
    | isFalse h, _ => isFalse (by simp [h])
    | _, isFalse h => isFalse (by simp [h])
  | [], _ :: _ | _ :: _, [] => isFalse (by simp)

def J.decEqFields : (a b : List (Str × J)) → Decidable (a = b)
  | [], [] => isTrue rfl
  | (k, x) :: xs, (l, y) :: ys =>
    match instDecidableEqList k l, J.decEq x y, J.decEqFields xs ys with
    | isTrue h, isTrue h', isTrue h'' => isTrue (by rw [h, h', h''])
    | isFalse h, _, _ => isFalse (by simp [h])
    | _, isFalse h, _ => isFalse (by simp [h])
    | _, _, isFalse h => isFalse (by simp [h])
  | [], _ :: _ | _ :: _, [] => isFalse (by simp)

end

instance : DecidableEq J := J.decEq

namespace J

/-- The library's name of a value's type, as its messages spell it. -/
def typeName : J → Str
  | .null => "null"
  | .bool _ => "boolean"
  | .int _ | .flt _ => "number"
  | .str _ => "string"
  | .arr _ => "array"
  | .obj _ => "object"

def isNull : J → Bool
  | .null => true
  | _ => false

def isObject : J → Bool
  | .obj _ => true
  | _ => false

def isArray : J → Bool
  | .arr _ => true
  | _ => false

def isString : J → Bool
  | .str _ => true
  | _ => false

def isBoolean : J → Bool
  | .bool _ => true
  | _ => false

def isNumberInteger : J → Bool
  | .int _ => true
  | _ => false

/-! ## Fields -/

def find (k : Str) : List (Str × J) → Option J
  | [] => none
  | f :: rest => if f.1 = k then some f.2 else find k rest

def insert (k : Str) (v : J) : List (Str × J) → List (Str × J)
  | [] => [(k, v)]
  | f :: rest =>
    if f.1 = k then (k, v) :: rest
    else if k < f.1 then (k, v) :: f :: rest
    else f :: insert k v rest

/-- The field `k` of an object; other values have no fields. -/
def get? : J → Str → Option J
  | .obj fields, k => find k fields
  | _, _ => none

def contains (j : J) (k : Str) : Bool := (j.get? k).isSome

/-- An object with the given fields; of two fields of one name the first counts. -/
def object (fields : List (Str × J)) : J := .obj (fields.foldr (fun f acc => insert f.1 f.2 acc) [])

/-- `j[k] = v` on an object, or on `null`, which becomes one. -/
def set (j : J) (k : Str) (v : J) : J :=
  match j with
  | .obj fields => .obj (insert k v fields)
  | .null => .obj [(k, v)]
  | j => j

def erase (j : J) (k : Str) : J :=
  match j with
  | .obj fields => .obj (fields.filter fun f => f.1 ≠ k)
  | j => j

/-- What a range-based loop over a value visits. -/
def elems : J → List J
  | .arr xs => xs
  | .obj fields => fields.map (·.2)
  | .null => []
  | j => [j]

@[simp] theorem find_nil (k : Str) : find k [] = none := rfl

@[simp] theorem find_cons (k : Str) (f : Str × J) (rest : List (Str × J)) :
    find k (f :: rest) = if f.1 = k then some f.2 else find k rest := rfl

theorem find_insert (k k' : Str) (v : J) (fields : List (Str × J)) :
    find k' (insert k v fields) = if k = k' then some v else find k' fields := by
  induction fields with
  | nil => rfl
  | cons f rest ih =>
    simp only [insert]
    split
    · rename_i h
      subst h
      simp only [find_cons]
      split <;> rfl
    · split
      · simp only [find_cons]
      · rename_i hne _
        simp only [find_cons, ih]
        split
        · rename_i hf
          rw [if_neg (fun h => hne (hf.trans h.symm))]
        · rfl

theorem find_filter_ne (k k' : Str) (fields : List (Str × J)) :
    find k' (fields.filter fun f => f.1 ≠ k) = if k' = k then none else find k' fields := by
  induction fields with
  | nil => simp
  | cons f rest ih =>
    by_cases hf : f.1 = k
    · simp only [List.filter_cons, hf, ne_eq, not_true, decide_false, Bool.false_eq_true, if_false, find_cons] at ih ⊢
      rw [ih]
      split
      · rfl
      · rename_i h
        rw [if_neg (fun e => h e.symm)]
    · simp only [List.filter_cons, hf, ne_eq, not_false_eq_true, decide_true, if_true, find_cons] at ih ⊢
      rw [ih]
      split
      · rename_i h
        rw [if_neg (fun e => hf (h.trans e))]
      · rfl

@[simp] theorem get?_obj (fields : List (Str × J)) (k : Str) : (J.obj fields).get? k = find k fields := rfl

@[simp] theorem get?_null (k : Str) : J.null.get? k = none := rfl

@[simp] theorem get?_object (fields : List (Str × J)) (k : Str) : (object fields).get? k = find k fields := by
  unfold object
  induction fields with
  | nil => rfl
  | cons f rest ih =>
    simp only [List.foldr_cons, get?_obj, find_insert, find_cons]
    rw [get?_obj] at ih
    rw [ih]

@[simp] theorem isObject_object (fields : List (Str × J)) : (object fields).isObject = true := rfl

@[simp] theorem isNull_object (fields : List (Str × J)) : (object fields).isNull = false := rfl

theorem isNull_iff {j : J} : j.isNull = true ↔ j = .null := by
  cases j <;> simp [isNull]

theorem ne_null_of_get? {j v : J} {k : Str} (h : j.get? k = some v) : j ≠ .null := by
  rintro rfl
  cases h

theorem isObject_of_get? {j v : J} {k : Str} (h : j.get? k = some v) : j.isObject = true := by
  cases j <;> first | rfl | cases h

theorem get?_set {j : J} (hj : j.isObject = true) (k k' : Str) (v : J) :
    (j.set k v).get? k' = if k = k' then some v else j.get? k' := by
  cases j <;> simp only [isObject, Bool.false_eq_true] at hj
  exact find_insert ..

@[simp] theorem isObject_set {j : J} {k : Str} {v : J} (hj : j.isObject = true) : (j.set k v).isObject = true := by
  cases j <;> first | exact hj | rfl

theorem get?_erase (j : J) (k k' : Str) : (j.erase k).get? k' = if k' = k then none else j.get? k' := by
  cases j with
  | obj fields => exact find_filter_ne ..
  | _ => simp [erase, get?]

@[simp] theorem isObject_erase (j : J) (k : Str) : (j.erase k).isObject = j.isObject := by
  cases j <;> rfl

/-! ## Exceptions of the accessors -/

def typeError302 (expected : Str) (j : J) : Exception :=
  ⟨lit "[json.exception.type_error.302] type must be " ++ expected ++ ", but is " ++ j.typeName⟩

def typeError304 (j : J) : Exception := ⟨lit "[json.exception.type_error.304] cannot use at() with " ++ j.typeName⟩

def typeError305 (j : J) : Exception :=
  ⟨lit "[json.exception.type_error.305] cannot use operator[] with a string argument with " ++ j.typeName⟩

def typeError306 (j : J) : Exception := ⟨lit "[json.exception.type_error.306] cannot use value() with " ++ j.typeName⟩

def typeError308 (j : J) : Exception :=
  ⟨lit "[json.exception.type_error.308] cannot use push_back() with " ++ j.typeName⟩

def outOfRange403 (k : Str) : Exception :=
  ⟨lit "[json.exception.out_of_range.403] key '" ++ k ++ "' not found"⟩

/-! ## Typed reads -/

def asStr : J → Except Exception Str
  | .str s => .ok s
  | j => .error (typeError302 "string" j)

def asBool : J → Except Exception Bool
  | .bool b => .ok b
  | j => .error (typeError302 "boolean" j)

/-- A number converted to a signed type of `w` bits; one out of range becomes the least value. -/
def clip (w : Nat) (n : Int) : Int := if -2 ^ (w - 1) ≤ n ∧ n < 2 ^ (w - 1) then n else -2 ^ (w - 1)

/-- `get<int64_t>()`. -/
def asInt64 : J → Except Exception Int
  | .int n => .ok (n.bmod (2 ^ 64))
  | .flt x => .ok (clip 64 x.trunc)
  | j => .error (typeError302 "number" j)

/-- `get<int>()`, which also takes booleans and keeps the low 32 bits. -/
def asInt : J → Except Exception Int
  | .int n => .ok (n.bmod (2 ^ 32))
  | .flt x => .ok (clip 32 x.trunc)
  | .bool b => .ok (if b then 1 else 0)
  | j => .error (typeError302 "number" j)

/-- `j.value(k, default)` at a type read by `read`. -/
def value {α : Type} (read : J → Except Exception α) (j : J) (k : Str) (default : α) : Except Exception α :=
  if j.isObject then
    match j.get? k with
    | some v => read v
    | none => .ok default
  else .error (typeError306 j)

def valueStr : J → Str → Str → Except Exception Str := value asStr

def valueBool : J → Str → Bool → Except Exception Bool := value asBool

def valueInt : J → Str → Int → Except Exception Int := value asInt

def valueInt64 : J → Str → Int → Except Exception Int := value asInt64

def valueJson : J → Str → J → Except Exception J := value .ok

/-- `j.at(k)`. -/
def field (j : J) (k : Str) : Except Exception J :=
  if j.isObject then
    match j.get? k with
    | some v => .ok v
    | none => .error (outOfRange403 k)
  else .error (typeError304 j)

/-- `j[k] = v` as an assignment, which throws on a value that is neither an object nor `null`. -/
def assign (j : J) (k : Str) (v : J) : Except Exception J :=
  if j.isObject || j.isNull then .ok (j.set k v) else .error (typeError305 j)

/-- The value of `j[k]`, `null` where the field is missing. -/
def index (j : J) (k : Str) : Except Exception J :=
  if j.isObject || j.isNull then .ok ((j.get? k).getD .null) else .error (typeError305 j)

/-- `j.push_back(v)`. -/
def pushBack (j v : J) : Except Exception J :=
  match j with
  | .arr xs => .ok (.arr (xs ++ [v]))
  | .null => .ok (.arr [v])
  | j => .error (typeError308 j)

/-- `a == b`: numbers compare by value, other values by structure. -/
def same : J → J → Bool
  | .int n, .flt x => x.isInt n
  | .flt x, .int n => x.isInt n
  | a, b => decide (a = b)

/-! ## Successful reads -/

theorem asStr_ok {j : J} {s : Str} : j.asStr = .ok s ↔ j = .str s := by
  cases j <;> simp [asStr]

theorem asBool_ok {j : J} {b : Bool} : j.asBool = .ok b ↔ j = .bool b := by
  cases j <;> simp [asBool]

theorem value_ok {α : Type} {read : J → Except Exception α} {j : J} {k : Str} {d a : α} :
    j.value read k d = .ok a ↔
      j.isObject = true ∧ ((∃ v, j.get? k = some v ∧ read v = .ok a) ∨ j.get? k = none ∧ d = a) := by
  unfold value
  split
  · rename_i h
    cases hv : j.get? k <;> simp [h]
  · rename_i h
    simp [h]

theorem valueStr_congr {j j' : J} {k d : Str} (hj : j.isObject = true) (hj' : j'.isObject = true)
    (hk : j.get? k = j'.get? k) : j.valueStr k d = j'.valueStr k d := by
  show value asStr j k d = value asStr j' k d
  rw [value, value, if_pos hj, if_pos hj', hk]

theorem valueStr_ok {j : J} {k d s : Str} :
    j.valueStr k d = .ok s ↔ j.isObject = true ∧ (j.get? k = some (.str s) ∨ j.get? k = none ∧ d = s) := by
  simp only [valueStr, value_ok, asStr_ok, exists_eq_right]

theorem asInt64_int {n : Int} (h : -2 ^ 63 ≤ n) (h' : n < 2 ^ 63) : (J.int n).asInt64 = .ok n := by
  rw [asInt64, Int.bmod_eq_of_le_mul_two (by omega) (by omega)]

theorem asInt64_range {j : J} {n : Int} (h : j.asInt64 = .ok n) : -2 ^ 63 ≤ n ∧ n < 2 ^ 63 := by
  cases j with
  | int m =>
    cases h
    have h₁ := Int.le_bmod (x := m) (m := 2 ^ 64) (by omega)
    have h₂ := Int.bmod_lt (x := m) (m := 2 ^ 64) (by omega)
    omega
  | flt x =>
    cases h
    unfold clip
    split <;> omega
  | _ => cases h

theorem valueInt64_range {j : J} {k : Str} {n : Int} (h : j.valueInt64 k 0 = .ok n) : -2 ^ 63 ≤ n ∧ n < 2 ^ 63 := by
  rcases (value_ok.1 h).2 with ⟨v, -, hv⟩ | ⟨-, rfl⟩
  · exact asInt64_range hv
  · omega

theorem field_ok {j v : J} {k : Str} : j.field k = .ok v ↔ j.get? k = some v := by
  unfold field
  split
  · cases hv : j.get? k <;> simp
  · rename_i h
    cases j <;> simp_all [isObject, get?]

theorem assign_ok {j j' v : J} {k : Str} :
    j.assign k v = .ok j' ↔ (j.isObject = true ∨ j.isNull = true) ∧ j.set k v = j' := by
  unfold assign
  split <;> simp_all

theorem index_ok {j v : J} {k : Str} :
    j.index k = .ok v ↔ (j.isObject = true ∨ j.isNull = true) ∧ (j.get? k).getD .null = v := by
  unfold index
  split <;> simp_all

theorem pushBack_ok {j v w : J} (h : j.pushBack v = .ok w) :
    (∃ xs, j = .arr xs ∧ w = .arr (xs ++ [v])) ∨ j = .null ∧ w = .arr [v] := by
  cases j <;> simp_all [pushBack]

theorem same_str {j : J} {s : Str} : j.same (.str s) = true ↔ j = .str s := by
  cases j <;> simp [same]

/-- Assigning makes an object, whatever it started from. -/
theorem get?_assign {j j' v : J} {k : Str} (h : j.assign k v = .ok j') (k' : Str) :
    j'.isObject = true ∧ j'.get? k' = if k = k' then some v else j.get? k' := by
  obtain ⟨hj, rfl⟩ := assign_ok.1 h
  rcases hj with hj | hj
  · exact ⟨isObject_set hj, get?_set hj ..⟩
  · rw [isNull_iff.1 hj]
    exact ⟨rfl, rfl⟩

end J

example : Flt.trunc ⟨"-1.25e+15", by decide, by decide, by decide, by decide⟩ = -1250000000000000 := by decide

example : ["0.0", "-12.5", "1e+16", "5e-324"].all (fun s => isDouble (lit s)) &&
    ["1.2.3", "1e5", "1e+05", "00.5", "1.50", "7"].all (fun s => !isDouble (lit s)) := by decide

end Json
