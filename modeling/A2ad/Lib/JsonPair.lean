/-
Pairs of JSON values: one value with the texts under a key mapped, objects that agree in all
fields but one, and values that are the same but for related texts under given keys, however deep
they stand.
-/
import A2ad.Lib.Agree
import A2ad.Lib.JsonText

namespace Json

open Bytes

namespace J

/-! ## Mapping a field -/

/-- The object with its field `k` mapped by `f`; other values stay. -/
def onField (k : Str) (f : J → J) : J → J
  | .obj fields => .obj (fields.map fun p => if p.1 = k then (p.1, f p.2) else p)
  | j => j

section OnField

variable {k k' : Str} {f : J → J} {j v : J}

@[simp] theorem isObject_onField : (onField k f j).isObject = j.isObject := by
  cases j <;> rfl

theorem find_map (fields : List (Str × J)) : find k' (fields.map fun p => if p.1 = k then (p.1, f p.2) else p) =
    if k' = k then (find k' fields).map f else find k' fields := by
  induction fields with
  | nil => simp
  | cons p rest ih =>
    simp only [List.map_cons, find_cons, ih]
    by_cases hp : p.1 = k
    · simp only [if_pos hp]
      by_cases hk : p.1 = k'
      · rw [if_pos hk, if_pos (hk.symm.trans hp), if_pos hk]
        rfl
      · rw [if_neg hk, if_neg hk]
    · simp only [if_neg hp]
      by_cases hk : p.1 = k'
      · rw [if_pos hk, if_neg (hk ▸ hp), if_pos hk]
      · rw [if_neg hk, if_neg hk]

theorem get?_onField : (onField k f j).get? k' = if k' = k then (j.get? k').map f else j.get? k' := by
  cases j with
  | obj fields => exact find_map fields
  | _ => simp [onField, get?]

theorem get?_onField_ne (h : k' ≠ k) : (onField k f j).get? k' = j.get? k' := by
  rw [get?_onField, if_neg h]

theorem erase_onField : (onField k f j).erase k' = onField k f (j.erase k') := by
  cases j with
  | obj fields =>
    simp only [onField, erase, List.filter_map]
    congr 3
    funext p
    simp only [Function.comp_apply]
    split <;> rfl
  | _ => rfl

theorem erase_set (hj : j.isObject = true) : (j.set k v).erase k = j.erase k := by
  cases j with
  | obj fields =>
    show obj ((insert k v fields).filter _) = obj (fields.filter _)
    congr 1
    induction fields with
    | nil => simp [insert]
    | cons p rest ih =>
      simp only [insert]
      split
      · rename_i hp
        simp [hp]
      · split
        · simp
        · rw [List.filter_cons, List.filter_cons, ih rfl]
  | _ => cases hj

theorem insert_map (h : k' ≠ k) (fields : List (Str × J)) :
    insert k' v (fields.map fun p => if p.1 = k then (p.1, f p.2) else p) =
      (insert k' v fields).map fun p => if p.1 = k then (p.1, f p.2) else p := by
  have hkey : ∀ p : Str × J, (if p.1 = k then (p.1, f p.2) else p).1 = p.1 := by
    intro p
    split <;> rfl
  induction fields with
  | nil => simp [insert, h]
  | cons p rest ih =>
    simp only [List.map_cons, insert, hkey]
    split
    · simp [h]
    · split
      · simp [h]
      · rw [ih, List.map_cons]

theorem set_onField (h : k' ≠ k) : (onField k f j).set k' v = onField k f (j.set k' v) := by
  cases j with
  | obj fields => exact congrArg obj (insert_map h fields)
  | null => simp [onField, set, h]
  | _ => rfl

theorem onField_injective (hf : Function.Injective f) : Function.Injective (onField k f) := by
  have hpair : Function.Injective fun p : Str × J => if p.1 = k then (p.1, f p.2) else p := by
    rintro ⟨a, u⟩ ⟨b, w⟩ h
    dsimp only at h
    split at h <;> split at h
    · obtain ⟨rfl, hv⟩ := Prod.mk.inj h
      rw [hf hv]
    · rename_i ha hb
      exact absurd ((Prod.mk.inj h).1 ▸ ha) hb
    · rename_i ha hb
      exact absurd ((Prod.mk.inj h).1 ▸ hb) ha
    · exact h
  intro a b h
  cases a with
  | obj fs =>
    cases b with
    | obj gs => rw [List.map_injective_iff.2 hpair (J.obj.inj h)]
    | _ => cases h
  | _ =>
    cases b with
    | obj gs => cases h
    | _ => exact h

theorem utf8_onField (hf : ∀ v, (f v).utf8 = v.utf8) : (onField k f j).utf8 = j.utf8 := by
  cases j with
  | obj fields =>
    show utf8Fields (fields.map _) = utf8Fields fields
    induction fields with
    | nil => rfl
    | cons p rest ih =>
      rw [List.map_cons, utf8Fields, utf8Fields, ih]
      split
      · rw [hf]
      · rfl
  | _ => rfl

end OnField

/-! ## Fields in step -/

section InStep

variable {Q : Str × J → Str × J → Prop} {fs gs : List (Str × J)} {k : Str} {v w : J}

theorem forall₂_find (hQ : ∀ f g, Q f g → f.1 = g.1) (h : List.Forall₂ Q fs gs) (k : Str) :
    find k fs = none ∧ find k gs = none ∨ ∃ v w, find k fs = some v ∧ find k gs = some w ∧ Q (k, v) (k, w) := by
  induction h with
  | nil => exact .inl ⟨rfl, rfl⟩
  | @cons f g fs gs hfg _ ih =>
    simp only [find_cons, ← hQ f g hfg]
    by_cases hk : f.1 = k
    · simp only [if_pos hk]
      refine .inr ⟨_, _, rfl, rfl, ?_⟩
      subst hk
      have hg : (f.1, g.2) = g := Prod.ext (hQ f g hfg) rfl
      rw [hg]
      exact hfg
    · simp only [if_neg hk]
      exact ih

/-- Both sides take a new field at the same place. -/
theorem forall₂_insert (hQ : ∀ f g, Q f g → f.1 = g.1) (hv : Q (k, v) (k, w)) (h : List.Forall₂ Q fs gs) :
    List.Forall₂ Q (insert k v fs) (insert k w gs) := by
  induction h with
  | nil => exact .cons hv .nil
  | @cons f g fs gs hfg hrest ih =>
    simp only [insert, ← hQ f g hfg]
    split
    · exact .cons hv hrest
    · split
      · exact .cons hv (.cons hfg hrest)
      · exact .cons hfg ih

theorem forall₂_object (hQ : ∀ f g, Q f g → f.1 = g.1) (h : List.Forall₂ Q fs gs) :
    List.Forall₂ Q (fs.foldr (fun f acc => insert f.1 f.2 acc) []) (gs.foldr (fun f acc => insert f.1 f.2 acc) []) := by
  induction h with
  | nil => exact .nil
  | @cons f g fs gs hfg _ ih =>
    have hg : (f.1, g.2) = g := Prod.ext (hQ f g hfg) rfl
    rw [List.foldr_cons, List.foldr_cons, ← hQ f g hfg]
    exact forall₂_insert hQ (by rw [hg]; exact hfg) ih

end InStep

/-! ## Objects that differ in one field -/

/-- Two fields of one name: the texts under `key` are related by `R`, all other values are equal. -/
inductive FieldTwin (key : Str) (R : Str → Str → Prop) : Str × J → Str × J → Prop
  | same {k : Str} {v : J} : k ≠ key → FieldTwin key R (k, v) (k, v)
  | text {s s' : Str} : R s s' → FieldTwin key R (key, .str s) (key, .str s')

/-- Two objects with the same fields but for related texts under `key`, or nothing at all. -/
inductive Twin (key : Str) (R : Str → Str → Prop) : J → J → Prop
  | null : Twin key R .null .null
  | obj {fs gs : List (Str × J)} : List.Forall₂ (FieldTwin key R) fs gs → Twin key R (.obj fs) (.obj gs)

section Twin

variable {key : Str} {R : Str → Str → Prop} {k : Str} {a b v : J}

theorem FieldTwin.key_eq (f g : Str × J) (h : FieldTwin key R f g) : f.1 = g.1 := by
  cases h <;> rfl

theorem Twin.isNull (h : Twin key R a b) : b.isNull = a.isNull := by
  cases h <;> rfl

theorem Twin.isObject (h : Twin key R a b) : b.isObject = a.isObject := by
  cases h <;> rfl

theorem Twin.typeName (h : Twin key R a b) : b.typeName = a.typeName := by
  cases h <;> rfl

theorem Twin.get? (h : Twin key R a b) (hk : k ≠ key) : b.get? k = a.get? k := by
  cases h with
  | null => rfl
  | obj h =>
    rcases forall₂_find FieldTwin.key_eq h k with ⟨hf, hg⟩ | ⟨v, w, hf, hg, hfg⟩
    · rw [get?_obj, get?_obj, hf, hg]
    · rw [get?_obj, get?_obj, hf, hg]
      cases hfg with
      | same => rfl
      | text => exact absurd rfl hk

/-- The texts under the key. -/
theorem Twin.text (h : Twin key R a b) : a.get? key = none ∧ b.get? key = none ∨
    ∃ s s', a.get? key = some (.str s) ∧ b.get? key = some (.str s') ∧ R s s' := by
  cases h with
  | null => exact .inl ⟨rfl, rfl⟩
  | obj h =>
    rcases forall₂_find FieldTwin.key_eq h key with hnone | ⟨v, w, hf, hg, hfg⟩
    · exact .inl hnone
    · cases hfg with
      | same hne => exact absurd rfl hne
      | text hs => exact .inr ⟨_, _, hf, hg, hs⟩

theorem Twin.contains (h : Twin key R a b) (hk : k ≠ key) : b.contains k = a.contains k := by
  rw [J.contains, J.contains, h.get? hk]

theorem Twin.value {α : Type} {read : J → Except Exception α} {d : α} (h : Twin key R a b) (hk : k ≠ key) :
    b.value read k d = a.value read k d := by
  rw [J.value, J.value, h.isObject, h.get? hk, typeError306, typeError306, h.typeName]

theorem Twin.valueStr {d : Str} (h : Twin key R a b) (hk : k ≠ key) : b.valueStr k d = a.valueStr k d := h.value hk

theorem Twin.valueInt64 {d : Int} (h : Twin key R a b) (hk : k ≠ key) : b.valueInt64 k d = a.valueInt64 k d := h.value hk

theorem Twin.field (h : Twin key R a b) (hk : k ≠ key) : b.field k = a.field k := by
  rw [J.field, J.field, h.isObject, h.get? hk, typeError304, typeError304, h.typeName]

theorem Twin.index (h : Twin key R a b) (hk : k ≠ key) : b.index k = a.index k := by
  rw [J.index, J.index, h.isObject, h.isNull, h.get? hk, typeError305, typeError305, h.typeName]

theorem Twin.set (h : Twin key R a b) (hk : k ≠ key) : Twin key R (a.set k v) (b.set k v) := by
  cases h with
  | null => exact .obj (.cons (.same hk) .nil)
  | obj h => exact .obj (forall₂_insert FieldTwin.key_eq (.same hk) h)

theorem Twin.assign (h : Twin key R a b) (hk : k ≠ key) : Tx.Alike (Twin key R) (a.assign k v) (b.assign k v) := by
  rw [J.assign, J.assign, h.isObject, h.isNull]
  split
  · exact .ok (h.set hk)
  · rw [typeError305, typeError305, h.typeName]
    exact .error _

/-- The field under the key, on both sides or on neither. -/
theorem Twin.field_text (h : Twin key R a b) :
    Tx.Alike (fun u w => ∃ s s', u = J.str s ∧ w = J.str s' ∧ R s s') (a.field key) (b.field key) := by
  rw [J.field, J.field, h.isObject]
  split
  · rcases h.text with ⟨ha, hb⟩ | ⟨s, s', ha, hb, hs⟩
    · rw [ha, hb]
      exact .error _
    · rw [ha, hb]
      exact .ok ⟨s, s', rfl, rfl, hs⟩
  · rw [typeError304, typeError304, h.typeName]
    exact .error _

theorem Twin.utf8 (hR : ∀ s s', R s s' → Utf8.valid s' = Utf8.valid s) (h : Twin key R a b) : b.utf8 = a.utf8 := by
  cases h with
  | null => rfl
  | @obj fs gs h =>
    show utf8Fields gs = utf8Fields fs
    induction h with
    | nil => rfl
    | cons hfg _ ih =>
      cases hfg with
      | same => rw [utf8Fields, utf8Fields, ih]
      | text hs => rw [utf8Fields, utf8Fields, ih, utf8_str, utf8_str, hR _ _ hs]

theorem twin_object {fs gs : List (Str × J)} (h : List.Forall₂ (FieldTwin key R) fs gs) :
    Twin key R (object fs) (object gs) :=
  .obj (forall₂_object FieldTwin.key_eq h)

end Twin

/-! ## Values that differ in some texts -/

/-- Two values, standing under the key `k` of an object, that are equal but for texts `s` and `s'`
under keys `k'` with `H k' s s'`. -/
inductive SameBut (H : Str → Str → Str → Prop) : Str → J → J → Prop
  | same {k : Str} (v : J) : SameBut H k v v
  | text {k s s' : Str} : H k s s' → SameBut H k (.str s) (.str s')
  | arr {k : Str} {xs ys : List J} : xs.length = ys.length → (∀ p ∈ xs.zip ys, SameBut H [] p.1 p.2) →
    SameBut H k (.arr xs) (.arr ys)
  | obj {k : Str} {fs gs : List (Str × J)} : fs.map Prod.fst = gs.map Prod.fst →
    (∀ p ∈ fs.zip gs, SameBut H p.1.1 p.1.2 p.2.2) → SameBut H k (.obj fs) (.obj gs)

section SameBut

variable {H : Str → Str → Str → Prop} {k : Str} {a b : J}

/-- Two fields of one name whose values are the same but for the texts. -/
def FieldSame (H : Str → Str → Str → Prop) (f g : Str × J) : Prop := f.1 = g.1 ∧ SameBut H f.1 f.2 g.2

theorem sameBut_arr {xs ys : List J} (h : List.Forall₂ (SameBut H []) xs ys) : SameBut H k (.arr xs) (.arr ys) :=
  .arr h.length_eq fun _ hp => (List.forall₂_iff_zip.1 h).2 hp

theorem sameBut_obj {fs gs : List (Str × J)} (h : List.Forall₂ (FieldSame H) fs gs) : SameBut H k (.obj fs) (.obj gs) := by
  refine .obj ?_ fun _ hp => ((List.forall₂_iff_zip.1 h).2 hp).2
  induction h with
  | nil => rfl
  | cons hfg _ ih => rw [List.map_cons, List.map_cons, hfg.1, ih]

theorem sameBut_object {fs gs : List (Str × J)} (h : List.Forall₂ (FieldSame H) fs gs) : SameBut H k (object fs) (object gs) :=
  sameBut_obj (forall₂_object (fun _ _ h => h.1) h)

theorem sameBut_set {k' : Str} {fs : List (Str × J)} (h : SameBut H k' a b) :
    SameBut H k ((object fs).set k' a) ((object fs).set k' b) :=
  sameBut_obj (forall₂_insert (fun _ _ h => h.1) ⟨rfl, h⟩ (List.forall₂_same.2 fun _ _ => ⟨rfl, .same _⟩))

theorem SameBut.isNull (h : SameBut H k a b) : b.isNull = a.isNull := by
  cases h <;> rfl

theorem Twin.sameBut {key : Str} {R : Str → Str → Prop} (hR : ∀ s s', R s s' → H key s s') (h : Twin key R a b) :
    SameBut H k a b := by
  cases h with
  | null => exact .same _
  | obj h =>
    refine sameBut_obj (h.imp fun f g hfg => ?_)
    cases hfg with
    | same => exact ⟨rfl, .same _⟩
    | text hs => exact ⟨rfl, .text (hR _ _ hs)⟩

end SameBut
end J
end Json
