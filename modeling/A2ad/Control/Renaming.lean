/-
Requests with their message texts renamed: what `begin` reads of a request is the same, and what it
hashes differs just where the requests differ. Values of two runs, related by the hashes in them.
-/
import A2ad.Control.Audit
import A2ad.Lib.JsonPair

namespace A2ad.Control

open Bytes Json

/-! ## Renaming -/

/-- The text of a message: well-formed UTF-8, as parsing a request leaves it. -/
abbrev Text := { m : Str // Utf8.valid m = true }

/-- A text renamed; values that are no texts stay. -/
def renameText (ρ : Text → Text) : J → J
  | .str m => if h : Utf8.valid m = true then .str (ρ ⟨m, h⟩) else .str m
  | j => j

/-- A mutating request with its message renamed; other requests stay. -/
def renamed (ρ : Text → Text) (req : J) : J := if mutates req then req.onField "message" (renameText ρ) else req

section Renamed

variable {ρ : Text → Text} {req v : J} {k : Str}

theorem utf8_renameText : (renameText ρ v).utf8 = v.utf8 := by
  cases v with
  | str m =>
    rw [renameText]
    split
    · rename_i h
      rw [J.utf8_str, J.utf8_str, h]
      exact (ρ ⟨m, h⟩).2
    · rfl
  | _ => rfl

theorem renameText_injective (hρ : Function.Injective ρ) : Function.Injective (renameText ρ) := by
  have hstr : ∀ {m : Str} {j : J}, renameText ρ (.str m) = renameText ρ j → J.str m = j := by
    intro m j h
    cases j with
    | str n =>
      simp only [renameText] at h
      split at h <;> split at h
      · have := hρ (Subtype.ext (J.str.inj h))
        rw [(Subtype.mk.inj this)]
      · rename_i hn
        exact absurd ((J.str.inj h) ▸ (ρ _).2) hn
      · rename_i hm _
        exact absurd ((J.str.inj h).symm ▸ (ρ _).2) hm
      · exact h
    | _ =>
      simp only [renameText] at h
      split at h <;> cases h
  intro a b h
  cases a with
  | str m => exact hstr h
  | _ =>
    cases b with
    | str n => exact (hstr h.symm).symm
    | _ => exact h

theorem renamed_of_not (h : mutates req = false) : renamed ρ req = req := by
  rw [renamed, if_neg (by simp [h])]

theorem renamed_get? (hk : k ≠ "message") : (renamed ρ req).get? k = req.get? k := by
  unfold renamed
  split
  · exact J.get?_onField_ne hk
  · rfl

@[simp] theorem isObject_renamed : (renamed ρ req).isObject = req.isObject := by
  unfold renamed
  split
  · exact J.isObject_onField
  · rfl

theorem op_of_mutates (h : mutates req = true) : ∃ op, req.get? "op" = some (.str op) ∧ mutation op = true := by
  unfold mutates at h
  split at h
  · rename_i op hop
    exact ⟨op, hop, h⟩
  · cases h

theorem isObject_of_mutates (h : mutates req = true) : req.isObject = true := by
  obtain ⟨op, hop, -⟩ := op_of_mutates h
  exact J.isObject_of_get? hop

theorem mutates_congr {r r' : J} (h : r.get? "op" = r'.get? "op") : mutates r = mutates r' := by
  rw [mutates, mutates, h]

theorem mutates_renamed : mutates (renamed ρ req) = mutates req := mutates_congr (renamed_get? (by decide))

theorem utf8_renamed : (renamed ρ req).utf8 = req.utf8 := by
  unfold renamed
  split
  · exact J.utf8_onField fun _ => utf8_renameText
  · rfl

theorem renamed_injective (hρ : Function.Injective ρ) : Function.Injective (renamed ρ) := by
  intro a b h
  have hab : mutates a = mutates b := calc
    mutates a = mutates (renamed ρ a) := mutates_renamed.symm
    _ = mutates (renamed ρ b) := by rw [h]
    _ = mutates b := mutates_renamed
  unfold renamed at h
  rw [hab] at h
  split at h
  · exact J.onField_injective (renameText_injective hρ) h
  · exact h

theorem canonical_renamed : canonical (renamed ρ req) = renamed ρ (canonical req) := by
  have hm : mutates (canonical req) = mutates req :=
    mutates_congr (by rw [canonical, J.get?_erase, if_neg (by decide)])
  rw [renamed, renamed, hm]
  split
  · exact J.erase_onField
  · rfl

theorem renamed_set (hk : k ≠ "message") (hk' : k ≠ "op") (hreq : req.isObject = true) :
    (renamed ρ req).set k v = renamed ρ (req.set k v) := by
  have hm : mutates (req.set k v) = mutates req := mutates_congr (by rw [J.get?_set hreq, if_neg hk'])
  rw [renamed, renamed, hm]
  split
  · exact J.set_onField hk
  · rfl

/-! What is read of a request beside its message is the same. -/

theorem renamed_contains (hk : k ≠ "message") : (renamed ρ req).contains k = req.contains k := by
  rw [J.contains, J.contains, renamed_get? hk]

theorem renamed_value {α : Type} {read : J → Except Exception α} {d : α} (hk : k ≠ "message") :
    (renamed ρ req).value read k d = req.value read k d := by
  cases hm : mutates req with
  | false => rw [renamed_of_not hm]
  | true =>
    have hobj := isObject_of_mutates hm
    rw [J.value, J.value, isObject_renamed, renamed_get? hk, if_pos hobj, if_pos hobj]

theorem renamed_valueStr {d : Str} (hk : k ≠ "message") : (renamed ρ req).valueStr k d = req.valueStr k d := renamed_value hk

theorem renamed_valueJson {d : J} (hk : k ≠ "message") : (renamed ρ req).valueJson k d = req.valueJson k d :=
  renamed_value hk

theorem renamed_required (hk : k ≠ "message") : required (renamed ρ req) k = required req k := by
  rw [required, required, renamed_valueStr hk]

theorem renamed_field (hk : k ≠ "message") : (renamed ρ req).field k = req.field k := by
  cases hm : mutates req with
  | false => rw [renamed_of_not hm]
  | true =>
    have hobj := isObject_of_mutates hm
    rw [J.field, J.field, isObject_renamed, renamed_get? hk, if_pos hobj, if_pos hobj]

end Renamed

/-! ## Hashes of requests -/

/-- The texts hashed for the requests `Q` and for the same requests renamed. -/
def contents (ρ : Text → Text) (Q : Set J) : Set Str :=
  {x | ∃ r ∈ Q, (canonical r).dump = .ok x ∨ (canonical (renamed ρ r)).dump = .ok x}

/-- The hash of one of the requests `Q`, and the hash of the same request renamed. -/
def HashPair (E : Env) (ρ : Text → Text) (Q : Set J) (h h' : Str) : Prop :=
  ∃ r ∈ Q, ∃ x x', (canonical r).dump = .ok x ∧ (canonical (renamed ρ r)).dump = .ok x' ∧ h = E.digest x ∧ h' = E.digest x'

/-- Texts paired off one to one, well formed on both sides or on neither. -/
class Pairing (R : Str → Str → Prop) : Prop where
  utf8 : ∀ h h', R h h' → Utf8.valid h' = Utf8.valid h
  eq_iff : ∀ {h h' g g'}, R h h' → R g g' → (h = g ↔ h' = g')

theorem IsSha.valid {s : Str} (h : IsSha s) : Utf8.valid s = true := by
  refine Utf8.valid_ascii fun b hb => ?_
  have hhex := List.all_eq_true.1 h.2 b hb
  simp only [isHex, isDigit, Bool.or_eq_true, Bool.and_eq_true, decide_eq_true_eq] at hhex
  rcases hhex with ⟨-, hle⟩ | ⟨-, hle⟩
  · exact UInt8.lt_of_le_of_lt hle (by decide)
  · exact UInt8.lt_of_le_of_lt hle (by decide)

theorem canonical_inj {r q : J} {x : Str} (hr : (canonical r).dump = .ok x) (hq : (canonical q).dump = .ok x) :
    canonical r = canonical q :=
  J.text_inj ((J.dump_ok.1 hr).2.trans (J.dump_ok.1 hq).2.symm)

/-- Two requests have one hash just when the renamed ones have. -/
theorem pairing_hashPair {E : Env} {ρ : Text → Text} {Q : Set J} (hsha : ∀ text, IsSha (E.digest text))
    (hρ : Function.Injective ρ) (hE : Set.InjOn E.digest (contents ρ Q)) : Pairing (HashPair E ρ Q) := by
  constructor
  · rintro h h' ⟨r, -, x, x', -, -, rfl, rfl⟩
    rw [(hsha x).valid, (hsha x').valid]
  · rintro h h' g g' ⟨r, hr, x, x', hx, hx', rfl, rfl⟩ ⟨q, hq, y, y', hy, hy', rfl, rfl⟩
    constructor
    · intro heq
      obtain rfl := hE ⟨r, hr, .inl hx⟩ ⟨q, hq, .inl hy⟩ heq
      have hsame : canonical (renamed ρ r) = canonical (renamed ρ q) := by
        rw [canonical_renamed, canonical_renamed, canonical_inj hx hy]
      rw [hsame, hy'] at hx'
      rw [Except.ok.inj hx']
    · intro heq
      obtain rfl := hE ⟨r, hr, .inr hx'⟩ ⟨q, hq, .inr hy'⟩ heq
      have hsame := canonical_inj hx' hy'
      rw [canonical_renamed, canonical_renamed] at hsame
      rw [renamed_injective hρ hsame, hy] at hx
      rw [Except.ok.inj hx]

theorem dump_renamed {ρ : Text → Text} {r : J} :
    Tx.Alike (fun x x' => (canonical r).dump = .ok x ∧ (canonical (renamed ρ r)).dump = .ok x') (canonical r).dump
      (canonical (renamed ρ r)).dump := by
  have hutf : (canonical (renamed ρ r)).utf8 = (canonical r).utf8 := by rw [canonical_renamed, utf8_renamed]
  rw [J.dump, J.dump, hutf]
  split
  · exact .ok ⟨rfl, rfl⟩
  · exact .error _

/-! ## Values of the two runs -/

/-- The hash of the row before, the hash of a row, the hash of the last row. -/
def chainKeys : List Str := ["previous_hash", "hash", "head_sha256"]

/-- What may differ, by the key it stands under: hashes paired by `R` under `request_sha256`, and
the hashes of the event log. -/
inductive HashDiffers (E : Env) (R : Str → Str → Prop) : Str → Str → Str → Prop
  | request {h h' : Str} : R h h' → HashDiffers E R "request_sha256" h h'
  | chain {k x x' : Str} : k ∈ chainKeys → HashDiffers E R k (E.digest x) (E.digest x')

/-- Equal but for the values of `request_sha256` and the hashes of the event log. -/
abbrev Matches (E : Env) (R : Str → Str → Prop) (v v' : J) : Prop := J.SameBut (HashDiffers E R) [] v v'

end A2ad.Control
