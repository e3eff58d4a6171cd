/-
Disks as maps from places to files, links and directories: a file that is created only where nothing
stands, written in pieces by calls that may be interrupted or fail, and taken away again unless it is
complete and safe. Either the whole content is there under the new place or the disk is as before.
-/
import Mathlib.Logic.Function.Basic
import Mathlib.Order.Defs.Unbundled

inductive Node (α : Type) where
  | file (content : List α)
  | link (target : List α)
  | directory
deriving DecidableEq

/-- What stands at each place. -/
abbrev Disk (κ α : Type) := κ → Option (Node α)

namespace Disk

variable {κ α : Type} {d d' d'' : Disk κ α} {k : κ} {bytes : List α}

/-! ## Changes -/

/-- Nothing that stood has changed. -/
def Kept (d d' : Disk κ α) : Prop := ∀ k n, d k = some n → d' k = some n

/-- Nothing has come but directories. -/
def NothingNew (d d' : Disk κ α) : Prop := ∀ k n, d' k = some n → d k = some n ∨ n = .directory

/-- One file has come, and nothing else but directories. -/
structure OneNew (k : κ) (bytes : List α) (d d' : Disk κ α) : Prop where
  absent : d k = none
  stored : d' k = some (.file bytes)
  others : ∀ k' n, k' ≠ k → d' k' = some n → d k' = some n ∨ n = .directory

instance : IsPreorder (Disk κ α) Kept where
  refl _ _ _ h := h
  trans _ _ _ h h' k n hk := h' k n (h k n hk)

theorem nothingNew_rfl : NothingNew d d := fun _ _ h => .inl h

/-- Directories come first, then the file. -/
theorem OneNew.after (h : NothingNew d d') (hk : Kept d d') (h' : OneNew k bytes d' d'') : OneNew k bytes d d'' where
  absent := by
    cases hd : d k with
    | none => rfl
    | some n => exact absurd (hk k n hd) (by simp [h'.absent])
  stored := h'.stored
  others k' n hne hn := by
    rcases h'.others k' n hne hn with hn | hn
    · exact h k' n hn
    · exact .inr hn

variable [DecidableEq κ]

def put (k : κ) (n : Node α) (d : Disk κ α) : Disk κ α := Function.update d k (some n)

def remove (k : κ) (d : Disk κ α) : Disk κ α := Function.update d k none

/-- Directories made where nothing stands. -/
def makeDirectories (places : List κ) (d : Disk κ α) : Disk κ α := fun k =>
  if (d k).isNone && places.contains k then some .directory else d k

theorem kept_makeDirectories (places : List κ) : Kept d (d.makeDirectories places) := by
  intro k n hk
  unfold makeDirectories
  rw [hk]
  rfl

theorem nothingNew_makeDirectories (places : List κ) : NothingNew d (d.makeDirectories places) := by
  intro k n hn
  unfold makeDirectories at hn
  split at hn
  · cases hn
    exact .inr rfl
  · exact .inl hn

theorem put_put {n m : Node α} : (d.put k n).put k m = d.put k m := Function.update_idem ..

/-- A file taken away again from where nothing stood. -/
theorem remove_put {n : Node α} (h : d k = none) : (d.put k n).remove k = d := by
  unfold remove put
  rw [Function.update_idem, ← h, Function.update_eq_self]

theorem oneNew_put (h : d k = none) : OneNew k bytes d (d.put k (.file bytes)) where
  absent := h
  stored := Function.update_self ..
  others k' n hne hn := by
    rw [put, Function.update_of_ne hne] at hn
    exact .inl hn

theorem OneNew.kept (h : OneNew k bytes d (d.put k (.file bytes))) : Kept d (d.put k (.file bytes)) := by
  intro k' n hn
  have hne : k' ≠ k := by
    rintro rfl
    rw [h.absent] at hn
    cases hn
  rw [put, Function.update_of_ne hne]
  exact hn

/-! ## Saving -/

/-- The result of a `write`. -/
inductive Write where
  | wrote (n : Nat)
  | interrupted
  | failed
deriving DecidableEq

/-- What the calls of one saving come to: whether the file is created where nothing stands, what the
writes return, and whether it is flushed and closed. After the results listed, writes fail. -/
structure Saving where
  created : Bool
  writes : List Write
  synced : Bool
  closed : Bool

def append (k : κ) (more : List α) (d : Disk κ α) : Disk κ α :=
  match d k with
  | some (.file content) => d.put k (.file (content ++ more))
  | _ => d

/-- Writes what is left from `offset` on; how far it comes. -/
def writeFrom (k : κ) (bytes : List α) (offset : Nat) : List Write → Disk κ α → Nat × Disk κ α
  | [], d => (offset, d)
  | result :: rest, d =>
    if offset < bytes.length then
      match result with
      | .interrupted => writeFrom k bytes offset rest d
      | .failed | .wrote 0 => (offset, d)
      | .wrote n => writeFrom k bytes (offset + n) rest (d.append k ((bytes.drop offset).take n))
    else (offset, d)

inductive Saved where
  | notCreated
  | notWritten
  | saved
deriving DecidableEq

/-- Creates a file and writes it, or leaves none. -/
def save (s : Saving) (k : κ) (bytes : List α) (d : Disk κ α) : Saved × Disk κ α :=
  if s.created && (d k).isNone then
    let (offset, d) := writeFrom k bytes 0 s.writes (d.put k (.file []))
    if offset == bytes.length && s.synced && s.closed then (.saved, d) else (.notWritten, d.remove k)
  else (.notCreated, d)

/-- The file holds what has been written so far. -/
theorem writeFrom_eq (k : κ) (bytes : List α) (d : Disk κ α) (writes : List Write) (offset : Nat) :
    ∃ reached, writeFrom k bytes offset writes (d.put k (.file (bytes.take offset))) =
      (reached, d.put k (.file (bytes.take reached))) := by
  induction writes generalizing offset with
  | nil => exact ⟨offset, rfl⟩
  | cons result rest ih =>
    unfold writeFrom
    split
    · have happend (n : Nat) : (d.put k (.file (bytes.take offset))).append k ((bytes.drop offset).take n) =
          d.put k (.file (bytes.take (offset + n))) := by
        have hat : d.put k (.file (bytes.take offset)) k = some (.file (bytes.take offset)) := Function.update_self ..
        rw [append, hat, List.take_add]
        exact put_put
      cases result with
      | interrupted => exact ih _
      | failed => exact ⟨offset, rfl⟩
      | wrote n =>
        cases n with
        | zero => exact ⟨offset, rfl⟩
        | succ n =>
          simp only [happend]
          exact ih _
    · exact ⟨offset, rfl⟩

/-- All or nothing: a saved file is new and whole, and otherwise the disk is as it was. -/
theorem save_cases (s : Saving) (k : κ) (bytes : List α) (d : Disk κ α) :
    (d.save s k bytes).1 = .saved ∧ d k = none ∧ (d.save s k bytes).2 = d.put k (.file bytes) ∨
      (d.save s k bytes).1 ≠ .saved ∧ (d.save s k bytes).2 = d := by
  unfold save
  split
  · rename_i hcreated
    rw [Bool.and_eq_true, Option.isNone_iff_eq_none] at hcreated
    obtain ⟨reached, hwritten⟩ := writeFrom_eq k bytes d s.writes 0
    rw [List.take_zero] at hwritten
    rw [hwritten]
    dsimp only
    split
    · rename_i hsaved
      simp only [Bool.and_eq_true, beq_iff_eq] at hsaved
      left
      refine ⟨rfl, hcreated.2, ?_⟩
      rw [hsaved.1.1, List.take_length]
    · right
      exact ⟨by simp, remove_put hcreated.2⟩
  · right
    exact ⟨by simp, rfl⟩

/-- Pieces with interruptions between them add up; a short write that is not followed up does not. -/
example : ((save ⟨true, [.wrote 1, .interrupted, .wrote 2], true, true⟩ 0 [7, 8, 9] fun _ : Nat => none).1,
    (save ⟨true, [.wrote 1, .failed], true, true⟩ 0 [7, 8, 9] fun _ : Nat => none).1) = (.saved, .notWritten) := by
  decide

end Disk
