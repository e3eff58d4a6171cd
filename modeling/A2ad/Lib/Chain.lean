/-
Hash chains: logs whose every entry holds the hash before it and a hash over that and its content.
The last hash determines the whole log, as long as no two of the hashed pairs collide and no hash
is the one a log starts from.
-/
import Mathlib.Data.List.Induction

namespace Chain

variable {κ η : Type}

structure Entry (κ η : Type) where
  content : κ
  previous : η
  hash : η
deriving DecidableEq

section Verify

variable [DecidableEq η] (link : η → κ → η)

/-- The hash after the last entry, or `none` at the first mismatch. -/
def verify : η → List (Entry κ η) → Option η
  | head, [] => some head
  | head, e :: rest => if head = e.previous ∧ link head e.content = e.hash then verify e.hash rest else none

variable {link} {g h : η} {log log' : List (Entry κ η)}

theorem verify_append (log log' : List (Entry κ η)) :
    verify link g (log ++ log') = (verify link g log).bind fun head => verify link head log' := by
  induction log generalizing g with
  | nil => rfl
  | cons e log ih =>
    rw [List.cons_append, verify, verify]
    split
    · exact ih
    · rfl

/-- A log is extended by an entry that links to its head. -/
theorem verify_snoc {e : Entry κ η} :
    verify link g (log ++ [e]) = some h ↔
      verify link g log = some e.previous ∧ link e.previous e.content = e.hash ∧ e.hash = h := by
  rw [verify_append]
  cases verify link g log with
  | none => simp
  | some head =>
    simp only [Option.bind_some, verify, Option.some.injEq]
    constructor
    · intro hv
      split at hv
      · rename_i hlink
        obtain ⟨rfl, hlink⟩ := hlink
        exact ⟨rfl, hlink, Option.some.inj hv⟩
      · cases hv
    · rintro ⟨rfl, hlink, rfl⟩
      rw [if_pos ⟨rfl, hlink⟩]

/-- The head of a log is its last hash. -/
theorem verify_head (hv : verify link g log = some h) : h = (log.getLast?.map Entry.hash).getD g := by
  rcases List.eq_nil_or_concat log with rfl | ⟨init, e, rfl⟩
  · cases hv
    rfl
  · rw [List.concat_eq_append] at hv ⊢
    obtain ⟨-, -, rfl⟩ := verify_snoc.1 hv
    simp

/-- What holds of the start and of every hash holds of every previous hash in a log. -/
theorem verify_previous {P : η → Prop} (hg : P g) (hlink : ∀ head c, P (link head c)) (hv : verify link g log = some h) :
    ∀ e ∈ log, P e.previous := by
  induction log generalizing g with
  | nil => nofun
  | cons e log ih =>
    rw [verify] at hv
    split at hv
    · rename_i he
      obtain ⟨rfl, he⟩ := he
      intro x hx
      rcases List.mem_cons.1 hx with rfl | hx
      · exact hg
      · exact ih (he ▸ hlink _ _) hv x hx
    · cases hv

/-- Two logs with one head are one log. -/
theorem eq_of_head (hg : ∀ head c, link head c ≠ g)
    (hinj : ∀ x ∈ log, ∀ y ∈ log', link x.previous x.content = link y.previous y.content →
      x.previous = y.previous ∧ x.content = y.content)
    (hv : verify link g log = some h) (hv' : verify link g log' = some h) : log = log' := by
  induction log using List.reverseRecOn generalizing log' h with
  | nil =>
    cases hv
    rcases List.eq_nil_or_concat log' with rfl | ⟨init, e, rfl⟩
    · rfl
    · rw [List.concat_eq_append] at hv'
      obtain ⟨-, hlink, hhash⟩ := verify_snoc.1 hv'
      exact absurd (hlink.trans hhash) (hg _ _)
  | append_singleton log e ih =>
    obtain ⟨hlog, hlink, rfl⟩ := verify_snoc.1 hv
    rcases List.eq_nil_or_concat log' with rfl | ⟨log', e', rfl⟩
    · cases hv'
      exact absurd hlink (hg _ _)
    rw [List.concat_eq_append] at hv' hinj ⊢
    obtain ⟨hlog', hlink', hhash⟩ := verify_snoc.1 hv'
    obtain ⟨hprevious, hcontent⟩ := hinj e (by simp) e' (by simp) (by rw [hlink, hlink', hhash])
    -- the entries agree, so the logs before them have one head
    obtain rfl := ih (fun x hx y hy => hinj x (by simp [hx]) y (by simp [hy])) hlog (hprevious ▸ hlog')
    obtain ⟨content, previous, hash⟩ := e
    obtain ⟨content', previous', hash'⟩ := e'
    cases hprevious
    cases hcontent
    cases hhash
    rfl

end Verify

end Chain
