/-
Push secrets on their way to the client: which results of the push operations are redacted wherever a
configuration stands in them, and which ones carry a secret past the redaction.
-/
import A2ad.Ipc.Contact
import A2ad.Lib.JsonForm

namespace A2ad.Ipc

open Bytes Json Client

/-! ## Definitions -/

inductive PushOp where
  | create
  | get
  | list
  | delete
deriving DecidableEq, Repr

namespace PushOp

def op : PushOp → Op
  | create => .pushCreate
  | get => .pushGet
  | list => .pushList
  | delete => .pushDelete

def method : PushOp → Method
  | create => .createPushConfig
  | get => .getPushConfig
  | list => .listPushConfigs
  | delete => .deletePushConfig

/-- What the operation makes of the result of its call. -/
def conclude : PushOp → A2AResult → M J
  | create => pushCreateReply
  | _ => pushResult

/-- The reply to an accepted result of the value. -/
def reply (p : PushOp) (value : J) : Except Exception J :=
  match p with
  | create => return .object [("ok", .bool true), ("config", ← redact value)]
  | _ => return .object [("ok", .bool true), ("result", ← redactResult value)]

/-- The result `r` is one that `rpcCall` accepts as ok; its value is as a parser builds it. -/
structure Answers (p : PushOp) (r : A2AResult) : Prop where
  ok : r.ok = true
  formed : r.value.formed = true
  classified : ∃ status, classifyResult p.method status r.value = .ok r

end PushOp

/-- Two objects with the same keys, whose values may differ at `keys` only. -/
structure DifferAt (keys : List Str) (v w : J) : Prop where
  left : v.isObject = true
  right : w.isObject = true
  present : ∀ k, (w.get? k).isSome = (v.get? k).isSome
  rest : ∀ k, k ∉ keys → w.get? k = v.get? k

/-- Two push configurations that differ at most in the values of their secrets. -/
def SameConfig (v w : J) : Prop :=
  v = w ∨ DifferAt ["token", "authentication"] v w ∧ (w.get? "authentication" = v.get? "authentication" ∨
    ∃ a b, v.get? "authentication" = some a ∧ w.get? "authentication" = some b ∧ DifferAt ["credentials"] a b)

/-- Two results whose push configurations differ at most in the values of their secrets: a configuration, a
list under `configs`, or a bare array. -/
inductive SameConfigs (v : J) : J → Prop
  | single {w : J} : SameConfig v w → SameConfigs v w
  | listed {items items' : List J} : v.get? "configs" = some (.arr items) → List.Forall₂ SameConfig items items' →
    SameConfigs v (v.set "configs" (.arr items'))
  | bare {items items' : List J} : v = .arr items → List.Forall₂ SameConfig items items' → SameConfigs v (.arr items')

def hasSecret (v : J) : Bool :=
  v.contains "token" || match v.get? "authentication" with
    | some a => a.contains "credentials"
    | none => false

/-- Redacting the value does not throw. -/
def redactable (v : J) : Bool :=
  match v.get? "authentication" with
  | none => true
  | some a => a.isObject

/-- A secret stands where the redaction does not look: in a bare array; for `push.create` under `configs`,
and for the others beside `configs`. -/
def Exposed (p : PushOp) (v : J) : Prop :=
  match v with
  | .arr items => items.any hasSecret = true
  | v => match v.get? "configs" with
    | some (.arr items) =>
      if p = .create then redactable v = true ∧ items.any hasSecret = true
      else hasSecret v = true ∧ items.all redactable = true
    | _ => False

/-! ## Objects that differ at some keys -/

section Differ

variable {keys : List Str} {v w : J}

/-- Without the keys at which they may differ they are one. -/
theorem DifferAt.eq (h : DifferAt keys v w) (hv : v.formed = true) (hw : w.formed = true)
    (hnone : ∀ k ∈ keys, v.get? k = w.get? k) : v = w := by
  refine J.ext_get? hv hw h.left h.right fun k => ?_
  by_cases hk : k ∈ keys
  · exact hnone k hk
  · exact (h.rest k hk).symm

theorem DifferAt.absent (h : DifferAt keys v w) {k : Str} (hk : v.contains k = false) : v.get? k = w.get? k := by
  have hv : v.get? k = none := by simpa [J.contains] using hk
  have hw : w.get? k = none := by simpa [hv] using h.present k
  rw [hv, hw]

theorem differAt_set {k : Str} {x y : J} (hv : v.isObject = true) (hx : v.get? k = some x) : DifferAt [k] v (v.set k y) := by
  refine ⟨hv, J.isObject_set hv, fun k' => ?_, fun k' hk' => ?_⟩
  · rw [J.get?_set hv]
    split
    · rename_i he
      subst he
      rw [hx]
      rfl
    · rfl
  · rw [J.get?_set hv, if_neg]
    rintro rfl
    exact hk' (List.mem_singleton_self _)

theorem DifferAt.mono {keys' : List Str} (h : DifferAt keys v w) (hsub : keys ⊆ keys') : DifferAt keys' v w :=
  ⟨h.left, h.right, h.present, fun k hk => h.rest k fun hmem => hk (hsub hmem)⟩

end Differ

/-! ## Redaction -/

section Redact

variable {v w : J}

theorem redact_unredactable {a : J} (hv : v.isObject = true) (ha : v.get? "authentication" = some a)
    (hobj : a.isObject = false) :
    redact v = .error ⟨lit "[json.exception.type_error.307] cannot use erase() with " ++ a.typeName⟩ := by
  unfold redact
  rw [hv, Bool.not_true, if_neg nofun]
  dsimp only
  rw [J.get?_erase, if_neg (by decide), ha]
  cases a <;> first | rfl | cases hobj

/-- What is left of a configuration in the reply. -/
def stripped (v : J) : J :=
  match v.get? "authentication" with
  | none => v.erase "token"
  | some a => (v.erase "token").set "authentication" (a.erase "credentials")

theorem redact_redactable (hv : v.isObject = true) (hr : redactable v = true) : redact v = .ok (stripped v) := by
  unfold redact stripped
  unfold redactable at hr
  rw [hv, Bool.not_true, if_neg nofun]
  dsimp only
  rw [J.get?_erase, if_neg (by decide)]
  cases ha : v.get? "authentication" with
  | none => rfl
  | some a =>
    rw [ha] at hr
    cases a <;> first | rfl | cases hr

theorem formed_stripped (hv : v.formed = true) : (stripped v).formed = true := by
  unfold stripped
  split
  · exact J.formed_erase hv
  · rename_i a ha
    exact J.formed_set (by decide) (J.formed_erase (J.formed_get? hv ha)) (J.formed_erase hv)

theorem isObject_stripped (hv : v.isObject = true) : (stripped v).isObject = true := by
  unfold stripped
  split
  · rwa [J.isObject_erase]
  · exact J.isObject_set (by rwa [J.isObject_erase])

theorem get?_stripped (hv : v.isObject = true) (k : Str) : (stripped v).get? k = if k = "token" then none
    else if k = "authentication" then (v.get? "authentication").map (fun a => a.erase "credentials") else v.get? k := by
  have herased : (v.erase "token").isObject = true := by rwa [J.isObject_erase]
  unfold stripped
  cases ha : v.get? "authentication" with
  | none =>
    dsimp only
    rw [J.get?_erase]
    split
    · rfl
    · split
      · rename_i hk
        rw [hk, ha]
        rfl
      · rfl
  | some a =>
    dsimp only
    rw [J.get?_set herased, J.get?_erase]
    by_cases hauth : lit "authentication" = k
    · subst hauth
      rw [if_pos rfl, if_neg (by decide), if_pos rfl]
      rfl
    · rw [if_neg hauth, if_neg (Ne.symm hauth)]

/-- Configurations that differ in their secrets alone are redacted to one. -/
theorem redact_same (hv : v.formed = true) (hw : w.formed = true) (h : SameConfig v w) : redact w = redact v := by
  rcases h with rfl | ⟨hdiffer, hauth⟩
  · rfl
  have hstripped : (w.get? "authentication").map (fun a => a.erase "credentials") =
      (v.get? "authentication").map (fun a => a.erase "credentials") → stripped w = stripped v := by
    intro hsame
    refine J.ext_get? (formed_stripped hw) (formed_stripped hv) (isObject_stripped hdiffer.right)
      (isObject_stripped hdiffer.left) fun k => ?_
    rw [get?_stripped hdiffer.right, get?_stripped hdiffer.left, hsame]
    split
    · rfl
    · split
      · rfl
      · rename_i htoken hother
        exact hdiffer.rest k (by simp [htoken, hother])
  rcases hauth with hsame | ⟨a, b, ha, hb, hcredentials⟩
  · by_cases hr : redactable v = true
    · have hr' : redactable w = true := by
        unfold redactable
        rwa [hsame]
      rw [redact_redactable hdiffer.right hr', redact_redactable hdiffer.left hr, hstripped (by rw [hsame])]
    · unfold redactable at hr
      split at hr
      · exact absurd rfl hr
      · rename_i a ha
        have hobj : a.isObject = false := by simpa using hr
        rw [redact_unredactable hdiffer.left ha hobj, redact_unredactable hdiffer.right (hsame.trans ha) hobj]
  · have herased : b.erase "credentials" = a.erase "credentials" := by
      refine J.ext_get? (J.formed_erase (J.formed_get? hw hb)) (J.formed_erase (J.formed_get? hv ha))
        (by rw [J.isObject_erase]; exact hcredentials.right) (by rw [J.isObject_erase]; exact hcredentials.left) fun k => ?_
      rw [J.get?_erase, J.get?_erase]
      split
      · rfl
      · rename_i hk
        exact hcredentials.rest k (by simpa using hk)
    have hr : redactable v = true := by
      unfold redactable
      rw [ha]
      exact hcredentials.left
    have hr' : redactable w = true := by
      unfold redactable
      rw [hb]
      exact hcredentials.right
    rw [redact_redactable hdiffer.right hr', redact_redactable hdiffer.left hr, hstripped]
    rw [ha, hb, Option.map_some, Option.map_some, herased]

/-- Without a secret there is nothing to differ in. -/
theorem SameConfig.eq (h : SameConfig v w) (hv : v.formed = true) (hw : w.formed = true) (hnone : hasSecret v = false) :
    v = w := by
  rcases h with rfl | ⟨hdiffer, hauth⟩
  · rfl
  unfold hasSecret at hnone
  rw [Bool.or_eq_false_iff] at hnone
  refine hdiffer.eq hv hw fun k hk => ?_
  rcases List.mem_cons.1 hk with rfl | hk
  · exact hdiffer.absent hnone.1
  obtain rfl := List.mem_singleton.1 hk
  rcases hauth with hsame | ⟨a, b, ha, hb, hcredentials⟩
  · exact hsame.symm
  · have hempty := hnone.2
    rw [ha] at hempty
    rw [ha, hb, hcredentials.eq (J.formed_get? hv ha) (J.formed_get? hw hb)]
    intro k hk
    obtain rfl := List.mem_singleton.1 hk
    exact hcredentials.absent hempty

end Redact

/-! ## Redacted lists -/

/-- What a value becomes where it can be redacted. -/
def redacted (v : J) : J := if v.isObject then stripped v else v

theorem redact_of_redactable {v : J} (h : redactable v = true) : redact v = .ok (redacted v) := by
  unfold redacted
  cases hv : v.isObject with
  | true => exact redact_redactable hv h
  | false =>
    unfold redact
    rw [hv]
    rfl

theorem redact_error {v : J} (h : redactable v = false) : ∃ e, redact v = .error e := by
  unfold redactable at h
  split at h
  · cases h
  · rename_i a ha
    exact ⟨_, redact_unredactable (J.isObject_of_get? ha) ha h⟩

theorem mapM_redact {items : List J} (h : items.all redactable = true) : items.mapM redact = .ok (items.map redacted) := by
  induction items with
  | nil => rfl
  | cons v items ih =>
    rw [List.all_cons, Bool.and_eq_true] at h
    rw [List.mapM_cons, redact_of_redactable h.1, ih h.2]
    rfl

theorem mapM_redact_error {items : List J} (h : items.all redactable = false) : ∃ e, items.mapM redact = .error e := by
  induction items with
  | nil => cases h
  | cons v items ih =>
    rw [List.mapM_cons]
    cases hv : redactable v with
    | false =>
      obtain ⟨e, he⟩ := redact_error hv
      rw [he]
      exact ⟨e, rfl⟩
    | true =>
      rw [List.all_cons, hv, Bool.true_and] at h
      obtain ⟨e, he⟩ := ih h
      rw [redact_of_redactable hv, he]
      exact ⟨e, rfl⟩

theorem mapM_redact_same {items items' : List J} (h : List.Forall₂ SameConfig items items')
    (hf : ∀ v ∈ items, v.formed = true) (hf' : ∀ v ∈ items', v.formed = true) : items'.mapM redact = items.mapM redact := by
  induction h with
  | nil => rfl
  | cons hsame _ ih =>
    rw [List.mapM_cons, List.mapM_cons, redact_same (hf _ List.mem_cons_self) (hf' _ List.mem_cons_self) hsame,
      ih (fun v hv => hf v (List.mem_cons_of_mem _ hv)) fun v hv => hf' v (List.mem_cons_of_mem _ hv)]

theorem items_eq {items items' : List J} (h : List.Forall₂ SameConfig items items') (hf : ∀ v ∈ items, v.formed = true)
    (hf' : ∀ v ∈ items', v.formed = true) (hnone : items.any hasSecret = false) : items = items' := by
  induction h with
  | nil => rfl
  | cons hsame _ ih =>
    rw [List.any_cons, Bool.or_eq_false_iff] at hnone
    rw [hsame.eq (hf _ List.mem_cons_self) (hf' _ List.mem_cons_self) hnone.1,
      ih (fun v hv => hf v (List.mem_cons_of_mem _ hv)) (fun v hv => hf' v (List.mem_cons_of_mem _ hv)) hnone.2]

/-! ## Replies -/

section Reply

variable {p : PushOp} {v w : J} {r : A2AResult}

/-- The reply is that to the value of the result. -/
theorem conclude_reply (h : r.ok = true) : p.conclude r = liftM (p.reply r.value) := by
  cases p with
  | create =>
    show pushCreateReply r = _
    unfold pushCreateReply PushOp.reply
    rw [h, Bool.not_true, if_neg nofun]
    cases redact r.value <;> rfl
  | _ =>
    show pushResult r = _
    unfold pushResult PushOp.reply
    rw [h, Bool.not_true, if_neg nofun]
    cases redactResult r.value <;> rfl

theorem redactResult_listed {items : List J} (h : v.get? "configs" = some (.arr items)) :
    redactResult v = (do return v.set "configs" (.arr (← items.mapM redact))) := by
  unfold redactResult
  rw [h]

theorem redactResult_single (h : ∀ items, v.get? "configs" ≠ some (.arr items)) : redactResult v = redact v := by
  unfold redactResult
  split
  · rename_i items hitems
    exact absurd hitems (h items)
  · rfl

theorem reply_listing (hp : p ≠ .create) :
    p.reply v = (do return .object [("ok", .bool true), ("result", ← redactResult v)]) := by
  cases p <;> first | rfl | exact absurd rfl hp

theorem insert_insert (k : Str) (x y : J) (fs : List (Str × J)) : J.insert k y (J.insert k x fs) = J.insert k y fs := by
  induction fs with
  | nil => simp [J.insert]
  | cons f fs ih =>
    simp only [J.insert]
    split
    · simp [J.insert]
    · split
      · simp [J.insert]
      · rename_i hne hnlt
        simp only [J.insert, if_neg hne, if_neg hnlt, ih]

theorem set_set {k : Str} {x y : J} (hv : v.isObject = true) : (v.set k x).set k y = v.set k y := by
  cases v with
  | obj fs => exact congrArg J.obj (insert_insert k x y fs)
  | _ => cases hv

/-- The fields beside a list are what they were. -/
theorem get?_listed {items : List J} (hv : v.isObject = true) {k : Str} (hk : k ≠ "configs") :
    (v.set "configs" (.arr items)).get? k = v.get? k := by
  rw [J.get?_set hv, if_neg (Ne.symm hk)]

/-- Where no secret is exposed, a result tells nothing of its secrets. -/
theorem reply_same (hv : v.formed = true) (hw : w.formed = true) (h : SameConfigs v w) (hexposed : ¬ Exposed p v) :
    p.reply w = p.reply v := by
  cases h with
  | single hsame =>
    by_cases hp : p = .create
    · subst hp
      show (do return J.object [("ok", .bool true), ("config", ← redact w)]) = _
      rw [redact_same hv hw hsame]
      rfl
    rcases hsame with rfl | ⟨hdiffer, hauth⟩
    · rfl
    have hconfigs : w.get? "configs" = v.get? "configs" := hdiffer.rest _ (by decide)
    rw [reply_listing hp, reply_listing hp]
    by_cases hlisted : ∃ items, v.get? "configs" = some (.arr items)
    · obtain ⟨items, hitems⟩ := hlisted
      -- beside a list, secrets matter only where the list can be redacted
      have hcase : hasSecret v = false ∨ items.all redactable = false := by
        by_contra hboth
        rw [not_or, Bool.not_eq_false, Bool.not_eq_false] at hboth
        refine hexposed ?_
        cases v with
        | obj fs =>
          unfold Exposed
          simp only [hitems, if_neg hp]
          exact hboth
        | _ => cases hdiffer.left
      rcases hcase with hnone | hfails
      · have hsame : SameConfig v w := .inr ⟨hdiffer, hauth⟩
        rw [hsame.eq hv hw hnone]
      · obtain ⟨e, he⟩ := mapM_redact_error hfails
        rw [redactResult_listed hitems, redactResult_listed (hconfigs.trans hitems), he]
        rfl
    · rw [not_exists] at hlisted
      rw [redactResult_single hlisted, redactResult_single (fun items => by rw [hconfigs]; exact hlisted items),
        redact_same hv hw (.inr ⟨hdiffer, hauth⟩)]
  | @listed items items' hitems hsame =>
    have hobj : v.isObject = true := J.isObject_of_get? hitems
    have hlist : ∀ x ∈ items, x.formed = true := J.formed_arr.1 (J.formed_get? hv hitems)
    have hget : (v.set "configs" (.arr items')).get? "configs" = some (.arr items') := by rw [J.get?_set hobj, if_pos rfl]
    have hlist' : ∀ x ∈ items', x.formed = true := J.formed_arr.1 (J.formed_get? hw hget)
    by_cases hp : p = .create
    · subst hp
      have hcase : redactable v = false ∨ items.any hasSecret = false := by
        by_contra hboth
        rw [not_or, Bool.not_eq_false, Bool.not_eq_false] at hboth
        refine hexposed ?_
        cases v with
        | obj fs =>
          unfold Exposed
          simp only [hitems]
          exact hboth
        | _ => cases hobj
      show (do return J.object [("ok", .bool true), ("config", ← redact (v.set "configs" (.arr items')))]) = _
      -- what cannot be redacted throws whatever the secrets are
      rcases hcase with hfails | hnone
      · have hauth : (v.set "configs" (.arr items')).get? "authentication" = v.get? "authentication" :=
          get?_listed hobj (by decide)
        unfold redactable at hfails
        split at hfails
        · cases hfails
        · rename_i a ha
          rw [redact_unredactable (J.isObject_set hobj) (hauth.trans ha) hfails]
          show _ = (do return J.object [("ok", .bool true), ("config", ← redact v)])
          rw [redact_unredactable hobj ha hfails]
      · obtain rfl := items_eq hsame hlist hlist' hnone
        have hkept : v.set "configs" (.arr items) = v := by
          refine J.ext_get? hw hv (J.isObject_set hobj) hobj fun k => ?_
          rw [J.get?_set hobj]
          split
          · rename_i hk
            rw [← hk, hitems]
          · rfl
        rw [hkept]
        rfl
    · rw [reply_listing hp, reply_listing hp, redactResult_listed hitems, redactResult_listed hget,
        mapM_redact_same hsame hlist hlist']
      cases items.mapM redact with
      | error e => rfl
      | ok redacted =>
        show Except.ok _ = Except.ok _
        rw [set_set hobj]
  | @bare items items' harr hsame =>
    subst harr
    have hnone : items.any hasSecret = false := by simpa [Exposed] using hexposed
    rw [items_eq hsame (J.formed_arr.1 hv) (J.formed_arr.1 hw) hnone]

end Reply

/-! ## Another secret -/

/-- A value that is not the one given. -/
def otherThan (x : Option J) : J := if x = some (.str "a") then .str "b" else .str "a"

/-- The configuration with another value for one of its secrets. -/
def altered (v : J) : J :=
  if v.contains "token" then v.set "token" (otherThan (v.get? "token"))
  else match v.get? "authentication" with
    | some a => v.set "authentication" (a.set "credentials" (otherThan (a.get? "credentials")))
    | none => v

section Altered

variable {v : J}

theorem otherThan_ne {x : Option J} : some (otherThan x) ≠ x := by
  unfold otherThan
  split
  · rename_i h
    rw [h]
    decide
  · rename_i h
    exact Ne.symm h

theorem formed_otherThan (x : Option J) : (otherThan x).formed = true := by
  unfold otherThan
  split <;> decide

theorem isObject_of_secret (h : hasSecret v = true) : v.isObject = true := by
  cases v with
  | obj fs => rfl
  | _ => cases h

theorem altered_same (h : hasSecret v = true) : SameConfig v (altered v) := by
  have hobj := isObject_of_secret h
  unfold altered
  split
  · rename_i htoken
    obtain ⟨x, hx⟩ := Option.isSome_iff_exists.1 htoken
    refine .inr ⟨(differAt_set hobj hx).mono (by simp), .inl ?_⟩
    rw [J.get?_set hobj, if_neg (by decide)]
  · rename_i htoken
    unfold hasSecret at h
    rw [Bool.not_eq_true] at htoken
    rw [htoken, Bool.false_or] at h
    split at h
    · rename_i a ha
      obtain ⟨x, hx⟩ := Option.isSome_iff_exists.1 h
      refine .inr ⟨(differAt_set hobj ha).mono (by simp), .inr ⟨a, _, ha, by rw [J.get?_set hobj, if_pos rfl],
        differAt_set (J.isObject_of_get? hx) hx⟩⟩
    · cases h

theorem altered_ne (h : hasSecret v = true) : altered v ≠ v := by
  have hobj := isObject_of_secret h
  unfold altered
  split
  · intro he
    have hget : (v.set "token" (otherThan (v.get? "token"))).get? "token" = v.get? "token" := by rw [he]
    rw [J.get?_set hobj, if_pos rfl] at hget
    exact otherThan_ne hget
  · rename_i htoken
    unfold hasSecret at h
    rw [Bool.not_eq_true] at htoken
    rw [htoken, Bool.false_or] at h
    split at h
    · rename_i a ha
      obtain ⟨x, hx⟩ := Option.isSome_iff_exists.1 h
      intro he
      have hget := J.get?_set hobj "authentication" "authentication" (a.set "credentials" (otherThan (a.get? "credentials")))
      rw [he, ha, if_pos rfl] at hget
      have hcredentials := J.get?_set (J.isObject_of_get? hx) "credentials" "credentials" (otherThan (a.get? "credentials"))
      rw [← Option.some.inj hget, if_pos rfl] at hcredentials
      exact otherThan_ne hcredentials.symm
    · cases h

theorem formed_altered (hv : v.formed = true) : (altered v).formed = true := by
  unfold altered
  split
  · exact J.formed_set (by decide) (formed_otherThan _) hv
  · split
    · rename_i a ha
      exact J.formed_set (by decide) (J.formed_set (by decide) (formed_otherThan _) (J.formed_get? hv ha)) hv
    · exact hv

/-- Another secret in a configuration that has one. -/
def reset (v : J) : J := if hasSecret v then altered v else v

theorem reset_same (v : J) : SameConfig v (reset v) := by
  unfold reset
  split
  · rename_i h
    exact altered_same h
  · exact .inl rfl

theorem formed_reset (hv : v.formed = true) : (reset v).formed = true := by
  unfold reset
  split
  · exact formed_altered hv
  · exact hv

theorem resetAll_same (items : List J) : List.Forall₂ SameConfig items (items.map reset) := by
  rw [List.forall₂_map_right_iff, List.forall₂_same]
  exact fun v _ => reset_same v

theorem resetAll_ne {items : List J} (h : items.any hasSecret = true) : items.map reset ≠ items := by
  intro he
  obtain ⟨v, hv, hsecret⟩ := List.any_eq_true.1 h
  have hfixed : ∀ x ∈ items, reset x = id x := List.map_inj_left.1 (by rw [he, List.map_id])
  have hkept := hfixed v hv
  unfold reset at hkept
  rw [if_pos hsecret] at hkept
  exact altered_ne hsecret hkept

end Altered

/-! ## What the client reads of a result -/

/-- Two objects that read alike except where push configurations and their secrets stand. -/
structure ReadAlike (v w : J) : Prop where
  left : v.isObject = true
  right : w.isObject = true
  rest : ∀ k, k ∉ [lit "token", "authentication", "configs"] → w.get? k = v.get? k

section Reads

variable {v w : J}

theorem ReadAlike.of_config (h : SameConfig v w) (hne : v ≠ w) : ReadAlike v w := by
  rcases h with rfl | ⟨hdiffer, -⟩
  · exact absurd rfl hne
  · exact ⟨hdiffer.left, hdiffer.right, fun k hk => hdiffer.rest k fun hmem => hk (by simp at hmem ⊢; tauto)⟩

theorem ReadAlike.valueStr (h : ReadAlike v w) {k d : Str} (hk : k ∉ [lit "token", "authentication", "configs"]) :
    w.valueStr k d = v.valueStr k d :=
  J.valueStr_congr h.right h.left (h.rest k hk)

theorem parseTask_alike (h : ReadAlike v w) : parseTask w = parseTask v := by
  unfold parseTask statusAt arrayAt objectAt
  simp only [h.rest _ (show lit "id" ∉ _ by decide), h.rest _ (show lit "status" ∉ _ by decide),
    h.rest _ (show lit "history" ∉ _ by decide), h.rest _ (show lit "artifacts" ∉ _ by decide),
    h.rest _ (show lit "metadata" ∉ _ by decide), h.valueStr (show lit "contextId" ∉ _ by decide)]

theorem parseMessage_alike (h : ReadAlike v w) : parseMessage w = parseMessage v := by
  unfold parseMessage arrayAt objectAt stringsAt arrayAt
  simp only [h.left, h.right, h.rest _ (show lit "parts" ∉ _ by decide),
    h.rest _ (show lit "metadata" ∉ _ by decide), h.rest _ (show lit "referenceTaskIds" ∉ _ by decide),
    h.rest _ (show lit "extensions" ∉ _ by decide), h.valueStr (show lit "messageId" ∉ _ by decide),
    h.valueStr (show lit "role" ∉ _ by decide), h.valueStr (show lit "taskId" ∉ _ by decide),
    h.valueStr (show lit "contextId" ∉ _ by decide), h.valueStr (show lit "timestamp" ∉ _ by decide)]

theorem parseTask_reset (v : J) : parseTask (reset v) = parseTask v := by
  unfold reset
  split
  · rename_i h
    exact parseTask_alike (.of_config (altered_same h) (altered_ne h).symm)
  · rfl

theorem pageFields_alike (h : ReadAlike v w) : pageFields w = pageFields v := by
  have hint : ∀ {k : Str} {d : Int}, k ∉ [lit "token", "authentication", "configs"] → w.valueInt k d = v.valueInt k d := by
    intro k d hk
    show J.value J.asInt w k d = J.value J.asInt v k d
    rw [J.value, J.value, if_pos h.right, if_pos h.left, h.rest k hk]
  unfold pageFields
  rw [h.left, h.right, h.valueStr (show lit "nextPageToken" ∉ _ by decide), hint (show lit "pageSize" ∉ _ by decide),
    hint (show lit "totalSize" ∉ _ by decide)]

end Reads

/-! ## Results that are accepted alike -/

section Accepts

variable {method : Method} {status : Int} {v w : J} {r : A2AResult}

theorem taskList_alike (h : ReadAlike v w) : taskList w = taskList v := by
  have hv := h.left
  have hw := h.right
  cases v with
  | obj fs =>
    cases w with
    | obj gs =>
      have htasks := h.rest "tasks" (by decide)
      unfold taskList
      simp only [htasks]
    | _ => cases hw
  | _ => cases hv

/-- What two results are taken for, read alike. -/
inductive SamePayload : Payload → Payload → Prop
  | tasks (items : List J) : SamePayload (.tasks items) (.tasks items)
  | task {j j' : J} : parseTask j' = parseTask j → SamePayload (.task j) (.task j')
  | message {j j' : J} : looksLikeMessage j' = looksLikeMessage j → parseMessage j' = parseMessage j →
    SamePayload (.message j) (.message j')
  | other : SamePayload .other .other

theorem payload_alike (h : ReadAlike v w) : SamePayload (payload v) (payload w) := by
  have hlooksMessage : looksLikeMessage w = looksLikeMessage v := by
    unfold looksLikeMessage isStringAt isArrayAt
    rw [h.rest _ (by decide), h.rest _ (by decide), h.rest _ (by decide)]
  unfold payload
  rw [taskList_alike h]
  cases taskList v with
  | some items => exact .tasks items
  | none =>
    dsimp only
    unfold isObjectAt looksLikeTask isStringAt isObjectAt
    rw [h.rest "task" (by decide), h.rest "message" (by decide), h.rest "id" (by decide), h.rest "status" (by decide),
      hlooksMessage]
    split
    · exact .task rfl
    split
    · exact .message rfl rfl
    split
    · exact .task (parseTask_alike h)
    split
    · exact .message hlooksMessage (parseMessage_alike h)
    · exact .other

/-- The client takes them for the same, but for the value it hands on. -/
theorem classifyResult_alike (h : ReadAlike v w) :
    classifyResult method status w = (classifyResult method status v).map fun r => { r with value := w } := by
  have hpage := pageFields_alike h
  have hpayload := payload_alike h
  unfold classifyResult
  generalize payload v = pv at hpayload
  generalize payload w = pw at hpayload
  cases hpayload with
  | tasks items =>
    dsimp only
    rw [hpage]
    cases items.mapM parseTask with
    | error e => rfl
    | ok tasks =>
      cases pageFields v with
      | error e => rfl
      | ok page => rfl
  | @task j j' hparse =>
    dsimp only
    rw [hparse]
    rcases parseTask j with e | _ | task
    · rfl
    · rfl
    · show Except.ok _ = Except.ok _
      unfold taskOutcome
      dsimp only
      split <;> rfl
  | @message j j' hlooks hparse =>
    dsimp only
    rw [hlooks, hparse]
    split
    · rfl
    · cases parseMessage j <;> rfl
  | other =>
    dsimp only
    split <;> rfl

/-- The items of a bare array are read alike with another secret. -/
theorem classifyResult_reset (items : List J) : classifyResult method status (.arr (items.map reset)) =
    (classifyResult method status (.arr items)).map fun r => { r with value := .arr (items.map reset) } := by
  have hsame : (items.map reset).mapM parseTask = items.mapM parseTask := by
    rw [List.mapM_map]
    exact congrArg (fun f => items.mapM f) (funext parseTask_reset)
  unfold classifyResult
  show (do
    let tasks ← (items.map reset).mapM parseTask
    let page ← pageFields (.arr (items.map reset))
    return ({
      httpStatus := status, value := .arr (items.map reset), ok := true, tasks := tasks.reduceOption
      nextPageToken := page.1, pageSize := page.2.1, totalSize := page.2.2 } : A2AResult)) = _
  rw [hsame]
  show _ = Except.map _ (do
    let tasks ← items.mapM parseTask
    let page ← pageFields (.arr items)
    return ({
      httpStatus := status, value := .arr items, ok := true, tasks := tasks.reduceOption
      nextPageToken := page.1, pageSize := page.2.1, totalSize := page.2.2 } : A2AResult))
  cases items.mapM parseTask <;> rfl

end Accepts

/-! ## The exposed secrets -/

section Law

variable {p : PushOp} {r : A2AResult}

/-- The result with another value is answered too. -/
theorem PushOp.Answers.with_value (h : p.Answers r) {w : J} (hw : w.formed = true)
    (hsame : ∀ status, classifyResult p.method status w =
      (classifyResult p.method status r.value).map fun r => { r with value := w }) :
    p.Answers { r with value := w } := by
  obtain ⟨status, hr⟩ := h.classified
  refine ⟨h.ok, hw, status, ?_⟩
  rw [hsame, hr]
  rfl

theorem conclude_inj {r' : A2AResult} (hok : r.ok = true) (hok' : r'.ok = true) (h : p.conclude r' = p.conclude r) :
    p.reply r'.value = p.reply r.value := by
  rw [conclude_reply hok, conclude_reply hok'] at h
  have hrun := congrFun h ({} : World)
  change Tx.lift (p.reply r'.value) _ = Tx.lift (p.reply r.value) _ at hrun
  unfold Tx.lift at hrun
  split at hrun <;> split at hrun <;> simp_all

/-- What a push operation makes of its call is an answer, once the call is accepted. -/
theorem answers_of_call {E : Env} {endpoint : Str} {auth : AuthSpec} {params : J} {s s' : World}
    (h : rpcCall E endpoint auth p.method params s = .ok r s') (hok : r.ok = true) (hformed : r.value.formed = true) :
    p.Answers r := by
  obtain ⟨x, w, -, h⟩ := Tx.bind_ok.1 h
  have hclassified := (Tx.lift_ok.1 h).1
  unfold Exchange.classify classify at hclassified
  obtain ⟨screened, hscreen, hresult⟩ := Tx.except_bind_ok hclassified
  cases screened with
  | inl failure =>
    cases hresult
    rw [screen_refusal hscreen] at hok
    cases hok
  | inr result =>
    refine ⟨hok, hformed, x.response.status, ?_⟩
    rw [classifyResult_value hresult]
    exact hresult

/-- What is shown of a result. -/
def PushOp.shown (p : PushOp) (v : J) : Except Exception J := if p = create then redact v else redactResult v

theorem reply_inj {v w x y : J} (hx : p.shown v = .ok x) (hy : p.shown w = .ok y) (h : p.reply w = p.reply v) : y = x := by
  unfold PushOp.shown at hx hy
  by_cases hp : p = .create
  · subst hp
    rw [if_pos rfl] at hx hy
    unfold PushOp.reply at h
    simp only [hx, hy] at h
    have hget := congrArg (fun e : Except Exception J => e.toOption.bind fun j => j.get? "config") h
    exact Option.some.inj hget
  · rw [if_neg hp] at hx hy
    rw [reply_listing hp, reply_listing hp, hx, hy] at h
    have hget := congrArg (fun e : Except Exception J => e.toOption.bind fun j => j.get? "result") h
    exact Option.some.inj hget

theorem shown_array (items : List J) : p.shown (.arr items) = .ok (.arr items) := by
  unfold PushOp.shown
  split <;> rfl

/-- An exposed secret is told: another one gives another reply. -/
theorem exposed_told (hr : p.Answers r) (h : Exposed p r.value) :
    ∃ r', p.Answers r' ∧ SameConfigs r.value r'.value ∧ p.conclude r' ≠ p.conclude r := by
  have hformed := hr.formed
  cases hv : r.value with
  | arr items =>
    rw [hv] at h hformed
    -- a bare array is handed on as it is
    have hitems : ∀ x ∈ items, x.formed = true := J.formed_arr.1 hformed
    have hanswers : p.Answers { r with value := .arr (items.map reset) } := by
      refine hr.with_value (J.formed_arr.2 fun x hx => ?_) fun status => by rw [hv]; exact classifyResult_reset items
      obtain ⟨y, hy, rfl⟩ := List.mem_map.1 hx
      exact formed_reset (hitems y hy)
    refine ⟨_, hanswers, .bare rfl (resetAll_same items), fun he => ?_⟩
    have hreply := conclude_inj hr.ok hanswers.ok he
    rw [hv] at hreply
    injection reply_inj (shown_array items) (shown_array _) hreply with hsame
    exact resetAll_ne h hsame
  | obj fs =>
    rw [← hv]
    have hobj : r.value.isObject = true := by rw [hv]; rfl
    have hexposed : ∃ items, r.value.get? "configs" = some (.arr items) ∧
        if p = .create then redactable r.value = true ∧ items.any hasSecret = true
        else hasSecret r.value = true ∧ items.all redactable = true := by
      rw [hv] at h
      unfold Exposed at h
      dsimp only at h
      split at h
      · rename_i items hitems
        exact ⟨items, by rw [hv]; exact hitems, by rw [hv]; exact h⟩
      · exact h.elim
    obtain ⟨items, hitems, hcase⟩ := hexposed
    by_cases hp : p = .create
    · rw [if_pos hp] at hcase
      obtain ⟨hredactable, hsecret⟩ := hcase
      -- the list is handed on as it is
      have hlist : ∀ x ∈ items, x.formed = true := J.formed_arr.1 (J.formed_get? hformed hitems)
      have hother : ∀ k : Str, k ≠ "configs" → (r.value.set "configs" (.arr (items.map reset))).get? k = r.value.get? k :=
        fun k hk => get?_listed hobj hk
      have hw : (r.value.set "configs" (.arr (items.map reset))).formed = true := by
        refine J.formed_set (by decide) (J.formed_arr.2 fun x hx => ?_) hformed
        obtain ⟨y, hy, rfl⟩ := List.mem_map.1 hx
        exact formed_reset (hlist y hy)
      have hanswers := hr.with_value hw fun status => classifyResult_alike
        ⟨hobj, J.isObject_set hobj, fun k hk => hother k fun he => hk (by simp [he])⟩
      refine ⟨_, hanswers, .listed hitems (resetAll_same items), fun he => ?_⟩
      have hreply := conclude_inj hr.ok hanswers.ok he
      have hredactable' : redactable (r.value.set "configs" (.arr (items.map reset))) = true := by
        unfold redactable
        rw [hother _ (by decide)]
        exact hredactable
      have hstripped := reply_inj (x := stripped r.value) (y := stripped (r.value.set "configs" (.arr (items.map reset))))
        (by unfold PushOp.shown; rw [if_pos hp]; exact redact_redactable hobj hredactable)
        (by unfold PushOp.shown; rw [if_pos hp]; exact redact_redactable (J.isObject_set hobj) hredactable') hreply
      have hget := congrArg (fun j : J => j.get? "configs") hstripped
      rw [get?_stripped (J.isObject_set hobj), get?_stripped hobj, if_neg (by decide), if_neg (by decide),
        J.get?_set hobj, if_pos rfl, if_neg (by decide), if_neg (by decide), hitems] at hget
      injection hget with hget
      injection hget with hsame
      exact resetAll_ne hsecret hsame
    · rw [if_neg hp] at hcase
      -- only the list is redacted, and the object around it handed on
      obtain ⟨hsecret, hredactable⟩ := hcase
      have hsame := altered_same hsecret
      have hne := altered_ne hsecret
      have halike := ReadAlike.of_config hsame hne.symm
      have hconfigs : (altered r.value).get? "configs" = some (.arr items) := by
        rcases hsame with he | ⟨hdiffer, -⟩
        · exact absurd he.symm hne
        · rw [hdiffer.rest _ (by decide), hitems]
      have hanswers := hr.with_value (formed_altered hformed) fun status => classifyResult_alike halike
      refine ⟨_, hanswers, .single hsame, fun he => ?_⟩
      have hreply := conclude_inj hr.ok hanswers.ok he
      have hshown : ∀ {v : J}, v.get? "configs" = some (.arr items) →
          p.shown v = .ok (v.set "configs" (.arr (items.map redacted))) := by
        intro v hv
        unfold PushOp.shown
        rw [if_neg hp, redactResult_listed hv, mapM_redact hredactable]
        rfl
      have hset := reply_inj (hshown hitems) (hshown hconfigs) hreply
      refine hne (J.ext_get? (formed_altered hformed) hformed halike.right hobj fun k => ?_)
      by_cases hk : k = "configs"
      · rw [hk, hconfigs, hitems]
      · have hget := congrArg (fun j : J => j.get? k) hset
        rwa [get?_listed halike.right hk, get?_listed hobj hk] at hget
  | _ =>
    rw [hv] at h
    exact h.elim

/-- **Which push secrets reach the client.** The reply to a push operation tells nothing of the secrets in
the configurations of an accepted result exactly where none of them is exposed. -/
theorem push_secrets_kept (p : PushOp) {r : A2AResult} (hr : p.Answers r) :
    (∀ r', p.Answers r' → SameConfigs r.value r'.value → p.conclude r' = p.conclude r) ↔ ¬ Exposed p r.value := by
  constructor
  · intro hkept hexposed
    obtain ⟨r', hr', hsame, hne⟩ := exposed_told hr hexposed
    exact hne (hkept r' hr' hsame)
  · intro hexposed r' hr' hsame
    rw [conclude_reply hr.ok, conclude_reply hr'.ok, reply_same hr.formed hr'.formed hsame hexposed]

end Law

/-! ## Two lists -/

def config (secret : Str) : J := .object [("id", .str "c-1"), ("token", .str secret)]

/-- What `push.list` makes of a successful answer. -/
def listResult (value : J) : A2AResult := (classifyResult PushOp.list.method 200 value).toOption.getD {}

theorem listResult_answers {value : J} (hformed : value.formed = true) (hvalue : (listResult value).value = value)
    (hok : (listResult value).ok = true) : PushOp.list.Answers (listResult value) := by
  refine ⟨hok, by rwa [hvalue], 200, ?_⟩
  rw [hvalue]
  unfold listResult at hok ⊢
  cases hresult : classifyResult PushOp.list.method 200 value with
  | ok r => rfl
  | error e =>
    rw [hresult] at hok
    cases hok

/-- A bare array of configurations is handed on with their tokens. -/
theorem bare_configs_told : ¬ ∀ (p : PushOp) (r r' : A2AResult), p.Answers r → p.Answers r' →
    SameConfigs r.value r'.value → p.conclude r' = p.conclude r := by
  intro hkept
  have hfirst : PushOp.list.Answers (listResult (.arr [config "red"])) :=
    listResult_answers (by decide +kernel) (by decide +kernel) (by decide +kernel)
  have hsecond : PushOp.list.Answers (listResult (.arr [config "blue"])) :=
    listResult_answers (by decide +kernel) (by decide +kernel) (by decide +kernel)
  have hvalue : ∀ secret : Str, config secret = (config "red").set "token" (.str secret) := fun _ => rfl
  have hsame : SameConfig (config "red") (config "blue") := by
    refine .inr ⟨?_, .inl rfl⟩
    rw [hvalue "blue"]
    exact (differAt_set (x := .str "red") rfl rfl).mono (by simp)
  have heq := hkept .list _ _ hfirst hsecond
    (@SameConfigs.bare _ [config "red"] [config "blue"] (by decide +kernel) (.cons hsame .nil))
  have hreply := conclude_inj hfirst.ok hsecond.ok heq
  exact absurd (congrArg Except.toOption hreply) (by decide +kernel)

/-- A list under `configs` is handed on without them. -/
theorem push_secrets_kept_listed : PushOp.list.reply (.object [("configs", .arr [config "red"])]) =
      .ok (.object [("ok", .bool true), ("result", .object [("configs", .arr [.object [("id", .str "c-1")]])])]) ∧
    ∀ r', PushOp.list.Answers r' → SameConfigs (listResult (.object [("configs", .arr [config "red"])])).value r'.value →
      PushOp.list.conclude r' = PushOp.list.conclude (listResult (.object [("configs", .arr [config "red"])])) := by
  have hanswers : PushOp.list.Answers (listResult (.object [("configs", .arr [config "red"])])) :=
    listResult_answers (by decide +kernel) (by decide +kernel) (by decide +kernel)
  refine ⟨rfl, (push_secrets_kept .list hanswers).2 ?_⟩
  rw [show (listResult (.object [("configs", .arr [config "red"])])).value = .object [("configs", .arr [config "red"])]
    by decide +kernel]
  rintro ⟨hsecret, -⟩
  exact absurd hsecret (by decide)

end A2ad.Ipc
