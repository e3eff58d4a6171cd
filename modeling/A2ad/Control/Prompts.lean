/-
Prompts stay out of the control plane: a run and the run with its message texts renamed, on the same
readings of the clock, draws and outcomes of the dispatch, answer alike and leave the same records
and the same log behind, but for the hashes of requests and of the log.
-/
import A2ad.Control.Abreast

namespace A2ad.Control

open Bytes Json

variable {E : Env} {R : Str → Str → Prop} {ρ : Text → Text} {s t s' t' : Sys} {l l' : Label}
  {tr tr' : List (Move Sys Label)}

/-! ## Two runs -/

/-- What the two labels take from outside is the same, but for the messages of requests. -/
inductive SameInputs (ρ : Text → Text) : Label → Label → Prop
  | enter (req : J) (entry entry' : Entry) : SameInputs ρ (.enter req entry) (.enter (renamed ρ req) entry')
  | start (request : J) : SameInputs ρ (.start request) (.start (renamed ρ request))
  | leave (request reply reply' : J) (outcome : Except Exception J) :
    SameInputs ρ (.leave request outcome reply) (.leave (renamed ρ request) outcome reply')
  | throws (request : J) : SameInputs ρ (.throws request) (.throws (renamed ρ request))
  | event (value : J) : SameInputs ρ (.event value) (.event value)
  | boot (enforce : Bool) : SameInputs ρ (.boot enforce) (.boot enforce)
  | crash : SameInputs ρ .crash .crash

/-- The step again with renamed messages, after the same readings of the clock and the same draws. -/
structure Replays (ρ : Text → Text) (m m' : Move Sys Label) : Prop where
  inputs : SameInputs ρ m.label m'.label
  tick : m.post.st.tick = m'.post.st.tick
  nonce : m.post.st.nonce = m'.post.st.nonce

/-- What the two labels give to the clients matches; only `enter` and `leave` give a reply. -/
inductive SameReplies (E : Env) (R : Str → Str → Prop) (ρ : Text → Text) : Label → Label → Prop
  | enter {req : J} {entry entry' : Entry} : EntryMatches E R ρ entry entry' →
    SameReplies E R ρ (.enter req entry) (.enter (renamed ρ req) entry')
  | leave (request reply : J) (outcome : Except Exception J) :
    SameReplies E R ρ (.leave request outcome reply) (.leave (renamed ρ request) outcome reply)
  | start (request : J) : SameReplies E R ρ (.start request) (.start (renamed ρ request))
  | throws (request : J) : SameReplies E R ρ (.throws request) (.throws (renamed ρ request))
  | event (value : J) : SameReplies E R ρ (.event value) (.event value)
  | boot (enforce : Bool) : SameReplies E R ρ (.boot enforce) (.boot enforce)
  | crash : SameReplies E R ρ .crash .crash

/-- The exceptions a call for the request can end with in this state, failures of SQLite apart. -/
def Throws (E : Env) (s : Sys) (req : J) (e : Exception) : Prop :=
  (∃ t, enter E s.enforce req s.st = .error e t) ∨ ∃ outcome t, leave E req outcome s.st = .error e t

structure SameOutputs (E : Env) (R : Str → Str → Prop) (ρ : Text → Text) (m m' : Move Sys Label) : Prop where
  replies : SameReplies E R ρ m.label m'.label
  thrown : ∀ req e, m.label = .throws req → (Throws E m.pre req e ↔ Throws E m'.pre (renamed ρ req) e)

/-- The same records under the same ids and the same events, but for the hashes. -/
structure StoreMatches (E : Env) (R : Str → Str → Prop) (db db' : Db) : Prop where
  records : ∀ kind, List.Forall₂ (fun row row' => row.1 = row'.1 ∧ Matches E R row.2 row'.2) (db.rows kind) (db'.rows kind)
  events : List.Forall₂ (fun e e' => e.time = e'.time ∧ Matches E R e.value e'.value) db.events db'.events

theorem DbTwin.matches {db db' : Db} (h : DbTwin E R db db') : StoreMatches E R db db' := by
  refine ⟨fun kind => (h.rows kind).imp fun _ _ hrow => ⟨hrow.1, hrow.2.sameBut⟩, h.events.imp fun e e' he => ⟨he.time, ?_⟩⟩
  rcases he.value with hv | hv
  · rw [hv]
    exact .same _
  · exact twin_sameBut hv

/-! ## A step -/

structure Abreast (E : Env) (R : Str → Str → Prop) (s s' : Sys) : Prop where
  st : Twins E R s.st s'.st
  up : s.up = s'.up
  enforce : s.enforce = s'.enforce

/-- Calls in flight: one request and the same request renamed. -/
def FlightTwin (ρ : Text → Text) (f f' : Flight) : Prop := f' = ⟨renamed ρ f.request, f.started⟩

/-- A throw, and a failure of SQLite, leave the store as it is. -/
theorem Step.throws_still {req : J} (h : Step E s (.throws req) t) : Still s.st t.st ∧ t.up = s.up ∧ t.enforce = s.enforce := by
  cases h with
  | enterThrows _ h => exact ⟨enter_error h, rfl, rfl⟩
  | enterFails _ h => exact ⟨h, rfl, rfl⟩
  | leaveThrows _ h => exact ⟨leave_error h, rfl, rfl⟩
  | leaveFails _ h => exact ⟨h, rfl, rfl⟩

theorem Twins.still {u u' v v' : St} (h : Twins E R u u') (hv : Still u v) (hv' : Still u' v') (htick : v.tick = v'.tick)
    (hnonce : v.nonce = v'.nonce) : Twins E R v v' := by
  refine ⟨?_, htick, hnonce⟩
  rw [hv.db, hv'.db]
  exact h.db

/-- The hashes of the request and of the request renamed are paired. -/
def Hashed (E : Env) (R : Str → Str → Prop) (ρ : Text → Text) (req : J) : Prop :=
  ∀ x x', (canonical req).dump = .ok x → (canonical (renamed ρ req)).dump = .ok x' → R (E.digest x) (E.digest x')

section Step

variable [Pairing R]

theorem Abreast.throws {req : J} (hs : Abreast E R s s') (hreq : Hashed E R ρ req) (e : Exception) :
    Throws E s req e ↔ Throws E s' (renamed ρ req) e := by
  have henter : Tx.Agree (Twins E R) (EntryMatches E R ρ) (enter E s.enforce req) (enter E s.enforce (renamed ρ req)) :=
    agree_enter hreq
  have hleave : ∀ outcome, Tx.Agree (Twins E R) Eq (leave E req outcome) (leave E (renamed ρ req) outcome) :=
    fun _ => agree_leave
  unfold Throws
  rw [← hs.enforce]
  refine or_congr ⟨?_, ?_⟩ (exists_congr fun outcome => ⟨?_, ?_⟩)
  · rintro ⟨v, h⟩
    obtain ⟨v', h', -⟩ := henter.error hs.st h
    exact ⟨v', h'⟩
  · rintro ⟨v, h⟩
    obtain ⟨v', h', -⟩ := henter.flip.error hs.st h
    exact ⟨v', h'⟩
  · rintro ⟨v, h⟩
    obtain ⟨v', h', -⟩ := (hleave outcome).error hs.st h
    exact ⟨v', h'⟩
  · rintro ⟨v, h⟩
    obtain ⟨v', h', -⟩ := (hleave outcome).flip.error hs.st h
    exact ⟨v', h'⟩

/-- Two steps on the same inputs answer alike. -/
theorem Abreast.step (hs : Abreast E R s s') (hq : ∀ req, l.request = some req → Hashed E R ρ req) (h : Step E s l t)
    (h' : Step E s' l' t') (hr : Replays ρ ⟨s, l, t⟩ ⟨s', l', t'⟩) :
    SameOutputs E R ρ ⟨s, l, t⟩ ⟨s', l', t'⟩ ∧ Abreast E R t t' := by
  obtain ⟨hinputs, htick, hnonce⟩ := hr
  dsimp only at hinputs htick hnonce
  have hthrown : ∀ req e, l = .throws req → (Throws E s req e ↔ Throws E s' (renamed ρ req) e) := by
    rintro req e rfl
    exact hs.throws (hq req rfl) e
  cases hinputs with
  | enter req entry entry' =>
    cases h with
    | enter hup h =>
      cases h' with
      | enter hup' h' =>
        obtain ⟨entry₂, v, hv, hentry, ht⟩ := (agree_enter (hq req rfl)).ok hs.st h
        rw [← hs.enforce, hv] at h'
        cases h'
        exact ⟨⟨.enter hentry, hthrown⟩, ht, hs.up, hs.enforce⟩
  | start request =>
    cases h with
    | start hf =>
      cases h' with
      | start hf' => exact ⟨⟨.start request, hthrown⟩, hs.st, hs.up, hs.enforce⟩
  | leave request reply reply' outcome =>
    cases h with
    | leave hf h =>
      cases h' with
      | leave hf' h' =>
        obtain ⟨reply₂, v, hv, rfl, ht⟩ := agree_leave.ok hs.st h
        rw [hv] at h'
        cases h'
        exact ⟨⟨.leave request reply outcome, hthrown⟩, ht, hs.up, hs.enforce⟩
  | throws request =>
    -- a request that throws leaves both states as they are
    obtain ⟨hstill, hup, henforce⟩ := h.throws_still
    obtain ⟨hstill', hup', henforce'⟩ := h'.throws_still
    refine ⟨⟨.throws request, hthrown⟩, hs.st.still hstill hstill' htick hnonce, ?_, ?_⟩
    · rw [hup, hup', hs.up]
    · rw [henforce, henforce', hs.enforce]
  | event value =>
    cases h with
    | event hup h =>
      cases h' with
      | event hup' h' =>
        obtain ⟨u, v, hv, -, ht⟩ := (agree_transaction (Tx.blind (append E value))).ok hs.st h
        rw [hv] at h'
        cases h'
        exact ⟨⟨.event value, hthrown⟩, ht, hs.up, hs.enforce⟩
  | boot enforce =>
    cases h with
    | boot hup h =>
      cases h' with
      | boot hup' h' =>
        obtain ⟨u, v, hv, -, ht⟩ := agree_startup.ok hs.st h
        rw [hv] at h'
        cases h'
        exact ⟨⟨.boot enforce, hthrown⟩, ht, rfl, rfl⟩
  | crash =>
    cases h with
    | crash =>
      cases h' with
      | crash => exact ⟨⟨.crash, hthrown⟩, hs.st, rfl, hs.enforce⟩

/-- A step is matched by one with the message of its request renamed. -/
theorem Abreast.replay (hs : Abreast E R s s') (hf : List.Forall₂ (FlightTwin ρ) s.flights s'.flights)
    (hq : ∀ req, l.request = some req → Hashed E R ρ req) (h : Step E s l t) :
    ∃ l' t', Step E s' l' t' ∧ Replays ρ ⟨s, l, t⟩ ⟨s', l', t'⟩ ∧ List.Forall₂ (FlightTwin ρ) t.flights t'.flights := by
  cases h with
  | @enter req entry v hup h =>
    obtain ⟨entry', v', hv, hentry, ht⟩ := (agree_enter (hq req rfl)).ok hs.st h
    rw [hs.enforce] at hv
    refine ⟨_, _, .enter (hs.up ▸ hup) hv, ⟨.enter req entry entry', ht.tick, ht.nonce⟩, List.rel_append hf ?_⟩
    cases hentry with
    | admitted request => exact .cons rfl .nil
    | _ => exact .nil
  | @enterThrows req e v hup h =>
    obtain ⟨v', hv, ht⟩ := (agree_enter (hq req rfl)).error hs.st h
    rw [hs.enforce] at hv
    exact ⟨_, _, .enterThrows (hs.up ▸ hup) hv, ⟨.throws req, ht.tick, ht.nonce⟩, hf⟩
  | @enterFails req v hup h =>
    refine ⟨.throws (renamed ρ req), { s' with st := ⟨s'.st.db, v.tick, v.nonce⟩ }, .enterFails (hs.up ▸ hup) ⟨rfl, ?_, ?_⟩,
      ⟨.throws req, rfl, rfl⟩, hf⟩
    · exact hs.st.tick ▸ h.tick
    · exact hs.st.nonce ▸ h.nonce
  | @start request a b hflights =>
    rw [hflights] at hf
    obtain ⟨a', f', b', hflights', ha, rfl, hb⟩ := matched_around hf
    exact ⟨_, _, .start hflights', ⟨.start request, hs.st.tick, hs.st.nonce⟩, List.rel_append ha (.cons rfl hb)⟩
  | @leave request reply outcome a b v hflights h =>
    rw [hflights] at hf
    obtain ⟨a', f', b', hflights', ha, rfl, hb⟩ := matched_around hf
    obtain ⟨reply', v', hv, -, ht⟩ := agree_leave.ok hs.st h
    exact ⟨_, _, .leave hflights' hv, ⟨.leave request reply reply' outcome, ht.tick, ht.nonce⟩, List.rel_append ha hb⟩
  | @leaveThrows request outcome a b e v hflights h =>
    rw [hflights] at hf
    obtain ⟨a', f', b', hflights', ha, rfl, hb⟩ := matched_around hf
    obtain ⟨v', hv, ht⟩ := agree_leave.error hs.st h
    exact ⟨_, _, .leaveThrows hflights' hv, ⟨.throws request, ht.tick, ht.nonce⟩, List.rel_append ha hb⟩
  | @leaveFails request a b v hflights h =>
    rw [hflights] at hf
    obtain ⟨a', f', b', hflights', ha, rfl, hb⟩ := matched_around hf
    refine ⟨.throws (renamed ρ request), { s' with st := ⟨s'.st.db, v.tick, v.nonce⟩, flights := a' ++ b' },
      .leaveFails hflights' ⟨rfl, ?_, ?_⟩, ⟨.throws request, rfl, rfl⟩, List.rel_append ha hb⟩
    · exact hs.st.tick ▸ h.tick
    · exact hs.st.nonce ▸ h.nonce
  | @event value u v hup h =>
    obtain ⟨u', v', hv, -, ht⟩ := (agree_transaction (Tx.blind (append E value))).ok hs.st h
    exact ⟨_, _, .event (hs.up ▸ hup) hv, ⟨.event value, ht.tick, ht.nonce⟩, hf⟩
  | @boot enforce u v hup h =>
    obtain ⟨u', v', hv, -, ht⟩ := agree_startup.ok hs.st h
    exact ⟨_, _, .boot (hs.up ▸ hup) hv, ⟨.boot enforce, ht.tick, ht.nonce⟩, .nil⟩
  | crash => exact ⟨_, _, .crash, ⟨.crash, hs.st.tick, hs.st.nonce⟩, .nil⟩

end Step

/-! ## Runs -/

/-- The requests of a run. -/
def requests (tr : List (Move Sys Label)) : Set J := {req | ∃ m ∈ tr, m.label.request = some req}

theorem requests_append : requests tr ⊆ requests (tr ++ tr') := by
  rintro req ⟨m, hm, hreq⟩
  exact ⟨m, List.mem_append_left _ hm, hreq⟩

theorem hashed_of_mem {Q : Set J} {req : J} (h : req ∈ Q) : Hashed E (HashPair E ρ Q) ρ req :=
  fun x x' hx hx' => ⟨req, h, x, x', hx, hx', rfl, rfl⟩

theorem hashed_last {Q : Set J} (h : requests (tr ++ [⟨s, l, t⟩]) ⊆ Q) (req : J) (hreq : l.request = some req) :
    Hashed E (HashPair E ρ Q) ρ req :=
  hashed_of_mem (h ⟨_, List.mem_append_right _ (List.mem_singleton_self _), hreq⟩)

theorem abreast_init (hsha : ∀ text, IsSha (E.digest text)) : Abreast E R Sys.init Sys.init := by
  have hintact : Intact E Sys.init.st.db := ⟨⟨[], rfl⟩, fun _ he => absurd he List.not_mem_nil⟩
  exact ⟨⟨⟨.nil, .nil, hsha, hintact, hintact⟩, rfl, rfl⟩, rfl, rfl⟩

section Runs

variable {Q : Set J} [Pairing (HashPair E ρ Q)]

/-- Two runs on the same inputs answer alike, step by step. -/
theorem replays_match (hsha : ∀ text, IsSha (E.digest text)) (h : Run (Step E) Sys.init tr s) (hQ : requests tr ⊆ Q)
    (h' : Run (Step E) Sys.init tr' s') (hr : List.Forall₂ (Replays ρ) tr tr') :
    List.Forall₂ (SameOutputs E (HashPair E ρ Q) ρ) tr tr' ∧ Abreast E (HashPair E ρ Q) s s' := by
  induction h generalizing tr' s' with
  | nil =>
    obtain rfl := List.forall₂_nil_left_iff.1 hr
    obtain rfl := h'.eq_of_nil
    exact ⟨.nil, abreast_init hsha⟩
  | @snoc tr s t l hrun hstep ih =>
    obtain ⟨before, m, _, rfl, hbefore, hm, hnone⟩ := matched_around hr
    obtain rfl := List.forall₂_nil_left_iff.1 hnone
    obtain ⟨hrun', hstep', hend⟩ := h'.split
    obtain rfl := hend.eq_of_nil
    obtain ⟨houtputs, habreast⟩ := ih (requests_append.trans hQ) hrun' hbefore
    obtain ⟨hout, hab⟩ := habreast.step (hashed_last hQ) hstep hstep' hm
    exact ⟨List.rel_append houtputs (.cons hout .nil), hab⟩

/-- The run with renamed messages. -/
theorem replays_exist (hsha : ∀ text, IsSha (E.digest text)) (h : Run (Step E) Sys.init tr s) (hQ : requests tr ⊆ Q) :
    ∃ tr' s', Run (Step E) Sys.init tr' s' ∧ List.Forall₂ (Replays ρ) tr tr' ∧
      List.Forall₂ (FlightTwin ρ) s.flights s'.flights := by
  induction h with
  | nil => exact ⟨[], Sys.init, .nil, .nil, .nil⟩
  | @snoc tr s t l hrun hstep ih =>
    have hQ' : requests tr ⊆ Q := requests_append.trans hQ
    obtain ⟨tr', s', hrun', hreplays, hflights⟩ := ih hQ'
    have habreast := (replays_match hsha hrun hQ' hrun' hreplays).2
    obtain ⟨l', t', hstep', hm, hf⟩ := habreast.replay hflights (hashed_last hQ) hstep
    exact ⟨_, t', hrun'.snoc hstep', List.rel_append hreplays (.cons hm .nil), hf⟩

end Runs

/-- **Prompts stay out of the control plane.** Every run has a run with its messages renamed on the
same inputs, and every such run gives the same replies, records and events, but for the hashes of
requests and of the log. -/
theorem prompts_confined (E : Env) (hsha : ∀ text, IsSha (E.digest text)) {ρ : Text → Text} (hρ : Function.Injective ρ)
    {tr : List (Move Sys Label)} {s : Sys} (h : Run (Step E) Sys.init tr s)
    (hE : Set.InjOn E.digest (contents ρ (requests tr))) :
    (∃ tr' s', Run (Step E) Sys.init tr' s' ∧ List.Forall₂ (Replays ρ) tr tr') ∧
    ∀ {tr' : List (Move Sys Label)} {s' : Sys}, Run (Step E) Sys.init tr' s' → List.Forall₂ (Replays ρ) tr tr' →
      List.Forall₂ (SameOutputs E (HashPair E ρ (requests tr)) ρ) tr tr' ∧
        StoreMatches E (HashPair E ρ (requests tr)) s.st.db s'.st.db := by
  have hpairing := pairing_hashPair hsha hρ hE
  refine ⟨?_, fun h' hr => ?_⟩
  · obtain ⟨tr', s', hrun, hreplays, -⟩ : ∃ tr' s', Run (Step E) Sys.init tr' s' ∧ List.Forall₂ (Replays ρ) tr tr' ∧
      List.Forall₂ (FlightTwin ρ) s.flights s'.flights := replays_exist hsha h subset_rfl
    exact ⟨tr', s', hrun, hreplays⟩
  · obtain ⟨houtputs, habreast⟩ := replays_match hsha h subset_rfl h' hr
    exact ⟨houtputs, habreast.st.db.matches⟩

/-! ## A run -/

/-- Every text with an exclamation mark before it. -/
def louder (m : Text) : Text := ⟨33 :: m.1, by rw [Utf8.valid_cons_ascii (by decide), m.2]⟩

theorem louder_injective : Function.Injective louder := by
  intro m m' h
  exact Subtype.ext (List.cons.inj (Subtype.mk.inj h)).2

def promptRequest : J := sampleSubmit "p" []

/-- The start of the execution as it is logged, with the digest of its request. -/
def promptStarted (hash : Str) : J := .object [("type", .str "execution.started"), ("execution_id", .str "p"), ("agent", .str ""),
  ("session_id", .str ""), ("request_sha256", .str hash), ("effects", .arr [.str "EXECUTE_REMOTE"]),
  ("identity_chain", .arr [.object [("agent", .str ""), ("execution_id", .str "p")]])]

def promptFinished : J := .object [("type", .str "execution.finished"), ("execution_id", .str "p"),
  ("state", .str "DELIVERED"), ("task_id", .str "")]

def promptHash : Str := "eb40891cde939604b33b32b5505c29e3f5e6d9d056d5059a6e9d06e3af0f9f56"

def louderHash : Str := "5af717a7f1b9b01512f816e52ea163f4563817edaf6b015532db4afa72832038"

def promptStartedHash : Str := "e17f7767b74dddb965747107ebd0657cf717c0174c2d95a5aad92f077a523c45"

def louderStartedHash : Str := "679529c5597b9dc5ae76f589b02110eca300de25a962ce805022b80ab9dd7bc2"

/-- The digests of what is hashed in the run and in the run with its message renamed. -/
def promptDigests : List (Str × Str) := [
  ((canonical promptRequest).text, promptHash),
  ((canonical (renamed louder promptRequest)).text, louderHash),
  (hashedText "" (2, (promptStarted promptHash).text), promptStartedHash),
  (hashedText "" (2, (promptStarted louderHash).text), louderStartedHash),
  (hashedText promptStartedHash (4, promptFinished.text), "f6e8a3c882928d3a3bbba4f22c220be7e581387fc8b4e2453eace1b972ee3835"),
  (hashedText louderStartedHash (4, promptFinished.text), "dac3af509f636bca4cb7c88512ea99374373a143637610f2b74620d5cae1cf3c")]

def promptEnv : Env := { sampleEnv with digest := digestAmong promptDigests }

def promptStart : Sys := { Sys.init with up := true }

/-- A request that is admitted, dispatched and answered. -/
def promptMoves : List (Move Sys Label) :=
  ⟨Sys.init, .boot false, promptStart⟩ :: callMoves promptEnv promptRequest (.ok (.object [("ok", .bool true)])) promptStart

set_option maxRecDepth 10000 in
theorem prompt_run : Run (Step promptEnv) Sys.init promptMoves (lastState promptMoves) :=
  .cons rfl (.boot rfl rfl) (callMoves_run rfl rfl)

set_option maxRecDepth 10000 in
theorem requests_prompt {req : J} (h : req ∈ requests promptMoves) : req = promptRequest := by
  have hlabels : promptMoves.map (·.label.request) = [none, some promptRequest, some promptRequest, some promptRequest] := rfl
  obtain ⟨m, hm, hreq⟩ := h
  have hmem : some req ∈ promptMoves.map (·.label.request) := List.mem_map.2 ⟨m, hm, hreq⟩
  rw [hlabels] at hmem
  simpa using hmem

theorem digest_prompt : Set.InjOn promptEnv.digest (contents louder (requests promptMoves)) := by
  have hcases : ∀ x ∈ contents louder (requests promptMoves),
      x = (canonical promptRequest).text ∨ x = (canonical (renamed louder promptRequest)).text := by
    rintro x ⟨r, hr, hx⟩
    obtain rfl := requests_prompt hr
    exact hx.imp (fun hx => (J.dump_ok.1 hx).2.symm) fun hx => (J.dump_ok.1 hx).2.symm
  have hne : promptEnv.digest (canonical promptRequest).text ≠ promptEnv.digest (canonical (renamed louder promptRequest)).text := by
    decide +kernel
  intro x hx y hy h
  rcases hcases x hx with rfl | rfl <;> rcases hcases y hy with rfl | rfl
  · rfl
  · exact absurd h hne
  · exact absurd h.symm hne
  · rfl

theorem prompts_confined_louder : ∃ tr' s', Run (Step promptEnv) Sys.init tr' s' ∧
    List.Forall₂ (Replays louder) promptMoves tr' ∧
    List.Forall₂ (SameOutputs promptEnv (HashPair promptEnv louder (requests promptMoves)) louder) promptMoves tr' ∧
    StoreMatches promptEnv (HashPair promptEnv louder (requests promptMoves)) (lastState promptMoves).st.db s'.st.db := by
  have hsha : ∀ text, IsSha (promptEnv.digest text) := digestAmong_isSha (by decide +kernel)
  obtain ⟨⟨tr', s', hrun, hreplays⟩, hmatch⟩ := prompts_confined promptEnv hsha louder_injective prompt_run digest_prompt
  exact ⟨tr', s', hrun, hreplays, hmatch hrun hreplays⟩

end A2ad.Control
