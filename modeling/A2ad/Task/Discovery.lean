/-
What a discovery that fails does: a body that cannot be read as a card throws through every caller,
and where no card is found at all the last good one is replaced, in memory and in the database.
-/
import A2ad.Client.CardShape
import A2ad.Task.Bindings

namespace A2ad.TaskManager

open Bytes Json Client

/-! ## One discovery -/

section One

variable {E : Env} {s s' : World}

/-- A discovery only exchanges, registers and caches. -/
theorem keeps_discover {R : World → World → Prop} [IsPreorder World R] (hexchange : ∀ req, Tx.Keeps R (exchange E req))
    (hcache : ∀ url r card, Tx.Keeps R (cacheCard url r card)) (hregister : ∀ i, Tx.Keeps R (registerInterface i))
    (endpoint : Str) : Tx.Keeps R (discover E endpoint) := by
  have hregisters : ∀ is : List AgentInterface, Tx.Keeps R (is.forM registerInterface) := by
    intro is
    induction is with
    | nil => exact Tx.keeps_pure _
    | cons i is ih =>
      have := hregister i
      exact Tx.keeps_bind (x := registerInterface i) (k := fun _ => ih)
  have hread : ∀ j, Tx.Keeps R (readCard j) := by
    intro j
    unfold readCard
    infer_instance
  have hobserve : ∀ {α : Type} (f : World → α), Tx.Keeps R (observe f) := fun f => ⟨fun s => refl s⟩
  have hat : ∀ url, Tx.Keeps R (discoverAt E url) := by
    intro url
    unfold discoverAt
    repeat' first | infer_instance | refine Tx.keeps_bind (k := fun _ => ?_) | split | dsimp only
  have hfirst : ∀ urls, Tx.Keeps R (firstCard E urls) := by
    intro urls
    induction urls with
    | nil => exact Tx.keeps_pure _
    | cons url urls ih =>
      unfold firstCard
      repeat' first | infer_instance | refine Tx.keeps_bind (k := fun _ => ?_) | split
  unfold discover
  infer_instance

/-- What is kept of the agents stays as it is. -/
structure SameSaved (s s' : World) : Prop where
  saved : s'.saved = s.saved
  saves : s'.saves = s.saves

instance : IsPreorder World SameSaved where
  refl _ := ⟨rfl, rfl⟩
  trans _ _ _ h h' := ⟨h'.saved.trans h.saved, h'.saves.trans h.saves⟩

theorem discover_saved (endpoint : Str) : Tx.Keeps SameSaved (discover E endpoint) := by
  refine keeps_discover (fun req => ⟨fun s => ⟨rfl, rfl⟩⟩) (fun url r card => ⟨fun s => ?_⟩) (fun i => ⟨fun s => ?_⟩) endpoint
  · show SameSaved s (if card.valid then _ else s : World)
    split
    · exact ⟨rfl, rfl⟩
    · exact ⟨rfl, rfl⟩
  · rw [register_run]
    exact ⟨rfl, rfl⟩

/-- The snapshot of a card of UTF-8 can be written. -/
theorem utf8_snapshot {card : AgentCard} (h : SnapshotValid card) : (cardSnapshot card).utf8 = true := by
  have hinterface : ∀ i ∈ card.interfaces, (interfaceJson i).utf8 = true := by
    intro i hi
    obtain ⟨hurl, hbinding, hversion, htenant⟩ := h.interfaces i hi
    refine (J.utf8_object ?_).2 ?_
    · show ([lit "url", lit "protocolBinding", lit "protocolVersion", lit "tenant"]).Nodup
      decide
    · simp +decide [hurl, hbinding, hversion, htenant]
  have hinterfaces : (J.arr (card.interfaces.map interfaceJson)).utf8 = true := by
    refine J.utf8_arr.2 fun x hx => ?_
    obtain ⟨i, hi, rfl⟩ := List.mem_map.1 hx
    exact hinterface i hi
  have hschemes : (J.arr (card.authSchemes.map .str)).utf8 = true := by
    refine J.utf8_arr.2 fun x hx => ?_
    obtain ⟨name, hname, rfl⟩ := List.mem_map.1 hx
    exact h.authSchemes name hname
  have hcapabilities : (J.object [("streaming", .bool card.capabilities.streaming),
      ("pushNotifications", .bool card.capabilities.pushNotifications),
      ("extendedAgentCard", .bool card.capabilities.extendedAgentCard)]).utf8 = true := by
    refine (J.utf8_object ?_).2 ?_
    · show ([lit "streaming", lit "pushNotifications", lit "extendedAgentCard"]).Nodup
      decide
    · simp +decide [J.utf8]
  refine (J.utf8_object ?_).2 ?_
  · show ([lit "valid", lit "name", lit "description", lit "version", lit "capabilities", lit "interfaces",
      lit "auth_schemes"]).Nodup
    decide
  · simp +decide [J.utf8, h.name, h.description, h.version, hcapabilities]
    exact ⟨hinterfaces, hschemes⟩

/-- What is served comes from the parser and is taken for a card. -/
theorem served_parsed {j : J} (urls : List Str) (s : World) (h : servedCard E urls s = some j) :
    ∃ text, E.parse text = some j := by
  induction urls generalizing s with
  | nil => cases h
  | cons url rest ih =>
    unfold servedCard at h
    dsimp only at h
    split at h
    · exact ih _ h
    · split at h
      · exact ih _ h
      · rename_i j' hj
        cases h
        exact ⟨_, (Option.filter_eq_some_iff.1 hj).1⟩

/-- A card that is read, or the card of nobody, can be kept. -/
theorem snapshot_readServed {card : AgentCard} (hparse : ∀ text j, E.parse text = some j → j.utf8 = true) (urls : List Str)
    (h : readServed (servedCard E urls s) = .ok card) :
    SnapshotValid card ∧ (card.valid = false → card.parseError ≠ []) := by
  cases hj : servedCard E urls s with
  | none =>
    rw [hj] at h
    cases h
    exact ⟨⟨rfl, rfl, rfl, nofun, nofun⟩, fun _ => by decide⟩
  | some j =>
    rw [hj] at h
    obtain ⟨text, htext⟩ := served_parsed urls s hj
    obtain ⟨head, hhead, htail⟩ := Tx.except_bind_ok (show (cardHead j >>= cardTail j) = .ok card from h)
    exact ⟨snapshotValid (hparse text j htext) hhead htail, parseError_of_invalid htail⟩

/-- The row that is written for an agent with the outcome of a discovery. -/
def discoveredRow (a : Agent) (card : AgentCard) : SavedAgent :=
  ⟨a.endpoint, a.hostLabel, cardSnapshot card, card.valid, (discovered a card).lastError⟩

/-- What is kept of the agents after a write, which another connection's transaction makes void. -/
def keptWith (E : Env) (s : World) (id : Str) (row : SavedAgent) : AList fun _ : Str => SavedAgent :=
  if E.agentsBusy s.saves then s.saved else s.saved.insert id row

/-- A discovery of a known agent, whole: a card that is not read throws and changes neither the agents nor
what is kept of them; any other becomes the agent's and is kept, where the database is free. -/
theorem discoverAgent_full (hparse : ∀ text j, E.parse text = some j → j.utf8 = true) {id : Str} {a : Agent}
    (ha : s.agents.lookup id = some a) :
    match readServed (servedCard E (candidates a.endpoint) s) with
    | .error e => ∃ w, discoverAgent E id s = .error e w ∧ w.agents = s.agents ∧ w.saved = s.saved
    | .ok card => ∃ w, discoverAgent E id s = .ok (discovered a card) w ∧
        w.agents = s.agents.insert id (discovered a card) ∧
        w.saved = keptWith E s id (discoveredRow a card) := by
  have hd : discoverAgent E id s = (do
      let card ← discover E a.endpoint
      let time ← steadyNow E
      storeDiscovery id time (discovered a card)
      registerEffective (discovered a card) card
      let _ ← (cardSnapshot card).dump
      saveAgent E id (discovered a card) (cardSnapshot card)
      return discovered a card : M Agent) s := by
    unfold discoverAgent
    rw [Tx.bind_of_ok (show observe (fun s => s.agents.lookup id) s = .ok (some a) s from congrArg (EStateM.Result.ok · s) ha)]
  obtain ⟨w, hreached, hfound⟩ := candidates_run (E := E) a.endpoint s
  have hsame : SameSaved s w := by
    have hkeeps := (discover_saved (E := E) a.endpoint).out s
    rw [hfound] at hkeeps
    cases hcard : readServed (servedCard E (candidates a.endpoint) s) with
    | error e =>
      rw [hcard] at hkeeps
      exact hkeeps
    | ok card =>
      rw [hcard] at hkeeps
      exact hkeeps
  cases hcard : readServed (servedCard E (candidates a.endpoint) s) with
  | error e =>
    rw [hcard] at hfound
    refine ⟨w, ?_, hreached.agents, hsame.saved⟩
    rw [hd]
    exact Tx.bind_error.2 (.inl hfound)
  | ok card =>
    rw [hcard] at hfound
    dsimp only at hfound ⊢
    rw [Tx.bind_of_ok hfound] at hd
    obtain ⟨text, hdump⟩ := (passes_dump (j := cardSnapshot card)).2 (utf8_snapshot (snapshot_readServed hparse _ hcard).1)
    obtain ⟨stored, hstored⟩ : ∃ stored, stored = { w with
      steadyTicks := w.steadyTicks + 1, discoveredAt := w.discoveredAt.insert id (E.steady w.steadyTicks)
      agents := w.agents.insert id (discovered a card) } := ⟨_, rfl⟩
    have hstore : discoverAgent E id s = (do
        registerEffective (discovered a card) card
        let _ ← (cardSnapshot card).dump
        saveAgent E id (discovered a card) (cardSnapshot card)
        return discovered a card : M Agent) stored := by
      rw [hstored]
      exact hd
    rw [Tx.bind_of_ok (registerEffective_run _ card stored), Tx.bind_of_ok (Tx.lift_of_ok hdump)] at hstore
    refine ⟨_, hstore, ?_, ?_⟩
    · show stored.agents = _
      rw [hstored, ← hreached.agents]
    · show (if E.agentsBusy stored.saves then stored.saved else stored.saved.insert id _) = _
      rw [keptWith, ← hsame.saved, ← hsame.saves, hstored]
      rfl

end One

/-! ## Discoveries that raise -/

section Raises

variable {E : Env} {s s' : World}

/-- What is expected of a discovery at an endpoint: it returns a card, with an error if the card is not valid,
and an agent with this endpoint is resolved without an exception. -/
structure DiscoveryCopes (E : Env) (endpoint : Str) (s : World) : Prop where
  returns : ∃ card s', discover E endpoint s = .ok card s' ∧ (card.valid = false → card.parseError ≠ [])
  resolves : ∀ id a, s.agents.lookup id = some a → a.endpoint = endpoint → ∃ out s', resolveEndpoint E id s = .ok out s'

/-- What is served, if it is taken for a card, is read. -/
theorem passes_served {urls : List Str} :
    Tx.Passes (readServed (servedCard E urls s)) ↔ ∀ j, servedCard E urls s = some j → cardReads j = true := by
  cases servedCard E urls s with
  | none => exact iff_of_true (Tx.passes_ok noCard) nofun
  | some j =>
    simp only [Option.some.injEq, forall_eq']
    exact passes_card

theorem discoverAgent_returns (hparse : ∀ text j, E.parse text = some j → j.utf8 = true) {id : Str}
    (hreads : ∀ a, s.agents.lookup id = some a → Tx.Passes (readServed (servedCard E (candidates a.endpoint) s))) :
    ∃ b w, discoverAgent E id s = .ok b w := by
  cases ha : s.agents.lookup id with
  | none =>
    refine ⟨{ id := id }, s, ?_⟩
    unfold discoverAgent
    rw [Tx.bind_of_ok (show observe (fun s => s.agents.lookup id) s = .ok none s from congrArg (EStateM.Result.ok · s) ha)]
    rfl
  | some a =>
    obtain ⟨card, hcard⟩ := hreads a ha
    have hfull := discoverAgent_full hparse ha
    rw [hcard] at hfull
    obtain ⟨w, h, -⟩ := hfull
    exact ⟨_, w, h⟩

/-- **A discovery raises exactly on a card with a field of the wrong type.** Whatever is answered at the
candidates of an endpoint, the discovery and the callers that resolve an agent of this endpoint return
exactly if the first value that is taken for a card has every field that is read of the type it is read at. -/
theorem discovery_copes_iff (E : Env) (hparse : ∀ text j, E.parse text = some j → j.utf8 = true) (endpoint : Str) (s : World) :
    DiscoveryCopes E endpoint s ↔ ∀ j, servedCard E (candidates endpoint) s = some j → cardReads j = true := by
  rw [← passes_served]
  obtain ⟨w, -, hfound⟩ := candidates_run (E := E) endpoint s
  constructor
  · rintro ⟨⟨card, s', hreturns, -⟩, -⟩
    cases hcard : readServed (servedCard E (candidates endpoint) s) with
    | ok card => exact Tx.passes_ok card
    | error e =>
      rw [hcard, hreturns] at hfound
      cases hfound
  · rintro ⟨card, hcard⟩
    rw [hcard] at hfound
    refine ⟨⟨card, w, hfound, (snapshot_readServed hparse _ hcard).2⟩, fun id a ha hendpoint => ?_⟩
    -- the clock is read before the discovery, which does not look at it
    have hdiscovers : ∀ n, ∃ b w, discoverAgent E id { s with steadyTicks := n } = .ok b w := by
      intro n
      refine discoverAgent_returns hparse fun b hb => ?_
      rw [show s.agents.lookup id = some b from hb] at ha
      cases ha
      rw [servedCard_steady, hendpoint, hcard]
      exact Tx.passes_ok card
    have hrefresh : ∃ w, refreshDiscovery E id s = .ok () w := by
      have hrun : refreshDiscovery E id s = ((s.discoveredAt.lookup id).elim
          (discoverAgent E id >>= fun _ => pure ()) fun found => do
            let time ← steadyNow E
            if time - found ≥ 300 then
              let _ ← discoverAgent E id
          : M Unit) s := by
        unfold refreshDiscovery
        rw [Tx.bind_of_ok (show observe (fun s => s.discoveredAt.lookup id) s = .ok (s.discoveredAt.lookup id) s from rfl)]
        cases s.discoveredAt.lookup id <;> rfl
      rw [hrun]
      cases s.discoveredAt.lookup id with
      | none =>
        obtain ⟨b, w, h⟩ := hdiscovers s.steadyTicks
        exact ⟨w, Tx.bind_of_ok (show discoverAgent E id s = .ok b w from h)⟩
      | some found =>
        obtain ⟨b, w, h⟩ := hdiscovers (s.steadyTicks + 1)
        by_cases hstale : E.steady s.steadyTicks - found ≥ 300
        · refine ⟨w, ?_⟩
          show (if E.steady s.steadyTicks - found ≥ 300 then discoverAgent E id >>= fun _ => pure () else pure () : M Unit)
            { s with steadyTicks := s.steadyTicks + 1 } = _
          rw [if_pos hstale]
          exact Tx.bind_of_ok h
        · refine ⟨{ s with steadyTicks := s.steadyTicks + 1 }, ?_⟩
          show (if E.steady s.steadyTicks - found ≥ 300 then discoverAgent E id >>= fun _ => pure () else pure () : M Unit)
            { s with steadyTicks := s.steadyTicks + 1 } = _
          rw [if_neg hstale]
          rfl
    obtain ⟨w, hrefresh⟩ := hrefresh
    unfold resolveEndpoint
    split
    · exact ⟨none, s, rfl⟩
    · rw [Tx.bind_of_ok hrefresh]
      rw [Tx.bind_of_ok (show observe (fun s => s.agents.lookup id) w = .ok (w.agents.lookup id) w from rfl)]
      cases w.agents.lookup id with
      | none => exact ⟨_, w, rfl⟩
      | some b => exact ⟨_, w, rfl⟩

/-! ### A capability that is a text -/

theorem offline_parses {values : List J} (h : ∀ j ∈ values, j.utf8 = true) :
    ∀ text j, (Env.offline values).parse text = some j → j.utf8 = true := by
  intro text j hj
  replace hj : (.arr [] :: .obj [] :: values).find? (fun j => decide (j.text = text)) = some j := hj
  rcases List.mem_cons.1 (List.mem_of_find?_eq_some hj) with rfl | hmem
  · rfl
  · rcases List.mem_cons.1 hmem with rfl | hmem
    · rfl
    · exact h j hmem

/-- Every URL serves the card. -/
def cardEnv (card : J) : Env := { Env.offline [card] with http := fun _ _ => replied card }

/-- A daemon that knows `builder` and has not discovered it yet. -/
def newlyKnown : World where
  agents := (∅ : AList fun _ : Str => Agent).insert builder.id builder

def streamingCard (streaming : J) : J := .object [("name", .str "builder"),
  ("capabilities", .object [("streaming", streaming)])]

/-- A card whose `streaming` is a text makes the discovery and the resolution of the agent raise. -/
theorem streaming_text_raises :
    servedCard (cardEnv (streamingCard (.str "yes"))) (candidates builder.endpoint) newlyKnown = some (streamingCard (.str "yes")) ∧
    Tx.result? (discover (cardEnv (streamingCard (.str "yes"))) builder.endpoint newlyKnown) = none ∧
    Tx.result? (resolveEndpoint (cardEnv (streamingCard (.str "yes"))) builder.id newlyKnown) = none ∧
    ¬ DiscoveryCopes (cardEnv (streamingCard (.str "yes"))) builder.endpoint newlyKnown := by
  have hnone : Tx.result? (discover (cardEnv (streamingCard (.str "yes"))) builder.endpoint newlyKnown) = none := by decide +kernel
  refine ⟨by decide +kernel, hnone, by decide +kernel, ?_⟩
  rintro ⟨⟨card, s', hreturns, -⟩, -⟩
  rw [hreturns] at hnone
  cases hnone

/-- A card whose `streaming` is a boolean is read. -/
theorem discovery_copes_boolean : DiscoveryCopes (cardEnv (streamingCard (.bool true))) builder.endpoint newlyKnown := by
  have hserved : servedCard (cardEnv (streamingCard (.bool true))) (candidates builder.endpoint) newlyKnown =
      some (streamingCard (.bool true)) := by decide +kernel
  have hparse : ∀ text j, (cardEnv (streamingCard (.bool true))).parse text = some j → j.utf8 = true :=
    offline_parses (show ∀ j ∈ [streamingCard (.bool true)], j.utf8 = true by decide +kernel)
  refine (discovery_copes_iff (cardEnv (streamingCard (.bool true))) hparse builder.endpoint newlyKnown).2 fun j hj => ?_
  cases hserved.symm.trans hj
  decide +kernel

end Raises

end A2ad.TaskManager
