/-
Whose wire information a call is sent with: the bindings are kept by URL and every discovered card
writes to them, so an agent is called as its own interface says as long as no card takes its URL.
-/
import A2ad.Daemon.Frames
import A2ad.Lib.Trace

namespace A2ad.TaskManager

open Bytes Json Client

/-! ## Definitions -/

section Definitions

variable (E : Env)

/-- What an agent serves as its card: the first value at its URLs that is taken for one. -/
def servedCard : List Str → World → Option J
  | [], _ => none
  | url :: rest, s =>
    let cached := (s.cards.lookup url).getD ⟨[], []⟩
    let r := revalidated cached (E.http s.exchanges (discoveryRequest url cached))
    let later := servedCard rest { s with exchanges := s.exchanges + 1 }
    if r.transportError || !r.success then later
    else match (E.parse r.body).filter isCard with
      | none => later
      | some j => some j

/-- The interfaces that are registered as the card is read. -/
def offered : Option J → List AgentInterface
  | none => []
  | some j => match cardHead j with
    | .ok head => head.interfaces
    | .error _ => []

/-- The card that is made of what is served. -/
def readServed : Option J → Except Exception AgentCard
  | none => .ok noCard
  | some j => do cardTail j (← cardHead j)

/-- All interfaces that the discovery of the agent registers, the one it is called by last. -/
def claimed (a : Agent) (j : Option J) : List AgentInterface :=
  offered j ++ match readServed j with
    | .ok card => if card.valid then (discovered a card).effectiveInterface.toList else []
    | .error _ => []

def registerAll (is : List AgentInterface) (bindings : AList fun _ : Str => BindingInfo) : AList fun _ : Str => BindingInfo :=
  is.foldl (fun b i => if i.url.isEmpty then b else b.insert i.url i.info) bindings

/-- The last of the interfaces at a URL. -/
def settled (is : List AgentInterface) (url : Str) : Option AgentInterface := is.reverse.find? fun i => i.url = url

/-- Every discovered agent is called with the binding, version and tenant of its own interface. -/
def CalledAsOwn (s : World) : Prop :=
  ∀ id a i, s.agents.lookup id = some a → (s.discoveredAt.lookup id).isSome = true → a.effectiveInterface = some i →
    bindingAt s i.url = i.info

/-- The card that the agent `id` serves takes the URL of no agent it is not for, unless it says of it what
that agent says; and a card that is not valid leaves at the agent's own URL what the agent is then called
by. A card that cannot be read is for nobody. -/
def OnlyOwn (s : World) (id : Str) : Prop :=
  ∀ a, s.agents.lookup id = some a →
    let j := servedCard E (candidates a.endpoint) s
    (∀ id' b i k, (readServed j).toOption.isSome = false ∨ id' ≠ id → s.agents.lookup id' = some b →
      (s.discoveredAt.lookup id').isSome = true → b.effectiveInterface = some i → settled (claimed a j) i.url = some k →
      k.info = i.info) ∧
    ∀ card i, readServed j = .ok card → card.valid = false → (discovered a card).effectiveInterface = some i →
      ((settled (offered j) i.url).map AgentInterface.info).getD (bindingAt s i.url) = i.info

/-- One call of `discoverAgent`, whether it returns or throws. -/
def Discovers (s : World) (id : Str) (s' : World) : Prop := s' = Tx.endState (discoverAgent E id s)

end Definitions

/-! ## Registering -/

section Registering

variable {is : List AgentInterface} {url : Str}

theorem lookup_registerAll (hurl : url ≠ []) (bindings : AList fun _ : Str => BindingInfo) :
    (registerAll is bindings).lookup url =
      match settled is url with
      | some i => some i.info
      | none => bindings.lookup url := by
  induction is using List.reverseRecOn with
  | nil => rfl
  | append_singleton is i ih =>
    unfold registerAll settled at ih ⊢
    rw [List.foldl_append, List.reverse_append]
    simp only [List.foldl_cons, List.foldl_nil, List.reverse_singleton, List.singleton_append, List.find?_cons]
    by_cases hi : i.url = url
    · rw [if_neg (by rw [hi]; simpa using hurl), hi, AList.lookup_insert, decide_eq_true rfl]
    · rw [decide_eq_false hi]
      dsimp only
      rw [← ih]
      split
      · rfl
      · rw [AList.lookup_insert_ne (Ne.symm hi)]

theorem register_run (i : AgentInterface) (s : World) :
    registerInterface i s = .ok () { s with bindings := registerAll [i] s.bindings } := by
  show EStateM.Result.ok () (if i.url.isEmpty then s else _) = _
  unfold registerAll
  simp only [List.foldl_cons, List.foldl_nil]
  split <;> rfl

theorem forM_register (s : World) :
    is.forM registerInterface s = .ok () { s with bindings := registerAll is s.bindings } := by
  induction is generalizing s with
  | nil => rfl
  | cons i is ih =>
    show (registerInterface i >>= fun _ => is.forM registerInterface) s = _
    rw [Tx.bind_of_ok (register_run i s), ih]
    rfl

/-- The interface an agent is called by has a URL. -/
theorem effective_url {a : Agent} {i : AgentInterface} (h : a.effectiveInterface = some i) : i.url ≠ [] := by
  unfold Agent.effectiveInterface at h
  split at h
  · rename_i i' hi
    cases h
    obtain ⟨card, -, hfound⟩ := Option.bind_eq_some_iff.1 hi
    have hsupported := List.find?_some hfound
    unfold supported at hsupported
    simp only [Bool.and_eq_true, Bool.not_eq_true'] at hsupported
    unfold rewriteLocal
    split
    · rename_i hlocal
      simp only [Bool.and_eq_true, Bool.not_eq_true'] at hlocal
      simpa using hlocal.1.1
    · simpa using hsupported.2
  · split at h
    · cases h
    · rename_i hne
      cases h
      simpa using hne

end Registering

/-! ## What a discovery does -/

section Discovery

variable {E : Env} {s s' : World}

/-- What is answered at one URL. -/
def answerAt (E : Env) (url : Str) (s : World) : HttpResponse :=
  let cached := (s.cards.lookup url).getD ⟨[], []⟩
  revalidated cached (E.http s.exchanges (discoveryRequest url cached))

/-- The bindings have taken the interfaces in, and the agents are as they were. -/
structure Reached (is : List AgentInterface) (s s' : World) : Prop where
  bindings : s'.bindings = registerAll is s.bindings
  agents : s'.agents = s.agents
  discoveredAt : s'.discoveredAt = s.discoveredAt

theorem claimed_of_ok {a : Agent} {j : Option J} {card : AgentCard} (h : readServed j = .ok card) :
    claimed a j = offered j ++ if card.valid then (discovered a card).effectiveInterface.toList else [] := by
  unfold claimed
  rw [h]

theorem claimed_of_error {a : Agent} {j : Option J} {e : Exception} (h : readServed j = .error e) :
    claimed a j = offered j := by
  unfold claimed
  rw [h]
  exact List.append_nil _

theorem readCard_run (j : J) (s : World) : ∃ s', Reached (offered (some j)) s s' ∧ readCard j s =
    match readServed (some j) with
    | .ok card => .ok card s'
    | .error e => .error e s' := by
  rw [show readServed (some j) = (do cardTail j (← cardHead j)) from rfl,
    show offered (some j) = match cardHead j with
      | .ok head => head.interfaces
      | .error _ => [] from rfl]
  unfold readCard
  cases hhead : cardHead j with
  | error e => exact ⟨s, ⟨rfl, rfl, rfl⟩, rfl⟩
  | ok head =>
    refine ⟨{ s with bindings := registerAll head.interfaces s.bindings }, ⟨rfl, rfl, rfl⟩, ?_⟩
    rw [Tx.bind_of_ok (Tx.lift_of_ok rfl), Tx.bind_of_ok (forM_register s)]
    show Tx.lift (cardTail j head) _ = match cardTail j head with
      | .ok card => .ok card _
      | .error e => .error e _
    cases cardTail j head <;> rfl

/-- The search at one URL: without a card there it goes on. -/
theorem servedCard_cons {url : Str} {rest : List Str} {s : World} : servedCard E (url :: rest) s =
    if (answerAt E url s).transportError || !(answerAt E url s).success then
      servedCard E rest { s with exchanges := s.exchanges + 1 }
    else ((E.parse (answerAt E url s).body).filter isCard).elim
      (servedCard E rest { s with exchanges := s.exchanges + 1 }) some := by
  rw [servedCard]
  unfold answerAt
  dsimp only
  split
  · rfl
  · generalize Option.filter isCard _ = found
    cases found <;> rfl

theorem discoverAt_eq {url : Str} {s : World} : discoverAt E url s =
    ((if (answerAt E url s).transportError || !(answerAt E url s).success then return none
      else ((E.parse (answerAt E url s).body).filter isCard).elim (return none) fun j => do
        let card ← readCard j
        cacheCard url (answerAt E url s) card
        return some card) : M (Option AgentCard)) { s with exchanges := s.exchanges + 1 } := by
  unfold discoverAt answerAt
  rw [Tx.bind_of_ok (show observe _ s = .ok ((s.cards.lookup url).getD ⟨[], []⟩) s from rfl),
    Tx.bind_of_ok (show exchange E _ s = .ok _ { s with exchanges := s.exchanges + 1 } from rfl)]
  dsimp only
  split
  · rfl
  · generalize Option.filter isCard _ = found
    cases found <;> rfl

theorem firstCard_cons {url : Str} {rest : List Str} : firstCard E (url :: rest) =
    (discoverAt E url >>= fun found => found.elim (firstCard E rest) fun card => pure (some card)) := by
  rw [firstCard]
  congr 1
  funext found
  cases found <;> rfl

/-- What is found at the URLs is read, and nothing else has happened. -/
theorem firstCard_run (urls : List Str) (s : World) : ∃ s', Reached (offered (servedCard E urls s)) s s' ∧ firstCard E urls s =
    match servedCard E urls s with
    | none => .ok none s'
    | some j => match readServed (some j) with
      | .ok card => .ok (some card) s'
      | .error e => .error e s' := by
  induction urls generalizing s with
  | nil => exact ⟨s, ⟨rfl, rfl, rfl⟩, rfl⟩
  | cons url rest ih =>
    obtain ⟨later, hlater, hrest⟩ := ih { s with exchanges := s.exchanges + 1 }
    have hlater : Reached _ s later := ⟨hlater.bindings, hlater.agents, hlater.discoveredAt⟩
    have hfirst := @firstCard_cons E url rest
    -- without a card here, the search goes on
    have hnext : discoverAt E url s = .ok none { s with exchanges := s.exchanges + 1 } →
        firstCard E (url :: rest) s = firstCard E rest { s with exchanges := s.exchanges + 1 } := by
      intro h
      rw [hfirst, Tx.bind_of_ok h, Option.elim_none]
    have hserved := @servedCard_cons E url rest s
    have hat := @discoverAt_eq E url s
    by_cases hbad : ((answerAt E url s).transportError || !(answerAt E url s).success) = true
    · rw [hserved, if_pos hbad, hnext (by rw [hat, if_pos hbad]; rfl)]
      exact ⟨later, hlater, hrest⟩
    rw [if_neg hbad] at hserved hat
    cases hj : (E.parse (answerAt E url s).body).filter isCard with
    | none =>
      rw [hj] at hserved hat
      rw [hserved, hnext hat]
      exact ⟨later, hlater, hrest⟩
    | some j =>
      rw [hj] at hserved hat
      replace hserved : servedCard E (url :: rest) s = some j := hserved
      rw [hserved]
      dsimp only
      obtain ⟨s', hreached, hread⟩ := readCard_run j { s with exchanges := s.exchanges + 1 }
      cases hcard : readServed (some j) with
      | error e =>
        rw [hcard] at hread
        refine ⟨s', ⟨hreached.bindings, hreached.agents, hreached.discoveredAt⟩, ?_⟩
        have hthrown : discoverAt E url s = .error e s' := by
          rw [hat]
          exact Tx.bind_error.2 (.inl hread)
        rw [hfirst]
        dsimp only
        exact Tx.bind_error.2 (.inl hthrown)
      | ok card =>
        rw [hcard] at hread
        have hcaches : ∃ s'', Reached [] s' s'' ∧ cacheCard url (answerAt E url s) card s' = .ok () s'' := by
          refine ⟨_, ?_, rfl⟩
          show Reached [] s' (if card.valid then { s' with cards := _ } else s')
          split
          · exact ⟨rfl, rfl, rfl⟩
          · exact ⟨rfl, rfl, rfl⟩
        obtain ⟨s'', hcached, hcaches⟩ := hcaches
        have hfound : discoverAt E url s = .ok (some card) s'' := by
          rw [hat, Option.elim_some, Tx.bind_of_ok hread, Tx.bind_of_ok hcaches]
          rfl
        refine ⟨s'', ⟨hcached.bindings.trans hreached.bindings, hcached.agents.trans hreached.agents,
          hcached.discoveredAt.trans hreached.discoveredAt⟩, ?_⟩
        rw [hfirst, Tx.bind_of_ok hfound]
        rfl

theorem candidates_run (endpoint : Str) (s : World) : ∃ s', Reached (offered (servedCard E (candidates endpoint) s)) s s' ∧
    discover E endpoint s = match readServed (servedCard E (candidates endpoint) s) with
      | .ok card => .ok card s'
      | .error e => .error e s' := by
  obtain ⟨s', hreached, hfirst⟩ := firstCard_run (E := E) (candidates endpoint) s
  refine ⟨s', hreached, ?_⟩
  have hd : discover E endpoint s = (firstCard E (candidates endpoint) >>= fun card => pure (card.getD noCard)) s := rfl
  cases hj : servedCard E (candidates endpoint) s with
  | none =>
    rw [hj] at hfirst
    rw [hd, Tx.bind_of_ok hfirst]
    rfl
  | some j =>
    rw [hj] at hfirst
    dsimp only at hfirst ⊢
    cases hread : readServed (some j) with
    | error e =>
      rw [hread] at hfirst
      rw [hd]
      exact Tx.bind_error.2 (.inl hfirst)
    | ok card =>
      rw [hread] at hfirst
      rw [hd, Tx.bind_of_ok hfirst]
      rfl

theorem registerEffective_run (a : Agent) (card : AgentCard) (s : World) : registerEffective a card s =
    .ok () { s with bindings := registerAll (if card.valid then a.effectiveInterface.toList else []) s.bindings } := by
  unfold registerEffective
  cases card.valid with
  | false => rfl
  | true =>
    cases a.effectiveInterface with
    | none => rfl
    | some i => exact register_run i s

/-- A call of `discoverAgent` for an agent that is not known does nothing; a card that throws leaves its
interfaces registered; and a card that is read becomes the agent's. -/
theorem discoverAgent_run (id : Str) (s : World) :
    match s.agents.lookup id with
    | none => Tx.endState (discoverAgent E id s) = s
    | some a =>
      let j := servedCard E (candidates a.endpoint) s
      let s' := Tx.endState (discoverAgent E id s)
      s'.bindings = registerAll (claimed a j) s.bindings ∧
        match readServed j with
        | .error _ => s'.agents = s.agents ∧ s'.discoveredAt = s.discoveredAt ∧ Tx.result? (discoverAgent E id s) = none
        | .ok card => s'.agents = s.agents.insert id (discovered a card) ∧
            ∃ time, s'.discoveredAt = s.discoveredAt.insert id time := by
  have hd : discoverAgent E id s = (match s.agents.lookup id with
    | none => return { id := id }
    | some a => do
      let card ← discover E a.endpoint
      let time ← steadyNow E
      let a := discovered a card
      storeDiscovery id time a
      registerEffective a card
      let _ ← (cardSnapshot card).dump
      saveAgent E id a (cardSnapshot card)
      return a : M Agent) s := rfl
  cases ha : s.agents.lookup id with
  | none =>
    rw [ha] at hd
    rw [hd]
    rfl
  | some a =>
    rw [ha] at hd
    dsimp only at hd ⊢
    obtain ⟨w, hreached, hfound⟩ := candidates_run (E := E) a.endpoint s
    cases hcard : readServed (servedCard E (candidates a.endpoint) s) with
    | error e =>
      rw [hcard] at hfound
      -- the interfaces of the card have been registered by then, and nothing has been stored
      have hthrown : discoverAgent E id s = .error e w := by
        rw [hd]
        exact Tx.bind_error.2 (.inl hfound)
      rw [hthrown]
      refine ⟨?_, hreached.agents, hreached.discoveredAt, rfl⟩
      rw [claimed_of_error hcard]
      exact hreached.bindings
    | ok card =>
      rw [hcard] at hfound
      rw [Tx.bind_of_ok hfound] at hd
      -- the agent is stored before its effective interface is registered
      obtain ⟨stored, hstored⟩ : ∃ stored, stored = { w with
        steadyTicks := w.steadyTicks + 1, discoveredAt := w.discoveredAt.insert id (E.steady w.steadyTicks)
        agents := w.agents.insert id (discovered a card) } := ⟨_, rfl⟩
      have hstore : discoverAgent E id s = (do
          registerEffective (discovered a card) card
          let _ ← (cardSnapshot card).dump
          saveAgent E id (discovered a card) (cardSnapshot card)
          return discovered a card : M Agent) stored := by
        rw [hstored]
        exact hd
      rw [Tx.bind_of_ok (registerEffective_run _ card stored)] at hstore
      have hfields : (Tx.endState (discoverAgent E id s)).bindings =
            registerAll (if card.valid then (discovered a card).effectiveInterface.toList else []) stored.bindings ∧
          (Tx.endState (discoverAgent E id s)).agents = stored.agents ∧
          (Tx.endState (discoverAgent E id s)).discoveredAt = stored.discoveredAt := by
        rw [hstore]
        -- the discovery is in the state by now, whether or not the snapshot can be written
        cases hdump : (cardSnapshot card).dump with
        | error e => exact ⟨rfl, rfl, rfl⟩
        | ok text => exact ⟨rfl, rfl, rfl⟩
      obtain ⟨hbindings, hagents, hat⟩ := hfields
      refine ⟨?_, ?_, E.steady w.steadyTicks, ?_⟩
      · rw [hbindings, hstored, claimed_of_ok hcard]
        show registerAll _ w.bindings = _
        rw [hreached.bindings]
        exact (List.foldl_append ..).symm
      · rw [hagents, hstored]
        show w.agents.insert id (discovered a card) = _
        rw [hreached.agents]
      · rw [hat, hstored]
        show w.discoveredAt.insert id _ = _
        rw [hreached.discoveredAt]

end Discovery

/-! ## Whose information is there -/

section Called

variable {E : Env} {s s' : World} {is : List AgentInterface} {url : Str}

theorem bindingAt_registerAll (hurl : url ≠ []) (hb : s'.bindings = registerAll is s.bindings) :
    bindingAt s' url = ((settled is url).map AgentInterface.info).getD (bindingAt s url) := by
  unfold bindingAt
  rw [hb, lookup_registerAll hurl]
  cases settled is url <;> rfl

/-- What was right at a URL stays right if the last that is registered there is. -/
theorem stays_own {i : AgentInterface} (hurl : i.url ≠ []) (hb : s'.bindings = registerAll is s.bindings)
    (hown : bindingAt s i.url = i.info) :
    bindingAt s' i.url = i.info ↔ ∀ k, settled is i.url = some k → k.info = i.info := by
  rw [bindingAt_registerAll hurl hb, hown]
  cases settled is i.url with
  | none => simp
  | some k =>
    constructor
    · rintro h _ ⟨⟩
      exact h
    · intro h
      exact h k rfl

theorem settled_last (is : List AgentInterface) (i : AgentInterface) : settled (is ++ [i]) i.url = some i := by
  unfold settled
  rw [List.reverse_append, List.reverse_singleton, List.singleton_append, List.find?_cons, decide_eq_true rfl]

/-- One discovery keeps every agent called as its own interface says exactly if it is harmless. -/
theorem asOwn_step {id : Str} (hown : CalledAsOwn s) (h : Discovers E s id s') : CalledAsOwn s' ↔ OnlyOwn E s id := by
  subst h
  have hrun := discoverAgent_run (E := E) id s
  cases ha : s.agents.lookup id with
  | none =>
    rw [ha] at hrun
    dsimp only at hrun
    rw [hrun]
    refine ⟨fun _ a ha' => ?_, fun _ => hown⟩
    rw [ha] at ha'
    cases ha'
  | some a =>
    rw [ha] at hrun
    dsimp only at hrun
    obtain ⟨hbindings, hrest⟩ := hrun
    cases hcard : readServed (servedCard E (candidates a.endpoint) s) with
    | error e =>
      rw [hcard] at hrest
      obtain ⟨hagents, hat, -⟩ := hrest
      constructor
      · intro hown' a' ha'
        rw [ha] at ha'
        cases ha'
        refine ⟨fun id' b i k _ hb hfound hi => ?_, fun card i h => ?_⟩
        · have hafter := hown' id' b i (by rw [hagents]; exact hb) (by rw [hat]; exact hfound) hi
          exact (stays_own (effective_url hi) hbindings (hown id' b i hb hfound hi)).1 hafter k
        · rw [hcard] at h
          cases h
      · intro hharmless id' b i hb hfound hi
        rw [hagents] at hb
        rw [hat] at hfound
        refine (stays_own (effective_url hi) hbindings (hown id' b i hb hfound hi)).2 fun k => ?_
        exact (hharmless a ha).1 id' b i k (.inl (by rw [hcard]; rfl)) hb hfound hi
    | ok card =>
      rw [hcard] at hrest
      obtain ⟨hagents, time, hat⟩ := hrest
      -- the others have been discovered as before, this one by the card
      have hother : ∀ id' b, id' ≠ id → (s.agents.lookup id' = some b ∧ (s.discoveredAt.lookup id').isSome = true ↔
          (Tx.endState (discoverAgent E id s)).agents.lookup id' = some b ∧
            ((Tx.endState (discoverAgent E id s)).discoveredAt.lookup id').isSome = true) := by
        intro id' b hne
        rw [hagents, hat, AList.lookup_insert_ne hne, AList.lookup_insert_ne hne]
      have hself : (Tx.endState (discoverAgent E id s)).agents.lookup id = some (discovered a card) ∧
          ((Tx.endState (discoverAgent E id s)).discoveredAt.lookup id).isSome = true := by
        rw [hagents, hat, AList.lookup_insert, AList.lookup_insert]
        exact ⟨rfl, rfl⟩
      constructor
      · intro hown' a' ha'
        rw [ha] at ha'
        cases ha'
        refine ⟨fun id' b i k hne hb hfound hi => ?_, fun card' i h hinvalid hi => ?_⟩
        · have hne : id' ≠ id := by
            rcases hne with h | h
            · rw [hcard] at h
              cases h
            · exact h
          obtain ⟨hb', hfound'⟩ := (hother id' b hne).1 ⟨hb, hfound⟩
          exact (stays_own (effective_url hi) hbindings (hown id' b i hb hfound hi)).1 (hown' id' b i hb' hfound' hi) k
        · rw [hcard] at h
          cases h
          have hafter := hown' id _ i hself.1 hself.2 hi
          rw [bindingAt_registerAll (effective_url hi) hbindings, claimed_of_ok hcard, hinvalid] at hafter
          simpa using hafter
      · intro hharmless id' b i hb hfound hi
        by_cases hid : id' = id
        · subst hid
          obtain rfl : discovered a card = b := Option.some.inj (hself.1.symm.trans hb)
          rw [bindingAt_registerAll (effective_url hi) hbindings, claimed_of_ok hcard]
          cases hvalid : card.valid with
          | true =>
            rw [hi]
            show (Option.map _ (settled (_ ++ [i]) i.url)).getD _ = _
            rw [settled_last]
            rfl
          | false => simpa using (hharmless a ha).2 card i hcard hvalid hi
        · obtain ⟨hb, hfound⟩ := (hother id' b hid).2 ⟨hb, hfound⟩
          refine (stays_own (effective_url hi) hbindings (hown id' b i hb hfound hi)).2 fun k => ?_
          exact (hharmless a ha).1 id' b i k (.inr hid) hb hfound hi

end Called

/-! ## Operations -/

section Operations

variable {E : Env} {s s' : World} {id endpoint : Str} {auth : AuthSpec}

/-- Whatever is called at the endpoint, at most one request is put on the wire for it, and it is for the
binding and the version of `info` and with its tenant; a handler of a stream's events is taken not to call. -/
def CalledWith (E : Env) (endpoint : Str) (auth : AuthSpec) (info : BindingInfo) (s : World) : Prop :=
  (∀ method params, (Tx.endState (rpcCall E endpoint auth method params s)).sent = s.sent ∨
    (Tx.endState (rpcCall E endpoint auth method params s)).sent =
      s.sent ++ [⟨endpoint, info, method.name, withTenant info params⟩]) ∧
  ∀ (α : Type) (op : StreamMethod) (params : J) (onEvent : J → World × α → World × α) (stopped : α → Bool) (start : α),
    (∀ event st, (onEvent event st).1.sent = st.1.sent) →
    (Tx.endState (streamCall E endpoint auth op params onEvent stopped start s)).sent = s.sent ∨
      (Tx.endState (streamCall E endpoint auth op params onEvent stopped start s)).sent =
        s.sent ++ [⟨endpoint, info, op.name, setIf (!info.tenant.isEmpty) "tenant" (.str info.tenant) params⟩]

theorem rpcCall_sent (method : Method) (params : J) :
    (Tx.endState (rpcCall E endpoint auth method params s)).sent = s.sent ∨
      (Tx.endState (rpcCall E endpoint auth method params s)).sent =
        s.sent ++ [⟨endpoint, bindingAt s endpoint, method.name, withTenant (bindingAt s endpoint) params⟩] := by
  have hclassified : ∀ x w, transmit E endpoint auth method params s = .ok x w →
      (Tx.endState (rpcCall E endpoint auth method params s)).sent = w.sent := by
    intro x w h
    have hcall : rpcCall E endpoint auth method params s = Tx.lift (x.classify E method) w :=
      Tx.bind_of_ok h
    rw [hcall]
    cases x.classify E method <;> rfl
  have hrun : transmit E endpoint auth method params s = (do
      let _ ← params.dump
      let id ← nextRpcId
      let info ← observe fun s => bindingAt s endpoint
      let response ← deliver E auth ⟨endpoint, info, method, withTenant info params, id⟩
      return ⟨info.protocol, endpoint, id, response⟩ : M Exchange) s := rfl
  cases hdump : params.dump with
  | error e =>
    left
    rw [hdump] at hrun
    show (Tx.endState (EStateM.bind (transmit E endpoint auth method params) _ s)).sent = s.sent
    unfold EStateM.bind
    rw [hrun]
    rfl
  | ok text =>
    rw [hdump] at hrun
    have hdelivers : transmit E endpoint auth method params s = ((do
        let response ← deliver E auth ⟨endpoint, bindingAt s endpoint, method, withTenant (bindingAt s endpoint) params,
          natText s.rpcIds⟩
        return ⟨(bindingAt s endpoint).protocol, endpoint, natText s.rpcIds, response⟩) : M Exchange)
          { s with rpcIds := s.rpcIds + 1 } := hrun
    by_cases hgrpc : (bindingAt s endpoint).protocol = .grpc
    · right
      unfold deliver at hdelivers
      rw [if_pos hgrpc] at hdelivers
      rw [hclassified _ _ hdelivers]
    · unfold deliver at hdelivers
      rw [if_neg hgrpc] at hdelivers
      cases hreq : unaryRequest auth ⟨endpoint, bindingAt s endpoint, method, withTenant (bindingAt s endpoint) params,
          natText s.rpcIds⟩ with
      | error e =>
        left
        rw [hreq] at hdelivers
        show (Tx.endState (EStateM.bind (transmit E endpoint auth method params) _ s)).sent = s.sent
        unfold EStateM.bind
        rw [hdelivers]
        rfl
      | ok req =>
        right
        rw [hreq] at hdelivers
        rw [hclassified _ _ hdelivers]

/-- Nothing has been put on the wire. -/
def Quiet (s s' : World) : Prop := s'.sent = s.sent

instance : IsPreorder World Quiet where
  refl _ := rfl
  trans _ _ _ h h' := Eq.trans h' h

theorem streamCall_sent {α : Type} (op : StreamMethod) (params : J) (onEvent : J → World × α → World × α)
    (stopped : α → Bool) (start : α) (hquiet : ∀ event st, (onEvent event st).1.sent = st.1.sent) :
    let info := bindingAt s endpoint
    (Tx.endState (streamCall E endpoint auth op params onEvent stopped start s)).sent = s.sent ∨
      (Tx.endState (streamCall E endpoint auth op params onEvent stopped start s)).sent =
        s.sent ++ [⟨endpoint, info, op.name, setIf (!info.tenant.isEmpty) "tenant" (.str info.tenant) params⟩] := by
  intro info
  have hframe : ∀ s s', Frame [] s s' → Quiet s s' := fun s s' h => h.wire (by decide)
  let c : Call StreamMethod :=
    ⟨endpoint, info, op, setIf (!info.tenant.isEmpty) "tenant" (.str info.tenant) params, natText s.rpcIds⟩
  have hrun : streamCall E endpoint auth op params onEvent stopped start s =
      (if info.protocol = .grpc then do
        record endpoint info op.name c.params
        overGrpc E auth c onEvent stopped start
      else do
        let req ← streamRequest auth c
        record endpoint info op.name c.params
        overHttp E req c onEvent stopped start : M (A2AResult × α)) { s with rpcIds := s.rpcIds + 1 } := rfl
  rw [hrun]
  by_cases hgrpc : info.protocol = .grpc
  · right
    rw [if_pos hgrpc]
    exact (keeps_overGrpc (R := Quiet) hframe hquiet).out { s with
      rpcIds := s.rpcIds + 1, sent := s.sent ++ [⟨endpoint, info, op.name, c.params⟩] }
  · rw [if_neg hgrpc]
    cases hreq : streamRequest auth c with
    | error e => exact .inl rfl
    | ok req =>
      right
      exact (keeps_overHttp (R := Quiet) hframe hquiet).out { s with
        rpcIds := s.rpcIds + 1, sent := s.sent ++ [⟨endpoint, info, op.name, c.params⟩] }

theorem calledWith_bindingAt : CalledWith E endpoint auth (bindingAt s endpoint) s :=
  ⟨fun method params => rpcCall_sent method params, fun _ op params onEvent stopped start hquiet =>
    streamCall_sent op params onEvent stopped start hquiet⟩

/-- The last discovery of the agent is to be trusted no longer, or there is none. -/
def Stale (E : Env) (s : World) (id : Str) : Prop :=
  ∀ found, s.discoveredAt.lookup id = some found → E.steady s.steadyTicks - found ≥ 300

theorem servedCard_steady (urls : List Str) (s : World) (n : Nat) :
    servedCard E urls { s with steadyTicks := n } = servedCard E urls s := by
  induction urls generalizing s with
  | nil => rfl
  | cons url rest ih =>
    unfold servedCard
    dsimp only
    have hlater := ih { s with exchanges := s.exchanges + 1 }
    dsimp only at hlater
    rw [hlater]

theorem harmless_steady {n : Nat} (h : OnlyOwn E s id) : OnlyOwn E { s with steadyTicks := n } id := by
  intro a ha
  show let j := servedCard E (candidates a.endpoint) { s with steadyTicks := n }; _
  rw [servedCard_steady]
  exact h a ha

/-- What a discovery that returns leaves behind: agents called as their own, the one asked for among them. -/
theorem discoverAgent_own {b : Agent} (hown : CalledAsOwn s) (hharmless : OnlyOwn E s id)
    (h : discoverAgent E id s = .ok b s') :
    CalledAsOwn s' ∧ ∀ a, s'.agents.lookup id = some a → (s'.discoveredAt.lookup id).isSome = true := by
  have hends : Tx.endState (discoverAgent E id s) = s' := by
    rw [h]
    rfl
  have hdiscovers : Discovers E s id s' := by rw [Discovers, hends]
  refine ⟨(asOwn_step hown hdiscovers).2 hharmless, fun a ha => ?_⟩
  have hrun := discoverAgent_run (E := E) id s
  rw [hends] at hrun
  cases hknown : s.agents.lookup id with
  | none =>
    rw [hknown] at hrun
    obtain rfl : s' = s := hrun
    rw [hknown] at ha
    cases ha
  | some a₀ =>
    rw [hknown] at hrun
    obtain ⟨-, hrest⟩ := hrun
    cases hcard : readServed (servedCard E (candidates a₀.endpoint) s) with
    | error e =>
      rw [hcard, h] at hrest
      cases hrest.2.2
    | ok card =>
      rw [hcard] at hrest
      obtain ⟨-, time, hat⟩ := hrest
      rw [hat, AList.lookup_insert]
      rfl

/-- An operation that has its endpoint is sent with what the agent's own interface says. -/
theorem resolved_own (hown : CalledAsOwn s) (hharmless : Stale E s id → OnlyOwn E s id)
    (h : resolveEndpoint E id s = .ok (some (endpoint, auth)) s') :
    ∃ a, s'.agents.lookup id = some a ∧ endpoint = a.effectiveEndpoint ∧
      ∀ i, a.effectiveInterface = some i → CalledWith E endpoint auth i.info s' := by
  unfold resolveEndpoint at h
  split at h
  · cases h
  obtain ⟨⟨⟩, w, hrefresh, h⟩ := Tx.bind_ok.1 h
  have hfresh : CalledAsOwn w ∧ ∀ a, w.agents.lookup id = some a → (w.discoveredAt.lookup id).isSome = true := by
    unfold refreshDiscovery at hrefresh
    obtain ⟨found, w', hfound, hrefresh⟩ := Tx.bind_ok.1 hrefresh
    cases hfound
    dsimp only at hrefresh
    cases hat : s.discoveredAt.lookup id with
    | none =>
      rw [hat] at hrefresh
      obtain ⟨b, w'', hdiscover, hrefresh⟩ := Tx.bind_ok.1 hrefresh
      cases hrefresh
      refine discoverAgent_own hown (hharmless fun found hfound => ?_) hdiscover
      rw [hat] at hfound
      cases hfound
    | some found =>
      rw [hat] at hrefresh
      obtain ⟨time, w', htime, hrefresh⟩ := Tx.bind_ok.1 hrefresh
      cases htime
      rcases Tx.ite_ok hrefresh with ⟨hstale, hrefresh⟩ | ⟨-, hrefresh⟩
      · obtain ⟨b, w'', hdiscover, hrefresh⟩ := Tx.bind_ok.1 hrefresh
        cases hrefresh
        refine discoverAgent_own (s := { s with steadyTicks := s.steadyTicks + 1 }) hown (harmless_steady (hharmless ?_)) hdiscover
        intro found' hfound'
        rw [hat] at hfound'
        cases hfound'
        exact hstale
      · cases hrefresh
        exact ⟨hown, fun _ _ => by rw [hat]; rfl⟩
  obtain ⟨found, w', hfound, h⟩ := Tx.bind_ok.1 h
  cases hfound
  dsimp only at h
  cases ha : w.agents.lookup id with
  | none =>
    rw [ha] at h
    cases h
  | some a =>
    rw [ha] at h
    cases h
    refine ⟨a, ha, rfl, fun i hi => ?_⟩
    have hurl : a.effectiveEndpoint = i.url := by
      unfold Agent.effectiveEndpoint
      rw [hi]
    rw [← hfresh.1 id a i ha (hfresh.2 a ha) hi, ← hurl]
    exact calledWith_bindingAt

/-- **A harmless discovery of one agent changes how no other is called.** After any discoveries every
discovered agent is registered as its own interface says, exactly if no card that was served on the way
took another agent's URL for something else, nor left an agent without a valid card at a URL that
is registered for something else. An operation issued then is sent with the binding, the version and the
tenant of the agent's own interface. -/
theorem called_as_own (E : Env) {s₀ s : World} {tr : List (Move World Str)} (hfresh : s₀.discoveredAt = ∅)
    (hrun : Run (Discovers E) s₀ tr s) :
    ((∀ m ∈ tr, CalledAsOwn m.post) ↔ ∀ m ∈ tr, OnlyOwn E m.pre m.label) ∧
    ((∀ m ∈ tr, OnlyOwn E m.pre m.label) → ∀ id endpoint auth s', (Stale E s id → OnlyOwn E s id) →
      resolveEndpoint E id s = .ok (some (endpoint, auth)) s' →
      ∃ a, s'.agents.lookup id = some a ∧ endpoint = a.effectiveEndpoint ∧
        ∀ i, a.effectiveInterface = some i → CalledWith E endpoint auth i.info s') := by
  have hstart : CalledAsOwn s₀ := by
    intro id a i _ hfound
    rw [hfresh, AList.lookup_empty] at hfound
    cases hfound
  have hruns : ((∀ m ∈ tr, CalledAsOwn m.post) ↔ ∀ m ∈ tr, OnlyOwn E m.pre m.label) ∧
      ((∀ m ∈ tr, OnlyOwn E m.pre m.label) → CalledAsOwn s) := by
    induction hrun with
    | nil => exact ⟨by simp, fun _ => hstart⟩
    | @snoc tr s t id _ hstep ih =>
      obtain ⟨ih, hreached⟩ := ih
      simp only [List.mem_append, List.mem_singleton, or_imp, forall_and, forall_eq]
      refine ⟨⟨fun h => ?_, fun h => ?_⟩, fun h => ?_⟩
      · have hharmless := ih.1 h.1
        exact ⟨hharmless, (asOwn_step (hreached hharmless) hstep).1 h.2⟩
      · exact ⟨ih.2 h.1, (asOwn_step (hreached h.1) hstep).2 h.2⟩
      · exact (asOwn_step (hreached h.1) hstep).2 h.2
  exact ⟨hruns.1, fun h id endpoint auth s' hharmless hresolve => resolved_own (hruns.2 h) hharmless hresolve⟩

end Operations

/-! ## A card that takes another agent's URL -/

def mallory : Agent where
  id := "mallory"
  endpoint := "https://mallory.example/a2a"
  available := true

/-- A card with one interface. -/
def cardFor (name url binding tenant : String) : J := .object [("name", .str name),
  ("supportedInterfaces", .arr [.object [("url", .str url), ("protocolBinding", .str binding),
    ("protocolVersion", .str "1.0"), ("tenant", .str tenant)]])]

def builderCard : J := cardFor "builder" "https://builder.example/a2a" "JSONRPC" ""

/-- Two agents, of which one serves its own interface and the other the card at hand. -/
def servingEnv (malloryCard : J) : Env := { Env.offline [builderCard, malloryCard] with
  http := fun _ req => { status := 200, body :=
    if (lit "https://builder.example").isPrefixOf req.endpoint then builderCard.text else malloryCard.text } }

/-- Both agents are known and none has been discovered. -/
def bothAgents : World where
  agents := ((∅ : AList fun _ : Str => Agent).insert builder.id builder).insert mallory.id mallory

def builderFound (card : J) : World := Tx.endState (discoverAgent (servingEnv card) builder.id bothAgents)

def bothFound (card : J) : World := Tx.endState (discoverAgent (servingEnv card) mallory.id (builderFound card))

def discoveries (card : J) : List (Move World Str) :=
  [⟨bothAgents, builder.id, builderFound card⟩, ⟨builderFound card, mallory.id, bothFound card⟩]

theorem discoveries_run (card : J) : Run (Discovers (servingEnv card)) bothAgents (discoveries card) (bothFound card) :=
  .snoc (.snoc .nil rfl) rfl

/-- The wire information of the calls that refreshing a task of `builder` makes. -/
def wiredFor (card : J) : List (Str × BindingInfo) :=
  match resolveEndpoint (servingEnv card) builder.id (bothFound card) with
  | .ok (some (endpoint, auth)) s =>
    (Tx.endState (fetchTask (servingEnv card) endpoint auth "remote-7" s)).sent.map fun x => (x.endpoint, x.info)
  | _ => []

def rogueCard : J := cardFor "mallory" "https://builder.example/a2a" "HTTP+JSON" "mallory"

/-- The card of another agent changes the binding and the tenant that an agent is called with. -/
theorem mallory_redirects_builder : Run (Discovers (servingEnv rogueCard)) bothAgents (discoveries rogueCard) (bothFound rogueCard) ∧
    bothAgents.discoveredAt = ∅ ∧
    ((bothFound rogueCard).agents.lookup builder.id).bind Agent.effectiveInterface =
      some ⟨"https://builder.example/a2a", "JSONRPC", "1.0", []⟩ ∧
    wiredFor rogueCard = [(lit "https://builder.example/a2a", ⟨"HTTP+JSON", "1.0", "mallory"⟩)] := by
  refine ⟨discoveries_run rogueCard, rfl, ?_⟩
  decide +kernel

def honestCard : J := cardFor "mallory" "https://mallory.example/a2a" "HTTP+JSON" "mallory"

/-- The first discovery of any run is harmless if its card is valid. -/
theorem harmless_first {E : Env} {s : World} {id : Str} (hfresh : s.discoveredAt = ∅)
    (hvalid : ∀ a, s.agents.lookup id = some a →
      (readServed (servedCard E (candidates a.endpoint) s)).toOption.map AgentCard.valid = some true) : OnlyOwn E s id := by
  refine fun a ha => ⟨fun id' b i k _ _ hfound => ?_, fun card i hread hinvalid => ?_⟩
  · rw [hfresh, AList.lookup_empty] at hfound
    cases hfound
  · have h := hvalid a ha
    rw [hread] at h
    exact absurd (Option.some.inj h) (by rw [hinvalid]; decide)

/-- What the two discoveries find and leave behind. -/
theorem honest_facts :
    bothAgents.agents.lookup builder.id = some builder ∧
    (readServed (servedCard (servingEnv honestCard) (candidates builder.endpoint) bothAgents)).toOption.map
      AgentCard.valid = some true ∧
    (builderFound honestCard).agents.lookup mallory.id = some mallory ∧
    (readServed (servedCard (servingEnv honestCard) (candidates mallory.endpoint)
      (builderFound honestCard))).toOption.map AgentCard.valid = some true ∧
    (builderFound honestCard).discoveredAt.keys = [builder.id] ∧
    ((builderFound honestCard).agents.lookup builder.id).bind Agent.effectiveInterface =
      some ⟨"https://builder.example/a2a", "JSONRPC", "1.0", []⟩ ∧
    settled (claimed mallory (servedCard (servingEnv honestCard) (candidates mallory.endpoint)
      (builderFound honestCard))) "https://builder.example/a2a" = none ∧
    wiredFor honestCard = [(lit "https://builder.example/a2a", ⟨"JSONRPC", "1.0", []⟩)] := by
  decide +kernel

theorem harmless_builder : OnlyOwn (servingEnv honestCard) bothAgents builder.id := by
  obtain ⟨hknown, hvalid, -⟩ := honest_facts
  refine harmless_first rfl fun a ha => ?_
  obtain rfl : builder = a := Option.some.inj (hknown.symm.trans ha)
  exact hvalid

theorem harmless_mallory : OnlyOwn (servingEnv honestCard) (builderFound honestCard) mallory.id := by
  obtain ⟨-, -, hknown, hvalid, hkeys, hown, hnone, -⟩ := honest_facts
  intro a ha
  obtain rfl : mallory = a := Option.some.inj (hknown.symm.trans ha)
  refine ⟨fun id' b i k _ hb hfound hi hk => ?_, fun card i hread hinvalid => ?_⟩
  · have hmem : id' ∈ (builderFound honestCard).discoveredAt := AList.lookup_isSome.1 hfound
    rw [AList.mem_keys, hkeys, List.mem_singleton] at hmem
    subst hmem
    rw [hb, Option.bind_some, hi, Option.some.injEq] at hown
    subst hown
    cases hnone.symm.trans hk
  · rw [hread] at hvalid
    exact absurd (Option.some.inj hvalid) (by rw [hinvalid]; decide)

/-- With a card of its own for either, the calls are for the agent's own binding. -/
theorem called_as_own_honest : (∀ m ∈ discoveries honestCard, CalledAsOwn m.post) ∧
    wiredFor honestCard = [(lit "https://builder.example/a2a", ⟨"JSONRPC", "1.0", []⟩)] := by
  obtain ⟨-, -, -, -, -, -, -, hwired⟩ := honest_facts
  refine ⟨(called_as_own (servingEnv honestCard) rfl (discoveries_run honestCard)).1.2 fun m hm => ?_, hwired⟩
  simp only [discoveries, List.mem_cons, List.not_mem_nil, or_false] at hm
  rcases hm with rfl | rfl
  · exact harmless_builder
  · exact harmless_mallory

end A2ad.TaskManager
