/-
The cache of discovered cards. An entry with a tag holds a body that the server had under that tag,
so an answer that nothing has changed stands for the body the server would have sent.
-/
import A2ad.Task.Bindings

namespace A2ad.Client

open Bytes Json TaskManager

/-! ## Servers -/

/-- What is answered at the `n`-th exchange to a request that is not conditional. -/
def plainAnswer (E : Env) (n : Nat) (url : Str) : HttpResponse := E.http n (discoveryRequest url ⟨[], []⟩)

/-- The response is a representation of what is at the URL. -/
def Represents (r : HttpResponse) : Prop := (r.transportError || !r.success) = false

instance (r : HttpResponse) : Decidable (Represents r) := inferInstanceAs (Decidable (_ = false))

/-- Whether a request with the tag would be answered with a representation under that tag. -/
def Current (E : Env) (n : Nat) (url tag : Str) : Prop :=
  tag ≠ [] ∧ Represents (plainAnswer E n url) ∧ (plainAnswer E n url).etag = tag

/-- Servers whose answer to a request with a tag is 304 exactly if the tag is the current one, and is that
of a plain request otherwise; and different bodies at one URL have different tags, if they have any. -/
structure ConditionalServers (E : Env) : Prop where
  unchanged : ∀ n url cached, Current E n url cached.etag →
    (E.http n (discoveryRequest url cached)).status = 304 ∧ (E.http n (discoveryRequest url cached)).transportError = false
  changed : ∀ n url cached, ¬ Current E n url cached.etag → E.http n (discoveryRequest url cached) = plainAnswer E n url
  plain : ∀ n url, (plainAnswer E n url).status ≠ 304
  tags : ∀ n m url tag, Current E n url tag → Current E m url tag → (plainAnswer E n url).body = (plainAnswer E m url).body

/-- Every entry has a body, which the server has had under the tag of the entry, if it has one. -/
def Paired (E : Env) (s : World) : Prop :=
  ∀ url c, s.cards.lookup url = some c → c.body ≠ [] ∧
    (c.etag ≠ [] → ∃ n, Current E n url c.etag ∧ (plainAnswer E n url).body = c.body)

/-- The same world with a client that has cached nothing. -/
def uncached (s : World) : World := { s with cards := ∅ }

/-! ## Answers -/

section Answers

variable {E : Env} {s : World} {url : Str}

theorem represents_iff {r : HttpResponse} : ¬ (r.transportError || !r.success) = true ↔ Represents r := Bool.not_eq_true _ ▸ Iff.rfl

theorem revalidated_other {cached : CachedCard} {r : HttpResponse} (h : r.status ≠ 304) : revalidated cached r = r := by
  unfold revalidated
  rw [if_neg fun hboth => h hboth.1]

theorem etag_revalidated {cached : CachedCard} {r : HttpResponse} (h : r.status = 304) (hbody : cached.body ≠ []) :
    revalidated cached r = { r with status := 200, body := cached.body, headers := (lit "etag", cached.etag) :: r.headers } ∧
      (revalidated cached r).etag = cached.etag := by
  have hr : revalidated cached r =
      { r with status := 200, body := cached.body, headers := (lit "etag", cached.etag) :: r.headers } := by
    unfold revalidated
    rw [if_pos ⟨h, by simpa using hbody⟩]
  refine ⟨hr, ?_⟩
  rw [hr]
  unfold HttpResponse.etag
  rw [List.find?_cons_of_pos (by simp)]
  rfl

/-- What the client takes for the answer is what it would have been answered without a cache. -/
theorem answer_same (hservers : ConditionalServers E) (hpaired : Paired E s) :
    (Represents (answerAt E url s) ↔ Represents (plainAnswer E s.exchanges url)) ∧
      (Represents (plainAnswer E s.exchanges url) → (answerAt E url s).body = (plainAnswer E s.exchanges url).body ∧
        (answerAt E url s).etag = (plainAnswer E s.exchanges url).etag) := by
  obtain ⟨cached, hcached⟩ : ∃ cached, cached = (s.cards.lookup url).getD ⟨[], []⟩ := ⟨_, rfl⟩
  have hanswer : answerAt E url s = revalidated cached (E.http s.exchanges (discoveryRequest url cached)) := by
    rw [hcached]
    rfl
  by_cases hcurrent : Current E s.exchanges url cached.etag
  · obtain ⟨hstatus, htransport⟩ := hservers.unchanged _ _ _ hcurrent
    have hentry : s.cards.lookup url = some cached := by
      cases hlookup : s.cards.lookup url with
      | none =>
        rw [hlookup] at hcached
        exact absurd (congrArg CachedCard.etag hcached) hcurrent.1
      | some c =>
        rw [hlookup] at hcached
        rw [hcached]
        rfl
    obtain ⟨hbody, htagged⟩ := hpaired url cached hentry
    obtain ⟨n, hthen, hsame⟩ := htagged hcurrent.1
    obtain ⟨hr, hetag⟩ := etag_revalidated (r := E.http s.exchanges (discoveryRequest url cached)) hstatus hbody
    rw [hanswer, hetag, hr]
    have hrep : Represents (plainAnswer E s.exchanges url) := hcurrent.2.1
    refine ⟨iff_of_true ?_ hrep, fun _ => ⟨?_, hcurrent.2.2.symm⟩⟩
    · show ((E.http s.exchanges (discoveryRequest url cached)).transportError || _) = false
      rw [htransport]
      rfl
    · rw [← hsame]
      exact hservers.tags _ _ _ _ hthen hcurrent
  · rw [hanswer, hservers.changed _ _ _ hcurrent, revalidated_other (hservers.plain _ _)]
    exact ⟨Iff.rfl, fun _ => ⟨rfl, rfl⟩⟩

theorem answer_uncached (hservers : ConditionalServers E) : answerAt E url (uncached s) = plainAnswer E s.exchanges url :=
  revalidated_other (hservers.plain s.exchanges url)

/-- The cards that are served are the same. -/
theorem servedCard_uncached (hservers : ConditionalServers E) (urls : List Str) (hpaired : Paired E s) :
    servedCard E urls s = servedCard E urls (uncached s) := by
  induction urls generalizing s with
  | nil => rfl
  | cons url rest ih =>
    have hlater : servedCard E rest { s with exchanges := s.exchanges + 1 } =
        servedCard E rest { uncached s with exchanges := s.exchanges + 1 } := ih hpaired
    obtain ⟨hrep, hsame⟩ := @answer_same _ _ url hservers hpaired
    rw [servedCard_cons, servedCard_cons, answer_uncached hservers, hlater]
    by_cases hr : Represents (plainAnswer E s.exchanges url)
    · rw [if_neg (represents_iff.2 (hrep.2 hr)), if_neg (represents_iff.2 hr), (hsame hr).1]
      rfl
    · rw [if_pos (not_not.1 fun h => hr (hrep.1 (represents_iff.1 h))), if_pos (not_not.1 fun h => hr (represents_iff.1 h))]
      rfl

end Answers

/-! ## Entries -/

section Entries

variable {E : Env}

/-- The cached cards stay as they are. -/
def SameCards (s s' : World) : Prop := s'.cards = s.cards

instance : IsPreorder World SameCards where
  refl _ := rfl
  trans _ _ _ h h' := Eq.trans h' h

instance (i : AgentInterface) : Tx.Keeps SameCards (registerInterface i) := by
  refine ⟨fun s => ?_⟩
  rw [register_run]
  rfl

instance (is : List AgentInterface) : Tx.Keeps SameCards (is.forM registerInterface) := by
  refine ⟨fun s => ?_⟩
  rw [forM_register]
  rfl

instance (j : J) : Tx.Keeps SameCards (readCard j) := by
  unfold readCard
  infer_instance

/-- Pairs are kept. -/
def KeepsPairs (E : Env) (s s' : World) : Prop := Paired E s → Paired E s'

instance : IsPreorder World (KeepsPairs E) where
  refl _ := id
  trans _ _ _ h h' := h' ∘ h

theorem paired_congr {s s' : World} (h : s'.cards = s.cards) (hpaired : Paired E s) : Paired E s' := by
  unfold Paired
  rw [h]
  exact hpaired

/-- A card is cached under the URL and the tag it was read at. -/
theorem discoverAt_keeps (hservers : ConditionalServers E) (hempty : E.parse [] = none) (url : Str) :
    Tx.Keeps (KeepsPairs E) (discoverAt E url) := by
  refine ⟨fun s hpaired => ?_⟩
  have hat := @discoverAt_eq E url s
  have hsent : Paired E { s with exchanges := s.exchanges + 1 } := hpaired
  by_cases hbad : ((answerAt E url s).transportError || !(answerAt E url s).success) = true
  · rw [hat, if_pos hbad]
    exact hsent
  rw [if_neg hbad] at hat
  have hrep := represents_iff.1 hbad
  cases hj : (E.parse (answerAt E url s).body).filter isCard with
  | none =>
    rw [hj] at hat
    rw [hat]
    exact hsent
  | some j =>
    have hbody : (answerAt E url s).body ≠ [] := by
      intro hnil
      rw [hnil, hempty] at hj
      cases hj
    rw [hj] at hat
    rw [hat]
    refine Tx.ends_bind (R := KeepsPairs E) (fun h => ?_) (fun card w _ => ?_) hsent
    · exact paired_congr ((inferInstance : Tx.Keeps SameCards (readCard j)).out _) h
    · refine Tx.ends_bind (R := KeepsPairs E) (fun h => ?_) (fun _ v _ => Tx.ends_pure _ v)
      show Paired E (if card.valid then _ else w)
      split
      · intro url' c hc
        by_cases hurl : url' = url
        · subst hurl
          rw [AList.lookup_insert] at hc
          cases hc
          obtain ⟨hplain, hsame⟩ := @answer_same _ _ url' hservers hpaired
          obtain ⟨hbodies, htags⟩ := hsame (hplain.1 hrep)
          exact ⟨hbody, fun htag => ⟨s.exchanges, ⟨htag, hplain.1 hrep, htags.symm⟩, hbodies.symm⟩⟩
        · rw [AList.lookup_insert_ne hurl] at hc
          exact h url' c hc
      · exact h

theorem discover_keeps (hservers : ConditionalServers E) (hempty : E.parse [] = none) (endpoint : Str) :
    Tx.Keeps (KeepsPairs E) (discover E endpoint) := by
  have hfirst : ∀ urls, Tx.Keeps (KeepsPairs E) (firstCard E urls) := by
    intro urls
    induction urls with
    | nil => exact Tx.keeps_pure _
    | cons url rest ih =>
      have hat := discoverAt_keeps hservers hempty url
      unfold firstCard
      refine Tx.keeps_bind (k := fun card => ?_)
      split
      · exact Tx.keeps_pure _
      · exact ih
  have := hfirst (candidates endpoint)
  unfold discover
  infer_instance

end Entries

/-! ## Runs -/

section Runs

variable (E : Env)

/-- The worlds of a daemon whose client starts with an empty cache and discovers cards, whatever else happens
between that leaves the cache alone. -/
inductive CacheRun : World → Prop
  | start (s : World) (h : s.cards = ∅) : CacheRun s
  | discover {s : World} (h : CacheRun s) (endpoint : Str) : CacheRun (Tx.endState (discover E endpoint s))
  | other {s : World} (h : CacheRun s) (s' : World) (hcards : s'.cards = s.cards) : CacheRun s'

end Runs

/-- **The card cache is coherent.** In every run, a discovery returns the card, or throws, as that of a client
without a cache does at the same moment. -/
theorem cache_coherent (E : Env) (hservers : ConditionalServers E) (hempty : E.parse [] = none) (s : World)
    (hrun : CacheRun E s) (endpoint : Str) :
    Tx.result? (discover E endpoint s) = Tx.result? (discover E endpoint (uncached s)) := by
  have hpaired : Paired E s := by
    induction hrun with
    | start s h =>
      intro url c hc
      rw [h] at hc
      cases hc
    | discover _ endpoint ih => exact (discover_keeps hservers hempty endpoint).out _ ih
    | other _ s' hcards ih => exact paired_congr hcards ih
  have hfound : ∀ s, Tx.result? (discover E endpoint s) = (readServed (servedCard E (candidates endpoint) s)).toOption := by
    intro s
    obtain ⟨s', -, h⟩ := candidates_run (E := E) endpoint s
    rw [h]
    cases readServed (servedCard E (candidates endpoint) s) <;> rfl
  rw [hfound, hfound, servedCard_uncached hservers _ hpaired]

/-! ### A card that changes -/

/-- A server that has `rep` and honours `If-None-Match`. -/
def conditionally (rep : Nat → Str → HttpResponse) (n : Nat) (req : HttpRequest) : HttpResponse :=
  match req.headers.find? fun h => h.1 = lit "If-None-Match" with
  | none => rep n req.endpoint
  | some (_, tag) =>
    if Represents (rep n req.endpoint) ∧ (rep n req.endpoint).etag = tag then { status := 304 } else rep n req.endpoint

theorem conditionally_request (rep : Nat → Str → HttpResponse) (n : Nat) (url : Str) (cached : CachedCard) :
    conditionally rep n (discoveryRequest url cached) =
      if cached.etag ≠ [] ∧ Represents (rep n url) ∧ (rep n url).etag = cached.etag then { status := 304 } else rep n url := by
  obtain ⟨body, tag⟩ := cached
  cases tag with
  | nil => rfl
  | cons c tag =>
    have hheaders : (discoveryRequest url ⟨body, c :: tag⟩).headers.find? (fun h => h.1 = lit "If-None-Match") =
        some (lit "If-None-Match", c :: tag) := by
      unfold discoveryRequest
      simp +decide
    unfold conditionally
    rw [hheaders]
    simp only [ne_eq, List.cons_ne_nil, not_false_eq_true, true_and]
    rfl

theorem conditionally_servers {E : Env} {rep : Nat → Str → HttpResponse} (hhttp : E.http = conditionally rep)
    (hplain : ∀ n url, (rep n url).status ≠ 304)
    (htags : ∀ n m url, (rep n url).etag = (rep m url).etag → (rep n url).body = (rep m url).body) : ConditionalServers E := by
  have hrep : ∀ n url, plainAnswer E n url = rep n url := by
    intro n url
    unfold plainAnswer
    rw [hhttp, conditionally_request]
    rfl
  refine ⟨fun n url cached h => ?_, fun n url cached h => ?_, fun n url => ?_, fun n m url tag h h' => ?_⟩
  · unfold Current at h
    rw [hrep] at h
    rw [hhttp, conditionally_request, if_pos h]
    exact ⟨rfl, rfl⟩
  · unfold Current at h
    rw [hrep] at h ⊢
    rw [hhttp, conditionally_request, if_neg h]
  · rw [hrep]
    exact hplain n url
  · rw [hrep, hrep]
    have h2 := h.2.2
    have h2' := h'.2.2
    rw [hrep] at h2 h2'
    exact htags n m url (h2.trans h2'.symm)

def movedCard : J := cardFor "builder" "https://builder.example/new" "JSONRPC" ""

/-- The third request finds another card. -/
def movingServer (n : Nat) (_ : Str) : HttpResponse where
  status := 200
  body := if n < 2 then builderCard.text else movedCard.text
  headers := [(lit "etag", if n < 2 then lit "v1" else lit "v2")]

def movingEnv : Env := { Env.offline [builderCard, movedCard] with http := conditionally movingServer }

theorem movingEnv_servers : ConditionalServers movingEnv := by
  refine conditionally_servers (show _ = conditionally movingServer from rfl) (by simp [movingServer]) fun n m url h => ?_
  unfold movingServer at h ⊢
  by_cases hn : n < 2 <;> by_cases hm : m < 2 <;> simp +decide [hn, hm, HttpResponse.etag] at h ⊢

/-- After one discovery, the card is first confirmed and then replaced, as without a cache. -/
theorem cache_coherent_moving : let known := Tx.endState (discover movingEnv builder.endpoint {})
    Tx.result? (discover movingEnv builder.endpoint known) = Tx.result? (discover movingEnv builder.endpoint (uncached known)) ∧
    let later := Tx.endState (discover movingEnv builder.endpoint known)
    Tx.result? (discover movingEnv builder.endpoint later) =
      Tx.result? (discover movingEnv builder.endpoint (uncached later)) := by
  have hempty : movingEnv.parse [] = none := by decide +kernel
  have hknown : CacheRun movingEnv (Tx.endState (discover movingEnv builder.endpoint {})) := .discover (.start _ rfl) _
  exact ⟨cache_coherent movingEnv movingEnv_servers hempty _ hknown _,
    cache_coherent movingEnv movingEnv_servers hempty _ (.discover hknown _) _⟩

end A2ad.Client
