/-
The agents over restarts: the constructor loads them as they were kept and puts the configuration, which
is authoritative for routing, over them. A card never outlives the endpoint it was found at, nor one that could
not be kept the process that found it.
-/
import A2ad.Task.LastGood

namespace A2ad.TaskManager

open Bytes Json Client

/-! ## The constructor -/

/-- A configured agent, over what was kept of it. -/
def configure (id : Str) (c : AgentConfig) (kept : Option Agent) : Agent :=
  let label := if c.hostLabel.isEmpty then id else c.hostLabel
  match kept with
  | none => { id := id, endpoint := c.endpoint, hostLabel := label }
  | some a =>
    let a := if a.endpoint ≠ c.endpoint then { a with endpoint := c.endpoint, card := none, available := false, lastError := [] }
      else a
    { a with hostLabel := label }

/-- `loadAgents`. -/
def loadAgents (s : World) : AList fun _ : Str => Agent :=
  s.saved.entries.foldr (fun e agents => agents.insert e.1 (loadAgent e.1 e.2)) ∅

/-- The body of the loop over the configured agents. -/
def configureNext (agents : AList fun _ : Str => Agent) (e : Str × AgentConfig) : AList fun _ : Str => Agent :=
  agents.insert e.1 (configure e.1 e.2 (agents.lookup e.1))

/-- A new process on the tables of the old one: nothing else is left of it. -/
def restart (c : Config) (s : World) : World := { s with
  agents := c.agents.foldl configureNext (loadAgents s), discoveredAt := ∅, subscribed := [], bindings := ∅, cards := ∅
  rpcIds := 1 }

/-- What the snapshot keeps of a card. -/
def keptCard (card : AgentCard) : AgentCard where
  name := card.name
  description := card.description
  version := card.version
  capabilities := card.capabilities
  interfaces := card.interfaces
  authSchemes := card.authSchemes
  valid := card.valid

/-- The configuration of the process that runs, and its state. -/
structure Life where
  config : Config := {}
  world : World := {}

namespace Life

/-- The environment under the configuration of the process. -/
def env (E : Env) (l : Life) : Env := { E with config := l.config }

/-- Something happens in the process, or it ends and another one is started. -/
inductive Turn
  | happens (id : Option Str)
  | restarts
deriving DecidableEq

/-- A new configuration names its agents by the keys of a map. -/
def Step (E : Env) (l : Life) (turn : Turn) (l' : Life) : Prop :=
  match turn with
  | .happens id => l'.config = l.config ∧ Happens (l.env E) l.world id l'.world
  | .restarts => (l'.config.agents.map Prod.fst).Nodup ∧ l'.world = restart l'.config l.world

end Life

/-- What a discovery of the agent finds, and where. -/
def cardFound (E : Env) (id : Str) (m : Move Life Life.Turn) : Option (Str × AgentCard) :=
  if m.label = .happens (some id) then
    (m.pre.world.agents.lookup id).bind fun a =>
      (readServed (servedCard (m.pre.env E) (candidates a.endpoint) m.pre.world)).toOption.map fun card => (a.endpoint, card)
  else none

/-- What is found and kept: nobody else is writing then. -/
def cardKept (E : Env) (id : Str) (m : Move Life Life.Turn) : Option (Str × AgentCard) :=
  if E.agentsBusy m.pre.world.saves then none else cardFound E id m

/-- Where an agent is: at the configured endpoint, or else where it was found. -/
def whereabouts (c : Config) (id : Str) (last : Option (Str × AgentCard)) : Option Str :=
  ((c.agent id).map AgentConfig.endpoint).or (last.map Prod.fst)

/-- The card counts at the endpoint it was found at only. -/
def cardAt (endpoint : Str) (last : Option (Str × AgentCard)) : Option AgentCard :=
  (last.filter fun f => f.1 = endpoint).map Prod.snd

@[simp] theorem cardAt_none (endpoint : Str) : cardAt endpoint none = none := rfl

@[simp] theorem cardAt_same (endpoint : Str) (card : AgentCard) : cardAt endpoint (some (endpoint, card)) = some card := by
  simp [cardAt]

/-- The agent as it is called with the card, or by its endpoint alone. -/
def bare (endpoint : Str) (card : Option AgentCard) : Agent where
  endpoint := endpoint
  card := card
  available := card.any AgentCard.valid

section Remembered

variable {E : Env} {l l' : Life} {id : Str} {tr : List (Move Life Life.Turn)} {known kept : Option (Str × AgentCard)}

/-- The row is that of the card that was kept, and the agent in memory that of the card that is known, up to what
would be kept of it. -/
structure Remembers (l : Life) (id : Str) (known kept : Option (Str × AgentCard)) : Prop where
  row : (l.world.saved.lookup id).map (fun r => (r.endpoint, r.card, r.available)) =
    kept.map fun f => (f.1, cardSnapshot f.2, f.2.valid)
  agent : (l.world.agents.lookup id).map (fun a => (a.endpoint, a.card.map keptCard, a.available)) =
    (whereabouts l.config id known).map fun e => (e, (cardAt e known).map keptCard, (cardAt e known).any AgentCard.valid)

/-- Where no card is found and the agent and its row stay, the same is remembered. -/
theorem Remembers.unchanged {label : Life.Turn} (h : Remembers l id known kept) (hconfig : l'.config = l.config)
    (hfound : cardFound E id ⟨l, label, l'⟩ = none) (hagents : l'.world.agents.lookup id = l.world.agents.lookup id)
    (hsaved : l'.world.saved.lookup id = l.world.saved.lookup id) :
    Remembers l' id ((cardFound E id ⟨l, label, l'⟩).or known) ((cardKept E id ⟨l, label, l'⟩).or kept) := by
  have hkept : cardKept E id ⟨l, label, l'⟩ = none := by
    unfold cardKept
    rw [hfound, ite_self]
  rw [hfound, hkept, Option.none_or, Option.none_or]
  exact ⟨by rw [hsaved, h.row], by rw [hagents, hconfig, h.agent]⟩

/-- A card that is found is remembered, and by the next process if its row could be written. -/
theorem Remembers.found {label : Life.Turn} {a : Agent} {card : AgentCard} (h : Remembers l id known kept)
    (hconfig : l'.config = l.config) (ha : l.world.agents.lookup id = some a)
    (hfound : cardFound E id ⟨l, label, l'⟩ = some (a.endpoint, card))
    (hagents : l'.world.agents = l.world.agents.insert id (discovered a card))
    (hsaved : l'.world.saved = keptWith (l.env E) l.world id (discoveredRow a card)) :
    Remembers l' id ((cardFound E id ⟨l, label, l'⟩).or known) ((cardKept E id ⟨l, label, l'⟩).or kept) := by
  -- the card was found where the agent stands, so it stays there
  have hhome : whereabouts l.config id known = some a.endpoint := by
    have hagent := h.agent
    rw [ha] at hagent
    obtain ⟨e, he, heq⟩ := Option.map_eq_some_iff.1 hagent.symm
    rw [he, show e = a.endpoint from congrArg Prod.fst heq]
  have hstays : whereabouts l.config id (some (a.endpoint, card)) = some a.endpoint := by
    unfold whereabouts at hhome ⊢
    cases hc : l.config.agent id <;> simp_all
  rw [cardKept, hfound, Option.some_or]
  refine ⟨?_, ?_⟩
  · rw [hsaved, keptWith, show (l.env E).agentsBusy = E.agentsBusy from rfl]
    dsimp only
    split
    · exact h.row
    · rw [AList.lookup_insert]
      rfl
  · rw [hagents, AList.lookup_insert, hconfig, hstays]
    simp [discovered]

def builderAt (endpoint : Str) : Config := { agents := [(builder.id, { endpoint := endpoint })] }

def started : Life := ⟨builderAt builder.endpoint, restart (builderAt builder.endpoint) {}⟩

end Remembered

end A2ad.TaskManager
