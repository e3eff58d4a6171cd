/-
Which host a public agent is called at: a card may name the local host in more ways than the
client knows, and only the known ones are replaced by the configured endpoint.
-/
import A2ad.Client.Card
import A2ad.Lib.Host

namespace A2ad.Client

open Bytes Host

/-! ## The host that is read -/

/-- The text the client takes for a host: a name in lower case, a literal as it is written. -/
def hostText : Written → Str
  | .literal text => text
  | .name text => lower text

/-- `url_host` finds the host of a URI. -/
theorem urlHost_written {uri : Str} {w : Written} (h : host? uri = some w) : urlHost uri = hostText w := by
  obtain ⟨authority, hauthority, hhost⟩ := Option.bind_eq_some_iff.1 h
  obtain ⟨⟨scheme, rest⟩, hcut, rfl⟩ := authority_ok hauthority
  have hport := hostIn_ok hhost
  unfold urlHost
  rw [hcut]
  dsimp only at hport ⊢
  generalize afterLast 64 _ = authority at hport ⊢
  obtain ⟨-, ⟨text, rfl, hclose, rfl⟩ | ⟨hopen, rfl⟩⟩ := hostPort_ok hport
  · show (if text.contains 93 then text.takeWhile (· ≠ 93) else []) = _
    rw [if_pos (by simpa using hclose)]
    rfl
  · split
    · exact absurd rfl hopen
    · rfl

/-- The spellings of the local host the client knows. -/
def known (host : Str) : Bool :=
  [lit "localhost", lit "::", lit "::1", lit "0.0.0.0"].contains host ||
    (host.length > 10 && (lit ".localhost").isSuffixOf host) || (lit "127.").isPrefixOf host

theorem isLocalOnlyUrl_written {uri : Str} {w : Written} (h : host? uri = some w) :
    isLocalOnlyUrl uri = known (hostText w) := by
  unfold isLocalOnlyUrl
  rw [urlHost_written h]
  rfl

/-! ## The endpoint of a public agent -/

namespace Agent

/-- The first interface of the card the client can call. -/
def preferred (a : Agent) : Option AgentInterface := a.card.bind fun card => card.interfaces.find? supported

theorem effectiveEndpoint_eq (a : Agent) :
    a.effectiveEndpoint = match a.preferred with
      | some i => (rewriteLocal a.endpoint i).url
      | none => a.endpoint := by
  have hinterface : a.effectiveInterface = match a.preferred with
      | some i => some (rewriteLocal a.endpoint i)
      | none => if a.endpoint.isEmpty then none else some ⟨a.endpoint, "JSONRPC", "1.0", []⟩ := rfl
  unfold effectiveEndpoint
  rw [hinterface]
  cases a.preferred with
  | some i => rfl
  | none => cases hendpoint : a.endpoint.isEmpty <;> rfl

end Agent

theorem rewriteLocal_url (endpoint : Str) (i : AgentInterface) :
    (rewriteLocal endpoint i).url =
      if endpoint ≠ [] ∧ isLocalOnlyUrl endpoint = false ∧ isLocalOnlyUrl i.url = true then endpoint else i.url := by
  unfold rewriteLocal
  by_cases hguard : endpoint ≠ [] ∧ isLocalOnlyUrl endpoint = false ∧ isLocalOnlyUrl i.url = true
  · rw [if_pos hguard, if_pos (by simp [hguard.1, hguard.2.1, hguard.2.2])]
  · rw [if_neg hguard, if_neg]
    intro h
    refine hguard ?_
    simpa [and_assoc] using h

/-- What replaces a local interface: the card's spelling of the local host is a known one, and the
endpoint is there and not written like the local host. -/
def Replaced (a : Agent) (w : Written) : Prop :=
  known (hostText w) = true ∧ a.endpoint ≠ [] ∧ isLocalOnlyUrl a.endpoint = false

/-- An agent whose endpoint is not local is called at the local host exactly if the first interface
its card offers is on the local host and not replaced. -/
theorem stays_public_iff (a : Agent) (hpublic : isLocalUri a.endpoint = false) :
    isLocalUri a.effectiveEndpoint = false ↔
      ∀ i w, a.preferred = some i → host? i.url = some w → w.isLocal = true → Replaced a w := by
  rw [a.effectiveEndpoint_eq]
  cases hpreferred : a.preferred with
  | none => exact ⟨fun _ i w hi => (nomatch hi), fun _ => hpublic⟩
  | some i =>
    dsimp only
    rw [rewriteLocal_url]
    constructor
    · rintro h _ w ⟨⟩ hw hlocal
      split at h
      · rename_i hguard
        rw [isLocalOnlyUrl_written hw] at hguard
        exact ⟨hguard.2.2, hguard.1, hguard.2.1⟩
      · unfold isLocalUri at h
        rw [hw] at h
        exact absurd hlocal (by simpa using h)
    · intro h
      split
      · exact hpublic
      · rename_i hguard
        unfold isLocalUri
        cases hw : host? i.url with
        | none => rfl
        | some w =>
          show w.isLocal = false
          by_contra hlocal
          obtain ⟨hknown, hendpoint, hwritten⟩ := h i w rfl hw (by simpa using hlocal)
          exact hguard ⟨hendpoint, hwritten, by rw [isLocalOnlyUrl_written hw, hknown]⟩

def sage (url : String) : Agent where
  endpoint := lit "https://marquisthesage.example/a2a/"
  card := some { interfaces := [⟨lit url, "JSONRPC", "1.0", []⟩] }

/-- An address of the loopback network in the dotted form is replaced. -/
theorem stays_public_dotted : isLocalUri (sage "http://127.0.0.1:9910/").effectiveEndpoint = false := by
  refine (stays_public_iff (sage "http://127.0.0.1:9910/") (by decide +kernel)).2 ?_
  have hpreferred : (sage "http://127.0.0.1:9910/").preferred = some ⟨lit "http://127.0.0.1:9910/", "JSONRPC", "1.0", []⟩ := by
    decide +kernel
  have hhost : host? (lit "http://127.0.0.1:9910/") = some (.name (lit "127.0.0.1")) := by decide +kernel
  rintro i w hi hw -
  rw [hpreferred] at hi
  cases hi
  rw [hhost] at hw
  cases hw
  exact ⟨by decide +kernel, by decide +kernel, by decide +kernel⟩

/-- A trailing dot, a number, and an address of all eight groups are not. -/
theorem spelled_otherwise :
    isLocalUri (sage "").endpoint = false ∧
      isLocalUri (sage "http://localhost.:9910/").effectiveEndpoint = true ∧
      isLocalUri (sage "http://2130706433:9910/").effectiveEndpoint = true ∧
      isLocalUri (sage "http://[0:0:0:0:0:0:0:1]:9910/").effectiveEndpoint = true := by
  decide +kernel

end A2ad.Client
