/-
Which agent a directory is routed to: the rule of the deepest directory that is the working
directory or above it. The root is above every directory, but its text followed by a slash begins
no other path.
-/
import A2ad.Daemon.State
import A2ad.Lib.Dirs

namespace A2ad

open Bytes Dirs

/-! ## Rules -/

section Rules

variable (canonical : Str → Str) (cwd : Str)

/-- The rule is for the directory or an ancestor of it. -/
def Covers (rule : ProjectRule) : Prop := components (canonical rule.path) <+: components (canonical cwd)

def ruleDepth (rule : ProjectRule) : Nat := (components (canonical rule.path)).length

/-- The same rules, where only rules for different directories have changed places. -/
def Reordered (rules rules' : List ProjectRule) : Prop :=
  ∀ p, (rules.filter fun r => canonical r.path = p) = rules'.filter fun r => canonical r.path = p

/-- The agent of a deepest rule that covers the directory, in whatever order the rules are. -/
structure RoutesLongest (c : Config) : Prop where
  nobody : c.defaultAgentFor canonical cwd = none ↔ ∀ rule ∈ c.projects, ¬ Covers canonical cwd rule
  longest : ∀ agent, c.defaultAgentFor canonical cwd = some agent → ∃ rule ∈ c.projects, rule.defaultAgent = agent ∧
    Covers canonical cwd rule ∧ ∀ other ∈ c.projects, Covers canonical cwd other → ruleDepth canonical other ≤ ruleDepth canonical rule
  order : ∀ projects, Reordered canonical c.projects projects →
    { c with projects := projects }.defaultAgentFor canonical cwd = c.defaultAgentFor canonical cwd

/-- What a path is compared with the canonical directory for. -/
def Matches (dir p : Str) : Prop := dir = p ∨ dir.length > p.length ∧ (p ++ [47]).isPrefixOf dir

instance (dir p : Str) : Decidable (Matches dir p) := inferInstanceAs (Decidable (_ ∨ _))

/-- What the rules seen so far leave: the first of the longest that match. -/
inductive Best (dir : Str) (rules : List ProjectRule) : Str × Str → Prop
  | nothing (h : ∀ r ∈ rules, ¬ Matches dir (canonical r.path)) : Best dir rules ([], [])
  | rule (r : ProjectRule) (first : rules.find? (fun r' => canonical r'.path = canonical r.path) = some r)
      (matched : Matches dir (canonical r.path))
      (longest : ∀ r' ∈ rules, Matches dir (canonical r'.path) → (canonical r'.path).length ≤ (canonical r.path).length) :
      Best dir rules (canonical r.path, r.defaultAgent)

end Rules

/-! ## The best rule -/

section Best

variable {canonical : Str → Str} {dir : Str} {rules rules' : List ProjectRule} {best : Str × Str}

/-- One more rule. -/
theorem best_step (hne : ∀ path, canonical path ≠ []) (h : Best canonical dir rules best) (r : ProjectRule) :
    Best canonical dir (rules ++ [r]) (Config.bestRule canonical dir best r) := by
  have hrule : Config.bestRule canonical dir best r =
      if Matches dir (canonical r.path) ∧ (canonical r.path).length > best.1.length then (canonical r.path, r.defaultAgent)
      else best := rfl
  rw [hrule]
  split
  · rename_i hnew
    obtain ⟨hmatches, hlonger⟩ := hnew
    -- no rule before it is for the same path: it would have been longer than the best, too
    have hlongest : ∀ r' ∈ rules, Matches dir (canonical r'.path) → (canonical r'.path).length ≤ best.1.length := by
      cases h with
      | nothing hno => exact fun r' hr' hm => absurd hm (hno r' hr')
      | rule q first matched longest => exact longest
    have hfirst : rules.find? (fun r' => canonical r'.path = canonical r.path) = none := by
      refine List.find?_eq_none.2 fun r' hr' hsame => ?_
      have hsame : canonical r'.path = canonical r.path := by simpa using hsame
      have hle := hlongest r' hr' (hsame ▸ hmatches)
      rw [hsame] at hle
      omega
    refine .rule r ?_ hmatches fun r' hr' hm => ?_
    · rw [List.find?_append, hfirst]
      simp
    · rcases List.mem_append.1 hr' with hr' | hr'
      · have := hlongest r' hr' hm
        omega
      · rw [List.mem_singleton.1 hr']
  · rename_i hold
    cases h with
    | nothing hno =>
      refine .nothing fun r' hr' hm => ?_
      rcases List.mem_append.1 hr' with hr' | hr'
      · exact hno r' hr' hm
      · rw [List.mem_singleton.1 hr'] at hm
        exact hold ⟨hm, List.length_pos_iff.2 (hne r.path)⟩
    | rule q first matched longest =>
      refine .rule q ?_ matched fun r' hr' hm => ?_
      · rw [List.find?_append, first]
        rfl
      · rcases List.mem_append.1 hr' with hr' | hr'
        · exact longest r' hr' hm
        · rw [List.mem_singleton.1 hr'] at hm ⊢
          by_contra hlonger
          exact hold ⟨hm, not_le.1 hlonger⟩

theorem best_run (hne : ∀ path, canonical path ≠ []) (rules : List ProjectRule) :
    Best canonical dir rules (rules.foldl (Config.bestRule canonical dir) ([], [])) := by
  induction rules using List.reverseRecOn with
  | nil => exact .nothing (by simp)
  | append_singleton rules r ih =>
    rw [List.foldl_append]
    exact best_step hne ih r

/-- A path matches a directory that it covers, unless it is the root and the directory is not. -/
theorem matches_iff {p : Str} (hp : Normal p) (hdir : Normal dir) :
    Matches dir p ↔ components p <+: components dir ∧ (p = [47] → dir = [47]) := by
  have hlonger : dir.length > p.length ∧ (p ++ [47]).isPrefixOf dir = true ↔ p ++ [47] <+: dir := by
    rw [List.isPrefixOf_iff_prefix, and_iff_right_iff_imp]
    intro h
    have := h.length_le
    simp at this
    omega
  unfold Matches
  rw [hlonger]
  by_cases hroot : p = [47]
  · subst hroot
    have hno : ¬ [47] ++ [47] <+: dir := by
      obtain ⟨cs, hcs, rfl⟩ := hdir
      rintro ⟨t, ht⟩
      cases cs with
      | nil => simp [dirPath] at ht
      | cons c cs =>
        obtain ⟨hc, hslash⟩ := hcs c (List.mem_cons_self ..)
        obtain ⟨x, c, rfl⟩ := List.exists_cons_of_ne_nil hc
        rw [dirPath_cons] at ht
        cases ht
        simp at hslash
    rw [or_iff_left hno]
    constructor
    · rintro rfl
      simp
    · intro h
      exact h.2 rfl
  · rw [hp.covers_iff hdir hroot]
    simp [hroot]

end Best

/-! ## Routing -/

section Routing

variable {canonical : Str → Str} {cwd : Str} {c : Config}

theorem reordered_mem {rules rules' : List ProjectRule} (h : Reordered canonical rules rules') {r : ProjectRule} :
    r ∈ rules ↔ r ∈ rules' := by
  have hmem := congrArg (r ∈ ·) (h (canonical r.path))
  simpa using hmem

/-- Of two paths that cover a directory, one is as long as the other only if it is the other. -/
theorem covers_total {p q dir : Str} (hp : Normal p) (hq : Normal q) (h : components p <+: components dir)
    (h' : components q <+: components dir) :
    (p.length ≤ q.length → (components p).length ≤ (components q).length) ∧ (p.length = q.length → p = q) := by
  rcases List.prefix_or_prefix_of_prefix h h' with hpq | hqp
  · refine ⟨fun _ => hpq.length_le, fun hlength => ?_⟩
    by_contra hne
    have := hp.length_lt hq hpq hne
    omega
  · by_cases hne : q = p
    · subst hne
      exact ⟨fun _ => le_rfl, fun _ => rfl⟩
    · have := hq.length_lt hp hqp hne
      exact ⟨fun _ => by omega, fun _ => by omega⟩

/-- What the best rule says about the agent: it is matched by no rule, or the first of the longest that match. -/
theorem default_spec (hcanonical : ∀ path, Normal (canonical path)) (hagents : ∀ rule ∈ c.projects, rule.defaultAgent ≠ []) :
    c.defaultAgentFor canonical cwd = none ∧ (∀ r ∈ c.projects, ¬ Matches (canonical cwd) (canonical r.path)) ∨
      ∃ r ∈ c.projects, c.defaultAgentFor canonical cwd = some r.defaultAgent ∧
        c.projects.find? (fun r' => canonical r'.path = canonical r.path) = some r ∧
        Matches (canonical cwd) (canonical r.path) ∧
        ∀ r' ∈ c.projects, Matches (canonical cwd) (canonical r'.path) → (canonical r'.path).length ≤ (canonical r.path).length := by
  have hbest := @best_run _ (canonical cwd) (fun path => (hcanonical path).ne_nil) c.projects
  have hagent : c.defaultAgentFor canonical cwd =
      if (c.projects.foldl (Config.bestRule canonical (canonical cwd)) ([], [])).2.isEmpty then none
      else some (c.projects.foldl (Config.bestRule canonical (canonical cwd)) ([], [])).2 := rfl
  rw [hagent]
  generalize c.projects.foldl (Config.bestRule canonical (canonical cwd)) ([], []) = best at hbest
  cases hbest with
  | nothing hno => exact .inl ⟨rfl, hno⟩
  | rule r first matched longest =>
    have hr := List.mem_of_find?_eq_some first
    refine .inr ⟨r, hr, ?_, first, matched, longest⟩
    rw [if_neg (by simpa using hagents r hr)]

/-- The first rules for a path are the same in every order that only moves rules for different ones. -/
theorem reordered_find {rules rules' : List ProjectRule} (h : Reordered canonical rules rules') (p : Str) :
    rules.find? (fun r => canonical r.path = p) = rules'.find? fun r => canonical r.path = p := by
  rw [← List.head?_filter, ← List.head?_filter, h p]

/-- **The longest ancestor is routed to, except that a rule for the root covers the root only.** With agents that have names,
routing takes a deepest rule that covers the directory, whatever the order, exactly if no rule is for the
root, or the directory is the root, or a rule for another directory covers it. -/
theorem routes_longest_iff (canonical : Str → Str) (hcanonical : ∀ path, Normal (canonical path)) (c : Config)
    (hagents : ∀ rule ∈ c.projects, rule.defaultAgent ≠ []) (cwd : Str) :
    RoutesLongest canonical cwd c ↔ (∀ rule ∈ c.projects, canonical rule.path ≠ lit "/") ∨ canonical cwd = lit "/" ∨
      ∃ rule ∈ c.projects, canonical rule.path ≠ lit "/" ∧ Covers canonical cwd rule := by
  have hmatches (r : ProjectRule) := matches_iff (hcanonical r.path) (hcanonical cwd)
  have hspec := @default_spec _ cwd _ hcanonical hagents
  have hroot : components (lit "/") = [] := by decide
  constructor
  · rintro ⟨hnobody, -, -⟩
    by_contra hno
    push Not at hno
    obtain ⟨⟨root, hmem, hpath⟩, hcwd, hothers⟩ := hno
    -- the root covers the directory, so somebody is routed to, by a rule that matches: not the root's
    rcases hspec with ⟨hnone, -⟩ | ⟨r, hr, -, -, hm, -⟩
    · refine hnobody.1 hnone root hmem ?_
      unfold Covers
      rw [hpath, hroot]
      exact List.nil_prefix
    · obtain ⟨hcovers, hcwdroot⟩ := (hmatches r).1 hm
      by_cases hrr : canonical r.path = lit "/"
      · exact hcwd (hcwdroot hrr)
      · exact hothers r hr hrr hcovers
  · intro hcond
    -- a rule that covers the directory matches it or is the root's, and then another one matches
    have hcovered : ∀ r ∈ c.projects, Covers canonical cwd r →
        Matches (canonical cwd) (canonical r.path) ∨ canonical r.path = lit "/" ∧
          ∃ r' ∈ c.projects, Matches (canonical cwd) (canonical r'.path) := by
      intro r hr hcovers
      by_cases hrr : canonical r.path = lit "/"
      · rcases hcond with hno | hcwd | ⟨r', hr', hne, hcovers'⟩
        · exact absurd hrr (hno r hr)
        · exact .inl ((hmatches r).2 ⟨hcovers, fun _ => hcwd⟩)
        · exact .inr ⟨hrr, r', hr', (hmatches r').2 ⟨hcovers', fun h => absurd h hne⟩⟩
      · exact .inl ((hmatches r).2 ⟨hcovers, fun h => absurd h hrr⟩)
    refine ⟨?_, ?_, ?_⟩
    · rcases hspec with ⟨hnone, hno⟩ | ⟨r, hr, hsome, -, hm, -⟩
      · refine iff_of_true hnone fun r hr hcovers => ?_
        rcases hcovered r hr hcovers with hm | ⟨-, r', hr', hm⟩
        · exact hno r hr hm
        · exact hno r' hr' hm
      · rw [hsome]
        exact iff_of_false nofun fun hno => hno r hr ((hmatches r).1 hm).1
    · intro agent hagent
      rcases hspec with ⟨hnone, -⟩ | ⟨r, hr, hsome, -, hm, hlongest⟩
      · rw [hnone] at hagent
        cases hagent
      · rw [hsome] at hagent
        cases hagent
        refine ⟨r, hr, rfl, ((hmatches r).1 hm).1, fun r' hr' hcovers => ?_⟩
        rcases hcovered r' hr' hcovers with hm' | ⟨hrr, -⟩
        · exact (covers_total (hcanonical _) (hcanonical _) hcovers ((hmatches r).1 hm).1).1 (hlongest r' hr' hm')
        · unfold ruleDepth
          rw [hrr, hroot]
          exact Nat.zero_le _
    · intro projects hsame
      have hmem : ∀ r, r ∈ projects ↔ r ∈ c.projects := fun r => (reordered_mem hsame).symm
      have hspec' := @default_spec _ cwd { c with projects := projects } hcanonical
        fun r hr => hagents r ((hmem r).1 hr)
      rcases hspec with ⟨hnone, hno⟩ | ⟨r, hr, hsome, hfirst, hm, hlongest⟩
      · rcases hspec' with ⟨hnone', -⟩ | ⟨r', hr', -, -, hm', -⟩
        · rw [hnone, hnone']
        · exact absurd hm' (hno r' ((hmem r').1 hr'))
      · rcases hspec' with ⟨-, hno'⟩ | ⟨r', hr', hsome', hfirst', hm', hlongest'⟩
        · exact absurd hm (hno' r ((hmem r).2 hr))
        · have hpath : canonical r.path = canonical r'.path :=
            (covers_total (hcanonical _) (hcanonical _) ((hmatches r).1 hm).1 ((hmatches r').1 hm').1).2
              (le_antisymm (hlongest' r ((hmem r).2 hr) hm) (hlongest r' ((hmem r').1 hr') hm'))
          rw [reordered_find hsame, hpath] at hfirst
          rw [hsome, hsome', Option.some.inj (hfirst'.symm.trans hfirst)]

end Routing

/-- A rule for the root and one for another directory. -/
def rootRouting : Config where
  projects := [⟨"/", "general"⟩, ⟨"/data/proj", "builder"⟩]

/-- Under the second directory the second rule is the longest. -/
theorem routes_longest_proj : RoutesLongest tidy "/data/proj/tools" rootRouting :=
  (routes_longest_iff tidy normal_tidy rootRouting (by decide) "/data/proj/tools").2 (.inr (.inr ⟨⟨"/data/proj", "builder"⟩,
    by decide, by decide, show components (lit "/data/proj") <+: components (lit "/data/proj/tools") by decide⟩))

/-- Elsewhere the rule for the root is the only one that covers the directory, and nobody is routed to. -/
theorem root_routes_nobody : rootRouting.defaultAgentFor tidy "/data/project" = none ∧
    Covers tidy "/data/project" ⟨"/", "general"⟩ ∧ ¬ RoutesLongest tidy "/data/project" rootRouting := by
  have hnobody : rootRouting.defaultAgentFor tidy "/data/project" = none := by decide
  have hcovers : Covers tidy "/data/project" ⟨"/", "general"⟩ := show components (lit "/") <+: components (lit "/data/project") by decide
  exact ⟨hnobody, hcovers, fun h => h.nobody.1 hnobody _ (by decide) hcovers⟩

end A2ad
