/-
The kitten's stream of events: `events` opens its channel, and then it reads a page, prints it and
acknowledges it, over and over. Any number of kittens follow the channel; they are started and killed
when they please, and so is the daemon, and connections break with requests and replies in them.
-/
import A2ad.Control.Cursor
import Mathlib.Logic.Function.Basic

namespace A2ad.Kitten

open Bytes Json Control

/-! ## One kitten -/

/-- Whether Python takes the value for true. -/
def truthy : J → Bool
  | .null => false
  | .bool b => b
  | .int n => n ≠ 0
  | .flt x => x.scaled.1 ≠ 0
  | .str s => !s.isEmpty
  | .arr xs => !xs.isEmpty
  | .obj fields => !fields.isEmpty

/-- `r.get(k)` as a condition. -/
def holds (r : J) (k : Str) : Bool := ((r.get? k).map truthy).getD false

/-- What `events` asks for; an acknowledgement comes with the page that has been printed. -/
inductive Ask where
  | opens
  | reads
  | acks (page : J)

def Ask.request (channel : Str) (limit : Int) : Ask → J
  | opens => .object [("op", .str "channel.open"), ("id", .str channel)]
  | reads => .object [("op", .str "channel.read"), ("id", .str channel), ("limit", .int limit)]
  | acks page => .object [("op", .str "channel.ack"), ("id", .str channel), ("cursor", (page.get? "next_cursor").getD .null)]

inductive State where
  | asks (a : Ask)
  | waits
  /-- the events of the page that are still to be printed -/
  | prints (left : List J) (page : J)
  /-- it has returned 0 -/
  | done
  /-- it has died, or has been killed -/
  | dead

/-- The connection of a kitten, which outlives it. -/
inductive Wire where
  | idle
  | sent (a : Ask)
  | replied (a : Ask) (r : J)

/-- A kitten that runs `events`; the log had `since` events when it was started. -/
structure Viewer where
  limit : Int
  follow : Bool
  since : Nat
  state : State
  wire : Wire

/-- What the kitten goes on to once the reply is there. The daemon sends the events of a page as an array. -/
def Viewer.after (k : Viewer) : Ask → J → State
  | .opens, r => if holds r "ok" then .asks .reads else .dead
  | .reads, r =>
    if holds r "ok" then
      match r.get? "events" with
      | some (.arr events) => .prints events r
      | _ => .dead
    else .dead
  | .acks page, r =>
    if holds r "ok" then if holds page "may_have_more" || k.follow then .asks .reads else .done
    else .dead

/-- The next request once a page has been printed. -/
def acknowledges (page : J) : State := if page.contains "next_cursor" then .asks (.acks page) else .dead

/-! ## The kittens and the daemon -/

/-- What has been printed stands with the number of the kitten. -/
structure Viewing where
  daemon : Sys := .init
  viewers : Nat → Option Viewer := fun _ => none
  shown : List (Nat × J) := []

namespace Viewing

def put (s : Viewing) (i : Nat) (k : Viewer) : Viewing := { s with viewers := Function.update s.viewers i (some k) }

inductive Act where
  /-- the daemon does something that no kitten on the channel has asked it to do -/
  | serves (l : Label)
  | starts (i : Nat)
  | sends (i : Nat)
  | handles (i : Nat) (l : Label)
  | hears (i : Nat)
  | prints (i : Nat)
  | acknowledges (i : Nat)
  /-- the connection breaks, and the kitten raises -/
  | breaks (i : Nat)
  | dies (i : Nat)

inductive Step (E : Env) (ch : Str) : Viewing → Act → Viewing → Prop
  | serves {s : Viewing} {l : Label} {t : Sys} : Control.Step E s.daemon l t →
    (∀ req entry, l = .enter req entry → req.get? "op" = some (.str "channel.ack") → req.get? "id" ≠ some (.str ch)) →
    Step E ch s (.serves l) { s with daemon := t }
  | starts {s : Viewing} {i : Nat} {limit : Int} {follow : Bool} : s.viewers i = none →
    Step E ch s (.starts i) (s.put i ⟨limit, follow, s.daemon.st.db.events.length, .asks .opens, .idle⟩)
  | sends {s : Viewing} {i : Nat} {k : Viewer} {a : Ask} : s.viewers i = some k → k.state = .asks a →
    Step E ch s (.sends i) (s.put i { k with state := .waits, wire := .sent a })
  | handles {s : Viewing} {i : Nat} {k : Viewer} {a : Ask} {r : J} {t : Sys} : s.viewers i = some k → k.wire = .sent a →
    Control.Step E s.daemon (.enter (a.request ch k.limit) (.reply r)) t →
    Step E ch s (.handles i (.enter (a.request ch k.limit) (.reply r)))
      ({ s with daemon := t }.put i { k with wire := .replied a r })
  | throws {s : Viewing} {i : Nat} {k : Viewer} {a : Ask} {r : J} {t : Sys} : s.viewers i = some k → k.wire = .sent a →
    Control.Step E s.daemon (.throws (a.request ch k.limit)) t → r.get? "ok" = some (.bool false) →
    Step E ch s (.handles i (.throws (a.request ch k.limit))) ({ s with daemon := t }.put i { k with wire := .replied a r })
  | hears {s : Viewing} {i : Nat} {k : Viewer} {a : Ask} {r : J} : s.viewers i = some k → k.state = .waits → k.wire = .replied a r →
    Step E ch s (.hears i) (s.put i { k with state := k.after a r, wire := .idle })
  | prints {s : Viewing} {i : Nat} {k : Viewer} {e : J} {left : List J} {page : J} : s.viewers i = some k →
    k.state = .prints (e :: left) page →
    Step E ch s (.prints i) ({ s with shown := s.shown ++ [(i, e)] }.put i { k with state := .prints left page })
  | acknowledges {s : Viewing} {i : Nat} {k : Viewer} {page : J} : s.viewers i = some k → k.state = .prints [] page →
    Step E ch s (.acknowledges i) (s.put i { k with state := acknowledges page })
  | breaks {s : Viewing} {i : Nat} {k : Viewer} : s.viewers i = some k →
    Step E ch s (.breaks i) (s.put i { k with state := .dead, wire := .idle })
  | dies {s : Viewing} {i : Nat} {k : Viewer} : s.viewers i = some k → Step E ch s (.dies i) (s.put i { k with state := .dead })

/-- The daemon's part of a move. -/
def daemonMove (m : Move Viewing Act) : Option (Move Sys Label) :=
  match m.label with
  | .serves l | .handles _ l => some ⟨m.pre.daemon, l, m.post.daemon⟩
  | _ => none

def daemonTrace (tr : List (Move Viewing Act)) : List (Move Sys Label) := tr.filterMap daemonMove

section Runs

variable {E : Env} {ch : Str} {s t : Viewing} {act : Act} {tr : List (Move Viewing Act)}

theorem daemonTrace_snoc (m : Move Viewing Act) : daemonTrace (tr ++ [m]) = daemonTrace tr ++ (daemonMove m).toList := by
  unfold daemonTrace
  rw [List.filterMap_append, List.filterMap_cons]
  cases daemonMove m <;> rfl

theorem daemonTrace_within {tr₁ tr₂ : List (Move Viewing Act)} {m : Move Sys Label} (h : m ∈ daemonTrace tr) :
    m ∈ daemonTrace (tr₁ ++ tr ++ tr₂) := by
  unfold daemonTrace at h ⊢
  rw [List.filterMap_append, List.filterMap_append]
  exact List.mem_append_left _ (List.mem_append_right _ h)

/-- The daemon runs as it does on its own. -/
theorem daemon_run (h : Run (Step E ch) {} tr s) : Run (Control.Step E) .init (daemonTrace tr) s.daemon := by
  induction h with
  | nil => exact .nil
  | @snoc tr s t act _ hstep ih =>
    rw [daemonTrace_snoc]
    cases hstep with
    | serves h => exact ih.snoc h
    | handles _ _ h => exact ih.snoc h
    | throws _ _ h => exact ih.snoc h
    | _ => simpa [daemonMove, put] using ih

end Runs

end Viewing

end A2ad.Kitten
