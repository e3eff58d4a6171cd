/-
How a connection takes its request off the socket: what the kernel delivers, in which pieces ever,
is one line of text, and the pieces do not show in it.
-/
import A2ad.Ipc.Reply

namespace A2ad.Ipc

open Bytes Json

/-! ## Reading a line -/

/-- `kMaxMessage`. -/
def maxMessage : Nat := 4 * 1024 * 1024

/-- What `recv` returns. -/
inductive Received where
  | bytes (data : Str)
  /-- the peer has closed the connection -/
  | closed
  /-- `EAGAIN` -/
  | again
  | failed
deriving DecidableEq

/-- A turn of the loop: whether the server runs and the deadline lies ahead, and what `recv` returns then. -/
structure Turn where
  running : Bool
  early : Bool
  received : Received
deriving DecidableEq

inductive Scan where
  | request (line : Str)
  | overlong (line : Str)
  | unfinished (line : Str)
deriving DecidableEq

/-- The loop over the bytes of a buffer. -/
def scan (line : Str) : Str → Scan
  | [] => .unfinished line
  | c :: rest =>
    if c = 10 then .request line
    else
      let line := line ++ [c]
      if maxMessage ≤ line.length then .overlong line else scan line rest

/-- `got_request` and `line`. -/
structure Read where
  got : Bool
  line : Str
deriving DecidableEq

/-- The loop over the turns; `none` while it waits for the next. -/
def readLine (line : Str) (total : Nat) (turns : List Turn) : Option Read :=
  if maxMessage ≤ total then some ⟨false, line⟩
  else
    match turns with
    | [] => none
    | t :: turns =>
      if !(t.running && t.early) then some ⟨false, line⟩
      else
        match t.received with
        | .closed | .failed => some ⟨false, line⟩
        | .again => readLine line total turns
        | .bytes data =>
          match scan line data with
          | .request line => some ⟨true, line⟩
          | .overlong line => some ⟨false, line⟩
          | .unfinished line => readLine line (total + data.length) turns

/-- The text that is parsed and handled, if any is. -/
def Read.request (r : Read) : Option Str := if r.got && !r.line.isEmpty then some r.line else none

def noRequest : J := .object [("ok", .bool false), ("error", .str "no request received")]

/-- What is sent for a request: the reply of the handler, or what it or the parser throws. -/
def answer {σ : Type} (parse : Str → Except Exception J) (handler : J → Tx Exception σ J) (request : Option Str) (s : σ) :
    Except Exception Str × σ :=
  match request with
  | none => (respond (.ok noRequest), s)
  | some line =>
    match ((liftM (parse line) : Tx Exception σ J) >>= handler) s with
    | .ok reply s => (respond (.ok reply), s)
    | .error e s => (respond (.error e), s)

def handleConnection {σ : Type} (parse : Str → Except Exception J) (handler : J → Tx Exception σ J) (turns : List Turn)
    (s : σ) : Option (Except Exception Str × σ) :=
  (readLine [] 0 turns).map fun r => answer parse handler r.request s

/-! ## The request in a sequence of bytes -/

/-- The bytes before the first newline, if it stands at an offset from 1 to 4 MiB - 1. -/
def requestIn (sent : Str) : Option Str :=
  let line := sent.takeWhile (· ≠ 10)
  if 10 ∈ sent ∧ 1 ≤ line.length ∧ line.length ≤ maxMessage - 1 then some line else none

/-- The turns in which the kernel delivers `sent`: pieces of 1 to 4096 bytes and waits between them, while the
server runs and the deadline lies ahead. -/
inductive Delivers : List Turn → Str → Prop
  | nil : Delivers [] []
  | again {turns : List Turn} {sent : Str} : Delivers turns sent → Delivers (⟨true, true, .again⟩ :: turns) sent
  | bytes {turns : List Turn} {sent data : Str} : 1 ≤ data.length → data.length ≤ 4096 → Delivers turns sent →
    Delivers (⟨true, true, .bytes data⟩ :: turns) (data ++ sent)

section Framing

variable {line data sent : Str}

/-- What a buffer does to an unfinished line. -/
inductive Scanned (line data : Str) : Scan → Prop
  | request {front rest : Str} : data = front ++ 10 :: rest → (10 : UInt8) ∉ front → (line ++ front).length < maxMessage →
    Scanned line data (.request (line ++ front))
  | overlong {front rest : Str} : data = front ++ rest → (10 : UInt8) ∉ front → maxMessage ≤ (line ++ front).length →
    Scanned line data (.overlong (line ++ front))
  | unfinished : (10 : UInt8) ∉ data → (line ++ data).length < maxMessage → Scanned line data (.unfinished (line ++ data))

/-- Of a buffer `front` has been looked at, and the rest is looked at next. -/
theorem scanned_from {front : Str} (hfront : (10 : UInt8) ∉ front) (hlen : (line ++ front).length < maxMessage) (rest : Str) :
    Scanned line (front ++ rest) (scan (line ++ front) rest) := by
  induction rest generalizing front with
  | nil =>
    rw [List.append_nil]
    exact .unfinished hfront hlen
  | cons c rest ih =>
    unfold scan
    split
    · rename_i hc
      exact .request (by rw [hc]) hfront hlen
    rename_i hc
    dsimp only
    have hnext : (10 : UInt8) ∉ front ++ [c] := by
      simp only [List.mem_append, List.mem_singleton, not_or]
      exact ⟨hfront, Ne.symm hc⟩
    have hdata : front ++ c :: rest = (front ++ [c]) ++ rest := by simp
    rw [List.append_assoc, hdata]
    split
    · rename_i hlong
      exact .overlong rfl hnext hlong
    · rename_i hshort
      exact ih hnext (by omega)

theorem scanned (hlen : line.length < maxMessage) (data : Str) : Scanned line data (scan line data) := by
  have h : Scanned line ([] ++ data) (scan (line ++ []) data) := scanned_from (by simp) (by simpa using hlen) data
  rwa [List.nil_append, List.append_nil] at h

/-! ### Requests -/

/-- The request in a sequence whose first newline stands after `front`. -/
theorem requestIn_newline {front rest : Str} (h : (10 : UInt8) ∉ front) :
    requestIn (front ++ 10 :: rest) = if 1 ≤ front.length ∧ front.length ≤ maxMessage - 1 then some front else none := by
  have hfront : (front ++ 10 :: rest).takeWhile (fun c => decide (c ≠ 10)) = front := by
    have hall : ∀ c ∈ front, decide (c ≠ 10) = true := by
      intro c hc
      simp only [decide_eq_true_eq]
      rintro rfl
      exact h hc
    rw [List.takeWhile_append_of_pos hall]
    simp
  unfold requestIn
  rw [hfront]
  simp

/-- Without a newline among the first 4 MiB there is no request. -/
theorem requestIn_overlong {front rest : Str} (h : (10 : UInt8) ∉ front) (hlen : maxMessage ≤ front.length) :
    requestIn (front ++ rest) = none := by
  have hall : ∀ c ∈ front, decide (c ≠ 10) = true := by
    intro c hc
    simp only [decide_eq_true_eq]
    rintro rfl
    exact h hc
  unfold requestIn
  rw [List.takeWhile_append_of_pos hall]
  refine if_neg ?_
  rintro ⟨-, -, hshort⟩
  rw [List.length_append] at hshort
  have hcap : maxMessage - 1 < maxMessage := by decide
  omega

theorem requestIn_open (h : (10 : UInt8) ∉ sent) : requestIn sent = none := if_neg fun hnew => h hnew.1

/-! ### Runs -/

/-- At the head of the loop both counters show the length of the line, and the bytes so far are the line. -/
theorem readLine_delivers {turns : List Turn} (h : Delivers turns sent) (hline : (10 : UInt8) ∉ line)
    (hlen : line.length < maxMessage) :
    (readLine line line.length turns = none ↔ (10 : UInt8) ∉ line ++ sent ∧ (line ++ sent).length < maxMessage) ∧
      ∀ r, readLine line line.length turns = some r → r.request = requestIn (line ++ sent) := by
  induction h generalizing line with
  | nil =>
    unfold readLine
    rw [if_neg (by omega), List.append_nil]
    exact ⟨iff_of_true rfl ⟨hline, hlen⟩, nofun⟩
  | again _ ih =>
    unfold readLine
    rw [if_neg (by omega)]
    exact ih hline hlen
  | @bytes turns sent data hpos hbuffer _ ih =>
    unfold readLine
    rw [if_neg (by omega)]
    dsimp only
    rw [if_neg (by decide)]
    have hscan := scanned hlen data
    generalize scan line data = out at hscan
    cases hscan with
    | @request front rest hdata hfront hshort =>
      have hwhole : line ++ (data ++ sent) = (line ++ front) ++ 10 :: (rest ++ sent) := by
        rw [hdata]
        simp
      have hnone : (10 : UInt8) ∉ line ++ front := by
        rw [List.mem_append, not_or]
        exact ⟨hline, hfront⟩
      rw [hwhole, requestIn_newline hnone]
      refine ⟨iff_of_false nofun fun hopen => hopen.1 (by simp), ?_⟩
      rintro r ⟨⟩
      unfold Read.request
      generalize line ++ front = text at hshort
      cases text with
      | nil => rfl
      | cons c text =>
        show some (c :: text) = _
        rw [if_pos ⟨by simp, by omega⟩]
    | @overlong front rest hdata hfront hlong =>
      have hwhole : line ++ (data ++ sent) = (line ++ front) ++ (rest ++ sent) := by
        rw [hdata]
        simp
      have hnone : (10 : UInt8) ∉ line ++ front := by
        rw [List.mem_append, not_or]
        exact ⟨hline, hfront⟩
      rw [hwhole, requestIn_overlong hnone hlong]
      refine ⟨iff_of_false nofun fun hopen => ?_, ?_⟩
      · rw [List.length_append] at hopen
        omega
      · rintro r ⟨⟩
        rfl
    | unfinished hdata hshort =>
      have hnext := @ih (line ++ data) (by rw [List.mem_append, not_or]; exact ⟨hline, hdata⟩) hshort
      rw [List.length_append, List.append_assoc] at hnext
      exact hnext

/-- What comes after the end of the reading is not looked at; while it goes on, a connection that is closed
brings no request. -/
theorem readLine_closed (turns : List Turn) (running early : Bool) (line : Str) (total : Nat) :
    ∃ r, readLine line total (turns ++ [⟨running, early, .closed⟩]) = some r ∧
      (readLine line total turns = none ∧ r.request = none ∨ readLine line total turns = some r) := by
  induction turns generalizing line total with
  | nil =>
    unfold readLine
    by_cases hfull : maxMessage ≤ total
    · simp only [if_pos hfull]
      exact ⟨_, rfl, .inr rfl⟩
    · simp only [if_neg hfull]
      refine ⟨⟨false, line⟩, ?_, .inl ⟨trivial, rfl⟩⟩
      dsimp only [List.nil_append]
      split <;> rfl
  | cons t turns ih =>
    rw [List.cons_append]
    unfold readLine
    by_cases hfull : maxMessage ≤ total
    · simp only [if_pos hfull]
      exact ⟨_, rfl, .inr rfl⟩
    simp only [if_neg hfull]
    by_cases hstop : (!(t.running && t.early)) = true
    · simp only [if_pos hstop]
      exact ⟨_, rfl, .inr rfl⟩
    simp only [if_neg hstop]
    cases t.received with
    | bytes data =>
      dsimp only
      cases scan line data with
      | request => exact ⟨_, rfl, .inr rfl⟩
      | overlong => exact ⟨_, rfl, .inr rfl⟩
      | unfinished line => exact ih line (total + data.length)
    | closed => exact ⟨_, rfl, .inr rfl⟩
    | again => exact ih line total
    | failed => exact ⟨_, rfl, .inr rfl⟩

/-- **Framing does not depend on segmentation.** However the bytes of a client are delivered, the connection
waits as long as they have no newline and are fewer than 4 MiB; else, and when the peer closes, it
answers for the bytes before the first newline, if that stands at an offset from 1 to 4 MiB - 1, and
without a call of the handler otherwise. -/
theorem framing_independent {σ : Type} (parse : Str → Except Exception J) (handler : J → Tx Exception σ J)
    {turns : List Turn} {sent : Str} (h : Delivers turns sent) (s : σ) :
    (handleConnection parse handler turns s = none ↔ (10 : UInt8) ∉ sent ∧ sent.length < maxMessage) ∧
      (∀ out, handleConnection parse handler turns s = some out → out = answer parse handler (requestIn sent) s) ∧
      ∀ running early, handleConnection parse handler (turns ++ [⟨running, early, .closed⟩]) s =
        some (answer parse handler (requestIn sent) s) := by
  obtain ⟨hwaits, hreads⟩ := readLine_delivers h List.not_mem_nil (by decide)
  rw [List.nil_append] at hwaits hreads
  change (readLine [] 0 turns = none ↔ _) at hwaits
  change (∀ r, readLine [] 0 turns = some r → _) at hreads
  unfold handleConnection
  refine ⟨by rw [Option.map_eq_none_iff, hwaits], ?_, ?_⟩
  · intro out hout
    obtain ⟨r, hr, rfl⟩ := Option.map_eq_some_iff.1 hout
    rw [hreads r hr]
  · intro running early
    obtain ⟨r, hr, hcase⟩ := readLine_closed turns running early [] 0
    rw [hr, Option.map_some]
    rcases hcase with ⟨hnone, hempty⟩ | hsome
    · rw [hempty, requestIn_open (hwaits.1 hnone).1]
    · rw [hreads r hsome]

end Framing

/-- A request in two pieces with a wait between them, and more after the newline. -/
theorem framing_independent_pieces :
    handleConnection (fun line => .ok (.str line)) (fun req => (pure req : Tx Exception Unit J))
      [⟨true, true, .bytes "pi"⟩, ⟨true, true, .again⟩, ⟨true, true, .bytes "ng\npong"⟩, ⟨true, true, .closed⟩] () =
        some (.ok "\"ping\"\n", ()) := by
  have hdelivers : Delivers [⟨true, true, .bytes "pi"⟩, ⟨true, true, .again⟩, ⟨true, true, .bytes "ng\npong"⟩]
      (lit "pi" ++ (lit "ng\npong" ++ [])) :=
    .bytes (by decide) (by decide) (.again (.bytes (by decide) (by decide) .nil))
  obtain ⟨-, -, hclosed⟩ := framing_independent (fun line => .ok (.str line)) (fun req => (pure req : Tx Exception Unit J))
    hdelivers ()
  exact (hclosed true true).trans (by decide)

end A2ad.Ipc
