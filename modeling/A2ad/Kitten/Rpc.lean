/-
The kitten's end of the socket: a request goes out as one line, and the first line that comes back with
an `ok` is its reply. Between the kitten and the daemon the bytes may be cut anywhere.
-/
import A2ad.Control.System
import A2ad.Ipc.Framing
import A2ad.Lib.JsonForm

namespace A2ad.Kitten

open Bytes Json Ipc

/-! ## Requests -/

/-- The operations that `_rpc` sends under a `request_id`. -/
def numbered : List Str :=
  ["submit", "respond", "cancel", "stream_submit", "push.create", "push.delete", "artifact.materialize"]

/-- `dict.setdefault`. -/
def setDefault (payload : J) (k : Str) (v : J) : J := if payload.contains k then payload else payload.set k v

/-- The payload as it is sent, with a new id `uuid`. An array or an object cannot be looked up in a set: Python raises. -/
def identified (uuid : Str) (payload : J) : Option J :=
  match payload.get? "op" with
  | some (.arr _) | some (.obj _) => none
  | some (.str op) => some (if op ∈ numbered then setDefault payload "request_id" (.str uuid) else payload)
  | _ => some payload

/-! ## Replies -/

/-- What Python strips: the white space of Unicode, in UTF-8. -/
def white : List Str :=
  [[9], [10], [11], [12], [13], [28], [29], [30], [31], [32], [0xC2, 0x85], [0xC2, 0xA0], [0xE1, 0x9A, 0x80],
    [0xE2, 0x80, 0x80], [0xE2, 0x80, 0x81], [0xE2, 0x80, 0x82], [0xE2, 0x80, 0x83], [0xE2, 0x80, 0x84], [0xE2, 0x80, 0x85],
    [0xE2, 0x80, 0x86], [0xE2, 0x80, 0x87], [0xE2, 0x80, 0x88], [0xE2, 0x80, 0x89], [0xE2, 0x80, 0x8A], [0xE2, 0x80, 0xA8],
    [0xE2, 0x80, 0xA9], [0xE2, 0x80, 0xAF], [0xE2, 0x81, 0x9F], [0xE3, 0x80, 0x80]]

/-- The text without the `ws` it begins with; `fuel` is its length. -/
def stripFrom (ws : List Str) : Nat → Str → Str
  | 0, s => s
  | fuel + 1, s =>
    match ws.find? fun w => w.isPrefixOf s with
    | some w => stripFrom ws fuel (s.drop w.length)
    | none => s

def strip (s : Str) : Str :=
  let left := stripFrom white s.length s
  (stripFrom (white.map List.reverse) left.length left.reverse).reverse

/-- What a line is to `_rpc`. -/
inductive Line where
  | reply (response : J)
  /-- a blank line, or a value without an `ok` -/
  | other
  /-- no UTF-8, or no JSON: Python raises -/
  | broken
deriving DecidableEq

def readLine (loads : Str → Option J) (line : Str) : Line :=
  if !Utf8.valid line then .broken
  else
    let line := strip line
    if line.isEmpty then .other
    else
      match loads line with
      | none => .broken
      | some response => if response.contains "ok" then .reply response else .other

inductive Heard where
  | reply (response : J)
  | broken
  /-- no newline is left in the buffer -/
  | wants (buf : Str)
deriving DecidableEq

/-- The loop over the lines of the buffer, byte by byte after `line`. -/
def hear (loads : Str → Option J) (line : Str) : Str → Heard
  | [] => .wants line
  | c :: rest =>
    if c = 10 then
      match readLine loads line with
      | .reply response => .reply response
      | .other => hear loads [] rest
      | .broken => .broken
    else hear loads (line ++ [c]) rest

/-- What `recv` does. -/
inductive Recv where
  | chunk (data : Str)
  | closed
  /-- a timeout, or an error of the socket -/
  | fails
deriving DecidableEq

inductive Outcome where
  | reply (response : J)
  | daemonClosed
  | raises
deriving DecidableEq

/-- The loop of `_rpc`; `none` while it waits. What has no newline in it has been looked at. -/
def receive (loads : Str → Option J) (buf : Str) : List Recv → Option Outcome
  | [] => none
  | .chunk data :: recvs =>
    if data.isEmpty then some .daemonClosed
    else
      match hear loads buf data with
      | .reply response => some (.reply response)
      | .broken => some .raises
      | .wants buf => receive loads buf recvs
  | .closed :: _ => some .daemonClosed
  | .fails :: _ => some .raises

/-- The kernel hands over `sent` in pieces of 1 to 65536 bytes. -/
inductive Pieces : List Recv → Str → Prop
  | nil : Pieces [] []
  | chunk {recvs : List Recv} {data sent : Str} : 1 ≤ data.length → data.length ≤ 65536 → Pieces recvs sent →
    Pieces (.chunk data :: recvs) (data ++ sent)

/-! ## What is sent -/

section Requests

variable {uuid : Str} {payload request : J}

/-- `_rpc` numbers exactly what the daemon takes for a mutation. -/
theorem numbered_iff {op : Str} : op ∈ numbered ↔ Control.mutation op = true := by
  unfold numbered Control.mutation
  simp only [List.mem_cons, List.not_mem_nil, or_false, Bool.or_eq_true, decide_eq_true_eq, or_assoc]

theorem setDefault_get? {k k' : Str} {v : J} (hobj : payload.isObject = true) : (setDefault payload k v).get? k' =
    if k' = k then some ((payload.get? k).getD v) else payload.get? k' := by
  unfold setDefault J.contains
  cases hget : payload.get? k with
  | none =>
    simp only [Option.isSome_none, Bool.false_eq_true, if_false, Option.getD_none]
    rw [J.get?_set hobj]
    exact if_congr eq_comm rfl rfl
  | some v' =>
    simp only [Option.isSome_some, if_true, Option.getD_some]
    split
    · rename_i hk
      rw [hk, hget]
    · rfl

/-- Only the id is added, and to a mutation only. -/
structure Numbered (uuid : Str) (payload request : J) : Prop where
  others : ∀ k : Str, k ≠ "request_id" → request.get? k = payload.get? k
  id : request.get? "request_id" =
    if Control.mutates payload then some ((payload.get? "request_id").getD (.str uuid)) else payload.get? "request_id"

theorem identified_numbered (hobj : payload.isObject = true) (h : identified uuid payload = some request) :
    Numbered uuid payload request := by
  unfold identified at h
  have hplain : Control.mutates payload = false → some payload = some request → Numbered uuid payload request := by
    rintro hmutates ⟨⟩
    exact ⟨fun _ _ => rfl, by rw [hmutates]; rfl⟩
  split at h
  · cases h
  · cases h
  · rename_i op hop
    have hmutates : Control.mutates payload = Control.mutation op := by
      unfold Control.mutates
      rw [hop]
    split at h
    · rename_i hnumbered
      cases h
      refine ⟨fun k hk => ?_, ?_⟩
      · rw [setDefault_get? hobj, if_neg hk]
      · rw [setDefault_get? hobj, if_pos rfl, hmutates, numbered_iff.1 hnumbered]
        rfl
    · rename_i hnumbered
      exact hplain (by rw [hmutates, ← Bool.not_eq_true, ← numbered_iff]; exact hnumbered) h
  · rename_i hop
    refine hplain ?_ h
    unfold Control.mutates
    split
    · rename_i op hget
      exact absurd hget (hop op)
    · rfl

end Requests

/-! ## Lines -/

section Lines

variable {loads : Str → Option J} {line data more : Str}

theorem hear_cons (c : UInt8) : hear loads line (c :: data) =
    if c = 10 then
      match readLine loads line with
      | .reply response => .reply response
      | .other => hear loads [] data
      | .broken => .broken
    else hear loads (line ++ [c]) data := rfl

/-- What is heard in the first part of the bytes is not heard otherwise for what comes after it. -/
theorem hear_append : hear loads line (data ++ more) =
    match hear loads line data with
    | .wants buf => hear loads buf more
    | heard => heard := by
  induction data generalizing line with
  | nil => rfl
  | cons c data ih =>
    rw [List.cons_append, hear_cons, hear_cons]
    split
    · cases readLine loads line with
      | reply => rfl
      | other => exact ih
      | broken => rfl
    · exact ih

theorem hear_open (h : (10 : UInt8) ∉ data) : hear loads line data = .wants (line ++ data) := by
  induction data generalizing line with
  | nil => rw [List.append_nil]; rfl
  | cons c data ih =>
    rw [List.mem_cons, not_or] at h
    rw [hear_cons, if_neg (Ne.symm h.1), ih h.2, List.append_assoc]
    rfl

/-- A line in the buffer is read. -/
theorem hear_line (h : (10 : UInt8) ∉ data) : hear loads [] (data ++ 10 :: more) =
    match readLine loads data with
    | .reply response => .reply response
    | .other => hear loads [] more
    | .broken => .broken := by
  rw [hear_append, hear_open h, List.nil_append]
  dsimp only
  rw [hear_cons, if_pos rfl]

/-- Lines that are no reply: blank ones, and events that are broadcast. -/
def Noise (loads : Str → Option J) (noise : Str) : Prop :=
  ∃ lines : List Str, noise = lines.flatMap (· ++ [10]) ∧ ∀ l ∈ lines, (10 : UInt8) ∉ l ∧ readLine loads l = .other

theorem hear_noise {noise : Str} (h : Noise loads noise) : hear loads [] (noise ++ more) = hear loads [] more := by
  obtain ⟨lines, rfl, hlines⟩ := h
  induction lines with
  | nil => rfl
  | cons l lines ih =>
    obtain ⟨⟨hopen, hother⟩, hrest⟩ := List.forall_mem_cons.1 hlines
    have hsplit : (l :: lines).flatMap (· ++ [10]) ++ more = l ++ 10 :: (lines.flatMap (· ++ [10]) ++ more) := by simp
    rw [hsplit, hear_line hopen, hother]
    exact ih hrest

/-- As long as the bytes end within a line nothing has been decided. -/
theorem hear_front {whole buf : Str} (h : hear loads line whole = .wants buf) (hfront : data <+: whole) :
    ∃ buf, hear loads line data = .wants buf := by
  obtain ⟨more, rfl⟩ := hfront
  rw [hear_append] at h
  cases hheard : hear loads line data with
  | wants buf => exact ⟨buf, rfl⟩
  | reply response =>
    rw [hheard] at h
    cases h
  | broken =>
    rw [hheard] at h
    cases h

/-- The pieces do not show in what is heard. -/
theorem receive_pieces {recvs rest : List Recv} (h : Pieces recvs data) : receive loads line (recvs ++ rest) =
    match hear loads line data with
    | .reply response => some (.reply response)
    | .broken => some .raises
    | .wants buf => receive loads buf rest := by
  induction h generalizing line with
  | nil => rfl
  | @chunk recvs data sent hpos _ _ ih =>
    have hne : data.isEmpty = false := by
      cases data with
      | nil => simp at hpos
      | cons => rfl
    rw [List.cons_append, hear_append]
    conv_lhs => unfold receive
    rw [hne]
    cases hear loads line data with
    | reply => rfl
    | broken => rfl
    | wants buf => exact ih

end Lines

/-! ## A printed object -/

section Objects

theorem stripFrom_kept {ws : List Str} {s : Str} (h : ∀ w ∈ ws, w.isPrefixOf s = false) (fuel : Nat) : stripFrom ws fuel s = s := by
  cases fuel with
  | zero => rfl
  | succ fuel =>
    have hnone : ws.find? (fun w => w.isPrefixOf s) = none := by
      rw [List.find?_eq_none]
      intro w hw
      rw [h w hw]
      decide
    unfold stripFrom
    rw [hnone]

theorem moreFields_last (fs : List (Str × J)) : ∃ front, J.moreFields fs = front ++ [125] := by
  induction fs with
  | nil => exact ⟨[], rfl⟩
  | cons f fs ih =>
    obtain ⟨front, hfront⟩ := ih
    refine ⟨44 :: (quote f.1 ++ 58 :: (f.2.text ++ front)), ?_⟩
    show 44 :: (quote f.1 ++ 58 :: (f.2.text ++ J.moreFields fs)) = _
    rw [hfront]
    simp

/-- An object is printed between braces. -/
theorem text_braces {j : J} (h : j.isObject = true) : ∃ body, j.text = 123 :: (body ++ [125]) := by
  cases j with
  | obj fs =>
    cases fs with
    | nil => exact ⟨[], rfl⟩
    | cons f fs =>
      obtain ⟨front, hfront⟩ := moreFields_last fs
      refine ⟨quote f.1 ++ 58 :: (f.2.text ++ front), ?_⟩
      show 123 :: (quote f.1 ++ 58 :: (f.2.text ++ J.moreFields fs)) = _
      rw [hfront]
      simp
  | _ => cases h

theorem strip_text {j : J} (h : j.isObject = true) : strip j.text = j.text := by
  obtain ⟨body, hbody⟩ := text_braces h
  have hleft : ∀ w ∈ white, w.isPrefixOf j.text = false := by
    rw [hbody]
    simp [white, List.isPrefixOf]
  have hright : ∀ w ∈ white.map List.reverse, w.isPrefixOf j.text.reverse = false := by
    rw [hbody]
    simp [white, List.isPrefixOf]
  unfold strip
  simp only [stripFrom_kept hleft, stripFrom_kept hright, List.reverse_reverse]

/-- A reply is read as what it is. -/
theorem readLine_text {loads : Str → Option J} {j : J} (hobj : j.isObject = true) (hutf8 : j.utf8 = true) (hloads : loads j.text = some j) :
    readLine loads j.text = if j.contains "ok" then .reply j else .other := by
  obtain ⟨body, hbody⟩ := text_braces hobj
  have hne : j.text.isEmpty = false := by rw [hbody]; rfl
  unfold readLine
  simp only [J.valid_text hutf8, strip_text hobj, hne, hloads, Bool.not_true, Bool.false_eq_true, if_false]

theorem text_open (j : J) : (10 : UInt8) ∉ j.text := fun h => absurd (J.plain_text j 10 h) (by decide)

end Objects

/-! ## An exchange -/

/-- The request can be sent as a line that the daemon reads back. -/
structure Crosses (dumps : J → Str) (parse : Str → Except Exception J) (request : J) : Prop where
  line : (10 : UInt8) ∉ dumps request
  nonempty : dumps request ≠ []
  short : (dumps request).length < maxMessage
  read : parse (dumps request) = .ok request

section Exchange

variable {σ : Type} {dumps : J → Str} {loads : Str → Option J} {parse : Str → Except Exception J} {handler : J → Tx Exception σ J}
variable {request : J} {s : σ}

/-- What the handler makes of the request. -/
def handled (handler : J → Tx Exception σ J) (request : J) (s : σ) : Except Exception J × σ :=
  match handler request s with
  | .ok reply s => (.ok reply, s)
  | .error e s => (.error e, s)

/-- The reply that the connection prints. -/
def shown : Except Exception J → J
  | .ok reply => reply
  | .error e => .object [("ok", .bool false), ("error", .str (lit "bad request: " ++ e.what))]

theorem respond_shown {outcome : Except Exception J} {out : Str} :
    respond outcome = .ok out ↔ (shown outcome).utf8 = true ∧ out = (shown outcome).text ++ [10] := by
  have hrespond : respond outcome = (shown outcome).dump >>= fun text => .ok (text ++ [10]) := by
    cases outcome <;> rfl
  rw [hrespond]
  constructor
  · intro h
    obtain ⟨text, htext, hout⟩ := Tx.except_bind_ok h
    obtain ⟨hutf8, rfl⟩ := J.dump_ok.1 htext
    cases hout
    exact ⟨hutf8, rfl⟩
  · rintro ⟨hutf8, rfl⟩
    rw [J.dump_ok.2 ⟨hutf8, rfl⟩]
    rfl

theorem answer_some {line : Str} (h : parse line = .ok request) :
    answer parse handler (some line) s = (respond (handled handler request s).1, (handled handler request s).2) := by
  have hbind : ((liftM (parse line) : Tx Exception σ J) >>= handler) s = handler request s := by
    rw [h]
    rfl
  show (match ((liftM (parse line) : Tx Exception σ J) >>= handler) s with
    | .ok reply s => (respond (.ok reply), s)
    | .error e s => (respond (.error e), s)) = _
  rw [hbind]
  unfold handled
  cases handler request s <;> rfl

theorem requestIn_crosses (h : Crosses dumps parse request) : requestIn (dumps request ++ [10]) = some (dumps request) := by
  have hpos := List.length_pos_of_ne_nil h.nonempty
  have hshort := h.short
  rw [requestIn_newline h.line, if_pos]
  omega

/-- The daemon takes the request whole, and runs the handler on it. -/
theorem handleConnection_whole (h : Crosses dumps parse request) {turns : List Turn} (hturns : Delivers turns (dumps request ++ [10])) :
    handleConnection parse handler turns s = some (respond (handled handler request s).1, (handled handler request s).2) := by
  obtain ⟨hwaits, hreads⟩ := readLine_delivers hturns List.not_mem_nil (by decide)
  rw [List.nil_append] at hwaits hreads
  cases hread : Ipc.readLine [] 0 turns with
  | none => exact absurd (by simp) (hwaits.1 hread).1
  | some r =>
    unfold handleConnection
    rw [hread, Option.map_some, hreads r hread, requestIn_crosses h, answer_some h.read]

/-- A request that is cut off is not handled. -/
theorem handleConnection_cut (h : Crosses dumps parse request) {turns : List Turn} {part : Str} (hturns : Delivers turns part)
    (hpart : part <+: dumps request ++ [10]) (hne : part ≠ dumps request ++ [10]) :
    handleConnection parse handler turns s = none ∧ ∀ running early,
      handleConnection parse handler (turns ++ [⟨running, early, .closed⟩]) s = some (respond (.ok noRequest), s) := by
  have hwithin : part <+: dumps request := (List.prefix_concat_iff.1 hpart).resolve_left hne
  have hopen : (10 : UInt8) ∉ part := fun hmem => h.line (hwithin.subset hmem)
  have hlen := hwithin.length_le
  have hshort := h.short
  obtain ⟨hwaits, -⟩ := readLine_delivers hturns List.not_mem_nil (by decide)
  have hread : Ipc.readLine [] 0 turns = none := hwaits.2 ⟨by simpa using hopen, by rw [List.nil_append]; omega⟩
  unfold handleConnection
  refine ⟨by rw [hread]; rfl, fun running early => ?_⟩
  obtain ⟨r, hr, ⟨-, hnone⟩ | hsome⟩ := readLine_closed turns running early [] 0
  · rw [hr, Option.map_some, hnone]
    rfl
  · rw [hread] at hsome
    cases hsome

/-- The reply is heard, whatever events come before it. -/
theorem hear_reply {noise out : Str} {outcome : Except Exception J} (hnoise : Noise loads noise) (hout : respond outcome = .ok out)
    (hobj : (shown outcome).isObject = true) (hok : (shown outcome).contains "ok" = true)
    (hloads : loads (shown outcome).text = some (shown outcome)) : hear loads [] (noise ++ out) = .reply (shown outcome) := by
  obtain ⟨hutf8, rfl⟩ := respond_shown.1 hout
  rw [hear_noise hnoise, hear_line (text_open _), readLine_text hobj hutf8 hloads, hok]
  rfl

/-- What is cut off is not heard. -/
theorem hear_cut {noise out part : Str} {outcome : Except Exception J} (hnoise : Noise loads noise) (hout : respond outcome = .ok out)
    (hpart : part <+: noise ++ out) (hne : part ≠ noise ++ out) : ∃ buf, hear loads [] part = .wants buf := by
  obtain ⟨-, rfl⟩ := respond_shown.1 hout
  rw [← List.append_assoc] at hpart hne
  have hopen : hear loads [] (noise ++ (shown outcome).text) = .wants ([] ++ (shown outcome).text) := by
    rw [hear_noise hnoise, hear_open (text_open _)]
  exact hear_front hopen ((List.prefix_concat_iff.1 hpart).resolve_left hne)

end Exchange

/-- **The exchange is whole or nothing.** However the bytes of an exchange are cut on their way: the daemon runs the
handler once and on exactly the request, and the kitten returns exactly the reply, whatever events are broadcast
before it; a request of which a part is missing is not handled; and of a reply of which a part is missing nothing is
returned. The request is the payload, under an id if it is a mutation. -/
theorem rpc_exchange {σ : Type} (dumps : J → Str) (loads : Str → Option J) (parse : Str → Except Exception J)
    (handler : J → Tx Exception σ J) (s : σ) {uuid : Str} {payload request : J} (hobj : payload.isObject = true)
    (hrequest : identified uuid payload = some request) (hcrosses : Crosses dumps parse request)
    (hok : (shown (handled handler request s).1).contains "ok" = true)
    (hloads : loads (shown (handled handler request s).1).text = some (shown (handled handler request s).1)) :
    Numbered uuid payload request ∧
      (∀ turns, Delivers turns (dumps request ++ [10]) →
        handleConnection parse handler turns s = some (respond (handled handler request s).1, (handled handler request s).2)) ∧
      (∀ turns part, Delivers turns part → part <+: dumps request ++ [10] → part ≠ dumps request ++ [10] →
        handleConnection parse handler turns s = none ∧ ∀ running early,
          handleConnection parse handler (turns ++ [⟨running, early, .closed⟩]) s = some (respond (.ok noRequest), s)) ∧
      ∀ out noise, respond (handled handler request s).1 = .ok out → Noise loads noise →
        (∀ recvs rest, Pieces recvs (noise ++ out) →
          receive loads [] (recvs ++ rest) = some (.reply (shown (handled handler request s).1))) ∧
        ∀ recvs part, Pieces recvs part → part <+: noise ++ out → part ≠ noise ++ out →
          receive loads [] recvs = none ∧ receive loads [] (recvs ++ [.closed]) = some .daemonClosed ∧
            receive loads [] (recvs ++ [.fails]) = some .raises := by
  have hreply : (shown (handled handler request s).1).isObject = true := by
    obtain ⟨v, hv⟩ := Option.isSome_iff_exists.1 hok
    exact J.isObject_of_get? hv
  refine ⟨identified_numbered hobj hrequest, fun turns => handleConnection_whole hcrosses,
    fun turns part => handleConnection_cut hcrosses, fun out noise hout hnoise => ⟨fun recvs rest hpieces => ?_,
      fun recvs part hpieces hpart hne => ?_⟩⟩
  · rw [receive_pieces hpieces, hear_reply hnoise hout hreply hok hloads]
  · obtain ⟨buf, hbuf⟩ := hear_cut hnoise hout hpart hne
    have hmore : ∀ rest, receive loads [] (recvs ++ rest) = receive loads buf rest := by
      intro rest
      rw [receive_pieces hpieces, hbuf]
    refine ⟨?_, hmore [.closed], hmore [.fails]⟩
    have hnothing := hmore []
    rw [List.append_nil] at hnothing
    exact hnothing

/-- A cancellation, as the kitten makes it. -/
def cancelPayload : J := .object [("op", .str "cancel"), ("task_id", .str "t")]

def cancelRequest : J := .object [("op", .str "cancel"), ("task_id", .str "t"), ("request_id", .str "u")]

/-- What `json.dumps` makes of it: the keys in the order in which they were put in. -/
def cancelLine : Str := "\x7b\"op\": \"cancel\", \"task_id\": \"t\", \"request_id\": \"u\"\x7d"

def canceledReply : J := .object [("ok", .bool true), ("task_id", .str "t"), ("state", .str "CANCELED")]

def readCancel (line : Str) : Except Exception J := if line = cancelLine then .ok cancelRequest else .error ⟨"parse error"⟩

def readCanceled (line : Str) : Option J := if line = canceledReply.text then some canceledReply else none

set_option maxRecDepth 10000 in
/-- The cancellation arrives in one piece, and its reply comes back in two. -/
theorem rpc_exchange_cancel :
    handleConnection readCancel (fun _ => (pure canceledReply : Tx Exception Unit J)) [⟨true, true, .bytes (cancelLine ++ [10])⟩] () =
        some (.ok (canceledReply.text ++ [10]), ()) ∧
      receive readCanceled [] [.chunk (canceledReply.text.take 5), .chunk (canceledReply.text.drop 5 ++ [10])] =
        some (.reply canceledReply) := by
  have hcrosses : Crosses (fun _ => cancelLine) readCancel cancelRequest :=
    ⟨by decide, by decide, by decide, if_pos rfl⟩
  have hout : respond (.ok canceledReply) = .ok (canceledReply.text ++ [10]) := respond_shown.2 ⟨by decide, rfl⟩
  have hrequest : identified "u" cancelPayload = some cancelRequest := by decide
  obtain ⟨-, hwhole, -, hheard⟩ := rpc_exchange (fun _ => cancelLine) readCanceled readCancel
    (fun _ => (pure canceledReply : Tx Exception Unit J)) () rfl hrequest hcrosses rfl (if_pos rfl)
  have hdelivers : Delivers [⟨true, true, .bytes (cancelLine ++ [10])⟩] ((cancelLine ++ [10]) ++ []) :=
    .bytes (by decide) (by decide) .nil
  have hpieces : Pieces [.chunk (canceledReply.text.take 5), .chunk (canceledReply.text.drop 5 ++ [10])]
      (canceledReply.text.take 5 ++ ((canceledReply.text.drop 5 ++ [10]) ++ [])) :=
    .chunk (by decide) (by decide) (.chunk (by decide) (by decide) .nil)
  rw [List.append_nil] at hdelivers
  rw [List.append_nil, ← List.append_assoc, List.take_append_drop] at hpieces
  have hhandled : respond (handled (fun _ => (pure canceledReply : Tx Exception Unit J)) cancelRequest ()).1 =
      .ok (canceledReply.text ++ [10]) := hout
  refine ⟨(hwhole _ hdelivers).trans (by rw [hhandled]), ?_⟩
  exact (hheard _ [] hout ⟨[], rfl, nofun⟩).1 _ [] hpieces

end A2ad.Kitten
