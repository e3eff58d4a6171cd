/-
Hosts of URIs (RFC 3986) and the addresses they denote: the authority of a URI is cut into user
information, host and port; a name is read as an IPv4 address in any of the forms of `inet_aton`,
a literal in brackets as an IPv6 address in any of the forms of RFC 4291.
-/
import A2ad.Lib.Url
import Mathlib.Data.List.TakeWhile

namespace Host

open Bytes

/-! ## Characters -/

def isAlpha (c : UInt8) : Bool := (65 ≤ c && c ≤ 90) || (97 ≤ c && c ≤ 122)

def isUnreserved (c : UInt8) : Bool := isAlpha c || isDigit c || (lit "-._~").contains c

def isSubDelim (c : UInt8) : Bool := (lit "!$&'()*+,;=").contains c

def lowerByte (c : UInt8) : UInt8 := if 65 ≤ c && c ≤ 90 then c + 32 else c

/-- Characters that satisfy `ok`, and escapes with two hexadecimal digits. -/
def isEncoded (ok : UInt8 → Bool) : Str → Bool
  | [] => true
  | 37 :: a :: b :: rest => (Url.hexValue a).isSome && (Url.hexValue b).isSome && isEncoded ok rest
  | c :: rest => ok c && isEncoded ok rest

/-! ## The host of a URI -/

def isScheme : Str → Bool
  | [] => false
  | c :: rest => isAlpha c && rest.all fun c => isAlpha c || isDigit c || (lit "+-.").contains c

/-- What stands after `scheme://`, up to the path, the query or the fragment. -/
def authority? (uri : Str) : Option Str :=
  match Bytes.splitAt? [58] uri with
  | some (scheme, 47 :: 47 :: rest) =>
    if isScheme scheme then some (rest.takeWhile fun c => c ≠ 47 ∧ c ≠ 63 ∧ c ≠ 35) else none
  | _ => none

/-- A host as it is written: what stands in brackets, or a name. -/
inductive Written
  | literal (text : Str)
  | name (text : Str)
deriving DecidableEq

def isPort : Str → Bool
  | [] => true
  | c :: digits => c == 58 && digits.all isDigit

/-- A host and perhaps a port. -/
def hostPort? : Str → Option Written
  | 91 :: rest =>
    let text := rest.takeWhile (· ≠ 93)
    let after := rest.drop text.length
    if after.head? = some 93 && isPort after.tail && text.all (fun c => isUnreserved c || isSubDelim c || c == 58) then
      some (.literal text)
    else none
  | text =>
    let name := text.takeWhile (· ≠ 58)
    if isPort (text.drop name.length) && isEncoded (fun c => isUnreserved c || isSubDelim c) name then some (.name name)
    else none

/-- The host of an authority, after the user information. -/
def hostIn? (authority : Str) : Option Written :=
  match Bytes.splitAt? [64] authority with
  | some (userinfo, rest) =>
    if isEncoded (fun c => isUnreserved c || isSubDelim c || c == 58) userinfo then hostPort? rest else none
  | none => hostPort? authority

def host? (uri : Str) : Option Written := (authority? uri).bind hostIn?

section Cutting

theorem splitAt?_one {c : UInt8} {s a b : Str} (h : Bytes.splitAt? [c] s = some (a, b)) : s = a ++ c :: b ∧ c ∉ a := by
  induction s generalizing a with
  | nil => cases h
  | cons d s ih =>
    unfold Bytes.splitAt? at h
    split at h
    · rename_i hd
      cases h
      have hcd : c = d := by simpa [List.isPrefixOf] using hd
      simp [hcd]
    · rename_i hd
      obtain ⟨⟨a', b'⟩, hrest, hp⟩ := Option.map_eq_some_iff.1 h
      cases hp
      obtain ⟨rfl, hnot⟩ := ih hrest
      have hcd : c ≠ d := fun hcd => hd (by simp [List.isPrefixOf, hcd])
      exact ⟨rfl, by simp [hcd, hnot]⟩

/-- A text is split where the first character of the separator first stands. -/
theorem splitAt?_first {c : UInt8} {a : Str} (h : c ∉ a) (sep b : Str) :
    Bytes.splitAt? (c :: sep) (a ++ c :: (sep ++ b)) = some (a, b) := by
  induction a with
  | nil =>
    show Bytes.splitAt? (c :: sep) (c :: (sep ++ b)) = _
    unfold Bytes.splitAt?
    rw [if_pos (by rw [List.isPrefixOf_iff_prefix]; exact ⟨b, rfl⟩)]
    simp
  | cons d a ih =>
    rw [List.mem_cons, not_or] at h
    rw [List.cons_append, Bytes.splitAt?, if_neg (by simp [List.isPrefixOf, h.1]), ih h.2]
    rfl

theorem takeWhile_reverse {c : UInt8} {b : Str} (h : c ∉ b) : b.reverse.takeWhile (fun d => decide (d ≠ c)) = b.reverse := by
  refine List.takeWhile_eq_self_iff.2 fun d hd => ?_
  have hne : d ≠ c := by
    rintro rfl
    exact h (List.mem_reverse.1 hd)
  simpa using hne

theorem afterLast_append {c : UInt8} {b : Str} (h : c ∉ b) (a : Str) : afterLast c (a ++ c :: b) = b := by
  have hall := takeWhile_reverse h
  unfold afterLast
  rw [List.reverse_append, List.reverse_cons, List.append_assoc, List.takeWhile_append, if_pos (by rw [hall]), List.singleton_append,
    List.takeWhile_cons_of_neg (by simp)]
  simp

theorem afterLast_self {c : UInt8} {b : Str} (h : c ∉ b) : afterLast c b = b := by
  unfold afterLast
  rw [takeWhile_reverse h, List.reverse_reverse]

/-- A character that is neither allowed nor part of an escape does not occur. -/
theorem notMem_encoded {ok : UInt8 → Bool} {c : UInt8} (hok : ok c = false) (hhex : Url.hexValue c = none) (hescape : c ≠ 37)
    {s : Str} (h : isEncoded ok s = true) : c ∉ s := by
  fun_induction isEncoded ok s with
  | case1 => simp
  | case2 a b rest ih =>
    simp only [Bool.and_eq_true] at h
    have ha : c ≠ a := by
      rintro rfl
      rw [hhex] at h
      cases h.1.1
    have hb : c ≠ b := by
      rintro rfl
      rw [hhex] at h
      cases h.1.2
    simp [hescape, ha, hb, ih h.2]
  | case3 d rest _ ih =>
    simp only [Bool.and_eq_true] at h
    have hd : c ≠ d := by
      rintro rfl
      rw [hok] at h
      cases h.1
    simp [hd, ih h.2]

theorem notMem_port {c : UInt8} (hcolon : c ≠ 58) (hdigit : isDigit c = false) {s : Str} (h : isPort s = true) : c ∉ s := by
  cases s with
  | nil => simp
  | cons d digits =>
    simp only [isPort, Bool.and_eq_true, beq_iff_eq, List.all_eq_true] at h
    rw [List.mem_cons, not_or, h.1]
    refine ⟨hcolon, fun hc => ?_⟩
    rw [h.2 c hc] at hdigit
    cases hdigit

/-- A host and its port hold no `@`, and the host is what stands in the brackets or before the colon. -/
theorem hostPort_ok {s : Str} {w : Written} (h : hostPort? s = some w) : (64 : UInt8) ∉ s ∧
    ((∃ rest, s = 91 :: rest ∧ (93 : UInt8) ∈ rest ∧ w = .literal (rest.takeWhile (· ≠ 93))) ∨
      s.head? ≠ some 91 ∧ w = .name (s.takeWhile (· ≠ 58))) := by
  unfold hostPort? at h
  split at h
  · rename_i rest
    dsimp only at h
    split at h
    · rename_i hok
      simp only [Bool.and_eq_true, decide_eq_true_eq, List.all_eq_true] at hok
      obtain ⟨⟨hclose, hport⟩, htext⟩ := hok
      cases h
      obtain ⟨port, hafter⟩ := List.head?_eq_some_iff.1 hclose
      have hcut := List.prefix_iff_eq_append.1 (List.takeWhile_prefix (l := rest) (· ≠ 93))
      rw [hafter] at hcut hport
      have htext64 : (64 : UInt8) ∉ rest.takeWhile (· ≠ 93) := by
        intro hm
        have := htext 64 hm
        revert this
        decide
      have hport64 : (64 : UInt8) ∉ port := notMem_port (by decide) (by decide) hport
      have hmem : ∀ c, c ∈ rest ↔ c ∈ rest.takeWhile (· ≠ 93) ∨ c = 93 ∨ c ∈ port := by
        intro c
        conv_lhs => rw [← hcut]
        rw [List.mem_append, List.mem_cons]
      refine ⟨?_, Or.inl ⟨rest, rfl, (hmem 93).2 (Or.inr (Or.inl rfl)), rfl⟩⟩
      rw [List.mem_cons, hmem]
      rintro (hc | hc | hc | hc)
      · exact absurd hc (by decide)
      · exact htext64 hc
      · exact absurd hc (by decide)
      · exact hport64 hc
    · cases h
  · rename_i hhead
    dsimp only at h
    split at h
    · rename_i hok
      rw [Bool.and_eq_true] at hok
      obtain ⟨hport, hname⟩ := hok
      cases h
      refine ⟨fun hm => ?_, Or.inr ⟨fun hopen => ?_, rfl⟩⟩
      · rw [← List.prefix_iff_eq_append.1 (List.takeWhile_prefix (l := s) (· ≠ 58)), List.mem_append] at hm
        rcases hm with hm | hm
        · exact notMem_encoded (by decide) (by decide) (by decide) hname hm
        · exact notMem_port (by decide) (by decide) hport hm
      · obtain ⟨rest, hrest⟩ := List.head?_eq_some_iff.1 hopen
        exact hhead rest hrest
    · cases h

/-- The host stands after the last `@` of the authority. -/
theorem hostIn_ok {authority : Str} {w : Written} (h : hostIn? authority = some w) :
    hostPort? (afterLast 64 authority) = some w := by
  unfold hostIn? at h
  split at h
  · rename_i userinfo rest hcut
    split at h
    · obtain ⟨rfl, -⟩ := splitAt?_one hcut
      rw [afterLast_append (hostPort_ok h).1]
      exact h
    · cases h
  · rw [afterLast_self (hostPort_ok h).1]
    exact h

/-- The authority stands after the first `://`. -/
theorem authority_ok {uri authority : Str} (h : authority? uri = some authority) : ∃ rest,
    Bytes.splitAt? (lit "://") uri = some rest ∧ authority = rest.2.takeWhile fun c => c ≠ 47 ∧ c ≠ 63 ∧ c ≠ 35 := by
  unfold authority? at h
  split at h
  · rename_i scheme rest hcut
    split at h
    · cases h
      obtain ⟨rfl, hcolon⟩ := splitAt?_one hcut
      exact ⟨_, splitAt?_first hcolon [47, 47] rest, rfl⟩
    · cases h
  · cases h

end Cutting

/-! ## Origins -/

structure Authority where
  userinfo : Option Str
  host : Str
  port : Option Str
deriving DecidableEq

/-- An authority in parts; the colons of a literal in brackets do not start the port. -/
def readAuthority (text : Str) : Authority :=
  let (userinfo, rest) := match Bytes.splitAt? [64] text with
    | some (userinfo, rest) => (some userinfo, rest)
    | none => (none, text)
  let n := if rest.head? = some 91 ∧ 93 ∈ rest then (rest.takeWhile (· ≠ 93)).length + 1
    else (rest.takeWhile (· ≠ 58)).length
  { userinfo := userinfo
    host := rest.take n
    port := match rest.drop n with
      | 58 :: port => some port
      | _ => none }

/-- The signs that end an authority: a path, a query or a fragment begins. -/
def endsAuthority (c : UInt8) : Bool := c == 47 || c == 63 || c == 35

/-- The scheme and the authority of a URI. -/
def origin? (uri : Str) : Option (Str × Authority) :=
  match Bytes.splitAt? [58] uri with
  | some (scheme, 47 :: 47 :: rest) =>
    if isScheme scheme then some (scheme, readAuthority (rest.takeWhile fun c => !endsAuthority c)) else none
  | _ => none

section Origins

variable {scheme a b : Str}

theorem colon_notMem_scheme (h : isScheme scheme = true) : (58 : UInt8) ∉ scheme := by
  cases scheme with
  | nil => simp
  | cons c rest =>
    simp only [isScheme, Bool.and_eq_true, List.all_eq_true] at h
    intro hmem
    rcases List.mem_cons.1 hmem with rfl | hmem
    · exact absurd h.1 (by decide)
    · exact absurd (h.2 _ hmem) (by decide)

theorem origin?_eq (h : isScheme scheme = true) (rest : Str) :
    origin? (scheme ++ lit "://" ++ rest) = some (scheme, readAuthority (rest.takeWhile fun c => !endsAuthority c)) := by
  have hcut : Bytes.splitAt? [58] (scheme ++ lit "://" ++ rest) = some (scheme, 47 :: 47 :: rest) := by
    rw [List.append_assoc]
    exact Bytes.splitAt?_of_notMem (colon_notMem_scheme h) (47 :: 47 :: rest)
  unfold origin?
  rw [hcut]
  exact if_pos h

/-- What follows a text does not reach its authority: nothing, something that ends an authority, or anything
when the text has ended it. -/
def Outside (a b : Str) : Prop :=
  b = [] ∨ (∃ c, b.head? = some c ∧ endsAuthority c = true) ∨ ∃ c ∈ a, endsAuthority c = true

theorem Outside.takeWhile (h : Outside a b) :
    (a ++ b).takeWhile (fun c => !endsAuthority c) = a.takeWhile fun c => !endsAuthority c := by
  rw [List.takeWhile_append]
  split
  · rename_i hall
    rcases h with rfl | ⟨c, hc, hends⟩ | ⟨c, hc, hends⟩
    · simp only [List.append_nil, List.takeWhile_nil] at hall ⊢
      exact (List.IsPrefix.eq_of_length (List.takeWhile_prefix _) hall).symm
    · obtain ⟨b', rfl⟩ : ∃ b', b = c :: b' := by
        cases b with
        | nil => cases hc
        | cons d b' => exact ⟨b', by rw [Option.some.inj hc]⟩
      rw [List.takeWhile_cons_of_neg (by simp [hends]), List.append_nil]
      exact (List.IsPrefix.eq_of_length (List.takeWhile_prefix _) hall).symm
    · have hself := List.IsPrefix.eq_of_length (List.takeWhile_prefix _) hall
      have hnot := List.takeWhile_eq_self_iff.1 hself c hc
      simp [hends] at hnot
  · rfl

/-- What does not reach the authority does not change the origin. -/
theorem Outside.origin? (hscheme : isScheme scheme = true) (h : Outside a b) :
    origin? (scheme ++ lit "://" ++ (a ++ b)) = origin? (scheme ++ lit "://" ++ a) := by
  rw [origin?_eq hscheme, origin?_eq hscheme, h.takeWhile]

theorem Outside.append {b' : Str} (h : Outside a b) (h' : Outside (a ++ b) b') : Outside a (b ++ b') := by
  rcases h with rfl | ⟨c, hc, hends⟩ | hmem
  · simpa using h'
  · refine .inr (.inl ⟨c, ?_, hends⟩)
    rw [List.head?_append, hc]
    rfl
  · exact .inr (.inr hmem)

end Origins

/-! ## Addresses -/

/-- A run of digits to a base. -/
def number (base : Nat) (digits : Str) : Option Nat :=
  if digits.isEmpty then none
  else digits.foldlM (fun n c => (Url.hexValue c).bind fun d => if d < base then some (base * n + d) else none) 0

/-- A number of an IPv4 address: hexadecimal after `0x`, octal after `0`, decimal otherwise. -/
def inetNumber : Str → Option Nat
  | 48 :: 120 :: digits => number 16 digits
  | 48 :: 88 :: digits => number 16 digits
  | 48 :: d :: digits => number 8 (d :: digits)
  | digits => number 10 digits

/-- `inet_aton`: up to four numbers, the last of which fills what is left of the 32 bits. -/
def inetAton (text : Str) : Option Nat :=
  match (text.splitOn 46).mapM inetNumber with
  | some [a] => if a < 2 ^ 32 then some a else none
  | some [a, b] => if a < 256 ∧ b < 2 ^ 24 then some (a * 2 ^ 24 + b) else none
  | some [a, b, c] => if a < 256 ∧ b < 256 ∧ c < 2 ^ 16 then some (a * 2 ^ 24 + b * 2 ^ 16 + c) else none
  | some [a, b, c, d] =>
    if a < 256 ∧ b < 256 ∧ c < 256 ∧ d < 256 then some (a * 2 ^ 24 + b * 2 ^ 16 + c * 2 ^ 8 + d) else none
  | _ => none

/-- One to four hexadecimal digits. -/
def group (text : Str) : Option Nat := if text.length ≤ 4 then number 16 text else none

/-- Four decimal numbers of one byte each. -/
def quad (text : Str) : Option (List Nat) :=
  match (text.splitOn 46).mapM (number 10) with
  | some [a, b, c, d] => if a < 256 ∧ b < 256 ∧ c < 256 ∧ d < 256 then some [a * 256 + b, c * 256 + d] else none
  | _ => none

/-- The 16-bit groups between colons; the last piece may hold the last 32 bits as an IPv4 address. -/
def groups : List Str → Option (List Nat)
  | [] => some []
  | [last] => ((group last).map fun n => [n]) <|> quad last
  | piece :: rest => (group piece).bind fun n => (groups rest).map (n :: ·)

def groupsIn (text : Str) : Option (List Nat) := if text.isEmpty then some [] else groups (text.splitOn 58)

/-- An IPv6 address: eight groups, or fewer with `::` for one or more groups of zeros. -/
def ipv6 (text : Str) : Option Nat :=
  let value (gs : List Nat) : Nat := gs.foldl (fun n g => n * 2 ^ 16 + g) 0
  match Bytes.splitAt? (lit "::") text with
  | none => (groupsIn text).bind fun gs => if gs.length = 8 then some (value gs) else none
  | some (left, right) => do
    -- an IPv4 address can only come last
    let gs ← if left.contains 46 then none else groupsIn left
    let gs' ← groupsIn right
    if gs.length + gs'.length ≤ 7 then
      some (value (gs ++ List.replicate (8 - gs.length - gs'.length) 0 ++ gs'))
    else none

/-! ## The local host -/

/-- 127.0.0.0/8. -/
def isLoopback (v4 : Nat) : Bool := v4 / 2 ^ 24 == 127

/-- The loopback address or the unspecified one. -/
def isLocal4 (v4 : Nat) : Bool := isLoopback v4 || v4 == 0

/-- `::1`, `::`, or a loopback address mapped into IPv6. -/
def isLocal6 (v6 : Nat) : Bool := v6 == 1 || v6 == 0 || (v6 / 2 ^ 32 == 0xffff && isLoopback (v6 % 2 ^ 32))

/-- `localhost` or a name under it, in any case and with or without the final dot. -/
def isLocalName (name : Str) : Bool :=
  let name := name.map lowerByte
  let name := if name.getLast? = some 46 then name.dropLast else name
  name = lit "localhost" || ((lit ".localhost").isSuffixOf name && (lit ".localhost").length < name.length)

namespace Written

/-- The host denotes the loopback or the unspecified address. -/
def isLocal : Written → Bool
  | literal text => ((ipv6 text).map isLocal6).getD false
  | name text =>
    match Url.decode text with
    | none => false
    | some decoded => isLocalName decoded || ((inetAton decoded).map isLocal4).getD false

end Written

/-- The host of the URI denotes the local host. -/
def isLocalUri (uri : Str) : Bool := ((host? uri).map Written.isLocal).getD false

example : ["http://127.0.0.1/", "http://2130706433", "http://0x7f.1:80", "http://0177.0.0.1", "http://u:p@0", "http://localhost./",
    "http://a.LOCALHOST?q", "http://%6c%6fcalhost", "http://[::1]", "http://[0:0::0:1]:80/", "http://[::ffff:127.0.0.1]",
    "http://[0:0:0:0:0:FFFF:7f00:1]#f"].all (fun uri => isLocalUri (lit uri)) = true := by decide +kernel

example : ["http://example.com/", "http://127.example.com", "http://128.0.0.1", "http://localhost.example", "http://[::2]",
    "http://[::ffff:128.0.0.1]", "http://[1:2:3]", "localhost:80", "http://host/@127.0.0.1"].all
      (fun uri => !isLocalUri (lit uri)) = true := by decide +kernel

end Host
