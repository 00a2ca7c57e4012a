import SpotiFriend.Text.Substring

/-!
# URI references

The grammar of RFC 3986, read from left to right.  `Uri.parse` takes a text apart at
its delimiters (`#`, `?`, `:`, `//`, `/`, `@`) and gives the parts when every one of
them is made of the characters the grammar allows there; else the text is no URI
reference.
-/

namespace Text.Uri

open Text

/-- `[ userinfo "@" ] host [ ":" port ]` -/
structure Authority where
  userinfo : Option (List Char)
  host : List Char
  port : Option (List Char)
  deriving DecidableEq

structure Reference where
  scheme : Option (List Char)
  authority : Option Authority
  path : List Char
  query : Option (List Char)
  fragment : Option (List Char)
  deriving DecidableEq

/-! ### Characters -/

def isAlpha (c : Char) : Bool := ('a' ≤ c && c ≤ 'z') || ('A' ≤ c && c ≤ 'Z')

def isDigit (c : Char) : Bool := '0' ≤ c && c ≤ '9'

def isHexdig (c : Char) : Bool := isDigit c || ('a' ≤ c && c ≤ 'f') || ('A' ≤ c && c ≤ 'F')

def isUnreserved (c : Char) : Bool := isAlpha c || isDigit c || ['-', '.', '_', '~'].contains c

def isSubDelim (c : Char) : Bool :=
  ['!', '$', '&', '\'', '(', ')', '*', '+', ',', ';', '='].contains c

def isPchar (c : Char) : Bool := isUnreserved c || isSubDelim c || c = ':' || c = '@'

def escaped (ok : Char → Bool) : List Char → Bool
  | [] => true
  | '%' :: a :: b :: s => isHexdig a && isHexdig b && escaped ok s
  | c :: s => c ≠ '%' && ok c && escaped ok s

def isScheme : List Char → Bool
  | [] => false
  | c :: s => isAlpha c && s.all (fun x => isAlpha x || isDigit x || ['+', '-', '.'].contains x)

def isUserinfo (s : List Char) : Bool :=
  escaped (fun c => isUnreserved c || isSubDelim c || c = ':') s

def isRegName (s : List Char) : Bool := escaped (fun c => isUnreserved c || isSubDelim c) s

def isPath (s : List Char) : Bool := escaped (fun c => isPchar c || c = '/') s

def isQuery (s : List Char) : Bool := escaped (fun c => isPchar c || c = '/' || c = '?') s

/-! ### Addresses in brackets -/

def isH16 (s : List Char) : Bool := s ≠ [] && s.length ≤ 4 && s.all isHexdig

def isDecOctet (s : List Char) : Bool :=
  s ≠ [] && s.length ≤ 3 && s.all isDigit && (s.length = 1 || s.head? ≠ some '0') &&
    s.foldl (fun n c => 10 * n + (c.toNat - '0'.toNat)) 0 ≤ 255

def isIPv4 (s : List Char) : Bool :=
  (components ['.'] s).length = 4 && (components ['.'] s).all isDecOctet

/-- The number of 16-bit groups, when the parts between the colons are groups; the
last part may be an IPv4 address, which counts for two. -/
def groups (ipv4Last : Bool) : List (List Char) → Option ℕ
  | [] => some 0
  | [p] => if isH16 p then some 1 else if ipv4Last && isIPv4 p then some 2 else none
  | p :: ps => if isH16 p then (groups ipv4Last ps).map (· + 1) else none

/-- The groups of a text in which `::` does not occur. -/
def groupsOf (ipv4Last : Bool) (s : List Char) : Option ℕ :=
  if s = [] then some 0 else groups ipv4Last (components [':'] s)

def isIPv6 (s : List Char) : Bool :=
  match components [':', ':'] s with
  | [whole] => groupsOf true whole = some 8
  | [left, right] =>
    match groupsOf false left, groupsOf true right with
    | some m, some n => m + n ≤ 7
    | _, _ => false
  | _ => false

def isIPvFuture (s : List Char) : Bool :=
  match cut '.' s with
  | (v :: version, some address) =>
    (v = 'v' || v = 'V') && version ≠ [] && version.all isHexdig && address ≠ [] &&
      address.all (fun c => isUnreserved c || isSubDelim c || c = ':')
  | _ => false

/-! ### Parts -/

/-- `host [ ":" port ]` -/
def parseHost (userinfo : Option (List Char)) : List Char → Option Authority
  | '[' :: s =>
    match cut ']' s with
    | (address, some []) =>
      if isIPv6 address || isIPvFuture address then
        some ⟨userinfo, '[' :: address ++ [']'], none⟩
      else none
    | (address, some (':' :: port)) =>
      if (isIPv6 address || isIPvFuture address) && port.all isDigit then
        some ⟨userinfo, '[' :: address ++ [']'], some port⟩
      else none
    | _ => none
  | s =>
    match cut ':' s with
    | (host, none) => if isRegName host then some ⟨userinfo, host, none⟩ else none
    | (host, some port) =>
      if isRegName host && port.all isDigit then some ⟨userinfo, host, some port⟩ else none

def parseAuthority (s : List Char) : Option Authority :=
  match cut '@' s with
  | (_, none) => parseHost none s
  | (userinfo, some rest) => if isUserinfo userinfo then parseHost (some userinfo) rest else none

def cutScheme (s : List Char) : Option (List Char) × List Char :=
  match cut ':' s with
  | (scheme, some rest) => if isScheme scheme then (some scheme, rest) else (none, s)
  | (_, none) => (none, s)

/-- What follows `//`: the authority, then the path from the first `/` on. -/
def cutAuthority (s : List Char) : List Char × List Char :=
  match cut '/' s with
  | (authority, some path) => (authority, '/' :: path)
  | (authority, none) => (authority, [])

/-- What follows the scheme and stands before `?` and `#`.  Without a scheme the first
segment of a path has no colon. -/
def parseHier (scheme : Option (List Char)) (s : List Char) :
    Option (Option Authority × List Char) :=
  match s with
  | '/' :: '/' :: s =>
    let (authority, path) := cutAuthority s
    match parseAuthority authority with
    | some a => if isPath path then some (some a, path) else none
    | none => none
  | s =>
    if isPath s && (scheme.isSome || !(cut '/' s).1.contains ':') then some (none, s) else none

def parse (text : List Char) : Option Reference :=
  let (s, fragment) := cut '#' text
  let (s, query) := cut '?' s
  let (scheme, s) := cutScheme s
  match parseHier scheme s with
  | some (authority, path) =>
    if query.all isQuery && fragment.all isQuery then
      some ⟨scheme, authority, path, query, fragment⟩
    else none
  | none => none

example : (parse "https://me@open.example.org:80/a%20b?q=1#x".toList).map Reference.authority =
    some (some ⟨some "me".toList, "open.example.org".toList, some "80".toList⟩) := by
  decide

end Text.Uri
