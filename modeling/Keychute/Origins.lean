import Keychute.ProxyHandler

/-!
# Origins, in and out (`types/src/lib.rs`, `server/src/ui/mod.rs`, `server/src/proxy.rs`)

* `Origin.Accepted` : the two ways in, a text and a JSON value;
* `originField`, `Origin.toJson`, `outboundUrl` : the ways out, to the policy form, the database and the upstream;
* `UrlLib.Authority` : what the `url` crate makes of `https://host` and `https://host:port`;
* `origin_normal_form` : an accepted origin reads back from the form and from JSON, and its URL goes where it says.
-/

namespace Keychute
open Keychute.Origin (hostChar HostParsed hostChar_plain)
open Keychute.Proxy (Url UrlLib outboundUrl)

/-- An origin as the policy form spells it: `host[:port]`. -/
def originField (o : Origin) : String :=
  match o.port with
  | some port => o.host ++ ":" ++ toString port.toNat
  | none => o.host

/-- Some text parses to it, or some JSON value deserializes to it. -/
def Origin.Accepted (url : UrlHost) (o : Origin) : Prop :=
  (∃ s, Origin.parse url s = .ok o) ∨ ∃ j, Origin.fromJson url j = some o

/-- `Url::port_or_known_default`, of an `https` address. -/
def Proxy.Url.portOrKnownDefault (u : Url) : Nat := u.port.getD 443

/-- The check of `Origin::parse` on a host, by this library. -/
def Proxy.UrlLib.hostOf (lib : UrlLib) : UrlHost := fun host => (lib.parse ("https://" ++ host)).map (·.host)

/-- An address with a port is the address without it, at that port; the default port is left out. -/
structure Proxy.UrlLib.Authority (lib : UrlLib) : Prop where
  noPort : ∀ host u, host.toList.all hostChar = true → lib.parse ("https://" ++ host) = some u → u.port = none
  withPort : ∀ host u, host.toList.all hostChar = true → lib.parse ("https://" ++ host) = some u → ∀ p : UInt16,
    ∃ u', lib.parse ("https://" ++ host ++ ":" ++ toString p.toNat) = some u' ∧ u'.host = u.host ∧
      u'.port = if p = 443 then none else some p.toNat

/-! ## What is accepted -/

theorem ofParts_eq_some {url : UrlHost} {host : String} {port : Option UInt16} {o : Origin}
    (h : Origin.ofParts url host port = some o) : HostParsed url o.host ∧ o.port ≠ some 0 := by
  unfold Origin.ofParts at h
  split at h
  · cases h
  split at h
  · cases h
  rename_i hport
  split at h
  · cases h
  · rename_i parsed hparsed
    cases h
    exact ⟨(Origin.parse_eq_ok hparsed).1, hport⟩

/-- Both ways in leave a host that parses to itself, and no port 0. -/
theorem Origin.Accepted.parsed {url : UrlHost} {o : Origin} (h : o.Accepted url) :
    HostParsed url o.host ∧ o.port ≠ some 0 := by
  rcases h with ⟨s, hs⟩ | ⟨j, hj⟩
  · exact Origin.parse_eq_ok hs
  · unfold Origin.fromJson at hj
    split at hj
    · split at hj
      · exact ofParts_eq_some hj
      · cases hj
    · exact ofParts_eq_some hj
    · split at hj
      · exact ofParts_eq_some hj
      · cases hj
    · cases hj

/-! ## The form field -/

theorem isDigit_plain {c : Char} (h : c.isDigit = true) :
    isWhitespace c = false ∧ c ∉ [':', '/', '@', '?', '#'] := by
  have hrange : 48 ≤ c.toNat ∧ c.toNat ≤ 57 := by
    rw [Char.isDigit, Bool.and_eq_true, decide_eq_true_eq, decide_eq_true_eq] at h
    exact ⟨UInt32.le_iff_toNat_le.1 h.1, UInt32.le_iff_toNat_le.1 h.2⟩
  refine ⟨?_, ?_⟩
  · unfold isWhitespace
    simp only [Bool.or_eq_false_iff, Bool.and_eq_false_iff, decide_eq_false_iff_not, beq_eq_false_iff_ne]
    omega
  · intro hmem
    simp only [List.mem_cons, List.not_mem_nil, or_false] at hmem
    rcases hmem with rfl | rfl | rfl | rfl | rfl <;> exact absurd hrange (by decide)

theorem toList_toString_port (p : UInt16) : (toString p.toNat).toList = Nat.toDigits 10 p.toNat := Nat.toList_repr

theorem toList_originField (o : Origin) : (originField o).toList = o.host.toList ++
    match o.port with
    | some p => ':' :: Nat.toDigits 10 p.toNat
    | none => [] := by
  unfold originField
  cases o.port with
  | none => rw [List.append_nil]
  | some p =>
      rw [String.toList_append, String.toList_append, toList_toString_port, List.append_assoc]
      rfl

/-- No white space and nothing of a URL beyond the authority. -/
theorem originField_plain {url : UrlHost} {o : Origin} (h : HostParsed url o.host) {c : Char}
    (hc : c ∈ (originField o).toList) : isWhitespace c = false ∧ c ∉ ['/', '@', '?', '#'] := by
  rw [toList_originField, List.mem_append] at hc
  rcases hc with hc | hc
  · obtain ⟨hspace, hnot⟩ := hostChar_plain (h.chars c hc)
    refine ⟨hspace, fun hmem => hnot ?_⟩
    simp only [List.mem_cons, List.not_mem_nil, or_false] at hmem ⊢
    tauto
  · cases hport : o.port with
    | none => rw [hport] at hc; cases hc
    | some p =>
        rw [hport] at hc
        rcases List.mem_cons.1 hc with rfl | hc
        · decide
        · obtain ⟨hspace, hnot⟩ := isDigit_plain (isDigit_toDigits hc)
          refine ⟨hspace, fun hmem => hnot ?_⟩
          exact List.mem_cons_of_mem _ hmem

/-- The form field reads back. -/
theorem parse_originField {url : UrlHost} {o : Origin} (h : HostParsed url o.host) (hport : o.port ≠ some 0) :
    Origin.parse url (originField o) = .ok o := by
  have htrim : trim (originField o) = originField o := trim_of_no_whitespace fun c hc => (originField_plain h hc).1
  obtain ⟨host, port⟩ := o
  cases port with
  | none => exact h.parse
  | some p =>
      have hcontains : ∀ c ∈ ['/', '@', '?', '#'], (originField ⟨host, some p⟩).toList.contains c = false := by
        intro c hc
        rw [List.contains_eq_mem, decide_eq_false_iff_not]
        intro hmem
        exact (originField_plain h hmem).2 hc
      have hlist := toList_originField ⟨host, some p⟩
      have hcolon : ∀ c ∈ host.toList, (c != ':') = true := by
        intro c hc
        rw [bne_iff_ne]
        rintro rfl
        exact (hostChar_plain (h.chars _ hc)).2 (by simp)
      have hempty : (originField ⟨host, some p⟩).toList.isEmpty = false := by
        rw [hlist]
        simp
      have hcount : (originField ⟨host, some p⟩).toList.count ':' = 1 := by
        have hhost : host.toList.count ':' = 0 := by
          rw [List.count_eq_zero]
          intro hm
          exact absurd (hcolon _ hm) (by decide)
        have hdigits : (Nat.toDigits 10 p.toNat).count ':' = 0 := by
          rw [List.count_eq_zero]
          intro hm
          exact (isDigit_plain (isDigit_toDigits hm)).2 (by simp)
        rw [hlist, List.count_append, List.count_cons_self, hhost, hdigits]
      have htake : (originField ⟨host, some p⟩).toList.takeWhile (· != ':') = host.toList := by
        rw [hlist, List.takeWhile_append_of_pos hcolon]
        simp
      have hdrop : ((originField ⟨host, some p⟩).toList.dropWhile (· != ':')).drop 1 = Nat.toDigits 10 p.toNat := by
        rw [hlist, List.dropWhile_append_of_pos hcolon]
        simp
      have hread : parseUnsigned 65535 (String.ofList (Nat.toDigits 10 p.toNat)) = some p.toNat := by
        rw [← toList_toString_port, String.ofList_toList]
        exact parseUnsigned_toString (Nat.le_of_lt_succ p.toNat_lt)
      have hzero : p.toNat ≠ 0 := by
        intro h0
        exact hport (congrArg some (UInt16.toNat_inj.1 h0))
      unfold Origin.parse
      simp only [htrim, hempty, hcontains '/' (by simp), hcontains '@' (by simp), hcontains '?' (by simp),
        hcontains '#' (by simp), hcount, htake, hdrop, hread, String.ofList_toList, h.parseHost]
      simp [hzero, Functor.map, Except.map]

/-! ## The address -/

section Address
variable {lib : UrlLib} {o : Origin}

/-- The address of an accepted origin parses, to its host and its port. -/
theorem parse_toDisplay (hlib : lib.Authority) (h : HostParsed lib.hostOf o.host) :
    ∃ u, lib.parse o.toDisplay = some u ∧ u.host = some o.host ∧ u.portOrKnownDefault = o.effectivePort.toNat := by
  have htarget : (lib.parse ("https://" ++ o.host)).map (·.host) = some (some o.host) := h.target
  obtain ⟨u, hu, hhost⟩ := Option.map_eq_some_iff.1 htarget
  have hchars : o.host.toList.all hostChar = true := List.all_eq_true.2 h.chars
  obtain ⟨host, port⟩ := o
  cases port with
  | none =>
      refine ⟨u, hu, hhost, ?_⟩
      rw [Url.portOrKnownDefault, hlib.noPort host u hchars hu]
      rfl
  | some p =>
      obtain ⟨u', hu', hhost', hport'⟩ := hlib.withPort host u hchars hu p
      refine ⟨u', hu', hhost'.trans hhost, ?_⟩
      rw [Url.portOrKnownDefault, hport', Origin.effectivePort, Option.getD_some]
      split
      · rename_i hp
        rw [hp]
        rfl
      · rfl

/-- So does the URL that is sent to. -/
theorem outboundUrl_target (hlib : lib.Authority) (h : HostParsed lib.hostOf o.host) (path : String)
    (query : Option String) (sigv4Path : Bool) :
    ∃ u, outboundUrl lib o.toDisplay path query sigv4Path = some u ∧ u.host = some o.host ∧
      u.portOrKnownDefault = o.effectivePort.toNat := by
  obtain ⟨u, hu, hhost, hport⟩ := parse_toDisplay hlib h
  rw [outboundUrl, hu]
  exact ⟨_, rfl, hhost, hport⟩

end Address

/-! ## The same target -/

theorem sameTarget_equivalence : Equivalence fun a b : Origin => a.sameTarget b = true where
  refl a := Origin.sameTarget_iff.2 ⟨rfl, rfl⟩
  symm h := by
    rw [Origin.sameTarget_iff] at h ⊢
    exact ⟨h.1.symm, h.2.symm⟩
  trans h h' := Origin.sameTarget_trans h h'

/-- An accepted origin, from a text or from JSON, reads back from the form field and from its own JSON, and its address is
of its host and its effective port; having the same target is an equivalence, and on accepted origins that of having
addresses with the same host and port. -/
theorem origin_normal_form (lib : UrlLib) (hlib : lib.Authority) :
    (∀ o : Origin, o.Accepted lib.hostOf →
      Origin.parse lib.hostOf (originField o) = .ok o ∧ Origin.fromJson lib.hostOf o.toJson = some o ∧
        ∀ path query sigv4Path, ∃ u, outboundUrl lib o.toDisplay path query sigv4Path = some u ∧
          u.host = some o.host ∧ u.portOrKnownDefault = o.effectivePort.toNat) ∧
      (Equivalence fun a b : Origin => a.sameTarget b = true) ∧
      ∀ a b : Origin, a.Accepted lib.hostOf → b.Accepted lib.hostOf →
        ∀ ua ub, lib.parse a.toDisplay = some ua → lib.parse b.toDisplay = some ub →
          (a.sameTarget b = true ↔ ua.host = ub.host ∧ ua.portOrKnownDefault = ub.portOrKnownDefault) := by
  refine ⟨?_, sameTarget_equivalence, ?_⟩
  · intro o ho
    obtain ⟨hhost, hport⟩ := ho.parsed
    have hfield := parse_originField hhost hport
    exact ⟨hfield, Origin.fromJson_toJson hfield, outboundUrl_target hlib hhost⟩
  · intro a b ha hb ua ub hua hub
    obtain ⟨va, hva, hahost, haport⟩ := parse_toDisplay hlib ha.parsed.1
    obtain ⟨vb, hvb, hbhost, hbport⟩ := parse_toDisplay hlib hb.parsed.1
    obtain rfl := Option.some.inj (hua.symm.trans hva)
    obtain rfl := Option.some.inj (hub.symm.trans hvb)
    rw [Origin.sameTarget_iff, hahost, hbhost, haport, hbport, Option.some.injEq, UInt16.toNat_inj]

/-! ### A library for host names -/

/-- The address of a name and what follows it. -/
def namedUrl (name : List Char) : List Char → Option Url
  | [] => some ⟨some (String.ofList name), none, "/", none⟩
  | _ :: digits => (parseUnsigned 65535 (String.ofList digits)).map fun n =>
    ⟨some (String.ofList name), if n = 443 then none else some n, "/", none⟩

theorem namedUrl_host {name rest : List Char} {u : Url} (h : namedUrl name rest = some u) : u.host.isSome = true := by
  cases rest with
  | nil =>
      cases h
      rfl
  | cons c digits =>
      obtain ⟨n, -, rfl⟩ := Option.map_eq_some_iff.1 h
      rfl

/-- `https://`, a name as it is written, and at most one port. -/
def parseNamed (s : String) : Option Url :=
  if Proxy.startsWith "https://" s then
    namedUrl ((s.toList.drop 8).takeWhile (· != ':')) ((s.toList.drop 8).dropWhile (· != ':'))
  else none

def namedUrlLib : UrlLib where
  parse := parseNamed
  encodePath s := s
  encodeQuery s := s
  host_of_https rest u h := by
    unfold parseNamed at h
    split at h
    · exact namedUrl_host h
    · cases h

/-- A text after `https://`, cut at its first colon. -/
theorem parseNamed_https {host : String} (hhost : host.toList.all hostChar = true) {tail : String}
    (htail : ∀ c ∈ tail.toList.head?, c = ':') :
    parseNamed ("https://" ++ host ++ tail) = namedUrl host.toList tail.toList := by
  have hlist : ("https://" ++ host ++ tail).toList = "https://".toList ++ (host.toList ++ tail.toList) := by
    rw [String.toList_append, String.toList_append, List.append_assoc]
  have hstarts : Proxy.startsWith "https://" ("https://" ++ host ++ tail) = true := by
    rw [Proxy.startsWith, hlist, List.isPrefixOf_iff_prefix]
    exact List.prefix_append _ _
  have hrest : ("https://" ++ host ++ tail).toList.drop 8 = host.toList ++ tail.toList := by
    rw [hlist]
    rfl
  have hcolon : ∀ c ∈ host.toList, (c != ':') = true := by
    intro c hc
    rw [bne_iff_ne]
    rintro rfl
    exact (hostChar_plain (List.all_eq_true.1 hhost _ hc)).2 (by simp)
  rw [parseNamed, if_pos hstarts, hrest, List.takeWhile_append_of_pos hcolon, List.dropWhile_append_of_pos hcolon]
  cases htl : tail.toList with
  | nil => rw [List.takeWhile_nil, List.append_nil, List.dropWhile_nil]
  | cons c digits =>
      rw [htl] at htail
      have hc : c = ':' := htail c rfl
      rw [hc, List.takeWhile_cons_of_neg (by decide), List.append_nil, List.dropWhile_cons_of_neg (by decide)]

theorem namedUrlLib_authority : namedUrlLib.Authority where
  noPort host u hhost hu := by
    have hparse := @parseNamed_https host hhost "" (by simp)
    rw [String.append_empty] at hparse
    cases hparse.symm.trans hu
    rfl
  withPort host u hhost hu p := by
    have hparse := @parseNamed_https host hhost "" (by simp)
    rw [String.append_empty] at hparse
    cases hparse.symm.trans hu
    have htext : (":" ++ toString p.toNat).toList = ':' :: (toString p.toNat).toList := String.toList_append
    have hport := @parseNamed_https host hhost (":" ++ toString p.toNat) (by rw [htext]; simp)
    have hread : parseUnsigned 65535 (String.ofList (toString p.toNat).toList) = some p.toNat := by
      rw [String.ofList_toList]
      exact parseUnsigned_toString (Nat.le_of_lt_succ p.toNat_lt)
    rw [htext, namedUrl, hread, ← String.append_assoc] at hport
    refine ⟨_, hport, rfl, ?_⟩
    have h443 : p.toNat = 443 ↔ p = 443 := UInt16.toNat_inj (b := 443)
    simp only [h443]

/-- Written `API.example.com.:8443`, kept as `api.example.com` at 8443. -/
theorem origin_normal_form_port :
    Origin.parse namedUrlLib.hostOf " API.example.com.:8443" = .ok ⟨"api.example.com", some 8443⟩ ∧
      Origin.parse namedUrlLib.hostOf (originField ⟨"api.example.com", some 8443⟩) =
        .ok ⟨"api.example.com", some 8443⟩ ∧
      ∃ u, outboundUrl namedUrlLib "https://api.example.com:8443" "/v1" none false = some u ∧
        u.host = some "api.example.com" ∧ u.portOrKnownDefault = 8443 := by
  have hparse : Origin.parse namedUrlLib.hostOf " API.example.com.:8443" = .ok ⟨"api.example.com", some 8443⟩ := by
    decide +kernel
  have h := (origin_normal_form namedUrlLib namedUrlLib_authority).1 ⟨"api.example.com", some 8443⟩ (Or.inl ⟨_, hparse⟩)
  exact ⟨hparse, h.1, h.2.2 "/v1" none false⟩

end Keychute
