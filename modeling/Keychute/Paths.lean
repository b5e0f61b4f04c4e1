import Keychute.Text
import Keychute.Lib.Segments

/-!
# Path canonicalization and prefix matching

* `decodeBytes`, `canonicalize` : the raw path portion of a URL, percent-decoded exactly once and refused
  where it is ambiguous, with the error texts of the source;
* `prefixMatches` : prefix match at `/` boundaries;
* `Canonical` : the outputs of `canonicalize`; `Checked` : what the checks on the decoded string say;
* `prefixMatches_iff_segments` : on canonical paths a prefix matches exactly when its segments, without a
  trailing empty one, begin the segments of the path; hence `prefixMatches_trans`, `prefixMatches_lower` and
  `prefixMatches_lower_total`;
* `prefixMatches_order` : the whole of it, with `prefixMatchesIndexed`, which never fails;
* `canonicalize_canonical_iff` : decoding a canonical path a second time gives it back exactly when it holds no
  `%`.
-/

namespace Keychute
open Keychute.Lib

/-! ## The functions of `paths.rs` -/

/-- `b'/'`, `b'\\'`, `b'%'`, `b'.'` and `b';'`. -/
abbrev slash : UInt8 := 47
abbrev backslash : UInt8 := 92
abbrev percent : UInt8 := 37
abbrev dot : UInt8 := 46
abbrev semicolon : UInt8 := 59

def hexVal (b : UInt8) : Option UInt8 :=
  if 48 ≤ b ∧ b ≤ 57 then some (b - 48)
  else if 97 ≤ b ∧ b ≤ 102 then some (b - 97 + 10)
  else if 65 ≤ b ∧ b ≤ 70 then some (b - 65 + 10)
  else none

/-- The byte an escape `%hl` stands for, or why it is refused. -/
def decodeEscape (h l : UInt8) : Except String UInt8 :=
  match hexVal h, hexVal l with
  | some hv, some lv =>
    let v := (hv <<< 4) ||| lv
    if v = slash then .error "encoded '/' in path"
    else if v = backslash then .error "encoded '\\' in path"
    else .ok v
  | _, _ => .error "invalid percent escape"

/-- The decoding loop of `canonicalize`. -/
def decodeBytes : List UInt8 → Except String (List UInt8)
  | [] => .ok []
  | b :: rest =>
    if b = percent then
      match rest with
      | h :: l :: rest =>
        match decodeEscape h l with
        | .ok v => (v :: ·) <$> decodeBytes rest
        | .error e => .error e
      | _ => .error "truncated percent escape"
    else if b = backslash then .error "raw '\\' in path"
    else (b :: ·) <$> decodeBytes rest

/-- The `/`-separated segments of a path. The separator is an ASCII character, so cutting the bytes at it
is cutting the characters at it. -/
def segments (s : String) : List (List UInt8) := (bytes s).splitOn slash

/-- The portion of a segment before any `;` is `.` or `..`. -/
def isDotSegment (seg : List UInt8) : Bool :=
  let base := seg.takeWhile (· != semicolon)
  base == [dot] || base == [dot, dot]

/-- `s.contains("//")`. -/
def hasDoubleSlash (s : String) : Bool := (bytes s).tails.any ([slash, slash].isPrefixOf ·)

def canonicalize (raw : String) : Except String String :=
  if (bytes raw).head? ≠ some slash then .error "path must start with '/'"
  else
    match decodeBytes (bytes raw) with
    | .error e => .error e
    | .ok decoded =>
      match fromUtf8 decoded with
      | none => .error "path is not valid UTF-8 after decoding"
      | some s =>
        if s.toList.any isControl then .error "control character in path"
        else if (segments s).any isDotSegment then .error "dot segment in path"
        else if hasDoubleSlash s then .error "duplicate slash in path"
        else .ok s

/-- Prefix match at `/` segment boundaries. An all-slash prefix other than `/` is refused. -/
def prefixMatches (pre path : String) : Bool :=
  if pre = "/" then true
  else
    let p := (bytes pre).rdropWhile (· == slash)
    if p = [] then false
    else bytes path == p ||
      (decide (byteLen path > p.length) && (bytes path)[p.length]? == some slash && p.isPrefixOf (bytes path))

/-! ## What `canonicalize` accepts -/

/-- The checks `canonicalize` makes on the decoded string, with the leading slash the raw one passes on. -/
structure Checked (s : String) : Prop where
  head : (bytes s).head? = some slash
  noControl : s.toList.any isControl = false
  noDot : (segments s).any isDotSegment = false
  noDouble : hasDoubleSlash s = false

theorem canonicalize_eq_ok {raw s : String} :
    canonicalize raw = .ok s ↔ (bytes raw).head? = some slash ∧ decodeBytes (bytes raw) = .ok (bytes s) ∧
      s.toList.any isControl = false ∧ (segments s).any isDotSegment = false ∧ hasDoubleSlash s = false := by
  unfold canonicalize
  constructor
  · intro h
    split at h
    · cases h
    rename_i hhead
    split at h
    · cases h
    rename_i decoded hdec
    split at h
    · cases h
    rename_i t ht
    split at h
    · cases h
    split at h
    · cases h
    split at h
    · cases h
    cases h
    rw [fromUtf8_eq_some] at ht
    subst ht
    exact ⟨by simpa using hhead, hdec, by simp_all, by simp_all, by simp_all⟩
  · rintro ⟨hhead, hdec, hc, hd, hs⟩
    rw [if_neg (by simpa using hhead), hdec]
    have hu : fromUtf8 (bytes s) = some s := fromUtf8_eq_some.2 rfl
    simp only [hu, hc, hd, hs]
    simp

/-- A path that is already decoded and well formed: an output of `canonicalize`. -/
def Canonical (s : String) : Prop := ∃ raw, canonicalize raw = .ok s

theorem decodeBytes_cons {b : UInt8} (hp : b ≠ percent) (hb : b ≠ backslash) (rest : List UInt8) :
    decodeBytes (b :: rest) = (b :: ·) <$> decodeBytes rest := by
  match rest with
  | [] => simp [decodeBytes, hp, hb]
  | [_] => simp [decodeBytes, hp, hb]
  | _ :: _ :: _ => conv_lhs => rw [decodeBytes, if_neg hp, if_neg hb]

theorem decodeBytes_head {bs ds : List UInt8} (h : decodeBytes bs = .ok ds) (hh : bs.head? = some slash) :
    ds.head? = some slash := by
  cases bs with
  | nil => simp at hh
  | cons b rest =>
      obtain rfl : b = slash := by simpa using hh
      rw [decodeBytes_cons (by decide) (by decide)] at h
      cases hr : decodeBytes rest with
      | error e => rw [hr] at h; cases h
      | ok r => rw [hr] at h; cases h; rfl

theorem Canonical.checked {s : String} (h : Canonical s) : Checked s := by
  obtain ⟨raw, h⟩ := h
  obtain ⟨hhead, hdec, hc, hd, hs⟩ := canonicalize_eq_ok.1 h
  exact ⟨decodeBytes_head hdec hhead, hc, hd, hs⟩

theorem any_tails_iff_infix {pat bs : List UInt8} :
    bs.tails.any (pat.isPrefixOf ·) = true ↔ pat <:+: bs := by
  rw [List.any_eq_true]
  constructor
  · rintro ⟨t, ht, hp⟩
    rw [List.mem_tails] at ht
    rw [List.isPrefixOf_iff_prefix] at hp
    exact hp.isInfix.trans ht.isInfix
  · rintro ⟨a, b, hab⟩
    refine ⟨pat ++ b, ?_, ?_⟩
    · rw [List.mem_tails]
      exact ⟨a, by rw [← hab, List.append_assoc]⟩
    · rw [List.isPrefixOf_iff_prefix]
      exact List.prefix_append _ _

theorem hasDoubleSlash_iff (s : String) : hasDoubleSlash s = true ↔ [slash, slash] <:+: bytes s :=
  any_tails_iff_infix

theorem Checked.rooted {s : String} (h : Checked s) : Rooted slash (bytes s) :=
  ⟨h.head, fun hd => by rw [← hasDoubleSlash_iff, h.noDouble] at hd; cases hd⟩

theorem Canonical.rooted {s : String} (h : Canonical s) : Rooted slash (bytes s) := h.checked.rooted

/-! ## Prefix matching is the prefix order on segments -/

theorem bytes_root : bytes "/" = [slash] := by decide

theorem append_slash_prefix_iff {p bs : List UInt8} :
    (bs.length > p.length ∧ bs[p.length]? = some slash ∧ p <+: bs) ↔ p ++ [slash] <+: bs := by
  constructor
  · rintro ⟨-, hget, r, rfl⟩
    rw [List.getElem?_append_right (le_refl _), Nat.sub_self] at hget
    cases r with
    | nil => simp at hget
    | cons a r =>
        obtain rfl : a = slash := by simpa using hget
        exact ⟨r, by simp⟩
  · rintro ⟨r, rfl⟩
    refine ⟨by simp, by simp, ?_⟩
    rw [List.append_assoc]
    exact List.prefix_append _ _

theorem prefixMatches_of_rooted {pre path : String} (hp : Rooted slash (bytes pre))
    (hc : (bytes path).head? = some slash) :
    prefixMatches pre path = true ↔ stem (segments pre) <+: segments path := by
  unfold prefixMatches segments
  by_cases hroot : pre = "/"
  · rw [if_pos hroot, hroot, bytes_root, stem_splitOn_root]
    obtain ⟨ss, hss⟩ := splitOn_of_head hc
    rw [hss]
    simp
  · have hne : bytes pre ≠ [slash] := fun h => hroot (bytes_inj.1 (h.trans bytes_root.symm))
    obtain ⟨hnil, hstem⟩ := hp.stem_splitOn hne
    rw [if_neg hroot, hstem, splitOn_prefix_splitOn]
    simp only [hnil, if_false, Bool.or_eq_true, beq_iff_eq, Bool.and_eq_true, decide_eq_true_eq,
      List.isPrefixOf_iff_prefix, and_assoc]
    rw [byteLen, append_slash_prefix_iff]

/-- A prefix matches a path exactly when its segments, a trailing empty one removed, begin the path's. -/
theorem prefixMatches_iff_segments {pre path : String} (hp : Canonical pre) (hc : Canonical path) :
    prefixMatches pre path = true ↔ stem (segments pre) <+: segments path :=
  prefixMatches_of_rooted hp.rooted hc.rooted.head

theorem prefixMatches_trans {p r c : String} (hp : Canonical p) (hr : Canonical r) (hc : Canonical c)
    (hpr : prefixMatches p r = true) (hrc : prefixMatches r c = true) : prefixMatches p c = true := by
  rw [prefixMatches_iff_segments hp hr] at hpr
  rw [prefixMatches_iff_segments hr hc] at hrc
  rw [prefixMatches_iff_segments hp hc]
  refine hp.rooted.stem_trans ?_ hpr hrc
  intro hnil
  obtain ⟨ss, hss⟩ := splitOn_of_head hr.rooted.head
  rcases stem_eq_or (segments r) with h | h <;> rw [hnil, segments, hss] at h
  · simp at h
  · -- an empty stem would leave one segment, and a rooted path has two
    have hss' : ss = [] := by simpa using h
    rw [hss'] at hss
    have hi := congrArg [slash].intercalate hss
    rw [List.intercalate_splitOn, List.intercalate_singleton] at hi
    exact absurd hr.rooted.head (by rw [hi]; simp)

theorem prefixMatches_lower {p c : String} (hp : Canonical p) (hc : Canonical c)
    (h : prefixMatches p c = true) : prefixMatches (toAsciiLowercase p) (toAsciiLowercase c) = true := by
  have hp' := hp.rooted.map lowerByte lowerByte_eq_slash
  have hc' := hc.rooted.map lowerByte lowerByte_eq_slash
  rw [← bytes_toAsciiLowercase] at hp' hc'
  rw [prefixMatches_iff_segments hp hc] at h
  rw [prefixMatches_of_rooted hp' hc'.head, segments, segments, bytes_toAsciiLowercase, bytes_toAsciiLowercase,
    splitOn_map lowerByte lowerByte_eq_slash, splitOn_map lowerByte lowerByte_eq_slash, stem_map]
  exact h.map _

theorem prefixMatches_refl {p : String} (hp : Canonical p) : prefixMatches p p = true := by
  rw [prefixMatches_iff_segments hp hp]
  exact stem_prefixOf _

theorem prefixMatches_total {p r c : String} (hp : Canonical p) (hr : Canonical r) (hc : Canonical c)
    (hpc : prefixMatches p c = true) (hrc : prefixMatches r c = true) :
    prefixMatches p r = true ∨ prefixMatches r p = true := by
  rw [prefixMatches_iff_segments hp hc] at hpc
  rw [prefixMatches_iff_segments hr hc] at hrc
  rw [prefixMatches_iff_segments hp hr, prefixMatches_iff_segments hr hp]
  exact stem_total hpc hrc

/-- Two prefixes that match one path are comparable, also after folding ASCII case. -/
theorem prefixMatches_lower_total {p r c : String} (hp : Canonical p) (hr : Canonical r) (hc : Canonical c)
    (hpc : prefixMatches (toAsciiLowercase p) (toAsciiLowercase c) = true)
    (hrc : prefixMatches (toAsciiLowercase r) (toAsciiLowercase c) = true) :
    prefixMatches (toAsciiLowercase p) (toAsciiLowercase r) = true ∨
      prefixMatches (toAsciiLowercase r) (toAsciiLowercase p) = true := by
  have rooted : ∀ {s}, Canonical s → Rooted slash (bytes (toAsciiLowercase s)) := by
    intro s hs
    rw [bytes_toAsciiLowercase]
    exact hs.rooted.map lowerByte lowerByte_eq_slash
  rw [prefixMatches_of_rooted (rooted hp) (rooted hc).head] at hpc
  rw [prefixMatches_of_rooted (rooted hr) (rooted hc).head] at hrc
  rw [prefixMatches_of_rooted (rooted hp) (rooted hr).head, prefixMatches_of_rooted (rooted hr) (rooted hp).head]
  exact stem_total hpc hrc

/-! ### Its indexing -/

/-- `prefix_matches` with the index into the bytes of the path as a step that can fail: `none` where the source would
panic. -/
def prefixMatchesIndexed (pre path : String) : Option Bool :=
  if pre = "/" then some true
  else
    let p := (bytes pre).rdropWhile (· == slash)
    if p = [] then some false
    else if bytes path = p then some true
    else if byteLen path > p.length then
      match (bytes path)[p.length]? with
      | none => none
      | some b => some (b == slash && p.isPrefixOf (bytes path))
    else some false

/-- The index stays within the path, for any two texts. -/
theorem prefixMatchesIndexed_eq (pre path : String) : prefixMatchesIndexed pre path = some (prefixMatches pre path) := by
  unfold prefixMatchesIndexed prefixMatches
  split
  · rfl
  · dsimp only
    split
    · rfl
    · split
      · rename_i heq
        rw [heq, beq_self_eq_true, Bool.true_or]
      · rename_i hne
        rw [beq_false_of_ne hne, Bool.false_or]
        split
        · rename_i hlt
          have hin : ((bytes pre).rdropWhile (· == slash)).length < (bytes path).length := hlt
          rw [List.getElem?_eq_getElem hin, decide_eq_true hlt, Bool.true_and]
          rfl
        · rename_i hle
          rw [decide_eq_false hle, Bool.false_and, Bool.false_and]

/-- `prefix_matches` on canonical paths: the prefix order of the segments, a trailing empty one removed from the prefix. It
is reflexive and transitive, two prefixes of one path are comparable, no index leaves the path, and folding ASCII case
keeps every match. -/
theorem prefixMatches_order :
    (∀ p c, Canonical p → Canonical c → (prefixMatches p c = true ↔ stem (segments p) <+: segments c)) ∧
      (∀ p, Canonical p → prefixMatches p p = true) ∧
      (∀ p r c, Canonical p → Canonical r → Canonical c → prefixMatches p r = true → prefixMatches r c = true →
        prefixMatches p c = true) ∧
      (∀ p r c, Canonical p → Canonical r → Canonical c → prefixMatches p c = true → prefixMatches r c = true →
        prefixMatches p r = true ∨ prefixMatches r p = true) ∧
      (∀ p c, prefixMatchesIndexed p c = some (prefixMatches p c)) ∧
      ∀ p c, Canonical p → Canonical c → prefixMatches p c = true →
        prefixMatches (toAsciiLowercase p) (toAsciiLowercase c) = true := by
  refine ⟨?_, ?_, ?_, ?_, prefixMatchesIndexed_eq, ?_⟩
  · intro p c hp hc
    exact prefixMatches_iff_segments hp hc
  · intro p hp
    exact prefixMatches_refl hp
  · intro p r c hp hr hc hpr hrc
    exact prefixMatches_trans hp hr hc hpr hrc
  · intro p r c hp hr hc hpc hrc
    exact prefixMatches_total hp hr hc hpc hrc
  · intro p c hp hc h
    exact prefixMatches_lower hp hc h

/-- `/v1/`, a path below it, and one below both. -/
theorem prefixMatches_order_nested :
    stem (segments "/v1/") <+: segments "/v1/Ü/x" ∧
      prefixMatches (toAsciiLowercase "/v1/Ü") (toAsciiLowercase "/v1/Ü/x") = true := by
  have hcanonical : ∀ {s : String}, (canonicalize s).toOption = some s → Canonical s := by
    intro s h
    refine ⟨s, ?_⟩
    cases hs : canonicalize s with
    | error e => rw [hs] at h; cases h
    | ok c =>
        rw [hs] at h
        cases h
        rfl
  have hv1 : Canonical "/v1/" := hcanonical (by decide +kernel)
  have hdeep : Canonical "/v1/Ü" := hcanonical (by decide +kernel)
  have hx : Canonical "/v1/Ü/x" := hcanonical (by decide +kernel)
  refine ⟨?_, ?_⟩
  · refine (prefixMatches_order.1 _ _ hv1 hx).1 ?_
    exact prefixMatches_order.2.2.1 _ _ _ hv1 hdeep hx (by decide +kernel) (by decide +kernel)
  · exact prefixMatches_order.2.2.2.2.2 _ _ hdeep hx (by decide +kernel)

/-! ## A second decode -/

theorem decodeBytes_percent {rest ds : List UInt8} (h : decodeBytes (percent :: rest) = .ok ds) :
    ∃ a b v rest' ds', rest = a :: b :: rest' ∧ decodeEscape a b = .ok v ∧ decodeBytes rest' = .ok ds' ∧
      ds = v :: ds' := by
  match rest with
  | [] => simp [decodeBytes] at h
  | [_] => simp [decodeBytes] at h
  | a :: b :: rest' =>
      rw [decodeBytes, if_pos rfl] at h
      cases hv : decodeEscape a b with
      | error e => rw [hv] at h; cases h
      | ok v =>
          rw [hv] at h
          cases hr : decodeBytes rest' with
          | error e => rw [hr] at h; cases h
          | ok r =>
              rw [hr] at h
              cases h
              exact ⟨a, b, v, rest', r, rfl, hv, hr, rfl⟩

theorem decodeBytes_backslash (rest : List UInt8) :
    ∃ e, decodeBytes (backslash :: rest) = .error e := by
  match rest with
  | [] => exact ⟨_, rfl⟩
  | [_] => exact ⟨_, rfl⟩
  | _ :: _ :: _ => exact ⟨_, rfl⟩

/-- How a byte string that decodes begins: an escape, or a byte that stands for itself. -/
theorem decodeBytes_cases {b : UInt8} {rest ds : List UInt8} (h : decodeBytes (b :: rest) = .ok ds) :
    (b = percent ∧ ∃ x y v rest' ds', rest = x :: y :: rest' ∧ decodeEscape x y = .ok v ∧
        decodeBytes rest' = .ok ds' ∧ ds = v :: ds') ∨
      (b ≠ percent ∧ b ≠ backslash ∧ ∃ ds', decodeBytes rest = .ok ds' ∧ ds = b :: ds') := by
  by_cases hp : b = percent
  · subst hp
    exact Or.inl ⟨rfl, decodeBytes_percent h⟩
  by_cases hb : b = backslash
  · subst hb
    obtain ⟨e, he⟩ := decodeBytes_backslash rest
    rw [he] at h
    cases h
  rw [decodeBytes_cons hp hb] at h
  cases hr : decodeBytes rest with
  | error e => rw [hr] at h; cases h
  | ok r =>
      rw [hr] at h
      cases h
      exact Or.inr ⟨hp, hb, r, rfl, rfl⟩

theorem decodeBytes_no_backslash : ∀ {bs ds : List UInt8}, decodeBytes bs = .ok ds → backslash ∉ ds
  | [], ds, h => by cases h; simp
  | b :: rest, ds, h => by
    rcases decodeBytes_cases h with ⟨-, x, y, v, rest', ds', rfl, hv, hr, rfl⟩ | ⟨-, hb, ds', hr, rfl⟩
    · have ih := decodeBytes_no_backslash hr
      have hne : v ≠ backslash := by
        intro hv'
        unfold decodeEscape at hv
        split at hv
        · simp only at hv
          split_ifs at hv with h1 h2
          injection hv with hv
          exact h2 (hv.trans hv')
        · cases hv
      simp [ih, Ne.symm hne]
    · have ih := decodeBytes_no_backslash hr
      simp [ih, Ne.symm hb]
termination_by bs => bs.length

theorem decodeBytes_eq_self : ∀ {bs : List UInt8}, percent ∉ bs → backslash ∉ bs → decodeBytes bs = .ok bs
  | [], _, _ => rfl
  | b :: bs, hp, hb => by
    simp only [List.mem_cons, not_or] at hp hb
    rw [decodeBytes_cons (Ne.symm hp.1) (Ne.symm hb.1), decodeBytes_eq_self hp.2 hb.2]
    rfl

theorem decodeBytes_length : ∀ {bs ds : List UInt8}, decodeBytes bs = .ok ds →
    ds.length ≤ bs.length ∧ (percent ∈ bs → ds.length < bs.length)
  | [], ds, h => by cases h; simp
  | b :: rest, ds, h => by
    rcases decodeBytes_cases h with ⟨-, x, y, v, rest', ds', rfl, hv, hr, rfl⟩ | ⟨hp, hb, ds', hr, rfl⟩
    · have ih := decodeBytes_length hr
      simp only [List.length_cons]
      omega
    · have ih := decodeBytes_length hr
      simp only [List.length_cons, List.mem_cons, Ne.symm hp, false_or]
      refine ⟨by omega, fun hm => ?_⟩
      have := ih.2 hm
      omega
termination_by bs => bs.length

/-- A canonical path is a fixed point of `canonicalize` exactly when it holds no `%`. -/
theorem canonicalize_canonical_iff {c : String} (hc : Canonical c) :
    canonicalize c = .ok c ↔ percent ∉ bytes c := by
  obtain ⟨raw, hraw⟩ := hc
  obtain ⟨hhead, hdec, hctl, hdot, hdbl⟩ := canonicalize_eq_ok.1 hraw
  rw [canonicalize_eq_ok]
  constructor
  · rintro ⟨-, hself, -⟩ hm
    exact absurd ((decodeBytes_length hself).2 hm) (lt_irrefl _)
  · intro hm
    exact ⟨decodeBytes_head hdec hhead, decodeBytes_eq_self hm (decodeBytes_no_backslash hdec), hctl, hdot, hdbl⟩

/-! ## Where a decoded path holds a `%` -/

/-- The escape of `%` itself, `%25`. -/
def percentEscape : List UInt8 := [percent, 50, 53]

/-- `raw.contains("%25")`. -/
def hasPercentEscape (raw : String) : Bool := (bytes raw).tails.any (percentEscape.isPrefixOf ·)

theorem hexVal_table : ∀ b : UInt8, (∀ v, hexVal b = some v → v.toNat < 16 ∧ b ≠ percent) ∧
    (hexVal b = some 2 ↔ b = 50) ∧ (hexVal b = some 5 ↔ b = 53) := by
  have key : ∀ n : Fin 256, ((hexVal ⟨⟨n⟩⟩).all (fun v => v.toNat < 16 && (⟨⟨n⟩⟩ : UInt8) != percent)) = true ∧
      (hexVal ⟨⟨n⟩⟩ = some 2 ↔ (⟨⟨n⟩⟩ : UInt8) = 50) ∧ (hexVal ⟨⟨n⟩⟩ = some 5 ↔ (⟨⟨n⟩⟩ : UInt8) = 53) := by
    decide +kernel
  intro b
  obtain ⟨h1, h2, h3⟩ := key b.toBitVec.toFin
  refine ⟨fun v hv => ?_, h2, h3⟩
  change (hexVal b).all _ = true at h1
  rw [hv] at h1
  simpa using h1

theorem nibbles_eq_percent : ∀ u v : UInt8, u.toNat < 16 → v.toNat < 16 →
    ((u <<< 4) ||| v = percent ↔ u = 2 ∧ v = 5) := by
  have key : ∀ i j : Fin 16, (UInt8.ofNat i <<< 4) ||| UInt8.ofNat j = percent ↔
      UInt8.ofNat i = 2 ∧ UInt8.ofNat j = 5 := by decide +kernel
  intro u v hu hv
  have := key ⟨u.toNat, hu⟩ ⟨v.toNat, hv⟩
  simpa only [UInt8.ofNat_toNat] using this

theorem decodeEscape_ok {x y v : UInt8} (h : decodeEscape x y = .ok v) :
    x ≠ percent ∧ y ≠ percent ∧ (v = percent ↔ x = 50 ∧ y = 53) := by
  unfold decodeEscape at h
  split at h
  · rename_i hv lv hx hy
    simp only at h
    split_ifs at h
    injection h with h
    obtain ⟨hx16, hxp⟩ := (hexVal_table x).1 hv hx
    obtain ⟨hy16, hyp⟩ := (hexVal_table y).1 lv hy
    refine ⟨hxp, hyp, ?_⟩
    rw [← h, nibbles_eq_percent hv lv hx16 hy16, ← (hexVal_table x).2.1, ← (hexVal_table y).2.2, hx, hy,
      Option.some.injEq, Option.some.injEq]
  · cases h

theorem percentEscape_infix_cons {b : UInt8} (hb : b ≠ percent) (bs : List UInt8) :
    percentEscape <:+: b :: bs ↔ percentEscape <:+: bs := by
  rw [List.infix_cons_iff]
  refine or_iff_right ?_
  intro h
  exact hb (List.cons_prefix_cons.1 h).1.symm

theorem percent_mem_decoded : ∀ {bs ds : List UInt8}, decodeBytes bs = .ok ds →
    (percent ∈ ds ↔ percentEscape <:+: bs)
  | [], ds, h => by cases h; simp [percentEscape]
  | b :: rest, ds, h => by
    rcases decodeBytes_cases h with ⟨rfl, x, y, v, rest', ds', rfl, hv, hr, rfl⟩ | ⟨hp, hb, ds', hr, rfl⟩
    · have ih := percent_mem_decoded hr
      obtain ⟨hx, hy, hpv⟩ := decodeEscape_ok hv
      rw [List.mem_cons, ih, List.infix_cons_iff, percentEscape_infix_cons hx, percentEscape_infix_cons hy]
      refine or_congr_left ?_
      rw [eq_comm, hpv]
      simp [percentEscape, List.cons_prefix_cons, eq_comm]
    · have ih := percent_mem_decoded hr
      rw [percentEscape_infix_cons hp, List.mem_cons, ih]
      exact or_iff_right (Ne.symm hp)
termination_by bs => bs.length

/-- The decoded path holds a `%` exactly where the raw one escapes it. -/
theorem percent_mem_canonicalize {raw c : String} (h : canonicalize raw = .ok c) :
    percent ∈ bytes c ↔ hasPercentEscape raw = true := by
  obtain ⟨-, hdec, -⟩ := canonicalize_eq_ok.1 h
  rw [percent_mem_decoded hdec, hasPercentEscape, any_tails_iff_infix]

end Keychute
