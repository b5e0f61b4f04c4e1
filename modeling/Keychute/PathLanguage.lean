import Keychute.Paths
import Keychute.Lib.Percent

/-!
# The language of `canonicalize`

* `PathLanguage` : the raw paths that are accepted, as conditions on the text and on its single decoding;
* `decodeBytes_eq_ok` : the decoding loop is `percentDecode`, on the byte strings it accepts;
* `canonicalize_language` : `canonicalize` accepts exactly this language, and decodes each segment once;
* `redecoded_cover_iff` : when canonical prefixes that are decoded again still match what they matched.
-/

namespace Keychute
open Keychute.Lib

/-- What `canonicalize` takes: conditions on the raw path, and on what decoding it once gives. -/
structure PathLanguage (raw : String) : Prop where
  rooted : (bytes raw).head? = some slash
  escapes : ∀ rest, percent :: rest <:+ bytes raw →
    ∃ h l rest', rest = h :: l :: rest' ∧ (hexDigit? h).isSome = true ∧ (hexDigit? l).isSome = true
  noBackslash : backslash ∉ bytes raw ∧ backslash ∉ percentDecode (bytes raw)
  noSlash : ∀ h l rest, percent :: h :: l :: rest <:+ bytes raw → escaped? h l ≠ some slash
  text : ∃ s, bytes s = percentDecode (bytes raw) ∧ ∀ c ∈ s.toList, isControl c = false
  noDot : ∀ seg ∈ (percentDecode (bytes raw)).splitOn slash,
    seg.takeWhile (· != semicolon) ≠ [dot] ∧ seg.takeWhile (· != semicolon) ≠ [dot, dot]
  noDouble : ¬ [slash, slash] <:+: percentDecode (bytes raw)

/-! ## The decoding loop -/

theorem hexVal_eq (b : UInt8) : hexVal b = (hexDigit? b).map UInt8.ofNat := by
  have key : ∀ n : Fin 256, hexVal ⟨⟨n⟩⟩ = (hexDigit? ⟨⟨n⟩⟩).map UInt8.ofNat := by decide +kernel
  exact key b.toBitVec.toFin

theorem hexDigit?_lt {b : UInt8} {x : Nat} (h : hexDigit? b = some x) : x < 16 := by
  have key : ∀ n : Fin 256, (hexDigit? ⟨⟨n⟩⟩).all (· < 16) = true := by decide +kernel
  have hb : (hexDigit? b).all (· < 16) = true := key b.toBitVec.toFin
  rw [h] at hb
  simpa using hb

theorem nibbles_eq {x y : Nat} (hx : x < 16) (hy : y < 16) :
    (UInt8.ofNat x <<< 4) ||| UInt8.ofNat y = UInt8.ofNat (16 * x + y) := by
  have key : ∀ i j : Fin 16, (UInt8.ofNat i <<< 4) ||| UInt8.ofNat j = UInt8.ofNat (16 * i + j) := by decide +kernel
  exact key ⟨x, hx⟩ ⟨y, hy⟩

theorem decodeEscape_eq_ok {h l v : UInt8} :
    decodeEscape h l = .ok v ↔ escaped? h l = some v ∧ v ≠ slash ∧ v ≠ backslash := by
  unfold decodeEscape escaped?
  rw [hexVal_eq, hexVal_eq]
  cases hx : hexDigit? h with
  | none => simp
  | some x =>
      cases hy : hexDigit? l with
      | none => simp
      | some y =>
          simp only [Option.map_some, nibbles_eq (hexDigit?_lt hx) (hexDigit?_lt hy), Option.some.injEq]
          split_ifs with h1 h2
          · simp only [false_iff, not_and]
            rintro rfl hne
            exact absurd h1 hne
          · simp only [false_iff, not_and]
            rintro rfl - hne
            exact hne h2
          · rw [Except.ok.injEq]
            exact ⟨fun h => ⟨h, h ▸ h1, h ▸ h2⟩, fun h => h.1⟩

/-- The byte strings that the loop reads to their end. -/
structure Decodable (bs : List UInt8) : Prop where
  escapes : WellEscaped bs
  noBackslash : backslash ∉ bs ∧ backslash ∉ percentDecode bs
  noSlash : ∀ h l rest, percent :: h :: l :: rest <:+ bs → escaped? h l ≠ some slash

theorem decodable_cons {b : UInt8} (hb : b ≠ percent) {bs : List UInt8} :
    Decodable (b :: bs) ↔ b ≠ backslash ∧ Decodable bs := by
  constructor
  · rintro ⟨hw, hback, hslash⟩
    rw [percentDecode_cons hb, List.mem_cons, List.mem_cons, not_or, not_or] at hback
    exact ⟨Ne.symm hback.1.1, (wellEscaped_cons hb).1 hw, ⟨hback.1.2, hback.2.2⟩,
      fun h l rest hs => hslash h l rest (hs.trans (List.suffix_cons b bs))⟩
  · rintro ⟨hne, hw, hback, hslash⟩
    refine ⟨(wellEscaped_cons hb).2 hw, ?_, ?_⟩
    · rw [percentDecode_cons hb, List.mem_cons, List.mem_cons, not_or, not_or]
      exact ⟨⟨Ne.symm hne, hback.1⟩, Ne.symm hne, hback.2⟩
    · intro h l rest hs
      rcases List.suffix_cons_iff.1 hs with heq | hs
      · exact absurd (List.cons.inj heq).1.symm hb
      · exact hslash h l rest hs

theorem decodable_escape {h l v : UInt8} (hv : escaped? h l = some v) {bs : List UInt8} :
    Decodable (percent :: h :: l :: bs) ↔ v ≠ slash ∧ v ≠ backslash ∧ Decodable bs := by
  have hdig := escaped?_isSome.1 (Option.isSome_iff_exists.2 ⟨v, hv⟩)
  have hh := hexDigit?_ne_percent hdig.1
  have hl := hexDigit?_ne_percent hdig.2
  have hsuf : bs <:+ percent :: h :: l :: bs := ⟨[percent, h, l], rfl⟩
  constructor
  · rintro ⟨hw, ⟨hraw, hdec⟩, hslash⟩
    rw [percentDecode_escape hv, List.mem_cons, not_or] at hdec
    refine ⟨fun he => hslash h l bs (List.suffix_refl _) (he ▸ hv), Ne.symm hdec.1, hw.of_suffix hsuf, ?_, ?_⟩
    · exact ⟨fun hm => hraw (hsuf.subset hm), hdec.2⟩
    · exact fun h' l' rest hs => hslash h' l' rest (hs.trans hsuf)
  · rintro ⟨hvs, hvb, hw, hback, hslash⟩
    refine ⟨?_, ?_, ?_⟩
    · intro rest hs
      rcases (suffix_escape_iff hh hl).1 hs with rfl | hs
      · exact ⟨h, l, bs, rfl, by rw [hv]; rfl⟩
      · exact hw rest hs
    · have hhb : h ≠ backslash := by rintro rfl; cases hdig.1
      have hlb : l ≠ backslash := by rintro rfl; cases hdig.2
      rw [percentDecode_escape hv]
      simp only [List.mem_cons, not_or]
      exact ⟨⟨by decide, Ne.symm hhb, Ne.symm hlb, hback.1⟩, Ne.symm hvb, hback.2⟩
    · intro h' l' rest hs
      rcases (suffix_escape_iff hh hl).1 hs with heq | hs
      · obtain ⟨rfl, rfl, -⟩ : h' = h ∧ l' = l ∧ rest = bs := by simpa using heq
        rw [hv]
        simpa using hvs
      · exact hslash h' l' rest hs

theorem decodable_of_ok : ∀ {bs ds : List UInt8}, decodeBytes bs = .ok ds → Decodable bs ∧ percentDecode bs = ds
  | [], ds, h => by
      cases h
      refine ⟨⟨?_, ?_, ?_⟩, rfl⟩
      · intro rest hs
        simp at hs
      · exact ⟨List.not_mem_nil, List.not_mem_nil⟩
      · intro h l rest hs
        simp at hs
  | b :: rest, ds, h => by
      rcases decodeBytes_cases h with ⟨rfl, x, y, v, rest', ds', rfl, hv, hr, rfl⟩ | ⟨hp, hb, ds', hr, rfl⟩
      · obtain ⟨hd, rfl⟩ := decodable_of_ok hr
        obtain ⟨hv, hvs, hvb⟩ := decodeEscape_eq_ok.1 hv
        exact ⟨(decodable_escape hv).2 ⟨hvs, hvb, hd⟩, percentDecode_escape hv rest'⟩
      · obtain ⟨hd, rfl⟩ := decodable_of_ok hr
        exact ⟨(decodable_cons hp).2 ⟨hb, hd⟩, percentDecode_cons hp rest⟩
termination_by bs => bs.length

theorem Decodable.ok {bs : List UInt8} (hd : Decodable bs) : decodeBytes bs = .ok (percentDecode bs) := by
  have hw := hd.escapes
  induction bs, hw using WellEscaped.induction with
  | nil => rfl
  | byte b bs _ hb _ ih =>
      obtain ⟨hback, hd⟩ := (decodable_cons hb).1 hd
      rw [decodeBytes_cons hb hback, ih hd, percentDecode_cons hb]
      rfl
  | escape h l v bs _ hv hh hl _ ih =>
      obtain ⟨hvs, hvb, hd⟩ := (decodable_escape hv).1 hd
      rw [decodeBytes, if_pos rfl, decodeEscape_eq_ok.2 ⟨hv, hvs, hvb⟩, percentDecode_escape hv]
      simp only [ih hd]
      rfl

theorem decodeBytes_eq_ok {bs ds : List UInt8} :
    decodeBytes bs = .ok ds ↔ Decodable bs ∧ percentDecode bs = ds := by
  constructor
  · exact decodable_of_ok
  · rintro ⟨hd, rfl⟩
    exact hd.ok

/-! ## The language -/

theorem PathLanguage.decodable {raw : String} (h : PathLanguage raw) : Decodable (bytes raw) := by
  refine ⟨?_, h.noBackslash, h.noSlash⟩
  intro rest hs
  obtain ⟨x, y, rest', hrest, hx, hy⟩ := h.escapes rest hs
  exact ⟨x, y, rest', hrest, escaped?_isSome.2 ⟨hx, hy⟩⟩

theorem isDotSegment_iff (seg : List UInt8) : isDotSegment seg = false ↔
    seg.takeWhile (· != semicolon) ≠ [dot] ∧ seg.takeWhile (· != semicolon) ≠ [dot, dot] := by
  simp [isDotSegment]

theorem any_isDotSegment_iff (s : String) : (segments s).any isDotSegment = false ↔ ∀ seg ∈ (bytes s).splitOn slash,
    seg.takeWhile (· != semicolon) ≠ [dot] ∧ seg.takeWhile (· != semicolon) ≠ [dot, dot] := by
  rw [List.any_eq_false]
  refine forall₂_congr fun seg _ => ?_
  rw [Bool.not_eq_true]
  exact isDotSegment_iff seg

theorem hasDoubleSlash_eq_false (s : String) : hasDoubleSlash s = false ↔ ¬ [slash, slash] <:+: bytes s := by
  rw [← hasDoubleSlash_iff, Bool.not_eq_true]

theorem any_isControl_iff (s : String) : s.toList.any isControl = false ↔ ∀ c ∈ s.toList, isControl c = false := by
  simp

/-- `canonicalize` accepts exactly the language; its output holds the raw segments, each decoded once, and has none of
the features that are refused. -/
theorem canonicalize_language (raw : String) :
    ((∃ c, canonicalize raw = .ok c) ↔ PathLanguage raw) ∧
    ∀ c, canonicalize raw = .ok c →
      segments c = (segments raw).map percentDecode ∧
      (∀ seg ∈ segments c, seg.takeWhile (· != semicolon) ≠ [dot] ∧ seg.takeWhile (· != semicolon) ≠ [dot, dot]) ∧
      ¬ [slash, slash] <:+: bytes c ∧ backslash ∉ bytes c := by
  refine ⟨⟨?_, ?_⟩, ?_⟩
  · rintro ⟨c, h⟩
    obtain ⟨hhead, hdec, hctl, hdot, hdbl⟩ := canonicalize_eq_ok.1 h
    obtain ⟨hd, hbytes⟩ := decodeBytes_eq_ok.1 hdec
    refine ⟨hhead, ?_, hd.noBackslash, hd.noSlash, ⟨c, hbytes.symm, (any_isControl_iff c).1 hctl⟩, ?_, ?_⟩
    · intro rest hs
      obtain ⟨x, y, rest', hrest, hxy⟩ := hd.escapes rest hs
      exact ⟨x, y, rest', hrest, escaped?_isSome.1 hxy⟩
    · rw [hbytes]
      exact (any_isDotSegment_iff c).1 hdot
    · rw [hbytes]
      exact (hasDoubleSlash_eq_false c).1 hdbl
  · intro h
    obtain ⟨c, hbytes, hctl⟩ := h.text
    refine ⟨c, canonicalize_eq_ok.2 ⟨h.rooted, decodeBytes_eq_ok.2 ⟨h.decodable, hbytes.symm⟩, ?_, ?_, ?_⟩⟩
    · exact (any_isControl_iff c).2 hctl
    · rw [any_isDotSegment_iff, hbytes]
      exact h.noDot
    · rw [hasDoubleSlash_eq_false, hbytes]
      exact h.noDouble
  · intro c h
    obtain ⟨-, hdec, -, hdot, hdbl⟩ := canonicalize_eq_ok.1 h
    obtain ⟨hd, hbytes⟩ := decodeBytes_eq_ok.1 hdec
    refine ⟨?_, (any_isDotSegment_iff c).1 hdot, (hasDoubleSlash_eq_false c).1 hdbl, decodeBytes_no_backslash hdec⟩
    rw [segments, ← hbytes]
    exact splitOn_percentDecode hd.escapes (by decide) (by decide) hd.noSlash

/-! ## Decoding again -/

theorem segments_canonicalize {c d : String} (h : canonicalize c = .ok d) : segments d = (segments c).map percentDecode :=
  ((canonicalize_language c).2 d h).1

/-- A canonical path without `%` is one whose segments decode to themselves. -/
theorem no_percent_iff_fixed {c d : String} (hc : Canonical c) (h : canonicalize c = .ok d) :
    percent ∉ bytes c ↔ ∀ seg ∈ segments c, percentDecode seg = seg := by
  have hmap : (∀ seg ∈ segments c, percentDecode seg = seg) ↔ segments d = segments c := by
    rw [segments_canonicalize h]
    refine ⟨fun hfix => ?_, fun hseg => ?_⟩
    · rw [List.map_congr_left hfix, List.map_id']
    · exact List.map_inj_left.1 (hseg.trans (List.map_id _).symm)
  rw [← canonicalize_canonical_iff hc, h, Except.ok.injEq, hmap]
  constructor
  · rintro rfl
    rfl
  · intro hseg
    exact bytes_inj.1 (splitOn_inj hseg)

/-- Canonical prefixes that are decoded again still match what they matched together, exactly when each of them is
matched by one that has nothing to decode. -/
theorem redecoded_cover_iff {cs : List String} (hcs : ∀ c ∈ cs, Canonical c ∧ ∃ d, canonicalize c = .ok d) :
    (∀ c ∈ cs, ∃ r ∈ cs, ∃ d, canonicalize r = .ok d ∧ prefixMatches d c = true) ↔
      ∀ c ∈ cs, ∃ e ∈ cs, percent ∉ bytes e ∧ prefixMatches e c = true := by
  constructor
  · intro hcover
    refine forall_of_descent (fun c => changedRank percentDecode (segments c)) fun c hc hbad => ?_
    obtain ⟨r, hr, d, hd, hdc⟩ := hcover c hc
    have hdcan : Canonical d := ⟨r, hd⟩
    have hstem := (prefixMatches_iff_segments hdcan (hcs c hc).1).1 hdc
    rw [segments_canonicalize hd] at hstem
    refine ⟨r, hr, ?_, changedRank_lt percentDecode_eq_or_shorter (fun _ => percentDecode_ne_nil) ?_ hstem⟩
    · -- a plain prefix of `r` is one of `d`, and so of `c`
      rintro ⟨e, he, hplain, her⟩
      obtain ⟨hecan, e', he'⟩ := hcs e he
      have hfixed := (no_percent_iff_fixed hecan he').1 hplain
      have hed := stem_prefix_map hfixed ((prefixMatches_iff_segments hecan (hcs r hr).1).1 her)
      rw [← segments_canonicalize hd, ← prefixMatches_iff_segments hecan hdcan] at hed
      exact hbad ⟨e, he, hplain, prefixMatches_trans hecan hdcan (hcs c hc).1 hed hdc⟩
    · by_contra hnone
      push Not at hnone
      have hplain := (no_percent_iff_fixed (hcs r hr).1 hd).2 hnone
      have hself := (canonicalize_canonical_iff (hcs r hr).1).2 hplain
      obtain rfl := Except.ok.inj (hd.symm.trans hself)
      exact hbad ⟨d, hr, hplain, hdc⟩
  · intro h c hc
    obtain ⟨e, he, hplain, hec⟩ := h c hc
    exact ⟨e, he, e, (canonicalize_canonical_iff (hcs e he).1).2 hplain, hec⟩

end Keychute
