import Keychute.Canonical
import Keychute.Cli.Binding

/-!
# The process capture of the CLI (`cli/src/pipeline.rs`, `cli/src/main.rs`, `cli/src/curl.rs`)

* `parsePs`, `analyze` : what one `ps` snapshot says about the pipeline the command runs in;
* `buildStructuredContext`, `buildRequestContext` : the context that `request` and `curl` send, and where each of them
  sheds what was captured;
* `jsonLen_eq` : the size of an object is the sum of its members;
* `capture_fits_iff` : when a capture leaves room for what the caller gave.
-/

namespace Keychute.Cli
open Keychute.Api

/-! ## One snapshot -/

structure PsRow where
  ppid : Nat
  pgid : Nat
  command : String
  deriving DecidableEq

/-- The rows by process; the last one of a process stands. -/
abbrev PsTable : Type := List (Nat × PsRow)

def splitField (s : List Char) : Option (List Char × List Char) :=
  let s := s.dropWhile isWhitespace
  if s.any isWhitespace then
    some (s.takeWhile fun ch => !(isWhitespace ch), (s.dropWhile fun ch => !(isWhitespace ch)).dropWhile isWhitespace)
  else none

/-- One line of `ps -o pid=,ppid=,pgid=,command= -ax`. -/
def parsePsLine (line : String) : Option (Nat × PsRow) := do
  let (pidS, rest) ← splitField line.toList
  let (ppidS, rest) ← splitField rest
  let (pgidS, command) ← splitField rest
  let pid ← parseUnsigned u32Max (String.ofList pidS)
  let ppid ← parseUnsigned u32Max (String.ofList ppidS)
  let pgid ← parseUnsigned u32Max (String.ofList pgidS)
  let command := command.rdropWhile isWhitespace
  if command.isEmpty then none else some (pid, ⟨ppid, pgid, String.ofList command⟩)

def parsePs (text : String) : PsTable :=
  ((lines text).filterMap parsePsLine).foldl (fun table r => table.filter (·.1 ≠ r.1) ++ [r]) []

/-- The parents of a process, itself first; a cycle ends the walk. -/
def walkPids (table : PsTable) : Nat → Nat → List Nat → List (Nat × String)
  | 0, _, _ => []
  | levels + 1, pid, seen =>
    if seen.contains pid then []
    else
      match table.lookup pid with
      | none => []
      | some row =>
        (pid, row.command) :: if row.ppid = 0 ∨ row.ppid = pid then [] else walkPids table levels row.ppid (pid :: seen)

def shells : List String := ["sh", "bash", "zsh", "ksh", "dash", "ash", "csh", "tcsh", "fish"]

def looksLikeShell (command : String) : Bool :=
  let first := (command.toList.dropWhile isWhitespace).takeWhile fun ch => !(isWhitespace ch)
  let base := first.rtakeWhile (· ≠ '/')
  shells.contains (String.ofList (base.dropWhile (· = '-')))

structure Captured where
  ancestors : List String
  siblings : List String
  deriving DecidableEq

/-- The siblings are the other children of the first shell above us that run in our process group. -/
def analyze (table : PsTable) (start maxLevels : Nat) : Option Captured :=
  let chain := walkPids table maxLevels start []
  if chain.isEmpty then none
  else
    let shellPid := ((chain.drop 1).find? fun p => (table.lookup p.1).any fun r => looksLikeShell r.command).map Prod.fst
    let siblings : List (Nat × String) :=
      match shellPid, (table.lookup start).map PsRow.pgid with
      | some shell, some pgid =>
        (table.filter fun r => r.2.ppid == shell && r.2.pgid == pgid && !(chain.map Prod.fst).contains r.1).map fun r =>
          (r.1, r.2.command)
      | _, _ => []
    some ⟨chain.map Prod.snd, (siblings.insertionSort fun a b => a.1 ≤ b.1).map Prod.snd⟩

/-- The capture of process `pid`, from the output of `ps` unless it failed. -/
def capture (ps : Option String) (pid : Nat) : Option Captured := do
  let text ← ps
  analyze (parsePs text) pid 5

example : analyze [(456, ⟨400, 456, "-zsh"⟩), (789, ⟨456, 789, "keychute request key"⟩), (790, ⟨456, 789, "kubeseal"⟩),
    (791, ⟨456, 791, "curl"⟩)] 789 5 = some ⟨["keychute request key", "-zsh"], ["kubeseal"]⟩ := by decide +kernel

/-! ## The context -/

def MAX_STRUCTURED_COMMAND_CHARS : Nat := 400

def MAX_STRUCTURED_BYTES : Nat := 16 * 1024

/-- `serde_json::Map`; the serializer sorts the keys. -/
abbrev JsonMap : Type := List (String × Json)

def JsonMap.insert (m : JsonMap) (key : String) (value : Json) : JsonMap := m.filter (·.1 ≠ key) ++ [(key, value)]

section
variable (floatText : UInt64 → String)

def jsonLen (m : JsonMap) : Nat := byteLen (canonicalJson floatText (.obj m))

def clipCommand (cmd : String) : String :=
  if cmd.toList.length ≤ MAX_STRUCTURED_COMMAND_CHARS then cmd
  else String.ofList (cmd.toList.take MAX_STRUCTURED_COMMAND_CHARS ++ ['…'])

/-- One section after the other gives way to its marker, until the rest fits. -/
def shedSections : List String → JsonMap → JsonMap
  | [], m => m
  | sec :: rest, m =>
    if jsonLen floatText m ≤ MAX_STRUCTURED_BYTES then m
    else if m.any (·.1 = sec) then
      shedSections rest (JsonMap.insert (m.filter (·.1 ≠ sec)) (sec ++ "_omitted") (.bool true))
    else shedSections rest m

def shedStructuredToFit (m : JsonMap) : JsonMap := shedSections floatText ["pipeline_siblings", "pipeline"] m

def commandList (cmds : List String) : Json := .arr (cmds.map fun cmd => .str (clipCommand cmd))

/-- The captured sections, shed before anything else is in the map. -/
def captureSections (cap : Captured) : JsonMap :=
  let m := JsonMap.insert [] "pipeline" (commandList cap.ancestors)
  shedStructuredToFit floatText
    (if cap.siblings.isEmpty then m else m.insert "pipeline_siblings" (commandList cap.siblings))

/-- `build_structured_context`; `extra` is `$KEYCHUTE_CONTEXT`. -/
def buildStructuredContext (captured : Option Captured) (extra : Option String) : Option JsonMap :=
  let m : JsonMap := captured.elim [] (captureSections floatText)
  let m := extra.elim m fun text => m.insert "extra" (.str text)
  if m.isEmpty then none else some m

/-- `build_request_context` of `curl`; the error holds the size. -/
def buildRequestContext (captured : Option Captured) (extra : Option String) (method : String) (target : Target) :
    Except Nat JsonMap :=
  let m := (buildStructuredContext floatText captured extra).getD []
  let m := shedStructuredToFit floatText (m.insert "target" (.str (method ++ " " ++ target.display)))
  let len := jsonLen floatText m
  if len > MAX_STRUCTURED_BYTES then .error len else .ok m

/-! ## Sizes -/

/-- The bytes of one member, with its comma. -/
def memberLen (f : String × Json) : Nat := byteLen (jsonString f.1) + byteLen (canonicalJson floatText f.2) + 2

def membersLen (m : JsonMap) : Nat := (m.map (memberLen floatText)).sum

end

variable {floatText : UInt64 → String}

theorem byteLen_intercalate {parts : List String} (h : parts ≠ []) :
    byteLen (String.intercalate "," parts) + 1 = (parts.map fun p => byteLen p + 1).sum := by
  induction parts with
  | nil => exact absurd rfl h
  | cons p ps ih =>
      cases ps with
      | nil => simp
      | cons q qs =>
          have hcomma : byteLen "," = 1 := by decide +kernel
          rw [String.intercalate_cons_of_ne_nil (by simp), byteLen_append, byteLen_append, hcomma, List.map_cons,
            List.sum_cons, ← ih (by simp)]
          omega

theorem jsonLen_eq {m : JsonMap} (h : m ≠ []) : jsonLen floatText m = 1 + membersLen floatText m := by
  have hopen : byteLen "\x7b" = 1 := by decide +kernel
  have hclose : byteLen "\x7d" = 1 := by decide +kernel
  have hcolon : byteLen ":" = 1 := by decide +kernel
  have hperm : (sortFields (canonicalFields floatText m)).Perm (canonicalFields floatText m) :=
    List.perm_insertionSort _ _
  have hne : sortFields (canonicalFields floatText m) ≠ [] := by
    intro hnil
    rw [hnil, canonicalFields_eq] at hperm
    exact h (List.map_eq_nil_iff.1 (List.nil_perm.1 hperm))
  have hsum := (hperm.map fun f => byteLen (jsonString f.1 ++ ":" ++ f.2) + 1).sum_nat
  rw [jsonLen, canonicalJson, byteLen_append, byteLen_append, hopen, hclose]
  have hparts := @byteLen_intercalate ((sortFields (canonicalFields floatText m)).map fun f => jsonString f.1 ++ ":" ++ f.2)
    fun hnil => hne (List.map_eq_nil_iff.1 hnil)
  rw [List.map_map] at hparts
  have hmembers : membersLen floatText m =
      ((canonicalFields floatText m).map fun f => byteLen (jsonString f.1 ++ ":" ++ f.2) + 1).sum := by
    rw [membersLen, canonicalFields_eq, List.map_map]
    refine congrArg List.sum (List.map_congr_left ?_)
    intro f _
    simp only [memberLen, Function.comp_apply, byteLen_append, hcolon]
    omega
  rw [hmembers, ← hsum]
  simp only [Function.comp_def] at hparts
  omega

/-! ## What shedding leaves -/

/-- None of the keys is in use. -/
def JsonMap.Lacks (m : JsonMap) (keys : List String) : Prop := ∀ f ∈ m, f.1 ∉ keys

theorem JsonMap.Lacks.filter {m : JsonMap} {keys : List String} (h : m.Lacks keys) {key : String} (hkey : key ∈ keys) :
    m.filter (·.1 ≠ key) = m := by
  rw [List.filter_eq_self]
  intro f hf
  apply decide_eq_true
  rintro rfl
  exact h f hf hkey

theorem JsonMap.Lacks.any {m : JsonMap} {keys : List String} (h : m.Lacks keys) {key : String} (hkey : key ∈ keys) :
    m.any (·.1 = key) = false := by
  rw [List.any_eq_false]
  intro f hf hdec
  have hfk := of_decide_eq_true hdec
  exact h f hf (hfk ▸ hkey)

theorem JsonMap.Lacks.append {m n : JsonMap} {keys : List String} (hm : m.Lacks keys) (hn : n.Lacks keys) :
    JsonMap.Lacks (m ++ n) keys := by
  intro f hf
  rcases List.mem_append.1 hf with hf | hf
  · exact hm f hf
  · exact hn f hf

theorem shedSections_fits {m : JsonMap} (h : jsonLen floatText m ≤ MAX_STRUCTURED_BYTES) (secs : List String) :
    shedSections floatText secs m = m := by
  cases secs with
  | nil => rfl
  | cons sec rest => rw [shedSections, if_pos h]

theorem shedSections_absent {m : JsonMap} {sec : String} (h : m.Lacks [sec]) (rest : List String) :
    shedSections floatText (sec :: rest) m = shedSections floatText rest m := by
  rw [shedSections, h.any (List.mem_singleton_self sec)]
  split
  · rename_i hfits
    exact (shedSections_fits hfits rest).symm
  · rfl

theorem shedSections_present {pre post : JsonMap} {sec : String} (v : Json) (hpre : pre.Lacks [sec, sec ++ "_omitted"])
    (hpost : post.Lacks [sec, sec ++ "_omitted"]) (rest : List String) :
    shedSections floatText (sec :: rest) (pre ++ (sec, v) :: post) =
      if jsonLen floatText (pre ++ (sec, v) :: post) ≤ MAX_STRUCTURED_BYTES then pre ++ (sec, v) :: post
      else shedSections floatText rest (pre ++ post ++ [(sec ++ "_omitted", .bool true)]) := by
  have hany : (pre ++ (sec, v) :: post).any (·.1 = sec) = true := by simp
  have hdrop : (pre ++ (sec, v) :: post).filter (·.1 ≠ sec) = pre ++ post := by
    rw [List.filter_append, List.filter_cons, hpre.filter (List.mem_cons_self ..), hpost.filter (List.mem_cons_self ..)]
    simp
  rw [shedSections, if_pos hany, hdrop, JsonMap.insert, (hpre.append hpost).filter (by simp)]

theorem membersLen_append (m n : JsonMap) :
    membersLen floatText (m ++ n) = membersLen floatText m + membersLen floatText n := by
  rw [membersLen, List.map_append, List.sum_append]
  rfl

theorem membersLen_cons (f : String × Json) (m : JsonMap) :
    membersLen floatText (f :: m) = memberLen floatText f + membersLen floatText m := by
  rw [membersLen, List.map_cons, List.sum_cons]
  rfl

/-! ## The sections of a capture -/

namespace Captured

def ancestorsMember (cap : Captured) : String × Json := ("pipeline", commandList cap.ancestors)

def siblingsMembers (cap : Captured) : JsonMap :=
  if cap.siblings.isEmpty then [] else [("pipeline_siblings", commandList cap.siblings)]

/-- What stands for the siblings once they are dropped. -/
def siblingsMarker (cap : Captured) : JsonMap :=
  if cap.siblings.isEmpty then [] else [("pipeline_siblings_omitted", .bool true)]

def pipelineMarker : String × Json := ("pipeline_omitted", .bool true)

/-- Everything captured; then without the siblings; then without the ancestors. -/
def full (cap : Captured) : JsonMap := cap.ancestorsMember :: cap.siblingsMembers

def trimmed (cap : Captured) : JsonMap := cap.ancestorsMember :: cap.siblingsMarker

def bare (cap : Captured) : JsonMap := cap.siblingsMarker ++ [pipelineMarker]

end Captured

/-- The keys that shedding reads and writes. -/
def captureKeys : List String := ["pipeline", "pipeline_siblings", "pipeline_omitted", "pipeline_siblings_omitted"]

theorem JsonMap.Lacks.mono {m : JsonMap} {keys keys' : List String} (h : m.Lacks keys) (hsub : keys' ⊆ keys) :
    m.Lacks keys' := fun f hf hkey => h f hf (hsub hkey)

theorem pipeline_omitted_eq : ("pipeline" : String) ++ "_omitted" = "pipeline_omitted" := by decide +kernel

theorem siblings_omitted_eq : ("pipeline_siblings" : String) ++ "_omitted" = "pipeline_siblings_omitted" := by
  decide +kernel

/-- The last section gives way. -/
theorem shedSections_pipeline (cap : Captured) {pre post : JsonMap} (hpre : pre.Lacks ["pipeline", "pipeline_omitted"])
    (hpost : post.Lacks ["pipeline", "pipeline_omitted"]) :
    shedSections floatText ["pipeline"] (pre ++ cap.ancestorsMember :: post) =
      if jsonLen floatText (pre ++ cap.ancestorsMember :: post) ≤ MAX_STRUCTURED_BYTES then
        pre ++ cap.ancestorsMember :: post
      else pre ++ post ++ [Captured.pipelineMarker] := by
  rw [Captured.ancestorsMember, shedSections_present _ (by rwa [pipeline_omitted_eq]) (by rwa [pipeline_omitted_eq]),
    pipeline_omitted_eq]
  rfl

theorem Captured.siblingsMarker_lacks (cap : Captured) :
    cap.siblingsMarker.Lacks ["pipeline", "pipeline_siblings", "pipeline_omitted"] := by
  unfold Captured.siblingsMarker
  split
  · intro f hf
    cases hf
  · intro f hf
    rw [List.mem_singleton.1 hf]
    decide +kernel

section
variable {rest : JsonMap} (hrest : rest.Lacks captureKeys)
include hrest

theorem shed_trimmed (cap : Captured) :
    shedStructuredToFit floatText (cap.trimmed ++ rest) =
      if jsonLen floatText (cap.trimmed ++ rest) ≤ MAX_STRUCTURED_BYTES then cap.trimmed ++ rest
      else cap.siblingsMarker ++ rest ++ [Captured.pipelineMarker] := by
  have htail : JsonMap.Lacks (cap.siblingsMarker ++ rest) ["pipeline", "pipeline_siblings", "pipeline_omitted"] :=
    cap.siblingsMarker_lacks.append (hrest.mono (by decide +kernel))
  have hnone : JsonMap.Lacks (cap.trimmed ++ rest) ["pipeline_siblings"] := by
    intro f hf
    rcases List.mem_cons.1 hf with rfl | hf
    · exact (by decide +kernel : ("pipeline" : String) ∉ ["pipeline_siblings"])
    · exact (htail.mono (by decide +kernel)) f hf
  rw [shedStructuredToFit, shedSections_absent hnone]
  exact @shedSections_pipeline _ cap [] _ (fun f hf => absurd hf List.not_mem_nil) (htail.mono (by decide +kernel))

theorem shed_full (cap : Captured) :
    shedStructuredToFit floatText (cap.full ++ rest) =
      if jsonLen floatText (cap.full ++ rest) ≤ MAX_STRUCTURED_BYTES then cap.full ++ rest
      else if jsonLen floatText (cap.ancestorsMember :: (rest ++ cap.siblingsMarker)) ≤ MAX_STRUCTURED_BYTES then
        cap.ancestorsMember :: (rest ++ cap.siblingsMarker)
      else rest ++ cap.siblingsMarker ++ [Captured.pipelineMarker] := by
  have htail : JsonMap.Lacks (rest ++ cap.siblingsMarker) ["pipeline", "pipeline_omitted"] :=
    JsonMap.Lacks.append (hrest.mono (by decide +kernel)) (cap.siblingsMarker_lacks.mono (by decide +kernel))
  have hlast := @shedSections_pipeline floatText cap [] _ (fun f hf => absurd hf List.not_mem_nil) htail
  by_cases hsib : cap.siblings.isEmpty = true
  · have hfull : cap.full ++ rest = cap.trimmed ++ rest := by
      simp [Captured.full, Captured.trimmed, Captured.siblingsMembers, Captured.siblingsMarker, hsib]
    have hmark : cap.siblingsMarker = [] := by simp [Captured.siblingsMarker, hsib]
    rw [hfull, shed_trimmed hrest cap, hmark]
    simp only [Captured.trimmed, hmark, List.nil_append, List.append_nil, List.singleton_append]
    split
    · rfl
    · rfl
  · have hmembers : cap.full ++ rest = [cap.ancestorsMember] ++ ("pipeline_siblings", commandList cap.siblings) :: rest := by
      simp [Captured.full, Captured.siblingsMembers, hsib]
    have hmark : cap.siblingsMarker = [("pipeline_siblings_omitted", .bool true)] := by
      simp [Captured.siblingsMarker, hsib]
    have hpre : JsonMap.Lacks [cap.ancestorsMember] ["pipeline_siblings", "pipeline_siblings_omitted"] := by
      intro f hf
      rw [List.mem_singleton.1 hf]
      exact (by decide +kernel : ("pipeline" : String) ∉ ["pipeline_siblings", "pipeline_siblings_omitted"])
    rw [hmembers, shedStructuredToFit, shedSections_present _ (by rwa [siblings_omitted_eq])
      (by rw [siblings_omitted_eq]; exact hrest.mono (by decide +kernel)), siblings_omitted_eq, ← hmark,
      List.append_assoc]
    split
    · rfl
    · exact hlast

theorem shed_caller : shedStructuredToFit floatText rest = rest := by
  rw [shedStructuredToFit, shedSections_absent (hrest.mono (by decide +kernel)),
    shedSections_absent (hrest.mono (by decide +kernel))]
  rfl

theorem shed_bare (cap : Captured) : shedStructuredToFit floatText (cap.bare ++ rest) = cap.bare ++ rest := by
  have hmark : JsonMap.Lacks [Captured.pipelineMarker] ["pipeline", "pipeline_siblings"] := by
    intro f hf
    rw [List.mem_singleton.1 hf]
    decide +kernel
  have hall : JsonMap.Lacks (cap.bare ++ rest) ["pipeline", "pipeline_siblings"] :=
    ((cap.siblingsMarker_lacks.mono (by decide +kernel)).append hmark).append (hrest.mono (by decide +kernel))
  rw [shedStructuredToFit, shedSections_absent (hall.mono (by decide +kernel)),
    shedSections_absent (hall.mono (by decide +kernel))]
  rfl

end

/-! ## What the caller gave -/

/-- The context with nothing captured. -/
def callerContext : Option String → JsonMap
  | none => []
  | some text => [("extra", .str text)]

def targetContext (extra : Option String) (method : String) (target : Target) : JsonMap :=
  callerContext extra ++ [("target", .str (method ++ " " ++ target.display))]

theorem callerContext_lacks (extra : Option String) : (callerContext extra).Lacks captureKeys := by
  cases extra with
  | none =>
      intro f hf
      cases hf
  | some text =>
      intro f hf
      rw [List.mem_singleton.1 hf]
      exact (by decide +kernel : ("extra" : String) ∉ captureKeys)

theorem targetContext_lacks (extra : Option String) (method : String) (target : Target) :
    (targetContext extra method target).Lacks captureKeys := by
  refine (callerContext_lacks extra).append ?_
  intro f hf
  rw [List.mem_singleton.1 hf]
  exact (by decide +kernel : ("target" : String) ∉ captureKeys)

/-- What is left of a capture when the context is built: it is measured alone. -/
def Captured.kept (floatText : UInt64 → String) (cap : Captured) : JsonMap :=
  if jsonLen floatText cap.full ≤ MAX_STRUCTURED_BYTES then cap.full
  else if jsonLen floatText cap.trimmed ≤ MAX_STRUCTURED_BYTES then cap.trimmed
  else cap.bare

theorem Captured.kept_ne_nil (cap : Captured) : cap.kept floatText ≠ [] := by
  unfold Captured.kept
  split
  · exact List.cons_ne_nil _ _
  · split
    · exact List.cons_ne_nil _ _
    · exact List.append_ne_nil_of_right_ne_nil _ (List.cons_ne_nil _ _)

theorem Captured.kept_lacks (cap : Captured) : (cap.kept floatText).Lacks ["extra", "target"] := by
  have hancestors : cap.ancestorsMember.1 ∉ ["extra", "target"] :=
    (by decide +kernel : ("pipeline" : String) ∉ ["extra", "target"])
  have hmembers : cap.siblingsMembers.Lacks ["extra", "target"] := by
    unfold Captured.siblingsMembers
    split
    · intro f hf
      cases hf
    · intro f hf
      rw [List.mem_singleton.1 hf]
      exact (by decide +kernel : ("pipeline_siblings" : String) ∉ ["extra", "target"])
  have hmarker : cap.siblingsMarker.Lacks ["extra", "target"] := by
    unfold Captured.siblingsMarker
    split
    · intro f hf
      cases hf
    · intro f hf
      rw [List.mem_singleton.1 hf]
      decide +kernel
  unfold Captured.kept
  split
  · exact List.forall_mem_cons.2 ⟨hancestors, hmembers⟩
  · split
    · exact List.forall_mem_cons.2 ⟨hancestors, hmarker⟩
    · refine hmarker.append ?_
      intro f hf
      rw [List.mem_singleton.1 hf]
      decide +kernel

theorem captureSections_eq (cap : Captured) : captureSections floatText cap = cap.kept floatText := by
  have hfull : (if cap.siblings.isEmpty then JsonMap.insert [] "pipeline" (commandList cap.ancestors)
      else (JsonMap.insert [] "pipeline" (commandList cap.ancestors)).insert "pipeline_siblings"
        (commandList cap.siblings)) = cap.full ++ [] := by
    unfold Captured.full Captured.siblingsMembers
    split
    · rfl
    · rfl
  rw [captureSections, hfull, shed_full (fun f hf => absurd hf List.not_mem_nil) cap]
  simp only [List.append_nil, List.nil_append]
  rfl

/-- What was kept of the capture, if there was one. -/
def keptOf (floatText : UInt64 → String) (captured : Option Captured) : JsonMap :=
  captured.elim [] (captureSections floatText)

theorem keptOf_lacks (captured : Option Captured) : (keptOf floatText captured).Lacks ["extra", "target"] := by
  cases captured with
  | none =>
      intro f hf
      cases hf
  | some cap =>
      rw [keptOf, Option.elim_some, captureSections_eq]
      exact cap.kept_lacks

theorem buildStructuredContext_eq (captured : Option Captured) (extra : Option String) :
    buildStructuredContext floatText captured extra =
      if (keptOf floatText captured ++ callerContext extra).isEmpty then none
      else some (keptOf floatText captured ++ callerContext extra) := by
  cases extra with
  | none =>
      rw [callerContext, List.append_nil]
      rfl
  | some text =>
      have hins : (keptOf floatText captured).insert "extra" (.str text) =
          keptOf floatText captured ++ callerContext (some text) := by
        rw [JsonMap.insert, (keptOf_lacks captured).filter (by simp)]
        rfl
      rw [← hins]
      rfl

/-- `curl` sheds once more, with the target in the map. -/
theorem buildRequestContext_eq (captured : Option Captured) (extra : Option String) (method : String) (target : Target) :
    buildRequestContext floatText captured extra method target =
      let m := shedStructuredToFit floatText (keptOf floatText captured ++ targetContext extra method target)
      if jsonLen floatText m > MAX_STRUCTURED_BYTES then .error (jsonLen floatText m) else .ok m := by
  have hget : (buildStructuredContext floatText captured extra).getD [] =
      keptOf floatText captured ++ callerContext extra := by
    rw [buildStructuredContext_eq]
    split
    · rename_i hnil
      exact (List.isEmpty_iff.1 hnil).symm
    · rfl
  have hcaller : (callerContext extra).Lacks ["target"] := by
    cases extra with
    | none =>
        intro f hf
        cases hf
    | some text =>
        intro f hf
        rw [List.mem_singleton.1 hf]
        exact (by decide +kernel : ("extra" : String) ∉ ["target"])
  have hlacks : JsonMap.Lacks (keptOf floatText captured ++ callerContext extra) ["target"] :=
    ((keptOf_lacks captured).mono (by simp)).append hcaller
  rw [buildRequestContext, hget, JsonMap.insert, hlacks.filter (by simp), List.append_assoc]
  rfl

/-! ## The server's check -/

/-- No request with this context is refused for the size of it. -/
def ServerTakes (floatText : UInt64 → String) (structured : Option JsonMap) : Prop :=
  ∀ req : CreateAccessRequest, req.context.structured = structured.map (fun m => bytes (canonicalJson floatText (.obj m))) →
    validateRequest req ≠ .error (.requestTooLarge "context.structured too large")

theorem bind_eq_error {ε α β : Type} {x : Except ε α} {f : α → Except ε β} {e : ε} (h : (x >>= f) = .error e) :
    x = .error e ∨ ∃ a, x = .ok a ∧ f a = .error e := by
  cases x with
  | error e' =>
      cases h
      exact Or.inl rfl
  | ok a => exact Or.inr ⟨a, rfl, h⟩

theorem validateMethods_error {ms : List String} {e : ApiFailure} (h : validateMethods ms = .error e) :
    ∃ text, e = .invalidRequest text := by
  induction ms with
  | nil => cases h
  | cons m ms ih =>
      rw [validateMethods] at h
      split at h
      · cases h
        exact ⟨_, rfl⟩
      · cases hms : validateMethods ms with
        | ok v =>
            rw [hms] at h
            cases h
        | error e' =>
            rw [hms] at h
            cases h
            exact ih hms

theorem validatePrefixes_error {ps : List String} {e : ApiFailure} (h : validatePrefixes ps = .error e) :
    ∃ text, e = .invalidRequest text := by
  induction ps with
  | nil => cases h
  | cons p ps ih =>
      rw [validatePrefixes] at h
      split at h
      · cases h
        exact ⟨_, rfl⟩
      · cases hps : validatePrefixes ps with
        | ok v =>
            rw [hps] at h
            cases h
        | error e' =>
            rw [hps] at h
            cases h
            exact ih hps

theorem validateUses_error {mechanism : Mechanism} {cons : Constraints} {methods : List String} {e : ApiFailure}
    (h : validateUses mechanism cons methods = .error e) : ∃ text, e = .invalidRequest text := by
  unfold validateUses at h
  split at h
  · split at h
    · cases h
      exact ⟨_, rfl⟩
    · split at h
      · cases h
        exact ⟨_, rfl⟩
      · split at h
        · cases h
          exact ⟨_, rfl⟩
        · split at h
          · cases h
            exact ⟨_, rfl⟩
          · cases h
        · cases h
  · split at h
    · cases h
    · cases h
    · cases h
      exact ⟨_, rfl⟩

theorem validateIdempotencyKey_error {req : CreateAccessRequest} :
    Api.validateIdempotencyKey req ≠ .error (.requestTooLarge "context.structured too large") := by
  unfold Api.validateIdempotencyKey
  split
  · simp
  · split <;> simp

/-- The one place that refuses a request for its context's size. -/
theorem validateRequest_too_large {req : CreateAccessRequest}
    (h : validateRequest req = .error (.requestTooLarge "context.structured too large")) :
    ∃ s, req.context.structured = some s ∧ maxStructuredBytes < s.length := by
  by_cases hany : req.context.structured.any (fun s => decide (s.length > maxStructuredBytes)) = true
  · obtain ⟨s, hs, hlen⟩ := (Option.any_eq_true _ _).1 hany
    exact ⟨s, hs, of_decide_eq_true hlen⟩
  · exfalso
    unfold validateRequest at h
    rcases bind_eq_error h with hkey | ⟨_, -, h⟩
    · exact validateIdempotencyKey_error hkey
    · simp only [hany, if_false, Bool.false_eq_true] at h
      split at h
      · cases h
      · split at h
        · simp [throw, throwThe, MonadExceptOf.throw, bind, Except.bind] at h
        · split at h
          · simp [throw, throwThe, MonadExceptOf.throw, bind, Except.bind] at h
          · split at h
            · cases h
            · rcases bind_eq_error h with hm | ⟨methods, -, h⟩
              · obtain ⟨text, htext⟩ := validateMethods_error hm
                cases htext
              · rcases bind_eq_error h with hp | ⟨ps, -, h⟩
                · obtain ⟨text, htext⟩ := validatePrefixes_error hp
                  cases htext
                · rcases bind_eq_error h with hu | ⟨uses, -, h⟩
                  · obtain ⟨text, htext⟩ := validateUses_error hu
                    cases htext
                  · cases h

/-- A body that nothing but its context can spoil. -/
def bodyWith (structured : Option Db.Blob) : CreateAccessRequest where
  idempotencyKey := "k"
  secretName := "s"
  mechanism := .cliRead
  constraints := ⟨[], [], [], 60, some 1⟩
  context := ⟨"", structured⟩

theorem serverTakes_iff {structured : Option JsonMap} :
    ServerTakes floatText structured ↔ ∀ m, structured = some m → jsonLen floatText m ≤ MAX_STRUCTURED_BYTES := by
  constructor
  · rintro htakes m rfl
    by_contra hlen
    apply htakes (bodyWith (some (bytes (canonicalJson floatText (.obj m))))) rfl
    have hany : (some (bytes (canonicalJson floatText (.obj m)))).any (fun s => decide (s.length > maxStructuredBytes)) =
        true := decide_eq_true (Nat.lt_of_not_le hlen)
    have hkey : byteLen "k" = 1 := by decide +kernel
    have hname : byteLen "s" = 1 := by decide +kernel
    have hreason : byteLen "" = 0 := by decide +kernel
    simp [validateRequest, Api.validateIdempotencyKey, bodyWith, hany, hkey, hname, hreason, maxIdemKeyBytes, throw,
      throwThe, MonadExceptOf.throw, bind, Except.bind]
  · intro hfits req hreq hbad
    obtain ⟨s, hs, hlen⟩ := validateRequest_too_large hbad
    rw [hreq, Option.map_eq_some_iff] at hs
    obtain ⟨m, rfl, rfl⟩ := hs
    exact absurd (hfits m rfl) (Nat.not_le_of_lt hlen)

/-! ## When a capture leaves room -/

/-- `request` measures the capture before the caller's text is in the map, and not after. -/
def RequestRoom (floatText : UInt64 → String) (cap : Captured) (caller : JsonMap) : Prop :=
  jsonLen floatText (cap.full ++ caller) ≤ MAX_STRUCTURED_BYTES ∨
    (MAX_STRUCTURED_BYTES < jsonLen floatText cap.full ∧
      jsonLen floatText (cap.trimmed ++ caller) ≤ MAX_STRUCTURED_BYTES) ∨
    (MAX_STRUCTURED_BYTES < jsonLen floatText cap.full ∧ MAX_STRUCTURED_BYTES < jsonLen floatText cap.trimmed ∧
      jsonLen floatText (cap.bare ++ caller) ≤ MAX_STRUCTURED_BYTES)

/-- `curl` measures it with everything in the map; the markers take room of their own. -/
def CurlRoom (floatText : UInt64 → String) (cap : Captured) (caller : JsonMap) : Prop :=
  jsonLen floatText (cap.full ++ caller) ≤ MAX_STRUCTURED_BYTES ∨
    jsonLen floatText (cap.trimmed ++ caller) ≤ MAX_STRUCTURED_BYTES ∨
    jsonLen floatText (cap.bare ++ caller) ≤ MAX_STRUCTURED_BYTES

theorem jsonLen_append {m n : JsonMap} (h : m ≠ []) :
    jsonLen floatText (m ++ n) = 1 + membersLen floatText m + membersLen floatText n := by
  rw [jsonLen_eq (List.append_ne_nil_of_left_ne_nil h n), membersLen_append, Nat.add_assoc]

theorem Captured.full_ne_nil (cap : Captured) : cap.full ≠ [] := List.cons_ne_nil _ _

theorem Captured.trimmed_ne_nil (cap : Captured) : cap.trimmed ≠ [] := List.cons_ne_nil _ _

theorem Captured.bare_ne_nil (cap : Captured) : cap.bare ≠ [] :=
  List.append_ne_nil_of_right_ne_nil _ (List.cons_ne_nil _ _)

theorem kept_fits_iff (cap : Captured) (caller : JsonMap) :
    jsonLen floatText (cap.kept floatText ++ caller) ≤ MAX_STRUCTURED_BYTES ↔ RequestRoom floatText cap caller := by
  unfold RequestRoom Captured.kept
  rw [jsonLen_append cap.full_ne_nil, jsonLen_append cap.trimmed_ne_nil, jsonLen_eq cap.full_ne_nil,
    jsonLen_eq cap.trimmed_ne_nil]
  split
  · rw [jsonLen_append cap.full_ne_nil]
    omega
  · split
    · rw [jsonLen_append cap.trimmed_ne_nil]
      omega
    · omega

/-- Shedding what was kept, with the caller's members in the map. -/
theorem shed_kept_fits_iff (cap : Captured) {caller : JsonMap} (hcaller : caller.Lacks captureKeys) :
    jsonLen floatText (shedStructuredToFit floatText (cap.kept floatText ++ caller)) ≤ MAX_STRUCTURED_BYTES ↔
      CurlRoom floatText cap caller := by
  have hmark : (Captured.pipelineMarker :: ([] : JsonMap)) ≠ [] := List.cons_ne_nil _ _
  have hswap : jsonLen floatText (cap.siblingsMarker ++ caller ++ [Captured.pipelineMarker]) =
      jsonLen floatText (cap.bare ++ caller) := by
    rw [jsonLen_eq (List.append_ne_nil_of_right_ne_nil _ hmark), jsonLen_append cap.bare_ne_nil, Captured.bare,
      membersLen_append, membersLen_append, membersLen_append]
    omega
  have hswap' : jsonLen floatText (caller ++ cap.siblingsMarker ++ [Captured.pipelineMarker]) =
      jsonLen floatText (cap.bare ++ caller) := by
    rw [← hswap, jsonLen_eq (List.append_ne_nil_of_right_ne_nil _ hmark),
      jsonLen_eq (List.append_ne_nil_of_right_ne_nil _ hmark), membersLen_append, membersLen_append, membersLen_append,
      membersLen_append]
    omega
  have htrim : jsonLen floatText (cap.ancestorsMember :: (caller ++ cap.siblingsMarker)) =
      jsonLen floatText (cap.trimmed ++ caller) := by
    rw [jsonLen_eq (List.cons_ne_nil _ _), jsonLen_append cap.trimmed_ne_nil, Captured.trimmed, membersLen_cons,
      membersLen_cons, membersLen_append]
    omega
  have hgrow : ∀ {m : JsonMap}, m ≠ [] → jsonLen floatText m ≤ jsonLen floatText (m ++ caller) := by
    intro m hm
    rw [jsonLen_append hm, jsonLen_eq hm]
    omega
  have hfull := hgrow cap.full_ne_nil
  have htrimmed := hgrow cap.trimmed_ne_nil
  unfold CurlRoom Captured.kept
  split
  · rw [shed_full hcaller]
    split
    · omega
    · split
      · omega
      · rw [hswap']
        omega
  · split
    · rw [shed_trimmed hcaller]
      split
      · omega
      · rw [hswap]
        omega
    · rw [shed_bare hcaller]
      omega

theorem request_fits_iff (captured : Option Captured) (extra : Option String)
    (hcaller : jsonLen floatText (callerContext extra) ≤ MAX_STRUCTURED_BYTES) :
    ServerTakes floatText (buildStructuredContext floatText captured extra) ↔
      ∀ cap, captured = some cap → RequestRoom floatText cap (callerContext extra) := by
  rw [serverTakes_iff, buildStructuredContext_eq]
  cases captured with
  | none =>
      rw [keptOf, Option.elim_none, List.nil_append]
      constructor
      · intro _ cap hnone
        cases hnone
      · intro _ m hm
        split at hm
        · cases hm
        · cases hm
          exact hcaller
  | some cap =>
      rw [keptOf, Option.elim_some, captureSections_eq, if_neg (by simp [cap.kept_ne_nil])]
      constructor
      · intro hfits cap' hcap
        cases hcap
        exact (kept_fits_iff cap _).1 (hfits _ rfl)
      · intro hroom m hm
        cases hm
        exact (kept_fits_iff cap _).2 (hroom cap rfl)

theorem buildRequestContext_ok_iff (captured : Option Captured) (extra : Option String) (method : String)
    (target : Target) :
    (∃ m, buildRequestContext floatText captured extra method target = .ok m ∧ ServerTakes floatText (some m)) ↔
      jsonLen floatText (shedStructuredToFit floatText (keptOf floatText captured ++ targetContext extra method target)) ≤
        MAX_STRUCTURED_BYTES := by
  rw [buildRequestContext_eq]
  constructor
  · rintro ⟨m, hm, -⟩
    by_contra hlt
    rw [if_pos (Nat.lt_of_not_le hlt)] at hm
    cases hm
  · intro hle
    refine ⟨_, if_neg (Nat.not_lt_of_le hle), serverTakes_iff.2 ?_⟩
    intro m hm
    cases hm
    exact hle

theorem curl_fits_iff (captured : Option Captured) (extra : Option String) (method : String) (target : Target)
    (hcaller : jsonLen floatText (targetContext extra method target) ≤ MAX_STRUCTURED_BYTES) :
    (∃ m, buildRequestContext floatText captured extra method target = .ok m ∧ ServerTakes floatText (some m)) ↔
      ∀ cap, captured = some cap → CurlRoom floatText cap (targetContext extra method target) := by
  have hlacks := targetContext_lacks extra method target
  rw [buildRequestContext_ok_iff]
  cases captured with
  | none =>
      rw [keptOf, Option.elim_none, List.nil_append, shed_caller hlacks]
      constructor
      · intro _ cap hnone
        cases hnone
      · intro _
        exact hcaller
  | some cap =>
      rw [keptOf, Option.elim_some, captureSections_eq, shed_kept_fits_iff cap hlacks]
      constructor
      · intro hroom cap' hcap
        cases hcap
        exact hroom
      · intro hroom
        exact hroom cap rfl

/-! ## A capture of one process -/

def onePs : Option String := some "  789   456   789 keychute\n"

theorem capture_onePs : capture onePs 789 = some ⟨["keychute"], []⟩ := by decide +kernel

def filler (n : Nat) : String := String.ofList (List.replicate n 'x')

theorem byteLen_jsonString_filler (n : Nat) : byteLen (jsonString (filler n)) = n + 2 := by
  have hx : jsonEscape 'x' = ['x'] := by decide +kernel
  have hquote : byteLen "\"" = 1 := by decide +kernel
  have hflat : (List.replicate n 'x').flatMap jsonEscape = List.replicate n 'x' := by
    induction n with
    | zero => rfl
    | succ n ih => rw [List.replicate_succ, List.flatMap_cons, ih, hx, List.singleton_append]
  have hplain : ∀ ch ∈ List.replicate n 'x', Http.plainChar ch := by
    intro ch hch
    rw [List.eq_of_mem_replicate hch]
    decide +kernel
  rw [jsonString, filler, String.toList_ofList, hflat, byteLen_append, byteLen_append, hquote,
    Http.byteLen_of_plain hplain, List.length_replicate]
  omega

theorem membersLen_filler (n : Nat) : membersLen floatText (callerContext (some (filler n))) = n + 11 := by
  have hkey : byteLen (jsonString "extra") = 7 := by decide +kernel
  rw [callerContext, membersLen_cons, memberLen, canonicalJson, byteLen_jsonString_filler, hkey, membersLen, List.map_nil,
    List.sum_nil]
  omega

def exampleTarget : Target := ⟨⟨"h.example", none⟩, "/", none⟩

theorem membersLen_target (n : Nat) :
    membersLen floatText (targetContext (some (filler n)) "GET" exampleTarget) = n + 45 := by
  have hkey : byteLen (jsonString "target") = 8 := by decide +kernel
  have htext : byteLen (jsonString ("GET" ++ " " ++ exampleTarget.display)) = 24 := by decide +kernel
  rw [targetContext, membersLen_append, membersLen_filler, membersLen_cons, memberLen, canonicalJson, hkey, htext,
    membersLen, List.map_nil, List.sum_nil]
  omega

/-- The one process, or its marker, takes 24 bytes. -/
theorem membersLen_one : membersLen floatText (Captured.full ⟨["keychute"], []⟩) = 24 ∧
    membersLen floatText (Captured.trimmed ⟨["keychute"], []⟩) = 24 ∧
    membersLen floatText (Captured.bare ⟨["keychute"], []⟩) = 24 := by
  have hone : memberLen floatText (Captured.ancestorsMember ⟨["keychute"], []⟩) = 24 := by
    have htext : canonicalJson floatText (commandList ["keychute"]) = "[\"keychute\"]" := by
      have hstr : canonicalItems floatText [.str (clipCommand "keychute")] = ["\"keychute\""] := by
        rw [canonicalItems, canonicalItems, canonicalJson]
        decide +kernel
      rw [commandList, List.map_singleton, canonicalJson, hstr]
      decide +kernel
    rw [memberLen, Captured.ancestorsMember, htext]
    decide +kernel
  have hmark : memberLen floatText Captured.pipelineMarker = 24 := by
    rw [memberLen, Captured.pipelineMarker, canonicalJson]
    decide +kernel
  refine ⟨?_, ?_, ?_⟩
  · rw [Captured.full, membersLen_cons, hone]
    rfl
  · rw [Captured.trimmed, membersLen_cons, hone]
    rfl
  · rw [Captured.bare, membersLen_append, membersLen_cons, hmark]
    rfl

theorem jsonLen_callerContext (text : String) :
    jsonLen floatText (callerContext (some text)) = 1 + membersLen floatText (callerContext (some text)) :=
  jsonLen_eq (List.cons_ne_nil _ _)

theorem jsonLen_targetContext (extra : Option String) (method : String) (target : Target) :
    jsonLen floatText (targetContext extra method target) = 1 + membersLen floatText (targetContext extra method target) :=
  jsonLen_eq (List.append_ne_nil_of_right_ne_nil _ (List.cons_ne_nil _ _))

/-! ## The two commands -/

theorem capture_fits_iff (floatText : UInt64 → String) (ps : Option String) (pid : Nat) (extra : Option String) :
    (jsonLen floatText (callerContext extra) ≤ MAX_STRUCTURED_BYTES →
      (ServerTakes floatText (buildStructuredContext floatText (capture ps pid) extra) ↔
        ∀ cap, capture ps pid = some cap → RequestRoom floatText cap (callerContext extra))) ∧
    ∀ method target, jsonLen floatText (targetContext extra method target) ≤ MAX_STRUCTURED_BYTES →
      ((∃ m, buildRequestContext floatText (capture ps pid) extra method target = .ok m ∧
          ServerTakes floatText (some m)) ↔
        ∀ cap, capture ps pid = some cap → CurlRoom floatText cap (targetContext extra method target)) :=
  ⟨request_fits_iff (capture ps pid) extra, curl_fits_iff (capture ps pid) extra⟩

/-- The caller's own text fits, to the byte; with one process captured beside it both commands are refused. -/
theorem capture_refused :
    (jsonLen (fun _ => "") (callerContext (some (filler 16372))) ≤ MAX_STRUCTURED_BYTES ∧
      ¬ ServerTakes (fun _ => "") (buildStructuredContext (fun _ => "") (capture onePs 789) (some (filler 16372)))) ∧
    jsonLen (fun _ => "") (targetContext (some (filler 16338)) "GET" exampleTarget) ≤ MAX_STRUCTURED_BYTES ∧
      ∃ len, buildRequestContext (fun _ => "") (capture onePs 789) (some (filler 16338)) "GET" exampleTarget =
        .error len := by
  obtain ⟨hfull, htrimmed, hbare⟩ := @membersLen_one fun _ => ""
  have hcaller : jsonLen (fun _ => "") (callerContext (some (filler 16372))) ≤ MAX_STRUCTURED_BYTES := by
    rw [jsonLen_callerContext, membersLen_filler]
    decide
  have htarget : jsonLen (fun _ => "") (targetContext (some (filler 16338)) "GET" exampleTarget) ≤
      MAX_STRUCTURED_BYTES := by
    rw [jsonLen_targetContext, membersLen_target]
    decide
  refine ⟨⟨hcaller, ?_⟩, htarget, ?_⟩
  · rw [request_fits_iff _ _ hcaller, capture_onePs]
    intro hroom
    have hcap := hroom _ rfl
    rw [RequestRoom, jsonLen_append (Captured.full_ne_nil _), jsonLen_append (Captured.trimmed_ne_nil _),
      jsonLen_append (Captured.bare_ne_nil _), jsonLen_eq (Captured.full_ne_nil _), hfull, htrimmed, hbare,
      membersLen_filler, MAX_STRUCTURED_BYTES] at hcap
    omega
  · have hroom : ¬ ∃ m, buildRequestContext (fun _ => "") (capture onePs 789) (some (filler 16338)) "GET" exampleTarget =
        .ok m ∧ ServerTakes (fun _ => "") (some m) := by
      rw [curl_fits_iff _ _ _ _ htarget, capture_onePs]
      intro hroom
      have hcap := hroom _ rfl
      rw [CurlRoom, jsonLen_append (Captured.full_ne_nil _), jsonLen_append (Captured.trimmed_ne_nil _),
        jsonLen_append (Captured.bare_ne_nil _), hfull, htrimmed, hbare, membersLen_target, MAX_STRUCTURED_BYTES] at hcap
      omega
    rw [buildRequestContext_ok_iff] at hroom
    rw [buildRequestContext_eq]
    exact ⟨_, if_pos (Nat.lt_of_not_le hroom)⟩

theorem capture_fits_iff_short :
    ServerTakes (fun _ => "") (buildStructuredContext (fun _ => "") (capture onePs 789) (some (filler 16348))) ∧
    ∃ m, buildRequestContext (fun _ => "") (capture onePs 789) (some (filler 16314)) "GET" exampleTarget = .ok m ∧
      ServerTakes (fun _ => "") (some m) := by
  obtain ⟨hfull, -, -⟩ := @membersLen_one fun _ => ""
  have hcaller : jsonLen (fun _ => "") (callerContext (some (filler 16348))) ≤ MAX_STRUCTURED_BYTES := by
    rw [jsonLen_callerContext, membersLen_filler]
    decide
  have htarget : jsonLen (fun _ => "") (targetContext (some (filler 16314)) "GET" exampleTarget) ≤
      MAX_STRUCTURED_BYTES := by
    rw [jsonLen_targetContext, membersLen_target]
    decide
  refine ⟨((capture_fits_iff (fun _ => "") onePs 789 (some (filler 16348))).1 hcaller).2 ?_,
    ((capture_fits_iff (fun _ => "") onePs 789 (some (filler 16314))).2 "GET" exampleTarget htarget).2 ?_⟩
  · intro cap hcap
    rw [capture_onePs] at hcap
    cases hcap
    rw [RequestRoom, jsonLen_append (Captured.full_ne_nil _), hfull, membersLen_filler]
    exact Or.inl (by decide)
  · intro cap hcap
    rw [capture_onePs] at hcap
    cases hcap
    rw [CurlRoom, jsonLen_append (Captured.full_ne_nil _), hfull, membersLen_target]
    exact Or.inl (by decide)

end Keychute.Cli
