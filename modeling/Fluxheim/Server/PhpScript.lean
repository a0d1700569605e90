import Fluxheim.Lib.PathText
import Fluxheim.Server.StaticResolve

/-!
# The script of a PHP request

The model of `script.rs` of the PHP-FPM crate and of `resolve_php_script`.  What is executed is
below the root, of an allowed extension, not below a denied prefix, and of plain segments.
-/

namespace Fluxheim

open Ascii List

/-- `to_ascii_uppercase`, of one byte. -/
def upper (b : UInt8) : UInt8 := if isLower b then b - 32 else b

variable (segment : Bytes)

/-- The names of devices. -/
def windowsReservedPhpSegment : Bool :=
  let stem := segment.takeWhile (· ≠ 46)
  let upper := stem.map upper
  let suffix :=
    if ascii "COM" <+: upper then some (upper.drop 3)
    else if ascii "LPT" <+: upper then some (upper.drop 3)
    else none
  [ascii "CON", ascii "PRN", ascii "AUX", ascii "NUL", ascii "CONIN$", ascii "CONOUT$"].contains
      upper ||
    suffix.any fun suffix =>
      (match suffix with
        | [digit] => 49 ≤ digit && digit ≤ 57
        | _ => false) ||
      [[0xc2, 0xb9], [0xc2, 0xb2], [0xc2, 0xb3]].contains suffix

/-- A plain segment. -/
def validPhpSegment (rejectHidden : Bool) : Bool :=
  segment != [] && segment != ascii "." && segment != ascii ".." &&
    !(rejectHidden && segment.head? == some 46) &&
    !(segment.getLast? == some 46 || segment.getLast? == some 32) &&
    !(segment.any (fun byte => byte == 47 || byte == 92 || byte == 58) || hasControl segment) &&
    !windowsReservedPhpSegment segment

/-- What follows the last dot of a text. -/
def extension : Option Bytes :=
  (Search.splitOnce 46 segment.reverse).map fun cut => cut.1.reverse

/-- A script by its extension. -/
def phpSegmentHasAllowedExtension (allowedExtensions : List Bytes) : Bool :=
  (extension segment).any fun extension =>
    allowedExtensions.any fun allowed => eqIgnoreCase extension allowed

/-- Whether a path may go on behind the script. -/
inductive PhpPathInfoMode where
  | disabled
  | split
  deriving DecidableEq

/-- What happens to a path that names no script. -/
inductive PhpTryFilesMode where
  | frontController
  | wordPress
  | strict
  deriving DecidableEq

/-- `PhpConfig`, as far as scripts are resolved. -/
structure PhpConfig where
  index : Bytes
  pathInfo : PhpPathInfoMode
  allowedExtensions : List Bytes
  denyPathPrefixes : List Bytes
  tryFiles : PhpTryFilesMode

/-- The script that a path names, and the rest of the path. -/
structure PhpScriptName where
  scriptName : Bytes
  pathInfo : Bytes
  explicitPhp : Bool

/-- The path of the segments that follow a script, nothing if there are none. -/
def trailingPath (trailing : List Bytes) : Bytes :=
  if trailing = [] then [] else rootedPath trailing

/-- The script of a path, or the index script. -/
def phpScriptNameForRequest (requestPath index : Bytes) (pathInfo : PhpPathInfoMode)
    (allowedExtensions : List Bytes) : Option PhpScriptName :=
  let decoded := percentDecode requestPath
  if utf8Valid decoded = false then none
  else if decoded.head? ≠ some 47 ∨ hasControl decoded = true then none
  else if validPhpSegment index true = false then none
  else
    let segments := keptSegments decoded
    if ¬ segments.all (validPhpSegment · true) then none
    else
      let plain := fun segment => !phpSegmentHasAllowedExtension segment allowedExtensions
      match segments.dropWhile plain with
      | script :: trailing =>
        if trailing ≠ [] ∧ pathInfo = .disabled then none
        else
          some
            { scriptName := rootedPath (segments.takeWhile plain ++ [script])
              pathInfo := trailingPath trailing
              explicitPhp := true }
      | [] => some { scriptName := 47 :: index, pathInfo := [], explicitPhp := false }

/-- The script is below a denied prefix. -/
def phpScriptNameDenied (denyPathPrefixes : List Bytes) (scriptName : Bytes) : Bool :=
  denyPathPrefixes.any fun denied =>
    scriptName == denied ||
      decide (denied <+: scriptName) &&
        (denied.getLast? == some 47 || (scriptName.drop denied.length).head? == some 47)

/-- The path is that of a directory, without its slash. -/
def phpShouldRedirectDirectoryIndex (requestPath scriptName index : Bytes) : Bool :=
  if requestPath.getLast? = some 47 ∨ 92 ∈ requestPath then false
  else if (47 :: index) <:+ scriptName then
    let parent := scriptName.take (scriptName.length - (index.length + 1))
    parent != [] && parent == requestPath
  else false

/-- The script name of a file. -/
def phpStaticFileScriptName (root localPath : AbsolutePath) (allowedExtensions : List Bytes) :
    Option Bytes :=
  if ¬ root <+: localPath then none
  else
    let relative := localPath.drop root.length
    if ¬ relative.all (fun segment => utf8Valid segment && validPhpSegment segment true) then none
    else
      let scriptName := relative.flatMap (47 :: ·)
      if scriptName = [] ∨ phpSegmentHasAllowedExtension scriptName allowedExtensions = false then
        none
      else some scriptName

/-- A script to execute. -/
structure NativePhpScriptResolution where
  localPath : AbsolutePath
  scriptName : Bytes
  pathInfo : Bytes
  deriving DecidableEq

/-- What becomes of a request. -/
inductive NativePhpScriptResolve where
  | execute (resolution : NativePhpScriptResolution)
  | redirectDirectorySlash
  | decline
  | notFound
  | forbidden
  deriving DecidableEq

namespace NativeHttp1StaticWeb

variable (fs : FileSystem) (web : NativeHttp1StaticWeb) (php : PhpConfig)

/-- The last part of `resolve_php_script`, for the script that the path names or the index. -/
def executeParsedScript (parsed : PhpScriptName) : Except FileError NativePhpScriptResolve :=
  match web.resolve fs parsed.scriptName with
  | .error error => .error error
  | .ok (.found file) =>
    match phpStaticFileScriptName web.root file php.allowedExtensions with
    | none => .ok .forbidden
    | some scriptName =>
      if phpScriptNameDenied php.denyPathPrefixes scriptName then .ok .forbidden
      else .ok (.execute ⟨file, scriptName, parsed.pathInfo⟩)
  | .ok .forbidden => .ok .forbidden
  | .ok .notFound => .ok .notFound
  | .ok (.directoryListing _) => .ok .notFound

/-- What is done after the path itself was resolved in vain. -/
def tryFiles (parsed : PhpScriptName) : Except FileError NativePhpScriptResolve :=
  if php.tryFiles = .strict then .ok .notFound else web.executeParsedScript fs php parsed

/-- The script that is executed. -/
def resolvePhpScript (requestPath : Bytes) (declineExistingStatic : Bool) :
    Except FileError NativePhpScriptResolve :=
  match phpScriptNameForRequest requestPath php.index php.pathInfo php.allowedExtensions with
  | none => .ok .forbidden
  | some parsed =>
    if phpScriptNameDenied php.denyPathPrefixes parsed.scriptName then .ok .forbidden
    else if parsed.explicitPhp then web.executeParsedScript fs php parsed
    else
      match web.resolve fs requestPath with
      | .error error => .error error
      | .ok (.found file) =>
        match phpStaticFileScriptName web.root file php.allowedExtensions with
        | some scriptName =>
          if phpShouldRedirectDirectoryIndex requestPath scriptName php.index then
            .ok .redirectDirectorySlash
          else if phpScriptNameDenied php.denyPathPrefixes scriptName then .ok .forbidden
          else .ok (.execute ⟨file, scriptName, parsed.pathInfo⟩)
        | none =>
          if declineExistingStatic then .ok .decline else web.tryFiles fs php parsed
      | .ok .forbidden => .ok .forbidden
      | .ok .notFound => web.tryFiles fs php parsed
      | .ok (.directoryListing _) => web.tryFiles fs php parsed

/-- A file may be executed as the script of the given name. -/
structure Executable (file : AbsolutePath) (scriptName : Bytes) : Prop where
  named : phpStaticFileScriptName web.root file php.allowedExtensions = some scriptName
  allowed : phpScriptNameDenied php.denyPathPrefixes scriptName = false

variable {fs web php}

variable {r : NativePhpScriptResolution}

theorem executeParsedScript_eq_execute {parsed : PhpScriptName}
    (h : web.executeParsedScript fs php parsed = .ok (.execute r)) :
    web.resolve fs parsed.scriptName = .ok (.found r.localPath) ∧
      web.Executable php r.localPath r.scriptName ∧ r.pathInfo = parsed.pathInfo := by
  unfold executeParsedScript at h
  split at h
  · cases h
  · rename_i file hfile
    split at h
    · cases h
    · rename_i scriptName hname
      split at h
      · cases h
      · rename_i hdeny
        cases h
        exact ⟨hfile, ⟨hname, Bool.eq_false_iff.2 hdeny⟩, rfl⟩
  · cases h
  · cases h
  · cases h

theorem tryFiles_eq_execute {parsed : PhpScriptName}
    (h : web.tryFiles fs php parsed = .ok (.execute r)) :
    web.executeParsedScript fs php parsed = .ok (.execute r) := by
  unfold tryFiles at h
  split at h
  · cases h
  · exact h

/-- An executed script: the path was read and is not denied, the file may be executed, and it is
what the script of the path was resolved to if the path names one. -/
theorem resolvePhpScript_eq_execute {rp : Bytes} {decline : Bool}
    (h : web.resolvePhpScript fs php rp decline = .ok (.execute r)) :
    ∃ parsed, phpScriptNameForRequest rp php.index php.pathInfo php.allowedExtensions =
        some parsed ∧
      phpScriptNameDenied php.denyPathPrefixes parsed.scriptName = false ∧
      web.Executable php r.localPath r.scriptName ∧ r.pathInfo = parsed.pathInfo ∧
      (parsed.explicitPhp = true →
        web.resolve fs parsed.scriptName = .ok (.found r.localPath)) := by
  unfold resolvePhpScript at h
  split at h
  · cases h
  · rename_i parsed hparsed
    have of_parsed (h : web.executeParsedScript fs php parsed = .ok (.execute r)) :=
      executeParsedScript_eq_execute h
    split at h
    · cases h
    · rename_i hdeny
      refine ⟨parsed, hparsed, Bool.eq_false_iff.2 hdeny, ?_⟩
      split at h
      · obtain ⟨hfile, hexec, hinfo⟩ := of_parsed h
        exact ⟨hexec, hinfo, fun _ => hfile⟩
      · rename_i hexp
        have of_tryFiles (h : web.tryFiles fs php parsed = .ok (.execute r)) :
            web.Executable php r.localPath r.scriptName ∧ r.pathInfo = parsed.pathInfo ∧
              (parsed.explicitPhp = true →
                web.resolve fs parsed.scriptName = .ok (.found r.localPath)) :=
          have ⟨_, hexec, hinfo⟩ := of_parsed (tryFiles_eq_execute h)
          ⟨hexec, hinfo, fun h => absurd h hexp⟩
        split at h
        · cases h
        · split at h
          · rename_i scriptName hname
            split at h
            · cases h
            · split at h
              · cases h
              · rename_i hdeny
                cases h
                exact ⟨⟨hname, Bool.eq_false_iff.2 hdeny⟩, rfl, fun h => absurd h hexp⟩
          · split at h
            · cases h
            · exact of_tryFiles h
        · cases h
        · exact of_tryFiles h
        · exact of_tryFiles h

end NativeHttp1StaticWeb

/-- A segment that names one visible file or directory, on any system. -/
structure PlainSegment (segment : Bytes) : Prop where
  ne_nil : segment ≠ []
  visible : segment.head? ≠ some 46
  slash : 47 ∉ segment
  backslash : 92 ∉ segment
  colon : 58 ∉ segment
  utf8 : utf8Valid segment = true
  control : hasControl segment = false

theorem plainSegment_of_valid {segment : Bytes} (hutf8 : utf8Valid segment = true)
    (h : validPhpSegment segment true = true) : PlainSegment segment := by
  simp only [validPhpSegment, Bool.true_and, Bool.and_eq_true, Bool.not_eq_true', bne_iff_ne,
    beq_eq_false_iff_ne, Bool.or_eq_false_iff, any_eq_false, Bool.or_eq_true, beq_iff_eq,
    not_or] at h
  obtain ⟨⟨⟨⟨⟨⟨hnil, -⟩, -⟩, hvisible⟩, -⟩, hby, hcontrol⟩, -⟩ := h
  exact ⟨hnil, hvisible, fun h => (hby 47 h).1.1 rfl, fun h => (hby 92 h).1.2 rfl,
    fun h => (hby 58 h).2 rfl, hutf8, hcontrol⟩

variable {segments exts denyP : List Bytes}

theorem flatMap_rooted (hne : segments ≠ []) :
    segments.flatMap (47 :: ·) = rootedPath segments := by
  induction segments with
  | nil => exact absurd rfl hne
  | cons s segments ih =>
    cases segments with
    | nil => simp [rootedPath]
    | cons t segments =>
      rw [flatMap_cons, ih (cons_ne_nil _ _), rootedPath, rootedPath, intercalate_byte, cons_append]

/-- The path of some segments begins with the path of the first of them. -/
theorem rootedPath_append {segs more : List Bytes} (hsegs : segs ≠ [])
    (hmore : more ≠ []) : rootedPath (segs ++ more) = rootedPath segs ++ rootedPath more := by
  have hne : segs ++ more ≠ [] := append_ne_nil_of_left_ne_nil hsegs more
  rw [← flatMap_rooted hne, ← flatMap_rooted hsegs, ← flatMap_rooted hmore, flatMap_append]

/-- The name of a file: its path from the root. -/
theorem phpStaticFileScriptName_eq_some_iff {root lpath : AbsolutePath} {script : Bytes} :
    phpStaticFileScriptName root lpath exts = some script ↔
      ∃ segments, segments ≠ [] ∧ lpath = root ++ segments ∧ script = rootedPath segments ∧
        (∀ s ∈ segments, utf8Valid s = true ∧ validPhpSegment s true = true) ∧
        phpSegmentHasAllowedExtension script exts = true := by
  unfold phpStaticFileScriptName
  constructor
  · intro h
    split at h
    · cases h
    · rename_i hroot
      dsimp only at h
      split at h
      · cases h
      · rename_i hval
        split at h
        · cases h
        · rename_i hname
          cases h
          rw [not_or, Bool.not_eq_false] at hname
          have hne : lpath.drop root.length ≠ [] := fun hnil => by
            rw [hnil] at hname
            exact hname.1 rfl
          refine ⟨lpath.drop root.length, hne,
            (prefix_iff_eq_append.1 (not_not.1 hroot)).symm, flatMap_rooted hne, ?_, hname.2⟩
          intro s hs
          exact (Bool.and_eq_true ..).mp (all_eq_true.1 (not_not.1 hval) s hs)
  · rintro ⟨segments, hne, rfl, rfl, hval, hext⟩
    have hall : segments.all (fun seg => utf8Valid seg && validPhpSegment seg true) =
        true := by
      rw [all_eq_true]
      intro s hs
      rw [(hval s hs).1, (hval s hs).2]
      rfl
    have hname : segments.flatMap (47 :: ·) = rootedPath segments := flatMap_rooted hne
    rw [if_neg (not_not.2 (prefix_append _ _)), drop_left]
    rw [if_neg (not_not.2 hall), hname, if_neg]
    rw [hext]
    exact not_or.2 ⟨cons_ne_nil _ _, Bool.noConfusion⟩

theorem extension_eq_some {x ext : Bytes} (h : extension x = some ext) :
    ∃ stem, x = stem ++ 46 :: ext ∧ 46 ∉ ext := by
  obtain ⟨⟨l, r⟩, hcut, rfl⟩ := Option.map_eq_some_iff.1 h
  obtain ⟨hx, hl⟩ := Search.splitOnce_eq_some_iff.1 hcut
  refine ⟨r.reverse, ?_, fun hmem => hl (mem_reverse.1 hmem)⟩
  have := congrArg reverse hx
  rwa [reverse_reverse, reverse_append, reverse_cons, append_assoc] at this

/-- A name that is not denied is no denied prefix, and not below one. -/
theorem not_under_of_not_denied {script : Bytes} (h : phpScriptNameDenied denyP script = false) :
    ∀ denied ∈ denyP, script ≠ denied ∧
      ∀ rest, script = denied ++ rest → denied.getLast? ≠ some 47 ∧ rest.head? ≠ some 47 := by
  intro denied hdeny
  have hthis := any_eq_false.1 h denied hdeny
  rw [Bool.or_eq_true, not_or, beq_iff_eq, Bool.and_eq_true, not_and, Bool.or_eq_true, not_or,
    decide_eq_true_eq, beq_iff_eq, beq_iff_eq] at hthis
  refine ⟨hthis.1, fun rest hrest => ?_⟩
  have hunder := hthis.2 (hrest ▸ prefix_append _ _)
  rwa [hrest, drop_left] at hunder

/-- Nothing below a denied directory is executed. -/
theorem not_prefix_of_not_denied {denied : List Bytes}
    (h : phpScriptNameDenied denyP (rootedPath segments) = false)
    (hdeny : rootedPath denied ∈ denyP) : ¬ denied <+: segments := by
  rintro ⟨more, rfl⟩
  obtain ⟨hne, hunder⟩ := not_under_of_not_denied h _ hdeny
  by_cases hnil : denied = []
  · subst hnil
    exact (hunder ([47].intercalate more) rfl).1 rfl
  · by_cases hmore : more = []
    · subst hmore
      exact hne (by rw [append_nil])
    · exact (hunder _ (rootedPath_append hnil hmore)).2 rfl

/-- What a path names: the segments of its decoding are valid, and the script is the first of them
with an allowed extension, with the segments before it. -/
theorem phpScriptNameForRequest_eq_some {requestPath idx : Bytes} {mode : PhpPathInfoMode}
    {parsed : PhpScriptName} (h : phpScriptNameForRequest requestPath idx mode exts = some parsed) :
    (∀ s ∈ keptSegments (percentDecode requestPath), PlainSegment s) ∧
      ((parsed.pathInfo = [] ∧ ∀ s ∈ keptSegments (percentDecode requestPath),
          phpSegmentHasAllowedExtension s exts = false) ∨
        ∃ before script tail,
          keptSegments (percentDecode requestPath) = before ++ script :: tail ∧
          (∀ s ∈ before, phpSegmentHasAllowedExtension s exts = false) ∧
          phpSegmentHasAllowedExtension script exts = true ∧
          parsed = ⟨rootedPath (before ++ [script]), trailingPath tail, true⟩) := by
  unfold phpScriptNameForRequest at h
  dsimp only at h
  split at h
  · cases h
  · rename_i hutf8
    split at h
    · cases h
    · split at h
      · cases h
      · split at h
        · cases h
        · rename_i hval
          have hplain : ∀ s ∈ keptSegments (percentDecode requestPath), PlainSegment s := by
            intro s hs
            have hdec : [47].intercalate ((percentDecode requestPath).splitOn 47) =
              percentDecode requestPath := intercalate_splitOn 47
            rw [← hdec, Bool.not_eq_false, utf8Valid_intercalate (by decide)] at hutf8
            exact plainSegment_of_valid (hutf8 s (mem_filter.1 hs).1)
              (all_eq_true.1 (not_not.1 hval) s hs)
          refine ⟨hplain, ?_⟩
          split at h
          · rename_i script tail hdrop
            split at h
            · cases h
            · cases h
              have hsplit := takeWhile_append_dropWhile
                (p := fun s => !phpSegmentHasAllowedExtension s exts)
                (l := keptSegments (percentDecode requestPath))
              rw [hdrop] at hsplit
              refine .inr ⟨_, script, tail, hsplit.symm, fun s hs => ?_, ?_, rfl⟩
              · simpa using mem_takeWhile_imp hs
              · have := head?_dropWhile_not
                  (fun s => !phpSegmentHasAllowedExtension s exts)
                  (keptSegments (percentDecode requestPath))
                rw [hdrop] at this
                simpa using this
          · rename_i hdrop
            cases h
            refine .inl ⟨rfl, fun s hs => ?_⟩
            simpa using dropWhile_eq_nil_iff.1 hdrop s hs

/-- **What is executed**: the file is the root joined with the plain segments of the script's name,
the extension is an allowed one, the name is no denied prefix and not below one, and the segments of
the path information are plain too. -/
theorem resolve_php_script_execute (fs : FileSystem) (web : NativeHttp1StaticWeb)
    (php : PhpConfig) (requestPath : Bytes) (decline : Bool) (r : NativePhpScriptResolution)
    (h : web.resolvePhpScript fs php requestPath decline = .ok (.execute r)) :
    (∃ segments, segments ≠ [] ∧ r.scriptName.splitOn 47 = [] :: segments ∧
      r.localPath = web.root ++ segments ∧ (∀ s ∈ segments, PlainSegment s) ∧
      ∀ denied, rootedPath denied ∈ php.denyPathPrefixes → ¬ denied <+: segments) ∧
    (∃ stem ext, r.scriptName = stem ++ 46 :: ext ∧ 46 ∉ ext ∧
      ∃ allowed ∈ php.allowedExtensions, eqIgnoreCase ext allowed = true) ∧
    (∀ denied ∈ php.denyPathPrefixes, r.scriptName ≠ denied ∧
      ∀ rest, r.scriptName = denied ++ rest →
        denied.getLast? ≠ some 47 ∧ rest.head? ≠ some 47) ∧
    (r.pathInfo = [] ∨ ∃ trailing, trailing ≠ [] ∧ r.pathInfo.splitOn 47 = [] :: trailing ∧
      ∀ s ∈ trailing, PlainSegment s) := by
  obtain ⟨parsed, hparsed, -, hexec, hinfo, -⟩ :=
    NativeHttp1StaticWeb.resolvePhpScript_eq_execute h
  obtain ⟨segments, hne, hpath, hname, hval, hext⟩ :=
    phpStaticFileScriptName_eq_some_iff.1 hexec.named
  have hplain : ∀ s ∈ segments, PlainSegment s :=
    fun s hs => plainSegment_of_valid (hval s hs).1 (hval s hs).2
  have hdeny := hexec.allowed
  refine ⟨⟨segments, hne, ?_, hpath, hplain, fun denied hmem => ?_⟩, ?_,
    not_under_of_not_denied hdeny, ?_⟩
  · rw [hname, splitOn_rootedPath hne fun s hs => (hplain s hs).slash]
  · exact not_prefix_of_not_denied (hname ▸ hdeny) hmem
  · obtain ⟨ext, hsome, hallow⟩ := (Option.any_eq_true _ _).1 hext
    obtain ⟨stem, hstem, hdot⟩ := extension_eq_some hsome
    obtain ⟨allowed, hmem, heq⟩ := any_eq_true.1 hallow
    exact ⟨stem, ext, hstem, hdot, allowed, hmem, heq⟩
  · obtain ⟨hsegs, ⟨hempty, -⟩ | ⟨before, script, trailing, hkept, -, -, rfl⟩⟩ :=
      phpScriptNameForRequest_eq_some hparsed
    · exact .inl (hinfo.trans hempty)
    · by_cases htrailing : trailing = []
      · subst htrailing
        exact .inl hinfo
      · have hplain : ∀ s ∈ trailing, PlainSegment s := fun s hs => hsegs s (by
          rw [hkept]
          exact mem_append_right _ (mem_cons_of_mem _ hs))
        refine .inr ⟨trailing, htrailing, ?_, hplain⟩
        rw [hinfo, trailingPath, if_neg htrailing, splitOn_rootedPath htrailing fun s hs =>
          (hplain s hs).slash]

/-- A file system without links, in which everything is a file. -/
def plainFiles : FileSystem where
  canonicalize := .ok
  metadata _ := .ok .file
  symlinkMetadata _ := .ok .file
  readDir _ := .ok ()

/-- The files of PHP applications below `/srv`. -/
def exampleRoot : NativeHttp1StaticWeb where
  root := [ascii "srv"]
  indexFiles := [ascii "index.php"]
  denyDotfiles := true
  directoryListing := false
  indexFiles_normal := by decide

/-- A front controller. -/
def examplePhp : PhpConfig where
  index := ascii "index.php"
  pathInfo := .split
  allowedExtensions := [ascii "php"]
  denyPathPrefixes := [ascii "/uploads"]
  tryFiles := .frontController

/-- The script `/app/run.PHP` with the path information `/a/b`. -/
theorem resolve_php_script_execute_run :
    exampleRoot.resolvePhpScript plainFiles examplePhp (ascii "/app/./%72un.PHP//a/b") false =
      .ok (.execute ⟨[ascii "srv", ascii "app", ascii "run.PHP"], ascii "/app/run.PHP",
        ascii "/a/b"⟩) ∧
    ∀ rest, ascii "/app/run.PHP" = ascii "/uploads" ++ rest → rest.head? ≠ some 47 := by
  have h : exampleRoot.resolvePhpScript plainFiles examplePhp (ascii "/app/./%72un.PHP//a/b")
      false = .ok (.execute ⟨[ascii "srv", ascii "app", ascii "run.PHP"], ascii "/app/run.PHP",
        ascii "/a/b"⟩) := by
    decide +kernel
  have hexec := resolve_php_script_execute _ _ _ _ _ _ h
  exact ⟨h, fun rest hrest => ((hexec.2.2.1 _ mem_cons_self).2 rest hrest).2⟩

end Fluxheim
