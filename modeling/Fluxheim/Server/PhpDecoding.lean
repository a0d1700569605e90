import Fluxheim.Server.PhpScript
import Fluxheim.Server.Route

/-!
# How often the path of a PHP request is decoded

`php_script_name_for_request` decodes a path and takes the script's name from the decoded segments;
the resolver of static files, which is given that name as a path, decodes it again.  Routes and
access policies see the path decoded once.
-/

namespace Fluxheim

open Ascii List NativeHttp1StaticWeb

/-- Everything is a directory but one file, and there are no links. -/
def singleFile (file : AbsolutePath) : FileSystem where
  canonicalize := .ok
  metadata path := .ok (if path = file then .file else .directory)
  symlinkMetadata path := .ok (if path = file then .file else .directory)
  readDir _ := .ok ()

namespace NativeHttp1StaticWeb

variable {web : NativeHttp1StaticWeb}

theorem staticFile_singleFile (file more : AbsolutePath) :
    web.staticFile (singleFile file) (web.root ++ more) =
      .ok (if web.root ++ more = file then some (web.root ++ more) else none) := by
  unfold staticFile
  dsimp only [singleFile]
  rw [drop_left, if_neg (not_not.2 (prefix_append _ _)),
    if_neg (not_or.2 ⟨not_not.2 (prefix_append _ _), not_not.2 rfl⟩)]
  by_cases h : web.root ++ more = file
  · rw [if_pos h, if_pos rfl, if_pos h]
  · rw [if_neg h, if_neg (by decide), if_neg h]

theorem indexLoop_singleFile {idx : Bytes} {more : AbsolutePath}
    {idxs : List Bytes} (h : idx ∈ idxs) :
    web.indexLoop (singleFile (web.root ++ (more ++ [idx]))) (web.root ++ more) idxs =
      .ok (some (web.root ++ (more ++ [idx]))) := by
  induction idxs with
  | nil => cases h
  | cons other idxs ih =>
    rw [indexLoop, append_assoc, staticFile_singleFile]
    by_cases hother : other = idx
    · rw [hother, if_pos rfl]
    · have hne : web.root ++ (more ++ [other]) ≠ web.root ++ (more ++ [idx]) := fun heq =>
        hother (singleton_inj.1 (append_cancel_left (append_cancel_left heq)))
      rw [if_neg hne]
      exact ih ((mem_cons.1 h).resolve_left (Ne.symm hother))

/-- The file is found by every path that leads to it. -/
theorem resolve_singleFile {rp : Bytes} {relative : SafeRelativePath} {tail : List Bytes}
    (hpath : web.relativeRequestPath rp = .ok (some relative))
    (htail : web.IndexTail tail) :
    web.resolve (singleFile (web.root ++ (relative.components ++ tail))) rp =
      .ok (.found (web.root ++ (relative.components ++ tail))) := by
  have hcan (file path : AbsolutePath) : (singleFile file).canonicalize path = .ok path := rfl
  have hmeta (file path : AbsolutePath) : (singleFile file).metadata path =
    .ok (if path = file then .file else .directory) := rfl
  rw [resolve, hpath]
  dsimp only
  rw [resolveRelativeCandidate, hcan]
  dsimp only
  rw [if_neg (not_or.2 ⟨not_not.2 (prefix_append _ _), not_not.2 rfl⟩), hmeta]
  rcases htail with rfl | ⟨idx, hindex, rfl⟩
  · rw [append_nil, if_pos rfl]
    rw [staticFile_singleFile, if_pos rfl]
  · have hne : web.root ++ relative.components ≠ web.root ++ (relative.components ++ [idx]) :=
      fun heq => by simpa using congrArg length heq
    rw [if_neg hne]
    rw [indexLoop_singleFile hindex]

end NativeHttp1StaticWeb

/-! ### The second decoding -/

/-- The script that a path names has a `%` left and, decoded again, leads to another script that may
be executed, or to a directory with one as an index file. -/
def DecodedAgain (web : NativeHttp1StaticWeb) (php : PhpConfig) (requestPath : Bytes) : Prop :=
  ∃ parsed tail,
    phpScriptNameForRequest requestPath php.index php.pathInfo php.allowedExtensions = some parsed ∧
    phpScriptNameDenied php.denyPathPrefixes parsed.scriptName = false ∧
    37 ∈ parsed.scriptName ∧ ¬ Refused web.denyDotfiles parsed.scriptName ∧ web.IndexTail tail ∧
    rootedPath (keptSegments (percentDecode parsed.scriptName) ++ tail) ≠ parsed.scriptName ∧
    web.Executable php (web.root ++ (keptSegments (percentDecode parsed.scriptName) ++ tail))
      (rootedPath (keptSegments (percentDecode parsed.scriptName) ++ tail))

/-- The segments of the decoded path, cut at the first one with an allowed extension. -/
structure NamesScript (php : PhpConfig) (requestPath : Bytes) (seen trailing : List Bytes) :
    Prop where
  segments : keptSegments (percentDecode requestPath) = seen ++ trailing
  script : ∃ before script, seen = before ++ [script] ∧
    (∀ s ∈ before, phpSegmentHasAllowedExtension s php.allowedExtensions = false) ∧
    phpSegmentHasAllowedExtension script php.allowedExtensions = true

/-- There is one place to cut. -/
theorem cut_unique {p : Bytes → Bool} {before before' after after' : List Bytes} {a a' : Bytes}
    (h : before ++ a :: after = before' ++ a' :: after') (hpre : ∀ s ∈ before, p s = false)
    (ha : p a = true) (hpre' : ∀ s ∈ before', p s = false) (ha' : p a' = true) :
    before = before' ∧ a = a' ∧ after = after' := by
  induction before generalizing before' with
  | nil =>
    cases before' with
    | nil => exact ⟨rfl, cons.inj h⟩
    | cons b before' =>
      obtain ⟨rfl, -⟩ := cons.inj h
      rw [hpre' a mem_cons_self] at ha
      cases ha
  | cons b before ih =>
    rw [forall_mem_cons] at hpre
    cases before' with
    | nil =>
      obtain ⟨rfl, -⟩ := cons.inj h
      rw [hpre.1] at ha'
      cases ha'
    | cons b' before' =>
      obtain ⟨rfl, hrest⟩ := cons.inj h
      rw [forall_mem_cons] at hpre'
      obtain ⟨rfl, hafter⟩ := ih hrest hpre.2 hpre'.2
      exact ⟨rfl, hafter⟩

/-- What a path with a script is read as. -/
theorem NamesScript.parsed {php : PhpConfig} {rp : Bytes} {seen tail : List Bytes}
    (hnames : NamesScript php rp seen tail) {parsed : PhpScriptName}
    (h : phpScriptNameForRequest rp php.index php.pathInfo php.allowedExtensions =
      some parsed) :
    parsed = ⟨rootedPath seen, trailingPath tail, true⟩ ∧ seen ≠ [] ∧
      ∀ s ∈ seen, PlainSegment s := by
  obtain ⟨before, script, rfl, hpre, hscript⟩ := hnames.script
  have hsegs := hnames.segments
  rw [append_assoc] at hsegs
  obtain ⟨hplain, ⟨-, hnone⟩ | ⟨before', script', tail', hkept, hpre', hscript', rfl⟩⟩ :=
    phpScriptNameForRequest_eq_some h
  · have hmem : script ∈ keptSegments (percentDecode rp) := by simp [hsegs]
    rw [hnone script hmem] at hscript
    cases hscript
  · obtain ⟨rfl, rfl, rfl⟩ := cut_unique (hsegs.symm.trans hkept) hpre hscript hpre' hscript'
    refine ⟨rfl, by simp, fun s hs => hplain s ?_⟩
    rw [hnames.segments]
    exact mem_append_left _ hs

theorem keptSegment_of_plain {seg : Bytes} (h : PlainSegment seg) : keptSegment seg = true := by
  refine keptSegment_iff.2 ⟨h.ne_nil, ?_⟩
  rintro rfl
  exact h.visible rfl

/-- A path without `%` is decoded to its own segments. -/
theorem keptSegments_percentDecode {segments : List Bytes}
    (hplain : ∀ s ∈ segments, PlainSegment s) (hpercent : 37 ∉ rootedPath segments) :
    keptSegments (percentDecode (rootedPath segments)) = segments := by
  rw [percentDecode_of_not_mem hpercent]
  exact keptSegments_rootedPath (fun s hs => keptSegment_of_plain (hplain s hs))
    fun s hs => (hplain s hs).slash

/-- A path with a `%` in it is decoded to other segments, whatever follows them. -/
theorem ne_append_of_not_refused {deny : Bool} {seen : List Bytes} {path : Bytes}
    (h : ¬ Refused deny path) (hpercent : 37 ∈ rootedPath seen) (more : List Bytes) :
    keptSegments (percentDecode path) ≠ seen ++ more := by
  intro heq
  obtain ⟨s, hs, hmem⟩ : ∃ s ∈ seen, 37 ∈ s := by
    rcases mem_cons.1 hpercent with hslash | hpercent
    · exact absurd hslash (by decide)
    · exact (Search.mem_of_mem_intercalate hpercent).resolve_left (by decide)
  have hkept : s ∈ keptSegments (percentDecode path) := by
    rw [heq]
    exact mem_append_left _ hs
  have hdec := Search.mem_of_mem_splitOn (mem_filter.1 hkept).1 37 hmem
  exact not_mem_percent_of_not_refused h hdec.1

/-- **The script that is executed is the one that the path decoded once names**, perhaps followed by
an index file, with the rest of the path as path information, whatever files there are, exactly if
nothing else comes of decoding the script's name again. -/
theorem php_script_decoded_once_iff (web : NativeHttp1StaticWeb) (php : PhpConfig)
    (requestPath : Bytes) (decline : Bool) (seen trailing : List Bytes)
    (hnames : NamesScript php requestPath seen trailing) :
    (∀ fs r, web.resolvePhpScript fs php requestPath decline = .ok (.execute r) →
      ∃ tail, web.IndexTail tail ∧ r.scriptName.splitOn 47 = [] :: (seen ++ tail) ∧
        r.pathInfo = trailingPath trailing) ↔
      ¬ DecodedAgain web php requestPath := by
  constructor
  · -- in the file system that has the other script only, that script is executed
    rintro hseen ⟨parsed, tail, hparsed, hdeny, hpercent, href, htail, hother, hexecutable⟩
    obtain ⟨hparsed', -, -⟩ := hnames.parsed hparsed
    have hscript : parsed.scriptName = rootedPath seen := by rw [hparsed']
    set twice := keptSegments (percentDecode parsed.scriptName) with htwice
    obtain ⟨relative, hrel⟩ := exists_relativeRequestPath href
    obtain ⟨-, hcomponents⟩ := relativeRequestPath_eq_some_iff.1 hrel
    have hfound := resolve_singleFile hrel htail
    rw [show relative.components = twice from hcomponents] at hfound
    have hexec : web.resolvePhpScript (singleFile (web.root ++ (twice ++ tail))) php requestPath
        decline = .ok (.execute ⟨web.root ++ (twice ++ tail), rootedPath (twice ++ tail),
          parsed.pathInfo⟩) := by
      have hexp : parsed.explicitPhp = true := by rw [hparsed']
      rw [resolvePhpScript, hparsed]
      dsimp only
      rw [hdeny, if_neg Bool.noConfusion, if_pos hexp, executeParsedScript, hfound]
      dsimp only
      rw [hexecutable.named]
      dsimp only
      rw [hexecutable.allowed, if_neg Bool.noConfusion]
    obtain ⟨tail', htail', hsplit, -⟩ := hseen _ _ hexec
    obtain ⟨segs, hne, hsegs, hname, hval, -⟩ :=
      phpStaticFileScriptName_eq_some_iff.1 hexecutable.named
    obtain rfl := append_cancel_left hsegs
    rw [splitOn_rootedPath hne fun s hs =>
      (plainSegment_of_valid (hval s hs).1 (hval s hs).2).slash] at hsplit
    have heq : twice ++ tail = seen ++ tail' := (cons.inj hsplit).2
    have hdif := ne_append_of_not_refused href (hscript ▸ hpercent)
    rcases htail' with rfl | ⟨idx', -, rfl⟩
    · exact hother (by rw [heq, append_nil, hscript])
    · rcases htail with rfl | ⟨idx, -, rfl⟩
      · exact hdif [idx'] (by rw [← heq, append_nil])
      · exact hdif [] (by rw [append_nil]; exact (append_inj' heq rfl).1)
  · intro honce fs r hr
    obtain ⟨parsed, hparsed, hdeny, hexecutable, hinfo, hfound⟩ :=
      resolvePhpScript_eq_execute hr
    obtain ⟨rfl, hne, hplain⟩ := hnames.parsed hparsed
    obtain ⟨relative, tail, hrel, htail, hfile, -⟩ :=
      resolve_eq_found (hfound rfl)
    obtain ⟨href, hcomponents⟩ := relativeRequestPath_eq_some_iff.1 hrel
    obtain ⟨segs, hnon, hsegs, hname, hval, -⟩ :=
      phpStaticFileScriptName_eq_some_iff.1 hexecutable.named
    obtain rfl := append_cancel_left (hsegs.symm.trans hfile)
    have hsplit : r.scriptName.splitOn 47 = [] :: (relative.components ++ tail) := by
      rw [hname, splitOn_rootedPath hnon fun s hs =>
        (plainSegment_of_valid (hval s hs).1 (hval s hs).2).slash]
    have hkept : relative.components = keptSegments (percentDecode (rootedPath seen)) := hcomponents
    by_cases hpercent : 37 ∈ rootedPath seen
    · -- the second decoding was harmless: it led to the same name
      have hsame : rootedPath (relative.components ++ tail) = rootedPath seen := by
        by_contra hother
        rw [hkept] at hother
        refine honce ⟨_, tail, hparsed, hdeny, hpercent, href, htail, hother, ?_⟩
        rw [← hkept, ← hfile, ← hname]
        exact hexecutable
      refine ⟨[], .inl rfl, ?_, hinfo⟩
      rw [hname, hsame, splitOn_rootedPath hne fun s hs => (hplain s hs).slash, append_nil]
    · refine ⟨tail, htail, ?_, hinfo⟩
      rw [hsplit, hkept, keptSegments_percentDecode hplain hpercent]

/-- The path `/app/run.php/x` names the script `/app/run.php`, which has nothing left to decode. -/
theorem php_script_decoded_once_iff_run :
    (∀ fs r, exampleRoot.resolvePhpScript fs examplePhp (ascii "/app/run.php/x") false =
        .ok (.execute r) →
      ∃ tail, exampleRoot.IndexTail tail ∧
        r.scriptName.splitOn 47 = [] :: ([ascii "app", ascii "run.php"] ++ tail) ∧
        r.pathInfo = trailingPath [ascii "x"]) ↔
      ¬ DecodedAgain exampleRoot examplePhp (ascii "/app/run.php/x") :=
  php_script_decoded_once_iff _ _ _ _ _ _
    ⟨by decide +kernel, [ascii "app"], ascii "run.php", rfl, by decide +kernel, by decide +kernel⟩

/-- **The path `/%2561dmin.php` is `/%61dmin.php` for routes and access policies**, and that is what
the decoded path names, **but the script `/admin.php` is executed**. -/
theorem executes_admin_script :
    decodedRoutePolicyPath (ascii "/%2561dmin.php") = some (ascii "/%61dmin.php") ∧
    NamesScript examplePhp (ascii "/%2561dmin.php") [ascii "%61dmin.php"] [] ∧
    exampleRoot.resolvePhpScript plainFiles examplePhp (ascii "/%2561dmin.php") false =
      .ok (.execute ⟨[ascii "srv", ascii "admin.php"], ascii "/admin.php", []⟩) ∧
    ¬ ∃ tail, exampleRoot.IndexTail tail ∧
      (ascii "/admin.php").splitOn 47 = [] :: ([ascii "%61dmin.php"] ++ tail) := by
  refine ⟨by decide +kernel, ⟨by decide +kernel, [], ascii "%61dmin.php", rfl, by simp,
    by decide +kernel⟩, by decide +kernel, ?_⟩
  rintro ⟨tail, -, hsplit⟩
  exact absurd (cons.inj (cons.inj hsplit).2).1 (by decide +kernel)

end Fluxheim
