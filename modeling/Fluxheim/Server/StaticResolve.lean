import Fluxheim.Http1.Target

/-!
# Finding a static file

The model of `native_http1_static_web_resolve.rs`.  Absolute paths are the lists of their
components, all of them normal, so a path is joined by appending.  The file system is fixed from
outside: what a path is canonicalized to, and what stands there.
-/

namespace Fluxheim

open Ascii List Search

/-- One normal component of a path: it is neither empty nor `.` or `..`, and has no slash and no
zero byte. -/
def normalComponent (component : Bytes) : Bool :=
  component != [] && component != ascii "." && component != ascii ".." && !component.contains 47 &&
    !component.contains 0

/-- `SafeRelativePath`: all components are normal. -/
@[ext]
structure SafeRelativePath where
  components : List Bytes
  normal : ∀ component ∈ components, normalComponent component = true

/-- The empty path. -/
def SafeRelativePath.default : SafeRelativePath := ⟨[], by simp⟩

/-- A normal component is appended, any other one is refused. -/
def SafeRelativePath.tryPush (path : SafeRelativePath) (component : Bytes) :
    Option SafeRelativePath :=
  if h : normalComponent component = true then
    some ⟨path.components ++ [component], by
      intro c hc
      rcases mem_append.1 hc with hc | hc
      · exact path.normal c hc
      · rw [mem_singleton.1 hc]
        exact h⟩
  else none

/-- The components of an absolute path. -/
abbrev AbsolutePath := List Bytes

/-- `io::ErrorKind`, as far as it is told apart. -/
inductive FileError where
  | notFound
  | invalidInput
  | other
  deriving DecidableEq

/-- `FileType`, as far as it is told apart. -/
inductive FileKind where
  | file
  | directory
  | symlink
  | special
  deriving DecidableEq

/-- The file system that a resolver finds. -/
structure FileSystem where
  canonicalize : AbsolutePath → Except FileError AbsolutePath
  metadata : AbsolutePath → Except FileError FileKind
  symlinkMetadata : AbsolutePath → Except FileError FileKind
  /-- Whether the entries of a directory can be listed. -/
  readDir : AbsolutePath → Except FileError Unit

/-- What a path is resolved to. -/
inductive NativeStaticResolve where
  | found (path : AbsolutePath)
  | directoryListing (path : AbsolutePath)
  | notFound
  | forbidden

/-- `NativeHttp1StaticWeb`, as far as files are found.  Index files are plain names. -/
structure NativeHttp1StaticWeb where
  root : AbsolutePath
  indexFiles : List Bytes
  denyDotfiles : Bool
  directoryListing : Bool
  indexFiles_normal : ∀ index ∈ indexFiles, index ≠ [] ∧ 47 ∉ index ∧ index ≠ ascii "." ∧
    index ≠ ascii ".."

namespace NativeHttp1StaticWeb

variable (fs : FileSystem) (web : NativeHttp1StaticWeb)

/-- The loop of `relative_request_path` over the segments. -/
def relativeLoop : SafeRelativePath → List Bytes → Option SafeRelativePath
  | relative, [] => some relative
  | relative, segment :: segments =>
    if segment = [] ∨ segment = ascii "." then relativeLoop relative segments
    else if segment = ascii ".." ∨ 37 ∈ segment ∨ 92 ∈ segment ∨
        (web.denyDotfiles ∧ segment.head? = some 46) then none
    else
      match relative.tryPush segment with
      | none => none
      | some relative => relativeLoop relative segments

/-- `relative_request_path`; the error is that the decoded path is not UTF-8. -/
def relativeRequestPath (requestPath : Bytes) : Except Unit (Option SafeRelativePath) :=
  if requestPath.head? ≠ some 47 then .ok none
  else
    let decoded := percentDecode requestPath
    if ¬ utf8Valid decoded then .error ()
    else if 0 ∈ decoded then .ok none
    else .ok (web.relativeLoop .default (decoded.splitOn 47))

/-- The methods for which files are served. -/
def staticWebMethodAllowed (method : Bytes) : Bool :=
  method == ascii "GET" || method == ascii "HEAD"

/-- The regular file at a path below the root that no link leads to. -/
def staticFile (candidate : AbsolutePath) : Except FileError (Option AbsolutePath) :=
  -- from_rooted
  if ¬ web.root <+: candidate then .ok none
  else
    let expected := web.root ++ candidate.drop web.root.length
    match fs.canonicalize candidate with
    | .error .notFound => .ok none
    | .error error => .error error
    | .ok canonical =>
      if ¬ web.root <+: canonical ∨ canonical ≠ expected then .ok none
      else
        match fs.symlinkMetadata canonical with
        | .error error => .error error
        | .ok kind => if kind = .file then .ok (some canonical) else .ok none

/-- The loop over the index files of a directory. -/
def indexLoop (directory : AbsolutePath) : List Bytes → Except FileError (Option AbsolutePath)
  | [] => .ok none
  | index :: indexFiles =>
    match web.staticFile fs (directory ++ [index]) with
    | .error error => .error error
    | .ok (some file) => .ok (some file)
    | .ok none => indexLoop directory indexFiles

/-- A file, or what stands for a directory: an index file or a listing. -/
def resolveRelativeCandidate (relative : SafeRelativePath) : Except FileError NativeStaticResolve :=
  let candidate := web.root ++ relative.components
  match fs.canonicalize candidate with
  | .error .notFound => .ok .notFound
  | .error error => .error error
  | .ok canonical =>
    if ¬ web.root <+: canonical ∨ canonical ≠ candidate then .ok .notFound
    else
      match fs.metadata canonical with
      | .error .notFound => .ok .notFound
      | .error error => .error error
      | .ok .directory =>
        match web.indexLoop fs canonical web.indexFiles with
        | .error error => .error error
        | .ok (some file) => .ok (.found file)
        | .ok none =>
          if web.directoryListing then (fs.readDir canonical).map fun _ =>
            .directoryListing canonical
          else .ok .notFound
      | .ok _ =>
        match web.staticFile fs candidate with
        | .error error => .error error
        | .ok (some file) => .ok (.found file)
        | .ok none => .ok .notFound

/-- `resolve`, for the path of a request. -/
def resolve (requestPath : Bytes) : Except FileError NativeStaticResolve :=
  match web.relativeRequestPath requestPath with
  | .error _ => .error .invalidInput
  | .ok none => .ok .forbidden
  | .ok (some relative) => web.resolveRelativeCandidate fs relative

end NativeHttp1StaticWeb

/-! ### The relative path of a request -/

/-- A segment that stays in the relative path. -/
def keptSegment (segment : Bytes) : Bool := segment != [] && segment != ascii "."

/-- The segments of a path that are neither empty nor `.`. -/
def keptSegments (path : Bytes) : List Bytes := (path.splitOn 47).filter keptSegment

/-- The path of some segments from the root: `format!("/{}", segments.join("/"))`. -/
def rootedPath (segments : List Bytes) : Bytes := 47 :: [47].intercalate segments

/-- A segment for which the resolver refuses the path. -/
def refusedSegment (denyDotfiles : Bool) (segment : Bytes) : Bool :=
  keptSegment segment && (segment == ascii ".." || segment.contains 37 || segment.contains 92 ||
    denyDotfiles && segment.head? == some 46)

/-- The resolver refuses a path: it does not begin with a slash, or its decoding is not UTF-8, has a
zero byte or a refused segment. -/
def Refused (denyDotfiles : Bool) (path : Bytes) : Prop :=
  path.head? ≠ some 47 ∨ utf8Valid (percentDecode path) = false ∨ 0 ∈ percentDecode path ∨
    ∃ segment ∈ (percentDecode path).splitOn 47, refusedSegment denyDotfiles segment = true

variable {segment path : Bytes} {segments : List Bytes} {deny : Bool} {web : NativeHttp1StaticWeb}

theorem keptSegment_eq_false :
    keptSegment segment = false ↔ segment = [] ∨ segment = ascii "." := by
  rw [← Bool.not_eq_true, keptSegment, Bool.and_eq_true, bne_iff_ne, bne_iff_ne]
  tauto

theorem keptSegment_iff : keptSegment segment = true ↔ segment ≠ [] ∧ segment ≠ ascii "." := by
  rw [keptSegment, Bool.and_eq_true, bne_iff_ne, bne_iff_ne]

/-- A path of segments without a slash has these segments. -/
theorem splitOn_rootedPath (hne : segments ≠ [])
    (h : ∀ s ∈ segments, 47 ∉ s) : (rootedPath segments).splitOn 47 = [] :: segments := by
  rw [rootedPath, splitOn_cons_self, splitOn_intercalate 47 h hne]

/-- All of them are kept if they are neither empty nor `.`. -/
theorem keptSegments_rootedPath (hkept : ∀ s ∈ segments, keptSegment s = true)
    (hslash : ∀ s ∈ segments, 47 ∉ s) : keptSegments (rootedPath segments) = segments := by
  by_cases hne : segments = []
  · subst hne
    rfl
  · rw [keptSegments, splitOn_rootedPath hne hslash, filter_cons_of_neg (by decide),
      filter_eq_self.2 hkept]

theorem not_mem_slash_of_kept : ∀ s ∈ keptSegments path, 47 ∉ s := fun _ hs hmem =>
  (mem_of_mem_splitOn (mem_filter.1 hs).1 47 hmem).2 rfl

/-- What is kept of a segment without a slash and a zero byte is a normal component, or refused. -/
theorem normalComponent_of_kept (hkept : keptSegment segment = true)
    (hdots : segment ≠ ascii "..") (hslash : 47 ∉ segment) (hzero : 0 ∉ segment) :
    normalComponent segment = true := by
  rw [keptSegment_iff] at hkept
  simp [normalComponent, hkept.1, hkept.2, hdots, hslash, hzero]

theorem tryPush_of_normal (relative : SafeRelativePath) {component : Bytes}
    (h : normalComponent component = true) : ∃ next, relative.tryPush component = some next ∧
      next.components = relative.components ++ [component] := by
  unfold SafeRelativePath.tryPush
  rw [dif_pos h]
  exact ⟨_, rfl, rfl⟩

theorem refusedSegment_iff (hkept : keptSegment segment = true) :
    (segment = ascii ".." ∨ 37 ∈ segment ∨ 92 ∈ segment ∨
      (deny = true ∧ segment.head? = some 46)) ↔ refusedSegment deny segment = true := by
  simp [refusedSegment, hkept, or_assoc]

/-- The loop keeps the segments that it does not drop, unless one is refused. -/
theorem relativeLoop_eq_some_iff (web : NativeHttp1StaticWeb) {relative r : SafeRelativePath}
    (hslash : ∀ s ∈ segments, 47 ∉ s) (hzero : ∀ s ∈ segments, 0 ∉ s) :
    web.relativeLoop relative segments = some r ↔
      (∀ s ∈ segments, refusedSegment web.denyDotfiles s = false) ∧
        r.components = relative.components ++ segments.filter keptSegment := by
  induction segments generalizing relative with
  | nil =>
    simp only [NativeHttp1StaticWeb.relativeLoop, Option.some.injEq, not_mem_nil,
      IsEmpty.forall_iff, implies_true, filter_nil, append_nil, true_and]
    exact ⟨fun h => by rw [h], fun h => SafeRelativePath.ext h.symm⟩
  | cons s segments ih =>
    rw [forall_mem_cons] at hslash hzero
    rw [NativeHttp1StaticWeb.relativeLoop]
    by_cases hkept : keptSegment s = true
    · rw [if_neg (by rw [← keptSegment_eq_false, hkept]; decide), filter_cons_of_pos hkept]
      by_cases hrefused : refusedSegment web.denyDotfiles s = true
      · rw [if_pos ((refusedSegment_iff hkept).2 hrefused)]
        simp [hrefused]
      · have hdots : s ≠ ascii ".." := fun hdots =>
          hrefused ((refusedSegment_iff hkept).1 (Or.inl hdots))
        obtain ⟨next, hpush, hnext⟩ := tryPush_of_normal relative
          (normalComponent_of_kept hkept hdots hslash.1 hzero.1)
        rw [if_neg (mt (refusedSegment_iff hkept).1 hrefused), hpush]
        rw [ih hslash.2 hzero.2, hnext]
        simp [eq_false_of_ne_true hrefused]
    · have hdrop : keptSegment s = false := by simpa using hkept
      have hfine : refusedSegment web.denyDotfiles s = false := by
        rw [refusedSegment, hdrop]
        rfl
      rw [if_pos (keptSegment_eq_false.1 hdrop), filter_cons_of_neg hkept, ih hslash.2 hzero.2]
      simp [hfine]

/-- **The relative path of a path** that is not refused. -/
theorem relativeRequestPath_eq_some_iff {r : SafeRelativePath} :
    web.relativeRequestPath path = .ok (some r) ↔
      ¬ Refused web.denyDotfiles path ∧ r.components = keptSegments (percentDecode path) := by
  unfold NativeHttp1StaticWeb.relativeRequestPath Refused keptSegments
  by_cases hhead : path.head? = some 47
  · rw [if_neg (not_not.2 hhead)]
    by_cases hutf : utf8Valid (percentDecode path) = true
    · rw [if_neg (not_not.2 hutf)]
      by_cases hzero : 0 ∈ percentDecode path
      · simp [hzero]
      · have hslash : ∀ s ∈ (percentDecode path).splitOn 47, 47 ∉ s :=
          fun s hs hmem => (mem_of_mem_splitOn hs 47 hmem).2 rfl
        have hzero' : ∀ s ∈ (percentDecode path).splitOn 47, 0 ∉ s :=
          fun s hs hmem => hzero (mem_of_mem_splitOn hs 0 hmem).1
        rw [if_neg hzero, Except.ok.injEq, relativeLoop_eq_some_iff web hslash hzero']
        simp [hhead, hutf, hzero, SafeRelativePath.default]
    · simp [hutf]
  · simp [hhead]

/-- A path that is not refused has a relative path. -/
theorem exists_relativeRequestPath (h : ¬ Refused web.denyDotfiles path) :
    ∃ r, web.relativeRequestPath path = .ok (some r) := by
  refine ⟨⟨keptSegments (percentDecode path), ?_⟩, relativeRequestPath_eq_some_iff.2 ⟨h, rfl⟩⟩
  intro s hs
  obtain ⟨hmem, hkept⟩ := mem_filter.1 hs
  refine normalComponent_of_kept hkept ?_ (not_mem_slash_of_kept s hs) ?_
  · intro hdots
    exact h (Or.inr (Or.inr (Or.inr ⟨s, hmem, (refusedSegment_iff hkept).1 (Or.inl hdots)⟩)))
  · intro hzero
    exact h (Or.inr (Or.inr (Or.inl (mem_of_mem_splitOn hmem 0 hzero).1)))

theorem not_mem_percent_of_kept (deny : Bool)
    (h : refusedSegment deny segment = false) : 37 ∉ segment := by
  intro hmem
  have hkept : keptSegment segment = true := by
    by_contra hdrop
    rcases keptSegment_eq_false.1 (eq_false_of_ne_true hdrop) with rfl | rfl
    · cases hmem
    · exact absurd hmem (by decide +kernel)
  rw [(refusedSegment_iff hkept).1 (Or.inr (Or.inl hmem))] at h
  cases h

/-- Where a path is not refused nothing is left to decode. -/
theorem not_mem_percent_of_not_refused (h : ¬ Refused deny path) : 37 ∉ percentDecode path := by
  intro hmem
  obtain ⟨s, hs, hmem⟩ := exists_mem_splitOn hmem (show (37 : UInt8) ≠ 47 by decide)
  refine not_mem_percent_of_kept deny ?_ hmem
  by_contra hrefused
  exact h (Or.inr (Or.inr (Or.inr ⟨s, hs, by simpa using hrefused⟩)))

/-- A path that is not refused is a slash and what follows it. -/
theorem exists_cons_of_not_refused (h : ¬ Refused deny path) : ∃ rest, path = 47 :: rest := by
  have hhead : path.head? = some 47 := by
    by_contra hhead
    exact h (Or.inl hhead)
  exact head?_eq_some_iff.1 hhead

namespace NativeHttp1StaticWeb

variable {fs : FileSystem} {file : AbsolutePath}

theorem staticFile_eq_some {candidate : AbsolutePath}
    (h : web.staticFile fs candidate = .ok (some file)) : file = candidate := by
  unfold staticFile at h
  split_ifs at h with hroot
  · have hexpected : web.root ++ candidate.drop web.root.length = candidate :=
      prefix_iff_eq_append.1 hroot
    dsimp only at h
    rw [hexpected] at h
    split at h
    · cases h
    · cases h
    · split_ifs at h with hcanonical
      · cases h
      · rw [not_or, not_not, not_not] at hcanonical
        split at h
        · cases h
        · split_ifs at h
          · cases h
            exact hcanonical.2
          · cases h
  · cases h

theorem indexLoop_eq_some {directory : AbsolutePath} {indexFiles : List Bytes}
    (h : web.indexLoop fs directory indexFiles = .ok (some file)) :
    ∃ index ∈ indexFiles, file = directory ++ [index] := by
  induction indexFiles with
  | nil => cases h
  | cons index indexFiles ih =>
    rw [indexLoop] at h
    split at h
    · cases h
    · rename_i found hfound
      cases h
      exact ⟨index, mem_cons_self, staticFile_eq_some hfound⟩
    · obtain ⟨other, hother, hfile⟩ := ih h
      exact ⟨other, mem_cons_of_mem _ hother, hfile⟩

/-- What may follow the relative path of a request: nothing, or an index file. -/
def IndexTail (web : NativeHttp1StaticWeb) (tail : List Bytes) : Prop :=
  tail = [] ∨ ∃ index ∈ web.indexFiles, tail = [index]

/-- A file, or an index file of a directory. -/
theorem resolveRelativeCandidate_eq_found {relative : SafeRelativePath}
    (h : web.resolveRelativeCandidate fs relative = .ok (.found file)) :
    ∃ tail, web.IndexTail tail ∧ file = web.root ++ (relative.components ++ tail) ∧
      (tail = [] ↔ fs.metadata (web.root ++ relative.components) ≠ .ok .directory) := by
  unfold resolveRelativeCandidate at h
  dsimp only at h
  split at h
  · cases h
  · cases h
  · rename_i canonical _
    split at h
    · cases h
    · rename_i hcanonical
      rw [not_or, not_not, not_not] at hcanonical
      obtain ⟨-, rfl⟩ := hcanonical
      split at h
      · cases h
      · cases h
      · rename_i hdirectory
        split at h
        · cases h
        · rename_i found hfound
          cases h
          obtain ⟨index, hindex, hfile⟩ := indexLoop_eq_some hfound
          refine ⟨[index], .inr ⟨index, hindex, rfl⟩, ?_, by simp [hdirectory]⟩
          rw [hfile, append_assoc]
        · split_ifs at h
          · cases hentries : fs.readDir (web.root ++ relative.components) <;>
              rw [hentries] at h <;> cases h
          · cases h
      · rename_i kind hother hkind
        split at h
        · cases h
        · rename_i found hfound
          cases h
          refine ⟨[], .inl rfl, by rw [staticFile_eq_some hfound, append_nil], ?_⟩
          rw [hkind]
          exact ⟨fun _ heq => hother (Except.ok.inj heq), fun _ => rfl⟩
        · cases h

/-- **What is found** for a path: its relative path below the root, and an index file if there is a
directory. -/
theorem resolve_eq_found {requestPath : Bytes}
    (h : web.resolve fs requestPath = .ok (.found file)) :
    ∃ relative tail, web.relativeRequestPath requestPath = .ok (some relative) ∧
      web.IndexTail tail ∧ file = web.root ++ (relative.components ++ tail) ∧
      (tail = [] ↔ fs.metadata (web.root ++ relative.components) ≠ .ok .directory) := by
  unfold resolve at h
  split at h
  · cases h
  · cases h
  · rename_i relative hrelative
    obtain ⟨tail, htail, hfile, hdirectory⟩ := resolveRelativeCandidate_eq_found h
    exact ⟨relative, tail, hrelative, htail, hfile, hdirectory⟩

end NativeHttp1StaticWeb

end Fluxheim
