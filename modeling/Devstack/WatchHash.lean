import Mathlib.Data.List.ReduceOption
import Devstack.InitTasks

/-! # Watch hashes — the files of a tree in one stream of bytes

    `compute_watch_hash` of `src/watch.rs`.  The walk and the patterns are those of the
    `ignore` crate; a `Tree` has what they find and what is at each path.  The code skips
    an entry by the type of the entry itself and reads it by what it leads to.

    * `computeWatchHash_ok`: the hash is that of the stream, if every file can be read;
    * `returns_ok_iff`: it cannot be exactly if a link that is not skipped, or an extra
      path, leads to a directory;
    * `same_of_shape`: streams with fields of the same lengths tell the files apart;
    * `separates_iff`: without that they do not: the fields have no length in front, and a
      fingerprint can be taken for another one with files behind it. -/

namespace DevstackWatchHash

open DevstackLogFmt DevstackLossyUtf8
open DevstackInitTasks (FileState WatchedFile toLeBytes toLeBytes_inj toLeBytes_length modifiedBytes
  modifiedBytes_length hashedBytes)

-- ── what the outside has ──────────────────────────────────────────────────────

/-- The components of a path; an absolute path begins with an empty one. -/
abbrev Path := List (List UInt8)

/-- A time of change since the epoch; an earlier one is left out. -/
structure Modified where
  secs : Nat
  nanos : Nat
  secs_lt : secs < 256 ^ 8
  nanos_lt : nanos < 10 ^ 9
  deriving DecidableEq

/-- What a path leads to.  A file that cannot be opened or read has the error's text. -/
inductive Found where
  | file (modified : Option Modified) (contents : List UInt8) (small : contents.length < 256 ^ 8)
      (failure : Option String)
  | dir

/-- What stands at a path itself. -/
inductive Entry where
  | found (found : Found)
  | link (leads : Except String Found)

/-- A directory tree and the `ignore` crate on it; the walk skips an entry that has an
    error, and without patterns it has no overrides. -/
structure Tree where
  root : Path
  entry : Path → Except String Entry
  addOverride : String → Bool
  buildOverrides : List String → Bool
  walk : List String → List (Option Path)
  addIgnore : String → Bool
  buildIgnore : List String → Bool
  isIgnore : List String → Path → Bool

/-- The arguments of a call. -/
structure Call where
  tree : Tree
  watch : Option (List String)
  ignore : List String
  extraFiles : List Path
  fingerprint : List UInt8

-- ── watch.rs ──────────────────────────────────────────────────────────────────

/-- `fs::metadata`, which follows links. -/
def Tree.metadata (t : Tree) (path : Path) : Except String Found :=
  match t.entry path with
  | .error err => .error err
  | .ok (.found found) => .ok found
  | .ok (.link leads) => leads

/-- `file_type` of an entry of the walk, which does not. -/
def Tree.isDir (t : Tree) (path : Path) : Bool :=
  match t.entry path with
  | .ok (.found .dir) => true
  | _ => false

/-- The patterns that are not blank. -/
def patterns (given : List String) : List String :=
  given.filter (fun pattern => !pattern.toList.all isWhitespace)

/-- `build_overrides`. -/
def buildOverrides (t : Tree) (watch : Option (List String)) : Except String (List String) :=
  let watch := patterns (watch.getD [])
  match watch.find? (fun pattern => !t.addOverride pattern) with
  | some pattern => .error ("invalid watch pattern '" ++ pattern ++ "'")
  | none =>
      if watch = [] ∨ t.buildOverrides watch then .ok watch else .error "build watch overrides"

/-- `build_ignore_matcher`. -/
def buildIgnoreMatcher (t : Tree) (ignore : List String) : Except String (List String) :=
  let ignore := patterns ignore
  match ignore.find? (fun pattern => !t.addIgnore pattern) with
  | some pattern => .error ("invalid ignore pattern '" ++ pattern ++ "'")
  | none =>
      if ignore = [] ∨ t.buildIgnore ignore then .ok ignore else .error "build ignore matcher"

/-- `BTreeSet::insert`. -/
def insertPath (path : Path) : List Path → List Path
  | [] => [path]
  | other :: paths =>
      if path < other then path :: other :: paths
      else if path = other then other :: paths
      else other :: insertPath path paths

/-- An entry of the walk that is hashed. -/
def Tree.selects (t : Tree) (ignore : List String) (path : Path) : Bool :=
  !t.isDir path && !(decide (ignore ≠ []) && t.isIgnore ignore path)

/-- The set of files: what the walk selects and the extra files. -/
def filesOf (t : Tree) (overrides ignore : List String) (extraFiles : List Path) : List Path :=
  ((t.walk overrides).reduceOption.filter (t.selects ignore) ++ extraFiles).foldl
    (fun files path => insertPath path files) []

/-- `Path::strip_prefix` with its default. -/
def stripPrefix (root path : Path) : Path := if root <+: path then path.drop root.length else path

/-- The bytes of a path. -/
def pathBytes (path : Path) : List UInt8 :=
  if path = [[]] then [0x2F] else List.intercalate [0x2F] path

/-- `to_string_lossy`. -/
def display (path : Path) : String := String.ofList (chars (scan (pathBytes path)))

/-- What is hashed of a file that can be read. -/
def fileState (modified : Option Modified) (contents : List UInt8)
    (small : contents.length < 256 ^ 8) : FileState :=
  ⟨modified.map (fun time => (time.secs, time.nanos)), contents, small⟩

/-- What `read` says of a directory. -/
def isADirectory : String := "Is a directory (os error 21)"

/-- `hash_path_metadata`: what it gives the hasher, or its error. -/
def hashPathMetadata (t : Tree) (path : Path) : Except String (List UInt8) :=
  let display := display (stripPrefix t.root path)
  match t.metadata path with
  | .ok (.file modified contents small failure) =>
      match failure with
      | none => .ok (DevstackInitTasks.hashPathMetadata
          ⟨display, .ok (fileState modified contents small)⟩)
      | some err => .error err
  | .ok .dir => .error isADirectory
  | .error err => .ok (DevstackInitTasks.hashPathMetadata ⟨display, .error err⟩)

/-- The loop over the files, with what the hasher was given. -/
def hashFiles (t : Tree) : List UInt8 → List Path → Except String (List UInt8)
  | given, [] => .ok given
  | given, path :: paths =>
      match hashPathMetadata t path with
      | .ok bytes => hashFiles t (given ++ bytes) paths
      | .error err => .error err

def computeWatchHash (blake3 : List UInt8 → String) (call : Call) : Except String String := do
  let overrides ← buildOverrides call.tree call.watch
  let ignore ← buildIgnoreMatcher call.tree call.ignore
  let files := filesOf call.tree overrides ignore call.extraFiles
  let bytes ← hashFiles call.tree ("devstack-watch-v1".toUTF8.toList ++ call.fingerprint) files
  return blake3 bytes

/-! ## The files of a call -/

/-- The files of a call with valid patterns. -/
def Call.files (call : Call) : List Path :=
  filesOf call.tree (patterns (call.watch.getD [])) (patterns call.ignore) call.extraFiles

/-- The `ignore` crate accepts the patterns. -/
structure Call.Valid (call : Call) : Prop where
  overrides : buildOverrides call.tree call.watch = .ok (patterns (call.watch.getD []))
  ignore : buildIgnoreMatcher call.tree call.ignore = .ok (patterns call.ignore)

/-- What `hash_path_metadata` hashes of a path that is a file or leads nowhere. -/
def watchedFile (t : Tree) (path : Path) : WatchedFile :=
  ⟨display (stripPrefix t.root path),
    match t.metadata path with
    | .ok (.file modified contents small _) => .ok (fileState modified contents small)
    | .ok .dir => .error ""
    | .error err => .error err⟩

/-- The file is there and can be read, or it is missing. -/
def Readable (t : Tree) (path : Path) : Prop :=
  match t.metadata path with
  | .ok (.file _ _ _ failure) => failure = none
  | .ok .dir => False
  | .error _ => True

theorem mem_insertPath {path other : Path} {paths : List Path} :
    other ∈ insertPath path paths ↔ other = path ∨ other ∈ paths := by
  induction paths with
  | nil => rw [insertPath, List.mem_singleton, or_iff_left List.not_mem_nil]
  | cons p paths ih =>
      rw [insertPath]
      split
      · rw [List.mem_cons]
      · split
        · next heq =>
            rw [heq, List.mem_cons, ← or_assoc, or_self]
        · rw [List.mem_cons, ih, List.mem_cons]
          exact or_left_comm

theorem mem_foldl_insertPath {path : Path} (paths files : List Path) :
    path ∈ paths.foldl (fun files path => insertPath path files) files
      ↔ path ∈ files ∨ path ∈ paths := by
  induction paths generalizing files with
  | nil => exact (or_iff_left List.not_mem_nil).symm
  | cons p paths ih =>
      rw [List.foldl_cons, ih, mem_insertPath, List.mem_cons, or_comm (a := path = p), or_assoc]

/-- The hashed files are those that the walk selects and the extra files. -/
theorem mem_files {call : Call} {path : Path} :
    path ∈ call.files
      ↔ some path ∈ call.tree.walk (patterns (call.watch.getD []))
          ∧ call.tree.selects (patterns call.ignore) path = true
        ∨ path ∈ call.extraFiles := by
  rw [Call.files, filesOf, mem_foldl_insertPath, or_iff_right List.not_mem_nil, List.mem_append,
    List.mem_filter, List.reduceOption_mem_iff]

/-! ## When there is a hash -/

theorem hashPathMetadata_ok {t : Tree} {path : Path} (h : Readable t path) :
    hashPathMetadata t path = .ok (DevstackInitTasks.hashPathMetadata (watchedFile t path)) := by
  rw [hashPathMetadata, watchedFile]
  rw [Readable] at h
  cases hmeta : t.metadata path with
  | error err => rfl
  | ok found =>
      rw [hmeta] at h
      cases found with
      | dir => exact h.elim
      | file modified contents small failure =>
          obtain rfl : failure = none := h
          rfl

theorem hashPathMetadata_error {t : Tree} {path : Path} (h : ¬ Readable t path) :
    ∃ err, hashPathMetadata t path = .error err := by
  rw [hashPathMetadata]
  rw [Readable] at h
  cases hmeta : t.metadata path with
  | error err =>
      rw [hmeta] at h
      exact absurd trivial h
  | ok found =>
      rw [hmeta] at h
      cases found with
      | dir => exact ⟨isADirectory, rfl⟩
      | file modified contents small failure =>
          cases failure with
          | some err => exact ⟨err, rfl⟩
          | none => exact absurd rfl h

/-- The loop fails at the first file that cannot be read. -/
theorem hashFiles_eq (t : Tree) (given : List UInt8) (paths : List Path) :
    (∀ path ∈ paths, Readable t path) ∧ hashFiles t given paths
        = .ok (given ++ (paths.map (watchedFile t)).flatMap DevstackInitTasks.hashPathMetadata)
      ∨ (∃ path ∈ paths, ¬ Readable t path) ∧ ∃ err, hashFiles t given paths = .error err := by
  induction paths generalizing given with
  | nil =>
      refine Or.inl ⟨fun path hpath => (nomatch hpath), ?_⟩
      rw [hashFiles, List.map_nil, List.flatMap_nil, List.append_nil]
  | cons path paths ih =>
      by_cases hpath : Readable t path
      · rw [hashFiles, hashPathMetadata_ok hpath]
        dsimp only
        rcases ih (given ++ DevstackInitTasks.hashPathMetadata (watchedFile t path)) with
          ⟨hall, heq⟩ | ⟨⟨other, hmem, hother⟩, herror⟩
        · refine Or.inl ⟨List.forall_mem_cons.mpr ⟨hpath, hall⟩, ?_⟩
          rw [heq, List.map_cons, List.flatMap_cons, List.append_assoc]
        · exact Or.inr ⟨⟨other, List.mem_cons_of_mem path hmem, hother⟩, herror⟩
      · obtain ⟨err, herr⟩ := hashPathMetadata_error hpath
        rw [hashFiles, herr]
        exact Or.inr ⟨⟨path, List.mem_cons_self, hpath⟩, err, rfl⟩

/-- The bytes of a call. -/
def Call.stream (call : Call) : List UInt8 :=
  hashedBytes call.fingerprint (call.files.map (watchedFile call.tree))

/-- **THERE IS A HASH** if and only if every file can be read or is missing, and it is that of
    the stream. -/
theorem computeWatchHash_ok (blake3 : List UInt8 → String) {call : Call} (hvalid : call.Valid)
    (hash : String) :
    computeWatchHash blake3 call = .ok hash
      ↔ (∀ path ∈ call.files, Readable call.tree path) ∧ hash = blake3 call.stream := by
  have hcompute : computeWatchHash blake3 call
      = (hashFiles call.tree ("devstack-watch-v1".toUTF8.toList ++ call.fingerprint)
          call.files).map blake3 := by
    rw [computeWatchHash, hvalid.overrides, hvalid.ignore]
    rfl
  rw [hcompute]
  rcases hashFiles_eq call.tree ("devstack-watch-v1".toUTF8.toList ++ call.fingerprint) call.files
    with ⟨hall, heq⟩ | ⟨⟨path, hmem, hpath⟩, err, herr⟩
  · rw [heq]
    exact ⟨fun h => ⟨hall, (Except.ok.inj h).symm⟩, fun h => congrArg Except.ok h.2.symm⟩
  · rw [herr]
    exact ⟨fun h => (nomatch h), fun h => absurd (h.1 path hmem) hpath⟩

/-- What the entries of the walk are: files and links that lead to files can be read.  The
    extra files need not be in the tree. -/
def ReadableTree (call : Call) : Prop :=
  ∀ path, some path ∈ call.tree.walk (patterns (call.watch.getD [])) →
    ∀ modified contents small err,
      call.tree.metadata path ≠ .ok (.file modified contents small (some err))

/-- The entry is a link and leads to a directory. -/
def LinksToDir (t : Tree) (path : Path) : Prop := t.entry path = .ok (.link (.ok .dir))

theorem readable_iff_of_selected {t : Tree} {ignore : List String} {path : Path}
    (hselects : t.selects ignore path = true)
    (hfile : ∀ modified contents small err,
      t.metadata path ≠ .ok (.file modified contents small (some err))) :
    Readable t path ↔ ¬ LinksToDir t path := by
  have hdir : t.isDir path = false := by
    have hnot := (Bool.and_eq_true_iff.mp hselects).1
    exact Bool.not_eq_true' _ |>.mp hnot
  rw [Readable, LinksToDir]
  rw [Tree.isDir] at hdir
  rw [Tree.metadata] at hfile ⊢
  cases hentry : t.entry path with
  | error err => exact ⟨fun _ h => (nomatch h), fun _ => trivial⟩
  | ok entry =>
      rw [hentry] at hdir hfile
      cases entry with
      | found found =>
          cases found with
          | dir => exact nomatch hdir
          | file modified contents small failure =>
              refine ⟨fun _ h => (nomatch h), fun _ => ?_⟩
              cases failure with
              | none => rfl
              | some err => exact absurd rfl (hfile modified contents small err)
      | link leads =>
          cases leads with
          | error err => exact ⟨fun _ h => (nomatch h), fun _ => trivial⟩
          | ok found =>
              cases found with
              | dir => exact ⟨fun h => h.elim, fun h => absurd rfl h⟩
              | file modified contents small failure =>
                  refine ⟨fun _ h => (nomatch h), fun _ => ?_⟩
                  cases failure with
                  | none => rfl
                  | some err => exact absurd rfl (hfile modified contents small err)

/-- **HASHING A READABLE TREE** with valid patterns returns a hash if and only if no entry
    that is not ignored is a link to a directory, and every extra file is missing or a file
    that can be read. -/
theorem returns_ok_iff (blake3 : List UInt8 → String) {call : Call} (hvalid : call.Valid)
    (htree : ReadableTree call) :
    (∃ hash, computeWatchHash blake3 call = .ok hash)
      ↔ (∀ path, some path ∈ call.tree.walk (patterns (call.watch.getD [])) →
          call.tree.selects (patterns call.ignore) path = true → ¬ LinksToDir call.tree path)
        ∧ ∀ path ∈ call.extraFiles, Readable call.tree path := by
  have hok : (∃ hash, computeWatchHash blake3 call = .ok hash)
      ↔ ∀ path ∈ call.files, Readable call.tree path := by
    constructor
    · rintro ⟨hash, hhash⟩
      exact ((computeWatchHash_ok blake3 hvalid hash).mp hhash).1
    · intro h
      exact ⟨_, (computeWatchHash_ok blake3 hvalid _).mpr ⟨h, rfl⟩⟩
  rw [hok]
  constructor
  · intro h
    refine ⟨fun path hwalk hselects => ?_, fun path hextra => h path (mem_files.mpr (Or.inr hextra))⟩
    exact (readable_iff_of_selected hselects (htree path hwalk)).mp
      (h path (mem_files.mpr (Or.inl ⟨hwalk, hselects⟩)))
  · rintro ⟨hwalked, hextra⟩ path hpath
    rcases mem_files.mp hpath with ⟨hwalk, hselects⟩ | hmem
    · exact (readable_iff_of_selected hselects (htree path hwalk)).mpr (hwalked path hwalk hselects)
    · exact hextra path hmem

/-- A tree at `/w` with these entries, which the walk yields in order. -/
def treeOf (entries : List (Path × Entry)) : Tree where
  root := [[], [0x77]]
  entry := fun path =>
    match entries.lookup path with
    | some entry => .ok entry
    | none => .error "No such file or directory (os error 2)"
  addOverride := fun _ => true
  buildOverrides := fun _ => true
  walk := fun _ => entries.map (fun entry => some entry.1)
  addIgnore := fun _ => true
  buildIgnore := fun _ => true
  isIgnore := fun _ _ => false

/-- A file without a time of change. -/
def plainFile (byte : UInt8) : Entry := .found (.file none [byte] (by simp) none)

theorem valid_of_none {tree : Tree} (extraFiles : List Path) (fingerprint : List UInt8) :
    Call.Valid ⟨tree, none, [], extraFiles, fingerprint⟩ := ⟨rfl, rfl⟩

/-- A file, a link to it, a link that leads nowhere, and a missing extra file. -/
def linkedCall : Call :=
  ⟨treeOf [([[], [0x77]], .found .dir), ([[], [0x77], [0x61]], plainFile 1),
      ([[], [0x77], [0x62]], .link (.ok (.file none [1] (by decide) none))),
      ([[], [0x77], [0x63]], .link (.error "No such file or directory (os error 2)"))],
    none, [], [[[], [0x77], [0x64]]], [0x7B]⟩

theorem linkedCall_readable : ReadableTree linkedCall := by
  intro path hpath modified contents small err hmeta
  have hmem : some path ∈ [some [[], [0x77]], some [[], [0x77], [0x61]], some [[], [0x77], [0x62]],
      some [[], [0x77], [0x63]]] := hpath
  simp only [List.mem_cons, Option.some.injEq, List.not_mem_nil, or_false] at hmem
  rcases hmem with rfl | rfl | rfl | rfl <;> exact nomatch hmeta

/-- There is a hash of them exactly if no entry of the walk is a link to a directory, and the
    extra file can be read or is missing. -/
theorem returns_ok_linked :
    (∃ hash, computeWatchHash (fun _ => "af13") linkedCall = .ok hash)
      ↔ (∀ path, some path ∈ linkedCall.tree.walk (patterns (linkedCall.watch.getD [])) →
          linkedCall.tree.selects (patterns linkedCall.ignore) path = true →
            ¬ LinksToDir linkedCall.tree path)
        ∧ ∀ path ∈ linkedCall.extraFiles, Readable linkedCall.tree path :=
  returns_ok_iff (fun _ => "af13") (valid_of_none _ _) linkedCall_readable

/-- A link `current` to a directory. -/
def currentCall : Call :=
  ⟨treeOf [([[], [0x77]], .found .dir),
      ([[], [0x77], [0x63, 0x75, 0x72, 0x72, 0x65, 0x6E, 0x74]], .link (.ok .dir))],
    none, [], [], [0x7B]⟩

/-- The tree is readable and the patterns are valid; still there is no hash of it. -/
theorem link_to_dir_fails :
    currentCall.Valid ∧ ReadableTree currentCall
      ∧ ¬ ∃ hash, computeWatchHash (fun _ => "af13") currentCall = .ok hash := by
  refine ⟨⟨rfl, rfl⟩, ?_, ?_⟩
  · intro path hpath modified contents small err hmeta
    have hmem : some path ∈ [some [[], [0x77]],
        some [[], [0x77], [0x63, 0x75, 0x72, 0x72, 0x65, 0x6E, 0x74]]] := hpath
    simp only [List.mem_cons, Option.some.injEq, List.not_mem_nil, or_false] at hmem
    rcases hmem with rfl | rfl <;> exact nomatch hmeta
  · rintro ⟨hash, hhash⟩
    have herror : computeWatchHash (fun _ => "af13") currentCall = .error isADirectory := rfl
    rw [herror] at hhash
    exact nomatch hhash

/-! ## What the hash tells -/

/-- The contents at a path, if it leads to a file. -/
def contentOf (t : Tree) (path : Path) : Option (List UInt8) :=
  match t.metadata path with
  | .ok (.file _ contents _ _) => some contents
  | _ => none

/-- The matched paths under the root, with their contents. -/
def Call.matched (call : Call) : List (Path × Option (List UInt8)) :=
  call.files.map (fun path => (stripPrefix call.tree.root path, contentOf call.tree path))

/-- Two calls with the same matched paths, contents and fingerprints. -/
def Same (x y : Call) : Prop := x.matched = y.matched ∧ x.fingerprint = y.fingerprint

/-- The bytes of a file behind its path. -/
def recordBytes (modified : Option Modified) (contents : List UInt8) : List UInt8 :=
  toLeBytes 8 contents.length ++ modifiedBytes (modified.map (fun time => (time.secs, time.nanos)))
    ++ contents

/-- The bytes of a missing file behind its path. -/
def missingBytes (err : String) : List UInt8 := "missing".toUTF8.toList ++ err.toUTF8.toList

/-- The bytes end in a length, perhaps a time, and as many bytes as the length says; or in
    `missing` and a text. -/
def EndsInRecord (bytes : List UInt8) : Prop :=
  (∃ front modified contents, contents.length < 256 ^ 8
      ∧ bytes = front ++ recordBytes modified contents)
    ∨ ∃ front err, bytes = front ++ missingBytes err

/-- The bytes of the files end in the record of the last. -/
theorem endsInRecord_files {t : Tree} {paths : List Path} (hne : paths ≠ [])
    (hall : ∀ path ∈ paths, Readable t path) (front : List UInt8) :
    EndsInRecord (front
      ++ (paths.map (watchedFile t)).flatMap DevstackInitTasks.hashPathMetadata) := by
  obtain ⟨init, last, rfl⟩ := List.eq_nil_or_concat paths |>.resolve_left hne
  have hlast := hall last (by rw [List.concat_eq_append]; exact List.mem_append_right _ List.mem_cons_self)
  rw [List.concat_eq_append, List.map_append, List.flatMap_append, List.map_singleton,
    List.flatMap_singleton, watchedFile, DevstackInitTasks.hashPathMetadata]
  rw [Readable] at hlast
  cases hmeta : t.metadata last with
  | error err =>
      refine Or.inr ⟨front ++ ((init.map (watchedFile t)).flatMap DevstackInitTasks.hashPathMetadata
        ++ (display (stripPrefix t.root last)).toUTF8.toList), err, ?_⟩
      rw [missingBytes, List.append_assoc, List.append_assoc]
  | ok found =>
      rw [hmeta] at hlast
      cases found with
      | dir => exact hlast.elim
      | file modified contents small failure =>
          refine Or.inl ⟨front ++ ((init.map (watchedFile t)).flatMap
            DevstackInitTasks.hashPathMetadata
              ++ (display (stripPrefix t.root last)).toUTF8.toList), modified, contents, small, ?_⟩
          rw [recordBytes, List.append_assoc, List.append_assoc]
          rfl

/-- A tree with nothing at its root but what is said. -/
def rootTree (entry : Except String Entry) : Tree where
  root := [[], [0x77]]
  entry := fun _ => entry
  addOverride := fun _ => true
  buildOverrides := fun _ => true
  walk := fun _ =>
    match entry with
    | .ok _ => [some [[], [0x77]]]
    | .error _ => [none]
  addIgnore := fun _ => true
  buildIgnore := fun _ => true
  isIgnore := fun _ _ => false

/-- An empty directory. -/
def emptyCall (fingerprint : List UInt8) : Call :=
  ⟨rootTree (.ok (.found .dir)), none, [], [], fingerprint⟩

/-- One file, which is the root. -/
def fileCall (modified : Option Modified) (contents : List UInt8)
    (small : contents.length < 256 ^ 8) (fingerprint : List UInt8) : Call :=
  ⟨rootTree (.ok (.found (.file modified contents small none))), none, [], [], fingerprint⟩

/-- A root that is not there, as an extra file. -/
def missingCall (err : String) (fingerprint : List UInt8) : Call :=
  ⟨rootTree (.error err), none, [], [[[], [0x77]]], fingerprint⟩

theorem emptyCall_hash (blake3 : List UInt8 → String) (fingerprint : List UInt8) :
    computeWatchHash blake3 (emptyCall fingerprint)
      = .ok (blake3 ("devstack-watch-v1".toUTF8.toList ++ fingerprint)) := by
  refine (computeWatchHash_ok blake3 (valid_of_none [] fingerprint) _).mpr ⟨?_, ?_⟩
  · exact fun path hpath => nomatch hpath
  · rw [Call.stream, hashedBytes]
    exact congrArg blake3 (List.append_nil _).symm

/-- The root is displayed as nothing. -/
theorem display_root :
    (display (stripPrefix [[], [0x77]] [[], [0x77]])).toUTF8.toList = [] := by decide +kernel

theorem fileCall_hash (blake3 : List UInt8 → String) (modified : Option Modified)
    (contents : List UInt8) (small : contents.length < 256 ^ 8) (fingerprint : List UInt8) :
    computeWatchHash blake3 (fileCall modified contents small fingerprint)
      = .ok (blake3 ("devstack-watch-v1".toUTF8.toList
          ++ (fingerprint ++ recordBytes modified contents))) := by
  refine (computeWatchHash_ok blake3 (valid_of_none [] fingerprint) _).mpr ⟨?_, ?_⟩
  · intro path hpath
    obtain rfl := List.mem_singleton.mp hpath
    exact rfl
  · have hbytes : ((fileCall modified contents small fingerprint).files.map
        (watchedFile (rootTree (.ok (.found (.file modified contents small none)))))).flatMap
          DevstackInitTasks.hashPathMetadata
        = (display (stripPrefix [[], [0x77]] [[], [0x77]])).toUTF8.toList
          ++ recordBytes modified contents := List.append_nil _
    rw [Call.stream, hashedBytes, List.append_assoc]
    exact congrArg (fun bytes => blake3 (_ ++ (fingerprint ++ bytes)))
      (hbytes.trans (by rw [display_root, List.nil_append])).symm

theorem missingCall_hash (blake3 : List UInt8 → String) (err : String)
    (fingerprint : List UInt8) :
    computeWatchHash blake3 (missingCall err fingerprint)
      = .ok (blake3 ("devstack-watch-v1".toUTF8.toList ++ (fingerprint ++ missingBytes err))) := by
  refine (computeWatchHash_ok blake3 (valid_of_none _ fingerprint) _).mpr ⟨?_, ?_⟩
  · intro path hpath
    obtain rfl := List.mem_singleton.mp hpath
    exact trivial
  · have hbytes : ((missingCall err fingerprint).files.map
        (watchedFile (rootTree (.error err)))).flatMap DevstackInitTasks.hashPathMetadata
        = (display (stripPrefix [[], [0x77]] [[], [0x77]])).toUTF8.toList ++ missingBytes err :=
      List.append_nil _
    rw [Call.stream, hashedBytes, List.append_assoc]
    exact congrArg (fun bytes => blake3 (_ ++ (fingerprint ++ bytes)))
      (hbytes.trans (by rw [display_root, List.nil_append])).symm

/-- **ONE HASH FOR DIFFERENT FILES.**  A call shares its hash only with calls that have the
    same matched paths, contents and fingerprint, if and only if it matches no file and its
    fingerprint does not end in what can be read as the record of a file. -/
theorem separates_iff {blake3 : List UInt8 → String} (hinj : Function.Injective blake3)
    {x : Call} (hvalid : x.Valid) {hash : String} (hhash : computeWatchHash blake3 x = .ok hash) :
    (∀ y : Call, y.Valid → computeWatchHash blake3 y = .ok hash → Same x y)
      ↔ x.files = [] ∧ ¬ EndsInRecord x.fingerprint := by
  obtain ⟨hreadable, rfl⟩ := (computeWatchHash_ok blake3 hvalid hash).mp hhash
  have hstream : x.stream = "devstack-watch-v1".toUTF8.toList ++ (x.fingerprint
      ++ (x.files.map (watchedFile x.tree)).flatMap DevstackInitTasks.hashPathMetadata) := by
    rw [Call.stream, hashedBytes, List.append_assoc]
  constructor
  · intro hsame
    have hnone : x.files = [] := by
      -- the empty directory, with the bytes of the files in its fingerprint
      have hempty := hsame (emptyCall (x.fingerprint
        ++ (x.files.map (watchedFile x.tree)).flatMap DevstackInitTasks.hashPathMetadata))
        (valid_of_none _ _) (by rw [emptyCall_hash, hstream])
      exact List.map_eq_nil_iff.mp hempty.1
    refine ⟨hnone, ?_⟩
    rw [hnone, List.map_nil, List.flatMap_nil, List.append_nil] at hstream
    have hmatched : x.matched = [] := by rw [Call.matched, hnone, List.map_nil]
    rintro (⟨front, modified, contents, small, heq⟩ | ⟨front, err, heq⟩)
    · have hfile := hsame (fileCall modified contents small front) (valid_of_none _ _)
        (by rw [fileCall_hash, hstream, heq])
      rw [Same, hmatched] at hfile
      cases hfile.1
    · have hmissing := hsame (missingCall err front) (valid_of_none _ _)
        (by rw [missingCall_hash, hstream, heq])
      rw [Same, hmatched] at hmissing
      cases hmissing.1
  · rintro ⟨hnone, hends⟩ y hy hyhash
    obtain ⟨hyreadable, heq⟩ := (computeWatchHash_ok blake3 hy _).mp hyhash
    have hbytes := hinj heq
    rw [hstream, hnone, List.map_nil, List.flatMap_nil, List.append_nil, Call.stream, hashedBytes,
      List.append_assoc] at hbytes
    have hbytes := List.append_cancel_left hbytes
    by_cases hyfiles : y.files = []
    · rw [hyfiles, List.map_nil, List.flatMap_nil, List.append_nil] at hbytes
      refine ⟨?_, hbytes⟩
      rw [Call.matched, Call.matched, hnone, hyfiles, List.map_nil, List.map_nil]
    · rw [hbytes] at hends
      exact absurd (endsInRecord_files hyfiles hyreadable y.fingerprint) hends

/-! ## Fields of the same lengths -/

/-- The lengths of what is hashed of a file. -/
def shape (file : WatchedFile) : Nat × Except Nat (Bool × Nat) :=
  (file.display.toUTF8.toList.length,
    match file.state with
    | .ok state => .ok (state.modified.isSome, state.contents.length)
    | .error err => .error err.toUTF8.toList.length)

/-- What the bytes of a file tell: its name as displayed, and its contents if it is there. -/
def told (file : WatchedFile) : List UInt8 × Option (List UInt8) :=
  (file.display.toUTF8.toList,
    match file.state with
    | .ok state => some state.contents
    | .error _ => none)

theorem told_of_append {file file' : WatchedFile} {rest rest' : List UInt8}
    (hshape : shape file = shape file')
    (hbytes : DevstackInitTasks.hashPathMetadata file ++ rest
      = DevstackInitTasks.hashPathMetadata file' ++ rest') :
    told file = told file' ∧ rest = rest' := by
  obtain ⟨display, state⟩ := file
  obtain ⟨display', state'⟩ := file'
  obtain ⟨hlength, hstate⟩ := Prod.mk.inj hshape
  rw [DevstackInitTasks.hashPathMetadata, DevstackInitTasks.hashPathMetadata, List.append_assoc,
    List.append_assoc] at hbytes
  obtain ⟨hdisplay, hbytes⟩ := List.append_inj hbytes hlength
  rw [told, told, hdisplay]
  cases state with
  | error err =>
      cases state' with
      | ok _ => cases hstate
      | error err' =>
          dsimp only at hbytes
          rw [List.append_assoc, List.append_assoc] at hbytes
          have hbytes := List.append_cancel_left hbytes
          exact ⟨rfl, (List.append_inj hbytes (Except.error.inj hstate)).2⟩
  | ok state =>
      cases state' with
      | error _ => cases hstate
      | ok state' =>
          obtain ⟨htimed, hcount⟩ := Prod.mk.inj (Except.ok.inj hstate)
          simp only [List.append_assoc] at hbytes
          obtain ⟨-, hbytes⟩ := List.append_inj hbytes (by simp)
          obtain ⟨-, hbytes⟩ := List.append_inj hbytes (modifiedBytes_length htimed)
          obtain ⟨hcontents, hrest⟩ := List.append_inj hbytes hcount
          exact ⟨congrArg (fun contents => (display'.toUTF8.toList, some contents)) hcontents, hrest⟩

theorem told_of_bytes {files files' : List WatchedFile}
    (hshape : files.map shape = files'.map shape)
    (hbytes : files.flatMap DevstackInitTasks.hashPathMetadata
      = files'.flatMap DevstackInitTasks.hashPathMetadata) :
    files.map told = files'.map told := by
  induction files generalizing files' with
  | nil =>
      rw [List.map_nil, eq_comm, List.map_eq_nil_iff] at hshape
      rw [hshape]
  | cons file files ih =>
      cases files' with
      | nil => exact nomatch hshape
      | cons file' files' =>
          obtain ⟨hfile, hfiles⟩ := List.cons.inj hshape
          rw [List.flatMap_cons, List.flatMap_cons] at hbytes
          obtain ⟨htold, hbytes⟩ := told_of_append hfile hbytes
          rw [List.map_cons, List.map_cons, htold, ih hfiles hbytes]

/-- **FIELDS OF THE SAME LENGTHS** cannot be shifted: the hash tells the fingerprint, and the
    displayed names and contents of the files. -/
theorem same_of_shape {blake3 : List UInt8 → String} (hinj : Function.Injective blake3) {x y : Call}
    (hx : x.Valid) (hy : y.Valid) {hash : String} (hxhash : computeWatchHash blake3 x = .ok hash)
    (hyhash : computeWatchHash blake3 y = .ok hash)
    (hfingerprint : x.fingerprint.length = y.fingerprint.length)
    (hshape : (x.files.map (watchedFile x.tree)).map shape
      = (y.files.map (watchedFile y.tree)).map shape) :
    x.fingerprint = y.fingerprint
      ∧ (x.files.map (watchedFile x.tree)).map told = (y.files.map (watchedFile y.tree)).map told := by
  obtain ⟨-, rfl⟩ := (computeWatchHash_ok blake3 hx hash).mp hxhash
  obtain ⟨-, heq⟩ := (computeWatchHash_ok blake3 hy _).mp hyhash
  have hbytes := hinj heq
  rw [Call.stream, Call.stream, hashedBytes, hashedBytes, List.append_assoc, List.append_assoc]
    at hbytes
  obtain ⟨hsame, hbytes⟩ := List.append_inj (List.append_cancel_left hbytes) hfingerprint
  exact ⟨hsame, told_of_bytes hshape hbytes⟩

/-- The plain digests do not collide. -/
theorem plain_injective : Function.Injective DevstackInitTasks.plainTools.blake3 :=
  fun bytes bytes' h => DevstackInitTasks.plainTools_digests.apart bytes bytes' (by rw [h])

/-- `linkedCall` with a copy in place of the link to the file. -/
def copiedCall : Call :=
  ⟨treeOf [([[], [0x77]], .found .dir), ([[], [0x77], [0x61]], plainFile 1),
      ([[], [0x77], [0x62]], plainFile 1),
      ([[], [0x77], [0x63]], .link (.error "No such file or directory (os error 2)"))],
    none, [], [[[], [0x77], [0x64]]], [0x7B]⟩

theorem same_of_shape_copied :
    linkedCall.fingerprint = copiedCall.fingerprint
      ∧ (linkedCall.files.map (watchedFile linkedCall.tree)).map told
        = (copiedCall.files.map (watchedFile copiedCall.tree)).map told :=
  same_of_shape plain_injective (valid_of_none _ _) (valid_of_none _ _)
    (rfl : computeWatchHash DevstackInitTasks.plainTools.blake3 linkedCall = .ok _) rfl rfl rfl

/-! ## A byte that moves -/

/-- An empty directory with a short fingerprint. -/
theorem separates_iff_empty :
    (∀ y : Call, y.Valid → computeWatchHash DevstackInitTasks.plainTools.blake3 y
        = .ok (DevstackInitTasks.plainTools.blake3 ("devstack-watch-v1".toUTF8.toList ++ [0x7B])) →
          Same (emptyCall [0x7B]) y)
      ↔ (emptyCall [0x7B]).files = [] ∧ ¬ EndsInRecord (emptyCall [0x7B]).fingerprint :=
  separates_iff plain_injective (valid_of_none _ _) (emptyCall_hash _ _)

/-- The fingerprint `ab` and the file `c`. -/
def shortName : Call :=
  ⟨treeOf [([[], [0x77], [0x63]], plainFile 1)], none, [], [], [0x61, 0x62]⟩

/-- The fingerprint `a` and the file `bc`. -/
def longName : Call :=
  ⟨treeOf [([[], [0x77], [0x62, 0x63]], plainFile 1)], none, [], [], [0x61]⟩

/-- A byte moves from the fingerprint to the name of the file. -/
theorem name_shifted :
    (∃ hash, computeWatchHash DevstackInitTasks.plainTools.blake3 shortName = .ok hash
        ∧ computeWatchHash DevstackInitTasks.plainTools.blake3 longName = .ok hash)
      ∧ ¬ Same shortName longName := by
  refine ⟨⟨_, rfl, ?_⟩, ?_⟩
  · decide +kernel
  · rintro ⟨-, hfingerprint⟩
    exact absurd hfingerprint (by decide)

end DevstackWatchHash
