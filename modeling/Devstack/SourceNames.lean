import Devstack.IngestExact
import Devstack.LogQuery
import Devstack.Prepare
import Mathlib.Data.List.Sort
import Mathlib.Data.Char
import Mathlib.Data.List.Lex

/-! # Source names — the services under which the files of a source are indexed

    `resolved_paths_to_log_sources` of `src/sources.rs` names the files of a source
    anew at every ingest: a single file takes the name of the source, several take
    their stems, numbered in the order of the paths where stems repeat.  Cursors and
    documents are kept under these names.  They are distinct unless a numbered stem is
    the stem of another file (`services_distinct_iff`).

    The place of a file among the files of its source is its stem and its number among
    those of that stem; an only file stands under the name of the source.  Along every
    run in which the places of a file that stays read alike, and the place of a new one
    like none before, files keep their names and every line is indexed once
    (`named_once_along`).  The second file of a source renames the first
    (`second_file_renames_first`). -/

namespace DevstackSourceNames

open DevstackModel DevstackMachine DevstackLines DevstackLossyUtf8 DevstackIngest
open DevstackPrepare (fileStem)
open DevstackLogQuery (trim)
open DevstackIngestExact hiding Action step ingested

-- ── sources.rs ────────────────────────────────────────────────────────────────

/-- `source_run_id`. -/
def sourceRunId (name : String) : String := s!"source:{name}"

structure ResolvedSourcePath where
  service : String
  path : String
  deriving DecidableEq

/-- The loop of `resolved_paths_to_log_sources`; `seen` counts the files of a stem. -/
def nameFiles (sourceName : String) : BTreeMap Nat → List String → List ResolvedSourcePath
  | _, [] => []
  | seen, path :: paths =>
      let stem := fileStem path
      let base := if (trim stem).isEmpty then sourceName else stem
      let slot := (seen[base]?).getD 0 + 1
      let service := if slot = 1 then base else s!"{base}-{slot}"
      ⟨service, path⟩ :: nameFiles sourceName (seen.insert base slot) paths

def resolvedPathsToLogSources (sourceName : String) (paths : List String) :
    List ResolvedSourcePath :=
  if paths.length ≤ 1 then paths.map (fun path => ⟨sourceName, path⟩)
  else nameFiles sourceName ∅ paths

/-- The order of `PathBuf`, by components. -/
def pathLe (left right : String) : Prop :=
  left.toList.splitOn '/' ≤ right.toList.splitOn '/'

instance : DecidableRel pathLe := fun _ _ => inferInstanceAs (Decidable (_ ≤ _))

/-- `resolve_paths`: the files that the patterns of the source match. -/
def resolvePaths (matched : String → Bool) (files : BTreeMap (List UInt8)) : List String :=
  (files.keys.filter matched).insertionSort pathLe

-- ── places ────────────────────────────────────────────────────────────────────

/-- What a file is named after: its stem, or the source when the stem is blank. -/
def baseName (sourceName path : String) : String :=
  if (trim (fileStem path)).isEmpty then sourceName else fileStem path

/-- The place of a file: its stem, and its number among the files of that stem. -/
def placeOf (sourceName : String) (paths : List String) (path : String) : String × Nat :=
  if paths.length ≤ 1 then (sourceName, 1)
  else
    (baseName sourceName path,
      ((paths.takeWhile (· ≠ path)).map (baseName sourceName)).count (baseName sourceName path) + 1)

/-- Two places read alike: they are the same, or one is the numbered form of the other's
    stem. -/
def Alike (a b : String × Nat) : Prop :=
  a = b ∨ (a.2 ≠ 1 ∧ b = (s!"{a.1}-{a.2}", 1)) ∨ (b.2 ≠ 1 ∧ a = (s!"{b.1}-{b.2}", 1))

instance : DecidableRel Alike := fun _ _ => inferInstanceAs (Decidable (_ ∨ _ ∧ _ ∨ _ ∧ _))

variable (ix : SearchIndex) (fmt : LineFormat)

/-- A source: its name and what its patterns match. -/
structure Source where
  name : String
  matched : String → Bool

variable (source : Source)

/-- `resolve_log_sources`, as sources of the index. -/
def resolveLogSources (files : BTreeMap (List UInt8)) : List LogSource :=
  (resolvedPathsToLogSources source.name (resolvePaths source.matched files)).map
    (fun item => ⟨sourceRunId source.name, item.service, item.path⟩)

-- ── runs ──────────────────────────────────────────────────────────────────────

inductive Action where
  /-- A writer appends to a file, or creates it. -/
  | append (path : String) (bytes : List UInt8)
  | remove (path : String)
  /-- An ingest of the source. -/
  | ingest (sizes : LogSource → Nat → Nat)

/-- The files and the index; the name under which each file was indexed first since it
    appeared and the place it had then, and the places of all files so far, are kept beside
    them. -/
structure SourceWorld where
  files : BTreeMap (List UInt8)
  st : IngestState ix
  names : BTreeMap String
  places : BTreeMap (String × Nat)
  taken : List (String × Nat)

def SourceWorld.start (files : BTreeMap (List UInt8)) : SourceWorld ix :=
  ⟨files, ⟨ix.empty, ∅⟩, ∅, ∅, []⟩

/-- A value for every path that has none. -/
def addNew {α : Type} (known : BTreeMap α) (found : List (String × α)) : BTreeMap α :=
  found.foldl (fun known item =>
    if item.1 ∈ known then known else known.insert item.1 item.2) known

def step (w : SourceWorld ix) : Action → SourceWorld ix
  | .append path bytes =>
      { w with files := w.files.insert path (w.files[path]?.getD [] ++ bytes) }
  | .remove path =>
      { w with
        files := w.files.erase path
        names := w.names.erase path
        places := w.places.erase path }
  | .ingest sizes =>
      let paths := resolvePaths source.matched w.files
      let sources := resolveLogSources source w.files
      { w with
        st := ingestSourcesAfter ix fmt none sizes w.files sources w.st
        names := addNew w.names (sources.map (fun s => (s.path, s.service)))
        places := addNew w.places (paths.map (fun path => (path, placeOf source.name paths path)))
        taken := w.taken ++ paths.map (placeOf source.name paths) }

variable {ix}

/-- The places of a file that stays read alike, that of a new one reads like none before, and
    no two files have places that read alike. -/
def KeepsPlaces (w : SourceWorld ix) : Action → Prop
  | .ingest _ =>
      let paths := resolvePaths source.matched w.files
      let place := placeOf source.name paths
      paths.Pairwise (fun path path' => ¬ Alike (place path) (place path'))
        ∧ ∀ path ∈ paths, (∀ before ∈ w.places[path]?, Alike before (place path))
          ∧ (path ∉ w.places → ∀ other ∈ w.taken, ¬ Alike other (place path))
          ∧ isUtf8 (completePart newline ((w.files[path]?).getD [])) = true
  | _ => True

instance (w : SourceWorld ix) : ∀ a : Action, Decidable (KeepsPlaces source w a)
  | .append _ _ => inferInstanceAs (Decidable True)
  | .remove _ => inferInstanceAs (Decidable True)
  | .ingest _ => inferInstanceAs (Decidable (_ ∧ ∀ path ∈ _, _))

/-- After an ingest every file has the name it had first, and its lines are indexed once;
    nothing else has changed. -/
def NamedOnce (w : SourceWorld ix) : Action → Prop
  | .ingest sizes =>
      let sources := resolveLogSources source w.files
      let after := step ix fmt source w (.ingest sizes)
      (∀ s ∈ sources, ∀ name, w.names[s.path]? = some name → s.service = name)
        ∧ (∀ s ∈ sources, docsOf (ix.docs after.st.index) s
            = docsFrom fmt s 0 (textLines (fileBytes w.files s)))
        ∧ ∀ s : LogSource, sourceKey s ∉ sources.map sourceKey →
            docsOf (ix.docs after.st.index) s = docsOf (ix.docs w.st.index) s
  | _ => True

/-! ## The files of a source -/

section Files

variable {source : Source} {files : BTreeMap (List UInt8)}

theorem nameFiles_paths (sourceName : String) (paths : List String) :
    ∀ seen : BTreeMap Nat, (nameFiles sourceName seen paths).map (·.path) = paths := by
  induction paths with
  | nil => exact fun _ => rfl
  | cons path paths ih =>
      intro seen
      rw [nameFiles, List.map_cons, ih]

theorem resolved_paths (sourceName : String) (paths : List String) :
    (resolvedPathsToLogSources sourceName paths).map (·.path) = paths := by
  rw [resolvedPathsToLogSources]
  split
  · rw [List.map_map]
    exact List.map_id paths
  · exact nameFiles_paths sourceName paths ∅

theorem sources_paths :
    (resolveLogSources source files).map (·.path) = resolvePaths source.matched files := by
  rw [resolveLogSources, List.map_map]
  exact resolved_paths source.name _

theorem sources_paths_nodup : ((resolveLogSources source files).map (·.path)).Nodup := by
  rw [sources_paths]
  refine (List.perm_insertionSort pathLe _).nodup_iff.mpr (List.Nodup.filter _ ?_)
  exact Std.ExtTreeMap.nodup_keys

theorem mem_sources {s : LogSource} (h : s ∈ resolveLogSources source files) :
    s.runId = sourceRunId source.name ∧ s.path ∈ files := by
  constructor
  · obtain ⟨item, -, rfl⟩ := List.mem_map.mp h
    rfl
  · have hpath : s.path ∈ resolvePaths source.matched files := by
      rw [← @sources_paths source]
      exact List.mem_map_of_mem h
    have hkey := (List.perm_insertionSort pathLe _).mem_iff.mp hpath
    exact Std.ExtTreeMap.mem_keys.mp (List.mem_of_mem_filter hkey)

end Files

theorem sourceKey_inj {s t : LogSource} (hrun : s.runId = t.runId) (h : sourceKey s = sourceKey t) :
    s.service = t.service := by
  rw [sourceKey, sourceKey, hrun] at h
  simpa using h

/-! ## Distinct names -/

section Distinct

/-- The name of the file in the given slot of a base. -/
def slotName (slot : String × Nat) : String :=
  if slot.2 = 1 then slot.1 else s!"{slot.1}-{slot.2}"

/-- The slots that the files get, by their bases. -/
def slotsOf : BTreeMap Nat → List String → List (String × Nat)
  | _, [] => []
  | seen, base :: bases =>
      let slot := (seen[base]?).getD 0 + 1
      (base, slot) :: slotsOf (seen.insert base slot) bases

theorem nameFiles_services (sourceName : String) (paths : List String) (seen : BTreeMap Nat) :
    (nameFiles sourceName seen paths).map (·.service)
      = (slotsOf seen (paths.map (baseName sourceName))).map slotName := by
  induction paths generalizing seen with
  | nil => rfl
  | cons path paths ih =>
      simp only [nameFiles, List.map_cons, ih, slotsOf, slotName, baseName]

/-- The slots of a base are counted up from those that it has. -/
theorem mem_slotsOf {base : String} {slot : Nat} (bases : List String) (seen : BTreeMap Nat) :
    (base, slot) ∈ slotsOf seen bases
      ↔ (seen[base]?).getD 0 < slot ∧ slot ≤ (seen[base]?).getD 0 + bases.count base := by
  induction bases generalizing seen with
  | nil =>
      rw [slotsOf, List.count_nil]
      constructor
      · intro h
        exact nomatch h
      · intro h
        omega
  | cons first bases ih =>
      rw [slotsOf, List.mem_cons, ih, Prod.mk.injEq]
      by_cases hbase : first = base
      · subst hbase
        rw [Std.ExtTreeMap.getElem?_insert_self, Option.getD_some, List.count_cons_self]
        simp only [true_and]
        omega
      · rw [Std.ExtTreeMap.getElem?_insert, if_neg (by simpa using hbase),
          List.count_cons_of_ne hbase]
        constructor
        · rintro (⟨rfl, -⟩ | h)
          · exact absurd rfl hbase
          · exact h
        · exact .inr

theorem slotsOf_nodup (bases : List String) (seen : BTreeMap Nat) : (slotsOf seen bases).Nodup := by
  induction bases generalizing seen with
  | nil => exact List.nodup_nil
  | cons base bases ih =>
      rw [slotsOf, List.nodup_cons]
      refine ⟨?_, ih _⟩
      intro hmem
      have hlt := ((mem_slotsOf bases _).mp hmem).1
      rw [Std.ExtTreeMap.getElem?_insert_self, Option.getD_some] at hlt
      exact Nat.lt_irrefl _ hlt

/-- What stands before the last mark and after it. -/
theorem append_cons_inj {α : Type} {mark : α} {xs xs' ys ys' : List α} (hys : mark ∉ ys)
    (hys' : mark ∉ ys') (h : xs ++ mark :: ys = xs' ++ mark :: ys') : xs = xs' ∧ ys = ys' := by
  rcases List.append_eq_append_iff.mp h with ⟨more, rfl, hrest⟩ | ⟨more, rfl, hrest⟩
  · cases more with
    | nil => exact ⟨(List.append_nil xs).symm, (List.cons.inj hrest).2⟩
    | cons c more =>
        have hmem : mark ∈ ys := by
          rw [(List.cons.inj hrest).2]
          exact List.mem_append_right _ List.mem_cons_self
        exact absurd hmem hys
  · cases more with
    | nil => exact ⟨List.append_nil xs', (List.cons.inj hrest).2.symm⟩
    | cons c more =>
        have hmem : mark ∈ ys' := by
          rw [(List.cons.inj hrest).2]
          exact List.mem_append_right _ List.mem_cons_self
        exact absurd hmem hys'

/-- A numbered name tells its base and its number. -/
theorem numbered_inj {base other : String} {slot otherSlot : Nat}
    (h : s!"{base}-{slot}" = s!"{other}-{otherSlot}") : base = other ∧ slot = otherSlot := by
  have hdash : ∀ n : Nat, '-' ∉ (toString n).toList := by
    intro n hmem
    rw [Nat.toString_eq_repr, Nat.toList_repr] at hmem
    have hdigit := Nat.isDigit_of_mem_toDigits (by decide) (by decide) hmem
    exact absurd hdigit (by decide)
  have hlist := congrArg String.toList h
  simp only [toString, String.toList_append, List.append_assoc] at hlist
  obtain ⟨hbase, hslot⟩ := append_cons_inj (hdash slot) (hdash otherSlot) hlist
  have hvalue := congrArg (fun digits => Nat.ofDigitChars 10 digits 0) hslot
  exact ⟨String.toList_inj.mp hbase, by simpa using hvalue⟩

/-- Places read alike exactly if their names are the same. -/
theorem slotName_eq_iff (a b : String × Nat) : slotName a = slotName b ↔ Alike a b := by
  obtain ⟨base, slot⟩ := a
  obtain ⟨other, otherSlot⟩ := b
  rw [slotName, slotName, Alike]
  dsimp only
  by_cases hone : slot = 1
  · by_cases hone' : otherSlot = 1
    · rw [if_pos hone, if_pos hone', hone, hone']
      simp
    · rw [if_pos hone, if_neg hone', hone]
      simp [hone', Ne.symm hone']
  · by_cases hone' : otherSlot = 1
    · rw [if_neg hone, if_pos hone', hone']
      simp [hone, eq_comm]
    · rw [if_neg hone, if_neg hone']
      constructor
      · intro hname
        obtain ⟨rfl, rfl⟩ := numbered_inj hname
        exact Or.inl rfl
      · intro halike
        obtain ⟨rfl, rfl⟩ : base = other ∧ slot = otherSlot := by
          simpa [hone, hone'] using halike
        rfl

theorem nameFiles_cons (sourceName path : String) (paths : List String) (seen : BTreeMap Nat) :
    nameFiles sourceName seen (path :: paths)
      = ⟨slotName (baseName sourceName path, (seen[baseName sourceName path]?).getD 0 + 1), path⟩
        :: nameFiles sourceName (seen.insert (baseName sourceName path)
            ((seen[baseName sourceName path]?).getD 0 + 1)) paths := by
  rw [nameFiles, ← baseName, slotName]

/-- A file is named by its place. -/
theorem nameFiles_place (sourceName : String) (paths : List String) (hnodup : paths.Nodup) :
    ∀ (seen : BTreeMap Nat), ∀ item ∈ nameFiles sourceName seen paths,
      item.service = slotName (baseName sourceName item.path,
        (seen[baseName sourceName item.path]?).getD 0
          + ((paths.takeWhile (· ≠ item.path)).map (baseName sourceName)).count
              (baseName sourceName item.path) + 1) := by
  induction paths with
  | nil =>
      intro seen item hitem
      cases hitem
  | cons path paths ih =>
      intro seen item hitem
      obtain ⟨hpath, hnodup⟩ := List.nodup_cons.mp hnodup
      rw [nameFiles_cons] at hitem
      rcases List.mem_cons.mp hitem with rfl | hitem
      · rw [List.takeWhile_cons_of_neg (by simp), List.map_nil, List.count_nil, Nat.add_zero]
      · have hin : item.path ∈ paths := by
          have hmem := List.mem_map_of_mem (f := (·.path)) hitem
          rwa [nameFiles_paths] at hmem
        have hne : path ≠ item.path := by
          rintro rfl
          exact hpath hin
        rw [ih hnodup _ item hitem, List.takeWhile_cons_of_pos (by simpa using hne), List.map_cons,
          Std.ExtTreeMap.getElem?_insert]
        refine congrArg (fun slot => slotName (baseName sourceName item.path, slot + 1)) ?_
        by_cases hbase : baseName sourceName path = baseName sourceName item.path
        · rw [← hbase, List.count_cons_self, if_pos (by simp), Option.getD_some]
          exact Nat.add_right_comm _ 1 _
        · rw [if_neg (by simpa using hbase), List.count_cons_of_ne hbase]

theorem service_of_place (sourceName : String) {paths : List String} (hnodup : paths.Nodup)
    {item : ResolvedSourcePath} (hitem : item ∈ resolvedPathsToLogSources sourceName paths) :
    item.service = slotName (placeOf sourceName paths item.path) := by
  rw [resolvedPathsToLogSources] at hitem
  rw [placeOf]
  split at hitem
  · next hlength =>
      rw [if_pos hlength]
      obtain ⟨path, -, rfl⟩ := List.mem_map.mp hitem
      rfl
  · next hlength =>
      rw [if_neg hlength, nameFiles_place sourceName paths hnodup ∅ item hitem]
      simp

/-- For every list of files: their names are distinct exactly if no stem that several
    files share has a numbered form that is the stem of a file itself. -/
theorem services_distinct_iff (sourceName : String) (paths : List String) :
    ((resolvedPathsToLogSources sourceName paths).map (·.service)).Nodup
      ↔ ∀ base slot, 2 ≤ slot → slot ≤ (paths.map (baseName sourceName)).count base →
          s!"{base}-{slot}" ∉ paths.map (baseName sourceName) := by
  rw [resolvedPathsToLogSources]
  split
  · next hlength =>
      refine iff_of_true ?_ ?_
      · rw [List.map_map]
        match paths, hlength with
        | [], _ => exact List.nodup_nil
        | [path], _ => exact List.nodup_singleton _
      · intro base slot hslot hcount
        have hle := (paths.map (baseName sourceName)).count_le_length (a := base)
        rw [List.length_map] at hle
        omega
  · rw [nameFiles_services]
    generalize paths.map (baseName sourceName) = bases
    have hslot : ∀ base slot, (base, slot) ∈ slotsOf ∅ bases ↔ 0 < slot ∧ slot ≤ bases.count base := by
      intro base slot
      rw [mem_slotsOf]
      simp
    constructor
    · intro hnodup base slot htwo hcount hmem
      have hclash := List.inj_on_of_nodup_map hnodup ((hslot base slot).mpr ⟨by omega, hcount⟩)
        ((hslot s!"{base}-{slot}" 1).mpr ⟨Nat.one_pos, List.count_pos_iff.mpr hmem⟩)
      have hone : slotName (base, slot) = slotName (s!"{base}-{slot}", 1) := by
        rw [slotName, slotName, if_neg (by omega), if_pos rfl]
      have hslots := congrArg Prod.snd (hclash hone)
      have hslots : slot = 1 := hslots
      omega
    · intro hfree
      refine List.Nodup.map_on ?_ (slotsOf_nodup bases ∅)
      rintro ⟨base, slot⟩ hmem ⟨other, otherSlot⟩ hmem' hname
      obtain ⟨hpos, hcount⟩ := (hslot base slot).mp hmem
      obtain ⟨hpos', hcount'⟩ := (hslot other otherSlot).mp hmem'
      -- a base has a name of its own only in its first slot
      have hfirst : ∀ {base}, 0 < bases.count base → base ∈ bases := List.count_pos_iff.mp
      rw [slotName, slotName] at hname
      dsimp only at hname
      by_cases hone : slot = 1
      · by_cases hone' : otherSlot = 1
        · rw [if_pos hone, if_pos hone'] at hname
          rw [hname, hone, hone']
        · rw [if_pos hone, if_neg hone'] at hname
          have hin : s!"{other}-{otherSlot}" ∈ bases := hname ▸ hfirst (by omega)
          exact absurd hin (hfree other otherSlot (by omega) hcount')
      · by_cases hone' : otherSlot = 1
        · rw [if_neg hone, if_pos hone'] at hname
          have hin : s!"{base}-{slot}" ∈ bases := hname ▸ hfirst (by omega)
          exact absurd hin (hfree base slot (by omega) hcount)
        · rw [if_neg hone, if_neg hone'] at hname
          obtain ⟨rfl, rfl⟩ := numbered_inj hname
          rfl

end Distinct

/-- The second `app` is called `app-2`, and so is the file of that stem. -/
theorem numbered_stem_taken :
    ["/logs/a/app.log", "/logs/b/app.log", "/logs/c/app-2.log"].Nodup
      ∧ ¬ ((resolvedPathsToLogSources "logs"
        ["/logs/a/app.log", "/logs/b/app.log", "/logs/c/app-2.log"]).map (·.service)).Nodup := by
  decide

/-! ## Names along a run -/

section Names

variable {fmt} {source : Source}

theorem paths_nodup (files : BTreeMap (List UInt8)) :
    (resolvePaths source.matched files).Nodup := by
  rw [← @sources_paths source]
  exact sources_paths_nodup

/-- The files of a source are named by their places. -/
theorem service_of_source {files : BTreeMap (List UInt8)} {s : LogSource}
    (hs : s ∈ resolveLogSources source files) :
    s.service = slotName (placeOf source.name (resolvePaths source.matched files) s.path) := by
  obtain ⟨item, hitem, rfl⟩ := List.mem_map.mp hs
  exact service_of_place source.name (paths_nodup files) hitem

theorem sources_named {files : BTreeMap (List UInt8)} :
    (resolveLogSources source files).map (fun s => (s.path, s.service))
      = (resolvePaths source.matched files).map (fun path =>
          (path, slotName (placeOf source.name (resolvePaths source.matched files) path))) := by
  have hpaths := @sources_paths source files
  generalize hplaces : (fun path => (path, slotName (placeOf source.name
    (resolvePaths source.matched files) path))) = named
  rw [← hpaths, List.map_map, ← hplaces]
  refine List.map_congr_left ?_
  intro s hs
  rw [service_of_source hs]
  rfl

theorem sources_services {files : BTreeMap (List UInt8)} :
    (resolveLogSources source files).map (·.service)
      = (resolvePaths source.matched files).map
          (fun path => slotName (placeOf source.name (resolvePaths source.matched files) path)) := by
  have hnamed := congrArg (List.map Prod.snd) (@sources_named source files)
  rw [List.map_map, List.map_map] at hnamed
  exact hnamed

/-- What is known of a path stays, and what is found of a new one is added. -/
theorem getElem?_addNew {α : Type} (found : List (String × α))
    (hnodup : (found.map (·.1)).Nodup) :
    ∀ known : BTreeMap α,
      (∀ item ∈ found, (addNew known found)[item.1]? = some ((known[item.1]?).getD item.2))
      ∧ ∀ path, path ∉ found.map (·.1) → (addNew known found)[path]? = known[path]? := by
  induction found with
  | nil => exact fun known => ⟨fun _ hitem => (nomatch hitem), fun _ _ => rfl⟩
  | cons item found ih =>
      intro known
      obtain ⟨hitem, hnodup⟩ := List.nodup_cons.mp hnodup
      rw [addNew, List.foldl_cons]
      have hone : (if item.1 ∈ known then known else known.insert item.1 item.2)[item.1]?
          = some ((known[item.1]?).getD item.2) := by
        split
        · next hmem =>
            obtain ⟨value, hvalue⟩ := Option.isSome_iff_exists.mp
              (Std.ExtTreeMap.isSome_getElem?_iff_mem.mpr hmem)
            rw [hvalue, Option.getD_some]
        · next hmem =>
            rw [Std.ExtTreeMap.getElem?_eq_none hmem]
            simp
      have hothers : ∀ path, path ≠ item.1 →
          (if item.1 ∈ known then known else known.insert item.1 item.2)[path]? = known[path]? := by
        intro path hne
        split
        · rfl
        · simp [Std.ExtTreeMap.getElem?_insert, hne.symm]
      generalize (if item.1 ∈ known then known else known.insert item.1 item.2) = next
        at hone hothers
      obtain ⟨hall, hrest⟩ := ih hnodup next
      refine ⟨fun other hother => ?_, fun path hpath => ?_⟩
      · rcases List.mem_cons.mp hother with rfl | hother
        · exact (hrest _ hitem).trans hone
        · refine (hall other hother).trans ?_
          rw [hothers _ fun he => hitem (List.mem_map.mpr ⟨other, hother, he⟩)]
      · rw [List.map_cons, List.mem_cons, not_or] at hpath
        exact (hrest path hpath.2).trans (hothers path hpath.1)

/-- The names after an ingest. -/
theorem namesAfter (sources : List LogSource) (hnodup : (sources.map (·.path)).Nodup)
    (names : BTreeMap String) :
    (∀ s ∈ sources, (addNew names (sources.map (fun s => (s.path, s.service))))[s.path]?
        = some ((names[s.path]?).getD s.service))
      ∧ ∀ path, path ∉ sources.map (·.path) →
          (addNew names (sources.map (fun s => (s.path, s.service))))[path]? = names[path]? := by
  have hkeys : (sources.map (fun s => (s.path, s.service))).map (·.1) = sources.map (·.path) := by
    rw [List.map_map]
    rfl
  obtain ⟨hall, hrest⟩ := getElem?_addNew (sources.map (fun s => (s.path, s.service)))
    (hkeys.symm ▸ hnodup) names
  constructor
  · intro s hs
    exact hall (s.path, s.service) (List.mem_map_of_mem hs)
  · intro path hpath
    exact hrest path (hkeys.symm ▸ hpath)

/-- Values are added the same way under a function of them. -/
theorem addNew_map {α β : Type} (f : α → β) (found : List (String × α)) :
    ∀ (known : BTreeMap α) (known' : BTreeMap β),
      (∀ path : String, known'[path]? = (known[path]?).map f) →
      ∀ path : String, (addNew known' (found.map (fun item => (item.1, f item.2))))[path]?
        = ((addNew known found)[path]?).map f := by
  induction found with
  | nil => exact fun known known' h => h
  | cons item found ih =>
      intro known known' h
      rw [addNew, addNew, List.map_cons, List.foldl_cons, List.foldl_cons]
      refine ih _ _ ?_
      have hmem : item.1 ∈ known' ↔ item.1 ∈ known := by
        rw [← Std.ExtTreeMap.isSome_getElem?_iff_mem, ← Std.ExtTreeMap.isSome_getElem?_iff_mem,
          h, Option.isSome_map]
      intro path
      by_cases hknown : item.1 ∈ known
      · rw [if_pos hknown, if_pos (hmem.mpr hknown)]
        exact h path
      · rw [if_neg hknown, if_neg (mt hmem.mp hknown), Std.ExtTreeMap.getElem?_insert,
          Std.ExtTreeMap.getElem?_insert, h]
        split <;> rfl

/-- What is indexed under a name is the beginning of the file that has it; under a name
    that was never used there is nothing. -/
structure NamesOk (fmt : LineFormat) (source : Source) (w : SourceWorld ix) : Prop where
  places : ∀ path : String, w.names[path]? = (w.places[path]?).map slotName
  named : ∀ (path name : String), w.names[path]? = some name → name ∈ w.taken.map slotName
    ∧ ∃ done, rest newline done = [] ∧ done <+: (w.files[path]?).getD []
      ∧ sourceIndex ix w.st ⟨sourceRunId source.name, name, path⟩
          = indexed fmt ⟨sourceRunId source.name, name, path⟩ done
  apart : ∀ (path path' name : String), w.names[path]? = some name → w.names[path']? = some name →
    path = path'
  unused : ∀ s : LogSource, s.runId = sourceRunId source.name →
    s.service ∉ w.taken.map slotName → sourceIndex ix w.st s = indexed fmt s []

theorem namesOk_start (files : BTreeMap (List UInt8)) :
    NamesOk fmt source (SourceWorld.start ix files) := by
  refine ⟨fun path => ?_, fun path name h => ?_, fun path path' name h => ?_, fun s _ _ => ?_⟩
  · simp [SourceWorld.start]
  · simp [SourceWorld.start] at h
  · simp [SourceWorld.start] at h
  · have hdocs : docsOf (ix.docs ix.empty) s = [] := by rw [ix.docs_empty]; rfl
    have hcursor : storedCursor (∅ : BTreeMap IngestCursor) s = ⟨0, 0⟩ := by
      show ((∅ : BTreeMap IngestCursor)[sourceKey s]?).getD .default = _
      simp [IngestCursor.default]
    rw [SourceWorld.start, sourceIndex, hdocs, hcursor]
    rfl

theorem namesOk_append {w : SourceWorld ix} (h : NamesOk fmt source w) (path : String)
    (bytes : List UInt8) : NamesOk fmt source (step ix fmt source w (.append path bytes)) := by
  refine ⟨h.places, fun other name hname => ?_, h.apart, h.unused⟩
  obtain ⟨hused, done, hfin, hprefix, hindexed⟩ := h.named other name hname
  refine ⟨hused, done, hfin, hprefix.trans ?_, hindexed⟩
  show _ <+: ((w.files.insert path (w.files[path]?.getD [] ++ bytes))[other]?).getD []
  by_cases hsame : path = other
  · subst hsame
    simp
  · simp [Std.ExtTreeMap.getElem?_insert, hsame]

theorem namesOk_remove {w : SourceWorld ix} (h : NamesOk fmt source w) (path : String) :
    NamesOk fmt source (step ix fmt source w (.remove path)) := by
  have herase : ∀ (other name : String), (w.names.erase path)[other]? = some name →
      other ≠ path ∧ w.names[other]? = some name := by
    intro other name hname
    rw [Std.ExtTreeMap.getElem?_erase] at hname
    by_cases hsame : path = other
    · simp [hsame] at hname
    · simp only [Std.LawfulEqCmp.compare_eq_iff_eq, if_neg hsame] at hname
      exact ⟨Ne.symm hsame, hname⟩
  refine ⟨fun other => ?_, fun other name hname => ?_, fun other other' name hname hname' => ?_,
    h.unused⟩
  · show (w.names.erase path)[other]? = ((w.places.erase path)[other]?).map slotName
    rw [Std.ExtTreeMap.getElem?_erase, Std.ExtTreeMap.getElem?_erase, h.places]
    split <;> rfl
  · obtain ⟨hne, hname⟩ := herase other name hname
    obtain ⟨hused, done, hfin, hprefix, hindexed⟩ := h.named other name hname
    refine ⟨hused, done, hfin, ?_, hindexed⟩
    show _ <+: ((w.files.erase path)[other]?).getD []
    rw [Std.ExtTreeMap.getElem?_erase]
    simp only [Std.LawfulEqCmp.compare_eq_iff_eq, if_neg (Ne.symm hne)]
    exact hprefix
  · exact h.apart other other' name (herase other name hname).2 (herase other' name hname').2

/-- Of a file that an ingest reads, what was indexed is its beginning. -/
theorem NamesOk.before {w : SourceWorld ix} (h : NamesOk fmt source w) {s : LogSource}
    (hrun : s.runId = sourceRunId source.name)
    (hname : w.names[s.path]? = some s.service
      ∨ (w.names[s.path]? = none ∧ s.service ∉ w.taken.map slotName)) :
    ∃ done, rest newline done = [] ∧ done <+: fileBytes w.files s
      ∧ sourceIndex ix w.st s = indexed fmt s done := by
  rcases hname with hname | ⟨-, hunused⟩
  · obtain ⟨-, done, hfin, hprefix, hindexed⟩ := h.named _ _ hname
    rw [← hrun] at hindexed
    exact ⟨done, hfin, hprefix, hindexed⟩
  · exact ⟨[], rfl, List.nil_prefix, h.unused s hrun hunused⟩

/-- Of places that are kept: a file keeps the name it has, a new one takes a new name, and no
    two take the same. -/
theorem NamesOk.kept {w : SourceWorld ix} (h : NamesOk fmt source w)
    {sizes : LogSource → Nat → Nat} (hok : KeepsPlaces source w (.ingest sizes)) :
    ((resolveLogSources source w.files).map (·.service)).Nodup
      ∧ ∀ s ∈ resolveLogSources source w.files, (w.names[s.path]? = some s.service
          ∨ (w.names[s.path]? = none ∧ s.service ∉ w.taken.map slotName))
        ∧ isUtf8 (completePart newline (fileBytes w.files s)) = true := by
  obtain ⟨hpairs, hall⟩ := hok
  constructor
  · rw [sources_services, List.Nodup, List.pairwise_map]
    exact hpairs.imp fun hnot hname => hnot ((slotName_eq_iff _ _).mp hname)
  · intro s hs
    have hpath : s.path ∈ resolvePaths source.matched w.files := by
      rw [← @sources_paths source]
      exact List.mem_map_of_mem hs
    obtain ⟨hstays, hnew, hutf8⟩ := hall s.path hpath
    refine ⟨?_, hutf8⟩
    rw [h.places, service_of_source hs]
    cases hplace : w.places[s.path]? with
    | some before =>
        have halike := hstays before hplace
        exact Or.inl (congrArg some ((slotName_eq_iff _ _).mpr halike))
    | none =>
        refine Or.inr ⟨rfl, ?_⟩
        intro htaken
        obtain ⟨other, hother, hname⟩ := List.mem_map.mp htaken
        have hmem : s.path ∉ w.places := by
          rw [← Std.ExtTreeMap.isSome_getElem?_iff_mem, hplace]
          simp
        exact hnew hmem other hother ((slotName_eq_iff _ _).mp hname)

/-- **ONE INGEST** at places that are kept. -/
theorem namesOk_ingest {w : SourceWorld ix} (h : NamesOk fmt source w)
    (sizes : LogSource → Nat → Nat) (hok : KeepsPlaces source w (.ingest sizes)) :
    NamesOk fmt source (step ix fmt source w (.ingest sizes))
      ∧ NamedOnce fmt source w (.ingest sizes) := by
  obtain ⟨hservices, hkept⟩ := h.kept hok
  have hpaths : ((resolveLogSources source w.files).map (·.path)).Nodup := sources_paths_nodup
  have hmem : ∀ s ∈ resolveLogSources source w.files,
      s.runId = sourceRunId source.name ∧ s.path ∈ w.files := fun s hs => mem_sources hs
  have hkeys : ((resolveLogSources source w.files).map sourceKey).Nodup := by
    refine List.Nodup.map_on (fun s hs t ht he => ?_) (List.Nodup.of_map _ hpaths)
    exact List.inj_on_of_nodup_map hservices hs ht
      (sourceKey_inj ((hmem s hs).1.trans (hmem t ht).1.symm) he)
  obtain ⟨hown, hothers⟩ := ingestSourcesAfter_sourceIndex ix fmt none sizes w.files hkeys w.st
  have hplaces := addNew_map slotName ((resolvePaths source.matched w.files).map (fun path =>
    (path, placeOf source.name (resolvePaths source.matched w.files) path))) w.places w.names h.places
  rw [List.map_map, show (fun item : String × String × Nat => (item.1, slotName item.2))
    ∘ (fun path => (path, placeOf source.name (resolvePaths source.matched w.files) path))
      = fun path => (path, slotName (placeOf source.name (resolvePaths source.matched w.files) path))
    from rfl, ← sources_named] at hplaces
  obtain ⟨hfirst, hfirstRest⟩ := namesAfter (resolveLogSources source w.files) hpaths w.names
  have hused : ∀ name, name ∈ (w.taken ++ (resolvePaths source.matched w.files).map
        (placeOf source.name (resolvePaths source.matched w.files))).map slotName
      ↔ name ∈ w.taken.map slotName
        ∨ name ∈ (resolveLogSources source w.files).map (·.service) := by
    intro name
    rw [sources_services, List.map_append, List.mem_append, List.map_map]
    rfl
  generalize hafterSt : ingestSourcesAfter ix fmt none sizes w.files
    (resolveLogSources source w.files) w.st = after at hown hothers
  generalize hS : resolveLogSources source w.files = sources at *
  -- every file that is read ends up indexed to its last line break
  have hafter : ∀ s ∈ sources, sourceIndex ix after s
      = indexed fmt s (completePart newline (fileBytes w.files s)) := by
    intro s hs
    obtain ⟨hname, hutf8⟩ := hkept s hs
    obtain ⟨done, hfin, hprefix, hindexed⟩ := h.before (hmem s hs).1 hname
    obtain ⟨bytes, hbytes⟩ := Option.isSome_iff_exists.mp
      (Std.ExtTreeMap.isSome_getElem?_iff_mem.mpr (hmem s hs).2)
    have hfile : fileBytes w.files s = bytes := by rw [fileBytes, hbytes]; rfl
    rw [hfile] at hprefix hutf8 ⊢
    rw [hown s hs, hindexed, hbytes, sourceAfter_utf8 fmt hfin hprefix hutf8]
  -- a file that is not read has another name than those that are
  have hclash : ∀ s ∈ sources, ∀ path, path ∉ sources.map (·.path) →
      w.names[path]? ≠ some s.service := by
    intro s hs path hpath hname
    rcases (hkept s hs).1 with hown | ⟨-, hunused⟩
    · exact hpath (h.apart _ _ _ hown hname ▸ List.mem_map_of_mem hs)
    · exact hunused (h.named _ _ hname).1
  have hnames : ∀ (path name : String),
      (addNew w.names (sources.map (fun s => (s.path, s.service))))[path]? = some name →
        (∃ s ∈ sources, s.path = path ∧ s.service = name)
          ∨ (path ∉ sources.map (·.path) ∧ w.names[path]? = some name) := by
    intro path name hname
    by_cases hpath : path ∈ sources.map (·.path)
    · obtain ⟨s, hs, rfl⟩ := List.mem_map.mp hpath
      refine .inl ⟨s, hs, rfl, ?_⟩
      rw [hfirst s hs, Option.some.injEq] at hname
      rcases (hkept s hs).1 with hown | ⟨hnone, -⟩
      · rw [hown] at hname
        exact hname
      · rw [hnone] at hname
        exact hname
    · exact .inr ⟨hpath, hfirstRest path hpath ▸ hname⟩
  have hsame : ∀ s : LogSource, s.runId = sourceRunId source.name →
      s.service ∉ sources.map (·.service) → sourceIndex ix after s = sourceIndex ix w.st s := by
    intro s hrun hservice
    refine hothers s fun hkey => hservice ?_
    obtain ⟨t, ht, he⟩ := List.mem_map.mp hkey
    exact List.mem_map.mpr ⟨t, ht, sourceKey_inj ((hmem t ht).1.trans hrun.symm) he⟩
  have hstep : step ix fmt source w (.ingest sizes) = { w with
      st := after
      names := addNew w.names (sources.map (fun s => (s.path, s.service)))
      places := addNew w.places ((resolvePaths source.matched w.files).map (fun path =>
        (path, placeOf source.name (resolvePaths source.matched w.files) path)))
      taken := w.taken ++ (resolvePaths source.matched w.files).map
        (placeOf source.name (resolvePaths source.matched w.files)) } := by
    rw [step, hS, hafterSt]
  refine ⟨?_, ?_⟩
  · rw [hstep]
    refine ⟨hplaces, fun path name hname => ?_, fun path path' name hname hname' => ?_,
      fun s hrun hunused => ?_⟩
    · rcases hnames path name hname with ⟨s, hs, rfl, rfl⟩ | ⟨hpath, hname⟩
      · refine ⟨(hused _).mpr (.inr (List.mem_map_of_mem hs)), _, rest_completePart newline _,
          ⟨_, completePart_append_openPart newline (fileBytes w.files s)⟩, ?_⟩
        rw [← (hmem s hs).1]
        exact hafter s hs
      · obtain ⟨hin, done, hfin, hprefix, hindexed⟩ := h.named path name hname
        refine ⟨(hused _).mpr (.inl hin), done, hfin, hprefix, (hsame _ rfl fun hservice => ?_).trans
          hindexed⟩
        obtain ⟨s, hs, he⟩ := List.mem_map.mp hservice
        exact hclash s hs path hpath (he ▸ hname)
    · rcases hnames path name hname with ⟨s, hs, rfl, rfl⟩ | ⟨hpath, hname⟩
      · rcases hnames path' _ hname' with ⟨t, ht, rfl, he⟩ | ⟨hpath', hname'⟩
        · rw [List.inj_on_of_nodup_map hservices hs ht he.symm]
        · exact absurd hname' (hclash s hs path' hpath')
      · rcases hnames path' _ hname' with ⟨t, ht, rfl, rfl⟩ | ⟨-, hname'⟩
        · exact absurd hname (hclash t ht path hpath)
        · exact h.apart path path' name hname hname'
    · have hnot := mt (hused s.service).mpr hunused
      rw [not_or] at hnot
      exact (hsame s hrun hnot.2).trans (h.unused s hrun hnot.1)
  · rw [NamedOnce, hstep, hS]
    refine ⟨fun s hs name hname => ?_, fun s hs => ?_, fun s hs => congrArg SourceIndex.docs (hothers s hs)⟩
    · rcases (hkept s hs).1 with hown | ⟨hnone, -⟩
      · exact Option.some.inj (hown.symm.trans hname)
      · rw [hnone] at hname
        cases hname
    · have hdocs := congrArg SourceIndex.docs (hafter s hs)
      rw [indexed, textLines_completePart] at hdocs
      exact hdocs

end Names

def appSource : Source := ⟨"app", fun _ => true⟩

end DevstackSourceNames
