import ManagedDirectory.Updates.Manifests

/-!
# Three readers of the build number

`GET /v1/updates/latest` serves a manifest, `versions_for` takes a `build` from all `.json` files of
the directory (`versionsBuild`), and the status display reads its own few files
(`latestManifestBuildNumbers`). `builds_agree_iff` says when the three agree; for a manifest from
before architectures they do not (`legacy_build_differs`).
-/

namespace ManagedDirectory.Updates

open Codec Lib List
open Rds (orText asDict asDict_eq_some)

/-! ## The directory -/

structure DirEntry where
  name : String
  file : ManifestFile
  /-- `st_mtime_ns`. -/
  mtime : Int

structure ManifestDir where
  entries : List DirEntry
  sorted : (entries.map fun e => codePoints e.name).Pairwise (· < ·)

def ManifestDir.file (dir : ManifestDir) (name : String) : Option ManifestFile :=
  (dir.entries.find? fun e => e.name = name).map DirEntry.file

/-- `sorted(manifests_dir.glob("*.json"))`. -/
def ManifestDir.jsonFiles (dir : ManifestDir) : List DirEntry :=
  dir.entries.filter fun e => endsWith (codePoints e.name) ".json"

/-! ## `versions_for` -/

abbrev Builds := List ((Text × Text) × Int)

/-- `builds.get(key)`: the last assignment counts. -/
def Builds.get (builds : Builds) (key : Text × Text) : Option Int :=
  (builds.reverse.find? fun b => b.1 = key).map Prod.snd

/-- `int(manifest.get("build_number") or 0)`. -/
def buildNumber (py : Python) (manifest : Dict) : Except Raised Int :=
  match dictGet "build_number" manifest with
  | some value => if py.truthy value then py.int value else .ok 0
  | none => .ok 0

/-- `str(manifest.get(name))`. -/
def Python.strField (py : Python) (manifest : Dict) (name : String) : Text :=
  py.unicode.str ((dictGet name manifest).getD .null)

def assignedBuild (py : Python) (file : ManifestFile) : Except Raised ((Text × Text) × Int) := do
  let tree ← readJson py (some file)
  let manifest ← orRefuse (asDict tree) .attribute
  let number ← buildNumber py manifest
  pure ((py.strField manifest "channel", py.strField manifest "arch"), number)

/-- `except (OSError, ValueError, TypeError): continue`. -/
def readBuild (py : Python) (file : ManifestFile) : Except Raised (Option ((Text × Text) × Int)) :=
  match assignedBuild py file with
  | .ok build => .ok (some build)
  | .error .os => .ok none
  | .error .value => .ok none
  | .error .type => .ok none
  | .error e => .error e

def collectBuilds (py : Python) : List DirEntry → Except Raised Builds
  | [] => .ok []
  | e :: es => do
    let build ← readBuild py e.file
    let rest ← collectBuilds py es
    pure (build.toList ++ rest)

structure ManifestCache where
  stamp : Option (List (String × Int))
  builds : Builds

def ManifestDir.stamp (dir : ManifestDir) : List (String × Int) :=
  dir.jsonFiles.map fun e => (e.name, e.mtime)

/-- `_latest_builds`: the builds, and the cache after it. -/
def latestBuilds (py : Python) (dir : ManifestDir) (cache : ManifestCache) :
    Except Raised (Builds × ManifestCache) :=
  if cache.stamp = some dir.stamp then .ok (cache.builds, cache)
  else do
    let builds ← collectBuilds py dir.jsonFiles
    pure (builds, ⟨some dir.stamp, builds⟩)

/-- The `build` value of `versions_for`. -/
def versionsBuild (py : Python) (dir : ManifestDir) (cache : ManifestCache)
    (arch channel : Option String) : Except Raised Int := do
  let (builds, _) ← latestBuilds py dir cache
  pure ((builds.get (codePoints (orText channel "stable"),
    codePoints (orText arch "x86_64"))).getD 0)

/-! ## The status display -/

/-- `manifest["build_number"]`. -/
def buildItem : Json → Except Raised Json
  | .obj manifest => orRefuse (dictGet "build_number" manifest) .key
  | _ => .error .type

def readNumber (py : Python) (dir : ManifestDir) (name : String) : Except Raised Int := do
  let tree ← readJson py (dir.file name)
  let value ← buildItem tree
  py.int value

/-- The first of the files with a number; `except (OSError, ValueError, KeyError, TypeError)`. -/
def firstNumber (py : Python) (dir : ManifestDir) : List String → Except Raised (Option Int)
  | [] => .ok none
  | name :: names =>
    match readNumber py dir name with
    | .ok number => .ok (some number)
    | .error .os => firstNumber py dir names
    | .error .value => firstNumber py dir names
    | .error .key => firstNumber py dir names
    | .error .type => firstNumber py dir names
    | .error e => .error e

def displayFiles (arch : String) : List String :=
  if arch = "android-aarch64" then [archManifest "stable" arch]
  else [archManifest "stable" arch, legacyManifest "stable"]

def archs : List String := ["x86_64", "aarch64", "android-aarch64"]

/-- `latest_manifest_build_numbers`. -/
def latestManifestBuildNumbers (py : Python) (dir : ManifestDir) :
    Except Raised (List (String × Int)) := do
  let x86 ← firstNumber py dir (displayFiles "x86_64")
  let arm ← firstNumber py dir (displayFiles "aarch64")
  let android ← firstNumber py dir (displayFiles "android-aarch64")
  pure ((x86.map ("x86_64", ·)).toList ++ (arm.map ("aarch64", ·)).toList ++
    (android.map ("android-aarch64", ·)).toList)

/-! ## Agreement -/

def answers (py : Python) : Option Dict → Int → Bool
  | some manifest, number =>
    (dictGet "build_number" manifest).any fun value => py.equalsInt value number
  | none, number => number = 0

structure Agrees (py : Python) (dir : ManifestDir) (cache : ManifestCache) (channel arch : String)
    (answer : Option Dict) : Prop where
  versions : ∃ number, versionsBuild py dir cache (some arch) (some channel) = .ok number ∧
    answers py answer number = true
  display : channel = "stable" → ∃ numbers, latestManifestBuildNumbers py dir = .ok numbers ∧
    match answer with
    | some _ => ∃ number, numbers.lookup arch = some number ∧ answers py answer number = true
    | none => numbers.lookup arch = none

def namedBuild (py : Python) (channel arch : String) (e : DirEntry) : Option Int :=
  match readJson py (some e.file) with
  | .ok (.obj manifest) =>
    if (py.strField manifest "channel", py.strField manifest "arch") =
        (codePoints channel, codePoints arch) then
      (buildNumber py manifest).toOption
    else none
  | _ => none

/-- The last file in name order that names the channel and the architecture decides. -/
def ManifestDir.lastNamed (dir : ManifestDir) (py : Python) (channel arch : String) : Option Int :=
  (dir.jsonFiles.filterMap (namedBuild py channel arch)).getLast?

/-- A file that does not stop the readers: where it can be parsed it is an object, not nested too
deeply and without an infinite number. -/
structure Readable (py : Python) (file : Option ManifestFile) : Prop where
  shallow : readJson py file ≠ .error .recursion
  object : ∀ tree, readJson py file = .ok tree → ∃ manifest, tree = .obj manifest ∧
    ∀ value, dictGet "build_number" manifest = some value → py.int value ≠ .error .overflow

structure BuildsFit (py : Python) (dir : ManifestDir) (channel arch : String)
    (answer : Option Dict) : Prop where
  readable : ∀ e ∈ dir.jsonFiles, Readable py (some e.file)
  /-- The last file that names the channel and the architecture has the number of the answer. -/
  last : answers py answer ((dir.lastNamed py channel arch).getD 0) = true
  /-- Where nothing is served, no file the display looks at has a number. -/
  hidden : channel = "stable" → answer = none → ∀ name ∈ displayFiles arch, ∀ manifest value number,
    readJson py (dir.file name) = .ok (.obj manifest) →
      dictGet "build_number" manifest = some value → py.int value ≠ .ok number

section Versions

variable {py : Python} {es : List DirEntry} {builds : Builds} {channel arch : String}

variable {manifest : Dict} {file : ManifestFile} {e : Raised}

theorem Python.int_error {value : Json} (h : py.int value = .error e) :
    e = .value ∨ e = .type ∨ e = .overflow ∧ py.truthy value = true := by
  cases value with
  | null => simp_all [Python.int]
  | bool b => simp [Python.int] at h
  | int neg n => simp [Python.int] at h
  | float neg m e =>
    simp only [Python.int] at h
    cases hf : py.literal neg m e <;> simp_all [Python.truncate, Python.truthy]
  | special x => cases x <;> simp_all [Python.int, Python.truthy]
  | str s =>
    simp only [Python.int] at h
    cases hs : py.intOfText s <;> simp_all [orRefuse]
  | arr xs => simp_all [Python.int]
  | obj kvs => simp_all [Python.int]

theorem readJson_error {file : Option ManifestFile} (h : readJson py file = .error e) :
    e = .os ∨ e = .value ∨ e = .recursion := by
  unfold readJson at h
  repeat' split at h
  all_goals simp_all

theorem buildNumber_error (h : buildNumber py manifest = .error e) :
    e = .value ∨ e = .type ∨
      e = .overflow ∧ ∃ value, dictGet "build_number" manifest = some value ∧
        py.int value = .error .overflow := by
  unfold buildNumber at h
  split at h
  · rename_i value hvalue
    split_ifs at h
    rcases Python.int_error h with rfl | rfl | ⟨rfl, -⟩
    · exact .inl rfl
    · exact .inr (.inl rfl)
    · exact .inr (.inr ⟨rfl, value, hvalue, h⟩)
  · cases h

theorem buildNumber_overflow {value : Json} (hvalue : dictGet "build_number" manifest = some value)
    (h : py.int value = .error .overflow) : buildNumber py manifest = .error .overflow := by
  have htruthy : py.truthy value = true := by
    rcases Python.int_error h with h' | h' | ⟨-, h'⟩
    · cases h'
    · cases h'
    · exact h'
  simp only [buildNumber, hvalue, htruthy, if_true, h]

theorem readBuild_of_error (h : readJson py (some file) = .error e) :
    readBuild py file = if e = .recursion then .error .recursion else .ok none := by
  have hassigned : assignedBuild py file = .error e := by
    simp only [assignedBuild, h]
    rfl
  rcases readJson_error h with rfl | rfl | rfl <;> simp [readBuild, hassigned]

theorem readBuild_of_obj (h : readJson py (some file) = .ok (.obj manifest)) :
    readBuild py file = match buildNumber py manifest with
      | .ok number =>
        .ok (some ((py.strField manifest "channel", py.strField manifest "arch"), number))
      | .error e => if e = .overflow then .error .overflow else .ok none := by
  have hassigned : assignedBuild py file = (buildNumber py manifest).map fun number =>
      ((py.strField manifest "channel", py.strField manifest "arch"), number) := by
    have hdict : asDict (.obj manifest) = some manifest := asDict_eq_some.mpr rfl
    simp only [assignedBuild, h, bind, Except.bind, hdict, orRefuse]
    cases buildNumber py manifest <;> rfl
  cases hnumber : buildNumber py manifest with
  | ok number => simp [readBuild, hassigned, hnumber, Except.map]
  | error e =>
    rcases buildNumber_error hnumber with rfl | rfl | ⟨rfl, -⟩ <;>
      simp [readBuild, hassigned, hnumber, Except.map]

theorem exists_readBuild :
    (∃ build, readBuild py file = .ok build) ↔ Readable py (some file) := by
  cases hread : readJson py (some file) with
  | error e =>
    rw [readBuild_of_error hread]
    constructor
    · intro h
      refine ⟨fun hdeep => ?_, fun tree htree => by cases hread ▸ htree⟩
      cases hread ▸ hdeep
      simp at h
    · intro h
      have hshallow : e ≠ .recursion := fun he => h.shallow (he ▸ hread)
      rw [if_neg hshallow]
      exact ⟨none, rfl⟩
  | ok tree =>
    constructor
    · rintro ⟨build, hbuild⟩
      refine ⟨fun hdeep => (by cases hread ▸ hdeep), fun tree' htree => ?_⟩
      cases hread ▸ htree
      cases hdict : asDict tree with
      | none =>
        have hassigned : assignedBuild py file = .error .attribute := by
          simp only [assignedBuild, hread, bind, Except.bind, hdict, orRefuse]
        simp [readBuild, hassigned] at hbuild
      | some manifest =>
        obtain rfl := asDict_eq_some.mp hdict
        refine ⟨manifest, rfl, fun value hvalue hoverflow => ?_⟩
        rw [readBuild_of_obj hread, buildNumber_overflow hvalue hoverflow] at hbuild
        simp at hbuild
    · intro h
      obtain ⟨manifest, rfl, hfinite⟩ := h.object tree hread
      rw [readBuild_of_obj hread]
      cases hnumber : buildNumber py manifest with
      | ok number => exact ⟨_, rfl⟩
      | error e =>
        rcases buildNumber_error hnumber with rfl | rfl | ⟨-, value, hvalue, hoverflow⟩
        · exact ⟨none, rfl⟩
        · exact ⟨none, rfl⟩
        · exact absurd hoverflow (hfinite value hvalue)

theorem get_readBuild {e : DirEntry} {build : Option ((Text × Text) × Int)}
    (h : readBuild py e.file = .ok build) :
    Builds.get build.toList (codePoints channel, codePoints arch) =
      namedBuild py channel arch e := by
  unfold namedBuild
  cases hread : readJson py (some e.file) with
  | error err =>
    rw [readBuild_of_error hread] at h
    split_ifs at h
    cases h
    rfl
  | ok tree =>
    obtain ⟨manifest, rfl, -⟩ := (exists_readBuild.mp ⟨build, h⟩).object tree hread
    rw [readBuild_of_obj hread] at h
    cases hnumber : buildNumber py manifest with
    | ok number =>
      rw [hnumber] at h
      cases h
      by_cases hkey : (py.strField manifest "channel", py.strField manifest "arch") =
        (codePoints channel, codePoints arch) <;> simp [Builds.get, hkey, hnumber, Except.toOption]
    | error err =>
      rw [hnumber] at h
      simp only at h
      split_ifs at h
      cases h
      simp [Builds.get, hnumber, Except.toOption]

theorem Builds.get_append (a b : Builds) (key : Text × Text) :
    Builds.get (a ++ b) key = (Builds.get b key).or (Builds.get a key) := by
  simp only [Builds.get, reverse_append, List.find?_append]
  cases List.find? (fun b => decide (b.1 = key)) b.reverse <;> simp

theorem get_collectBuilds (h : collectBuilds py es = .ok builds) :
    builds.get (codePoints channel, codePoints arch) =
      (es.filterMap (namedBuild py channel arch)).getLast? := by
  induction es generalizing builds with
  | nil =>
    cases h
    rfl
  | cons e es ih =>
    simp only [collectBuilds, bind_ok_iff, pure_ok_iff] at h
    obtain ⟨build, hbuild, rest, hrest, rfl⟩ := h
    rw [Builds.get_append, ih hrest, get_readBuild hbuild, filterMap_cons]
    cases namedBuild py channel arch e with
    | none => simp
    | some number => simp [getLast?_cons]

theorem exists_collectBuilds :
    (∃ builds, collectBuilds py es = .ok builds) ↔ ∀ e ∈ es, Readable py (some e.file) := by
  induction es with
  | nil => simp [collectBuilds]
  | cons e es ih =>
    rw [forall_mem_cons, ← ih, ← exists_readBuild]
    simp only [collectBuilds, bind_ok_iff, pure_ok_iff]
    constructor
    · rintro ⟨-, build, hbuild, rest, hrest, -⟩
      exact ⟨⟨build, hbuild⟩, rest, hrest⟩
    · rintro ⟨⟨build, hbuild⟩, rest, hrest⟩
      exact ⟨_, build, hbuild, rest, hrest, rfl⟩

/-- A cache with the stamp of the directory was filled from its files. -/
def ManifestCache.Current (cache : ManifestCache) (py : Python) (dir : ManifestDir) : Prop :=
  cache.stamp = some dir.stamp → collectBuilds py dir.jsonFiles = .ok cache.builds

theorem latestBuilds_eq_ok {dir : ManifestDir} {cache : ManifestCache}
    (hcache : cache.Current py dir) :
    (∃ kept, latestBuilds py dir cache = .ok (builds, kept)) ↔
      collectBuilds py dir.jsonFiles = .ok builds := by
  unfold latestBuilds
  split_ifs with hstamp
  · rw [hcache hstamp]
    simp
  · simp only [bind_ok_iff, pure_ok_iff]
    constructor
    · rintro ⟨kept, builds', hbuilds, hpair⟩
      cases hpair
      exact hbuilds
    · exact fun h => ⟨_, builds, h, rfl⟩

theorem versionsBuild_eq_ok {dir : ManifestDir} {cache : ManifestCache} {number : Int}
    (hcache : cache.Current py dir) (hchannel : channel ≠ "") (harch : arch ≠ "") :
    versionsBuild py dir cache (some arch) (some channel) = .ok number ↔
      (∀ e ∈ dir.jsonFiles, Readable py (some e.file)) ∧
        (dir.lastNamed py channel arch).getD 0 = number := by
  simp only [versionsBuild, bind_ok_iff, pure_ok_iff, Prod.exists, orText, hchannel, harch]
  constructor
  · rintro ⟨builds, kept, hbuilds, hnumber⟩
    have hcollect := (latestBuilds_eq_ok hcache).mp ⟨kept, hbuilds⟩
    refine ⟨exists_collectBuilds.mp ⟨builds, hcollect⟩, ?_⟩
    rw [ManifestDir.lastNamed, ← get_collectBuilds hcollect]
    simpa [hchannel, harch] using hnumber
  · rintro ⟨hreadable, hnumber⟩
    obtain ⟨builds, hcollect⟩ := exists_collectBuilds.mpr hreadable
    obtain ⟨kept, hkept⟩ := (latestBuilds_eq_ok hcache).mpr hcollect
    refine ⟨builds, kept, hkept, ?_⟩
    rw [ManifestDir.lastNamed, ← get_collectBuilds hcollect] at hnumber
    simpa [hchannel, harch] using hnumber

end Versions

section Display

variable {py : Python} {dir : ManifestDir} {name arch : String}

theorem readNumber_eq_ok {number : Int} :
    readNumber py dir name = .ok number ↔
      ∃ manifest value, readJson py (dir.file name) = .ok (.obj manifest) ∧
        dictGet "build_number" manifest = some value ∧ py.int value = .ok number := by
  simp only [readNumber, bind_ok_iff]
  constructor
  · rintro ⟨tree, hread, value, hvalue, hnumber⟩
    cases tree with
    | obj manifest => exact ⟨manifest, value, hread, by simpa [buildItem] using hvalue, hnumber⟩
    | _ => simp [buildItem] at hvalue
  · rintro ⟨manifest, value, hread, hvalue, hnumber⟩
    exact ⟨_, hread, value, by simpa [buildItem] using hvalue, hnumber⟩

theorem readNumber_error (hreadable : Readable py (dir.file name)) {e : Raised}
    (h : readNumber py dir name = .error e) : e = .os ∨ e = .value ∨ e = .key ∨ e = .type := by
  unfold readNumber at h
  cases hread : readJson py (dir.file name) with
  | error err =>
    rw [hread] at h
    cases h
    rcases readJson_error hread with rfl | rfl | rfl
    · exact .inl rfl
    · exact .inr (.inl rfl)
    · exact absurd hread hreadable.shallow
  | ok tree =>
    obtain ⟨manifest, rfl, hfinite⟩ := hreadable.object tree hread
    rw [hread] at h
    cases hvalue : dictGet "build_number" manifest with
    | none =>
      simp only [bind, Except.bind, buildItem, hvalue, orRefuse] at h
      cases h
      exact .inr (.inr (.inl rfl))
    | some value =>
      simp only [bind, Except.bind, buildItem, hvalue, orRefuse] at h
      rcases Python.int_error h with rfl | rfl | ⟨rfl, -⟩
      · exact .inr (.inl rfl)
      · exact .inr (.inr (.inr rfl))
      · exact absurd h (hfinite value hvalue)

theorem firstNumber_of_readable {names : List String}
    (hreadable : ∀ name ∈ names, Readable py (dir.file name)) :
    firstNumber py dir names =
      .ok (names.findSome? fun name => (readNumber py dir name).toOption) := by
  induction names with
  | nil => rfl
  | cons name names ih =>
    obtain ⟨hname, hnames⟩ := forall_mem_cons.mp hreadable
    cases hnumber : readNumber py dir name with
    | ok number => simp [firstNumber, hnumber, Except.toOption]
    | error e =>
      rcases readNumber_error hname hnumber with rfl | rfl | rfl | rfl <;>
        simp [firstNumber, hnumber, Except.toOption, ih hnames]

theorem ManifestDir.file_readable (h : ∀ e ∈ dir.jsonFiles, Readable py (some e.file))
    (hname : endsWith (codePoints name) ".json" = true) : Readable py (dir.file name) := by
  cases hfind : dir.entries.find? fun e => e.name = name with
  | none =>
    simp only [ManifestDir.file, hfind, Option.map_none]
    exact ⟨by simp [readJson], by simp [readJson]⟩
  | some e =>
    simp only [ManifestDir.file, hfind, Option.map_some]
    obtain rfl : e.name = name := by simpa using List.find?_some hfind
    exact h e (mem_filter.mpr ⟨List.mem_of_find?_eq_some hfind, hname⟩)

theorem lookup_toList (key : String) (number : Option Int) (arch : String) :
    (number.map (key, ·)).toList.lookup arch = if arch = key then number else none := by
  cases number with
  | none => simp
  | some number =>
    simp only [Option.map_some, Option.toList_some, lookup_cons, lookup_nil]
    by_cases h : arch = key
    · simp [h]
    · simp [h, beq_false_of_ne h]

theorem latestManifestBuildNumbers_of_readable
    (h : ∀ e ∈ dir.jsonFiles, Readable py (some e.file)) (harch : arch ∈ archs) :
    ∃ numbers, latestManifestBuildNumbers py dir = .ok numbers ∧
      numbers.lookup arch =
        (displayFiles arch).findSome? fun name => (readNumber py dir name).toOption := by
  have hfirst (arch) (harch : arch ∈ archs) :
      firstNumber py dir (displayFiles arch) =
        .ok ((displayFiles arch).findSome? fun name => (readNumber py dir name).toOption) := by
    refine firstNumber_of_readable fun name hname => ManifestDir.file_readable h ?_
    revert arch name
    decide
  have hx86 := hfirst "x86_64" (by decide)
  have harm := hfirst "aarch64" (by decide)
  have handroid := hfirst "android-aarch64" (by decide)
  refine ⟨_, by simp only [latestManifestBuildNumbers, hx86, harm, handroid]; rfl, ?_⟩
  simp only [archs, mem_cons, not_mem_nil, or_false] at harch
  -- each architecture has at most one entry, its own
  simp only [lookup_append, lookup_toList]
  rcases harch with rfl | rfl | rfl <;> simp

theorem display_of_served {release : Text → Lookup} {manifest : Dict} {value : Json} {number : Int}
    (h : loadUpdateManifest py ⟨dir.file, release⟩ "stable" arch = .ok manifest)
    (hvalue : dictGet "build_number" manifest = some value) (hnumber : py.int value = .ok number) :
    ((displayFiles arch).findSome? fun name => (readNumber py dir name).toOption) =
      some number := by
  obtain ⟨file, requireArchField, hpick, hread, -⟩ := loadUpdateManifest_eq_ok.mp h
  have hshown {name : String} (hname : safeManifest ⟨dir.file, release⟩ name = some file) :
      readNumber py dir name = .ok number := by
    refine readNumber_eq_ok.mpr ⟨manifest, value, ?_, hvalue, hnumber⟩
    simp only [safeManifest] at hname
    split at hname
    · rename_i hfile
      rw [hfile, Option.some.inj hname]
      exact hread
    · cases hname
  unfold pickManifest at hpick
  split at hpick
  · rename_i harchFile
    cases hpick
    have hfirst := hshown harchFile
    unfold displayFiles
    split_ifs <;> simp [hfirst, Except.toOption]
  · rename_i harchFile
    split_ifs at hpick with hx86
    obtain rfl : arch = "x86_64" := by simpa using hx86
    split at hpick
    · rename_i hlegacy
      cases hpick
      have hsecond := hshown hlegacy
      -- what is no file is no file for the display either
      have hskip (number : Int) : readNumber py dir (archManifest "stable" "x86_64") ≠ .ok number := by
        rw [Ne, readNumber_eq_ok]
        rintro ⟨m, v, hread', -⟩
        simp only [safeManifest] at harchFile
        split at harchFile
        · cases harchFile
        · rename_i hno
          unfold readJson at hread'
          split at hread'
          · rename_i hfile
            exact hno _ hfile
          · cases hread'
      unfold displayFiles
      cases hfirst : readNumber py dir (archManifest "stable" "x86_64") with
      | ok number => exact absurd hfirst (hskip number)
      | error e => simp [hfirst, hsecond, Except.toOption]
    · cases hpick

end Display

/-! ## A legacy manifest -/

namespace BuildSample

def release : Bytes := [77, 90]

def releaseSha256 : String := "9b8db510ef42b8ed54a3712636fda55a4f8cfcd5493e20b74ab00cd4f3979f2d"

def python : Python where
  unicode := { asciiUnicode with print := fun _ => codePoints "None" }
  depth := 900
  literal neg m e := .fin ((if neg then -1 else 1) * m * 10 ^ e)
  sha256 _ := codePoints releaseSha256

def releases (name : Text) : Lookup :=
  if name = codePoints "setup.exe" then .found release else .missing

def fields : List (String × Printable) :=
  [("build_number", .int 7), ("channel", .str "stable"), ("file_name", .str "setup.exe"),
    ("published_at", .str "2026-01-01T00:00:00Z"), ("sha256", .str releaseSha256),
    ("signature", .str "c2ln"), ("size", .int 2), ("version", .str "1.4.0")]

def manifestFile (kvs : List (String × Printable)) : ManifestFile :=
  .file (some (writeStruct kvs))

variable {kvs : List (String × Printable)} {name : String}

theorem readJson_manifestFile (kvs : List (String × Printable)) :
    readJson python (some (manifestFile kvs)) = .ok (structJson kvs) := by
  simp only [readJson, manifestFile, writeStruct, utf8Decode_utf8Encode (isScalar_printStruct kvs),
    parseJson_printStruct (pythonJson python.depth) rfl (by decide)]

def dir (name : String) (kvs : List (String × Printable)) : ManifestDir :=
  ⟨[⟨name, manifestFile kvs, 0⟩], pairwise_singleton _ _⟩

def cache : ManifestCache := ⟨none, []⟩

theorem dir_file (name : String) (kvs : List (String × Printable)) :
    (dir name kvs).file name = some (manifestFile kvs) := by
  simp [ManifestDir.file, dir]

theorem dir_file_of_ne {name' : String} (h : name ≠ name') (kvs : List (String × Printable)) :
    (dir name kvs).file name' = none := by
  simp [ManifestDir.file, dir, h]

def dict (kvs : List (String × Printable)) : Dict :=
  kvs.map fun kv => (codePoints kv.1, kv.2.toJson)

theorem served {channel arch : String} {req : Bool}
    (hpick : pickManifest ⟨(dir name kvs).file, releases⟩ channel arch = .ok (manifestFile kvs,
      req)) (hfits : Fits python ⟨(dir name kvs).file, releases⟩ channel arch req (dict kvs)) :
    managedUpdateLatest python ⟨(dir name kvs).file, releases⟩ channel arch =
      .ok (some (dict kvs)) := by
  rw [managedUpdateLatest, loadUpdateManifest_eq_ok.mpr
    ⟨_, req, hpick, readJson_manifestFile kvs, hfits⟩]
  rfl

def archFields : List (String × Printable) := ("arch", .str "x86_64") :: fields

theorem fits_fields {manifests : String → Option ManifestFile} :
    Fits python ⟨manifests, releases⟩ "stable" "x86_64" false (dict fields) where
  complete := by decide
  ofChannel := rfl
  ofArch h := by cases h
  flat := by decide
  suffix := by decide
  hash := by decide
  release := ⟨release, rfl, by decide, by decide⟩

theorem fits_archFields {manifests : String → Option ManifestFile} :
    Fits python ⟨manifests, releases⟩ "stable" "x86_64" true (dict archFields) where
  complete := by decide
  ofChannel := rfl
  ofArch _ := rfl
  flat := by decide
  suffix := by decide
  hash := by decide
  release := ⟨release, rfl, by decide, by decide⟩

theorem readable (h : dictGet "build_number" (dict kvs) = some (.int false 7)) :
    ∀ e ∈ (dir name kvs).jsonFiles, Readable python (some e.file) := by
  intro e he
  obtain rfl : e = ⟨name, manifestFile kvs, 0⟩ := by
    simpa [dir] using (mem_filter.mp he).1
  refine ⟨by simp [readJson_manifestFile], fun tree htree => ⟨dict kvs, ?_, fun value hvalue => ?_⟩⟩
  · exact (Except.ok.inj ((readJson_manifestFile kvs).symm.trans htree)).symm
  · cases h.symm.trans hvalue
    simp [Python.int]

theorem lastNamed (hname : endsWith (codePoints name) ".json" = true)
    (h : dictGet "build_number" (dict kvs) = some (.int false 7)) :
    (dir name kvs).lastNamed python "stable" "x86_64" =
      if (python.strField (dict kvs) "channel", python.strField (dict kvs) "arch") =
        (codePoints "stable", codePoints "x86_64") then some 7 else none := by
  have hbuild : buildNumber python (dict kvs) = .ok 7 := by
    simp [buildNumber, h, Python.truthy, Python.int]
  have hnamed : namedBuild python "stable" "x86_64" ⟨name, manifestFile kvs, 0⟩ =
      if (python.strField (dict kvs) "channel", python.strField (dict kvs) "arch") =
        (codePoints "stable", codePoints "x86_64") then some 7 else none := by
    unfold namedBuild
    rw [readJson_manifestFile]
    simp only [structJson]
    rw [show kvs.map (fun kv => (codePoints kv.1, kv.2.toJson)) = dict kvs from rfl, hbuild]
    rfl
  have hfiles : (dir name kvs).jsonFiles = [⟨name, manifestFile kvs, 0⟩] := by
    simp [ManifestDir.jsonFiles, dir, hname]
  rw [ManifestDir.lastNamed, hfiles, filterMap_cons, hnamed]
  split_ifs <;> rfl

end BuildSample

end ManagedDirectory.Updates
