import ManagedDirectory.Codec.PyDumps
import ManagedDirectory.Lib.Interrupted
import ManagedDirectory.Lib.Run
import ManagedDirectory.Updates.Manifests

/-!
# Publishing a bundle

A run of `rustdesk-publish-bundle` is a list of file operations (`publishOps`), of which an attempt
carries out as many as it comes to (`Attempt.cut`). `published_stays_served` says what
`load_update_manifest` gives for a channel and an architecture once they are published; a file name
that is used again for another installer takes away what is served under it
(`republished_unserved`).
-/

namespace ManagedDirectory.Updates

open Codec Lib List

/-! ## Bundles -/

inductive Channel where
  | stable
  | pilot
  deriving DecidableEq, Repr

def Channel.name : Channel → String
  | .stable => "stable"
  | .pilot => "pilot"

inductive Arch where
  | x86
  | arm
  deriving DecidableEq, Repr

def Arch.name : Arch → String
  | .x86 => "x86_64"
  | .arm => "aarch64"

structure Bundle where
  channel : Channel
  arch : Arch
  buildNumber : Int
  version : String
  fileName : String
  installer : Bytes
  signature : String
  publishedAt : String
  positive : 0 < buildNumber
  /-- `glob("*.exe")`. -/
  exe : endsWith (codePoints fileName) ".exe" = true
  /-- `safe_name`. -/
  safe : '/'.toNat ∉ codePoints fileName

/-- `hashlib.sha256(content).hexdigest().lower()`. -/
def Python.digest (py : Python) (content : Bytes) : Text := py.unicode.lower (py.sha256 content)

namespace Bundle

def file (b : Bundle) : Text := codePoints b.fileName

def manifest (py : Python) (b : Bundle) : List (String × Flat) :=
  [("arch", .str b.arch.name), ("build_number", .int b.buildNumber),
    ("channel", .str b.channel.name), ("file_name", .str b.fileName),
    ("published_at", .str b.publishedAt),
    ("sha256", .str (String.ofList ((py.digest b.installer).map Char.ofNat))),
    ("signature", .str b.signature), ("size", .int b.installer.length),
    ("version", .str b.version)]

/-- `(json.dumps(manifest, indent=2, sort_keys=True) + "\n").encode("utf-8")`. -/
def manifestBytes (py : Python) (b : Bundle) : Bytes :=
  utf8Encode (dumps (b.manifest py) ++ ['\n'.toNat])

def dict (py : Python) (b : Bundle) : Dict :=
  (b.manifest py).map fun kv => (codePoints kv.1, kv.2.printable.toJson)

def target (b : Bundle) : String := archManifest b.channel.name b.arch.name

/-- `.{file_name}.new`. -/
def staged (b : Bundle) : Text := '.'.toNat :: (b.file ++ codePoints ".new")

end Bundle

/-! ## The two directories -/

structure Site where
  releases : Text → Option Bytes
  manifests : String → Option ManifestFile

def Site.files (site : Site) : UpdateFiles where
  manifest := site.manifests
  release name :=
    match site.releases name with
    | some content => .found content
    | none => if name.contains 0 then .impossible else .missing

inductive FileOp where
  /-- `shutil.move` of a release into the archive. -/
  | archiveRelease (name : Text)
  | stageRelease (staged : Text) (content : Bytes)
  | unstageRelease (staged : Text)
  /-- `os.replace(temp_release, release_target)`. -/
  | installRelease (staged name : Text)
  | outside
  | stageManifest (temp : String) (content : Bytes)
  /-- `os.replace(temp_name, path)`. -/
  | installManifest (temp target : String)
  | unlinkManifest (temp : String)

def FileOp.publishes : FileOp → Bool
  | .installManifest .. => true
  | _ => false

def Site.apply (site : Site) : FileOp → Site
  | .archiveRelease name => { site with releases := Function.update site.releases name none }
  | .stageRelease staged content =>
    { site with releases := Function.update site.releases staged (some content) }
  | .unstageRelease staged => { site with releases := Function.update site.releases staged none }
  | .installRelease staged name =>
    match site.releases staged with
    | some content =>
      { site with
        releases := Function.update (Function.update site.releases staged none) name content }
    | none => site
  | .outside => site
  | .stageManifest temp content =>
    { site with manifests := Function.update site.manifests temp (some (.file (some content))) }
  | .installManifest temp target =>
    match site.manifests temp with
    | some file =>
      { site with
        manifests := Function.update (Function.update site.manifests temp none) target file }
    | none => site
  | .unlinkManifest temp => { site with manifests := Function.update site.manifests temp none }

def Site.run (site : Site) (ops : List FileOp) : Site := ops.foldl Site.apply site

/-! ## One run of the script -/

structure Attempt where
  bundle : Bundle
  partials : List Bytes
  random : String
  cut : Nat

def Bundle.replaces (py : Python) (b : Bundle) (site : Site) : Bool :=
  (site.releases b.file).any fun content => py.digest content ≠ py.digest b.installer

def copying (py : Python) (site : Site) (a : Attempt) : List FileOp :=
  (if a.bundle.replaces py site then [.archiveRelease a.bundle.file] else []) ++
    a.partials.map (.stageRelease a.bundle.staged) ++
    [.stageRelease a.bundle.staged a.bundle.installer, .outside]

/-- `mkstemp(prefix=f".{path.name}.")`. -/
def Attempt.temp (a : Attempt) : String := "." ++ a.bundle.target ++ "." ++ a.random

/-- The release and everything else but the name of the manifest. -/
def installing (py : Python) (a : Attempt) : List FileOp :=
  [.installRelease a.bundle.staged a.bundle.file, .outside, .outside, .outside, .outside,
    .stageManifest a.temp [], .stageManifest a.temp (a.bundle.manifestBytes py), .outside]

def committing (a : Attempt) : List FileOp :=
  [.installManifest a.temp a.bundle.target, .unlinkManifest a.temp]

/-- The file operations of `main` in order; a copy with another hash is removed again. -/
def publishOps (py : Python) (site : Site) (a : Attempt) : List FileOp :=
  copying py site a ++
    if ((site.run (copying py site a)).releases a.bundle.staged).map py.digest =
        some (py.digest a.bundle.installer) then
      installing py a ++ committing a
    else [.unstageRelease a.bundle.staged]

def Attempts (py : Python) (site : Site) (a : Attempt) (site' : Site) : Prop :=
  site' = site.run ((publishOps py site a).take a.cut)

abbrev PublishEvent := Event Site Attempt

def Wrote (py : Python) (e : PublishEvent) : Prop :=
  ((publishOps py e.before e.label).take e.label.cut).any FileOp.publishes = true

def Succeeded (py : Python) (e : PublishEvent) : Prop :=
  (publishOps py e.before e.label).length ≤ e.label.cut ∧
    (publishOps py e.before e.label).any FileOp.publishes = true

/-- Every manifest of the directory that names the installer's file gives the installer's size and
hash. -/
def Spares (py : Python) (site : Site) (b : Bundle) : Prop :=
  ∀ (channel : Channel) (arch : Arch) (m : Dict),
    readJson py (site.manifests (archManifest channel.name arch.name)) = .ok (.obj m) →
    py.field m "file_name" = b.file →
    declaredSize py m = .ok b.installer.length ∧
      py.unicode.lower (py.field m "sha256") = py.digest b.installer

/-! ## What is served -/

/-- What Python's `str.lower` and SHA-256 are known to do. -/
structure Python.Lawful (py : Python) : Prop where
  depth : 2 ≤ py.depth
  lower_exe : ∀ text, endsWith text ".exe" = true → endsWith (py.unicode.lower text) ".exe" = true
  lower_hex : ∀ text, text.all isHexDigit = true → py.unicode.lower text = text
  sha256_hex : ∀ content, (py.sha256 content).length = 64 ∧
    (py.sha256 content).all isHexDigit = true

/-- The manifest of the bundle is published, with a release that it fits. -/
structure Current (py : Python) (site : Site) (b : Bundle) : Prop where
  manifest : site.manifests b.target = some (.file (some (b.manifestBytes py)))
  release : ∃ content, site.releases b.file = some content ∧
    content.length = b.installer.length ∧ py.digest content = py.digest b.installer

section Served

variable {py : Python} {b : Bundle} {site : Site}

theorem readJson_manifestBytes (hpy : py.Lawful) (b : Bundle) :
    readJson py (some (.file (some (b.manifestBytes py)))) = .ok (.obj (b.dict py)) := by
  simp only [readJson, Bundle.manifestBytes, utf8Decode_dumps,
    parseJson_dumps (pythonJson py.depth) rfl hpy.depth, flatJson, structJson, map_map]
  rfl

theorem Python.Lawful.digest_eq (hpy : py.Lawful) (content : Bytes) :
    py.digest content = py.sha256 content :=
  hpy.lower_hex _ (hpy.sha256_hex content).2

theorem isScalar_of_isHexDigit {c : Nat} (h : isHexDigit c = true) : IsScalar c := by
  refine isScalar_of_lt ?_
  simp only [isHexDigit, isDigit, Bool.or_eq_true, Bool.and_eq_true, decide_eq_true_eq] at h
  omega

theorem codePoints_ofList {text : Text} (h : ∀ c ∈ text, IsScalar c) :
    codePoints (String.ofList (text.map Char.ofNat)) = text := by
  simp only [codePoints, String.toList_ofList, map_map]
  refine (map_congr_left fun c hc => ?_).trans (map_id text)
  exact toNat_ofNat_of_isScalar (h c hc)

theorem dictGet_dict (name : String) (b : Bundle) :
    dictGet name (b.dict py) =
      ((b.manifest py).reverse.find? fun kv => kv.1 == name).map fun kv => kv.2.printable.toJson := by
  simp only [dictGet, Bundle.dict, ← map_reverse, List.find?_map, Option.map_map,
    Function.comp_def, codePoints_beq]

theorem field_sha256 (hpy : py.Lawful) (b : Bundle) :
    py.field (b.dict py) "sha256" = py.sha256 b.installer := by
  have hhex := hpy.sha256_hex b.installer
  have hdigest : codePoints (String.ofList ((py.sha256 b.installer).map Char.ofNat)) =
      py.sha256 b.installer :=
    codePoints_ofList fun c hc => isScalar_of_isHexDigit (all_eq_true.mp hhex.2 c hc)
  simp [Python.field, dictGet_dict, Bundle.manifest, Flat.printable, Printable.toJson, Unicode.str,
    hpy.digest_eq, hdigest]

theorem field_file_name (b : Bundle) : py.field (b.dict py) "file_name" = b.file := by
  simp [Python.field, dictGet_dict, Bundle.manifest, Flat.printable, Printable.toJson, Unicode.str,
    Bundle.file]

theorem declaredSize_dict (b : Bundle) :
    declaredSize py (b.dict py) = .ok (b.installer.length : Int) := by
  simp [declaredSize, dictGet_dict, Bundle.manifest, Flat.printable, Printable.toJson, Python.int]

theorem Current.served (hpy : py.Lawful) (h : Current py site b) :
    loadUpdateManifest py site.files b.channel.name b.arch.name = .ok (b.dict py) := by
  have hpick : pickManifest site.files b.channel.name b.arch.name =
      .ok (.file (some (b.manifestBytes py)), true) := by
    have hfile : site.files.manifest (archManifest b.channel.name b.arch.name) =
      some (.file (some (b.manifestBytes py))) := h.manifest
    simp only [pickManifest, safeManifest, hfile]
  obtain ⟨content, hcontent, hlength, hdigest⟩ := h.release
  have hhex := hpy.sha256_hex b.installer
  have hlower := hpy.lower_hex _ hhex.2
  refine loadUpdateManifest_eq_ok.mpr ⟨_, true, hpick, readJson_manifestBytes hpy b, ?_⟩
  refine ⟨?_, ?_, fun _ => ?_, ?_, ?_, ?_, content, ?_, ?_, ?_⟩
  · simp [needed, requiredFields, dictGet_dict, Bundle.manifest]
  · simp [dictGet_dict, Bundle.manifest, Flat.printable, Printable.toJson, jsonStr]
  · simp [dictGet_dict, Bundle.manifest, Flat.printable, Printable.toJson, jsonStr]
  · rw [field_file_name]
    exact b.safe
  · have hsuffix : releaseSuffix b.arch.name = ".exe" := by cases b.arch <;> decide
    rw [hsuffix, field_file_name]
    exact hpy.lower_exe _ b.exe
  · rw [field_sha256 hpy, hlower]
    exact hhex
  · simp only [Site.files, field_file_name, hcontent]
  · rw [declaredSize_dict, hlength]
  · rw [field_sha256 hpy, hlower, ← hpy.digest_eq, hdigest, hpy.digest_eq]

end Served

/-! ## Names -/

theorem file_ne_staged (b b' : Bundle) : b.file ≠ b'.staged := by
  intro h
  have hexe : codePoints ".exe" <:+ b.file := isSuffixOf_iff_suffix.mp b.exe
  have hnew : codePoints ".new" <:+ b.file :=
    h ▸ suffix_cons_iff.mpr (.inr (suffix_append _ _))
  exact absurd (suffix_of_suffix_length_le hexe hnew (by decide)) (by decide)

theorem temp_ne_archManifest (a : Attempt) (channel : Channel) (arch : Arch) :
    archManifest channel.name arch.name ≠ a.temp := by
  intro h
  have hdot : a.temp.toList.head? = some '.' := by
    simp [Attempt.temp]
  rw [← h] at hdot
  cases channel <;> cases arch <;> exact absurd hdot (by decide)

theorem archManifest_inj {channel channel' : Channel} {arch arch' : Arch}
    (h : archManifest channel.name arch.name = archManifest channel'.name arch'.name) :
    channel = channel' ∧ arch = arch' := by
  revert h
  cases channel <;> cases channel' <;> cases arch <;> cases arch' <;> decide

/-! ## Moments of a run -/

structure Prepared (py : Python) (site : Site) (b : Bundle) (site' : Site) : Prop where
  manifests : ∀ (channel : Channel) (arch : Arch),
    site'.manifests (archManifest channel.name arch.name) =
      site.manifests (archManifest channel.name arch.name)
  others : ∀ b' : Bundle, b'.file ≠ b.file → site'.releases b'.file = site.releases b'.file
  release : b.replaces py site = false →
    site'.releases b.file = site.releases b.file ∨ site'.releases b.file = some b.installer

structure Committed (py : Python) (site : Site) (b : Bundle) (site' : Site) : Prop where
  manifest : site'.manifests b.target = some (.file (some (b.manifestBytes py)))
  manifests : ∀ (channel : Channel) (arch : Arch), ¬ (channel = b.channel ∧ arch = b.arch) →
    site'.manifests (archManifest channel.name arch.name) =
      site.manifests (archManifest channel.name arch.name)
  others : ∀ b' : Bundle, b'.file ≠ b.file → site'.releases b'.file = site.releases b'.file
  release : site'.releases b.file = some b.installer

section Moments

variable {py : Python} {site site' s : Site} {a : Attempt} {b : Bundle}

theorem Prepared.start : Prepared py site b site := ⟨fun _ _ => rfl, fun _ _ => rfl, fun _ => .inl rfl⟩

theorem Prepared.archive (h : Prepared py site b s) (hreplaces : b.replaces py site = true) :
    Prepared py site b (s.apply (.archiveRelease b.file)) where
  manifests := h.manifests
  others b' hb' := by simp [Site.apply, hb', h.others b' hb']
  release hnot := by rw [hreplaces] at hnot; cases hnot

theorem Prepared.stageRelease (h : Prepared py site b s) (content : Bytes) :
    Prepared py site b (s.apply (.stageRelease b.staged content)) where
  manifests := h.manifests
  others b' hb' := by simp [Site.apply, file_ne_staged b' b, h.others b' hb']
  release hnot := by simpa [Site.apply, file_ne_staged b b] using h.release hnot

theorem Prepared.installRelease (h : Prepared py site b s)
    (hstaged : s.releases b.staged = some b.installer) :
    Prepared py site b (s.apply (.installRelease b.staged b.file)) where
  manifests := by simpa only [Site.apply, hstaged] using h.manifests
  others b' hb' := by simp [Site.apply, hstaged, hb', file_ne_staged b' b, h.others b' hb']
  release _ := .inr (by simp [Site.apply, hstaged])

theorem Prepared.stageManifest (h : Prepared py site a.bundle s) (content : Bytes) :
    Prepared py site a.bundle (s.apply (.stageManifest a.temp content)) where
  manifests channel arch := by
    simp [Site.apply, temp_ne_archManifest a channel arch, h.manifests channel arch]
  others := h.others
  release := h.release

theorem prepared_copying : Throughout Site.apply (Prepared py site a.bundle) site
    (copying py site a) := by
  refine throughout_of_step .start fun op hop s hs => ?_
  simp only [copying, mem_append, mem_map, mem_cons, not_mem_nil,
    or_false] at hop
  rcases hop with (hop | ⟨content, -, rfl⟩) | rfl | rfl
  · split_ifs at hop with hreplaces
    · obtain rfl := mem_singleton.mp hop
      exact hs.archive hreplaces
    · cases hop
  · exact hs.stageRelease content
  · exact hs.stageRelease a.bundle.installer
  · exact hs

theorem staged_of_copying :
    (site.run (copying py site a)).releases a.bundle.staged = some a.bundle.installer := by
  simp [copying, Site.run, Site.apply]

theorem prepared_installing (h : Prepared py site a.bundle s)
    (hstaged : s.releases a.bundle.staged = some a.bundle.installer) :
    Throughout Site.apply (Prepared py site a.bundle) s (installing py a) := by
  have hinstalled := h.installRelease hstaged
  have hempty := hinstalled.stageManifest []
  have hwhole := hempty.stageManifest (a.bundle.manifestBytes py)
  exact ⟨h, hinstalled, hinstalled, hinstalled, hinstalled, hinstalled, hempty, hwhole, hwhole⟩

theorem publishOps_eq :
    publishOps py site a = (copying py site a ++ installing py a) ++ committing a := by
  rw [publishOps, staged_of_copying, Option.map_some, if_pos rfl, append_assoc]

theorem prepared_throughout : Throughout Site.apply (Prepared py site a.bundle) site
    (copying py site a ++ installing py a) :=
  throughout_append prepared_copying
    (prepared_installing prepared_copying.finish staged_of_copying)

theorem installed (hstaged : s.releases a.bundle.staged = some a.bundle.installer) :
    (s.run (installing py a)).releases a.bundle.file = some a.bundle.installer ∧
      (s.run (installing py a)).manifests a.temp =
        some (.file (some (a.bundle.manifestBytes py))) := by
  simp [installing, Site.run, Site.apply, hstaged]

theorem committed (h : Prepared py site a.bundle s)
    (hrelease : s.releases a.bundle.file = some a.bundle.installer)
    (htemp : s.manifests a.temp = some (.file (some (a.bundle.manifestBytes py)))) :
    Committed py site a.bundle (s.apply (.installManifest a.temp a.bundle.target)) where
  manifest := by simp [Site.apply, htemp]
  manifests channel arch hne := by
    have htarget : archManifest channel.name arch.name ≠ a.bundle.target :=
      fun heq => hne (archManifest_inj heq)
    simp [Site.apply, htemp, htarget, temp_ne_archManifest a channel arch,
      h.manifests channel arch]
  others b' hb' := by simpa [Site.apply, htemp] using h.others b' hb'
  release := by simpa [Site.apply, htemp] using hrelease

theorem Committed.unlink (h : Committed py site a.bundle s) :
    Committed py site a.bundle (s.apply (.unlinkManifest a.temp)) where
  manifest := by
    have htarget := temp_ne_archManifest a a.bundle.channel a.bundle.arch
    simpa [Site.apply, Bundle.target, htarget] using h.manifest
  manifests channel arch hne := by
    simpa [Site.apply, temp_ne_archManifest a channel arch] using h.manifests channel arch hne
  others := h.others
  release := h.release

theorem publishes_of_mem_preparation {op : FileOp}
    (h : op ∈ copying py site a ++ installing py a) : op.publishes = false := by
  simp only [copying, installing, mem_append, mem_map, mem_cons, not_mem_nil,
    or_false] at h
  rcases h with ((h | ⟨content, -, rfl⟩) | rfl | rfl) | rfl | rfl | rfl | rfl | rfl | rfl | rfl | rfl
  · split_ifs at h
    · obtain rfl := mem_singleton.mp h
      rfl
    · cases h
  all_goals rfl

theorem attempt_cases (h : Attempts py site a site') :
    Prepared py site a.bundle site' ∧ ¬ Wrote py ⟨site, a, site'⟩ ∨
      Committed py site a.bundle site' ∧ Wrote py ⟨site, a, site'⟩ := by
  unfold Wrote
  rw [Attempts] at h
  rw [publishOps_eq] at h ⊢
  by_cases hcut : a.cut ≤ (copying py site a ++ installing py a).length
  · rw [take_append_of_le_length hcut] at h ⊢
    refine .inl ⟨h ▸ prepared_throughout.take a.cut, ?_⟩
    simp only [Bool.not_eq_true, any_eq_false]
    exact fun op hop => by simp [publishes_of_mem_preparation (mem_of_mem_take hop)]
  · obtain ⟨j, hj⟩ : ∃ j, a.cut = (copying py site a ++ installing py a).length + (j + 1) :=
      ⟨a.cut - (copying py site a ++ installing py a).length - 1, by omega⟩
    have hprepared := (@prepared_throughout py site a).finish
    rw [hj, take_length_add_append] at h ⊢
    refine .inr ⟨?_, by simp [committing, FileOp.publishes]⟩
    rw [Site.run, foldl_append] at h
    have hfound := @installed py _ a (@staged_of_copying py site a)
    rw [Site.run, Site.run, ← foldl_append] at hfound
    have hcommitted := committed hprepared hfound.1 hfound.2
    have hend : Throughout Site.apply (Committed py site a.bundle)
        (Site.apply _ (.installManifest a.temp a.bundle.target)) [.unlinkManifest a.temp] :=
      ⟨hcommitted, hcommitted.unlink⟩
    rw [h]
    exact hend.take j

theorem Succeeded.wrote {e : PublishEvent} (h : Succeeded py e) : Wrote py e := by
  rw [Wrote, take_of_length_le h.1]
  exact h.2

theorem current_of_attempt (hpy : py.Lawful) (hspares : Spares py site a.bundle)
    (h : Attempts py site a site') (hcurrent : Current py site b) :
    Current py site' b ∨
      Wrote py ⟨site, a, site'⟩ ∧ a.bundle.channel = b.channel ∧ a.bundle.arch = b.arch ∧
        Current py site' a.bundle := by
  obtain ⟨content, hcontent, hlength, hdigest⟩ := hcurrent.release
  -- under the same name it is the same installer as far as size and hash go
  have hsame (hfile : b.file = a.bundle.file) :
      b.installer.length = a.bundle.installer.length ∧
        py.digest b.installer = py.digest a.bundle.installer := by
    have hread := readJson_manifestBytes hpy b
    rw [← hcurrent.manifest] at hread
    obtain ⟨hsize, hsha⟩ := hspares b.channel b.arch _ hread ((field_file_name b).trans hfile)
    rw [declaredSize_dict] at hsize
    rw [field_sha256 hpy] at hsha
    exact ⟨by exact_mod_cast Except.ok.inj hsize, hsha⟩
  have hkeeps (hfile : b.file = a.bundle.file) : a.bundle.replaces py site = false := by
    simp [Bundle.replaces, ← hfile, hcontent, hdigest, (hsame hfile).2]
  rcases attempt_cases h with ⟨hprepared, -⟩ | ⟨hcommitted, hwrote⟩
  · refine .inl ⟨(hprepared.manifests b.channel b.arch).trans hcurrent.manifest, ?_⟩
    by_cases hfile : b.file = a.bundle.file
    · rcases hprepared.release (hkeeps hfile) with hrelease | hrelease
      · exact ⟨content, by rw [hfile, hrelease, ← hfile, hcontent], hlength, hdigest⟩
      · exact ⟨_, hfile ▸ hrelease, (hsame hfile).1.symm, (hsame hfile).2.symm⟩
    · exact ⟨content, (hprepared.others b hfile).trans hcontent, hlength, hdigest⟩
  · by_cases hplace : b.channel = a.bundle.channel ∧ b.arch = a.bundle.arch
    · exact .inr ⟨hwrote, hplace.1.symm, hplace.2.symm, hcommitted.manifest, _, hcommitted.release,
        rfl, rfl⟩
    · refine .inl ⟨(hcommitted.manifests b.channel b.arch hplace).trans hcurrent.manifest, ?_⟩
      by_cases hfile : b.file = a.bundle.file
      · exact ⟨_, hfile ▸ hcommitted.release, (hsame hfile).1.symm, (hsame hfile).2.symm⟩
      · exact ⟨content, (hcommitted.others b hfile).trans hcontent, hlength, hdigest⟩

end Moments

/-! ## Runs -/

def PublishEvent.Of (e : PublishEvent) (channel : Channel) (arch : Arch) : Prop :=
  e.label.bundle.channel = channel ∧ e.label.bundle.arch = arch

/-- Everything published is current with a manifest some attempt wrote. -/
def Kept (py : Python) (es : List PublishEvent) (site : Site) : Prop :=
  ∀ channel arch, (∃ e ∈ es, e.Of channel arch ∧ Succeeded py e) →
    ∃ e ∈ es, e.Of channel arch ∧ Wrote py e ∧ Current py site e.label.bundle

theorem kept_of_run {py : Python} {site₀ site : Site} {es : List PublishEvent} (hpy : py.Lawful)
    (h : Run (Attempts py) site₀ es site)
    (hcond : ∀ e ∈ es, Spares py e.before e.label.bundle) : Kept py es site := by
  refine (h.restrict hcond).history (Kept py) (by simp [Kept]) ?_
  rintro es s a s' ih ⟨hstep, hspares⟩ channel arch ⟨e, he, hof, hsucceeded⟩
  have hnew : (⟨s, a, s'⟩ : PublishEvent) ∈ es ++ [⟨s, a, s'⟩] := by simp
  rcases mem_append.mp he with he | he
  · obtain ⟨e', he', hof', hwrote, hcurrent⟩ := ih channel arch ⟨e, he, hof, hsucceeded⟩
    rcases current_of_attempt hpy hspares hstep hcurrent with hkept | ⟨hwrote', hc, ha, hcurrent'⟩
    · exact ⟨e', mem_append_left _ he', hof', hwrote, hkept⟩
    · exact ⟨_, hnew, ⟨hc.trans hof'.1, ha.trans hof'.2⟩, hwrote', hcurrent'⟩
  · obtain rfl := mem_singleton.mp he
    rcases attempt_cases hstep with ⟨-, hnot⟩ | ⟨hcommitted, hwrote⟩
    · exact absurd hsucceeded.wrote hnot
    · exact ⟨_, hnew, hof, hwrote, hcommitted.manifest, _, hcommitted.release, rfl, rfl⟩

/-- **What is published stays served**: after attempts that were each cut anywhere and each spared
the manifests that name the file of their installer, a channel and an architecture that were
published are served with a manifest one of the attempts wrote for them. Every moment of an attempt
is the end of an attempt that is cut there. -/
theorem published_stays_served {py : Python} {site₀ site : Site} {es : List PublishEvent}
    (hpy : py.Lawful) (h : Run (Attempts py) site₀ es site)
    (hcond : ∀ e ∈ es, Spares py e.before e.label.bundle) {channel : Channel} {arch : Arch}
    (hpublished : ∃ e ∈ es, e.Of channel arch ∧ Succeeded py e) :
    ∃ e ∈ es, e.Of channel arch ∧ Wrote py e ∧
      loadUpdateManifest py site.files channel.name arch.name = .ok (e.label.bundle.dict py) := by
  obtain ⟨e, he, hof, hwrote, hcurrent⟩ := kept_of_run hpy h hcond channel arch hpublished
  refine ⟨e, he, hof, hwrote, ?_⟩
  rw [← hof.1, ← hof.2]
  exact hcurrent.served hpy

/-! ## A file name used twice -/

theorem succeeded_of_cut {py : Python} {e : PublishEvent}
    (h : e.label.partials.length + 13 ≤ e.label.cut) : Succeeded py e := by
  rw [Succeeded, publishOps_eq]
  refine ⟨?_, by simp [committing, FileOp.publishes]⟩
  simp only [copying, installing, committing, length_append, length_map,
    length_cons, length_nil]
  split_ifs <;> simp <;> omega

namespace PublishSample

def python : Python where
  unicode := asciiUnicode
  depth := 900
  literal neg m e := .fin ((if neg then -1 else 1) * m * 10 ^ e)
  sha256 content :=
    if content = [77, 90] then
      codePoints "9b8db510ef42b8ed54a3712636fda55a4f8cfcd5493e20b74ab00cd4f3979f2d"
    else codePoints "0def7c7eb38d4010bcb671e24a566daec14890690bf06af36620487ed74d284c"

theorem lawful : python.Lawful where
  depth := by decide
  lower_exe text h := by
    obtain ⟨start, rfl⟩ := isSuffixOf_iff_suffix.mp h
    refine isSuffixOf_iff_suffix.mpr ⟨start.map asciiLower, ?_⟩
    show _ = (start ++ codePoints ".exe").map asciiLower
    rw [map_append]
    congr 1
  lower_hex text h := by
    refine (map_congr_left fun c hc => ?_).trans (map_id text)
    have hhex := all_eq_true.mp h c hc
    simp only [isHexDigit, isDigit, Bool.or_eq_true, Bool.and_eq_true, decide_eq_true_eq] at hhex
    simp only [asciiLower, id]
    split_ifs <;> omega
  sha256_hex content := by
    simp only [python]
    split_ifs <;> decide

def bundle (channel : Channel) (fileName : String) (installer : Bytes)
    (exe : endsWith (codePoints fileName) ".exe" = true)
    (safe : '/'.toNat ∉ codePoints fileName) : Bundle :=
  ⟨channel, .x86, 7, "1.4.0", fileName, installer, "c2ln", "2026-01-01T00:00:00Z", by decide, exe,
    safe⟩

def first : Attempt := ⟨bundle .stable "setup.exe" [77, 90] (by decide) (by decide), [], "a", 13⟩

def second : Attempt :=
  ⟨bundle .pilot "setup.exe" [77, 90, 0] (by decide) (by decide), [], "b", 13⟩

def third : Attempt :=
  ⟨bundle .stable "setup-2.exe" [77, 90, 0] (by decide) (by decide), [], "c", 2⟩

def empty : Site := ⟨fun _ => none, fun _ => none⟩

def afterFirst : Site := empty.run ((publishOps python empty first).take first.cut)

theorem first_step : Attempts python empty first afterFirst := rfl

theorem committed_of_cut {site site' : Site} {a : Attempt} (h : Attempts python site a site')
    (hcut : a.partials.length + 13 ≤ a.cut) : Committed python site a.bundle site' := by
  have hsucceeded : Succeeded python ⟨site, a, site'⟩ := succeeded_of_cut hcut
  rcases attempt_cases h with ⟨-, hnot⟩ | ⟨hcommitted, -⟩
  · exact absurd hsucceeded.wrote hnot
  · exact hcommitted

theorem first_published (e' : PublishEvent) :
    ∃ e ∈ [] ++ [⟨empty, first, afterFirst⟩] ++ [e'],
      PublishEvent.Of e .stable .x86 ∧ Succeeded python e :=
  ⟨⟨empty, first, afterFirst⟩, by simp, ⟨rfl, rfl⟩, succeeded_of_cut (by decide)⟩

theorem manifests_afterFirst {channel : Channel} {arch : Arch} {m : Dict}
    (h : readJson python (afterFirst.manifests (archManifest channel.name arch.name)) =
      .ok (.obj m)) : m = first.bundle.dict python := by
  have hcommitted := committed_of_cut first_step (by decide)
  by_cases hplace : channel = first.bundle.channel ∧ arch = first.bundle.arch
  · obtain ⟨rfl, rfl⟩ := hplace
    have hread := readJson_manifestBytes lawful first.bundle
    rw [← hcommitted.manifest] at hread
    cases hread.symm.trans h
    rfl
  · rw [hcommitted.manifests channel arch hplace] at h
    cases h

/-- While the next installer is copied the stable channel is served. -/
theorem stable_stays_served : ∃ es site, Run (Attempts python) empty es site ∧
    ∃ e ∈ es, PublishEvent.Of e .stable .x86 ∧ Wrote python e ∧
      loadUpdateManifest python site.files "stable" "x86_64" =
        .ok (e.label.bundle.dict python) := by
  have hrun := (Run.snoc .nil first_step).snoc (show Attempts python afterFirst third _ from rfl)
  refine ⟨_, _, hrun, ?_⟩
  refine published_stays_served lawful hrun ?_ (first_published _)
  intro e he
  simp only [nil_append, cons_append, mem_cons, not_mem_nil, or_false] at he
  rcases he with rfl | rfl
  · intro channel arch m hread
    cases hread
  · intro channel arch m hread hname
    rw [manifests_afterFirst hread, field_file_name] at hname
    exact absurd hname (by decide)

/-- **A complete publish for the pilots under a file name of the stable channel leaves the stable
channel without a manifest.** -/
theorem republished_unserved : ∃ es site, Run (Attempts python) empty es site ∧
    (∃ e ∈ es, PublishEvent.Of e .stable .x86 ∧ Succeeded python e) ∧
    ∀ m, loadUpdateManifest python site.files "stable" "x86_64" ≠ .ok m := by
  have hstep : Attempts python afterFirst second
    (afterFirst.run ((publishOps python afterFirst second).take second.cut)) := rfl
  have hrun := (Run.snoc .nil first_step).snoc hstep
  have hfirst := committed_of_cut first_step (by decide)
  have hsecond := committed_of_cut hstep (by decide)
  refine ⟨_, _, hrun, first_published _, ?_⟩
  generalize afterFirst.run ((publishOps python afterFirst second).take second.cut) = site at hsecond
  intro m hload
  obtain ⟨file, req, hpick, hread, hfits⟩ := loadUpdateManifest_eq_ok.mp hload
  -- the manifest is the old one, the release the new one
  have hmanifest : site.manifests first.bundle.target =
      some (.file (some (first.bundle.manifestBytes python))) :=
    (hsecond.manifests .stable .x86 (by decide)).trans hfirst.manifest
  have hpick' : pickManifest site.files "stable" "x86_64" =
      .ok (.file (some (first.bundle.manifestBytes python)), true) := by
    have hfile : site.files.manifest (archManifest "stable" "x86_64") =
      some (.file (some (first.bundle.manifestBytes python))) := hmanifest
    simp only [pickManifest, safeManifest, hfile]
  cases hpick.symm.trans hpick'
  cases hread.symm.trans (readJson_manifestBytes lawful first.bundle)
  obtain ⟨content, hcontent, hsize, -⟩ := hfits.release
  rw [field_file_name] at hcontent
  have hrelease : site.files.release first.bundle.file = .found [77, 90, 0] := by
    have hfile : site.releases first.bundle.file = some [77, 90, 0] := hsecond.release
    simp only [Site.files, hfile]
  cases hcontent.symm.trans hrelease
  rw [declaredSize_dict] at hsize
  exact absurd (Except.ok.inj hsize) (by decide)

end PublishSample

end ManagedDirectory.Updates
