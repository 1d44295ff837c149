import Callsite.Proofs.BatchOutcomes
import Mathlib.Data.List.Nodup

/-!
# The places of reports

The file of a report lies right below the output directory: whatever the archive and the package are
called, its name is a single part of a path and no step upwards. Archives with different names have
different reports, so a run over a directory writes no file twice.
-/

namespace Callsite

-- ---------------------------------------------------------------------------
-- One part more
-- ---------------------------------------------------------------------------

namespace Path

instance : Decidable (IsName t) := inferInstanceAs (Decidable (_ ∧ _))

theorem ofText_of_isName (h : IsName t) : ofText t = ⟨.relative, [t]⟩ := by
  have hjoin : Text.join "/" [t] = t := List.append_nil t
  have hnames : ∀ name ∈ [t], IsName name := List.forall_mem_singleton.mpr h
  have hroot := takeWhile_join hnames
  have hparts := filter_splitOn_join hnames
  rw [hjoin] at hroot hparts
  rw [ofText, rootOf, hroot, hparts]
  rfl

theorem append_eq_child (p : Path) (h : IsName t) : p.append t = p.child t := by
  simp only [append, ofText_of_isName h]
  rfl

theorem Normal.child {p : Path} (hp : p.Normal) (h : IsName t) : (p.child t).Normal :=
  List.forall_mem_append.mpr ⟨hp, List.forall_mem_singleton.mpr h⟩

theorem name_child (p : Path) (t : Text) : (p.child t).name = t := by
  simp [child, name]

theorem Normal.slash_not_mem_name {p : Path} (hp : p.Normal) : CodePoint.ofChar '/' ∉ p.name := by
  rw [name]
  cases hlast : p.parts.getLast? with
  | none => exact List.not_mem_nil
  | some part => exact (hp part (List.mem_of_getLast? hlast)).2

theorem child_inj {p : Path} : p.child t = p.child u ↔ t = u := by
  simp [child]

theorem render_inj {p q : Path} (hp : p.Normal) (hq : q.Normal) : p.render = q.render ↔ p = q := by
  constructor
  · intro h
    rw [← ofText_render hp, ← ofText_render hq, h]
  · rintro rfl
    rfl

end Path

-- ---------------------------------------------------------------------------
-- The file of a report
-- ---------------------------------------------------------------------------

theorem Text.slash_not_mem_dotted (t : Text) : CodePoint.ofChar '/' ∉ t.dotted := by
  intro hslash
  obtain ⟨c, -, hc⟩ := List.mem_map.mp hslash
  split at hc
  next => exact absurd hc (by decide)
  next hne => exact hne hc

namespace Report

/-- The name of the file of a report. -/
def fileName (archive : Path) (stem format : Text) : Text :=
  archive.name ++ "_" ++ packageLabel stem ++ "." ++ format

theorem slash_not_mem_label (format : Format) :
    CodePoint.ofChar '/' ∉ Text.ofString format.label := by
  cases format <;> decide

theorem slash_not_mem_fileName {archive : Path} (h : archive.Normal) (stem : Text) (format : Format) :
    CodePoint.ofChar '/' ∉ fileName archive stem format.label := by
  have hunderscore : CodePoint.ofChar '/' ∉ Text.ofString "_" := by decide
  have hdot : CodePoint.ofChar '/' ∉ Text.ofString "." := by decide
  simp only [fileName, List.mem_append, not_or]
  exact ⟨⟨⟨⟨h.slash_not_mem_name, hunderscore⟩, Text.slash_not_mem_dotted _⟩, hdot⟩,
    slash_not_mem_label format⟩

/-- The underscore tells the name from all that a path treats in a way of its own. -/
theorem fileName_ne (archive : Path) (stem format other : Text) (h : CodePoint.ofChar '_' ∉ other) :
    fileName archive stem format ≠ other := by
  rintro rfl
  apply h
  simp [fileName, Text.ofString]

theorem isName_fileName {archive : Path} (h : archive.Normal) (stem : Text) (format : Format) :
    Path.IsName (fileName archive stem format.label) := by
  refine ⟨?_, slash_not_mem_fileName h stem format⟩
  have hempty := fileName_ne archive stem format.label [] List.not_mem_nil
  have hdot := fileName_ne archive stem format.label "." (by decide)
  simp [Path.isPart, hempty, hdot]

theorem path_eq_child (output : Path) {archive : Path} (h : archive.Normal) (stem : Text)
    (format : Format) :
    path output archive stem format.label = output.child (fileName archive stem format.label) :=
  output.append_eq_child (isName_fileName h stem format)

theorem fileName_inj {archive archive' : Path} :
    fileName archive stem format = fileName archive' stem format ↔ archive.name = archive'.name := by
  simp [fileName]

theorem normal_path {output archive : Path} (houtput : output.Normal) (h : archive.Normal) (stem : Text)
    (format : Format) : (path output archive stem format.label).Normal := by
  rw [path_eq_child output h]
  exact houtput.child (isName_fileName h stem format)

theorem path_inj {output archive archive' : Path} (h : archive.Normal) (h' : archive'.Normal)
    {format : Format} : path output archive stem format.label = path output archive' stem format.label ↔
      archive.name = archive'.name := by
  rw [path_eq_child output h, path_eq_child output h', Path.child_inj, fileName_inj]

end Report

-- ---------------------------------------------------------------------------
-- Runs over a directory
-- ---------------------------------------------------------------------------

variable {σ : Type} [FileStore (StateM σ)]

/-- What the names in a directory are: parts of paths that can be handed over, no two the same. -/
structure Listing.Proper (names : List (Text × Bool)) : Prop where
  distinct : (names.map Prod.fst).Nodup
  parts : ∀ n ∈ names, Path.IsName n.1
  fits : ∀ n ∈ names, FileName.Fits n.1

namespace Batch

variable {b : Batch}

theorem writes_leaves (path : Path) (outcome : Outcome) (t : Traced σ) :
    (b.leaves path outcome t).writes = t.writes ++ if outcome.status = .matched then
      [((b.reportPath path).render, Report.encode b.settings.format outcome.results)] else [] := by
  rw [leaves]
  split
  next => rfl
  next => exact (List.append_nil _).symm

/-- Each archive asks the store to write its own report or nothing. -/
theorem Course.writes {t t' : Traced σ} (h : b.Course tools paths t outcomes failures t') :
    ∃ written, t'.writes = t.writes ++ written ∧
      (written.map Prod.fst).Sublist (paths.map fun path => (b.reportPath path).render) := by
  induction h with
  | nil => exact ⟨[], by simp, .refl _⟩
  | cons reading report rest ih =>
    obtain ⟨written, hwritten, hplaces⟩ := ih
    rw [writes_leaves, List.append_assoc] at hwritten
    refine ⟨_, hwritten, ?_⟩
    split
    next => exact hplaces.cons_cons _
    next => exact hplaces.cons _

theorem exec_archives_writes [FileStore.PureReads σ] (tools : List Tool) {paths : List Path}
    (hnames : ∀ path ∈ paths, FileName.Fits (b.reportPath path).render) (d : Diagnostics)
    (t : Traced σ) :
    ∃ result d' t' written, (b.archives tools paths).exec d t = ((result, d'), t') ∧
      t'.writes = t.writes ++ written ∧
      (written.map Prod.fst).Sublist (paths.map fun path => (b.reportPath path).render) := by
  rcases exec_archives tools hnames d t with
    ⟨outcomes, failures, d', t', hexec, -, hcourse⟩ | ⟨cause, d', t', hexec, hstops⟩
  · obtain ⟨written, hwritten, hplaces⟩ := hcourse.writes
    exact ⟨_, d', t', written, hexec, hwritten, hplaces⟩
  · obtain ⟨before, path, after, outcomes, failures, entries, rfl, hcourse, -⟩ := hstops
    obtain ⟨written, hwritten, hplaces⟩ := hcourse.writes
    exact ⟨_, d', t', written, hexec, hwritten,
      hplaces.trans ((List.sublist_append_left ..).map _)⟩

end Batch

namespace Listing

variable {names : List (Text × Bool)} {directory : Path}

theorem mem_selected (h : path ∈ selected directory extensions names) :
    ∃ n ∈ names, path = directory.child n.1 := by
  obtain ⟨n, hn, rfl⟩ := List.mem_map.mp ((selected_perm ..).mem_iff.mp h)
  exact ⟨n, (List.mem_filter.mp hn).1, rfl⟩

theorem Proper.normal_selected (h : Proper names) (hdirectory : directory.Normal) :
    ∀ path ∈ selected directory extensions names, path.Normal := by
  intro path hpath
  obtain ⟨n, hn, rfl⟩ := mem_selected hpath
  exact Path.Normal.child hdirectory (h.parts n hn)

theorem Proper.fits_selected (h : Proper names) (hdirectory : FileName.Fits directory.render) :
    ∀ path ∈ selected directory extensions names, FileName.Fits path.render := by
  intro path hpath
  obtain ⟨n, hn, rfl⟩ := mem_selected hpath
  exact Path.fits_render_child hdirectory (h.fits n hn)

theorem Proper.nodup_names (h : Proper names) (directory : Path) (extensions : List Text) :
    ((selected directory extensions names).map Path.name).Nodup := by
  refine ((selected_perm directory extensions names).map Path.name).nodup_iff.mpr ?_
  rw [List.map_map]
  have hname : Path.name ∘ (fun n : Text × Bool => directory.child n.1) = Prod.fst :=
    funext fun n => directory.name_child n.1
  rw [hname]
  exact h.distinct.sublist (List.filter_sublist.map _)

end Listing

namespace Report

/-- Archives whose names differ have reports in different places. -/
theorem nodup_paths {output : Path} (houtput : output.Normal) (stem : Text) (format : Format)
    {archives : List Path} (hnormal : ∀ archive ∈ archives, archive.Normal)
    (hnames : (archives.map Path.name).Nodup) :
    (archives.map fun archive => (path output archive stem format.label).render).Nodup := by
  refine (List.Nodup.of_map _ hnames).map_on fun archive harchive archive' harchive' heq => ?_
  have h := hnormal archive harchive
  have h' := hnormal archive' harchive'
  rw [Path.render_inj (normal_path houtput h stem format) (normal_path houtput h' stem format),
    path_inj h h'] at heq
  exact List.inj_on_of_nodup_map hnames harchive harchive' heq

/-- A report lies right below the output directory, in a file whose name tells the archive and the
package. Archives with one report have the same name, so the archives of a directory all have reports of
their own, and a run over the directory writes nothing else and nothing twice. -/
theorem path_confined [FileStore.PureReads σ] (output : Text) :
    (∀ (archive stem : Text) (format : Format),
      let name := (Path.ofText archive).name ++ "_" ++ packageLabel stem ++ "." ++ format.label
      path (.ofText output) (.ofText archive) stem format.label = (Path.ofText output).child name ∧
        CodePoint.ofChar '/' ∉ name ∧ name ≠ "" ∧ name ≠ "." ∧ name ≠ "..") ∧
    (∀ (archive archive' stem : Text) (format : Format),
      path (.ofText output) (.ofText archive) stem format.label =
          path (.ofText output) (.ofText archive') stem format.label ↔
        (Path.ofText archive).name = (Path.ofText archive').name) ∧
    ∀ (containers : Container.Reader) (settings : Settings) (package directory : Text)
      (names : List (Text × Bool)) (t : Traced σ),
      settings.application.isTruthy = false → settings.directory = .text directory →
      FileName.Fits directory →
      ((FileStore.list (Path.ofText directory).render : StateM σ _).run t.state).1 = .ok names →
      Listing.Proper names →
      ∃ archives : List Path,
        (settings.batch containers package output).targetsIn t.state = .ok (.ok archives) ∧
        (archives.map fun archive => (path (.ofText output) archive (normalizePackage package)
          settings.format.label).render).Nodup ∧
        (settings.Names package output → ∀ tools, ∃ result d t' written,
          (Batch.analysis containers settings tools).exec {} t = ((result, d), t') ∧
          t'.writes = t.writes ++ written ∧
          (written.map Prod.fst).Sublist (archives.map fun archive => (path (.ofText output) archive
            (normalizePackage package) settings.format.label).render)) := by
  refine ⟨fun archive stem format => ?_, fun archive archive' stem format => ?_, ?_⟩
  · have hnormal := Path.normal_ofText archive
    exact ⟨path_eq_child _ hnormal stem format, slash_not_mem_fileName hnormal stem format,
      fileName_ne _ stem _ "" (by decide), fileName_ne _ stem _ "." (by decide),
      fileName_ne _ stem _ ".." (by decide)⟩
  · exact path_inj (Path.normal_ofText archive) (Path.normal_ofText archive')
  · intro containers settings package directory names t happlication hdirectory hfits hlist hproper
    have htargets := Batch.targetsIn_directory (settings.batch containers package output) happlication
      hdirectory hfits hlist
    have hnormal : ∀ archive ∈ Listing.selected (.ofText directory) settings.extensions names,
        archive.Normal := hproper.normal_selected (Path.normal_ofText directory)
    refine ⟨_, htargets, nodup_paths (Path.normal_ofText output) _ _ hnormal
      (hproper.nodup_names ..), fun hsettings tools => ?_⟩
    have htraced : (settings.batch containers package output).targetsIn t = .ok (.ok
        (Listing.selected (.ofText directory) settings.extensions names)) :=
      Batch.targetsIn_directory _ happlication hdirectory hfits hlist
    obtain ⟨d, hexec, -⟩ := Batch.exec_analysis hsettings htraced tools
    rw [hexec]
    refine Batch.exec_archives_writes tools (fun archive harchive => ?_) d t
    exact Batch.fits_reportPath hsettings
      (hproper.fits_selected (Path.fits_render_ofText hfits) archive harchive)

/-- Steps upwards and slashes in all the parts, and a directory with two archives, of which one has a
match. -/
theorem path_confined_twoArchives :
    path (.ofText "../out/.") (.ofText "/apps/..") "L../b" Format.csv.label =
        (Path.ofText "../out").child ".._...b.csv" ∧
      ∃ archives : List Path,
        (Settings.twoArchives.batch (Zip.containers false) "A" "out").targetsIn FileTree.twoArchives =
          .ok (.ok archives) ∧
        (archives.map fun archive => (path (.ofText "out") archive "LA" Format.log.label).render).Nodup ∧
        ∃ result d t' written,
          (Batch.analysis (Zip.containers false) Settings.twoArchives [.calls "LA"]).exec {}
            ({ state := FileTree.twoArchives } : Traced FileTree) = ((result, d), t') ∧
          t'.writes = written ∧ (written.map Prod.fst).Sublist (archives.map fun archive =>
            (path (.ofText "out") archive "LA" Format.log.label).render) := by
  have hproper : Listing.Proper [(Text.ofString "A.class", true), (Text.ofString "b.jar", true)] :=
    ⟨by decide, by decide, by decide⟩
  refine ⟨((path_confined (σ := FileTree) "../out/.").1 "/apps/.." "L../b" .csv).1, ?_⟩
  obtain ⟨archives, htargets, hnodup, hwrites⟩ := (path_confined "out").2.2
    (Zip.containers false) Settings.twoArchives "A" "apps"
    _ { state := FileTree.twoArchives } rfl rfl (by decide) FileTree.list_twoArchives hproper
  exact ⟨archives, htargets, hnodup, hwrites Settings.names_twoArchives [.calls "LA"]⟩

end Report

end Callsite
