import Callsite.Proofs.Containers
import Callsite.Proofs.FileTrees

/-!
# The outcomes of a batch

The archives of a batch share their diagnostics and the store, and still the outcome of each is what it
would be if the archive were the only one. The archives of a directory are all scanned, whatever they
hold and however containers are read, unless an error escapes.
-/

namespace Callsite

variable {σ : Type} [FileStore (StateM σ)]

namespace Batch

variable {containers : Container.Reader} {settings : Settings} {package output : Text}

/-- The archives hold the same in all states that writing their reports can lead to. -/
def Fixed (b : Batch) (paths : List Path) (contents : Path → List Entry × Option ArchiveFault) (s : σ) :
    Prop :=
  ∀ t, Relation.ReflTransGen (FileStore.Writes (paths.map b.reportPath)) s t →
    ∀ path ∈ paths,
      Reading.inStore b.containers path t = ⟨(contents path).1, .ofFault? (contents path).2⟩

/-- What runs on an archive alone come to that start in the given state. An archive is alone in a run
that names it, and in any other run that finds no more. -/
structure Alone (containers : Container.Reader) (settings : Settings) (package output : Text)
    (tools : List Tool) (path : Path) (o : Outcome) (s : σ) : Prop where
  named : path.Normal → ({ settings with application := .text path.render }.batch containers package
    output).targetsIn s = .ok (.ok [path])
  same : ∀ application directory extensions,
    ({ settings with application, directory, extensions }.batch containers package output).targetsIn s =
      .ok (.ok [path]) →
    ∃ alone d t, (analysis containers { settings with application, directory, extensions }
        tools).exec {} s = ((.ok [alone], d), t) ∧
      alone.unreported = o.unreported

theorem targetsIn_application (h : path.Normal) (b : Batch)
    (happlication : b.settings.application = .text path.render) (s : σ) :
    b.targetsIn s = .ok (.ok [path]) := by
  have htruthy : b.settings.application.isTruthy = true := by
    simp [happlication, Json.isTruthy, Path.render_ne_nil]
  rw [targetsIn, targets, if_pos htruthy, happlication, pathOf, Path.ofText_render h]
  rfl

variable [FileStore.PureReads σ]

theorem exec_analysis_fixed {s : σ} (h : settings.Names package output)
    (htargets : (settings.batch containers package output).targetsIn s = .ok (.ok paths))
    (hfixed : (settings.batch containers package output).Fixed paths contents s) (tools : List Tool) :
    ∃ outcomes d t, (analysis containers settings tools).exec {} s = ((.ok outcomes, d), t) ∧
      outcomes.foldr (fun o n => o.failures + n) 0 = d.size ∧
      List.Forall₂ (fun path o => path ∈ paths ∧ o.unreported =
        .ofEntries tools settings.mode path.render (contents path).1 (contents path).2)
        paths outcomes := by
  obtain ⟨d, hexec, hd⟩ := exec_analysis h htargets tools
  have hnames : ∀ path ∈ paths,
      FileName.Fits ((settings.batch containers package output).reportPath path).render :=
    fun path hpath => fits_reportPath h (Reading.fits_of_inStore (hfixed s .refl path hpath))
  have hfiles : ∀ path ∈ paths, (settings.batch containers package output).reportPath path ∈
      paths.map (settings.batch containers package output).reportPath := fun path => List.mem_map_of_mem
  rcases exec_archives tools hnames d s with
    ⟨outcomes, failures, d', t, harchives, hd', hcourse⟩ | ⟨cause, d', t, -, hstops⟩
  · refine ⟨outcomes, d', t, hexec.trans harchives, ?_, ?_⟩
    · rw [hcourse.length_failures, Diagnostics.size_eq_of_append hd', Diagnostics.size, hd]
      simp
    · have hturns := (List.forall₂_and_left _ _).mpr ⟨fun _ hpath => hpath, hcourse.turns hfiles⟩
      refine hturns.imp ?_
      rintro path o ⟨hpath, u, entries, fault?, hreached, hreading, ho, -⟩
      rw [hfixed u hreached path hpath, Reading.mk.injEq, Ending.ofFault?_inj] at hreading
      rw [hreading.1, hreading.2]
      exact ⟨hpath, ho⟩
  · -- The archive that is refused would hold something else than it did at the start.
    obtain ⟨before, path, after, outcomes, failures, entries, rfl, hcourse, hreading⟩ := hstops
    have hreached := hcourse.reached fun path hpath => hfiles path (List.mem_append_left _ hpath)
    rw [hfixed t hreached path (by simp), Reading.mk.injEq] at hreading
    exact absurd hreading.2 Ending.ofFault?_ne_aborted

/-- Every archive has its outcome, in order and as if it were alone, and the counts add up. -/
theorem analysis_independent {s : σ} (h : settings.Names package output)
    (htargets : (settings.batch containers package output).targetsIn s = .ok (.ok paths))
    (hfixed : (settings.batch containers package output).Fixed paths contents s) (tools : List Tool) :
    ∃ outcomes d t, (analysis containers settings tools).exec {} s = ((.ok outcomes, d), t) ∧
      List.Forall₂ (fun path o => o.path = path.render ∧
        ∀ u, Relation.ReflTransGen
          (FileStore.Writes (paths.map (settings.batch containers package output).reportPath)) s u →
            Alone containers settings package output tools path o u) paths outcomes ∧
      outcomes.foldr (fun o n => o.failures + n) 0 = d.size ∧
      count outcomes .matched + count outcomes .noMatch + count outcomes .failed = paths.length := by
  obtain ⟨outcomes, d, t, hexec, hsum, houtcomes⟩ := exec_analysis_fixed h htargets hfixed tools
  refine ⟨outcomes, d, t, hexec, houtcomes.imp ?_, hsum, ?_⟩
  · rintro path o ⟨hpath, ho⟩
    refine ⟨congrArg Outcome.path ho, fun u hreached =>
      ⟨fun hnormal => targetsIn_application hnormal _ rfl u, ?_⟩⟩
    intro application directory extensions halone
    have hnames : Settings.Names { settings with application, directory, extensions } package output :=
      ⟨h.fits_package, h.fits_output, h.package, h.output⟩
    -- A run on the archive alone writes no report that the whole run does not write.
    have hfixed' : Fixed
        ({ settings with application, directory, extensions }.batch containers package output)
        [path] contents u := by
      intro v hv other hother
      cases List.mem_singleton.mp hother
      refine hfixed v (hreached.trans ?_) path hpath
      refine Relation.ReflTransGen.mono (fun a b => FileStore.Writes.mono fun file hfile => ?_) _ _ hv
      cases List.mem_singleton.mp hfile
      exact List.mem_map_of_mem hpath
    obtain ⟨outcomes', d', t', hexec', -, houtcomes'⟩ :=
      exec_analysis_fixed hnames halone hfixed' tools
    cases houtcomes' with
    | cons halone' hnil =>
      cases hnil
      exact ⟨_, d', t', hexec', halone'.2.trans ho.symm⟩
  · rw [count_total, houtcomes.length_eq]

end Batch

/-- Archives of which one can be read, and a place for reports. -/
def FileTree.twoArchives : FileTree where
  directories := [[Text.ofString "apps"], [Text.ofString "out"]]
  files := [([Text.ofString "apps", Text.ofString "A.class"], ClassSource.selfCaller.bytes),
    ([Text.ofString "apps", Text.ofString "b.jar"], [])]

def Settings.twoArchives : Settings where
  package := .text "A"
  directory := .text "apps"
  output := .text "out"
  extensions := [Text.ofString "class", Text.ofString "jar"]

theorem Settings.names_twoArchives : Settings.twoArchives.Names "A" "out" :=
  ⟨by decide, by decide, rfl, .inl rfl⟩

theorem FileTree.list_twoArchives :
    ((FileStore.list (Path.ofText "apps").render : StateM FileTree _).run FileTree.twoArchives).1 =
      .ok [(Text.ofString "A.class", true), (Text.ofString "b.jar", true)] := rfl

theorem Batch.targetsIn_twoArchives :
    (Settings.twoArchives.batch (Zip.containers false) "A" "out").targetsIn FileTree.twoArchives =
      .ok (.ok [.ofText "apps/A.class", .ofText "apps/b.jar"]) := by
  rw [targetsIn_directory _ rfl rfl (by decide) FileTree.list_twoArchives, Listing.selected,
    Listing.children, List.mergeSort_of_pairwise (by decide +kernel)]
  exact congrArg (fun paths => Except.ok (Except.ok paths)) (by decide +kernel)

/-- What the archives hold. -/
def Batch.twoContents (path : Path) : List Entry × Option ArchiveFault :=
  if path = .ofText "apps/A.class" then ([.selfCaller], none) else
    ([], some (.format path { kind := .badContainer, message := "File is not a zip file" }))

theorem Batch.fixed_twoArchives : (Settings.twoArchives.batch (Zip.containers false) "A" "out").Fixed
    [.ofText "apps/A.class", .ofText "apps/b.jar"] twoContents FileTree.twoArchives := by
  have hclass : FileTree.twoArchives.locate (Path.ofText "apps/A.class").render =
      .ok (.inside [Text.ofString "apps", Text.ofString "A.class"]) := by decide +kernel
  have hjar : FileTree.twoArchives.locate (Path.ofText "apps/b.jar").render =
      .ok (.inside [Text.ofString "apps", Text.ofString "b.jar"]) := by decide +kernel
  intro t hreached path hpath
  rcases List.mem_pair.mp hpath with rfl | rfl
  · exact Reading.inStore_eq_of_writes hreached hclass (by decide +kernel)
  · exact Reading.inStore_eq_of_writes hreached hjar (by decide +kernel)

/-- One archive has a match and leaves a report, the other cannot be read, and each can be named to run
on it alone. -/
theorem Batch.analysis_independent_twoArchives :
    ∃ outcomes d t, (analysis (Zip.containers false) Settings.twoArchives [.calls "LA"]).exec {}
        FileTree.twoArchives = ((.ok outcomes, d), t) ∧
      List.Forall₂ (fun (path : Path) o => o.path = path.render ∧ ∃ alone d' t',
        (analysis (Zip.containers false) { Settings.twoArchives with application := .text path.render }
          [.calls "LA"]).exec {} FileTree.twoArchives = ((.ok [alone], d'), t') ∧
        alone.unreported = o.unreported)
        [.ofText "apps/A.class", .ofText "apps/b.jar"] outcomes ∧
      outcomes.foldr (fun o n => o.failures + n) 0 = d.size ∧
      count outcomes .matched + count outcomes .noMatch + count outcomes .failed = 2 := by
  obtain ⟨outcomes, d, t, hexec, houtcomes, hcounts⟩ := analysis_independent
    Settings.names_twoArchives targetsIn_twoArchives fixed_twoArchives [.calls "LA"]
  have hnormal : ∀ path ∈ [Path.ofText "apps/A.class", .ofText "apps/b.jar"], path.Normal := by
    intro path hpath
    rcases List.mem_pair.mp hpath with rfl | rfl
    · exact Path.normal_ofText _
    · exact Path.normal_ofText _
  refine ⟨outcomes, d, t, hexec, ?_, hcounts⟩
  refine ((List.forall₂_and_left _ _).mpr ⟨hnormal, houtcomes⟩).imp ?_
  rintro path o ⟨hpath, ho, halone⟩
  obtain ⟨hnamed, hsame⟩ := halone _ .refl
  exact ⟨ho, hsame _ _ _ (hnamed hpath)⟩

-- ---------------------------------------------------------------------------
-- Directories
-- ---------------------------------------------------------------------------

theorem Listing.selected_perm (directory : Path) (extensions : List Text) (names : List (Text × Bool)) :
    (selected directory extensions names).Perm
      ((names.filter fun n => n.2 && isArchive extensions (directory.child n.1)).map
        fun n => directory.child n.1) := by
  rw [selected, children, List.filter_map, List.map_map]
  exact ((List.mergeSort_perm names _).filter _).map _

namespace Reading

variable {containers : Container.Reader} {path : Path} {entries : List Entry} {s : σ}

end Reading

namespace Batch

variable {settings : Settings} {package output directory : Text}

variable [FileStore.PureReads σ]

end Batch

end Callsite
