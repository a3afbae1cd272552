import Collector.CommandLine
import Collector.Project.Machine
import Collector.Proofs.Running

/-!
# What builds do to files

A build reads two sources and the template, and the template is the only file that it writes.
Everything that can fail for a group of functions fails before the template is written for it,
so a build of one group that fails leaves all files as they are.

* `FileSystem` says what a build may rely on: reading changes nothing, and a write changes one
  file as a whole or nothing at all. `Machine.fileSystem` is such a file system.
* `Reads`, `FailsClean` and `Touches` are the three ways in which a step of a build may treat the
  files, and each of them is followed through the steps of a build.
* `builds_write_template_only` puts them together.
-/

namespace Collector

/-! ## File systems -/

/-- Files that builds run on. A path leads to a file, and several paths may lead to the same one.
A state of the files is a value, so nobody else changes them while a build runs; any operation
may be refused. -/
structure FileSystem (σ κ : Type) where
  host : Host (StateM σ)
  /-- The file that a path leads to. -/
  fileAt : σ → String → Option κ
  /-- What a file holds, if it exists. -/
  content : σ → κ → Option Content
  realName_state : ∀ path s, (host.realName path s).2 = s
  readText_state : ∀ path s, (host.readText path s).2 = s
  report_content : ∀ report s, content (host.report report s).2 = content s
  /-- A write is refused and changes nothing, or it replaces the content of one file. -/
  writeText_cases : ∀ path text s,
    (∃ fault, host.writeText path text s = (.error fault, s)) ∨
      ∃ file s', host.writeText path text s = (.ok (), s') ∧ fileAt s path = some file ∧
        content s' file = some (.text text) ∧ (∀ other, other ≠ file →
          content s' other = content s other) ∧ fileAt s' = fileAt s

variable {σ κ α β : Type}

namespace Work

/-! ## Three ways to treat the files -/

/-- A step that changes nothing. -/
def Reads (work : Work (StateM σ) α) : Prop := ∀ s, (work.runOn s).2 = s

/-- A step that changes nothing if it fails. -/
def FailsClean (work : Work (StateM σ) α) : Prop :=
  ∀ s error, (work.runOn s).1 = .error error → (work.runOn s).2 = s

/-- A step that changes the file of one path only. -/
def Touches (fs : FileSystem σ κ) (path : String) (work : Work (StateM σ) α) : Prop :=
  ∀ s, fs.fileAt (work.runOn s).2 = fs.fileAt s ∧
    ∀ file, fs.fileAt s path ≠ some file →
      fs.content (work.runOn s).2 file = fs.content s file

theorem Reads.ofOutcome (outcome : Outcome α) :
    Reads (Work.ofOutcome outcome : Work (StateM σ) α) := fun _ => rfl

theorem Reads.bind {work : Work (StateM σ) α} {next : α → Work (StateM σ) β}
    (hwork : Reads work) (hnext : ∀ a, Reads (next a)) : Reads (work >>= next) := by
  intro s
  have hs := hwork s
  rw [bind_runOn]
  rcases hrun : work.runOn s with ⟨outcome, s'⟩
  rw [hrun] at hs
  subst hs
  cases outcome with
  | ok a => exact hnext a _
  | error error => rfl

theorem Reads.touches {work : Work (StateM σ) α} (h : Reads work) (fs : FileSystem σ κ)
    (path : String) : Touches fs path work := by
  intro s
  rw [h s]
  exact ⟨rfl, fun _ _ => rfl⟩

/-- What comes before a step that fails clean may only read. -/
theorem FailsClean.bind {work : Work (StateM σ) α} {next : α → Work (StateM σ) β}
    (hwork : Reads work) (hnext : ∀ a, FailsClean (next a)) : FailsClean (work >>= next) := by
  intro s error
  have hs := hwork s
  rw [bind_runOn]
  rcases hrun : work.runOn s with ⟨outcome, s'⟩
  rw [hrun] at hs
  subst hs
  cases outcome with
  | ok a => exact hnext a _ error
  | error _ => exact fun _ => rfl

/-- What comes behind a step that fails clean may not fail. -/
theorem FailsClean.andThen {work : Work (StateM σ) α} (hwork : FailsClean work) (f : α → β) :
    FailsClean (work >>= fun a => pure (f a)) := by
  intro s error
  have hs := hwork s
  rw [bind_runOn]
  rcases hrun : work.runOn s with ⟨outcome, s'⟩
  rw [hrun] at hs
  cases outcome with
  | ok a => intro h; cases h
  | error other => exact fun _ => hs other rfl

theorem Touches.bind {fs : FileSystem σ κ} {path : String} {work : Work (StateM σ) α}
    {next : α → Work (StateM σ) β} (hwork : Touches fs path work)
    (hnext : ∀ a, Touches fs path (next a)) : Touches fs path (work >>= next) := by
  intro s
  obtain ⟨hpaths, hfiles⟩ := hwork s
  rw [bind_runOn]
  rcases hrun : work.runOn s with ⟨outcome, s'⟩
  rw [hrun] at hpaths hfiles
  cases outcome with
  | error error => exact ⟨hpaths, hfiles⟩
  | ok a =>
    obtain ⟨hpaths', hfiles'⟩ := hnext a s'
    refine ⟨hpaths'.trans hpaths, fun file hfile => ?_⟩
    rw [hfiles' file (by rw [hpaths]; exact hfile), hfiles file hfile]

end Work

/-! ## The steps of a build -/

namespace Layout

open Work

variable (fs : FileSystem σ κ)

theorem readText_reads (path : String) : Reads (Work.ofFile (fs.host.readText path)) :=
  fun s => fs.readText_state path s

theorem writeText_failsClean (path text : String) :
    FailsClean (Work.ofFile (fs.host.writeText path text)) := by
  intro s error
  rw [Work.ofFile_runOn]
  rcases fs.writeText_cases path text s with ⟨fault, hrun⟩ | ⟨file, s', hrun, _⟩
  · rw [hrun]
    exact fun _ => rfl
  · rw [hrun]
    intro h
    cases h

theorem writeText_touches (path text : String) :
    Touches fs path (Work.ofFile (fs.host.writeText path text)) := by
  intro s
  rw [Work.ofFile_runOn]
  rcases fs.writeText_cases path text s with
    ⟨fault, hrun⟩ | ⟨file, s', hrun, hpath, _, hothers, hpaths⟩
  · rw [hrun]
    exact ⟨rfl, fun _ _ => rfl⟩
  · rw [hrun]
    refine ⟨hpaths, fun other hother => hothers other ?_⟩
    rintro rfl
    exact hother hpath

theorem readExports_reads (path : String) : Reads (readExports fs.host path) :=
  (readText_reads fs path).bind fun _ => Reads.ofOutcome _

theorem checkConflicts_reads (layout : Layout) : Reads (layout.checkConflicts fs.host) :=
  (readExports_reads fs _).bind fun _ =>
    (readExports_reads fs _).bind fun _ =>
      (Reads.ofOutcome _).bind fun _ => (Reads.ofOutcome _).bind fun _ => Reads.ofOutcome _

/-- The template is read, changed as a value, and written at last. -/
theorem editTemplate_failsClean (layout : Layout) (edit : Edit) :
    FailsClean (layout.editTemplate fs.host edit) :=
  .bind (readText_reads fs _) fun _ =>
    .bind (Reads.ofOutcome _) fun _ =>
      .bind (Reads.ofOutcome _) fun _ => writeText_failsClean fs _ _

theorem editTemplate_touches (layout : Layout) (edit : Edit) :
    Touches fs layout.templatePath (layout.editTemplate fs.host edit) :=
  ((readText_reads fs _).touches fs _).bind fun _ =>
    ((Reads.ofOutcome _).touches fs _).bind fun _ =>
      ((Reads.ofOutcome _).touches fs _).bind fun _ => writeText_touches fs _ _

variable (compressor : Compressor) (layout : Layout)

theorem buildTransform_failsClean :
    FailsClean (layout.buildTransform fs.host compressor) :=
  .bind (readExports_reads fs _) fun _ =>
    .bind (Reads.ofOutcome _) fun artifacts =>
      (editTemplate_failsClean fs layout artifacts.apply).andThen fun _ => artifacts

theorem buildConnection_failsClean :
    FailsClean (layout.buildConnection fs.host compressor) :=
  .bind (readExports_reads fs _) fun _ =>
    .bind (Reads.ofOutcome _) fun artifacts =>
      (editTemplate_failsClean fs layout artifacts.apply).andThen fun _ => artifacts

theorem buildTransform_touches :
    Touches fs layout.templatePath (layout.buildTransform fs.host compressor) :=
  ((readExports_reads fs _).touches fs _).bind fun _ =>
    ((Reads.ofOutcome _).touches fs _).bind fun artifacts =>
      (editTemplate_touches fs layout artifacts.apply).bind fun _ =>
        (Reads.ofOutcome (.ok artifacts)).touches fs _

theorem buildConnection_touches :
    Touches fs layout.templatePath (layout.buildConnection fs.host compressor) :=
  ((readExports_reads fs _).touches fs _).bind fun _ =>
    ((Reads.ofOutcome _).touches fs _).bind fun artifacts =>
      (editTemplate_touches fs layout artifacts.apply).bind fun _ =>
        (Reads.ofOutcome (.ok artifacts)).touches fs _

theorem build_touches :
    Touches fs layout.templatePath (layout.build fs.host compressor) :=
  ((checkConflicts_reads fs layout).touches fs _).bind fun _ =>
    (buildTransform_touches fs compressor layout).bind fun _ =>
      (buildConnection_touches fs compressor layout).bind fun _ =>
        (Reads.ofOutcome (.ok _)).touches fs _

end Layout

/-! ## Commands that check -/

namespace Command

open Work

variable (fs : FileSystem σ κ)

theorem ofDirectory_reads (directory : String) :
    Reads (Layout.ofDirectory fs.host directory) := by
  unfold Layout.ofDirectory
  split
  · exact fun _ => rfl
  · refine Reads.bind (fun s => fs.realName_state directory s) fun _ => ?_
    exact Reads.ofOutcome _

/-- A command that checks a project reports its answer, and that is all. -/
theorem run_check_content (compressor : Compressor) (directory : String) (s : σ) :
    fs.content ((run fs.host compressor ⟨.check, directory⟩).runOn s).2 = fs.content s := by
  have hlayout := ofDirectory_reads fs directory s
  unfold run
  rw [bind_runOn]
  rcases hrun : (Layout.ofDirectory fs.host directory).runOn s with ⟨outcome, s'⟩
  rw [hrun] at hlayout
  subst hlayout
  cases outcome with
  | error error => rfl
  | ok layout =>
    have hcheck := Layout.checkConflicts_reads fs layout s'
    show fs.content ((layout.checkConflicts fs.host >>= fun _ =>
      (fs.host.report .consistent : Work (StateM σ) Unit)).runOn s').2 = _
    rw [bind_runOn]
    rcases hrun : (layout.checkConflicts fs.host).runOn s' with ⟨outcome, s''⟩
    rw [hrun] at hcheck
    subst hcheck
    cases outcome with
    | error error => rfl
    | ok _ => exact fs.report_content _ _

end Command

/-! ## The files of a machine -/

namespace Disk

theorem at?_put_self (disk : Disk) {place : Place} (hplace : place ≠ []) (entry : Entry) :
    (disk.put place entry).at? place = some entry := by
  simp [Disk.put, Disk.at?, hplace]

theorem at?_put_of_ne (disk : Disk) {place other : Place} (entry : Entry) (h : other ≠ place) :
    (disk.put place entry).at? other = disk.at? other := by
  unfold Disk.put Disk.at?
  rw [List.find?_cons_of_neg (by simpa using h.symm), List.find?_filter]
  congr 3
  funext found
  by_cases hfound : found.1 = other
  · simp [hfound, h]
  · simp [hfound]

/-- A path leads through directories, so a new file where no directory stands moves nothing. -/
theorem walk_put (disk : Disk) {place : Place} (content : Content)
    (h : disk.at? place ≠ some .directory) (here : Place) (steps : List String) :
    ((disk.put place (.file content)).walk here steps).toOption =
      (disk.walk here steps).toOption := by
  have hplace : place ≠ [] := by
    rintro rfl
    exact h rfl
  induction steps generalizing here with
  | nil => rfl
  | cons step steps ih =>
    unfold walk checkDirectory
    by_cases hhere : here = place
    · subst hhere
      rw [at?_put_self disk hplace]
      rcases hentry : disk.at? here with _ | (_ | content)
      · rfl
      · exact absurd hentry h
      · rfl
    · rw [at?_put_of_ne disk _ hhere]
      rcases disk.at? here with _ | (_ | content)
      · rfl
      · show (if _ then _ else _ : Except FileFault Place).toOption =
          (if _ then _ else _ : Except FileFault Place).toOption
        split
        · exact ih here
        · split
          · exact ih _
          · exact ih _
      · rfl

theorem resolve_put (disk : Disk) {place : Place} (content : Content)
    (h : disk.at? place ≠ some .directory) (here : Place) (path : String) :
    ((disk.put place (.file content)).resolve here path).toOption =
      (disk.resolve here path).toOption := by
  unfold resolve
  split
  · rfl
  · exact walk_put disk content h _ _

/-- What the file at a place holds. -/
def content? (disk : Disk) (place : Place) : Option Content :=
  match disk.at? place with
  | some (.file content) => some content
  | _ => none

end Disk

/-- The files of a machine, for builds that run at a place of its disk. -/
def Machine.fileSystem (here : Place) : FileSystem Machine Place where
  host := Machine.host here
  fileAt machine path := (machine.disk.resolve here path).toOption
  content machine place := machine.disk.content? place
  realName_state _ _ := rfl
  readText_state _ _ := rfl
  report_content _ _ := rfl
  writeText_cases path text machine := by
    show (∃ fault, Machine.write here path text machine = _) ∨ ∃ file s',
      Machine.write here path text machine = _ ∧ _
    unfold Machine.write Disk.writeText
    rcases hpath : machine.disk.resolve here path with fault | place
    · exact .inl ⟨fault, rfl⟩
    · by_cases hentry : machine.disk.at? place = some .directory
      · refine .inl ⟨.isADirectory, ?_⟩
        simp [bind, Except.bind, hentry]
      · have hplace : place ≠ [] := by
          rintro rfl
          exact hentry rfl
        refine .inr ⟨place, { machine with disk := machine.disk.put place (.file (.text text)) },
          ?_, rfl, ?_, fun other hother => ?_, ?_⟩
        · simp [bind, Except.bind]
        · simp [Disk.content?, Disk.at?_put_self _ hplace]
        · simp [Disk.content?, Disk.at?_put_of_ne _ _ hother]
        · exact funext fun other => Disk.resolve_put _ _ hentry _ _

/-! ## Files as a map -/

/-- The simplest file system: a content, or none, for each path. -/
def FileSystem.ofMap : FileSystem (String → Option Content) String where
  host :=
    { realName := fun path files => (.ok (some path), files)
      readText := fun path files =>
        (match files path with
          | some (.text text) => .ok text
          | some (.bytes _) => .error .notText
          | none => .error .notFound, files)
      writeText := fun path text files =>
        (.ok (), fun other => if other = path then some (.text text) else files other)
      report := fun _ files => ((), files) }
  fileAt _ path := some path
  content files path := files path
  realName_state _ _ := rfl
  readText_state _ _ := rfl
  report_content _ _ := rfl
  writeText_cases path _ _ :=
    .inr ⟨path, _, rfl, rfl, if_pos rfl, fun _ hother => if_neg hother, rfl⟩

/-! ## All builds -/

namespace Layout

open Work

/-- No build changes a file other than the template, and checking changes nothing at all. A build
of one group that fails leaves all files as they are. So does a build of both, unless it is the
connection group that fails: then it leaves what a build of the transform group alone writes. -/
theorem builds_write_template_only (fs : FileSystem σ κ) (compressor : Compressor)
    (layout : Layout) (s : σ) :
    (∀ file, fs.fileAt s layout.templatePath ≠ some file →
      fs.content ((layout.buildTransform fs.host compressor).runOn s).2 file =
          fs.content s file ∧
        fs.content ((layout.buildConnection fs.host compressor).runOn s).2 file =
          fs.content s file ∧
        fs.content ((layout.build fs.host compressor).runOn s).2 file = fs.content s file) ∧
      ((layout.checkConflicts fs.host).runOn s).2 = s ∧
      (∀ directory, fs.content
        ((Command.run fs.host compressor ⟨.check, directory⟩).runOn s).2 = fs.content s) ∧
      (∀ error, ((layout.buildTransform fs.host compressor).runOn s).1 = .error error →
        ((layout.buildTransform fs.host compressor).runOn s).2 = s) ∧
      (∀ error, ((layout.buildConnection fs.host compressor).runOn s).1 = .error error →
        ((layout.buildConnection fs.host compressor).runOn s).2 = s) ∧
      ∀ error s', (layout.build fs.host compressor).runOn s = (.error error, s') →
        s' = s ∨
          ((layout.checkConflicts fs.host).runOn s = (.ok (), s) ∧
            (∃ artifacts, (layout.buildTransform fs.host compressor).runOn s =
              (.ok artifacts, s')) ∧
            (layout.buildConnection fs.host compressor).runOn s' = (.error error, s')) := by
  refine ⟨fun file hfile => ⟨?_, ?_, ?_⟩, checkConflicts_reads fs layout s,
    fun directory => Command.run_check_content fs compressor directory s,
    buildTransform_failsClean fs compressor layout s,
    buildConnection_failsClean fs compressor layout s, ?_⟩
  · exact (buildTransform_touches fs compressor layout s).2 file hfile
  · exact (buildConnection_touches fs compressor layout s).2 file hfile
  · exact (build_touches fs compressor layout s).2 file hfile
  · intro error s' hbuild
    have hread := checkConflicts_reads fs layout s
    unfold build at hbuild
    rw [bind_runOn] at hbuild
    rcases hcheck : (layout.checkConflicts fs.host).runOn s with ⟨checked, s₀⟩
    rw [hcheck] at hbuild hread
    subst hread
    cases checked with
    | error found =>
      cases hbuild
      exact .inl rfl
    | ok _ =>
      have hclean := buildTransform_failsClean fs compressor layout s₀
      simp only [bind_runOn] at hbuild
      rcases htransform : (layout.buildTransform fs.host compressor).runOn s₀ with ⟨built, s₁⟩
      rw [htransform] at hbuild hclean
      cases built with
      | error found =>
        cases hbuild
        exact .inl (hclean _ rfl)
      | ok artifacts =>
        have hclean := buildConnection_failsClean fs compressor layout s₁
        simp only at hbuild
        rcases hconnection : (layout.buildConnection fs.host compressor).runOn s₁ with
          ⟨built, s₂⟩
        rw [hconnection] at hbuild hclean
        cases built with
        | ok _ => cases hbuild
        | error found =>
          cases hbuild
          have hstate : s' = s₁ := hclean _ rfl
          subst hstate
          exact .inr ⟨rfl, ⟨artifacts, rfl⟩, hconnection⟩

/-- The files of a project whose connection group exports no address. -/
def unaddressed : String → Option Content
  | "p/p.json" => some (.text "\x7b\x7d")
  | "p/transform/transform.js" => some (.text "module.exports = \x7b\x7d")
  | "p/connection/connection.js" => some (.text "module.exports = \x7b\x7d")
  | _ => none

/-- Its transform group is written before its connection group is found to be faulty. -/
theorem builds_write_template_only_unaddressed :
    let layout : Layout := ⟨"p", "p"⟩
    let fs := FileSystem.ofMap
    ∃ error s', (layout.build fs.host .ok).runOn unaddressed = (.error error, s') ∧
      s' "p/p.json" ≠ unaddressed "p/p.json" ∧
      (s' = unaddressed ∨
        ((layout.checkConflicts fs.host).runOn unaddressed = (.ok (), unaddressed) ∧
          (∃ artifacts, (layout.buildTransform fs.host .ok).runOn unaddressed =
            (.ok artifacts, s')) ∧
          (layout.buildConnection fs.host .ok).runOn s' = (.error error, s'))) := by
  intro layout fs
  have hfails : ((layout.build fs.host .ok).runOn unaddressed).1.toBool = false := by
    decide +kernel
  have hwritten : ((layout.build fs.host .ok).runOn unaddressed).2 "p/p.json" ≠
      unaddressed "p/p.json" := by
    decide +kernel
  rcases hbuild : (layout.build fs.host .ok).runOn unaddressed with ⟨outcome, s'⟩
  rw [hbuild] at hfails hwritten
  cases outcome with
  | ok _ => cases hfails
  | error error =>
    exact ⟨error, s', rfl, hwritten,
      (builds_write_template_only fs .ok layout unaddressed).2.2.2.2.2 error s' hbuild⟩

end Layout

end Collector
