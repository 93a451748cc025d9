import ExperimentCharts.Proofs.Files.Names
import ExperimentCharts.Proofs.Run.FailedPlot
import ExperimentCharts.Run.Extract

namespace ExperimentCharts.Run

/-- The ways for a run to end that makes a file of the given name. -/
inductive Outcome (name : String) (before : Disk) : Except ChartError String × World → Prop
  /-- The run failed and left the disk as it was. -/
  | stopped {error : ChartError} {after : World} (hdisk : after.disk = before) : Outcome name before (.error error, after)
  /-- The run failed at its output path. -/
  | failed {error : ChartError} {after : World} {root : String} (hroot : before.isDirectory root = true)
      (htouched : Disk.TouchedFile (Path.join root name) before after.disk) : Outcome name before (.error error, after)
  /-- The run ended well. -/
  | made {after : World} {root : String} (hroot : before.isDirectory root = true)
      (htouched : Disk.TouchedFile (Path.join root name) before after.disk)
      (hfile : after.disk.fileAt? (Path.join root name) ≠ none) : Outcome name before (.ok (Path.join root name), after)

/-- An output path is that of a name below a directory. -/
theorem outputPath_eq_ok_iff (disk : Disk) (root name path : String) :
    outputPath disk root name = .ok path ↔ disk.isDirectory root = true ∧ Path.join root name = path := by
  unfold outputPath
  split <;> simp [*]

theorem ofExcept_ok {α : Type} {result : Except ChartError α} {world after : World} {value : α}
    (hok : (ofExcept result).run.run world = (.ok value, after)) : result = .ok value ∧ after = world := by
  cases result with
  | error error => cases hok
  | ok _ =>
    cases hok
    exact ⟨rfl, rfl⟩

/-- A chart that can be prepared goes below a directory. -/
theorem prepare_ok {input : String} {directory : Option String} {kind path : String} {clock : Clock} {table : Table}
    {world start : World} (hprepare : (prepare input directory kind clock).run.run world = (.ok (table, path), start)) :
    start.disk = world.disk ∧ ∃ root, world.disk.isDirectory root = true ∧
      path = Path.join root (plotName kind (Calendar.dateTime clock.instant clock.offset)) := by
  have hkeeps := keepsDisk_prepare input directory kind clock world
  rw [hprepare] at hkeeps
  refine ⟨hkeeps, ?_⟩
  obtain ⟨root, chosen, -, hbelow⟩ := exists_run_of_bind_ok hprepare
  unfold prepareBelow at hbelow
  obtain ⟨_, _, -, hloaded⟩ := exists_run_of_bind_ok hbelow
  obtain ⟨_, _, -, hsaid⟩ := exists_run_of_bind_ok hloaded
  obtain ⟨_, _, hget, hgot⟩ := exists_run_of_bind_ok hsaid
  cases hget
  obtain ⟨_, _, hpath, hreturned⟩ := exists_run_of_bind_ok hgot
  obtain ⟨hoffered, rfl⟩ := ofExcept_ok hpath
  cases hreturned
  obtain ⟨hroot, hjoin⟩ := (outputPath_eq_ok_iff _ _ _ _).mp hoffered
  rw [show start.disk = world.disk from hkeeps] at hroot
  exact ⟨root, hroot, hjoin.symm⟩

/-- Data that has an output path goes below a directory. -/
theorem dataOutput_ok {directory : Option String} {kind path : String} {clock : Clock} {world start : World}
    (houtput : (dataOutput directory kind clock).run.run world = (.ok path, start)) :
    start = world ∧ ∃ root, world.disk.isDirectory root = true ∧
      path = Path.join root (dataName kind (Calendar.dateTime clock.instant 0)) := by
  unfold dataOutput at houtput
  obtain ⟨_, _, hget, hok⟩ := exists_run_of_bind_ok houtput
  cases hget
  obtain ⟨hpath, rfl⟩ := ofExcept_ok hok
  obtain ⟨hroot, hjoin⟩ := (outputPath_eq_ok_iff _ _ _ _).mp hpath
  exact ⟨rfl, _, hroot, hjoin.symm⟩

theorem keepsDisk_dataOutput (directory : Option String) (kind : String) (clock : Clock) :
    KeepsDisk (dataOutput directory kind clock) :=
  keepsDisk_bind keepsDisk_get fun _ => keepsDisk_ofExcept _

/-- The path of a chart is chosen before anything is drawn, by its kind and the clock only. -/
theorem plotCsv_outcome (input : String) (directory : Option String) (kind : String) (clock : Clock)
    {draw : Table → String → Run Unit} (hdraw : ∀ table path, MakesFile path (draw table path)) (world : World) :
    Outcome (plotName kind (Calendar.dateTime clock.instant clock.offset)) world.disk
      ((plotCsv input directory kind clock draw).run.run world) := by
  rcases hprepare : (prepare input directory kind clock).run.run world with ⟨error | ⟨table, path⟩, start⟩
  · have hkeeps := keepsDisk_prepare input directory kind clock world
    rw [hprepare] at hkeeps
    rw [plotCsv_of_prepare_error hprepare]
    exact .stopped hkeeps
  · obtain ⟨hdisk, root, hroot, hpath⟩ := prepare_ok hprepare
    have htouched := (hdraw table path).touches start
    rw [hdisk] at htouched
    subst hpath
    rcases hdrawn : (draw table _).run.run start with ⟨error | _, drawn⟩
    · obtain ⟨fault, after, hplot, hafter⟩ := plotCsv_of_draw_error hprepare hdrawn
      rw [hdrawn] at htouched
      rw [hplot]
      refine .failed hroot ?_
      rw [hafter]
      exact htouched.trans (.remove _ drawn.disk)
    · obtain ⟨after, hplot, hafter⟩ := plotCsv_of_draw_ok hprepare hdrawn
      rw [hdrawn] at htouched
      rw [hplot]
      refine .made hroot ?_ ?_
      · rw [hafter]
        exact htouched
      · rw [hafter]
        exact (hdraw table _).made start () drawn hdrawn

theorem keepsDisk_printLine (line : String) : KeepsDisk (printLine line) := fun _ => rfl

theorem keepsDisk_loadResults (input : String) : KeepsDisk (loadResults input) := by
  unfold loadResults
  refine keepsDisk_bind keepsDisk_get fun world => ?_
  dsimp only
  split
  · exact keepsDisk_bind (keepsDisk_throw _) fun _ => keepsDisk_bind (keepsDisk_ofExcept _) fun _ =>
      keepsDisk_bind (keepsDisk_ofExcept _) fun _ => keepsDisk_bind (keepsDisk_say _) fun _ => keepsDisk_pure _
  · exact keepsDisk_bind (keepsDisk_ofExcept _) fun _ => keepsDisk_bind (keepsDisk_ofExcept _) fun _ =>
      keepsDisk_bind (keepsDisk_say _) fun _ => keepsDisk_pure _

section

variable {Row : Type} (kind unit : String) (rowsOf : List AppResult → List Row) (encode : List Row → List UInt8)
  (input : String)

/-- What an extraction does once it has its output path. -/
def extractTo (path : String) : Run Unit := do
  let rows := rowsOf (← loadResults input)
  say [⟨.info, Notice.mainTarget ++ "::extract", s!"{rows.length} {unit}"⟩]
  writeData (encode rows) path
  printLine s!"Saved {kind} plot data at {path}"
  printLine s!"Now you can plot the results by: turnstile_{kind} {path}"

/-- An extraction chooses its path and then writes there. -/
theorem extract_eq_bind (directory : Option String) (clock : Clock) :
    extract kind unit rowsOf encode input directory clock = (do
      let path ← dataOutput directory kind clock
      extractTo kind unit rowsOf encode input path
      return path) := by
  simp only [extract, extractTo, bind_assoc]

theorem makesFile_extractTo (path : String) : MakesFile path (extractTo kind unit rowsOf encode input path) := by
  unfold extractTo
  refine makesFile_bind (keepsDisk_loadResults input).touchesFile fun results => ?_
  refine makesFile_bind (keepsDisk_say _).touchesFile fun _ => ?_
  refine makesFile_bind_keepsDisk (makesFile_store path _ _) fun _ => ?_
  exact keepsDisk_bind (keepsDisk_printLine _) fun _ => keepsDisk_printLine _

theorem extract_outcome (directory : Option String) (clock : Clock) (world : World) :
    Outcome (dataName kind (Calendar.dateTime clock.instant 0)) world.disk
      ((extract kind unit rowsOf encode input directory clock).run.run world) := by
  rw [extract_eq_bind, run_bind]
  rcases houtput : (dataOutput directory kind clock).run.run world with ⟨error | path, start⟩
  · have hkeeps := keepsDisk_dataOutput directory kind clock world
    rw [houtput] at hkeeps
    exact .stopped hkeeps
  · obtain ⟨rfl, root, hroot, rfl⟩ := dataOutput_ok houtput
    have hmakes := makesFile_extractTo kind unit rowsOf encode input
      (Path.join root (dataName kind (Calendar.dateTime clock.instant 0)))
    have htouched := hmakes.touches start
    dsimp only
    rw [run_bind]
    rcases hextract : (extractTo kind unit rowsOf encode input _).run.run start with ⟨error | _, after⟩
    · rw [hextract] at htouched
      exact .failed hroot htouched
    · rw [hextract] at htouched
      exact .made hroot htouched (hmakes.made start () after hextract)

end

end ExperimentCharts.Run
