import ExperimentCharts.Proofs.Run.MakesFile

namespace ExperimentCharts.Run

variable {α : Type}

/-- The run touches nothing on the disk but what the path leads to. -/
def Touches (path : String) (run : Run α) : Prop :=
  ∀ world, Disk.Touched path world.disk (run.run.run world).2.disk

/-- A drawing that makes one file touches nothing else. -/
theorem MakesFile.touchesPath {path : String} {run : Run α} (hmakes : MakesFile path run) : Touches path run :=
  fun world => (hmakes.touches world).touched

/-- The root of the output: the given directory, or else the output root. -/
def chartRoot (directory : Option String) : Run String :=
  match directory with
  | some directory => pure directory
  | none => do ofExcept (outputRootOf (← get).outputRoot)

/-- The table to draw, and the path to draw it at below a root. -/
def prepareBelow (input kind : String) (clock : Clock) (root : String) : Run (Table × String) := do
  let table ← loadTable input
  say [⟨.info, Notice.mainTarget, s!"read {table.rows.length} records from {input}"⟩]
  let path ← ofExcept (plotPath (← get).disk root kind clock)
  return (table, path)

/-- What comes before the drawing: the table to draw, and the path to draw it at. -/
def prepare (input : String) (directory : Option String) (kind : String) (clock : Clock) : Run (Table × String) :=
  chartRoot directory >>= prepareBelow input kind clock

/-- A chart is drawn once all that can be checked before has been checked. -/
theorem plotCsv_eq_prepare_bind (input : String) (directory : Option String) (kind : String) (clock : Clock)
    (draw : Table → String → Run Unit) :
    plotCsv input directory kind clock draw = (do
      let (table, path) ← prepare input directory kind clock
      try draw table path
      catch error =>
        discard path
        throw error
      printLine s!"Plot saved to {path}"
      return path) := by
  cases directory <;> simp only [plotCsv, prepare, chartRoot, prepareBelow, bind_assoc, pure_bind]

theorem keepsDisk_loadTable (input : String) : KeepsDisk (loadTable input) := by
  unfold loadTable
  refine keepsDisk_bind keepsDisk_get fun world => ?_
  dsimp only
  split
  · exact keepsDisk_bind (keepsDisk_throw _) fun _ => keepsDisk_bind (keepsDisk_ofExcept _) fun _ =>
      keepsDisk_bind (keepsDisk_ofExcept _) fun _ => keepsDisk_bind (keepsDisk_say _) fun _ => keepsDisk_pure _
  · exact keepsDisk_bind (keepsDisk_ofExcept _) fun _ => keepsDisk_bind (keepsDisk_ofExcept _) fun _ =>
      keepsDisk_bind (keepsDisk_say _) fun _ => keepsDisk_pure _

theorem keepsDisk_prepare (input : String) (directory : Option String) (kind : String) (clock : Clock) :
    KeepsDisk (prepare input directory kind clock) := by
  refine keepsDisk_bind ?_ fun root => ?_
  · cases directory with
    | some root => exact keepsDisk_pure root
    | none => exact keepsDisk_bind keepsDisk_get fun _ => keepsDisk_ofExcept _
  · exact keepsDisk_bind (keepsDisk_loadTable input) fun _ => keepsDisk_bind (keepsDisk_say _) fun _ =>
      keepsDisk_bind keepsDisk_get fun _ => keepsDisk_bind (keepsDisk_ofExcept _) fun _ => keepsDisk_pure _

/-- Discarding a chart removes the file at its path, if that is allowed. -/
theorem disk_discard (path : String) (world : World) :
    ((discard path).run.run world).2.disk = (world.disk.remove path).2 := by
  have hget : (get : Run World).run.run world = (.ok world, world) := rfl
  rw [discard, run_bind, hget]
  dsimp only
  by_cases hcontains : world.disk.contains path = true
  · rw [if_pos hcontains, run_bind]
    change ((onDisk _ _).run.run _).2.disk = _
    rw [run_onDisk]
  · rw [if_neg hcontains, Disk.remove]
    unfold Disk.contains at hcontains
    cases hfind : world.disk.find path with
    | ok found =>
      rw [hfind] at hcontains
      exact absurd rfl hcontains
    | error error => rfl

section

variable {input : String} {directory : Option String} {kind : String} {clock : Clock}
  {draw : Table → String → Run Unit} {world start : World} {table : Table} {path : String} {error : ChartError}

theorem plotCsv_of_prepare_error (hprepare : (prepare input directory kind clock).run.run world = (.error error, start)) :
    (plotCsv input directory kind clock draw).run.run world = (.error error, start) := by
  rw [plotCsv_eq_prepare_bind, run_bind, hprepare]

theorem plotCsv_of_draw_ok {drawn : World}
    (hprepare : (prepare input directory kind clock).run.run world = (.ok (table, path), start))
    (hdraw : (draw table path).run.run start = (.ok (), drawn)) :
    ∃ after, (plotCsv input directory kind clock draw).run.run world = (.ok path, after) ∧ after.disk = drawn.disk := by
  rw [plotCsv_eq_prepare_bind, run_bind, hprepare]
  dsimp only
  rw [run_bind, run_tryCatch, hdraw]
  exact ⟨_, rfl, rfl⟩

/-- A drawing that fails is discarded. -/
theorem plotCsv_of_draw_error {failed : World}
    (hprepare : (prepare input directory kind clock).run.run world = (.ok (table, path), start))
    (hdraw : (draw table path).run.run start = (.error error, failed)) :
    ∃ fault after, (plotCsv input directory kind clock draw).run.run world = (.error fault, after) ∧
      after.disk = (failed.disk.remove path).2 := by
  rw [plotCsv_eq_prepare_bind, run_bind, hprepare]
  dsimp only
  rw [run_bind, run_tryCatch, hdraw]
  dsimp only
  rw [run_bind, ← disk_discard]
  generalize (discard path).run.run failed = discarded
  obtain ⟨fault | _, ended⟩ := discarded
  · exact ⟨fault, ended, rfl, rfl⟩
  · exact ⟨error, ended, rfl, rfl⟩

/-- A chart fails before it is drawn, or while it is drawn. -/
theorem plotCsv_error_cases {after : World}
    (herror : (plotCsv input directory kind clock draw).run.run world = (.error error, after)) :
    (prepare input directory kind clock).run.run world = (.error error, after) ∨
      ∃ table path start, (prepare input directory kind clock).run.run world = (.ok (table, path), start) ∧
        after.disk = (((draw table path).run.run start).2.disk.remove path).2 := by
  rcases hprepare : (prepare input directory kind clock).run.run world with ⟨fault | ⟨table, path⟩, start⟩
  · rw [plotCsv_of_prepare_error hprepare] at herror
    cases herror
    exact .inl rfl
  · refine .inr ⟨table, path, start, rfl, ?_⟩
    rcases hdraw : (draw table path).run.run start with ⟨fault | _, ended⟩
    · obtain ⟨_, _, hplot, hdisk⟩ := plotCsv_of_draw_error hprepare hdraw
      rw [hplot] at herror
      cases herror
      exact hdisk
    · obtain ⟨_, hplot, -⟩ := plotCsv_of_draw_ok hprepare hdraw
      rw [hplot] at herror
      cases herror

end

/-- The run gets as far as drawing at a path, and the drawing leaves a disk. -/
def DrawsAt (input : String) (directory : Option String) (kind : String) (clock : Clock)
    (draw : Table → String → Run Unit) (world : World) (path : String) (drawn : Disk) : Prop :=
  ∃ table start, (prepare input directory kind clock).run.run world = (.ok (table, path), start) ∧
    ((draw table path).run.run start).2.disk = drawn

section

variable {input : String} {directory : Option String} {kind : String} {clock : Clock}
  {draw : Table → String → Run Unit} {world after : World} {path : String} {drawn : Disk} {error : ChartError}

/-- The drawing touches nothing but its path. -/
theorem DrawsAt.touched (hdraw : ∀ table path, Touches path (draw table path))
    (hdraws : DrawsAt input directory kind clock draw world path drawn) : Disk.Touched path world.disk drawn := by
  obtain ⟨table, start, hprepare, rfl⟩ := hdraws
  have hkeeps := keepsDisk_prepare input directory kind clock world
  rw [hprepare] at hkeeps
  rw [← show start.disk = world.disk from hkeeps]
  exact hdraw table path start

/-- A run draws at one path, and once. -/
theorem DrawsAt.eq {path' : String} {drawn' : Disk} (hdraws : DrawsAt input directory kind clock draw world path drawn)
    (hdraws' : DrawsAt input directory kind clock draw world path' drawn') : path = path' ∧ drawn = drawn' := by
  obtain ⟨table, start, hprepare, rfl⟩ := hdraws
  obtain ⟨table', start', hprepare', rfl⟩ := hdraws'
  rw [hprepare] at hprepare'
  cases hprepare'
  exact ⟨rfl, rfl⟩

/-- A failed run leaves the disk as it was, or else as the removal of its drawing leaves it. -/
theorem disk_of_plotCsv_error
    (herror : (plotCsv input directory kind clock draw).run.run world = (.error error, after)) :
    (after.disk = world.disk ∧ ∀ path drawn, ¬ DrawsAt input directory kind clock draw world path drawn) ∨
      ∃ path drawn, DrawsAt input directory kind clock draw world path drawn ∧ after.disk = (drawn.remove path).2 := by
  rcases plotCsv_error_cases herror with hprepare | ⟨table, path, start, hprepare, hdisk⟩
  · have hkeeps := keepsDisk_prepare input directory kind clock world
    rw [hprepare] at hkeeps
    refine .inl ⟨hkeeps, ?_⟩
    rintro path drawn ⟨table, start, hok, -⟩
    rw [hprepare] at hok
    cases hok
  · exact .inr ⟨path, _, ⟨table, start, hprepare, rfl⟩, hdisk⟩

end

/-- What a failed chart leaves. It keeps all files but the one where its drawing was to go. There no file is left, or,
    if the system refuses to remove it, whatever the drawing left. So all files stay as they were if and only if no
    drawing was begun, or there was no file in its place and none is left, or a refused removal leaves just the file
    that was there. A finished image of the same kind and second is taken for the incomplete one and does not stay.
    As long as no removal is refused, no file is made and none is changed. -/
theorem plotCsv_error_keeps_files_iff {input : String} {directory : Option String} {kind : String} {clock : Clock}
    {draw : Table → String → Run Unit} (hdraw : ∀ table path, Touches path (draw table path))
    {world after : World} {error : ChartError}
    (herror : (plotCsv input directory kind clock draw).run.run world = (.error error, after)) :
    (∀ location, (∀ path drawn, DrawsAt input directory kind clock draw world path drawn →
        ¬ world.disk.LeadsTo path location) → after.disk.file? location = world.disk.file? location) ∧
      (∀ path drawn location, DrawsAt input directory kind clock draw world path drawn →
        world.disk.LeadsTo path location → after.disk.file? location =
          if drawn.removalRefusal? location = none then none else drawn.file? location) ∧
      ((∀ location, after.disk.file? location = world.disk.file? location) ↔
        ∀ path drawn location, DrawsAt input directory kind clock draw world path drawn →
          world.disk.LeadsTo path location → world.disk.file? location =
            if drawn.removalRefusal? location = none then none else drawn.file? location) ∧
      ((∀ path drawn, DrawsAt input directory kind clock draw world path drawn → drawn.AllowsRemoval path) →
        ∀ location, after.disk.file? location ≠ none → after.disk.file? location = world.disk.file? location) := by
  have hkept : ∀ location, (∀ path drawn, DrawsAt input directory kind clock draw world path drawn →
      ¬ world.disk.LeadsTo path location) → after.disk.file? location = world.disk.file? location := by
    intro location hnot
    rcases disk_of_plotCsv_error herror with ⟨hdisk, -⟩ | ⟨path, drawn, hdraws, hdisk⟩
    · rw [hdisk]
    · rw [hdisk]
      exact (hdraws.touched hdraw).file?_remove_of_not_leadsTo (hnot path drawn hdraws)
  have hleft : ∀ path drawn location, DrawsAt input directory kind clock draw world path drawn →
      world.disk.LeadsTo path location → after.disk.file? location =
        if drawn.removalRefusal? location = none then none else drawn.file? location := by
    intro path drawn location hdraws hleads
    rcases disk_of_plotCsv_error herror with ⟨-, hnever⟩ | ⟨path', drawn', hdraws', hdisk⟩
    · exact absurd hdraws (hnever path drawn)
    · obtain ⟨rfl, rfl⟩ := hdraws.eq hdraws'
      rw [hdisk]
      exact (hdraws.touched hdraw).file?_remove_of_leadsTo hleads
  -- At the place of the drawing both sides are known from what was left, and elsewhere from what was kept.
  refine ⟨hkept, hleft, ⟨fun hall path drawn location hdraws hleads => ?_, fun hsame location => ?_⟩,
    fun hallowed location hfile => hkept location fun path drawn hdraws hleads => hfile ?_⟩
  · rw [← hall, hleft path drawn location hdraws hleads]
  · by_cases hplace : ∃ path drawn, DrawsAt input directory kind clock draw world path drawn ∧
        world.disk.LeadsTo path location
    · obtain ⟨path, drawn, hdraws, hleads⟩ := hplace
      rw [hleft path drawn location hdraws hleads, hsame path drawn location hdraws hleads]
    · exact hkept location fun path drawn hdraws hleads => hplace ⟨path, drawn, hdraws, hleads⟩
  · rw [hleft path drawn location hdraws hleads]
    split
    · rfl
    · rename_i hrefused
      by_contra hstays
      exact hrefused (hallowed path drawn hdraws location ((hdraws.touched hdraw).found location hleads hstays))

/-- A table and a directory for charts, next to other files. -/
def sampleWorld (others : List (Location × Node)) : World where
  disk := { nodes := (["out"], .directory) :: (["a.csv"], .file (.bytes (Text.encode "A\n1\n"))) :: others, home := [] }
  outputRoot := none
  notices := []
  printed := ""

/-- The same table and directory where no file may be removed. -/
def guardedWorld : World :=
  { sampleWorld [] with disk := { (sampleWorld []).disk with removalRefusal? := fun _ => some .permissionDenied } }

def sampleClock : Clock := ⟨1700000000, 0⟩

/-- Where the line chart of that time goes. -/
def sampleImage : Location := ["out", "line-plot.20231114_221320.png"]

/-- A drawing that gives up after its first byte. -/
def drawHalf (_ : Table) (path : String) : Run Unit := do
  onDisk (fun disk => disk.write path [0x89]) fun error => .cannotWrite path error.message
  throw (.cannotDraw "half drawn")

theorem makesFile_drawHalf (table : Table) (path : String) : MakesFile path (drawHalf table path) :=
  makesFile_bind (makesFile_store path (.bytes [0x89]) _).touches fun _ => makesFile_throw _

theorem touches_drawHalf (table : Table) (path : String) : Touches path (drawHalf table path) :=
  (makesFile_drawHalf table path).touchesPath

theorem disk_drawHalf (table : Table) (path : String) (world : World) :
    ((drawHalf table path).run.run world).2.disk = (world.disk.write path [0x89]).2 := by
  rw [drawHalf, run_bind, run_onDisk]
  obtain ⟨error | _, disk⟩ := world.disk.write path [0x89] <;> rfl

theorem exists_error_of_toOption {run : Run α} {world : World} (hnone : (run.run.run world).1.toOption = none) :
    ∃ error after, run.run.run world = (.error error, after) := by
  generalize run.run.run world = ended at hnone ⊢
  obtain ⟨error | value, after⟩ := ended
  · exact ⟨error, after, rfl⟩
  · cases hnone

/-- A run whose path is known draws half a chart there. -/
theorem drawsAt_drawHalf {world : World} {input : String} {directory : Option String} {kind path : String} {clock : Clock}
    (hpath : ((prepare input directory kind clock).run.run world).1.toOption.map Prod.snd = some path) :
    DrawsAt input directory kind clock drawHalf world path (world.disk.write path [0x89]).2 := by
  obtain ⟨⟨table, _⟩, htable, rfl⟩ := Option.map_eq_some_iff.mp hpath
  obtain ⟨start, hprepare⟩ := exists_ok_of_toOption htable
  have hkeeps := keepsDisk_prepare input directory kind clock world
  rw [hprepare] at hkeeps
  refine ⟨table, start, hprepare, ?_⟩
  rw [disk_drawHalf, show start.disk = world.disk from hkeeps]

/-- Where nothing stood at the output path, not even the half that was drawn stays, unless the system refuses to have
    it removed. -/
theorem plotCsv_drawHalf_leaves_files :
    (∃ error after, (plotCsv "a.csv" (some "out") "line" sampleClock drawHalf).run.run (sampleWorld []) =
          (.error error, after) ∧
        ∀ location, after.disk.file? location = (sampleWorld []).disk.file? location) ∧
      ∃ error after, (plotCsv "a.csv" (some "out") "line" sampleClock drawHalf).run.run guardedWorld =
          (.error error, after) ∧
        guardedWorld.disk.file? sampleImage = none ∧
        after.disk.file? sampleImage = some (.file (.bytes [0x89])) := by
  have hpath : ((prepare "a.csv" (some "out") "line" sampleClock).run.run (sampleWorld [])).1.toOption.map Prod.snd =
      some "out/line-plot.20231114_221320.png" := by decide +kernel
  have hguarded : ((prepare "a.csv" (some "out") "line" sampleClock).run.run guardedWorld).1.toOption.map Prod.snd =
      some "out/line-plot.20231114_221320.png" := by decide +kernel
  obtain ⟨error, after, herror⟩ : ∃ error after,
      (plotCsv "a.csv" (some "out") "line" sampleClock drawHalf).run.run (sampleWorld []) = (.error error, after) :=
    exists_error_of_toOption (by decide +kernel)
  obtain ⟨fault, left, hfault⟩ : ∃ error after,
      (plotCsv "a.csv" (some "out") "line" sampleClock drawHalf).run.run guardedWorld = (.error error, after) :=
    exists_error_of_toOption (by decide +kernel)
  refine ⟨⟨error, after, herror, (plotCsv_error_keeps_files_iff touches_drawHalf herror).2.2.1.mpr ?_⟩,
    fault, left, hfault, by decide +kernel, ?_⟩
  · intro path drawn location hdraws hleads
    obtain ⟨rfl, rfl⟩ := (drawsAt_drawHalf hpath).eq hdraws
    have hwalk : ((sampleWorld []).disk.walk ((sampleWorld []).disk.start "out/line-plot.20231114_221320.png")
        (Path.names "out/line-plot.20231114_221320.png")).toOption = some sampleImage := by decide +kernel
    rw [hleads.2] at hwalk
    obtain rfl : location = sampleImage := Option.some.inj hwalk
    decide +kernel
  · have hleads : guardedWorld.disk.LeadsTo "out/line-plot.20231114_221320.png" sampleImage :=
      ⟨by decide +kernel, by decide +kernel⟩
    rw [(plotCsv_error_keeps_files_iff touches_drawHalf hfault).2.1 _ _ _ (drawsAt_drawHalf hguarded) hleads]
    decide +kernel

theorem touches_drawLine (table : Table) (path : String) : Touches path (drawLine table path) :=
  (makesFile_drawLine table path).touchesPath

/-- The line chart of a table without its columns fails before anything is drawn, and still takes away the
    finished image that an earlier run of the same second left at the output path. -/
theorem plotCsv_drawLine_removes_image :
    (∀ table path, Touches path (drawLine table path)) ∧
      ∃ error after, (plotCsv "a.csv" (some "out") "line" sampleClock drawLine).run.run
          (sampleWorld [(sampleImage, .file (.bytes [0x89]))]) = (.error error, after) ∧
        (sampleWorld [(sampleImage, .file (.bytes [0x89]))]).disk.file? sampleImage = some (.file (.bytes [0x89])) ∧
        after.disk.file? sampleImage = none := by
  obtain ⟨error, after, herror⟩ : ∃ error after,
      (plotCsv "a.csv" (some "out") "line" sampleClock drawLine).run.run
        (sampleWorld [(sampleImage, .file (.bytes [0x89]))]) = (.error error, after) :=
    exists_error_of_toOption (by decide +kernel)
  have hgone : ((plotCsv "a.csv" (some "out") "line" sampleClock drawLine).run.run
      (sampleWorld [(sampleImage, .file (.bytes [0x89]))])).2.disk.file? sampleImage = none := by decide +kernel
  rw [herror] at hgone
  exact ⟨touches_drawLine, error, after, herror, by decide +kernel, hgone⟩

end ExperimentCharts.Run
