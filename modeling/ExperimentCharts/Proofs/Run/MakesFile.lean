import ExperimentCharts.Proofs.Files.Touched
import ExperimentCharts.Run.Plot

namespace ExperimentCharts.Run

variable {α β : Type}

theorem run_bind (first : Run α) (next : α → Run β) (world : World) :
    (first >>= next).run.run world =
      match first.run.run world with
      | (.ok value, after) => (next value).run.run after
      | (.error error, after) => (.error error, after) := by
  change ExceptT.bind first next world = _
  simp only [ExceptT.bind, ExceptT.mk, ExceptT.run, StateT.run, bind, StateT.bind]
  rcases first world with ⟨_ | _, after⟩ <;> rfl

/-- A failed run is handed to the handler, with the world it left. -/
theorem run_tryCatch (first : Run α) (handle : ChartError → Run α) (world : World) :
    (tryCatch first handle).run.run world =
      match first.run.run world with
      | (.ok value, after) => (.ok value, after)
      | (.error error, after) => (handle error).run.run after := by
  change ExceptT.tryCatch first handle world = _
  simp only [ExceptT.tryCatch, ExceptT.mk, ExceptT.run, StateT.run, bind, StateT.bind]
  rcases first world with ⟨_ | _, after⟩ <;> rfl

/-- The run leaves the disk as it is. -/
def KeepsDisk (run : Run α) : Prop := ∀ world, (run.run.run world).2.disk = world.disk

theorem keepsDisk_pure (value : α) : KeepsDisk (pure value : Run α) := fun _ => rfl

theorem keepsDisk_throw (error : ChartError) : KeepsDisk (throw error : Run α) := fun _ => rfl

theorem keepsDisk_get : KeepsDisk (get : Run World) := fun _ => rfl

theorem keepsDisk_say (notices : List Notice) : KeepsDisk (say notices) := fun _ => rfl

theorem keepsDisk_ofExcept (result : Except ChartError α) : KeepsDisk (ofExcept result) := by
  intro world
  cases result <;> rfl

/-- Two runs that keep the disk keep it together. -/
theorem keepsDisk_bind {first : Run α} {next : α → Run β} (hfirst : KeepsDisk first)
    (hnext : ∀ value, KeepsDisk (next value)) : KeepsDisk (first >>= next) := by
  intro world
  have hdisk := hfirst world
  rw [run_bind]
  generalize first.run.run world = ended at hdisk ⊢
  obtain ⟨error | value, after⟩ := ended
  · exact hdisk
  · exact (hnext value after).trans hdisk

/-- The run touches nothing on the disk but the file at the path. -/
def TouchesFile (path : String) (run : Run α) : Prop :=
  ∀ world, Disk.TouchedFile path world.disk (run.run.run world).2.disk

variable {path : String}

/-- What keeps the disk touches no file. -/
theorem KeepsDisk.touchesFile {run : Run α} (hkeeps : KeepsDisk run) : TouchesFile path run := by
  intro world
  rw [hkeeps world]
  exact Disk.TouchedFile.refl path world.disk

theorem touchesFile_bind {first : Run α} {next : α → Run β} (hfirst : TouchesFile path first)
    (hnext : ∀ value, TouchesFile path (next value)) : TouchesFile path (first >>= next) := by
  intro world
  have htouched := hfirst world
  rw [run_bind]
  generalize first.run.run world = ended at htouched ⊢
  obtain ⟨error | value, after⟩ := ended
  · exact htouched
  · exact htouched.trans (hnext value after)

/-- An operation on the disk changes nothing else in the world. -/
theorem run_onDisk (operation : Disk → Except FileError Unit × Disk) (refused : FileError → ChartError)
    (world : World) :
    (onDisk operation refused).run.run world =
      ((operation world.disk).1.mapError refused, { world with disk := (operation world.disk).2 }) := by
  have hget : (get : Run World).run.run world = (.ok world, world) := rfl
  rw [onDisk, run_bind, hget]
  dsimp only
  rw [run_bind]
  obtain ⟨result, disk⟩ := operation world.disk
  cases result <;> rfl

theorem touchesFile_onDisk {operation : Disk → Except FileError Unit × Disk} {refused : FileError → ChartError}
    (hoperation : ∀ disk, Disk.TouchedFile path disk (operation disk).2) :
    TouchesFile path (onDisk operation refused) := by
  intro world
  rw [run_onDisk]
  exact hoperation world.disk

/-- The run touches nothing but the file at the path, and there is one if the run ends well. -/
structure MakesFile (path : String) (run : Run α) : Prop where
  touches : TouchesFile path run
  made : ∀ world value after, run.run.run world = (.ok value, after) → after.disk.fileAt? path ≠ none

/-- Two runs end well together if both do. -/
theorem exists_run_of_bind_ok {first : Run α} {next : α → Run β} {world after : World} {value : β}
    (hok : (first >>= next).run.run world = (.ok value, after)) :
    ∃ middle between, first.run.run world = (.ok middle, between) ∧
      (next middle).run.run between = (.ok value, after) := by
  rw [run_bind] at hok
  generalize first.run.run world = ended at hok
  obtain ⟨error | middle, between⟩ := ended
  · cases hok
  · exact ⟨middle, between, rfl, hok⟩

theorem exists_ok_of_toOption {ended : Except ChartError α × World} {value : α}
    (hsome : ended.1.toOption = some value) : ∃ after, ended = (.ok value, after) := by
  obtain ⟨error | _, after⟩ := ended
  · cases hsome
  · cases hsome
    exact ⟨after, rfl⟩

theorem makesFile_throw (error : ChartError) : MakesFile path (throw error : Run α) :=
  ⟨(keepsDisk_throw error).touchesFile, fun _ _ _ hok => nomatch hok⟩

/-- The file may be made by the last part of a run, if the first touches no other. -/
theorem makesFile_bind {first : Run α} {next : α → Run β} (hfirst : TouchesFile path first)
    (hnext : ∀ value, MakesFile path (next value)) : MakesFile path (first >>= next) := by
  refine ⟨touchesFile_bind hfirst fun value => (hnext value).touches, fun world value after hok => ?_⟩
  obtain ⟨middle, between, -, hrest⟩ := exists_run_of_bind_ok hok
  exact (hnext middle).made between value after hrest

/-- What follows the making of a file has to keep the disk. -/
theorem makesFile_bind_keepsDisk {first : Run α} {next : α → Run β} (hfirst : MakesFile path first)
    (hnext : ∀ value, KeepsDisk (next value)) : MakesFile path (first >>= next) := by
  refine ⟨touchesFile_bind hfirst.touches fun value => (hnext value).touchesFile, fun world value after hok => ?_⟩
  obtain ⟨middle, between, hmiddle, hrest⟩ := exists_run_of_bind_ok hok
  have hdisk := hnext middle between
  rw [hrest] at hdisk
  rw [show after.disk = between.disk from hdisk]
  exact hfirst.made world middle between hmiddle

theorem onDisk_ok {operation : Disk → Except FileError Unit × Disk} {refused : FileError → ChartError}
    {world after : World} (hok : (onDisk operation refused).run.run world = (.ok (), after)) :
    operation world.disk = (.ok (), after.disk) := by
  rw [run_onDisk, Prod.mk.injEq] at hok
  obtain ⟨hresult, rfl⟩ := hok
  rcases hoperation : operation world.disk with ⟨error | _, disk⟩
  · rw [hoperation] at hresult
    cases hresult
  · rfl

/-- An operation on the disk makes a file if it touches no other and there is one when it ends well. -/
theorem makesFile_onDisk {operation : Disk → Except FileError Unit × Disk} {refused : FileError → ChartError}
    (htouched : ∀ disk, Disk.TouchedFile path disk (operation disk).2)
    (hmade : ∀ disk after, operation disk = (.ok (), after) → after.fileAt? path ≠ none) :
    MakesFile path (onDisk operation refused) :=
  ⟨touchesFile_onDisk htouched, fun world _ after hok => hmade world.disk after.disk (onDisk_ok hok)⟩

/-- Storing makes a file, whatever is stored. -/
theorem makesFile_store (path : String) (content : Content) (refused : FileError → ChartError) :
    MakesFile path (onDisk (fun disk => disk.store path content) refused) :=
  makesFile_onDisk (fun disk => .store path disk content) fun _ _ => Disk.fileAt?_store

theorem makesFile_savePicture (drawing : Drawing) (path : String) : MakesFile path (savePicture drawing path) := by
  unfold savePicture
  refine makesFile_bind (keepsDisk_ofExcept _).touchesFile fun format => ?_
  split
  · exact makesFile_store path (.picture drawing) _
  · exact makesFile_bind (makesFile_store path (.bytes []) _).touches fun _ => makesFile_throw _

/-- The drawing of an area chart makes one file, its image, with any logarithms. -/
theorem makesFile_drawArea (log : Logarithms) (table : Table) (path : String) :
    MakesFile path (drawArea log table path) := by
  unfold drawArea plotArea
  refine makesFile_bind (keepsDisk_ofExcept _).touchesFile fun data => ?_
  refine makesFile_bind (keepsDisk_ofExcept _).touchesFile fun xRange => ?_
  refine makesFile_bind (keepsDisk_ofExcept _).touchesFile fun yRange => ?_
  refine makesFile_bind (keepsDisk_say _).touchesFile fun _ => ?_
  exact makesFile_savePicture _ path

theorem makesFile_drawBar (columns : Nat) (table : Table) (path : String) :
    MakesFile path (drawBar columns table path) := by
  unfold drawBar plotBar
  refine makesFile_bind (keepsDisk_say _).touchesFile fun _ => ?_
  refine makesFile_bind (keepsDisk_ofExcept _).touchesFile fun data => ?_
  have hsave : ∀ drawing : Drawing, MakesFile path (do
      say [data.layoutNotice (.ofColumns columns barWidth groupGap)]
      savePicture drawing path) :=
    fun drawing => makesFile_bind (keepsDisk_say _).touchesFile fun _ => makesFile_savePicture drawing path
  split
  · exact makesFile_bind (keepsDisk_throw _).touchesFile fun _ => hsave _
  · exact hsave _

theorem makesFile_drawLine (table : Table) (path : String) : MakesFile path (drawLine table path) := by
  unfold drawLine plotLine
  refine makesFile_bind (keepsDisk_say _).touchesFile fun _ => ?_
  refine makesFile_bind (keepsDisk_ofExcept _).touchesFile fun series => ?_
  exact makesFile_bind (keepsDisk_say _).touchesFile fun _ => makesFile_savePicture _ path

end ExperimentCharts.Run
