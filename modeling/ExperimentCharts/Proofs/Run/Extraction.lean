import ExperimentCharts.Proofs.Run.Outcome

namespace ExperimentCharts

namespace Disk

variable {disk after : Disk} {path : String} {data kept : List UInt8} {location : Location}

/-- What is cut short fails and leaves the start of the data. -/
theorem CutShort.write_eq (hcut : disk.CutShort path data location kept) :
    disk.write path data = (.error .noSpace, disk.put location (.file (.bytes kept))) := by
  obtain ⟨hdestination, hallowed, hdevice, hroom, hstart, hproper⟩ := hcut
  have hkept := List.prefix_iff_eq_take.mp hstart
  have hfull : ¬ data.length ≤ kept.length := by omega
  rcases hnode : disk.node? location with _ | (_ | content | isFull)
  case some.device => exact absurd hnode (hdevice isFull)
  all_goals
    simp only [write, store, hdestination, hallowed, hnode, hroom, Content.toBytes, if_neg hfull, ← hkept]

/-- A write that fails changes nothing, or it is cut short. -/
theorem write_error_cases {error : FileError} (hwrite : disk.write path data = (.error error, after)) :
    after = disk ∨ ∃ location kept, disk.CutShort path data location kept := by
  have hstored := disk.store_stored path (.bytes data)
  rw [show disk.store path (.bytes data) = (.error error, after) from hwrite] at hstored
  cases hstored with
  | refused => exact .inl rfl
  | cutShort hcut => exact .inr ⟨_, _, hcut⟩

/-- A write that is cut short leaves what there was room for. -/
theorem CutShort.file?_write (hcut : disk.CutShort path data location kept) :
    (disk.write path data).2.file? location = some (.file (.bytes kept)) := by
  obtain ⟨hleads, hnode⟩ := leadsTo_of_destination hcut.destination
  obtain ⟨-, hput⟩ := (find_eq_ok_iff _ _ _ _).mp (find_put hleads hnode (.file (.bytes kept)))
  simp [hcut.write_eq, file?, hput]

/-- A write keeps all files but the one at its path. -/
theorem file?_write_of_ne {other : Location} (hdestination : disk.destination path = .ok location)
    (hne : other ≠ location) : (disk.write path data).2.file? other = disk.file? other := by
  have hnot : ¬ disk.LeadsTo path other := fun hleads =>
    hne (hleads.eq rfl (leadsTo_of_destination hdestination).1)
  rw [file?, file?, write, (TouchedFile.store path disk (.bytes data)).node?_eq other hnot]

end Disk

namespace Run

variable {Row : Type} {kind input path : String} {directory : Option String} {clock : Clock}
  {results : List AppResult} {world after : World}

/-- An extraction gets as far as writing the rows of some results to a path. -/
structure ReachesWrite (kind input : String) (directory : Option String) (clock : Clock) (world : World) (path : String)
    (results : List AppResult) : Prop where
  path_eq : ((dataOutput directory kind clock).run.run world).1 = .ok path
  results_eq : ((loadResults input).run.run world).1 = .ok results

section

variable (unit : String) (rowsOf : List AppResult → List Row) (encode : List Row → List UInt8)

/-- Once the results are loaded, it ends as the write does. -/
theorem extractTo_of_loadResults (kind path : String) (hload : ((loadResults input).run.run world).1 = .ok results) :
    ∃ after, (extractTo kind unit rowsOf encode input path).run.run world =
        ((world.disk.write path (encode (rowsOf results))).1.mapError fun error => .cannotWrite path error.message,
          after) ∧
      after.disk = (world.disk.write path (encode (rowsOf results))).2 := by
  have hkeeps := keepsDisk_loadResults input world
  generalize hended : (loadResults input).run.run world = ended at hload hkeeps
  obtain ⟨_, loaded⟩ := ended
  obtain rfl := hload
  rw [extractTo, run_bind, hended]
  dsimp only at hkeeps ⊢
  rw [← hkeeps]
  -- The notice in between changes the log and not the disk.
  change ∃ after, (writeData (encode (rowsOf results)) path >>= _).run.run { loaded with notices := _ } = _ ∧ _
  rw [run_bind, writeData, run_onDisk]
  generalize loaded.disk.write path (encode (rowsOf results)) = written
  obtain ⟨error | _, disk⟩ := written
  · exact ⟨_, rfl, rfl⟩
  · exact ⟨_, rfl, rfl⟩

/-- From there on the extraction is one write, and nothing is cleaned up after it. -/
theorem ReachesWrite.extract_eq (hreaches : ReachesWrite kind input directory clock world path results) :
    ∃ after, (extract kind unit rowsOf encode input directory clock).run.run world =
        (((world.disk.write path (encode (rowsOf results))).1.mapError fun error => .cannotWrite path error.message).map
          fun _ => path, after) ∧
      after.disk = (world.disk.write path (encode (rowsOf results))).2 := by
  obtain ⟨hpath, hresults⟩ := hreaches
  generalize hended : (dataOutput directory kind clock).run.run world = ended at hpath
  obtain ⟨_, start⟩ := ended
  obtain rfl := hpath
  obtain ⟨rfl, -⟩ := dataOutput_ok hended
  obtain ⟨after, hextract, hdisk⟩ := extractTo_of_loadResults unit rowsOf encode kind path hresults
  rw [extract_eq_bind, run_bind, hended]
  dsimp only
  rw [run_bind, hextract, ← hdisk]
  generalize start.disk.write path (encode (rowsOf results)) = written
  obtain ⟨error | _, disk⟩ := written
  · exact ⟨after, rfl, rfl⟩
  · exact ⟨after, rfl, rfl⟩

/-- An extraction that does not get as far as the write ends with an error and leaves the disk as it was. -/
theorem extract_of_not_reachesWrite
    (hnever : ¬ ∃ path results, ReachesWrite kind input directory clock world path results) :
    ∃ error after, (extract kind unit rowsOf encode input directory clock).run.run world = (.error error, after) ∧
      after.disk = world.disk := by
  have hkeeps := keepsDisk_dataOutput directory kind clock world
  rw [extract_eq_bind, run_bind]
  rcases houtput : (dataOutput directory kind clock).run.run world with ⟨error | path, start⟩
  · rw [houtput] at hkeeps
    exact ⟨error, start, rfl, hkeeps⟩
  · obtain ⟨rfl, -⟩ := dataOutput_ok houtput
    have hloading := keepsDisk_loadResults input start
    dsimp only
    rw [run_bind, extractTo, run_bind]
    rcases hload : (loadResults input).run.run start with ⟨error | results, loaded⟩
    · rw [hload] at hloading
      exact ⟨error, loaded, rfl, hloading⟩
    · exact absurd ⟨path, results, by rw [houtput], by rw [hload]⟩ hnever

end

variable {unit : String} {rowsOf : List AppResult → List Row} {encode : List Row → List UInt8}

/-- A failed extraction leaves all files as they were, unless it was cut short: then the start of its data stands at
    the output path, which is as before only if just that stood there. An error before the write, from the output path
    or from the results, has touched nothing. -/
theorem extract_error_keeps_files_iff {error : ChartError}
    (herror : (extract kind unit rowsOf encode input directory clock).run.run world = (.error error, after)) :
    (∀ location, after.disk.file? location = world.disk.file? location) ↔
      ∀ path results location kept, ReachesWrite kind input directory clock world path results →
        world.disk.CutShort path (encode (rowsOf results)) location kept →
        world.disk.file? location = some (.file (.bytes kept)) := by
  by_cases hreaches : ∃ path results, ReachesWrite kind input directory clock world path results
  · obtain ⟨path, results, hreaches⟩ := hreaches
    obtain ⟨ended, hextract, hdisk⟩ := hreaches.extract_eq unit rowsOf encode
    rw [hextract, Prod.mk.injEq] at herror
    obtain ⟨hfailed, rfl⟩ := herror
    rw [hdisk]
    constructor
    · intro hsame path' results' location kept hreaches' hcut
      obtain rfl : path = path' := Except.ok.inj (hreaches.path_eq.symm.trans hreaches'.path_eq)
      obtain rfl : results = results' := Except.ok.inj (hreaches.results_eq.symm.trans hreaches'.results_eq)
      rw [← hsame location, hcut.file?_write]
    · intro hstart other
      rcases hwrite : world.disk.write path (encode (rowsOf results)) with ⟨fault | _, disk⟩
      · obtain rfl | ⟨location, kept, hcut⟩ := Disk.write_error_cases hwrite
        · rfl
        · rw [← congrArg Prod.snd hwrite]
          by_cases hother : other = location
          · subst hother
            rw [hcut.file?_write, hstart path results other kept hreaches hcut]
          · exact Disk.file?_write_of_ne hcut.destination hother
      · simp [hwrite, Except.mapError, Except.map] at hfailed
  · obtain ⟨_, ended, hextract, hdisk⟩ := extract_of_not_reachesWrite unit rowsOf encode hreaches
    rw [hextract] at herror
    cases herror
    refine iff_of_true (fun location => by rw [hdisk]) ?_
    intro path results _ _ hreached
    exact absurd ⟨path, results, hreached⟩ hreaches

/-- Results without applications and a directory for their data, on a disk that has room for ten bytes. -/
def crampedWorld : World where
  disk := { nodes := [(["out"], .directory), (["r.json"], .file (.bytes (Text.encode "[]")))], home := [], room := some 10 }
  outputRoot := none
  notices := []
  printed := ""

/-- The header alone does not fit on such a disk, and its first ten bytes stay where no file was. -/
theorem extractArea_crampedWorld_leaves_start :
    ∃ error after, (extractArea "r.json" (some "out") sampleClock).run.run crampedWorld = (.error error, after) ∧
      crampedWorld.disk.file? ["out", "plot-area-data.2023-11-14-22-13-20.csv"] = none ∧
      after.disk.file? ["out", "plot-area-data.2023-11-14-22-13-20.csv"] =
        some (.file (.bytes (Text.encode "Frequency,"))) := by
  obtain ⟨error, after, herror⟩ : ∃ error after,
      (extractArea "r.json" (some "out") sampleClock).run.run crampedWorld = (.error error, after) :=
    exists_error_of_toOption (by decide +kernel)
  have hleft : ((extractArea "r.json" (some "out") sampleClock).run.run crampedWorld).2.disk.file?
      ["out", "plot-area-data.2023-11-14-22-13-20.csv"] = some (.file (.bytes (Text.encode "Frequency,"))) := by
    decide +kernel
  rw [herror] at hleft
  exact ⟨error, after, herror, by decide +kernel, hleft⟩

/-- An extraction that ends well touches nothing but the file at its path, which then holds the data of all rows of the
    loaded results, unless a device took it. -/
theorem extract_ok_holds_rows
    (hok : (extract kind unit rowsOf encode input directory clock).run.run world = (.ok path, after)) :
    Disk.TouchedFile path world.disk after.disk ∧
      ∃ results, ((loadResults input).run.run world).1 = .ok results ∧
        ((∀ location isFull, world.disk.find path ≠ .ok (location, .device isFull)) →
          after.disk.fileAt? path = some (.file (.bytes (encode (rowsOf results))))) := by
  by_cases hreaches : ∃ path results, ReachesWrite kind input directory clock world path results
  · obtain ⟨chosen, results, hreaches⟩ := hreaches
    obtain ⟨ended, hextract, hdisk⟩ := hreaches.extract_eq unit rowsOf encode
    rw [hextract, Prod.mk.injEq] at hok
    obtain ⟨hended, rfl⟩ := hok
    rcases hwrite : world.disk.write chosen (encode (rowsOf results)) with ⟨fault | _, disk⟩
    · simp [hwrite, Except.mapError, Except.map] at hended
    · obtain rfl : chosen = path := by simpa [hwrite, Except.mapError, Except.map] using hended
      rw [hdisk]
      refine ⟨.store chosen world.disk _, results, hreaches.results_eq, fun hdevice => ?_⟩
      obtain ⟨location, hfind⟩ | ⟨location, isFull, hfind, -⟩ := Disk.find_store hwrite
      · rw [hwrite]
        exact Disk.fileAt?_of_find hfind (by simp)
      · exact absurd hfind (hdevice location isFull)
  · obtain ⟨_, ended, hextract, -⟩ := extract_of_not_reachesWrite unit rowsOf encode hreaches
    rw [hextract] at hok
    cases hok

end Run

end ExperimentCharts
