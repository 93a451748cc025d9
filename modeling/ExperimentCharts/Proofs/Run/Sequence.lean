import ExperimentCharts.Proofs.Run.Outcome
import ExperimentCharts.Proofs.Run.OutputNames

namespace ExperimentCharts.Run

/-- A way to draw charts that touches nothing but the file it draws. -/
structure Painter where
  draw : Table → String → Run Unit
  makesFile : ∀ table path, MakesFile path (draw table path)

inductive Chart where
  | area
  | bar
  | line

def Chart.kind : Chart → String
  | area => areaKind
  | bar => barKind
  | line => lineKind

def Chart.output : Chart → Output
  | area => .areaChart
  | bar => .barChart
  | line => .lineChart

inductive Task where
  | plot (chart : Chart) (painter : Painter)
  | extractArea
  | extractBar

def Task.output : Task → Output
  | plot chart _ => chart.output
  | extractArea => .areaData
  | extractBar => .barData

/-- A run of one of the programs, with all that it is given. -/
structure Job where
  task : Task
  input : String
  directory : Option String
  /-- The output root that the environment holds for this run. -/
  outputRoot : Option String
  clock : Clock

namespace Job

def run (job : Job) : Run String :=
  match job.task with
  | .plot chart painter => plotCsv job.input job.directory chart.kind job.clock painter.draw
  | .extractArea => Run.extractArea job.input job.directory job.clock
  | .extractBar => Run.extractBar job.input job.directory job.clock

/-- The programs that draw charts are jobs. -/
theorem run_plot (log : Logarithms) (columns : Nat) (input : String) (directory outputRoot : Option String)
    (clock : Clock) :
    run ⟨.plot .area ⟨drawArea log, makesFile_drawArea log⟩, input, directory, outputRoot, clock⟩ =
        Run.area log input directory clock ∧
      run ⟨.plot .bar ⟨drawBar columns, makesFile_drawBar columns⟩, input, directory, outputRoot, clock⟩ =
        Run.bar columns input directory clock ∧
      run ⟨.plot .line ⟨drawLine, makesFile_drawLine⟩, input, directory, outputRoot, clock⟩ =
        Run.line input directory clock :=
  ⟨rfl, rfl, rfl⟩

/-- The world in which a job runs. -/
def start (job : Job) (world : World) : World := { world with outputRoot := job.outputRoot }

/-- How a job ends, and the world after it. -/
def exec (job : Job) (world : World) : Except ChartError String × World := job.run.run.run (job.start world)

def name (job : Job) : String := job.task.output.name job.clock

theorem isProper_name (job : Job) : Path.IsProper job.name := Output.isProper_name job.clock job.task.output

/-- Jobs of different seconds have different outputs, whatever they do. -/
theorem name_ne_of_instant_lt {job later : Job} (hinstant : job.clock.instant < later.clock.instant)
    (hoffset : job.clock.offset = later.clock.offset) : job.name ≠ later.name :=
  fun heq => absurd (Output.eq_of_name_eq hoffset heq).2 (Int.ne_of_lt hinstant)

theorem plotName_eq_name (chart : Chart) (clock : Clock) :
    plotName chart.kind (Calendar.dateTime clock.instant clock.offset) = chart.output.name clock := by
  cases chart <;> rfl

/-- Every job touches nothing but the file of its own name. -/
theorem exec_outcome (job : Job) (world : World) : Outcome job.name world.disk (job.exec world) := by
  obtain ⟨task, input, directory, outputRoot, clock⟩ := job
  cases task with
  | plot chart painter =>
    have houtcome := plotCsv_outcome input directory chart.kind clock painter.makesFile { world with outputRoot }
    rw [plotName_eq_name] at houtcome
    exact houtcome
  | extractArea =>
    exact extract_outcome "area" "frequencies" areaRows areaCsv input directory clock { world with outputRoot }
  | extractBar =>
    exact extract_outcome "bar" "applications" barRows barCsv input directory clock { world with outputRoot }

/-- A chart run gets to draw at a path, and the drawing fails and leaves a world. -/
def FailsDrawing (job : Job) (world : World) (path : String) (failed : World) : Prop :=
  ∃ chart painter table begun error, job.task = .plot chart painter ∧
    (prepare job.input job.directory chart.kind job.clock).run.run (job.start world) = (.ok (table, path), begun) ∧
    (painter.draw table path).run.run begun = (.error error, failed)

variable {job : Job} {world failed : World} {path : String}

/-- A job that ends well has made the file of its name below a directory. -/
theorem exec_ok {after : World} (hok : job.exec world = (.ok path, after)) :
    after.disk.fileAt? path ≠ none ∧
      ∃ root, after.disk.isDirectory root = true ∧ path = Path.join root job.name := by
  have houtcome := job.exec_outcome world
  rw [hok] at houtcome
  cases houtcome with
  | made hroot htouched hfile => exact ⟨hfile, _, htouched.isDirectory hroot, rfl⟩

/-- Nothing is left where a drawing failed, unless the system refuses to have it removed. -/
theorem exec_of_failsDrawing (hfails : job.FailsDrawing world path failed) :
    (failed.disk.AllowsRemoval path → (job.exec world).2.disk.fileAt? path = none) ∧
      ∃ root, (job.exec world).2.disk.isDirectory root = true ∧ path = Path.join root job.name := by
  obtain ⟨task, input, directory, outputRoot, clock⟩ := job
  obtain ⟨chart, painter, table, begun, error, rfl, hprepare, hdraw⟩ := hfails
  obtain ⟨hdisk, root, hroot, hpath⟩ := prepare_ok hprepare
  obtain ⟨fault, after, hplot, hafter⟩ := plotCsv_of_draw_error hprepare hdraw
  have hexec : exec ⟨.plot chart painter, input, directory, outputRoot, clock⟩ world = (.error fault, after) := hplot
  have htouched := (painter.makesFile table path).touches begun
  rw [hdraw, hdisk] at htouched
  rw [hexec]
  dsimp only
  rw [hafter]
  refine ⟨fun hallowed => Disk.fileAt?_remove hallowed, root, ?_, ?_⟩
  · exact (htouched.trans (.remove path failed.disk)).isDirectory hroot
  · rw [hpath, name, Task.output, plotName_eq_name]

/-- The world after jobs that run one after the other. -/
def worldAfter (world : World) (jobs : List Job) : World :=
  jobs.foldl (fun world job => (job.exec world).2) world

/-- A job spares the files of other names. -/
theorem exec_sparedName {name : String} (hname : name ≠ job.name) (world : World) :
    Disk.SparedName name world.disk (job.exec world).2.disk := by
  have houtcome := job.exec_outcome world
  generalize job.exec world = ended at houtcome
  cases houtcome with
  | stopped hdisk =>
    dsimp only
    rw [hdisk]
    exact .refl name world.disk
  | failed hroot htouched => exact .of_touchedFile job.isProper_name hname htouched
  | made hroot htouched hfile => exact .of_touchedFile job.isProper_name hname htouched

/-- So do any number of jobs, each for the names that are not its own. -/
theorem worldAfter_sparedName {name : String} {jobs : List Job} (hjobs : ∀ job ∈ jobs, name ≠ job.name)
    (world : World) : Disk.SparedName name world.disk (worldAfter world jobs).disk := by
  induction jobs generalizing world with
  | nil => exact .refl name world.disk
  | cons job jobs ih =>
    rw [List.forall_mem_cons] at hjobs
    exact (exec_sparedName hjobs.1 world).trans (ih hjobs.2 (job.exec world).2)

theorem worldAfter_append_cons (world : World) (earlier later : List Job) (job : Job) :
    worldAfter world (earlier ++ job :: later) = worldAfter (job.exec (worldAfter world earlier)).2 later := by
  rw [worldAfter, List.foldl_append, List.foldl_cons]
  rfl

/-- After any number of further jobs, each in a later second, a file that a job has made is as the job left it,
    because no later output has its name. So is what stands where a drawing failed, which is nothing unless the system
    refused to have it removed. -/
theorem worldAfter_keeps_outputs (world : World) {jobs earlier later : List Job} {job : Job}
    (hclocks : jobs.Pairwise fun job later =>
      job.clock.instant < later.clock.instant ∧ job.clock.offset = later.clock.offset)
    (hbegins : earlier ++ job :: later <+: jobs) :
    (∀ path after, job.exec (worldAfter world earlier) = (.ok path, after) →
        after.disk.fileAt? path ≠ none ∧
          (worldAfter world (earlier ++ job :: later)).disk.fileAt? path = after.disk.fileAt? path) ∧
      ∀ path failed, job.FailsDrawing (worldAfter world earlier) path failed →
        (worldAfter world (earlier ++ job :: later)).disk.fileAt? path =
            (job.exec (worldAfter world earlier)).2.disk.fileAt? path ∧
          (failed.disk.AllowsRemoval path →
            (worldAfter world (earlier ++ job :: later)).disk.fileAt? path = none) := by
  -- The invariant of the later jobs: each has another name, and so spares whatever has the name of this one.
  have hnames : ∀ other ∈ later, job.name ≠ other.name := by
    have hsequence := (List.pairwise_append.mp (hclocks.sublist hbegins.sublist)).2.1
    intro other hother
    obtain ⟨hinstant, hoffset⟩ := (List.pairwise_cons.mp hsequence).1 other hother
    exact name_ne_of_instant_lt hinstant hoffset
  have hspared := worldAfter_sparedName hnames (job.exec (worldAfter world earlier)).2
  rw [worldAfter_append_cons]
  constructor
  · intro path after hok
    obtain ⟨hfile, root, hroot, rfl⟩ := exec_ok hok
    rw [hok] at hspared ⊢
    exact ⟨hfile, hspared.fileAt?_eq job.isProper_name hroot⟩
  · intro path failed hfails
    obtain ⟨hfile, root, hroot, rfl⟩ := exec_of_failsDrawing hfails
    rw [hspared.fileAt?_eq job.isProper_name hroot]
    exact ⟨rfl, hfile⟩

/-- Data that is extracted from empty results. -/
def sampleExtraction : Job := ⟨.extractArea, "r.json", some "out", none, sampleClock⟩

/-- A chart that is left half drawn, a second later. -/
def sampleChart : Job := ⟨.plot .line ⟨drawHalf, makesFile_drawHalf⟩, "a.csv", none, some "out", ⟨1700000001, 0⟩⟩

def sampleStart : World := sampleWorld [(["r.json"], .file (.bytes (Text.encode "[]")))]

theorem drawHalf_fails (table : Table) (path : String) (world : World) :
    ∃ error after, (drawHalf table path).run.run world = (.error error, after) := by
  rw [drawHalf, run_bind]
  generalize (onDisk _ _).run.run world = written
  obtain ⟨error | _, after⟩ := written
  · exact ⟨error, after, rfl⟩
  · exact ⟨_, after, rfl⟩

/-- The chart fails while its image is drawn, and the image may be removed. -/
theorem sampleChart_failsDrawing :
    ∃ failed, sampleChart.FailsDrawing (worldAfter sampleStart [sampleExtraction]) "out/line-plot.20231114_221321.png"
        failed ∧ failed.disk.AllowsRemoval "out/line-plot.20231114_221321.png" := by
  have hpath : ((prepare "a.csv" none lineKind sampleChart.clock).run.run
      (sampleChart.start (worldAfter sampleStart [sampleExtraction]))).1.toOption.map Prod.snd =
      some "out/line-plot.20231114_221321.png" := by
    decide +kernel
  obtain ⟨⟨table, _⟩, htable, rfl⟩ := Option.map_eq_some_iff.mp hpath
  obtain ⟨begun, hprepare⟩ := exists_ok_of_toOption htable
  obtain ⟨error, failed, hdraw⟩ := drawHalf_fails table "out/line-plot.20231114_221321.png" begun
  refine ⟨failed, ⟨.line, _, table, begun, error, rfl, hprepare, hdraw⟩, fun location hleads => ?_⟩
  have hfailed : failed.disk = ((worldAfter sampleStart [sampleExtraction]).disk.write
      "out/line-plot.20231114_221321.png" [0x89]).2 := by
    have hdrawn := disk_drawHalf table "out/line-plot.20231114_221321.png" begun
    rw [hdraw, (prepare_ok hprepare).1] at hdrawn
    exact hdrawn
  rw [hfailed] at hleads ⊢
  have hplace : ((worldAfter sampleStart [sampleExtraction]).disk.write
      "out/line-plot.20231114_221321.png" [0x89]).2.LeadsTo "out/line-plot.20231114_221321.png"
      ["out", "line-plot.20231114_221321.png"] :=
    ⟨by decide +kernel, by decide +kernel⟩
  rw [hleads.eq rfl hplace]
  decide +kernel

/-- The data stays, and nothing stands at the path of the chart. -/
theorem worldAfter_sampleExtraction_sampleChart :
    (worldAfter sampleStart [sampleExtraction, sampleChart]).disk.fileAt?
        "out/plot-area-data.2023-11-14-22-13-20.csv" ≠ none ∧
      (worldAfter sampleStart [sampleExtraction, sampleChart]).disk.fileAt?
        "out/line-plot.20231114_221321.png" = none := by
  have hclocks : [sampleExtraction, sampleChart].Pairwise fun job later =>
      job.clock.instant < later.clock.instant ∧ job.clock.offset = later.clock.offset := by
    decide
  constructor
  · have hpath : (sampleExtraction.exec sampleStart).1.toOption =
        some "out/plot-area-data.2023-11-14-22-13-20.csv" := by
      decide +kernel
    obtain ⟨after, hok⟩ := exists_ok_of_toOption hpath
    have hbegins : [] ++ sampleExtraction :: [sampleChart] <+: [sampleExtraction, sampleChart] := List.prefix_rfl
    obtain ⟨hfile, hkept⟩ := (worldAfter_keeps_outputs sampleStart hclocks hbegins).1 _ after hok
    exact fun hnone => hfile (hkept.symm.trans hnone)
  · have hbegins : [sampleExtraction] ++ sampleChart :: [] <+: [sampleExtraction, sampleChart] := List.prefix_rfl
    obtain ⟨failed, hfails, hallowed⟩ := sampleChart_failsDrawing
    exact ((worldAfter_keeps_outputs sampleStart hclocks hbegins).2 _ failed hfails).2 hallowed

end Job

end ExperimentCharts.Run
