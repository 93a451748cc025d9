import ExperimentCharts.Proofs.Calendar.Order
import ExperimentCharts.Proofs.Run.Outcome
import ExperimentCharts.Proofs.Run.OutputNames

namespace ExperimentCharts

/-- What follows a text without a separator joins its last part. -/
theorem Text.exists_split_append (separator : Char) (cs : List Char) :
    ∃ parts lead, ∀ rest, separator ∉ rest → split separator (cs ++ rest) = parts ++ [lead ++ rest] := by
  induction cs with
  | nil => exact ⟨[], [], fun rest hrest => split_of_not_mem hrest⟩
  | cons c cs ih =>
    obtain ⟨parts, lead, hsplit⟩ := ih
    by_cases hc : c = separator
    · refine ⟨[] :: parts, lead, fun rest hrest => ?_⟩
      rw [List.cons_append, split, if_pos hc, hsplit rest hrest, List.cons_append]
    · cases parts with
      | nil =>
        refine ⟨[], c :: lead, fun rest hrest => ?_⟩
        rw [List.cons_append, split, if_neg hc, hsplit rest hrest]
        rfl
      | cons part parts =>
        refine ⟨(c :: part) :: parts, lead, fun rest hrest => ?_⟩
        rw [List.cons_append, split, if_neg hc, hsplit rest hrest]
        rfl

namespace Path

/-- A path that goes on with three characters or more ends in the name of a file. -/
theorem exists_fileName?_append (path : String) :
    ∃ lead, ∀ rest : String, '/' ∉ rest.toList → 3 ≤ rest.length →
      fileName? (path ++ rest) = some (lead ++ rest.toList) := by
  obtain ⟨parts, lead, hsplit⟩ := Text.exists_split_append '/' path.toList
  refine ⟨lead, fun rest hslash hlength => ?_⟩
  have hlong : 3 ≤ (lead ++ rest.toList).length := by
    rw [List.length_append, String.length_toList]
    omega
  have hne : ∀ cs : List Char, cs.length < 3 → lead ++ rest.toList ≠ cs := by
    rintro cs hcs rfl
    omega
  rw [fileName?, String.toList_append, hsplit rest.toList hslash, List.filter_append,
    List.filter_cons_of_pos (by simp only [hne [] (by decide), hne ['.'] (by decide), ne_eq, not_false_eq_true,
      and_self, decide_true]), List.filter_nil, List.getLast?_concat]
  exact if_neg (hne ['.', '.'] (by decide))

theorem join_append (root rest : String) {lead : String} (hlead : lead ≠ "") :
    join root (lead ++ rest) = join root lead ++ rest := by
  have habsolute : isAbsolute (lead ++ rest) = isAbsolute lead := by
    obtain ⟨c, cs, hcs⟩ := List.exists_cons_of_ne_nil (mt String.toList_eq_nil_iff.mp hlead)
    simp [isAbsolute, hcs]
  unfold join
  rw [habsolute]
  split
  · rfl
  · split <;> simp only [String.append_assoc]

/-- Both paths end in the name of a file, and the first name sorts before the other. -/
def FileNamesAscend (path other : String) : Prop :=
  ∃ name otherName, fileName? path = some name ∧ fileName? other = some otherName ∧ name < otherName

theorem FileNamesAscend.ne {path other : String} (hascend : FileNamesAscend path other) : path ≠ other := by
  rintro rfl
  obtain ⟨name, otherName, hname, hother, hless⟩ := hascend
  obtain rfl : name = otherName := Option.some.inj (hname.symm.trans hother)
  exact List.lt_irrefl name hless

end Path

/-- Names that differ in their stamps only sort by time. -/
theorem fileNamesAscend_of_stamps (root lead ending : String) {items : List StampItem}
    {time later : DateTime} (hlead : lead ≠ "") (hending : '/' ∉ ending.toList ∧ 3 ≤ ending.length)
    (hitems : .literal '/' ∉ items) (htime : time.FitsStamp) (hlater : later.FitsStamp)
    (hless : items.map (StampItem.number time) < items.map (StampItem.number later)) :
    Path.FileNamesAscend (Path.join root (lead ++ stamp items time ++ ending))
      (Path.join root (lead ++ stamp items later ++ ending)) := by
  obtain ⟨front, hname⟩ := Path.exists_fileName?_append (Path.join root lead)
  have hstamped (time : DateTime) :
      Path.fileName? (Path.join root (lead ++ stamp items time ++ ending)) =
        some (front ++ ((stamp items time).toList ++ ending.toList)) := by
    rw [String.append_assoc, Path.join_append _ _ hlead, hname, String.toList_append]
    · rw [String.toList_append, List.mem_append, not_or]
      exact ⟨Output.slash_not_mem_stamp hitems time, hending.1⟩
    · rw [String.length_append]
      omega
  refine ⟨_, _, hstamped time, hstamped later, List.append_left_lt (append_lt_append_of_length_eq _ _ ?_ ?_)⟩
  · rw [String.length_toList, String.length_toList, length_stamp htime, length_stamp hlater]
  · exact String.lt_iff.mp (stamp_lt_stamp htime hlater hless)

/-- Of two charts of one kind below one root, the one of the earlier second has the file name that sorts first,
    whatever the zone, as long as its clocks show years of four digits; the time stamps have 15 characters. So it is
    with extracted data, whose stamps are in UTC and have 19. Hence no two seconds share a path. -/
theorem outputs_ascend {instant later : Int} (hlater : instant < later) (root kind : String) :
    (∀ offset, (Calendar.dateTime instant offset).InStampYears → (Calendar.dateTime later offset).InStampYears →
      (stamp plotStamp (Calendar.dateTime instant offset)).length = 15 ∧
        (stamp plotStamp (Calendar.dateTime later offset)).length = 15 ∧
        ∀ disk disk' path path', plotPath disk root kind ⟨instant, offset⟩ = .ok path →
          plotPath disk' root kind ⟨later, offset⟩ = .ok path' → Path.FileNamesAscend path path' ∧ path ≠ path') ∧
    ((Calendar.dateTime instant 0).InStampYears → (Calendar.dateTime later 0).InStampYears →
      (stamp dataStamp (Calendar.dateTime instant 0)).length = 19 ∧
        (stamp dataStamp (Calendar.dateTime later 0)).length = 19 ∧
        ∀ disk disk' offset offset' path path', dataPath disk root kind ⟨instant, offset⟩ = .ok path →
          dataPath disk' root kind ⟨later, offset'⟩ = .ok path' →
          Path.FileNamesAscend path path' ∧ path ≠ path') := by
  constructor
  · intro offset hyears hyears'
    have htime := Calendar.fitsStamp_dateTime hyears
    have htime' := Calendar.fitsStamp_dateTime hyears'
    have hless := (map_number_lt (Calendar.parts_dateTime_lt offset hlater)).1
    refine ⟨length_stamp htime plotStamp, length_stamp htime' plotStamp, ?_⟩
    intro disk disk' path path' hpath hpath'
    obtain ⟨-, rfl⟩ := (Run.outputPath_eq_ok_iff _ _ _ _).mp hpath
    obtain ⟨-, rfl⟩ := (Run.outputPath_eq_ok_iff _ _ _ _).mp hpath'
    have hascend := fileNamesAscend_of_stamps root (kind ++ "-plot.") ".png" (by simp) (by decide) (by decide) htime
      htime' hless
    exact ⟨hascend, hascend.ne⟩
  · intro hyears hyears'
    have htime := Calendar.fitsStamp_dateTime hyears
    have htime' := Calendar.fitsStamp_dateTime hyears'
    have hless := (map_number_lt (Calendar.parts_dateTime_lt 0 hlater)).2
    refine ⟨length_stamp htime dataStamp, length_stamp htime' dataStamp, ?_⟩
    intro disk disk' offset offset' path path' hpath hpath'
    obtain ⟨-, rfl⟩ := (Run.outputPath_eq_ok_iff _ _ _ _).mp hpath
    obtain ⟨-, rfl⟩ := (Run.outputPath_eq_ok_iff _ _ _ _).mp hpath'
    have hascend := fileNamesAscend_of_stamps root ("plot-" ++ kind ++ "-data.") ".csv" (by simp) (by decide)
      (by decide) htime htime' hless
    exact ⟨hascend, hascend.ne⟩

/-- A disk with a directory for outputs. -/
def outputDisk : Disk where
  nodes := [(["out"], .directory)]
  home := []

/-- The last second of a year and the first of the next, with a kind that has a directory in it. -/
theorem newYear_outputs_ascend :
    plotPath outputDisk "out" "a/line" ⟨1735689599, 0⟩ = .ok "out/a/line-plot.20241231_235959.png" ∧
      plotPath outputDisk "out" "a/line" ⟨1735689600, 0⟩ = .ok "out/a/line-plot.20250101_000000.png" ∧
      Path.FileNamesAscend "out/a/line-plot.20241231_235959.png" "out/a/line-plot.20250101_000000.png" := by
  have hpath : plotPath outputDisk "out" "a/line" ⟨1735689599, 0⟩ = .ok "out/a/line-plot.20241231_235959.png" := by
    rfl
  have hpath' : plotPath outputDisk "out" "a/line" ⟨1735689600, 0⟩ = .ok "out/a/line-plot.20250101_000000.png" := by
    rfl
  have hascend := (outputs_ascend (show (1735689599 : Int) < 1735689600 by decide) "out" "a/line").1 0
    (by decide +kernel) (by decide +kernel)
  exact ⟨hpath, hpath', (hascend.2.2 _ _ _ _ hpath hpath').1⟩

end ExperimentCharts
