import ExperimentCharts.Proofs.Files.Touched

namespace ExperimentCharts

theorem Text.split_ne_nil (separator : Char) (cs : List Char) : split separator cs ≠ [] := by
  cases cs with
  | nil => simp [split]
  | cons c cs =>
    rw [split]
    split
    · simp
    · split <;> simp

theorem Text.split_append (separator : Char) (cs rest : List Char) :
    split separator (cs ++ separator :: rest) = split separator cs ++ split separator rest := by
  induction cs with
  | nil => simp [split]
  | cons c cs ih =>
    rw [List.cons_append, split, split, ih]
    by_cases hc : c = separator
    · rw [if_pos hc, if_pos hc, List.cons_append]
    · rw [if_neg hc, if_neg hc]
      obtain ⟨part, parts, hparts⟩ := List.exists_cons_of_ne_nil (split_ne_nil separator cs)
      rw [hparts]
      rfl

theorem Text.split_of_not_mem {separator : Char} {cs : List Char} (hcs : separator ∉ cs) :
    split separator cs = [cs] := by
  induction cs with
  | nil => rfl
  | cons c cs ih =>
    rw [List.mem_cons, not_or] at hcs
    rw [split, if_neg (Ne.symm hcs.1), ih hcs.2]

namespace Path

/-- A name that stands for a file or directory of its own: one part of a path, and none of those that stand for
    a directory on the way. -/
structure IsProper (name : String) : Prop where
  no_slash : '/' ∉ name.toList
  ne_empty : name ≠ ""
  ne_dot : name ≠ "."
  ne_up : name ≠ ".."

/-- A name after a slash is one more name of the path. -/
theorem names_append_slash {path name : String} (hname : '/' ∉ name.toList) :
    names (path ++ "/" ++ name) = names path ++ [name] := by
  have hpath : (path ++ "/" ++ name).toList = path.toList ++ '/' :: name.toList := by
    simp
  rw [names, hpath, Text.split_append, Text.split_of_not_mem hname, List.map_append, List.map_singleton,
    String.ofList_toList, names]

theorem isAbsolute_eq_false {name : String} (hname : '/' ∉ name.toList) : isAbsolute name = false := by
  unfold isAbsolute
  cases hlist : name.toList with
  | nil => rfl
  | cons c cs =>
    rw [hlist] at hname
    have hc : c ≠ '/' := fun hc => hname (hc ▸ List.mem_cons_self)
    simp [hc]

/-- The name comes after the names of the root, or in place of the empty name that a slash at its end leaves. -/
theorem names_join (root : String) {name : String} (hname : '/' ∉ name.toList) :
    names (join root name) = names root ++ [name] ∨
      ∃ front, names root = front ++ [""] ∧ names (join root name) = front ++ [name] := by
  rw [join, if_neg (by simp [isAbsolute_eq_false hname])]
  by_cases hends : (root.isEmpty || root.toList.getLast? == some '/') = true
  · rw [if_pos hends]
    right
    rw [Bool.or_eq_true, String.isEmpty_iff, beq_iff_eq] at hends
    rcases hends with rfl | hslash
    · refine ⟨[], rfl, ?_⟩
      rw [String.empty_append, names, Text.split_of_not_mem hname, List.map_singleton, String.ofList_toList,
        List.nil_append]
    · obtain ⟨cs, hcs⟩ := List.getLast?_eq_some_iff.mp hslash
      have hroot : root = String.ofList cs ++ "/" ++ "" := by
        rw [← String.toList_inj, hcs]
        simp
      refine ⟨names (String.ofList cs), ?_, ?_⟩
      · rw [hroot, names_append_slash (by simp)]
      · rw [hroot, String.append_empty, names_append_slash hname]
  · rw [if_neg hends]
    exact .inl (names_append_slash hname)

/-- A name below a root starts where the root does. -/
theorem isAbsolute_join {root name : String} (hroot : root ≠ "") (hname : '/' ∉ name.toList) :
    isAbsolute (join root name) = isAbsolute root := by
  have hlist : root.toList ≠ [] := by
    rw [Ne, String.toList_eq_nil_iff]
    exact hroot
  rw [join, if_neg (by simp [isAbsolute_eq_false hname])]
  obtain ⟨c, cs, hcs⟩ := List.exists_cons_of_ne_nil hlist
  split <;> simp [isAbsolute, hcs]

end Path

namespace Disk

/-- The last name of a path is looked up in the directory that the others lead to. -/
theorem walk_concat_eq_ok_iff (disk : Disk) (location found : Location) (names : List String) (name : String) :
    disk.walk location (names ++ [name]) = .ok found ↔
      ∃ parent, disk.walk location names = .ok parent ∧ disk.node? parent = some .directory ∧
        next? parent name = some found := by
  induction names generalizing location with
  | nil =>
    rw [List.nil_append, walk_cons_eq_ok_iff]
    constructor
    · rintro ⟨hnode, place, hplace, hwalk⟩
      exact ⟨location, rfl, hnode, hplace.trans (congrArg some (Except.ok.inj hwalk))⟩
    · rintro ⟨parent, hparent, hnode, hfound⟩
      obtain rfl : location = parent := Except.ok.inj hparent
      exact ⟨hnode, found, hfound, rfl⟩
  | cons first names ih =>
    rw [List.cons_append, walk_cons_eq_ok_iff]
    constructor
    · rintro ⟨hnode, place, hplace, hwalk⟩
      obtain ⟨parent, hparent, hrest⟩ := (ih place).mp hwalk
      exact ⟨parent, (walk_cons_eq_ok_iff _ _ _ _ _).mpr ⟨hnode, place, hplace, hparent⟩, hrest⟩
    · rintro ⟨parent, hparent, hrest⟩
      obtain ⟨hnode, place, hplace, hwalk⟩ := (walk_cons_eq_ok_iff _ _ _ _ _).mp hparent
      exact ⟨hnode, place, hplace, (ih place).mpr ⟨parent, hwalk, hrest⟩⟩

/-- A proper name leads to the place of that name. -/
theorem eq_of_next? {location found : Location} {name : String} (hname : Path.IsProper name)
    (hnext : next? location name = some found) : found = location ++ [name] := by
  rw [next?, if_neg (by simp [hname.ne_empty, hname.ne_dot]), if_neg hname.ne_up] at hnext
  split at hnext
  · cases hnext
  · exact (Option.some.inj hnext).symm

/-- Wherever the path of a proper name leads, it leads to a place of that name. -/
theorem LeadsTo.getLast?_of_join {disk : Disk} {root name : String} {location : Location} (hname : Path.IsProper name)
    (hleads : disk.LeadsTo (Path.join root name) location) : location.getLast? = some name := by
  have hnames : ∃ front, Path.names (Path.join root name) = front ++ [name] :=
    (Path.names_join root hname.no_slash).elim (fun h => ⟨_, h⟩) fun ⟨front, _, h⟩ => ⟨front, h⟩
  obtain ⟨front, hfront⟩ := hnames
  have hwalk := hleads.2
  rw [hfront, walk_concat_eq_ok_iff] at hwalk
  obtain ⟨parent, -, -, hnext⟩ := hwalk
  rw [eq_of_next? hname hnext, List.getLast?_concat]

/-- A path is one of a directory if that is what stands where it leads. -/
theorem isDirectory_iff (disk : Disk) (path : String) :
    disk.isDirectory path = true ↔ ∃ location, disk.find path = .ok (location, .directory) := by
  unfold isDirectory
  split
  · rename_i location hfind
    exact iff_of_true rfl ⟨location, hfind⟩
  · rename_i hnot
    exact iff_of_false (by decide) fun ⟨location, hfind⟩ => hnot location hfind

/-- The names before the last one lead to the directory of the root. -/
theorem exists_walk_of_isDirectory {disk : Disk} {root name : String} (hname : '/' ∉ name.toList)
    (hroot : disk.isDirectory root = true) :
    ∃ front parent, Path.names (Path.join root name) = front ++ [name] ∧
      disk.walk (disk.start (Path.join root name)) front = .ok parent ∧ disk.node? parent = some .directory := by
  obtain ⟨parent, hfind⟩ := (disk.isDirectory_iff root).mp hroot
  obtain ⟨⟨hcheck, hwalk⟩, hnode⟩ := (disk.find_eq_ok_iff root parent .directory).mp hfind
  have hempty : root ≠ "" := by
    rintro rfl
    cases hcheck
  have hstart : disk.start (Path.join root name) = disk.start root := by
    rw [start, start, Path.isAbsolute_join hempty hname]
  rw [hstart]
  rcases Path.names_join root hname with hnames | ⟨front, hfront, hnames⟩
  · exact ⟨_, parent, hnames, hwalk, hnode⟩
  · rw [hfront, walk_concat_eq_ok_iff] at hwalk
    obtain ⟨place, hplace, hdirectory, -⟩ := hwalk
    exact ⟨front, place, hnames, hplace, hdirectory⟩

/-- The path of a name below a directory leads to one place at most, also after other files and directories have
    come and gone: it led there while the root was a directory. -/
theorem LeadsTo.of_isDirectory {disk other : Disk} {root name : String} {location : Location}
    (hhome : other.home = disk.home) (hname : '/' ∉ name.toList) (hroot : disk.isDirectory root = true)
    (hleads : other.LeadsTo (Path.join root name) location) : disk.LeadsTo (Path.join root name) location := by
  obtain ⟨front, parent, hnames, hwalk, hnode⟩ := exists_walk_of_isDirectory hname hroot
  obtain ⟨hcheck, hother⟩ := hleads
  have hstart : other.start (Path.join root name) = disk.start (Path.join root name) := by simp only [start, hhome]
  rw [hstart, hnames, walk_concat_eq_ok_iff] at hother
  obtain ⟨place, hplace, -, hnext⟩ := hother
  obtain rfl : parent = place := walk_eq_of_ok hwalk hplace
  refine ⟨hcheck, ?_⟩
  rw [hnames, walk_concat_eq_ok_iff]
  exact ⟨parent, hwalk, hnode, hnext⟩

/-- What happens to a disk if all directories stay, and all that has the name. -/
structure SparedName (name : String) (before after : Disk) : Prop where
  home : after.home = before.home
  node?_eq : ∀ location, location.getLast? = some name → after.node? location = before.node? location
  node?_of_directory : ∀ location, before.node? location = some .directory → after.node? location = some .directory

namespace SparedName

variable {name : String} {before middle after : Disk}

theorem refl (name : String) (disk : Disk) : SparedName name disk disk :=
  ⟨rfl, fun _ _ => rfl, fun _ hnode => hnode⟩

theorem trans (hfirst : SparedName name before middle) (hsecond : SparedName name middle after) :
    SparedName name before after :=
  ⟨hsecond.home.trans hfirst.home,
    fun location hlast => (hsecond.node?_eq location hlast).trans (hfirst.node?_eq location hlast),
    fun location hnode => hsecond.node?_of_directory location (hfirst.node?_of_directory location hnode)⟩

/-- Files are spared that have another name than the one that is touched, in whatever directory they are. -/
theorem of_touchedFile {root other : String} (hother : Path.IsProper other) (hne : name ≠ other)
    (htouched : TouchedFile (Path.join root other) before after) : SparedName name before after := by
  refine ⟨htouched.home, fun location hlast => htouched.node?_eq location fun hleads => ?_,
    htouched.node?_of_directory⟩
  rw [hleads.getLast?_of_join hother] at hlast
  exact hne (Option.some.inj hlast).symm

/-- The file of the name below a directory stays as it is, and none comes up if there was none. -/
theorem fileAt?_eq (hspared : SparedName name before after) {root : String} (hname : Path.IsProper name)
    (hroot : before.isDirectory root = true) :
    after.fileAt? (Path.join root name) = before.fileAt? (Path.join root name) := by
  have hfile : ∀ location, before.LeadsTo (Path.join root name) location →
      after.file? location = before.file? location := by
    intro location hleads
    rw [file?, file?, hspared.node?_eq location (hleads.getLast?_of_join hname)]
  apply Option.ext
  intro node
  rw [fileAt?_eq_some_iff, fileAt?_eq_some_iff]
  constructor
  · rintro ⟨location, hleads, hlocation⟩
    have hbefore := hleads.of_isDirectory hspared.home hname.no_slash hroot
    exact ⟨location, hbefore, hfile location hbefore ▸ hlocation⟩
  · rintro ⟨location, hleads, hlocation⟩
    exact ⟨location, hleads.of_directories hspared.home hspared.node?_of_directory,
      (hfile location hleads).trans hlocation⟩

end SparedName

/-- An operation on a file leaves all directories. -/
theorem TouchedFile.isDirectory {path root : String} {before after : Disk} (htouched : TouchedFile path before after)
    (hroot : before.isDirectory root = true) : after.isDirectory root = true := by
  obtain ⟨location, hfind⟩ := (before.isDirectory_iff root).mp hroot
  obtain ⟨hleads, hnode⟩ := (before.find_eq_ok_iff root location .directory).mp hfind
  refine (after.isDirectory_iff root).mpr ⟨location, (after.find_eq_ok_iff root location .directory).mpr ?_⟩
  exact ⟨htouched.leadsTo hleads, htouched.node?_of_directory location hnode⟩

end Disk

end ExperimentCharts
