import ExperimentCharts.Files.Disk
import Mathlib.Data.List.Basic

namespace ExperimentCharts.Disk

/-- The place that a path leads to, whether or not something stands there. -/
def LeadsTo (disk : Disk) (path : String) (location : Location) : Prop :=
  checkPath path = .ok () ∧ disk.walk (disk.start path) (Path.names path) = .ok location

/-- The file at a place: whatever stands there but a directory. -/
def file? (disk : Disk) (location : Location) : Option Node :=
  (disk.node? location).filter fun node => node ≠ .directory

/-- What is found under a path is what stands where it leads. -/
theorem find_eq_ok_iff (disk : Disk) (path : String) (location : Location) (node : Node) :
    disk.find path = .ok (location, node) ↔ disk.LeadsTo path location ∧ disk.node? location = some node := by
  unfold find LeadsTo
  cases hcheck : checkPath path with
  | error error => simp [bind, Except.bind]
  | ok _ =>
    cases hwalk : disk.walk (disk.start path) (Path.names path) with
    | error error => simp [bind, Except.bind]
    | ok found =>
      cases hnode : disk.node? found with
      | none =>
        simp only [bind, Except.bind, hnode, reduceCtorEq, Except.ok.injEq, true_and, false_iff, not_and]
        rintro rfl
        simp [hnode]
      | some other =>
        simp only [bind, Except.bind, hnode, Except.ok.injEq, Prod.mk.injEq, true_and]
        constructor
        · rintro ⟨rfl, rfl⟩
          exact ⟨rfl, hnode⟩
        · rintro ⟨rfl, hother⟩
          exact ⟨rfl, Option.some.inj (hnode.symm.trans hother)⟩

/-- The file that a path leads to. -/
def fileAt? (disk : Disk) (path : String) : Option Node :=
  match disk.find path with
  | .ok (location, _) => disk.file? location
  | .error _ => none

theorem fileAt?_eq_some_iff (disk : Disk) (path : String) (node : Node) :
    disk.fileAt? path = some node ↔ ∃ location, disk.LeadsTo path location ∧ disk.file? location = some node := by
  unfold fileAt?
  constructor
  · intro hfile
    split at hfile
    · rename_i location found hfind
      exact ⟨location, ((disk.find_eq_ok_iff path location found).mp hfind).1, hfile⟩
    · cases hfile
  · rintro ⟨location, hleads, hfile⟩
    have hnode : disk.node? location = some node := (Option.filter_eq_some_iff.mp hfile).1
    rw [(disk.find_eq_ok_iff path location node).mpr ⟨hleads, hnode⟩]
    exact hfile

/-- Where one name leads from a directory, if it can be a name at all. -/
def next? (location : Location) (name : String) : Option Location :=
  if name = "" ∨ name = "." then some location
  else if name = ".." then some location.dropLast
  else if nameLimit < name.utf8ByteSize then none
  else some (location ++ [name])

/-- A name is looked up in a directory, and the others from there. -/
theorem walk_cons_eq_ok_iff (disk : Disk) (location found : Location) (name : String) (names : List String) :
    disk.walk location (name :: names) = .ok found ↔ disk.node? location = some .directory ∧
      ∃ place, next? location name = some place ∧ disk.walk place names = .ok found := by
  rw [walk]
  split
  · simp [*]
  · simp only [next?, true_and, *]
    split
    · simp
    split
    · simp
    split <;> simp
  · rename_i node hother hnode
    simp only [hnode, Option.some.injEq, reduceCtorEq, false_iff, not_and]
    exact fun hdirectory => absurd hdirectory hother

/-- The names alone decide where a walk ends. -/
theorem walk_eq_of_ok {disk other : Disk} {location found found' : Location} {names : List String}
    (hwalk : disk.walk location names = .ok found) (hwalk' : other.walk location names = .ok found') :
    found = found' := by
  induction names generalizing location with
  | nil => exact Except.ok.inj (hwalk.symm.trans hwalk')
  | cons name names ih =>
    obtain ⟨-, place, hplace, hrest⟩ := (walk_cons_eq_ok_iff _ _ _ _ _).mp hwalk
    obtain ⟨-, place', hplace', hrest'⟩ := (walk_cons_eq_ok_iff _ _ _ _ _).mp hwalk'
    obtain rfl : place = place' := Option.some.inj (hplace.symm.trans hplace')
    exact ih hrest hrest'

/-- Only what stands in each place has a part in where names lead. -/
theorem walk_congr {disk other : Disk} (hnode : ∀ location, other.node? location = disk.node? location)
    (location : Location) (names : List String) : other.walk location names = disk.walk location names := by
  induction names generalizing location with
  | nil => rfl
  | cons name names ih => simp only [walk, hnode, ih]

/-- A walk needs directories only. -/
theorem walk_of_directories {disk other : Disk}
    (hdirectory : ∀ location, disk.node? location = some .directory → other.node? location = some .directory)
    {location found : Location} {names : List String} (hwalk : disk.walk location names = .ok found) :
    other.walk location names = .ok found := by
  induction names generalizing location with
  | nil => exact hwalk
  | cons name names ih =>
    rw [walk_cons_eq_ok_iff] at hwalk ⊢
    obtain ⟨hnode, place, hplace, hrest⟩ := hwalk
    exact ⟨hdirectory location hnode, place, hplace, ih hrest⟩

/-- Names alone decide where a path leads, if it can be followed at all. So a path that can be followed before and
    after an operation leads to the same place. -/
theorem LeadsTo.eq {disk other : Disk} {path : String} {location location' : Location}
    (hhome : other.home = disk.home) (hleads : disk.LeadsTo path location)
    (hleads' : other.LeadsTo path location') : location = location' := by
  have hstart : other.start path = disk.start path := by simp only [start, hhome]
  have hwalk' := hleads'.2
  rw [hstart] at hwalk'
  exact walk_eq_of_ok hleads.2 hwalk'

/-- Every path leads where it led as long as all directories stay. -/
theorem LeadsTo.of_directories {disk other : Disk} {path : String} {location : Location}
    (hleads : disk.LeadsTo path location) (hhome : other.home = disk.home)
    (hdirectory : ∀ place, disk.node? place = some .directory → other.node? place = some .directory) :
    other.LeadsTo path location := by
  have hstart : other.start path = disk.start path := by simp only [start, hhome]
  refine ⟨hleads.1, ?_⟩
  rw [hstart]
  exact walk_of_directories hdirectory hleads.2

/-- What an operation on a path does to a disk if it touches nothing but what the path leads to. A file that
    it leaves there is still found at the path. -/
structure Touched (path : String) (before after : Disk) : Prop where
  home : after.home = before.home
  node?_eq : ∀ location, ¬ before.LeadsTo path location → after.node? location = before.node? location
  found : ∀ location, before.LeadsTo path location → after.file? location ≠ none → after.LeadsTo path location

namespace Touched

variable {path : String} {before after : Disk}

/-- The path leads nowhere else afterwards. -/
theorem leadsTo_of_leadsTo (htouched : Touched path before after) {location : Location}
    (hleads : after.LeadsTo path location) : before.LeadsTo path location := by
  by_cases hsome : ∃ place, before.LeadsTo path place
  · obtain ⟨place, hplace⟩ := hsome
    exact LeadsTo.eq htouched.home hplace hleads ▸ hplace
  · -- A path that could not be followed leaves the disk as it was.
    have hnode : ∀ location, after.node? location = before.node? location :=
      fun location => htouched.node?_eq location fun hleads => hsome ⟨location, hleads⟩
    have hstart : after.start path = before.start path := by simp only [start, htouched.home]
    refine ⟨hleads.1, ?_⟩
    rw [← walk_congr hnode, ← hstart]
    exact hleads.2

end Touched

/-- What an operation on a path does to a disk if it touches nothing but a file that the path leads to: all
    directories stay. -/
structure TouchedFile (path : String) (before after : Disk) : Prop where
  home : after.home = before.home
  node?_eq : ∀ location, ¬ before.LeadsTo path location → after.node? location = before.node? location
  node?_of_directory : ∀ location, before.node? location = some .directory → after.node? location = some .directory

namespace TouchedFile

variable {path : String} {before middle after : Disk}

/-- All paths that could be followed still can, since the directories are all there. -/
theorem leadsTo (htouched : TouchedFile path before after) {other : String} {location : Location}
    (hleads : before.LeadsTo other location) : after.LeadsTo other location :=
  hleads.of_directories htouched.home htouched.node?_of_directory

/-- An operation that touches one file touches nothing else. -/
theorem touched (htouched : TouchedFile path before after) : Touched path before after :=
  ⟨htouched.home, htouched.node?_eq, fun _ hleads _ => htouched.leadsTo hleads⟩

theorem refl (path : String) (disk : Disk) : TouchedFile path disk disk :=
  ⟨rfl, fun _ _ => rfl, fun _ hnode => hnode⟩

/-- Two operations on the same file touch that file only, because its path leads to the same place for both. -/
theorem trans (hfirst : TouchedFile path before middle) (hsecond : TouchedFile path middle after) :
    TouchedFile path before after := by
  refine ⟨hsecond.home.trans hfirst.home, ?_, fun location hnode =>
    hsecond.node?_of_directory location (hfirst.node?_of_directory location hnode)⟩
  intro location hnot
  rw [hsecond.node?_eq location fun hleads => hnot (hfirst.touched.leadsTo_of_leadsTo hleads),
    hfirst.node?_eq location hnot]

end TouchedFile

theorem lookup_filter_ne (nodes : List (Location × Node)) (location other : Location) :
    (nodes.filter fun entry => entry.1 ≠ location).lookup other =
      if other = location then none else nodes.lookup other := by
  induction nodes with
  | nil => simp
  | cons entry nodes ih =>
    obtain ⟨place, node⟩ := entry
    by_cases hplace : place = location
    · rw [List.filter_cons_of_neg (by simp [hplace]), ih]
      by_cases hother : other = location
      · simp [hother]
      · rw [if_neg hother, if_neg hother, List.lookup_cons, hplace, beq_false_of_ne hother]
    · rw [List.filter_cons_of_pos (by simp [hplace]), List.lookup_cons, List.lookup_cons, ih]
      by_cases hother : other = location
      · simp [hother, beq_false_of_ne (Ne.symm hplace)]
      · simp [hother]

theorem node?_put_of_ne (disk : Disk) {location other : Location} (node : Node) (hne : other ≠ location) :
    (disk.put location node).node? other = disk.node? other := by
  simp only [node?, put, List.lookup_cons, beq_false_of_ne hne, lookup_filter_ne, if_neg hne]

theorem node?_erase_of_ne (disk : Disk) {location other : Location} (hne : other ≠ location) :
    (disk.erase location).node? other = disk.node? other := by
  simp only [node?, erase, lookup_filter_ne, if_neg hne]

theorem file?_erase (disk : Disk) (location : Location) : (disk.erase location).file? location = none := by
  simp only [file?, node?, erase, lookup_filter_ne, if_pos]
  split <;> rfl

/-- The root is a directory, so that other things stand elsewhere. -/
theorem ne_nil_of_node? {disk : Disk} {location : Location} (hnode : disk.node? location ≠ some .directory) :
    location ≠ [] := by
  rintro rfl
  exact hnode rfl

/-- A file put where the path leads touches nothing else. -/
theorem TouchedFile.put {path : String} {disk : Disk} {location : Location} (hleads : disk.LeadsTo path location)
    (hnode : disk.node? location ≠ some .directory) (node : Node) :
    TouchedFile path disk (disk.put location node) := by
  refine ⟨rfl, fun other hnot => ?_, fun other hother => ?_⟩
  · apply node?_put_of_ne
    rintro rfl
    exact hnot hleads
  · have hne : other ≠ location := by
      rintro rfl
      exact hnode hother
    rw [node?_put_of_ne disk node hne, hother]

/-- A file that was put where the path leads is found there. -/
theorem find_put {path : String} {disk : Disk} {location : Location} (hleads : disk.LeadsTo path location)
    (hnode : disk.node? location ≠ some .directory) (node : Node) :
    (disk.put location node).find path = .ok (location, node) := by
  rw [find_eq_ok_iff]
  refine ⟨(TouchedFile.put hleads hnode node).leadsTo hleads, ?_⟩
  simp [node?, put, ne_nil_of_node? hnode]

theorem walk_concat (disk : Disk) {location parent found : Location} {names : List String} {name : String}
    (hwalk : disk.walk location names = .ok parent) (hparent : disk.node? parent = some .directory)
    (hname : next? parent name = some found) : disk.walk location (names ++ [name]) = .ok found := by
  induction names generalizing location with
  | nil =>
    cases hwalk
    exact (walk_cons_eq_ok_iff _ _ _ _ _).mpr ⟨hparent, found, hname, rfl⟩
  | cons first names ih =>
    rw [List.cons_append, walk_cons_eq_ok_iff]
    obtain ⟨hnode, place, hplace, hrest⟩ := (walk_cons_eq_ok_iff _ _ _ _ _).mp hwalk
    exact ⟨hnode, place, hplace, ih hrest⟩

/-- Without slashes at its end a path has all of its names. -/
theorem eq_of_trimmed_length (names : List String)
    (hlength : names.length ≤ (names.reverse.dropWhile (· == "")).reverse.length) :
    (names.reverse.dropWhile (· == "")).reverse = names := by
  have hsuffix := List.dropWhile_suffix (l := names.reverse) (· == "")
  rw [List.length_reverse, ← List.length_reverse] at hlength
  rw [hsuffix.eq_of_length_le hlength, List.reverse_reverse]

theorem ne_empty_of_trimmed {names : List String} (htrimmed : (names.reverse.dropWhile (· == "")).reverse = names)
    {name : String} (hname : names.getLast? = some name) : name ≠ "" := by
  have hhead := List.head?_dropWhile_not (· == "") names.reverse
  rw [← htrimmed, List.getLast?_reverse] at hname
  rw [hname] at hhead
  simpa using hhead

/-- A file is made where its path leads, and not over a directory. -/
theorem leadsTo_of_destination {disk : Disk} {path : String} {location : Location}
    (hdestination : disk.destination path = .ok location) :
    disk.LeadsTo path location ∧ disk.node? location ≠ some .directory := by
  unfold destination at hdestination
  cases hcheck : checkPath path with
  | error error =>
    rw [hcheck] at hdestination
    cases hdestination
  | ok _ =>
    rw [hcheck] at hdestination
    simp only [bind, Except.bind] at hdestination
    split at hdestination
    · cases hdestination
    rename_i name hname
    split at hdestination
    · cases hdestination
    rename_i parent hwalk
    split at hdestination
    · cases hdestination
    · rename_i hparent
      split at hdestination
      · cases hdestination
      rename_i hplain
      split at hdestination
      · cases hdestination
      rename_i hlimit
      split at hdestination
      · cases hdestination
      rename_i hnode
      cases hdestination
      rw [not_or, not_or] at hplain
      obtain ⟨hlength, hdot, hup⟩ := hplain
      -- No slash was cut off at the end, so that the walk is along all names.
      have htrimmed := eq_of_trimmed_length (Path.names path) (Nat.not_lt.mp hlength)
      rw [htrimmed] at hwalk hname
      have hempty : name ≠ "" := ne_empty_of_trimmed htrimmed hname
      have hnext : next? parent name = some (parent ++ [name]) := by
        rw [next?, if_neg (by simp [hempty, hdot]), if_neg hup, if_neg hlimit]
      refine ⟨⟨hcheck, ?_⟩, hnode⟩
      rw [← List.dropLast_append_getLast? name hname]
      exact disk.walk_concat hwalk hparent hnext
    · cases hdestination

/-- A content is given to a file at a location, but the disk has room for a proper start of its bytes only. -/
structure CutShort (disk : Disk) (path : String) (data : List UInt8) (location : Location) (kept : List UInt8) :
    Prop where
  destination : disk.destination path = .ok location
  allowed : disk.writeRefusal? location = none
  not_device : ∀ isFull, disk.node? location ≠ some (.device isFull)
  room : disk.room = some kept.length
  start : kept <+: data
  proper : kept.length < data.length

/-- The ways for a file to be given its content. -/
inductive Stored (disk : Disk) (path : String) (content : Content) : Except FileError Unit × Disk → Prop
  /-- Nothing could be written. -/
  | refused {error : FileError} : Stored disk path content (.error error, disk)
  /-- A device took the content. -/
  | taken {location : Location} {isFull : Bool} (hfind : disk.find path = .ok (location, .device isFull)) :
      Stored disk path content (.ok (), disk)
  /-- The file holds the content. -/
  | made {location : Location} (hdestination : disk.destination path = .ok location) :
      Stored disk path content (.ok (), disk.put location (.file content))
  /-- The file holds what there was room for. -/
  | cutShort {location : Location} {kept : List UInt8} (hcut : disk.CutShort path content.toBytes location kept) :
      Stored disk path content (.error .noSpace, disk.put location (.file (.bytes kept)))

/-- Storing ends in one of these ways. -/
theorem store_stored (disk : Disk) (path : String) (content : Content) :
    Stored disk path content (disk.store path content) := by
  unfold store
  split
  · exact .refused
  rename_i location hdestination
  split
  · exact .refused
  · rename_i isFull _ hdevice
    split
    · exact .refused
    · have hleads := (leadsTo_of_destination hdestination).1
      exact .taken ((disk.find_eq_ok_iff path location _).mpr ⟨hleads, hdevice⟩)
  · exact .made hdestination
  · rename_i room hallowed hroom hnot
    split
    · exact .made hdestination
    · rename_i hfull
      have hlength : (content.toBytes.take room).length = room := List.length_take_of_le (by omega)
      refine .cutShort ⟨hdestination, hallowed, ?_, ?_, List.take_prefix _ _, ?_⟩
      · exact fun isFull hdevice => hnot isFull hdevice
      · rw [hlength, hroom]
      · omega

/-- Storing touches the file at its path only, also if it fails. -/
theorem TouchedFile.store (path : String) (disk : Disk) (content : Content) :
    TouchedFile path disk (disk.store path content).2 := by
  have hstored := disk.store_stored path content
  generalize disk.store path content = ended at hstored
  cases hstored with
  | refused => exact refl path disk
  | taken => exact refl path disk
  | made hdestination =>
    obtain ⟨hleads, hnode⟩ := leadsTo_of_destination hdestination
    exact put hleads hnode _
  | cutShort hcut =>
    obtain ⟨hleads, hnode⟩ := leadsTo_of_destination hcut.destination
    exact put hleads hnode _

/-- A content that could be stored is found at its path, unless a device took it. -/
theorem find_store {disk after : Disk} {path : String} {content : Content}
    (hstore : disk.store path content = (.ok (), after)) :
    (∃ location, after.find path = .ok (location, .file content)) ∨
      ∃ location isFull, disk.find path = .ok (location, .device isFull) ∧ after = disk := by
  have hstored := disk.store_stored path content
  rw [hstore] at hstored
  cases hstored with
  | taken hfind => exact .inr ⟨_, _, hfind, rfl⟩
  | made hdestination =>
    obtain ⟨hleads, hnode⟩ := leadsTo_of_destination hdestination
    exact .inl ⟨_, find_put hleads hnode _⟩

theorem fileAt?_of_find {disk : Disk} {path : String} {location : Location} {node : Node}
    (hfind : disk.find path = .ok (location, node)) (hnode : node ≠ .directory) : disk.fileAt? path = some node := by
  obtain ⟨hleads, hlocation⟩ := (disk.find_eq_ok_iff path location node).mp hfind
  refine (disk.fileAt?_eq_some_iff path node).mpr ⟨location, hleads, ?_⟩
  rw [file?, hlocation, Option.filter_some, if_pos (decide_eq_true hnode)]

/-- Some file is at the path after a content could be stored there. -/
theorem fileAt?_store {disk after : Disk} {path : String} {content : Content}
    (hstore : disk.store path content = (.ok (), after)) : after.fileAt? path ≠ none := by
  rcases find_store hstore with ⟨location, hfind⟩ | ⟨location, isFull, hfind, rfl⟩ <;>
    simp [fileAt?_of_find hfind]

/-- What removal does: nothing, unless the path leads to a file, which is then gone if the system allows. -/
theorem remove_cases (disk : Disk) (path : String) :
    ((disk.remove path).2 = disk ∧ ∀ location, disk.LeadsTo path location →
        disk.file? location = none ∨ disk.removalRefusal? location ≠ none) ∨
      ∃ location, disk.LeadsTo path location ∧ disk.node? location ≠ some .directory ∧
        disk.removalRefusal? location = none ∧ (disk.remove path).2 = disk.erase location := by
  unfold remove
  split
  · rename_i error herror
    refine .inl ⟨rfl, fun location hleads => .inl ?_⟩
    cases hnode : disk.node? location with
    | none => rw [file?, hnode, Option.filter_none]
    | some node =>
      rw [(disk.find_eq_ok_iff path location node).mpr ⟨hleads, hnode⟩] at herror
      cases herror
  · rename_i place hfind
    obtain ⟨hplace, hnode⟩ := (disk.find_eq_ok_iff path place .directory).mp hfind
    refine .inl ⟨rfl, fun location hleads => .inl ?_⟩
    rw [LeadsTo.eq rfl hleads hplace, file?, hnode]
    rfl
  · rename_i place node hother hfind
    obtain ⟨hplace, hnode⟩ := (disk.find_eq_ok_iff path place node).mp hfind
    cases hrefusal : disk.removalRefusal? place with
    | some error =>
      refine .inl ⟨rfl, fun location hleads => .inr ?_⟩
      rw [LeadsTo.eq rfl hleads hplace, hrefusal]
      exact Option.some_ne_none error
    | none =>
      refine .inr ⟨place, hplace, fun hdirectory => ?_, hrefusal, rfl⟩
      exact hother (Option.some.inj (hnode.symm.trans hdirectory))

/-- Removal touches the file at its path only. -/
theorem TouchedFile.remove (path : String) (disk : Disk) : TouchedFile path disk (disk.remove path).2 := by
  rcases disk.remove_cases path with ⟨hremove, -⟩ | ⟨place, hplace, hnode, -, hremove⟩
  · rw [hremove]
    exact refl path disk
  · rw [hremove]
    refine ⟨rfl, fun location hnot => ?_, fun location hlocation => ?_⟩
    · apply node?_erase_of_ne
      rintro rfl
      exact hnot hplace
    · have hne : location ≠ place := by
        rintro rfl
        exact hnode hlocation
      rw [node?_erase_of_ne disk hne, hlocation]

namespace Touched

variable {path : String} {before after : Disk}

/-- Where the path led before, removal takes away whatever file stands there now, unless it is refused: then the file
    stays as it is. -/
theorem file?_remove_of_leadsTo (htouched : Touched path before after) {location : Location}
    (hleads : before.LeadsTo path location) :
    (after.remove path).2.file? location =
      if after.removalRefusal? location = none then none else after.file? location := by
  rcases after.remove_cases path with ⟨hremove, hkept⟩ | ⟨place, hplace, -, hallowed, hremove⟩
  · rw [hremove]
    split
    · rename_i hallowed
      by_contra hfile
      rcases hkept location (htouched.found location hleads hfile) with hnone | hrefused
      · exact hfile hnone
      · exact hrefused hallowed
    · rfl
  · obtain rfl := LeadsTo.eq htouched.home hleads hplace
    rw [hremove, if_pos hallowed]
    exact after.file?_erase location

/-- Removal leaves every other file as it was before. -/
theorem file?_remove_of_not_leadsTo (htouched : Touched path before after) {location : Location}
    (hnot : ¬ before.LeadsTo path location) : (after.remove path).2.file? location = before.file? location := by
  have hremove := (TouchedFile.remove path after).node?_eq location fun hleads =>
    hnot (htouched.leadsTo_of_leadsTo hleads)
  rw [file?, file?, hremove, htouched.node?_eq location hnot]

end Touched

/-- The system lets the file that a path leads to be removed. -/
def AllowsRemoval (disk : Disk) (path : String) : Prop :=
  ∀ location, disk.LeadsTo path location → disk.removalRefusal? location = none

/-- No file is at the path after a removal that the system allowed. -/
theorem fileAt?_remove {path : String} {disk : Disk} (hallowed : disk.AllowsRemoval path) :
    (disk.remove path).2.fileAt? path = none := by
  by_contra hfile
  obtain ⟨node, hnode⟩ := Option.ne_none_iff_exists'.mp hfile
  obtain ⟨location, hleads, hlocation⟩ := (fileAt?_eq_some_iff _ path node).mp hnode
  have hbefore := (TouchedFile.remove path disk).touched.leadsTo_of_leadsTo hleads
  rw [(TouchedFile.refl path disk).touched.file?_remove_of_leadsTo hbefore, if_pos (hallowed location hbefore)] at hlocation
  cases hlocation

end ExperimentCharts.Disk
