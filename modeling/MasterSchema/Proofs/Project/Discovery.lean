import Mathlib.Data.List.Forall2
import Mathlib.Data.List.Pairwise
import MasterSchema.Proofs.FileTree.Traversal
import MasterSchema.Proofs.Namespace.Spelling
import MasterSchema.Proofs.Project.Records

/-!
# What a discovery finds

* Below a directory the names on the way say whether a file is a data file, and of which data type
  and namespace its records are (`ofNames?_eq`).
* A visit succeeds exactly if every directory can be listed, no two files hold records of one data
  type and every file is loaded; its buckets are those of the files in order (`visit_eq_ok`).
* A traversal goes through every data file below a directory, and two of them are of one data type
  only if they lie side by side (`mem_dataFiles`, `single_iff`).
* A directory below can be listed unless its path is too long (`listed_iff`).
* In whatever order the tree lists its entries, the discovery is the same (`discover_congr`).
-/

namespace MasterSchema

open RecordFile

/-! ## 1. Files below a directory -/

/-- Whether a file of such a location is a data file: its last name has a data file's extension. -/
def isDataLocation (names : Location) : Bool :=
  names.getLast?.any fun name => ((Path.cutAtDot name).2.bind DataFormat.ofExtension?).isSome

/-- The last name without its extension. -/
def stemOf (names : Location) : String :=
  (names.getLast?.elim "" fun name => (Path.cutAtDot name).1)

namespace RecordFile

/-- The record file at the end of names on the way from a directory. -/
def below (dir : Path) (names : Location) : RecordFile :=
  ⟨pathBelow dir names, ⟨names.dropLast⟩, stemOf names⟩

theorem sameType_below {dir : Path} {a b : Location} :
    (below dir a).sameType (below dir b) = true
      ↔ a.dropLast = b.dropLast ∧ stemOf a = stemOf b := by
  simp [sameType, below]

/-- The namespace of a file is made of the directories on the way to it. -/
theorem namespaceOf_eq {names : Location} (h : ∀ name ∈ names, isFileName name = true) :
    namespaceOf names = ⟨names.dropLast⟩ := by
  have hproper : Namespace.Proper ⟨names.dropLast⟩ := by
    intro name hm
    have hname : FileName name := fileName_of_isFileName (h name (List.dropLast_subset names hm))
    exact ⟨hname.ne_empty, hname.slash, hname.ne_here⟩
  exact Namespace.ofDirectory_directory hproper

theorem fileName_pathBelow {dir : Path} {front : Location} {name : String}
    (h : ∀ other ∈ front ++ [name], isFileName other = true) :
    (pathBelow dir (front ++ [name])).fileName = some name := by
  refine Path.fileName_of_getLast? ?_
  rw [steps_pathBelow _ _ h, List.map_append, ← List.append_assoc]
  exact List.getLast?_concat

/-- **A file below a directory is a record file if it is a data file.** -/
theorem ofNames?_eq (dir : Path) {names : Location} (hne : names ≠ [])
    (h : ∀ name ∈ names, isFileName name = true) :
    ofNames? dir names = if isDataLocation names then some (below dir names) else none := by
  obtain ⟨front, name, rfl⟩ := (List.eq_nil_or_concat' names).resolve_left hne
  have hfile : (pathBelow dir (front ++ [name])).fileName = some name := fileName_pathBelow h
  have hformat : DataFormat.ofPath? (pathBelow dir (front ++ [name]))
      = (Path.cutAtDot name).2.bind DataFormat.ofExtension? := by
    rw [DataFormat.ofPath?, Path.extension, hfile]
    rfl
  have hstem : (pathBelow dir (front ++ [name])).stem = some (Path.cutAtDot name).1 := by
    rw [Path.stem, hfile]
    rfl
  have hdata : isDataLocation (front ++ [name])
      = ((Path.cutAtDot name).2.bind DataFormat.ofExtension?).isSome := by
    simp [isDataLocation]
  have hbelow : stemOf (front ++ [name]) = (Path.cutAtDot name).1 := by
    simp [stemOf]
  unfold ofNames?
  simp only [hformat, hstem, hdata, below, hbelow, namespaceOf_eq h]
  cases (Path.cutAtDot name).2.bind DataFormat.ofExtension? <;> rfl

end RecordFile

namespace Discovery

variable {fs : FileSystem} {dir : Path} {key : String} {place : Location}

/-! ## 2. Visits -/

/-- The record files among entries. -/
def recordFiles (dir : Path) (entries : List (Location × Entry)) : List RecordFile :=
  entries.filterMap fun x =>
    match x.2 with
    | .file _ => ofNames? dir x.1
    | .directory => none

theorem recordFiles_directory (names : Location) (rest : List (Location × Entry)) :
    recordFiles dir ((names, .directory) :: rest) = recordFiles dir rest :=
  List.filterMap_cons_none rfl

theorem recordFiles_skipped {names : Location} (h : ofNames? dir names = none)
    (content : ByteArray) (rest : List (Location × Entry)) :
    recordFiles dir ((names, .file content) :: rest) = recordFiles dir rest :=
  List.filterMap_cons_none h

theorem recordFiles_file {names : Location} {file : RecordFile}
    (h : ofNames? dir names = some file) (content : ByteArray) (rest : List (Location × Entry)) :
    recordFiles dir ((names, .file content) :: rest) = file :: recordFiles dir rest :=
  List.filterMap_cons_some h

/-- A bucket holds the records of a file. -/
def Loaded (fs : FileSystem) (key : String) (file : RecordFile) (bucket : RecordBucket) : Prop :=
  ∃ records, DataFile.rootTable fs file.path key = .ok records
    ∧ bucket = ⟨file.ns, file.dataType, records⟩

theorem bucket_eq_ok {file : RecordFile} {b : RecordBucket} :
    (bucket fs key file).result = .ok b ↔ Loaded fs key file b := by
  unfold bucket Loaded
  cases DataFile.rootTable fs file.path key with
  | error e =>
    refine iff_of_false (fun h => nomatch h) fun h => ?_
    obtain ⟨_, h, _⟩ := h
    cases h
  | ok records => simp [eq_comm]

/-- What a visit of entries has gone through when it gives buckets, `seen` being the files
before. -/
@[mk_iff]
structure Visited (fs : FileSystem) (dir : Path) (key : String) (seen : List RecordFile)
    (entries : List (Location × Entry)) (buckets : List RecordBucket) : Prop where
  listed : ∀ x ∈ entries, x.2 = .directory → ∃ found, fs.find (pathBelow dir x.1) = .ok found
  unseen : ∀ file ∈ recordFiles dir entries, ∀ before ∈ seen, file.sameType before = false
  single : (recordFiles dir entries).Pairwise fun before file => file.sameType before = false
  loaded : List.Forall₂ (Loaded fs key) (recordFiles dir entries) buckets

section Steps

variable {seen : List RecordFile} {buckets : List RecordBucket} {names : Location}
  {content : ByteArray} {rest : List (Location × Entry)}

theorem visit_directory : visit fs dir key seen ((names, .directory) :: rest)
    = match fs.find (pathBelow dir names) with
      | .error fault => .fail (.unlistable dir (pathBelow dir names) fault)
      | .ok _ => visit fs dir key seen rest := rfl

theorem visit_file : visit fs dir key seen ((names, .file content) :: rest)
    = match ofNames? dir names with
      | none => .after [.fileSkipped (pathBelow dir names)] (visit fs dir key seen rest)
      | some file =>
        match seen.find? file.sameType with
        | some before => .fail (.conflictingFormats before.path file.path)
        | none =>
          (bucket fs key file).andThen fun first =>
            (visit fs dir key (seen ++ [file]) rest).andThen fun more => .ok (first :: more) := rfl

theorem visited_directory : Visited fs dir key seen ((names, .directory) :: rest) buckets ↔
    (∃ found, fs.find (pathBelow dir names) = .ok found)
      ∧ Visited fs dir key seen rest buckets := by
  simp only [visited_iff, recordFiles_directory, List.forall_mem_cons, forall_const, and_assoc]

theorem visited_skipped (h : ofNames? dir names = none) :
    Visited fs dir key seen ((names, .file content) :: rest) buckets ↔
      Visited fs dir key seen rest buckets := by
  simp only [visited_iff, recordFiles_skipped h, List.forall_mem_cons, reduceCtorEq,
    false_implies, true_and]

/-- A file is loaded if none of its data type was seen before, and is seen by all after it. -/
theorem visited_file {file : RecordFile} (h : ofNames? dir names = some file) :
    Visited fs dir key seen ((names, .file content) :: rest) buckets ↔
      (∀ before ∈ seen, file.sameType before = false) ∧ ∃ first more, Loaded fs key file first
        ∧ Visited fs dir key (seen ++ [file]) rest more ∧ buckets = first :: more := by
  simp only [visited_iff, recordFiles_file h, List.forall_mem_cons, reduceCtorEq, false_implies,
    true_and, List.pairwise_cons, List.forall₂_cons_left_iff, List.forall_mem_append]
  constructor
  · intro hall
    obtain ⟨hlisted, ⟨hnew, hunseen⟩, ⟨hlater, hsingle⟩, first, more, hfirst, hmore, rfl⟩ := hall
    refine ⟨hnew, first, more, hfirst, ⟨hlisted, fun other ho => ⟨hunseen other ho, ?_⟩, hsingle,
      hmore⟩, rfl⟩
    simpa using hlater other ho
  · intro hall
    obtain ⟨hnew, first, more, hfirst, ⟨hlisted, hunseen, hsingle, hmore⟩, rfl⟩ := hall
    refine ⟨hlisted, ⟨hnew, fun other ho => (hunseen other ho).1⟩, ⟨fun other ho => ?_, hsingle⟩,
      first, more, hfirst, hmore, rfl⟩
    exact (hunseen other ho).2.1

end Steps

/-- **A visit succeeds exactly if every directory can be listed, no two files hold records of one
data type and every file is loaded.** -/
theorem visit_eq_ok : ∀ {entries : List (Location × Entry)} {seen : List RecordFile}
    {buckets : List RecordBucket}, (visit fs dir key seen entries).result = .ok buckets ↔
      Visited fs dir key seen entries buckets
  | [], seen, buckets => by
      rw [visited_iff]
      constructor
      · intro h
        obtain rfl := Except.ok.inj h
        exact ⟨List.forall_mem_nil _, List.forall_mem_nil _, .nil, .nil⟩
      · intro h
        rw [List.forall₂_nil_left_iff.1 h.2.2.2]
        rfl
  | (names, .directory) :: rest, seen, buckets => by
      rw [visited_directory, visit_directory]
      cases fs.find (pathBelow dir names) with
      | error fault =>
        refine iff_of_false (fun h => nomatch h) fun h => ?_
        obtain ⟨⟨found, hfound⟩, _⟩ := h
        cases hfound
      | ok found => exact visit_eq_ok.trans ⟨fun h => ⟨⟨found, rfl⟩, h⟩, fun h => h.2⟩
  | (names, .file content) :: rest, seen, buckets => by
      cases hfile : ofNames? dir names with
      | none =>
        rw [visited_skipped hfile, ← visit_eq_ok, visit_file, hfile]
        exact Iff.rfl
      | some file =>
        rw [visited_file hfile, visit_file, hfile]
        dsimp only
        cases hseen : seen.find? file.sameType with
        | some before =>
          refine iff_of_false (fun h => nomatch h) fun h => ?_
          have hsame := List.find?_some hseen
          rw [h.1 before (List.mem_of_find?_eq_some hseen)] at hsame
          cases hsame
        | none =>
          have hnew : ∀ before ∈ seen, file.sameType before = false := fun before hm =>
            Bool.eq_false_iff.2 (List.find?_eq_none.1 hseen before hm)
          simp only [Logged.andThen_eq_ok, bucket_eq_ok, visit_eq_ok]
          constructor
          · intro h
            obtain ⟨first, hfirst, more, hmore, heq⟩ := h
            exact ⟨hnew, first, more, hfirst, hmore, (Except.ok.inj heq).symm⟩
          · intro h
            obtain ⟨_, first, more, hfirst, hmore, rfl⟩ := h
            exact ⟨first, hfirst, more, hmore, rfl⟩

/-! ## 3. Data files -/

/-- The names on the way to a data file below a location. -/
structure IsDataFile (t : FileTree) (place names : Location) : Prop where
  stored : ∃ content, t.get? (place ++ names) = some (.file content)
  extension : ∃ name, names.getLast? = some name
    ∧ (Path.cutAtDot name).2 ∈ [some "ron", some "toml", some "json"]

/-- The location of an entry that is a data file. -/
def dataFile? : Location × Entry → Option Location
  | (names, .file _) => if isDataLocation names then some names else none
  | (_, .directory) => none

/-- The data files below a location in the order of a traversal. -/
def dataFiles (t : FileTree) (place : Location) : List Location :=
  (t.traversal place).filterMap dataFile?

theorem isDataName_iff {name : String} :
    IsDataName name ↔ (Path.cutAtDot name).2 ∈ [some "ron", some "toml", some "json"] := by
  unfold IsDataName
  cases (Path.cutAtDot name).2 with
  | none => simp
  | some extension =>
    simp only [Option.bind_some, DataFormat.ofExtension?, beq_iff_eq, List.mem_cons,
      Option.some.injEq, List.not_mem_nil, or_false]
    split_ifs <;> simp [*]

theorem isDataLocation_iff {names : Location} : isDataLocation names = true ↔
    ∃ name, names.getLast? = some name
      ∧ (Path.cutAtDot name).2 ∈ [some "ron", some "toml", some "json"] := by
  rw [isDataLocation, Option.any_eq_true]
  exact exists_congr fun name => and_congr_right fun _ => isDataName_iff

theorem dataFile?_eq_some {x : Location × Entry} {names : Location} :
    dataFile? x = some names
      ↔ (∃ content, x = (names, .file content)) ∧ isDataLocation names = true := by
  obtain ⟨other, e⟩ := x
  cases e with
  | directory => simp [dataFile?]
  | file content =>
    rw [dataFile?, Option.ite_none_right_eq_some, Option.some_inj]
    constructor
    · rintro ⟨hdata, rfl⟩
      exact ⟨⟨content, rfl⟩, hdata⟩
    · rintro ⟨⟨_, heq⟩, hdata⟩
      obtain ⟨rfl, _⟩ := Prod.mk.inj heq
      exact ⟨hdata, rfl⟩

/-- **The data files among what a traversal goes through are those below the location.** -/
theorem mem_dataFiles {t : FileTree} {names : Location} :
    names ∈ dataFiles t place ↔ IsDataFile t place names := by
  rw [dataFiles, List.mem_filterMap]
  constructor
  · intro hsome
    obtain ⟨x, hm, hx⟩ := hsome
    obtain ⟨⟨content, rfl⟩, hdata⟩ := dataFile?_eq_some.1 hx
    exact ⟨⟨content, (FileTree.mem_traversal.1 hm).2⟩, isDataLocation_iff.1 hdata⟩
  · intro h
    obtain ⟨⟨content, hget⟩, hextension⟩ := h
    have hne : names ≠ [] := by
      obtain ⟨name, hlast, _⟩ := hextension
      rintro rfl
      cases hlast
    exact ⟨(names, .file content), FileTree.mem_traversal.2 ⟨hne, hget⟩,
      dataFile?_eq_some.2 ⟨⟨content, rfl⟩, isDataLocation_iff.2 hextension⟩⟩

/-- The data files are those among the files below the location. -/
theorem dataFiles_eq (t : FileTree) (place : Location) :
    dataFiles t place = (filesBelow t place).filter isDataLocation := by
  rw [dataFiles, filesBelow, FileTree.traversal_eq_below, List.filter_filterMap]
  refine List.filterMap_congr ?_
  rintro ⟨names, e⟩ _
  cases e with
  | directory => rfl
  | file content => simp [dataFile?, Option.filter_some]

theorem pairwise_dataFiles (t : FileTree) (place : Location) :
    (dataFiles t place).Pairwise fun a b => a < b := by
  refine List.pairwise_filterMap.2 ((FileTree.pairwise_traversal t place).imp ?_)
  intro x y hlt a ha b hb
  obtain ⟨⟨_, rfl⟩, _⟩ := dataFile?_eq_some.1 ha
  obtain ⟨⟨_, rfl⟩, _⟩ := dataFile?_eq_some.1 hb
  exact hlt

theorem recordFiles_traversal (t : FileTree) (dir : Path) (place : Location) :
    recordFiles dir (t.traversal place) = (dataFiles t place).map (below dir) := by
  rw [recordFiles, dataFiles, List.map_filterMap]
  refine List.filterMap_congr ?_
  rintro ⟨names, e⟩ hm
  obtain ⟨hne, hget⟩ := FileTree.mem_traversal.1 hm
  cases e with
  | directory => rfl
  | file content =>
    refine (ofNames?_eq dir hne (FileTree.isFileName_of_get? hget)).trans ?_
    rw [dataFile?]
    cases isDataLocation names <;> rfl

/-! ## 4. What is found -/

/-- What a discovery asks of its directory. -/
structure Discoverable (fs : FileSystem) (dir : Path) (key : String) (place : Location) : Prop where
  found : fs.find dir = .ok (place, .directory)
  /-- No path of a directory is too long. -/
  listable : ∀ names, names ≠ [] → fs.tree.get? (place ++ names) = some .directory →
    (pathBelow dir names).text.utf8ByteSize ≤ Path.maxBytes
  loads : ∀ names, IsDataFile fs.tree place names →
    ∃ records, DataFile.rootTable fs (pathBelow dir names) key = .ok records
  /-- Data files of one directory differ before their extensions. -/
  single : ∀ a b, IsDataFile fs.tree place a → IsDataFile fs.tree place b →
    a.dropLast = b.dropLast → stemOf a = stemOf b → a = b

/-- The bucket of a data file. -/
structure BucketOf (fs : FileSystem) (dir : Path) (key : String) (names : Location)
    (bucket : RecordBucket) : Prop where
  ns : bucket.ns.segments = names.dropLast
  dataType : bucket.dataType = stemOf names
  records : DataFile.rootTable fs (pathBelow dir names) key = .ok bucket.records

/-- What a discovery finds below a place. -/
structure Discovered (fs : FileSystem) (dir : Path) (key : String) (place : Location)
    (files : List Location) (buckets : List RecordBucket) : Prop where
  complete : ∀ names, names ∈ files ↔ IsDataFile fs.tree place names
  /-- Name by name, in the order of their bytes. -/
  increasing : files.Pairwise fun a b => a.map Text.bytes < b.map Text.bytes
  loaded : List.Forall₂ (BucketOf fs dir key) files buckets
  distinct : (buckets.map fun bucket => (bucket.ns, bucket.dataType)).Nodup

theorem loaded_below {names : Location} {b : RecordBucket} :
    Loaded fs key (below dir names) b ↔ BucketOf fs dir key names b := by
  constructor
  · intro h
    obtain ⟨records, hrecords, rfl⟩ := h
    exact ⟨rfl, rfl, hrecords⟩
  · intro h
    obtain ⟨⟨segments⟩, dataType, records⟩ := b
    obtain ⟨rfl, rfl, hrecords⟩ := h
    exact ⟨records, hrecords, rfl⟩

/-- Files of one data type lie side by side. -/
theorem single_iff {t : FileTree} : ((dataFiles t place).map (below dir)).Pairwise
    (fun before file => file.sameType before = false) ↔
      ∀ a b, IsDataFile t place a → IsDataFile t place b →
        a.dropLast = b.dropLast → stemOf a = stemOf b → a = b := by
  have happart : ∀ a b : Location, (below dir b).sameType (below dir a) = false
      ↔ ¬ (a.dropLast = b.dropLast ∧ stemOf a = stemOf b) := fun a b => by
    rw [← Bool.not_eq_true, sameType_below, eq_comm, eq_comm (a := stemOf b)]
  have hnodup : (dataFiles t place).Nodup := (pairwise_dataFiles t place).imp ne_of_lt
  rw [List.pairwise_map]
  constructor
  · intro h a b ha hb hdirs hstems
    have hsymm : Std.Symm fun a b : Location => (below dir b).sameType (below dir a) = false :=
      ⟨fun a b hab => (happart b a).2 fun hba => (happart a b).1 hab ⟨hba.1.symm, hba.2.symm⟩⟩
    by_contra hne
    have hab := h.forall (mem_dataFiles.2 ha) (mem_dataFiles.2 hb) hne
    exact (happart a b).1 hab ⟨hdirs, hstems⟩
  · intro h
    refine hnodup.pairwise_of_forall_ne fun a ha b hb hne => (happart a b).2 fun hab => hne ?_
    exact h a b (mem_dataFiles.1 ha) (mem_dataFiles.1 hb) hab.1 hab.2

/-- A path to a directory that leads to a place leads on to all below it. -/
theorem leadsTo_pathBelow : ∀ {names : Location} {p : Path} {place : Location} {e : Entry},
    LeadsTo fs p place → fs.tree.get? (place ++ names) = some e →
      LeadsTo fs (pathBelow p names) (place ++ names)
  | [], p, place, e, h, _ => by
      rw [List.append_nil]
      exact h
  | name :: rest, p, place, e, h, hget => by
      have hdir := FileTree.get?_above (List.cons_ne_nil name rest) hget
      have hname := fileName_of_isFileName
        (FileTree.isFileName_of_get? hget name List.mem_cons_self)
      rw [List.append_cons] at hget ⊢
      exact leadsTo_pathBelow (h.join hdir hname) hget

/-- **A directory below one that is found can be listed unless its path is too long.** -/
theorem listed_iff (hfind : fs.find dir = .ok (place, .directory)) :
    (∀ x ∈ fs.tree.traversal place, x.2 = .directory →
      ∃ found, fs.find (pathBelow dir x.1) = .ok found) ↔
    ∀ names, names ≠ [] → fs.tree.get? (place ++ names) = some .directory →
      (pathBelow dir names).text.utf8ByteSize ≤ Path.maxBytes := by
  have hiff : ∀ names, fs.tree.get? (place ++ names) = some .directory →
      ((∃ found, fs.find (pathBelow dir names) = .ok found) ↔
        (pathBelow dir names).text.utf8ByteSize ≤ Path.maxBytes) := by
    intro names hget
    rw [(leadsTo_pathBelow (.of_find hfind) hget).find hget]
    split
    · rename_i hlong
      exact iff_of_false (fun h => nomatch h.choose_spec) (Nat.not_le.2 hlong)
    · rename_i hshort
      exact iff_of_true ⟨_, rfl⟩ (Nat.not_lt.1 hshort)
  constructor
  · intro h names hne hget
    exact (hiff names hget).1 (h (names, .directory) (FileTree.mem_traversal.2 ⟨hne, hget⟩) rfl)
  · rintro h ⟨names, e⟩ hm rfl
    obtain ⟨hne, hget⟩ := FileTree.mem_traversal.1 hm
    exact (hiff names hget).2 (h names hne hget)

/-- A discovery gives buckets if its directories can be listed, its data files differ before their
extensions, and the buckets are those of the data files in order. -/
theorem discover_eq_ok (hfind : fs.find dir = .ok (place, .directory))
    {buckets : List RecordBucket} : (discover fs dir key).result = .ok buckets ↔
      (∀ names, names ≠ [] → fs.tree.get? (place ++ names) = some .directory →
        (pathBelow dir names).text.utf8ByteSize ≤ Path.maxBytes)
      ∧ (∀ a b, IsDataFile fs.tree place a → IsDataFile fs.tree place b →
        a.dropLast = b.dropLast → stemOf a = stemOf b → a = b)
      ∧ List.Forall₂ (BucketOf fs dir key) (dataFiles fs.tree place) buckets := by
  have hrun : discover fs dir key = visit fs dir key [] (fs.tree.traversal place) := by
    rw [discover, hfind]
  have hunseen : ∀ file ∈ recordFiles dir (fs.tree.traversal place),
      ∀ before ∈ ([] : List RecordFile), file.sameType before = false :=
    fun _ _ => List.forall_mem_nil _
  rw [hrun, visit_eq_ok, visited_iff, and_iff_right hunseen, recordFiles_traversal,
    listed_iff hfind, single_iff, List.forall₂_map_left_iff]
  simp only [loaded_below]

theorem exists_forall₂_iff {α β : Type} {R : α → β → Prop} {l : List α} :
    (∃ k, List.Forall₂ R l k) ↔ ∀ a ∈ l, ∃ b, R a b := by
  induction l with
  | nil => simp
  | cons a l ih =>
    rw [List.forall_mem_cons, ← ih]
    simp [List.forall₂_cons_left_iff]

theorem exists_bucketOf_iff {names : Location} : (∃ bucket, BucketOf fs dir key names bucket) ↔
    ∃ records, DataFile.rootTable fs (pathBelow dir names) key = .ok records := by
  constructor
  · intro hsome
    obtain ⟨bucket, hbucket⟩ := hsome
    exact ⟨bucket.records, hbucket.records⟩
  · intro hsome
    obtain ⟨records, hrecords⟩ := hsome
    exact ⟨⟨⟨names.dropLast⟩, stemOf names, records⟩, rfl, rfl, hrecords⟩

theorem find_of_discover {buckets : List RecordBucket}
    (h : (discover fs dir key).result = .ok buckets) :
    ∃ place, fs.find dir = .ok (place, .directory) := by
  unfold discover at h
  split at h
  · rename_i place hfind
    exact ⟨place, hfind⟩
  · cases h

theorem exists_discover_iff : (∃ buckets, (discover fs dir key).result = .ok buckets) ↔
    ∃ place, Discoverable fs dir key place := by
  constructor
  · intro hsome
    obtain ⟨buckets, h⟩ := hsome
    obtain ⟨place, hfind⟩ := find_of_discover h
    obtain ⟨hlistable, hsingle, hloaded⟩ := (discover_eq_ok hfind).1 h
    have hbuckets := exists_forall₂_iff.1 ⟨buckets, hloaded⟩
    refine ⟨place, hfind, hlistable, fun names hdata => ?_, hsingle⟩
    exact exists_bucketOf_iff.1 (hbuckets names (mem_dataFiles.2 hdata))
  · intro hsome
    obtain ⟨place, hfind, hlistable, hloads, hsingle⟩ := hsome
    obtain ⟨buckets, hloaded⟩ : ∃ buckets, List.Forall₂ (BucketOf fs dir key)
        (dataFiles fs.tree place) buckets :=
      exists_forall₂_iff.2 fun names hm => exists_bucketOf_iff.2 (hloads names (mem_dataFiles.1 hm))
    exact ⟨buckets, (discover_eq_ok hfind).2 ⟨hlistable, hsingle, hloaded⟩⟩

/-- Namespace and data type of a bucket say which file it is of. -/
theorem map_key_eq {files : List Location} {buckets : List RecordBucket}
    (h : List.Forall₂ (BucketOf fs dir key) files buckets) :
    buckets.map (fun bucket => (bucket.ns, bucket.dataType))
      = files.map fun names => (⟨names.dropLast⟩, stemOf names) := by
  induction h with
  | nil => rfl
  | cons hbucket _ ih =>
    obtain ⟨hns, hdataType, _⟩ := hbucket
    rw [List.map_cons, List.map_cons, ih, ← hns, ← hdataType]

theorem discovered_of_ok {buckets : List RecordBucket}
    (h : (discover fs dir key).result = .ok buckets) :
    ∃ place files, fs.find dir = .ok (place, .directory)
      ∧ Discovered fs dir key place files buckets := by
  obtain ⟨place, hfind⟩ := find_of_discover h
  obtain ⟨_, hsingle, hloaded⟩ := (discover_eq_ok hfind).1 h
  refine ⟨place, dataFiles fs.tree place, hfind, ?_⟩
  have hordered := pairwise_dataFiles fs.tree place
  have hdistinct : (buckets.map fun bucket => (bucket.ns, bucket.dataType)).Nodup := by
    rw [map_key_eq hloaded]
    refine List.Nodup.map_on ?_ (hordered.imp ne_of_lt)
    intro a ha b hb heq
    obtain ⟨hdirs, hstems⟩ := Prod.mk.inj heq
    exact hsingle a b (mem_dataFiles.1 ha) (mem_dataFiles.1 hb) (congrArg Namespace.segments hdirs)
      hstems
  exact ⟨fun _ => mem_dataFiles, hordered.imp Text.map_bytes_lt, hloaded, hdistinct⟩

/-! ## 5. The order of the tree's entries -/

section Congr

variable {t t' : FileTree} (h : ∀ place, t.get? place = t'.get? place) (working : Location)

include h

theorem bucket_congr (key : String) (file : RecordFile) :
    bucket ⟨t, working⟩ key file = bucket ⟨t', working⟩ key file := by
  unfold bucket DataFile.rootTable DataFile.content FileSystem.load FileSystem.readText
  rw [FileSystem.find_congr h]

theorem visit_congr (dir : Path) (key : String) : ∀ (entries : List (Location × Entry))
    (seen : List RecordFile),
    visit ⟨t, working⟩ dir key seen entries = visit ⟨t', working⟩ dir key seen entries
  | [], _ => rfl
  | (names, .directory) :: rest, seen => by
      rw [visit_directory, visit_directory, FileSystem.find_congr h]
      cases FileSystem.find ⟨t', working⟩ (pathBelow dir names) with
      | error fault => rfl
      | ok found => exact visit_congr dir key rest seen
  | (names, .file content) :: rest, seen => by
      simp only [visit_file, bucket_congr h, visit_congr dir key rest]

/-- **In whatever order a tree lists its entries, a discovery does the same.** -/
theorem discover_congr (dir : Path) (key : String) :
    discover ⟨t, working⟩ dir key = discover ⟨t', working⟩ dir key := by
  simp only [discover, FileSystem.find_congr h, FileTree.traversal_congr h, visit_congr h]

end Congr

/-- **A discovery succeeds exactly if its directory is there, every directory below has a path that
is short enough, every data file below can be loaded, and data files of one directory differ before
their extensions. Then there is one bucket for each data file, in the order of the bytes of the
names on the way, with the directories as namespace and the name as data type, and no two buckets
are of one data type.** The order in which the tree lists its entries does not matter. -/
theorem discover_spec (fs : FileSystem) (dir : Path) (key : String) :
    ((∃ buckets, (discover fs dir key).result = .ok buckets) ↔
      ∃ place, Discoverable fs dir key place)
    ∧ (∀ buckets, (discover fs dir key).result = .ok buckets →
      ∃ place files, fs.find dir = .ok (place, .directory)
        ∧ Discovered fs dir key place files buckets)
    ∧ ∀ tree : FileTree, (∀ place, tree.get? place = fs.tree.get? place) →
      discover ⟨tree, fs.working⟩ dir key = discover fs dir key :=
  ⟨exists_discover_iff, fun _ => discovered_of_ok,
    fun _ h => discover_congr h fs.working dir key⟩

/-! ## 6. Paths that are too long -/

/-- A directory with nothing in it but another. -/
def hollow : FileSystem :=
  ⟨.ofEntries [(["r"], .directory), (["r", "aa"], .directory)], []⟩

/-- Its path with slashes behind it. -/
def slashed : Nat → Path
  | 0 => ⟨"r"⟩
  | n + 1 => ⟨(slashed n).text ++ "/"⟩

theorem leadsTo_slashed : ∀ n, LeadsTo hollow (slashed n) ["r"]
  | 0 => ⟨by decide, by decide, by decide +kernel⟩
  | n + 1 => (leadsTo_slashed n).slash (by decide +kernel)

theorem size_slashed : ∀ n, (slashed n).text.utf8ByteSize = n + 1
  | 0 => by decide
  | n + 1 => by
      rw [slashed, String.utf8ByteSize_append, size_slashed n]
      rfl

theorem size_below_slashed (n : Nat) :
    n + 3 ≤ (pathBelow (slashed n) ["aa"]).text.utf8ByteSize := by
  have hname : FileName "aa" := fileName_of_isFileName (by decide)
  have htwo : "aa".utf8ByteSize = 2 := by decide
  show n + 3 ≤ ((slashed n).join ⟨"aa"⟩).text.utf8ByteSize
  rcases hname.text_join (slashed n) with ht | ht <;>
    rw [ht] <;> simp only [String.utf8ByteSize_append, size_slashed, htwo] <;> omega

theorem not_isDataFile_hollow (place names : Location) : ¬ IsDataFile hollow.tree place names := by
  intro h
  obtain ⟨content, hget⟩ := h.stored
  have hdirs : hollow.tree.entries.all (fun x => x.2 = .directory) = true := by decide +kernel
  by_cases hplace : place ++ names = []
  · rw [hplace] at hget
    cases hget
  · have hm := FileTree.mem_of_get? hplace hget
    have hdir := List.all_eq_true.1 hdirs _ hm
    cases of_decide_eq_true hdir

/-- There are no data files below the directory, and yet it cannot be discovered: the path of the
directory in it is too long. -/
theorem hollow_refused : hollow.find (slashed 4093) = .ok (["r"], .directory)
    ∧ (∀ names, ¬ IsDataFile hollow.tree ["r"] names)
    ∧ ¬ ∃ buckets, (discover hollow (slashed 4093) "masterdata").result = .ok buckets := by
  have hfind : hollow.find (slashed 4093) = .ok (["r"], .directory) := by
    rw [(leadsTo_slashed 4093).find (e := .directory) (by decide +kernel), size_slashed]
    rfl
  refine ⟨hfind, not_isDataFile_hollow ["r"], fun hsome => ?_⟩
  obtain ⟨place, hplace⟩ := exists_discover_iff.1 hsome
  obtain ⟨rfl, _⟩ := Prod.mk.inj (Except.ok.inj (hfind.symm.trans hplace.found))
  have hshort := hplace.listable ["aa"] (List.cons_ne_nil _ _) (by decide +kernel)
  exact absurd ((size_below_slashed 4093).trans hshort) (by decide)

end Discovery

end MasterSchema
