/-!
# Directories

A file system is a tree: all there is in it, but the root, lies in a directory. A run
takes place in one of the directories. A path begins at the root if it begins with a
slash, and in the directory of the run otherwise. It is walked from left to right:
empty parts and single points stay where they are, two points go up, from the root to
the root itself, and every part but the last must lead to a directory.
-/
namespace BibTemplate.CommandLine

/-- The way from the root to an entry of a file system, name by name. -/
abbrev Way := List String

inductive Entry where
  | directory
  | file (content : ByteArray)

structure FileSystem where
  get? : Way → Option Entry
  root : get? [] = some .directory
  /-- What there is lies in a directory. -/
  nested : ∀ way, get? way ≠ none → get? way.dropLast = some .directory

namespace FileSystem

variable {fs : FileSystem} {way w : Way} {entry : Entry}

def IsDirectory (fs : FileSystem) (way : Way) : Prop := fs.get? way = some .directory

instance (fs : FileSystem) (way : Way) : Decidable (fs.IsDirectory way) :=
  match h : fs.get? way with
  | some .directory => isTrue h
  | some (.file _) => isFalse fun hd => nomatch h.symm.trans hd
  | none => isFalse fun hd => nomatch h.symm.trans hd

/-- The directories on a way, and nothing else. -/
def ofWay (way : Way) : FileSystem where
  get? w := if w <+: way then some .directory else none
  root := if_pos List.nil_prefix
  nested w hw := by
    have hbegins : w <+: way := Decidable.of_not_not fun h => hw (if_neg h)
    exact if_pos ((List.dropLast_prefix w).trans hbegins)

theorem isDirectory_ofWay (way : Way) : (ofWay way).IsDirectory way := if_pos List.prefix_rfl

/-- Puts an entry into a directory, in place of a file or where nothing is. -/
def put (fs : FileSystem) (way : Way) (entry : Entry) (hparent : fs.IsDirectory way.dropLast)
    (hfree : ¬ fs.IsDirectory way) : FileSystem where
  get? w := if w = way then some entry else fs.get? w
  root := by
    rw [if_neg, fs.root]
    rintro rfl
    exact hfree fs.root
  nested w hw := by
    have hdirectory : fs.IsDirectory w.dropLast := by
      by_cases h : w = way
      · exact h ▸ hparent
      · exact fs.nested w (by rwa [if_neg h] at hw)
    rw [if_neg, hdirectory]
    intro h
    exact hfree (h ▸ hdirectory)

theorem isDirectory_put {hparent : fs.IsDirectory way.dropLast} {hfree : ¬ fs.IsDirectory way}
    (h : fs.IsDirectory w) : (fs.put way entry hparent hfree).IsDirectory w := by
  have hne : w ≠ way := fun he => hfree (he ▸ h)
  exact (if_neg hne).trans h

/-- Adds an entry, unless there is one or it has no directory to lie in. -/
def add (fs : FileSystem) (way : Way) (entry : Entry) : FileSystem :=
  if h : fs.IsDirectory way.dropLast ∧ fs.get? way = none then
    fs.put way entry h.1 (by simp [IsDirectory, h.2])
  else fs

theorem isDirectory_add (h : fs.IsDirectory w) : (fs.add way entry).IsDirectory w := by
  rw [add]
  split
  · exact isDirectory_put h
  · exact h

/-- Adds one entry after the other. -/
def addAll (fs : FileSystem) (entries : List (Way × Entry)) : FileSystem :=
  entries.foldl (fun fs e => fs.add e.1 e.2) fs

theorem isDirectory_addAll {entries : List (Way × Entry)} (h : fs.IsDirectory w) :
    (fs.addAll entries).IsDirectory w := by
  induction entries generalizing fs with
  | nil => exact h
  | cons e entries ih => exact ih (isDirectory_add h)

/-- Goes on from `way` by the parts of a path; none where the path leads nowhere. -/
def walk (fs : FileSystem) (way : Way) : List String → Option Way
  | [] => some way
  | part :: parts =>
    if fs.IsDirectory way then
      if part = "" ∨ part = "." then fs.walk way parts
      else if part = ".." then fs.walk way.dropLast parts
      else fs.walk (way ++ [part]) parts
    else none

end FileSystem

/-- A directory of a file system. -/
structure Directory where
  files : FileSystem
  way : Way
  isDirectory : files.IsDirectory way

namespace Directory

/-- The root of a file system in which there is nothing else. -/
def empty : Directory := ⟨.ofWay [], [], FileSystem.isDirectory_ofWay []⟩

/-- A file, named by the way to it from a directory, and the directories in between. -/
def entriesBelow (way : Way) (file : Way × ByteArray) : List (Way × Entry) :=
  (List.range file.1.length).map (fun n => (way ++ file.1.take n, .directory)) ++
    [(way ++ file.1, .file file.2)]

/-- A directory with files, each named by the way to it from there. A file that cannot lie
beside those before it is left out. -/
def ofFiles (way : Way) (files : List (Way × ByteArray)) : Directory where
  files := (FileSystem.ofWay way).addAll (files.flatMap (entriesBelow way))
  way := way
  isDirectory := FileSystem.isDirectory_addAll (FileSystem.isDirectory_ofWay way)

/-- The way that a path takes. The empty path leads nowhere. -/
def locate? (d : Directory) (path : String) : Option Way :=
  match path.toList with
  | [] => none
  | '/' :: cs => d.files.walk [] ((cs.splitOn '/').map .ofList)
  | cs => d.files.walk d.way ((cs.splitOn '/').map .ofList)

/-- The content of the file at a path. -/
def read? (d : Directory) (path : String) : Option ByteArray :=
  (d.locate? path).bind fun way =>
    match d.files.get? way with
    | some (.file content) => some content
    | _ => none

/-- The directory with a file at a way, which lies in a directory and is none itself. -/
def put (d : Directory) (way : Way) (content : ByteArray)
    (hparent : d.files.IsDirectory way.dropLast) (hfree : ¬ d.files.IsDirectory way) :
    Directory where
  files := d.files.put way (.file content) hparent hfree
  way := d.way
  isDirectory := FileSystem.isDirectory_put d.isDirectory

/-- The directory after writing a file, which is made if there is none; none if there can
be no file at the path. -/
def write? (d : Directory) (path : String) (content : ByteArray) : Option Directory :=
  (d.locate? path).bind fun way =>
    if h : d.files.IsDirectory way.dropLast ∧ ¬ d.files.IsDirectory way then
      some (d.put way content h.1 h.2)
    else none

end Directory

end BibTemplate.CommandLine
