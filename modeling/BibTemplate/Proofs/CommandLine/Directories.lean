import BibTemplate.CommandLine.Directory
import Mathlib.Data.List.Infix

/-!
# Writing a file

The way that a path takes ends in a directory, so a file can be written wherever a path leads
that is no directory. Writing it makes no directory and takes none away, so no path leads
anywhere else. The file holds what was written, and all others hold what they held.
-/
namespace BibTemplate.CommandLine

namespace FileSystem

variable {fs gs : FileSystem} {way w : Way} {content : ByteArray}

theorem IsDirectory.dropLast (h : fs.IsDirectory way) : fs.IsDirectory way.dropLast :=
  fs.nested way (by rw [h]; exact Option.some_ne_none _)

/-- On the way to anything there are directories alone. -/
theorem isDirectory_of_isPrefix (hway : fs.get? way ≠ none) (hbegins : w <+: way) (hne : w ≠ way) :
    fs.IsDirectory w := by
  induction way using List.reverseRecOn with
  | nil => exact absurd (List.prefix_nil.1 hbegins) hne
  | append_singleton way name ih =>
    have hparent : fs.IsDirectory way := by
      have hnested := fs.nested _ hway
      rwa [List.dropLast_concat] at hnested
    rcases List.prefix_concat_iff.1 hbegins with rfl | hbegins
    · exact absurd rfl hne
    · by_cases he : w = way
      · exact he ▸ hparent
      · exact ih (by rw [hparent]; exact Option.some_ne_none _) hbegins he

/-- Whatever way is taken, its end lies in a directory. -/
theorem isDirectory_dropLast_of_walk {parts : List String} (h : fs.IsDirectory way.dropLast)
    (hwalk : fs.walk way parts = some w) : fs.IsDirectory w.dropLast := by
  induction parts generalizing way with
  | nil =>
    cases hwalk
    exact h
  | cons part parts ih =>
    rw [walk] at hwalk
    split_ifs at hwalk with hway hstay hup
    · exact ih h hwalk
    · exact ih hway.dropLast.dropLast hwalk
    · exact ih (by rwa [List.dropLast_concat]) hwalk

theorem walk_congr (h : ∀ w, gs.IsDirectory w ↔ fs.IsDirectory w) (way : Way)
    (parts : List String) : gs.walk way parts = fs.walk way parts := by
  induction parts generalizing way with
  | nil => rfl
  | cons part parts ih => simp only [walk, h, ih]

theorem get?_put_self {entry : Entry} (hparent : fs.IsDirectory way.dropLast)
    (hfree : ¬ fs.IsDirectory way) : (fs.put way entry hparent hfree).get? way = some entry :=
  if_pos rfl

theorem get?_put_of_ne {entry : Entry} (hparent : fs.IsDirectory way.dropLast)
    (hfree : ¬ fs.IsDirectory way) (h : w ≠ way) :
    (fs.put way entry hparent hfree).get? w = fs.get? w :=
  if_neg h

theorem isDirectory_put_file_iff (hparent : fs.IsDirectory way.dropLast)
    (hfree : ¬ fs.IsDirectory way) :
    (fs.put way (.file content) hparent hfree).IsDirectory w ↔ fs.IsDirectory w := by
  refine ⟨fun h => ?_, isDirectory_put⟩
  by_cases he : w = way
  · subst he
    rw [IsDirectory, get?_put_self] at h
    cases h
  · rwa [IsDirectory, get?_put_of_ne hparent hfree he] at h

end FileSystem

namespace Directory

variable {d e : Directory} {path other : String} {content : ByteArray} {way : Way}

theorem isDirectory_dropLast_of_locate? (h : d.locate? path = some way) :
    d.files.IsDirectory way.dropLast := by
  have hroot : d.files.IsDirectory ([] : Way).dropLast := d.files.root
  unfold locate? at h
  split at h
  · cases h
  · exact FileSystem.isDirectory_dropLast_of_walk hroot h
  · exact FileSystem.isDirectory_dropLast_of_walk d.isDirectory.dropLast h

/-- A path from the root, one through the directory above, one that goes on behind a file, and the
empty path. -/
example :
    let d := ofFiles ["home"] [(["notes", "a"], "".toUTF8)]
    d.locate? "/home/notes/a" = some ["home", "notes", "a"] ∧
      d.locate? "../../home/./notes//b" = some ["home", "notes", "b"] ∧
      d.locate? "notes/a/.." = none ∧ d.locate? "" = none := by
  decide

/-- The path leads somewhere, and not to a directory. -/
def Writable (d : Directory) (path : String) : Prop :=
  ∃ way, d.locate? path = some way ∧ ¬ d.files.IsDirectory way

/-- The one directory is the other but for the file at a path, which holds the content. -/
structure Differs (d e : Directory) (path : String) (content : ByteArray) : Prop where
  locate : e.locate? = d.locate?
  written : e.read? path = some content
  others : ∀ way, d.locate? path ≠ some way → e.files.get? way = d.files.get? way

theorem Differs.read?_eq (h : d.Differs e path content)
    (hne : d.locate? other ≠ d.locate? path) : e.read? other = d.read? other := by
  rw [read?, read?, h.locate]
  cases ho : d.locate? other with
  | none => rfl
  | some way =>
    rw [Option.bind_some, Option.bind_some, h.others way fun hp => hne (ho.trans hp.symm)]

/-- The same file may have several paths. -/
theorem Differs.read?_of_locate? (h : d.Differs e path content)
    (hsame : d.locate? other = d.locate? path) : e.read? other = some content := by
  rw [← h.written, read?, read?, h.locate, hsame]

theorem differs_put (hparent : d.files.IsDirectory way.dropLast)
    (hfree : ¬ d.files.IsDirectory way) (h : d.locate? path = some way) :
    d.Differs (d.put way content hparent hfree) path content := by
  have hlocate : (d.put way content hparent hfree).locate? = d.locate? := by
    funext other
    simp only [locate?, put,
      FileSystem.walk_congr fun w => FileSystem.isDirectory_put_file_iff hparent hfree]
  refine ⟨hlocate, ?_, ?_⟩
  · rw [read?, hlocate, h, Option.bind_some, put, FileSystem.get?_put_self]
  · intro w hw
    exact FileSystem.get?_put_of_ne hparent hfree fun he => hw (he ▸ h)

/-- A path that leads somewhere but to a directory can be written. -/
theorem exists_write? (h : d.Writable path) (content : ByteArray) :
    ∃ e, d.write? path content = some e ∧ d.Differs e path content := by
  obtain ⟨way, hway, hfree⟩ := h
  have hparent := isDirectory_dropLast_of_locate? hway
  refine ⟨d.put way content hparent hfree, ?_, differs_put hparent hfree hway⟩
  rw [write?, hway, Option.bind_some, dif_pos ⟨hparent, hfree⟩]

theorem write?_eq_none (h : ¬ d.Writable path) (content : ByteArray) :
    d.write? path content = none := by
  rw [write?, Option.bind_eq_none_iff]
  intro way hway
  rw [dif_neg]
  exact fun hfree => h ⟨way, hway, hfree.2⟩

end Directory

end BibTemplate.CommandLine
