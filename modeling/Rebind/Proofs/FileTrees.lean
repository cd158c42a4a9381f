import Mathlib.Data.List.Induction
import Rebind.Files.Tree
/-!
# File trees

In the tree of a disk every file and every folder is in a folder, nothing is both, and the steps that lead
to it are names: none is empty, stays where it is or leads up, and none holds a slash.  In such a tree the
text of a place leads to what is there, and new files and folders keep the tree that way as long as they
are put where nothing else is.
-/
namespace Rebind

namespace Path

/-- What a file or a folder can be called. -/
def IsName (name : String) : Prop :=
  name ≠ "" ∧ name ≠ "." ∧ name ≠ ".." ∧ '/' ∉ name.toList ∧ '\x00' ∉ name.toList

instance (name : String) : Decidable (IsName name) :=
  inferInstanceAs (Decidable (name ≠ "" ∧ name ≠ "." ∧ name ≠ ".." ∧ '/' ∉ name.toList ∧
    '\x00' ∉ name.toList))

/-! ### The text of a place -/

/-- What was joined comes apart at the separators. -/
theorem pieces_intercalate {separator : Char} {pieces : List (List Char)} (filled : pieces ≠ [])
    (free : ∀ piece ∈ pieces, separator ∉ piece) :
    Text.pieces separator ([separator].intercalate pieces) = pieces := by
  induction pieces with
  | nil => exact absurd rfl filled
  | cons piece rest ih =>
    have first := free piece List.mem_cons_self
    cases rest with
    | nil => simpa using Text.pieces_unbroken first
    | cons next rest =>
      have later := ih (List.cons_ne_nil _ _) fun p listed => free p (List.mem_cons_of_mem _ listed)
      rw [List.intercalate_cons_cons, List.append_assoc, List.singleton_append, Text.pieces_append,
        Text.pieces_unbroken first, later]
      rfl

/-- A character of a joined text is in a piece or in the separator. -/
theorem mem_intercalate {c : Char} {between : List Char} {pieces : List (List Char)}
    (member : c ∈ between.intercalate pieces) : c ∈ between ∨ ∃ piece ∈ pieces, c ∈ piece := by
  induction pieces with
  | nil => cases member
  | cons piece rest ih =>
    cases rest with
    | nil => exact .inr ⟨piece, List.mem_cons_self, by simpa using member⟩
    | cons next rest =>
      rw [List.intercalate_cons_cons, List.append_assoc] at member
      rcases List.mem_append.mp member with here | later
      · exact .inr ⟨piece, List.mem_cons_self, here⟩
      · rcases List.mem_append.mp later with apart | later
        · exact .inl apart
        · exact (ih later).imp_right fun ⟨p, listed, inside⟩ => ⟨p, List.mem_cons_of_mem _ listed, inside⟩

/-- A path shows its steps after slashes. -/
theorem toList_shown (steps : List String) :
    (shown steps).toList = '/' :: ['/'].intercalate (steps.map String.toList) := by
  have slash : "/".toList = ['/'] := rfl
  rw [shown, String.toList_append, String.toList_intercalate, slash]
  rfl

section Shown

variable {steps : List String} (named : ∀ name ∈ steps, IsName name)

include named

/-- The parts of the text of a place are its steps, after the empty part before the first slash. -/
theorem parts_shown (below : steps ≠ []) : parts (shown steps) = "" :: steps := by
  have free : ∀ piece ∈ steps.map String.toList, '/' ∉ piece := by
    intro piece listed
    obtain ⟨name, member, rfl⟩ := List.mem_map.mp listed
    exact (named name member).2.2.2.1
  have split := Text.pieces_append '/' [] (['/'].intercalate (steps.map String.toList))
  rw [List.nil_append, ← toList_shown, pieces_intercalate (by simpa using below) free] at split
  rw [parts, Text.parts, split]
  simp [Text.pieces]

theorem isPath_shown : isPath (shown steps) = true := by
  have absent : '\x00' ∉ (shown steps).toList := by
    intro member
    rw [toList_shown] at member
    rcases List.mem_cons.mp member with slash | inside
    · exact absurd slash (by decide)
    · rcases mem_intercalate inside with slash | ⟨piece, listed, within⟩
      · exact absurd slash (by decide)
      · obtain ⟨name, step, rfl⟩ := List.mem_map.mp listed
        exact (named name step).2.2.2.2 within
  simpa [isPath] using absent

end Shown

/-- An absolute path starts with a slash. -/
theorem isAbsolute_iff {p : String} : isAbsolute p = true ↔ p.toList.head? = some '/' := by
  have slash : "/".toList = ['/'] := rfl
  rw [isAbsolute, String.startsWith_string_iff, slash]
  cases p.toList <;> simp [List.cons_prefix_cons, eq_comm]

theorem isAbsolute_shown (steps : List String) : isAbsolute (shown steps) = true := by
  rw [isAbsolute_iff, toList_shown]
  rfl

/-! ### Above a place -/

/-- The folders above a file are the beginnings of its steps. -/
theorem mem_ancestors {steps folder : List String} : folder ∈ ancestors steps ↔ folder <+: steps := by
  unfold ancestors
  constructor
  · intro member
    obtain ⟨k, -, rfl⟩ := List.mem_map.mp member
    exact List.take_prefix _ _
  · intro above
    have short := above.length_le
    refine List.mem_map.mpr ⟨steps.length - folder.length, List.mem_range.mpr (by omega), ?_⟩
    rw [Nat.sub_sub_self short]
    exact (List.prefix_iff_eq_take.mp above).symm

/-- A path leads along names, wherever it is read from. -/
theorem resolve_named {folder : List String} (named : ∀ name ∈ folder, IsName name) {p : String}
    (path : isPath p = true) : ∀ name ∈ resolve folder p, IsName name := by
  have part : ∀ s ∈ parts p, '/' ∉ s.toList ∧ '\x00' ∉ s.toList := by
    intro s listed
    obtain ⟨piece, member, rfl⟩ := List.mem_map.mp listed
    obtain ⟨free, inside⟩ := Text.mem_pieces member
    have whole : '\x00' ∉ p.toList := by simpa [isPath] using path
    rw [String.toList_ofList]
    exact ⟨free, fun null => whole (inside null)⟩
  have walk : ∀ (more : List String), (∀ s ∈ more, '/' ∉ s.toList ∧ '\x00' ∉ s.toList) →
      ∀ walked : List String, (∀ name ∈ walked, IsName name) →
        ∀ name ∈ more.foldl follow walked, IsName name := by
    intro more
    induction more with
    | nil => exact fun _ walked all => all
    | cons s more ih =>
      intro free walked all
      refine ih (fun t later => free t (List.mem_cons_of_mem _ later)) _ ?_
      unfold follow
      by_cases stays : s = "" ∨ s = "."
      · rw [if_pos (by simpa using stays)]
        exact all
      · rw [if_neg (by simpa using stays)]
        by_cases up : s = ".."
        · rw [if_pos up]
          exact fun name member => all name (List.mem_of_mem_drop member)
        · rw [if_neg up]
          intro name member
          rcases List.mem_cons.mp member with rfl | before
          · exact ⟨fun empty => stays (.inl empty), fun here => stays (.inr here), up,
              free name List.mem_cons_self⟩
          · exact all name before
  intro name member
  unfold resolve at member
  refine walk (parts p) part _ ?_ name (List.mem_reverse.mp member)
  intro step walked
  by_cases absolute : isAbsolute p = true
  · rw [if_pos absolute] at walked
    cases walked
  · rw [if_neg absolute] at walked
    exact named step (List.mem_reverse.mp walked)

end Path

namespace FileTree

variable {t : FileTree} {steps : List String} {content : FileContent}

theorem isFolder_iff : t.isFolder steps = true ↔ steps ∈ t.folders := List.contains_iff_mem

theorem isFile_iff : t.isFile steps = true ↔ ∃ content, t.file? steps = some content := Option.isSome_iff_exists

/-- A tree as a disk can hold it. -/
structure Sound (t : FileTree) : Prop where
  root : t.isFolder [] = true
  working : t.isFolder t.working = true
  named : ∀ steps, t.isFolder steps = true ∨ t.isFile steps = true → ∀ name ∈ steps, Path.IsName name
  inside : ∀ steps, t.isFolder steps = true ∨ t.isFile steps = true → t.isFolder steps.dropLast = true
  apart : ∀ steps, t.isFile steps = true → t.isFolder steps = false

theorem sound_empty : Sound {} where
  root := rfl
  working := rfl
  named := by
    rintro steps (folder | file) name member
    · rw [List.mem_singleton.mp (isFolder_iff.mp folder)] at member
      cases member
    · cases file
  inside := by
    rintro steps (folder | file)
    · rw [List.mem_singleton.mp (isFolder_iff.mp folder)]
      rfl
    · cases file
  apart := fun _ file => by cases file

namespace Sound

/-! ### Leading to what is there -/

/-- All the way to a file or a folder there are folders. -/
theorem isFolder_of_prefix (h : t.Sound) (there : t.isFolder steps = true ∨ t.isFile steps = true)
    {front : List String} (above : front <+: steps) (proper : front ≠ steps) : t.isFolder front = true := by
  induction steps using List.reverseRecOn with
  | nil => exact absurd (List.prefix_nil.mp above) proper
  | append_singleton steps last ih =>
    have folder := h.inside _ there
    rw [List.dropLast_concat] at folder
    rcases List.prefix_concat_iff.mp above with whole | within
    · exact absurd whole proper
    · by_cases same : front = steps
      · exact same ▸ folder
      · exact ih (.inl folder) within same

/-- From a folder on the way to a file the remaining steps lead to it. -/
theorem walk_file (h : t.Sound) : ∀ (rest walked : List String), t.file? (walked ++ rest) = some content →
    t.walk walked rest = .file content
  | [], walked, found => by
    rw [List.append_nil] at found
    have file := isFile_iff.mpr ⟨content, found⟩
    rw [walk, h.apart walked file, found]
    rfl
  | part :: rest, walked, found => by
    have file := isFile_iff.mpr ⟨content, found⟩
    have folder : t.isFolder walked = true :=
      h.isFolder_of_prefix (.inr file) (List.prefix_append _ _) (by simp)
    have name := h.named _ (.inr file) part (by simp)
    rw [walk, if_pos folder, if_neg name.2.2.1, if_neg (by simp [name.1, name.2.1])]
    exact walk_file h rest (walked ++ [part]) (by rwa [List.append_assoc, List.singleton_append])

/-- The text of a place leads to the file that is there. -/
theorem find_shown (h : t.Sound) (found : t.file? steps = some content) :
    t.find (Path.shown steps) = .file content := by
  have file := isFile_iff.mpr ⟨content, found⟩
  have below : steps ≠ [] := by
    rintro rfl
    exact absurd (h.apart [] file) (by simp [h.root])
  have filled : Path.shown steps ≠ "" := by
    intro empty
    have chars := Path.toList_shown steps
    rw [empty] at chars
    cases chars
  have start : t.walk [] ("" :: steps) = t.walk [] steps := by
    rw [walk, if_pos h.root, if_neg (by decide), if_pos (by decide)]
  rw [find, if_neg filled, Path.isAbsolute_shown, if_pos rfl, Path.parts_shown (h.named _ (.inr file)) below, start]
  exact h.walk_file steps [] found

/-! ### Adding to a tree -/

/-- A new folder comes with the folders on the way. -/
theorem isFolder_addFolder {folder : List String} :
    (t.addFolder steps).isFolder folder = true ↔ t.isFolder folder = true ∨ folder <+: steps := by
  simp only [isFolder_iff, addFolder, List.mem_append, List.mem_filter, Path.mem_ancestors]
  constructor
  · rintro (old | ⟨above, -⟩)
    · exact .inl old
    · exact .inr above
  · rintro (old | above)
    · exact .inl old
    · by_cases listed : folder ∈ t.folders
      · exact .inl listed
      · exact .inr ⟨above, by simpa [isFolder] using listed⟩

/-- Folders can be added where there are no files. -/
theorem addFolder (h : t.Sound) (named : ∀ name ∈ steps, Path.IsName name)
    (clear : ∀ folder ∈ Path.ancestors steps, t.isFile folder = false) : (t.addFolder steps).Sound where
  root := isFolder_addFolder.mpr (.inl h.root)
  working := isFolder_addFolder.mpr (.inl h.working)
  named := by
    rintro folder (added | file)
    · rcases isFolder_addFolder.mp added with old | above
      · exact h.named folder (.inl old)
      · exact fun name member => named name (above.subset member)
    · exact h.named folder (.inr file)
  inside := by
    rintro folder (added | file)
    · rcases isFolder_addFolder.mp added with old | above
      · exact isFolder_addFolder.mpr (.inl (h.inside folder (.inl old)))
      · exact isFolder_addFolder.mpr (.inr ((List.dropLast_prefix folder).trans above))
    · exact isFolder_addFolder.mpr (.inl (h.inside folder (.inr file)))
  apart := by
    intro folder file
    refine Bool.eq_false_iff.mpr fun added => ?_
    rcases isFolder_addFolder.mp added with old | above
    · exact absurd (h.apart folder file) (by simp [old])
    · exact absurd file (Bool.eq_false_iff.mp (clear folder (Path.mem_ancestors.mpr above)))

/-- A new file takes its place, and no other one. -/
theorem file?_addFile (place : List String) : (t.addFile steps content).file? place =
    if place = steps then some content else t.file? place := by
  unfold addFile file?
  by_cases same : place = steps
  · simp [same]
  · have other : (place == steps) = false := by simpa using same
    rw [if_neg same]
    simp only [List.lookup_cons, other]
    have kept : ∀ files : List (List String × FileContent),
        (files.filter fun f => f.1 != steps).lookup place = files.lookup place := by
      intro files
      induction files with
      | nil => rfl
      | cons file rest ih =>
        obtain ⟨there, what⟩ := file
        by_cases gone : there = steps
        · have elsewhere : (place == there) = false := by simpa [gone] using same
          simp [gone, ih, List.lookup_cons, other]
        · simp [gone, List.lookup_cons, ih]
    exact kept _

/-- A file can be added where there is no folder, and no file on the way. -/
theorem addFile (h : t.Sound) (below : steps ≠ []) (named : ∀ name ∈ steps, Path.IsName name)
    (clear : ∀ folder ∈ Path.ancestors steps, folder ≠ steps → t.isFile folder = false)
    (free : t.isFolder steps = false) : (t.addFile steps content).Sound := by
  have shorter : steps.dropLast.length < steps.length := by
    have := List.length_pos_iff.mpr below
    rw [List.length_dropLast]
    omega
  have above : (t.addFolder steps.dropLast).Sound := by
    refine h.addFolder (fun name member => named name (List.dropLast_subset steps member)) fun folder listed => ?_
    have within := Path.mem_ancestors.mp listed
    refine clear folder (Path.mem_ancestors.mpr (within.trans (List.dropLast_prefix steps))) fun same => ?_
    have length := within.length_le
    rw [same] at length
    omega
  have files : ∀ place, (t.addFile steps content).isFile place = true →
      place = steps ∨ (t.addFolder steps.dropLast).isFile place = true := by
    intro place file
    by_cases same : place = steps
    · exact .inl same
    · rw [isFile, file?_addFile, if_neg same] at file
      exact .inr file
  refine ⟨above.root, above.working, ?_, ?_, ?_⟩
  · rintro place (folder | file)
    · exact above.named place (.inl folder)
    · rcases files place file with rfl | old
      · exact named
      · exact above.named place (.inr old)
  · rintro place (folder | file)
    · exact above.inside place (.inl folder)
    · rcases files place file with rfl | old
      · exact isFolder_addFolder.mpr (.inr (List.prefix_refl _))
      · exact above.inside place (.inr old)
  · intro place file
    rcases files place file with rfl | old
    · refine Bool.eq_false_iff.mpr fun folder => ?_
      rcases isFolder_addFolder.mp folder with old | within
      · exact absurd free (by simp [old])
      · exact absurd within.length_le (by omega)
    · exact above.apart place old

end Sound

/-! ### Trees that differ in what files hold -/

/-- Another tree with the same folders and with files in the same places, which hold the same wherever
they are read. -/
structure Alike (t : FileTree) (read : List String → Prop) (t' : FileTree) : Prop where
  folders : t'.folders = t.folders
  working : t'.working = t.working
  places : ∀ steps, t'.isFile steps = t.isFile steps
  contents : ∀ steps, read steps → t'.file? steps = t.file? steps

/-- A tree that reads alike is sound if the other one is. -/
theorem Alike.sound {read : List String → Prop} {t' : FileTree} (alike : t.Alike read t') (h : t.Sound) :
    t'.Sound := by
  have folders : ∀ steps, t'.isFolder steps = t.isFolder steps := fun steps =>
    congrArg (List.contains · steps) alike.folders
  constructor <;> simp only [folders, alike.places, alike.working]
  · exact h.root
  · exact h.working
  · exact h.named
  · exact h.inside
  · exact h.apart

end FileTree

end Rebind
