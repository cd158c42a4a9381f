import Rebind.Config
import Rebind.Proofs.Evaluation
import Rebind.Proofs.FileTrees
/-!
# The nearest configuration

The configuration in force is the one in the nearest folder at or above the place where the search starts
that holds a configuration file.  A folder of that name is passed over, and so is every folder above the
nearest one.  Only where there is none at all do the usual settings hold: a file that was found is read,
whatever is wrong with it is an error, and what other files hold makes no difference.
-/
namespace Rebind

def Store.withFiles (σ : Store) (t : FileTree) : Store := { σ with files := t }

def endWithFiles {α : Type} (t : FileTree) : EStateM.Result Fault Store α → EStateM.Result Fault Store α
  | .ok a τ => .ok a (τ.withFiles t)
  | .error e τ => .error e (τ.withFiles t)

namespace Config

/-! ### The nearest folder -/

/-- The closest to a folder of the folders that hold a configuration file, at or above it. -/
structure Nearest (t : FileTree) (folder d : List String) : Prop where
  above : d <+: folder
  holds : t.isFile (d ++ [fileName]) = true
  closest : ∀ e, e <+: folder → t.isFile (e ++ [fileName]) = true → e <+: d

variable {t t' : FileTree} {folder steps : List String}

/-- The search as a search among the lengths of the folder's beginnings, the longest first. -/
theorem nearest?_eq (t : FileTree) (folder : List String) : nearest? t folder =
    ((List.range (folder.length + 1)).find? fun k =>
      t.isFile (folder.take (folder.length - k) ++ [fileName])).map fun k =>
        folder.take (folder.length - k) ++ [fileName] := by
  unfold nearest? Path.ancestors
  rw [List.map_map, List.find?_map]
  rfl

/-- The search finds the nearest folder. -/
theorem nearest_of_nearest? {found : List String} (h : nearest? t folder = some found) :
    ∃ d, Nearest t folder d ∧ found = d ++ [fileName] := by
  rw [nearest?_eq] at h
  obtain ⟨k, first, rfl⟩ := Option.map_eq_some_iff.mp h
  obtain ⟨holds, inside, before⟩ := List.find?_range_eq_some.mp first
  refine ⟨_, ⟨List.take_prefix _ _, holds, fun e above file => ?_⟩, rfl⟩
  have short := above.length_le
  have at_e := List.prefix_iff_eq_take.mp above
  by_cases later : k ≤ folder.length - e.length
  · rw [at_e]
    exact List.take_prefix_take_left (by omega)
  · have sooner := before (folder.length - e.length) (by omega)
    rw [Nat.sub_sub_self short, ← at_e, file] at sooner
    cases sooner

/-- The search finds something wherever there is something to find. -/
theorem isFile_of_nearest?_none (h : nearest? t folder = none) {d : List String} (above : d <+: folder) :
    t.isFile (d ++ [fileName]) = false := by
  have none := List.find?_eq_none.mp h (d ++ [fileName])
    (List.mem_map.mpr ⟨d, Path.mem_ancestors.mpr above, rfl⟩)
  exact Bool.eq_false_iff.mpr none

/-- There is only one nearest folder, so the search finds that one. -/
theorem Nearest.nearest? {d : List String} (near : Nearest t folder d) :
    Config.nearest? t folder = some (d ++ [fileName]) := by
  cases first : Config.nearest? t folder with
  | none =>
    have free := isFile_of_nearest?_none first near.above
    rw [near.holds] at free
    cases free
  | some found =>
    obtain ⟨e, other, rfl⟩ := nearest_of_nearest? first
    have below := near.closest e other.above other.holds
    have same := below.eq_of_length_le (other.closest d near.above near.holds).length_le
    rw [same]

/-- Nothing is found where no folder above has the file. -/
theorem nearest?_none (free : ∀ d, d <+: folder → t.isFile (d ++ [fileName]) = false) :
    nearest? t folder = none := by
  cases first : nearest? t folder with
  | none => rfl
  | some found =>
    obtain ⟨d, near, -⟩ := nearest_of_nearest? first
    have absent := free d near.above
    rw [near.holds] at absent
    cases absent

/-! ### Reading a file -/

def noted (message : String) (σ : Store) : Store := { σ with notes := σ.notes ++ [part ++ ": " ++ message] }

/-- What reading a configuration file comes to, by what the file holds. -/
def loadAs (name : String) : FileContent → Eval Value
  | .text s =>
    match Toml.parse? s with
    | some document => do
      note part ("loaded config from " ++ name)
      ofDocument document
    | none => raise .badDocument
  | .grammar _ => raise .badDocument

section Reading

variable {σ : Store} {name : String} {content : FileContent}

/-- A document that can be read becomes settings, and a note says where they are from. -/
theorem loadAs_text {s : String} {document : List (String × Toml)} (parsed : Toml.parse? s = some document) :
    loadAs name (.text s) = note part ("loaded config from " ++ name) >>= fun _ => ofDocument document := by
  simp only [loadAs, parsed]

/-- A document that cannot be read is an error. -/
theorem loadAs_broken {s : String} (parsed : Toml.parse? s = none) :
    loadAs name (.text s) = raise .badDocument := by
  simp only [loadAs, parsed]

theorem readText_file (path : Path.isPath name = true) (found : σ.files.find name = .file content) :
    readText name σ = (match content with
      | .text s => pure s
      | .grammar _ => raise .badDocument : Eval String) σ := by
  unfold readText
  rw [if_pos path, bind_get]
  simp only [found]
  cases content <;> rfl

/-- Reading a configuration by its path reads the file that the path leads to. -/
theorem load_file (path : Path.isPath name = true) (found : σ.files.find name = .file content) :
    load (.path name) σ = loadAs name content σ := by
  have named : pathText (.path name) σ = .ok name σ := rfl
  unfold load
  rw [bind_ok named]
  cases content with
  | text s => exact bind_ok (readText_file path found)
  | grammar definitions => exact bind_error (readText_file path found)

/-- What a document sets is looked up in it, or it is not made of tables. -/
theorem tableSettings_cases (table : Option Toml) (fields : List (String × Value)) :
    (∃ vs, tableSettings table fields = pure vs) ∨ tableSettings table fields = raise .missingAttribute := by
  unfold tableSettings
  split
  · exact .inl ⟨_, rfl⟩
  · exact .inl ⟨_, rfl⟩
  · exact .inr rfl

theorem ofDocument_cases (document : List (String × Toml)) :
    (∃ v, ofDocument document = pure v) ∨ ofDocument document = raise .missingAttribute := by
  unfold ofDocument
  rcases tableSettings_cases (document.lookup "trace")
    [("context", .int 10), ("pad_if_short", .bool false), ("color", .none)] with ⟨trace, first⟩ | first
  · rcases tableSettings_cases (document.lookup "errors") [("context", .int 10), ("color", .bool true)]
      with ⟨errors, second⟩ | second
    · rw [first, second, pure_bind, pure_bind]
      split
      · exact .inl ⟨_, rfl⟩
      · exact .inr rfl
    · rw [first, second, pure_bind]
      exact .inr rfl
  · rw [first]
    exact .inr rfl

/-- How reading a file ends: with settings and a note, with a note and an error about the tables, or with
an error about the document. -/
theorem loadAs_cases (name : String) (content : FileContent) :
    (∃ v, ∀ σ, loadAs name content σ = .ok v (noted ("loaded config from " ++ name) σ)) ∨
    (∀ σ, loadAs name content σ =
      .error (.raised (.error .missingAttribute)) (noted ("loaded config from " ++ name) σ)) ∨
    ∀ σ, loadAs name content σ = .error (.raised (.error .badDocument)) σ := by
  cases content with
  | grammar definitions => exact .inr (.inr fun _ => rfl)
  | text s =>
    cases parsed : Toml.parse? s with
    | none => exact .inr (.inr fun _ => by rw [loadAs_broken parsed]; rfl)
    | some document =>
      rw [loadAs_text parsed]
      rcases ofDocument_cases document with ⟨v, made⟩ | refused
      · rw [made]
        exact .inl ⟨v, fun _ => rfl⟩
      · rw [refused]
        exact .inr (.inl fun _ => rfl)

/-- What is read depends on nothing but what the file holds. -/
theorem loadAs_withFiles (name : String) (content : FileContent) (t : FileTree) (σ : Store) :
    loadAs name content (σ.withFiles t) = endWithFiles t (loadAs name content σ) := by
  rcases loadAs_cases name content with ⟨v, made⟩ | refused | refused
  · rw [made, made]
    rfl
  · rw [refused, refused]
    rfl
  · rw [refused, refused]
    rfl

end Reading

/-! ### Finding a file -/

/-- Where a search starts: at the place of a path, or in the working folder. -/
inductive StartsAt (σ : Store) (start : Value) : List String → Prop where
  | path {p : String} (given : σ.view start = .path p) (path : Path.isPath p = true) :
      StartsAt σ start (Path.resolve σ.files.working p)
  | working (absent : σ.view start = .none) : StartsAt σ start σ.files.working

section Finding

variable {σ : Store} {start : Value}

theorem startOf_eq (h : StartsAt σ start steps) : startOf start σ = .ok steps σ := by
  have filled : truthy start σ = .ok (σ.view start).isTruthy σ := rfl
  have seen : view start σ = .ok (σ.view start) σ := rfl
  unfold startOf
  rw [bind_get]
  cases h with
  | path given path =>
    rw [given] at filled seen
    have filled : truthy start σ = .ok true σ := filled
    rw [bind_ok filled, if_pos rfl, bind_ok seen]
    simp only [path, if_true]
    rfl
  | working absent =>
    rw [absent] at filled
    have empty : truthy start σ = .ok false σ := filled
    rw [bind_ok empty]
    rfl

/-- The steps that a search starts from are names, with nothing left to resolve. -/
theorem StartsAt.named (h : StartsAt σ start steps) (sound : σ.files.Sound) :
    ∀ name ∈ steps, Path.IsName name := by
  have folder := sound.named _ (.inl sound.working)
  cases h with
  | path given path => exact Path.resolve_named folder path
  | working absent => exact folder

def usingFile (found steps : List String) : String :=
  "using " ++ Path.shown found ++ " for " ++ Path.shown steps

/-- The nearest file is found under its path. -/
theorem find_found {found : List String} (h : StartsAt σ start steps)
    (nearest : nearest? σ.files (searchFolder σ.files steps) = some found) :
    find start σ = .ok (.path (Path.shown found)) (noted (usingFile found steps) σ) := by
  unfold find
  rw [bind_ok (startOf_eq h), bind_get]
  simp only [nearest]
  rfl

/-- Where there is none, the error names the folder from which the search started. -/
theorem find_missing (h : StartsAt σ start steps)
    (nearest : nearest? σ.files (searchFolder σ.files steps) = none) :
    find start σ =
      .error (.raised (.error (.noFileAbove fileName (Path.shown (searchFolder σ.files steps))))) σ := by
  unfold find
  rw [bind_ok (startOf_eq h), bind_get]
  simp only [nearest]
  rfl

/-- Whatever goes wrong in a file that exists, it is never that the file is missing. -/
theorem inForce_found {name : String} {content : FileContent} {τ : Store}
    (found : find start σ = .ok (.path name) τ) (path : Path.isPath name = true)
    (there : τ.files.find name = .file content) : inForce start σ = loadAs name content τ := by
  have read : (find start >>= load) σ = loadAs name content τ := by
    rw [bind_ok found]
    exact load_file path there
  unfold inForce
  rw [read]
  rcases loadAs_cases name content with ⟨v, made⟩ | refused | refused
  · rw [made]
  · rw [refused]
    rfl
  · rw [refused]
    rfl

/-- The usual settings are in force where no file is found. -/
theorem inForce_missing {folder : String} {τ : Store}
    (missing : find start σ = .error (.raised (.error (.noFileAbove fileName folder))) τ) :
    inForce start σ = .ok defaults (noted ("no " ++ fileName ++ " found, using defaults") τ) := by
  have read : (find start >>= load) σ = .error (.raised (.error (.noFileAbove fileName folder))) τ :=
    bind_error missing
  unfold inForce
  rw [read]
  rfl

/-- The configuration in force where there is a nearest one: what reading that file comes to. -/
theorem inForce_nearest (sound : σ.files.Sound) (starts : StartsAt σ start steps) {found : List String}
    (nearest : nearest? σ.files (searchFolder σ.files steps) = some found) {content : FileContent}
    (held : σ.files.file? found = some content) :
    inForce start σ = loadAs (Path.shown found) content (noted (usingFile found steps) σ) := by
  have file := FileTree.isFile_iff.mpr ⟨content, held⟩
  exact inForce_found (find_found starts nearest) (Path.isPath_shown (sound.named _ (.inr file)))
    (sound.find_shown held)

/-! ### Other trees -/

/-- The start does not depend on the files. -/
theorem StartsAt.withFiles (starts : StartsAt σ start steps) (same : t'.working = σ.files.working) :
    StartsAt (σ.withFiles t') start steps := by
  cases starts with
  | path given path => exact same ▸ StartsAt.path (σ := σ.withFiles t') given path
  | working absent => exact same ▸ StartsAt.working (σ := σ.withFiles t') absent

/-- Where the search ends depends only on which files exist. -/
theorem nearest?_alike {read : List String → Prop} (alike : t.Alike read t') (steps : List String) :
    nearest? t' (searchFolder t' steps) = nearest? t (searchFolder t steps) := by
  have places : t'.isFile = t.isFile := funext alike.places
  rw [nearest?, nearest?, searchFolder, searchFolder, places]

end Finding

/-- The nearest configuration wins.  The search starts in the folder of a file, and at any other place
itself.  If a folder at or above holds a configuration file, then the search finds the file in the closest
such folder, and the configuration in force is what reading that file comes to; what other files hold makes
no difference.  If there is none, then the search ends with the error that says so, and the usual settings
are in force, whatever the files hold. -/
theorem nearest_wins {σ : Store} {start : Value} {steps : List String} (sound : σ.files.Sound)
    (starts : StartsAt σ start steps) :
    let folder := if σ.files.isFile steps then steps.dropLast else steps
    (∀ name ∈ steps, Path.IsName name) ∧
    (∀ d, Nearest σ.files folder d →
      let file := d ++ [fileName]
      let after := noted (usingFile file steps) σ
      σ.files.isFolder d = true ∧
      (∃ content, σ.files.file? file = some content ∧
        σ.files.find (Path.shown file) = .file content) ∧
      find start σ = .ok (.path (Path.shown file)) after ∧
      inForce start σ = load (.path (Path.shown file)) after ∧
      ∀ t', σ.files.Alike (· = file) t' →
        inForce start (σ.withFiles t') = endWithFiles t' (inForce start σ)) ∧
    ((∀ d, d <+: folder → σ.files.isFile (d ++ [fileName]) = false) →
      find start σ = .error (.raised (.error (.noFileAbove fileName (Path.shown folder)))) σ ∧
      inForce start σ = .ok defaults (noted ("no " ++ fileName ++ " found, using defaults") σ) ∧
      ∀ t', σ.files.Alike (fun _ => False) t' →
        inForce start (σ.withFiles t') = endWithFiles t' (inForce start σ)) ∧
    ((∃ d, Nearest σ.files folder d) ∨ ∀ d, d <+: folder → σ.files.isFile (d ++ [fileName]) = false) := by
  intro folder
  refine ⟨starts.named sound, fun d near => ?_, fun free => ?_, ?_⟩
  · intro file after
    obtain ⟨content, held⟩ := FileTree.isFile_iff.mp near.holds
    have above : σ.files.isFolder d = true := by
      have inside := sound.inside _ (.inr near.holds)
      rwa [List.dropLast_concat] at inside
    have first : nearest? σ.files folder = some file := near.nearest?
    have there := sound.find_shown held
    have path := Path.isPath_shown (sound.named _ (.inr near.holds))
    have forced := inForce_nearest sound starts first held
    refine ⟨above, ⟨content, held, there⟩, find_found starts first, ?_, fun t' alike => ?_⟩
    · rw [forced]
      exact (load_file (σ := after) path there).symm
    -- The search and the load read nothing of the other files.
    · have same : (σ.withFiles t').files.file? file = some content := (alike.contents file rfl).trans held
      have first' := (nearest?_alike alike steps).trans first
      rw [inForce_nearest (σ := σ.withFiles t') (alike.sound sound) (starts.withFiles alike.working) first' same,
        forced]
      exact loadAs_withFiles _ _ t' after
  · have none : nearest? σ.files folder = none := nearest?_none free
    have missing := find_missing starts none
    refine ⟨missing, inForce_missing missing, fun t' alike => ?_⟩
    have none' := (nearest?_alike alike steps).trans none
    rw [inForce_missing missing,
      inForce_missing (find_missing (σ := σ.withFiles t') (starts.withFiles alike.working) none')]
    rfl
  · cases first : nearest? σ.files folder with
    | none => exact .inr fun d => isFile_of_nearest?_none first
    | some found =>
      obtain ⟨d, near, -⟩ := nearest_of_nearest? first
      exact .inl ⟨d, near⟩

/-- A folder with a configuration file below the root, which has one too; deeper there is only a folder of
that name, beside an input. -/
def nestedFiles : FileTree :=
  ((((({} : FileTree).addFile [fileName] (.text "[trace]\ncontext = 1\n")).addFile ["work", fileName]
    (.text "[trace]\ncontext = 3\n")).addFolder ["work", "deep", fileName]).addFile
    ["work", "deep", "input"] (.text ""))

theorem nestedFiles_sound : nestedFiles.Sound :=
  (((FileTree.sound_empty.addFile (by decide) (by decide) (by decide) (by decide)).addFile
    (by decide) (by decide) (by decide) (by decide)).addFolder (by decide) (by decide)).addFile
    (by decide) (by decide) (by decide) (by decide)

/-- For an input that is named by a winding path, the file one folder up is read: the folder of that name
beside the input is passed over, and the file at the root is too far.  In an empty tree the usual settings
are in force. -/
theorem nearest_wins_nested :
    (let start : Value := .path "work/../work/./deep/input"
      let σ : Store := { files := nestedFiles }
      StartsAt σ start ["work", "deep", "input"] ∧ Nearest nestedFiles ["work", "deep"] ["work"] ∧
      ∃ τ, find start σ = .ok (.path "/work/partser.toml") τ ∧
        inForce start σ = load (.path "/work/partser.toml") τ) ∧
    ∃ τ, inForce .none {} = .ok defaults τ := by
  refine ⟨?_, ?_⟩
  · intro start σ
    have relative : Path.isAbsolute "work/../work/./deep/input" = false :=
      Bool.eq_false_iff.mpr (mt Path.isAbsolute_iff.mp (by decide))
    have resolved : Path.resolve [] "work/../work/./deep/input" = ["work", "deep", "input"] := by
      rw [Path.resolve, relative]
      decide
    have starts : StartsAt σ start ["work", "deep", "input"] :=
      resolved ▸ StartsAt.path (σ := σ) rfl (by decide)
    have near : Nearest nestedFiles ["work", "deep"] ["work"] := by
      have first : nearest? nestedFiles ["work", "deep"] = some (["work"] ++ [fileName]) := by decide
      obtain ⟨d, near, same⟩ := nearest_of_nearest? first
      rwa [List.append_cancel_right same]
    obtain ⟨-, wins, -⟩ := nearest_wins nestedFiles_sound starts
    obtain ⟨-, -, found, forced, -⟩ := wins ["work"] near
    exact ⟨starts, near, _, found, forced⟩
  · have starts : StartsAt {} .none [] := .working rfl
    obtain ⟨-, -, usual, -⟩ := nearest_wins FileTree.sound_empty starts
    obtain ⟨-, forced, -⟩ := usual fun _ _ => rfl
    exact ⟨_, forced⟩

end Config

end Rebind
