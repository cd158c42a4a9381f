/-!
# Lines

A text as the pieces between the places where a character stands, and so as lines: the pieces between its
newlines.  There is always at least one.
-/
namespace Rebind.Text

def pieces (separator : Char) : List Char → List (List Char)
  | [] => [[]]
  | c :: rest =>
    if c = separator then [] :: pieces separator rest
    else match pieces separator rest with
      | piece :: others => (c :: piece) :: others
      | [] => [[c]]

theorem pieces_ne_nil (separator : Char) (cs : List Char) : pieces separator cs ≠ [] := by
  cases cs with
  | nil => simp [pieces]
  | cons c rest =>
    rw [pieces]
    split
    · simp
    · split <;> simp

/-- Without a separator there is one piece. -/
theorem pieces_unbroken {separator : Char} {cs : List Char} (h : separator ∉ cs) :
    pieces separator cs = [cs] := by
  induction cs with
  | nil => rfl
  | cons c rest ih =>
    simp only [List.mem_cons, not_or] at h
    have other : c ≠ separator := fun same => h.1 same.symm
    simp [pieces, ih h.2, other]

/-- The pieces before and after a separator. -/
theorem pieces_append (separator : Char) (front rest : List Char) :
    pieces separator (front ++ separator :: rest) = pieces separator front ++ pieces separator rest := by
  induction front with
  | nil => simp [pieces]
  | cons c front ih =>
    by_cases same : c = separator
    · simp [pieces, same, ih]
    · cases split : pieces separator front with
      | nil => exact absurd split (pieces_ne_nil separator front)
      | cons piece others => simp [pieces, same, ih, split]

/-- A piece holds characters of the text, and no separator. -/
theorem mem_pieces {separator : Char} {cs piece : List Char} (h : piece ∈ pieces separator cs) :
    separator ∉ piece ∧ piece ⊆ cs := by
  induction cs generalizing piece with
  | nil =>
    obtain rfl := List.mem_singleton.mp h
    exact ⟨List.not_mem_nil, List.Subset.refl _⟩
  | cons c rest ih =>
    by_cases same : c = separator
    · rw [pieces, if_pos same] at h
      rcases List.mem_cons.mp h with rfl | later
      · exact ⟨List.not_mem_nil, List.nil_subset _⟩
      · exact ⟨(ih later).1, List.subset_cons_of_subset c (ih later).2⟩
    · cases split : pieces separator rest with
      | nil => exact absurd split (pieces_ne_nil separator rest)
      | cons first others =>
        simp only [pieces, same, if_false, split] at h
        rw [split] at ih
        rcases List.mem_cons.mp h with rfl | later
        · obtain ⟨free, part⟩ := ih List.mem_cons_self
          have absent : separator ∉ c :: first := by
            simp only [List.mem_cons, not_or]
            exact ⟨fun equal => same equal.symm, free⟩
          exact ⟨absent, List.cons_subset_cons c part⟩
        · obtain ⟨free, part⟩ := ih (List.mem_cons_of_mem _ later)
          exact ⟨free, List.subset_cons_of_subset c part⟩

/-- The parts of a text between the places where a character stands. -/
def parts (separator : Char) (s : String) : List String :=
  (pieces separator s.toList).map String.ofList

def splitLines (cs : List Char) : List (List Char) := pieces '\n' cs

def lines (s : String) : List String := (splitLines s.toList).map String.ofList

theorem splitLines_nil : splitLines [] = [[]] := rfl

theorem splitLines_cons (c : Char) (rest : List Char) : splitLines (c :: rest) =
    if c = '\n' then [] :: splitLines rest
    else match splitLines rest with
      | line :: lines => (c :: line) :: lines
      | [] => [[c]] := rfl

theorem splitLines_ne_nil (cs : List Char) : splitLines cs ≠ [] := pieces_ne_nil '\n' cs

end Rebind.Text
