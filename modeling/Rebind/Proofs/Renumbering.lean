import Rebind.Proofs.Agreement
import Rebind.Proofs.Attempt
import Rebind.Proofs.Identities
/-!
# Values under other numbers

Parsers, printing handlers and objects are told apart by numbers that are given out in turn.  Where a
program makes one parser, one handler and one object more than another one does, all that come later have
the next number.  Nothing that a value shows depends on its numbers: a value with its numbers changed in
this way reads, in a store with the numbers changed, as the value itself does.
-/
namespace Rebind

/-- The numbers that one of two programs gave to something of its own. -/
structure Gap where
  parser : ParserId
  echo : HandlerId
  object : Nat

/-- The next number from a place on, which leaves out that place. -/
def past (place n : Nat) : Nat := if n < place then n else n + 1

theorem past_of_lt {place n : Nat} (h : n < place) : past place n = n := if_pos h

theorem past_of_le {place n : Nat} (h : place ≤ n) : past place n = n + 1 := if_neg (by omega)

theorem past_ne (place n : Nat) : past place n ≠ place := by
  unfold past
  split <;> omega

theorem past_injective {place m n : Nat} (h : past place m = past place n) : m = n := by
  unfold past at h
  split at h <;> split at h <;> omega

/-- With a number left out there is one more. -/
theorem past_lt_succ {place size n : Nat} (h : place ≤ size) : past place n < size + 1 ↔ n < size := by
  unfold past
  split <;> omega

mutual

/-- A value with the numbers that are left. -/
def Value.renumbered (g : Gap) : Value → Value
  | .list items => .list (Value.renumberedAll g items)
  | .tuple items => .tuple (Value.renumberedAll g items)
  | .dict entries => .dict (Value.renumberedEntries g entries)
  | .set items => .set (Value.renumberedAll g items)
  | .object id v => .object (past g.object id) (Value.renumbered g v)
  | .parser id => .parser (past g.parser id)
  | .behaviour b => .behaviour (Behaviour.renumbered g b)
  | .closure parameters body captured title scope =>
    .closure parameters body (Value.renumberedNamed g captured) title scope
  | .result a b c => .result (Value.renumbered g a) (Value.renumbered g b) (Value.renumbered g c)
  | .mark a b c => .mark (Value.renumbered g a) (Value.renumbered g b) (Value.renumbered g c)
  | .lineColumn a b c =>
    .lineColumn (Value.renumbered g a) (Value.renumbered g b) (Value.renumbered g c)
  | .handler methods => .handler (Value.renumberedNamed g methods)
  | .echo id => .echo (past g.echo id)
  | .settings a b c d e =>
    .settings (Value.renumbered g a) (Value.renumbered g b) (Value.renumbered g c)
      (Value.renumbered g d) (Value.renumbered g e)
  | .source t name => .source t (Value.renumbered g name)
  | .renderer a b => .renderer (Value.renumbered g a) (Value.renumbered g b)
  | .mismatch a b c message =>
    .mismatch (Value.renumbered g a) (Value.renumbered g b) (Value.renumbered g c) message
  | .none => .none
  | .bool b => .bool b
  | .int n => .int n
  | .float x => .float x
  | .str s => .str s
  | .pattern r => .pattern r
  | .path p => .path p
  | .moment kind => .moment kind
  | .error c => .error c

def Value.renumberedAll (g : Gap) : List Value → List Value
  | [] => []
  | v :: rest => Value.renumbered g v :: Value.renumberedAll g rest

def Value.renumberedEntries (g : Gap) : List (Value × Value) → List (Value × Value)
  | [] => []
  | (k, v) :: rest => (Value.renumbered g k, Value.renumbered g v) :: Value.renumberedEntries g rest

def Value.renumberedNamed (g : Gap) : List (String × Value) → List (String × Value)
  | [] => []
  | (name, v) :: rest => (name, Value.renumbered g v) :: Value.renumberedNamed g rest

def Behaviour.renumbered (g : Gap) : Behaviour Value → Behaviour Value
  | .anyChar => .anyChar
  | .rest => .rest
  | .eof => .eof
  | .index => .index
  | .lineColumnIndex => .lineColumnIndex
  | .succeed v => .succeed (Value.renumbered g v)
  | .fail d => .fail d
  | .string s => .string s
  | .regex r group => .regex r group
  | .testChar f d => .testChar (Value.renumbered g f) d
  | .sequence ps => .sequence (ps.map (past g.parser))
  | .alternative ps => .alternative (ps.map (past g.parser))
  | .repetition p least most => .repetition (past g.parser p) least most
  | .transform p f => .transform (past g.parser p) (Value.renumbered g f)
  | .exclude p q => .exclude (past g.parser p) (past g.parser q)
  | .describe p d => .describe (past g.parser p) d
  | .mark p => .mark (past g.parser p)
  | .chain p f => .chain (past g.parser p) (Value.renumbered g f)
  | .subEnvironment p f => .subEnvironment (past g.parser p) (Value.renumbered g f)
  | .deferredLookup f name => .deferredLookup (Value.renumbered g f) name
  | .debug p h => .debug (past g.parser p) (Value.renumbered g h)

end

section Values

variable {g : Gap} {v : Value} {n : Nat}

theorem renumberedAll_eq (vs : List Value) : Value.renumberedAll g vs = vs.map (·.renumbered g) := by
  induction vs with
  | nil => rfl
  | cons v rest ih => simp only [Value.renumberedAll, ih, List.map_cons]

theorem renumberedEntries_eq (entries : List (Value × Value)) :
    Value.renumberedEntries g entries = entries.map fun e => (e.1.renumbered g, e.2.renumbered g) := by
  induction entries with
  | nil => rfl
  | cons e rest ih => simp only [Value.renumberedEntries, ih, List.map_cons]

theorem renumberedNamed_eq (named : List (String × Value)) :
    Value.renumberedNamed g named = named.map fun e => (e.1, e.2.renumbered g) := by
  induction named with
  | nil => rfl
  | cons e rest ih => simp only [Value.renumberedNamed, ih, List.map_cons]

/-- The content of a value is renumbered with it. -/
theorem content_renumbered (v : Value) : (v.renumbered g).content = v.content.renumbered g := by
  cases v <;> rfl

theorem functionName_renumbered (b : Behaviour Value) :
    (b.renumbered g).functionName = b.functionName := by
  cases b <;> rfl

theorem functionName?_renumbered (f : Value) :
    (f.renumbered g).functionName? = f.functionName? := by
  unfold Value.functionName?
  rw [content_renumbered]
  cases f.content with
  | behaviour b => exact congrArg some (functionName_renumbered b)
  | closure _ _ _ title _ => cases title <;> rfl
  | _ => rfl

theorem isTruthy_renumbered (v : Value) : (v.renumbered g).isTruthy = v.isTruthy := by
  cases v <;> simp [Value.renumbered, Value.isTruthy, renumberedAll_eq, renumberedEntries_eq]

theorem Value.IsPlain.renumbered (h : v.IsPlain) : v.renumbered g = v := by
  cases v with
  | none | bool | int | float | str => rfl
  | _ => exact h.elim

def Attempt.renumbered (g : Gap) : Attempt → Attempt
  | .matched stop v => .matched stop (v.renumbered g)
  | .missed place expected => .missed place expected

end Values

mutual

/-- Data that was made before the gap keeps its numbers. -/
theorem Value.Below.renumbered {g : Gap} {n : Nat} (before : n ≤ g.object) :
    ∀ {v : Value}, v.Below n → v.renumbered g = v
  | .none, _ | .bool _, _ | .int _, _ | .float _, _ | .str _, _ => rfl
  | .list _, h => congrArg Value.list (Value.AllBelow.renumbered before h)
  | .tuple _, h => congrArg Value.tuple (Value.AllBelow.renumbered before h)
  | .set _, h => congrArg Value.set (Value.AllBelow.renumbered before h)
  | .dict _, h => congrArg Value.dict (Value.EntriesBelow.renumbered before h)
  | .object id v, h => by
    have first : id < g.object := Nat.lt_of_lt_of_le h.1 before
    simp only [Value.renumbered, past_of_lt first]
    rw [Value.Below.renumbered (Nat.le_of_lt first) h.2.2]
  | .result _ _ _, h | .mark _ _ _, h | .lineColumn _ _ _, h => by
    simp only [Value.renumbered]
    rw [Value.Below.renumbered before h.1, Value.Below.renumbered before h.2.1,
      Value.Below.renumbered before h.2.2]

theorem Value.AllBelow.renumbered {g : Gap} {n : Nat} (before : n ≤ g.object) :
    ∀ {vs : List Value}, Value.AllBelow vs n → Value.renumberedAll g vs = vs
  | [], _ => rfl
  | _ :: _, h => congrArg₂ List.cons (Value.Below.renumbered before h.1)
    (Value.AllBelow.renumbered before h.2)

theorem Value.EntriesBelow.renumbered {g : Gap} {n : Nat} (before : n ≤ g.object) :
    ∀ {es : List (Value × Value)}, Value.EntriesBelow es n → Value.renumberedEntries g es = es
  | [], _ => rfl
  | (_, _) :: _, h => congrArg₂ List.cons
    (congrArg₂ Prod.mk (Value.Below.renumbered before h.1) (Value.Below.renumbered before h.2.1))
    (Value.EntriesBelow.renumbered before h.2.2)

end

mutual

/-- Identities that are given out after the gap are the next ones. -/
theorem identify_renumbered {g : Gap} : ∀ (v : Value) {n : Nat}, g.object ≤ n →
    (v.renumbered g).identify (n + 1) = ((v.identify n).1.renumbered g, (v.identify n).2 + 1)
  | .none, _, _ | .bool _, _, _ | .int _, _, _ | .float _, _, _ | .str _, _, _ | .object _ _, _, _
  | .parser _, _, _ | .echo _, _, _ => rfl
  | .lineColumn _ _ _, n, h | .behaviour _, n, h | .closure _ _ _ _ _, n, h | .pattern _, n, h
  | .path _, n, h | .moment _, n, h | .handler _, n, h | .source _ _, n, h | .renderer _ _, n, h
  | .error _, n, h => by
    simp only [Value.renumbered, Value.identify, past_of_le h]
  | .list items, n, h | .set items, n, h => by
    have onward := Nat.le_trans h (le_identifyAll items n)
    simp only [Value.renumbered, Value.identify, identifyAll_renumbered items h, past_of_le onward]
  | .dict entries, n, h => by
    have onward := Nat.le_trans h (le_identifyEntries entries n)
    simp only [Value.renumbered, Value.identify, identifyEntries_renumbered entries h, past_of_le onward]
  | .tuple items, n, h => by
    have onward := Nat.le_trans h (le_identifyAll items n)
    have empty : (Value.renumberedAll g items).isEmpty = items.isEmpty := by
      cases items <;> rfl
    simp only [Value.renumbered, Value.identify, empty, identifyAll_renumbered items h]
    split
    · rfl
    · simp only [Value.renumbered, past_of_le onward]
  | .result a b c, n, h | .mark a b c, n, h | .mismatch a b c _, n, h => by
    have first := Nat.le_trans h (le_identify a n)
    have second := Nat.le_trans first (le_identify b _)
    have third := Nat.le_trans second (le_identify c _)
    simp only [Value.renumbered, Value.identify, identify_renumbered a h, identify_renumbered b first,
      identify_renumbered c second, past_of_le third]
  | .settings a b c d e, n, h => by
    have first := Nat.le_trans h (le_identify a n)
    have second := Nat.le_trans first (le_identify b _)
    have third := Nat.le_trans second (le_identify c _)
    have fourth := Nat.le_trans third (le_identify d _)
    have fifth := Nat.le_trans fourth (le_identify e _)
    simp only [Value.renumbered, Value.identify, identify_renumbered a h, identify_renumbered b first,
      identify_renumbered c second, identify_renumbered d third, identify_renumbered e fourth,
      past_of_le fifth]

/-- Identities are given past the number that is left out. -/
theorem identifyAll_renumbered {g : Gap} : ∀ (vs : List Value) {n : Nat}, g.object ≤ n →
    Value.identifyAll (Value.renumberedAll g vs) (n + 1) =
      (Value.renumberedAll g (Value.identifyAll vs n).1, (Value.identifyAll vs n).2 + 1)
  | [], _, _ => rfl
  | v :: rest, n, h => by
    have onward := Nat.le_trans h (le_identify v n)
    simp only [Value.renumberedAll, Value.identifyAll, identify_renumbered v h,
      identifyAll_renumbered rest onward]

theorem identifyEntries_renumbered {g : Gap} : ∀ (es : List (Value × Value)) {n : Nat}, g.object ≤ n →
    Value.identifyEntries (Value.renumberedEntries g es) (n + 1) =
      (Value.renumberedEntries g (Value.identifyEntries es n).1, (Value.identifyEntries es n).2 + 1)
  | [], _, _ => rfl
  | (k, v) :: rest, n, h => by
    have first := Nat.le_trans h (le_identify k n)
    have onward := Nat.le_trans first (le_identify v _)
    simp only [Value.renumberedEntries, Value.identifyEntries, identify_renumbered k h,
      identify_renumbered v first, identifyEntries_renumbered rest onward]

end

/-! ### What is seen from outside -/

namespace Datum

mutual

/-- What is seen of a value with the numbers that are left. -/
def renumbered (g : Gap) : Datum → Datum
  | .none => .none
  | .bool b => .bool b
  | .int n => .int n
  | .float x => .float x
  | .str s => .str s
  | .list items => .list (renumberedAll g items)
  | .tuple items => .tuple (renumberedAll g items)
  | .dict entries => .dict (renumberedEntries g entries)
  | .set items => .set (renumberedAll g items)
  | .parser id name shown => .parser (past g.parser id) (renumbered g name) shown
  | .function identity name shown => .function (identity.map (past g.object)) name shown
  | .builtin identity name => .builtin (identity.map (past g.object)) name
  | .result a b c => .result (renumbered g a) (renumbered g b) (renumbered g c)
  | .mark a b c => .mark (renumbered g a) (renumbered g b) (renumbered g c)
  | .lineColumn a b c => .lineColumn (renumbered g a) (renumbered g b) (renumbered g c)
  | .pattern r => .pattern r
  | .path p => .path p
  | .moment kind => .moment kind
  | .handler identity => .handler (identity.map (past g.object))
  | .echo id depth => .echo (past g.echo id) (renumbered g depth)
  | .settings a b c d e => .settings (renumbered g a) (renumbered g b) (renumbered g c)
    (renumbered g d) (renumbered g e)
  | .source identity name lines => .source (identity.map (past g.object)) (renumbered g name) lines
  | .renderer identity => .renderer (identity.map (past g.object))
  | .error identity c => .error (identity.map (past g.object)) c
  | .mismatch identity i v name message =>
    .mismatch (identity.map (past g.object)) (renumbered g i) (renumbered g v) (renumbered g name) message
  | .again shown => .again shown

def renumberedAll (g : Gap) : List Datum → List Datum
  | [] => []
  | d :: rest => renumbered g d :: renumberedAll g rest

def renumberedEntries (g : Gap) : List (Datum × Datum) → List (Datum × Datum)
  | [] => []
  | (k, d) :: rest => (renumbered g k, renumbered g d) :: renumberedEntries g rest

end

variable {g : Gap}

mutual

/-- A literal does not show numbers. -/
theorem literal_renumbered : ∀ d : Datum, (d.renumbered g).literal = d.literal
  | .none | .bool _ | .int _ | .float _ | .str _ | .parser _ _ _ | .function _ _ _ | .builtin _ _
  | .pattern _ | .path _ | .moment _ | .handler _ | .echo _ _ | .source _ _ _ | .renderer _ | .error _ _
  | .mismatch _ _ _ _ _ | .again _ => rfl
  | .list items | .tuple items => by
    simp only [renumbered, literal, literals_renumbered items]
  | .dict entries => by
    simp only [renumbered, literal, entryLiterals_renumbered entries]
  | .set items => by
    have empty : (renumberedAll g items).isEmpty = items.isEmpty := by
      cases items <;> rfl
    simp only [renumbered, literal, empty, literals_renumbered items]
  | .result a b c | .mark a b c | .lineColumn a b c => by
    simp only [renumbered, literal, literal_renumbered a, literal_renumbered b, literal_renumbered c]
  | .settings a b c d e => by
    simp only [renumbered, literal, literal_renumbered a, literal_renumbered b, literal_renumbered c,
      literal_renumbered d, literal_renumbered e]

theorem literals_renumbered : ∀ ds : List Datum, literals (renumberedAll g ds) = literals ds
  | [] => rfl
  | d :: rest => congrArg₂ List.cons (literal_renumbered d) (literals_renumbered rest)

theorem entryLiterals_renumbered : ∀ es : List (Datum × Datum),
    entryLiterals (renumberedEntries g es) = entryLiterals es
  | [] => rfl
  | (k, d) :: rest => by
    simp only [renumberedEntries, entryLiterals, literal_renumbered k, literal_renumbered d,
      entryLiterals_renumbered rest]

end

/-- A text does not either. -/
theorem text_renumbered : ∀ d : Datum, (d.renumbered g).text = d.text
  | .lineColumn _ line column => by
    simp only [renumbered, text, text_renumbered line, text_renumbered column]
  | .str _ | .path _ | .error _ _ | .mismatch _ _ _ _ _ => rfl
  | .none | .bool _ | .int _ | .float _ | .parser _ _ _ | .function _ _ _ | .builtin _ _
  | .pattern _ | .moment _ | .handler _ | .echo _ _ | .source _ _ _ | .renderer _ | .again _ => rfl
  | .list items => literal_renumbered (.list items)
  | .tuple items => literal_renumbered (.tuple items)
  | .dict entries => literal_renumbered (.dict entries)
  | .set items => literal_renumbered (.set items)
  | .result a b c => literal_renumbered (.result a b c)
  | .mark a b c => literal_renumbered (.mark a b c)
  | .settings a b c d e => literal_renumbered (.settings a b c d e)

theorem keyName?_renumbered (d : Datum) : (d.renumbered g).keyName? = d.keyName? := by
  cases d <;> rfl

mutual

/-- Nor does JSON. -/
theorem toJson_renumbered (how : Leniency) : ∀ d : Datum, (d.renumbered g).toJson how = d.toJson how
  | .none | .bool _ | .int _ | .float _ | .str _ | .again _ => rfl
  | .list items | .tuple items => by
    simp only [renumbered, toJson, toJsonAll_renumbered how items]
  | .dict entries => by
    simp only [renumbered, toJson, toJsonEntries_renumbered how entries]
  | .result a b c | .mark a b c | .lineColumn a b c => by
    simp only [renumbered, toJson, toJson_renumbered .copied a, toJson_renumbered .copied b,
      toJson_renumbered .copied c]
  | .settings a b c d e => by
    simp only [renumbered, toJson, toJson_renumbered .copied a, toJson_renumbered .copied b,
      toJson_renumbered .copied c, toJson_renumbered .copied d, toJson_renumbered .copied e]
  | .set items => by
    have same := literal_renumbered (g := g) (.set items)
    cases how <;> simp only [renumbered, toJson] at same ⊢ <;> rw [same]
  | .parser _ _ _ | .function _ _ _ | .builtin _ _ | .pattern _ | .path _ | .moment _ | .handler _
  | .echo _ _ | .source _ _ _ | .renderer _ | .error _ _ | .mismatch _ _ _ _ _ => by
    cases how <;> rfl

theorem toJsonAll_renumbered (how : Leniency) : ∀ ds : List Datum,
    toJsonAll how (renumberedAll g ds) = toJsonAll how ds
  | [] => rfl
  | d :: rest => by
    simp only [renumberedAll, toJsonAll, toJson_renumbered how d, toJsonAll_renumbered how rest]

theorem toJsonEntries_renumbered (how : Leniency) : ∀ es : List (Datum × Datum),
    toJsonEntries how (renumberedEntries g es) = toJsonEntries how es
  | [] => rfl
  | (k, d) :: rest => by
    simp only [renumberedEntries, toJsonEntries, keyName?_renumbered k, toJson_renumbered how d,
      toJsonEntries_renumbered how rest]

end

end Datum

/-! ### Stores -/

def ParserState.renumbered (g : Gap) (s : ParserState) : ParserState :=
  ⟨s.behaviour.renumbered g, s.displayName.renumbered g⟩

def EchoState.renumbered (g : Gap) (s : EchoState) : EchoState :=
  ⟨s.context.renumbered g, s.padIfShort.renumbered g, s.onEnter.renumbered g, s.onExit.renumbered g,
    s.color.renumbered g, s.depth.renumbered g⟩

/-- A store that holds what another one does, under the numbers that are left, and one parser, one printing
handler and one object more.  Parsers are called by texts, and handlers are nested to whole depths. -/
structure Store.Beside (g : Gap) (σ τ : Store) : Prop where
  edits : τ.edits = σ.edits.map fun e => (past g.object e.1, e.2.renumbered g)
  objects : τ.nextObject = σ.nextObject + 1
  object : g.object ≤ σ.nextObject
  parsers : ∀ p, τ.parser? (past g.parser p) = (σ.parser? p).map (·.renumbered g)
  size : τ.parsers.size = σ.parsers.size + 1
  parser : g.parser ≤ σ.parsers.size
  echoes : ∀ e, τ.echoes[past g.echo e]? = σ.echoes[e]?.map (·.renumbered g)
  handlers : τ.echoes.size = σ.echoes.size + 1
  echo : g.echo ≤ σ.echoes.size
  scopes : τ.scopes = σ.scopes.map (Value.renumberedNamed g)
  files : τ.files = σ.files
  named : ∀ p s, σ.parser? p = some s → ∃ name, s.displayName = .str name
  depths : ∀ (e : HandlerId) (s : EchoState), σ.echoes[e]? = some s → ∃ n, s.depth = .int n

section Beside

variable {g : Gap} {σ τ : Store}

/-- A changed object is found under its new number. -/
theorem lookup_past {place : Nat} (entries : List (Nat × Value)) (id : Nat) :
    (entries.map fun e => (past place e.1, e.2.renumbered g)).lookup (past place id) =
      (entries.lookup id).map (·.renumbered g) := by
  induction entries with
  | nil => rfl
  | cons e rest ih =>
    obtain ⟨here, v⟩ := e
    have same : (past place id == past place here) = (id == here) := by
      rw [Bool.eq_iff_iff, beq_iff_eq, beq_iff_eq]
      exact ⟨past_injective, congrArg _⟩
    simp only [List.map_cons, List.lookup_cons, same, ih]
    cases id == here <;> rfl

theorem contains_past {place : Nat} (inside : List Nat) (id : Nat) :
    (inside.map (past place)).contains (past place id) = inside.contains id := by
  simp only [List.contains_eq_mem, List.mem_map, decide_eq_decide]
  exact ⟨fun ⟨_, member, same⟩ => past_injective same ▸ member, fun member => ⟨id, member, rfl⟩⟩

/-- What stands for an object inside itself does not show numbers. -/
theorem cutText_renumbered (v : Value) : Store.cutText (v.renumbered g) = Store.cutText v := by
  cases v <;> rfl

/-- Contents correspond in stores beside each other. -/
theorem Store.Beside.view (h : σ.Beside g τ) (v : Value) :
    τ.view (v.renumbered g) = (σ.view v).renumbered g := by
  cases v with
  | object id content =>
    simp only [Value.renumbered, Store.view, h.edits, lookup_past]
    cases σ.edits.lookup id <;> rfl
  | _ => rfl

/-- So do the parsers that exist. -/
theorem Store.Beside.isParser (h : σ.Beside g τ) (v : Value) :
    τ.isParser (v.renumbered g) = σ.isParser v := by
  cases v with
  | parser p =>
    simp only [Value.renumbered, Store.isParser, h.size, past_lt_succ h.parser]
  | _ => rfl

/-- What a parser is called does not change. -/
theorem Store.Beside.plainName (h : σ.Beside g τ) (p : ParserId) :
    τ.plainName (past g.parser p) = σ.plainName p := by
  unfold Store.plainName
  rw [h.parsers p]
  cases known : σ.parser? p with
  | none => rfl
  | some s =>
    obtain ⟨behaviour, displayName⟩ := s
    obtain ⟨name, rfl⟩ := h.named p _ known
    rfl

/-- What is filled in on the way into values, on either side, where less than so many changed objects can be
met any more. -/
structure Fillings (g : Gap) (σ : Store) (n : Nat) (later later' : List Nat → Option Nat → Value → Datum) :
    Prop where
  number : ∀ inside inside' k, later inside none (.int k) = .int k ∧ later' inside' none (.int k) = .int k
  shown : ∀ inside identity u, σ.unmet inside < n →
    later' (inside.map (past g.object)) (identity.map (past g.object)) (u.renumbered g) =
      (later inside identity u).renumbered g

mutual

/-- A value shows the same, by induction on it, if what is filled in does. -/
theorem Store.Beside.snapshotWith (h : σ.Beside g τ) {n : Nat}
    {later later' : List Nat → Option Nat → Value → Datum} (filled : Fillings g σ n later later') :
    ∀ (v : Value) {inside : List Nat} (identity : Option Nat), σ.unmet inside ≤ n →
      τ.snapshotWith later' (inside.map (past g.object)) (identity.map (past g.object)) (v.renumbered g) =
        (σ.snapshotWith later inside identity v).renumbered g
  | .none, _, _, _ | .bool _, _, _, _ | .int _, _, _, _ | .float _, _, _, _ | .str _, _, _, _
  | .pattern _, _, _, _ | .path _, _, _, _ | .moment _, _, _, _ | .handler _, _, _, _
  | .renderer _ _, _, _, _ | .error _, _, _, _ => rfl
  | .behaviour b, _, _, _ => congrArg (Datum.builtin _) (functionName_renumbered b)
  | .closure _ _ _ title _, _, _, _ => by
    cases title <;> rfl
  | .list items, _, _, met => congrArg Datum.list (h.snapshotAll filled items met)
  | .tuple items, _, _, met => congrArg Datum.tuple (h.snapshotAll filled items met)
  | .set items, _, _, met => congrArg Datum.set (h.snapshotAll filled items met)
  | .dict entries, _, _, met => congrArg Datum.dict (h.snapshotEntries filled entries met)
  | .object id v, inside, _, met => by
    simp only [Value.renumbered, Store.snapshotWith, contains_past, h.edits, lookup_past]
    cases new : inside.contains id with
    | true => exact congrArg Datum.again (cutText_renumbered v)
    | false =>
      cases known : σ.edits.lookup id with
      | some w => exact filled.shown _ (some id) w (Nat.lt_of_lt_of_le (unmet_cons_lt known new) met)
      | none =>
        have fewer := Nat.le_trans (unmet_cons_le σ id inside) met
        exact h.snapshotWith filled v (some id) fewer
  | .parser p, _, _, _ => by
    simp only [Value.renumbered, Store.snapshotWith, h.plainName, h.parsers p]
    cases known : σ.parser? p with
    | none =>
      have unnamed : σ.plainName p = none := by simp only [Store.plainName, known]
      simp only [unnamed]
      rfl
    | some s =>
      obtain ⟨behaviour, displayName⟩ := s
      obtain ⟨name, rfl⟩ := h.named p _ known
      have named : σ.plainName p = some (.str name) := by simp only [Store.plainName, known]
      simp only [named]
      rfl
  | .echo id, inside, _, _ => by
    simp only [Value.renumbered, Store.snapshotWith, h.echoes]
    cases known : σ.echoes[id]? with
    | none => rfl
    | some s =>
      obtain ⟨k, depth⟩ := h.depths id s known
      have number := filled.number inside (inside.map (past g.object)) k
      simp only [Option.map_some, EchoState.renumbered, depth, Value.renumbered, number]
      rfl
  | .result a b c, _, _, met => congr (congrArg₂ Datum.result (h.snapshotWith filled a none met)
      (h.snapshotWith filled b none met)) (h.snapshotWith filled c none met)
  | .mark a b c, _, _, met => congr (congrArg₂ Datum.mark (h.snapshotWith filled a none met)
      (h.snapshotWith filled b none met)) (h.snapshotWith filled c none met)
  | .lineColumn a b c, _, _, met => congr (congrArg₂ Datum.lineColumn (h.snapshotWith filled a none met)
      (h.snapshotWith filled b none met)) (h.snapshotWith filled c none met)
  | .settings a b c d e, _, _, met => congr (congr (congr (congrArg₂ Datum.settings
      (h.snapshotWith filled a none met) (h.snapshotWith filled b none met))
      (h.snapshotWith filled c none met)) (h.snapshotWith filled d none met))
      (h.snapshotWith filled e none met)
  | .source t name, _, identity, met => congrArg (Datum.source (identity.map (past g.object)) · (Text.lines t))
      (h.snapshotWith filled name none met)
  | .mismatch _ found name message, inside, identity, met => by
    have named := h.snapshotWith filled name none met
    have partless := congrArg (Datum.mismatch (identity.map (past g.object)) .none .none · message) named
    cases found with
    | result _ i v => exact congrArg (· message) (congr (congrArg₂ (Datum.mismatch _)
        (h.snapshotWith filled i none met) (h.snapshotWith filled v none met)) named)
    | object _ content =>
      cases content with
      | result _ i v => exact congrArg (· message) (congr (congrArg₂ (Datum.mismatch _)
          (h.snapshotWith filled i none met) (h.snapshotWith filled v none met)) named)
      | _ => exact partless
    | _ => exact partless

theorem Store.Beside.snapshotAll (h : σ.Beside g τ) {n : Nat}
    {later later' : List Nat → Option Nat → Value → Datum} (filled : Fillings g σ n later later') :
    ∀ (vs : List Value) {inside : List Nat}, σ.unmet inside ≤ n →
      τ.snapshotAll later' (inside.map (past g.object)) (Value.renumberedAll g vs) =
        Datum.renumberedAll g (σ.snapshotAll later inside vs)
  | [], _, _ => rfl
  | v :: rest, _, met => congrArg₂ List.cons (h.snapshotWith filled v none met)
    (h.snapshotAll filled rest met)

theorem Store.Beside.snapshotEntries (h : σ.Beside g τ) {n : Nat}
    {later later' : List Nat → Option Nat → Value → Datum} (filled : Fillings g σ n later later') :
    ∀ (es : List (Value × Value)) {inside : List Nat}, σ.unmet inside ≤ n →
      τ.snapshotEntries later' (inside.map (past g.object)) (Value.renumberedEntries g es) =
        Datum.renumberedEntries g (σ.snapshotEntries later inside es)
  | [], _, _ => rfl
  | (k, v) :: rest, _, met => congrArg₂ List.cons
    (congrArg₂ Prod.mk (h.snapshotWith filled k none met) (h.snapshotWith filled v none met))
    (h.snapshotEntries filled rest met)

end

theorem snapshotTo_int (σ : Store) (d : Nat) (inside : List Nat) (identity : Option Nat) (k : Int) :
    σ.snapshotTo d inside identity (.int k) = .int k := by
  cases d <;> rfl

/-- By induction on the objects still to be met. -/
theorem Store.Beside.snapshotTo (h : σ.Beside g τ) (n : Nat) {d d' : Nat} {inside : List Nat}
    (identity : Option Nat) (v : Value) (met : σ.unmet inside ≤ n) (enough : n < d) (enough' : n < d') :
    τ.snapshotTo d' (inside.map (past g.object)) (identity.map (past g.object)) (v.renumbered g) =
      (σ.snapshotTo d inside identity v).renumbered g := by
  induction n generalizing v d d' inside identity with
  | zero =>
    obtain ⟨d, rfl⟩ := Nat.exists_eq_succ_of_ne_zero (Nat.ne_of_gt enough)
    obtain ⟨d', rfl⟩ := Nat.exists_eq_succ_of_ne_zero (Nat.ne_of_gt enough')
    refine h.snapshotWith ⟨fun _ _ k => ⟨snapshotTo_int σ d _ _ k, snapshotTo_int τ d' _ _ k⟩, ?_⟩ v
      identity met
    exact fun _ _ _ impossible => absurd impossible (Nat.not_lt_zero _)
  | succ n ih =>
    obtain ⟨d, rfl⟩ := Nat.exists_eq_succ_of_ne_zero (Nat.ne_of_gt (Nat.zero_lt_of_lt enough))
    obtain ⟨d', rfl⟩ := Nat.exists_eq_succ_of_ne_zero (Nat.ne_of_gt (Nat.zero_lt_of_lt enough'))
    refine h.snapshotWith ⟨fun _ _ k => ⟨snapshotTo_int σ d _ _ k, snapshotTo_int τ d' _ _ k⟩, ?_⟩ v
      identity met
    exact fun inside identity u fewer => ih identity u (by omega) (by omega) (by omega)

/-- A value shows the same under the numbers that are left. -/
theorem Store.Beside.snapshot (h : σ.Beside g τ) (v : Value) :
    τ.snapshot (v.renumbered g) = (σ.snapshot v).renumbered g := by
  have met : σ.unmet [] ≤ σ.edits.length := Nat.le_of_eq (unmet_nil σ)
  unfold Store.snapshot
  rw [h.edits, List.length_map]
  exact h.snapshotTo σ.edits.length none v met (by omega) (by omega)

end Beside

end Rebind
