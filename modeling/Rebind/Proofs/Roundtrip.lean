import Rebind.Proofs.Agreement
import Rebind.Proofs.Provenance
/-!
# Nothing is lost and nothing is read twice

The values of grammars without functions on values tell what was read: put together again, they are the
text between the start of the run and its index.  The same holds inside of them, since each mark tells what
was read between its own two offsets.

The invariant is a relation between two places in a text and the value that was read between them.  A list
goes from place to place by the places of its items, and a mark has the places in it.
-/
namespace Rebind

open Attempt

/-! ### What a value tells -/

namespace Value

mutual

/-- The text that was read, put together again out of a value.  Places and nothing take no text. -/
def flatten? : Value → Option (List Char)
  | .none | .int _ | .lineColumn _ _ _ => some []
  | .str s => some s.toList
  | .list items => flattenAll? items
  | .mark _ v _ => flatten? v
  | _ => Option.none

/-- The text that was read, put together again out of several values. -/
def flattenAll? : List Value → Option (List Char)
  | [] => some []
  | v :: rest => do return (← flatten? v) ++ (← flattenAll? rest)

end

/-- The offset that a place stands for: a number itself, or that of a line and a column. -/
def offset? : Value → Option Int
  | .int n | .lineColumn (.int n) (.int _) (.int _) => some n
  | _ => Option.none

/-- A value that occurs anywhere in a value. -/
inductive Occurs : Value → Value → Prop
  | self {v : Value} : Occurs v v
  | part {v w u : Value} (h : w ∈ v.parts) (further : Occurs w u) : Occurs v u

/-- A place contains no mark. -/
theorem not_occurs_of_place {place start w stop : Value} {n : Int} (h : place.offset? = some n) :
    ¬ place.Occurs (.mark start w stop) := by
  have number : ∀ m : Int, ¬ (Value.int m).Occurs (.mark start w stop) := by
    intro m there
    cases there with
    | part member _ => cases member
  unfold Value.offset? at h
  split at h
  · exact number _
  · intro there
    cases there with
    | part member further =>
      simp only [Value.parts, List.mem_cons, List.not_mem_nil, or_false] at member
      rcases member with rfl | rfl | rfl
      · exact number _ further
      · exact number _ further
      · exact number _ further
  · cases h

end Value

/-- A value was read between two places of a text. -/
inductive Reads (text : List Char) : Nat → Nat → Value → Prop
  | none {i : Nat} : Reads text i i .none
  | int {i : Nat} {n : Int} : Reads text i i (.int n)
  | lineColumn {i : Nat} {offset line column : Int} :
    Reads text i i (.lineColumn (.int offset) (.int line) (.int column))
  | str {i : Nat} {s : String} (there : s.toList <+: text.drop i) :
    Reads text i (i + s.toList.length) (.str s)
  | nil {i : Nat} : Reads text i i (.list [])
  | cons {i j k : Nat} {v : Value} {vs : List Value} (head : Reads text i j v)
    (tail : Reads text j k (.list vs)) : Reads text i k (.list (v :: vs))
  | mark {i j : Nat} {start v stop : Value} (begins : start.offset? = some (i : Int))
    (ends : stop.offset? = some (j : Int)) (h : Reads text i j v) : Reads text i j (.mark start v stop)

namespace Reads

variable {text : List Char} {i j k : Nat} {v u : Value} {us vs : List Value}

theorem le (h : Reads text i j v) : i ≤ j := by
  induction h with
  | none | int | lineColumn | nil => exact Nat.le_refl _
  | str => omega
  | cons _ _ first rest => omega
  | mark _ _ _ ih => exact ih

/-- What was read in two parts was read as a whole. -/
theorem append (first : Reads text i j (.list us)) (rest : Reads text j k (.list vs)) :
    Reads text i k (.list (us ++ vs)) := by
  induction us generalizing i with
  | nil =>
    cases first
    exact rest
  | cons u us ih =>
    cases first with
    | cons head tail => exact .cons head (ih tail)

/-- Characters that stand in the text were read from it. -/
theorem of_ofChars {cs : List Char} (there : cs <+: text.drop i) :
    Reads text i (i + cs.length) (.ofChars cs) := by
  have same : (String.ofList cs).toList = cs := String.toList_ofList
  have read : Reads text i (i + (String.ofList cs).toList.length) (.ofChars cs) := .str (same.symm ▸ there)
  rwa [same] at read

theorem of_ofChar {c : Char} (there : text[i]? = some c) : Reads text i (i + 1) (.ofChar c) := by
  have one : [c] <+: text.drop i := by
    obtain ⟨inside, rfl⟩ := List.getElem?_eq_some_iff.mp there
    rw [List.drop_eq_getElem_cons inside]
    exact ⟨text.drop (i + 1), rfl⟩
  exact of_ofChars one

/-- A value that was read tells the text between the two places. -/
theorem flatten (h : Reads text i j v) : v.flatten? = some ((text.drop i).take (j - i)) := by
  induction h with
  | none | int | lineColumn | nil => simp [Value.flatten?, Value.flattenAll?]
  | @str i s there =>
    have taken : (text.drop i).take s.toList.length = s.toList := List.prefix_iff_eq_take.mp there |>.symm
    simp [Value.flatten?, taken]
  | @cons i j k v vs head tail ihead itail =>
    have first := head.le
    have second := tail.le
    have split : k - i = (j - i) + (k - j) := by omega
    have further : i + (j - i) = j := by omega
    rw [Value.flatten?] at itail
    rw [Value.flatten?, Value.flattenAll?, ihead, itail, split, List.take_add, List.drop_drop, further]
    rfl
  | mark _ _ _ ih => rw [Value.flatten?, ih]

/-- Whatever mark occurs in a value that was read is about what was read between its offsets. -/
theorem occurs (h : Reads text i j v) {start w stop : Value} (there : v.Occurs (.mark start w stop)) :
    ∃ m n : Nat, start.offset? = some (m : Int) ∧ stop.offset? = some (n : Int) ∧ i ≤ m ∧ n ≤ j ∧
      Reads text m n w := by
  induction h with
  | none | str | nil =>
    cases there with
    | part member _ => cases member
  | int => exact (Value.not_occurs_of_place rfl there).elim
  | lineColumn => exact (Value.not_occurs_of_place rfl there).elim
  | cons head tail ihead itail =>
    have upTo := head.le
    have onward := tail.le
    cases there with
    | part member further =>
      rcases List.mem_cons.mp member with rfl | later
      · obtain ⟨m, n, begins, ends, low, high, read⟩ := ihead further
        exact ⟨m, n, begins, ends, low, by omega, read⟩
      · obtain ⟨m, n, begins, ends, low, high, read⟩ := itail (.part later further)
        exact ⟨m, n, begins, ends, by omega, high, read⟩
  | @mark i j first v last begins ends read ih =>
    cases there with
    | self => exact ⟨i, j, begins, ends, Nat.le_refl _, Nat.le_refl _, read⟩
    | part member further =>
      simp only [Value.parts, List.mem_cons, List.not_mem_nil, or_false] at member
      rcases member with rfl | rfl | rfl
      · exact (Value.not_occurs_of_place begins further).elim
      · exact ih further
      · exact (Value.not_occurs_of_place ends further).elim

end Reads

/-! ### Grammars that keep what they read -/

/-- A parser that gives the current place and reads nothing. -/
def GivesPlace (σ : Store) (p : ParserId) : Prop :=
  σ.behaviour? p = some .index ∨ σ.behaviour? p = some .lineColumnIndex

/-- A parser that is framed by places. -/
def Framed (σ : Store) (p : ParserId) : Prop :=
  ∃ first inner last, σ.behaviour? p = some (.sequence [first, inner, last]) ∧ GivesPlace σ first ∧
    GivesPlace σ last

/-- The behaviours whose values tell what they and their parts have read. -/
def Behaviour.Verbatim (functions choosers : Value → Prop) (σ : Store) : BehaviourClass
  | _, .testChar f _ => functions f
  | _, .regex _ group => group = 0
  | parsers, .sequence ps => ∀ p ∈ ps, parsers p
  | parsers, .alternative ps => ps ≠ [] ∧ ∀ p ∈ ps, parsers p
  | parsers, .repetition p _ _ | parsers, .describe p _ => parsers p
  | parsers, .exclude allowed forbidden => parsers allowed ∧ parsers forbidden
  | parsers, .mark p => parsers p ∧ Framed σ p
  | parsers, .subEnvironment p f => parsers p ∧ functions f
  | _, .deferredLookup f _ => choosers f
  | _, .succeed _ | _, .fail _ | _, .transform _ _ | _, .chain _ _ | _, .debug _ _ => False
  | _, .anyChar | _, .rest | _, .eof | _, .index | _, .lineColumnIndex | _, .string _ => True

/-- A parser of a store whose values tell what was read. -/
def Verbatim (functions choosers : Value → Prop) (σ : Store) (p : ParserId) : Prop :=
  Among (Behaviour.Verbatim functions choosers σ) σ p

/-- The course in which parsers may be added and replaced, as long as those that keep what they read go on
to do so, and as long as places and what they frame stay such. -/
def Course.verbatim (functions choosers : Value → Prop) : Course where
  leads σ τ := τ.tracers = σ.tracers ∧ (∀ p, GivesPlace σ p → GivesPlace τ p) ∧
    (∀ p, Framed σ p → Framed τ p) ∧
      ∀ p, Verbatim functions choosers σ p → Verbatim functions choosers τ p
  refl _ := ⟨rfl, fun _ h => h, fun _ h => h, fun _ h => h⟩
  trans first second := ⟨second.1.trans first.1, fun p h => second.2.1 p (first.2.1 p h),
    fun p h => second.2.2.1 p (first.2.2.1 p h), fun p h => second.2.2.2 p (first.2.2.2 p h)⟩

/-- Functions after which parsers keep what they read as before.  The choosers among them, where they return
a parser, return one that does so, too. -/
structure KeepVerbatim (host : Host) (functions choosers : Value → Prop) (σ₀ : Store) : Prop where
  keeps : ∀ f, functions f ∨ choosers f → ∀ rounds depth arguments σ v τ,
    (Course.verbatim functions choosers).leads σ₀ σ →
    (machine host rounds depth).call f arguments σ = .ok v τ →
    (Course.verbatim functions choosers).leads σ τ
  chooses : ∀ f, choosers f → ∀ rounds depth arguments σ p τ,
    (Course.verbatim functions choosers).leads σ₀ σ →
    (machine host rounds depth).call f arguments σ = .ok (.parser p) τ → p < τ.parsers.size →
      Verbatim functions choosers τ p

section Verbatim

variable {host : Host} {functions choosers : Value → Prop} {σ₀ σ τ : Store} {s : String} {p : ParserId}

theorem GivesPlace.of_kept (led : Course.kept.leads σ τ) (h : GivesPlace σ p) : GivesPlace τ p :=
  h.imp (behaviour?_of_kept led) (behaviour?_of_kept led)

theorem Framed.of_kept (led : Course.kept.leads σ τ) (h : Framed σ p) : Framed τ p := by
  obtain ⟨first, inner, last, does, start, stop⟩ := h
  exact ⟨first, inner, last, behaviour?_of_kept led does, start.of_kept led, stop.of_kept led⟩

/-- Leaving parsers and tracers alone is one way to keep to this course. -/
theorem verbatim_of_kept (led : Course.kept.leads σ τ) :
    (Course.verbatim functions choosers).leads σ τ := by
  refine ⟨led.1, fun p h => h.of_kept led, fun p h => h.of_kept led, fun p h => ?_⟩
  obtain ⟨parsers, inside, closed⟩ := h
  refine ⟨parsers, inside, fun q there => ?_⟩
  obtain ⟨b, does, fits⟩ := closed q there
  refine ⟨b, behaviour?_of_kept led does, ?_⟩
  cases b with
  | mark framed => exact ⟨fits.1, fits.2.of_kept led⟩
  | _ => exact fits

/-! ### What attempts read -/

/-- An attempt of a parser from a place on: if it matched, its value tells what was read up to where it
ended.  A place tells where it is, and what is framed by places gives the three values. -/
def Attempt.Tells (text : List Char) (σ : Store) (p : ParserId) (i : Nat) : Attempt → Prop
  | .missed _ _ => True
  | .matched stop v => ∃ j : Nat, stop = j ∧ Reads text i j v ∧
    (GivesPlace σ p → j = i ∧ v.offset? = some (i : Int)) ∧
    (Framed σ p → ∃ first inner last, v = .list [first, inner, last] ∧ first.offset? = some (i : Int) ∧
      last.offset? = some (j : Int) ∧ Reads text i j inner)

theorem Attempt.Tells.of_led {text : List Char} {i : Nat} {a : Attempt}
    (led : (Course.verbatim functions choosers).leads σ τ) (h : a.Tells text τ p i) : a.Tells text σ p i := by
  cases a with
  | missed => trivial
  | matched stop v =>
    obtain ⟨j, same, read, place, framed⟩ := h
    exact ⟨j, same, read, fun here => place (led.2.1 p here), fun here => framed (led.2.2.1 p here)⟩

section Stretches

variable {text : List Char} {run : ParserId → Nat → Attempt → Prop}

/-- Runs that match have read what lies between the places. -/
def RunsRead (text : List Char) (run : ParserId → Nat → Attempt → Prop) : Prop :=
  ∀ p i stop v, run p i (.matched stop v) → ∃ j : Nat, stop = j ∧ Reads text i j v

/-- A sequence has read its parts one after the other. -/
theorem EachOf.reads (h : RunsRead text run) {ps : List ParserId} {i : Nat} {a : Attempt}
    (each : EachOf run ps i a) {stop : Int} {v : Value} (same : a = .matched stop v) :
    ∃ j : Nat, stop = j ∧ Reads text i j v := by
  induction each generalizing stop v with
  | @nil i =>
    cases same
    exact ⟨i, rfl, .nil⟩
  | cons head tail ih =>
    cases same
    obtain ⟨j, here, first⟩ := h _ _ _ _ head
    obtain rfl := Int.ofNat.inj here
    obtain ⟨k, rfl, rest⟩ := ih rfl
    exact ⟨k, rfl, .cons first rest⟩
  | head => cases same
  | tail => cases same

/-- A choice has read what its success has. -/
theorem FirstOf.reads (h : RunsRead text run) {ps : List ParserId} {i : Nat}
    {earlier : Option (Int × List String)} {a : Attempt} (first : FirstOf run i ps earlier a)
    {stop : Int} {v : Value} (same : a = .matched stop v) : ∃ j : Nat, stop = j ∧ Reads text i j v := by
  induction first with
  | nil => cases same
  | head head =>
    cases same
    exact h _ _ _ _ head
  | tail _ _ ih => exact ih same

/-- Rounds have read what each of them has. -/
theorem Exactly.reads (h : RunsRead text run) {item : ParserId} {limit : Option Nat} {i : Nat}
    {a : Attempt} (exactly : Exactly run item limit i a) {stop : Int} {v : Value}
    (same : a = .matched stop v) : ∃ j : Nat, stop = j ∧ Reads text i j v := by
  induction exactly generalizing stop v with
  | @zero i =>
    cases same
    exact ⟨i, rfl, .nil⟩
  | succ round more ih =>
    cases same
    obtain ⟨j, here, first⟩ := h _ _ _ _ round
    obtain rfl := Int.ofNat.inj here
    obtain ⟨k, rfl, rest⟩ := ih rfl
    exact ⟨k, rfl, .cons first rest⟩
  | failed => cases same
  | later => cases same

theorem UpTo.reads (h : RunsRead text run) {item : ParserId} {limit : Option Nat} {i k : Nat}
    {vs : List Value} (upTo : UpTo run item limit i k vs) : Reads text i k (.list vs) := by
  induction upTo with
  | zero | stop => exact .nil
  | succ allowed round more ih =>
    obtain ⟨j, here, first⟩ := h _ _ _ _ round
    obtain rfl := Int.ofNat.inj here
    exact .cons first ih

end Stretches

/-- A leaf returns what it read. -/
theorem Behaviour.leaf?_reads {parsers : ParserId → Prop} {b : Behaviour Value}
    (fits : b.Verbatim functions choosers σ parsers) {text : List Char} {i : Nat} (start : i ≤ text.length)
    {stop : Int} {v : Value} (h : b.leaf? text i = some (.matched stop v)) :
    ∃ j : Nat, stop = j ∧ Reads text i j v := by
  cases b with
  | anyChar =>
    replace h := Option.some.inj h
    cases there : text[i]? with
    | some c =>
      rw [there] at h
      cases h
      exact ⟨i + 1, rfl, .of_ofChar there⟩
    | none =>
      rw [there] at h
      cases h
  | rest =>
    cases Option.some.inj h
    have all : Reads text i (i + (text.drop i).length) (.ofChars (text.drop i)) :=
      .of_ofChars (List.prefix_refl _)
    have length : i + (text.drop i).length = text.length := by
      rw [List.length_drop]
      omega
    rw [length] at all
    exact ⟨text.length, rfl, all⟩
  | eof =>
    replace h := Option.some.inj h
    split at h
    · cases h
    · cases h
      exact ⟨i, rfl, .none⟩
  | index =>
    cases Option.some.inj h
    exact ⟨i, rfl, .int⟩
  | lineColumnIndex =>
    cases Option.some.inj h
    exact ⟨i, rfl, .lineColumn⟩
  | string literal =>
    replace h := Option.some.inj h
    split at h
    · next there =>
      cases h
      exact ⟨i + literal.toList.length, rfl, .str (List.isPrefixOf_iff_prefix.mp there)⟩
    · cases h
  | regex r group =>
    obtain rfl : group = 0 := fits
    replace h := (Behaviour.leaf?_regex h).2.symm
    cases there : Regex.matchStart? r (text.drop i) with
    | none =>
      rw [there] at h
      cases h
    | some found =>
      rw [there] at h
      cases h
      have whole : found.groupValue 0 = .ofChars ((text.drop i).take found.length) := by
        rw [Regex.Found.groupValue, Regex.matchStart?_group_zero there]
      have length : ((text.drop i).take found.length).length = found.length :=
        List.length_take_of_le (Regex.matchStart?_length_le there)
      have read : Reads text i (i + found.length) (found.groupValue 0) := by
        have taken := Reads.of_ofChars (List.take_prefix found.length (text.drop i))
        rwa [length, ← whole] at taken
      exact ⟨i + found.length, rfl, read⟩
  | succeed | fail => exact fits.elim
  | _ => cases h

/-- What is known of runs while a parser of a store is run. -/
def verbatimly (host : Host) (functions choosers : Value → Prop) (σ₀ σ : Store) (s : String) : Footing where
  course := .verbatim functions choosers
  known τ p := Verbatim functions choosers τ p
  predicate := functions
  callable := choosers
  environment _ := True
  parts :=
    { run := fun p _ i a => (i ≤ s.toList.length → a.Within s.toList.length i) ∧ a.Tells s.toList σ p i
      accepts := fun _ _ _ _ => True
      call := fun _ _ _ => True }
  returned f arguments v τ := choosers f ∧ ∃ rounds depth υ,
    (Course.verbatim functions choosers).leads σ₀ υ ∧
    (machine host rounds depth).call f arguments υ = .ok v τ
  fault := anyhow

/-- By cases on the behaviour, from what its parts have read. -/
theorem Does.reads {parts : Parts} {text : List Char} {env : Value} {b : Behaviour Value} {i : Nat}
    {a : Attempt} (does : Does parts text env b i a) {parsers : ParserId → Prop}
    (fits : b.Verbatim functions choosers σ parsers)
    (h : ∀ p env i a, parts.run p env i a → a.Tells text σ p i) (start : i ≤ text.length)
    {stop : Int} {v : Value} (same : a = .matched stop v) : ∃ j : Nat, stop = j ∧ Reads text i j v := by
  have runs : ∀ env, RunsRead text fun p i a => parts.run p env i a := by
    intro env p i stop v ran
    obtain ⟨j, here, read, _⟩ := h _ _ _ _ ran
    exact ⟨j, here, read⟩
  cases does with
  | leaf leaf =>
    subst same
    exact Behaviour.leaf?_reads fits start leaf
  | testChar there _ =>
    cases same
    exact ⟨i + 1, rfl, .of_ofChar there⟩
  | sequence each => exact each.reads (runs env) same
  | alternative first => exact first.reads (runs env) same
  | repetition bounded required optional =>
    cases same
    obtain ⟨j, here, first⟩ := required.reads (runs env) rfl
    obtain rfl := Int.ofNat.inj here
    exact ⟨_, rfl, first.append (optional.reads (runs env))⟩
  | exclude absent ran | describe ran =>
    cases same
    exact runs _ _ _ _ _ ran
  | subEnvironment called ran | deferredLookup called ran =>
    subst same
    exact runs _ _ _ _ _ ran
  | mark ran =>
    cases same
    obtain ⟨j, here, _, _, framed⟩ := h _ _ _ _ ran
    obtain ⟨first, inner, last, three, begins, ends, read⟩ := framed fits.2
    cases three
    exact ⟨j, here, .mark begins ends read⟩
  | transform | chain | transform_missed | chain_missed => exact fits.elim
  | _ => cases same

theorem Does.tells {parts : Parts} {text : List Char} {env : Value} {b : Behaviour Value} {i : Nat}
    {a : Attempt} (does : Does parts text env b i a) {parsers : ParserId → Prop}
    (now : σ.behaviour? p = some b) (fits : b.Verbatim functions choosers σ parsers)
    (h : ∀ p env i a, parts.run p env i a → a.Tells text σ p i) (start : i ≤ text.length) :
    a.Tells text σ p i := by
  cases a with
  | missed => trivial
  | matched stop v =>
    obtain ⟨j, rfl, read⟩ := does.reads fits h start rfl
    refine ⟨j, rfl, read, ?_, ?_⟩
    · rintro (index | lineColumn)
      · cases now.symm.trans index
        cases does with
        | leaf leaf =>
          cases Option.some.inj leaf
          exact ⟨rfl, rfl⟩
      · cases now.symm.trans lineColumn
        cases does with
        | leaf leaf =>
          cases Option.some.inj leaf
          exact ⟨rfl, rfl⟩
    · rintro ⟨x, q, y, framed, opening, closing⟩
      cases now.symm.trans framed
      cases does with
      | leaf leaf => cases leaf
      | sequence each =>
        cases each with
        | cons before each =>
          cases each with
          | cons within each =>
            cases each with
            | cons behind each =>
              cases each
              obtain ⟨_, here, _, atStart, _⟩ := h _ _ _ _ before
              obtain ⟨rfl, begins⟩ := atStart opening
              obtain rfl := Int.ofNat.inj here
              obtain ⟨_, here, inner, _⟩ := h _ _ _ _ within
              obtain rfl := Int.ofNat.inj here
              obtain ⟨_, here, _, atEnd, _⟩ := h _ _ _ _ behind
              obtain rfl := Int.ofNat.inj here
              obtain ⟨rfl, ends⟩ := atEnd closing
              exact ⟨_, _, _, rfl, begins, ends, inner⟩

theorem verbatimly_suits {b : Behaviour Value} {parsers : ParserId → Prop}
    (fits : b.Verbatim functions choosers σ parsers) (other : ∀ p f, b ≠ .subEnvironment p f)
    (closed : ∀ q, parsers q → Verbatim functions choosers σ q) :
    (verbatimly host functions choosers σ₀ σ s).Suits σ b := by
  cases b with
  | sequence parts => exact fun q member => closed q (fits q member)
  | alternative choices => exact ⟨fits.1, fun q member => closed q (fits.2 q member)⟩
  | repetition p _ _ | describe p _ => exact closed p fits
  | exclude allowed forbidden => exact ⟨closed _ fits.1, closed _ fits.2⟩
  | subEnvironment p f => exact absurd rfl (other p f)
  | deferredLookup f _ | testChar f _ => exact fits
  | regex r group => exact ⟨fits ▸ Nat.zero_le _, fun _ => trivial⟩
  | mark framed =>
    refine ⟨closed framed fits.1, fun env i stop v ran => ?_⟩
    obtain ⟨_, _, _, _, three⟩ := ran.2
    obtain ⟨first, inner, last, same, _⟩ := three fits.2
    exact ⟨first, inner, last, same⟩
  | succeed | fail | transform | chain | debug => exact fits.elim
  | _ => trivial

/-- One machine up: what is known of the runs of a machine is known of what a store's parser does. -/
theorem verbatimly_holds (tame : KeepVerbatim host functions choosers σ₀) (shares : host.share = Value.share)
    (rounds depth : Nat) (led : (Course.verbatim functions choosers).leads σ₀ σ)
    (ih : ∀ {τ p i} env, (Course.verbatim functions choosers).leads σ₀ τ → Verbatim functions choosers τ p →
      i ≤ s.toList.length → Tries ((machine host rounds depth).run p (.str s) (.int i) env) τ
        (fun a υ => (Course.verbatim functions choosers).leads τ υ ∧ a.Within s.toList.length i ∧
          a.Tells s.toList τ p i) anyhow) :
    (verbatimly host functions choosers σ₀ σ s).Holds (machine host rounds depth) s σ where
  run τ p env i led' known _ start := by
    refine (ih env (Course.trans _ led led') known start).imp ?_
    rintro a υ ⟨led'', within, told⟩
    exact ⟨led'', fun _ => within, told.of_led led'⟩
  within _ _ _ _ ran := ran.1
  ask τ f env c led' known _ := by
    refine (ends_anyhow _ τ).imp fun v υ ended => ⟨?_, trivial⟩
    exact tame.keeps f (.inl known) rounds depth _ _ _ _ (Course.trans _ led led') ended
  call τ f arguments led' known := by
    have led'' := Course.trans _ led led'
    refine (ends_anyhow _ τ).imp fun v υ ended => ⟨?_, known, rounds, depth, τ, led'', ended⟩
    exact tame.keeps f (.inr known) rounds depth _ _ _ _ led'' ended
  returns f arguments v τ returned := by
    obtain ⟨chooser, rounds, depth, υ, led', ended⟩ := returned
    refine ⟨trivial, ?_⟩
    rintro p rfl there
    exact tame.chooses f chooser rounds depth _ _ _ _ led' ended there
  refuses _ _ _ _ _ _ _ _ := trivial
  derives _ _ _ _ _ _ := trivial
  persists _ _ _ led' known := led'.2.2.2 _ known
  fresh τ n := verbatim_of_kept ⟨rfl, fun _ _ there => there⟩
  share _ _ := (machine_share host rounds depth).trans shares
  endless _ := trivial

/-- A derived environment may be anything, so the function that derives it need not be a chooser. -/
theorem subEnvironment_verbatim (tame : KeepVerbatim host functions choosers σ₀) {rounds depth : Nat}
    (led : (Course.verbatim functions choosers).leads σ₀ σ)
    (holds : (verbatimly host functions choosers σ₀ σ s).Holds (machine host rounds depth) s σ)
    {inner : ParserId} {derive : Value} (known : Verbatim functions choosers σ inner)
    (derives : functions derive) (env : Value) {i : Nat} (start : i ≤ s.toList.length) :
    Tries (behave (machine host rounds depth) (.subEnvironment inner derive) (.str s) (.int i) env) σ
      (fun a τ => (Course.verbatim functions choosers).leads σ τ ∧
        Does (verbatimly host functions choosers σ₀ σ s).parts s.toList env (.subEnvironment inner derive) i a)
      anyhow := by
  refine Ends.bind (ends_anyhow _ σ) fun inside τ ended => ?_
  have led' := tame.keeps derive (.inl derives) rounds depth _ _ _ _ led ended
  refine (holds.run τ inner inside i led' (led'.2.2.2 _ known) trivial start).imp ?_
  rintro a υ ⟨led'', ran⟩
  exact ⟨Course.trans _ led' led'', .subEnvironment trivial ran⟩

/-- A behaviour that tells what it read ends in an attempt that does. -/
theorem behave_verbatim (tame : KeepVerbatim host functions choosers σ₀) {rounds depth : Nat}
    (led : (Course.verbatim functions choosers).leads σ₀ σ)
    (holds : (verbatimly host functions choosers σ₀ σ s).Holds (machine host rounds depth) s σ)
    {b : Behaviour Value} {parsers : ParserId → Prop} (fits : b.Verbatim functions choosers σ parsers)
    (closed : ∀ q, parsers q → Verbatim functions choosers σ q) (env : Value) {i : Nat}
    (start : i ≤ s.toList.length) :
    Tries (behave (machine host rounds depth) b (.str s) (.int i) env) σ
      (fun a τ => (Course.verbatim functions choosers).leads σ τ ∧
        Does (verbatimly host functions choosers σ₀ σ s).parts s.toList env b i a) anyhow := by
  by_cases derived : ∃ p f, b = .subEnvironment p f
  · obtain ⟨inner, derive, rfl⟩ := derived
    exact subEnvironment_verbatim tame led holds (closed inner fits.1) fits.2 env start
  · have other : ∀ p f, b ≠ .subEnvironment p f := fun p f same => derived ⟨p, f, same⟩
    exact behave_does holds trivial (verbatimly_suits fits other closed) start

/-- A run of a parser that keeps what it reads ends in an attempt that tells what was read. -/
theorem run_tells (tame : KeepVerbatim host functions choosers σ₀) (shares : host.share = Value.share)
    (untraced : σ₀.tracers = []) (rounds depth : Nat) {i : Nat} (env : Value)
    (led : (Course.verbatim functions choosers).leads σ₀ σ) (known : Verbatim functions choosers σ p)
    (start : i ≤ s.toList.length) :
    Tries ((machine host rounds depth).run p (.str s) (.int i) env) σ
      (fun a τ => (Course.verbatim functions choosers).leads σ τ ∧ a.Within s.toList.length i ∧
        a.Tells s.toList σ p i) anyhow := by
  induction depth generalizing σ p i env with
  | zero => trivial
  | succ depth ih =>
    obtain ⟨parsers, b, does, fits, closed⟩ := known.behaviour
    have holds := verbatimly_holds tame shares rounds depth led fun env => ih env
    refine Ends.congr (run_above _ _ env (led.1.trans untraced) does) ?_
    refine (behave_verbatim tame led holds fits closed env start).imp ?_
    rintro a τ ⟨led', made⟩
    exact ⟨led', made.within (fun _ _ _ _ ran => ran.1) start,
      made.tells does fits (fun _ _ _ _ ran => ran.2) start⟩

/-- A value is told by the text from one place to another: flattened it is that text, and each mark that
occurs in it, flattened, is the text between the offsets of the mark. -/
def ToldBy (text : List Char) (i : Nat) (j : Int) (v : Value) : Prop :=
  v.flatten? = some (Slice.between text (some i) (some j)) ∧
    ∀ start w stop, v.Occurs (.mark start w stop) → ∃ m n : Int, start.offset? = some m ∧
      stop.offset? = some n ∧ (i : Int) ≤ m ∧ m ≤ n ∧ n ≤ j ∧
      w.flatten? = some (Slice.between text (some m) (some n))

/-- What was read, put together again, is the part of the text. -/
theorem Reads.flatten_between {text : List Char} {i j : Nat} {v : Value} (h : Reads text i j v)
    (inside : j ≤ text.length) : v.flatten? = some (Slice.between text (some i) (some j)) := by
  have low := h.le
  have first : Slice.position text.length i = i := Slice.position_ofNat (by omega)
  have last : Slice.position text.length j = j := Slice.position_ofNat inside
  have read := h.flatten
  simp only [Slice.between, Option.map_some, Option.getD_some, first, last]
  rw [List.drop_take]
  exact read

/-- Every mark inside was read where it says. -/
theorem Reads.told {text : List Char} {i j : Nat} {v : Value} (h : Reads text i j v)
    (inside : j ≤ text.length) : ToldBy text i j v := by
  refine ⟨h.flatten_between inside, fun start w stop there => ?_⟩
  obtain ⟨m, n, begins, ends, low, high, read⟩ := h.occurs there
  have between := read.le
  exact ⟨m, n, begins, ends, by omega, by omega, by omega, read.flatten_between (by omega)⟩

/-- Running a parser of a grammar that keeps what it reads, on a text and from a place within it, gives a
failure or a success.  A success tells the text from the start up to its index, and all marks in its value
tell the text between their offsets. -/
theorem run_flattens (apply : Machine → Value → List Value → Eval Value)
    (tame : KeepVerbatim ⟨apply, Value.share⟩ functions choosers σ) (untraced : σ.tracers = [])
    (known : Verbatim functions choosers σ p) (s : String) {i : Nat} (start : i ≤ s.toList.length)
    (env : Value) (rounds depth : Nat) {r : Value} {τ : Store}
    (ended : (machine ⟨apply, Value.share⟩ rounds depth).run p (.str s) (.int i) env σ = .ok r τ) :
    (∃ j v, r = .success (.int j) v ∧ (i : Int) ≤ j ∧ j ≤ s.toList.length ∧ ToldBy s.toList i j v) ∨
      ∃ place expected, r = .result (.bool false) (.int place) expected := by
  obtain ⟨a, rfl, _, within, told⟩ :=
    (run_tells tame rfl untraced rounds depth env (Course.refl _ σ) known start).ok ended
  cases a with
  | missed place expected => exact .inr ⟨place, _, rfl⟩
  | matched stop v =>
    obtain ⟨j, rfl, read, _⟩ := told
    have inside := within.2
    exact .inl ⟨j, v, rfl, within.1, inside, read.told (by omega)⟩

/-- Functions that do nothing but return one parser that keeps what it reads. -/
theorem keepVerbatim_returning (closures : ∀ f, functions f ∨ choosers f → f.content.IsClosure)
    (known : Verbatim functions choosers σ p) : KeepVerbatim (.returning p) functions choosers σ := by
  constructor
  · intro f function rounds depth arguments τ v υ _ ended
    obtain ⟨_, rfl⟩ := call_returning (closures f function) ended
    exact Course.refl _ υ
  · intro f chooser rounds depth arguments τ q υ led ended _
    obtain ⟨same, rfl⟩ := call_returning (closures f (.inr chooser)) ended
    obtain rfl := Value.parser.inj same
    exact led.2.2.2 _ known

end Verbatim

private def onward : Value := .closure ["c", "env"] (.plain .null) [] (.named "onward") 0

/-- Parser 7 marks a character that a function accepts, and parser 8 is a list of such marks: it is the end
of the text, or it is a mark and what a function looks up, which is the list again. -/
private def markedList : Store :=
  { Store.initial with
    parsers := Store.initial.parsers ++ #[
      ⟨.object 5 (.behaviour (.testChar onward "a letter")), .str "test_char(onward)"⟩,
      ⟨.object 6 (.behaviour (.sequence [3, 5, 3])), .str "sequence(*3)"⟩,
      ⟨.object 7 (.behaviour (.mark 6)), .str "mark(test_char(onward))"⟩,
      ⟨.object 8 (.behaviour (.alternative [2, 10])), .str "alternative(*2)"⟩,
      ⟨.object 9 (.behaviour (.deferredLookup onward "onward")), .str "deferred_lookup(onward)"⟩,
      ⟨.object 10 (.behaviour (.sequence [7, 9])), .str "sequence(*2)"⟩]
    nextObject := 11 }

/-- The marks of two letters in the text, and nothing at its end. -/
private def twoMarks : Value :=
  .list [.mark (.int 0) (.ofChar 'a') (.int 1), .list [.mark (.int 1) (.ofChar 'b') (.int 2), .none]]

/-- A list of two marked letters and the end of the text. -/
theorem run_flattens_markedList :
    (machine (.returning 8) 9 19).run 8 (.str "ab") (.int (0 : Nat)) .none markedList =
        .ok (.success (.int 2) twoMarks) markedList ∧
      ((∃ j v, Value.success (.int 2) twoMarks = .success (.int j) v ∧ ((0 : Nat) : Int) ≤ j ∧
          j ≤ "ab".toList.length ∧ ToldBy "ab".toList (0 : Nat) j v) ∨
        ∃ place expected, Value.success (.int 2) twoMarks = .result (.bool false) (.int place) expected) := by
  have known : Verbatim (· = onward) (· = onward) markedList 8 := by
    refine ⟨fun p => p = 2 ∨ p = 3 ∨ p = 5 ∨ p = 6 ∨ p = 7 ∨ p = 8 ∨ p = 9 ∨ p = 10, by simp, ?_⟩
    rintro p (rfl | rfl | rfl | rfl | rfl | rfl | rfl | rfl)
    · exact ⟨_, rfl, trivial⟩
    · exact ⟨_, rfl, trivial⟩
    · exact ⟨_, rfl, rfl⟩
    · exact ⟨_, rfl, by simp [Behaviour.Verbatim]⟩
    · exact ⟨_, rfl, by simp, 3, 5, 3, rfl, .inl rfl, .inl rfl⟩
    · exact ⟨_, rfl, by simp [Behaviour.Verbatim]⟩
    · exact ⟨_, rfl, rfl⟩
    · exact ⟨_, rfl, by simp [Behaviour.Verbatim]⟩
  have closures : ∀ f, f = onward ∨ f = onward → f.content.IsClosure := by
    rintro f (rfl | rfl) <;> trivial
  have ended : (machine (.returning 8) 9 19).run 8 (.str "ab") (.int (0 : Nat)) .none markedList =
      .ok (.success (.int 2) twoMarks) markedList := rfl
  have tame := keepVerbatim_returning closures known
  exact ⟨ended, run_flattens _ tame rfl known "ab" (Nat.zero_le _) .none 9 19 ended⟩

end Rebind
