import Rebind.Store
import Rebind.Text.Lines
/-!
# Snapshots

What a value shows at one moment, with present contents and display names filled in.  An object
that was changed so that it contains itself is cut off where it comes round again.
-/
namespace Rebind

namespace Store

def plainName (σ : Store) (id : ParserId) : Option Datum :=
  match σ.parser? id with
  | some ⟨_, .str s⟩ => some (.str s)
  | some ⟨_, .int n⟩ => some (.int n)
  | some ⟨_, .bool b⟩ => some (.bool b)
  | some ⟨_, .none⟩ => some .none
  | _ => Option.none

/-- What stands for an object inside itself. -/
def cutText : Value → String
  | .list _ => "[...]"
  | .tuple _ => "(...)"
  | .dict _ => "\x7b...\x7d"
  | _ => "..."

def functionDatum (identity : Option Nat) : Script.Title → Datum
  | .named name => .function identity (some name) ("<function " ++ name ++ ">")
  | .nameless shown => .function identity Option.none ("<callable " ++ shown ++ ">")

mutual

/-- What a value shows within the objects `inside`.  `later` shows what is not a part of the value but
was put in its place. -/
def snapshotWith (σ : Store) (later : List Nat → Option Nat → Value → Datum) (inside : List Nat)
    (identity : Option Nat) : Value → Datum
  | .none => .none
  | .bool b => .bool b
  | .int n => .int n
  | .float x => .float x
  | .str s => .str s
  | .list items => .list (snapshotAll σ later inside items)
  | .tuple items => .tuple (snapshotAll σ later inside items)
  | .dict entries => .dict (snapshotEntries σ later inside entries)
  | .set items => .set (snapshotAll σ later inside items)
  | .object id v =>
    if inside.contains id then .again (cutText v)
    else match σ.edits.lookup id with
      | some w => later (id :: inside) (some id) w
      | Option.none => snapshotWith σ later (id :: inside) (some id) v
  | .parser id =>
    let name := match σ.plainName id with
      | some d => d
      | Option.none => match σ.parser? id with
        | some s => later inside Option.none s.displayName
        | Option.none => .none
    .parser id name name.text
  | .behaviour b => .builtin identity b.functionName
  | .closure _ _ _ title _ => functionDatum identity title
  | .result a b c =>
    .result (snapshotWith σ later inside Option.none a) (snapshotWith σ later inside Option.none b)
      (snapshotWith σ later inside Option.none c)
  | .mark a b c =>
    .mark (snapshotWith σ later inside Option.none a) (snapshotWith σ later inside Option.none b)
      (snapshotWith σ later inside Option.none c)
  | .lineColumn a b c =>
    .lineColumn (snapshotWith σ later inside Option.none a) (snapshotWith σ later inside Option.none b)
      (snapshotWith σ later inside Option.none c)
  | .pattern r => .pattern r
  | .path p => .path p
  | .moment kind => .moment kind
  | .handler _ => .handler identity
  | .echo id =>
    .echo id (match σ.echoes[id]? with
      | some s => later inside Option.none s.depth
      | Option.none => .none)
  | .settings a b c d e =>
    .settings (snapshotWith σ later inside Option.none a) (snapshotWith σ later inside Option.none b)
      (snapshotWith σ later inside Option.none c) (snapshotWith σ later inside Option.none d)
      (snapshotWith σ later inside Option.none e)
  | .source t name => .source identity (snapshotWith σ later inside Option.none name) (Text.lines t)
  | .renderer _ _ => .renderer identity
  | .error c => .error identity c
  | .mismatch _ outcome name message =>
    match outcome with
    | .result _ i v =>
      .mismatch identity (snapshotWith σ later inside Option.none i)
        (snapshotWith σ later inside Option.none v)
        (snapshotWith σ later inside Option.none name) message
    | .object _ (.result _ i v) =>
      .mismatch identity (snapshotWith σ later inside Option.none i)
        (snapshotWith σ later inside Option.none v)
        (snapshotWith σ later inside Option.none name) message
    | _ => .mismatch identity .none .none (snapshotWith σ later inside Option.none name) message

def snapshotAll (σ : Store) (later : List Nat → Option Nat → Value → Datum) (inside : List Nat) :
    List Value → List Datum
  | [] => []
  | v :: rest => snapshotWith σ later inside Option.none v :: snapshotAll σ later inside rest

def snapshotEntries (σ : Store) (later : List Nat → Option Nat → Value → Datum)
    (inside : List Nat) : List (Value × Value) → List (Datum × Datum)
  | [] => []
  | (k, v) :: rest =>
    (snapshotWith σ later inside Option.none k, snapshotWith σ later inside Option.none v)
      :: snapshotEntries σ later inside rest

end

/-- What a value shows when changed contents and names are filled in at most `depth` times on the way
in. -/
def snapshotTo (σ : Store) : Nat → List Nat → Option Nat → Value → Datum
  | 0 => σ.snapshotWith fun _ _ _ => .again "..."
  | depth + 1 => σ.snapshotWith (σ.snapshotTo depth)

/-- What a value shows.  On the way in every changed object is met at most once, so more fillings than
there are changeable things are never needed. -/
def snapshot (σ : Store) (v : Value) : Datum :=
  σ.snapshotTo (σ.edits.length + σ.parsers.size + 1) [] Option.none v

end Store

def shown (v : Value) : Eval Datum := fun σ => .ok (σ.snapshot v) σ

def textOf (v : Value) : Eval String := fun σ => .ok (σ.snapshot v).text σ

def literalOf (v : Value) : Eval String := fun σ => .ok (σ.snapshot v).literal σ

/-- Refuses a grammar unless what was given to a function is of the right kind. -/
def require (function kind : String) (v : Value) (ok : Bool) : Eval Unit := do
  unless ok do
    raise (.malformedGrammar ("partser." ++ function ++ ": not a " ++ kind ++ ": " ++ (← literalOf v)))

end Rebind
