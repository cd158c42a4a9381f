import Rebind.Text.Slice
import Rebind.Value.Snapshot
/-!
# Operations on values

What the grammar language can do with plain data.  Each operation looks at the present content of
its arguments and refuses what it does not apply to.
-/
namespace Rebind

/-- Whether a value counts as true: empty things, zero and nothing do not. -/
def Value.isTruthy : Value → Bool
  | .none => false
  | .bool b => b
  | .int n => n != 0
  | .float x => x.isNonzero
  | .str s => !s.isEmpty
  | .list items | .tuple items | .set items => !items.isEmpty
  | .dict entries => !entries.isEmpty
  | _ => true

/-- A truth value counts as `0` or `1`. -/
def Value.toInt? : Value → Option Int
  | .int n => some n
  | .bool b => some (if b then 1 else 0)
  | _ => Option.none

def Value.toNumber? : Value → Option (Int ⊕ Floating)
  | .float x => some (.inr x)
  | v => v.toInt?.map .inl

def Value.ofChar (c : Char) : Value := .str (String.singleton c)

def Value.ofChars (cs : List Char) : Value := .str (String.ofList cs)

def truthy (v : Value) : Eval Bool := do
  return (← view v).isTruthy

def lengthOf (v : Value) : Eval Int := do
  match ← view v with
  | .str s => return s.toList.length
  | .list items | .tuple items | .set items => return items.length
  | .dict entries => return entries.length
  | _ => raise .wrongType

def equalTo (a b : Value) : Eval Bool := do
  return (← shown a).equal (← shown b)

/-- Refuses a key that could change. -/
def checkKey (k : Value) : Eval Unit := do
  unless (← shown k).isHashable do raise .wrongType

def entryOf (key : Value) : List (Value × Value) → Eval (Option Value)
  | [] => return Option.none
  | (k, v) :: rest => do
    if ← equalTo k key then return some v else entryOf key rest

/-- Sets the value under a key; a key that exists keeps its place. -/
def withEntry (key value : Value) : List (Value × Value) → Eval (List (Value × Value))
  | [] => return [(key, value)]
  | (k, v) :: rest => do
    if ← equalTo k key then return (k, value) :: rest
    else return (k, v) :: (← withEntry key value rest)

def offsetOf (i : Value) : Eval Int := do
  match (← view i).toInt? with
  | some n => return n
  | Option.none => raise .wrongType

def boundOf (i : Value) : Eval (Option Int) := do
  match ← view i with
  | .none => return Option.none
  | v => match v.toInt? with
    | some n => return some n
    | Option.none => raise .wrongType

/-- The item that is there, or a fault. -/
def present {α : Type} (found : Option α) : Eval α :=
  match found with
  | some a => pure a
  | Option.none => raise .outOfRange

def itemOf (v i : Value) : Eval Value := do
  match ← view v with
  | .str s => do
    let n ← offsetOf i
    return .ofChar (← present (Slice.item? s.toList n))
  | .list items | .tuple items => do
    let n ← offsetOf i
    present (Slice.item? items n)
  | .dict entries => do
    checkKey i
    match ← entryOf i entries with
    | some w => return w
    | Option.none => raise .missingKey
  | _ => raise .wrongType

def sliceOf (v lo hi : Value) : Eval Value := do
  match ← view v with
  | .str s => do
    let lo ← boundOf lo
    let hi ← boundOf hi
    return .ofChars (Slice.between s.toList lo hi)
  | .list items => do
    let lo ← boundOf lo
    let hi ← boundOf hi
    return .list (Slice.between items lo hi)
  | .tuple items => do
    let lo ← boundOf lo
    let hi ← boundOf hi
    return .tuple (Slice.between items lo hi)
  | _ => raise .wrongType

def itemsOf (v : Value) : Eval (List Value) := do
  match ← view v with
  | .str s => return s.toList.map Value.ofChar
  | .list items | .tuple items | .set items => return items
  | .dict entries => return entries.map (·.1)
  | _ => raise .wrongType

def lessThan (a b : Value) : Eval Bool := do
  match ← view a, ← view b with
  | .int m, .int n => return m < n
  | a, b =>
    match (← shown a).less? (← shown b) with
    | some r => return r
    | Option.none => raise .wrongType

def atMost (a b : Value) : Eval Bool := do
  match ← view a, ← view b with
  | .int m, .int n => return m ≤ n
  | a, b =>
    match a.toNumber?, b.toNumber? with
    | some m, some n => return Datum.numberLess m n || Datum.numberEqual m n
    | _, _ => raise .wrongType

/-- Arithmetic on two numbers: exact on whole numbers, in double precision otherwise. -/
def arithmetic (whole : Int → Int → Int) (broken : Float → Float → Float) (a b : Value) :
    Option Value := do
  match ← a.toNumber?, ← b.toNumber? with
  | .inl m, .inl n => return .int (whole m n)
  | .inl m, .inr y => return .float (.ofFloat (broken (Floating.ofInt m).toFloat y.toFloat))
  | .inr x, .inl n => return .float (.ofFloat (broken x.toFloat (Floating.ofInt n).toFloat))
  | .inr x, .inr y => return .float (.ofFloat (broken x.toFloat y.toFloat))

/-- The value if there is one; the operation does not apply otherwise. -/
def applicable (v : Option Value) : Eval Value :=
  match v with
  | some w => pure w
  | Option.none => raise .wrongType

def addTo (a b : Value) : Eval Value := do
  match ← view a, ← view b with
  | .int m, .int n => return .int (m + n)
  | .str s, .str t => return .str (s ++ t)
  | .list xs, .list ys => return .list (xs ++ ys)
  | .tuple xs, .tuple ys => return .tuple (xs ++ ys)
  | a, b => applicable (arithmetic (· + ·) (· + ·) a b)

def subtractFrom (a b : Value) : Eval Value := do
  applicable (arithmetic (· - ·) (· - ·) (← view a) (← view b))

def repeated? (n : Value) (v : Value) : Option Value := do
  let k ← n.toInt?
  let copies {α : Type} (xs : List α) : List α := (List.replicate k.toNat xs).flatten
  match v with
  | .str s => return .ofChars (copies s.toList)
  | .list items => return .list (copies items)
  | .tuple items => return .tuple (copies items)
  | _ => Option.none

def multiplyBy (a b : Value) : Eval Value := do
  let a ← view a
  let b ← view b
  applicable (arithmetic (· * ·) (· * ·) a b <|> repeated? b a <|> repeated? a b)

def anyEqual (v : Value) : List Value → Eval Bool
  | [] => return false
  | w :: rest => do
    if ← equalTo w v then return true else anyEqual v rest

def containsText (part : List Char) : List Char → Bool
  | [] => part.isEmpty
  | c :: rest => part.isPrefixOf (c :: rest) || containsText part rest

/-- Whether a value is among the items or keys of another one, or part of a text. -/
def memberOf (v whole : Value) : Eval Bool := do
  match ← view whole with
  | .str s => do
    match ← view v with
    | .str part => return containsText part.toList s.toList
    | _ => raise .wrongType
  | .list items | .tuple items => anyEqual v items
  | .set items => do
    checkKey v
    anyEqual v items
  | .dict entries => do
    checkKey v
    anyEqual v (entries.map (·.1))
  | _ => raise .wrongType

/-- Whether two values are one and the same.  Plain data is the same when it is equal. -/
def sameAs (a b : Value) : Eval Bool := do
  match a, b with
  | .object i _, .object j _ => return i = j
  | .object _ _, _ | _, .object _ _ => return false
  | .bool _, .int _ | .int _, .bool _ | .float _, .int _ | .int _, .float _ => return false
  | .bool _, .float _ | .float _, .bool _ => return false
  | a, b => equalTo a b

def joinWith (between : String) (v : Value) : Eval String := do
  let items ← itemsOf v
  let texts := items.map fun w => match w with
    | .str s => some s
    | _ => Option.none
  if texts.any (·.isNone) then raise .wrongType
  return between.intercalate (texts.filterMap id)

def totalOf (items : List Value) : Eval Value :=
  items.foldlM addTo (.int 0)

def isNumberBlank (c : Char) : Bool := c = ' ' || (0x9 ≤ c.toNat && c.toNat ≤ 0xD)

/-- The number that digits write; single low lines may stand between digits. -/
def digitsValue? : List Char → Option Nat → Bool → Option Nat
  | [], total, afterDigit => if afterDigit then total else Option.none
  | c :: rest, total, afterDigit =>
    if c.isDigit then digitsValue? rest (some (10 * total.getD 0 + (c.toNat - '0'.toNat))) true
    else if c = '_' && afterDigit then digitsValue? rest total false
    else Option.none

def wholeNumber? (s : String) : Option Int :=
  let cs := (s.toList.dropWhile isNumberBlank).reverse.dropWhile isNumberBlank |>.reverse
  match cs with
  | '-' :: rest => (digitsValue? rest Option.none false).map fun n => -(n : Int)
  | '+' :: rest => (digitsValue? rest Option.none false).map Int.ofNat
  | cs => (digitsValue? cs Option.none false).map Int.ofNat

/-- The whole number that a value writes or is cut down to. -/
def toWhole (v : Value) : Eval Int := do
  match ← view v with
  | .str s =>
    match wholeNumber? s with
    | some n => return n
    | Option.none => raise .badValue
  | .float (.finite x) =>
    let size := x.abs.floor.toUInt64.toNat
    return if x < 0 then -(size : Int) else size
  | .float _ => raise .badValue
  | v =>
    match v.toInt? with
    | some n => return n
    | Option.none => raise .wrongType

end Rebind
