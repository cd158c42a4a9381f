import Rebind.Json.Basic
/-!
# Reading JSON

From text to values, with the kind and the place of the first fault.  Besides JSON proper the words
`NaN`, `Infinity` and `-Infinity` are read as numbers.  A field written twice keeps its first place
and its last value.
-/
namespace Rebind.Json

/-- What can be wrong with a text. -/
inductive Problem where
  | expectedValue | expectedName | expectedColon | expectedComma | extraData
  | unterminatedText | badEscape | badUnicodeEscape | controlCharacter | byteOrderMark
  deriving DecidableEq, Repr

def Problem.message : Problem → String
  | .expectedValue => "Expecting value"
  | .expectedName => "Expecting property name enclosed in double quotes"
  | .expectedColon => "Expecting ':' delimiter"
  | .expectedComma => "Expecting ',' delimiter"
  | .extraData => "Extra data"
  | .unterminatedText => "Unterminated string starting at"
  | .badEscape => "Invalid \\escape"
  | .badUnicodeEscape => "Invalid \\uXXXX escape"
  | .controlCharacter => "Invalid control character at"
  | .byteOrderMark => "Unexpected UTF-8 BOM (decode using utf-8-sig)"

/-- A problem and the offset at which it was found. -/
structure Fault where
  problem : Problem
  offset : Nat
  deriving DecidableEq, Repr

/-- A problem with its line, its column and its offset in the text. -/
def Fault.message (f : Fault) (text : String) : String :=
  let before := text.toList.take f.offset
  let line := before.count '\n' + 1
  let column := (before.reverse.takeWhile (· != '\n')).length + 1
  f.problem.message ++ ": line " ++ toString line ++ " column " ++ toString column
    ++ " (char " ++ toString f.offset ++ ")"

/-- What is left to read, and its offset. -/
structure Cursor where
  rest : List Char
  offset : Nat

def isBlank (c : Char) : Bool := c = ' ' || c = '\t' || c = '\n' || c = '\r'

def Cursor.skip (c : Cursor) (n : Nat) : Cursor := ⟨c.rest.drop n, c.offset + n⟩

def Cursor.skipBlanks (c : Cursor) : Cursor := c.skip (c.rest.takeWhile isBlank).length

def Cursor.fail {α : Type} (c : Cursor) (problem : Problem) : Except Fault α :=
  .error ⟨problem, c.offset⟩

def unescaped? : Char → Option Char
  | '"' => some '"'
  | '\\' => some '\\'
  | '/' => some '/'
  | 'b' => some '\x08'
  | 'f' => some '\x0c'
  | 'n' => some '\n'
  | 'r' => some '\r'
  | 't' => some '\t'
  | _ => none

/-- The number of four hexadecimal digits at the front.  Something has to follow them, since a text
does not end there. -/
def fourDigits? (cs : List Char) : Option Nat :=
  if (cs.take 5).length = 5 then Hex.number? (cs.take 4) else none

/-- The number of a second half of a pair, if the escape of one stands at the front. -/
def secondHalf? (cs : List Char) : Option Nat :=
  match cs with
  | '\\' :: 'u' :: rest => do
    let n ← fourDigits? rest
    if 0xDC00 ≤ n ∧ n < 0xE000 then some n else none
  | _ => none

/-- The characters of a text up to its closing quote; `start` is where its opening quote stands.  A text
here holds whole characters only: half of a surrogate pair, escaped without its other half, is read as
the replacement character U+FFFD. -/
def textFrom (start : Nat) : Nat → Cursor → List Char → Except Fault (String × Cursor)
  | 0, _, _ => .error ⟨.unterminatedText, start⟩
  | fuel + 1, c, taken =>
    match c.rest with
    | [] => .error ⟨.unterminatedText, start⟩
    | '"' :: _ => .ok (String.ofList taken.reverse, c.skip 1)
    | '\\' :: rest =>
      match rest with
      | [] => .error ⟨.unterminatedText, start⟩
      | 'u' :: digits =>
        match fourDigits? digits with
        | none => (c.skip 1).fail .badUnicodeEscape
        | some n =>
          if 0xD800 ≤ n ∧ n < 0xDC00 then
            match secondHalf? (digits.drop 4) with
            | some m =>
              let whole := 0x10000 + (n - 0xD800) * 0x400 + (m - 0xDC00)
              textFrom start fuel (c.skip 12) (Char.ofNat whole :: taken)
            | none => textFrom start fuel (c.skip 6) ('\uFFFD' :: taken)
          else if 0xDC00 ≤ n ∧ n < 0xE000 then
            textFrom start fuel (c.skip 6) ('\uFFFD' :: taken)
          else textFrom start fuel (c.skip 6) (Char.ofNat n :: taken)
      | e :: _ =>
        match unescaped? e with
        | some x => textFrom start fuel (c.skip 2) (x :: taken)
        | none => c.fail .badEscape
    | x :: _ =>
      if x.toNat < 0x20 then c.fail .controlCharacter
      else textFrom start fuel (c.skip 1) (x :: taken)

def textAt (c : Cursor) : Except Fault (String × Cursor) :=
  textFrom c.offset (c.rest.length + 1) (c.skip 1) []

def natOf (cs : List Char) : Nat :=
  cs.foldl (fun n c => 10 * n + (c.toNat - '0'.toNat)) 0

/-- The digits of an exponent, with its mark and sign, at the front. -/
def exponentAt (cs : List Char) : List Char :=
  match cs with
  | e :: rest =>
    if e = 'e' || e = 'E' then
      let signed := match rest with
        | s :: _ => if s = '+' || s = '-' then [s] else []
        | [] => []
      let digits := (rest.drop signed.length).takeWhile Char.isDigit
      if digits.isEmpty then [] else e :: signed ++ digits
    else []
  | [] => []

def fractionAt (cs : List Char) : List Char :=
  match cs with
  | '.' :: rest =>
    let digits := rest.takeWhile Char.isDigit
    if digits.isEmpty then [] else '.' :: digits
  | _ => []

def exponentValue (cs : List Char) : Int :=
  match cs with
  | _ :: '-' :: digits => -(natOf digits : Int)
  | _ :: '+' :: digits => natOf digits
  | _ :: digits => natOf digits
  | [] => 0

def numberAt (c : Cursor) : Except Fault (Json × Cursor) :=
  let negative := c.rest.head? = some '-'
  let body := if negative then c.rest.drop 1 else c.rest
  let whole := match body with
    | '0' :: _ => ['0']
    | _ => body.takeWhile Char.isDigit
  if whole.isEmpty then c.fail .expectedValue
  else
    let afterWhole := body.drop whole.length
    let fraction := fractionAt afterWhole
    let exponent := exponentAt (afterWhole.drop fraction.length)
    let size := (if negative then 1 else 0) + whole.length + fraction.length + exponent.length
    let value : Json :=
      if fraction.isEmpty && exponent.isEmpty then
        .int (if negative then -(natOf whole : Int) else natOf whole)
      else
        let digits := fraction.drop 1
        .float (.ofDecimal negative (natOf (whole ++ digits))
          (exponentValue exponent - digits.length))
    .ok (value, c.skip size)

def words : List (String × Json) :=
  [("null", .null), ("true", .bool true), ("false", .bool false), ("NaN", .float .undefined),
   ("Infinity", .float (.infinite false)), ("-Infinity", .float (.infinite true))]

def wordAt? (c : Cursor) : Option (Json × Cursor) :=
  (words.find? fun w => w.1.toList.isPrefixOf c.rest).map fun w => (w.2, c.skip w.1.length)

mutual

def valueAt : Nat → Cursor → Except Fault (Json × Cursor)
  | 0, c => c.fail .expectedValue
  | fuel + 1, c =>
    match c.rest.head? with
    | some '"' => do
      let (s, c) ← textAt c
      return (.str s, c)
    | some '[' =>
      let c := (c.skip 1).skipBlanks
      if c.rest.head? = some ']' then .ok (.array [], c.skip 1) else itemsAt fuel c []
    | some '\x7b' =>
      let c := (c.skip 1).skipBlanks
      if c.rest.head? = some '\x7d' then .ok (.object [], c.skip 1) else fieldsAt fuel c []
    | _ =>
      match wordAt? c with
      | some found => .ok found
      | none => numberAt c

/-- The items of a list, read back to front, from the cursor to the closing bracket. -/
def itemsAt : Nat → Cursor → List Json → Except Fault (Json × Cursor)
  | 0, c, _ => c.fail .expectedValue
  | fuel + 1, c, items => do
    let (v, c) ← valueAt fuel c
    let c := c.skipBlanks
    match c.rest.head? with
    | some ']' => return (.array (v :: items).reverse, c.skip 1)
    | some ',' => itemsAt fuel (c.skip 1).skipBlanks (v :: items)
    | _ => c.fail .expectedComma

/-- The fields of an object from the cursor to the closing brace. -/
def fieldsAt : Nat → Cursor → List (String × Json) → Except Fault (Json × Cursor)
  | 0, c, _ => c.fail .expectedName
  | fuel + 1, c, fields => do
    if c.rest.head? != some '"' then c.fail .expectedName
    let (name, c) ← textAt c
    let c := c.skipBlanks
    if c.rest.head? != some ':' then c.fail .expectedColon
    let (v, c) ← valueAt fuel (c.skip 1).skipBlanks
    let c := c.skipBlanks
    let fields := setField name v fields
    match c.rest.head? with
    | some '\x7d' => return (.object fields, c.skip 1)
    | some ',' => fieldsAt fuel (c.skip 1).skipBlanks fields
    | _ => c.fail .expectedComma

end

def parse (text : String) : Except Fault Json := do
  let cs := text.toList
  if cs.head? = some '\uFEFF' then .error ⟨.byteOrderMark, 0⟩
  let (v, c) ← valueAt (2 * cs.length + 2) (Cursor.skipBlanks ⟨cs, 0⟩)
  let c := c.skipBlanks
  if c.rest.isEmpty then return v else c.fail .extraData

end Rebind.Json
