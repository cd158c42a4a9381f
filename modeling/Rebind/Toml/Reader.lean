import Rebind.Regex.Matcher
import Rebind.Regex.Reader
import Rebind.Toml.Basic
/-!
# Reading TOML

From text to a document.  A document with any fault is refused as a whole.
-/
namespace Rebind.Toml

abbrev Reader := StateT (List Char) Option

namespace Reader

def refuse {α : Type} : Reader α := fun _ => none

def peek : Reader (Option Char) := fun cs => some (cs.head?, cs)

def takeOne : Reader (Option Char) := fun cs => some (cs.head?, cs.drop 1)

def takeWhile (ok : Char → Bool) : Reader (List Char) := fun cs =>
  some (cs.takeWhile ok, cs.dropWhile ok)

def accept (part : String) : Reader Bool := fun cs =>
  let cs' := part.toList
  if cs'.isPrefixOf cs then some (true, cs.drop cs'.length) else some (false, cs)

def expect (part : String) : Reader Unit := do
  unless ← accept part do refuse

end Reader

def isBlank (c : Char) : Bool := c = ' ' || c = '\t'

/-- Whether a character may stand in a comment or in a text of one line. -/
def isInline (c : Char) : Bool := c = '\t' || (c.toNat ≥ 0x20 && c.toNat != 0x7F)

def isBare (c : Char) : Bool := c.isAlphanum || c = '-' || c = '_'

def skipBlanks : Reader Unit := do
  let _ ← Reader.takeWhile isBlank

def skipComment : Reader Unit := do
  if ← Reader.accept "#" then
    let cs ← Reader.takeWhile (· != '\n')
    unless cs.all isInline do Reader.refuse

def skipLayout : Nat → Reader Unit
  | 0 => pure ()
  | fuel + 1 => do
    let cs ← Reader.takeWhile fun c => isBlank c || c = '\n'
    let comment := (← Reader.peek) = some '#'
    skipComment
    if comment || !cs.isEmpty then skipLayout fuel

def numbered (count : Nat) : Reader Char := fun cs =>
  let ds := cs.take count
  match Hex.number? ds with
  | some n =>
    if ds.length = count ∧ n < 0x110000 ∧ ¬ (0xD800 ≤ n ∧ n < 0xE000) then
      some (Char.ofNat n, cs.drop count)
    else none
  | none => none

def escaped : Reader Char := do
  match ← Reader.takeOne with
  | some 'b' => return '\x08'
  | some 't' => return '\t'
  | some 'n' => return '\n'
  | some 'f' => return '\x0c'
  | some 'r' => return '\r'
  | some '"' => return '"'
  | some '\\' => return '\\'
  | some 'u' => numbered 4
  | some 'U' => numbered 8
  | _ => Reader.refuse

def basicText : Nat → List Char → Reader String
  | 0, _ => Reader.refuse
  | fuel + 1, taken => do
    let cs ← Reader.takeWhile fun c => c != '"' && c != '\\' && isInline c
    let taken := taken ++ cs
    if ← Reader.accept "\"" then return String.ofList taken
    Reader.expect "\\"
    basicText fuel (taken ++ [← escaped])

def literalText : Reader String := do
  let cs ← Reader.takeWhile fun c => c != '\'' && isInline c
  Reader.expect "'"
  return String.ofList cs

/-- Up to two quotes that belong to a long text although three more close it. -/
def extraQuotes (quote : String) : Reader String := do
  if ← Reader.accept quote then
    if ← Reader.accept quote then return quote ++ quote else return quote
  else return ""

def longBasicText : Nat → List Char → Reader String
  | 0, _ => Reader.refuse
  | fuel + 1, taken => do
    let cs ← Reader.takeWhile fun c => c != '"' && c != '\\' && (isInline c || c = '\n')
    let taken := taken ++ cs
    if ← Reader.accept "\"\"\"" then
      return String.ofList taken ++ (← extraQuotes "\"")
    else if (← Reader.peek) = some '"' then
      Reader.expect "\""
      longBasicText fuel (taken ++ ['"'])
    else
      Reader.expect "\\"
      let next ← Reader.peek
      if next.any (fun c => isBlank c || c = '\n') then
        let _ ← Reader.takeWhile isBlank
        Reader.expect "\n"
        let _ ← Reader.takeWhile fun c => isBlank c || c = '\n'
        longBasicText fuel taken
      else longBasicText fuel (taken ++ [← escaped])

def longLiteralText : Nat → List Char → Reader String
  | 0, _ => Reader.refuse
  | fuel + 1, taken => do
    let cs ← Reader.takeWhile fun c => c != '\'' && (isInline c || c = '\n')
    let taken := taken ++ cs
    if ← Reader.accept "'''" then
      return String.ofList taken ++ (← extraQuotes "'")
    else
      Reader.expect "'"
      longLiteralText fuel (taken ++ ['\''])

def keyPart : Reader String := do
  match ← Reader.peek with
  | some '"' =>
    Reader.expect "\""
    let size := (← get).length
    basicText (size + 1) []
  | some '\'' =>
    Reader.expect "'"
    literalText
  | _ =>
    let cs ← Reader.takeWhile isBare
    if cs.isEmpty then Reader.refuse else return String.ofList cs

def key : Nat → Reader Path
  | 0 => Reader.refuse
  | fuel + 1 => do
    let part ← keyPart
    skipBlanks
    if ← Reader.accept "." then
      skipBlanks
      return part :: (← key fuel)
    else return [part]

/-- The number of characters that a pattern takes here, if it matches. -/
def patternLength? (source : String) (cs : List Char) : Option Nat := do
  let r ← Regex.compile? source { ascii := true }
  return (← Regex.matchStart? r cs).length

def decimalPattern : String := "(?:0|[1-9](?:_?[0-9])*)"

def inBase (base : Nat) (cs : List Char) : Nat :=
  cs.foldl (fun n c => match Hex.value? c with
    | some d => base * n + d
    | none => n) 0

def basedNumber? (cs : List Char) : Option (Toml × List Char) := do
  let read (base : Nat) (source : String) : Option (Toml × List Char) := do
    let n ← patternLength? source cs
    return (.int (inBase base ((cs.take n).drop 2)), cs.drop n)
  (read 16 "0x[0-9A-Fa-f](?:_?[0-9A-Fa-f])*")
    <|> (read 2 "0b[01](?:_?[01])*")
    <|> (read 8 "0o[0-7](?:_?[0-7])*")

def decimalNumber? (cs : List Char) : Option (Toml × List Char) := do
  let whole ← patternLength? ("[+-]?" ++ decimalPattern) cs
  let point ← patternLength? "(?:\\.[0-9](?:_?[0-9])*)?" (cs.drop whole)
  let power ← patternLength? "(?:[eE][+-]?[0-9](?:_?[0-9])*)?" (cs.drop (whole + point))
  let negative := cs.head? = some '-'
  let digits (part : List Char) : List Char := part.filter Char.isDigit
  let wholeDigits := digits (cs.take whole)
  let pointDigits := digits ((cs.drop whole).take point)
  let powerPart := (cs.drop (whole + point)).take power
  let magnitude : Int := inBase 10 (digits powerPart)
  let exponent := if powerPart.contains '-' then -magnitude else magnitude
  let value : Toml :=
    if point + power = 0 then
      .int (if negative then -(inBase 10 wholeDigits : Int) else inBase 10 wholeDigits)
    else .float (.ofDecimal negative (inBase 10 (wholeDigits ++ pointDigits))
      (exponent - pointDigits.length))
  return (value, cs.drop (whole + point + power))

def specialNumber? (cs : List Char) : Option (Toml × List Char) :=
  let words : List (String × Floating) :=
    [("inf", .infinite false), ("nan", .undefined), ("-inf", .infinite true),
     ("+inf", .infinite false), ("-nan", .undefined), ("+nan", .undefined)]
  (words.find? fun w => w.1.toList.isPrefixOf cs).map fun w => (.float w.2, cs.drop w.1.length)

def timePattern : String := "(?:[01][0-9]|2[0-3]):[0-5][0-9]:[0-5][0-9](?:\\.[0-9]+)?"

def datePattern : String := "[0-9]{4}-(?:0[1-9]|1[0-2])-(?:0[1-9]|[12][0-9]|3[01])"

def daysOf (year month : Nat) : Nat :=
  if month = 2 then
    if year % 4 = 0 ∧ (year % 100 ≠ 0 ∨ year % 400 = 0) then 29 else 28
  else if [4, 6, 9, 11].contains month then 30 else 31

/-- A date, a time or both; a date has to exist. -/
def moment? (cs : List Char) : Option (Option (Toml × List Char)) := do
  match patternLength? datePattern cs with
  | some n =>
    let number (part : List Char) : Nat := inBase 10 part
    let year := number (cs.take 4)
    let month := number ((cs.drop 5).take 2)
    let day := number ((cs.drop 8).take 2)
    if year = 0 ∨ day > daysOf year month then none
    let clock := "[Tt ]" ++ timePattern ++ "(?:Z|[+-](?:[01][0-9]|2[0-3]):[0-5][0-9])?"
    match patternLength? clock (cs.drop n) with
    | some m => return some (.moment "datetime", cs.drop (n + m))
    | none => return some (.moment "date", cs.drop n)
  | none =>
    match patternLength? timePattern cs with
    | some n => return some (.moment "time", cs.drop n)
    | none => return none

def plainValue : Reader Toml := fun cs =>
  match moment? cs with
  | none => none
  | some (some found) => some found
  | some none => basedNumber? cs <|> decimalNumber? cs <|> specialNumber? cs

/-- A value inside double or single quotes, whose first quote is next. -/
def quotedValue (fuel : Nat) : Reader Toml := do
  if ← Reader.accept "\"\"\"" then
    let _ ← Reader.accept "\n"
    return .str (← longBasicText fuel [])
  if ← Reader.accept "'''" then
    let _ ← Reader.accept "\n"
    return .str (← longLiteralText fuel [])
  if ← Reader.accept "\"" then return .str (← basicText fuel [])
  Reader.expect "'"
  return .str (← literalText)

mutual

def value : Nat → Reader Toml
  | 0 => Reader.refuse
  | fuel + 1 => do
    match ← Reader.peek with
    | some '"' | some '\'' => quotedValue (fuel + 1)
    | some '[' =>
      Reader.expect "["
      skipLayout fuel
      if ← Reader.accept "]" then return .array []
      items fuel []
    | some '\x7b' =>
      Reader.expect "\x7b"
      skipBlanks
      if ← Reader.accept "\x7d" then return .table []
      inlineFields fuel [] []
    | _ =>
      if ← Reader.accept "true" then return .bool true
      if ← Reader.accept "false" then return .bool false
      plainValue

/-- The items of an array up to its closing bracket. -/
def items : Nat → List Toml → Reader Toml
  | 0, _ => Reader.refuse
  | fuel + 1, earlier => do
    let v ← value fuel
    let all := earlier ++ [v]
    skipLayout fuel
    if ← Reader.accept "]" then return .array all
    Reader.expect ","
    skipLayout fuel
    if ← Reader.accept "]" then return .array all
    items fuel all

def inlineFields : Nat → List (String × Toml) → List Path → Reader Toml
  | 0, _, _ => Reader.refuse
  | fuel + 1, fields, closed => do
    let path ← key (fuel + 1)
    Reader.expect "="
    skipBlanks
    let v ← value fuel
    if closed.any (·.isPrefixOf path) then Reader.refuse
    let some name := path.getLast? | Reader.refuse
    let some fields := changeTable false (setNew name v) path.dropLast fields | Reader.refuse
    let closed := match v with
      | .table _ | .array _ => path :: closed
      | _ => closed
    skipBlanks
    if ← Reader.accept "\x7d" then return .table fields
    Reader.expect ","
    skipBlanks
    inlineFields fuel fields closed

end

def applied (change : Option Draft) : Reader Draft :=
  match change with
  | some d => pure d
  | none => Reader.refuse

def statement (fuel : Nat) (d : Draft) : Reader Draft := do
  match ← Reader.peek with
  | some '[' =>
    Reader.expect "["
    if ← Reader.accept "[" then
      skipBlanks
      let path ← key fuel
      Reader.expect "]]"
      skipBlanks
      applied (d.openListed path)
    else
      skipBlanks
      let path ← key fuel
      Reader.expect "]"
      skipBlanks
      applied (d.openTable path)
  | some '#' => return d
  | _ =>
    let path ← key fuel
    Reader.expect "="
    skipBlanks
    let v ← value fuel
    skipBlanks
    applied (d.setValue path v)

def statements : Nat → Draft → Reader Draft
  | 0, _ => Reader.refuse
  | fuel + 1, d => do
    skipBlanks
    match ← Reader.peek with
    | none => return d
    | some '\n' =>
      Reader.expect "\n"
      statements fuel d
    | some _ =>
      let d ← statement (fuel + 1) d
      skipComment
      match ← Reader.peek with
      | none => return d
      | some _ =>
        Reader.expect "\n"
        statements fuel d

/-- Line ends of two characters become one. -/
def joinLineEnds : List Char → List Char
  | '\r' :: '\n' :: rest => '\n' :: joinLineEnds rest
  | c :: rest => c :: joinLineEnds rest
  | [] => []

def parse? (text : String) : Option (List (String × Toml)) := do
  let cs := joinLineEnds text.toList
  let (d, _) ← (statements (2 * cs.length + 2) {}).run cs
  return d.fields

end Rebind.Toml
