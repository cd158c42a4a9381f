import Rebind.Regex.Syntax
import Rebind.Text.Hex
/-!
# Reading patterns

From the source of a pattern to its tree.  The reader keeps track of the groups opened so far, so
that a reference to a group that is open, missing or inside the same look-behind is refused, as are
a repetition of nothing, a repetition of a repetition, a class range that runs backwards, a
look-behind of variable width and flags set anywhere but at the start.
-/
namespace Rebind.Regex

/-- The least and the greatest number of characters that a node can take. -/
structure Width where
  least : Nat
  most : Option Nat
  deriving DecidableEq, Repr

namespace Width

def one : Width := ⟨1, some 1⟩

def zero : Width := ⟨0, some 0⟩

def andThen (a b : Width) : Width :=
  ⟨a.least + b.least, do return (← a.most) + (← b.most)⟩

def orElse (a b : Width) : Width :=
  ⟨min a.least b.least, do return max (← a.most) (← b.most)⟩

def times (a : Width) (least : Nat) (most : Option Nat) : Width :=
  ⟨a.least * least, if a.most = some 0 then some 0 else do return (← a.most) * (← most)⟩

end Width

mutual

/-- The width of a node, given the widths of the groups that stand before it. -/
def Node.width (groups : Nat → Width) : Node → Width
  | .char _ | .anyChar | .oneOf _ _ => .one
  | .position _ | .ahead _ _ | .behind _ _ _ => .zero
  | .sequence parts => Node.widthAll groups parts
  | .choice branches => Node.widthAny groups branches
  | .capture _ body | .scoped _ body | .plain body | .atomic body => Node.width groups body
  | .repeated least most _ body => (Node.width groups body).times least most
  | .backreference index => groups index
  | .conditional _ yes no => (Node.width groups yes).orElse (Node.width groups no)

def Node.widthAll (groups : Nat → Width) : List Node → Width
  | [] => .zero
  | n :: ns => (Node.width groups n).andThen (Node.widthAll groups ns)

def Node.widthAny (groups : Nat → Width) : List Node → Width
  | [] => .zero
  | [n] => Node.width groups n
  | n :: ns => (Node.width groups n).orElse (Node.widthAny groups ns)

end

/-- What the reader knows while it reads. -/
structure Draft where
  rest : List Char
  flags : Flags
  opened : Nat
  names : List (String × Nat)
  closed : List (Nat × Width)
  behindFrom : Option Nat
  /-- Only groups that were opened have names. -/
  named : ∀ entry ∈ names, entry.2 ≤ opened

abbrev Reader := StateT Draft Option

namespace Reader

def refuse {α : Type} : Reader α := fun _ => none

def peek : Reader (Option Char) := fun d => some (d.rest.head?, d)

def take : Reader (Option Char) := fun d => some (d.rest.head?, { d with rest := d.rest.drop 1 })

def accept (c : Char) : Reader Bool := fun d =>
  match d.rest with
  | x :: rest => if x = c then some (true, { d with rest }) else some (false, d)
  | [] => some (false, d)

def expect (c : Char) : Reader Unit := do
  unless ← accept c do refuse

def takeSome (most : Nat) (ok : Char → Bool) : Reader (List Char) := fun d =>
  let taken := (d.rest.take most).takeWhile ok
  some (taken, { d with rest := d.rest.drop taken.length })

/-- Takes every character up to the given one, and that one too; there has to be one, and
something before it. -/
def takeUntil (c : Char) : Reader (List Char) := fun d =>
  let taken := d.rest.takeWhile (· != c)
  let rest := d.rest.drop taken.length
  if taken.isEmpty || rest.isEmpty then none else some (taken, { d with rest := rest.drop 1 })

end Reader

def decimal (cs : List Char) : Nat :=
  cs.foldl (fun n c => 10 * n + (c.toNat - '0'.toNat)) 0

def isOctal (c : Char) : Bool := '0' ≤ c && c ≤ '7'

def octal (cs : List Char) : Nat :=
  cs.foldl (fun n c => 8 * n + (c.toNat - '0'.toNat)) 0

/-- Whether a character can open or continue the name of a group. -/
def isNameChar (c : Char) : Bool := c.isAlphanum || c = '_' || c.toNat ≥ 0xAA

def isName (cs : List Char) : Bool :=
  cs.all isNameChar && !(cs.head?.any Char.isDigit)

/-- The character with this number. -/
def charOf (n : Nat) : Reader Char :=
  if n < 0x110000 ∧ ¬ (0xD800 ≤ n ∧ n < 0xE000) then pure (Char.ofNat n) else Reader.refuse

/-- A character given by exactly `count` hexadecimal digits. -/
def hexChar (count : Nat) : Reader Char := do
  let ds ← Reader.takeSome count (fun c => (Hex.value? c).isSome)
  match Hex.number? ds with
  | some n => if ds.length = count then charOf n else Reader.refuse
  | none => Reader.refuse

/-- Escapes that name one character, inside and outside classes. -/
def simpleEscape? : Char → Option Char
  | 'a' => some '\x07'
  | 'f' => some '\x0c'
  | 'n' => some '\n'
  | 'r' => some '\r'
  | 't' => some '\t'
  | 'v' => some '\x0b'
  | '\\' => some '\\'
  | _ => none

def categoryEscape? : Char → Option ClassItem
  | 'd' => some (.category false .digit)
  | 'D' => some (.category true .digit)
  | 's' => some (.category false .space)
  | 'S' => some (.category true .space)
  | 'w' => some (.category false .word)
  | 'W' => some (.category true .word)
  | _ => none

def positionEscape? : Char → Option Position
  | 'A' => some .textStart
  | 'Z' => some .textEnd
  | 'b' => some .boundary
  | 'B' => some .interior
  | _ => none

/-- Whether a group may be referred to here: it is closed, and it does not belong to the
look-behind that is being read. -/
def canRefer (index : Nat) : Reader Bool := fun d =>
  let known := (d.closed.lookup index).isSome
  some (known && d.behindFrom.all (index ≤ ·), d)

def reference (index : Nat) : Reader Node := do
  if ← canRefer index then pure (.backreference index) else Reader.refuse

def escapeNode : Reader Node := do
  let some c ← Reader.take | Reader.refuse
  if let some p := positionEscape? c then return .position p
  if let some item := categoryEscape? c then return .oneOf false [item]
  if let some d := simpleEscape? c then return .char d
  if c = 'x' then return .char (← hexChar 2)
  if c = 'u' then return .char (← hexChar 4)
  if c = 'U' then return .char (← hexChar 8)
  if c = '0' then
    let ds ← Reader.takeSome 2 isOctal
    return .char (← charOf (octal ds))
  if c.isDigit then
    let second ← Reader.takeSome 1 Char.isDigit
    if isOctal c && second.all isOctal && !second.isEmpty then
      let third ← Reader.takeSome 1 isOctal
      if !third.isEmpty then
        let n := octal (c :: second ++ third)
        if n > 255 then Reader.refuse
        return .char (← charOf n)
    return ← reference (decimal (c :: second))
  if c.isAlpha then Reader.refuse
  return .char c

def escapeItem : Reader ClassItem := do
  let some c ← Reader.take | Reader.refuse
  if c = 'b' then return .char '\x08'
  if let some d := simpleEscape? c then return .char d
  if let some item := categoryEscape? c then return item
  if c = 'x' then return .char (← hexChar 2)
  if c = 'u' then return .char (← hexChar 4)
  if c = 'U' then return .char (← hexChar 8)
  if isOctal c then
    let ds ← Reader.takeSome 2 isOctal
    let n := octal (c :: ds)
    if n > 255 then Reader.refuse
    return .char (← charOf n)
  if c.isDigit || c.isAlpha then Reader.refuse
  return .char c

def classEnd (c : Char) : Reader ClassItem :=
  if c = '\\' then escapeItem else pure (.char c)

/-- The items of a class up to its closing bracket.  A bracket that comes first is an item. -/
def classItems : Nat → List ClassItem → Reader (List ClassItem)
  | 0, _ => Reader.refuse
  | fuel + 1, items => do
    let some c ← Reader.take | Reader.refuse
    if c = ']' && !items.isEmpty then return items
    let first ← classEnd c
    if ← Reader.accept '-' then
      let some d ← Reader.take | Reader.refuse
      if d = ']' then return items ++ [first, .char '-']
      match first, ← classEnd d with
      | .char lo, .char hi =>
        if hi < lo then Reader.refuse else classItems fuel (items ++ [.range lo hi])
      | _, _ => Reader.refuse
    else classItems fuel (items ++ [first])

/-- The counts between braces, if they are well formed; otherwise the brace stands for itself. -/
def bounds? : Reader (Option (Nat × Option Nat)) := fun d =>
  let read : Reader (Option (Nat × Option Nat)) := do
    if (← Reader.peek) = some '\x7d' then return none
    let lo ← Reader.takeSome d.rest.length Char.isDigit
    let comma ← Reader.accept ','
    let hi ← if comma then Reader.takeSome d.rest.length Char.isDigit else pure lo
    if ← Reader.accept '\x7d' then
      return some (decimal lo, if hi.isEmpty then none else some (decimal hi))
    else return none
  match read d with
  | some (some counts, d') =>
    match counts.2 with
    | some hi => if hi < counts.1 then none else some (some counts, d')
    | none => some (some counts, d')
  | _ => some (none, d)

def setFlag (on : Bool) (flags : Flags) : Char → Flags
  | 'i' => { flags with ignoreCase := on }
  | 'm' => { flags with multiline := on }
  | 's' => { flags with dotAll := on }
  | 'x' => { flags with verbose := on }
  | 'a' => { flags with ascii := on }
  | 'u' => { flags with ascii := false }
  | _ => flags

/-- Whether a letter names a flag that a group can clear. -/
def isFlagLetter (c : Char) : Bool := ['i', 'm', 's', 'x'].contains c

/-- Whether a letter names a flag that a pattern can set. -/
def isSettable (c : Char) : Bool := isFlagLetter c || c = 'a' || c = 'u'

/-- Where a repetition may not stand. -/
def repeatable : Node → Bool
  | .position _ | .repeated _ _ _ _ => false
  | _ => true

/-- The mark after a repetition that says how much it takes. -/
def greedMark : Reader Greed := do
  if ← Reader.accept '?' then return .lazy
  if ← Reader.accept '+' then return .possessive
  return .greedy

def repeatLast (nodes : List Node) (least : Nat) (most : Option Nat) : Reader (List Node) := do
  match nodes with
  | [] => Reader.refuse
  | last :: earlier =>
    unless repeatable last do Reader.refuse
    return .repeated least most (← greedMark) last :: earlier

def openGroup (name : Option (List Char)) : Reader Nat := do
  let d ← get
  let index := d.opened + 1
  match name with
  | some cs =>
    let name := String.ofList cs
    if !isName cs || (d.names.lookup name).isSome then Reader.refuse
    set { d with
      opened := index
      names := d.names ++ [(name, index)]
      named := by
        intro entry there
        rcases List.mem_append.mp there with before | now
        · exact Nat.le_succ_of_le (d.named entry before)
        · obtain rfl := List.mem_singleton.mp now
          exact Nat.le_refl _ }
  | none => set { d with opened := index, named := fun e there => Nat.le_succ_of_le (d.named e there) }
  return index

def closeGroup (index : Nat) (body : Node) : Reader Unit :=
  modify fun d =>
    let widths := fun i => (d.closed.lookup i).getD .zero
    { d with closed := (index, body.width widths) :: d.closed }

/-- The group that a name or a number in parentheses refers to. -/
def groupNamed (cs : List Char) : Reader Nat := do
  match (← get).names.lookup (String.ofList cs) with
  | some index => pure index
  | none => Reader.refuse

/-- What the characters after an opening parenthesis announce. -/
inductive Opening where
  | capture (name : Option (List Char))
  | group (flags : Flags)
  | atomic
  | ahead (negated : Bool)
  | behind (negated : Bool)
  | conditional (index : Nat)
  | done (node : Option Node)
  | globalFlags (flags : Flags)

def skipComment : Reader Unit := fun d =>
  let rest := d.rest.dropWhile (· != ')')
  if rest.isEmpty then none else some ((), { d with rest := rest.drop 1 })

/-- Reads what follows an opening parenthesis and a question mark. -/
def extension (flags : Flags) : Reader Opening := do
  let some c ← Reader.take | Reader.refuse
  match c with
  | ':' => return .group flags
  | '>' => return .atomic
  | '=' => return .ahead false
  | '!' => return .ahead true
  | '#' =>
    skipComment
    return .done none
  | '<' =>
    match ← Reader.take with
    | some '=' => return .behind false
    | some '!' => return .behind true
    | _ => Reader.refuse
  | 'P' =>
    match ← Reader.take with
    | some '<' => return .capture (some (← Reader.takeUntil '>'))
    | some '=' =>
      let name ← Reader.takeUntil ')'
      unless isName name do Reader.refuse
      return .done (some (← reference (← groupNamed name)))
    | _ => Reader.refuse
  | '(' =>
    let name ← Reader.takeUntil ')'
    if name.all Char.isDigit then
      if decimal name = 0 then Reader.refuse
      return .conditional (decimal name)
    return .conditional (← groupNamed name)
  | c =>
    unless c = '-' || isSettable c do Reader.refuse
    let size := (← get).rest.length
    let on ← if c = '-' then pure [] else (do return c :: (← Reader.takeSome size isSettable))
    if on.contains 'a' && on.contains 'u' then Reader.refuse
    let set := on.foldl (setFlag true) flags
    let stop ← if c = '-' then pure (some c) else Reader.take
    match stop with
    | some ')' => return .globalFlags set
    | some ':' => return .group set
    | some '-' =>
      let off ← Reader.takeSome size isFlagLetter
      Reader.expect ':'
      if off.isEmpty || off.any on.contains then Reader.refuse
      return .group (off.foldl (setFlag false) set)
    | _ => Reader.refuse

/-- Where the look-behind in force started. -/
def behindFrom : Reader (Option Nat) := do
  return (← get).behindFrom

def skipLine : Reader Unit :=
  modify fun d => { d with rest := (d.rest.dropWhile (· != '\n')).drop 1 }

def isLayout (c : Char) : Bool :=
  c = ' ' || (0x9 ≤ c.toNat && c.toNat ≤ 0xD)

/-- One node out of a list read back to front. -/
def joined (nodes : List Node) : Node :=
  match nodes with
  | [n] => n
  | ns => .sequence ns.reverse

mutual

/-- The branches of a choice, up to the end of the source or a closing parenthesis. -/
def branches : Nat → Flags → Bool → List Node → Reader Node
  | 0, _, _, _ => Reader.refuse
  | fuel + 1, flags, outermost, earlier => do
    let branch ← items fuel flags (outermost && earlier.isEmpty) []
    if ← Reader.accept '|' then
      let here ← get
      let flags := if outermost then here.flags else flags
      branches fuel flags outermost (branch :: earlier)
    else
      match earlier with
      | [] => return branch
      | _ => return .choice (branch :: earlier).reverse

/-- The nodes of one branch, read back to front. -/
def items : Nat → Flags → Bool → List Node → Reader Node
  | 0, _, _, _ => Reader.refuse
  | fuel + 1, flags, first, nodes => do
    match ← Reader.peek with
    | none => return joined nodes
    | some c =>
      if c = '|' || c = ')' then return joined nodes
      let _ ← Reader.take
      if flags.verbose && isLayout c then items fuel flags first nodes
      else if flags.verbose && c = '#' then
        skipLine
        items fuel flags first nodes
      else match c with
        | '\\' => items fuel flags first ((← escapeNode) :: nodes)
        | '[' =>
          let negated ← Reader.accept '^'
          let size := (← get).rest.length
          let members ← classItems (size + 1) []
          items fuel flags first (.oneOf negated members :: nodes)
        | '*' => items fuel flags first (← repeatLast nodes 0 none)
        | '+' => items fuel flags first (← repeatLast nodes 1 none)
        | '?' => items fuel flags first (← repeatLast nodes 0 (some 1))
        | '\x7b' =>
          match ← bounds? with
          | some (least, most) => items fuel flags first (← repeatLast nodes least most)
          | none => items fuel flags first (.char c :: nodes)
        | '.' => items fuel flags first (.anyChar :: nodes)
        | '^' => items fuel flags first (.position .lineStart :: nodes)
        | '$' => items fuel flags first (.position .lineEnd :: nodes)
        | '(' =>
          let opening ← if ← Reader.accept '?' then extension flags else pure (.capture none)
          match opening with
          | .done none => items fuel flags first nodes
          | .done (some node) => items fuel flags first (node :: nodes)
          | .globalFlags flags =>
            unless first && nodes.isEmpty do Reader.refuse
            modify fun d => { d with flags }
            items fuel flags first nodes
          | opening => items fuel flags first ((← enclosed fuel flags opening) :: nodes)
        | c => items fuel flags first (.char c :: nodes)

def enclosed : Nat → Flags → Opening → Reader Node
  | 0, _, _ => Reader.refuse
  | fuel + 1, flags, opening => do
    match opening with
    | .capture name =>
      let index ← openGroup name
      let body ← branches fuel flags false []
      Reader.expect ')'
      closeGroup index body
      return .capture index body
    | .group inner =>
      let body ← branches fuel inner false []
      Reader.expect ')'
      return if inner = flags then .plain body else .scoped inner body
    | .atomic =>
      let body ← branches fuel flags false []
      Reader.expect ')'
      return .atomic body
    | .ahead negated =>
      let body ← branches fuel flags false []
      Reader.expect ')'
      return .ahead negated body
    | .behind negated =>
      let outer ← behindFrom
      modify fun d => { d with behindFrom := some (outer.getD d.opened) }
      let body ← branches fuel flags false []
      modify fun d => { d with behindFrom := outer }
      Reader.expect ')'
      let d ← get
      let width := body.width (fun i => (d.closed.lookup i).getD .zero)
      if width.most != some width.least then Reader.refuse
      return .behind negated width.least body
    | .conditional index =>
      let yes ← items fuel flags false []
      let no ← if ← Reader.accept '|' then items fuel flags false [] else pure (.sequence [])
      Reader.expect ')'
      return .conditional index yes no
    | .done _ | .globalFlags _ => Reader.refuse

end

def conditionsKnown (opened : Nat) (conditions : List Nat) : Bool :=
  conditions.all (· ≤ opened)

mutual

def Node.conditions : Node → List Nat
  | .conditional index yes no => index :: Node.conditions yes ++ Node.conditions no
  | .sequence ns | .choice ns => Node.conditionsAll ns
  | .capture _ n | .scoped _ n | .plain n | .atomic n | .ahead _ n | .behind _ _ n => Node.conditions n
  | .repeated _ _ _ n => Node.conditions n
  | _ => []

def Node.conditionsAll : List Node → List Nat
  | [] => []
  | n :: ns => Node.conditions n ++ Node.conditionsAll ns

end

end Rebind.Regex

namespace Rebind

/-- Compiles the source of a pattern under the given flags, if it is well formed. -/
def Regex.compile? (source : String) (flags : Regex.Flags) : Option Regex := do
  let cs := source.toList
  let draft : Regex.Draft := ⟨cs, flags, 0, [], [], none, Regex.no_names⟩
  let (root, d) ← (Regex.branches (3 * cs.length + 3) flags true []).run draft
  if d.rest.isEmpty && Regex.conditionsKnown d.opened root.conditions then
    some ⟨.text source, d.flags, d.opened, d.names, root, d.named⟩
  else none

end Rebind
