import Clearance.Decimal.Places
import Clearance.Decimal.Reading
import Clearance.Failure
import Clearance.Value.Equality

/-! Message templates: text in which a percent sign starts a directive that
stands for an argument.

A directive may name a key in parentheses, then has flags, a width, a precision
and a conversion; two percent signs stand for one. Arguments are taken in turn from a
tuple; any other value is a single argument, and a mapping is also looked up by key. -/
namespace Clearance.Log

/-! ## Arguments -/

/-- Arguments that are still to be used. -/
inductive Pool where
  | inTurn (rest : List Value)
  | alone (v : Value) (used : Bool)

/-- The arguments of a template. -/
structure Arguments where
  pool : Pool
  /-- Where keys are looked up, if the arguments can be. -/
  lookup : Option Value

/-- The arguments that a value holds. -/
def Arguments.ofValue (v : Value) : Arguments :=
  match v.bare with
  | .tuple items => ⟨.inTurn items, none⟩
  | .dict _ | .list _ | .bytes _ => ⟨.alone v false, some v.bare⟩
  | _ => ⟨.alone v false, none⟩

/-- Whether an argument is left that had to be used. -/
def Arguments.isLeftOver (a : Arguments) : Bool :=
  a.lookup.isNone &&
    match a.pool with
    | .inTurn rest => !rest.isEmpty
    | .alone _ used => !used

/-- What is still to be read of a template, and the arguments. -/
structure Filling where
  rest : List Char
  arguments : Arguments

/-- A step of filling a template. -/
abbrev Fill :=
  StateT Filling (Except Failure)

/-- The next argument. -/
def nextArgument : Fill Value := do
  let f ← get
  match f.arguments.pool with
  | .inTurn (v :: rest) =>
    set { f with arguments := { f.arguments with pool := .inTurn rest } }
    pure v
  | .alone v false =>
    set { f with arguments := { f.arguments with pool := .alone v true } }
    pure v
  | _ => throw .mismatch

/-! ## Numbers -/

/-- An argument as an integer, with its fraction cut off if it has one. -/
def toInt (v : Value) : Except Failure Int :=
  match v with
  | .int n => .ok n
  | .bool b => .ok (if b then 1 else 0)
  | .float x =>
    match x.truncate? with
    | some n => .ok n
    | none => .error (if x.isNaN then .illFormed else .outOfRange)
  | .uuid s => .ok ((Decimal.readNat? 16 (s.toList.filter (· != '-'))).getD 0)
  | _ => .error .mismatch

/-- An argument as an integer that is one already. -/
def asInt (v : Value) : Except Failure Int :=
  match v with
  | .int n => .ok n
  | .bool b => .ok (if b then 1 else 0)
  | _ => .error .mismatch

/-- An argument as a floating-point number. -/
def asFloat (v : Value) : Except Failure Binary64 :=
  match v with
  | .float x => .ok x
  | v => do
    let x := Binary64.ofInt (← asInt v)
    if x.isInfinite then .error .outOfRange else pure x

/-! ## Directives -/

/-- How an argument is laid out. -/
structure Layout where
  left : Bool := false
  sign : Bool := false
  blank : Bool := false
  alternate : Bool := false
  zero : Bool := false
  width : Option Nat := none
  precision : Option Nat := none

/-- The next character of a directive, which has to have one. -/
def nextChar : Fill Char := do
  let f ← get
  match f.rest with
  | c :: rest =>
    set { f with rest := rest }
    pure c
  | [] => throw .illFormed

/-- The key up to the matching parenthesis, and the text behind it. -/
def splitKey : Nat → List Char → Option (List Char × List Char)
  | _, [] => none
  | 0, ')' :: rest => some ([], rest)
  | depth + 1, ')' :: rest => (splitKey depth rest).map fun (key, rest) => (')' :: key, rest)
  | depth, '(' :: rest => (splitKey (depth + 1) rest).map fun (key, rest) => ('(' :: key, rest)
  | depth, c :: rest => (splitKey depth rest).map fun (key, rest) => (c :: key, rest)

/-- The value at a key of the arguments. -/
def lookUp (v : Value) (key : List Char) : Except Failure Value :=
  match v with
  | .dict entries =>
    match Value.at? (.text (String.ofList key)) entries with
    | some found => .ok found
    | none => .error .missingKey
  | _ => .error .mismatch

/-- Reads a key in parentheses, if there is one; what it leads to becomes the only argument. -/
def readKey : Fill Unit := do
  let f ← get
  match f.rest with
  | '(' :: rest =>
    match f.arguments.lookup with
    | none => throw .mismatch
    | some v =>
      match splitKey 0 rest with
      | none => throw .illFormed
      | some (key, rest) =>
        let found ← lookUp v key
        set { f with rest, arguments := { f.arguments with pool := .alone found false } }
  | _ => pure ()

/-- The layout with the flags at the start of a text. -/
def withFlags (l : Layout) : List Char → Layout × List Char
  | '-' :: rest => withFlags { l with left := true } rest
  | '+' :: rest => withFlags { l with sign := true } rest
  | ' ' :: rest => withFlags { l with blank := true } rest
  | '#' :: rest => withFlags { l with alternate := true } rest
  | '0' :: rest => withFlags { l with zero := true } rest
  | rest => (l, rest)

/-- Reads flags. -/
def readFlags : Fill Layout := do
  let f ← get
  let (l, rest) := withFlags {} f.rest
  set { f with rest }
  pure l

/-- An argument as a width or a precision up to a limit. -/
def asColumns (limit : Nat) (v : Value) : Except Failure Int := do
  let n ← asInt v
  if limit < n.natAbs then .error .outOfRange else pure n

/-- Reads a number up to a limit: digits, or a star for the next argument. -/
def readNumber (limit : Nat) : Fill (Option Int) := do
  let f ← get
  match f.rest with
  | '*' :: rest =>
    set { f with rest }
    let v ← nextArgument
    return some (← asColumns limit v)
  | cs =>
    let ds := cs.takeWhile Char.isDigit
    set { f with rest := cs.drop ds.length }
    if ds.isEmpty then pure none
    else
      let n := (Decimal.readNat? 10 ds).getD 0
      if limit < n then throw .illFormed else pure (some n)

/-- Reads a width; a negative one asks for the left side. -/
def readWidth (l : Layout) : Fill Layout := do
  match ← readNumber 0x7fffffffffffffff with
  | none => pure l
  | some n =>
    if n < 0 then pure { l with left := true, width := some n.natAbs }
    else pure { l with width := some n.toNat }

/-- The greatest precision, and the greatest width that can be laid out. -/
def mostColumns : Nat := 0x7fffffff

/-- Reads a precision behind a point. -/
def readPrecision (l : Layout) : Fill Layout := do
  let f ← get
  match f.rest with
  | '.' :: rest =>
    set { f with rest }
    let n := (← readNumber mostColumns).getD 0
    pure { l with precision := some n.toNat }
  | _ => pure l

/-- Passes over a mark of size, which says nothing. -/
def skipSize : Fill Unit :=
  modify fun f =>
    match f.rest with
    | c :: rest => if c == 'h' || c == 'l' || c == 'L' then { f with rest } else f
    | [] => f

/-! ## Conversions -/

/-- Digits in a base up to sixteen. -/
def digitsIn (base n : Nat) : List Char :=
  Nat.toDigits base n

/-- A converted argument: its sign, the mark of its base, and the rest. -/
structure Converted where
  negative : Bool := false
  /-- Whether a sign can stand in front. -/
  signed : Bool := true
  mark : List Char := []
  text : List Char

/-- An integer in a base with at least so many digits. -/
def convertInt (l : Layout) (base : Nat) (mark : List Char) (upper : Bool) (n : Int) : Converted :=
  let ds := digitsIn base n.natAbs
  let ds := if upper then ds.map Char.toUpper else ds
  { negative := n < 0
    mark := if l.alternate then mark else []
    text := List.replicate (l.precision.getD 0 - ds.length) '0' ++ ds }

/-- A floating-point number. -/
def convertFloat (l : Layout) (conversion : Char) (x : Binary64) : Converted :=
  let upper := conversion.isUpper
  let places := l.precision.getD 6
  let mark := if upper then 'E' else 'e'
  let special (word : String) : Converted :=
    let cs := word.toList
    { negative := x.isNegative && !x.isNaN, text := if upper then cs.map Char.toUpper else cs }
  if x.isNaN then special "nan"
  else if x.isInfinite then special "inf"
  else
    let (num, den) := x.magnitude
    { negative := x.isNegative
      text :=
        match conversion.toLower with
        | 'f' => Decimal.fixedText l.alternate places num den
        | 'e' => Decimal.exponentialText l.alternate mark places num den
        | _ => Decimal.generalText l.alternate mark places num den }

/-- A text with everything beyond ASCII escaped. -/
def asciiText (cs : List Char) : List Char :=
  cs.flatMap fun c =>
    let n := c.toNat
    if n < 0x80 then [c]
    else if n < 0x100 then '\\' :: 'x' :: Text.hex 2 n
    else if n < 0x10000 then '\\' :: 'u' :: Text.hex 4 n
    else '\\' :: 'U' :: Text.hex 8 n

/-- A text, cut to the precision. -/
def convertText (l : Layout) (cs : List Char) : Converted :=
  { signed := false
    text := match l.precision with
      | some n => cs.take n
      | none => cs }

/-- A single character, or the one with a code point. -/
def convertChar (v : Value) : Except Failure Converted :=
  match v.text?, v with
  | some s, _ =>
    match s.toList with
    | [c] => .ok { signed := false, text := [c] }
    | _ => .error .mismatch
  | none, v => do
    let n ← asInt v
    if 0 ≤ n && n < 0x110000 then pure { signed := false, text := [Char.ofNat n.toNat] }
    else .error .outOfRange

/-- The argument of a directive in the form that its conversion asks for. -/
def convert (l : Layout) (conversion : Char) (v : Value) : Except Failure Converted := do
  match conversion with
  | 's' | 'r' | 'a' => do
    asWritten [v]
    match conversion with
    | 's' => pure (convertText l v.plain.toList)
    | 'r' => pure (convertText l v.quoted.toList)
    | _ => pure (convertText l (asciiText v.quoted.toList))
  | 'd' | 'i' | 'u' => do
    let n ← toInt v
    asWritten [.int n]
    return convertInt l 10 [] false n
  | 'o' => return convertInt l 8 ['0', 'o'] false (← asInt v)
  | 'x' => return convertInt l 16 ['0', 'x'] false (← asInt v)
  | 'X' => return convertInt l 16 ['0', 'X'] true (← asInt v)
  | 'e' | 'E' | 'f' | 'F' | 'g' | 'G' => return convertFloat l conversion (← asFloat v)
  | 'c' => convertChar v
  | _ => throw .illFormed

/-- A converted argument with sign and mark, padded to the width. Zeros stand
behind the sign and the mark, spaces in front of them. -/
def Converted.layOut (l : Layout) (c : Converted) : List Char :=
  let sign :=
    if c.negative then ['-']
    else if c.signed && l.sign then ['+']
    else if c.signed && l.blank then [' ']
    else []
  let head := sign ++ c.mark
  let missing := l.width.getD 0 - (head.length + c.text.length)
  if l.left then head ++ c.text ++ List.replicate missing ' '
  else if l.zero && c.signed then head ++ List.replicate missing '0' ++ c.text
  else List.replicate missing ' ' ++ head ++ c.text

/-- Fills in the directive behind a percent sign. -/
def fillDirective : Fill (List Char) := do
  readKey
  let l ← readFlags
  let l ← readWidth l
  let l ← readPrecision l
  skipSize
  let conversion ← nextChar
  let v ← nextArgument
  let converted ← convert l conversion v
  if mostColumns < l.width.getD 0 then throw .exhausted else pure (converted.layOut l)

/-- Fills in all directives. Every round consumes a character. -/
def fillAll : Nat → Fill (List Char)
  | 0 => pure []
  | fuel + 1 => do
    let f ← get
    match f.rest with
    | [] => if f.arguments.isLeftOver then throw .mismatch else pure []
    | '%' :: '%' :: rest =>
      set { f with rest }
      return '%' :: (← fillAll fuel)
    | '%' :: rest =>
      set { f with rest }
      let text ← fillDirective
      return text ++ (← fillAll fuel)
    | c :: rest =>
      set { f with rest }
      return c :: (← fillAll fuel)

/-- A template with its arguments filled in. -/
def fill (template : String) (arguments : Value) : Except Failure String := do
  let cs := template.toList
  let filled ← (fillAll (cs.length + 1)).run' ⟨cs, Arguments.ofValue arguments⟩
  pure (String.ofList filled)

end Clearance.Log
