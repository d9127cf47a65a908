import Clearance.Decimal.Reading
import Clearance.Text.Quoted
import Clearance.Value

/-! The text of a value: quoted, as messages show it when they name a value
that they were given, and plain, as it reads inside a sentence. The two differ
for texts and for a few objects; parts of a value are always quoted. -/
namespace Clearance.Value

/-- How a floating-point number without digits reads. -/
def specialNames : Decimal.SpecialNames :=
  ⟨"nan", "inf"⟩

/-- Parts with commas between them. -/
def listed (parts : List String) : String :=
  ", ".intercalate parts

/-- Parts in parentheses; a single part is followed by a comma. -/
def inParentheses : List String → String
  | [part] => "(" ++ part ++ ",)"
  | parts => "(" ++ listed parts ++ ")"

/-- A text that depends on those of the members of a knot. -/
abbrev Shown :=
  (Nat → String) → String

/-- What stands for a member of a knot inside of itself. -/
def dots : Value → String
  | dict _ => "\x7b...\x7d"
  | _ => "[...]"

/-- The text of a member of a knot. The members around it are shown by dots, so
that every round shows one member more. -/
def knotText (dots : List String) (texts : List Shown) : Nat → List Nat → Nat → String
  | 0, _, number => dots.getD number ""
  | fuel + 1, around, number =>
    if around.contains number then dots.getD number ""
    else texts.getD number (fun _ => "") (knotText dots texts fuel (number :: around))

mutual

/-- A value as messages show it, given the members of the knot that it is part of. -/
def shown : Value → Shown
  | null => fun _ => "None"
  | bool b => fun _ => if b then "True" else "False"
  | int n => fun _ => toString n
  | float x => fun _ => Decimal.text specialNames x
  | text s => fun _ => Text.quoted s
  | bytes octets => fun _ => Text.quotedBytes octets
  | list items => fun member => "[" ++ listed ((shownAll items).map (· member)) ++ "]"
  | tuple items => fun member => inParentheses ((shownAll items).map (· member))
  | set items => fun member =>
    if items.isEmpty then "set()"
    else "\x7b" ++ listed ((shownAll items).map (· member)) ++ "\x7d"
  | dict entries => fun member =>
    "\x7b" ++ listed ((shownEntries entries).map (· member)) ++ "\x7d"
  | record .. => fun _ => "<record>"
  | uuid s => fun _ => "UUID(" ++ Text.quoted s ++ ")"
  | date y m d => fun _ =>
    "datetime.date(" ++ toString y ++ ", " ++ toString m ++ ", " ++ toString d ++ ")"
  | moment m => fun _ => m.quoted
  | level l => fun _ => "<LogLevel." ++ l.name ++ ": " ++ Text.quoted l.name ++ ">"
  | forbidden => fun _ => "FORBIDDEN"
  | declined => fun _ => "NotImplemented"
  | thing _ => fun _ => "<opaque>"
  | knot _ members number => fun _ =>
    knotText (members.map dots) (shownAll members) (members.length + 1) [] number
  | back number => fun member => member number
  | credential n l d i ib s so => fun member =>
    "Credential(name=" ++ shown n member ++ ", label=" ++ shownCaption l member ++
      ", description=" ++ shownCaption d member ++ ", implies=" ++ shown i member ++
      ", implied_by=" ++ shown ib member ++ ", subrights=" ++ shown s member ++
      ", subright_of=" ++ shown so member ++ ")"
  | fieldPolicy f v c e => fun member =>
    "FieldPolicy(field=" ++ shown f member ++ ", view=" ++ shown v member ++
      ", create=" ++ shown c member ++ ", edit=" ++ shown e member ++ ")"

/-- A caption as messages show it. -/
def shownCaption : Caption Value → Shown
  | .given v => shown v
  | .loose t => fun _ => t.quoted

/-- The values of a list as messages show them. -/
def shownAll : List Value → List Shown
  | [] => []
  | x :: rest => shown x :: shownAll rest

/-- The entries of a mapping as messages show them. -/
def shownEntries : List (Value × Value) → List Shown
  | [] => []
  | (k, v) :: rest =>
    (fun member => shown k member ++ ": " ++ shown v member) :: shownEntries rest

end

/-- A value as messages show it. -/
def quoted (v : Value) : String :=
  shown v fun _ => ""

/-- A value as it reads inside a sentence. -/
def plain : Value → String
  | text s => s
  | uuid s => s
  | date y m d => padded 4 y ++ "-" ++ padded 2 m ++ "-" ++ padded 2 d
  | moment m => m.plain
  | level l => "LogLevel." ++ l.name
  | forbidden => "Forbidden.FORBIDDEN"
  | v => v.quoted

/-- What is said about an integer that has more. -/
def tooManyDigits : String :=
  "Exceeds the limit (" ++ toString Decimal.mostDigits ++
    " digits) for integer string conversion; " ++
    "use sys.set_int_max_str_digits() to increase the limit"

/-- Whether an integer can be written out. -/
def isShort (n : Int) : Bool :=
  n.natAbs < Nat.pow 10 Decimal.mostDigits

mutual

/-- Whether every integer of a value can be written out. -/
def writable : Value → Bool
  | int n => isShort n
  | list items => allWritable items
  | tuple items => allWritable items
  | set items => allWritable items
  | dict entries => entriesWritable entries
  | knot _ members _ => allWritable members
  | credential n l d i ib s so =>
    writable n && captionWritable l && captionWritable d && writable i && writable ib &&
      writable s && writable so
  | fieldPolicy f v c e => writable f && writable v && writable c && writable e
  | _ => true

/-- Whether every integer of a caption can be written out. -/
def captionWritable : Caption Value → Bool
  | .given v => writable v
  | .loose _ => true

/-- Whether every integer of a list of values can be written out. -/
def allWritable : List Value → Bool
  | [] => true
  | x :: rest => writable x && allWritable rest

/-- Whether every integer of a mapping can be written out. -/
def entriesWritable : List (Value × Value) → Bool
  | [] => true
  | (k, v) :: rest => writable k && writable v && entriesWritable rest

end

/-- A list of names as messages show it. -/
def quotedNames (names : List String) : String :=
  quoted (ofNames names)

@[simp] theorem plain_text (s : String) : (text s).plain = s := by
  simp [plain]

@[simp] theorem writable_text (s : String) : (text s).writable = true := by
  simp [writable]

@[simp] theorem writable_null : null.writable = true := by
  simp [writable]

/-- A text can always be written out. -/
theorem writable_of_text? {v : Value} {s : String} (h : v.text? = some s) : v.writable = true := by
  cases v with
  | text _ => simp [writable]
  | level _ => simp [writable]
  | _ => cases h

@[simp] theorem quoted_text (s : String) : (text s).quoted = Text.quoted s := by
  rfl

end Clearance.Value
