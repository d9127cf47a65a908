import Clearance.Declaration.Reading
import Clearance.Yaml.Document

/-! Declarations in YAML documents and files. -/
namespace Clearance.Declaration

/-- The declarations in a YAML text; a text without a document declares nothing. -/
def parseYaml (text : List Char) : Run (List (Value × Declaration)) := do
  match ← Run.ofExcept (Yaml.read text) with
  | .null => pure []
  | data => parseAll data

/-- A text with line feeds for all carriage returns, alone or in front of a line feed. -/
def unifyBreaks : List Char → List Char
  | [] => []
  | '\r' :: '\n' :: rest => '\n' :: unifyBreaks rest
  | c :: rest => (if c == '\r' then '\n' else c) :: unifyBreaks rest

/-- The declarations in the file at a path, of which the content is known if it
can be read. The file holds UTF-8. -/
def loadFile (path : String) (content : Option (List UInt8)) :
    Run (List (Value × Declaration)) := do
  match content with
  | none => Run.reject (.unreadableFile path)
  | some octets =>
    match Text.decodeUtf8? octets with
    | none => Run.fail .undecodable
    | some text =>
      let declarations ← parseYaml (unifyBreaks text)
      Run.log .declarations .info
        ("Loaded " ++ toString declarations.length ++ " access-control declarations from " ++ path)
      pure declarations

end Clearance.Declaration
