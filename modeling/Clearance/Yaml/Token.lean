import Clearance.Failure

/-! The tokens of YAML. -/
namespace Clearance.Yaml

/-- An instruction to the reader of a document. -/
inductive Directive where
  /-- The version of the language, of which only the major number matters. -/
  | version (major : Nat)
  /-- What a tag handle stands for. -/
  | handle (handle text : String)
  | other
deriving DecidableEq

/-- A token. Collections in block style are opened and closed by indentation. -/
inductive Token where
  | directive (d : Directive)
  | documentStart
  | documentEnd
  | blockSequence
  | blockMapping
  | blockEnd
  | flowSequence
  | flowSequenceEnd
  | flowMapping
  | flowMappingEnd
  | blockEntry
  | flowEntry
  | key
  | value
  | alias (name : String)
  | anchor (name : String)
  | tag (handle : Option String) (suffix : String)
  | scalar (text : List Char) (isPlain : Bool)
  | streamEnd
deriving DecidableEq

/-- The tokens of a text as far as they can be told, and the failure that waits
for a reader who needs more. A token that may turn out to be the start of a key
cannot be told before the text behind it is read. A text that is read to its end
closes with `streamEnd`. -/
structure TokenStream where
  tokens : List Token
  stop : Failure

end Clearance.Yaml
