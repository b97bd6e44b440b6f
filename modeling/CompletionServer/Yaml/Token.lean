import CompletionServer.Text.Point

/-!
# YAML tokens

The tokens of a YAML text. Indentation is already resolved: block collections have a start and an
end token of their own, and a simple key has a key token before it.
-/

namespace CompletionServer.Yaml

/-- A line that starts with `%`. -/
inductive Directive where
  | version (major minor : Nat)
  | tag (handle stem : String)
  | other
deriving DecidableEq, Repr

inductive Token where
  | directive (d : Directive)
  | documentStart
  | documentEnd
  | blockSequenceStart
  | blockMappingStart
  | blockEnd
  | flowSequenceStart
  | flowSequenceEnd
  | flowMappingStart
  | flowMappingEnd
  | blockEntry
  | flowEntry
  | key
  | value
  | alias (name : String)
  | anchor (name : String)
  | tag (handle : Option String) (suffix : String)
  | scalar (text : List Text.Point) (plain : Bool)
deriving DecidableEq, Repr

end CompletionServer.Yaml
