import CompletionServer.Glob.Basic
import CompletionServer.Path.Defect
import CompletionServer.Text.Utf8
import CompletionServer.Yaml.Error

/-!
# Why there is no configuration

Three things can keep a configuration from being used. What was decoded may be no configuration:
that is a `ConfigError`, after which a session goes on with an empty one. A value may be out of the
range of what it is converted to. And a file may not decode at all, or not even be looked for.
-/

namespace CompletionServer

/-- Why a decoded value is no configuration. -/
inductive ConfigError where
  | missingFile (path : String)
  | malformedFile (path : String) (e : Yaml.Error)
  | notMapping
  | providersNotList
  | providerNotMapping (index : Nat)
  | unknownKind (provider kind : String)
  | missingCommand (provider : String)
  | positionBase (provider : String)
  | timeout (provider : String)
  | completions (provider : String)
  | selectorNotList (provider : String)
  | selectorEntry (provider : String)
  | selectorKeys (provider : String) (keys : List String)
  | badPattern (provider pattern : String) (e : Glob.Error)
  | unwritablePattern (provider : String)
  | duplicateNames (names : List String)
deriving DecidableEq, Repr

def ConfigError.message : ConfigError → String
  | .missingFile path => s!"COMPLETIONLS_CONFIG points to a missing file: {path}"
  | .malformedFile path e => s!"Invalid YAML in {path}: {e.message}"
  | .notMapping => "Configuration must be a mapping"
  | .providersNotList => "'providers' must be a list"
  | .providerNotMapping index => s!"Provider #{index} must be a mapping"
  | .unknownKind provider kind =>
    s!"Provider '{provider}': unknown kind '{kind}' (expected one of command, static)"
  | .missingCommand provider => s!"Provider '{provider}': 'command' is required"
  | .positionBase provider => s!"Provider '{provider}': 'position_base' must be 0 or 1"
  | .timeout provider => s!"Provider '{provider}': invalid timeout"
  | .completions provider => s!"Provider '{provider}': 'completions' must be a list of mappings"
  | .selectorNotList provider => s!"Provider '{provider}': 'selector' must be a list"
  | .selectorEntry provider => s!"Provider '{provider}': selector entries must be mappings"
  | .selectorKeys provider keys =>
    s!"Provider '{provider}': unknown selector keys " ++ ", ".intercalate keys
  | .badPattern provider pattern e => s!"Provider '{provider}': " ++ e.message pattern.toList
  | .unwritablePattern provider => s!"Provider '{provider}': " ++ Text.unwritableMessage
  | .duplicateNames names => "Duplicate provider names: " ++ ", ".intercalate names

/-- Why a decoded value could not even be checked. -/
inductive ConversionFault where
  /-- A whole number of seconds beyond the range of floats. -/
  | tooLarge
  /-- A command that is a scalar of a kind without parts. -/
  | noParts (kindName : String)
  /-- An unknown key of a filter that is no text. -/
  | keyNotText (kindName : String)
  /-- Two unknown keys of a filter that have no order. -/
  | keysUnordered (left right : String)
  /-- A day and a moment as unknown keys of a filter. -/
  | dayWithMoment
  /-- Two moments as unknown keys of a filter, of which only one names its zone. -/
  | zoneMissing
  /-- A whole number of too many digits where a text is expected. -/
  | unwritable
deriving DecidableEq, Repr

/-- Why there is no configuration. -/
inductive ConfigFault where
  | refused (e : ConfigError)
  | conversion (f : ConversionFault)
  | scalar (f : Yaml.ScalarFault)
  | encoding (f : Text.Utf8.Fault)
  | noHome
  /-- A path of the file that is turned down for its length. -/
  | tooLong (path : String)
deriving DecidableEq, Repr

def ConversionFault.kind : ConversionFault → String
  | .tooLarge => "OverflowError"
  | .unwritable => "ValueError"
  | _ => "TypeError"

def ConversionFault.message : ConversionFault → String
  | .tooLarge => "int too large to convert to float"
  | .noParts kindName => s!"'{kindName}' object is not iterable"
  | .keyNotText kindName => s!"sequence item 0: expected str instance, {kindName} found"
  | .keysUnordered left right => s!"'<' not supported between instances of '{left}' and '{right}'"
  | .dayWithMoment => "can't compare datetime.datetime to datetime.date"
  | .zoneMissing => "can't compare offset-naive and offset-aware datetimes"
  | .unwritable => Text.unwritableMessage

/-- The kind of a fault, as it is reported to a client. -/
def ConfigFault.kind : ConfigFault → String
  | .refused _ => "ConfigError"
  | .conversion f => f.kind
  | .scalar f => f.kind
  | .encoding _ => "UnicodeDecodeError"
  | .noHome => "RuntimeError"
  | .tooLong _ => "OSError"

def ConfigFault.message : ConfigFault → String
  | .refused e => e.message
  | .conversion f => f.message
  | .scalar f => f.message
  | .encoding f => f.message
  | .noHome => "Could not determine home directory."
  | .tooLong path => PathDefect.tooLong.message path

end CompletionServer
