import Interop.Text.Bytes

/-!
This module contains the tokens of YAML.
-/

namespace Interop.Yaml

/--
A tag or a part of one.
-/
abbrev Tag := Bytes

inductive Token where
  | streamEnd
  | documentStart
  | documentEnd
  | versionDirective (major minor : Nat)
  | tagDirective (handle : String) (expansion : Tag)
  | blockSequenceStart
  | blockMappingStart
  | blockEnd
  | flowSequenceStart
  | flowSequenceEnd
  | flowMappingStart
  | flowMappingEnd
  | blockEntry
  | flowEntry
  | key
  | value
  | aliasOf (name : String)
  | anchor (name : String)
  | tag (handle : String) (suffix : Tag)
  | scalar (text : String) (plain : Bool)
  deriving DecidableEq, Repr

end Interop.Yaml
