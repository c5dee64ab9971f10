import EvNode.Lib.CleanPath
import EvNode.Types.Basic

/-!
# Datastore keys

`ds.NewKey` roots its argument and cleans it with `path.Clean`. The key is that clean path.
-/

namespace EvNode

/-- A datastore key: a clean path. -/
abbrev Key := List Bytes

/-- The bytes of an ASCII string. -/
def ascii (s : String) : Bytes := s.toList.map fun c => UInt8.ofNat c.toNat

/-- `ds.NewKey`. A slash in front of `text` makes no difference. -/
def newKey (text : Bytes) : Key := CleanPath.clean text

end EvNode
