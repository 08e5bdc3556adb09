import Rim.Choice
import Rim.Registry

/-!
# The registry of documents

The registry whose readings give type choices, with the kinds that are always known.
-/

namespace Rim

instance : KindFamily Kind Choice where
  tag := Kind.tag
  name := Kind.name
  reader k := ⟨k.ofCbor, k.ofJson⟩

instance : Checkable Choice where
  typeName c := c.kind.name
  validate := Choice.validate

abbrev ChoiceRegistry := Registry Kind Choice

namespace ChoiceRegistry

/-- The registry of the kinds that are always known. -/
def builtin : ChoiceRegistry := (Registry.empty.registerKinds Kind.builtins).1

end ChoiceRegistry

end Rim
