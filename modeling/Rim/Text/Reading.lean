/-!
# Reading text

A reading takes something off the front of a text, or does not apply.
-/

namespace Rim.Text

/-- A reading of the front of the text: the thing read and what is left. -/
abbrev Reading (α : Type) := List Char → Option (α × List Char)

end Rim.Text
