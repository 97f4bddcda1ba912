/-!
# Texts that are there

A setting that is given as an empty text counts as one that is not given.
-/

namespace WarehouseLoader.Text

def nonEmpty? (s : String) : Option String := if s.isEmpty then none else some s

end WarehouseLoader.Text
