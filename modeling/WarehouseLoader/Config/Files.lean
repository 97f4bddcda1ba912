import WarehouseLoader.Flow.Unit

/-!
# What a run finds on its machine

Reading a configuration and its payloads depends on files and on one variable of
the environment. Both are data here, so what is read from them is a function.
-/

namespace WarehouseLoader

inductive FileState where
  | missing
  /-- Something is there but no content can be read, as with a directory. -/
  | unreadable
  | content (bytes : Bytes)
  deriving DecidableEq

structure Machine where
  file : String → FileState
  /-- The path of a key file that the environment names. -/
  credentialsPath : Option String

end WarehouseLoader
