/-!
# Paths of files

A path is names with slashes between them. Repeated slashes and single dots
behind the first name mean nothing, so they are passed over when a path is taken
apart from its end.
-/

namespace WarehouseLoader.Command.Path

/-- Whether a part of a path that is not the first names nothing. -/
def isIdle (part : List Char) : Bool := part.isEmpty || part == ['.']

/-- The parts of a path between its slashes. -/
def parts : List Char → List (List Char)
  | [] => [[]]
  | '/' :: rest => [] :: parts rest
  | c :: rest =>
    match parts rest with
    | part :: others => (c :: part) :: others
    | [] => [[c]]

/-- The parts without those at the end that name nothing, from the last to the
first. The first part stays. -/
def trimmed : List (List Char) → List (List Char)
  | [] => []
  | [first] => [first]
  | last :: rest => if isIdle last then trimmed rest else last :: rest

def reversedParts (path : String) : List (List Char) :=
  trimmed (parts path.toList).reverse

/-- The name of what a path leads to, if it ends in a name. -/
def fileName? (path : String) : Option String :=
  match (reversedParts path).head? with
  | some last =>
    if isIdle last || last == ['.', '.'] then none else some (String.ofList last)
  | none => none

/-- The text of parts that were taken from the end. Nothing but an empty first
part is the root. -/
def join (reversed : List (List Char)) : String :=
  match reversed with
  | [[]] => "/"
  | ps => String.ofList (List.intercalate ['/'] ps.reverse)

/-- The path of what holds the end of a path; the root and the empty path have
none. -/
def parent? (path : String) : Option String :=
  match reversedParts path with
  | [first] => if first.isEmpty then none else some ""
  | _ :: rest => some (join (trimmed rest))
  | [] => none

end WarehouseLoader.Command.Path
