/-!
# Durations as text

A duration of whole milliseconds is shown in seconds from one second on, and in
milliseconds below that. Parts of a second follow a point, without zeros at the
end. No time at all is shown in the smallest unit.
-/

namespace WarehouseLoader.Text

/-- The digits of a number below one thousand as thousandths, without zeros at
the end. -/
def thousandths (n : Nat) : List Char :=
  let digits := (toString (1000 + n)).toList.drop 1
  (digits.reverse.dropWhile (· == '0')).reverse

def duration (milliseconds : Nat) : String :=
  let seconds := milliseconds / 1000
  let rest := milliseconds % 1000
  if seconds = 0 then
    if rest = 0 then "0ns" else s!"{rest}ms"
  else if rest = 0 then
    s!"{seconds}s"
  else
    let fraction := String.ofList (thousandths rest)
    s!"{seconds}.{fraction}s"

end WarehouseLoader.Text
