/-
# The standard library

All functions that formulas may call unless a library is cut down.
-/
import ColumnTree.Library.Dates
import ColumnTree.Library.Math
import ColumnTree.Library.Patterns
import ColumnTree.Library.Strings

namespace ColumnTree.Library

/-- The standard library at a time. -/
def standard (now : Calendar.Moment) : Library :=
  ofList (Math.routines ++ Strings.routines ++ Patterns.routines ++ Dates.routines now)

end ColumnTree.Library
