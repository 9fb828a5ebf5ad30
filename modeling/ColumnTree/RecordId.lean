/-
# Numbers of records

Records and columns are known by numbers of 64 bits.  The record numbered 0 is the root.
-/

namespace ColumnTree

/-- The number of a record. -/
abbrev RecordId := UInt64

/-- The number of the root. -/
def rootId : RecordId := 0

end ColumnTree
