import DockConsole.Text

/-!
The orders a container list can be shown in, each by the text of one column.
-/

namespace DockConsole

inductive SortMode where
  | unsorted
  | byId
  | byImage
  | byStatus
  | byName
deriving DecidableEq, Repr

namespace SortMode

def label : SortMode → Text
  | unsorted => "NO_SORT".toList
  | byId => "BY_ID".toList
  | byImage => "BY_IMAGE".toList
  | byStatus => "BY_STATUS".toList
  | byName => "BY_NAME".toList

def all : List SortMode := [unsorted, byId, byImage, byStatus, byName]

def ofLabel? (label : Text) : Option SortMode := all.find? (·.label = label)

/-- The title of the column whose text decides the order. -/
def title? : SortMode → Option Text
  | unsorted => none
  | byId => some "CONTAINER".toList
  | byImage => some "IMAGE".toList
  | byStatus => some "STATUS".toList
  | byName => some "NAMES".toList

/-- The next mode in turn. No mode leads back to `unsorted`. -/
def next : SortMode → SortMode
  | unsorted => byId
  | byId => byImage
  | byImage => byStatus
  | byStatus => byName
  | byName => byId

end SortMode

end DockConsole
