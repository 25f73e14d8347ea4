import RayScene.Text.Search
set_option autoImplicit false

namespace RayScene.Text

/-- A carriage return belongs to the end of line when it stands directly before it. -/
def dropReturn (line : List Char) : List Char :=
  if line.getLast? = some '\r' then line.dropLast else line

def lines (text : List Char) : List (List Char) :=
  let pieces := splitOn '\n' text
  pieces.dropLast.map dropReturn ++ pieces.getLast?.toList.filter (· ≠ [])

end RayScene.Text
