/-!
# Columns

Texts filled up with blanks to a width. A text that is already as wide stays as it is.
-/

namespace DispatchGen.Text

def blanks (count : Nat) : String :=
  String.ofList (List.replicate count ' ')

/-- The text at the left of a column. -/
def leftIn (width : Nat) (text : String) : String :=
  text ++ blanks (width - text.length)

/-- The text at the right of a column. -/
def rightIn (width : Nat) (text : String) : String :=
  blanks (width - text.length) ++ text

end DispatchGen.Text
