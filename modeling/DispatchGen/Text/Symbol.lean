/-!
# Names that may appear in generated source

Names flow into generated source as they stand, so each is held to one of two shapes: an identifier
is a symbol in C++ and in Rust alike, and a type token may also be a path or a template instance
(`std::complex<float>`).
-/

namespace DispatchGen.Text

def isInitial (c : Char) : Bool :=
  c.isAlpha || c == '_'

def isWordChar (c : Char) : Bool :=
  c.isAlphanum || c == '_'

def isTokenChar (c : Char) : Bool :=
  isWordChar c || c == ':' || c == '<' || c == '>'

/-- An ASCII letter or underscore, followed by letters, digits and underscores. -/
def isIdentifier (s : String) : Bool :=
  match s.toList with
  | [] => false
  | c :: cs => isInitial c && cs.all isWordChar

/-- At least one character, each of which may stand in an identifier, a path or angle brackets. -/
def isTypeToken (s : String) : Bool :=
  !s.toList.isEmpty && s.toList.all isTokenChar

end DispatchGen.Text
