/-!
Dotted names. The scope of a function nested in another is named after both, as
in `outer.inner`, and so is a method after its class; modules and their members
are named in the same way.
-/

namespace NativeTyping

namespace Dotted

def join (left right : String) : String :=
  left ++ "." ++ right

/-- The parts of a text before each of its dots, shortest first. -/
def beforeDots : List Char → List (List Char)
  | [] => []
  | char :: rest =>
      let longer := (beforeDots rest).map (char :: ·)
      if char = '.' then [] :: longer else longer

def ancestors (name : String) : List String :=
  ((beforeDots name.toList).map String.ofList).reverse

def splitFirst (name : String) : String × Option String :=
  match name.toList.span (· ≠ '.') with
  | (head, []) => (String.ofList head, none)
  | (head, _ :: rest) => (String.ofList head, some (String.ofList rest))

def head (name : String) : String :=
  (splitFirst name).1

def splitLast? (name : String) : Option (String × String) :=
  match name.toList.reverse.span (· ≠ '.') with
  | (_, []) => none
  | (last, _ :: front) => some (String.ofList front.reverse, String.ofList last.reverse)

end Dotted

end NativeTyping
