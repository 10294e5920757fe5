/-!
# Paths

A path is a text of names between slashes.  Empty names mean nothing, and a
slash at the end asks for a directory, which the name `.` says as well.
-/

namespace Cockpit.Files

/-- The parts of a text between slashes. -/
def splitSlash : List Char → List (List Char)
  | [] => [[]]
  | c :: cs =>
    if c = '/' then [] :: splitSlash cs
    else match splitSlash cs with
      | [] => [[c]]
      | p :: ps => (c :: p) :: ps

/-- The names of a path. -/
def names (path : String) : List String :=
  let parts := splitSlash path.toList
  let ending := if parts.getLast? = some [] && path ≠ "" then ["."] else []
  (parts.filter (· ≠ [])).map String.ofList ++ ending

/-- The path of the directory that a path lies in, as far as the text tells. -/
def parent (path : String) : String :=
  let front := (path.toList.reverse.dropWhile (· ≠ '/')).reverse
  let bare := (front.reverse.dropWhile (· = '/')).reverse
  String.ofList (if bare.isEmpty then front else bare)

/-- What follows the last slash of a path. -/
def lastName (path : String) : String :=
  String.ofList (path.toList.reverse.takeWhile (· ≠ '/')).reverse

/-- Names without detours: `.` means nothing and `..` takes the name before it away. -/
def direct (ns : List String) : List String :=
  ns.foldl (fun at_ n => if n = "." then at_ else if n = ".." then at_.dropLast else at_ ++ [n]) []

end Cockpit.Files
