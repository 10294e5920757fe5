import Cockpit.Files.Path
import Cockpit.Log
import Cockpit.Text.Utf8

/-!
# File trees

A tree of directories, files and symbolic links below one directory.  That
directory is also where relative paths start.  What lies outside of it is taken
to be missing.

A path is walked name by name.  Links are followed, the last one too unless the
operation concerns the name itself.  A dangling link leads to the place where
its target would be.
-/

namespace Cockpit.Files

/-- What a name in a directory stands for. -/
inductive Node where
  | directory
  | file (bytes : List UInt8)
  | link (target : String)
  deriving DecidableEq

/-- Names from the top of the tree to a node. -/
abbrev Route := List String

/-- A directory with everything in it. -/
structure Tree where
  /-- The absolute path of the directory. -/
  root : String
  nodes : List (Route × Node) := []
  deriving DecidableEq

/-- Where a path leads. -/
inductive Spot where
  | present (route : Route) (node : Node)
  /-- Nothing is there, but the directory around it is. -/
  | absent (route : Route)

namespace Tree

/-- The node of a route. -/
def node? (t : Tree) (r : Route) : Option Node :=
  if r.isEmpty then some .directory else t.nodes.lookup r

/-- The tree with a node at a route. -/
def put (t : Tree) (r : Route) (n : Node) : Tree :=
  { t with nodes := (r, n) :: t.nodes.filter (·.1 ≠ r) }

/-! ## Walking -/

/-- What follows the root in an absolute path. -/
def belowRoot? (t : Tree) (path : String) : Option String :=
  let rest := path.toList.drop t.root.length
  if t.root.toList.isPrefixOf path.toList ∧ (rest = [] ∨ rest.head? = some '/') then
    some (String.ofList rest)
  else none

/-- The names of a path that leads into the tree, and whether it starts at the root. -/
def names? (t : Tree) (path : String) : Option (Bool × List String) :=
  match t.belowRoot? path with
  | some rest => some (true, names rest)
  | none => if path.toList.head? = some '/' then none else some (false, names path)

/-- How many steps a walk may take. -/
def walkLimit : Nat := 1000

/-- The most bytes of a name. -/
def nameLimit : Nat := 255

/-- Follows names from a route. -/
def walk (t : Tree) (followLast : Bool) : (fuel : Nat) → Route → List String →
    Except FileCause Spot
  | 0, _, _ => .error .loop
  | fuel + 1, here, ns =>
    match ns with
    | [] => match t.node? here with
      | some n => .ok (.present here n)
      | none => .error .missing
    | n :: rest =>
      if t.node? here ≠ some .directory then .error .notDirectory
      else if nameLimit < (Text.Utf8.encode n).length then .error .nameTooLong
      else if n = "." then walk t followLast fuel here rest
      else if n = ".." then walk t followLast fuel here.dropLast rest
      else match t.node? (here ++ [n]) with
        | none => if rest.isEmpty then .ok (.absent (here ++ [n])) else .error .missing
        | some (.link target) =>
          if rest.isEmpty && !followLast then .ok (.present (here ++ [n]) (.link target))
          else match t.names? target with
            | none => .error .missing
            | some (fromRoot, more) =>
              walk t followLast fuel (if fromRoot then [] else here) (more ++ rest)
        | some m =>
          if rest.isEmpty then .ok (.present (here ++ [n]) m)
          else walk t followLast fuel (here ++ [n]) rest

/-- Where a path leads.  The empty path leads nowhere. -/
def find (t : Tree) (path : String) (followLast : Bool := true) : Except FileCause Spot :=
  if '\x00' ∈ path.toList then .error .nullCharacter
  else if path = "" then .error .missing
  else match t.names? path with
    | some (_, ns) => t.walk followLast walkLimit [] ns
    | none => .error .missing

/-- Whether something is at a path. -/
def exists? (t : Tree) (path : String) : Bool :=
  match t.find path with
  | .ok (.present _ _) => true
  | _ => false

/-- Whether a directory is at a path. -/
def isDirectory (t : Tree) (path : String) : Bool :=
  match t.find path with
  | .ok (.present _ .directory) => true
  | _ => false

/-- A path from the root of all, without detours. -/
def absolute (t : Tree) (path : String) : String :=
  match t.names? path with
  | some (_, ns) => t.root ++ String.join ((direct ns).map ("/" ++ ·))
  | none => path

/-! ## Files -/

/-- The bytes of a file. -/
def read (t : Tree) (path : String) : Except Fault (List UInt8) :=
  match t.find path with
  | .ok (.present _ (.file bytes)) => .ok bytes
  | .ok (.present _ _) => .error (.file .isDirectory path)
  | .ok (.absent _) => .error (.file .missing path)
  | .error c => .error (.file c path)

/-- The tree after a file was written, given its bytes from those that it had. -/
def change (t : Tree) (path : String) (f : List UInt8 → List UInt8) : Except Fault Tree :=
  match t.find path with
  | .ok (.present r (.file bytes)) => .ok (t.put r (.file (f bytes)))
  | .ok (.present _ _) => .error (.file .isDirectory path)
  | .ok (.absent r) => .ok (t.put r (.file (f [])))
  | .error c => .error (.file c path)

/-- The tree after a file was written over. -/
def write (t : Tree) (path : String) (bytes : List UInt8) : Except Fault Tree :=
  t.change path fun _ => bytes

/-- The tree after bytes were put at the end of a file. -/
def append (t : Tree) (path : String) (bytes : List UInt8) : Except Fault Tree :=
  t.change path (· ++ bytes)

/-- Line ends of all systems as line feeds. -/
def unixLines : List Char → List Char
  | [] => []
  | '\r' :: '\n' :: cs => '\n' :: unixLines cs
  | '\r' :: cs => '\n' :: unixLines cs
  | c :: cs => c :: unixLines cs

/-- The text of a file. -/
def readText (t : Tree) (path : String) : Except Fault String := do
  match Text.Utf8.decode (← t.read path) with
  | .ok s => return String.ofList (unixLines s.toList)
  | .error d => .error (.notUtf8 d)

/-- The tree after a text was written over a file. -/
def writeText (t : Tree) (path text : String) : Except Fault Tree :=
  t.write path (Text.Utf8.encode text)

/-! ## Directories -/

/-- The tree with one more directory. -/
def makeDirectory (t : Tree) (path : String) : Except Fault Tree :=
  match t.find path false with
  | .ok (.present _ _) => .error (.file .alreadyThere path)
  | .ok (.absent r) => .ok (t.put r .directory)
  | .error c => .error (.file c path)

/-- The tree with one more symbolic link. -/
def makeLink (t : Tree) (path target : String) : Except Fault Tree :=
  match t.find path false with
  | .ok (.present _ _) => .error (.file .alreadyThere path)
  | .ok (.absent r) => .ok (t.put r (.link target))
  | .error c => .error (.file c path)

/-- The directory around a path and the name in it, where slashes at the end do not count. -/
def splitLast (path : String) : String × String :=
  if lastName path = "" then (parent (parent path), lastName (parent path))
  else (parent path, lastName path)

/-- The tree with a directory that may be there, or what went wrong without it. -/
def ensureDirectory (t : Tree) (path : String) : Except Fault Tree :=
  match t.makeDirectory path with
  | .ok t => .ok t
  | .error f => if t.isDirectory path then .ok t else .error f

/-- The tree with a directory and all those around it.  Of those, one that turns out
to be there is no fault yet. -/
def makeDirectories : (fuel : Nat) → Tree → String → Except Fault Tree
  | 0, t, path => t.ensureDirectory path
  | fuel + 1, t, path =>
    let (front, last) := splitLast path
    if front ≠ "" ∧ last ≠ "" ∧ ¬ t.exists? front then
      match makeDirectories fuel t front with
      | .ok t => if last = "." then .ok t else t.ensureDirectory path
      | .error (.file .alreadyThere _) => if last = "." then .ok t else t.ensureDirectory path
      | .error f => .error f
    else t.ensureDirectory path

/-- The tree with the directory of a path and all those around it.  If the directory is there,
so are those around it, those above the tree too. -/
def prepare (t : Tree) (path : String) : Except Fault Tree :=
  if t.isDirectory path then .ok t else makeDirectories path.length t path

end Tree

end Cockpit.Files
