/-!
Contract: the parts of file paths.

Owns:
- the last component and the extension of a path.

Does not own: what a path leads to.
-/

namespace RequestEngine.Path

/-- The parts between slashes, without those that are empty or a single dot. -/
def parts (path : String) : List String :=
  (path.splitToList (· = '/')).filter fun part => part ≠ "" ∧ part ≠ "."

/-- The last part of a path. A path that ends with two dots has none. -/
def fileName? (path : String) : Option String :=
  match (parts path).getLast? with
  | some ".." => none
  | other => other

/-- What follows the last dot of a name, unless the dot comes first. -/
def nameExtension? (name : String) : Option String :=
  let reversed := name.toList.reverse
  let extension := reversed.takeWhile (· ≠ '.')
  match reversed.drop extension.length with
  | [] | [_] => none
  | _ :: _ :: _ => some (String.ofList extension.reverse)

def extension? (path : String) : Option String := (fileName? path).bind nameExtension?

end RequestEngine.Path
