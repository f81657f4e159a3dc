/-!
# Files

Paths as texts, and what it takes to read a file.
-/

namespace StepFlow

/-! ### Paths -/

namespace Path

/-- A name below a directory; a name that starts at the root stands for itself. -/
def below (dir name : String) : String :=
  if name.startsWith "/" then name
  else if dir.isEmpty || dir.endsWith "/" then dir ++ name
  else dir ++ "/" ++ name

/-- Drops the separators at the end, but not one that stands for the root. -/
def dropSeparators (cs : List Char) : List Char :=
  match (cs.reverse.dropWhile (· == '/')).reverse with
  | [] => cs.take 1
  | cs => cs

/-- The directory of a path, which is empty for a plain name. The root and the empty path
have none. -/
def parent? (path : String) : Option String :=
  let cs := dropSeparators path.toList
  if cs.all (· == '/') then none
  else
    let dir := (cs.reverse.dropWhile (· != '/')).reverse
    some (String.ofList (if dir.isEmpty then [] else dropSeparators dir))

end Path

/-! ### Reading -/

/-- Why a file or a directory cannot be used. -/
inductive FileFault where
  | missing
  | denied
  | present
  | notDirectory
  | isDirectory
  | notText
  | other (reason : String)
deriving DecidableEq

/-- The wording of a fault. -/
def FileFault.message : FileFault → String
  | missing => "No such file or directory (os error 2)"
  | denied => "Permission denied (os error 13)"
  | present => "File exists (os error 17)"
  | notDirectory => "Not a directory (os error 20)"
  | isDirectory => "Is a directory (os error 21)"
  | notText => "stream did not contain valid UTF-8"
  | other reason => reason

/-- Reads the text of a file. -/
abbrev FileReader (m : Type → Type) := String → m (Except FileFault String)

end StepFlow
