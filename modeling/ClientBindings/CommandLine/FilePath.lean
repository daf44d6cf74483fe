import ClientBindings.Naming.Path

/-! Paths of files on disk: the folder of a path, joining, and the extension. -/
namespace ClientBindings.FilePath

/-- Drops slashes and dots that say nothing at the end of a path, given in reverse. -/
def trimEnd : List Char → List Char
  | ['/'] => ['/']
  | '/' :: rest => trimEnd rest
  | '.' :: '/' :: rest => trimEnd ('/' :: rest)
  | cs => cs

/-- The folder of a path; the empty path and the root have none. -/
def parent? (path : String) : Option String :=
  match trimEnd path.toList.reverse with
  | [] => none
  | ['/'] => none
  | cs => match cs.dropWhile (· != '/') with
    | [] => some ""
    | ['/'] => some "/"
    | rest => some (String.ofList (trimEnd rest).reverse)

/-- A path below a folder; an absolute path stays as it is. -/
def join (folder path : String) : String :=
  if Text.startsWith "/" path || folder.isEmpty then path
  else if Text.endsWith "/" folder then folder ++ path
  else folder ++ "/" ++ path

/-- The last name of a path. -/
def fileName (path : String) : String :=
  String.ofList ((trimEnd path.toList.reverse).takeWhile (· != '/')).reverse

/-- What follows the last dot of the file name, unless the name begins there. -/
def extension? (path : String) : Option String :=
  let name := fileName path
  if name = ".." then none
  else match Text.beforeLast? (· == '.') name with
    | some "" => none
    | some _ => some (Text.afterLast (· == '.') name)
    | none => none

/-- The folders above a path, the nearest first; `n` bounds their number. -/
def ancestors : Nat → String → List String
  | 0, _ => []
  | n + 1, path => match parent? path with
    | none => []
    | some folder => folder :: ancestors n folder

end ClientBindings.FilePath
