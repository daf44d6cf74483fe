import ClientBindings.CommandLine.Files

/-! A tree of files in memory. -/
namespace ClientBindings

/-- What stands at a path: a folder, a text, or bytes that are no text. -/
inductive FileNode where
  | folder
  | text (content : String)
  | bytes (content : List UInt8)
  deriving DecidableEq, Repr, Inhabited

/-- Nodes by the names on their way; the root is always there. -/
abbrev FileTree := List (List String × FileNode)

namespace FileTree

def node? (t : FileTree) (path : List String) : Option FileNode :=
  if path.isEmpty then some .folder else t.lookup path

/-- Puts a node in place of the one at its path, if there is one. -/
def put (t : FileTree) (path : List String) (n : FileNode) : FileTree :=
  match t with
  | [] => [(path, n)]
  | (p, old) :: rest => if p = path then (path, n) :: rest else (p, old) :: put rest path n

/-- Follows names from a folder; every name before the last has to be a folder. -/
def walk (t : FileTree) : List String → List String → Option (List String)
  | here, [] => some here
  | here, name :: rest =>
    if t.node? here = some .folder then
      if name = ".." then
        if here.isEmpty then none else t.walk here.dropLast rest
      else t.walk (here ++ [name]) rest
    else none

def names (path : String) : List String :=
  ((Text.split (· == '/') path).filter fun s => s != "" && s != ".")

/-- Where a path leads. -/
def locate? (t : FileTree) (path : String) : Option (List String × FileNode) := do
  if Text.startsWith "/" path || path.isEmpty then none
  let place ← t.walk [] (names path)
  let n ← t.node? place
  let inside := Text.endsWith "/" path || Text.endsWith "/." path
  if inside && n != .folder then none else pure (place, n)

/-- Makes the folders on a way; none when a file stands on it. -/
def makeFolders : List String → List String → FileTree → Option FileTree
  | _, [], t => some t
  | here, name :: rest, t =>
    if name = ".." then
      if here.isEmpty then none else makeFolders here.dropLast rest t
    else
      let next := here ++ [name]
      match t.node? next with
      | some .folder => makeFolders next rest t
      | some _ => none
      | none => makeFolders next rest (t.put next .folder)

def write? (t : FileTree) (path content : String) : Option FileTree := do
  if Text.startsWith "/" path || path.isEmpty then none
  let place ← t.walk [] (names path)
  if place.isEmpty || Text.endsWith "/" path then none
  let above ← t.node? place.dropLast
  if above != .folder || t.node? place == some .folder then none
  else pure (t.put place (.text content))

/-- Adds a node at a path together with the folders above it. -/
def add? (t : FileTree) (path : String) (n : FileNode) : Option FileTree :=
  let place := names path
  match n with
  | .folder => makeFolders [] place t
  | _ => (makeFolders [] place.dropLast t).map fun t => t.put place n

/-- The files of a tree that another one lacks or has with other content. -/
def changes (before after : FileTree) : List (List String × FileNode) :=
  after.filter fun (path, n) => n != .folder && before.node? path != some n

/-- The operations on a tree. -/
def access : FileAccess (StateM FileTree) where
  readText path := do
    match (← get).locate? path with
    | some (_, .text content) => return some content
    | _ => return none
  pathExists path := return ((← get).locate? path).isSome
  isFile path := do
    match (← get).locate? path with
    | some (_, .folder) => return false
    | some _ => return true
    | none => return false
  makeFolders path := do
    let t ← get
    if Text.startsWith "/" path then return false
    else match makeFolders [] (names path) t with
      | some t => set t; return true
      | none => return false
  writeText path content := do
    match (← get).write? path content with
    | some t => set t; return true
    | none => return false

end FileTree

end ClientBindings
