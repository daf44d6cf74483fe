import ClientBindings.Text.Basic

/-! Paths as texts with slashes: their segments, and the way from one folder to another. -/
namespace ClientBindings.Path

/-- The names between slashes of either kind; empty names and single dots say nothing. -/
def segments (path : String) : List String :=
  (Text.split (fun c => c == '/' || c == '\\') path).filter fun s => s != "" && s != "."

/-- How many elements two lists begin with in common. -/
def commonLength [DecidableEq α] : List α → List α → Nat
  | a :: as, b :: bs => if a = b then commonLength as bs + 1 else 0
  | _, _ => 0

/-- The steps from one folder to another: up to the last common folder, then down. -/
def steps (source target : List String) : List String :=
  let n := commonLength source target
  List.replicate (source.length - n) ".." ++ target.drop n

/-- The way from one folder to another as a relative path that ends with a slash. -/
def relative (source target : String) : String :=
  match steps (segments source) (segments target) with
  | [] => "./"
  | parts =>
    let path := Text.endingWith (Text.join "/" parts) "/"
    if Text.startsWith "." path then path else "./" ++ path

/-- One slash in place of several. -/
def collapseChars : List Char → List Char
  | '/' :: '/' :: rest => collapseChars ('/' :: rest)
  | c :: rest => c :: collapseChars rest
  | [] => []

def collapseSlashes (path : String) : String := String.ofList (collapseChars path.toList)

end ClientBindings.Path
