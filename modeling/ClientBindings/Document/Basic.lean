import ClientBindings.Document.Double

/-! Structured data as the export and configuration formats share it. A map keeps its entries in
the order and number in which they were written; what a repeated key means is for its reader. -/
namespace ClientBindings

inductive Document where
  | null
  | bool (value : Bool)
  | int (value : Int)
  | float (value : Double)
  | text (value : String)
  /-- A scalar written without quotes in a format that leaves its type to the reader. -/
  | plain (value : String)
  | list (items : List Document)
  | map (entries : List (String × Document))
  /-- A value with a tag that may say what it is. -/
  | tagged (tag : String) (content : Document)
  /-- A value that can be passed over but not read. -/
  | unreadable
  deriving Inhabited, Repr

namespace Document

/-- The last entry of that key. -/
def get? (key : String) : Document → Option Document
  | .map entries => (entries.reverse.find? fun e => e.1 == key).map (·.2)
  | _ => none

def ofOption (encode : α → Document) : Option α → Document
  | none => .null
  | some a => encode a

def ofTexts (items : List String) : Document := .list (items.map .text)

end Document

end ClientBindings
