/-! Causes of failure and their messages. -/
namespace ClientBindings

/-- What can go wrong while types and endpoints are built. -/
inductive BuildError where
  | notAController (typeName : String)
  | unknownGenericOwner (variableName owner : String)
  | missingType (typeName : String)
  | invalidVerb (location verb : String)
  /-- A type variable of a method that is reached again while its own bound is resolved. -/
  | endlessBound
  deriving DecidableEq, Repr, Inhabited

namespace BuildError

def message : BuildError → String
  | notAController t => s!"Cannot build endpoint for '{t}': type is not marked as an endpoint"
  | unknownGenericOwner v owner => s!"Type variable '{v}' refers to unknown generic owner '{owner}'"
  | missingType t => s!"Type '{t}' is not known to the symbol provider"
  | invalidVerb location verb => s!"Invalid HTTP verb '{verb}' at {location}"
  | endlessBound => "Type references do not end"

/-- Errors that concern a single type and leave the rest of a round alone. -/
def isTypeScoped : BuildError → Bool
  | notAController _ => true
  | _ => false

end BuildError

/-- Where a failure comes from: a build, a check of this library, or a reader of files and formats
whose own words are not part of the message. -/
inductive FailureCause where
  | build (error : BuildError)
  | message (text : String)
  | reader
  deriving DecidableEq, Repr, Inhabited

/-- What a cause says; readers say nothing. -/
def FailureCause.text? : FailureCause → Option String
  | build e => some e.message
  | message s => some s
  | reader => none

/-- A cause with what was being done, outermost first. -/
structure Failure where
  trail : List String
  cause : FailureCause
  deriving DecidableEq, Repr, Inhabited

namespace Failure

def build (e : BuildError) : Failure := ⟨[], .build e⟩

def ofReader (doing : String) : Failure := ⟨[doing], .reader⟩

def within (doing : String) (f : Failure) : Failure := { f with trail := doing :: f.trail }

/-- All that is said of a failure, outermost first. -/
def messages (f : Failure) : List String := f.trail ++ f.cause.text?.toList

end Failure

end ClientBindings
