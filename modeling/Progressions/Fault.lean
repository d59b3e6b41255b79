import Progressions.Grammar.Error
import Progressions.Stream.State
import Progressions.Value.Json

/-!
# Faults

A fault is whatever can keep an operation from its result.  A rejection is a fault
of the specification itself: of its grammar, or of numbers without a pattern.
-/

set_option autoImplicit false

namespace Progressions

inductive RequestError where
  /-- Options were given both in front of the specification and by name. -/
  | optionsTwice (entry : String)
  /-- What stands in front of the specification is no mapping. -/
  | leadingOptions (entry typeName : String)
  | argumentCount (entry : String) (count : Nat)
  | optionsType (typeName : String)
  | specificationType (typeName : String)
deriving DecidableEq

def RequestError.message : RequestError → String
  | .optionsTwice entry => entry ++ "() got options both positionally and by keyword"
  | .leadingOptions entry typeName =>
    entry ++ "() options must be a mapping, got " ++ typeName
  | .argumentCount entry count =>
    entry ++ "() takes a spec and optional options, got " ++ toString count ++ " arguments"
  | .optionsType typeName => "options must be a mapping, got " ++ typeName
  | .specificationType typeName => "number sequence must be a string, got " ++ typeName

inductive Fault where
  | number (cause : NumberError)
  | grammar (cause : GrammarError)
  | pattern (cause : PatternError)
  | sequence (cause : SequenceError)
  | stream (cause : StreamError)
  | request (cause : RequestError)
  | json (cause : JsonError)
  /-- A value was asked of an iterator whose sequence has ended. -/
  | endOfStream
  | unknownName (name : String)
  /-- Nothing stands at a position of a list. -/
  | noItem
  /-- The limit of printed values is beyond all counts. -/
  | limitTooLarge
  /-- Values were to be counted without a limit to count to. -/
  | limitMissing
  /-- Values were to be separated without a separator. -/
  | separatorMissing
  | brokenPipe
deriving DecidableEq

namespace Fault

def message : Fault → String
  | .number cause => cause.message
  | .grammar cause => cause.message
  | .pattern cause => cause.message
  | .sequence cause => cause.message
  | .stream cause => cause.message
  | .request cause => cause.message
  | .json cause => cause.message
  | .endOfStream => ""
  | .unknownName name => Text.quoted name
  | .noItem => "list index out of range"
  | .limitTooLarge =>
    "Stop argument for islice() must be None or an integer: 0 <= x <= sys.maxsize."
  | .limitMissing => "'>' not supported between instances of 'list' and 'int'"
  | .separatorMissing => "string argument expected, got 'list'"
  | .brokenPipe => ""

/-- The diagnostic of a rejection; other faults have none. -/
def diagnostic? : Fault → Option Diagnostic
  | .grammar cause => some cause.diagnostic
  | .pattern (.unclassifiable numbers location) =>
    some ⟨PatternError.message (.unclassifiable numbers location), location, "error",
      some PatternError.unclassifiableCode, some PatternError.unclassifiableHelp⟩
  | _ => none

/-- The fault lies in the specification itself. -/
def isRejection (fault : Fault) : Bool := fault.diagnostic?.isSome

end Fault

end Progressions
