import Progressions.Description
import Progressions.Interpretation

/-!
# Responses

A response is a status with a message and, on success, a description.  A rejected
specification gives a response too; any other fault does not.
-/

set_option autoImplicit false

namespace Progressions

structure Response where
  status : Int
  message : String
  payload : Option Value

namespace Response

def okStatus : Int := 200

def rejectedStatus : Int := 400

def rejectedMessage (reason : String) : String := "Parse fail: " ++ reason

def isOk (response : Response) : Bool := response.status == okStatus

/-- The status, the message and, if there is one, the payload. -/
def toList (response : Response) : List Value :=
  [.number (.int response.status), .text response.message] ++ response.payload.toList

/-- The response to a request to describe the sequence of a text. -/
def ofText (source : String) : Except Fault Response :=
  match Sequence.ofText source with
  | .ok sequence => .ok ⟨okStatus, "OK", some sequence.describe⟩
  | .error fault =>
    if fault.isRejection then .ok ⟨rejectedStatus, rejectedMessage fault.message, none⟩
    else .error fault

/-- What is reported meanwhile. -/
def events (source : String) : List Event :=
  Sequence.readingEvents source ++
    match Sequence.ofText source with
    | .ok _ => []
    | .error fault => if fault.isRejection then [.rejected source fault.message] else []

def display (response : Response) : Except NumberError String := do
  let payload ←
    match response.payload with
    | none => pure nothingText
    | some payload => payload.display
  return "Response(status=" ++ toString response.status ++ ", message=" ++
    Text.quoted response.message ++ ", payload=" ++ payload ++ ")"

/-- The same status and message, and equal payloads. -/
def equals (left right : Response) : Bool :=
  left.status == right.status && left.message == right.message &&
    match left.payload, right.payload with
    | none, none => true
    | some left, some right => left.equals right
    | _, _ => false

end Response

end Progressions
