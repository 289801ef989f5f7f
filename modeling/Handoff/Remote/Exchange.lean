import Handoff.Data.Json.Reading
import Handoff.Data.Json.Writing
import Handoff.Text.Utf8

/-!
Requests to the design service and the answers to them.

A service is any rule that answers a request, knowing all earlier ones; so an answer may change when
a request is repeated.
-/

namespace Handoff.Remote

/-- A request for a document. Its address may come from an earlier answer, and then be anything. -/
structure Request where
  url : Value
  params : Option (List (Text × Value))
  timeout : Value
  /-- The access token; a request without one carries no headers of its own. -/
  token : Option Value

/-- The body of an answer: bytes, or a value that is sent as JSON text. -/
inductive Body where
  | bytes (content : ByteArray)
  | json (value : Value)

/-- An answer with a status. -/
structure Response where
  status : Int
  reason : Text
  body : Body

/-- What comes back from a request. -/
inductive Answer where
  | failure (cause : TransportFailure) (message : Text)
  | response (received : Response)

/-- A rule that answers a request after earlier ones. -/
abbrev Service := List Request → Request → Answer

namespace Body

/-- The bytes of a body. -/
def content : Body → ByteArray
  | bytes content => content
  | json value => (Json.write value).toUTF8

/-- The value that a body spells. -/
def value : Body → Except Fault Value
  | json value => .ok value
  | bytes content => Json.read .standard .malformedAnswer (Text.decode content)

end Body

namespace Response

/-- A response whose status is no error. -/
def checked (response : Response) (url : Text) : Except Fault Response :=
  if 400 ≤ response.status && response.status < 600 then
    .error (.badStatus response.status response.reason url)
  else .ok response

end Response

/-- The response to a request, unless the transport failed or the status is an error. -/
def Answer.response? (answer : Answer) (url : Text) : Except Fault Response :=
  match answer with
  | .failure cause message => .error (.transport cause message)
  | .response received => received.checked url

end Handoff.Remote
