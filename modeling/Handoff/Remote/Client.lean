import Handoff.World

/-!
The reading calls of the design service.

The access token goes to the service alone; pictures are fetched from signed addresses without it.
-/

namespace Handoff.Remote

/-- A way to the design service. -/
structure Client where
  token : Value
  timeout : Value
  service : Service

/-- The address of the service. -/
def serviceUrl : Text := "https://api.figma.com/v1"

namespace Client

/-- A request to the service. -/
def call (client : Client) (path : Text) (params : Option (List (Text × Value))) :
    Action Response :=
  Action.request client.service {
    url := .text (serviceUrl ++ path)
    params
    timeout := client.timeout
    token := some client.token }

/-- The value that a call answers. -/
def callValue (client : Client) (path : Text) (params : Option (List (Text × Value))) :
    Action Value := do
  let response ← client.call path params
  Action.ofExcept response.body.value

/-- The design file. -/
def file (client : Client) (fileKey : Value) : Action Value :=
  client.callValue ("/files/" ++ fileKey.display) none

/-- The design variables of a file. -/
def designVariables (client : Client) (fileKey : Value) : Action Value :=
  client.callValue ("/files/" ++ fileKey.display ++ "/variables/local") none

/-- The parameters of an export: layer ids and format, for pictures of pixels a scale. -/
def exportParams (ids : Text) (format scale : Value) : List (Text × Value) :=
  ("ids", .text ids) :: ("format", format) ::
    if format.isText "svg" then [("svg_include_id", .text "true")]
    else if scale.isNull then []
    else [("scale", scale)]

/-- Exports layers as pictures: the addresses of the pictures by layer id. -/
def imageUrls (client : Client) (fileKey : Value) (ids : List Value) (format scale : Value) :
    Action Value := do
  let texts ← Action.ofExcept (ids.mapM (Value.asText .wrongType))
  let answer ← client.callValue ("/images/" ++ fileKey.display)
    (some (exportParams (Text.intercalate "," texts) format scale))
  let refusal ← Action.ofExcept (answer.field "err")
  if refusal.truthy then throw (.exportRefused refusal.display)
  let images ← Action.ofExcept (answer.field "images")
  return images.orElse (.record [])

/-- The picture at an address. -/
def download (client : Client) (url : Value) : Action ByteArray := do
  let response ← Action.request client.service {
    url
    params := none
    timeout := client.timeout
    token := none }
  return response.body.content

end Client

end Handoff.Remote
