import Handoff.Proofs.World.Steady
import Handoff.Remote.Client

/-!
The calls of the design service, run: each makes one request, and its answer decides what it gives.

The calls are steady: they touch no file, and what they give depends on the requests made before.
-/

namespace Handoff.Remote.Client

open Action

variable (client : Client)

/-! ### Requests -/

/-- The request that a call makes. -/
def callRequest (path : Text) (params : Option (List (Text × Value))) : Request where
  url := .text (serviceUrl ++ path)
  params := params
  timeout := client.timeout
  token := some client.token

/-- The request for the pictures of layers with these ids. -/
def exportRequest (fileKey : Value) (ids : List Text) (format scale : Value) : Request :=
  client.callRequest ("/images/" ++ fileKey.display)
    (some (exportParams (Text.intercalate "," ids) format scale))

/-- The request for a picture at an address. -/
def downloadRequest (url : Value) : Request where
  url := url
  params := none
  timeout := client.timeout
  token := none

lemma exec_callValue (path : Text) (params : Option (List (Text × Value))) (s : World) :
    (client.callValue path params).exec s =
      ((answered client.service s.requests (client.callRequest path params)).bind
        (·.body.value),
        { s with requests := s.requests ++ [client.callRequest path params] }) := by
  rw [callValue, exec_bind, call, exec_request]
  rcases h : answered client.service s.requests (client.callRequest path params) with fault | r <;>
    simp only [callRequest] at h <;> simp only [h, exec_ofExcept] <;> rfl

/-- What the answer to an export request gives: a refusal is a fault. -/
def imagesOf (answer : Value) : Except Fault Value := do
  let refusal ← answer.field "err"
  if refusal.truthy then throw (.exportRefused refusal.display)
  let images ← answer.field "images"
  return images.orElse (.record [])

lemma exec_imageUrls (fileKey : Value) {ids : List Value} {texts : List Text}
    (hids : ids.mapM (Value.asText .wrongType) = .ok texts) (format scale : Value) (s : World) :
    (client.imageUrls fileKey ids format scale).exec s =
      (((answered client.service s.requests (client.exportRequest fileKey texts format scale)).bind
        (·.body.value)).bind imagesOf,
        { s with
          requests := s.requests ++ [client.exportRequest fileKey texts format scale] }) := by
  rw [imageUrls, hids, exec_bind, exec_ofExcept]
  simp only
  rw [exec_bind, exec_callValue]
  simp only [exportRequest]
  rcases (answered client.service s.requests (client.callRequest ("/images/" ++ fileKey.display)
    (some (exportParams (Text.intercalate "," texts) format scale)))).bind (·.body.value)
    with fault | answer
  · rfl
  · simp only [exec_bind, exec_ofExcept, Except.bind, imagesOf]
    rcases answer.field "err" with fault | refusal
    · rfl
    · simp only [exec_ite, exec_bind, exec_throw, exec_ofExcept, ok_bind]
      split
      · rfl
      · rcases answer.field "images" <;> rfl

lemma exec_download (url : Value) (s : World) :
    (client.download url).exec s =
      ((answered client.service s.requests (client.downloadRequest url)).map (·.body.content),
        { s with requests := s.requests ++ [client.downloadRequest url] }) := by
  rw [download, exec_bind, exec_request]
  rcases h : answered client.service s.requests (client.downloadRequest url) with fault | r <;>
    simp only [downloadRequest] at h <;> simp only [h, exec_pure] <;> rfl

/-! ### Steadiness -/

lemma steady_callValue (path : Text) (params : Option (List (Text × Value))) :
    Steady (client.callValue path params) :=
  (Steady.request ..).bind fun response => .ofExcept response.body.value

lemma steady_file (fileKey : Value) : Steady (client.file fileKey) := client.steady_callValue _ _

lemma steady_designVariables (fileKey : Value) : Steady (client.designVariables fileKey) :=
  client.steady_callValue _ _

lemma steady_imageUrls (fileKey : Value) (ids : List Value) (format scale : Value) :
    Steady (client.imageUrls fileKey ids format scale) := by
  refine (Steady.ofExcept _).bind fun texts => (client.steady_callValue _ _).bind fun answer =>
    (Steady.ofExcept _).bind fun refusal => ?_
  have hrest : Steady (do
      let images ← Action.ofExcept (answer.field "images")
      return images.orElse (.record []) : Action Value) :=
    (Steady.ofExcept _).bind fun _ => .pure _
  exact .ite ((Steady.throw _).bind fun _ => hrest) hrest

lemma steady_download (url : Value) : Steady (client.download url) :=
  (Steady.request ..).bind fun response => .pure response.body.content

end Handoff.Remote.Client
