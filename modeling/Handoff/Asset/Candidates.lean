import Handoff.Asset.FileName
import Handoff.Journal

/-!
Asset candidates: the layers that are exported as pictures, in preorder, sorted by format and cut
into batches.
-/

namespace Handoff.Asset

open Design

/-- Why a layer is exported. -/
def reason (layer : Layer) : Text :=
  if !layer.exportSettings.isEmpty then "export settings"
  else if layer.hasImageFill then "image fill"
  else layer.typeName.display

/-- The candidates among layers, in order. -/
def candidates : List Layer → Logged (List Layer)
  | [] => return []
  | layer :: rest => do
    if ← Logged.ofExcept layer.isAssetCandidate then
      Logged.log .debug ("Found exportable: " ++ (layer.name.orElse (.text "unnamed")).display ++
        " (" ++ reason layer ++ ")")
      return layer :: (← candidates rest)
    else candidates rest

/-- Candidates sorted by format. -/
structure Partitions where
  svg : List Layer
  png : List Layer

/-- The layers of one format. -/
def Partitions.of (partitions : Partitions) : ExportFormat → List Layer
  | .svg => partitions.svg
  | .png => partitions.png

/-- Sorts layers by format, keeping their order; a layer that is not exported has no place. -/
def partition : List Layer → Except Fault Partitions
  | [] => .ok ⟨[], []⟩
  | layer :: rest => do
    match ← layer.exportFormat? with
    | some .svg =>
      let others ← partition rest
      return { others with svg := layer :: others.svg }
    | some .png =>
      let others ← partition rest
      return { others with png := layer :: others.png }
    | none => throw .missingKey

/-- Cuts a list into pieces of a positive size, the last one perhaps shorter. The bound is on the
number of pieces. -/
def pieces {α : Type} (size : Nat) (items : List α) : Nat → List (List α)
  | 0 => []
  | bound + 1 =>
    if items.isEmpty then [] else items.take size :: pieces size (items.drop size) bound

/-- Cuts a list into pieces of a size. There are no pieces of negative size, and none of size zero
can be asked for. -/
def batches {α : Type} (items : List α) (size : Int) : Except Fault (List (List α)) :=
  if size = 0 then .error .zeroStep
  else if size < 0 then .ok []
  else .ok (pieces size.toNat items items.length)

end Handoff.Asset
