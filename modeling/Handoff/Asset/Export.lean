import Handoff.Asset.Candidates
import Handoff.Config.Settings
import Handoff.Files.Writer
import Handoff.Remote.Client

/-!
Exporting assets: asking the service for pictures, batch by batch, and downloading them.

A batch whose request fails, a layer without an address and a picture whose download fails are
reported and leave their layers without a file; everything else goes on.
-/

namespace Handoff.Asset

open Config Design Files Remote

/-- What became of a candidate. -/
structure Record where
  id : Value
  name : Value
  typeName : Value
  hasImageFill : Bool
  format : ExportFormat
  file : Option Text

/-- What an export works with. -/
structure Exporter where
  client : Client
  settings : Settings
  root : Option Path

/-- The files exported so far, by layer id. -/
abbrev Exported := Table Key Text

namespace Exporter

/-- Downloads one picture and writes it. -/
def fetch (exporter : Exporter) (format : ExportFormat) (layer : Layer) (url : Value) :
    Action (Option Text) := do
  let file ← Action.ofExcept (fileName layer format)
  let download : Action Unit := do
    let content ← exporter.client.download url
    let _ ← writeFile exporter.root (exporter.settings.assetsDir.child file) content
  let ended ← Action.recover Fault.ofSystem (do download; return true) fun fault => do
    Action.log .warning ("⚠ Failed to download " ++ layer.name.display ++ " (" ++
      layer.id.display ++ "): " ++ fault.message)
    return false
  if ended then
    Action.log .debug ("Downloaded: " ++ file)
    return some file
  else return none

/-- The layers of a batch that have an address, with it; the others are reported. -/
def jobs (urls : Value) : List Layer → Action (List (Layer × Value))
  | [] => return []
  | layer :: rest => do
    let fields ← Action.ofExcept urls.fields
    let url := match ← Action.ofExcept layer.id.key with
      | .text id => (fields.lookup id).getD .null
      | _ => .null
    if url.truthy then return (layer, url) :: (← jobs urls rest)
    else
      Action.log .warning ("⚠ No image URL for node: " ++ layer.name.display ++ " (" ++
        layer.id.display ++ ")")
      jobs urls rest

/-- Enters the files of finished downloads. -/
def collect (exported : Exported) : List ((Layer × Value) × Option Text) →
    Except Fault Exported
  | [] => .ok exported
  | ((layer, _), some file) :: rest => do collect (exported.put (← layer.id.key) file) rest
  | (_, none) :: rest => collect exported rest

/-- Downloads the pictures of a batch. -/
def fetchBatch (exporter : Exporter) (format : ExportFormat) (batch : List Layer) (urls : Value) :
    Action Exported := do
  let jobs ← jobs urls batch
  let files ← Action.all (jobs.map fun job => exporter.fetch format job.1 job.2)
  Action.ofExcept (collect [] (jobs.zip files))

/-- How a batch is named in messages. -/
def batchName (format : ExportFormat) (index total : Nat) : Text :=
  format.label ++ " batch " ++ toString index ++ "/" ++ toString total

/-- The id of a layer at an end of a batch. -/
def endId (layer : Option Layer) : Text :=
  match layer with
  | some layer => layer.id.display
  | none => ""

/-- Asks for the addresses of a batch; nothing when the request fails. -/
def addresses (exporter : Exporter) (format : ExportFormat) (index total : Nat)
    (batch : List Layer) : Action (Option Value) :=
  let scale := match format with
    | .png => exporter.settings.rasterScale
    | .svg => .null
  let ask : Action (Option Value) := do
    return some (← exporter.client.imageUrls exporter.settings.fileKey (batch.map Layer.id)
      (.text format.name) scale)
  Action.recover (fun fault => fault.ofRequest || fault.ofContent) ask fun fault => do
    Action.log .warning ("⚠ Failed to export " ++ batchName format index total ++ " (" ++
      endId batch.head? ++ " ... " ++ endId batch.getLast? ++ "): " ++ fault.message)
    return none

/-- Exports the batches of one format in order, numbered from `index`. -/
def exportBatches (exporter : Exporter) (format : ExportFormat) (total index : Nat)
    (exported : Exported) : List (List Layer) → Action Exported
  | [] => return exported
  | batch :: rest => do
    Action.log .info ("ℹ Exporting " ++ batchName format index total ++ "...")
    match ← exporter.addresses format index total batch with
    | none => exportBatches exporter format total (index + 1) exported rest
    | some urls =>
      let found ← exporter.fetchBatch format batch urls
      let exported := found.foldl (fun table entry => table.put entry.1 entry.2) exported
      exportBatches exporter format total (index + 1) exported rest

/-- Exports the layers of one format. -/
def exportFormat (exporter : Exporter) (format : ExportFormat) (layers : List Layer) :
    Action Exported := do
  let batches ← Action.ofExcept (batches layers exporter.settings.batchSize)
  exporter.exportBatches format batches.length 1 [] batches

/-- The record of a candidate. -/
def record (exported : Exported) (layer : Layer) : Except Fault Record := do
  match ← layer.exportFormat? with
  | none => throw .missingKey
  | some format =>
    return {
      id := layer.id
      name := layer.name
      typeName := layer.typeName
      hasImageFill := layer.hasImageFill
      format
      file := exported.lookup (← layer.id.key) }

/-- Exports the candidates: first all vector pictures, then all raster ones. A fault of the first
format waits until the second is done. -/
def exportCandidates (exporter : Exporter) (candidates : List Layer) : Action (List Record) := do
  let partitions ← Action.ofExcept (partition candidates)
  Action.log .info ("ℹ Found " ++ toString candidates.length ++ " exportable nodes (vectors: " ++
    toString partitions.svg.length ++ ", images: " ++ toString partitions.png.length ++ ")")
  let formats := [ExportFormat.svg, .png].filter fun format => !(partitions.of format).isEmpty
  let tables ← Action.all (formats.map fun format =>
    exporter.exportFormat format (partitions.of format))
  let exported : Exported :=
    tables.flatten.foldl (fun table entry => table.put entry.1 entry.2) []
  let records ← Action.ofExcept (candidates.mapM (record exported))
  let missing := (records.filter fun record => record.file.isNone).length
  if missing != 0 then
    Action.log .warning ("⚠ " ++ toString missing ++ " of " ++ toString records.length ++
      " assets were not exported; re-run with --assets-only to retry")
  return records

/-- Exports the assets of a design. -/
def exportAll (exporter : Exporter) (layers : List Layer) : Action (List Record) := do
  Action.log .info "ℹ Finding exportable images..."
  let candidates ← Action.ofLogged (candidates layers)
  if candidates.isEmpty then
    Action.log .warning "⚠ No exportable images found"
    return []
  else exporter.exportCandidates candidates

end Exporter

/-- The files of records, by layer id; the last record of an id counts. -/
def filesOf (records : List Record) : Except Fault FileMap := do
  let entries ← records.mapM fun record => do return (← record.id.key, record.file)
  return Table.ofEntries entries

end Handoff.Asset
