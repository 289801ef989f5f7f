import Handoff.Main
import Handoff.Proofs.World.Replaying
import Handoff.Proofs.Naming.Fresh
import Handoff.Proofs.Files.Names
import Handoff.Proofs.Sync.Repeating
import Handoff.Proofs.Asset.Outcomes
import Handoff.Proofs.World.Messages
import Handoff.Proofs.Design.Typed
import Handoff.Proofs.Files.Taking
import Handoff.Proofs.World.Leading
import Handoff.Proofs.Asset.Saving
import Handoff.Proofs.Asset.Exporting
import Handoff.Proofs.Render.Reader
import Handoff.Proofs.Render.Printing
import Handoff.Proofs.Render.Tags
import Handoff.Proofs.Component.Classes
import Handoff.Proofs.Design.Measuring
import Handoff.Proofs.Design.Styling
import Handoff.Proofs.Component.Typed
import Handoff.Proofs.Render.Typed
import Handoff.Proofs.Render.Agreement
import Handoff.Proofs.Asset.Failing
import Handoff.Proofs.Token.Typed
import Handoff.Proofs.Component.Writing
import Handoff.Proofs.Sync.Failing
import Handoff.Proofs.Component.Redrawing
import Handoff.Proofs.World.Touching
import Handoff.Proofs.Files.Folding
import Handoff.Proofs.Component.Series
import Handoff.Proofs.Component.Storing
import Handoff.Proofs.Design.Components
import Handoff.Proofs.Sync.Writing
import Handoff.Proofs.Asset.NodeIds
import Handoff.Proofs.Asset.Keeping
import Handoff.Proofs.Render.Scope
import Handoff.Proofs.Render.Scoping
import Handoff.Proofs.Component.Slots
import Handoff.Proofs.Render.Identifiers
import Handoff.Proofs.Render.Binding
import Handoff.Proofs.Render.TopLevel
import Handoff.Proofs.Sync.Scoping
import Handoff.Proofs.Asset.Downloads
import Handoff.Proofs.Files.Relative
import Handoff.Proofs.Render.Pictures
import Handoff.Proofs.Component.Elements
import Handoff.Proofs.Render.Properties
import Handoff.Proofs.Sync.Importing
import Handoff.Proofs.Token.Statements
import Handoff.Proofs.Token.Sheets
import Handoff.Proofs.Token.Contributions
import Handoff.Proofs.Token.Cascade
import Handoff.Proofs.Numeric.Spelling
import Handoff.Proofs.Token.Identifiers
import Handoff.Proofs.Sync.Classes
import Handoff.Proofs.Render.TwigCode
import Handoff.Proofs.Token.Literals
import Handoff.Proofs.Asset.Covering
import Handoff.Proofs.Asset.InStep
import Handoff.Proofs.Component.InStep
import Handoff.Proofs.Sync.Repairing
import Handoff.Proofs.Design.Pruning
import Handoff.Proofs.World.Asking
import Handoff.Proofs.Asset.Asking
import Handoff.Proofs.Sync.Asking
import Handoff.Proofs.Sync.Pruning
import Handoff.Proofs.Data.Alike
import Handoff.Proofs.Component.Retexting
import Handoff.Proofs.Render.Retexting
import Handoff.Proofs.Design.Roles
import Handoff.Proofs.Component.Roles
import Handoff.Proofs.Component.Recording
import Handoff.Proofs.World.Tallying
import Handoff.Proofs.Sync.Accounting
import Handoff.Proofs.Design.Memo
import Handoff.Proofs.Component.Alone
import Handoff.Proofs.Component.Kept
import Handoff.Proofs.Component.Stopping
import Handoff.Proofs.Config.Resolving
import Handoff.Proofs.CommandLine.Refusing
import Handoff.Proofs.Token.Aliases
import Handoff.Proofs.Numeric.Exact
import Handoff.Proofs.Numeric.Numerals
import Handoff.Proofs.Design.Quarters
import Handoff.Proofs.Text.ScriptLiterals
import Handoff.Proofs.Render.Denoting
import Handoff.Proofs.Naming.Labels
import Handoff.Proofs.Naming.Classes
import Handoff.Proofs.Naming.Slugs
import Handoff.Proofs.World.Histories
import Handoff.Proofs.Numeric.Largest
import Handoff.Proofs.Design.Sizing
import Handoff.Proofs.Component.Placing
import Handoff.Proofs.Render.Declaring
import Handoff.Proofs.Render.Dimensions
import Handoff.Proofs.Render.Rules
import Handoff.Proofs.Config.Complaints
import Handoff.Proofs.Config.Outcomes
import Handoff.Proofs.Token.Inventory
import Handoff.Proofs.Files.Settling
import Handoff.Proofs.Files.Filing
import Handoff.Proofs.World.Filing
import Handoff.Proofs.Asset.Scheduling
import Handoff.Proofs.Asset.Turns
import Handoff.Proofs.Asset.Interleaving
