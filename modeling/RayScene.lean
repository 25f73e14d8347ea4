import RayScene.Check.Expectation
import RayScene.Main
import RayScene.Proofs.Compilation.Run
import RayScene.Workbench.Bench
import RayScene.Proofs.Compilation.Depth
import RayScene.Proofs.Compilation.Requests
import RayScene.Proofs.Compilation.References
import RayScene.Proofs.Compilation.Agreement
import RayScene.Proofs.Compilation.Transfer
import RayScene.Proofs.Braces.Fragments
import RayScene.Proofs.Braces.Statements
import RayScene.Proofs.Braces.Head
import RayScene.Proofs.Braces.Scenes
import RayScene.Proofs.Outlines.Chains
import RayScene.Proofs.Outlines.Profiles
import RayScene.Proofs.Outlines.Parity
import RayScene.Proofs.Compilation.Locality
import RayScene.Proofs.Compilation.Sessions
import RayScene.Proofs.Documents.Ownership
import RayScene.Proofs.Documents.Histories
import RayScene.Proofs.Meshes.Texts
import RayScene.Proofs.Meshes.Declarations
import RayScene.Proofs.Stored.Reading
import RayScene.Proofs.Stored.Records
import RayScene.Proofs.Stored.Nodes
import RayScene.Proofs.Stored.Keys
import RayScene.Proofs.Stored.Metadata
import RayScene.Proofs.Stored.Projects
import RayScene.Proofs.Compilation.TextFlags
import RayScene.Proofs.Compilation.Includes
import RayScene.Proofs.Scenes.Markers
import RayScene.Proofs.Scenes.Cycles
import RayScene.Proofs.Loops.Scenes
import RayScene.Proofs.Sections.Scenes
import RayScene.Proofs.Rendering.UserFiles
import RayScene.Proofs.Rendering.Verdicts
import RayScene.Proofs.Compilation.Bodies
import RayScene.Proofs.Braces.Clones
import RayScene.Proofs.Directives.Scenes
import RayScene.Proofs.Surfaces.References
import RayScene.Proofs.Workbench.Names
import RayScene.Proofs.Stored.Orders
import RayScene.Proofs.Citations.Scenes
import RayScene.Proofs.Documents.Searches
import RayScene.Proofs.Outlines.Components
import RayScene.Proofs.Outlines.Rings
import RayScene.Proofs.Revolutions.Surfaces
import RayScene.Proofs.Comments.Positions
import RayScene.Proofs.Listings.Scenes
import RayScene.Proofs.Stored.Gaps
import RayScene.Proofs.Braces.Verdicts
import RayScene.Proofs.Expectations.Order
import RayScene.Proofs.Primitives.Unambiguity
