import RakeOutline.Main
import RakeOutline.Outline.Expectation
import RakeOutline.Report.Snapshot
import RakeOutline.Proofs.Arena
import RakeOutline.Proofs.Reachable
import RakeOutline.Proofs.Run
import RakeOutline.Proofs.Slices
import RakeOutline.Proofs.Blocks
import RakeOutline.Proofs.Safety
import RakeOutline.Proofs.Written
import RakeOutline.Proofs.Passage
import RakeOutline.Proofs.Rakefile
import RakeOutline.Proofs.Rendering
import RakeOutline.Proofs.Builders
import RakeOutline.Proofs.Merging
import RakeOutline.Proofs.Nesting
import RakeOutline.Proofs.Strays
import RakeOutline.Proofs.Skips
import RakeOutline.Proofs.Enclosure
import RakeOutline.Proofs.Extension
import RakeOutline.Proofs.Descriptions
import RakeOutline.Proofs.Variation
import RakeOutline.Proofs.Parallel
import RakeOutline.Proofs.Lockstep
import RakeOutline.Proofs.Cutoff
import RakeOutline.Proofs.Arrows
import RakeOutline.Proofs.Lines
import RakeOutline.Proofs.Folding
import RakeOutline.Proofs.Closing
import RakeOutline.Proofs.Cutting
import RakeOutline.Proofs.Keywords
import RakeOutline.Proofs.Lexing
import RakeOutline.Proofs.Heredocs
import RakeOutline.Proofs.Tallies
import RakeOutline.Proofs.Captures
import RakeOutline.Proofs.Paths
import RakeOutline.Proofs.Traversal
import RakeOutline.Proofs.Modifiers
import RakeOutline.Proofs.Drawing
import RakeOutline.Proofs.Statements
import RakeOutline.Proofs.Arguments
import RakeOutline.Proofs.Erasure
import RakeOutline.Proofs.Names
import RakeOutline.Proofs.Quoting
import RakeOutline.Proofs.Listings
