import BacktrackRegex.Expr.Layout
import BacktrackRegex.Expr.Ways
import BacktrackRegex.Search
import BacktrackRegex.Summary
import BacktrackRegex.Proofs.Attempts
import BacktrackRegex.Proofs.Registers
import BacktrackRegex.Proofs.Leaves
import BacktrackRegex.Proofs.Regions
import BacktrackRegex.Proofs.Spending
import BacktrackRegex.Proofs.Rollback
import BacktrackRegex.Proofs.Lowered
import BacktrackRegex.Proofs.Stretches
import BacktrackRegex.Proofs.Nesting
import BacktrackRegex.Proofs.Readiness
import BacktrackRegex.Proofs.Yields
import BacktrackRegex.Proofs.Simulation
import BacktrackRegex.Proofs.Meaning
import BacktrackRegex.Proofs.Pairs
import BacktrackRegex.Proofs.Repeats
import BacktrackRegex.Proofs.LeadBytes
import BacktrackRegex.Proofs.Scan
import BacktrackRegex.Proofs.Endings
import BacktrackRegex.Proofs.Soundness
import BacktrackRegex.Proofs.Safety
import BacktrackRegex.Proofs.Reports
import BacktrackRegex.Proofs.Cutoffs
import BacktrackRegex.Proofs.Halts
import BacktrackRegex.Proofs.Trips
import BacktrackRegex.Proofs.Histories
import BacktrackRegex.Proofs.Contexts
import BacktrackRegex.Proofs.Counted
import BacktrackRegex.Proofs.Inventory
import BacktrackRegex.Proofs.Layouts
import BacktrackRegex.Proofs.WellFormed
import BacktrackRegex.Proofs.Shapes
import BacktrackRegex.Proofs.Agreement
import BacktrackRegex.Proofs.Parallel
import BacktrackRegex.Proofs.ZeroWidth
import BacktrackRegex.Expr.Variants
import BacktrackRegex.Proofs.Choices
import BacktrackRegex.Displacement
import BacktrackRegex.Proofs.Displaced
import BacktrackRegex.Proofs.Abreast
import BacktrackRegex.Proofs.Liveness
import BacktrackRegex.Proofs.Shifted
import BacktrackRegex.Proofs.Membership
import BacktrackRegex.Proofs.CaseForms
import BacktrackRegex.Proofs.Tried
import BacktrackRegex.Proofs.Flat
import BacktrackRegex.Proofs.Parts
import BacktrackRegex.Proofs.Withheld
import BacktrackRegex.Proofs.Defects
import BacktrackRegex.Proofs.Occurrences
import BacktrackRegex.Proofs.Committed
