import DirichletMixture.Chain.InPlace
import DirichletMixture.Chain.Points
import DirichletMixture.Emission.Collector
import DirichletMixture.Family.Tabulated
import DirichletMixture.Generator.Recorded
import DirichletMixture.Generator.Script
import DirichletMixture.Normal.Family
import DirichletMixture.Normal.InPlace
import DirichletMixture.RunLog.Program
import DirichletMixture.Summary.Activity
import DirichletMixture.Summary.Assignment
import DirichletMixture.Proofs.Attempt
import DirichletMixture.Proofs.Simulation
import DirichletMixture.Proofs.Nested
import DirichletMixture.Proofs.Exact.Basic
import DirichletMixture.Proofs.Chain.Iteration
import DirichletMixture.Proofs.Chain.Reading
import DirichletMixture.Proofs.Chain.Likeness
import DirichletMixture.Proofs.Chain.Sparing
import DirichletMixture.Proofs.Chain.View
import DirichletMixture.Proofs.Chain.Atomicity
import DirichletMixture.Proofs.Chain.Splitting
import DirichletMixture.Proofs.Chain.Requests
import DirichletMixture.Proofs.Chain.Routing
import DirichletMixture.Proofs.Chain.Schedule
import DirichletMixture.Proofs.Chain.Conservation
import DirichletMixture.Proofs.Chain.Tallies
import DirichletMixture.Proofs.Chain.Destinations
import DirichletMixture.Proofs.Chain.Translation
import DirichletMixture.Proofs.Chain.Opacity
import DirichletMixture.Proofs.Chain.Rescaling
import DirichletMixture.Proofs.Normal.Conjugate
import DirichletMixture.Proofs.Normal.Resampled
import DirichletMixture.Proofs.Normal.Redrawing
import DirichletMixture.Proofs.Normal.Failures
import DirichletMixture.Proofs.Chain.Resampling
import DirichletMixture.Proofs.Chain.Consumption
import DirichletMixture.Proofs.Family.Receptive
import DirichletMixture.Proofs.Mixture.Operations
import DirichletMixture.Proofs.Weights.Support
import DirichletMixture.Proofs.Chain.Reachable
import DirichletMixture.Proofs.Chain.Stopping
import DirichletMixture.Proofs.Chain.Support
import DirichletMixture.Proofs.Chain.Degeneracy
import DirichletMixture.Proofs.Generator.Seeded
import DirichletMixture.Proofs.Mixture.Scores
import DirichletMixture.Proofs.Weights.Calls
import DirichletMixture.Proofs.Weights.Stick
import DirichletMixture.Proofs.Weights.Intervals
import DirichletMixture.Proofs.Weights.Location
import DirichletMixture.Proofs.Emission.Selection
import DirichletMixture.Proofs.Emission.Collecting
import DirichletMixture.Proofs.Emission.Grouping
import DirichletMixture.Proofs.RunLog.Console
import DirichletMixture.Proofs.Exact.Peak
import DirichletMixture.Proofs.Emission.Modes
import DirichletMixture.Proofs.Chain.Totals
import DirichletMixture.Proofs.Summary.Counts
import DirichletMixture.Proofs.Chain.Activity
import DirichletMixture.Proofs.Chain.Sources
import DirichletMixture.Proofs.Exact.Checked
import DirichletMixture.Proofs.Normal.Checked
import DirichletMixture.Proofs.Normal.Bounds
import DirichletMixture.Proofs.Normal.Properness
import DirichletMixture.Proofs.Mixture.Bookkeeping
import DirichletMixture.Proofs.Weights.Shares
import DirichletMixture.Proofs.Normal.Batches
import DirichletMixture.Proofs.Normal.Centred
import DirichletMixture.Proofs.Normal.Units
import DirichletMixture.Proofs.Normal.Lifetime
import DirichletMixture.Proofs.Summary.Places
import DirichletMixture.Proofs.Summary.Similarity
import DirichletMixture.Proofs.Summary.Relabelling
import DirichletMixture.Proofs.Exact.Elementary
import DirichletMixture.Proofs.Summary.Histogram
import DirichletMixture.Proofs.Chain.Phases
import DirichletMixture.Proofs.Normal.Factors
import DirichletMixture.Proofs.Double.Rounding
import DirichletMixture.Proofs.Double.Value
import DirichletMixture.Proofs.Double.Arithmetic
import DirichletMixture.Proofs.Weights.Precision
import DirichletMixture.Proofs.Config.Fields
import DirichletMixture.Proofs.Config.Acceptance
