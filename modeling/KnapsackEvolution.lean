import KnapsackEvolution.Dispatch.Disturbed
import KnapsackEvolution.Dispatch.Handover
import KnapsackEvolution.Json.Stored
import KnapsackEvolution.Proofs.Elitism
import KnapsackEvolution.Proofs.Freshness
import KnapsackEvolution.Proofs.Generations
import KnapsackEvolution.Proofs.Lockstep
import KnapsackEvolution.Proofs.Progress
import KnapsackEvolution.Proofs.Safety
import KnapsackEvolution.Proofs.Totals
import KnapsackEvolution.Proofs.Failures
import KnapsackEvolution.Proofs.Composition
import KnapsackEvolution.Proofs.Measuring
import KnapsackEvolution.Proofs.Handovers
import KnapsackEvolution.Proofs.Moves
import KnapsackEvolution.Proofs.Partitions
import KnapsackEvolution.Proofs.Overflows
import KnapsackEvolution.Proofs.Replays
import KnapsackEvolution.Proofs.Streams
import KnapsackEvolution.Proofs.Traces
import KnapsackEvolution.Proofs.Crossings
import KnapsackEvolution.Proofs.Losses
import KnapsackEvolution.Proofs.Fillings
import KnapsackEvolution.Proofs.Turns
import KnapsackEvolution.Proofs.Tables
import KnapsackEvolution.Proofs.Storage
import KnapsackEvolution.Proofs.Recordings
import KnapsackEvolution.Proofs.Coverings
import KnapsackEvolution.Proofs.Nesting
