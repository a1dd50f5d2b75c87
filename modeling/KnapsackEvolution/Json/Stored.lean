/-
# Stored data

How options, problems, individuals and tournaments are stored as JSON.  Each is an object with one
member a field, written in a fixed order.  Reading also accepts the members in any order among
members of other names, and the bare values of all fields as an array; it checks types and ranges
and nothing else, so stored data may be a configuration that makes no sense.
-/
import KnapsackEvolution.Json.Number
import KnapsackEvolution.Json.Reader
import KnapsackEvolution.Options
import KnapsackEvolution.Tournament

namespace KnapsackEvolution

namespace Json

/-! ## Shapes -/

/-- A field of stored data. -/
structure Field where
  /-- The name of its member. -/
  name : String
  /-- It may be left out, and is `null` then. -/
  optional : Bool

/-- The value of a field among the members of an object, where it may occur only once. -/
def fieldValue? (members : List (String × Json)) (f : Field) : Option Json :=
  match members.filter fun m => m.1 == f.name with
  | [m] => some m.2
  | [] => if f.optional then some null else none
  | _ :: _ :: _ => none

/-- The values of the fields in order. -/
def fieldValues? (fields : List Field) : Json → Option (List Json)
  | array items => if items.length = fields.length then some items else none
  | object members => do
    let members ← members.mapM fun m => m.1.map fun name => (name, m.2)
    fields.mapM (fieldValue? members)
  | _ => none

/-- The object with the given members. -/
def ofMembers (members : List (String × Json)) : Json :=
  object (members.map fun m => (some m.1, m.2))

/-- The truth value that a value is. -/
def toBool? : Json → Option Bool
  | bool b => some b
  | _ => none

/-- What the items of an array are. -/
def toList? {α : Type} (read : Json → Option α) : Json → Option (List α)
  | array items => items.mapM read
  | _ => none

/-- What a value is, or nothing for `null`. -/
def toOption? {α : Type} (read : Json → Option α) : Json → Option (Option α)
  | null => some none
  | v => (read v).map some

/-- A value, or `null`. -/
def ofOption {α : Type} (write : α → Json) : Option α → Json
  | some a => write a
  | none => null

/-- The name of an alternative without contents: a text, or the name of a `null` member. -/
def toTag? : Json → Option String
  | text s => s
  | object [(name, null)] => name
  | _ => none

/-- The name of an alternative. -/
def ofTag (tag : String) : Json := text (some tag)

end Json

/-! ## Options -/

namespace Options

/-- The fields of stored options. -/
def fields : List Json.Field :=
  [⟨"dispatcher", false⟩, ⟨"workers", false⟩, ⟨"chunk_size", false⟩, ⟨"population_size", false⟩,
    ⟨"gene_size", false⟩, ⟨"num_generations", false⟩, ⟨"mutation_probability", false⟩,
    ⟨"tournament_size", false⟩, ⟨"log_level", false⟩, ⟨"seed", true⟩]

/-- Options as they are stored. -/
def toJson (o : Options) : Json :=
  .ofMembers [("dispatcher", .ofTag o.backend.tag), ("workers", .ofUInt64 o.workers),
    ("chunk_size", .ofUInt64 o.chunkSize), ("population_size", .ofUInt64 o.populationSize),
    ("gene_size", .ofUInt64 o.geneCount), ("num_generations", .ofUInt64 o.generations),
    ("mutation_probability", .ofBinary64 o.mutationProbability),
    ("tournament_size", .ofUInt64 o.tournamentSize), ("log_level", .ofTag o.logLevel.tag),
    ("seed", .ofOption .ofUInt64 o.seed?)]

/-- The options that a stored value holds. -/
def ofJson? (v : Json) : Option Options := do
  match ← v.fieldValues? fields with
  | [backend, workers, chunkSize, populationSize, geneCount, generations, mutationProbability,
      tournamentSize, logLevel, seed] =>
    return {
      backend := ← backend.toTag?.bind Kind.ofTag?
      workers := ← workers.toUInt64?
      chunkSize := ← chunkSize.toUInt64?
      populationSize := ← populationSize.toUInt64?
      geneCount := ← geneCount.toUInt64?
      generations := ← generations.toUInt64?
      mutationProbability := ← mutationProbability.toBinary64?
      tournamentSize := ← tournamentSize.toUInt64?
      logLevel := ← logLevel.toTag?.bind LogLevel.ofTag?
      seed? := ← seed.toOption? Json.toUInt64? }
  | _ => none

end Options

/-! ## Problems -/

namespace Problem

/-- The fields of a stored problem. -/
def fields : List Json.Field := [⟨"values", false⟩, ⟨"weights", false⟩, ⟨"capacity", false⟩]

/-- A problem as it is stored. -/
def toJson (p : Problem) : Json :=
  .ofMembers [("values", .array (p.values.toList.map Json.ofUInt64)),
    ("weights", .array (p.weights.toList.map Json.ofUInt64)), ("capacity", .ofUInt64 p.capacity)]

/-- The problem that a stored value holds; its tables may differ in length. -/
def ofJson? (v : Json) : Option Problem := do
  match ← v.fieldValues? fields with
  | [values, weights, capacity] =>
    let values ← values.toList? Json.toUInt64?
    let weights ← weights.toList? Json.toUInt64?
    let capacity ← capacity.toUInt64?
    return ⟨values.toArray, weights.toArray, capacity⟩
  | _ => none

end Problem

/-- Members may come in any order and among others. -/
example : (Json.ofText?
    "\x7b\"capacity\":3, \"note\":[null], \"weights\":[2], \"values\":[1]\x7d").bind Problem.ofJson?
      = some ⟨#[1], #[2], 3⟩ := by decide +kernel

/-- A member may not come twice. -/
example : (Json.ofText?
    "\x7b\"capacity\":3, \"weights\":[], \"values\":[], \"capacity\":3\x7d").bind Problem.ofJson?
      = none := by decide +kernel

/-! ## Individuals -/

namespace Individual

/-- The fields of a stored individual. -/
def fields : List Json.Field := [⟨"genes", false⟩, ⟨"fitness", true⟩]

/-- An individual as it is stored. -/
def toJson (i : Individual) : Json :=
  .ofMembers [("genes", .array (i.genes.map Json.bool)), ("fitness", .ofOption .ofInt64 i.fitness?)]

/-- The individual that a stored value holds; its fitness is believed. -/
def ofJson? (v : Json) : Option Individual := do
  match ← v.fieldValues? fields with
  | [genes, fitness] =>
    let genes ← genes.toList? Json.toBool?
    let fitness ← fitness.toOption? Json.toInt64?
    return ⟨genes, fitness⟩
  | _ => none

end Individual

/-! ## Tournaments -/

namespace Tournament

/-- The fields of a stored tournament. -/
def fields : List Json.Field := [⟨"tournament_size", false⟩]

/-- A tournament as it is stored. -/
def toJson (t : Tournament) : Json := .ofMembers [("tournament_size", .ofUInt64 t.size)]

/-- The tournament that a stored value holds; it may have no contestants. -/
def ofJson? (v : Json) : Option Tournament := do
  match ← v.fieldValues? fields with
  | [size] =>
    let size ← size.toUInt64?
    return ⟨size⟩
  | _ => none

end Tournament

end KnapsackEvolution
