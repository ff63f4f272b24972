import UsageCensus.Config
import UsageCensus.Number.Share
import UsageCensus.PropValue
import UsageCensus.Source.Scan

/-!
# Prop combinations

Which values of some props occur together on a component. Every instance that sets at least one
of the props is a match, with the aggregation key of each prop's value in the order of the
props, and a mark for the props that are not set. Instances that set none of them count for the
component, but are no match.
-/

namespace UsageCensus.Census

open UsageCensus.Number UsageCensus.Source

def unset : String := "(unset)"

/-- The values of the props on an instance. Of a prop that is set twice the last value counts. -/
def combinedValues (tag : Instance) (props : List String) : List String :=
  let keys := Table.ofPairs (tag.attributes.map fun a => (a.name, PropValue.aggregationKey a.value))
  props.map fun prop => keys.getD prop unset

/-- An instance that sets a prop of the combination at an index. -/
structure CombinationMatch where
  index : Nat
  line : Nat
  values : List String
  deriving Repr, DecidableEq

/-- The combinations in one file: instances of each combination's component, and matches. -/
structure FileCombinations where
  instanceCounts : List Nat
  found : List CombinationMatch
  deriving Repr, DecidableEq

namespace FileCombinations

def instancesOf (scan : FileScan) (combination : PropCombination) : List Instance :=
  scan.instances.filter fun tag => tag.component == combination.component

/-- The match that an instance is, if it sets one of the props. -/
def match? (index : Nat) (props : List String) (tag : Instance) : Option CombinationMatch :=
  let values := combinedValues tag props
  if values.all (· == unset) then none else some ⟨index, tag.line, values⟩

def find (scan : FileScan) (combinations : List PropCombination) : FileCombinations where
  instanceCounts := combinations.map fun combination => (instancesOf scan combination).length
  found := combinations.zipIdx.flatMap fun (combination, index) =>
    (instancesOf scan combination).filterMap (match? index combination.props)

end FileCombinations

/-- An instance that a document shows as an example. -/
structure Sample where
  codebase : String
  file : String
  line : Nat
  props : Table String String

structure CombinationTally where
  combination : PropCombination
  instances : Nat
  matched : Nat
  /-- How often each list of values occurs. -/
  counts : Table (List String) Nat
  byCodebase : Table String (Table (List String) Nat)
  samples : List Sample

namespace CombinationTally

def empty (combination : PropCombination) : CombinationTally :=
  ⟨combination, 0, 0, .empty, .empty, []⟩

def maxSamples : Nat := 500

/-- Values by prop; of a prop that is listed twice the last value counts. -/
def valuesOf (combination : PropCombination) (values : List String) : Table String String :=
  .ofPairs (combination.props.zip values)

def add (tally : CombinationTally) (codebase file : String) (found : CombinationMatch) :
    CombinationTally :=
  { tally with
    matched := tally.matched + 1
    counts := tally.counts.add found.values 1
    byCodebase := tally.byCodebase.update codebase fun counts =>
      (counts.getD .empty).add found.values 1
    samples :=
      if tally.samples.length < maxSamples then
        tally.samples ++ [⟨codebase, file, found.line, valuesOf tally.combination found.values⟩]
      else tally.samples }

/-- Where the documents go: the component and the props with hyphens between them. -/
def reportPath (tally : CombinationTally) : String :=
  let component := tally.combination.component
  "prop-combos/" ++ component ++ "/" ++ component ++ "-"
    ++ "-".intercalate tally.combination.props ++ "-combo"

def rankedDocument (tally : CombinationTally) (counts : Table (List String) Nat)
    (more : Nat → List (String × Document)) : Document :=
  .list ((counts.ranked Int.ofNat).map fun (values, count) =>
    .object ([("values", Document.ofTable .string (valuesOf tally.combination values)),
      ("count", .ofNat count)] ++ more count))

def sampleDocument (sample : Sample) : Document :=
  .object [("codebase", .string sample.codebase), ("file", .string sample.file),
    ("line", .ofNat sample.line), ("props", Document.ofTable .string sample.props)]

def codebaseDocument (tally : CombinationTally) (codebase : String) : Document :=
  let counts := tally.byCodebase.getD codebase .empty
  .object [("total", .ofNat counts.total),
    ("combinations", tally.rankedDocument counts fun _ => [])]

def summary (generatedAt library : String) (codebases : List String) (tally : CombinationTally) :
    Document :=
  .object [("generated_at", .string generatedAt),
    ("library", .string library),
    ("component", .string tally.combination.component),
    ("props", Document.ofTexts tally.combination.props),
    ("total_instances", .ofNat tally.instances),
    ("matched_instances", .ofNat tally.matched),
    ("unique_combinations", .ofNat tally.counts.size),
    ("combinations", tally.rankedDocument tally.counts fun count =>
      [("percent_of_matched", .float (percent count tally.matched))]),
    ("by_codebase", Document.ofMembers (codebases.map fun codebase =>
      (codebase, tally.codebaseDocument codebase))),
    ("sample_instances", .list (tally.samples.map sampleDocument))]

end CombinationTally

structure CombinationTallies where
  tallies : List CombinationTally

namespace CombinationTallies

def ofCombinations (combinations : List PropCombination) : CombinationTallies :=
  ⟨combinations.map .empty⟩

def addInstances : List CombinationTally → List Nat → List CombinationTally
  | tally :: tallies, count :: counts =>
    { tally with instances := tally.instances + count } :: addInstances tallies counts
  | tallies, _ => tallies

def add (all : CombinationTallies) (codebase path : String) (file : FileCombinations) :
    CombinationTallies :=
  ⟨file.found.foldl (fun tallies found =>
    tallies.modify found.index fun tally => tally.add codebase path found)
    (addInstances all.tallies file.instanceCounts)⟩

end CombinationTallies

end UsageCensus.Census
