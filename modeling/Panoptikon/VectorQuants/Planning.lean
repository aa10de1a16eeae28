import Panoptikon.Foundation.Sorted
import Panoptikon.VectorQuants.Desired
import Panoptikon.VectorQuants.Store

/-!
# What there is to do

`load_snapshot`, `plan_metadata`, `plan_data` and `analyze` of
`db/vector_quants.rs`. The plans compare the tables with the desired state; the
metadata plan is carried out in one transaction, the data plan in many.
-/

namespace Panoptikon.VectorQuants

open Foundation Foundation.KeyedSort

def artifactMinVectors : Nat := 1024

def clip : Text := "clip".toList

def textEmbedding : Text := "text-embedding".toList

def embeddingDataTypes : List Text := [clip, textEmbedding]

def xmodalTextSiblingName (model : Text) : Text := 't' :: model

structure EmbeddingSetter where
  id : Int
  name : Text
  dataType : Text
  dim : Option Int
deriving DecidableEq

/-- The dimension of a vector of little-endian `f32`. -/
def vectorDim (embedding : Blob) : Option Int :=
  if 0 < embedding.length ∧ embedding.length % 4 = 0 then some ((embedding.length / 4 : Nat) : Int) else none

namespace Store

variable (store : Store)

def vectorsOf (setterId : Int) : List VectorRow := store.vectors.filter fun row => row.setterId = setterId

def embeddingSetter (setter : SetterRow) : Option EmbeddingSetter :=
  embeddingDataTypes.findSome? fun dataType =>
    ((store.vectorsOf setter.id).find? fun row => row.dataType = dataType).map fun row =>
      { id := setter.id, name := setter.name, dataType, dim := vectorDim row.embedding }

def loadEmbeddingSetters : List EmbeddingSetter :=
  (sortByKey SetterRow.id store.setters).filterMap store.embeddingSetter

def boundedVectorCount (setterId : Int) (limit : Nat) : Nat := ((store.vectorsOf setterId).take limit).length

end Store

/-- The text sibling of an image model's setter, if it is one to share a space
with. Of setters with one name the map keeps the last. -/
def xmodalSibling (setters : List EmbeddingSetter) (setter : EmbeddingSetter) : Option EmbeddingSetter :=
  if setter.dataType = clip then
    (rowWith EmbeddingSetter.name (xmodalTextSiblingName setter.name) setters.reverse).filter fun sibling =>
      sibling.dataType = textEmbedding && setter.dim.isSome && setter.dim = sibling.dim
  else none

/-- The spaces, with the setters themselves in place of their indexes. -/
def groupSpaces (setters : List EmbeddingSetter) : List (List EmbeddingSetter) :=
  let shared := setters.filterMap fun setter =>
    (xmodalSibling setters setter).map fun sibling => [setter, sibling]
  let paired := fun (setter : EmbeddingSetter) => shared.any fun space => space.any fun other => other.id = setter.id
  shared ++ (setters.filter fun setter => !paired setter).map fun setter => [setter]

structure StateSnapshot where
  desired : DesiredState
  profiles : List ProfileRow
  coverage : List CoverageRow
  setters : List EmbeddingSetter
  spaces : List (List EmbeddingSetter)
  boundedCounts : List (Int × Nat)
  profileHasQuants : List (Int × Bool)

/-- The pairs are only looked up by their keys, so they stay as the table lists them. -/
def loadSnapshot (store : Store) (desired : DesiredState) : StateSnapshot :=
  let profiles := sortByKey ProfileRow.id store.profiles
  let setters := store.loadEmbeddingSetters
  { desired, profiles, setters
    coverage := store.coverage
    spaces := groupSpaces setters
    boundedCounts := (setters.map EmbeddingSetter.id).map fun id =>
      (id, store.boundedVectorCount id artifactMinVectors)
    profileHasQuants := (profiles.map ProfileRow.id).map fun id => (id, store.profileHasQuants id) }

inductive MetaOp where
  | createProfile (name quantizer options : Text) (needsArtifact : Bool)
  | updateRecipe (name quantizer options : Text) (needsArtifact : Bool)
  | reactivate (name quantizer options : Text) (needsArtifact : Bool)
  | markRemoving (name : Text)
  | dropEmptyProfile (name : Text)
  | setDefaultFlags
  | createCoverage (profileName : Text) (setterId : Int) (needsArtifact : Bool)

namespace StateSnapshot

variable (snapshot : StateSnapshot)

def byName (name : Text) : Option ProfileRow := rowWith ProfileRow.name name snapshot.profiles

def desires (name : Text) : Bool := snapshot.desired.profiles.any fun desired => desired.name = name

def hasQuants (row : ProfileRow) : Bool := (snapshot.profileHasQuants.lookup row.id).getD false

def profileOp (desired : DesiredProfile) : Option MetaOp :=
  match snapshot.byName desired.name with
  | none =>
      some (.createProfile desired.name desired.quantizer desired.optionsJson desired.needsArtifact)
  | some row =>
      if row.state = .removing then
        some (.reactivate desired.name desired.quantizer desired.optionsJson desired.needsArtifact)
      else if row.quantizer ≠ desired.quantizer ∨ row.options ≠ some desired.optionsJson then
        some (.updateRecipe desired.name desired.quantizer desired.optionsJson desired.needsArtifact)
      else none

def retireOp (row : ProfileRow) : Option MetaOp :=
  if snapshot.desires row.name then none
  else if !snapshot.hasQuants row then some (.dropEmptyProfile row.name)
  else if row.state ≠ .removing then some (.markRemoving row.name)
  else none

def flagsWrong : Bool :=
  (snapshot.profiles.any fun row => row.isDefault != decide (snapshot.desired.defaultName = some row.name)) ||
    snapshot.desired.defaultName.any fun default => (snapshot.byName default).isNone

def covered (profileId setterId : Int) : Bool := snapshot.coverage.any fun row => row.key = (profileId, setterId)

/-- A profile that is created or reactivated brings its pairs itself. -/
def coverageOps (desired : DesiredProfile) : List MetaOp :=
  let profileId := ((snapshot.byName desired.name).filter fun row => row.state ≠ .removing).map ProfileRow.id
  snapshot.setters.filterMap fun setter =>
    if profileId.any fun id => !snapshot.covered id setter.id then
      some (.createCoverage desired.name setter.id desired.needsArtifact)
    else none

def planMetadata : List MetaOp :=
  snapshot.desired.profiles.filterMap snapshot.profileOp ++ snapshot.profiles.filterMap snapshot.retireOp ++
    (if snapshot.flagsWrong then [.setDefaultFlags] else []) ++
    snapshot.desired.profiles.flatMap snapshot.coverageOps

end StateSnapshot

structure SpaceBuild where
  profileName : Text
  needsArtifact : Bool
  setterIds : List Int
  dim : Int
  resume : Bool

structure DataPlan where
  removals : List Int := []
  builds : List SpaceBuild := []

def DataPlan.isEmpty (plan : DataPlan) : Bool := plan.removals.isEmpty && plan.builds.isEmpty

def anyNotReady (pairs : List (Option CoverageRow)) : Bool :=
  pairs.any fun pair => !pair.any fun row => row.state = .ready

/-- An artifact is missing, or two neighbours have different ones. -/
def artifactInconsistent (pairs : List (Option CoverageRow)) : Bool :=
  let artifacts := pairs.map fun pair => pair.bind CoverageRow.artifact
  (artifacts.any fun artifact => artifact.isNone) ||
    (artifacts.zip artifacts.tail).any fun two => two.1 ≠ two.2

/-- The build of the pairs was cut short after its artifact was frozen. -/
def resumable (needsArtifact : Bool) (dim : Int) (pairs : List (Option CoverageRow)) : Bool :=
  let frozen := fun (pair : Option CoverageRow) => pair.map fun row => (row.artifact, row.artifactRev)
  (pairs.all fun pair => pair.any fun row =>
    row.state = .building && row.dim = some dim && (row.artifact.isSome || !needsArtifact)) &&
  pairs.all fun pair => pairs.head?.all fun first => frozen pair = frozen first

namespace StateSnapshot

variable (snapshot : StateSnapshot)

def recipeChanged (desired : DesiredProfile) : Bool :=
  (snapshot.byName desired.name).any fun row =>
    row.state = .removing || row.quantizer ≠ desired.quantizer || row.options ≠ some desired.optionsJson

def pairs (desired : DesiredProfile) (space : List EmbeddingSetter) : List (Option CoverageRow) :=
  space.map fun setter =>
    ((snapshot.byName desired.name).filter fun _ => !snapshot.recipeChanged desired).bind fun row =>
      rowWith CoverageRow.key (row.id, setter.id) snapshot.coverage

def total (space : List EmbeddingSetter) : Nat :=
  (space.map fun setter => (snapshot.boundedCounts.lookup setter.id).getD 0).sum

def gate (desired : DesiredProfile) (space : List EmbeddingSetter) : Bool :=
  if desired.needsArtifact then artifactMinVectors ≤ snapshot.total space else 1 ≤ snapshot.total space

def settled (desired : DesiredProfile) (space : List EmbeddingSetter) : Bool :=
  !anyNotReady (snapshot.pairs desired space) &&
    !(desired.needsArtifact && artifactInconsistent (snapshot.pairs desired space))

/-- The body of the loop over the spaces. -/
def spaceBuild (desired : DesiredProfile) (space : List EmbeddingSetter) : Option SpaceBuild :=
  (space.head?.bind EmbeddingSetter.dim).bind fun dim =>
    if space.any fun setter => setter.dim ≠ some dim then none
    else if snapshot.settled desired space then none
    else if snapshot.gate desired space then
      some
        { profileName := desired.name
          needsArtifact := desired.needsArtifact
          setterIds := space.map EmbeddingSetter.id
          dim
          resume := resumable desired.needsArtifact dim (snapshot.pairs desired space) }
    else none

def removal (row : ProfileRow) : Bool :=
  (!snapshot.desires row.name || row.state = .removing) && snapshot.hasQuants row

def planData : DataPlan where
  removals := (snapshot.profiles.filter snapshot.removal).map ProfileRow.id
  builds := snapshot.desired.profiles.flatMap fun desired => snapshot.spaces.filterMap (snapshot.spaceBuild desired)

end StateSnapshot

inductive ReconcileWork where
  | none
  | metadataOnly
  | dataWork

def analyze (store : Store) (desired : DesiredState) : ReconcileWork :=
  let snapshot := loadSnapshot store desired
  if !snapshot.planData.isEmpty then .dataWork
  else if !snapshot.planMetadata.isEmpty then .metadataOnly
  else .none

end Panoptikon.VectorQuants
