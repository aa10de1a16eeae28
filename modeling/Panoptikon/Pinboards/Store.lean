import Panoptikon.Foundation.Rows
import Panoptikon.Foundation.Machine
import Mathlib.Data.List.Dedup

/-!
# The pinboard tables

`db/pinboards.rs`, `db/pinboard_dbs.rs` and the transactions of
`api/pinboards.rs`. None of the four tables has a cascade: every child row is
written and deleted by hand. A transaction that fails is rolled back.
-/

namespace Panoptikon.Pinboards

open Foundation

inductive ApiError where
  | notFound (message : String)
  | badRequest (message : String)
  | internal (message : String)
deriving DecidableEq

structure Board where
  id : Int
  user : String
  name : Option String
  flags : Option String
  headVersionId : Option Int
deriving DecidableEq

structure Version where
  id : Int
  pinboardId : Int
  layout : List String
  nameAtSave : Option String
deriving DecidableEq

structure VersionItem where
  versionId : Int
  sha256 : String
deriving DecidableEq

/-- A row of `pinboard_databases`: the board was stamped for the database. -/
structure StampRow where
  pinboardId : Int
  dbUuid : String
  dbName : String
  instanceUuid : String
  lastStamped : Int
deriving DecidableEq

structure Store where
  boards : List Board := []
  versions : List Version := []
  items : List VersionItem := []
  databases : List StampRow := []
deriving DecidableEq

namespace Store

def board? (store : Store) (pinboardId : Int) (user : String) : Option Board :=
  store.boards.find? fun board => board.id = pinboardId && board.user = user

def pinboardExists (store : Store) (pinboardId : Int) (user : String) : Bool :=
  (store.board? pinboardId user).isSome

def createPinboard (ids : RowIds) (store : Store) (user : String) (name flags : Option String) : Int × Store :=
  let id := ids.next (store.boards.map Board.id)
  (id, { store with boards := store.boards ++ [{ id, user, name, flags, headVersionId := none }] })

/-- Whether the flags have changed. -/
def setFlags (store : Store) (pinboardId : Int) (user flags : String) : Bool × Store :=
  let chosen (board : Board) : Bool := board.id = pinboardId && board.user = user && board.flags ≠ some flags
  (store.boards.any chosen,
    { store with boards := updateWhere chosen (fun board => { board with flags := some flags }) store.boards })

def getHeadLayout (store : Store) (pinboardId : Int) (user : String) : Option (Int × List String) := do
  let board ← store.board? pinboardId user
  let version ← store.versions.find? fun version => some version.id = board.headVersionId
  return (version.id, version.layout)

def setHead (store : Store) (pinboardId versionId : Int) : Store :=
  { store with
    boards := updateWhere (fun board => board.id = pinboardId)
      (fun board => { board with headVersionId := some versionId }) store.boards }

/-- A repeated item is one row. -/
def insertItem (versionId : Int) (items : List VersionItem) (sha256 : String) : List VersionItem :=
  if ⟨versionId, sha256⟩ ∈ items then items else items ++ [⟨versionId, sha256⟩]

def appendVersion (ids : RowIds) (store : Store) (pinboardId : Int) (layout items : List String) :
    Except ApiError (Int × Store) :=
  match store.boards.find? fun board => board.id = pinboardId with
  | none => .error (.internal "Failed to save pinboard version")
  | some board =>
      let versionId := ids.next (store.versions.map Version.id)
      let version : Version := { id := versionId, pinboardId := board.id, layout, nameAtSave := board.name }
      let store := { store with
        versions := store.versions ++ [version]
        items := items.foldl (insertItem versionId) store.items }
      .ok (versionId, store.setHead pinboardId versionId)

def renamePinboard (store : Store) (pinboardId : Int) (user : String) (name : Option String)
    (relabelHead : Bool) : Bool × Store :=
  let chosen (board : Board) : Bool := board.id = pinboardId && board.user = user
  if store.boards.any chosen then
    let store := { store with
      boards := updateWhere chosen (fun board => { board with name }) store.boards }
    let head := (store.boards.find? fun board => board.id = pinboardId).bind Board.headVersionId
    (true,
      if relabelHead then
        { store with
          versions := updateWhere (fun version => some version.id = head)
            (fun version => { version with nameAtSave := name }) store.versions }
      else store)
  else (false, store)

inductive DeleteVersionOutcome where
  | notFound
  | deleted (newHeadVersionId : Int)
  | deletedBoard

/-- The newest version of a board that is left. -/
def newestVersion (store : Store) (pinboardId : Int) : Option Int :=
  ((store.versions.filter fun version => version.pinboardId = pinboardId).map Version.id).max?

def dropVersion (store : Store) (versionId : Int) : Store :=
  { store with
    items := store.items.filter fun item => item.versionId ≠ versionId
    versions := store.versions.filter fun version => version.id ≠ versionId }

/-- The board whose version is to be deleted, if it is the user's. -/
def owned (store : Store) (pinboardId versionId : Int) (user : String) : Option Board :=
  if store.versions.any fun version => version.id = versionId && version.pinboardId = pinboardId then
    store.board? pinboardId user
  else none

def deleteVersion (store : Store) (pinboardId versionId : Int) (user : String) :
    DeleteVersionOutcome × Store :=
  match store.owned pinboardId versionId user with
  | none => (.notFound, store)
  | some board =>
      let store := store.dropVersion versionId
      match store.newestVersion pinboardId with
      | none =>
          (.deletedBoard, { store with boards := store.boards.filter fun board => board.id ≠ pinboardId })
      | some newHead =>
          if board.headVersionId = some versionId then
            (.deleted newHead, store.setHead pinboardId newHead)
          else (.deleted (board.headVersionId.getD newHead), store)

def versionIds (store : Store) (pinboardId : Int) : List Int :=
  (store.versions.filter fun version => version.pinboardId = pinboardId).map Version.id

def deletePinboard (store : Store) (pinboardId : Int) (user : String) : Bool × Store :=
  if store.pinboardExists pinboardId user then
    (true, {
      items := store.items.filter fun item => item.versionId ∉ store.versionIds pinboardId
      versions := store.versions.filter fun version => version.pinboardId ≠ pinboardId
      databases := store.databases.filter fun stamp => stamp.pinboardId ≠ pinboardId
      boards := store.boards.filter fun board => board.id ≠ pinboardId })
  else (false, store)

end Store

structure StampIdentity where
  dbUuid : String
  dbName : String
  instanceUuid : String

def StampIdentity.row (identity : StampIdentity) (pinboardId now : Int) : StampRow :=
  { pinboardId, dbUuid := identity.dbUuid, dbName := identity.dbName,
    instanceUuid := identity.instanceUuid, lastStamped := now }

/-- What the local index databases claim: `claimed` is a folder's own spelling of a name and
the identity of the database in it. -/
structure AssociationContext where
  currentDbUuid : Option String
  instanceUuid : Option String
  indexDb : String
  claimed : String → Option (String × String)

namespace AssociationContext

def hasInstanceIdentity (context : AssociationContext) : Bool := context.instanceUuid.isSome

/-- The database being viewed answers for itself when no folder claims the name. -/
def resolveName (context : AssociationContext) (name : String) : Option StampIdentity := do
  let instanceUuid ← context.instanceUuid
  match context.claimed name with
  | some (dbName, dbUuid) => return { dbUuid, dbName, instanceUuid }
  | none =>
      let dbUuid ← context.currentDbUuid
      if name.toLower = context.indexDb.toLower then
        return { dbUuid, dbName := context.indexDb, instanceUuid }
      else none

end AssociationContext

namespace Store

def stampsOf (store : Store) (pinboardId : Int) : List StampRow :=
  store.databases.filter fun stamp => stamp.pinboardId = pinboardId

/-- Newest stamp first. -/
def fetchStamps (store : Store) (pinboardId : Int) : List StampRow :=
  (store.stampsOf pinboardId).mergeSort fun left right =>
    decide (right.lastStamped < left.lastStamped) ||
      (decide (left.lastStamped = right.lastStamped) && decide (left.dbName ≤ right.dbName))

/-- A board is stamped once for a database. -/
def writeStamp (databases : List StampRow) (row : StampRow) : List StampRow :=
  let same (stamp : StampRow) : Bool := stamp.pinboardId = row.pinboardId && stamp.dbUuid = row.dbUuid
  if databases.any same then updateWhere same (fun _ => row) databases else databases ++ [row]

def stampCurrentDb (store : Store) (pinboardId : Int) (identity : Option StampIdentity) (now : Int) : Store :=
  match identity with
  | none => store
  | some identity => { store with databases := writeStamp store.databases (identity.row pinboardId now) }

/-- What a name resolves to, unless a kept row or an earlier name is of that database. -/
def resolveFresh (context : AssociationContext) (pinboardId now : Int) (kept : List StampRow)
    (fresh : List StampRow) (name : String) : List StampRow :=
  match context.resolveName name with
  | none => fresh
  | some identity =>
      if identity.dbUuid ∈ (kept ++ fresh).map StampRow.dbUuid then fresh
      else fresh ++ [identity.row pinboardId now]

/-- Names may keep rows, resolve to a local database, or do both. -/
def setBoardDatabases (store : Store) (context : AssociationContext) (pinboardId : Int)
    (names : List String) (now : Int) : Except ApiError Store :=
  let existing := store.fetchStamps pinboardId
  let requested := names.reverse.dedup.reverse
  let kept := requested.flatMap fun name => existing.filter fun stamp => stamp.dbName = name
  let fresh := requested.foldl (resolveFresh context pinboardId now kept) []
  let unresolved := requested.filter fun name =>
    (context.resolveName name).isNone && !existing.any fun stamp => stamp.dbName = name
  if unresolved ≠ [] then
    .error (.badRequest (
      if context.hasInstanceIdentity then
        "Not an index database on this instance: " ++ ", ".intercalate unresolved
      else
        "This instance has no identity, so it cannot record new database associations: " ++
          ", ".intercalate unresolved))
  else
    .ok { store with
      databases := (kept ++ fresh).foldl writeStamp
        (store.databases.filter fun stamp => stamp.pinboardId ≠ pinboardId) }

structure CreateRequest where
  user : String
  name : Option String
  flags : Option String
  layout : List String
  items : List String
  identity : Option StampIdentity
  now : Int

/-- A board is always stamped for the database it is made in. -/
def createBoardWithVersion (ids : RowIds) (store : Store) (request : CreateRequest) :
    Except ApiError ((Int × Int) × Store) := do
  let (pinboardId, store) := store.createPinboard ids request.user request.name request.flags
  let (versionId, store) ← store.appendVersion ids pinboardId request.layout request.items
  return ((pinboardId, versionId), store.stampCurrentDb pinboardId request.identity request.now)

/-- `present` says which items the current index database has. -/
structure SaveRequest where
  pinboardId : Int
  user : String
  layout : List String
  items : List String
  flags : Option String
  identity : Option StampIdentity
  present : String → Bool
  now : Int

def versionPresentCount (store : Store) (versionId : Int) (present : String → Bool) : Nat :=
  (store.items.filter fun item => item.versionId = versionId && present item.sha256).length

/-- A save without an item in the current database does not stamp for it. -/
def stampIfPresentHere (store : Store) (versionId : Int) (request : SaveRequest) : Store :=
  if store.versionPresentCount versionId request.present = 0 then store
  else store.stampCurrentDb request.pinboardId request.identity request.now

def saveFlags (store : Store) (request : SaveRequest) : Bool × Store :=
  match request.flags with
  | some flags => store.setFlags request.pinboardId request.user flags
  | none => (false, store)

structure SaveResponse where
  versionId : Int
  noOp : Bool
  flagsUpdated : Bool

/-- A layout that is the head's makes no new version. -/
def saveVersion (ids : RowIds) (store : Store) (request : SaveRequest) :
    Except ApiError (SaveResponse × Store) :=
  if store.pinboardExists request.pinboardId request.user then
    match store.getHeadLayout request.pinboardId request.user with
    | some (headVersionId, headLayout) =>
        if request.layout = headLayout then
          let (flagsUpdated, store) := store.saveFlags request
          .ok (⟨headVersionId, true, flagsUpdated⟩, store.stampIfPresentHere headVersionId request)
        else saveNewVersion ids store request
    | none => saveNewVersion ids store request
  else .error (.notFound "Pinboard not found")
where
  saveNewVersion (ids : RowIds) (store : Store) (request : SaveRequest) :
      Except ApiError (SaveResponse × Store) := do
    let (versionId, store) ← store.appendVersion ids request.pinboardId request.layout request.items
    let (flagsUpdated, store) := store.saveFlags request
    return (⟨versionId, false, flagsUpdated⟩, store.stampIfPresentHere versionId request)

def replaceBoardDatabases (store : Store) (context : AssociationContext) (pinboardId : Int)
    (user : String) (names : List String) (now : Int) : Except ApiError Store :=
  if store.pinboardExists pinboardId user then store.setBoardDatabases context pinboardId names now
  else .error (.notFound "Pinboard not found")

end Store

inductive Op where
  | create (request : Store.CreateRequest)
  | save (request : Store.SaveRequest)
  | deleteVersion (pinboardId versionId : Int) (user : String)
  | deletePinboard (pinboardId : Int) (user : String)
  | rename (pinboardId : Int) (user : String) (name : Option String) (relabelHead : Bool)
  | setDatabases (context : AssociationContext) (pinboardId : Int) (user : String) (names : List String) (now : Int)

/-- What a transaction leaves: a failed one changes nothing. -/
def Store.committed {Answer : Type} (store : Store) : Except ApiError (Answer × Store) → Store
  | .ok (_, after) => after
  | .error _ => store

def Store.apply (ids : RowIds) (store : Store) : Op → Store
  | .create request => store.committed (store.createBoardWithVersion ids request)
  | .save request => store.committed (store.saveVersion ids request)
  | .deleteVersion pinboardId versionId user => (store.deleteVersion pinboardId versionId user).2
  | .deletePinboard pinboardId user => (store.deletePinboard pinboardId user).2
  | .rename pinboardId user name relabelHead => (store.renamePinboard pinboardId user name relabelHead).2
  | .setDatabases context pinboardId user names now =>
      match store.replaceBoardDatabases context pinboardId user names now with
      | .ok after => after
      | .error _ => store

/-- A user's database from its first pinboard on, with an engine that numbers rows by `ids`. -/
def library (ids : RowIds) : Machine Store Op := ⟨{}, Store.apply ids⟩

end Panoptikon.Pinboards
