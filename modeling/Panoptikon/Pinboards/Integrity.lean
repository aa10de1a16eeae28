import Panoptikon.Pinboards.Store

/-!
# What the pinboard tables keep

Versions, items and stamps refer to rows that exist, and every board has a head
among its own versions. Each transaction keeps this, save one: deleting the
last version of a board leaves the stamps of the board behind.
-/

namespace Panoptikon.Pinboards

open Foundation

/-- The head of the board is one of its own versions. -/
def Headed (versions : List Version) (board : Board) : Prop :=
  ∃ version ∈ versions, version.pinboardId = board.id ∧ board.headVersionId = some version.id

/-- Every board has a version, and its head is one of its own; every version, item and stamp
belongs to a board that exists. -/
structure Intact (store : Store) : Prop where
  heads : ∀ board ∈ store.boards, Headed store.versions board
  versions : ∀ version ∈ store.versions, version.pinboardId ∈ store.boards.map Board.id
  items : ∀ item ∈ store.items, ∃ version ∈ store.versions,
    version.id = item.versionId ∧ version.pinboardId ∈ store.boards.map Board.id
  databases : ∀ stamp ∈ store.databases, stamp.pinboardId ∈ store.boards.map Board.id

/-- Rows have keys of their own, and refer to rows that exist. -/
structure Linked (store : Store) : Prop where
  boardKeys : (store.boards.map Board.id).Nodup
  versionKeys : (store.versions.map Version.id).Nodup
  versionBoards : Refers Version.pinboardId Board.id store.versions store.boards
  itemVersions : Refers VersionItem.versionId Version.id store.items store.versions
  stampBoards : Refers StampRow.pinboardId Board.id store.databases store.boards

structure Sound (store : Store) : Prop extends Linked store where
  heads : ∀ board ∈ store.boards, Headed store.versions board

theorem Sound.intact {store : Store} (sound : Sound store) : Intact store where
  heads := sound.heads
  versions := sound.versionBoards
  items := by
    intro item member
    obtain ⟨version, isVersion, names⟩ := List.mem_map.mp (sound.itemVersions item member)
    exact ⟨version, isVersion, names, sound.versionBoards version isVersion⟩
  databases := sound.stampBoards

theorem sound_empty : Sound {} where
  boardKeys := List.nodup_nil
  versionKeys := List.nodup_nil
  versionBoards := Refers.nil _
  itemVersions := Refers.nil _
  stampBoards := Refers.nil _
  heads := nofun

section Rows

variable {store after : Store} {ids : RowIds} {pinboardId versionId now : Int}

theorem Sound.update_boards (sound : Sound store) {chosen : Board → Bool} {change : Board → Board}
    (sameId : ∀ board, (change board).id = board.id)
    (sameHead : ∀ board, (change board).headVersionId = board.headVersionId) :
    Sound { store with boards := updateWhere chosen change store.boards } := by
  have keys : (updateWhere chosen change store.boards).map Board.id = store.boards.map Board.id :=
    keys_update sameId
  refine ⟨⟨?_, sound.versionKeys, ?_, sound.itemVersions, ?_⟩, ?_⟩
  · change ((updateWhere chosen change store.boards).map Board.id).Nodup
    rw [keys]
    exact sound.boardKeys
  · exact sound.versionBoards.of_keys keys
  · exact sound.stampBoards.of_keys keys
  · intro board member
    obtain ⟨old, isOld, same⟩ := mem_update.mp member
    obtain ⟨version, isVersion, own, isHead⟩ := sound.heads old isOld
    refine ⟨version, isVersion, ?_, ?_⟩
    · rw [same, own]
      split
      · exact (sameId old).symm
      · rfl
    · rw [same, ← isHead]
      split
      · exact sameHead old
      · rfl

theorem Sound.update_versions (sound : Sound store) {chosen : Version → Bool} {change : Version → Version}
    (sameId : ∀ version, (change version).id = version.id)
    (sameBoard : ∀ version, (change version).pinboardId = version.pinboardId) :
    Sound { store with versions := updateWhere chosen change store.versions } := by
  have keys : (updateWhere chosen change store.versions).map Version.id = store.versions.map Version.id :=
    keys_update sameId
  have boards : (updateWhere chosen change store.versions).map Version.pinboardId =
      store.versions.map Version.pinboardId := keys_update sameBoard
  refine ⟨⟨sound.boardKeys, ?_, ?_, ?_, sound.stampBoards⟩, ?_⟩
  · change ((updateWhere chosen change store.versions).map Version.id).Nodup
    rw [keys]
    exact sound.versionKeys
  · intro version member
    have isBoard := List.mem_map_of_mem (f := Version.pinboardId) member
    rw [boards] at isBoard
    obtain ⟨old, isOld, same⟩ := List.mem_map.mp isBoard
    rw [← same]
    exact sound.versionBoards old isOld
  · exact sound.itemVersions.of_keys keys
  · intro board member
    obtain ⟨version, isVersion, own, isHead⟩ := sound.heads board member
    refine ⟨_, mem_update.mpr ⟨version, isVersion, rfl⟩, ?_, ?_⟩
    · rw [← own]
      split
      · exact sameBoard version
      · rfl
    · rw [isHead]
      split
      · rw [sameId]
      · rfl

theorem create_pinboard_linked (linked : Linked store) (user : String) (name flags : Option String) :
    Linked (store.createPinboard ids user name flags).2 where
  boardKeys := keys_append_fresh ids linked.boardKeys rfl
  versionKeys := linked.versionKeys
  versionBoards := linked.versionBoards.append_parents _
  itemVersions := linked.itemVersions
  stampBoards := linked.stampBoards.append_parents _

theorem insert_items_refer {versions : List Version} (sha256s : List String) {items : List VersionItem}
    (refers : Refers VersionItem.versionId Version.id items versions)
    (names : versionId ∈ versions.map Version.id) :
    Refers VersionItem.versionId Version.id (sha256s.foldl (Store.insertItem versionId) items) versions := by
  induction sha256s generalizing items with
  | nil => exact refers
  | cons sha256 rest induction =>
    rw [List.foldl_cons]
    apply induction
    rw [Store.insertItem]
    split
    · exact refers
    · exact refers.append (.singleton names)

/-- One board gets a head among its own versions, and the others have theirs. -/
theorem Linked.set_head (linked : Linked store)
    (others : ∀ board ∈ store.boards, board.id ≠ pinboardId → Headed store.versions board)
    {version : Version} (isVersion : version ∈ store.versions) (own : version.pinboardId = pinboardId) :
    Sound (store.setHead pinboardId version.id) := by
  have keys : (store.setHead pinboardId version.id).boards.map Board.id = store.boards.map Board.id :=
    keys_update fun _ => rfl
  refine ⟨⟨?_, linked.versionKeys, ?_, linked.itemVersions, ?_⟩, ?_⟩
  · rw [keys]
    exact linked.boardKeys
  · exact linked.versionBoards.of_keys keys
  · exact linked.stampBoards.of_keys keys
  · intro changed member
    obtain ⟨old, isOld, same⟩ := mem_update.mp member
    by_cases isOwn : old.id = pinboardId
    · rw [if_pos (decide_eq_true isOwn)] at same
      refine ⟨version, isVersion, ?_, ?_⟩
      · rw [same, own]
        exact isOwn.symm
      · rw [same]
    · rw [if_neg (by simpa using isOwn)] at same
      rw [same]
      exact others old isOld isOwn

/-- What an appended version leaves, where only its board may lack a head. -/
theorem append_version_sound (linked : Linked store)
    (others : ∀ board ∈ store.boards, board.id ≠ pinboardId → Headed store.versions board)
    {layout items : List String}
    (appended : store.appendVersion ids pinboardId layout items = .ok (versionId, after)) :
    Sound after ∧ after.boards.map Board.id = store.boards.map Board.id ∧
      after.databases = store.databases ∧ pinboardId ∈ store.boards.map Board.id := by
  rw [Store.appendVersion] at appended
  split at appended
  · cases appended
  · rename_i board found
    have isBoard : board ∈ store.boards := List.mem_of_find?_eq_some found
    have isOwn : board.id = pinboardId := by simpa using List.find?_some found
    let version : Version :=
      { id := ids.next (store.versions.map Version.id), pinboardId := board.id, layout, nameAtSave := board.name }
    have extended : Linked { store with
        versions := store.versions ++ [version]
        items := items.foldl (Store.insertItem version.id) store.items } := by
      refine ⟨linked.boardKeys, ?_, ?_, ?_, linked.stampBoards⟩
      · exact keys_append_fresh ids linked.versionKeys rfl
      · exact linked.versionBoards.append (.singleton (List.mem_map_of_mem isBoard))
      · apply insert_items_refer
        · exact linked.itemVersions.append_parents _
        · rw [List.map_append]
          exact List.mem_append_right _ (List.mem_singleton_self _)
    have stillHeaded : ∀ other ∈ store.boards, other.id ≠ pinboardId →
        Headed (store.versions ++ [version]) other := by
      intro other isOther apart
      obtain ⟨head, isHead, own, same⟩ := others other isOther apart
      exact ⟨head, List.mem_append_left _ isHead, own, same⟩
    have headed := extended.set_head stillHeaded
      (List.mem_append_right _ (List.mem_singleton_self version)) isOwn
    obtain ⟨_, same⟩ := Prod.mk.inj (Except.ok.inj appended)
    rw [← same]
    exact ⟨headed, keys_update fun _ => rfl, rfl, isOwn ▸ List.mem_map_of_mem isBoard⟩

variable {databases : List StampRow}

theorem write_stamp_refers {boards : List Board} {row : StampRow}
    (refers : Refers StampRow.pinboardId Board.id databases boards) (names : row.pinboardId ∈ boards.map Board.id) :
    Refers StampRow.pinboardId Board.id (Store.writeStamp databases row) boards := by
  unfold Store.writeStamp
  simp only
  split
  · intro stamp member
    obtain ⟨old, isOld, same⟩ := mem_update.mp member
    rw [same]
    split
    · exact names
    · exact refers old isOld
  · exact refers.append (.singleton names)

theorem write_stamp_fresh {row : StampRow} (unstamped : ∀ stamp ∈ databases, stamp.pinboardId ≠ row.pinboardId) :
    Store.writeStamp databases row = databases ++ [row] := by
  unfold Store.writeStamp
  simp only
  apply if_neg
  rw [List.any_eq_true]
  intro ⟨stamp, member, same⟩
  rw [Bool.and_eq_true, decide_eq_true_eq] at same
  exact unstamped stamp member same.1

theorem write_stamps_refer {boards : List Board} (rows : List StampRow)
    (refers : Refers StampRow.pinboardId Board.id databases boards)
    (names : Refers StampRow.pinboardId Board.id rows boards) :
    Refers StampRow.pinboardId Board.id (rows.foldl Store.writeStamp databases) boards := by
  induction rows generalizing databases with
  | nil => exact refers
  | cons row rest induction =>
    rw [List.foldl_cons]
    apply induction
    · exact write_stamp_refers refers (names row List.mem_cons_self)
    · exact fun other member => names other (List.mem_cons_of_mem _ member)

theorem Sound.stamp_databases (sound : Sound store)
    (refers : Refers StampRow.pinboardId Board.id databases store.boards) : Sound { store with databases } :=
  ⟨⟨sound.boardKeys, sound.versionKeys, sound.versionBoards, sound.itemVersions, refers⟩, sound.heads⟩

theorem Sound.stamp_current_db (sound : Sound store) (names : pinboardId ∈ store.boards.map Board.id)
    (identity : Option StampIdentity) : Sound (store.stampCurrentDb pinboardId identity now) := by
  cases identity with
  | none => exact sound
  | some identity => exact sound.stamp_databases (write_stamp_refers sound.stampBoards names)

variable {user : String} {board : Board}

theorem board_named (found : store.board? pinboardId user = some board) :
    board ∈ store.boards ∧ board.id = pinboardId ∧ board.user = user := by
  have isBoard : board ∈ store.boards := List.mem_of_find?_eq_some found
  have chosen := List.find?_some found
  simp only [Bool.and_eq_true, decide_eq_true_eq] at chosen
  exact ⟨isBoard, chosen.1, chosen.2⟩

theorem named_of_exists (present : store.pinboardExists pinboardId user = true) :
    pinboardId ∈ store.boards.map Board.id := by
  obtain ⟨board, found⟩ := Option.isSome_iff_exists.mp present
  have named := board_named found
  rw [← named.2.1]
  exact List.mem_map_of_mem named.1

theorem mem_fetch_stamps {stamp : StampRow} :
    stamp ∈ store.fetchStamps pinboardId ↔ stamp ∈ store.databases ∧ stamp.pinboardId = pinboardId := by
  rw [Store.fetchStamps, List.mem_mergeSort, Store.stampsOf, List.mem_filter, decide_eq_true_eq]

theorem resolve_fresh_own (context : AssociationContext) (kept : List StampRow) (names : List String)
    {fresh : List StampRow} (own : ∀ stamp ∈ fresh, stamp.pinboardId = pinboardId) :
    ∀ stamp ∈ names.foldl (Store.resolveFresh context pinboardId now kept) fresh,
      stamp.pinboardId = pinboardId := by
  induction names generalizing fresh with
  | nil => exact own
  | cons name rest induction =>
    rw [List.foldl_cons]
    apply induction
    intro stamp member
    rw [Store.resolveFresh] at member
    split at member
    · exact own stamp member
    · split at member
      · exact own stamp member
      · rcases List.mem_append.mp member with old | new
        · exact own stamp old
        · rw [List.mem_singleton.mp new]
          rfl

theorem Sound.set_board_databases (sound : Sound store) (named : pinboardId ∈ store.boards.map Board.id)
    {context : AssociationContext} {names : List String}
    (replaced : store.setBoardDatabases context pinboardId names now = .ok after) : Sound after := by
  unfold Store.setBoardDatabases at replaced
  simp only at replaced
  split at replaced
  · cases replaced
  · cases replaced
    apply sound.stamp_databases
    apply write_stamps_refer
    · exact sound.stampBoards.of_subset (List.filter_subset_self _)
    · intro stamp member
      have own : stamp.pinboardId = pinboardId := by
        rcases List.mem_append.mp member with kept | fresh
        · obtain ⟨name, _, isKept⟩ := List.mem_flatMap.mp kept
          exact (mem_fetch_stamps.mp (List.mem_filter.mp isKept).1).2
        · exact resolve_fresh_own context _ _ (fun _ absent => absurd absent List.not_mem_nil) stamp fresh
      rw [own]
      exact named

theorem drop_version_linked (linked : Linked store) (versionId : Int) : Linked (store.dropVersion versionId) where
  boardKeys := linked.boardKeys
  versionKeys := keys_filter linked.versionKeys _
  versionBoards := linked.versionBoards.of_subset (List.filter_subset_self _)
  itemVersions := by
    apply (linked.itemVersions.of_subset (List.filter_subset_self _)).filter_parents
    intro item member version _ names
    have kept := (List.mem_filter.mp member).2
    rw [← names] at kept
    exact kept
  stampBoards := linked.stampBoards

theorem drop_version_heads (sound : Sound store) (isBoard : board ∈ store.boards)
    (notHead : board.headVersionId ≠ some versionId) : Headed (store.dropVersion versionId).versions board := by
  obtain ⟨version, isVersion, own, isHead⟩ := sound.heads board isBoard
  refine ⟨version, List.mem_filter.mpr ⟨isVersion, ?_⟩, own, isHead⟩
  rw [decide_eq_true_eq]
  intro same
  exact notHead (same ▸ isHead)

theorem newest_version_mem {newHead : Int} (newest : store.newestVersion pinboardId = some newHead) :
    ∃ version ∈ store.versions, version.pinboardId = pinboardId ∧ version.id = newHead := by
  have member := List.max?_mem newest
  obtain ⟨version, kept, same⟩ := List.mem_map.mp member
  rw [List.mem_filter, decide_eq_true_eq] at kept
  exact ⟨version, kept.1, kept.2, same⟩

theorem newest_version_none (none_ : store.newestVersion pinboardId = none) :
    ∀ version ∈ store.versions, version.pinboardId ≠ pinboardId := by
  intro version member own
  have absent := List.max?_eq_none_iff.mp none_
  rw [List.map_eq_nil_iff] at absent
  have kept : version ∈ store.versions.filter fun version => version.pinboardId = pinboardId :=
    List.mem_filter.mpr ⟨member, decide_eq_true own⟩
  rw [absent] at kept
  exact List.not_mem_nil kept

/-- The last version of a board that was stamped is deleted. -/
def Strands (store : Store) : Op → Prop
  | .deleteVersion pinboardId versionId user =>
      (store.owned pinboardId versionId user).isSome ∧
        (∀ version ∈ store.versions, version.pinboardId = pinboardId → version.id = versionId) ∧
        store.stampsOf pinboardId ≠ []
  | _ => False

theorem owned_spec (isOwned : store.owned pinboardId versionId user = some board) :
    (∃ version ∈ store.versions, version.id = versionId ∧ version.pinboardId = pinboardId) ∧
      board ∈ store.boards ∧ board.id = pinboardId := by
  rw [Store.owned] at isOwned
  split at isOwned
  · rename_i some_
    rw [List.any_eq_true] at some_
    obtain ⟨version, isVersion, both⟩ := some_
    rw [Bool.and_eq_true, decide_eq_true_eq, decide_eq_true_eq] at both
    have named := board_named isOwned
    exact ⟨⟨version, isVersion, both⟩, named.1, named.2.1⟩
  · cases isOwned

/-- No version of the board is left exactly when the deleted one was its last. -/
theorem newest_dropped_none_iff : (store.dropVersion versionId).newestVersion pinboardId = none ↔
    ∀ version ∈ store.versions, version.pinboardId = pinboardId → version.id = versionId := by
  constructor
  · intro none_ version member own
    by_contra other
    exact newest_version_none none_ version (List.mem_filter.mpr ⟨member, decide_eq_true other⟩) own
  · intro last
    by_contra some_
    obtain ⟨newHead, newest⟩ := Option.ne_none_iff_exists'.mp some_
    obtain ⟨version, kept, own, _⟩ := newest_version_mem newest
    have both := List.mem_filter.mp kept
    exact of_decide_eq_true both.2 (last version both.1 own)

theorem other_head (sound : Sound store) {version : Version} (isVersion : version ∈ store.versions)
    (isBoard : board ∈ store.boards) (apart : board.id ≠ version.pinboardId) :
    board.headVersionId ≠ some version.id := by
  intro isHead
  obtain ⟨head, member, own, same⟩ := sound.heads board isBoard
  rw [isHead] at same
  have one := eq_of_key sound.versionKeys isVersion member (Option.some.inj same)
  rw [one] at apart
  exact apart own.symm

theorem delete_version_sound (sound : Sound store)
    (keeps : ¬Strands store (.deleteVersion pinboardId versionId user)) :
    Sound (store.deleteVersion pinboardId versionId user).2 := by
  rw [Store.deleteVersion]
  split
  · exact sound
  · rename_i board isOwned
    obtain ⟨⟨version, isVersion, sameId, ofBoard⟩, isBoard, isOwn⟩ := owned_spec isOwned
    have linked := drop_version_linked sound.toLinked versionId
    have others : ∀ other ∈ store.boards, other.id ≠ pinboardId →
        Headed (store.dropVersion versionId).versions other := by
      intro other isOther apart
      apply drop_version_heads sound isOther
      rw [← sameId]
      exact other_head sound isVersion isOther (by rw [ofBoard]; exact apart)
    simp only
    split
    · rename_i none_
      have last := newest_dropped_none_iff.mp none_
      have unstamped : store.stampsOf pinboardId = [] := by
        by_contra stamped
        exact keeps ⟨by rw [isOwned]; rfl, last, stamped⟩
      refine ⟨⟨?_, linked.versionKeys, ?_, linked.itemVersions, ?_⟩, ?_⟩
      · exact keys_filter linked.boardKeys _
      · apply linked.versionBoards.filter_parents
        intro child member parent _ names
        rw [decide_eq_true_eq, names]
        exact newest_version_none none_ child member
      · apply linked.stampBoards.filter_parents
        intro stamp member parent _ names
        rw [decide_eq_true_eq, names]
        intro same
        have stamped : stamp ∈ store.stampsOf pinboardId :=
          List.mem_filter.mpr ⟨member, decide_eq_true same⟩
        rw [unstamped] at stamped
        exact List.not_mem_nil stamped
      · intro other member
        obtain ⟨isOther, apart⟩ := List.mem_filter.mp member
        exact others other isOther (of_decide_eq_true apart)
    · rename_i newHead newest
      obtain ⟨head, isHead, ofHead, sameHead⟩ := newest_version_mem newest
      split
      · rw [← sameHead]
        exact linked.set_head others isHead ofHead
      · rename_i notHead
        refine ⟨linked, fun other isOther => ?_⟩
        by_cases own : other.id = pinboardId
        · have one : other = board := eq_of_key sound.boardKeys isOther isBoard (own.trans isOwn.symm)
          rw [one]
          exact drop_version_heads sound isBoard notHead
        · exact others other isOther own

/-- The stamps of a board that is gone with its last version belong to no board. -/
theorem stranded_not_intact {op : Op} (strands : Strands store op) : ¬Intact (store.apply ids op) := by
  intro intact
  cases op with
  | deleteVersion pinboardId versionId user =>
    obtain ⟨isOwned, last, stamped⟩ := strands
    obtain ⟨board, found⟩ := Option.isSome_iff_exists.mp isOwned
    obtain ⟨stamp, isStamp⟩ := List.exists_mem_of_ne_nil _ stamped
    obtain ⟨isRow, own⟩ := List.mem_filter.mp isStamp
    have none_ := newest_dropped_none_iff.mpr last
    have left : store.apply ids (.deleteVersion pinboardId versionId user) =
        { store.dropVersion versionId with
          boards := store.boards.filter fun board => board.id ≠ pinboardId } := by
      simp only [Store.apply, Store.deleteVersion, found, none_]
      rfl
    rw [left] at intact
    obtain ⟨other, kept, same⟩ := List.mem_map.mp (intact.databases stamp isRow)
    have apart := (List.mem_filter.mp kept).2
    rw [same, of_decide_eq_true own] at apart
    simp at apart
  | create | save | deletePinboard | rename | setDatabases => exact strands

section

variable (sound : Sound store)

include sound

theorem delete_pinboard_sound (user : String) : Sound (store.deletePinboard pinboardId user).2 := by
  rw [Store.deletePinboard]
  split
  · refine ⟨⟨?_, ?_, ?_, ?_, ?_⟩, ?_⟩
    · exact keys_filter sound.boardKeys _
    · exact keys_filter sound.versionKeys _
    · apply (sound.versionBoards.of_subset (List.filter_subset_self _)).filter_parents
      intro version member board _ names
      rw [decide_eq_true_eq, names]
      exact of_decide_eq_true (List.mem_filter.mp member).2
    · apply (sound.itemVersions.of_subset (List.filter_subset_self _)).filter_parents
      intro item member version isVersion names
      have kept := of_decide_eq_true (List.mem_filter.mp member).2
      rw [decide_eq_true_eq]
      intro own
      apply kept
      rw [← names]
      exact List.mem_map_of_mem (List.mem_filter.mpr ⟨isVersion, decide_eq_true own⟩)
    · apply (sound.stampBoards.of_subset (List.filter_subset_self _)).filter_parents
      intro stamp member board _ names
      rw [decide_eq_true_eq, names]
      exact of_decide_eq_true (List.mem_filter.mp member).2
    · intro board member
      obtain ⟨isBoard, apart⟩ := List.mem_filter.mp member
      obtain ⟨version, isVersion, own, isHead⟩ := sound.heads board isBoard
      refine ⟨version, List.mem_filter.mpr ⟨isVersion, ?_⟩, own, isHead⟩
      rw [own]
      exact apart
  · exact sound

/-- A new board has the stamp of the database it is made in and no other. -/
theorem create_board_sound (request : Store.CreateRequest) : ∃ pinboardId versionId after,
      store.createBoardWithVersion ids request = .ok ((pinboardId, versionId), after) ∧ Sound after ∧
        after.stampsOf pinboardId =
          request.identity.toList.map fun identity => identity.row pinboardId request.now := by
  let created := store.createPinboard ids request.user request.name request.flags
  have linked : Linked created.2 := create_pinboard_linked sound.toLinked _ _ _
  have unused : created.1 ∉ store.boards.map Board.id := ids.unused _
  have others : ∀ board ∈ created.2.boards, board.id ≠ created.1 → Headed created.2.versions board := by
    intro board member apart
    rcases List.mem_append.mp member with old | new
    · exact sound.heads board old
    · rw [List.mem_singleton.mp new] at apart
      exact absurd rfl apart
  have present : (created.2.boards.find? fun board => board.id = created.1).isSome = true := by
    rw [List.find?_isSome]
    exact ⟨_, List.mem_append_right _ (List.mem_singleton_self _), decide_eq_true rfl⟩
  obtain ⟨board, found⟩ := Option.isSome_iff_exists.mp present
  obtain ⟨versionId, after, appended⟩ : ∃ versionId after,
      created.2.appendVersion ids created.1 request.layout request.items = .ok (versionId, after) := by
    rw [Store.appendVersion, found]
    exact ⟨_, _, rfl⟩
  obtain ⟨isSound, keys, databases, named⟩ := append_version_sound linked others appended
  refine ⟨created.1, versionId, after.stampCurrentDb created.1 request.identity request.now, ?_, ?_, ?_⟩
  · change (created.2.appendVersion ids created.1 request.layout request.items >>= fun answer =>
      pure ((created.1, answer.1), answer.2.stampCurrentDb created.1 request.identity request.now)) = _
    rw [appended]
    rfl
  · apply isSound.stamp_current_db
    rw [keys]
    exact named
  · have unstamped : ∀ stamp ∈ after.databases, stamp.pinboardId ≠ created.1 := by
      intro stamp member same
      rw [databases] at member
      exact unused (same ▸ sound.stampBoards stamp member)
    have absent : after.databases.filter (fun stamp => stamp.pinboardId = created.1) = [] := by
      rw [List.filter_eq_nil_iff]
      intro stamp member
      simpa using unstamped stamp member
    cases made : request.identity with
    | none => exact absent
    | some identity =>
      have written : (after.stampCurrentDb created.1 (some identity) request.now).databases =
          after.databases ++ [identity.row created.1 request.now] := write_stamp_fresh unstamped
      rw [Store.stampsOf, written, List.filter_append, absent]
      simp [StampIdentity.row]

theorem save_flags_sound (request : Store.SaveRequest) : Sound (store.saveFlags request).2 ∧
      (store.saveFlags request).2.boards.map Board.id = store.boards.map Board.id := by
  rw [Store.saveFlags]
  split
  · exact ⟨sound.update_boards (fun _ => rfl) (fun _ => rfl), keys_update fun _ => rfl⟩
  · exact ⟨sound, rfl⟩

theorem stamp_if_present_sound (request : Store.SaveRequest)
    (named : request.pinboardId ∈ store.boards.map Board.id) :
    Sound (store.stampIfPresentHere versionId request) := by
  rw [Store.stampIfPresentHere]
  split
  · exact sound
  · exact sound.stamp_current_db named _

theorem save_new_version_sound {request : Store.SaveRequest} {answer : Store.SaveResponse}
    (saved : Store.saveVersion.saveNewVersion ids store request = .ok (answer, after)) : Sound after := by
  unfold Store.saveVersion.saveNewVersion at saved
  cases appended : store.appendVersion ids request.pinboardId request.layout request.items with
  | error failure =>
    rw [appended] at saved
    cases saved
  | ok result =>
    obtain ⟨versionId, middle⟩ := result
    rw [appended] at saved
    obtain ⟨_, rfl⟩ := Prod.mk.inj (Except.ok.inj saved)
    obtain ⟨isSound, keys, _, named⟩ :=
      append_version_sound sound.toLinked (fun board isBoard _ => sound.heads board isBoard) appended
    have flagged := save_flags_sound isSound request
    apply stamp_if_present_sound flagged.1
    rw [flagged.2, keys]
    exact named

theorem save_version_sound {request : Store.SaveRequest} {answer : Store.SaveResponse}
    (saved : store.saveVersion ids request = .ok (answer, after)) : Sound after := by
  rw [Store.saveVersion] at saved
  split at saved
  · rename_i present
    split at saved
    · split at saved
      · obtain ⟨_, rfl⟩ := Prod.mk.inj (Except.ok.inj saved)
        have flagged := save_flags_sound sound request
        apply stamp_if_present_sound flagged.1
        rw [flagged.2]
        exact named_of_exists present
      · exact save_new_version_sound sound saved
    · exact save_new_version_sound sound saved
  · cases saved

theorem rename_sound (user : String) (name : Option String) (relabelHead : Bool) :
    Sound (store.renamePinboard pinboardId user name relabelHead).2 := by
  unfold Store.renamePinboard
  simp only
  split
  · have renamed : Sound { store with
        boards := updateWhere (fun board => board.id = pinboardId && board.user = user)
          (fun board => { board with name }) store.boards } :=
      sound.update_boards (fun _ => rfl) (fun _ => rfl)
    simp only
    split
    · exact renamed.update_versions (fun _ => rfl) (fun _ => rfl)
    · exact renamed
  · exact sound

theorem apply_sound {op : Op} (keeps : ¬Strands store op) : Sound (store.apply ids op) := by
  cases op with
  | create request =>
    obtain ⟨pinboardId, versionId, after, created, isSound, _⟩ := @create_board_sound store ids sound request
    rw [Store.apply, created]
    exact isSound
  | save request =>
    rw [Store.apply]
    cases saved : store.saveVersion ids request with
    | error failure => exact sound
    | ok result => exact save_version_sound sound saved
  | deleteVersion pinboardId versionId user => exact delete_version_sound sound keeps
  | deletePinboard pinboardId user => exact delete_pinboard_sound sound user
  | rename pinboardId user name relabelHead => exact rename_sound sound user name relabelHead
  | setDatabases context pinboardId user names now =>
    rw [Store.apply]
    cases replaced : store.replaceBoardDatabases context pinboardId user names now with
    | error failure => exact sound
    | ok after =>
      rw [Store.replaceBoardDatabases] at replaced
      split at replaced
      · rename_i present
        exact sound.set_board_databases (named_of_exists present) replaced
      · cases replaced

end

end Rows

/-- Whatever board is created next, it is associated with the database it is stamped for and with
no other. -/
def StampedAlone (ids : RowIds) (store : Store) : Prop :=
  ∀ request : Store.CreateRequest, ∃ pinboardId versionId after,
    store.createBoardWithVersion ids request = .ok ((pinboardId, versionId), after) ∧
      after.stampsOf pinboardId =
        request.identity.toList.map fun identity => identity.row pinboardId request.now

/-- The tables stay intact, and new boards free of old stamps, through exactly the runs in which
no deleted version is the last one of a board that has a stamp. -/
theorem library_intact_iff (ids : RowIds) (ops : List Op) :
    (∀ before, before <+: ops →
        Intact ((library ids).run before) ∧ StampedAlone ids ((library ids).run before)) ↔
      (library ids).AdmittedRun (fun store op => ¬Strands store op) ops := by
  apply (library ids).prefixes_good_iff Sound (fun store => Intact store ∧ StampedAlone ids store)
  · exact sound_empty
  · intro store sound
    refine ⟨sound.intact, fun request => ?_⟩
    obtain ⟨pinboardId, versionId, after, created, _, stamps⟩ := @create_board_sound store ids sound request
    exact ⟨pinboardId, versionId, after, created, stamps⟩
  · intro store op keeps sound
    exact apply_sound sound keeps
  · intro store op strands _ good
    exact stranded_not_intact (not_not.mp strands) good.1

def createIn (identity : Option StampIdentity) : Op :=
  .create { user := "user", name := none, flags := none, layout := ["v2"], items := [], identity, now := 0 }

/-- The only version of a board made in `photos` is deleted, and the next board is made where no
stamp is written: it has the id of the first one, and its association. -/
theorem board_inherits_stamp :
    let store := (library .largest).run
      [createIn (some ⟨"uuid-1", "photos", "instance"⟩), .deleteVersion 1 1 "user", createIn none]
    store.boards.map Board.id = [1] ∧ store.stampsOf 1 = [⟨1, "uuid-1", "photos", "instance", 0⟩] := by
  decide +kernel

end Panoptikon.Pinboards
