import Panoptikon.Pinboards.Integrity
import Mathlib.Data.List.Induction

/-!
# Replacing the databases of a board

A listed name keeps the stored rows under it and stamps the local database it
resolves to. Two names of one database leave one row, and the first of them
names it.
-/

namespace Panoptikon.Pinboards

open Foundation

/-- The folders that claim an identity, each with the identity it claims. -/
abbrev LocalDbIdentities := List (String × String)

/-- A folder of that very name, or the only one that differs in case alone. -/
def LocalDbIdentities.claimed (folders : LocalDbIdentities) (name : String) : Option (String × String) :=
  match folders.find? fun folder => folder.1 = name with
  | some folder => some folder
  | none =>
      match folders.filter fun folder => folder.1.toLower = name.toLower with
      | [folder] => some folder
      | _ => none

def StampRow.key (row : StampRow) : Int × String := (row.pinboardId, row.dbUuid)

/-- The primary key of the table: a board has one row for a database. -/
def Keyed (databases : List StampRow) : Prop := (databases.map StampRow.key).Nodup

section Replacing

variable (store : Store) (context : AssociationContext) (pinboardId now : Int) (names : List String)

/-- A stored row of the board under a listed name. -/
def Carried (row : StampRow) : Prop :=
  row ∈ store.databases ∧ row.pinboardId = pinboardId ∧ row.dbName ∈ names

def Carries (dbUuid : String) : Prop := ∃ row, Carried store pinboardId names row ∧ row.dbUuid = dbUuid

/-- Neither stored nor resolvable. -/
def Refused (name : String) : Prop :=
  context.resolveName name = none ∧
    ∀ row ∈ store.databases, row.pinboardId = pinboardId → row.dbName ≠ name

/-- A listed name resolves to a database of which no row is carried. -/
def Resolves (identity : StampIdentity) : Prop :=
  (∃ name ∈ names, context.resolveName name = some identity) ∧ ¬Carries store pinboardId names identity.dbUuid

structure Replaced (after : Store) : Prop where
  elsewhere : after = { store with databases := after.databases }
  others : ∀ row, row.pinboardId ≠ pinboardId → (row ∈ after.databases ↔ row ∈ store.databases)
  keyed : Keyed after.databases
  carried : ∀ row, Carried store pinboardId names row → row ∈ after.databases
  stamped : ∀ identity, Resolves store context pinboardId names identity →
    ∃ row ∈ after.databases, row.key = (pinboardId, identity.dbUuid) ∧ row.lastStamped = now
  only : ∀ row ∈ after.databases, row.pinboardId = pinboardId → Carried store pinboardId names row ∨
    ∃ identity, Resolves store context pinboardId names identity ∧ row = identity.row pinboardId now

/-- A refusal exactly for a name that is neither stored nor resolvable; otherwise the carried rows and the
fresh ones, the same rows whatever the order and repetition of the names. -/
def ReplacesWell : Prop :=
  ((∃ fault, store.setBoardDatabases context pinboardId names now = .error fault) ↔
      ∃ name ∈ names, Refused store context pinboardId name) ∧
    ∀ after, store.setBoardDatabases context pinboardId names now = .ok after →
      Replaced store context pinboardId now names after ∧
        ∀ reordered : List String, (∀ name, name ∈ reordered ↔ name ∈ names) →
          ∃ same, store.setBoardDatabases context pinboardId reordered now = .ok same ∧
            ∀ row, row ∈ same.databases ↔ row ∈ after.databases

/-- The first listed name of a database resolves so. -/
def Leads (context : AssociationContext) (names : List String) (identity : StampIdentity) : Prop :=
  ∃ before first after, names = before ++ first :: after ∧ context.resolveName first = some identity ∧
    ∀ earlier ∈ before, ∀ other, context.resolveName earlier = some other → other.dbUuid ≠ identity.dbUuid

/-- Every row is there, but for the name on a row that is stamped now. -/
def SameButHints (now : Int) (rows others : List StampRow) : Prop :=
  ∀ row ∈ rows, row ∈ others ∨ row.lastStamped = now ∧ ∃ dbName, { row with dbName } ∈ others

/-- The first listed name of a database is the hint on its fresh row, and all that another order changes. -/
def ReplacesInOrder : Prop :=
  ((∃ fault, store.setBoardDatabases context pinboardId names now = .error fault) ↔
      ∃ name ∈ names, Refused store context pinboardId name) ∧
    ∀ after, store.setBoardDatabases context pinboardId names now = .ok after →
      Replaced store context pinboardId now names after ∧
        (∀ identity, Leads context names identity → ¬Carries store pinboardId names identity.dbUuid →
          identity.row pinboardId now ∈ after.databases) ∧
        ∀ reordered : List String, (∀ name, name ∈ reordered ↔ name ∈ names) →
          ∃ same, store.setBoardDatabases context pinboardId reordered now = .ok same ∧
            SameButHints now same.databases after.databases

/-- Listed names of one database that is stamped afresh resolve to one folder. -/
def OneFolder : Prop :=
  ∀ first second, Resolves store context pinboardId names first → Resolves store context pinboardId names second →
    first.dbUuid = second.dbUuid → first.dbName = second.dbName

end Replacing

def dedupInOrder (names : List String) : List String := names.reverse.dedup.reverse

theorem mem_dedup_in_order {names : List String} {name : String} : name ∈ dedupInOrder names ↔ name ∈ names := by
  rw [dedupInOrder, List.mem_reverse, List.mem_dedup, List.mem_reverse]

theorem dedup_in_order_nodup (names : List String) : (dedupInOrder names).Nodup :=
  List.nodup_reverse.mpr (List.nodup_dedup names.reverse)

/-- A name that is new keeps its place behind the names before it. -/
theorem dedup_in_order_split {before after : List String} {name : String} (new : name ∉ before) :
    ∃ rest, dedupInOrder (before ++ name :: after) = dedupInOrder before ++ name :: rest := by
  obtain ⟨rest, isUnion⟩ := List.suffix_union_right after.reverse (before ++ [name]).reverse.dedup
  have newBack : name ∉ before.reverse := fun member => new (List.mem_reverse.mp member)
  refine ⟨rest.reverse, ?_⟩
  rw [dedupInOrder, List.append_cons, List.reverse_append, List.dedup_append, ← isUnion, List.reverse_append,
    List.reverse_concat, List.dedup_cons_of_notMem newBack, List.reverse_cons, List.append_assoc]
  rfl

section Fresh

variable (context : AssociationContext) (pinboardId now : Int) (kept : List StampRow)

/-- The databases of the kept rows and the fresh ones. -/
def spokenFor (kept fresh : List StampRow) : List String := (kept ++ fresh).map StampRow.dbUuid

theorem resolve_fresh_cases (fresh : List StampRow) (name : String) :
    (Store.resolveFresh context pinboardId now kept fresh name = fresh ∧
        ∀ identity, context.resolveName name = some identity → identity.dbUuid ∈ spokenFor kept fresh) ∨
      ∃ identity, context.resolveName name = some identity ∧ identity.dbUuid ∉ spokenFor kept fresh ∧
        Store.resolveFresh context pinboardId now kept fresh name = fresh ++ [identity.row pinboardId now] := by
  unfold Store.resolveFresh
  cases resolved : context.resolveName name with
  | none =>
    left
    constructor
    · rfl
    · intro identity absent
      cases absent
  | some identity =>
    by_cases spoken : identity.dbUuid ∈ spokenFor kept fresh
    · left
      constructor
      · exact if_pos spoken
      · intro other same
        cases same
        exact spoken
    · right
      exact ⟨identity, rfl, spoken, if_neg spoken⟩

def freshRows (names : List String) : List StampRow :=
  names.foldl (Store.resolveFresh context pinboardId now kept) []

/-- The fresh rows are of databases that have no row yet, each resolved from a name. -/
structure Settled (names : List String) (fresh : List StampRow) : Prop where
  distinct : (spokenFor kept fresh).Nodup
  sourced : ∀ row ∈ fresh, ∃ name ∈ names, ∃ identity, context.resolveName name = some identity ∧
    identity.dbUuid ∉ kept.map StampRow.dbUuid ∧ row = identity.row pinboardId now
  spoken : ∀ name ∈ names, ∀ identity, context.resolveName name = some identity →
    identity.dbUuid ∈ spokenFor kept fresh

variable {context pinboardId now kept}

theorem settled_step {names : List String} {fresh : List StampRow}
    (settled : Settled context pinboardId now kept names fresh) (name : String) :
    Settled context pinboardId now kept (names ++ [name])
      (Store.resolveFresh context pinboardId now kept fresh name) := by
  rcases resolve_fresh_cases context pinboardId now kept fresh name with
    ⟨same, spoken⟩ | ⟨identity, resolved, unspoken, added⟩
  · rw [same]
    refine ⟨settled.distinct, ?_, ?_⟩
    · intro row isFresh
      obtain ⟨source, isName, rest⟩ := settled.sourced row isFresh
      exact ⟨source, List.mem_append_left _ isName, rest⟩
    · intro other isName identity resolved
      rcases List.mem_append.mp isName with earlier | last
      · exact settled.spoken other earlier identity resolved
      · rw [List.mem_singleton.mp last] at resolved
        exact spoken identity resolved
  · rw [added]
    have grown : spokenFor kept (fresh ++ [identity.row pinboardId now]) =
        spokenFor kept fresh ++ [identity.dbUuid] := by
      rw [spokenFor, spokenFor, ← List.append_assoc, List.map_append]
      rfl
    have unkept : identity.dbUuid ∉ kept.map StampRow.dbUuid := by
      intro isKept
      apply unspoken
      rw [spokenFor, List.map_append]
      exact List.mem_append_left _ isKept
    refine ⟨?_, ?_, ?_⟩
    · rw [grown, List.nodup_append]
      refine ⟨settled.distinct, List.nodup_singleton _, ?_⟩
      rintro uuid isSpoken other isLast rfl
      rw [List.mem_singleton.mp isLast] at isSpoken
      exact unspoken isSpoken
    · intro row isFresh
      rcases List.mem_append.mp isFresh with earlier | last
      · obtain ⟨source, isName, rest⟩ := settled.sourced row earlier
        exact ⟨source, List.mem_append_left _ isName, rest⟩
      · exact ⟨name, List.mem_append_right _ List.mem_cons_self, identity, resolved, unkept,
          List.mem_singleton.mp last⟩
    · intro other isName found foundResolved
      rw [grown]
      rcases List.mem_append.mp isName with earlier | last
      · exact List.mem_append_left _ (settled.spoken other earlier found foundResolved)
      · rw [List.mem_singleton.mp last, resolved] at foundResolved
        cases foundResolved
        exact List.mem_append_right _ List.mem_cons_self

theorem fresh_rows_settled (distinct : (kept.map StampRow.dbUuid).Nodup) (names : List String) :
    Settled context pinboardId now kept names (freshRows context pinboardId now kept names) := by
  induction names using List.reverseRecOn with
  | nil =>
    refine ⟨?_, ?_, ?_⟩
    · change (spokenFor kept []).Nodup
      rw [spokenFor, List.append_nil]
      exact distinct
    · intro row absent
      cases absent
    · intro name absent
      cases absent
  | append_singleton names name ih =>
    rw [freshRows, List.foldl_concat]
    exact settled_step ih name

theorem resolve_fresh_keeps (names : List String) {fresh : List StampRow} {row : StampRow} (isFresh : row ∈ fresh) :
    row ∈ names.foldl (Store.resolveFresh context pinboardId now kept) fresh := by
  induction names generalizing fresh with
  | nil => exact isFresh
  | cons name rest ih =>
    rw [List.foldl_cons]
    apply ih
    rcases resolve_fresh_cases context pinboardId now kept fresh name with ⟨same, -⟩ | ⟨identity, -, -, added⟩
    · rw [same]
      exact isFresh
    · rw [added]
      exact List.mem_append_left _ isFresh

theorem first_fresh {before after : List String} {first : String} {identity : StampIdentity}
    (distinct : (kept.map StampRow.dbUuid).Nodup) (resolved : context.resolveName first = some identity)
    (unkept : identity.dbUuid ∉ kept.map StampRow.dbUuid)
    (leads : ∀ earlier ∈ before, ∀ other, context.resolveName earlier = some other → other.dbUuid ≠ identity.dbUuid) :
    identity.row pinboardId now ∈ freshRows context pinboardId now kept (before ++ first :: after) := by
  have settled := @fresh_rows_settled context pinboardId now kept distinct before
  rw [freshRows] at settled
  rw [freshRows, List.foldl_append, List.foldl_cons]
  apply resolve_fresh_keeps
  rcases resolve_fresh_cases context pinboardId now kept
      (before.foldl (Store.resolveFresh context pinboardId now kept) []) first with
    ⟨-, spoken⟩ | ⟨found, foundResolved, -, added⟩
  · have isSpoken := spoken identity resolved
    rw [spokenFor, List.map_append] at isSpoken
    obtain ⟨row, isFresh, same⟩ := List.mem_map.mp ((List.mem_append.mp isSpoken).resolve_left unkept)
    obtain ⟨earlier, isEarlier, other, otherResolved, -, rfl⟩ := settled.sourced row isFresh
    exact absurd same (leads earlier isEarlier other otherResolved)
  · rw [resolved] at foundResolved
    cases foundResolved
    rw [added]
    exact List.mem_append_right _ List.mem_cons_self

end Fresh

theorem write_stamps_new (rows : List StampRow) {databases : List StampRow}
    (distinct : Keyed (databases ++ rows)) : rows.foldl Store.writeStamp databases = databases ++ rows := by
  induction rows generalizing databases with
  | nil => exact (List.append_nil databases).symm
  | cons row rest ih =>
    have unstamped : Store.writeStamp databases row = databases ++ [row] := by
      unfold Store.writeStamp
      apply if_neg
      rw [List.any_eq_true]
      rintro ⟨stamp, isStored, same⟩
      rw [Bool.and_eq_true, decide_eq_true_eq, decide_eq_true_eq] at same
      rw [Keyed, List.map_append, List.nodup_append] at distinct
      exact distinct.2.2 stamp.key (List.mem_map_of_mem isStored) row.key
        (List.mem_map_of_mem List.mem_cons_self) (Prod.ext same.1 same.2)
    have split : databases ++ row :: rest = (databases ++ [row]) ++ rest := by
      rw [List.append_assoc, List.singleton_append]
    rw [List.foldl_cons, unstamped, split]
    rw [split] at distinct
    exact ih distinct

section Left

variable (store : Store) (context : AssociationContext) (pinboardId now : Int) (names : List String)

def keptRows : List StampRow :=
  (dedupInOrder names).flatMap fun name => (store.fetchStamps pinboardId).filter fun stamp => stamp.dbName = name

def leftRows : List StampRow :=
  keptRows store pinboardId names ++
    freshRows context pinboardId now (keptRows store pinboardId names) (dedupInOrder names)

def otherRows : List StampRow := store.databases.filter fun stamp => stamp.pinboardId ≠ pinboardId

variable {store context pinboardId now names}

variable {row : StampRow}

theorem mem_kept_rows :
    row ∈ keptRows store pinboardId names ↔ Carried store pinboardId names row := by
  rw [keptRows, List.mem_flatMap]
  constructor
  · rintro ⟨name, isName, isKept⟩
    rw [List.mem_filter, decide_eq_true_eq, mem_fetch_stamps] at isKept
    exact ⟨isKept.1.1, isKept.1.2, isKept.2 ▸ mem_dedup_in_order.mp isName⟩
  · rintro ⟨isStored, isOwn, isListed⟩
    refine ⟨row.dbName, mem_dedup_in_order.mpr isListed, ?_⟩
    rw [List.mem_filter, decide_eq_true_eq, mem_fetch_stamps]
    exact ⟨⟨isStored, isOwn⟩, rfl⟩

theorem carries_iff {dbUuid : String} :
    Carries store pinboardId names dbUuid ↔ dbUuid ∈ (keptRows store pinboardId names).map StampRow.dbUuid := by
  rw [List.mem_map]
  constructor
  · rintro ⟨row, isCarried, same⟩
    exact ⟨row, mem_kept_rows.mpr isCarried, same⟩
  · rintro ⟨row, isKept, same⟩
    exact ⟨row, mem_kept_rows.mp isKept, same⟩

theorem refused_iff {name : String} : Refused store context pinboardId name ↔
    ((context.resolveName name).isNone && !(store.fetchStamps pinboardId).any
    fun stamp => stamp.dbName = name) = true := by
  rw [Bool.and_eq_true, Option.isNone_iff_eq_none, Bool.not_eq_true', Refused]
  apply and_congr_right
  intro _
  rw [List.any_eq_false]
  constructor
  · intro differs row isOwn
    rw [decide_eq_true_eq]
    exact differs row (mem_fetch_stamps.mp isOwn).1 (mem_fetch_stamps.mp isOwn).2
  · intro differs row isStored isOwn same
    exact differs row (mem_fetch_stamps.mpr ⟨isStored, isOwn⟩) (decide_eq_true same)

theorem refuses_iff : (∃ fault, store.setBoardDatabases context pinboardId names now = .error fault) ↔
    ∃ name ∈ names, Refused store context pinboardId name := by
  have unresolved : (dedupInOrder names).filter (fun name =>
      (context.resolveName name).isNone && !(store.fetchStamps pinboardId).any fun stamp => stamp.dbName = name) ≠ [] ↔
      ∃ name ∈ names, Refused store context pinboardId name := by
    constructor
    · intro some_
      obtain ⟨name, isUnresolved⟩ := List.exists_mem_of_ne_nil _ some_
      rw [List.mem_filter, ← refused_iff] at isUnresolved
      exact ⟨name, mem_dedup_in_order.mp isUnresolved.1, isUnresolved.2⟩
    · rintro ⟨name, isName, refused⟩
      apply @List.ne_nil_of_mem _ name
      rw [List.mem_filter, ← refused_iff]
      exact ⟨mem_dedup_in_order.mpr isName, refused⟩
  rw [← unresolved]
  unfold Store.setBoardDatabases
  constructor
  · rintro ⟨fault, isError⟩
    dsimp only at isError
    split at isError
    · assumption
    · cases isError
  · intro some_
    exact ⟨_, if_pos some_⟩

theorem stored_uuids (keyed : Keyed store.databases) :
    ((store.fetchStamps pinboardId).map StampRow.dbUuid).Nodup := by
  have isPerm : (store.fetchStamps pinboardId).Perm (store.stampsOf pinboardId) := List.mergeSort_perm _ _
  rw [(isPerm.map StampRow.dbUuid).nodup_iff]
  have own : ((store.stampsOf pinboardId).map StampRow.key).Nodup :=
    keyed.sublist (List.filter_sublist.map StampRow.key)
  apply List.Nodup.map_on _ (List.Nodup.of_map StampRow.key own)
  intro left isLeft right isRight same
  rw [Store.stampsOf, List.mem_filter, decide_eq_true_eq] at isLeft isRight
  exact List.inj_on_of_nodup_map keyed isLeft.1 isRight.1 (Prod.ext (isLeft.2.trans isRight.2.symm) same)

theorem kept_uuids (keyed : Keyed store.databases) :
    ((keptRows store pinboardId names).map StampRow.dbUuid).Nodup := by
  have stored : ((store.fetchStamps pinboardId).map StampRow.dbUuid).Nodup := stored_uuids keyed
  have rows : (keptRows store pinboardId names).Nodup := by
    rw [keptRows, List.nodup_flatMap]
    constructor
    · intro name _
      exact (List.Nodup.of_map StampRow.dbUuid stored).filter _
    · apply (dedup_in_order_nodup names).imp
      intro left right differ row isLeft isRight
      rw [List.mem_filter, decide_eq_true_eq] at isLeft isRight
      exact differ (isLeft.2.symm.trans isRight.2)
  apply rows.map_on
  intro left isLeft right isRight same
  have stored_ {row : StampRow} (isKept : row ∈ keptRows store pinboardId names) :
      row ∈ store.fetchStamps pinboardId := by
    have carried := mem_kept_rows.mp isKept
    exact mem_fetch_stamps.mpr ⟨carried.1, carried.2.1⟩
  exact List.inj_on_of_nodup_map stored (stored_ isLeft) (stored_ isRight) same

theorem left_rows_own (isLeft : row ∈ leftRows store context pinboardId now names) :
    row.pinboardId = pinboardId := by
  rcases List.mem_append.mp isLeft with kept | fresh
  · exact (mem_kept_rows.mp kept).2.1
  · exact resolve_fresh_own context _ _ (by
      intro stamp absent
      cases absent) row fresh

section

variable (keyed : Keyed store.databases)

include keyed

theorem settled_rows :
    Settled context pinboardId now (keptRows store pinboardId names) (dedupInOrder names)
      (freshRows context pinboardId now (keptRows store pinboardId names) (dedupInOrder names)) :=
  fresh_rows_settled (kept_uuids keyed) (dedupInOrder names)

theorem after_keyed :
    Keyed (otherRows store pinboardId ++ leftRows store context pinboardId now names) := by
  rw [Keyed, List.map_append, List.nodup_append]
  have left : ((leftRows store context pinboardId now names).map StampRow.key).Nodup := by
    have uuids : ((leftRows store context pinboardId now names).map StampRow.dbUuid).Nodup :=
      (settled_rows keyed).distinct
    apply (List.Nodup.of_map StampRow.dbUuid uuids).map_on
    intro first isFirst second isSecond same
    exact List.inj_on_of_nodup_map uuids isFirst isSecond (congrArg Prod.snd same)
  refine ⟨keyed.sublist (List.filter_sublist.map StampRow.key), left, ?_⟩
  intro other isOther own isOwn same
  obtain ⟨row, isRow, rfl⟩ := List.mem_map.mp isOther
  obtain ⟨fresh, isLeft, rfl⟩ := List.mem_map.mp isOwn
  rw [otherRows, List.mem_filter, decide_eq_true_eq] at isRow
  exact isRow.2 ((congrArg Prod.fst same).trans (left_rows_own isLeft))

theorem replaces_eq (accepted : ¬∃ name ∈ names, Refused store context pinboardId name) :
    store.setBoardDatabases context pinboardId names now = .ok { store with
      databases := otherRows store pinboardId ++ leftRows store context pinboardId now names } := by
  rw [← @refuses_iff store context pinboardId now] at accepted
  have written : (leftRows store context pinboardId now names).foldl Store.writeStamp (otherRows store pinboardId) =
      otherRows store pinboardId ++ leftRows store context pinboardId now names :=
    write_stamps_new _ (after_keyed keyed)
  rw [← written]
  unfold Store.setBoardDatabases at accepted ⊢
  dsimp only at accepted ⊢
  split at accepted
  · exact absurd ⟨_, rfl⟩ accepted
  · rename_i resolved
    rw [if_neg resolved]
    rfl

theorem resolves_left :
    row ∈ leftRows store context pinboardId now names → Carried store pinboardId names row ∨
      ∃ identity, Resolves store context pinboardId names identity ∧ row = identity.row pinboardId now := by
  intro isLeft
  rcases List.mem_append.mp isLeft with kept | fresh
  · left
    exact mem_kept_rows.mp kept
  · right
    obtain ⟨name, isName, identity, resolved, unkept, isRow⟩ := (settled_rows keyed).sourced row fresh
    refine ⟨identity, ⟨⟨name, mem_dedup_in_order.mp isName, resolved⟩, ?_⟩, isRow⟩
    rw [carries_iff]
    exact unkept

theorem resolves_stamped {identity : StampIdentity} (resolves : Resolves store context pinboardId names identity) :
    ∃ source, Resolves store context pinboardId names source ∧ source.dbUuid = identity.dbUuid ∧
      source.row pinboardId now ∈ leftRows store context pinboardId now names := by
  obtain ⟨⟨name, isName, resolved⟩, uncarried⟩ := resolves
  have spoken := (@settled_rows store context pinboardId now names keyed).spoken name
    (mem_dedup_in_order.mpr isName) identity resolved
  obtain ⟨row, isLeft, same⟩ := List.mem_map.mp spoken
  rcases resolves_left keyed isLeft with carried | ⟨source, isSource, rfl⟩
  · exact absurd ⟨row, carried, same⟩ uncarried
  · exact ⟨source, isSource, same, isLeft⟩

theorem replaces : Replaced store context pinboardId now names { store with
    databases := otherRows store pinboardId ++ leftRows store context pinboardId now names } where
  elsewhere := rfl
  others := by
    intro row foreign
    rw [List.mem_append, otherRows, List.mem_filter, decide_eq_true_eq]
    constructor
    · rintro (⟨isStored, -⟩ | isLeft)
      · exact isStored
      · exact absurd (left_rows_own isLeft) foreign
    · intro isStored
      exact .inl ⟨isStored, foreign⟩
  keyed := after_keyed keyed
  carried := by
    intro row carried
    exact List.mem_append_right _ (List.mem_append_left _ (mem_kept_rows.mpr carried))
  stamped := by
    intro identity resolves
    obtain ⟨source, -, same, isLeft⟩ := @resolves_stamped store context pinboardId now names keyed identity resolves
    exact ⟨source.row pinboardId now, List.mem_append_right _ isLeft, congrArg (Prod.mk pinboardId) same, rfl⟩
  only := by
    intro row isRow own
    rcases List.mem_append.mp isRow with other | isLeft
    · rw [otherRows, List.mem_filter, decide_eq_true_eq] at other
      exact absurd own other.2
    · exact resolves_left keyed isLeft

end

variable {reordered : List String}

theorem carries_same (same : ∀ name, name ∈ reordered ↔ name ∈ names) (row : StampRow) :
    Carried store pinboardId reordered row ↔ Carried store pinboardId names row := by
  rw [Carried, Carried, same]

theorem resolves_same (same : ∀ name, name ∈ reordered ↔ name ∈ names) (identity : StampIdentity) :
    Resolves store context pinboardId reordered identity ↔ Resolves store context pinboardId names identity := by
  simp only [Resolves, Carries, carries_same same, same]

theorem resolve_name_instance {name : String} {identity : StampIdentity}
    (resolved : context.resolveName name = some identity) : context.instanceUuid = some identity.instanceUuid := by
  unfold AssociationContext.resolveName at resolved
  cases isInstance : context.instanceUuid with
  | none =>
    rw [isInstance] at resolved
    cases resolved
  | some instanceUuid =>
    rw [isInstance, Option.bind_eq_bind, Option.bind_some] at resolved
    split at resolved
    · cases resolved
      rfl
    · rw [Option.bind_eq_some_iff] at resolved
      obtain ⟨dbUuid, -, found⟩ := resolved
      split at found
      · cases found
        rfl
      · cases found

theorem resolves_instance {names others : List String} {first second : StampIdentity}
    (firstResolves : Resolves store context pinboardId names first)
    (secondResolves : Resolves store context pinboardId others second) : first.instanceUuid = second.instanceUuid := by
  obtain ⟨firstName, -, firstResolved⟩ := firstResolves.1
  obtain ⟨secondName, -, secondResolved⟩ := secondResolves.1
  exact Option.some.inj ((resolve_name_instance firstResolved).symm.trans (resolve_name_instance secondResolved))

/-- Where one folder answers for each database, the rows that are left do not depend on the order. -/
theorem left_rows_same (keyed : Keyed store.databases)
    (same : ∀ name, name ∈ reordered ↔ name ∈ names) (oneFolder : OneFolder store context pinboardId names)
    (isLeft : row ∈ leftRows store context pinboardId now names) :
    row ∈ leftRows store context pinboardId now reordered := by
  rcases resolves_left keyed isLeft with carried | ⟨identity, resolves, rfl⟩
  · exact List.mem_append_left _ (mem_kept_rows.mpr ((carries_same same row).mpr carried))
  · obtain ⟨source, sourceResolves, sameUuid, isRow⟩ :=
      @resolves_stamped store context pinboardId now reordered keyed identity ((resolves_same same identity).mpr resolves)
    have sameName := oneFolder source identity ((resolves_same same source).mp sourceResolves) resolves sameUuid
    have sameInstance := resolves_instance sourceResolves resolves
    have sameRow : source.row pinboardId now = identity.row pinboardId now := by
      rw [StampIdentity.row, StampIdentity.row, sameUuid, sameName, sameInstance]
    exact sameRow ▸ isRow

theorem listed_again {name : String} (isName : name ∈ names) (other : String) :
    other ∈ name :: names ↔ other ∈ names := by
  rw [List.mem_cons, or_iff_right_of_imp]
  rintro rfl
  exact isName

theorem first_left (keyed : Keyed store.databases) {identity : StampIdentity} (leads : Leads context names identity)
    (uncarried : ¬Carries store pinboardId names identity.dbUuid) :
    identity.row pinboardId now ∈ leftRows store context pinboardId now names := by
  obtain ⟨before, first, after, rfl, resolved, earlier⟩ := leads
  have new : first ∉ before := fun member => earlier first member identity resolved rfl
  obtain ⟨rest, isDedup⟩ := @dedup_in_order_split before after first new
  apply List.mem_append_right
  rw [isDedup]
  rw [carries_iff] at uncarried
  exact first_fresh (kept_uuids keyed) resolved uncarried fun name member =>
    earlier name (mem_dedup_in_order.mp member)

end Left

section Replaces

variable {store : Store} (keyed : Keyed store.databases) (context : AssociationContext) (pinboardId now : Int)
  (names : List String)

include keyed

theorem replaces_reordered (accepted : ¬∃ name ∈ names, Refused store context pinboardId name)
    {reordered : List String} (same : ∀ name, name ∈ reordered ↔ name ∈ names) :
    store.setBoardDatabases context pinboardId reordered now = .ok { store with
      databases := otherRows store pinboardId ++ leftRows store context pinboardId now reordered } := by
  apply replaces_eq keyed
  simp only [same]
  exact accepted

theorem replaces_in_order : ReplacesInOrder store context pinboardId now names := by
  refine ⟨refuses_iff, ?_⟩
  intro after isAfter
  have accepted : ¬∃ name ∈ names, Refused store context pinboardId name := by
    rw [← @refuses_iff store context pinboardId now, isAfter]
    rintro ⟨fault, absurdity⟩
    cases absurdity
  rw [replaces_eq keyed accepted] at isAfter
  cases isAfter
  refine ⟨replaces keyed, ?_, ?_⟩
  · exact fun identity leads uncarried => List.mem_append_right _ (first_left keyed leads uncarried)
  intro reordered same
  refine ⟨_, replaces_reordered keyed context pinboardId now names accepted same, ?_⟩
  intro row isRow
  rcases List.mem_append.mp isRow with other | isLeft
  · exact .inl (List.mem_append_left _ other)
  rcases resolves_left keyed isLeft with carried | ⟨identity, resolves, rfl⟩
  · exact .inl (List.mem_append_right _ (List.mem_append_left _ (mem_kept_rows.mpr ((carries_same same row).mp carried))))
  obtain ⟨source, sourceResolves, sameUuid, isRow⟩ :=
    @resolves_stamped store context pinboardId now names keyed identity ((resolves_same same identity).mp resolves)
  have sameInstance := resolves_instance sourceResolves resolves
  refine .inr ⟨rfl, source.dbName, List.mem_append_right _ ?_⟩
  rwa [StampIdentity.row, sameUuid, sameInstance] at isRow

/-- A replacement leaves what it should, the same rows but for the hints whatever the order of the names. The hints
are the same too exactly if a name is refused, or the listed names of each database that is stamped afresh resolve to
one folder. -/
theorem replaces_well_iff : ReplacesInOrder store context pinboardId now names ∧
    (ReplacesWell store context pinboardId now names ↔
      (∃ name ∈ names, Refused store context pinboardId name) ∨ OneFolder store context pinboardId names) := by
  refine ⟨replaces_in_order keyed context pinboardId now names, ?_⟩
  by_cases refused : ∃ name ∈ names, Refused store context pinboardId name
  · refine iff_of_true ⟨refuses_iff, ?_⟩ (.inl refused)
    intro after replaced
    obtain ⟨fault, isError⟩ := (@refuses_iff store context pinboardId now names).mpr refused
    rw [isError] at replaced
    cases replaced
  · rw [or_iff_right refused]
    have eq := @replaces_eq store context pinboardId now names keyed refused
    constructor
    · rintro ⟨-, well⟩ first second ⟨⟨firstName, isFirst, firstResolved⟩, firstUncarried⟩
        ⟨⟨secondName, isSecond, secondResolved⟩, secondUncarried⟩ sameUuid
      obtain ⟨-, orders⟩ := well _ eq
      have stamped {name : String} {identity : StampIdentity} (isName : name ∈ names)
          (resolved : context.resolveName name = some identity)
          (uncarried : ¬Carries store pinboardId names identity.dbUuid) :
          identity.row pinboardId now ∈
            otherRows store pinboardId ++ leftRows store context pinboardId now names := by
        obtain ⟨after, isAfter, rows⟩ := orders (name :: names) (listed_again isName)
        rw [replaces_reordered keyed context pinboardId now names refused (listed_again isName)] at isAfter
        cases isAfter
        have leads : Leads context (name :: names) identity :=
          ⟨[], name, names, rfl, resolved, nofun⟩
        apply (rows _).mp (List.mem_append_right _ (first_left keyed leads _))
        simp only [Carries, carries_same (listed_again isName)]
        exact uncarried
      have sameRow := List.inj_on_of_nodup_map (after_keyed keyed) (stamped isFirst firstResolved firstUncarried)
        (stamped isSecond secondResolved secondUncarried) (congrArg (Prod.mk pinboardId) sameUuid)
      exact congrArg StampRow.dbName sameRow
    · intro oneFolder
      refine ⟨refuses_iff, ?_⟩
      intro after isAfter
      rw [eq] at isAfter
      cases isAfter
      refine ⟨replaces keyed, ?_⟩
      intro reordered same
      refine ⟨_, replaces_reordered keyed context pinboardId now names refused same, ?_⟩
      intro row
      have sameBack (name : String) : name ∈ names ↔ name ∈ reordered := (same name).symm
      have folders : OneFolder store context pinboardId reordered := by
        intro first second firstResolves secondResolves
        exact oneFolder first second ((resolves_same same first).mp firstResolves)
          ((resolves_same same second).mp secondResolves)
      rw [List.mem_append, List.mem_append]
      apply or_congr_right
      constructor
      · intro isLeft
        exact left_rows_same keyed sameBack folders isLeft
      · intro isLeft
        exact left_rows_same keyed same oneFolder isLeft

end Replaces

/-- A board that was stamped for a folder renamed since. -/
def renamedFolder : Store := { databases := [⟨1, "p", "photos", "inst", 0⟩] }

def phoneContext : AssociationContext :=
  { currentDbUuid := some "p", instanceUuid := some "inst", indexDb := "phone",
    claimed := LocalDbIdentities.claimed [("phone", "p")] }

theorem renamed_replaces_well : ReplacesInOrder renamedFolder phoneContext 1 10 ["photos", "phone"] ∧
    ReplacesWell renamedFolder phoneContext 1 10 ["photos", "phone"] := by
  have keyed : Keyed renamedFolder.databases := List.nodup_singleton _
  have replaced := replaces_well_iff keyed phoneContext 1 10 ["photos", "phone"]
  refine ⟨replaced.1, replaced.2.mpr (.inr ?_)⟩
  have unclaimed : phoneContext.resolveName "photos" = none := by decide +kernel
  have isPhone {identity : StampIdentity} (resolves : Resolves renamedFolder phoneContext 1 ["photos",
    "phone"] identity) :
      phoneContext.resolveName "phone" = some identity := by
    obtain ⟨⟨name, isName, resolved⟩, -⟩ := resolves
    rcases List.mem_cons.mp isName with rfl | isLast
    · rw [unclaimed] at resolved
      cases resolved
    · rw [List.mem_singleton.mp isLast] at resolved
      exact resolved
  intro first second isFirst isSecond _
  exact congrArg StampIdentity.dbName (Option.some.inj ((isPhone isFirst).symm.trans (isPhone isSecond)))

/-- A database folder and a copy of it, which claims the same identity. -/
def copiedFolder : AssociationContext :=
  { currentDbUuid := some "u", instanceUuid := some "inst", indexDb := "a",
    claimed := LocalDbIdentities.claimed [("a", "u"), ("b", "u")] }

/-- The first name of the two is recorded. -/
theorem order_shows : ¬ReplacesWell {} copiedFolder 1 10 ["a", "b"] := by
  rintro ⟨-, well⟩
  have none_ : Store.fetchStamps {} 1 = [] := List.mergeSort_nil
  have forward : Store.setBoardDatabases {} copiedFolder 1 ["a", "b"] 10 =
      .ok { databases := [⟨1, "u", "a", "inst", 10⟩] } := by
    unfold Store.setBoardDatabases
    rw [none_]
    decide +kernel
  have backward : Store.setBoardDatabases {} copiedFolder 1 ["b", "a"] 10 =
      .ok { databases := [⟨1, "u", "b", "inst", 10⟩] } := by
    unfold Store.setBoardDatabases
    rw [none_]
    decide +kernel
  have sameNames (name : String) : name ∈ ["b", "a"] ↔ name ∈ ["a", "b"] := by
    rw [List.mem_pair, List.mem_pair, or_comm]
  obtain ⟨same, isSame, rows⟩ := (well _ forward).2 ["b", "a"] sameNames
  rw [backward] at isSame
  cases isSame
  have isRow := (rows ⟨1, "u", "b", "inst", 10⟩).mp List.mem_cons_self
  exact absurd (congrArg StampRow.dbName (List.mem_singleton.mp isRow)) (by decide)

end Panoptikon.Pinboards
