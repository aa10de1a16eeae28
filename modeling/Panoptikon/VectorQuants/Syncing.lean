import Panoptikon.VectorQuants.InSync

/-!
# The metadata sync

`sync_metadata` of `db/vector_quants.rs`: the operations of the metadata plan in
one transaction, then the default flags. The profiles come first, each operation
touching the rows of one name; pairs are only added after that.
-/

namespace Panoptikon.VectorQuants

open Foundation Foundation.KeyedSort

namespace Store

def createCoverageRows (profileId : Int) (setterIds : List Int) (needsArtifact : Bool) (store : Store) :
    Except ApiError Store :=
  setterIds.foldlM (fun reached setterId => reached.insertPair profileId setterId needsArtifact) store

def createProfile (ids : RowIds) (setterIds : List Int) (name quantizer options : Text) (needsArtifact : Bool)
    (store : Store) : Except ApiError Store :=
  if (store.named name).isSome then .error writeErr
  else
    let id := ids.next (store.profiles.map ProfileRow.id)
    createCoverageRows id setterIds needsArtifact
      { store with
        profiles := store.profiles ++
          [{ id, name, quantizer, options := some options, state := .active, isDefault := false }] }

/-- `UPDATE vector_quant_profiles .. WHERE name = ?`. -/
def updateNamed (name : Text) (change : ProfileRow → ProfileRow) (store : Store) : Store :=
  { store with profiles := updateWhere (fun row => row.name = name) change store.profiles }

def resetPair (needsArtifact : Bool) (pair : CoverageRow) : CoverageRow :=
  { pair with state := .pending, artifact := none, dim := none, nAtArtifact := none, needsArtifact }

def resetPairs (profileId : Int) (needsArtifact : Bool) (store : Store) : Store :=
  { store with
    coverage := updateWhere (fun pair => pair.profileId = profileId) (resetPair needsArtifact) store.coverage }

def setRecipe (quantizer options : Text) (row : ProfileRow) : ProfileRow :=
  { row with quantizer, options := some options, state := .active }

/-- The update shared by a changed recipe and a profile that is wanted again. -/
def resetProfile (setterIds : List Int) (name quantizer options : Text) (needsArtifact : Bool) (store : Store) :
    Except ApiError Store :=
  match store.named name with
  | none => .error writeErr
  | some row =>
      createCoverageRows row.id setterIds needsArtifact
        ((store.updateNamed name (setRecipe quantizer options)).resetPairs row.id needsArtifact)

def setRemoving (row : ProfileRow) : ProfileRow := { row with state := .removing, isDefault := false }

def markRemoving (name : Text) (store : Store) : Store := store.updateNamed name setRemoving

def createCoverage (name : Text) (setterId : Int) (needsArtifact : Bool) (store : Store) : Except ApiError Store :=
  match store.named name with
  | none => .ok store
  | some row => store.insertPair row.id setterId needsArtifact

def applyOp (ids : RowIds) (setterIds : List Int) (store : Store) : MetaOp → Except ApiError Store
  | .createProfile name quantizer options needsArtifact =>
      store.createProfile ids setterIds name quantizer options needsArtifact
  | .updateRecipe name quantizer options needsArtifact =>
      store.resetProfile setterIds name quantizer options needsArtifact
  | .reactivate name quantizer options needsArtifact =>
      store.resetProfile setterIds name quantizer options needsArtifact
  | .markRemoving name => .ok (store.markRemoving name)
  | .dropEmptyProfile name => .ok (store.deleteProfiles fun row => row.name = name)
  -- The flags are written once, after the operations.
  | .setDefaultFlags => .ok store
  | .createCoverage name setterId needsArtifact => store.createCoverage name setterId needsArtifact

def setFlag (defaultName : Option Text) (row : ProfileRow) : ProfileRow :=
  { row with isDefault := row.name = defaultName.getD [] && row.state = .active }

/-- `UPDATE vector_quant_profiles SET is_default = (name = ?) AND state = 'active'`. -/
def setDefaultFlags (defaultName : Option Text) (store : Store) : Store :=
  { store with profiles := updateWhere (fun _ => true) (setFlag defaultName) store.profiles }

def syncMetadata (ids : RowIds) (desired : DesiredState) (store : Store) : Except ApiError (Bool × Store) :=
  let snapshot := loadSnapshot store desired
  let ops := snapshot.planMetadata
  if ops.isEmpty then .ok (false, store)
  else do
    let applied ← ops.foldlM (applyOp ids (snapshot.setters.map EmbeddingSetter.id)) store
    return (true, applied.setDefaultFlags snapshot.desired.defaultName)

end Store

/-- Pairs are added and nothing else happens. -/
structure Grows (before after : Store) : Prop where
  setters : after.setters = before.setters
  vectors : after.vectors = before.vectors
  profiles : after.profiles = before.profiles
  quants : after.quants = before.quants
  pairs : ∀ profileId setterId, (before.pair profileId setterId).isSome = true →
    (after.pair profileId setterId).isSome = true

theorem Grows.refl (store : Store) : Grows store store := ⟨rfl, rfl, rfl, rfl, fun _ _ held => held⟩

theorem Grows.trans {first second third : Store} (former : Grows first second) (latter : Grows second third) :
    Grows first third where
  setters := latter.setters.trans former.setters
  vectors := latter.vectors.trans former.vectors
  profiles := latter.profiles.trans former.profiles
  quants := latter.quants.trans former.quants
  pairs := fun profileId setterId held => latter.pairs _ _ (former.pairs profileId setterId held)

/-- Only rows of the names touched change, and their pairs and codes. -/
structure Keeps (Touched : Text → Prop) (before after : Store) : Prop where
  setters : after.setters = before.setters
  vectors : after.vectors = before.vectors
  named : ∀ name, ¬Touched name → after.named name = before.named name
  pairs : ∀ name row, ¬Touched name → before.named name = some row → ∀ setterId,
    (before.pair row.id setterId).isSome = true → (after.pair row.id setterId).isSome = true
  quants : ∀ name row, ¬Touched name → before.named name = some row →
    after.profileHasQuants row.id = before.profileHasQuants row.id

section Keeping

variable {Touched : Text → Prop} {before after : Store}

theorem Keeps.refl (store : Store) : Keeps Touched store store :=
  ⟨rfl, rfl, fun _ _ => rfl, fun _ _ _ _ _ held => held, fun _ _ _ _ => rfl⟩

theorem Grows.keeps (grows : Grows before after) : Keeps Touched before after where
  setters := grows.setters
  vectors := grows.vectors
  named := fun name _ => by rw [Store.named, grows.profiles, Store.named]
  pairs := fun _ row _ _ setterId held => grows.pairs row.id setterId held
  quants := fun _ row _ _ => by rw [Store.profileHasQuants, grows.quants, Store.profileHasQuants]

theorem Keeps.trans {last : Store} (former : Keeps Touched before after) (latter : Keeps Touched after last) :
    Keeps Touched before last where
  setters := latter.setters.trans former.setters
  vectors := latter.vectors.trans former.vectors
  named := fun name untouched => (latter.named name untouched).trans (former.named name untouched)
  pairs := fun name row untouched isRow setterId held =>
    latter.pairs name row untouched ((former.named name untouched).trans isRow) setterId
      (former.pairs name row untouched isRow setterId held)
  quants := fun name row untouched isRow =>
    (latter.quants name row untouched ((former.named name untouched).trans isRow)).trans
      (former.quants name row untouched isRow)

theorem Keeps.mono {Wider : Text → Prop} (keeps : Keeps Touched before after)
    (wider : ∀ name, Touched name → Wider name) : Keeps Wider before after where
  setters := keeps.setters
  vectors := keeps.vectors
  named := fun name untouched => keeps.named name fun touched => untouched (wider name touched)
  pairs := fun name row untouched => keeps.pairs name row fun touched => untouched (wider name touched)
  quants := fun name row untouched => keeps.quants name row fun touched => untouched (wider name touched)

variable {setterIds : List Int} {profile : DesiredProfile} {row : ProfileRow}

theorem Established.kept (established : Established before setterIds profile row)
    (keeps : Keeps Touched before after) (untouched : ¬Touched profile.name) :
    Established after setterIds profile row where
  named := (keeps.named _ untouched).trans established.named
  recipe := established.recipe
  covers := fun setterId member =>
    keeps.pairs _ _ untouched established.named setterId (established.covers setterId member)

theorem Retiring.kept (retiring : Retiring before row) (keeps : Keeps Touched before after)
    (untouched : ¬Touched row.name) (isRow : before.named row.name = some row) : Retiring after row where
  removing := retiring.removing
  quants := (keeps.quants _ _ untouched isRow).trans retiring.quants

end Keeping

section Adding

variable {store : Store}

theorem insert_pair_grows (sound : store.Sound) {profileId setterId : Int} (needsArtifact : Bool)
    (profile : profileId ∈ store.profiles.map ProfileRow.id) (setter : setterId ∈ store.setters.map SetterRow.id) :
    ∃ after, store.insertPair profileId setterId needsArtifact = .ok after ∧ after.Sound ∧ Grows store after ∧
      (after.pair profileId setterId).isSome = true := by
  rw [Store.insertPair]
  by_cases present : (store.pair profileId setterId).isSome = true
  · rw [if_pos present]
    exact ⟨store, rfl, sound, Grows.refl store, present⟩
  · obtain ⟨profileRow, isProfile, sameProfile⟩ := List.mem_map.mp profile
    obtain ⟨setterRow, isSetter, sameSetter⟩ := List.mem_map.mp setter
    have referred : ((store.profiles.any fun row => row.id = profileId) &&
        store.setters.any fun row => row.id = setterId) = true := by
      rw [Bool.and_eq_true, List.any_eq_true, List.any_eq_true]
      exact ⟨⟨profileRow, isProfile, decide_eq_true sameProfile⟩, setterRow, isSetter, decide_eq_true sameSetter⟩
    rw [if_neg present, if_pos referred]
    refine ⟨_, rfl, ?_, ⟨rfl, rfl, rfl, rfl, ?_⟩, ?_⟩
    · apply sound.add_pair
      · intro held
        obtain ⟨row, member, same⟩ := List.mem_map.mp held
        exact present (Store.pair_isSome.mpr ⟨row, member, same⟩)
      · exact profile
      · exact setter
    · intro otherProfile otherSetter held
      obtain ⟨row, member, same⟩ := Store.pair_isSome.mp held
      exact Store.pair_isSome.mpr ⟨row, List.mem_append_left _ member, same⟩
    · exact Store.pair_isSome.mpr ⟨_, List.mem_append_right _ (List.mem_singleton_self _), rfl⟩

theorem create_coverage_rows_grows {setterIds : List Int} (sound : store.Sound) {profileId : Int}
    (needsArtifact : Bool) (profile : profileId ∈ store.profiles.map ProfileRow.id)
    (setters : setterIds ⊆ store.setters.map SetterRow.id) :
    ∃ after, Store.createCoverageRows profileId setterIds needsArtifact store = .ok after ∧ after.Sound ∧
      Grows store after ∧ ∀ setterId ∈ setterIds, (after.pair profileId setterId).isSome = true := by
  induction setterIds generalizing store with
  | nil => exact ⟨store, rfl, sound, Grows.refl store, nofun⟩
  | cons first rest ih =>
    obtain ⟨next, inserted, nextSound, grown, covered⟩ :=
      insert_pair_grows sound needsArtifact profile (setters List.mem_cons_self)
    have known : rest ⊆ next.setters.map SetterRow.id := by
      rw [grown.setters]
      exact fun setterId member => setters (List.mem_cons_of_mem _ member)
    obtain ⟨after, added, afterSound, more, others⟩ := ih nextSound (by rw [grown.profiles]; exact profile) known
    refine ⟨after, ?_, afterSound, grown.trans more, ?_⟩
    · rw [Store.createCoverageRows, List.foldlM_cons, inserted]
      exact added
    · intro setterId member
      rcases List.mem_cons.mp member with rfl | later
      · exact more.pairs _ _ covered
      · exact others setterId later

end Adding

section Steps

variable {store : Store} {setterIds : List Int}

theorem named_update_named {change : ProfileRow → ProfileRow} (sameName : ∀ row, (change row).name = row.name)
    (touched name : Text) : (store.updateNamed touched change).named name =
      if name = touched then (store.named name).map change else store.named name := by
  have updated : (store.updateNamed touched change).named name =
      (store.named name).map fun row => if decide (row.name = touched) then change row else row :=
    row_with_update sameName
  rw [updated]
  cases found : store.named name with
  | none =>
    rw [Option.map_none, Option.map_none, ite_self]
  | some row =>
    have same : row.name = name := (mem_of_row_with found).2
    rw [Option.map_some, Option.map_some, same]
    by_cases isTouched : name = touched
    · rw [if_pos (decide_eq_true isTouched), if_pos isTouched]
    · rw [if_neg (by rw [decide_eq_false isTouched]; exact Bool.false_ne_true), if_neg isTouched]

theorem update_named_keeps {change : ProfileRow → ProfileRow} (sameName : ∀ row, (change row).name = row.name)
    (touched : Text) : Keeps (fun name => name = touched) store (store.updateNamed touched change) := by
  refine ⟨rfl, rfl, ?_, fun _ _ _ _ _ held => held, fun _ _ _ _ => rfl⟩
  intro name other
  rw [named_update_named sameName, if_neg other]

theorem reset_pairs_keeps (Touched : Text → Prop) (profileId : Int) (needsArtifact : Bool) :
    Keeps Touched store (store.resetPairs profileId needsArtifact) := by
  refine ⟨rfl, rfl, fun _ _ => rfl, ?_, fun _ _ _ _ => rfl⟩
  intro name row _ _ setterId held
  have updated : (store.resetPairs profileId needsArtifact).pair row.id setterId =
      (store.pair row.id setterId).map fun pair =>
        if decide (pair.profileId = profileId) then Store.resetPair needsArtifact pair else pair :=
    row_with_update fun _ => rfl
  rw [updated, Option.isSome_map]
  exact held

theorem create_profile_establishes (sound : store.Sound) (ids : RowIds)
    (known : setterIds ⊆ store.setters.map SetterRow.id) {profile : DesiredProfile} (needsArtifact : Bool)
    (absent : store.named profile.name = none) :
    ∃ after, store.createProfile ids setterIds profile.name profile.quantizer profile.optionsJson needsArtifact =
        .ok after ∧ after.Sound ∧ Keeps (fun name => name = profile.name) store after ∧
      ∃ row, Established after setterIds profile row := by
  have unnamed : ¬(store.named profile.name).isSome = true := by
    rw [absent]
    exact Bool.false_ne_true
  rw [Store.createProfile, if_neg unnamed]
  let row : ProfileRow :=
    { id := ids.next (store.profiles.map ProfileRow.id), name := profile.name, quantizer := profile.quantizer,
      options := some profile.optionsJson, state := .active, isDefault := false }
  have createdSound : Store.Sound { store with profiles := store.profiles ++ [row] } :=
    sound.add_profile ids rfl (row_with_eq_none.mp absent)
  have present : row.id ∈ (store.profiles ++ [row]).map ProfileRow.id :=
    List.mem_map_of_mem (List.mem_append_right _ (List.mem_singleton_self _))
  obtain ⟨after, added, afterSound, grown, covered⟩ :=
    create_coverage_rows_grows createdSound needsArtifact present known
  have created : Keeps (fun name => name = profile.name) store { store with profiles := store.profiles ++ [row] } := by
    refine ⟨rfl, rfl, ?_, fun _ _ _ _ _ held => held, fun _ _ _ _ => rfl⟩
    intro name other
    change rowWith _ _ _ = _
    rw [row_with_append, if_neg (Ne.symm other), Option.or_none]
    rfl
  refine ⟨after, added, afterSound, created.trans grown.keeps, row, ?_, ⟨rfl, rfl, rfl⟩, covered⟩
  rw [Store.named, grown.profiles]
  have before : rowWith ProfileRow.name profile.name store.profiles = none := absent
  rw [row_with_append, before, if_pos rfl]
  rfl

theorem reset_profile_establishes (sound : store.Sound) (known : setterIds ⊆ store.setters.map SetterRow.id)
    {profile : DesiredProfile} (needsArtifact : Bool) {row : ProfileRow}
    (isRow : store.named profile.name = some row) :
    ∃ after, store.resetProfile setterIds profile.name profile.quantizer profile.optionsJson needsArtifact =
        .ok after ∧ after.Sound ∧ Keeps (fun name => name = profile.name) store after ∧
      ∃ row, Established after setterIds profile row := by
  unfold Store.resetProfile
  rw [isRow]
  dsimp only
  let change := Store.setRecipe profile.quantizer profile.optionsJson
  let updated := store.updateNamed profile.name change
  have updatedSound : updated.Sound := sound.update_profiles _ change (fun _ => rfl) fun _ => rfl
  have resetSound : (updated.resetPairs row.id needsArtifact).Sound := updatedSound.update_pairs _ _ fun _ => rfl
  have sameName : ∀ row, (change row).name = row.name := fun _ => rfl
  have found : updated.named profile.name = some (change row) := by
    rw [named_update_named sameName, if_pos rfl, isRow]
    rfl
  have member : change row ∈ updated.profiles := (updatedSound.named_iff.mp found).1
  have present : row.id ∈ (updated.resetPairs row.id needsArtifact).profiles.map ProfileRow.id :=
    List.mem_map.mpr ⟨change row, member, rfl⟩
  obtain ⟨after, added, afterSound, grown, covered⟩ :=
    create_coverage_rows_grows resetSound needsArtifact present known
  have keeps : Keeps (fun name => name = profile.name) store after :=
    ((update_named_keeps sameName profile.name).trans (reset_pairs_keeps _ row.id needsArtifact)).trans
      grown.keeps
  refine ⟨after, added, afterSound, keeps, change row, ?_, ⟨rfl, rfl, rfl⟩, covered⟩
  rw [Store.named, grown.profiles]
  exact found

theorem mark_removing_keeps (name : Text) : Keeps (fun other => other = name) store (store.markRemoving name) :=
  update_named_keeps (fun row => show (Store.setRemoving row).name = row.name from rfl) name

theorem mark_removing_retires {row : ProfileRow} (isRow : store.named row.name = some row)
    (quants : store.profileHasQuants row.id = true) {left : ProfileRow}
    (isLeft : (store.markRemoving row.name).named row.name = some left) :
    Retiring (store.markRemoving row.name) left := by
  have sameName : ∀ row, (Store.setRemoving row).name = row.name := fun _ => rfl
  rw [Store.markRemoving, named_update_named sameName, if_pos rfl, isRow, Option.map_some, Option.some.injEq]
    at isLeft
  rw [← isLeft]
  exact ⟨rfl, quants⟩

theorem drop_keeps (sound : store.Sound) (name : Text) :
    Keeps (fun other => other = name) store (store.deleteProfiles fun row => row.name = name) := by
  have stays : ∀ other row, ¬other = name → store.named other = some row →
      store.goesWith (fun row => row.name = name) row.id = false := by
    intro other row isOther isRow
    obtain ⟨member, same⟩ := sound.named_iff.mp isRow
    rw [Store.goesWith, List.any_eq_false]
    intro gone isGone chosen
    rw [Bool.and_eq_true, decide_eq_true_iff, decide_eq_true_iff] at chosen
    have alike := sound.id_injective isGone member chosen.2
    rw [alike, same] at chosen
    exact isOther chosen.1
  refine ⟨rfl, rfl, ?_, ?_, ?_⟩
  · intro other isOther
    have filtered : (store.deleteProfiles fun row => row.name = name).named other =
        (store.named other).filter fun row => !decide (row.name = name) :=
      row_with_filter sound.profileNames _
    rw [filtered]
    cases found : store.named other with
    | none => rfl
    | some row =>
      rw [Option.filter_some, (mem_of_row_with found).2, decide_eq_false isOther]
      rfl
  · intro other row isOther isRow setterId held
    obtain ⟨pair, member, same⟩ := Store.pair_isSome.mp held
    refine Store.pair_isSome.mpr ⟨pair, List.mem_filter.mpr ⟨member, ?_⟩, same⟩
    have sameProfile : pair.profileId = row.id := congrArg Prod.fst same
    rw [sameProfile, stays other row isOther isRow]
    rfl
  · intro other row isOther isRow
    rw [Bool.eq_iff_iff, Store.has_quants_iff, Store.has_quants_iff]
    apply exists_congr
    intro quant
    apply and_congr_left
    intro sameProfile
    change quant ∈ store.quants.filter _ ↔ _
    rw [List.mem_filter, sameProfile, stays other row isOther isRow]
    exact and_iff_left rfl

theorem drop_drops (sound : store.Sound) (name : Text) :
    (store.deleteProfiles fun row => row.name = name).named name = none := by
  have filtered : (store.deleteProfiles fun row => row.name = name).named name =
      (store.named name).filter fun row => !decide (row.name = name) :=
    row_with_filter sound.profileNames _
  rw [filtered]
  cases found : store.named name with
  | none => rfl
  | some row =>
    rw [Option.filter_some, (mem_of_row_with found).2, decide_eq_true rfl]
    rfl

end Steps

section Phases

variable (ids : RowIds) {setterIds : List Int}

variable {store : Store}

/-- Items of distinct names have at most one operation each. An operation finds its
item as the plan saw it, and what it has done stays done. -/
theorem phase {Item : Type} {name : Item → Text} {op : Item → Option MetaOp} (Planned Done : Item → Store → Prop)
    {items : List Item} (distinct : (items.map name).Nodup)
    (step : ∀ item ∈ items, ∀ made, op item = some made → ∀ store : Store, store.Sound →
      setterIds ⊆ store.setters.map SetterRow.id → Planned item store →
      ∃ after, store.applyOp ids setterIds made = .ok after ∧ after.Sound ∧
        Keeps (fun other => other = name item) store after ∧ Done item after)
    (kept : ∀ item ∈ items, ∀ Touched before after, Keeps Touched before after → ¬Touched (name item) →
      (Planned item before → Planned item after) ∧ (Done item before → Done item after)) (sound : store.Sound)
      (known : setterIds ⊆ store.setters.map SetterRow.id)
    (planned : ∀ item ∈ items, Planned item store) :
    ∃ after, (items.filterMap op).foldlM (Store.applyOp ids setterIds) store = .ok after ∧ after.Sound ∧
      Keeps (fun other => ∃ item ∈ items, name item = other ∧ (op item).isSome = true) store after ∧
      ∀ item ∈ items, (op item).isSome = true → Done item after := by
  induction items generalizing store with
  | nil => exact ⟨store, rfl, sound, Keeps.refl store, nofun⟩
  | cons first rest ih =>
    rw [List.map_cons, List.nodup_cons] at distinct
    have others : ∀ item ∈ rest, ¬name item = name first := by
      intro item member same
      rw [← same] at distinct
      exact distinct.1 (List.mem_map_of_mem member)
    have stepRest := fun item (member : item ∈ rest) => step item (List.mem_cons_of_mem _ member)
    have keptRest := fun item (member : item ∈ rest) => kept item (List.mem_cons_of_mem _ member)
    have wider : ∀ other, (∃ item ∈ rest, name item = other ∧ (op item).isSome = true) →
        ∃ item ∈ first :: rest, name item = other ∧ (op item).isSome = true := by
      intro other ⟨item, member, touched⟩
      exact ⟨item, List.mem_cons_of_mem _ member, touched⟩
    cases made : op first with
    | none =>
      obtain ⟨after, folded, afterSound, keeps, done⟩ := ih distinct.2 stepRest keptRest sound known
        fun item member => planned item (List.mem_cons_of_mem _ member)
      rw [List.filterMap_cons, made]
      refine ⟨after, folded, afterSound, keeps.mono wider, ?_⟩
      intro item member isMade
      rcases List.mem_cons.mp member with rfl | later
      · rw [made] at isMade
        cases isMade
      · exact done item later isMade
    | some operation =>
      obtain ⟨next, applied, nextSound, keepsFirst, doneFirst⟩ := step first List.mem_cons_self operation made
        store sound known (planned first List.mem_cons_self)
      have knownNext : setterIds ⊆ next.setters.map SetterRow.id := by
        rw [keepsFirst.setters]
        exact known
      obtain ⟨after, folded, afterSound, keeps, done⟩ := ih distinct.2 stepRest keptRest nextSound knownNext
        fun item member => (keptRest item member _ _ _ keepsFirst (others item member)).1
          (planned item (List.mem_cons_of_mem _ member))
      rw [List.filterMap_cons, made]
      refine ⟨after, ?_, afterSound, ?_, ?_⟩
      · rw [List.foldlM_cons, applied]
        exact folded
      · apply Keeps.trans _ (keeps.mono wider)
        apply keepsFirst.mono
        intro other same
        exact ⟨first, List.mem_cons_self, same.symm, by rw [made]; rfl⟩
      · intro item member isMade
        rcases List.mem_cons.mp member with rfl | later
        · refine (kept item List.mem_cons_self _ _ _ keeps ?_).2 doneFirst
          intro ⟨other, isOther, same, _⟩
          exact others other isOther same
        · exact done item later isMade

variable {start : Store} {desired : DesiredState}

theorem profiles_phase (startSound : start.Sound) (valid : desired.Valid)
    (known : setterIds ⊆ start.setters.map SetterRow.id) :
    ∃ after, (desired.profiles.filterMap (loadSnapshot start desired).profileOp).foldlM
        (Store.applyOp ids setterIds) start = .ok after ∧ after.Sound ∧
      Keeps (fun other => ∃ profile ∈ desired.profiles, profile.name = other ∧
        ((loadSnapshot start desired).profileOp profile).isSome = true) start after ∧
      ∀ profile ∈ desired.profiles, ((loadSnapshot start desired).profileOp profile).isSome = true →
        ∃ row, Established after setterIds profile row := by
  apply phase ids (fun profile store => store.named profile.name = start.named profile.name)
    (fun profile store => ∃ row, Established store setterIds profile row) valid.distinct
  · intro profile _ operation made store sound knownHere planned
    unfold StateSnapshot.profileOp at made
    rw [StateSnapshot.by_name_eq startSound, ← planned] at made
    cases found : store.named profile.name with
    | none =>
      rw [found] at made
      cases made
      exact create_profile_establishes sound ids knownHere _ found
    | some row =>
      rw [found] at made
      dsimp only at made
      split at made
      · cases made
        exact reset_profile_establishes sound knownHere _ found
      split at made
      · cases made
        exact reset_profile_establishes sound knownHere _ found
      · cases made
  · intro profile _ Touched before after keeps untouched
    constructor
    · intro planned
      exact (keeps.named _ untouched).trans planned
    · intro ⟨row, established⟩
      exact ⟨row, established.kept keeps untouched⟩
  · exact startSound
  · exact known
  · intro profile _
    rfl

/-- The row is there as the plan saw it. -/
structure AsPlanned (start : Store) (row : ProfileRow) (store : Store) : Prop where
  named : store.named row.name = some row
  quants : store.profileHasQuants row.id = start.profileHasQuants row.id

theorem retire_op_cases {row : ProfileRow} {operation : MetaOp} (member : row ∈ start.profiles)
    (made : (loadSnapshot start desired).retireOp row = some operation) : row.name ∉ desired.names ∧
      (operation = .dropEmptyProfile row.name ∨
        operation = .markRemoving row.name ∧ start.profileHasQuants row.id = true) := by
  rw [StateSnapshot.retireOp, StateSnapshot.has_quants_eq member] at made
  split at made
  · cases made
  rename_i unwanted
  refine ⟨fun wanted => unwanted (StateSnapshot.desires_iff.mpr wanted), ?_⟩
  split at made
  · cases made
    exact Or.inl rfl
  rename_i present
  rw [Bool.not_eq_true', Bool.not_eq_false] at present
  split at made
  · cases made
    exact Or.inr ⟨rfl, present⟩
  · cases made

theorem retire_phase (startSound : start.Sound) (sound : store.Sound)
    (known : setterIds ⊆ store.setters.map SetterRow.id)
    (planned : ∀ row ∈ start.profiles, ((loadSnapshot start desired).retireOp row).isSome = true →
      AsPlanned start row store) :
    ∃ after, ((loadSnapshot start desired).profiles.filterMap (loadSnapshot start desired).retireOp).foldlM
        (Store.applyOp ids setterIds) store = .ok after ∧ after.Sound ∧
      Keeps (fun other => ∃ row ∈ (loadSnapshot start desired).profiles, row.name = other ∧
        ((loadSnapshot start desired).retireOp row).isSome = true) store after ∧
      ∀ row ∈ (loadSnapshot start desired).profiles, ((loadSnapshot start desired).retireOp row).isSome = true →
        ∀ left, after.named row.name = some left → Retiring after left := by
  have names : ((loadSnapshot start desired).profiles.map ProfileRow.name).Nodup :=
    ((sort_perm ProfileRow.id start.profiles).map ProfileRow.name).nodup_iff.mpr startSound.profileNames
  apply phase ids
    (fun row store => ((loadSnapshot start desired).retireOp row).isSome = true → AsPlanned start row store)
    (fun row store => ∀ left, store.named row.name = some left → Retiring store left) names
  · intro row member operation made store sound _ planned
    have isMade : ((loadSnapshot start desired).retireOp row).isSome = true := by
      rw [made]
      rfl
    have here := planned isMade
    rcases (retire_op_cases (StateSnapshot.mem_profiles.mp member) made).2 with rfl | ⟨rfl, present⟩
    · refine ⟨_, rfl, sound.delete_profiles _, drop_keeps sound row.name, ?_⟩
      intro left isLeft
      rw [drop_drops sound] at isLeft
      cases isLeft
    · refine ⟨_, rfl, sound.update_profiles _ _ (fun _ => rfl) fun _ => rfl, mark_removing_keeps row.name, ?_⟩
      intro left isLeft
      exact mark_removing_retires here.named (here.quants.trans present) isLeft
  · intro row _ Touched before after keeps untouched
    constructor
    · intro planned isMade
      have here := planned isMade
      exact ⟨(keeps.named _ untouched).trans here.named, (keeps.quants _ _ untouched here.named).trans here.quants⟩
    · intro done left isLeft
      have isBefore : before.named row.name = some left := (keeps.named _ untouched).symm.trans isLeft
      have same : left.name = row.name := (mem_of_row_with isBefore).2
      rw [← same] at untouched isBefore done
      exact (done left isBefore).kept keeps untouched isBefore
  · exact sound
  · exact known
  · intro row member isMade
    exact planned row (StateSnapshot.mem_profiles.mp member) isMade

theorem coverage_phase {ops : List MetaOp} (sound : store.Sound)
    (shaped : ∀ op ∈ ops, ∃ name setterId needsArtifact, op = .createCoverage name setterId needsArtifact ∧
      setterId ∈ store.setters.map SetterRow.id) :
    ∃ after, ops.foldlM (Store.applyOp ids setterIds) store = .ok after ∧ after.Sound ∧ Grows store after ∧
      ∀ name setterId needsArtifact, .createCoverage name setterId needsArtifact ∈ ops →
        ∀ row, store.named name = some row → (after.pair row.id setterId).isSome = true := by
  induction ops generalizing store with
  | nil => exact ⟨store, rfl, sound, Grows.refl store, nofun⟩
  | cons first rest ih =>
    obtain ⟨name, setterId, needsArtifact, rfl, setter⟩ := shaped first List.mem_cons_self
    have inserted : ∃ next, store.applyOp ids setterIds (.createCoverage name setterId needsArtifact) = .ok next ∧
        next.Sound ∧ Grows store next ∧
        ∀ row, store.named name = some row → (next.pair row.id setterId).isSome = true := by
      rw [Store.applyOp]
      unfold Store.createCoverage
      cases found : store.named name with
      | none =>
        refine ⟨store, rfl, sound, Grows.refl store, ?_⟩
        intro row isRow
        cases isRow
      | some row =>
        obtain ⟨next, isNext, nextSound, grown, covered⟩ := insert_pair_grows sound needsArtifact
          (List.mem_map_of_mem (sound.named_iff.mp found).1) setter
        refine ⟨next, isNext, nextSound, grown, ?_⟩
        intro other isOther
        cases isOther
        exact covered
    obtain ⟨next, applied, nextSound, grown, covered⟩ := inserted
    obtain ⟨after, folded, afterSound, more, others⟩ := ih nextSound (by
      rw [grown.setters]
      exact fun op member => shaped op (List.mem_cons_of_mem _ member))
    refine ⟨after, ?_, afterSound, grown.trans more, ?_⟩
    · rw [List.foldlM_cons, applied]
      exact folded
    · intro otherName otherSetter otherNeeds member row isRow
      rcases List.mem_cons.mp member with same | later
      · cases same
        exact more.pairs _ _ (covered row isRow)
      · apply others otherName otherSetter otherNeeds later row
        rw [Store.named, grown.profiles]
        exact isRow

end Phases

section Whole

variable {store : Store} {desired : DesiredState}

theorem embedding_setters_eq {other : Store} (setters : other.setters = store.setters)
    (vectors : other.vectors = store.vectors) : other.loadEmbeddingSetters = store.loadEmbeddingSetters := by
  have same : other.embeddingSetter = store.embeddingSetter := by
    funext setter
    rw [Store.embeddingSetter, Store.embeddingSetter, Store.vectorsOf, vectors, Store.vectorsOf]
  rw [Store.loadEmbeddingSetters, setters, same, Store.loadEmbeddingSetters]

theorem embedding_ids_known : store.embeddingIds ⊆ store.setters.map SetterRow.id := by
  intro setterId member
  obtain ⟨setter, isSetter, rfl⟩ := List.mem_map.mp member
  obtain ⟨row, isRow, made⟩ := List.mem_filterMap.mp isSetter
  obtain ⟨dataType, _, found⟩ := List.exists_of_findSome?_eq_some made
  obtain ⟨vector, _, rfl⟩ := Option.map_eq_some_iff.mp found
  exact List.mem_map_of_mem ((sort_perm SetterRow.id store.setters).mem_iff.mp isRow)

theorem operations_agree (ids : RowIds) (sound : store.Sound) (valid : desired.Valid) :
    ∃ after, (loadSnapshot store desired).planMetadata.foldlM
        (Store.applyOp ids ((loadSnapshot store desired).setters.map EmbeddingSetter.id)) store = .ok after ∧
      after.Sound ∧ after.setters = store.setters ∧ after.vectors = store.vectors ∧
      (∀ profile ∈ desired.profiles, ∃ row, Established after store.embeddingIds profile row) ∧
      ∀ row ∈ after.profiles, row.name ∉ desired.names → Retiring after row := by
  have knownStart : store.embeddingIds ⊆ store.setters.map SetterRow.id := embedding_ids_known
  obtain ⟨made, makes, madeSound, madeKeeps, isMade⟩ := profiles_phase ids sound valid knownStart
  have unwanted : ∀ name ∉ desired.names, ¬∃ profile ∈ desired.profiles, profile.name = name ∧
      ((loadSnapshot store desired).profileOp profile).isSome = true := by
    intro name isUnwanted ⟨profile, member, same, _⟩
    rw [← same] at isUnwanted
    exact isUnwanted (List.mem_map_of_mem member)
  have wanted : ∀ name ∈ desired.names, ¬∃ row ∈ (loadSnapshot store desired).profiles, row.name = name ∧
      ((loadSnapshot store desired).retireOp row).isSome = true := by
    intro name isWanted ⟨row, member, same, isRetired⟩
    obtain ⟨operation, isOperation⟩ := Option.isSome_iff_exists.mp isRetired
    apply (retire_op_cases (StateSnapshot.mem_profiles.mp member) isOperation).1
    rw [same]
    exact isWanted
  have knownMade : store.embeddingIds ⊆ made.setters.map SetterRow.id := by
    rw [madeKeeps.setters]
    exact knownStart
  obtain ⟨left, leaves, leftSound, leftKeeps, isLeft⟩ := retire_phase ids sound madeSound knownMade (by
    intro row member isRetired
    obtain ⟨operation, isOperation⟩ := Option.isSome_iff_exists.mp isRetired
    have untouched := unwanted row.name (retire_op_cases member isOperation).1
    have isRow := sound.named_iff.mpr ⟨member, rfl⟩
    exact ⟨(madeKeeps.named _ untouched).trans isRow, madeKeeps.quants _ _ untouched isRow⟩)
  have knownLeft : store.embeddingIds ⊆ left.setters.map SetterRow.id := by
    rw [leftKeeps.setters]
    exact knownMade
  have shaped : ∀ op ∈ desired.profiles.flatMap (loadSnapshot store desired).coverageOps, ∃ name setterId
      needsArtifact, op = .createCoverage name setterId needsArtifact ∧
        setterId ∈ left.setters.map SetterRow.id := by
    intro op member
    obtain ⟨profile, _, isOp⟩ := List.mem_flatMap.mp member
    obtain ⟨setter, isSetter, isMade⟩ := List.mem_filterMap.mp isOp
    split at isMade
    · cases isMade
      exact ⟨_, _, _, rfl, knownLeft (List.mem_map_of_mem isSetter)⟩
    · cases isMade
  obtain ⟨after, covers, afterSound, grown, covered⟩ := coverage_phase ids leftSound shaped
  have stays : Keeps (fun _ => False) left after := grown.keeps
  refine ⟨after, ?_, afterSound, (grown.setters.trans leftKeeps.setters).trans madeKeeps.setters,
    (grown.vectors.trans leftKeeps.vectors).trans madeKeeps.vectors, ?_, ?_⟩
  · have flagged : (if (loadSnapshot store desired).flagsWrong then [MetaOp.setDefaultFlags] else []).foldlM
        (Store.applyOp ids store.embeddingIds) left = .ok left := by
      split
      · rfl
      · rfl
    exact foldlM_append_ok (foldlM_append_ok (foldlM_append_ok makes leaves) flagged) covers
  · intro profile member
    have isName : profile.name ∈ desired.names := List.mem_map_of_mem member
    cases operation : (loadSnapshot store desired).profileOp profile with
    | some op =>
      obtain ⟨row, established⟩ := isMade profile member (by rw [operation]; rfl)
      exact ⟨row, (established.kept leftKeeps (wanted _ isName)).kept stays not_false⟩
    | none =>
      obtain ⟨row, isRow, recipe⟩ := (StateSnapshot.profile_op_none sound).mp operation
      have untouched : ¬∃ other ∈ desired.profiles, other.name = profile.name ∧
          ((loadSnapshot store desired).profileOp other).isSome = true := by
        intro ⟨other, isOther, same, isSome⟩
        rw [List.inj_on_of_nodup_map valid.distinct isOther member same, operation] at isSome
        cases isSome
      have isMadeRow := (madeKeeps.named _ untouched).trans isRow
      have isLeftRow := (leftKeeps.named _ (wanted _ isName)).trans isMadeRow
      refine ⟨row, (stays.named _ not_false).trans isLeftRow, recipe, ?_⟩
      intro setterId isSetter
      by_cases present : (store.pair row.id setterId).isSome = true
      · have inMade := madeKeeps.pairs _ _ untouched isRow setterId present
        exact grown.pairs _ _ (leftKeeps.pairs _ _ (wanted _ isName) isMadeRow setterId inMade)
      · apply covered profile.name setterId profile.needsArtifact _ row isLeftRow
        obtain ⟨setter, isSetterRow, rfl⟩ := List.mem_map.mp isSetter
        refine List.mem_flatMap.mpr ⟨profile, member, List.mem_filterMap.mpr ⟨setter, isSetterRow, ?_⟩⟩
        have active : decide (row.state ≠ ProfileState.removing) = true := by
          rw [recipe.active]
          rfl
        rw [StateSnapshot.by_name_eq sound, isRow, Option.filter_some, if_pos active, Option.map_some,
          Option.any_some, StateSnapshot.covered_eq, if_pos]
        rw [Bool.not_eq_true', ← Bool.not_eq_true]
        exact present
  · intro row member isUnwanted
    rw [grown.profiles] at member
    have isRow := leftSound.named_iff.mpr ⟨member, rfl⟩
    have retiring : Retiring left row := by
      by_cases touched : ∃ old ∈ (loadSnapshot store desired).profiles, old.name = row.name ∧
          ((loadSnapshot store desired).retireOp old).isSome = true
      · obtain ⟨old, isOld, same, isRetired⟩ := touched
        apply isLeft old isOld isRetired row
        rw [same]
        exact isRow
      · have inMade := (leftKeeps.named _ touched).symm.trans isRow
        have inStore := (madeKeeps.named _ (unwanted _ isUnwanted)).symm.trans inMade
        have isStart := (sound.named_iff.mp inStore).1
        have noOp : (loadSnapshot store desired).retireOp row = none := by
          cases operation : (loadSnapshot store desired).retireOp row with
          | none => rfl
          | some op =>
            refine absurd ⟨row, StateSnapshot.mem_profiles.mpr isStart, rfl, ?_⟩ touched
            rw [operation]
            rfl
        have before := (StateSnapshot.retire_op_none isStart).mp noOp isUnwanted
        exact (before.kept madeKeeps (unwanted _ isUnwanted) inStore).kept leftKeeps touched inMade
    exact retiring.kept stays not_false isRow

/-- The flags end up where the default is: its row is active, and where there is no
default no row is. -/
theorem default_flags_agree (sound : store.Sound) (valid : desired.Valid)
    (established : ∀ profile ∈ desired.profiles, ∃ row, Established store store.embeddingIds profile row)
    (retiring : ∀ row ∈ store.profiles, row.name ∉ desired.names → Retiring store row) :
    InSync (store.setDefaultFlags desired.defaultName) desired := by
  let flag := Store.setFlag desired.defaultName
  have sameName : ∀ row, (flag row).name = row.name := fun _ => rfl
  have named : ∀ name, (store.setDefaultFlags desired.defaultName).named name = (store.named name).map flag := by
    intro name
    exact row_with_update sameName
  have rows : ∀ row ∈ (store.setDefaultFlags desired.defaultName).profiles, ∃ old ∈ store.profiles, row = flag old :=
    fun row member => mem_update.mp member
  refine ⟨?_, ?_, ?_⟩
  · intro profile member
    obtain ⟨row, isRow, recipe, covers⟩ := established profile member
    refine ⟨flag row, ?_, ⟨recipe.active, recipe.quantizer, recipe.options⟩, covers⟩
    rw [named, isRow]
    rfl
  · intro row member isUnwanted
    obtain ⟨old, isOld, rfl⟩ := rows row member
    have leaving := retiring old isOld isUnwanted
    exact ⟨leaving.removing, leaving.quants⟩
  · intro row member
    obtain ⟨old, isOld, rfl⟩ := rows row member
    have isRow : store.named old.name = some old := sound.named_iff.mpr ⟨isOld, rfl⟩
    by_cases isWanted : old.name ∈ desired.names
    · obtain ⟨profile, isProfile, same⟩ := List.mem_map.mp isWanted
      obtain ⟨other, isOther, recipe, _⟩ := established profile isProfile
      rw [same, isRow] at isOther
      cases isOther
      have hasDefault := valid.default_set (List.ne_nil_of_mem isProfile)
      cases isDefault : desired.defaultName with
      | none => exact absurd isDefault hasDefault
      | some default =>
        change (decide (old.name = desired.defaultName.getD []) && decide (old.state = .active)) = _
        rw [isDefault, recipe.active, decide_eq_true rfl, Bool.and_true, Option.getD_some]
        apply decide_eq_decide.mpr
        rw [Option.some.injEq]
        exact eq_comm
    · have leaving := (retiring old isOld isWanted).removing
      change (decide (old.name = desired.defaultName.getD []) && decide (old.state = .active)) = _
      have notActive : decide (old.state = ProfileState.active) = false := by
        rw [leaving]
        rfl
      rw [notActive, Bool.and_false]
      symm
      apply decide_eq_false
      intro isDefault
      exact isWanted (valid.default_named _ isDefault)

/-- The sync succeeds, leaves tables that agree with the desired state, and says so when
it had nothing to do. -/
theorem sync_metadata_agrees (ids : RowIds) (sound : store.Sound) (valid : desired.Valid) :
    ∃ changed after, store.syncMetadata ids desired = .ok (changed, after) ∧ after.Sound ∧ InSync after desired ∧
      after.setters = store.setters ∧ after.vectors = store.vectors ∧
      (InSync store desired → changed = false ∧ after = store) := by
  rw [Store.syncMetadata]
  by_cases nothing : (loadSnapshot store desired).planMetadata = []
  · rw [if_pos (List.isEmpty_iff.mpr nothing)]
    exact ⟨false, store, rfl, sound, (plan_metadata_nil sound valid).mp nothing, rfl, rfl, fun _ => ⟨rfl, rfl⟩⟩
  · obtain ⟨after, applied, afterSound, setters, vectors, established, retiring⟩ :=
      operations_agree ids sound valid
    rw [if_neg fun empty => nothing (List.isEmpty_iff.mp empty), applied]
    have sameIds : store.embeddingIds = after.embeddingIds := by
      rw [Store.embeddingIds, Store.embeddingIds, embedding_setters_eq setters vectors]
    rw [sameIds] at established
    refine ⟨true, _, rfl, afterSound.update_profiles _ _ (fun _ => rfl) fun _ => rfl,
      default_flags_agree afterSound valid established retiring, setters, vectors, ?_⟩
    intro agrees
    exact absurd ((plan_metadata_nil sound valid).mpr agrees) nothing

theorem sync_unchanged {ids : RowIds} {after : Store} (syncs : store.syncMetadata ids desired = .ok (false, after)) :
    after = store := by
  rw [Store.syncMetadata] at syncs
  split at syncs
  · cases syncs
    rfl
  · obtain ⟨applied, _, same⟩ := bind_ok syncs
    cases same

end Whole

end Panoptikon.VectorQuants
