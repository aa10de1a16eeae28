import Panoptikon.VectorQuants.Planning

/-!
# When the metadata agrees

What an empty metadata plan says of the tables: every desired profile has its row
and a pair for each setter, the rows of other profiles wait for their codes to be
deleted, and the default is flagged.
-/

namespace Panoptikon.VectorQuants

open Foundation Foundation.KeyedSort

theorem lookup_tabulated {Value : Type} (value : Int → Value) (ids : List Int) {wanted : Int}
    (member : wanted ∈ ids) : (ids.map fun id => (id, value id)).lookup wanted = some (value wanted) := by
  induction ids with
  | nil => cases member
  | cons first rest ih =>
    rw [List.map_cons, List.lookup_cons]
    by_cases same : wanted = first
    · rw [same, beq_self_eq_true]
    · rw [beq_false_of_ne same]
      exact ih ((List.mem_cons.mp member).resolve_left same)

variable {store : Store} {desired : DesiredState}

theorem Store.pair_isSome {profileId setterId : Int} :
    (store.pair profileId setterId).isSome = true ↔ ∃ row ∈ store.coverage, row.key = (profileId, setterId) := by
  rw [Store.pair, ← Option.ne_none_iff_isSome, ne_eq, row_with_eq_none, not_not, List.mem_map]

theorem Store.has_quants_iff {profileId : Int} :
    store.profileHasQuants profileId = true ↔ ∃ row ∈ store.quants, row.profileId = profileId := by
  rw [Store.profileHasQuants, List.any_eq_true]
  apply exists_congr
  intro row
  rw [decide_eq_true_iff]

namespace StateSnapshot

theorem desires_iff {name : Text} : (loadSnapshot store desired).desires name = true ↔ name ∈ desired.names := by
  rw [desires, List.any_eq_true, DesiredState.names, List.mem_map]
  apply exists_congr
  intro profile
  rw [decide_eq_true_iff]
  rfl

theorem by_name_eq (sound : store.Sound) (name : Text) :
    (loadSnapshot store desired).byName name = store.named name :=
  row_with_perm sound.profileNames (sort_perm ProfileRow.id store.profiles)

theorem mem_profiles {row : ProfileRow} : row ∈ (loadSnapshot store desired).profiles ↔ row ∈ store.profiles :=
  (sort_perm ProfileRow.id store.profiles).mem_iff

theorem has_quants_eq {row : ProfileRow} (member : row ∈ store.profiles) :
    (loadSnapshot store desired).hasQuants row = store.profileHasQuants row.id := by
  have listed : row.id ∈ (loadSnapshot store desired).profiles.map ProfileRow.id :=
    List.mem_map_of_mem (mem_profiles.mpr member)
  exact congrArg (fun answer => answer.getD false) (lookup_tabulated store.profileHasQuants _ listed)

theorem covered_eq (profileId setterId : Int) :
    (loadSnapshot store desired).covered profileId setterId = (store.pair profileId setterId).isSome := by
  rw [Bool.eq_iff_iff, Store.pair_isSome, covered, List.any_eq_true]
  apply exists_congr
  intro row
  rw [decide_eq_true_iff]
  rfl

end StateSnapshot

/-- The row is active and has the recipe of the desired profile. -/
structure Matches (row : ProfileRow) (profile : DesiredProfile) : Prop where
  active : row.state = .active
  quantizer : row.quantizer = profile.quantizer
  options : row.options = some profile.optionsJson

/-- The profile has its row, with a pair for each setter. -/
structure Established (store : Store) (setterIds : List Int) (profile : DesiredProfile) (row : ProfileRow) : Prop where
  named : store.named profile.name = some row
  recipe : Matches row profile
  covers : ∀ setterId ∈ setterIds, (store.pair row.id setterId).isSome = true

def Store.embeddingIds (store : Store) : List Int := store.loadEmbeddingSetters.map EmbeddingSetter.id

/-- What is left of a profile that nobody wants: its codes. -/
structure Retiring (store : Store) (row : ProfileRow) : Prop where
  removing : row.state = .removing
  quants : store.profileHasQuants row.id = true

structure InSync (store : Store) (desired : DesiredState) : Prop where
  established : ∀ profile ∈ desired.profiles, ∃ row, Established store store.embeddingIds profile row
  retiring : ∀ row ∈ store.profiles, row.name ∉ desired.names → Retiring store row
  flags : ∀ row ∈ store.profiles, row.isDefault = decide (desired.defaultName = some row.name)

namespace StateSnapshot

theorem profile_op_none (sound : store.Sound) {profile : DesiredProfile} :
    (loadSnapshot store desired).profileOp profile = none ↔
      ∃ row, store.named profile.name = some row ∧ Matches row profile := by
  unfold profileOp
  rw [by_name_eq sound]
  cases found : store.named profile.name with
  | none =>
    constructor
    · intro absent
      cases absent
    · intro ⟨row, isRow, _⟩
      cases isRow
  | some row =>
    dsimp only
    constructor
    · intro unchanged
      split at unchanged
      · cases unchanged
      rename_i stays
      split at unchanged
      · cases unchanged
      rename_i same
      rw [not_or, not_not, not_not] at same
      refine ⟨row, rfl, ?_, same.1, same.2⟩
      cases isState : row.state with
      | active => rfl
      | removing => exact absurd isState stays
    · intro ⟨other, isOther, recipe⟩
      cases isOther
      have stays : ¬row.state = .removing := by
        rw [recipe.active]
        intro wrong
        cases wrong
      rw [if_neg stays, if_neg]
      rw [not_or, not_not, not_not]
      exact ⟨recipe.quantizer, recipe.options⟩

theorem retire_op_none {row : ProfileRow} (member : row ∈ store.profiles) :
    (loadSnapshot store desired).retireOp row = none ↔ (row.name ∉ desired.names → Retiring store row) := by
  rw [retireOp, has_quants_eq member]
  by_cases wanted : row.name ∈ desired.names
  · rw [if_pos (desires_iff.mpr wanted)]
    exact iff_of_true rfl fun unwanted => absurd wanted unwanted
  · rw [if_neg fun desires => wanted (desires_iff.mp desires)]
    cases present : store.profileHasQuants row.id with
    | false =>
      apply iff_of_false
      · intro wrong
        cases wrong
      · intro retiring
        have held := (retiring wanted).quants
        rw [present] at held
        cases held
    | true =>
      rw [Bool.not_true, if_neg Bool.false_ne_true]
      by_cases leaves : row.state = .removing
      · rw [if_neg fun stays => stays leaves]
        exact iff_of_true rfl fun _ => ⟨leaves, present⟩
      · rw [if_pos leaves]
        apply iff_of_false
        · intro wrong
          cases wrong
        · intro retiring
          exact leaves (retiring wanted).removing

theorem flags_right (sound : store.Sound) : (loadSnapshot store desired).flagsWrong = false ↔
    (∀ row ∈ store.profiles, row.isDefault = decide (desired.defaultName = some row.name)) ∧
      ∀ name, desired.defaultName = some name → (store.named name).isSome = true := by
  rw [flagsWrong, Bool.or_eq_false_iff, List.any_eq_false]
  apply and_congr
  · apply forall_congr'
    intro row
    rw [mem_profiles]
    apply imp_congr_right
    intro _
    rw [Bool.not_eq_true, bne_eq_false_iff_eq]
    rfl
  · change desired.defaultName.any _ = false ↔ _
    cases desired.defaultName with
    | none =>
      apply iff_of_true
      · rfl
      · intro name isDefault
        cases isDefault
    | some default =>
      rw [Option.any_some, by_name_eq sound]
      constructor
      · intro present name isDefault
        rw [Option.some.injEq] at isDefault
        rw [← isDefault, ← Option.not_isNone, present]
        rfl
      · intro present
        rw [← Option.not_isSome, present default rfl]
        rfl

theorem coverage_ops_nil {row : ProfileRow} {profile : DesiredProfile} (sound : store.Sound)
    (isRow : store.named profile.name = some row) (active : row.state = .active) :
    (loadSnapshot store desired).coverageOps profile = [] ↔
      ∀ setterId ∈ store.embeddingIds, (store.pair row.id setterId).isSome = true := by
  have kept : decide (row.state ≠ ProfileState.removing) = true := by
    rw [active]
    rfl
  rw [coverageOps, by_name_eq sound, isRow, Option.filter_some, if_pos kept, Option.map_some,
    List.filterMap_eq_nil_iff, Store.embeddingIds, List.forall_mem_map]
  apply forall_congr'
  intro setter
  apply imp_congr_right
  intro _
  rw [Option.any_some, covered_eq]
  cases (store.pair row.id setter.id).isSome with
  | true => exact iff_of_true rfl rfl
  | false =>
    apply iff_of_false
    · intro wrong
      cases wrong
    · exact Bool.false_ne_true

end StateSnapshot

open StateSnapshot in
theorem plan_metadata_nil (sound : store.Sound) (valid : desired.Valid) :
    (loadSnapshot store desired).planMetadata = [] ↔ InSync store desired := by
  rw [planMetadata, List.append_eq_nil_iff, List.append_eq_nil_iff, List.append_eq_nil_iff,
    List.filterMap_eq_nil_iff, List.filterMap_eq_nil_iff, List.flatMap_eq_nil_iff, ite_eq_right_iff]
  constructor
  · intro ⟨⟨⟨profiles, rows⟩, flags⟩, pairs⟩
    have right : (loadSnapshot store desired).flagsWrong = false := by
      cases wrong : (loadSnapshot store desired).flagsWrong with
      | false => rfl
      | true => cases flags wrong
    refine ⟨?_, ?_, ((flags_right sound).mp right).1⟩
    · intro profile member
      obtain ⟨row, isRow, recipe⟩ := (profile_op_none sound).mp (profiles profile member)
      exact ⟨row, isRow, recipe, (coverage_ops_nil sound isRow recipe.active).mp (pairs profile member)⟩
    · intro row member
      exact (retire_op_none member).mp (rows row (mem_profiles.mpr member))
  · intro agrees
    refine ⟨⟨⟨?_, ?_⟩, ?_⟩, ?_⟩
    · intro profile member
      obtain ⟨row, established⟩ := agrees.established profile member
      exact (profile_op_none sound).mpr ⟨row, established.named, established.recipe⟩
    · intro row member
      exact (retire_op_none (mem_profiles.mp member)).mpr (agrees.retiring row (mem_profiles.mp member))
    · intro wrong
      have right : (loadSnapshot store desired).flagsWrong = false := by
        apply (flags_right sound).mpr
        refine ⟨agrees.flags, ?_⟩
        intro name isDefault
        obtain ⟨profile, member, same⟩ := List.mem_map.mp (valid.default_named name isDefault)
        obtain ⟨row, established⟩ := agrees.established profile member
        rw [← same, established.named]
        rfl
      rw [right] at wrong
      cases wrong
    · intro profile member
      obtain ⟨row, established⟩ := agrees.established profile member
      exact (coverage_ops_nil sound established.named established.recipe.active).mpr established.covers

end Panoptikon.VectorQuants
