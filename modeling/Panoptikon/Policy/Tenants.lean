import Panoptikon.Policy.DbParams

/-!
# What a tenant can name

A query goes on with one name for each database, and a user gets at a name on the
policy's list, at the default, or at one behind the user's own prefix. Names behind
prefixes are apart only where no prefix extends another.
-/

namespace Panoptikon.Policy

open Foundation Foundation.FormUrlencoded

/-- What a user may put behind the prefix. -/
def DbPolicy.Free (policy : DbPolicy) (name : Text) : Prop :=
  (isSafeIdentifier name maxDbNameLen = true ∧ policy.allow.allows name = false) ∨ policy.tenantDefault = some name

/-- A name that all users share. -/
def DbPolicy.Listed (policy : DbPolicy) (name : Text) : Prop :=
  policy.allow.allows name = true ∨ name = policy.default

/-- A name behind the user's prefix. -/
def DbPolicy.Own (policy : DbPolicy) (username name : Text) : Prop :=
  ∃ template front rest, policy.tenantPrefixTemplate = some template ∧
    renderPrefix template username = .ok front ∧ name = front ++ rest ∧ policy.Free rest

/-- A name that a user's request may go on with. -/
structure DbPolicy.Entitled (policy : DbPolicy) (username name : Text) : Prop where
  safe : isSafeIdentifier name maxDbNameLen = true
  granted : policy.Listed name ∨ policy.Own username name

section Resolved

variable {policy : DbPolicy} {username name : Text}

theorem missing_value_cases (missing : missingValue policy (some username) = .ok name) :
    name = policy.default ∨ policy.Own username name := by
  cases isDefault : policy.tenantDefault with
  | none =>
    simp only [missingValue, isDefault] at missing
    cases missing
    exact .inl rfl
  | some tenantDefault =>
    cases isTemplate : policy.tenantPrefixTemplate with
    | none =>
      simp only [missingValue, isDefault, isTemplate] at missing
      cases missing
    | some template =>
      simp only [missingValue, isDefault, isTemplate] at missing
      cases rendered : renderPrefix template username with
      | error fault =>
        rw [rendered] at missing
        cases missing
      | ok front =>
        rw [rendered] at missing
        cases missing
        exact .inr ⟨template, front, tenantDefault, isTemplate, rendered, rfl, .inr isDefault⟩

variable {action : DbAction}

theorem resolve_missing_cases (resolved : resolveDbParam none policy (some username) = .ok (name, action)) :
    missingValue policy (some username) = .ok name ∧ isSafeIdentifier name maxDbNameLen = true := by
  cases missing : missingValue policy (some username) with
  | error fault =>
    simp only [resolveDbParam, missing] at resolved
    cases resolved
  | ok value =>
    simp only [resolveDbParam, missing] at resolved
    change (if isSafeIdentifier value maxDbNameLen = true then _ else _) = _ at resolved
    split at resolved
    · rename_i safe
      cases resolved
      exact ⟨rfl, safe⟩
    · cases resolved

theorem resolve_provided_cases {value : Text}
    (resolved : resolveDbParam (some value) policy (some username) = .ok (name, action)) :
    isSafeIdentifier name maxDbNameLen = true ∧ (policy.allow.allows name = true ∨ policy.Own username name) := by
  cases safe : isSafeIdentifier value maxDbNameLen with
  | false =>
    simp only [resolveDbParam, safe] at resolved
    cases resolved
  | true =>
    cases allowed : policy.allow.allows value with
    | true =>
      simp only [resolveDbParam, safe, allowed] at resolved
      cases resolved
      exact ⟨safe, .inl allowed⟩
    | false =>
      cases isTemplate : policy.tenantPrefixTemplate with
      | none =>
        simp only [resolveDbParam, safe, allowed, isTemplate] at resolved
        cases resolved
      | some template =>
        simp only [resolveDbParam, safe, allowed, isTemplate] at resolved
        cases rendered : renderPrefix template username with
        | error fault =>
          rw [rendered] at resolved
          cases resolved
        | ok front =>
          rw [rendered] at resolved
          change (if isSafeIdentifier (front ++ value) maxDbNameLen = true then _ else _) = _ at resolved
          split at resolved
          · rename_i whole
            cases resolved
            exact ⟨whole, .inr ⟨template, front, value, isTemplate, rendered, rfl, .inl ⟨safe, allowed⟩⟩⟩
          · cases resolved

theorem resolve_entitled {provided : Option Text}
    (resolved : resolveDbParam provided policy (some username) = .ok (name, action)) :
    policy.Entitled username name := by
  cases provided with
  | none =>
    obtain ⟨missing, safe⟩ := resolve_missing_cases resolved
    exact ⟨safe, (missing_value_cases missing).imp_left .inr⟩
  | some value =>
    obtain ⟨safe, granted⟩ := resolve_provided_cases resolved
    exact ⟨safe, granted.imp_left .inl⟩

/-- Each of a user's own names is what some parameter, or a missing one, comes to. -/
theorem own_resolved (own : policy.Own username name) (safe : isSafeIdentifier name maxDbNameLen = true) :
    ∃ provided action, resolveDbParam provided policy (some username) = .ok (name, action) ∧
      ∀ value, provided = some value → isSafeIdentifier value maxDbNameLen = true := by
  obtain ⟨template, front, rest, isTemplate, rendered, rfl, free⟩ := own
  rcases free with ⟨safeRest, refused⟩ | isDefault
  · refine ⟨some rest, .rewritten, ?_, fun value isValue => by rw [← Option.some.inj isValue]; exact safeRest⟩
    simp only [resolveDbParam, safeRest, refused, isTemplate]
    rw [rendered]
    exact if_pos safe
  · refine ⟨none, .injected, ?_, fun value absent => absurd absent.symm (Option.some_ne_none value)⟩
    simp only [resolveDbParam, missingValue, isDefault, isTemplate]
    rw [rendered]
    exact if_pos safe

theorem allowed_resolved (allowed : policy.allow.allows name = true)
    (safe : isSafeIdentifier name maxDbNameLen = true) :
    resolveDbParam (some name) policy (some username) = .ok (name, .unchanged) := by
  simp only [resolveDbParam, safe, allowed]
  rfl

end Resolved

variable {policy : DbPolicy}

theorem default_allowed (valid : validateDbPolicy policy = .ok ()) :
    isSafeIdentifier policy.default maxDbNameLen = true ∧ policy.allow.allows policy.default = true := by
  rw [validateDbPolicy] at valid
  split at valid
  · cases valid
  · rename_i safe
    rw [Bool.not_eq_true', Bool.not_eq_false] at safe
    refine ⟨safe, ?_⟩
    cases isAllow : policy.allow with
    | all => rfl
    | list items =>
      rw [AllowList.allows]
      cases listed : items.any (· = policy.default) with
      | true => rfl
      | false =>
        have refused : ∃ fault, validateAllow policy = .error fault := by
          simp only [validateAllow, isAllow, listed]
          split
          · exact ⟨_, rfl⟩
          · exact ⟨_, rfl⟩
        obtain ⟨fault, isRefused⟩ := refused
        rw [isRefused] at valid
        cases valid

/-- The two databases of a request. -/
inductive Db where
  | index
  | userData
deriving DecidableEq

def PolicyConfig.of (policy : PolicyConfig) : Db → DbPolicy
  | .index => policy.indexDb
  | .userData => policy.userDataDb

def ParamNames.of (names : ParamNames) : Db → Text
  | .index => names.index
  | .userData => names.userData

/-- A policy that loads. -/
def PolicyConfig.Valid (policy : PolicyConfig) : Prop := ∀ db, validateDbPolicy (policy.of db) = .ok ()

/-- The values of a parameter, in their order. -/
def valuesOf (key : Text) (pairs : List (Text × Text)) : List Text :=
  (pairs.filter fun pair => pair.1 = key).map Prod.snd

theorem values_of_append (key : Text) (first second : List (Text × Text)) :
    valuesOf key (first ++ second) = valuesOf key first ++ valuesOf key second := by
  rw [valuesOf, List.filter_append, List.map_append]
  rfl

/-- The names of the parameters differ from each other and from those beside them. -/
structure ParamNames.Distinct (names : ParamNames) : Prop where
  apart : names.index ≠ names.userData
  kept : ∀ db, names.of db ∉ names.dropped

theorem db_names_distinct : dbNames.Distinct := by
  refine ⟨by decide, ?_⟩
  intro db
  cases db with
  | index | userData => decide

theorem create_names_distinct : createNames.Distinct := by
  refine ⟨by decide, ?_⟩
  intro db
  cases db with
  | index | userData => decide

theorem values_of_retained {names : ParamNames} {key : Text} (pairs : List (Text × Text))
    (isName : key ∈ names.index :: names.userData :: names.dropped) : valuesOf key (retained names pairs) = [] := by
  rw [valuesOf, retained, List.map_eq_nil_iff, List.filter_eq_nil_iff]
  intro pair isRetained same
  have absent := (List.mem_filter.mp isRetained).2
  rw [of_decide_eq_true same, Bool.not_eq_true', List.contains_eq_mem, decide_eq_false_iff_not] at absent
  exact absent isName

/-- What goes on has each parameter once, and none of the names beside them. -/
structure PolicyConfig.Confines (policy : PolicyConfig) (username : Text) (names : ParamNames)
    (pairs : List (Text × Text)) : Prop where
  once : ∀ db, ∃ name, valuesOf (names.of db) pairs = [name] ∧ (policy.of db).Entitled username name
  dropped : ∀ key ∈ names.dropped, valuesOf key pairs = []

section Query

variable {platform : Platform} (exact_text : ∀ text, platform.lossy (Text.utf8 text) = text)
variable {names : ParamNames} {policy : PolicyConfig} {username : Text} {request : Request}

theorem enforce_named_cases {provider : Option Text} {forwarded : Request} {action : DbAction}
    (enforced : platform.enforceNamed names policy request provider = .ok (forwarded, action)) : ∃ index userData,
      resolveDbParam (firstValue names.index (platform.pairs request)) policy.indexDb provider = .ok index ∧
      resolveDbParam (firstValue names.userData (platform.pairs request)) policy.userDataDb provider = .ok userData ∧
      forwarded = { request with query := some (serialize (retained names (platform.pairs request) ++
        [(names.index, index.1), (names.userData, userData.1)])) } := by
  cases isIndex : resolveDbParam (firstValue names.index (platform.pairs request)) policy.indexDb provider with
  | error fault =>
    simp only [Platform.enforceNamed, isIndex] at enforced
    cases enforced
  | ok index =>
    cases isUserData :
        resolveDbParam (firstValue names.userData (platform.pairs request)) policy.userDataDb provider with
    | error fault =>
      simp only [Platform.enforceNamed, isIndex, isUserData] at enforced
      cases enforced
    | ok userData =>
      refine ⟨index, userData, rfl, rfl, ?_⟩
      simp only [Platform.enforceNamed, isIndex, isUserData] at enforced
      change (platform.setQuery _ _ >>= fun forwarded => _) = _ at enforced
      rw [Platform.setQuery] at enforced
      split at enforced
      · cases enforced
        rfl
      · cases enforced

include exact_text

theorem forwarded_pairs (pairs : List (Text × Text)) :
    platform.pairs { request with query := some (serialize pairs) } = pairs :=
  parse_serialize exact_text pairs

theorem enforced_confines (distinct : names.Distinct) {forwarded : Request} {action : DbAction}
    (enforced : platform.enforceNamed names policy request (some username) = .ok (forwarded, action)) :
    policy.Confines username names (platform.pairs forwarded) := by
  obtain ⟨index, userData, isIndex, isUserData, rfl⟩ := enforce_named_cases enforced
  rw [forwarded_pairs exact_text]
  refine ⟨?_, ?_⟩
  · intro db
    cases db with
    | index =>
      refine ⟨index.1, ?_, resolve_entitled isIndex⟩
      change valuesOf names.index _ = _
      rw [values_of_append, values_of_retained _ List.mem_cons_self, List.nil_append]
      simp [valuesOf, distinct.apart.symm]
    | userData =>
      refine ⟨userData.1, ?_, resolve_entitled isUserData⟩
      change valuesOf names.userData _ = _
      rw [values_of_append, values_of_retained _ (List.mem_cons_of_mem _ List.mem_cons_self), List.nil_append]
      simp [valuesOf, distinct.apart]
  · intro key isDropped
    have indexKept : names.index ≠ key := by
      rintro rfl
      exact distinct.kept .index isDropped
    have userDataKept : names.userData ≠ key := by
      rintro rfl
      exact distinct.kept .userData isDropped
    rw [values_of_append, values_of_retained _ (List.mem_cons_of_mem _ (List.mem_cons_of_mem _ isDropped)),
      List.nil_append]
    simp [valuesOf, indexKept, userDataKept]

end Query

/-- A query of at most three hundred bytes, none of which needs an escape. -/
def PlainQuery (query : List UInt8) : Prop :=
  query.length ≤ 300 ∧ ∀ byte ∈ query, unchanged byte = true ∨ byte = 38 ∨ byte = 61

theorem safe_char_small {char : Char} (safe : safeChar char = true) : char.toNat < 128 := by
  have bounded {last : Char} (before : char ≤ last) (small : last.toNat < 128) : char.toNat < 128 :=
    Nat.lt_of_le_of_lt before small
  simp only [safeChar, Bool.or_eq_true, Bool.and_eq_true, decide_eq_true_eq] at safe
  rcases safe with ((((inRange | inRange) | inRange) | rfl) | rfl) | rfl
  · exact bounded inRange.2 (by decide)
  · exact bounded inRange.2 (by decide)
  · exact bounded inRange.2 (by decide)
  · decide
  · decide
  · decide

theorem safe_char_written {char : Char} (safe : safeChar char = true) :
    ∃ byte, unchanged byte = true ∧ String.utf8EncodeChar char = [byte] := by
  have cases (code : Fin 128) : safeChar (Char.ofNat code.val) = true →
      unchanged (UInt8.ofNat code.val) = true ∧
        String.utf8EncodeChar (Char.ofNat code.val) = [UInt8.ofNat code.val] := by
    revert code
    decide +kernel
  obtain ⟨kept, written⟩ := cases ⟨char.toNat, safe_char_small safe⟩ (by rw [Char.ofNat_toNat]; exact safe)
  rw [Char.ofNat_toNat] at written
  exact ⟨_, kept, written⟩

theorem safe_chars_written {text : Text} (safe : ∀ char ∈ text, safeChar char = true) :
    (encode text).length = Text.byteLength text ∧ ∀ byte ∈ encode text, unchanged byte = true := by
  induction text with
  | nil => exact ⟨rfl, nofun⟩
  | cons char rest ih =>
    obtain ⟨byte, kept, written⟩ := safe_char_written (safe char List.mem_cons_self)
    obtain ⟨sameLength, allKept⟩ := ih fun other isOther => safe other (List.mem_cons_of_mem char isOther)
    have size : char.utf8Size = 1 := by
      rw [← String.length_utf8EncodeChar, written]
      rfl
    have same : encode (char :: rest) = byte :: encode rest := by
      rw [encode, Text.utf8, List.flatMap_cons, written, List.singleton_append, List.flatMap_cons,
        encodeByte, if_pos kept]
      rfl
    rw [same, List.length_cons, sameLength, Text.byte_length_cons, size, Nat.add_comm]
    refine ⟨rfl, ?_⟩
    intro other isOther
    rcases List.mem_cons.mp isOther with rfl | isOther
    · exact kept
    · exact allKept other isOther

theorem safe_written {text : Text} (safe : isSafeIdentifier text maxDbNameLen = true) :
    (encode text).length ≤ 64 ∧ ∀ byte ∈ encode text, unchanged byte = true := by
  rw [isSafeIdentifier, Bool.and_eq_true, Bool.and_eq_true, List.all_eq_true] at safe
  obtain ⟨sameLength, kept⟩ := safe_chars_written safe.2
  rw [sameLength]
  exact ⟨of_decide_eq_true safe.1.2, kept⟩

/-- Both texts of a pair are safe identifiers. -/
def SafePair (pair : Text × Text) : Prop :=
  isSafeIdentifier pair.1 maxDbNameLen = true ∧ isSafeIdentifier pair.2 maxDbNameLen = true

theorem safe_pair_written {pair : Text × Text} (safe : SafePair pair) : (encodePair pair).length ≤ 129 ∧
      ∀ byte ∈ encodePair pair, unchanged byte = true ∨ byte = 38 ∨ byte = 61 := by
  obtain ⟨shortName, plainName⟩ := safe_written safe.1
  obtain ⟨shortValue, plainValue⟩ := safe_written safe.2
  rw [encodePair, List.length_append, List.length_cons]
  refine ⟨by omega, ?_⟩
  intro byte isByte
  rcases List.mem_append.mp isByte with inName | inRest
  · exact .inl (plainName byte inName)
  · rcases List.mem_cons.mp inRest with isSign | inValue
    · exact .inr (.inr isSign)
    · exact .inl (plainValue byte inValue)

theorem safe_pairs_plain {pairs : List (Text × Text)} (short : pairs.length ≤ 2)
    (safe : ∀ pair ∈ pairs, SafePair pair) : PlainQuery (serialize pairs) := by
  cases pairs with
  | nil => exact ⟨Nat.zero_le _, nofun⟩
  | cons first rest =>
    obtain ⟨smallFirst, plainFirst⟩ := safe_pair_written (safe first List.mem_cons_self)
    cases rest with
    | nil =>
      have same : serialize [first] = encodePair first := by simp [serialize]
      rw [same]
      exact ⟨by omega, plainFirst⟩
    | cons second more =>
      cases more with
      | cons third others => cases short with | step short => cases short with | step short => cases short
      | nil =>
        obtain ⟨smallSecond, plainSecond⟩ :=
          safe_pair_written (safe second (List.mem_cons_of_mem first List.mem_cons_self))
        have same : serialize [first, second] = encodePair first ++ 38 :: encodePair second := by
          simp [serialize]
        rw [same, PlainQuery, List.length_append, List.length_cons]
        refine ⟨by omega, ?_⟩
        intro byte isByte
        rcases List.mem_append.mp isByte with inFirst | inRest
        · exact plainFirst byte inFirst
        · rcases List.mem_cons.mp inRest with isSign | inSecond
          · exact .inr (.inl isSign)
          · exact plainSecond byte inSecond

/-- The parameters that are given, the index first. -/
def givenPairs (names : ParamNames) (given : Db → Option Text) : List (Text × Text) :=
  ((given .index).map fun value => (names.index, value)).toList ++
    ((given .userData).map fun value => (names.userData, value)).toList

/-- The names of the parameters are safe identifiers. -/
def ParamNames.Safe (names : ParamNames) : Prop := ∀ db, isSafeIdentifier (names.of db) maxDbNameLen = true

theorem given_pairs_safe {names : ParamNames} (safeNames : names.Safe) {given : Db → Option Text}
    (safe : ∀ db value, given db = some value → isSafeIdentifier value maxDbNameLen = true) :
    PlainQuery (serialize (givenPairs names given)) := by
  apply safe_pairs_plain
  · rw [givenPairs, List.length_append]
    have one {Elem : Type} (option : Option Elem) : option.toList.length ≤ 1 := by
      cases option with
      | none => exact Nat.zero_le 1
      | some _ => exact Nat.le_refl 1
    exact Nat.add_le_add (one _) (one _)
  · intro pair isPair
    rcases List.mem_append.mp isPair with isIndex | isUserData
    · rw [Option.mem_toList, Option.map_eq_some_iff] at isIndex
      obtain ⟨value, isGiven, rfl⟩ := isIndex
      exact ⟨safeNames .index, safe .index value isGiven⟩
    · rw [Option.mem_toList, Option.map_eq_some_iff] at isUserData
      obtain ⟨value, isGiven, rfl⟩ := isUserData
      exact ⟨safeNames .userData, safe .userData value isGiven⟩

theorem first_given {names : ParamNames} (distinct : names.Distinct) (given : Db → Option Text) (db : Db) :
    firstValue (names.of db) (givenPairs names given) = given db := by
  cases db with
  | index =>
    cases isIndex : given .index with
    | some value => simp [firstValue, givenPairs, isIndex, ParamNames.of]
    | none =>
      cases isUserData : given .userData with
      | none => simp [firstValue, givenPairs, isIndex, isUserData]
      | some value => simp [firstValue, givenPairs, isIndex, isUserData, ParamNames.of, distinct.apart.symm]
  | userData =>
    cases isIndex : given .index with
    | some value =>
      cases isUserData : given .userData with
      | none | some => simp [firstValue, givenPairs, isIndex, isUserData, ParamNames.of, distinct.apart]
    | none =>
      cases isUserData : given .userData with
      | none => simp [firstValue, givenPairs, isIndex, isUserData]
      | some value => simp [firstValue, givenPairs, isIndex, isUserData, ParamNames.of]

theorem retained_given (names : ParamNames) (given : Db → Option Text) :
    retained names (givenPairs names given) = [] := by
  cases isIndex : given .index with
  | none =>
    cases isUserData : given .userData with
    | none | some => simp [retained, givenPairs, isIndex, isUserData]
  | some value =>
    cases isUserData : given .userData with
    | none | some => simp [retained, givenPairs, isIndex, isUserData]

/-- The names that two parameters come to go on, whatever comes with them. -/
theorem enforced_given {platform : Platform} (exact_text : ∀ text, platform.lossy (Text.utf8 text) = text)
    {names : ParamNames} (distinct : names.Distinct) (safeNames : names.Safe) {policy : PolicyConfig}
    {username path : Text} (accepts : ∀ query, PlainQuery query → platform.acceptsUri path query = true)
    {given : Db → Option Text} {resolved : Db → Text × DbAction}
    (resolves : ∀ db, resolveDbParam (given db) (policy.of db) (some username) = .ok (resolved db)) :
    ∃ action, platform.enforceNamed names policy ⟨path, some (serialize (givenPairs names given))⟩
      (some username) = .ok (⟨path, some (serialize
        [(names.index, (resolved .index).1), (names.userData, (resolved .userData).1)])⟩, action) := by
  have read : platform.pairs ⟨path, some (serialize (givenPairs names given))⟩ = givenPairs names given :=
    parse_serialize exact_text _
  have isIndex := resolves .index
  have isUserData := resolves .userData
  have resolvedSafe : PlainQuery (serialize
      [(names.index, (resolved .index).1), (names.userData, (resolved .userData).1)]) := by
    apply safe_pairs_plain
    · exact Nat.le_refl 2
    · intro pair isPair
      rcases List.mem_cons.mp isPair with rfl | isPair
      · exact ⟨safeNames .index, (resolve_entitled isIndex).safe⟩
      · rw [List.mem_singleton.mp isPair]
        exact ⟨safeNames .userData, (resolve_entitled isUserData).safe⟩
  have firstIndex := first_given distinct given .index
  have firstUserData := first_given distinct given .userData
  change firstValue names.index _ = _ at firstIndex
  change firstValue names.userData _ = _ at firstUserData
  change resolveDbParam _ policy.indexDb _ = _ at isIndex
  change resolveDbParam _ policy.userDataDb _ = _ at isUserData
  refine ⟨(resolved .index).2.combine (resolved .userData).2, ?_⟩
  simp only [Platform.enforceNamed, read, firstIndex, firstUserData, isIndex, isUserData, retained_given]
  have forwarded : platform.setQuery ⟨path, some (serialize (givenPairs names given))⟩
      (serialize ([] ++ [(names.index, (resolved .index).1), (names.userData, (resolved .userData).1)])) =
      .ok ⟨path, some (serialize
        [(names.index, (resolved .index).1), (names.userData, (resolved .userData).1)])⟩ := by
    rw [Platform.setQuery]
    exact if_pos (accepts _ resolvedSafe)
  change (platform.setQuery _ (serialize ([] ++ [_, _])) >>= fun forwarded => _) = _
  rw [forwarded]
  rfl

/-- What `policy.rs` does with the names of a request: they are used, or created. -/
inductive Operation where
  | use
  | create

def Operation.names : Operation → ParamNames
  | .use => dbNames
  | .create => createNames

theorem Operation.distinct (operation : Operation) : operation.names.Distinct := by
  cases operation with
  | use => exact db_names_distinct
  | create => exact create_names_distinct

theorem Operation.safe (operation : Operation) : operation.names.Safe := by
  intro db
  cases operation with
  | use | create => cases db with | index => decide | userData => decide

def Platform.enforce (platform : Platform) : Operation → PolicyConfig → Request → Option Text →
    Except EnforcementError (Request × DbAction)
  | .use => platform.enforceDbParams
  | .create => platform.enforceDbCreateParams

theorem enforce_eq (platform : Platform) (operation : Operation) (policy : PolicyConfig) (request : Request)
    (username : Option Text) : platform.enforce operation policy request username =
      platform.enforceNamed operation.names policy request username := by
  cases operation with
  | use | create => rfl

/-- A request that came as a URI. -/
def Platform.Received (platform : Platform) (request : Request) : Prop :=
  ∀ query, request.query = some query → platform.acceptsUri request.path query = true

/-- Some request of the user goes on with the name, to be used or created. -/
def Platform.Obtains (platform : Platform) (policy : PolicyConfig) (username : Text) (db : Db) (name : Text) : Prop :=
  ∃ operation request forwarded action, platform.Received request ∧
    platform.enforce operation policy request (some username) = .ok (forwarded, action) ∧
    name ∈ valuesOf (operation.names.of db) (platform.pairs forwarded)

/-- Every query of the user goes on with one name for each database, which the user may have. -/
def Platform.Confined (platform : Platform) (policy : PolicyConfig) (username : Text) : Prop :=
  ∀ operation request forwarded action,
    platform.enforce operation policy request (some username) = .ok (forwarded, action) →
      policy.Confines username operation.names (platform.pairs forwarded)

/-- The second user's prefix goes on where the first one's ends, and with `more` in front of it the
first user can say what the second one says: `rest`. -/
def DbPolicy.Extends (policy : DbPolicy) (first second : Text) : Prop :=
  ∃ template front more rest, policy.tenantPrefixTemplate = some template ∧
    renderPrefix template first = .ok front ∧ renderPrefix template second = .ok (front ++ more) ∧
    policy.Free rest ∧ policy.Free (more ++ rest) ∧
    isSafeIdentifier (front ++ (more ++ rest)) maxDbNameLen = true ∧
    ¬policy.Listed (front ++ (more ++ rest))

theorem extends_own {first second : Text} (extended : policy.Extends first second) :
    ∃ name, policy.Own first name ∧ policy.Own second name ∧
      isSafeIdentifier name maxDbNameLen = true ∧ ¬policy.Listed name := by
  obtain ⟨template, front, more, rest, isTemplate, ofFirst, ofSecond, freeRest, freeMore, safe, unlisted⟩ := extended
  refine ⟨front ++ (more ++ rest), ?_, ?_, safe, unlisted⟩
  · exact ⟨template, front, more ++ rest, isTemplate, ofFirst, rfl, freeMore⟩
  · exact ⟨template, front ++ more, rest, isTemplate, ofSecond, (List.append_assoc _ _ _).symm, freeRest⟩

theorem own_extends {first second name : Text} (ofFirst : policy.Own first name)
    (ofSecond : policy.Own second name) (safe : isSafeIdentifier name maxDbNameLen = true)
    (unlisted : ¬policy.Listed name) : policy.Extends first second ∨ policy.Extends second first := by
  obtain ⟨template, front, rest, isTemplate, rendered, rfl, free⟩ := ofFirst
  obtain ⟨other, back, last, isOther, renderedOther, same, freeLast⟩ := ofSecond
  have sameTemplate : template = other := Option.some.inj (isTemplate.symm.trans isOther)
  rw [← sameTemplate] at renderedOther
  rcases List.append_eq_append_iff.mp same with ⟨more, isBack, isRest⟩ | ⟨more, isFront, isLast⟩
  · rw [isBack] at renderedOther
    rw [isRest] at free safe unlisted
    exact .inl ⟨template, front, more, last, isTemplate, rendered, renderedOther, freeLast, free, safe, unlisted⟩
  · rw [isFront] at rendered
    rw [same, isLast] at safe unlisted
    rw [isLast] at freeLast
    exact .inr ⟨template, back, more, rest, isTemplate, renderedOther, rendered, free, freeLast, safe, unlisted⟩

section Obtained

variable {platform : Platform} (exact_text : ∀ text, platform.lossy (Text.utf8 text) = text)
variable {path : Text} (accepts : ∀ query, PlainQuery query → platform.acceptsUri path query = true)
variable {policy : PolicyConfig} (valid : policy.Valid)

include exact_text accepts valid

/-- A user gets at every name behind the user's prefix, the other parameter being the policy's default. -/
theorem own_obtained {username name : Text} {db : Db} (own : (policy.of db).Own username name)
    (safe : isSafeIdentifier name maxDbNameLen = true) : platform.Obtains policy username db name := by
  obtain ⟨provided, action, resolves, safeProvided⟩ := own_resolved own safe
  have resolvesBoth : ∀ other, resolveDbParam (if other = db then provided else some (policy.of other).default)
      (policy.of other) (some username) =
        .ok (if other = db then (name, action) else ((policy.of other).default, .unchanged)) := by
    intro other
    by_cases same : other = db
    · rw [if_pos same, if_pos same, same]
      exact resolves
    · rw [if_neg same, if_neg same]
      obtain ⟨isSafe, isAllowed⟩ := default_allowed (valid other)
      exact allowed_resolved isAllowed isSafe
  have safeBoth : ∀ other value, (if other = db then provided else some (policy.of other).default) = some value →
      isSafeIdentifier value maxDbNameLen = true := by
    intro other value given
    by_cases same : other = db
    · rw [if_pos same] at given
      exact safeProvided value given
    · rw [if_neg same] at given
      rw [← Option.some.inj given]
      exact (default_allowed (valid other)).1
  obtain ⟨combined, enforced⟩ :=
    enforced_given exact_text (Operation.distinct .use) (Operation.safe .use) accepts resolvesBoth
  refine ⟨.use, _, _, combined, ?_, enforced, ?_⟩
  · intro query isQuery
    rw [← Option.some.inj isQuery]
    exact accepts _ (given_pairs_safe (Operation.safe .use) safeBoth)
  · rw [Platform.pairs]
    change name ∈ valuesOf _ (parse platform.lossy (serialize _))
    rw [parse_serialize exact_text]
    cases db with
    | index | userData => exact List.mem_cons_self

omit accepts valid in
theorem obtained_entitled {username name : Text} {db : Db} (obtains : platform.Obtains policy username db name) :
    (policy.of db).Entitled username name := by
  obtain ⟨operation, request, forwarded, action, -, enforced, isValue⟩ := obtains
  rw [enforce_eq] at enforced
  obtain ⟨only, same, entitled⟩ := (enforced_confines exact_text operation.distinct enforced).once db
  rw [same, List.mem_singleton] at isValue
  rw [isValue]
  exact entitled

/-- Users are confined to names they may have, and share no others, unless one prefix extends the other. -/
theorem tenants_apart_iff (first second : Text) :
    (platform.Confined policy first ∧ platform.Confined policy second ∧
      ∀ db name, platform.Obtains policy first db name → platform.Obtains policy second db name →
        (policy.of db).Listed name) ↔
      ∀ db, ¬(policy.of db).Extends first second ∧ ¬(policy.of db).Extends second first := by
  have confined (username : Text) : platform.Confined policy username := by
    intro operation request forwarded action enforced
    rw [enforce_eq] at enforced
    exact enforced_confines exact_text operation.distinct enforced
  constructor
  · rintro ⟨-, -, apart⟩ db
    refine ⟨?_, ?_⟩
    · intro extended
      obtain ⟨name, ofFirst, ofSecond, safe, unlisted⟩ := extends_own extended
      exact unlisted (apart db name (own_obtained exact_text accepts valid ofFirst safe)
        (own_obtained exact_text accepts valid ofSecond safe))
    · intro extended
      obtain ⟨name, ofSecond, ofFirst, safe, unlisted⟩ := extends_own extended
      exact unlisted (apart db name (own_obtained exact_text accepts valid ofFirst safe)
        (own_obtained exact_text accepts valid ofSecond safe))
  · intro none
    refine ⟨confined first, confined second, ?_⟩
    intro db name byFirst bySecond
    have first_entitled := obtained_entitled exact_text byFirst
    have second_entitled := obtained_entitled exact_text bySecond
    by_cases listed : (policy.of db).Listed name
    · exact listed
    · rcases own_extends (first_entitled.granted.resolve_left listed) (second_entitled.granted.resolve_left listed)
        first_entitled.safe listed with extended | extended
      · exact absurd extended (none db).1
      · exact absurd extended (none db).2

end Obtained

def plainPlatform : Platform where
  lossy bytes := (Text.fromUtf8 bytes).getD []
  acceptsUri path query :=
    decide (path.head? = some '/') && decide (path.length + query.length < 65534) &&
      query.all fun byte => decide (33 ≤ byte) && decide (byte < 127)

theorem plain_platform_exact (text : Text) : plainPlatform.lossy (Text.utf8 text) = text := by
  change (Text.fromUtf8 (Text.utf8 text)).getD [] = text
  rw [Text.from_utf8_utf8, Option.getD_some]

theorem unchanged_visible {byte : UInt8} (kept : unchanged byte = true) : 33 ≤ byte ∧ byte < 127 := by
  have between {first last : UInt8} (inRange : first ≤ byte ∧ byte ≤ last) (low : 33 ≤ first) (high : last < 127) :
      33 ≤ byte ∧ byte < 127 :=
    ⟨Nat.le_trans low inRange.1, Nat.lt_of_le_of_lt inRange.2 high⟩
  simp only [unchanged, Bool.or_eq_true, Bool.and_eq_true, decide_eq_true_eq, beq_iff_eq] at kept
  rcases kept with (((((inRange | inRange) | inRange) | rfl) | rfl) | rfl) | rfl
  · exact between inRange (by decide) (by decide)
  · exact between inRange (by decide) (by decide)
  · exact between inRange (by decide) (by decide)
  · decide
  · decide
  · decide
  · decide

theorem plain_platform_accepts (query : List UInt8) (plain : PlainQuery query) :
    plainPlatform.acceptsUri "/api/items".toList query = true := by
  have short : ("/api/items".toList).length + query.length < 65534 := by
    have pathLength : ("/api/items".toList).length = 10 := by decide
    have small := plain.1
    omega
  simp only [plainPlatform, Bool.and_eq_true, decide_eq_true_eq, List.all_eq_true]
  refine ⟨⟨by decide, short⟩, ?_⟩
  intro byte isByte
  rcases plain.2 byte isByte with kept | rfl | rfl
  · exact unchanged_visible kept
  · decide
  · decide

def underscorePolicy : PolicyConfig where
  indexDb := ⟨"default".toList, .list ["default".toList], none, some ("user_".toList ++ usernamePlaceholder ++ ['_'])⟩
  userDataDb := ⟨"default".toList, .list ["default".toList], none, none⟩

theorem underscore_policy_valid : underscorePolicy.Valid := by
  intro db
  cases db with
  | index | userData => decide +kernel

theorem underscore_users_own : (underscorePolicy.of .index).Own "al".toList "user_al_x_db".toList ∧
    (underscorePolicy.of .index).Own "al_x".toList "user_al_x_db".toList := by
  refine ⟨⟨_, "user_al_".toList, "x_db".toList, rfl, ?_, ?_, ?_⟩, ⟨_, "user_al_x_".toList, "db".toList, rfl, ?_, ?_, ?_⟩⟩
  · decide +kernel
  · decide +kernel
  · exact .inl ⟨by decide +kernel, by decide +kernel⟩
  · decide +kernel
  · decide +kernel
  · exact .inl ⟨by decide +kernel, by decide +kernel⟩

theorem underscore_users_meet :
    (underscorePolicy.Valid ∧
      (underscorePolicy.of .index).tenantPrefixTemplate.any (Text.contains · usernamePlaceholder) = true) ∧
    (extractUsername (fun _ => []) (some "al".toList) = .ok (some "al".toList) ∧
      extractUsername (fun _ => []) (some "al_x".toList) = .ok (some "al_x".toList)) ∧
    ¬∀ db name, plainPlatform.Obtains underscorePolicy "al".toList db name →
      plainPlatform.Obtains underscorePolicy "al_x".toList db name → (underscorePolicy.of db).Listed name := by
  refine ⟨⟨underscore_policy_valid, by decide +kernel⟩, ⟨by decide +kernel, by decide +kernel⟩, ?_⟩
  intro apart
  have safe : isSafeIdentifier "user_al_x_db".toList maxDbNameLen = true := by decide +kernel
  have listed := apart .index _
    (own_obtained plain_platform_exact plain_platform_accepts underscore_policy_valid underscore_users_own.1 safe)
    (own_obtained plain_platform_exact plain_platform_accepts underscore_policy_valid underscore_users_own.2 safe)
  rcases listed with allowed | isDefault
  · exact absurd allowed (by decide +kernel)
  · exact absurd isDefault (by decide +kernel)

theorem underscore_users_apart_iff :
    (plainPlatform.Confined underscorePolicy "al".toList ∧ plainPlatform.Confined underscorePolicy "bo".toList ∧
      ∀ db name, plainPlatform.Obtains underscorePolicy "al".toList db name →
        plainPlatform.Obtains underscorePolicy "bo".toList db name → (underscorePolicy.of db).Listed name) ↔
      ∀ db, ¬(underscorePolicy.of db).Extends "al".toList "bo".toList ∧
        ¬(underscorePolicy.of db).Extends "bo".toList "al".toList :=
  tenants_apart_iff plain_platform_exact plain_platform_accepts underscore_policy_valid "al".toList "bo".toList

end Panoptikon.Policy
