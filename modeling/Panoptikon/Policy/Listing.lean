import Panoptikon.Policy.Tenants

/-!
# The databases a client is shown

`/api/db` shows a user the databases on the policy's list and those behind the user's
prefix, without the prefix, and the tenant default besides. A name that is shown is
resolved by other code when it comes back.
-/

namespace Panoptikon.Policy

open Foundation

structure SingleDbInfo where
  current : Text
  all : List Text

structure DbInfo where
  index : SingleDbInfo
  userData : SingleDbInfo

def AllowList.isAll : AllowList → Bool
  | .all => true
  | .list _ => false

def resolveDefaultDb (policy : DbPolicy) (username : Option Text) : Except EnforcementError Text :=
  let value :=
    match username, policy.tenantDefault with
    | some _, some tenantDefault => tenantDefault
    | _, _ => policy.default
  if isSafeIdentifier value maxDbNameLen then .ok value else .error ⟨400, "invalid_db_value"⟩

def matchesPrefix (template : Option Text) (username candidate : Text) : Bool :=
  match template with
  | none => false
  | some template =>
      match renderPrefix template username with
      | .error _ => false
      | .ok front =>
          if Text.byteLength candidate ≤ Text.byteLength front ∨ Text.byteLength candidate > maxDbNameLen then false
          else
            match Text.stripPrefix front candidate with
            | none => false
            | some rest => isSafeIdentifier rest maxDbNameLen

def stripTenantPrefix (value : Text) (policy : DbPolicy) (username : Option Text) : Option Text := do
  let username ← username
  let template ← policy.tenantPrefixTemplate
  let front ← (renderPrefix template username).toOption
  let rest ← Text.stripPrefix front value
  if rest.isEmpty || !isSafeIdentifier rest maxDbNameLen then none else some rest

/-- The name that is shown of a database. -/
def displayed (policy : DbPolicy) (username : Option Text) (name : Text) : Text :=
  (stripTenantPrefix name policy username).getD name

def keepsDb (policy : DbPolicy) (username : Option Text) (name : Text) : Bool :=
  policy.allow.allows name ||
    match username with
    | none => false
    | some username => matchesPrefix policy.tenantPrefixTemplate username name

def withTenantDefault (policy : DbPolicy) (username : Option Text) (filtered : List Text) : List Text :=
  match username, policy.tenantDefault with
  | some _, some tenantDefault =>
      if filtered.any (· = tenantDefault) then filtered else filtered ++ [tenantDefault]
  | _, _ => filtered

/-- The names in the order they come in, each once. -/
def pushNew (deduped : List Text) (name : Text) : List Text :=
  if deduped.any (· = name) then deduped else deduped ++ [name]

def filterDbList (names : List Text) (policy : DbPolicy) (username : Option Text) : List Text :=
  if policy.allow.isAll then names
  else
    (withTenantDefault policy username (names.filter (keepsDb policy username))).foldl
      (fun deduped name => pushNew deduped (displayed policy username name)) []

def filterDbInfoPayload (info : DbInfo) (policy : PolicyConfig) (username : Option Text) :
    Except EnforcementError DbInfo := do
  let index ← resolveDefaultDb policy.indexDb username
  let userData ← resolveDefaultDb policy.userDataDb username
  return {
    index := ⟨index, filterDbList info.index.all policy.indexDb username⟩
    userData := ⟨userData, filterDbList info.userData.all policy.userDataDb username⟩ }

theorem byte_length_pos {text : Text} (filled : text ≠ []) : 0 < Text.byteLength text := by
  cases text with
  | nil => contradiction
  | cons char rest =>
    rw [Text.byte_length_cons]
    exact Nat.add_pos_left (Char.utf8Size_pos char) _

theorem safe_filled {value : Text} {maxLen : Nat} (safe : isSafeIdentifier value maxLen = true) : value ≠ [] := by
  rintro rfl
  cases safe

theorem safe_append {front rest : Text} (safeFront : isSafeIdentifier front maxDbNameLen = true)
    (safeRest : isSafeIdentifier rest maxDbNameLen = true)
    (short : Text.byteLength (front ++ rest) ≤ maxDbNameLen) :
    isSafeIdentifier (front ++ rest) maxDbNameLen = true := by
  rw [isSafeIdentifier, Bool.and_eq_true, Bool.and_eq_true] at safeFront safeRest ⊢
  refine ⟨⟨?_, decide_eq_true short⟩, ?_⟩
  · cases front with
    | nil => cases safeFront.1.1
    | cons char others => rfl
  · rw [List.all_append, safeFront.2, safeRest.2, Bool.and_self]

theorem render_prefix_safe {template username front : Text} (rendered : renderPrefix template username = .ok front) :
    isSafeIdentifier front maxDbNameLen = true := by
  rw [renderPrefix] at rendered
  split at rendered
  · cases rendered
  · dsimp only at rendered
    split at rendered
    · rename_i safe
      cases rendered
      exact safe
    · cases rendered

theorem strip_prefix_eq_some_iff {front value rest : Text} :
    Text.stripPrefix front value = some rest ↔ value = front ++ rest := by
  constructor
  · intro stripped
    by_cases starts : front <+: value
    · obtain ⟨other, rfl⟩ := starts
      rw [Text.strip_prefix_append] at stripped
      rw [Option.some.inj stripped]
    · rw [Text.strip_prefix_differs starts] at stripped
      cases stripped
  · rintro rfl
    exact Text.strip_prefix_append front rest

section Listing

variable {policy : DbPolicy} {username : Option Text}

/-- What is stripped is the user's prefix, and what is left is a safe identifier. -/
theorem strip_tenant_prefix_iff {value rest : Text} : stripTenantPrefix value policy username = some rest ↔
      ∃ user template front, username = some user ∧ policy.tenantPrefixTemplate = some template ∧
        renderPrefix template user = .ok front ∧ value = front ++ rest ∧
        isSafeIdentifier rest maxDbNameLen = true := by
  have rendered_iff {template user front : Text} :
      (renderPrefix template user).toOption = some front ↔ renderPrefix template user = .ok front := by
    cases renderPrefix template user with
    | error fault =>
      constructor
      · intro absent
        cases absent
      · intro absent
        cases absent
    | ok other =>
      constructor
      · intro same
        exact congrArg Except.ok (Option.some.inj same)
      · intro same
        cases same
        rfl
  simp only [stripTenantPrefix, Option.bind_eq_bind, Option.bind_eq_some_iff, rendered_iff,
    strip_prefix_eq_some_iff]
  constructor
  · rintro ⟨user, isUser, template, isTemplate, front, rendered, other, isValue, kept⟩
    split at kept
    · cases kept
    · rename_i isSafe
      rw [Bool.or_eq_true, not_or, Bool.not_eq_true', Bool.not_eq_false] at isSafe
      rw [← Option.some.inj kept]
      exact ⟨user, template, front, isUser, isTemplate, rendered, isValue, isSafe.2⟩
  · rintro ⟨user, template, front, isUser, isTemplate, rendered, isValue, safe⟩
    refine ⟨user, isUser, template, isTemplate, front, rendered, rest, isValue, if_neg ?_⟩
    rw [Bool.or_eq_true, not_or, Bool.not_eq_true', Bool.not_eq_false, List.isEmpty_iff]
    exact ⟨safe_filled safe, safe⟩

theorem matches_prefix_iff {user name : Text} : matchesPrefix policy.tenantPrefixTemplate user name = true ↔
      (∃ rest, stripTenantPrefix name policy (some user) = some rest) ∧ Text.byteLength name ≤ maxDbNameLen := by
  constructor
  · intro isMatch
    cases isTemplate : policy.tenantPrefixTemplate with
    | none =>
      rw [isTemplate] at isMatch
      cases isMatch
    | some template =>
      cases rendered : renderPrefix template user with
      | error fault =>
        simp only [matchesPrefix, isTemplate, rendered] at isMatch
        cases isMatch
      | ok front =>
        simp only [matchesPrefix, isTemplate, rendered] at isMatch
        split at isMatch
        · cases isMatch
        · rename_i fits
          cases isRest : Text.stripPrefix front name with
          | none =>
            rw [isRest] at isMatch
            cases isMatch
          | some rest =>
            rw [isRest] at isMatch
            refine ⟨⟨rest, ?_⟩, Nat.le_of_not_lt (not_or.mp fits).2⟩
            exact strip_tenant_prefix_iff.mpr
              ⟨user, template, front, rfl, isTemplate, rendered, strip_prefix_eq_some_iff.mp isRest, isMatch⟩
  · rintro ⟨⟨rest, stripped⟩, short⟩
    obtain ⟨other, template, front, isUser, isTemplate, rendered, rfl, safe⟩ := strip_tenant_prefix_iff.mp stripped
    cases isUser
    have longer : ¬(Text.byteLength (front ++ rest) ≤ Text.byteLength front ∨
        Text.byteLength (front ++ rest) > maxDbNameLen) := by
      have positive := byte_length_pos (safe_filled safe)
      rw [Text.byte_length_append] at short ⊢
      omega
    simp only [matchesPrefix, isTemplate, rendered, if_neg longer, Text.strip_prefix_append]
    exact safe

theorem keeps_db_iff {name : Text} : keepsDb policy username name = true ↔ policy.allow.allows name = true ∨
      (∃ rest, stripTenantPrefix name policy username = some rest) ∧ Text.byteLength name ≤ maxDbNameLen := by
  unfold keepsDb
  rw [Bool.or_eq_true]
  apply or_congr_right
  cases username with
  | none =>
    constructor
    · intro isKept
      cases isKept
    · rintro ⟨⟨rest, stripped⟩, -⟩
      cases stripped
  | some user => exact matches_prefix_iff

theorem mem_push_new {deduped : List Text} {name other : Text} :
    other ∈ pushNew deduped name ↔ other ∈ deduped ∨ other = name := by
  rw [pushNew]
  split
  · rename_i present
    obtain ⟨same, isMember, isSame⟩ := List.any_eq_true.mp present
    have known : name ∈ deduped := by
      rw [← of_decide_eq_true isSame]
      exact isMember
    constructor
    · exact .inl
    · rintro (isOther | rfl)
      · exact isOther
      · exact known
  · rw [List.mem_append, List.mem_singleton]

theorem mem_pushed (shown : Text → Text) {names deduped : List Text} {other : Text} :
    other ∈ names.foldl (fun deduped name => pushNew deduped (shown name)) deduped ↔
      other ∈ deduped ∨ ∃ name ∈ names, shown name = other := by
  induction names generalizing deduped with
  | nil =>
    constructor
    · exact .inl
    · rintro (isOther | ⟨name, absent, -⟩)
      · exact isOther
      · cases absent
  | cons name rest ih =>
    rw [List.foldl_cons, ih, mem_push_new, or_assoc]
    apply or_congr_right
    rw [List.exists_mem_cons_iff]
    exact or_congr_left eq_comm

theorem mem_with_tenant_default {filtered : List Text} {name : Text} :
    name ∈ withTenantDefault policy username filtered ↔
      name ∈ filtered ∨ username.isSome = true ∧ policy.tenantDefault = some name := by
  cases isUser : username with
  | none => simp [withTenantDefault]
  | some user =>
    cases isDefault : policy.tenantDefault with
    | none => simp [withTenantDefault, isDefault]
    | some tenantDefault =>
      simp only [withTenantDefault, isDefault]
      split
      · rename_i present
        obtain ⟨same, isMember, isSame⟩ := List.any_eq_true.mp present
        rw [of_decide_eq_true isSame] at isMember
        constructor
        · exact .inl
        · rintro (isName | ⟨-, isName⟩)
          · exact isName
          · rw [← Option.some.inj isName]
            exact isMember
      · rw [List.mem_append, List.mem_singleton]
        apply or_congr_right
        constructor
        · rintro rfl
          exact ⟨rfl, rfl⟩
        · rintro ⟨-, same⟩
          exact (Option.some.inj same).symm

/-- A name is shown of a database that is kept, or of the tenant default. -/
theorem mem_filter_db_list {names : List Text} {listed : Text} (someListed : policy.allow.isAll = false) :
    listed ∈ filterDbList names policy username ↔
      ∃ name, ((name ∈ names ∧ keepsDb policy username name = true) ∨
          username.isSome = true ∧ policy.tenantDefault = some name) ∧ displayed policy username name = listed := by
  have unfiltered : ¬policy.allow.isAll = true := by
    rw [someListed]
    exact Bool.false_ne_true
  rw [filterDbList, if_neg unfiltered, mem_pushed]
  constructor
  · rintro (absent | ⟨name, isName, isShown⟩)
    · cases absent
    · rw [mem_with_tenant_default, List.mem_filter] at isName
      exact ⟨name, isName, isShown⟩
  · rintro ⟨name, isName, isShown⟩
    refine .inr ⟨name, ?_, isShown⟩
    rw [mem_with_tenant_default, List.mem_filter]
    exact isName

end Listing

section Valid

variable {policy : DbPolicy} (valid : validateDbPolicy policy = .ok ())

include valid

theorem valid_parts : validateAllow policy = .ok () ∧ validateTenantDefault policy = .ok () := by
  rw [validateDbPolicy] at valid
  split at valid
  · cases valid
  · cases allowed : validateAllow policy with
    | error fault =>
      rw [allowed] at valid
      cases valid
    | ok _ =>
      rw [allowed] at valid
      change (validateTenantDefault policy >>= fun _ => _) = _ at valid
      cases defaulted : validateTenantDefault policy with
      | error fault =>
        rw [defaulted] at valid
        cases valid
      | ok _ => exact ⟨rfl, rfl⟩

theorem allowed_safe (someListed : policy.allow.isAll = false) {name : Text}
    (allowed : policy.allow.allows name = true) : isSafeIdentifier name maxDbNameLen = true := by
  cases isAllow : policy.allow with
  | all =>
    rw [isAllow] at someListed
    cases someListed
  | list items =>
    rw [isAllow] at allowed
    obtain ⟨entry, isEntry, isSame⟩ := List.any_eq_true.mp allowed
    rw [of_decide_eq_true isSame] at isEntry
    have checked := (valid_parts valid).1
    simp only [validateAllow, isAllow] at checked
    cases found : items.find? fun entry => !isSafeIdentifier entry maxDbNameLen with
    | some other =>
      rw [found] at checked
      cases checked
    | none =>
      have safe := List.find?_eq_none.mp found name isEntry
      rwa [Bool.not_eq_true', Bool.not_eq_false] at safe

theorem tenant_default_safe {tenantDefault : Text} (isDefault : policy.tenantDefault = some tenantDefault) :
    isSafeIdentifier tenantDefault maxDbNameLen = true ∧ ∃ template, policy.tenantPrefixTemplate = some template := by
  have checked := (valid_parts valid).2
  simp only [validateTenantDefault, isDefault] at checked
  split at checked
  · cases checked
  · rename_i safe
    rw [Bool.not_eq_true', Bool.not_eq_false] at safe
    split at checked
    · cases checked
    · split at checked
      · cases checked
      · rename_i isSome
        rw [Option.isNone_iff_eq_none] at isSome
        exact ⟨safe, Option.ne_none_iff_exists'.mp isSome⟩

theorem all_plain (isAll : policy.allow.isAll = true) :
    policy.tenantDefault = none ∧ policy.tenantPrefixTemplate = none := by
  have checked := (valid_parts valid).1
  cases isAllow : policy.allow with
  | list items =>
    rw [isAllow] at isAll
    cases isAll
  | all =>
    simp only [validateAllow, isAllow] at checked
    split at checked
    · cases checked
    · rename_i plain
      rw [Bool.or_eq_true, not_or, Bool.not_eq_true, Option.isSome_eq_false_iff, Option.isNone_iff_eq_none,
        Bool.not_eq_true, Option.isSome_eq_false_iff, Option.isNone_iff_eq_none] at plain
      exact plain

end Valid

/-- The database a parameter comes to. -/
def outcome (policy : DbPolicy) (username provided : Option Text) : Except EnforcementError Text :=
  (resolveDbParam provided policy username).map Prod.fst

section Outcome

variable {policy : DbPolicy} {username : Option Text}

theorem outcome_allowed {name : Text} (allowed : policy.allow.allows name = true)
    (safe : isSafeIdentifier name maxDbNameLen = true) : outcome policy username (some name) = .ok name := by
  simp only [outcome, resolveDbParam, safe, allowed]
  rfl

theorem outcome_stripped {name rest : Text} (stripped : stripTenantPrefix name policy username = some rest)
    (refused : policy.allow.allows rest = false) (short : Text.byteLength name ≤ maxDbNameLen) :
    outcome policy username (some rest) = .ok name := by
  obtain ⟨user, template, front, rfl, isTemplate, rendered, rfl, safe⟩ := strip_tenant_prefix_iff.mp stripped
  have whole := safe_append (render_prefix_safe rendered) safe short
  simp only [outcome, resolveDbParam, safe, refused, isTemplate, rendered]
  change Except.map Prod.fst (if isSafeIdentifier (front ++ rest) maxDbNameLen = true then _ else _) = _
  rw [if_pos whole]
  rfl

/-- The tenant default off the list is refused or taken as a missing parameter is. -/
theorem outcome_tenant_default {user tenantDefault : Text} (isDefault : policy.tenantDefault = some tenantDefault)
    (safe : isSafeIdentifier tenantDefault maxDbNameLen = true)
    (hasTemplate : ∃ template, policy.tenantPrefixTemplate = some template)
    (refused : policy.allow.allows tenantDefault = false) :
    outcome policy (some user) (some tenantDefault) = outcome policy (some user) none := by
  obtain ⟨template, isTemplate⟩ := hasTemplate
  simp only [outcome, resolveDbParam, missingValue, safe, refused, isTemplate, isDefault]
  cases renderPrefix template user with
  | error fault => rfl
  | ok front =>
    change Except.map Prod.fst (if isSafeIdentifier (front ++ tenantDefault) maxDbNameLen = true then _ else _) =
      Except.map Prod.fst (if isSafeIdentifier (front ++ tenantDefault) maxDbNameLen = true then _ else _)
    split
    · rfl
    · rfl

theorem outcome_default (plain : username = none ∨ policy.tenantDefault = none)
    (safe : isSafeIdentifier policy.default maxDbNameLen = true) :
    outcome policy username none = .ok policy.default := by
  have missing : missingValue policy username = .ok policy.default := by
    rcases plain with rfl | isNone
    · rfl
    · cases username with
      | none => rfl
      | some user => simp only [missingValue, isNone]
  simp only [outcome, resolveDbParam, missing]
  change Except.map Prod.fst (if isSafeIdentifier policy.default maxDbNameLen = true then _ else _) = _
  rw [if_pos safe]
  rfl

theorem outcome_cases {value db : Text} (taken : outcome policy username (some value) = .ok db) :
    isSafeIdentifier db maxDbNameLen = true ∧
      (policy.allow.allows value = true ∧ db = value ∨
        policy.allow.allows value = false ∧ stripTenantPrefix db policy username = some value) := by
  cases safe : isSafeIdentifier value maxDbNameLen with
  | false =>
    simp only [outcome, resolveDbParam, safe] at taken
    cases taken
  | true =>
    cases allowed : policy.allow.allows value with
    | true =>
      rw [outcome_allowed allowed safe] at taken
      cases taken
      exact ⟨safe, .inl ⟨rfl, rfl⟩⟩
    | false =>
      cases isUser : username with
      | none =>
        simp only [outcome, resolveDbParam, safe, allowed, isUser] at taken
        cases taken
      | some user =>
        cases isTemplate : policy.tenantPrefixTemplate with
        | none =>
          simp only [outcome, resolveDbParam, safe, allowed, isUser, isTemplate] at taken
          cases taken
        | some template =>
          cases rendered : renderPrefix template user with
          | error fault =>
            simp only [outcome, resolveDbParam, safe, allowed, isUser, isTemplate, rendered] at taken
            cases taken
          | ok front =>
            simp only [outcome, resolveDbParam, safe, allowed, isUser, isTemplate, rendered] at taken
            change Except.map Prod.fst
              (if isSafeIdentifier (front ++ value) maxDbNameLen = true then _ else _) = _ at taken
            split at taken
            · rename_i whole
              cases taken
              refine ⟨whole, .inr ⟨rfl, ?_⟩⟩
              exact strip_tenant_prefix_iff.mpr ⟨user, template, front, rfl, isTemplate, rendered, rfl, safe⟩
            · cases taken

end Outcome

/-- A name that is also on the policy's list hides the database it was shown of, and a tenant default
that begins with the user's prefix is shown without it. -/
inductive Shadowed (policy : DbPolicy) (username : Option Text) (names : List Text) (listed : Text) : Prop where
  | stripped (name : Text) (isName : name ∈ names)
      (isShown : stripTenantPrefix name policy username = some listed) (allowed : policy.allow.allows listed = true)
  | tenantDefault (isUser : username.isSome = true) (isDefault : policy.tenantDefault = some listed)
      (allowed : policy.allow.allows listed = true)
  | doubled (name : Text) (isDefault : policy.tenantDefault = some name)
      (isShown : stripTenantPrefix name policy username = some listed)

/-- What is shown is accepted, tells databases apart and shows all that can be reached. -/
structure Served (policy : DbPolicy) (username : Option Text) (names : List Text) (info : SingleDbInfo) : Prop where
  safe : policy.allow.isAll = false → ∀ listed ∈ info.all, isSafeIdentifier listed maxDbNameLen = true
  accepted : ∀ listed ∈ info.all, isSafeIdentifier listed maxDbNameLen = true →
    ¬Shadowed policy username names listed →
      (∃ db ∈ names, displayed policy username db = listed ∧ outcome policy username (some listed) = .ok db) ∨
      (username.isSome = true ∧ policy.tenantDefault = some listed ∧
        outcome policy username (some listed) = outcome policy username none)
  current : ¬Shadowed policy username names info.current →
    outcome policy username (some info.current) = outcome policy username none
  distinct : ∀ first ∈ info.all, ∀ second ∈ info.all,
    ¬Shadowed policy username names first → ¬Shadowed policy username names second → first ≠ second →
      ∀ db, outcome policy username (some first) = .ok db → outcome policy username (some second) ≠ .ok db
  complete : ∀ db ∈ names, ∀ value, outcome policy username (some value) = .ok db →
    displayed policy username db ∈ info.all ∧
      (¬Shadowed policy username names (displayed policy username db) →
        outcome policy username (some (displayed policy username db)) = .ok db)

section Served

variable {policy : DbPolicy} {username : Option Text} {names : List Text}

theorem displayed_of_strip {name rest : Text} (stripped : stripTenantPrefix name policy username = some rest) :
    displayed policy username name = rest := by
  rw [displayed, stripped, Option.getD_some]

variable {name : Text}

theorem displayed_plain (plain : stripTenantPrefix name policy username = none) :
    displayed policy username name = name := by
  rw [displayed, plain, Option.getD_none]

variable (valid : validateDbPolicy policy = .ok ())

include valid

theorem strip_all (isAll : policy.allow.isAll = true) (name : Text) :
    stripTenantPrefix name policy username = none := by
  cases stripped : stripTenantPrefix name policy username with
  | none => rfl
  | some rest =>
    obtain ⟨user, template, front, -, isTemplate, -⟩ := strip_tenant_prefix_iff.mp stripped
    rw [(all_plain valid isAll).2] at isTemplate
    cases isTemplate

theorem kept_short (someListed : policy.allow.isAll = false)
    (kept : keepsDb policy username name = true) : Text.byteLength name ≤ maxDbNameLen := by
  rcases keeps_db_iff.mp kept with allowed | ⟨-, short⟩
  · have safe := allowed_safe valid someListed allowed
    rw [isSafeIdentifier, Bool.and_eq_true, Bool.and_eq_true] at safe
    exact of_decide_eq_true safe.1.2
  · exact short

/-- A database that is kept is what its name comes to, unless the list takes the name first. -/
theorem outcome_displayed (someListed : policy.allow.isAll = false) (isName : name ∈ names)
    (kept : keepsDb policy username name = true)
    (clear : ¬Shadowed policy username names (displayed policy username name)) :
    outcome policy username (some (displayed policy username name)) = .ok name := by
  cases stripped : stripTenantPrefix name policy username with
  | none =>
    rw [displayed_plain stripped]
    rcases keeps_db_iff.mp kept with allowed | ⟨⟨rest, isStripped⟩, -⟩
    · exact outcome_allowed allowed (allowed_safe valid someListed allowed)
    · rw [stripped] at isStripped
      cases isStripped
  | some rest =>
    rw [displayed_of_strip stripped] at clear ⊢
    have refused : policy.allow.allows rest = false := by
      rw [Bool.eq_false_iff]
      intro allowed
      exact clear (.stripped name isName stripped allowed)
    exact outcome_stripped stripped refused (kept_short valid someListed kept)

variable {listed : Text}

theorem listed_safe (someListed : policy.allow.isAll = false)
    (isListed : listed ∈ filterDbList names policy username) : isSafeIdentifier listed maxDbNameLen = true := by
  obtain ⟨name, isName, rfl⟩ := (mem_filter_db_list someListed).mp isListed
  cases stripped : stripTenantPrefix name policy username with
  | some rest =>
    rw [displayed_of_strip stripped]
    obtain ⟨user, template, front, -, -, -, -, safe⟩ := strip_tenant_prefix_iff.mp stripped
    exact safe
  | none =>
    rw [displayed_plain stripped]
    rcases isName with ⟨-, kept⟩ | ⟨-, isDefault⟩
    · rcases keeps_db_iff.mp kept with allowed | ⟨⟨rest, isStripped⟩, -⟩
      · exact allowed_safe valid someListed allowed
      · rw [stripped] at isStripped
        cases isStripped
    · exact (tenant_default_safe valid isDefault).1

theorem listed_accepted (isListed : listed ∈ filterDbList names policy username)
    (safe : isSafeIdentifier listed maxDbNameLen = true) (clear : ¬Shadowed policy username names listed) :
    (∃ db ∈ names, displayed policy username db = listed ∧ outcome policy username (some listed) = .ok db) ∨
      (username.isSome = true ∧ policy.tenantDefault = some listed ∧
        outcome policy username (some listed) = outcome policy username none) := by
  cases isAll : policy.allow.isAll with
  | true =>
    rw [filterDbList, if_pos isAll] at isListed
    have allowed : policy.allow.allows listed = true := by
      cases isAllow : policy.allow with
      | all => rfl
      | list items =>
        rw [isAllow] at isAll
        cases isAll
    exact .inl ⟨listed, isListed, displayed_plain (strip_all valid isAll listed), outcome_allowed allowed safe⟩
  | false =>
    obtain ⟨name, isName, rfl⟩ := (mem_filter_db_list isAll).mp isListed
    rcases isName with ⟨isExisting, kept⟩ | ⟨isUser, isDefault⟩
    · exact .inl ⟨name, isExisting, rfl, outcome_displayed valid isAll isExisting kept clear⟩
    · cases stripped : stripTenantPrefix name policy username with
      | some rest =>
        rw [displayed_of_strip stripped] at clear
        exact absurd (.doubled name isDefault stripped) clear
      | none =>
        rw [displayed_plain stripped] at clear ⊢
        have refused : policy.allow.allows name = false := by
          rw [Bool.eq_false_iff]
          intro allowed
          exact clear (.tenantDefault isUser isDefault allowed)
        obtain ⟨isSafe, hasTemplate⟩ := tenant_default_safe valid isDefault
        obtain ⟨user, rfl⟩ := Option.isSome_iff_exists.mp isUser
        exact .inr ⟨isUser, isDefault, outcome_tenant_default isDefault isSafe hasTemplate refused⟩

/-- A listed name that nothing shadows is either allowed and shown as it is, or off the list. -/
theorem listed_plain (isListed : listed ∈ filterDbList names policy username)
    (clear : ¬Shadowed policy username names listed) (allowed : policy.allow.allows listed = true) :
    stripTenantPrefix listed policy username = none := by
  cases isAll : policy.allow.isAll with
  | true => exact strip_all valid isAll listed
  | false =>
    obtain ⟨name, isName, rfl⟩ := (mem_filter_db_list isAll).mp isListed
    cases stripped : stripTenantPrefix name policy username with
    | some rest =>
      rw [displayed_of_strip stripped] at clear allowed
      rcases isName with ⟨isExisting, -⟩ | ⟨-, isDefault⟩
      · exact absurd (.stripped name isExisting stripped allowed) clear
      · exact absurd (.doubled name isDefault stripped) clear
    | none =>
      rw [displayed_plain stripped]
      exact stripped

theorem listed_distinct {first second db : Text} (isFirst : first ∈ filterDbList names policy username)
    (isSecond : second ∈ filterDbList names policy username) (firstClear : ¬Shadowed policy username names first)
    (secondClear : ¬Shadowed policy username names second) (ofFirst : outcome policy username (some first) = .ok db)
    (ofSecond : outcome policy username (some second) = .ok db) : first = second := by
  rcases (outcome_cases ofFirst).2 with ⟨firstAllowed, rfl⟩ | ⟨-, firstStripped⟩
  · rcases (outcome_cases ofSecond).2 with ⟨-, same⟩ | ⟨-, secondStripped⟩
    · exact same
    · rw [listed_plain valid isFirst firstClear firstAllowed] at secondStripped
      cases secondStripped
  · rcases (outcome_cases ofSecond).2 with ⟨secondAllowed, rfl⟩ | ⟨-, secondStripped⟩
    · rw [listed_plain valid isSecond secondClear secondAllowed] at firstStripped
      cases firstStripped
    · exact Option.some.inj (firstStripped.symm.trans secondStripped)

theorem reached_listed {db value : Text} (isDb : db ∈ names)
    (taken : outcome policy username (some value) = .ok db) :
    displayed policy username db ∈ filterDbList names policy username ∧
      (¬Shadowed policy username names (displayed policy username db) →
        outcome policy username (some (displayed policy username db)) = .ok db) := by
  obtain ⟨safe, reached⟩ := outcome_cases taken
  cases isAll : policy.allow.isAll with
  | true =>
    have plain : stripTenantPrefix db policy username = none := strip_all valid isAll db
    rw [displayed_plain plain, filterDbList, if_pos isAll]
    refine ⟨isDb, fun _ => ?_⟩
    rcases reached with ⟨allowed, rfl⟩ | ⟨-, stripped⟩
    · exact taken
    · rw [plain] at stripped
      cases stripped
  | false =>
    have kept : keepsDb policy username db = true := by
      rw [keeps_db_iff]
      rcases reached with ⟨allowed, rfl⟩ | ⟨-, stripped⟩
      · exact .inl allowed
      · rw [isSafeIdentifier, Bool.and_eq_true, Bool.and_eq_true] at safe
        exact .inr ⟨⟨value, stripped⟩, of_decide_eq_true safe.1.2⟩
    refine ⟨?_, fun clear => outcome_displayed valid isAll isDb kept clear⟩
    exact (mem_filter_db_list isAll).mpr ⟨db, .inl ⟨isDb, kept⟩, rfl⟩

variable (username names) in
theorem current_resolved : ∃ current, resolveDefaultDb policy username = .ok current ∧
    (¬Shadowed policy username names current →
      outcome policy username (some current) = outcome policy username none) := by
  obtain ⟨defaultSafe, defaultAllowed⟩ := default_allowed valid
  by_cases plain : username = none ∨ policy.tenantDefault = none
  · refine ⟨policy.default, ?_, fun _ => ?_⟩
    · have isDefault : resolveDefaultDb policy username =
          if isSafeIdentifier policy.default maxDbNameLen then .ok policy.default
          else .error ⟨400, "invalid_db_value"⟩ := by
        rcases plain with rfl | isNone
        · rfl
        · cases username with
          | none => rfl
          | some user => simp only [resolveDefaultDb, isNone]
      rw [isDefault, if_pos defaultSafe]
    · rw [outcome_allowed defaultAllowed defaultSafe, outcome_default plain defaultSafe]
  · obtain ⟨isUser, isDefault⟩ := not_or.mp plain
    obtain ⟨user, rfl⟩ := Option.ne_none_iff_exists'.mp isUser
    obtain ⟨tenantDefault, isDefault⟩ := Option.ne_none_iff_exists'.mp isDefault
    obtain ⟨safe, hasTemplate⟩ := tenant_default_safe valid isDefault
    refine ⟨tenantDefault, ?_, ?_⟩
    · simp only [resolveDefaultDb, isDefault]
      exact if_pos safe
    · intro clear
      have refused : policy.allow.allows tenantDefault = false := by
        rw [Bool.eq_false_iff]
        intro allowed
        exact clear (.tenantDefault rfl isDefault allowed)
      exact outcome_tenant_default isDefault safe hasTemplate refused

variable (username names) in
theorem list_served : ∃ current, resolveDefaultDb policy username = .ok current ∧
    Served policy username names ⟨current, filterDbList names policy username⟩ := by
  obtain ⟨current, isCurrent, agrees⟩ := current_resolved username names valid
  refine ⟨current, isCurrent, ?_⟩
  exact {
    safe := fun someListed listed isListed => listed_safe valid someListed isListed
    accepted := fun listed isListed safe clear => listed_accepted valid isListed safe clear
    current := agrees
    distinct := fun first isFirst second isSecond firstClear secondClear differ db ofFirst ofSecond =>
      differ (listed_distinct valid isFirst isSecond firstClear secondClear ofFirst ofSecond)
    complete := fun db isDb value taken => reached_listed valid isDb taken }

end Served

def DbInfo.of (info : DbInfo) : Db → SingleDbInfo
  | .index => info.index
  | .userData => info.userData

/-- What a client is shown of both databases comes back as it was meant. -/
theorem db_info_served {policy : PolicyConfig} (valid : policy.Valid) (info : DbInfo) (username : Option Text) :
    ∃ shown, filterDbInfoPayload info policy username = .ok shown ∧
      ∀ db, Served (policy.of db) username (info.of db).all (shown.of db) := by
  obtain ⟨index, isIndex, indexServed⟩ := list_served username (info.of .index).all (valid .index)
  obtain ⟨userData, isUserData, userDataServed⟩ :=
    list_served username (info.of .userData).all (valid .userData)
  change resolveDefaultDb policy.indexDb username = _ at isIndex
  change resolveDefaultDb policy.userDataDb username = _ at isUserData
  refine ⟨⟨⟨index, filterDbList info.index.all policy.indexDb username⟩,
    ⟨userData, filterDbList info.userData.all policy.userDataDb username⟩⟩, ?_, ?_⟩
  · simp only [filterDbInfoPayload, isIndex, isUserData]
    rfl
  · intro db
    cases db with
    | index => exact indexServed
    | userData => exact userDataServed

def tenantPolicy : PolicyConfig where
  indexDb := ⟨"default".toList, .list ["default".toList], some "images".toList,
    some ("user_".toList ++ usernamePlaceholder ++ ['_'])⟩
  userDataDb := ⟨"default".toList, .list ["default".toList], some "bookmarks".toList,
    some ("user_".toList ++ usernamePlaceholder ++ ['_'])⟩

theorem tenant_policy_valid : tenantPolicy.Valid := by
  intro db
  cases db with
  | index | userData => decide +kernel

theorem tenant_info_served :
    ∃ shown, filterDbInfoPayload
        ⟨⟨"default".toList, ["default".toList, "user_al_private".toList]⟩, ⟨"default".toList, ["default".toList]⟩⟩
        tenantPolicy (some "al".toList) = .ok shown ∧
      ∀ db, Served (tenantPolicy.of db) (some "al".toList)
        (DbInfo.of ⟨⟨"default".toList, ["default".toList, "user_al_private".toList]⟩,
          ⟨"default".toList, ["default".toList]⟩⟩ db).all (shown.of db) :=
  db_info_served tenant_policy_valid _ _

/-- The tenant default is shown before its database is there. -/
theorem tenant_default_shown_missing : tenantPolicy.Valid ∧
    ¬∀ listed ∈ filterDbList ["default".toList] tenantPolicy.indexDb (some "al".toList),
      ∃ db ∈ ["default".toList], outcome tenantPolicy.indexDb (some "al".toList) (some listed) = .ok db := by
  refine ⟨tenant_policy_valid, ?_⟩
  intro existing
  have isListed : "images".toList ∈ filterDbList ["default".toList] tenantPolicy.indexDb (some "al".toList) := by
    decide +kernel
  obtain ⟨db, isDb, taken⟩ := existing _ isListed
  rw [List.mem_singleton.mp isDb] at taken
  have same : outcome tenantPolicy.indexDb (some "al".toList) (some "images".toList) =
      .ok "user_al_images".toList := by
    decide +kernel
  rw [same] at taken
  exact absurd (Except.ok.inj taken) (by decide +kernel)

end Panoptikon.Policy
