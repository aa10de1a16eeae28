import Panoptikon.Foundation.FormUrlencoded
import Panoptikon.Foundation.TextEdits

/-!
# Database parameters

What `policy.rs` makes of the database names in a query: a name on the policy's
list goes through, a missing name is the default, and any other name of a user gets
the user's prefix. The same is done under other parameter names when databases are
created.
-/

namespace Panoptikon.Policy

open Foundation Foundation.FormUrlencoded

def maxDbNameLen : Nat := 64

def maxUsernameLen : Nat := 64

def usernameHashLen : Nat := 32

inductive AllowList where
  | all
  | list (items : List Text)

def AllowList.allows : AllowList → Text → Bool
  | .all, _ => true
  | .list items, value => items.any (· = value)

structure DbPolicy where
  default : Text
  allow : AllowList
  tenantDefault : Option Text
  tenantPrefixTemplate : Option Text

structure PolicyConfig where
  indexDb : DbPolicy
  userDataDb : DbPolicy

def safeChar (char : Char) : Bool :=
  ('a' ≤ char && char ≤ 'z') || ('A' ≤ char && char ≤ 'Z') || ('0' ≤ char && char ≤ '9') ||
    char = '.' || char = '_' || char = '-'

def isSafeIdentifier (value : Text) (maxLen : Nat) : Bool :=
  !value.isEmpty && decide (Text.byteLength value ≤ maxLen) && value.all safeChar

def dbPlaceholder : Text := ['\x7b', 'd', 'b', '\x7d']

def usernamePlaceholder : Text := '\x7b' :: ("username".toList ++ ['\x7d'])

inductive ConfigFault where
  | invalidDefault
  | allowAllWithTenants
  | invalidEntry (entry : Text)
  | defaultNotListed
  | invalidTenantDefault
  | tenantDefaultIsDefault
  | tenantDefaultWithoutTemplate
  | templateNamesDb
  | invalidTemplate
deriving DecidableEq

def validatePrefixTemplate (template : Text) : Except ConfigFault Unit :=
  if Text.contains template dbPlaceholder then .error .templateNamesDb
  else if isSafeIdentifier (Text.replace usernamePlaceholder "user".toList template) maxDbNameLen then .ok ()
  else .error .invalidTemplate

def validateAllow (policy : DbPolicy) : Except ConfigFault Unit :=
  match policy.allow with
  | .all =>
      if policy.tenantDefault.isSome || policy.tenantPrefixTemplate.isSome then .error .allowAllWithTenants
      else .ok ()
  | .list items =>
      match items.find? fun entry => !isSafeIdentifier entry maxDbNameLen with
      | some entry => .error (.invalidEntry entry)
      | none => if items.any (· = policy.default) then .ok () else .error .defaultNotListed

def validateTenantDefault (policy : DbPolicy) : Except ConfigFault Unit :=
  match policy.tenantDefault with
  | none => .ok ()
  | some tenantDefault =>
      if !isSafeIdentifier tenantDefault maxDbNameLen then .error .invalidTenantDefault
      else if tenantDefault = policy.default then .error .tenantDefaultIsDefault
      else if policy.tenantPrefixTemplate.isNone then .error .tenantDefaultWithoutTemplate
      else .ok ()

def validateDbPolicy (policy : DbPolicy) : Except ConfigFault Unit :=
  if !isSafeIdentifier policy.default maxDbNameLen then .error .invalidDefault
  else do
    validateAllow policy
    validateTenantDefault policy
    match policy.tenantPrefixTemplate with
    | some template => validatePrefixTemplate template
    | none => .ok ()

structure EnforcementError where
  status : Nat
  reason : String
deriving DecidableEq

def visibleAscii (char : Char) : Bool := (' ' ≤ char && char ≤ '~') || char = '\t'

/-- Long names and names with other characters are hashed. -/
def normalizeUsername (hashUsername : Text → Text) (value : Text) : Text :=
  if decide (Text.byteLength value > usernameHashLen - 2) || !isSafeIdentifier value maxUsernameLen then
    hashUsername value
  else value

/-- The user of the policy's identity header, a byte of which is read as a character. -/
def extractUsername (hashUsername : Text → Text) (header : Option Text) :
    Except EnforcementError (Option Text) :=
  match header with
  | none => .ok none
  | some raw =>
      if !raw.all visibleAscii then .error ⟨400, "invalid_user_header"⟩
      else if (Text.trim (raw.takeWhile (· != ','))).isEmpty then .error ⟨400, "invalid_username"⟩
      else .ok (some (normalizeUsername hashUsername (Text.trim (raw.takeWhile (· != ',')))))

inductive DbAction where
  | skipped
  | unchanged
  | injected
  | rewritten

def DbAction.combine : DbAction → DbAction → DbAction
  | .rewritten, _ => .rewritten
  | _, .rewritten => .rewritten
  | .injected, _ => .injected
  | _, .injected => .injected
  | .unchanged, .unchanged => .unchanged
  | .skipped, other => other
  | other, .skipped => other

def renderPrefix (template username : Text) : Except EnforcementError Text :=
  if Text.contains template dbPlaceholder then .error ⟨400, "invalid_db_template"⟩
  else
    let rendered := Text.replace usernamePlaceholder username template
    if isSafeIdentifier rendered maxDbNameLen then .ok rendered else .error ⟨400, "invalid_db_value"⟩

/-- The name for a parameter that is missing. -/
def missingValue (policy : DbPolicy) (username : Option Text) : Except EnforcementError Text :=
  match username, policy.tenantDefault with
  | some username, some tenantDefault =>
      match policy.tenantPrefixTemplate with
      | none => .error ⟨400, "invalid_db_template"⟩
      | some template => (renderPrefix template username).map (· ++ tenantDefault)
  | _, _ => .ok policy.default

def resolveDbParam (provided : Option Text) (policy : DbPolicy) (username : Option Text) :
    Except EnforcementError (Text × DbAction) :=
  match provided with
  | none => do
      let value ← missingValue policy username
      if isSafeIdentifier value maxDbNameLen then .ok (value, .injected) else .error ⟨400, "invalid_db_value"⟩
  | some value =>
      if !isSafeIdentifier value maxDbNameLen then .error ⟨400, "invalid_db_value"⟩
      else if policy.allow.allows value then .ok (value, .unchanged)
      else
        match username, policy.tenantPrefixTemplate with
        | some username, some template => do
            let rendered ← renderPrefix template username
            let rewritten := rendered ++ value
            if isSafeIdentifier rewritten maxDbNameLen then .ok (rewritten, .rewritten)
            else .error ⟨400, "invalid_db_value"⟩
        | _, _ => .error ⟨403, "db_not_allowed"⟩

structure Request where
  path : Text
  query : Option (List UInt8)

/-- The two parameters of a request: their names, and the names that go beside them. -/
structure ParamNames where
  index : Text
  userData : Text
  dropped : List Text

def dbNames : ParamNames := ⟨"index_db".toList, "user_data_db".toList, []⟩

def createNames : ParamNames :=
  ⟨"new_index_db".toList, "new_user_data_db".toList, ["index_db".toList, "user_data_db".toList]⟩

/-- Where a parameter stands more than once the first one counts. -/
def firstValue (key : Text) (pairs : List (Text × Text)) : Option Text :=
  (pairs.find? fun pair => pair.1 = key).map Prod.snd

/-- The pairs that have nothing to do with the parameters. -/
def retained (names : ParamNames) (pairs : List (Text × Text)) : List (Text × Text) :=
  pairs.filter fun pair => !(names.index :: names.userData :: names.dropped).contains pair.1

/-- How bytes that may be no text are read, and which paths and queries make a URI. -/
structure Platform where
  lossy : List UInt8 → Text
  acceptsUri : Text → List UInt8 → Bool

namespace Platform

variable (platform : Platform)

def pairs (request : Request) : List (Text × Text) := (request.query.map (parse platform.lossy)).getD []

def setQuery (request : Request) (query : List UInt8) : Except EnforcementError Request :=
  if platform.acceptsUri request.path query then .ok { request with query := some query }
  else .error ⟨502, "query_rewrite_failed"⟩

def enforceNamed (names : ParamNames) (policy : PolicyConfig) (request : Request) (username : Option Text) :
    Except EnforcementError (Request × DbAction) := do
  let index ← resolveDbParam (firstValue names.index (platform.pairs request)) policy.indexDb username
  let userData ← resolveDbParam (firstValue names.userData (platform.pairs request)) policy.userDataDb username
  let forwarded ← platform.setQuery request
    (serialize (retained names (platform.pairs request) ++
      [(names.index, index.1), (names.userData, userData.1)]))
  return (forwarded, index.2.combine userData.2)

def enforceDbParams (policy : PolicyConfig) (request : Request) (username : Option Text) :
    Except EnforcementError (Request × DbAction) :=
  platform.enforceNamed dbNames policy request username

def enforceDbCreateParams (policy : PolicyConfig) (request : Request) (username : Option Text) :
    Except EnforcementError (Request × DbAction) :=
  platform.enforceNamed createNames policy request username

end Platform

end Panoptikon.Policy
