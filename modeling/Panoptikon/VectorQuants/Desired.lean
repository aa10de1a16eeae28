import Panoptikon.Foundation.ByteText
import Panoptikon.Foundation.Fallible

/-!
# The desired state

The `[vector_quants]` section of a database's configuration and
`resolve_desired`, which accepts it or says what is wrong with it.
-/

namespace Panoptikon.VectorQuants

open Foundation

structure VectorQuantProfileConfig where
  name : Text
  quantizer : Text

structure VectorQuantsConfig where
  default : Option Text := none
  profiles : List VectorQuantProfileConfig := []

structure DesiredProfile where
  name : Text
  quantizer : Text
deriving DecidableEq

structure DesiredState where
  profiles : List DesiredProfile
  defaultName : Option Text
deriving DecidableEq

def quantizerInt8 : Text := "int8".toList

def quantizerBinaryRetired : Text := "binary".toList

namespace DesiredProfile

def optionsJson (_ : DesiredProfile) : Text := "\x7b\"scheme\":\"gsym\"\x7d".toList

def needsArtifact (_ : DesiredProfile) : Bool := true

end DesiredProfile

def DesiredState.names (desired : DesiredState) : List Text := desired.profiles.map DesiredProfile.name

def unknownQuantizer (quantizer name : Text) : Text :=
  "Unknown quantizer '".toList ++ quantizer ++ "' for profile '".toList ++ name ++
    "': only 'int8' is supported".toList

/-- The loop of `resolve_desired`. A retired quantizer is read as `int8`. -/
def resolveProfiles (names : List Text) :
    List VectorQuantProfileConfig → Except Text (List DesiredProfile)
  | [] => .ok []
  | profile :: rest =>
      let name := profile.name.trim
      if name.isEmpty then .error "Vector quant profile names must be non-empty".toList
      else if names.any fun other => other = name then
        .error ("Duplicate vector quant profile name: ".toList ++ name)
      else if profile.quantizer = quantizerInt8 || profile.quantizer = quantizerBinaryRetired then do
        let later ← resolveProfiles (name :: names) rest
        return { name, quantizer := quantizerInt8 } :: later
      else .error (unknownQuantizer profile.quantizer name)

def resolveDefault (default : Option Text) (profiles : List DesiredProfile) : Except Text (Option Text) :=
  if profiles.isEmpty then .ok none
  else
    match default with
    | none => .error "A default vector quant profile must be set when profiles are configured".toList
    | some name =>
        if profiles.any fun profile => profile.name = name then .ok (some name)
        else
          .error ("Default vector quant profile '".toList ++ name ++
            "' is not among the configured profiles".toList)

def resolveDesired (config : VectorQuantsConfig) : Except Text DesiredState := do
  let profiles ← resolveProfiles [] config.profiles
  let defaultName ← resolveDefault config.default profiles
  return { profiles, defaultName }

/-- What `resolve_desired` promises of a state it accepts. -/
structure DesiredState.Valid (desired : DesiredState) : Prop where
  distinct : desired.names.Nodup
  default_named : ∀ name, desired.defaultName = some name → name ∈ desired.names
  default_set : desired.profiles ≠ [] → desired.defaultName ≠ none

theorem resolve_profiles_fresh {names : List Text} {configs : List VectorQuantProfileConfig}
    {profiles : List DesiredProfile} (resolved : resolveProfiles names configs = .ok profiles) :
    (profiles.map DesiredProfile.name).Nodup ∧ ∀ profile ∈ profiles, profile.name ∉ names := by
  induction configs generalizing names profiles with
  | nil =>
    rw [resolveProfiles, Except.ok.injEq] at resolved
    rw [← resolved]
    exact ⟨List.nodup_nil, nofun⟩
  | cons config rest ih =>
    rw [resolveProfiles] at resolved
    split at resolved
    · cases resolved
    split at resolved
    · cases resolved
    rename_i isNew
    split at resolved
    · obtain ⟨later, resolvedLater, same⟩ := bind_ok resolved
      cases same
      have fresh := ih resolvedLater
      constructor
      · rw [List.map_cons, List.nodup_cons]
        refine ⟨?_, fresh.1⟩
        intro repeated
        obtain ⟨profile, member, same⟩ := List.mem_map.mp repeated
        apply fresh.2 profile member
        rw [same]
        exact List.mem_cons_self
      · intro profile member
        rcases List.mem_cons.mp member with rfl | isLater
        · intro held
          exact isNew (List.any_eq_true.mpr ⟨_, held, decide_eq_true rfl⟩)
        · intro held
          exact fresh.2 profile isLater (List.mem_cons_of_mem _ held)
    · cases resolved

theorem resolve_desired_valid {config : VectorQuantsConfig} {desired : DesiredState}
    (resolved : resolveDesired config = .ok desired) : desired.Valid := by
  rw [resolveDesired] at resolved
  obtain ⟨profiles, resolvedProfiles, rest⟩ := bind_ok resolved
  obtain ⟨defaultName, resolvedDefault, same⟩ := bind_ok rest
  cases same
  have distinct := (resolve_profiles_fresh resolvedProfiles).1
  unfold resolveDefault at resolvedDefault
  by_cases noProfile : profiles.isEmpty = true
  · rw [if_pos noProfile, Except.ok.injEq] at resolvedDefault
    refine ⟨distinct, ?_, fun profile => absurd (List.isEmpty_iff.mp noProfile) profile⟩
    intro name isDefault
    rw [← resolvedDefault] at isDefault
    cases isDefault
  · rw [if_neg noProfile] at resolvedDefault
    split at resolvedDefault
    · cases resolvedDefault
    rename_i chosen _
    split at resolvedDefault
    · rename_i isNamed
      rw [Except.ok.injEq] at resolvedDefault
      refine ⟨distinct, ?_, fun _ isNone => ?_⟩
      · intro name isDefault
        rw [← resolvedDefault, Option.some.injEq] at isDefault
        obtain ⟨profile, member, sameName⟩ := List.any_eq_true.mp isNamed
        rw [← isDefault, ← of_decide_eq_true sameName]
        exact List.mem_map_of_mem member
      · dsimp only at isNone
        rw [← resolvedDefault] at isNone
        cases isNone
    · cases resolvedDefault

end Panoptikon.VectorQuants
