import Perdition.Options
import Perdition.Str

/-!
# User names

`username.c`. Each function returns the pointer it was given where it changes nothing, which
matters to a caller that writes through the result; `Mangled` says whether that is so.
-/
namespace Perdition

/-- A user name and whether it is the string that was passed in. -/
structure Mangled where
  /-- The user name. -/
  name : CString
  /-- The pointer of the caller is returned. -/
  same : Bool
  deriving DecidableEq

/-- The levels of a host name left after leaving out the leading ones; none are left where a level
has no dot after it. -/
def stripLevels : Nat → List Byte → Option (List Byte)
  | 0, domain => some domain
  | _ + 1, [] => some []
  | depth + 1, domain => match strstr domain (bytes ".") with
    | none => none
    | some place => stripLevels depth (domain.drop (place + 1))

/-- `username_add_domain`. -/
def usernameAddDomain (opt : Options) (platform : Platform) (username : CString) (state : Flag)
    (stripDepth : Nat) : Option Mangled :=
  let keep := some ⟨username, true⟩
  let add (domain : CString) := some ⟨username ++ opt.domainDelimiter ++ domain, false⟩
  if !opt.addDomain.has state then keep
  else if (strstr username.content opt.domainDelimiter.content).isSome then keep
  else match opt.explicitDomain with
    | some domain => add domain
    | none => match platform.sockname with
      | none => keep
      | some none => none
      | some (some host) => match stripLevels stripDepth host.content with
        | none => keep
        | some [] => keep
        | some domain => add (cstr domain)

/-- `username_strip`. -/
def usernameStrip (opt : Options) (username : CString) (state : Flag) : Mangled :=
  if !opt.stripDomain.has state then ⟨username, true⟩
  else if state = stateGetServer ∧ opt.clientServerSpecification then ⟨username, true⟩
  else match strrstr username.content opt.domainDelimiter.content with
    | none => ⟨username, true⟩
    | some place => ⟨cstr (username.content.take place), false⟩

/-- `username_lower_case`. -/
def usernameLowerCase (opt : Options) (username : CString) (state : Flag) : Mangled :=
  if !opt.lowerCase.has state then ⟨username, true⟩
  else ⟨cstr (username.content.map toLower), false⟩

/-- `username_mangle`. -/
def usernameMangle (opt : Options) (platform : Platform) (username : CString) (state : Flag) :
    Option Mangled := do
  let stripped := usernameStrip opt username state
  let added ← usernameAddDomain opt platform stripped.name state opt.addDomainStripDepth
  let lowered := usernameLowerCase opt added.name state
  return ⟨lowered.name, stripped.same && added.same && lowered.same⟩

end Perdition
