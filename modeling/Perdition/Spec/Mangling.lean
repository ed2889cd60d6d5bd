import Perdition.Username
import Perdition.Verif.Rightmost

/-!
# What user name mangling is for

A name is cut at its last delimiter, gets a domain and is written in lower case, each where the
options say so.
-/
namespace Perdition

/-- What is left of a host name without so many labels at its start. -/
def WithoutLabels (depth : Nat) (host rest : List Byte) : Prop :=
  ∃ labels : List (List Byte), labels.length = depth ∧ (∀ label ∈ labels, (46 : Byte) ∉ label) ∧
    host = labels.flatMap (· ++ [46]) ++ rest

variable (opt : Options) (platform : Platform) (state : Flag)

/-- A state in which names are cut. -/
def Strips : Prop :=
  opt.stripDomain.has state = true ∧
    ¬ (state = stateGetServer ∧ opt.clientServerSpecification = true)

/-- A name cut at the last delimiter in it. An empty delimiter is found at the start of a name. -/
inductive CutLast (delimiter : List Byte) : List Byte → List Byte → Prop where
  /-- There is none. -/
  | absent {name : List Byte} (none_ : ¬ delimiter <:+: name) : CutLast delimiter name name
  /-- The last one and what follows it go. -/
  | last {before after : List Byte} (some_ : delimiter ≠ []) (last : Rightmost delimiter after) :
    CutLast delimiter (before ++ delimiter ++ after) before
  /-- Everything goes. -/
  | empty {name : List Byte} (none_ : delimiter = []) : CutLast delimiter name []

/-- The domain to add: the one that is set, or what is left of the host name. -/
inductive Domain : List Byte → Prop where
  /-- It is set. -/
  | explicit {domain : CString} (set : opt.explicitDomain = some domain) : Domain domain.content
  /-- It is left of the host name. -/
  | host {host : CString} {rest : List Byte} (unset : opt.explicitDomain = none)
    (named : platform.sockname = some (some host))
    (left : WithoutLabels opt.addDomainStripDepth host.content rest) (some_ : rest ≠ []) :
    Domain rest

/-- A name with a domain where it has none and there is one. -/
inductive WithDomain : List Byte → List Byte → Prop where
  /-- No domain is added in this state. -/
  | off {name : List Byte} (off : opt.addDomain.has state = false) : WithDomain name name
  /-- A delimiter remains. -/
  | delimited {name : List Byte} (found : opt.domainDelimiter.content <:+: name) :
    WithDomain name name
  /-- There is no domain to add. -/
  | nowhere {name : List Byte} (none_ : ∀ domain, ¬ Domain opt platform domain) :
    WithDomain name name
  /-- The delimiter and a domain are added. -/
  | added {name domain : List Byte} (on : opt.addDomain.has state = true)
    (none_ : ¬ opt.domainDelimiter.content <:+: name) (some_ : Domain opt platform domain) :
    WithDomain name (name ++ opt.domainDelimiter.content ++ domain)

/-- A name in the case of the state. -/
def inCase (name : List Byte) : List Byte :=
  if opt.lowerCase.has state then name.map toLower else name

/-- The name that is cut, if this state cuts names. -/
def StrippedTo (name stripped : List Byte) : Prop :=
  (Strips opt state → CutLast opt.domainDelimiter.content name stripped) ∧
    (¬ Strips opt state → stripped = name)

/-- The mangled name. -/
def MangledTo (name mangled : List Byte) : Prop :=
  ∃ stripped added, StrippedTo opt state name stripped ∧
    WithDomain opt platform state stripped added ∧ mangled = inCase opt state added

/-- The host name is needed, and `getnameinfo` does not find it. -/
def HostUnknown (name : List Byte) : Prop :=
  opt.addDomain.has state = true ∧ opt.explicitDomain = none ∧ platform.sockname = some none ∧
    ∀ stripped, StrippedTo opt state name stripped → ¬ opt.domainDelimiter.content <:+: stripped

end Perdition
