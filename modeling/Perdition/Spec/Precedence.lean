import Perdition.CommandLine

/-!
# Which source an option has its value from

What the options of a source set, were there no masks, is a list of writes. The value of an option
should be the one of the command line where the command line gives the option, else the one of the
configuration file where that gives it, else the default.
-/
namespace Perdition.Settings

open Perdition.Lib (Write)

/-- The flags of the call for the configuration file. -/
def optFileCall : Flag := optUseMask ||| optFile

/-- What an option sets, were it the only one. The configuration file cannot name another one. -/
def Given.assignments (build : Build) (f : Flag) : Given → List Assignment
  | .flag name => [optFlag name]
  | .text .configFile optarg => if Among optFile f then [] else [optP .configFile optarg]
  | .text name optarg => [optP name optarg]
  | .number name optarg => if build.strIsDigit optarg then [optI name (atoi optarg)] else []
  | .array name optarg =>
    let list : Option (List CString) := some (name.parse build optarg)
    [⟨.array name, fun _ => list⟩]
  | .bits .addDomain optarg => (pieces optarg).flatMap fun piece =>
    if build.strIsDigit piece then [optStripDepth (atoi piece)]
    else ((modifyUsername piece).map (optIOr .addDomain)).toList
  | .bits .sslMode optarg =>
    (pieces optarg).map fun piece => optIOr .sslMode ((sslModeOf piece).getD 0)
  | .bits name optarg => (pieces optarg).flatMap fun piece =>
    ((modifyUsername piece).map (optIOr name)).toList
  | .help => []
  | .capability optarg =>
    [optP .imapCapability optarg, optP .managesieveCapability optarg, optP .popCapability optarg]
  | .protocol optarg => [⟨.protocol, fun _ => protocolIndex optarg⟩]
  | .logPasswd optarg => [⟨.logPasswd, fun _ => logPasswdFromStr optarg⟩]
  | .sslCertVerifyDepth optarg => [⟨.sslCertVerifyDepth, fun _ => atoi optarg⟩]

/-- What the options of a source set. -/
def assignments (build : Build) (f : Flag) (given : List Given) : List Assignment :=
  given.flatMap (Given.assignments build f)

/-- The option that a member belongs to: the strip depth is given with `add_domain`. -/
def Field.option : Field → Field
  | .addDomainStripDepth => .bits .addDomain
  | x => x

/-- The writes name the member. -/
def Sets (writes : List Assignment) (x : Field) : Prop := x ∈ writes.map Write.member

/-- The option of the member is given. -/
def Gives (writes : List Assignment) (x : Field) : Prop :=
  x.option ∈ writes.map fun a => a.member.option

instance (writes : List Assignment) (x : Field) : Decidable (Sets writes x) :=
  inferInstanceAs (Decidable (_ ∈ _))

instance (writes : List Assignment) (x : Field) : Decidable (Gives writes x) :=
  inferInstanceAs (Decidable (_ ∈ _))

/-- What a value stands for: an empty maximum version is none. -/
def Field.settle : (x : Field) → x.Value → x.Value
  | .text .sslListenMaxProtoVersion, value => nonempty value
  | .text .sslOutgoingMaxProtoVersion, value => nonempty value
  | _, value => value

/-- The two sources of options, and the defaults. -/
structure Sources where
  /-- The defaults. -/
  default : (x : Field) → x.Value
  /-- What the command line sets. -/
  commandLine : List Assignment
  /-- What the configuration file sets. -/
  file : List Assignment

/-- The value an option should have. -/
def Sources.value (sources : Sources) (x : Field) : x.Value :=
  if Gives sources.commandLine x then
    x.settle (Write.run sources.commandLine sources.default x)
  else x.settle (Write.run sources.file sources.default x)

/-- The options of the configuration file that the command line, or the default, names. -/
def configuration (build : Build) (read : CString → Option Arguments) (arguments : Arguments) :
    List Given :=
  let named : Option CString :=
    Write.run (assignments build optFirstCall arguments.given)
      (defaults build arguments.basename) (.text .configFile)
  ((named.filter fun name => !name.isEmpty).bind read).elim [] (·.given)

/-- The sources of a run of the program. -/
def sources (build : Build) (read : CString → Option Arguments) (arguments : Arguments) :
    Sources where
  default := defaults build arguments.basename
  commandLine := assignments build optFirstCall arguments.given
  file := assignments build optFileCall (configuration build read arguments)

/-- Every option has the value it should have. -/
def Precedence (sources : Sources) (opt : OptionsT) : Prop :=
  ∀ x, opt.values x = sources.value x

/-! ## Where the masks fail -/

/-- The members whose options, given on the command line, keep the configuration file from setting
a member. -/
def Field.holders : Field → List Field
  | .array _ | .addDomainStripDepth => []
  | .bits .addDomain => [.bits .addDomain, .array .bindAddress]
  | .flag .authenticateIn => [.flag .authenticateIn, .array .bindAddress]
  | .number .connectionLimit => [.number .connectionLimit, .array .bindAddress]
  | .flag .debug | .flag .connectionLogging => [.flag .debug, .flag .connectionLogging]
  | .flag .sslNoCertVerify | .flag .sslNoClientCertVerify =>
    [.flag .sslNoCertVerify, .flag .sslNoClientCertVerify]
  | .text .sslListenCiphers | .text .sslOutgoingCiphers =>
    [.text .sslListenCiphers, .text .sslOutgoingCiphers]
  | x => [x]

/-- The command line keeps the configuration file from setting the member. -/
def Held (commandLine : List Assignment) (x : Field) : Prop :=
  ∃ y ∈ x.holders, Sets commandLine y

instance (commandLine : List Assignment) : DecidablePred (Held commandLine) := fun _ =>
  inferInstanceAs (Decidable (∃ y ∈ _, _))

/-- The argument of an option that needs a number is one. -/
def Given.wellFormed (build : Build) : Given → Bool
  | .number _ optarg => build.strIsDigit optarg
  | _ => true

/-- The versions for listening are versions, and in their order. -/
def listenVersionsValid (minimum maximum : Option CString) : Prop :=
  unknownVersion minimum = false ∧ unknownVersion maximum = false ∧
    versionsCross minimum maximum = false

/-- The options on which the masks and the early ends of `options` make no difference. -/
structure Undisturbed (sources : Sources) (build : Build) (file : List Given) : Prop where
  /-- Where the command line gives a list option, or an `add_domain` that the masks do not hold,
  the file sets the same value or none. -/
  overridden : ∀ x, Gives sources.commandLine x → ¬Held sources.commandLine x →
    let before := assignments build optFileCall (file.takeWhile (Given.wellFormed build))
    Sets before x →
      Write.run before sources.default x = Write.run sources.commandLine sources.default x
  /-- Where the command line holds an option without giving it, the file leaves it at its
  default. -/
  shadowed : ∀ x, ¬Gives sources.commandLine x → Held sources.commandLine x →
    Write.run sources.file sources.default x = sources.default x
  /-- What follows a bad number in the file changes nothing. -/
  stopped : ¬file.all (Given.wellFormed build) → ∀ x, ¬Gives sources.commandLine x →
    ¬Held sources.commandLine x →
    let before := assignments build optFileCall (file.takeWhile (Given.wellFormed build))
    Write.run before sources.default x = x.settle (Write.run sources.file sources.default x)
  /-- An empty maximum version in the file is not behind a version that is refused. -/
  listen : file.all (Given.wellFormed build) →
    Write.run sources.file sources.default (.text .sslListenMaxProtoVersion) = some CString.empty →
    ¬Gives sources.commandLine (.text .sslListenMaxProtoVersion) →
    unknownVersion (sources.value (.text .sslListenMinProtoVersion)) = false
  /-- Neither is one for the outgoing connection. -/
  outgoing : file.all (Given.wellFormed build) →
    Write.run sources.file sources.default (.text .sslOutgoingMaxProtoVersion) =
      some CString.empty →
    ¬Gives sources.commandLine (.text .sslOutgoingMaxProtoVersion) →
    listenVersionsValid (sources.value (.text .sslListenMinProtoVersion))
      (sources.value (.text .sslListenMaxProtoVersion))

end Perdition.Settings
