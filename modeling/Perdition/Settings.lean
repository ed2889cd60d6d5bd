import Perdition.Lib.Writes
import Perdition.Options

/-!
# The command line and the configuration file

`options.c` reads the options of the command line and then, through `config_file.c`, those of the
configuration file. What `poptGetNextOpt` delivers is the input: the options in their order and
whether an error or trailing arguments ended them. Three masks remember what the command line has
set, for the program is built with PAM and with SSL and so has every option.
-/
namespace Perdition.Settings

open Perdition.Lib (Write)

/-! ## Flags of `options` -/

/-- `OPT_ERR`. -/
def optErr : Flag := 0x1

/-- `OPT_CLEAR_MASK`. -/
def optClearMask : Flag := 0x2

/-- `OPT_SET_MASK`. -/
def optSetMask : Flag := 0x4

/-- `OPT_USE_MASK`. -/
def optUseMask : Flag := 0x8

/-- `OPT_SET_DEFAULT`. -/
def optSetDefault : Flag := 0x10

/-- `OPT_FILE`. -/
def optFile : Flag := 0x20

/-- `OPT_FIRST_CALL`. -/
def optFirstCall : Flag := optErr ||| optClearMask ||| optSetMask ||| optSetDefault

/-- The flag is among the flags. -/
def Among (flag flags : Flag) : Prop := flags &&& flag ≠ 0

instance (flag flags : Flag) : Decidable (Among flag flags) :=
  inferInstanceAs (Decidable (_ ≠ _))

/-! ## The members of `options_t` -/

/-- Options without an argument, each of which sets its member to one. -/
inductive FlagOption where
  | authenticateIn | noBindBanner | connectionLogging | clientServerSpecification | debug
  | inetdMode | noLookup | serverRespLine | usernameFromDatabase | quiet | noDaemon
  | tcpKeepalive | loginDisabled | sslCaAcceptSelfSigned | sslCertAcceptExpired
  | sslCertAcceptNotYetValid | sslCertAcceptSelfSigned | sslNoCertVerify
  | sslNoClientCertVerify | sslNoCnVerify | sslListenCompression | sslOutgoingCompression
  | sslNoCipherServerPreference
  deriving DecidableEq

/-- Options whose argument is the value of their member. -/
inductive TextOption where
  | domainDelimiter | explicitDomain | configFile | logFacility | group | imapCapability
  | managesieveCapability | popCapability | listenPort | mapLibrary | mapLibraryOpt | okLine
  | outgoingPort | username | pidFile | sslCaFile | sslCaPath | sslCaChainFile | sslCertFile
  | sslDhParamsFile | sslKeyFile | sslListenCiphers | sslOutgoingCiphers | sslPassphraseFile
  | sslListenMinProtoVersion | sslOutgoingMinProtoVersion | sslListenMaxProtoVersion
  | sslOutgoingMaxProtoVersion
  deriving DecidableEq

/-- Options whose argument has to be a number. -/
inductive NumberOption where
  | authenticateTimeout | connectRelog | connectionLimit | timeout | sslPassphraseFd
  deriving DecidableEq

/-- Options whose argument is a list that replaces their member. -/
inductive ArrayOption where
  | bindAddress | outgoingServer | queryKey
  deriving DecidableEq

/-- Options whose arguments are sets of bits that add up. -/
inductive BitsOption where
  | addDomain | stripDomain | lowerCase | sslMode
  deriving DecidableEq

/-- The members of `options_t` that an option gives a value. -/
inductive Field where
  | flag (name : FlagOption)
  | text (name : TextOption)
  | number (name : NumberOption)
  | array (name : ArrayOption)
  | bits (name : BitsOption)
  | addDomainStripDepth
  | protocol
  | logPasswd
  | sslCertVerifyDepth
  deriving DecidableEq

/-- The type of a member. An array is known by the pieces its option string has. -/
def Field.Value : Field → Type
  | .flag _ | .number _ | .protocol | .logPasswd | .sslCertVerifyDepth => Int
  | .text _ => Option CString
  | .array _ => Option (List CString)
  | .bits _ => Flag
  | .addDomainStripDepth => Nat

instance : (x : Field) → DecidableEq x.Value
  | .flag _ | .number _ | .protocol | .logPasswd | .sslCertVerifyDepth =>
    inferInstanceAs (DecidableEq Int)
  | .text _ => inferInstanceAs (DecidableEq (Option CString))
  | .array _ => inferInstanceAs (DecidableEq (Option (List CString)))
  | .bits _ => inferInstanceAs (DecidableEq Flag)
  | .addDomainStripDepth => inferInstanceAs (DecidableEq Nat)

/-- The members of `options_t` that are masks. -/
inductive MaskWord where
  | mask | mask2 | sslMask
  deriving DecidableEq

/-- `options_t`. -/
structure OptionsT where
  /-- The members that options set. -/
  values : (x : Field) → x.Value
  /-- The three masks. -/
  masks : MaskWord → Flag
  /-- `domain_delimiter_length`. -/
  domainDelimiterLength : Nat

/-! ## Masks -/

/-- `options_set_mask`: whether the option may be set, and the mask after that. -/
def optionsSetMask (mask entry flag : Flag) : Bool × Flag :=
  if Among optUseMask flag ∧ mask &&& entry ≠ 0 then (false, mask)
  else (true, if Among optSetMask flag then mask ||| entry else mask)

/-- The arguments of a call of `options_set_mask`. -/
structure Guard where
  /-- The mask that is looked at. -/
  word : MaskWord
  /-- `mask_entry`. -/
  entry : Flag
  /-- `flag`. -/
  flag : Flag

/-- The mask entries of the options without an argument. -/
def FlagOption.entry : FlagOption → MaskWord × Flag
  | .authenticateIn => (.mask, 0x2)
  | .noBindBanner => (.mask, 0x80000)
  | .connectionLogging => (.mask, 0x80) -- `MASK_DEBUG`
  | .clientServerSpecification => (.mask, 0x200)
  | .debug => (.mask, 0x80)
  | .inetdMode => (.mask, 0x1000)
  | .noLookup => (.mask, 0x200000)
  | .serverRespLine => (.mask, 0x2000000)
  | .usernameFromDatabase => (.mask, 0x20000000)
  | .quiet => (.mask, 0x80000000)
  | .noDaemon => (.mask, 0x100000)
  | .tcpKeepalive => (.mask2, 0x100)
  | .loginDisabled => (.mask, 0x4000)
  | .sslCaAcceptSelfSigned => (.sslMask, 0x8)
  | .sslCertAcceptExpired => (.sslMask, 0x20)
  | .sslCertAcceptNotYetValid => (.sslMask, 0x40)
  | .sslCertAcceptSelfSigned => (.sslMask, 0x80)
  | .sslNoCertVerify => (.sslMask, 0x1000)
  | .sslNoClientCertVerify => (.sslMask, 0x3000)
  | .sslNoCnVerify => (.sslMask, 0x4000)
  | .sslListenCompression => (.sslMask, 0x400000)
  | .sslOutgoingCompression => (.sslMask, 0x800000)
  | .sslNoCipherServerPreference => (.sslMask, 0x1000000)

/-- The mask entries of the options that are strings. -/
def TextOption.entry : TextOption → MaskWord × Flag
  | .domainDelimiter => (.mask, 0x100)
  | .explicitDomain => (.mask2, 0x4)
  | .configFile => (.mask, 0x400)
  | .logFacility => (.mask, 0x2000)
  | .group => (.mask, 0x800)
  | .imapCapability => (.mask2, 0x20)
  | .managesieveCapability => (.mask2, 0x40)
  | .popCapability => (.mask2, 0x80)
  | .listenPort => (.mask, 0x8000)
  | .mapLibrary => (.mask, 0x20000)
  | .mapLibraryOpt => (.mask, 0x40000)
  | .okLine => (.mask2, 0x1)
  | .outgoingPort => (.mask, 0x400000)
  | .username => (.mask, 0x10000000)
  | .pidFile => (.mask2, 0x2)
  | .sslCaFile => (.sslMask, 0x2)
  | .sslCaPath => (.sslMask, 0x4)
  | .sslCaChainFile => (.sslMask, 0x1)
  | .sslCertFile => (.sslMask, 0x10)
  | .sslDhParamsFile => (.sslMask, 0x20000)
  | .sslKeyFile => (.sslMask, 0x200)
  | .sslListenCiphers => (.sslMask, 0x800)
  | .sslOutgoingCiphers => (.sslMask, 0x800)
  | .sslPassphraseFile => (.sslMask, 0x10000)
  | .sslListenMinProtoVersion => (.sslMask, 0x40000)
  | .sslOutgoingMinProtoVersion => (.sslMask, 0x80000)
  | .sslListenMaxProtoVersion => (.sslMask, 0x100000)
  | .sslOutgoingMaxProtoVersion => (.sslMask, 0x200000)

/-- The mask entries of the options that are numbers. -/
def NumberOption.entry : NumberOption → MaskWord × Flag
  | .authenticateTimeout => (.mask2, 0x10)
  | .connectRelog => (.mask, 0x40)
  | .connectionLimit => (.mask, 0x10)
  | .timeout => (.mask, 0x8000000)
  | .sslPassphraseFd => (.sslMask, 0x8000)

/-- The mask entries of the options that are sets of bits. -/
def BitsOption.entry : BitsOption → MaskWord × Flag
  | .addDomain => (.mask, 0x1)
  | .stripDomain => (.mask, 0x4000000)
  | .lowerCase => (.mask, 0x10000)
  | .sslMode => (.sslMask, 0x400)

/-- The mask entries of the options that are lists. -/
def ArrayOption.entry : ArrayOption → Flag
  | .bindAddress => 0x4
  | .outgoingServer => 0x800000
  | .queryKey => 0x40000000

/-- What the case of an option passes to `options_set_mask` before it sets a member. -/
def Field.guard (f : Flag) : Field → Option Guard
  | .flag name => some ⟨name.entry.1, name.entry.2, f⟩
  | .text name => some ⟨name.entry.1, name.entry.2, f⟩
  | .number name => some ⟨name.entry.1, name.entry.2, f⟩
  | .bits name => some ⟨name.entry.1, name.entry.2, f⟩
  -- the cases of the lists have the entry and the flags in each other's place
  | .array name => some ⟨.mask, f, name.entry⟩
  | .addDomainStripDepth => none
  | .protocol => some ⟨.mask, 0x1000000, f⟩
  | .logPasswd => some ⟨.mask2, 0x8, f⟩
  | .sslCertVerifyDepth => some ⟨.sslMask, 0x100, f⟩

/-- A value for a member. -/
abbrev Assignment := Write Field.Value

/-- `opt_p`, `opt_i`, and what the cases without either of them do instead. -/
def Assignment.perform (f : Flag) (opt : OptionsT) (a : Assignment) : OptionsT :=
  match a.member.guard f with
  | none => { opt with values := Write.apply opt.values a }
  | some guard =>
    let (allowed, mask) := optionsSetMask (opt.masks guard.word) guard.entry guard.flag
    let opt := { opt with masks := Function.update opt.masks guard.word mask }
    if allowed then { opt with values := Write.apply opt.values a } else opt

/-- `opt_p` of a string. -/
def optP (name : TextOption) (value : CString) : Assignment :=
  ⟨.text name, fun _ => some value⟩

/-- `opt_i` of an option without an argument. -/
def optFlag (name : FlagOption) : Assignment := ⟨.flag name, fun _ => (1 : Int)⟩

/-- `opt_i` of a number. -/
def optI (name : NumberOption) (value : Int) : Assignment := ⟨.number name, fun _ => value⟩

/-- `opt_i_or`. -/
def optIOr (name : BitsOption) (value : Flag) : Assignment :=
  ⟨.bits name, fun (old : Flag) => old ||| value⟩

end Perdition.Settings
