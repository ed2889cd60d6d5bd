import Perdition.Settings

/-!
# Reading the options

`options`: the defaults, the switch over the options that popt delivers, and the checks after it.
`main` calls it for the command line and `config_file_to_opt` for the configuration file.
-/
namespace Perdition.Settings

/-- What the build and other libraries contribute. -/
structure Build where
  /-- `vanessa_socket_str_is_digit`. -/
  strIsDigit : CString → Bool
  /-- `vanessa_dynamic_array_split_str` at `OPT_KEY_DELIMITER`. -/
  splitStr : CString → List CString
  /-- `vanessa_config_file_check_exits` finds the file. -/
  configFileExists : CString → Bool
  /-- `PERDITION_SYSCONFDIR`. -/
  sysconfDir : CString
  /-- `PERDITION_LIBDIR`. -/
  libDir : CString
  /-- `PERDITION_PID_DIR`. -/
  pidDir : CString
  /-- `DEFAULT_GROUP`. -/
  group : CString
  /-- `DEFAULT_USERNAME`. -/
  username : CString

/-- An ordinary build, where no configuration file is found by its name. -/
def Build.sample : Build where
  strIsDigit text := text.content.all isDigit
  splitStr text := (text.content.splitOn 44).map cstr
  configFileExists _ := false
  sysconfDir := lit "/usr/local/etc/perdition"
  libDir := lit "/usr/local/lib"
  pidDir := lit "/usr/local/var/run"
  group := lit "nobody"
  username := lit "nobody"

/-- An option that `poptGetNextOpt` returns, with its argument where it has one. -/
inductive Given where
  | flag (name : FlagOption)
  | text (name : TextOption) (optarg : CString)
  | number (name : NumberOption) (optarg : CString)
  | array (name : ArrayOption) (optarg : CString)
  | bits (name : BitsOption) (optarg : CString)
  | help
  | capability (optarg : CString)
  | protocol (optarg : CString)
  | logPasswd (optarg : CString)
  | sslCertVerifyDepth (optarg : CString)
  deriving DecidableEq

/-- What popt makes of an argument vector. -/
structure Arguments where
  /-- `str_basename(argv[0])`. -/
  basename : CString
  /-- The options, in their order. -/
  given : List Given
  /-- After these, `poptGetNextOpt` returns an error. -/
  badOption : Bool
  /-- There are trailing arguments. -/
  trailing : Bool

/-- How a part of `options` ends. -/
inductive Ended where
  /-- It goes on with these options. -/
  | next (opt : OptionsT)
  /-- `options` returns -1 and leaves these options. -/
  | failed (opt : OptionsT)
  /-- The program exits. -/
  | exits

/-- `opt_err`. -/
def Ended.error (f : Flag) (opt : OptionsT) : Ended := if Among optErr f then .exits else .failed opt

/-- The options that are left, unless the program exits. -/
def Ended.left : Ended → Option OptionsT
  | .next opt | .failed opt => some opt
  | .exits => none

/-- What follows where a part of `options` goes on. -/
def Ended.andThen (ended : Ended) (rest : OptionsT → Ended) : Ended :=
  match ended with
  | .next opt => rest opt
  | other => other

/-! ## Arguments -/

/-- The pieces of an argument between its commas. -/
def pieces (optarg : CString) : List CString := (optarg.content.splitOn 44).map cstr

/-- `split_str_server_port`: an empty piece at the end is left out. -/
def splitStrServerPort (optarg : CString) : List CString :=
  if (pieces optarg).getLast? = some .empty then (pieces optarg).dropLast else pieces optarg

/-- The states that a piece of `OPT_MODIFY_USERNAME` names. -/
def modifyUsername (piece : CString) : Option Flag :=
  if strcaseEq piece (lit "all") then
    some (stateGetServer ||| stateLocalAuth ||| stateRemoteLogin)
  else if strcaseEq piece (lit "servername_lookup") || strcaseEq piece (lit "server_lookup") then
    some stateGetServer
  else if strcaseEq piece (lit "local_authentication") || strcaseEq piece (lit "local_auth") then
    some stateLocalAuth
  else if strcaseEq piece (lit "remote_login") then some stateRemoteLogin
  else none

/-- `SSL_MODE_NONE`. -/
def sslModeNone : Flag := 0x40

/-- The names of `OPT_SSL_MODE` and the bits they stand for. -/
def sslModes : List (CString × Flag) :=
  [(lit "none", sslModeNone), (lit "ssl_listen", sslModeSslListen),
    (lit "ssl_outgoing", sslModeSslOutgoing),
    (lit "ssl_all", sslModeSslOutgoing ||| sslModeSslListen),
    (lit "tls_listen", sslModeTlsListen), (lit "tls_outgoing", sslModeTlsOutgoing),
    (lit "tls_listen_force", sslModeTlsListenForce ||| sslModeTlsListen),
    (lit "tls_outgoing_force", sslModeTlsOutgoingForce ||| sslModeTlsOutgoing),
    (lit "tls_all_force", sslModeTlsListenForce ||| sslModeTlsOutgoingForce |||
      sslModeTlsOutgoing ||| sslModeTlsListen),
    (lit "tls_all", sslModeTlsOutgoing ||| sslModeTlsListen)]

/-- The bits that a piece of `OPT_SSL_MODE` stands for. -/
def sslModeOf (piece : CString) : Option Flag :=
  (sslModes.find? fun mode => strcaseEq piece mode.1).map (·.2)

/-- The combination that `OPT_SSL_MODE` calls invalid. -/
def sslModeInvalid (new old : Flag) : Bool :=
  let all := new ||| old
  let listen := sslModeSslListen ||| sslModeTlsListen
  let outgoing := sslModeSslOutgoing ||| sslModeTlsOutgoing
  (all &&& listen == listen || all &&& outgoing == outgoing) &&
    (new != sslModeNone || (old != sslModeNone && old != sslModeEmpty))

/-- `log_passwd_from_str`. -/
def logPasswdFromStr (str : CString) : Int :=
  if strcaseEq str (lit "never") then 0
  else if strcaseEq str (lit "fail") then 1
  else if strcaseEq str (lit "ok") then 2
  else if strcaseEq str (lit "always") then 3
  else -1

/-- `protocol_index`, of the protocols from 1 to 5. -/
def protocolIndex (name : CString) : Int :=
  if strcaseEq name (lit "MANAGESIEVE") then 5
  else if strcaseEq name (lit "IMAP4S") then 4
  else if strcaseEq name (lit "POP3S") then 3
  else if strcaseEq name (lit "IMAP4") then 2
  else if strcaseEq name (lit "POP3") then 1
  else -1

/-- `perdition_parse_ssl_proto_version`. -/
def parseSslProtoVersion (str : CString) : Int :=
  if strcaseEq str (lit "sslv3") then 0x300
  else if strcaseEq str (lit "tlsv1") then 0x301
  else if strcaseEq str (lit "tlsv1.1") then 0x302
  else if strcaseEq str (lit "tlsv1.2") then 0x303
  else -1

/-! ## The switch -/

/-- A case for every piece of an argument. -/
def eachPiece (piece : OptionsT → CString → Ended) : OptionsT → List CString → Ended
  | opt, [] => .next opt
  | opt, first :: rest => (piece opt first).andThen fun opt => eachPiece piece opt rest

/-- `OPT_MODIFY_USERNAME`. -/
def optModifyUsername (name : BitsOption) (f : Flag) (opt : OptionsT) (piece : CString) : Ended :=
  match modifyUsername piece with
  | some states => .next ((optIOr name states).perform f opt)
  | none => if Among optErr f then .exits else .next opt

/-- The member that a number in `add_domain` sets, which no mask guards. -/
def optStripDepth (value : Int) : Assignment :=
  ⟨.addDomainStripDepth, fun _ => (value % 2 ^ 32).toNat⟩

/-- `OPT_ADD_DOMAIN`. -/
def optAddDomain (build : Build) (f : Flag) (opt : OptionsT) (piece : CString) : Ended :=
  if build.strIsDigit piece then .next ((optStripDepth (atoi piece)).perform f opt)
  else optModifyUsername .addDomain f opt piece

/-- `OPT_SSL_MODE`: an unknown name stands for no bits. -/
def optSslMode (f : Flag) (opt : OptionsT) (piece : CString) : Ended :=
  let new := (sslModeOf piece).getD 0
  if Among optErr f ∧ ((sslModeOf piece).isNone ∨
      sslModeInvalid new (opt.values (.bits .sslMode)) = true) then .exits
  else .next ((optIOr .sslMode new).perform f opt)

/-- What `capability` does for one protocol. -/
def optCapability (name : TextOption) (optarg : CString) (f : Flag) (opt : OptionsT) : OptionsT :=
  let (allowed, mask) := optionsSetMask (opt.masks name.entry.1) name.entry.2 f
  let opt := { opt with masks := Function.update opt.masks name.entry.1 mask }
  if allowed then (optP name optarg).perform f opt else opt

/-- The list that the argument of an option stands for. -/
def ArrayOption.parse (build : Build) : ArrayOption → CString → List CString
  | .bindAddress | .outgoingServer => splitStrServerPort
  | .queryKey => build.splitStr

/-- The switch of `options`. -/
def optionCase (build : Build) (f : Flag) (opt : OptionsT) : Given → Ended
  | .flag name => .next ((optFlag name).perform f opt)
  | .text .pidFile optarg =>
    if !optarg.isEmpty && optarg.content.head? != some 47 then .exits
    else .next ((optP .pidFile optarg).perform f opt)
  | .text .configFile optarg =>
    if Among optFile f then .next opt else .next ((optP .configFile optarg).perform f opt)
  | .text name optarg => .next ((optP name optarg).perform f opt)
  | .number name optarg =>
    if build.strIsDigit optarg then .next ((optI name (atoi optarg)).perform f opt)
    else .error f opt
  | .array name optarg =>
    let list : Option (List CString) := some (name.parse build optarg)
    .next (Assignment.perform f opt ⟨.array name, fun _ => list⟩)
  | .bits .addDomain optarg => eachPiece (optAddDomain build f) opt (pieces optarg)
  | .bits .sslMode optarg => eachPiece (optSslMode f) opt (pieces optarg)
  | .bits name optarg => eachPiece (optModifyUsername name f) opt (pieces optarg)
  | .help => if Among optErr f ∧ ¬Among optFile f then .exits else .next opt
  | .capability optarg =>
    .next (optCapability .popCapability optarg f (optCapability .managesieveCapability optarg f
      (optCapability .imapCapability optarg f opt)))
  | .protocol optarg =>
    if protocolIndex optarg < 0 then .exits
    else .next (Assignment.perform f opt ⟨.protocol, fun _ => protocolIndex optarg⟩)
  | .logPasswd optarg =>
    let opt := Assignment.perform f opt ⟨.logPasswd, fun _ => logPasswdFromStr optarg⟩
    let logPasswd : Int := opt.values .logPasswd
    if logPasswd < 0 then .exits else .next opt
  | .sslCertVerifyDepth optarg =>
    .next (Assignment.perform f opt ⟨.sslCertVerifyDepth, fun _ => atoi optarg⟩)

/-- The loop over the options. -/
def optionLoop (build : Build) (f : Flag) : OptionsT → List Given → Ended
  | opt, [] => .next opt
  | opt, given :: rest =>
    (optionCase build f opt given).andThen fun opt => optionLoop build f opt rest

/-! ## The checks after the loop -/

/-- A version that is no version. -/
def unknownVersion (version : Option CString) : Bool :=
  version.any fun version => parseSslProtoVersion version < 0

/-- Both versions are there, and the first is the greater one. -/
def versionsCross (minimum maximum : Option CString) : Bool :=
  match minimum, maximum with
  | some minimum, some maximum => parseSslProtoVersion maximum < parseSslProtoVersion minimum
  | _, _ => false

/-- An empty maximum is none. -/
def nonempty (version : Option CString) : Option CString := version.filter fun v => !v.isEmpty

/-- A check of protocol versions. The one of the outgoing versions looks at the minimum for
listening as well. -/
def checkVersions (maximum : TextOption) (f : Flag) (opt : OptionsT) : Ended :=
  let minVer : Option CString := opt.values (.text .sslListenMinProtoVersion)
  if unknownVersion minVer then .error f opt
  else
    let maxVer : Option CString := nonempty (opt.values (.text maximum))
    let opt := { opt with values := Function.update opt.values (.text maximum) maxVer }
    if unknownVersion maxVer || versionsCross minVer maxVer then .error f opt else .next opt

/-- `ssl_passphrase_fd` and `ssl_passphrase_file` exclude each other. -/
def checkPassphrase (f : Flag) (opt : OptionsT) : Ended :=
  if opt.masks .sslMask &&& NumberOption.sslPassphraseFd.entry.2 ≠ 0 ∧
      opt.masks .sslMask &&& TextOption.sslPassphraseFile.entry.2 ≠ 0 then .error f opt
  else .next opt

/-- What `options` does after the loop. -/
def finish (arguments : Arguments) (f : Flag) (opt : OptionsT) : Ended :=
  (checkPassphrase f opt).andThen fun opt =>
  (checkVersions .sslListenMaxProtoVersion f opt).andThen fun opt =>
  (checkVersions .sslOutgoingMaxProtoVersion f opt).andThen fun opt =>
    if arguments.badOption then .error f opt
    else if arguments.trailing then .exits
    else
      let delimiter : Option CString := opt.values (.text .domainDelimiter)
      .next { opt with domainDelimiterLength := delimiter.elim 0 CString.length }

/-! ## Defaults -/

/-- The protocol that the name of the program stands for. -/
def programProtocol (basename : CString) : Int :=
  if basename = lit "perdition.imap4" then 2
  else if basename = lit "perdition.imap4s" || basename = lit "perdition.imaps" then 4
  else if basename = lit "perdition.pop3" then 1
  else if basename = lit "perdition.pop3s" then 3
  else if basename = lit "perdition.managesieve" then 5
  else 1

/-- The suffix that `config_file_name` has for a protocol. -/
def configFileSuffix (protocol : Int) : Option CString :=
  [(2, lit "imap4"), (4, lit "imap4s"), (1, lit "pop3"), (3, lit "pop3s"),
    (5, lit "managesieve")].lookup protocol

/-- `config_file_name`. -/
def configFileName (build : Build) (basename : CString) (protocol : Int) : Option CString :=
  let named := build.sysconfDir ++ lit "/" ++ basename ++ lit ".conf"
  if basename ≠ lit "perdition" ∧ build.configFileExists named = true then some named
  else
    (configFileSuffix protocol).bind fun suffix =>
      let special := build.sysconfDir ++ lit "/perdition." ++ suffix ++ lit ".conf"
      let general := build.sysconfDir ++ lit "/perdition.conf"
      [special, general].find? build.configFileExists

/-- The defaults of the options that are strings. -/
def TextOption.default (build : Build) (basename : CString) : TextOption → Option CString
  | .domainDelimiter => some (lit "@")
  | .configFile => configFileName build basename (programProtocol basename)
  | .logFacility => some (lit "mail")
  | .group => some build.group
  | .imapCapability => some (lit "IMAP4 IMAP4REV1")
  | .managesieveCapability => some (lit ("\"IMPLEMENTATION\" \"perdition\"  " ++
      "\"SIEVE\" \"comparator-i;octet comparator-i;ascii-casemap fileinto reject envelope " ++
      "encoded-character vacation subaddress comparator-i;ascii-numeric relational regex " ++
      "imap4flags copy include variables body enotify environment mailbox date\"  " ++
      "\"SASL\" \"PLAIN\"  \"NOTIFY\" \"mailto\"  \"VERSION\" \"1.0\""))
  | .popCapability => some (lit "UIDL.USER")
  | .listenPort | .outgoingPort => some (lit "protocol dependent")
  | .mapLibrary => some (build.libDir ++ lit "/libperditiondb_gdbm.so.0")
  | .okLine => some (lit "You are so in")
  | .username => some build.username
  | .pidFile =>
    some (build.pidDir ++ lit "/" ++ basename ++ lit "/" ++ basename ++ lit ".pid")
  | .sslCaPath => some (build.sysconfDir ++ lit "/perdition.ca/")
  | .sslCertFile => some (build.sysconfDir ++ lit "/perdition.crt.pem")
  | .sslKeyFile => some (build.sysconfDir ++ lit "/perdition.key.pem")
  | .sslListenMinProtoVersion | .sslOutgoingMinProtoVersion => some (lit "tlsv1")
  | .explicitDomain | .mapLibraryOpt | .sslCaFile | .sslCaChainFile | .sslDhParamsFile
  | .sslListenCiphers | .sslOutgoingCiphers | .sslPassphraseFile | .sslListenMaxProtoVersion
  | .sslOutgoingMaxProtoVersion => none

/-- The defaults of the options that are numbers. -/
def NumberOption.default : NumberOption → Int
  | .authenticateTimeout | .timeout => 1800
  | .connectRelog => 300
  | .connectionLimit | .sslPassphraseFd => 0

/-- The defaults. -/
def defaults (build : Build) (basename : CString) : (x : Field) → x.Value
  | .flag _ => (0 : Int)
  | .text name => name.default build basename
  | .number name => name.default
  | .array _ => (none : Option (List CString))
  | .bits _ => (0 : Flag)
  | .addDomainStripDepth => (1 : Nat)
  | .protocol => programProtocol basename
  | .logPasswd => (0 : Int)
  | .sslCertVerifyDepth => (9 : Int)

/-! ## The two calls -/

/-- What `options` does before the loop. Only the first call sets defaults and clears masks, and
`mask2` is not among those it clears. -/
def start (build : Build) (arguments : Arguments) (f : Flag) (opt : OptionsT) : OptionsT where
  values := if Among optSetDefault f then defaults build arguments.basename else opt.values
  masks word :=
    if Among optClearMask f ∧ word ≠ .mask2 then 0 else opt.masks word
  domainDelimiterLength := opt.domainDelimiterLength

/-- `options`. -/
def options (build : Build) (arguments : Arguments) (f : Flag) (opt : OptionsT) : Ended :=
  (optionLoop build f (start build arguments f opt) arguments.given).andThen
    (finish arguments f)

/-- `opt` at the start of the program, when every member of it is zero. -/
def OptionsT.initial : OptionsT where
  values
    | .flag _ | .number _ | .protocol | .logPasswd | .sslCertVerifyDepth => (0 : Int)
    | .text _ => (none : Option CString)
    | .array _ => (none : Option (List CString))
    | .bits _ => (0 : Flag)
    | .addDomainStripDepth => (0 : Nat)
  masks _ := 0
  domainDelimiterLength := 0

/-- `config_file_to_opt`, where `read` is `vanessa_config_file_read`. -/
def configFileToOpt (build : Build) (read : CString → Option Arguments)
    (filename : Option CString) (opt : OptionsT) : Ended :=
  match filename.filter fun name => !name.isEmpty with
  | none => .next opt
  | some name =>
    match read name with
    | none => .next opt
    | some arguments => options build arguments (optUseMask ||| optFile) opt

/-- The part of `main` that reads the options, if the program does not exit in it. Whatever
`options` returns, the program goes on with what it has set. -/
def mainOptions (build : Build) (read : CString → Option Arguments) (arguments : Arguments) :
    Option OptionsT :=
  (options build arguments optFirstCall .initial).left.bind fun opt =>
    (configFileToOpt build read (opt.values (.text .configFile)) opt).left

end Perdition.Settings
