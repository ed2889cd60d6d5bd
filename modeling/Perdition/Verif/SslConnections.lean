import Perdition.SslConnection
import Perdition.Verif.CertificateNames

/-!
# Which SSL connections are made

The callback lets a chain pass exactly if every certificate of it is acceptable, whatever error an earlier
one has left behind. The result of the verification is therefore looked at in vain afterwards, but for the
time of an expired certificate. A server takes a client without a certificate, whatever the options are.
-/
namespace Perdition

/-! ## Chains of certificates -/

/-- The errors that the options tolerate. -/
def SslOptions.Tolerates (opt : SslOptions) : X509V → Prop
  | .ok => True
  | .certNotYetValid => opt.certAcceptNotYetValid
  | .certHasExpired => opt.certAcceptExpired
  | .depthZeroSelfSignedCert => opt.certAcceptSelfSigned
  | .selfSignedCertInChain => opt.caAcceptSelfSigned
  | .certChainTooLong => False
  | .other _ => False

/-- A certificate of a chain that does not end its verification. -/
structure Acceptable (opt : SslOptions) (report : VerifyReport) : Prop where
  /-- Its name can be logged. -/
  printed : opt.debug → report.printed
  /-- It is not too far from the first. -/
  depth : report.depth ≤ opt.certVerifyDepth
  /-- What is wrong with it is tolerated. -/
  tolerated : ∀ error ∈ report.error, opt.Tolerates error
  /-- If it has expired its time can be logged. -/
  timePrinted : report.error = some .certHasExpired → report.timePrinted

/-- The error that the last of the certificates with one leaves behind. -/
def lastError : List VerifyReport → X509V → X509V
  | [], error => error
  | report :: rest, error => lastError rest (report.error.getD error)

theorem perditionVerifyResult_iff (opt : SslOptions) (verify : X509V) (timePrinted : Bool) :
    perditionVerifyResult opt verify timePrinted = .ok ↔
      opt.Tolerates verify ∧ (verify = .certHasExpired → timePrinted) := by
  cases verify with
  | ok => simp [perditionVerifyResult, SslOptions.Tolerates]
  | certNotYetValid => simp [perditionVerifyResult, SslOptions.Tolerates]
  | certHasExpired =>
    cases timePrinted <;> simp [perditionVerifyResult, SslOptions.Tolerates]
  | depthZeroSelfSignedCert => simp [perditionVerifyResult, SslOptions.Tolerates]
  | selfSignedCertInChain => simp [perditionVerifyResult, SslOptions.Tolerates]
  | certChainTooLong => simp [perditionVerifyResult, SslOptions.Tolerates]
  | other code => simp [perditionVerifyResult, SslOptions.Tolerates]

/-- The error that was left behind does not matter. -/
theorem perditionVerifyCallback_iff (opt : SslOptions) (report : VerifyReport) (error : X509V) :
    (perditionVerifyCallback opt report (report.error.getD error)).1 = true ↔
      Acceptable opt report := by
  have parts : Acceptable opt report ↔ (opt.debug → report.printed) ∧
      report.depth ≤ opt.certVerifyDepth ∧ ∀ wrong ∈ report.error,
        opt.Tolerates wrong ∧ (wrong = .certHasExpired → report.timePrinted) := by
    constructor
    · exact fun fine => ⟨fine.printed, fine.depth, fun wrong found =>
        ⟨fine.tolerated wrong found, fun expired => fine.timePrinted (expired ▸ found)⟩⟩
    · exact fun fine => ⟨fine.1, fine.2.1, fun wrong found => (fine.2.2 wrong found).1,
        fun expired => (fine.2.2 _ expired).2 rfl⟩
  rw [parts]
  unfold perditionVerifyCallback
  by_cases dark : (opt.debug && !report.printed) = true
  · rw [if_pos dark]
    simp only [Bool.and_eq_true, Bool.not_eq_true'] at dark
    simp [dark.1, dark.2]
  have shown : opt.debug → report.printed := by simpa using dark
  rw [if_neg dark, and_iff_right shown]
  by_cases deep : opt.certVerifyDepth < report.depth
  · rw [if_pos deep]
    simp [not_le.mpr deep]
  rw [if_neg deep, and_iff_right (not_lt.mp deep)]
  cases known : report.error with
  | none => split <;> simp
  | some wrong =>
    simp only [Option.getD_some, Option.mem_def, Option.some.injEq, forall_eq']
    rw [← perditionVerifyResult_iff]
    split
    next fine => exact iff_of_true rfl fine
    next refused => exact iff_of_false (by simp) refused

/-- An error is kept until there is another. -/
theorem perditionVerifyCallback_error (opt : SslOptions) (report : VerifyReport) (error : X509V)
    (passed : (perditionVerifyCallback opt report error).1 = true) :
    (perditionVerifyCallback opt report error).2 = error := by
  unfold perditionVerifyCallback at passed ⊢
  split
  · rfl
  next shown =>
    rw [if_neg shown] at passed
    split
    next deep =>
      rw [if_pos deep] at passed
      cases passed
    next =>
      split <;> rfl

/-- A chain passes if each of its certificates is acceptable. -/
theorem x509VerifyCert_iff (opt : SslOptions) (reports : List VerifyReport) (error : X509V) :
    (x509VerifyCert opt reports error).1 = true ↔ ∀ report ∈ reports, Acceptable opt report := by
  induction reports generalizing error with
  | nil => simp [x509VerifyCert]
  | cons report rest ih =>
    have one := perditionVerifyCallback_iff opt report error
    rw [x509VerifyCert, List.forall_mem_cons, ← one]
    rcases perditionVerifyCallback opt report (report.error.getD error) with ⟨passed, left⟩
    cases passed with
    | false => simp
    | true => simp [ih left]

/-- What is left behind by a chain that passes. -/
theorem x509VerifyCert_error (opt : SslOptions) (reports : List VerifyReport) (error : X509V)
    (passed : (x509VerifyCert opt reports error).1 = true) :
    (x509VerifyCert opt reports error).2 = lastError reports error := by
  induction reports generalizing error with
  | nil => rfl
  | cons report rest ih =>
    have kept := perditionVerifyCallback_error opt report (report.error.getD error)
    rw [x509VerifyCert] at passed ⊢
    generalize perditionVerifyCallback opt report (report.error.getD error) = answer at kept passed ⊢
    rcases answer with ⟨fine, left⟩
    cases fine with
    | false => cases passed
    | true =>
      have same : left = report.error.getD error := kept rfl
      rw [lastError, ← same]
      exact ih left passed

/-- What is left behind was tolerated. -/
theorem lastError_tolerated {opt : SslOptions} {reports : List VerifyReport} {error : X509V}
    (start : opt.Tolerates error) (all : ∀ report ∈ reports, Acceptable opt report) :
    opt.Tolerates (lastError reports error) := by
  induction reports generalizing error with
  | nil => exact start
  | cons report rest ih =>
    apply ih _ fun other member => all other (List.mem_cons_of_mem _ member)
    cases known : report.error with
    | none => exact start
    | some wrong => exact (all report List.mem_cons_self).tolerated wrong known

/-! ## Connections -/

/-- The handshake and what is around it go well, apart from certificates. -/
structure SslPeer.Secured (peer : SslPeer) : Prop where
  /-- `SSL_new`. -/
  sslNew : peer.sslNew
  /-- `io_create_ssl`. -/
  ioCreateSsl : peer.ioCreateSsl
  /-- `io_set_socket_timeout`. -/
  setTimeout : peer.setTimeout
  /-- `SSL_connect` or `SSL_accept`. -/
  handshake : peer.handshake
  /-- `io_set_socket_timeout` with 0. -/
  clearTimeout : peer.clearTimeout

/-- The names of a certificate can be logged where they are. -/
def SslPeer.Logged (opt : SslOptions) (peer : SslPeer) : Prop :=
  opt.debug → peer.subjectPrinted → peer.issuerPrinted

/-- What `SSL_get_verify_result` can return of a connection. -/
def Verified (opt : SslOptions) (ctx : SslCtx) (flag : SslFlag) (peer : SslPeer) (result : X509V) :
    Prop :=
  (peer.presented ctx flag = none → result = .ok) ∧
    (peer.presented ctx flag ≠ none → ctx.verify = some .peer →
      (∀ report ∈ peer.reports, Acceptable opt report) ∧ result = lastError peer.reports .ok) ∧
    (peer.presented ctx flag ≠ none → ctx.verify ≠ some .peer → result = peer.unverified)

theorem perditionSslConnection_iff (opt : SslOptions) (ctx : SslCtx) (flag : SslFlag)
    (peer : SslPeer) (result : X509V) :
    perditionSslConnection opt ctx flag peer = some result ↔
      peer.Secured ∧ Verified opt ctx flag peer result := by
  have parts : peer.Secured ↔ peer.sslNew ∧ peer.ioCreateSsl ∧ peer.setTimeout ∧ peer.handshake ∧
      peer.clearTimeout :=
    ⟨fun fine => ⟨fine.1, fine.2, fine.3, fine.4, fine.5⟩,
      fun fine => ⟨fine.1, fine.2.1, fine.2.2.1, fine.2.2.2.1, fine.2.2.2.2⟩⟩
  rw [parts]
  simp only [perditionSslConnection, Option.bind_eq_bind, Option.bind_eq_some_iff,
    Option.guard_eq_some', exists_and_left, exists_const, Option.pure_def, Verified, and_assoc]
  apply and_congr_right; intro _
  apply and_congr_right; intro _
  apply and_congr_right; intro _
  apply and_congr_right; intro _
  cases peer.presented ctx flag with
  | none => simp [Option.bind_eq_some_iff, @eq_comm _ result]
  | some cert =>
    by_cases verify : ctx.verify = some .peer
    · rw [verify]
      have passed := x509VerifyCert_iff opt peer.reports .ok
      have left := x509VerifyCert_error opt peer.reports .ok
      by_cases fine : (x509VerifyCert opt peer.reports .ok).1 = true
      · simpa [fine, left fine, Option.bind_eq_some_iff, @eq_comm _ result] using
          fun _ _ => passed.mp fine
      · simp [fine, mt passed.mpr fine]
    · cases known : ctx.verify with
      | none => simp [Option.bind_eq_some_iff, @eq_comm _ result]
      | some mode =>
        cases mode with
        | none => simp [Option.bind_eq_some_iff, @eq_comm _ result]
        | peer => exact absurd known verify

theorem verified_exists {opt : SslOptions} {ctx : SslCtx} {flag : SslFlag} {peer : SslPeer}
    (chain : peer.presented ctx flag ≠ none → ctx.verify = some .peer →
      ∀ report ∈ peer.reports, Acceptable opt report) :
    ∃ result, Verified opt ctx flag peer result := by
  by_cases absent : peer.presented ctx flag = none
  · exact ⟨.ok, fun _ => rfl, absurd absent, absurd absent⟩
  by_cases verify : ctx.verify = some .peer
  · exact ⟨_, (absurd · absent), fun _ _ => ⟨chain absent verify, rfl⟩, fun _ other => absurd verify other⟩
  · exact ⟨_, (absurd · absent), fun _ same => absurd same verify, fun _ _ => rfl⟩

/-! ## Checks after the handshake -/

/-- A place of certificate authorities is given and is not empty. -/
def Given (place : Option CString) : Prop := ∃ name ∈ place, name.isEmpty = false

/-- The certificate is accepted for the name of the server, where that is looked at. -/
def NameAccepted (opt : SslOptions) (idnaToAscii : CString → Option CString)
    (cert : Option Certificate) (server : Option CString) : Prop :=
  opt.noCnVerify = false → ∀ name ∈ server, ∃ ascii, idnaToAscii name = some ascii ∧
    ∃ found ∈ cert, AcceptedAmong ascii found.readable

theorem perditionSslCheckName_nonneg (noCnVerify : Bool) (idnaToAscii : CString → Option CString)
    (cert : Option Certificate) (key : Option CString)
    (nonneg : 0 ≤ perditionSslCheckName noCnVerify idnaToAscii cert key) :
    perditionSslCheckName noCnVerify idnaToAscii cert key = 0 := by
  unfold perditionSslCheckName at nonneg ⊢
  grind

theorem nameAccepted_iff (opt : SslOptions) (idnaToAscii : CString → Option CString)
    (cert : Option Certificate) (server : Option CString) :
    0 ≤ perditionSslCheckName opt.noCnVerify idnaToAscii cert server ↔
      NameAccepted opt idnaToAscii cert server := by
  have zero : 0 ≤ perditionSslCheckName opt.noCnVerify idnaToAscii cert server ↔
      perditionSslCheckName opt.noCnVerify idnaToAscii cert server = 0 :=
    ⟨perditionSslCheckName_nonneg _ _ _ _, fun same => same ▸ le_refl _⟩
  rw [zero, NameAccepted]
  cases opt.noCnVerify with
  | true => simp [perditionSslCheckName]
  | false =>
    cases server with
    | none => simp [perditionSslCheckName]
    | some name =>
      cases converted : idnaToAscii name with
      | none => simp [perditionSslCheckName, converted]
      | some ascii =>
        cases cert with
        | none => simp [perditionSslCheckName, converted]
        | some found =>
          rw [perditionSslCheckName_iff found converted]
          simp [converted]

/-- What `__perdition_ssl_check_certificate` accepts. -/
theorem perditionSslCheckCertificate_iff (opt : SslOptions) (idnaToAscii : CString → Option CString)
    (peer : SslPeer) (cert : Option Certificate) (result : X509V)
    (caFile caPath server : Option CString) :
    0 ≤ perditionSslCheckCertificate opt idnaToAscii peer cert result caFile caPath server ↔
      (cert ≠ none → peer.Logged opt) ∧
        (opt.noCertVerify = false → Given caFile ∨ Given caPath →
          opt.Tolerates result ∧ (result = .certHasExpired → peer.timePrinted)) ∧
        NameAccepted opt idnaToAscii cert server := by
  have logged : 0 ≤ perditionSslLogCertificate opt peer cert ↔ (cert ≠ none → peer.Logged opt) := by
    unfold perditionSslLogCertificate SslPeer.Logged
    cases cert with
    | none => simp
    | some found =>
      cases opt.debug <;> cases peer.subjectPrinted <;> cases peer.issuerPrinted <;> simp
  have given (place : Option CString) : place.any (!·.isEmpty) = true ↔ Given place := by
    cases place <;> simp [Given]
  rw [perditionSslCheckCertificate, ← logged, ← nameAccepted_iff]
  by_cases failed : perditionSslLogCertificate opt peer cert < 0
  · rw [if_pos failed]
    exact iff_of_false (not_le.mpr failed) fun all => not_le.mpr failed all.1
  rw [if_neg failed, and_iff_right (not_lt.mp failed)]
  simp only [← given, ← perditionVerifyResult_iff, Bool.and_eq_true, Bool.or_eq_true,
    Bool.not_eq_true', decide_eq_true_eq]
  split
  next refused =>
    apply iff_of_false (by decide)
    exact fun all => refused.2 (all.1 refused.1.1 refused.1.2)
  next fine =>
    rw [and_iff_right]
    intro verify places
    by_contra refused
    exact fine ⟨⟨verify, places⟩, refused⟩

/-! ## Contexts -/

/-- The lowest version that is configured for a side. -/
def SslOptions.minProtoVersion (opt : SslOptions) (flag : SslFlag) : Option CString :=
  if flag = .client then opt.outgoingMinProtoVersion else opt.listenMinProtoVersion

/-- The highest version that is configured for a side. -/
def SslOptions.maxProtoVersion (opt : SslOptions) (flag : SslFlag) : Option CString :=
  if flag = .client then opt.outgoingMaxProtoVersion else opt.listenMaxProtoVersion

/-- A version that can be read and set. -/
def VersionSet (set : Int → Bool) (version : Option CString) : Prop :=
  ∀ text ∈ version, 0 ≤ perditionParseSslProtoVersion text ∧ set (perditionParseSslProtoVersion text)

/-- What has to go well for the side's own part of a context. -/
structure OwnMade (opt : SslOptions) (calls : SslCalls) (cert privkey dhParamsFile : Option CString)
    (flag : SslFlag) : Prop where
  /-- There is a private key if there is a certificate. -/
  paired : cert.isSome = privkey.isSome
  /-- `SSL_CTX_new`. -/
  ctxNew : calls.ctxNew
  /-- `SSL_CTX_set_session_id_context`. -/
  session : calls.setSessionIdContext
  /-- The lowest version. -/
  minVersion : VersionSet calls.setMinProtoVersion (opt.minProtoVersion flag)
  /-- The highest version. -/
  maxVersion : VersionSet calls.setMaxProtoVersion (opt.maxProtoVersion flag)
  /-- The parameters of a server, if they have a file of their own. -/
  dhParams : flag = .server → ∀ file ∈ dhParamsFile, calls.fopen file ∧ calls.readDhParams file
  /-- The certificate. -/
  certificate : ∀ file ∈ cert, calls.useCertificateChainFile file
  /-- The file with the passphrase. -/
  passphrase : ∀ file ∈ opt.passphraseFile, calls.openFile file
  /-- The private key. -/
  privateKey : ∀ file ∈ privkey, calls.usePrivateKeyFile file

/-- What has to go well for the verification. -/
structure VerifyMade (calls : SslCalls) (caFile caPath caChainFile : Option CString) : Prop where
  /-- The authorities. -/
  authorities : Given caFile ∨ Given caPath →
    calls.loadVerifyLocations (caFile.filter (!·.isEmpty)) (caPath.filter (!·.isEmpty))
  /-- The chain. -/
  chain : ∀ file ∈ caChainFile, calls.loadVerifyLocations (some file) none

/-- A client without verification. -/
def SslOptions.Trusting (opt : SslOptions) (flag : SslFlag) : Prop :=
  flag = .client ∧ opt.noCertVerify

theorem trusting_iff (opt : SslOptions) (flag : SslFlag) :
    (decide (flag = .client) && opt.noCertVerify) = true ↔ opt.Trusting flag := by
  simp [SslOptions.Trusting]

/-- What has to go well for a context. -/
structure ContextMade (opt : SslOptions) (calls : SslCalls)
    (caFile caPath cert privkey caChainFile dhParamsFile : Option CString) (flag : SslFlag) : Prop where
  /-- The side's own part. -/
  own : OwnMade opt calls cert privkey dhParamsFile flag
  /-- The part about the other side. -/
  verify : ¬ opt.Trusting flag → VerifyMade calls caFile caPath caChainFile

/-- The side's own part of a context. -/
structure OwnSet (opt : SslOptions) (cert privkey : Option CString) (flag : SslFlag) (ctx : SslCtx) :
    Prop where
  /-- The lowest version. -/
  minVersion : ctx.minProtoVersion = (opt.minProtoVersion flag).map perditionParseSslProtoVersion
  /-- The highest version. -/
  maxVersion : ctx.maxProtoVersion = (opt.maxProtoVersion flag).map perditionParseSslProtoVersion
  /-- Compression is not turned off, whatever the options for it are. -/
  compression : ctx.noCompression = false
  /-- The order of ciphers. -/
  preference : ctx.cipherServerPreference = true ↔
    flag = .server ∧ opt.noCipherServerPreference = false
  /-- The certificate and its key. -/
  cert : ∀ file key, ctx.cert = some (file, key) ↔ cert = some file ∧ privkey = some key

/-- What a context is for. -/
structure ContextSet (opt : SslOptions) (caFile caPath cert privkey caChainFile : Option CString)
    (flag : SslFlag) (ctx : SslCtx) : Prop where
  /-- The side's own part. -/
  own : OwnSet opt cert privkey flag ctx
  /-- A client without verification has neither depth nor authorities. -/
  trusting : opt.Trusting flag →
    ctx.verify = none ∧ ctx.verifyDepth = none ∧ ctx.authorities = []
  /-- A server without verification does not ask for a certificate. -/
  verify : ¬ opt.Trusting flag → ctx.verify = some
    (if flag = .server ∧ (opt.noCertVerify ∨ opt.noClientCertVerify) then .none else .peer)
  /-- OpenSSL lets a chain pass that is by one longer, for the callback to see. -/
  depth : ¬ opt.Trusting flag → ctx.verifyDepth = some (opt.certVerifyDepth + 1)
  /-- Authorities are those that are given and not empty. -/
  authorities : ¬ opt.Trusting flag → ∀ place, place ∈ ctx.authorities ↔
    ((Given caFile ∨ Given caPath) ∧ place = (caFile.filter (!·.isEmpty), caPath.filter (!·.isEmpty))) ∨
      ∃ file ∈ caChainFile, place = (some file, none)

theorem sslProtoVersion_iff (set : Int → Bool) (version : Option CString) (number : Option Int) :
    sslProtoVersion set version = some number ↔
      VersionSet set version ∧ number = version.map perditionParseSslProtoVersion := by
  cases version with
  | none => simp [sslProtoVersion, VersionSet, @eq_comm _ number]
  | some text =>
    unfold sslProtoVersion VersionSet
    grind

theorem sslDhParams_some (calls : SslCalls) (cert dhParamsFile : Option CString) (flag : SslFlag) :
    (∃ used, sslDhParams calls cert dhParamsFile flag = some used) ↔
      (flag = .server → ∀ file ∈ dhParamsFile, calls.fopen file ∧ calls.readDhParams file) := by
  cases flag with
  | client => simp [sslDhParams]
  | server =>
    cases dhParamsFile with
    | none => cases cert <;> simp [sslDhParams]
    | some file => simp [sslDhParams]

theorem given_iff (place : Option CString) :
    (place.filter (!·.isEmpty)).isSome = true ↔ Given place := by
  cases place with
  | none => simp [Given]
  | some name => cases empty : name.isEmpty <;> simp [Given, empty, Option.filter]

theorem sslCtxOwn_made (opt : SslOptions) (calls : SslCalls) (cert privkey dhParamsFile : Option CString)
    (flag : SslFlag) :
    (∃ ctx, sslCtxOwn opt calls cert privkey dhParamsFile flag = some ctx) ↔
      OwnMade opt calls cert privkey dhParamsFile flag := by
  have params := sslDhParams_some calls cert dhParamsFile flag
  have pair : (!(cert.isNone && privkey.isSome)) = true ∧ (!(privkey.isNone && cert.isSome)) = true ↔
      cert.isSome = privkey.isSome := by
    cases cert <;> cases privkey <;> simp
  have key : cert.isSome = privkey.isSome →
      ((cert.isNone || privkey.all calls.usePrivateKeyFile) = true ↔
        ∀ file ∈ privkey, calls.usePrivateKeyFile file) := by
    cases cert <;> cases privkey <;> simp
  constructor
  · intro ⟨ctx, made⟩
    simp only [sslCtxOwn, Option.bind_eq_bind, Option.bind_eq_some_iff, Option.guard_eq_some',
      exists_and_left, exists_const, Option.pure_def, sslProtoVersion_iff] at made
    obtain ⟨withCert, withKey, ctxNew, session, _, ⟨minVersion, _⟩, _, ⟨maxVersion, _⟩, used, dhParams,
      certificate, passphrase, privateKey, _⟩ := made
    have paired := pair.mp ⟨withCert, withKey⟩
    exact ⟨paired, ctxNew, session, minVersion, maxVersion, params.mp ⟨used, dhParams⟩,
      (Option.all_eq_true _ _).mp certificate, (Option.all_eq_true _ _).mp passphrase,
      (key paired).mp privateKey⟩
  · intro made
    have ⟨used, dhParams⟩ := params.mpr made.dhParams
    have both := pair.mpr made.paired
    have certificate := (Option.all_eq_true _ _).mpr made.certificate
    have passphrase := (Option.all_eq_true _ _).mpr made.passphrase
    have minVersion := (sslProtoVersion_iff _ _ _).mpr ⟨made.minVersion, rfl⟩
    have maxVersion := (sslProtoVersion_iff _ _ _).mpr ⟨made.maxVersion, rfl⟩
    rw [SslOptions.minProtoVersion] at minVersion
    rw [SslOptions.maxProtoVersion] at maxVersion
    simp only [sslCtxOwn, both.1, both.2, made.ctxNew, made.session, minVersion, maxVersion, dhParams,
      certificate, passphrase, (key made.paired).mpr made.privateKey]
    exact ⟨_, rfl⟩

/-- What the side's own part of a context is. -/
theorem sslCtxOwn_set {opt : SslOptions} {calls : SslCalls} {cert privkey dhParamsFile : Option CString}
    {flag : SslFlag} {ctx : SslCtx}
    (made : sslCtxOwn opt calls cert privkey dhParamsFile flag = some ctx) :
    OwnSet opt cert privkey flag ctx ∧
      ctx.verify = none ∧ ctx.verifyDepth = none ∧ ctx.authorities = [] := by
  simp only [sslCtxOwn, Option.bind_eq_bind, Option.bind_eq_some_iff, Option.guard_eq_some',
    exists_and_left, exists_const, Option.pure_def, sslProtoVersion_iff, Option.some.injEq] at made
  obtain ⟨_, _, _, _, _, ⟨_, rfl⟩, _, ⟨_, rfl⟩, used, _, _, _, _, rfl⟩ := made
  refine ⟨⟨rfl, rfl, ?_, ?_, ?_⟩, rfl, rfl, rfl⟩
  · cases flag <;> simp
  · cases flag <;> simp
  · intro file key
    simp only [Option.bind_eq_some_iff, Option.map_eq_some_iff, Prod.mk.injEq]
    grind

/-- The part of a context that is about the other side. -/
theorem sslCtxVerify_iff (opt : SslOptions) (calls : SslCalls)
    (caFile caPath caChainFile : Option CString) (flag : SslFlag) (ctx : SslCtx) (out : SslCtx) :
    sslCtxVerify opt calls caFile caPath caChainFile flag ctx = some out ↔
      VerifyMade calls caFile caPath caChainFile ∧ out = { ctx with
        authorities :=
          (if (caFile.filter (!·.isEmpty)).isSome || (caPath.filter (!·.isEmpty)).isSome then
            [(caFile.filter (!·.isEmpty), caPath.filter (!·.isEmpty))] else []) ++
          (caChainFile.map fun file => (some file, none)).toList
        verifyDepth := some (opt.certVerifyDepth + 1)
        verify := some (if flag = .server && (opt.noCertVerify || opt.noClientCertVerify) then .none
          else .peer) } := by
  have authorities : (!((caFile.filter (!·.isEmpty)).isSome || (caPath.filter (!·.isEmpty)).isSome) ||
      calls.loadVerifyLocations (caFile.filter (!·.isEmpty)) (caPath.filter (!·.isEmpty))) = true ↔
      (Given caFile ∨ Given caPath →
        calls.loadVerifyLocations (caFile.filter (!·.isEmpty)) (caPath.filter (!·.isEmpty))) := by
    rw [← given_iff caFile, ← given_iff caPath]
    grind
  have parts : VerifyMade calls caFile caPath caChainFile ↔ (Given caFile ∨ Given caPath →
      calls.loadVerifyLocations (caFile.filter (!·.isEmpty)) (caPath.filter (!·.isEmpty))) ∧
        ∀ file ∈ caChainFile, calls.loadVerifyLocations (some file) none :=
    ⟨fun made => ⟨made.1, made.2⟩, fun made => ⟨made.1, made.2⟩⟩
  rw [parts, ← authorities]
  simp only [sslCtxVerify, Option.bind_eq_bind, Option.bind_eq_some_iff, Option.guard_eq_some',
    exists_and_left, exists_const, Option.pure_def, Option.some.injEq, Option.all_eq_true, and_assoc,
    @eq_comm _ out]
  rfl

/-- When there is a context. -/
theorem perditionSslCtx_made (opt : SslOptions) (calls : SslCalls)
    (caFile caPath cert privkey caChainFile dhParamsFile : Option CString) (flag : SslFlag) :
    (∃ ctx, perditionSslCtx opt calls caFile caPath cert privkey caChainFile dhParamsFile flag =
        some ctx) ↔
      ContextMade opt calls caFile caPath cert privkey caChainFile dhParamsFile flag := by
  have own := sslCtxOwn_made opt calls cert privkey dhParamsFile flag
  have parts : ContextMade opt calls caFile caPath cert privkey caChainFile dhParamsFile flag ↔
      OwnMade opt calls cert privkey dhParamsFile flag ∧
        (¬ opt.Trusting flag → VerifyMade calls caFile caPath caChainFile) :=
    ⟨fun made => ⟨made.1, made.2⟩, fun made => ⟨made.1, made.2⟩⟩
  rw [parts, ← own, perditionSslCtx]
  by_cases trusting : opt.Trusting flag
  · simp [(trusting_iff opt flag).mpr trusting, trusting]
  · simp only [if_neg (mt (trusting_iff opt flag).mp trusting), Option.bind_eq_bind,
      Option.bind_eq_some_iff, sslCtxVerify_iff]
    grind

/-- What the contexts are. -/
theorem perditionSslCtx_set {opt : SslOptions} {calls : SslCalls}
    {caFile caPath cert privkey caChainFile dhParamsFile : Option CString} {flag : SslFlag} {ctx : SslCtx}
    (made : perditionSslCtx opt calls caFile caPath cert privkey caChainFile dhParamsFile flag = some ctx) :
    ContextSet opt caFile caPath cert privkey caChainFile flag ctx := by
  rw [perditionSslCtx, Option.bind_eq_bind, Option.bind_eq_some_iff] at made
  obtain ⟨own, ownMade, made⟩ := made
  obtain ⟨set, verify, depth, authorities⟩ := sslCtxOwn_set ownMade
  by_cases trusting : opt.Trusting flag
  · rw [if_pos ((trusting_iff opt flag).mpr trusting)] at made
    cases made
    exact ⟨set, fun _ => ⟨verify, depth, authorities⟩, absurd trusting, absurd trusting, absurd trusting⟩
  · rw [if_neg (mt (trusting_iff opt flag).mp trusting), sslCtxVerify_iff] at made
    obtain ⟨_, rfl⟩ := made
    refine ⟨⟨set.1, set.2, set.3, set.4, set.5⟩, fun other => absurd other trusting, fun _ => ?_,
      fun _ => rfl, fun _ place => ?_⟩
    · simp
    · have used : ((caFile.filter (!·.isEmpty)).isSome || (caPath.filter (!·.isEmpty)).isSome) = true ↔
          Given caFile ∨ Given caPath := by
        rw [Bool.or_eq_true, given_iff, given_iff]
      by_cases given : Given caFile ∨ Given caPath
      · rw [if_pos (used.mpr given)]
        simp [given, @eq_comm _ place]
      · rw [if_neg (mt used.mp given)]
        simp [given, @eq_comm _ place]

/-- What a client accepts of a server. -/
structure ServerAccepted (opt : SslOptions) (idnaToAscii : CString → Option CString)
    (caFile caPath server : Option CString) (peer : SslPeer) : Prop where
  /-- Every certificate of its chain is acceptable. -/
  chain : opt.noCertVerify = false → peer.cert ≠ none → ∀ report ∈ peer.reports, Acceptable opt report
  /-- If an expired certificate is the last with an error, the time of the server's can be logged. -/
  time : opt.noCertVerify = false → Given caFile ∨ Given caPath → peer.cert ≠ none →
    lastError peer.reports .ok = .certHasExpired → peer.timePrinted
  /-- Its certificate can be logged. -/
  logged : peer.cert ≠ none → peer.Logged opt
  /-- Its name is that of the server. -/
  name : NameAccepted opt idnaToAscii peer.cert server

end Perdition
