import Perdition.CertificateName

/-!
# SSL connections

`perdition_ssl_ctx`, `perdition_ssl_client_connection` and `perdition_ssl_server_connection` of `ssl.c`, with
the callback that OpenSSL calls for what it finds about the certificates of the other side. What the calls
of OpenSSL and of the system return is given. Log messages are left out, and memory is never short.
-/
namespace Perdition

/-! ## Options and contexts -/

/-- The options for SSL that are read here. -/
structure SslOptions where
  /-- `debug`. -/
  debug : Bool
  /-- `ssl_ca_accept_self_signed`. -/
  caAcceptSelfSigned : Bool
  /-- `ssl_cert_accept_self_signed`. -/
  certAcceptSelfSigned : Bool
  /-- `ssl_cert_accept_expired`. -/
  certAcceptExpired : Bool
  /-- `ssl_cert_accept_not_yet_valid`. -/
  certAcceptNotYetValid : Bool
  /-- `ssl_cert_verify_depth`. -/
  certVerifyDepth : Int
  /-- `ssl_no_cert_verify`. -/
  noCertVerify : Bool
  /-- `ssl_no_client_cert_verify`. -/
  noClientCertVerify : Bool
  /-- `ssl_no_cn_verify`. -/
  noCnVerify : Bool
  /-- `ssl_passphrase_file`. -/
  passphraseFile : Option CString
  /-- `ssl_listen_min_proto_version`. -/
  listenMinProtoVersion : Option CString
  /-- `ssl_outgoing_min_proto_version`. -/
  outgoingMinProtoVersion : Option CString
  /-- `ssl_listen_max_proto_version`. -/
  listenMaxProtoVersion : Option CString
  /-- `ssl_outgoing_max_proto_version`. -/
  outgoingMaxProtoVersion : Option CString
  /-- `ssl_listen_compression`. -/
  listenCompression : Bool
  /-- `ssl_outgoing_compression`. -/
  outgoingCompression : Bool
  /-- `ssl_no_cipher_server_preference`. -/
  noCipherServerPreference : Bool

/-- The values of `flag`. -/
inductive SslFlag where
  /-- `PERDITION_SSL_CLIENT`. -/
  | client
  /-- `PERDITION_SSL_SERVER`. -/
  | server
  deriving DecidableEq

/-- What is verified of the other side. -/
inductive SslVerify where
  /-- `SSL_VERIFY_NONE`. -/
  | none
  /-- `SSL_VERIFY_PEER|SSL_VERIFY_CLIENT_ONCE`. -/
  | peer
  deriving DecidableEq

/-- What calls of OpenSSL and of the system return for a context. -/
structure SslCalls where
  /-- `SSL_CTX_new`. -/
  ctxNew : Bool
  /-- `SSL_CTX_set_session_id_context`. -/
  setSessionIdContext : Bool
  /-- `SSL_CTX_set_min_proto_version`. -/
  setMinProtoVersion : Int → Bool
  /-- `SSL_CTX_set_max_proto_version`. -/
  setMaxProtoVersion : Int → Bool
  /-- `fopen` of a file for reading. -/
  fopen : CString → Bool
  /-- `PEM_read_DHparams`. -/
  readDhParams : CString → Bool
  /-- `SSL_CTX_use_certificate_chain_file`. -/
  useCertificateChainFile : CString → Bool
  /-- `open` of a file for reading. -/
  openFile : CString → Bool
  /-- `SSL_CTX_use_PrivateKey_file`. -/
  usePrivateKeyFile : CString → Bool
  /-- `SSL_CTX_load_verify_locations`. -/
  loadVerifyLocations : Option CString → Option CString → Bool

/-- `SSL_CTX`: what has been set. -/
structure SslCtx where
  /-- `SSL_CTX_set_min_proto_version`. -/
  minProtoVersion : Option Int
  /-- `SSL_CTX_set_max_proto_version`. -/
  maxProtoVersion : Option Int
  /-- `SSL_OP_NO_COMPRESSION`. -/
  noCompression : Bool
  /-- `SSL_OP_CIPHER_SERVER_PREFERENCE`. -/
  cipherServerPreference : Bool
  /-- `SSL_OP_SINGLE_DH_USE`, with the parameters of a file. -/
  singleDhUse : Bool
  /-- The certificate and the private key. -/
  cert : Option (CString × CString)
  /-- The places of certificate authorities. -/
  authorities : List (Option CString × Option CString)
  /-- `SSL_CTX_set_verify_depth`. -/
  verifyDepth : Option Int
  /-- `SSL_CTX_set_verify`, with `__perdition_verify_callback`. -/
  verify : Option SslVerify
  deriving DecidableEq

/-- `perdition_parse_ssl_proto_version`. -/
def perditionParseSslProtoVersion (str : CString) : Int :=
  if strcaseEq str (lit "sslv3") then 0x0300
  else if strcaseEq str (lit "tlsv1") then 0x0301
  else if strcaseEq str (lit "tlsv1.1") then 0x0302
  else if strcaseEq str (lit "tlsv1.2") then 0x0303
  else -1

/-- The version that is set for an option, if one is. -/
def sslProtoVersion (set : Int → Bool) : Option CString → Option (Option Int)
  | none => some none
  | some verStr =>
    let verNo := perditionParseSslProtoVersion verStr
    if verNo < 0 then none
    else if !set verNo then none
    else some (some verNo)

/-- The Diffie-Hellman parameters of a server: whether they are used. -/
def sslDhParams (calls : SslCalls) (cert dhParamsFile : Option CString) : SslFlag → Option Bool
  | .client => some false
  | .server =>
    match dhParamsFile, cert with
    | none, none => some false
    | some file, _ => if calls.fopen file && calls.readDhParams file then some true else none
    | none, some file => some (calls.fopen file && calls.readDhParams file)

/-- `perdition_ssl_ctx` up to `opt.ssl_no_cert_verify`. -/
def sslCtxOwn (opt : SslOptions) (calls : SslCalls) (cert privkey dhParamsFile : Option CString)
    (flag : SslFlag) : Option SslCtx := do
  guard !(cert.isNone && privkey.isSome)
  guard !(privkey.isNone && cert.isSome)
  guard calls.ctxNew
  guard calls.setSessionIdContext
  let minProtoVersion ← sslProtoVersion calls.setMinProtoVersion
    (if flag = .client then opt.outgoingMinProtoVersion else opt.listenMinProtoVersion)
  let maxProtoVersion ← sslProtoVersion calls.setMaxProtoVersion
    (if flag = .client then opt.outgoingMaxProtoVersion else opt.listenMaxProtoVersion)
  let singleDhUse ← sslDhParams calls cert dhParamsFile flag
  guard (cert.all calls.useCertificateChainFile)
  guard (opt.passphraseFile.all calls.openFile)
  guard (cert.isNone || privkey.all calls.usePrivateKeyFile)
  return {
    minProtoVersion, maxProtoVersion, singleDhUse
    noCompression := (flag = .client && !opt.outgoingCompression) &&
      (flag ≠ .client && !opt.listenCompression)
    cipherServerPreference := flag = .server && !opt.noCipherServerPreference
    cert := cert.bind fun file => privkey.map fun key => (file, key)
    authorities := []
    verifyDepth := none
    verify := none }

/-- The authorities and the verification of `perdition_ssl_ctx`. -/
def sslCtxVerify (opt : SslOptions) (calls : SslCalls) (caFile caPath caChainFile : Option CString)
    (flag : SslFlag) (ctx : SslCtx) : Option SslCtx := do
  let useCaFile := caFile.filter (!·.isEmpty)
  let useCaPath := caPath.filter (!·.isEmpty)
  let used := useCaFile.isSome || useCaPath.isSome
  guard (!used || calls.loadVerifyLocations useCaFile useCaPath)
  guard (caChainFile.all fun file => calls.loadVerifyLocations (some file) none)
  return { ctx with
    authorities := (if used then [(useCaFile, useCaPath)] else []) ++
      (caChainFile.map fun file => (some file, none)).toList
    verifyDepth := some (opt.certVerifyDepth + 1)
    verify := some (if flag = .server && (opt.noCertVerify || opt.noClientCertVerify) then .none
      else .peer) }

/-- `perdition_ssl_ctx`. -/
def perditionSslCtx (opt : SslOptions) (calls : SslCalls)
    (caFile caPath cert privkey caChainFile dhParamsFile : Option CString) (flag : SslFlag) :
    Option SslCtx := do
  let ctx ← sslCtxOwn opt calls cert privkey dhParamsFile flag
  if flag = .client && opt.noCertVerify then return ctx
  else sslCtxVerify opt calls caFile caPath caChainFile flag ctx

/-! ## Certificates of the other side -/

/-- The results of a verification that are told apart. -/
inductive X509V where
  /-- `X509_V_OK`. -/
  | ok
  /-- `X509_V_ERR_CERT_NOT_YET_VALID`. -/
  | certNotYetValid
  /-- `X509_V_ERR_CERT_HAS_EXPIRED`. -/
  | certHasExpired
  /-- `X509_V_ERR_DEPTH_ZERO_SELF_SIGNED_CERT`. -/
  | depthZeroSelfSignedCert
  /-- `X509_V_ERR_SELF_SIGNED_CERT_IN_CHAIN`. -/
  | selfSignedCertInChain
  /-- `X509_V_ERR_CERT_CHAIN_TOO_LONG`. -/
  | certChainTooLong
  /-- Any other. -/
  | other (code : Int)
  deriving DecidableEq

/-- What OpenSSL reports of a certificate of the chain, if the callback has returned 1 so far. -/
structure VerifyReport where
  /-- `ok` is 0, and this is the error; or `ok` is 1. -/
  error : Option X509V
  /-- `X509_STORE_CTX_get_error_depth`. -/
  depth : Int
  /-- `__perdition_verify_callback_debug` can print the name of the certificate. -/
  printed : Bool
  /-- `__perdition_verify_result_time` can print the time of the certificate. -/
  timePrinted : Bool

/-- `__perdition_verify_result`. Of the errors that are only logged none is changed. -/
def perditionVerifyResult (opt : SslOptions) (verify : X509V) (timePrinted : Bool) : X509V :=
  match verify with
  | .certNotYetValid => if opt.certAcceptNotYetValid then .ok else verify
  | .certHasExpired =>
    let accepted := if opt.certAcceptExpired then .ok else verify
    if timePrinted then accepted else .certHasExpired
  | .depthZeroSelfSignedCert => if opt.certAcceptSelfSigned then .ok else verify
  | .selfSignedCertInChain => if opt.caAcceptSelfSigned then .ok else verify
  | _ => verify

/-- `__perdition_verify_callback`, with the error of the context: what it returns, and the error after
it. -/
def perditionVerifyCallback (opt : SslOptions) (report : VerifyReport) (error : X509V) :
    Bool × X509V :=
  if opt.debug && !report.printed then (false, error)
  else if opt.certVerifyDepth < report.depth then (false, .certChainTooLong)
  else if perditionVerifyResult opt error report.timePrinted = .ok then (true, error)
  else (report.error.isNone, error)

/-- `X509_verify_cert`: the callback ends it where it returns 0, and an error is kept until there is
another. -/
def x509VerifyCert (opt : SslOptions) : List VerifyReport → X509V → Bool × X509V
  | [], error => (true, error)
  | report :: rest, error =>
    match perditionVerifyCallback opt report (report.error.getD error) with
    | (true, error) => x509VerifyCert opt rest error
    | (false, error) => (false, error)

/-! ## Connections -/

/-- What happens when a connection is secured. -/
structure SslPeer where
  /-- `SSL_new`. -/
  sslNew : Bool
  /-- `io_create_ssl`. -/
  ioCreateSsl : Bool
  /-- `io_set_socket_timeout` with the timeout of the connection. -/
  setTimeout : Bool
  /-- `SSL_connect` or `SSL_accept`, apart from the verification. -/
  handshake : Bool
  /-- `io_set_socket_timeout` with 0. -/
  clearTimeout : Bool
  /-- The certificate that the other side has. -/
  cert : Option Certificate
  /-- What is reported of its chain. -/
  reports : List VerifyReport
  /-- What is the result of a verification without the callback. -/
  unverified : X509V
  /-- `X509_NAME_oneline` of the subject. -/
  subjectPrinted : Bool
  /-- `X509_NAME_oneline` of the issuer. -/
  issuerPrinted : Bool
  /-- `__perdition_verify_result_time` can print the time of the certificate afterwards. -/
  timePrinted : Bool

/-- The certificate that is asked for: a server with `SSL_VERIFY_NONE` asks for none. -/
def SslPeer.presented (peer : SslPeer) (ctx : SslCtx) (flag : SslFlag) : Option Certificate :=
  if flag = .server ∧ ctx.verify ≠ some .peer then none else peer.cert

/-- `__perdition_ssl_connection`: what `SSL_get_verify_result` returns of the new connection. -/
def perditionSslConnection (opt : SslOptions) (ctx : SslCtx) (flag : SslFlag) (peer : SslPeer) :
    Option X509V := do
  guard peer.sslNew
  guard peer.ioCreateSsl
  guard peer.setTimeout
  guard peer.handshake
  let result ←
    match peer.presented ctx flag, ctx.verify with
    | none, _ => some .ok
    | some _, some .peer =>
      let (verified, error) := x509VerifyCert opt peer.reports .ok
      if verified then some error else none
    | some _, _ => some peer.unverified
  guard peer.clearTimeout
  return result

/-- `__perdition_ssl_log_certificate`. -/
def perditionSslLogCertificate (opt : SslOptions) (peer : SslPeer) (cert : Option Certificate) :
    Int :=
  if !opt.debug then 0
  else if cert.isNone then 0
  else if !peer.subjectPrinted then 1
  else if !peer.issuerPrinted then -1
  else 0

/-- `__perdition_ssl_check_certificate`. -/
def perditionSslCheckCertificate (opt : SslOptions) (idnaToAscii : CString → Option CString)
    (peer : SslPeer) (cert : Option Certificate) (result : X509V)
    (caFile caPath server : Option CString) : Int :=
  let status := perditionSslLogCertificate opt peer cert
  if status < 0 then status
  else if !opt.noCertVerify && (caFile.any (!·.isEmpty) || caPath.any (!·.isEmpty)) &&
      perditionVerifyResult opt result peer.timePrinted ≠ .ok then -3
  else perditionSslCheckName opt.noCnVerify idnaToAscii cert server

/-- `perdition_ssl_client_connection`: whether there is a connection. -/
def perditionSslClientConnection (opt : SslOptions) (calls : SslCalls)
    (idnaToAscii : CString → Option CString) (caFile caPath server : Option CString)
    (peer : SslPeer) : Bool :=
  match perditionSslCtx opt calls caFile caPath none none none none .client with
  | none => false
  | some ctx => match perditionSslConnection opt ctx .client peer with
    | none => false
    | some result =>
      let cert := peer.presented ctx .client
      0 ≤ perditionSslCheckCertificate opt idnaToAscii peer cert result caFile caPath server

/-- `perdition_ssl_server_connection`: whether there is a connection. -/
def perditionSslServerConnection (opt : SslOptions) (idnaToAscii : CString → Option CString)
    (ctx : SslCtx) (peer : SslPeer) : Bool :=
  match perditionSslConnection opt ctx .server peer with
  | none => false
  | some result =>
    let cert := peer.presented ctx .server
    0 ≤ perditionSslCheckCertificate opt idnaToAscii peer cert result none none none

end Perdition
