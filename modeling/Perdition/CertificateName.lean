import Perdition.Bytes

/-!
# Names of certificates

The functions of `ssl.c` that compare the name of a real server with the names of its certificate. What
OpenSSL returns for a certificate is part of the certificate here.
-/
namespace Perdition

/-- A common name of a certificate, as `X509_NAME_get_entry` and `X509_NAME_ENTRY_get_data` give it. -/
inductive CommonName where
  /-- There is no entry. -/
  | noEntry
  /-- The entry has no data. -/
  | noData
  /-- `data->data`, `data->length` bytes long. -/
  | data (content : List Byte)
  deriving DecidableEq

/-- An alternative name of a certificate, as `sk_GENERAL_NAME_value` gives it. -/
inductive GeneralName where
  /-- There is no name. -/
  | missing
  /-- A name of another type than `GEN_DNS`. -/
  | other
  /-- What `ASN1_STRING_print_ex` prints of a DNS name, and whether `BIO_reset` succeeds after it. -/
  | dns (printed : List Byte) (reset : Bool)
  deriving DecidableEq

/-- `X509`. -/
structure Certificate where
  /-- `X509_get_subject_name`: the common names. -/
  subject : Option (List CommonName)
  /-- `X509_get_ext_d2i` for `NID_subject_alt_name`. -/
  altNames : Option (List GeneralName)
  /-- `BIO_new` succeeds. -/
  bioNew : Bool
  /-- `BIO_free` succeeds. -/
  bioFree : Bool
  deriving DecidableEq

/-- `'.'`. -/
def dot : Byte := 46

/-- `__perdition_ssl_compare_key`. -/
def perditionSslCompareKey (key : CString) (val : List Byte) : Int :=
  if key.length = val.length ∧ key.content = val then 0
  else if val.length < 3 then -1
  else if val.take 2 = bytes "*." then
    match key.content.idxOf? dot with
    | none => -2
    | some place =>
      let domain := key.content.drop place
      if domain.length = val.length - 1 ∧ domain = val.drop 1 then 0 else -2
  else -2

/-- The loop of `__perdition_ssl_check_common_name`. -/
def checkCommonNames (key : CString) : List CommonName → Int
  | [] => -2
  | .noEntry :: _ => -1
  | .noData :: _ => -1
  | .data content :: rest =>
    if perditionSslCompareKey key content = 0 then 0 else checkCommonNames key rest

/-- `__perdition_ssl_check_common_name`. -/
def perditionSslCheckCommonName (cert : Certificate) (key : CString) : Int :=
  match cert.subject with
  | none => -1
  | some names => checkCommonNames key names

/-- The loop of `__perdition_ssl_check_alt_subject`: the status at `out`. -/
def checkAltSubjects (key : CString) : List GeneralName → Int
  | [] => -2
  | .missing :: _ => -1
  | .other :: rest => checkAltSubjects key rest
  | .dns printed reset :: rest =>
    if perditionSslCompareKey key printed = 0 then 0
    else if !reset then -1
    else checkAltSubjects key rest

/-- `__perdition_ssl_check_alt_subject`. -/
def perditionSslCheckAltSubject (cert : Certificate) (key : CString) : Int :=
  match cert.altNames with
  | none => -1
  | some names =>
    if !cert.bioNew then -1
    else
      let status := checkAltSubjects key names
      if !cert.bioFree then -1 else status

/-- `__perdition_ssl_check_name`, with `opt.ssl_no_cn_verify` and `idna_to_ascii`, which is the string
itself where libidn is not compiled in. -/
def perditionSslCheckName (noCnVerify : Bool) (idnaToAscii : CString → Option CString)
    (cert : Option Certificate) (key : Option CString) : Int :=
  match noCnVerify, key with
  | true, _ => 0
  | false, none => 0
  | false, some key =>
    match idnaToAscii key, cert with
    | none, _ => -1
    | some _, none => -2
    | some idnaKey, some cert =>
      let rc := perditionSslCheckCommonName cert idnaKey
      if rc = 0 then 0
      else if rc = -1 then -1
      else
        let rc := perditionSslCheckAltSubject cert idnaKey
        if rc = 0 then 0
        else if rc = -1 then -1
        else -2

end Perdition
