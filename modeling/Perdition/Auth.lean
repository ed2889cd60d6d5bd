import Perdition.Token
import Perdition.Options

/-!
# Credentials

`auth.h` and the SASL PLAIN coding of credentials in `sasl_plain.c`.
-/
namespace Perdition

/-- The kind of credentials a `struct auth` holds. -/
inductive AuthType where
  /-- `auth_t_none`. -/
  | none
  /-- `auth_t_passwd`. -/
  | passwd
  /-- `auth_t_sasl_plain`. -/
  | saslPlain
  deriving DecidableEq, Repr

/-- `struct auth`. -/
structure Auth where
  /-- User whose account is accessed, where it is not the one that authenticates. -/
  authorisationId : Option CString
  /-- User that authenticates. -/
  authenticationId : Option CString
  /-- Password. -/
  passwd : Option CString
  /-- Kind. -/
  type : AuthType
  deriving DecidableEq

namespace Auth

/-- `auth_zero`. -/
def zero : Auth := ⟨none, none, none, .none⟩

/-- `auth_set_authorisation_id`. -/
def setAuthorisationId (auth : Auth) (id : CString) : Auth :=
  if auth.authorisationId.isSome then { auth with authorisationId := some id }
  else { auth with authenticationId := some id }

/-- `auth_get_authorisation_id`. -/
def getAuthorisationId (auth : Auth) : Option CString :=
  if auth.authorisationId.isSome then auth.authorisationId else auth.authenticationId

/-- `auth_set_pwd`. -/
def setPwd (name passwd : Option CString) : Auth := ⟨none, name, passwd, .passwd⟩

/-- `auth_set_sasl_plain`. -/
def setSaslPlain (authorisationId : Option CString) (authenticationId passwd : CString) : Auth :=
  ⟨authorisationId, some authenticationId, some passwd, .saslPlain⟩

@[simp] theorem passwd_setAuthorisationId (auth : Auth) (id : CString) :
    (auth.setAuthorisationId id).passwd = auth.passwd := by
  unfold setAuthorisationId
  split <;> rfl

/-- The user name that was set is the one that is read back. -/
@[simp] theorem getAuthorisationId_set (auth : Auth) (id : CString) :
    (auth.setAuthorisationId id).getAuthorisationId = some id := by
  unfold setAuthorisationId getAuthorisationId
  split <;> simp_all

end Auth

/-- `struct auth_status`, with the reason an invalid challenge is given. -/
inductive AuthStatus where
  /-- `auth_status_ok`. -/
  | ok (auth : Auth)
  /-- `auth_status_invalid`. -/
  | invalid (reason : CString)
  /-- `auth_status_error`. -/
  | error
  /-- `saslprep` returned more bytes than were decoded, and the rest is read out of bounds. -/
  | beyond
  deriving DecidableEq

/-- `sasl_plain_challenge_decode` after the optional authorisation id. -/
def saslPlainDecodeRest (platform : Platform) (authorisationId : Option CString)
    (out : List Byte) : AuthStatus :=
  if out.length < 1 then .invalid (lit "Challenge has no authentication id, mate")
  else
    let out := out.drop 1
    let raw := strnToStr out out.length
    let out := out.drop raw.length
    match platform.saslprep raw with
    | none => .error
    | some authenticationId =>
      if authenticationId.isEmpty then .invalid (lit "Empty authentication id, mate")
      else if out.length < 1 then .invalid (lit "Challenge has no password, mate")
      else
        let out := out.drop 1
        let passwd := strnToStr out out.length
        if out.length - passwd.length ≠ 0 then
          .invalid (lit "Trailing garbage in challenge, mate")
        else .ok (Auth.setSaslPlain authorisationId authenticationId passwd)

/-- `sasl_plain_challenge_decode`. -/
def saslPlainChallengeDecode (platform : Platform) (challenge : CString) : AuthStatus :=
  match platform.base64Decode challenge with
  | none => .invalid (lit "Invalid base64 encoded challenge, mate")
  | some [] => .invalid (lit "Empty challenge, mate")
  | some (b :: rest) =>
    let out := b :: rest
    if b ≠ 0 then
      match platform.saslprep (strnToStr out out.length) with
      | none => .error
      | some authorisationId =>
        if out.length < authorisationId.length then .beyond
        else saslPlainDecodeRest platform (some authorisationId)
          (out.drop authorisationId.length)
    else saslPlainDecodeRest platform none out

/-- The bytes that `sasl_plain_challenge_encode` encodes. -/
def saslPlainMessage (authorisationId : Option CString) (authenticationId passwd : CString) :
    List Byte :=
  (match authorisationId with
    | none => []
    | some id => id.content) ++ [0] ++ authenticationId.content ++ [0] ++ passwd.content

/-- `sasl_plain_challenge_encode`. A null user or password is read. -/
def saslPlainChallengeEncode (platform : Platform) (auth : Auth) : Option CString :=
  match auth.authenticationId, auth.passwd with
  | some authenticationId, some passwd =>
    some (cstr (platform.base64Encode
      (saslPlainMessage auth.authorisationId authenticationId passwd)))
  | _, _ => none

end Perdition
