import Perdition.Lib.Base64
import Perdition.Verif.Framing
import Perdition.Verif.Listing
import Perdition.Verif.SaslPlain
import Perdition.Verif.SieveReplies

/-!
# Credentials of a ManageSieve client

An AUTHENTICATE command is followed from the bytes that the client sends to the credentials that
`managesieve_in_get_auth` returns.
-/
namespace Perdition

open Lib Program

/-! ## Base64 text -/

/-- What a platform encodes is text, and some text where there is something to encode. -/
structure Platform.EncodesText (platform : Platform) : Prop where
  /-- The bytes are those of texts. -/
  text : ∀ content, ∀ b ∈ platform.base64Encode content, Lib.Base64.isText b = true
  /-- There are some. -/
  filled : ∀ content, content ≠ [] → platform.base64Encode content ≠ []

/-- A byte of a text means nothing to the readers. -/
theorem isText_plain {b : Byte} (text : Lib.Base64.isText b = true) :
    b ≠ 0 ∧ b ≠ cr ∧ b ≠ lf ∧ b ≠ space ∧ b ≠ dquote ∧ b ≠ 92 ∧ b.toNat < 128 := by
  have each : ∀ b : Byte, Lib.Base64.isText b = true →
      b ≠ 0 ∧ b ≠ cr ∧ b ≠ lf ∧ b ≠ space ∧ b ≠ dquote ∧ b ≠ 92 ∧ b.toNat < 128 :=
    byte_of_nat (by decide +kernel)
  exact each b text

/-- A byte of a text is a safe character of a quoted string. -/
theorem isText_safe (platform : Platform) {b : Byte} (text : Lib.Base64.isText b = true) :
    safeChar (platform.char b) = true := by
  have ⟨noNul, _, _, _, noQuote, noSlash, ascii⟩ := isText_plain text
  have value : platform.char b = b.toNat := by
    rw [Platform.char, if_neg (by omega)]
  have other {c : Byte} (apart : b ≠ c) : b.toNat ≠ c.toNat := fun same =>
    apart (UInt8.toNat_inj.mp same)
  have nul := other noNul
  have quote := other noQuote
  have slash := other noSlash
  rw [value]
  simp only [safeChar, quotedSpecial, Bool.and_eq_true, Bool.not_eq_true', Bool.or_eq_false_iff,
    decide_eq_true_eq, decide_eq_false_iff_not]
  change b.toNat ≠ 0 at nul
  change b.toNat ≠ 34 at quote
  change b.toNat ≠ 92 at slash
  omega

/-- Text is what stands between quotes. -/
theorem quotedChars_text (platform : Platform) {text : List Byte}
    (plain : ∀ b ∈ text, Lib.Base64.isText b = true) :
    ∀ rounds, text.length ≤ rounds → quotedChars rounds (text.map platform.char) = true := by
  induction text with
  | nil =>
    intro rounds _
    cases rounds with
    | zero => rfl
    | succ rounds => rfl
  | cons b text ih =>
    intro rounds enough
    have ⟨safe, rest⟩ := List.forall_mem_cons.mp plain
    cases rounds with
    | zero => simp at enough
    | succ rounds =>
      have one : safeUtf8Char (platform.char b :: text.map platform.char) = 1 := by
        rw [safeUtf8Char.eq_def]
        simp [isText_safe platform safe]
      have step : quotedChar (platform.char b :: text.map platform.char) = 1 := by
        rw [quotedChar.eq_def, one]
        rfl
      rw [List.map_cons, quotedChars, if_neg (by simp), step]
      simp only [Nat.one_ne_zero, if_false, List.drop_succ_cons, List.drop_zero]
      simp only [List.length_cons] at enough
      exact ih rest rounds (by omega)

/-- The limit of a quoted string counts its quotes. -/
theorem acapStrnIsQuoted_text (platform : Platform) {text : List Byte}
    (plain : ∀ b ∈ text, Lib.Base64.isText b = true) :
    acapStrnIsQuoted platform (dquote :: (text ++ [dquote])) = decide (text.length ≤ 1022) := by
  have inner : ((dquote :: (text ++ [dquote])).drop 1).dropLast = text := by simp
  have ends : (dquote :: (text ++ [dquote])).getLast? = some dquote := by
    simp [List.getLast?_cons]
  have taken := quotedChars_text platform plain (text.length + 2) (by omega)
  rw [acapStrnIsQuoted, inner, ends]
  have long : (dquote :: (text ++ [dquote])).length = text.length + 2 := by simp
  rw [long, taken]
  simp

/-! ## The command line -/

/-- A word without spaces and carriage returns that fits is one word of its line. -/
theorem wordsFrom_word {quotes : Bool} {w : List Byte} (noCr : cr ∉ w) (noSpace : space ∉ w) :
    ∀ word quoted, word.length + w.length < maxLineLength →
      wordsFrom quotes word quoted (w ++ [cr]) = [word ++ w] := by
  induction w with
  | nil => simp [wordsFrom]
  | cons b w ih =>
    intro word quoted fits
    simp only [List.mem_cons, not_or] at noCr noSpace
    simp only [List.length_cons] at fits
    rw [List.cons_append, wordsFrom, if_neg (Ne.symm noCr.1),
      if_neg (fun both => noSpace.1 both.1.symm), if_neg (by omega),
      ih noCr.2 noSpace.2 _ _ (by simp only [List.length_append, List.length_singleton]; omega)]
    simp

/-- The words of an AUTHENTICATE command. -/
theorem words_authenticate (line : List Byte) :
    words true (bytes "AUTHENTICATE \"PLAIN\" " ++ line) =
      bytes "AUTHENTICATE" :: bytes "\"PLAIN\"" :: words true line := rfl

/-- A string of the client that ends its line, in this form. -/
def Sieve.Form.argument (text : List Byte) : Sieve.Form → List Byte
  | .quoted => dquote :: (text ++ [dquote])
  | .literal plus => literalHeader plus text.length ++ crlf ++ text

/-- The lengths at which a string is sent in this form. -/
def Sieve.Form.Sendable (text : List Byte) : Sieve.Form → Prop
  | .quoted => text.length ≤ 1024
  | .literal _ => text.length ≤ maxLineLength

/-- The lengths at which a string is taken in this form. -/
def Sieve.Form.Taken (text : List Byte) : Sieve.Form → Prop
  | .quoted => text.length ≤ 1022
  | .literal _ => text.length ≤ maxLineLength

/-- An AUTHENTICATE command with a challenge. -/
def authenticateCommand (form : Sieve.Form) (text : List Byte) : List Byte :=
  bytes "AUTHENTICATE \"PLAIN\" " ++ form.argument text ++ crlf

/-- The word of the command line that the string begins with. -/
def Sieve.Form.word (text : List Byte) : Sieve.Form → List Byte
  | .quoted => dquote :: (text ++ [dquote])
  | .literal plus => literalHeader plus text.length

/-- What follows that line. -/
def Sieve.Form.behind (text : List Byte) : Sieve.Form → List Byte
  | .quoted => []
  | .literal _ => text ++ crlf

section Reading

variable {form : Sieve.Form} {text : List Byte}
  (plain : ∀ b ∈ text, Lib.Base64.isText b = true) (sendable : form.Sendable text)

include plain

theorem word_plain (form : Sieve.Form) : ∀ b ∈ form.word text, b ≠ cr ∧ b ≠ lf ∧ b ≠ space := by
  intro b member
  cases form with
  | quoted =>
    have quote : dquote ≠ cr ∧ dquote ≠ lf ∧ dquote ≠ space := by decide
    simp only [Sieve.Form.word, List.mem_cons, List.mem_append, List.not_mem_nil, or_false] at member
    rcases member with same | inside | same
    · rw [same]
      exact quote
    · have ⟨_, noCr, noLf, noSpace, _⟩ := isText_plain (plain b inside)
      exact ⟨noCr, noLf, noSpace⟩
    · rw [same]
      exact quote
  | literal plus =>
    have ⟨noCr, noLf, noSpace, _⟩ := mem_header member
    exact ⟨noCr, noLf, noSpace⟩

include sendable

/-- The command line is read as three words. -/
theorem scanLine_authenticate (rest : List Byte) :
    scanLine tokenImap4 0 (authenticateCommand form text ++ rest) =
      some ([⟨bytes "AUTHENTICATE", tokenNone⟩, ⟨bytes "\"PLAIN\"", tokenNone⟩,
        ⟨form.word text, tokenEol⟩], form.behind text ++ rest) := by
  have word := word_plain plain form
  have short : (form.word text).length < maxLineLength := by
    cases form with
    | quoted =>
      change text.length ≤ 1024 at sendable
      simp only [Sieve.Form.word, List.length_cons, List.length_append, List.length_nil,
        maxLineLength]
      omega
    | literal plus => exact header_short plus sendable
  have stream : authenticateCommand form text ++ rest =
      (bytes "AUTHENTICATE \"PLAIN\" " ++ (form.word text ++ [cr])) ++ lf ::
        (form.behind text ++ rest) := by
    cases form <;>
      simp [authenticateCommand, Sieve.Form.argument, Sieve.Form.word, Sieve.Form.behind, crlf]
  have single : lf ∉ bytes "AUTHENTICATE \"PLAIN\" " ++ (form.word text ++ [cr]) := by
    have opening : lf ∉ bytes "AUTHENTICATE \"PLAIN\" " := by decide
    have inner : lf ∉ form.word text := fun member => (word lf member).2.1 rfl
    simp [opening, inner, show lf ≠ cr by decide]
  have quotes : tokenImap4.has tokenImap4 = true := by decide
  have argument : words true (form.word text ++ [cr]) = [form.word text] :=
    wordsFrom_word (fun member => (word cr member).1 rfl) (fun member => (word space member).2.2 rfl)
      [] false (by simpa using short)
  rw [stream, scanLine_line lineFlag_imap4 0 _ single, quotes, words_authenticate, argument]
  rfl

/-- The string is taken at its length, and otherwise it is found invalid. -/
theorem scanString_argument (platform : Platform) (some_ : text ≠ []) (rest : List Byte) :
    (form.Taken text → ∃ w, scanString platform ⟨form.word text, tokenEol⟩ []
        (form.behind text ++ rest) = some (w, rest) ∧ w.isString = true ∧ w.str = some (cstr text)) ∧
      (¬ form.Taken text → ∃ w, scanString platform ⟨form.word text, tokenEol⟩ []
        (form.behind text ++ rest) = some (w, rest) ∧ w.isString = false) := by
  cases form with
  | quoted =>
    have status := acapTokenStatus_quote platform (text ++ [dquote]) tokenEol
    rw [acapStrnIsQuoted_text platform plain] at status
    constructor
    · intro taken
      change text.length ≤ 1022 at taken
      rw [if_pos (by simpa using taken)] at status
      refine ⟨⟨0, .quoted, none, some (cstr text)⟩, ?_, rfl, rfl⟩
      have content : strnToStr ((dquote :: (text ++ [dquote])).drop 1)
          ((dquote :: (text ++ [dquote])).length - 2) = cstr text := by
        simp [strnToStr]
      change scanString platform ⟨dquote :: (text ++ [dquote]), tokenEol⟩ [] _ = _
      rw [scanString, status]
      exact congrArg (fun str => some (AcapTokenWrapperStatus.mk 0 .quoted none (some str), rest))
        content
    · intro long
      change ¬ text.length ≤ 1022 at long
      rw [if_neg (by simpa using long)] at status
      refine ⟨⟨-1, .err, none, none⟩, ?_, rfl⟩
      change scanString platform ⟨dquote :: (text ++ [dquote]), tokenEol⟩ [] _ = _
      rw [scanString, status]
      rfl
  | literal plus =>
    change text.length ≤ maxLineLength at sendable
    constructor
    · intro _
      have small : text.length ≤ 4294967296 := by
        simp only [maxLineLength] at sendable
        omega
      have filled := List.length_pos_iff.mpr some_
      have whole : literalTaken text.length = text.length := Nat.min_eq_left sendable
      have body : scanToken none tokenImap4Literal text.length .start (text ++ crlf ++ rest) =
          some ((⟨text, tokenNone⟩, []), crlf ++ rest) := by
        rw [scanToken_literalStart filled, whole, if_neg (by simp), List.append_assoc,
          List.take_left, List.drop_left]
      have line : scanLine tokenPop3 0 (crlf ++ rest) = some ([⟨[], tokenEol⟩], rest) :=
        scanLine_line lineFlag_pop3 0 rest (show lf ∉ [cr] by decide)
      have literal : scanLiteral text.length (literalType plus) (text ++ crlf ++ rest) =
          some (⟨0, literalType plus, none, some (cstr text)⟩, rest) := by
        rw [scanLiteral, if_neg (by omega), body]
        simp only [Option.bind_some, line]
        rfl
      have status := acapTokenStatus_header platform plus small
      refine ⟨⟨0, literalType plus, none, some (cstr text)⟩, ?_, ?_, rfl⟩
      · change scanString platform ⟨literalHeader plus text.length, tokenEol⟩ [] _ = _
        rw [scanString, status]
        cases plus with
        | true => exact literal
        | false => exact literal
      · cases plus with
        | true => rfl
        | false => rfl
    · intro long
      exact absurd sendable long

end Reading

/-! ## Credentials -/

section Credentials

variable (opt : Options) (platform : Platform) (tlsFlags tlsState : Flag)

/-- The message of the capabilities after TLS can be written, where there is one. -/
def Greets : Prop :=
  tlsState.has sslModeTlsListen = true →
    ∃ message, managesieveCapabilityMsg opt tlsFlags tlsState
      (lit "TLS negotiation completed, mate") = some message ∧ message.length ≤ maxText + 1

/-- The client sends this next, and writes to it succeed. -/
structure World.Sends (w : World) (fuel : Nat) (stream : List Byte) : Prop where
  /-- It is the client. -/
  client : w.client.id.party = .client
  /-- Writes succeed. -/
  writes : ∀ ok ∈ w.client.writes, ok = true
  /-- The bytes it sends. -/
  sent : (w.visit w.trace.length).stream = stream
  /-- They can be read. -/
  enough : stream.length < fuel

/-- `managesieve_in_get_auth` returns these credentials where the client sends their challenge in this
form, whatever comes before and after it. -/
def CredentialsRead (form : Sieve.Form) (authorisationId : Option CString)
    (authenticationId passwd : CString) : Prop :=
  ∀ (w : World) (fuel : Nat) (rest : List Byte),
    w.Sends fuel (authenticateCommand form (platform.base64Encode
      (saslPlainMessage authorisationId authenticationId passwd)) ++ rest) →
      (managesieveInGetAuth opt platform tlsFlags tlsState).Returns fuel w fun result _ =>
        result.status = 0 ∧
          result.auth = some (Auth.setSaslPlain authorisationId authenticationId passwd)

/-- What `managesieve_starttls_post` comes to where writes succeed. -/
theorem run_starttlsPost (fuel : Nat) {t : Talk} (writable : t.Writable) :
    (Greets opt tlsFlags tlsState → ∃ t',
      (managesieveStarttlsPost opt tlsFlags tlsState).run Talk.serverStep fuel t = .done 0 t' ∧
        t'.stream = t.stream ∧ t'.type = t.type ∧ t'.Writable) ∧
      (¬ Greets opt tlsFlags tlsState → ∃ why t',
        (managesieveStarttlsPost opt tlsFlags tlsState).run Talk.serverStep fuel t =
          .halted why t') := by
  unfold managesieveStarttlsPost Greets
  by_cases listen : tlsState.has sslModeTlsListen = true
  · rw [if_neg (by simp [listen])]
    cases managesieveCapabilityMsg opt tlsFlags tlsState (lit "TLS negotiation completed, mate") with
    | none =>
      constructor
      · intro greets
        simp [listen] at greets
      · intro _
        exact ⟨_, _, rfl⟩
    | some message =>
      have reacts := sent_reacts message (-1) fuel writable
      unfold reactRaw at reacts
      by_cases fits : message.length ≤ maxText + 1
      · have sent : ∃ t', (do if (← managesieveWriteRaw message) < 0 then return -1 else return 0 :
            Dialogue Int).run Talk.serverStep fuel t = .done 0 t' ∧ ∃ content,
              t.Moves t' t.stream content := by
          split at reacts
          · have ⟨t', run, moves⟩ := reacts
            exact ⟨t', run, _, moves⟩
          · rw [if_pos (by omega)] at reacts
            have ⟨t', run, moves⟩ := reacts
            exact ⟨t', run, _, moves⟩
        have ⟨t', run, content, moves⟩ := sent
        constructor
        · intro _
          exact ⟨t', run, moves.stream, moves.type, moves.writable writable⟩
        · intro not_
          exact absurd (fun _ => ⟨message, rfl, fits⟩) not_
      · rw [if_neg (by omega), if_neg (by omega)] at reacts
        constructor
        · intro greets
          have ⟨message', same, fits'⟩ := greets listen
          rw [Option.some.injEq] at same
          rw [← same] at fits'
          exact absurd fits' fits
        · intro _
          exact reacts
  · rw [if_pos (by simpa using listen)]
    constructor
    · intro _
      exact ⟨t, rfl, rfl, rfl, writable⟩
    · intro not_
      exact absurd (fun yes => absurd yes listen) not_

variable {platform} (base64 : platform.Base64) (encodes : platform.EncodesText)
  (prepares : ∀ id, platform.saslprep id = some id)

/-- A platform that prepares nothing. -/
theorem preparing_id (prepares : ∀ id, platform.saslprep id = some id) :
    platform.preparing id = platform := by
  have same : (fun id : CString => some id) = platform.saslprep := funext fun id => (prepares id).symm
  unfold Platform.preparing
  simp only [id_eq, same]

include base64 prepares in
/-- The challenge of credentials is decoded to them. -/
theorem challenge_decoded {authorisationId : Option CString}
    (filled : ∀ id, authorisationId = some id → id ≠ .empty) {authenticationId passwd : CString}
    (named : authenticationId ≠ .empty) :
    saslPlainChallengeDecode platform (cstr (platform.base64Encode
      (saslPlainMessage authorisationId authenticationId passwd))) =
        .ok (Auth.setSaslPlain authorisationId authenticationId passwd) := by
  have found : Found id authorisationId authenticationId :=
    ⟨named, fun id _ => ⟨0, rfl, Nat.zero_le _, by simp [cstr_self]⟩⟩
  have back := (comesBack_iff id base64 authorisationId filled authenticationId passwd
    .saslPlain).mpr found
  rw [ComesBack, preparing_id prepares] at back
  simpa [saslPlainChallengeEncode] using back

section Round

variable {form : Sieve.Form} {text : List Byte} (plain : ∀ b ∈ text, Lib.Base64.isText b = true)
  (sendable : form.Sendable text) (some_ : text ≠ []) {auth : Auth}
  (decoded : saslPlainChallengeDecode platform (cstr text) = .ok auth) (type : IoType)
  (rest : List Byte)

include plain sendable some_

/-- A round that reads the command reacts to its challenge. -/
theorem react_command : ∃ w, (form.Taken text → w.isString = true ∧ w.str = some (cstr text)) ∧
    (¬ form.Taken text → w.isString = false) ∧
    react opt platform tlsFlags tlsState type (authenticateCommand form text ++ rest) =
      (((reactChallenge platform w rest).map ManagesieveInAuthStatus.read).map
        ManagesieveInAuthStatus.read) := by
  have line := scanLine_authenticate plain sendable rest
  have word : tokenCasecmpString ⟨bytes "AUTHENTICATE", tokenNone⟩ (lit "AUTHENTICATE") = true ∧
      tokenCasecmpString ⟨bytes "\"PLAIN\"", tokenNone⟩ (lit "\"PLAIN\"") = true := by
    decide +kernel
  have read (w : AcapTokenWrapperStatus) (scanned : scanString platform
      ⟨form.word text, tokenEol⟩ [] (form.behind text ++ rest) = some (w, rest)) :
      react opt platform tlsFlags tlsState type (authenticateCommand form text ++ rest) =
        (((reactChallenge platform w rest).map ManagesieveInAuthStatus.read).map
          ManagesieveInAuthStatus.read) := by
    unfold react
    rw [line]
    dsimp only
    rw [if_pos word.1, reactAuthenticate, if_neg (by simp), if_pos word.2, reactSaslPlain, scanned]
    rfl
  have ⟨takes, refuses⟩ := scanString_argument plain sendable platform some_ rest
  by_cases taken : form.Taken text
  · have ⟨w, scanned, string, str⟩ := takes taken
    exact ⟨w, fun _ => ⟨string, str⟩, fun not_ => absurd taken not_, read w scanned⟩
  · have ⟨w, scanned, none_⟩ := refuses taken
    exact ⟨w, fun yes => absurd yes taken, fun _ => none_, read w scanned⟩

include decoded in
theorem react_taken (taken : form.Taken text) :
    react opt platform tlsFlags tlsState type (authenticateCommand form text ++ rest) =
      .moved ⟨some auth, 1⟩ [] rest := by
  have ⟨w, takes, _, read⟩ := @react_command opt platform tlsFlags tlsState form text plain sendable some_ type rest
  have ⟨string, str⟩ := takes taken
  rw [read, reactChallenge, if_neg (by simp [string]), str]
  dsimp only
  rw [decoded]
  rfl

theorem react_refused (long : ¬ form.Taken text) :
    ∃ content, react opt platform tlsFlags tlsState type (authenticateCommand form text ++ rest) =
      .moved (.plain (-1)) content rest := by
  have ⟨w, _, refuses, read⟩ := @react_command opt platform tlsFlags tlsState form text plain sendable some_ type rest
  rw [read, reactChallenge, if_pos (by simp [refuses long])]
  exact ⟨_, rfl⟩

end Round

/-- A call comes to its first round where the capabilities can be written. -/
theorem run_getAuth {fuel : Nat} {t t' t'' : Talk} {as : ManagesieveInAuthStatus}
    (post : (managesieveStarttlsPost opt tlsFlags tlsState).run Talk.serverStep (fuel + 1) t =
      .done 0 t')
    (round : (managesieveInGetAuthLoop opt platform tlsFlags tlsState).run Talk.serverStep
      (fuel + 1) t' = .done as t'') :
    (managesieveInGetAuth opt platform tlsFlags tlsState).run Talk.serverStep (fuel + 1) t =
      if as.status = 0 ∨ as.status = -1 then
        iterate (fun (_ : Unit) state => (do
          let as ← managesieveInGetAuthLoop opt platform tlsFlags tlsState
          if as.status = 0 ∨ as.status = -1 then return .inl ()
          else
            let status := if 0 < as.status then as.status - 1 else as.status
            return .inr ⟨status, if status = 0 then as.auth else none, none⟩ :
              Dialogue (Unit ⊕ InAuth)).run Talk.serverStep (fuel + 1) state) fuel () t''
      else
        let status := if 0 < as.status then as.status - 1 else as.status
        .done ⟨status, if status = 0 then as.auth else none, none⟩ t'' := by
  unfold managesieveInGetAuth
  rw [run_bind, post, Outcome.next_done, run_ite, if_neg (by decide), run_loop, iterate]
  simp only [run_bind, round, Outcome.next_done, run_ite]
  by_cases again : as.status = 0 ∨ as.status = -1
  · simp only [if_pos again]
    rfl
  · simp only [if_neg again]
    rfl

section Call

variable {form : Sieve.Form} {text : List Byte} (plain : ∀ b ∈ text, Lib.Base64.isText b = true)
  (sendable : form.Sendable text) (some_ : text ≠ [])

include plain sendable some_

/-- A call whose first command is taken returns its credentials. -/
theorem getAuth_taken {auth : Auth} (decoded : saslPlainChallengeDecode platform (cstr text) = .ok auth)
    (taken : form.Taken text) (greets : Greets opt tlsFlags tlsState) {t : Talk} {fuel : Nat}
    {rest : List Byte} (writable : t.Writable)
    (stream : t.stream = authenticateCommand form text ++ rest) (enough : t.stream.length < fuel + 1) :
    ∃ t', (managesieveInGetAuth opt platform tlsFlags tlsState).run Talk.serverStep (fuel + 1) t =
      .done ⟨0, some auth, none⟩ t' := by
  have ⟨t', post, same, type, still⟩ :=
    (run_starttlsPost opt tlsFlags tlsState (fuel + 1) writable).1 greets
  have reacts := loop_reacts opt platform tlsFlags tlsState still
    (show t'.stream.length < fuel + 1 by rw [same]; exact enough)
  rw [same, stream, react_taken opt tlsFlags tlsState plain sendable some_ decoded _ rest taken]
    at reacts
  have ⟨t'', round, _⟩ := reacts
  have whole := run_getAuth opt tlsFlags tlsState post round
  exact ⟨t'', by rw [whole]; rfl⟩

/-- A call whose first command is refused and is all that the client sends fails. -/
theorem getAuth_refused (long : ¬ form.Taken text) (greets : Greets opt tlsFlags tlsState) {t : Talk}
    {fuel : Nat} (writable : t.Writable) (stream : t.stream = authenticateCommand form text)
    (enough : t.stream.length < fuel + 2) :
    ∃ t', (managesieveInGetAuth opt platform tlsFlags tlsState).run Talk.serverStep (fuel + 2) t =
      .done ⟨-3, none, none⟩ t' := by
  have ⟨t', post, same, type, still⟩ :=
    (run_starttlsPost opt tlsFlags tlsState (fuel + 2) writable).1 greets
  have reacts := @loop_reacts opt platform tlsFlags tlsState (fuel + 2) t' still
    (by rw [same]; exact enough)
  have ⟨content, refused⟩ := @react_refused opt platform tlsFlags tlsState form text plain sendable
    some_ (t'.type .server) [] long
  rw [List.append_nil] at refused
  rw [same, stream, refused] at reacts
  have ⟨t'', round, moves⟩ := reacts
  have again := @loop_reacts opt platform tlsFlags tlsState (fuel + 2) t''
    (moves.writable still) (by rw [moves.stream]; exact Nat.succ_pos _)
  have nothing : react opt platform tlsFlags tlsState (t''.type .server) [] = .starved := by
    rw [react, scanLine_open lineFlag_imap4 0 (by simp)]
  rw [moves.stream, nothing] at again
  have ⟨last, second, _⟩ := again
  have whole := run_getAuth opt tlsFlags tlsState post round
  refine ⟨last, ?_⟩
  rw [whole, if_pos (by decide), iterate]
  simp only [run_bind, second, Outcome.next_done]
  rfl

end Call

/-- A client that sends one chunk. -/
theorem accepted_sends {chunk : List Byte} (filled : chunk ≠ []) {fuel : Nat}
    (enough : chunk.length < fuel) : (World.accepted [chunk] [] []).Sends fuel chunk := by
  have whole : (splitReads [chunk]).1 = chunk := by simp [splitReads, filled]
  refine ⟨rfl, fun ok member => ?_, ?_, enough⟩
  · simp [World.accepted] at member
  · change [] ++ (splitReads [chunk]).1 = chunk
    rw [whole, List.nil_append]

include encodes in
/-- Where credentials are read, their challenge is taken and the capabilities can be written. -/
theorem credentialsRead_conditions {form : Sieve.Form} {authorisationId : Option CString}
    {authenticationId passwd : CString}
    (sendable : form.Sendable (platform.base64Encode
      (saslPlainMessage authorisationId authenticationId passwd)))
    (reads : CredentialsRead opt platform tlsFlags tlsState form authorisationId authenticationId
      passwd) :
    form.Taken (platform.base64Encode
      (saslPlainMessage authorisationId authenticationId passwd)) ∧ Greets opt tlsFlags tlsState := by
  have plain := encodes.text (saslPlainMessage authorisationId authenticationId passwd)
  have some_ := encodes.filled _ (saslPlainMessage_ne_nil authorisationId authenticationId passwd)
  unfold CredentialsRead at reads
  generalize platform.base64Encode (saslPlainMessage authorisationId authenticationId passwd) = text
    at *
  have command : authenticateCommand form text ≠ [] := by simp [authenticateCommand, crlf]
  have sends := accepted_sends command (Nat.lt_add_of_pos_right (n := _) (k := 2) (by decide))
  have returns := reads _ _ [] (by rw [List.append_nil]; exact sends)
  obtain ⟨result, t, run, zero, _⟩ := (Dialogue.returns_iff sends.client).mp returns
  have writable : ((World.accepted [authenticateCommand form text] [] []).visit
      (World.accepted [authenticateCommand form text] [] []).trace.length).Writable := sends.writes
  have greets : Greets opt tlsFlags tlsState := by
    by_contra not_
    obtain ⟨why, t', post⟩ := (run_starttlsPost opt tlsFlags tlsState
      ((authenticateCommand form text).length + 2) writable).2 not_
    unfold managesieveInGetAuth at run
    rw [run_bind, post] at run
    simp at run
  refine ⟨?_, greets⟩
  by_contra long
  obtain ⟨t', failed⟩ := @getAuth_refused opt platform tlsFlags tlsState form text plain sendable some_
    long greets _ (authenticateCommand form text).length writable sends.sent
    (by rw [sends.sent]; exact sends.enough)
  rw [failed, Outcome.done.injEq] at run
  rw [← run.1] at zero
  exact absurd zero (show ¬ (-3 : Int) = 0 by decide)

include base64 encodes prepares in
/-- Credentials are read in a form exactly where a quoted challenge has no more than 1022 bytes and the
capabilities that come first after TLS can be written. -/
theorem credentialsRead_iff (form : Sieve.Form) (authorisationId : Option CString)
    (filled : ∀ id, authorisationId = some id → id ≠ .empty) (authenticationId passwd : CString)
    (named : authenticationId ≠ .empty)
    (sendable : form.Sendable (platform.base64Encode
      (saslPlainMessage authorisationId authenticationId passwd))) :
    CredentialsRead opt platform tlsFlags tlsState form authorisationId authenticationId passwd ↔
      form.Taken (platform.base64Encode
        (saslPlainMessage authorisationId authenticationId passwd)) ∧
      Greets opt tlsFlags tlsState := by
  constructor
  · exact credentialsRead_conditions opt tlsFlags tlsState encodes sendable
  · have decoded := @challenge_decoded platform base64 prepares _ filled _ passwd named
    have plain := encodes.text (saslPlainMessage authorisationId authenticationId passwd)
    have some_ := encodes.filled _
      (saslPlainMessage_ne_nil authorisationId authenticationId passwd)
    unfold CredentialsRead
    generalize platform.base64Encode
      (saslPlainMessage authorisationId authenticationId passwd) = text at *
    intro ⟨taken, greets⟩ w fuel rest sends
    have ⟨client, writes, sent, enough⟩ := sends
    cases fuel with
    | zero => exact absurd enough (Nat.not_lt_zero _)
    | succ fuel =>
      have ⟨t', run⟩ := @getAuth_taken opt platform tlsFlags tlsState form text plain sendable some_ _
        decoded taken greets (w.visit w.trace.length) fuel rest writes sent (by rw [sent]; exact enough)
      exact (Dialogue.returns_iff client).mpr ⟨_, t', run, rfl, rfl⟩

end Credentials

theorem Platform.withBase64_encodesText (platform : Platform) :
    platform.withBase64.EncodesText where
  text := Lib.Base64.isText_encode
  filled content some_ := by
    change Lib.Base64.encode content ≠ []
    intro none_
    have back := Lib.Base64.decode_encode content
    rw [none_] at back
    exact some_ (Option.some.inj back).symm

/-- Short credentials are read as a literal. -/
theorem credentialsRead_literal :
    CredentialsRead Options.sample Platform.sample.withBase64 0 0 (.literal true)
      (some (lit "admin")) (lit "user") (lit "secret") :=
  (credentialsRead_iff Options.sample 0 0 (Platform.withBase64_base64 _)
    (Platform.withBase64_encodesText _) (fun _ => rfl) (.literal true) (some (lit "admin"))
    (fun id same => by
      rw [Option.some.injEq] at same
      rw [← same]
      decide) (lit "user") (lit "secret") (by decide)
    (show (Lib.Base64.encode _).length ≤ maxLineLength by decide +kernel)).mpr
    ⟨show (Lib.Base64.encode _).length ≤ maxLineLength by decide +kernel,
      fun listen => absurd listen (by decide)⟩

/-- A long password. -/
def longPassword : CString :=
  ⟨List.replicate 762 97, fun nul => absurd (List.eq_of_mem_replicate nul) (by decide)⟩

/-- Credentials whose challenge has 1024 bytes are not read between quotes. -/
theorem credentialsRead_long :
    Sieve.Form.Sendable (Platform.sample.withBase64.base64Encode
        (saslPlainMessage none (lit "user") longPassword)) .quoted ∧
      ¬ CredentialsRead Options.sample Platform.sample.withBase64 0 0 .quoted none (lit "user")
        longPassword := by
  have long : (Lib.Base64.encode (saslPlainMessage none (lit "user") longPassword)).length =
      1024 := by
    decide +kernel
  have sendable : Sieve.Form.Sendable (Platform.sample.withBase64.base64Encode
      (saslPlainMessage none (lit "user") longPassword)) .quoted := by
    change (Lib.Base64.encode _).length ≤ 1024
    omega
  refine ⟨sendable, fun reads => ?_⟩
  have ⟨taken, _⟩ := credentialsRead_conditions Options.sample 0 0
    (Platform.withBase64_encodesText _) sendable reads
  change (Lib.Base64.encode _).length ≤ 1022 at taken
  omega

end Perdition
