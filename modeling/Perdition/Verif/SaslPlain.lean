import Perdition.Auth
import Perdition.Lib.Base64

/-!
# Credentials as a SASL PLAIN challenge

The decoder reads the message of a challenge front to back, and prepares the two ids. After the
authorisation id it goes on by the length of the prepared id, whatever the length that was read, so
that credentials come back only where the two lengths let it find the authentication id.
-/
namespace Perdition

/-- The platform with this preparation of ids. -/
def Platform.preparing (platform : Platform) (prep : CString → CString) : Platform :=
  { platform with saslprep := fun id => some (prep id) }

/-- Base64 of a platform is a true inverse. -/
structure Platform.Base64 (platform : Platform) : Prop where
  /-- What was encoded is decoded. -/
  decodes : ∀ content, content ≠ [] →
    platform.base64Decode (cstr (platform.base64Encode content)) = some content
  /-- What is decoded was encoded. -/
  encodes : ∀ challenge content, platform.base64Decode challenge = some content →
    cstr (platform.base64Encode content) = challenge

/-- Credentials come back out of their challenge, with the ids prepared. -/
def ComesBack (platform : Platform) (prep : CString → CString) (auth : Auth)
    (authenticationId passwd : CString) : Prop :=
  ∃ challenge, saslPlainChallengeEncode platform auth = some challenge ∧
    saslPlainChallengeDecode (platform.preparing prep) challenge =
      .ok (Auth.setSaslPlain (auth.authorisationId.map prep) (prep authenticationId) passwd)

/-- A challenge from which credentials are read is one of a message with an authentication id. -/
def OnlyMessage (platform : Platform) (prep : CString → CString) (challenge : CString) : Prop :=
  ∀ auth, saslPlainChallengeDecode (platform.preparing prep) challenge = .ok auth →
    ∃ authorisationId authenticationId passwd, prep authenticationId ≠ .empty ∧
      challenge = cstr (platform.base64Encode
        (saslPlainMessage authorisationId authenticationId passwd))

/-- The authentication id is not empty when it is prepared, and it is found as far beyond its start as
the authorisation id got longer. -/
def Found (prep : CString → CString) (authorisationId : Option CString)
    (authenticationId : CString) : Prop :=
  prep authenticationId ≠ .empty ∧
    ∀ id, authorisationId = some id → ∃ skipped, (prep id).length = id.length + skipped ∧
      skipped ≤ authenticationId.length ∧
      prep (cstr (authenticationId.content.drop skipped)) = prep authenticationId

/-- The first string of the bytes gets shorter and the rest of it is taken for the authentication id,
or it gets longer and what is skipped is what keeps the bytes from being a message. -/
def Misread (prep : CString → CString) (content : List Byte) : Prop :=
  let id := cstr content
  id ≠ .empty ∧
    ((∃ passwd : CString, content = id.content ++ 0 :: passwd.content ∧
        (prep id).length < id.length ∧
        prep (cstr (id.content.drop ((prep id).length + 1))) ≠ .empty) ∨
      ∃ skipped, skipped ≠ [] ∧ ∃ authenticationId passwd : CString,
        content = id.content ++ 0 :: (skipped ++ (authenticationId.content ++ 0 :: passwd.content)) ∧
        (prep id).length = id.length + skipped.length ∧ prep authenticationId ≠ .empty ∧
        (0 ∈ skipped ∨ prep (cstr (skipped ++ authenticationId.content)) = .empty))

/-! ## Bytes up to a NUL -/

/-- The string at the start of bytes is all of them or is followed by a NUL. -/
theorem cstr_cases (content : List Byte) :
    content = (cstr content).content ∨ ∃ rest, content = (cstr content).content ++ 0 :: rest := by
  have whole := List.takeWhile_append_dropWhile (p := fun b : Byte => b != 0) (l := content)
  cases rest : content.dropWhile (· != 0) with
  | nil =>
    rw [rest, List.append_nil] at whole
    exact .inl whole.symm
  | cons b rest' =>
    have nul := List.head_dropWhile_not (fun b : Byte => b != 0) (by rw [rest]; simp)
    simp only [rest, List.head_cons, bne_eq_false_iff_eq] at nul
    subst nul
    rw [rest] at whole
    exact .inr ⟨rest', whole.symm⟩

/-- The string before a NUL. -/
@[simp] theorem cstr_before (s : CString) (rest : List Byte) : cstr (s.content ++ 0 :: rest) = s := by
  rw [cstr_nul, cstr_self]

/-- All of the bytes are copied up to their first NUL. -/
@[simp] theorem strnToStr_all (content : List Byte) :
    strnToStr content content.length = cstr content := by
  rw [strnToStr, List.take_length]

/-- A string is empty where it has no bytes. -/
theorem CString.isEmpty_iff (s : CString) : s.isEmpty = true ↔ s = .empty := by
  constructor
  · intro none
    exact CString.ext (List.isEmpty_iff.mp none)
  · rintro rfl
    rfl

/-- Two strings before the only NUL are the same, and so are those after it. -/
theorem nul_unique {left right : CString} {after after' : List Byte}
    (same : left.content ++ 0 :: after = right.content ++ 0 :: after') :
    left = right ∧ after = after' := by
  have first : left = right := by
    have both := congrArg cstr same
    rwa [cstr_before, cstr_before] at both
  subst first
  simpa using same

/-! ## What the decoder accepts -/

section Decoder

variable (platform : Platform) (prep : CString → CString)

/-- After the authorisation id the decoder skips a byte, and reads an id and a password around a
NUL. -/
theorem saslPlainDecodeRest_ok (authorisationId : Option CString) (content : List Byte)
    (auth : Auth) :
    saslPlainDecodeRest (platform.preparing prep) authorisationId content = .ok auth ↔
      ∃ skipped, ∃ authenticationId passwd : CString,
        content = skipped :: (authenticationId.content ++ 0 :: passwd.content) ∧
        prep authenticationId ≠ .empty ∧
        auth = Auth.setSaslPlain authorisationId (prep authenticationId) passwd := by
  cases content with
  | nil =>
    refine iff_of_false (by simp [saslPlainDecodeRest]) ?_
    intro ⟨skipped, id, passwd, shape, _⟩
    simp at shape
  | cons skipped tail =>
    have reads : saslPlainDecodeRest (platform.preparing prep) authorisationId (skipped :: tail) =
        if (prep (cstr tail)).isEmpty then .invalid (lit "Empty authentication id, mate")
        else if (tail.drop (cstr tail).length).length < 1 then
          .invalid (lit "Challenge has no password, mate")
        else
          let out := (tail.drop (cstr tail).length).drop 1
          if out.length - (cstr out).length ≠ 0 then
            .invalid (lit "Trailing garbage in challenge, mate")
          else .ok (Auth.setSaslPlain authorisationId (prep (cstr tail)) (cstr out)) := by
      unfold saslPlainDecodeRest
      rw [if_neg (by simp)]
      simp only [List.drop_succ_cons, List.drop_zero, strnToStr_all, Platform.preparing]
    rw [reads]
    rcases cstr_cases tail with whole | ⟨rest, split⟩
    · -- Nothing is left for a password.
      have gone : tail.drop (cstr tail).length = [] := by
        apply List.drop_eq_nil_of_le
        have same := congrArg List.length whole
        exact le_of_eq same
      rw [gone]
      refine iff_of_false ?_ ?_
      · split
        · simp
        · simp
      · intro ⟨_, id, passwd, shape, _⟩
        rw [List.cons.injEq] at shape
        have before := cstr_before id passwd.content
        rw [← shape.2] at before
        rw [before, shape.2] at whole
        have long := congrArg List.length whole
        simp at long
    · generalize here : cstr tail = id at *
      subst split
      have left : (id.content ++ 0 :: rest).drop id.length = 0 :: rest := List.drop_left
      rw [left]
      simp only [List.drop_succ_cons, List.drop_zero]
      by_cases empty : prep id = .empty
      · rw [if_pos ((CString.isEmpty_iff _).mpr empty)]
        refine iff_of_false (by simp) ?_
        intro ⟨_, id', passwd, shape, filled, _⟩
        rw [List.cons.injEq] at shape
        have ⟨same, _⟩ := nul_unique shape.2
        rw [← same] at filled
        exact filled empty
      · rw [if_neg fun none => empty ((CString.isEmpty_iff _).mp none), if_neg (by simp)]
        by_cases trailing : rest.length - (cstr rest).length ≠ 0
        · rw [if_pos trailing]
          refine iff_of_false (by simp) ?_
          intro ⟨_, id', passwd, shape, _⟩
          rw [List.cons.injEq] at shape
          have ⟨_, same⟩ := nul_unique shape.2
          rw [same, cstr_self] at trailing
          exact trailing (Nat.sub_self _)
        · rw [if_neg trailing]
          have whole : rest = (cstr rest).content := by
            rcases cstr_cases rest with whole | ⟨more, split⟩
            · exact whole
            · have long := congrArg List.length split
              simp only [List.length_append, List.length_cons] at long
              have unfolded : (cstr rest).length = (cstr rest).content.length := rfl
              omega
          constructor
          · intro read
            rw [AuthStatus.ok.injEq] at read
            exact ⟨skipped, id, cstr rest, by rw [← whole], empty, read.symm⟩
          · intro ⟨_, id', passwd, shape, _, made⟩
            rw [List.cons.injEq] at shape
            have ⟨same, after⟩ := nul_unique shape.2
            rw [made, same, after, cstr_self]

/-- The decoder accepts a message that begins with a NUL, or one whose first string is prepared and
skipped by its new length. -/
theorem saslPlainChallengeDecode_ok (challenge : CString) (auth : Auth) :
    saslPlainChallengeDecode (platform.preparing prep) challenge = .ok auth ↔
      ∃ content, platform.base64Decode challenge = some content ∧
        ((∃ authenticationId passwd : CString,
            content = 0 :: (authenticationId.content ++ 0 :: passwd.content) ∧
            prep authenticationId ≠ .empty ∧
            auth = Auth.setSaslPlain none (prep authenticationId) passwd) ∨
          cstr content ≠ .empty ∧ ∃ front skipped, ∃ authenticationId passwd : CString,
            content = front ++ skipped :: (authenticationId.content ++ 0 :: passwd.content) ∧
            front.length = (prep (cstr content)).length ∧ prep authenticationId ≠ .empty ∧
            auth = Auth.setSaslPlain (some (prep (cstr content))) (prep authenticationId)
              passwd) := by
  have same : (platform.preparing prep).base64Decode = platform.base64Decode := rfl
  unfold saslPlainChallengeDecode
  rw [same]
  rcases read : platform.base64Decode challenge with _ | _ | ⟨b, rest⟩
  · simp
  · refine iff_of_false (by simp) ?_
    rintro ⟨content, here, shape⟩
    rw [Option.some.injEq] at here
    subst here
    rcases shape with ⟨id, passwd, shape, _⟩ | ⟨filled, _⟩
    · simp at shape
    · exact filled rfl
  · simp only [Option.some.injEq, exists_eq_left']
    by_cases nul : b = 0
    · subst nul
      have none_ : cstr (0 :: rest) = .empty := cstr_nul [] rest
      simp only [ne_eq, not_true_eq_false, if_false, none_, false_and, or_false]
      rw [saslPlainDecodeRest_ok]
      constructor
      · rintro ⟨_, id, passwd, shape, filled, made⟩
        rw [List.cons.injEq] at shape
        exact ⟨id, passwd, by rw [shape.2], filled, made⟩
      · rintro ⟨id, passwd, shape, filled, made⟩
        exact ⟨0, id, passwd, shape, filled, made⟩
    · have filled : cstr (b :: rest) ≠ .empty := by
        intro none_
        have first := congrArg CString.content none_
        simp only [cstr, CString.content_empty, List.takeWhile_eq_nil_iff] at first
        exact first (Nat.zero_lt_succ _) (by simpa using nul)
      rw [if_pos nul, strnToStr_all]
      change (if (b :: rest).length < (prep (cstr (b :: rest))).length then AuthStatus.beyond
        else saslPlainDecodeRest (platform.preparing prep) (some (prep (cstr (b :: rest))))
          ((b :: rest).drop (prep (cstr (b :: rest))).length)) = _ ↔ _
      generalize b :: rest = content at *
      constructor
      · intro accepted
        split at accepted
        · simp at accepted
        · rename_i room
          obtain ⟨skipped, id, passwd, shape, some_, made⟩ :=
            (saslPlainDecodeRest_ok _ _ _ _ _).mp accepted
          refine .inr ⟨filled, content.take (prep (cstr content)).length, skipped, id, passwd,
            ?_, ?_, some_, made⟩
          · rw [← shape, List.take_append_drop]
          · rw [List.length_take]
            omega
      · rintro (⟨id, passwd, shape, _⟩ | ⟨_, front, skipped, id, passwd, shape, long, some_, made⟩)
        · rw [shape] at filled
          exact absurd (cstr_nul [] _) filled
        · have left : content.drop (prep (cstr content)).length =
              skipped :: (id.content ++ 0 :: passwd.content) := by
            rw [← long, shape]
            exact List.drop_left
          have total := congrArg List.length shape
          rw [List.length_append] at total
          rw [if_neg (by omega), left]
          exact (saslPlainDecodeRest_ok _ _ _ _ _).mpr ⟨skipped, id, passwd, rfl, some_, made⟩

/-! ## Credentials that come back -/

/-- A message with an authorisation id is read as one without its first bytes exactly where these
end within the authentication id. -/
theorem message_suffix {id authenticationId found passwd : CString} {front : List Byte}
    {skipped : Byte}
    (same : id.content ++ 0 :: (authenticationId.content ++ 0 :: passwd.content) =
      front ++ skipped :: (found.content ++ 0 :: passwd.content)) :
    ∃ more, front.length = id.length + more ∧ more ≤ authenticationId.length ∧
      found = cstr (authenticationId.content.drop more) := by
  have cut : id.content ++ 0 :: authenticationId.content = front ++ skipped :: found.content := by
    have whole : (id.content ++ 0 :: authenticationId.content) ++ 0 :: passwd.content =
        (front ++ skipped :: found.content) ++ 0 :: passwd.content := by
      simpa using same
    exact List.append_cancel_right whole
  have total := congrArg List.length cut
  simp only [List.length_append, List.length_cons] at total
  have idLong : id.length = id.content.length := rfl
  have long : authenticationId.length = authenticationId.content.length := rfl
  by_cases short : front.length < id.content.length
  · -- What is found would hold the NUL after the authorisation id.
    have inside : (0 : Byte) ∈ found.content := by
      have tail := congrArg (List.drop (front.length + 1)) cut
      rw [List.drop_append_of_le_length (by omega)] at tail
      have right : (front ++ skipped :: found.content).drop (front.length + 1) =
          found.content := by
        rw [← List.drop_drop, List.drop_left]
        rfl
      rw [right] at tail
      rw [← tail]
      simp
    exact absurd inside found.noNul
  · refine ⟨front.length - id.content.length, by omega, by omega, ?_⟩
    have tail := congrArg (List.drop (front.length + 1)) cut
    have right : (front ++ skipped :: found.content).drop (front.length + 1) = found.content := by
      rw [← List.drop_drop, List.drop_left]
      rfl
    have left : (id.content ++ 0 :: authenticationId.content).drop (front.length + 1) =
        authenticationId.content.drop (front.length - id.content.length) := by
      rw [show front.length + 1 = id.content.length + (front.length - id.content.length + 1) by
        omega, ← List.drop_drop, List.drop_left]
      rfl
    rw [right, left] at tail
    rw [tail, cstr_self]

/-- Bytes of an id that are dropped leave an id. -/
theorem cstr_drop (s : CString) (count : Nat) :
    (cstr (s.content.drop count)).content = s.content.drop count :=
  cstr_content fun nul => s.noNul (List.mem_of_mem_drop nul)

variable {platform}

/-- The message of credentials is never empty. -/
theorem saslPlainMessage_ne_nil (authorisationId : Option CString)
    (authenticationId passwd : CString) :
    saslPlainMessage authorisationId authenticationId passwd ≠ [] := by
  simp [saslPlainMessage]

/-- The message of credentials with an authorisation id. -/
theorem saslPlainMessage_some (id authenticationId passwd : CString) :
    saslPlainMessage (some id) authenticationId passwd =
      id.content ++ 0 :: (authenticationId.content ++ 0 :: passwd.content) := by
  simp [saslPlainMessage]

/-- The message of credentials without an authorisation id. -/
theorem saslPlainMessage_none (authenticationId passwd : CString) :
    saslPlainMessage none authenticationId passwd =
      0 :: (authenticationId.content ++ 0 :: passwd.content) := by
  simp [saslPlainMessage]

/-- Credentials come back exactly where the decoder finds the authentication id. -/
theorem comesBack_iff (base64 : platform.Base64) (authorisationId : Option CString)
    (filled : ∀ id, authorisationId = some id → id ≠ .empty) (authenticationId passwd : CString)
    (type : AuthType) :
    ComesBack platform prep ⟨authorisationId, some authenticationId, some passwd, type⟩
        authenticationId passwd ↔
      Found prep authorisationId authenticationId := by
  have read := base64.decodes _ (saslPlainMessage_ne_nil authorisationId authenticationId passwd)
  have decoded : ComesBack platform prep
      ⟨authorisationId, some authenticationId, some passwd, type⟩ authenticationId passwd ↔
      saslPlainChallengeDecode (platform.preparing prep) (cstr (platform.base64Encode
        (saslPlainMessage authorisationId authenticationId passwd))) =
        .ok (Auth.setSaslPlain (authorisationId.map prep) (prep authenticationId) passwd) := by
    simp [ComesBack, saslPlainChallengeEncode]
  rw [decoded, saslPlainChallengeDecode_ok, read]
  simp only [Option.some.injEq, exists_eq_left']
  cases authorisationId with
  | none =>
    rw [saslPlainMessage_none]
    constructor
    · rintro (⟨id, passwd', shape, some_, made⟩ | ⟨none_, _⟩)
      · rw [List.cons.injEq] at shape
        have ⟨same, _⟩ := nul_unique shape.2
        rw [same]
        exact ⟨some_, fun id here => by simp at here⟩
      · exact absurd (cstr_nul [] _) none_
    · intro found
      exact .inl ⟨authenticationId, passwd, rfl, found.1, rfl⟩
  | some id =>
    have first : cstr (saslPlainMessage (some id) authenticationId passwd) = id := by
      rw [saslPlainMessage_some, cstr_before]
    rw [first, saslPlainMessage_some]
    constructor
    · rintro (⟨_, _, _, _, made⟩ | ⟨_, front, skipped, found, passwd', shape, long, some_, made⟩)
      · simp [Auth.setSaslPlain] at made
      · simp only [Auth.setSaslPlain, Auth.mk.injEq, Option.some.injEq, and_true] at made
        have ⟨_, ids, words⟩ := made
        subst words
        have ⟨more, reach, within, here⟩ := message_suffix shape
        refine ⟨by rw [ids]; exact some_, ?_⟩
        intro id' same
        rw [Option.some.injEq] at same
        subst same
        exact ⟨more, by rw [← long, reach], within, by rw [← here, ids]⟩
    · intro ⟨some_, found⟩
      have ⟨more, reach, within, same⟩ := found id rfl
      refine .inr ⟨filled id rfl,
        (id.content ++ 0 :: authenticationId.content).take (id.length + more),
        (id.content ++ 0 :: authenticationId.content).getD (id.length + more) 0,
        cstr (authenticationId.content.drop more), passwd, ?_, ?_, ?_, ?_⟩
      · have long : id.length + more < (id.content ++ 0 :: authenticationId.content).length := by
          rw [List.length_append, List.length_cons]
          change id.length + more < id.length + (authenticationId.length + 1)
          omega
        have after : (id.content ++ 0 :: authenticationId.content).drop (id.length + more + 1) =
            authenticationId.content.drop more := by
          rw [Nat.add_assoc, ← List.drop_drop]
          exact congrArg (List.drop (more + 1)) List.drop_left
        have split : id.content ++ 0 :: authenticationId.content =
            (id.content ++ 0 :: authenticationId.content).take (id.length + more) ++
              (id.content ++ 0 :: authenticationId.content).getD (id.length + more) 0 ::
                authenticationId.content.drop more := by
          rw [← after, List.getD_eq_getElem?_getD, List.getElem?_eq_getElem long,
            Option.getD_some, List.getElem_cons_drop, List.take_append_drop]
        have whole := congrArg (· ++ 0 :: passwd.content) split
        rw [cstr_drop]
        simpa using whole
      · rw [List.length_take, List.length_append, List.length_cons, reach]
        change min (id.length + more) (id.length + (authenticationId.length + 1)) = _
        omega
      · rw [same]
        exact some_
      · rw [same]
        rfl

/-! ## Challenges that are accepted -/

/-- The bytes of a message, read from their first NUL on. -/
theorem message_cases (content : List Byte) :
    (∃ authorisationId authenticationId passwd, prep authenticationId ≠ .empty ∧
        content = saslPlainMessage authorisationId authenticationId passwd) ↔
      ∃ authenticationId passwd : CString,
        content = (cstr content).content ++ 0 :: (authenticationId.content ++ 0 :: passwd.content) ∧
        prep authenticationId ≠ .empty := by
  constructor
  · intro ⟨authorisationId, authenticationId, passwd, some_, shape⟩
    refine ⟨authenticationId, passwd, ?_, some_⟩
    cases authorisationId with
    | none =>
      rw [saslPlainMessage_none] at shape
      have first : cstr content = .empty := by
        rw [shape]
        exact cstr_nul [] _
      rw [first]
      exact shape
    | some id =>
      rw [saslPlainMessage_some] at shape
      have first : cstr content = id := by rw [shape, cstr_before]
      rw [first]
      exact shape
  · intro ⟨authenticationId, passwd, shape, some_⟩
    exact ⟨some (cstr content), authenticationId, passwd, some_, by
      rw [saslPlainMessage_some]; exact shape⟩

/-- Bytes that are misread are accepted. -/
theorem misread_accepted {challenge : CString} {content : List Byte}
    (read : platform.base64Decode challenge = some content) (misread : Misread prep content) :
    ∃ auth, saslPlainChallengeDecode (platform.preparing prep) challenge = .ok auth := by
  have ⟨filled, how⟩ := misread
  rcases how with ⟨passwd, shape, short, some_⟩ |
    ⟨skipped, more, id, passwd, shape, reach, some_, _⟩
  · generalize here : cstr content = first at *
    have inside : (prep first).length < first.content.length := short
    refine ⟨_, (saslPlainChallengeDecode_ok platform prep challenge _).mpr ⟨content, read, .inr
      ⟨by rwa [here], first.content.take (prep first).length,
        first.content[(prep first).length], cstr (first.content.drop ((prep first).length + 1)),
        passwd, ?_, ?_, some_, rfl⟩⟩⟩
    · rw [cstr_drop, shape, ← List.cons_append, List.getElem_cons_drop, ← List.append_assoc,
        List.take_append_drop]
    · rw [List.length_take, here]
      omega
  · generalize here : cstr content = first at *
    refine ⟨_, (saslPlainChallengeDecode_ok platform prep challenge _).mpr ⟨content, read, .inr
      ⟨by rwa [here], first.content ++ 0 :: skipped.dropLast, skipped.getLast more, id, passwd,
        ?_, ?_, some_, rfl⟩⟩⟩
    · have last := List.dropLast_concat_getLast more
      calc
        content = first.content ++ 0 :: (skipped ++ (id.content ++ 0 :: passwd.content)) := shape
        _ = first.content ++ 0 :: ((skipped.dropLast ++ [skipped.getLast more]) ++
            (id.content ++ 0 :: passwd.content)) := by rw [last]
        _ = _ := by simp
    · rw [here, reach, List.length_append, List.length_cons, List.length_dropLast]
      have some' := List.length_pos_iff.mpr more
      change first.length + _ = _
      omega

/-- Bytes that are misread are no message. -/
theorem misread_no_message {content : List Byte} (misread : Misread prep content) :
    ¬ ∃ authenticationId passwd : CString,
      content = (cstr content).content ++ 0 :: (authenticationId.content ++ 0 :: passwd.content) ∧
      prep authenticationId ≠ .empty := by
  intro ⟨id, passwd, message, some_⟩
  have ⟨_, how⟩ := misread
  rcases how with ⟨rest, shape, _⟩ | ⟨skipped, _, found, rest, shape, _, _, spoiled⟩
  · rw [shape, cstr_before] at message
    have ⟨_, same⟩ := nul_unique message
    apply rest.noNul
    rw [same]
    simp
  · rw [shape, cstr_before] at message
    have ⟨_, same⟩ := nul_unique message
    rcases spoiled with nul | empty
    · -- The password would hold a NUL.
      have first : (0 : Byte) ∉ id.content := id.noNul
      rcases List.append_eq_append_iff.mp same with ⟨middle, cut, _⟩ | ⟨middle, cut, after⟩
      · rw [cut] at first
        exact first (List.mem_append_left _ nul)
      · cases middle with
        | nil =>
          rw [cut, List.append_nil] at nul
          exact first nul
        | cons b middle =>
          rw [List.cons_append, List.cons.injEq] at after
          apply passwd.noNul
          rw [after.2]
          simp
    · have both : cstr (skipped ++ found.content) = id := by
        have front := congrArg cstr same
        rwa [← List.append_assoc, cstr_nul, cstr_before] at front
      rw [both] at empty
      exact some_ empty

/-- Bytes that are accepted and not misread are a message. -/
theorem accepted_message {content front : List Byte} {skipped : Byte}
    {authenticationId passwd : CString} (filled : cstr content ≠ .empty)
    (shape : content = front ++ skipped :: (authenticationId.content ++ 0 :: passwd.content))
    (long : front.length = (prep (cstr content)).length) (some_ : prep authenticationId ≠ .empty)
    (careful : ¬ Misread prep content) :
    ∃ authenticationId passwd : CString,
      content = (cstr content).content ++ 0 :: (authenticationId.content ++ 0 :: passwd.content) ∧
      prep authenticationId ≠ .empty := by
  rcases cstr_cases content with whole | ⟨rest, split⟩
  · -- There is a NUL before the password.
    have noNul := (cstr content).noNul
    rw [← whole, shape] at noNul
    simp at noNul
  · generalize first : cstr content = id at *
    have same : front ++ skipped :: (authenticationId.content ++ 0 :: passwd.content) =
        id.content ++ 0 :: rest := by rw [← shape, split]
    rcases List.append_eq_append_iff.mp same with ⟨middle, cut, after⟩ | ⟨middle, cut, after⟩
    · cases middle with
      | nil =>
        rw [List.nil_append, List.cons.injEq] at after
        exact ⟨authenticationId, passwd, by rw [split, after.2], some_⟩
      | cons b middle =>
        rw [List.cons_append, List.cons.injEq] at after
        -- What is left of the first string is the authentication id, and the rest the password.
        have noNul : (0 : Byte) ∉ middle := fun nul => id.noNul (by rw [cut]; simp [nul])
        have words : cstr middle = authenticationId ∧ rest = passwd.content := by
          have here := after.2
          rw [← cstr_content noNul] at here
          have ⟨ids, ends⟩ := nul_unique here
          exact ⟨ids.symm, ends.symm⟩
        have left : id.content.drop ((prep id).length + 1) = middle := by
          rw [← long, cut, ← List.drop_drop, List.drop_left]
          rfl
        refine absurd ⟨by rwa [first], .inl ⟨passwd, ?_, ?_, ?_⟩⟩ careful
        · rw [first, split, words.2]
        · rw [first, ← long]
          change _ < id.content.length
          rw [cut, List.length_append, List.length_cons]
          omega
        · rw [first, left, words.1]
          exact some_
    · cases middle with
      | nil =>
        rw [List.nil_append, List.cons.injEq] at after
        exact ⟨authenticationId, passwd, by rw [split, after.2], some_⟩
      | cons b middle =>
        rw [List.cons_append, List.cons.injEq] at after
        have ⟨nul, after⟩ := after
        -- The bytes that are skipped belong to the authentication id.
        have shape' : content = id.content ++ 0 :: ((middle ++ [skipped]) ++
            (authenticationId.content ++ 0 :: passwd.content)) := by
          rw [split, after]
          simp
        have reach : (prep id).length = id.length + (middle ++ [skipped]).length := by
          rw [← long, cut, List.length_append, List.length_cons, List.length_append]
          rfl
        have clean : ¬ ((0 : Byte) ∈ middle ++ [skipped] ∨
            prep (cstr ((middle ++ [skipped]) ++ authenticationId.content)) = .empty) := by
          intro spoiled
          exact careful ⟨by rwa [first], .inr ⟨middle ++ [skipped], by simp, authenticationId,
            passwd, by rw [first]; exact shape', by rw [first]; exact reach, some_, spoiled⟩⟩
        have ⟨noNul, some'⟩ := not_or.mp clean
        refine ⟨cstr ((middle ++ [skipped]) ++ authenticationId.content), passwd, ?_, some'⟩
        rw [cstr_content fun nul => by
          rcases List.mem_append.mp nul with here | here
          · exact noNul here
          · exact authenticationId.noNul here, List.append_assoc (middle ++ [skipped])]
        exact shape'

/-- A challenge is accepted only as that of a message exactly where its bytes are not misread. -/
theorem onlyMessage_iff (base64 : platform.Base64) (challenge : CString) :
    OnlyMessage platform prep challenge ↔
      ∀ content, platform.base64Decode challenge = some content → ¬ Misread prep content := by
  have asMessage (content : List Byte) (read : platform.base64Decode challenge = some content) :
      (∃ authorisationId authenticationId passwd, prep authenticationId ≠ .empty ∧
        challenge = cstr (platform.base64Encode
          (saslPlainMessage authorisationId authenticationId passwd))) ↔
      ∃ authenticationId passwd : CString, content =
        (cstr content).content ++ 0 :: (authenticationId.content ++ 0 :: passwd.content) ∧
        prep authenticationId ≠ .empty := by
    rw [← message_cases]
    constructor
    · intro ⟨authorisationId, authenticationId, passwd, some_, here⟩
      have again := base64.decodes _
        (saslPlainMessage_ne_nil authorisationId authenticationId passwd)
      rw [← here, read, Option.some.injEq] at again
      exact ⟨authorisationId, authenticationId, passwd, some_, again⟩
    · intro ⟨authorisationId, authenticationId, passwd, some_, here⟩
      exact ⟨authorisationId, authenticationId, passwd, some_, by
        rw [← here, base64.encodes _ _ read]⟩
  constructor
  · intro only content read misread
    have ⟨auth, accepted⟩ := misread_accepted prep read misread
    exact misread_no_message prep misread ((asMessage content read).mp (only auth accepted))
  · intro careful auth accepted
    have ⟨content, read, how⟩ := (saslPlainChallengeDecode_ok platform prep challenge auth).mp
      accepted
    apply (asMessage content read).mpr
    rcases how with ⟨id, passwd, shape, some_, _⟩ |
      ⟨filled, front, skipped, id, passwd, shape, long, some_, _⟩
    · have first : cstr content = .empty := by
        rw [shape]
        exact cstr_nul [] _
      exact ⟨id, passwd, by rw [first]; exact shape, some_⟩
    · exact accepted_message prep filled shape long some_ (careful content read)

end Decoder

/-- Credentials come back out of their challenge exactly where the decoder finds the authentication id,
and a challenge is accepted only as that of a message exactly where its bytes are not misread. -/
theorem saslPlain_iff (platform : Platform) (base64 : platform.Base64)
    (prep : CString → CString) :
    (∀ (authorisationId : Option CString) (authenticationId passwd : CString) (type : AuthType),
      (∀ id, authorisationId = some id → id ≠ .empty) →
        (ComesBack platform prep ⟨authorisationId, some authenticationId, some passwd, type⟩
          authenticationId passwd ↔ Found prep authorisationId authenticationId)) ∧
    ∀ challenge, OnlyMessage platform prep challenge ↔
      ∀ content, platform.base64Decode challenge = some content → ¬ Misread prep content :=
  ⟨fun authorisationId authenticationId passwd type filled =>
      comesBack_iff prep base64 authorisationId filled authenticationId passwd type,
    onlyMessage_iff prep base64⟩

/-! ## Instances -/

/-- A platform with base64 as it is. -/
def Platform.withBase64 (platform : Platform) : Platform :=
  { platform with
    base64Encode := Lib.Base64.encode
    base64Decode := fun challenge => match Lib.Base64.decode challenge.content with
      | some (b :: rest) => some (b :: rest)
      | _ => none }

/-- Base64 is a true inverse. -/
theorem Platform.withBase64_base64 (platform : Platform) : platform.withBase64.Base64 := by
  constructor
  · intro content some_
    have text : (cstr (Lib.Base64.encode content)).content = Lib.Base64.encode content :=
      cstr_content (Lib.Base64.noNul_encode content)
    change (match Lib.Base64.decode (cstr (Lib.Base64.encode content)).content with
      | some (b :: rest) => some (b :: rest)
      | _ => none) = _
    rw [text, Lib.Base64.decode_encode]
    cases content with
    | nil => exact absurd rfl some_
    | cons b rest => rfl
  · intro challenge content read
    change (match Lib.Base64.decode challenge.content with
      | some (b :: rest) => some (b :: rest)
      | _ => none) = some content at read
    split at read
    · rename_i decoded
      rw [Option.some.injEq] at read
      rw [read] at decoded
      change cstr (Lib.Base64.encode content) = _
      rw [Lib.Base64.encode_decode _ _ decoded, cstr_self]
    · simp at read

/-- Ids that are left as they are come back. -/
theorem saslPlain_iff_plain :
    ComesBack Platform.sample.withBase64 id
      ⟨some (lit "admin"), some (lit "user"), some (lit "secret"), .saslPlain⟩ (lit "user")
        (lit "secret") :=
  ((saslPlain_iff Platform.sample.withBase64 (Platform.withBase64_base64 _) id).1
    (some (lit "admin")) (lit "user") (lit "secret") .saslPlain
    (fun id same => by
      rw [Option.some.injEq] at same
      rw [← same]
      decide)).mpr
    ⟨by decide, fun id same => ⟨0, rfl, Nat.zero_le _, by decide⟩⟩

/-- Preparation as it is for an id with a soft hyphen, which is dropped. -/
def softHyphen (s : CString) : CString :=
  if s.content = bytes "us" ++ 194 :: 173 :: bytes "er" then lit "user" else s

/-- Credentials whose authorisation id is prepared to a shorter one do not come back. -/
theorem saslPlain_hyphen_lost :
    ¬ ComesBack Platform.sample.withBase64 softHyphen
      ⟨some (cstr (bytes "us" ++ 194 :: 173 :: bytes "er")), some (lit "admin"),
        some (lit "secret"), .saslPlain⟩ (lit "admin") (lit "secret") := by
  intro ⟨challenge, encoded, decoded⟩
  have same : saslPlainChallengeEncode Platform.sample.withBase64
      ⟨some (cstr (bytes "us" ++ 194 :: 173 :: bytes "er")), some (lit "admin"),
        some (lit "secret"), .saslPlain⟩ = some (lit "dXPCrWVyAGFkbWluAHNlY3JldA==") := by
    decide +kernel
  rw [same, Option.some.injEq] at encoded
  rw [← encoded] at decoded
  revert decoded
  decide +kernel

end Perdition
