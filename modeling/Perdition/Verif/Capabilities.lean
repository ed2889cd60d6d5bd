import Perdition.Verif.Captures

/-!
# Looking up a capability

`imap4_out_get_capability` looks at the first line of the answer only. It finds a capability wherever
it is listed exactly where the first line is a capability line and lists what any line lists.
-/
namespace Perdition

open Lib Program

/-! ## Lines of the answer -/

/-- The second word of the line is CAPABILITY. -/
def CapabilityLine (line : List Byte) : Prop :=
  ∃ word ∈ (replyWords line)[1]?, word.map toLower = (bytes "CAPABILITY").map toLower

/-- The line is a capability line that lists this capability. -/
def Lists (capability : CString) (line : List Byte) : Prop :=
  CapabilityLine line ∧
    ∃ word ∈ (replyWords line).drop 2, word.map toLower = capability.content.map toLower

/-- The line ends the answer to a command with this tag. -/
structure TaggedOk (tag : Token) (line : List Byte) : Prop where
  /-- It is whole. -/
  whole : lf ∉ line
  /-- It has the tag. -/
  awaited : tokenCmp tag (lineTag line) = true
  /-- Its second word is OK. -/
  okay : ∃ t q, lineQueue line = t :: q ∧ tokenCmp imap4OkToken t = true

/-- A capability is compared in any place of a line. -/
theorem tokenCmp_capability {text : CString} {t : Token} :
    tokenCmp t ⟨text.content, tokenDontCare⟩ = true ↔
      t.buf.map toLower = text.content.map toLower := by
  rw [tokenCmp_iff (.inr text.noNul)]
  exact and_iff_right (.inr (.inr rfl))

/-- The words of a line are searched to its end. -/
theorem findCapability_words (capability : CString) (list : List (List Byte)) :
    findCapability ⟨capability.content, tokenDontCare⟩ (lineTokens list) = true ↔
      ∃ word ∈ list, word.map toLower = capability.content.map toLower := by
  induction list with
  | nil => simp [lineTokens, findCapability]
  | cons word rest ih =>
    cases rest with
    | nil =>
      simp only [lineTokens, findCapability, Bool.or_eq_true, tokenCmp_capability]
      simp [Token.isEol, show tokenEol.has tokenEol = true by decide]
    | cons next rest =>
      simp only [lineTokens, findCapability, Bool.or_eq_true, Bool.and_eq_true,
        tokenCmp_capability] at ih ⊢
      rw [ih]
      simp [Token.isEol, show tokenNone.has tokenEol = false by decide]

/-- The token of a capability line. -/
def capabilityToken : Token := litToken "CAPABILITY" tokenNone

/-- An untagged line is taken for the answer where it is a capability line that lists something. -/
theorem check_capability (line : List Byte) (capture : Option Capture) :
    (CapabilityLine line ∧ 2 < (replyWords line).length ∧
      imap4OutCheck capabilityToken (lineQueue line) capture =
        ⟨1, lineTokens ((replyWords line).drop 2), capture⟩) ∨
    (¬ (CapabilityLine line ∧ 2 < (replyWords line).length) ∧
      ∃ status, status < 1 ∧
        imap4OutCheck capabilityToken (lineQueue line) capture = ⟨status, [], capture⟩) := by
  have clean : 0 ∉ capabilityToken.buf := by decide
  rcases list : replyWords line with _ | ⟨w, _ | ⟨command, rest⟩⟩
  · exact absurd list (wordsFrom_ne_nil true line [] false)
  · exact .inr ⟨by simp, -1, by decide, by simp [lineQueue, list, lineTokens, imap4OutCheck]⟩
  · have second : CapabilityLine line ↔ command.map toLower = (bytes "CAPABILITY").map toLower := by
      simp [CapabilityLine, list]
    rw [second]
    cases rest with
    | nil =>
      have other : tokenCmp capabilityToken ⟨command, tokenEol⟩ = false := by
        rw [← Bool.not_eq_true, tokenCmp_iff (.inl clean)]
        exact fun same => absurd same.1
          (show ¬ (tokenNone = tokenEol ∨ tokenNone = 0x03 ∨ tokenEol = 0x03) by decide)
      exact .inr ⟨by simp, 0, by decide, by
        simp [lineQueue, list, lineTokens, imap4OutCheck, other]⟩
    | cons next rest =>
      have same : tokenCmp capabilityToken ⟨command, tokenNone⟩ = true ↔
          command.map toLower = (bytes "CAPABILITY").map toLower := by
        rw [tokenCmp_iff (.inl clean), and_iff_right (.inl rfl), eq_comm]
        rfl
      have queue : lineQueue line = ⟨command, tokenNone⟩ :: lineTokens (next :: rest) := by
        rw [lineQueue, list, List.tail_cons, lineTokens_cons (by simp)]
      by_cases equal : command.map toLower = (bytes "CAPABILITY").map toLower
      · exact .inl ⟨equal, by simp, by simp [queue, imap4OutCheck, same.mpr equal]⟩
      · refine .inr ⟨fun both => equal both.1, 0, by decide, ?_⟩
        have other : tokenCmp capabilityToken ⟨command, tokenNone⟩ = false := by
          rw [← Bool.not_eq_true, same]
          exact equal
        simp [queue, imap4OutCheck, other]

/-! ## Runs of the lookup -/

/-- What the next line makes of a response without a tag. -/
def untaggedAnswer (desired : Token) (line : List Byte) (capture : Option Capture) : Response :=
  if UntaggedLine line then imap4OutCheck desired (lineQueue line) capture
  else ⟨-1, [], capture⟩

namespace Talk

/-- A response without a tag is the next line. -/
theorem run_response_next (relaying : Bool) (desired : Token) {fuel : Nat}
    {capture : Option Capture} {line rest : List Byte} {t : Talk}
    (stream : t.stream = line ++ lf :: rest) (whole : lf ∉ line) (fits : Fits capture line)
    (enough : t.stream.length < fuel) :
    (imap4OutResponse relaying none desired capture).run step fuel t =
      .done (untaggedAnswer desired line (Capture.keep capture line)) (t.hearLine line) := by
  obtain ⟨rounds, rfl⟩ : ∃ rounds, fuel = rounds + 1 := ⟨fuel - 1, by omega⟩
  rw [imap4OutResponse, run_loop, iterate, run_round _ _ _ _ enough, round_line stream whole fits,
    answer, untaggedAnswer]
  by_cases untagged : UntaggedLine line
  · rw [if_pos untagged, (isUntagged_iff line).mpr untagged]
    rfl
  · have other : isUntagged (lineTag line) = false := by
      rw [← Bool.not_eq_true, isUntagged_iff]; exact untagged
    rw [if_neg untagged, other]
    rfl

end Talk

/-- The message that asks for the capabilities. -/
def capabilityCommand (tag : Token) : List Byte := tag.buf ++ space :: bytes "CAPABILITY" ++ crlf

theorem imap4WriteStr_capability {tag : Token} (ours : OurTag tag) :
    imap4WriteStr nullFlag (some tag) (some (lit "CAPABILITY")) none =
      send (capabilityCommand tag) := by
  rw [imap4WriteStr_command ours.noNul (by
    rw [Token.len, ours.shape.1, show (lit "CAPABILITY").length = 10 by decide]; decide)]
  rw [content_lit (by decide)]
  rfl

/-- The buffer as it is passed on at first. -/
def Capture.cleared (capture : Option Capture) : Option Capture :=
  capture.map fun c => { c with buf := List.replicate c.n 0 ++ c.buf.drop c.n }

/-- The talk after the capabilities were asked for. -/
def Talk.asked (t : Talk) (tag : Token) : Talk := (t.say (capabilityCommand tag)).2

/-- A tag is dropped from a buffer that has a NUL. -/
theorem dropTag_isSome (buf : List Byte) : (dropTag buf).isSome ↔ 0 ∈ buf := by
  have ended : ((cstr buf).content.length = buf.length) ↔ 0 ∉ buf := by
    constructor
    · intro same nul
      have whole : (cstr buf).content = buf := (List.takeWhile_prefix _).eq_of_length same
      exact absurd (whole.symm ▸ nul) (cstr buf).noNul
    · intro noNul
      rw [cstr_content noNul]
  unfold dropTag
  dsimp only
  split <;> split <;> simp_all

/-- A NUL is left. -/
theorem dropTag_nul {buf buf' : List Byte} (dropped : dropTag buf = some buf') : 0 ∈ buf' := by
  have nul : 0 ∈ buf := (dropTag_isSome buf).mp (by rw [dropped]; rfl)
  unfold dropTag at dropped
  dsimp only at dropped
  split at dropped
  · split at dropped
    · cases dropped
    · rw [← Option.some.inj dropped]
      simp
  · split at dropped
    · cases dropped
    · rwa [← Option.some.inj dropped]

/-- Dropping the tag is all that happens to the buffer at the end. -/
theorem Talk.run_dropTag (capture : Option Capture) (fuel : Nat) (t : Talk)
    (held : ∀ c ∈ capture, 0 ∈ c.buf) :
    ∃ capture', (Capture.dropTag capture).run step fuel t = .done capture' t ∧
      ∀ c ∈ capture', 0 ∈ c.buf := by
  cases capture with
  | none => exact ⟨none, rfl, by simp⟩
  | some c =>
    obtain ⟨buf, dropped⟩ := Option.isSome_iff_exists.mp ((dropTag_isSome c.buf).mpr (held c rfl))
    refine ⟨some { c with buf := buf }, ?_, ?_⟩
    · rw [Capture.dropTag, dropped]
      rfl
    · rintro _ ⟨⟩
      exact dropTag_nul dropped

section Lookup

variable {relaying : Bool} {tag : Token} {capture : Option Capture} {str : CString} {fuel : Nat}
  {t : Talk}

/-- The lookup asks for the capabilities and reads the answer. -/
theorem run_getCapability (ours : OurTag tag) (written : t.serverWrites.headD true = true) :
    (imap4OutGetCapability relaying imap4OkToken tag capture str).run Talk.step fuel t =
      ((imap4OutReadCapability relaying imap4OkToken tag (Capture.cleared capture) str).run Talk.step
        fuel (t.asked tag)).next fun r t => ((Capture.dropTag r.2.2).run Talk.step fuel t).next
          fun capture t => .done (r.1, r.2.1, capture) t := by
  have ok : (t.say (capabilityCommand tag)).1 = true := written
  rw [imap4OutGetCapability, run_bind, imap4WriteStr_capability ours, Talk.run_say, ok, if_pos rfl, Outcome.next_done]
  dsimp only
  rw [if_neg (by decide), run_bind]
  congr 1

/-- The answer is read from its first line on. -/
theorem run_readCapability {first rest : List Byte} (stream : t.stream = first ++ lf :: rest)
    (whole : lf ∉ first) (fits : Fits capture first) (enough : t.stream.length < fuel) :
    let u := untaggedAnswer capabilityToken first (Capture.keep capture first)
    (imap4OutReadCapability relaying imap4OkToken tag capture str).run Talk.step fuel t =
      if u.status < 1 then .done (u.status, tag, u.capture) (t.hearLine first)
      else ((imap4OutResponse relaying (some tag) imap4OkToken
        (Capture.again capture u.capture)).run Talk.step fuel (t.hearLine first)).next fun r t =>
          .done (if r.status < 0 then (u.status, tag, r.capture)
            else (if findCapability ⟨str.content, tokenDontCare⟩ u.q then 1 else 0, imap4TagInc tag,
              r.capture)) t := by
  intro u
  rw [imap4OutReadCapability, run_bind, show litToken "CAPABILITY" tokenNone = capabilityToken from
    rfl, Talk.run_response_next _ _ stream whole fits enough, Outcome.next_done]
  dsimp only
  split
  · rfl
  · rw [run_bind]
    congr 1
    funext r t'
    split <;> rfl

end Lookup

/-! ## Finding a capability -/

/-- The lines of an answer fit the buffer: they are shorter, and after the first line none is longer
than the line before it. -/
structure LookupFits (capture : Option Capture) (lines : List (List Byte)) (last : List Byte) :
    Prop where
  /-- The lines are shorter than the buffer. -/
  small : ∀ c ∈ capture, ∀ line ∈ lines ++ [last], line.length + 1 < c.n
  /-- After the first line none is longer than the line before it. -/
  chain : ∀ c ∈ capture,
    (lines.tail ++ [last]).IsChain fun before after => after.length ≤ before.length

/-- The first line of the answer says what the lines say, and the answer is read to its end. -/
structure LookupWorks (relaying : Bool) (str : CString) (t : Talk) (lines : List (List Byte)) :
    Prop where
  /-- The first line is a capability line that lists something. -/
  first : ∃ line ∈ lines.head?, CapabilityLine line ∧ 2 < (replyWords line).length
  /-- It lists the capability where any line does. -/
  listed : (∃ line ∈ lines, Lists str line) → ∃ line ∈ lines.head?, Lists str line
  /-- The lines after it are relayed. -/
  relayed : relaying → AllRelayed t.stale lines.tail t.clientWrites

/-- Nothing but the question for the capabilities is sent, and the login is refused. -/
def LoginWithheld (auth : Auth) (tag : Token) (capture : Option Capture) (fuel : Nat) (w : World) :
    Prop :=
  (imap4OutAuthenticate auth tag capture).Returns fuel w fun r t =>
    r.status = 2 ∧ t.log.turns.map Turn.said = [capabilityCommand tag, []]

/-- The capability is found exactly where a line lists it, and the answer is read through its tagged
line. With a client, a login is withheld where a line lists LOGINDISABLED. -/
structure CapabilityLookup (relaying : Bool) (tag : Token) (capture : Option Capture) (str : CString)
    (fuel : Nat) (w : World) (lines : List (List Byte)) (more : List Byte) : Prop where
  /-- What is found. -/
  found : (imap4OutGetCapability relaying imap4OkToken tag capture str).Returns fuel w fun r t =>
    ((∃ line ∈ lines, Lists str line) → r.1 = 1) ∧
      ((¬ ∃ line ∈ lines, Lists str line) → r.1 = 0) ∧ t.stream = more
  /-- What is not sent. -/
  withheld : relaying → str = lit "LOGINDISABLED" → (∃ line ∈ lines, Lists str line) →
    ∀ auth, LoginWithheld auth tag capture fuel w

section Finding

variable {relaying : Bool} {tag : Token} {capture : Option Capture} {str : CString} {fuel : Nat}
  {w : World} {t : Talk} {first last more : List Byte} {lines others : List (List Byte)}

/-- The first line fits the buffer. -/
theorem LookupFits.head {line : List Byte} {rest : List (List Byte)} {others : List (List Byte)}
    (fits : LookupFits capture others last) (split : others ++ [last] = line :: rest) :
    Fits (Capture.cleared capture) line := by
  intro c some_
  obtain ⟨c₀, given, rfl⟩ := Option.map_eq_some_iff.mp some_
  exact .inr (Nat.le_of_lt (fits.small c₀ given line (by rw [split]; simp)))

/-- The other lines fit the buffer, which has a NUL then. -/
theorem LookupFits.rest (fits : LookupFits capture (first :: others) last) :
    let again := Capture.again (Capture.cleared capture)
      (Capture.keep (Capture.cleared capture) first)
    FitAll again (others ++ [last]) ∧ ∀ c ∈ Talk.keepAll again (others ++ [last]), 0 ∈ c.buf := by
  cases capture with
  | none =>
    refine ⟨fitAll_none _, ?_⟩
    rw [show Talk.keepAll (Capture.again (Capture.cleared none)
      (Capture.keep (Capture.cleared none) first)) (others ++ [last]) = none from keepAll_none _]
    simp
  | some c =>
    intro again
    have positive : c.n ≠ 0 := by
      have := fits.small c rfl first (by simp)
      omega
    obtain ⟨c', same, size⟩ : ∃ c', again = some c' ∧ c'.n = c.n := by
      simp [again, Capture.again, Capture.keep, Capture.cleared, positive]
    have small : ∀ line ∈ others ++ [last], line.length + 1 < c'.n := by
      intro line member
      rw [size]
      exact fits.small c rfl line (by simp at member ⊢; tauto)
    have room := (fitAll_small others last small).mpr (fits.chain c rfl)
    obtain ⟨kept, all, held⟩ := keepAll_holds others room fun line member => .inl (small line member)
    rw [same]
    refine ⟨room, ?_⟩
    rw [all]
    rintro _ ⟨⟩
    obtain ⟨rest, whole⟩ := held.content
    rw [whole]
    simp

/-- The stream once the first line was read. -/
theorem asked_stream (tag : Token) (stream : t.stream = wire (first :: others) ++ (last ++ lf :: more)) :
    (t.asked tag).stream = first ++ lf :: (wire others ++ (last ++ lf :: more)) ∧
      ((t.asked tag).hearLine first).stream = wire others ++ (last ++ lf :: more) := by
  have whole : (t.asked tag).stream = first ++ lf :: (wire others ++ (last ++ lf :: more)) := by
    change t.stream = _
    rw [stream, wire_cons]
    simp
  exact ⟨whole, Talk.hearLine_stream whole⟩

/-- The lookup after its first line. -/
theorem run_lookup_first (ours : OurTag tag) (written : t.serverWrites.headD true = true)
    (stream : t.stream = wire (first :: others) ++ (last ++ lf :: more))
    (untagged : UntaggedLines (first :: others))
    (fits : LookupFits capture (first :: others) last) (enough : t.stream.length < fuel) :
    let kept := Capture.keep (Capture.cleared capture) first
    let u := imap4OutCheck capabilityToken (lineQueue first) kept
    (imap4OutGetCapability relaying imap4OkToken tag capture str).run Talk.step fuel t =
      (if u.status < 1 then .done (u.status, tag, u.capture) ((t.asked tag).hearLine first)
        else ((imap4OutResponse relaying (some tag) imap4OkToken
          (Capture.again (Capture.cleared capture) kept)).run Talk.step fuel
            ((t.asked tag).hearLine first)).next fun r t =>
              .done (if r.status < 0 then (u.status, tag, r.capture)
                else (if findCapability ⟨str.content, tokenDontCare⟩ u.q then 1 else 0,
                  imap4TagInc tag, r.capture)) t :
          Outcome Talk Stop (Int × Token × Option Capture)).next fun r t =>
            ((Capture.dropTag r.2.2).run Talk.step fuel t).next
              fun capture t => .done (r.1, r.2.1, capture) t := by
  intro kept u
  obtain ⟨whole, first_⟩ := untagged first (by simp)
  have answer : untaggedAnswer capabilityToken first kept = u := if_pos first_
  have same : u.capture = kept := by
    simp only [u, imap4OutCheck]
    split
    · rfl
    · split <;> rfl
  rw [run_getCapability ours written, run_readCapability (asked_stream tag stream).1 whole
    (fits.head (List.cons_append ..)) enough, answer, same]

/-- Where the first line is a capability line and the others are relayed, the answer is read to its
end. -/
theorem run_lookup (relaying : Bool) (str : CString) (ours : OurTag tag) (written : t.serverWrites.headD true = true)
    (stream : t.stream = wire (first :: others) ++ (last ++ lf :: more))
    (untagged : UntaggedLines (first :: others)) (ended : TaggedOk tag last)
    (fits : LookupFits capture (first :: others) last) (enough : t.stream.length < fuel)
    (answered : CapabilityLine first ∧ 2 < (replyWords first).length)
    (relayed : relaying → AllRelayed t.stale others t.clientWrites) :
    ∃ capture', (imap4OutGetCapability relaying imap4OkToken tag capture str).run Talk.step fuel t =
        .done (if findCapability ⟨str.content, tokenDontCare⟩ (lineTokens ((replyWords first).drop 2))
            then 1 else 0, imap4TagInc tag, capture')
          (((((t.asked tag).hearLine first).passed relaying others)).hearLine last) ∧
      ∀ c ∈ capture', 0 ∈ c.buf := by
  obtain ⟨room, nul⟩ := fits.rest
  have left := (asked_stream tag stream).2
  have shorter : ((t.asked tag).hearLine first).stream.length < fuel := by
    rw [left]
    rw [stream, wire_cons, List.length_append, List.length_append] at enough
    rw [List.length_append]
    omega
  have check := (check_capability first (Capture.keep (Capture.cleared capture) first)).resolve_right
    fun not => not.1 answered
  have others_ : UntaggedLines others := fun line member => untagged line (List.mem_cons_of_mem _ member)
  have response : (imap4OutResponse relaying (some tag) imap4OkToken
      (Capture.again (Capture.cleared capture) (Capture.keep (Capture.cleared capture) first))).run
        Talk.step fuel ((t.asked tag).hearLine first) = _ :=
    run_response_relayed left others_ ended.whole (ours.tagged ended.awaited) room shorter relayed
  have okay (capture : Option Capture) : (Talk.lastAnswer tag imap4OkToken last capture).status = 1 := by
    obtain ⟨token, q, queue, same⟩ := ended.okay
    simp [Talk.lastAnswer, ended.awaited, imap4OutCheck, queue, same]
  have buffer (capture : Option Capture) :
      (Talk.lastAnswer tag imap4OkToken last (Talk.keepAll capture others)).capture =
        Talk.keepAll capture (others ++ [last]) := by
    rw [lastAnswer_eq, Talk.keepAll, Talk.keepAll, List.foldl_append]
    rfl
  obtain ⟨capture', run, held⟩ := Talk.run_dropTag _ fuel
    (((((t.asked tag).hearLine first).passed relaying others)).hearLine last) nul
  refine ⟨capture', ?_, held⟩
  rw [run_lookup_first ours written stream untagged fits enough, check.2.2,
    if_neg (show ¬ (1 : Int) < 1 by decide), response, Outcome.next_done, Outcome.next_done, okay,
    if_neg (by decide)]
  dsimp only
  rw [buffer, run]
  rfl

/-- Where the answer is read to its end, the first line is a capability line and the others are
relayed. -/
theorem run_lookup_stopped (ours : OurTag tag) (written : t.serverWrites.headD true = true)
    (stream : t.stream = wire (first :: others) ++ (last ++ lf :: more))
    (untagged : UntaggedLines (first :: others)) (ended : TaggedOk tag last)
    (fits : LookupFits capture (first :: others) last) (enough : t.stream.length < fuel)
    {r : Int × Token × Option Capture} {t' : Talk}
    (run : (imap4OutGetCapability relaying imap4OkToken tag capture str).run Talk.step fuel t =
      .done r t') (closing : t'.stream = more) :
    (CapabilityLine first ∧ 2 < (replyWords first).length) ∧
      (relaying → AllRelayed t.stale others t.clientWrites) := by
  obtain ⟨room, nul⟩ := fits.rest
  have left := (asked_stream tag stream).2
  have shorter : ((t.asked tag).hearLine first).stream.length < fuel := by
    rw [left]
    rw [stream, wire_cons, List.length_append, List.length_append] at enough
    rw [List.length_append]
    omega
  have others_ : UntaggedLines others := fun line member => untagged line (List.mem_cons_of_mem _ member)
  -- dropping the tag reads nothing
  have dropped {capture capture' : Option Capture} {t₁ t₂ : Talk}
      (run : (Capture.dropTag capture).run Talk.step fuel t₁ = .done capture' t₂) : t₂ = t₁ := by
    unfold Capture.dropTag at run
    split at run
    · exact (Outcome.done.inj run).2.symm
    · split at run
      · cases run
      · exact (Outcome.done.inj run).2.symm
  rw [run_lookup_first ours written stream untagged fits enough] at run
  rcases check_capability first (Capture.keep (Capture.cleared capture) first) with
    ⟨line, long, check⟩ | ⟨not, status, small, check⟩
  · refine ⟨⟨line, long⟩, ?_⟩
    by_contra stopped
    rw [check, if_neg (show ¬ (1 : Int) < 1 by decide)] at run
    cases response : (imap4OutResponse relaying (some tag) imap4OkToken
        (Capture.again (Capture.cleared capture)
          (Capture.keep (Capture.cleared capture) first))).run Talk.step fuel
            ((t.asked tag).hearLine first) with
    | done r₁ t₁ =>
      have longer := run_response_stopped left others_ ended.whole (ours.tagged ended.awaited) room
        shorter stopped response
      rw [response, Outcome.next_done, Outcome.next_done] at run
      cases last_ : (Capture.dropTag _).run Talk.step fuel t₁ with
      | done capture' t₂ =>
        rw [last_, Outcome.next_done] at run
        rw [← closing, ← (Outcome.done.inj run).2, dropped last_] at longer
        exact Nat.lt_irrefl _ longer
      | halted why t₂ => rw [last_] at run; cases run
      | looping t₂ => rw [last_] at run; cases run
    | halted why t₁ => rw [response] at run; cases run
    | looping t₁ => rw [response] at run; cases run
  · rw [check, if_pos small, Outcome.next_done] at run
    cases last_ : (Capture.dropTag _).run Talk.step fuel ((t.asked tag).hearLine first) with
    | done capture' t₂ =>
      rw [last_, Outcome.next_done] at run
      have length := congrArg List.length closing
      rw [← (Outcome.done.inj run).2, dropped last_, left] at length
      simp only [List.length_append, List.length_cons] at length
      omega
    | halted why t₂ => rw [last_] at run; cases run
    | looping t₂ => rw [last_] at run; cases run

/-- A line lists a capability where its words after the second contain it. -/
theorem lists_iff (line : CapabilityLine first) :
    findCapability ⟨str.content, tokenDontCare⟩ (lineTokens ((replyWords first).drop 2)) = true ↔
      Lists str first := by
  rw [findCapability_words, Lists, and_iff_right line]

/-- An answer without an untagged line is an error. -/
theorem run_lookup_none (ours : OurTag tag) (written : t.serverWrites.headD true = true)
    (stream : t.stream = last ++ lf :: more) (ended : TaggedOk tag last)
    (fits : LookupFits capture [] last) (enough : t.stream.length < fuel)
    {r : Int × Token × Option Capture} {t' : Talk}
    (run : (imap4OutGetCapability relaying imap4OkToken tag capture str).run Talk.step fuel t =
      .done r t') : r.1 = -1 := by
  have asked : (t.asked tag).stream = last ++ lf :: more := stream
  have answer (kept : Option Capture) :
      untaggedAnswer capabilityToken last kept = ⟨-1, [], kept⟩ :=
    if_neg (ours.tagged ended.awaited)
  rw [run_getCapability ours written, run_readCapability asked ended.whole (fits.head rfl) enough,
    answer, if_pos (show (-1 : Int) < 1 by decide), Outcome.next_done] at run
  cases dropped : (Capture.dropTag _).run Talk.step fuel ((t.asked tag).hearLine last) with
  | done capture' t₂ =>
    rw [dropped, Outcome.next_done] at run
    rw [← (Outcome.done.inj run).1]
  | halted why t₂ => rw [dropped] at run; cases run
  | looping t₂ => rw [dropped] at run; cases run

/-- Where the answer is read to its end and LOGINDISABLED is found, the login is withheld. -/
theorem loginWithheld (talks : w.Talks w.trace.length t) (ours : OurTag tag)
    (written : t.serverWrites.headD true = true)
    (stream : t.stream = wire (first :: others) ++ (last ++ lf :: more))
    (untagged : UntaggedLines (first :: others)) (ended : TaggedOk tag last)
    (fits : LookupFits capture (first :: others) last) (enough : t.stream.length < fuel)
    (answered : CapabilityLine first ∧ 2 < (replyWords first).length)
    (relayed : AllRelayed t.stale others t.clientWrites)
    (listed : Lists (lit "LOGINDISABLED") first) (auth : Auth) :
    LoginWithheld auth tag capture fuel w := by
  obtain ⟨capture', run, held⟩ := run_lookup true (lit "LOGINDISABLED") ours
    written stream untagged ended fits enough answered fun _ => relayed
  rw [if_pos ((lists_iff answered.1).mpr listed)] at run
  obtain ⟨capture'', dropped, _⟩ := Talk.run_dropTag capture' fuel
    ((((t.asked tag).hearLine first).passed true others).hearLine last) held
  have silent : t.log = .start := talks.log_start
  let closing := (((t.asked tag).hearLine first).passed true others).hearLine last
  have withheld : (imap4OutAuthenticate auth tag capture).run Talk.step fuel t =
      .done ⟨2, imap4TagInc (imap4TagInc tag), capture''⟩ closing := by
    rw [imap4OutAuthenticate, run_bind, run, Outcome.next_done]
    dsimp only
    rw [if_neg (by decide), if_pos (by decide), run_bind, run_pure, Outcome.next_done]
    dsimp only
    rw [run_bind, dropped]
    rfl
  refine (Exchange.returns_iff (sending_any (imap4OutAuthenticate_sending auth capture ours))
    talks).mpr ⟨_, closing, withheld, rfl, ?_⟩
  simp [closing, Talk.passed, Talk.hearLine, Talk.asked, Talk.say, Log.say, Log.hear, Log.turns, silent,
    Log.start, Turn.opening]

/-- A capability that is found wherever it is listed, in an answer that is read to its end, is listed in
the first line. -/
theorem lookupWorks_of_lookup (talks : w.Talks w.trace.length t) (ours : OurTag tag)
    (written : t.serverWrites.headD true = true)
    (stream : t.stream = wire lines ++ (last ++ lf :: more)) (untagged : UntaggedLines lines)
    (ended : TaggedOk tag last) (fits : LookupFits capture lines last)
    (enough : t.stream.length < fuel)
    (lookup : CapabilityLookup relaying tag capture str fuel w lines more) :
    LookupWorks relaying str t lines := by
  have sends := sending_any (imap4OutGetCapability_sending relaying imap4OkToken capture str ours)
  obtain ⟨r, t', run, some_, none_, closing⟩ := (Exchange.returns_iff sends talks).mp lookup.found
  cases lines with
  | nil =>
    have failed := run_lookup_none ours written (by simpa using stream) ended fits enough run
    rw [none_ (by simp)] at failed
    cases failed
  | cons first others =>
    obtain ⟨answered, relayed⟩ := run_lookup_stopped ours written stream untagged ended fits enough
      run closing
    refine ⟨⟨first, rfl, answered⟩, fun listed => ⟨first, rfl, ?_⟩, relayed⟩
    obtain ⟨capture', whole, _⟩ := run_lookup relaying str ours written stream untagged ended fits
      enough answered relayed
    by_contra not
    have status := some_ listed
    rw [run] at whole
    rw [(Outcome.done.inj whole).1, if_neg (fun found => not ((lists_iff answered.1).mp found))]
      at status
    cases status

/-- Where the first line says what the lines say and the others are relayed, the lookup works. -/
theorem lookup_of_lookupWorks (talks : w.Talks w.trace.length t) (ours : OurTag tag)
    (written : t.serverWrites.headD true = true)
    (stream : t.stream = wire lines ++ (last ++ lf :: more)) (untagged : UntaggedLines lines)
    (ended : TaggedOk tag last) (fits : LookupFits capture lines last)
    (enough : t.stream.length < fuel) (works : LookupWorks relaying str t lines) :
    CapabilityLookup relaying tag capture str fuel w lines more := by
  obtain ⟨⟨first, head, answered⟩, listed, relayed⟩ := works
  obtain ⟨others, rfl⟩ := List.head?_eq_some_iff.mp head
  have sends := sending_any (imap4OutGetCapability_sending relaying imap4OkToken capture str ours)
  have listed (some_ : ∃ line ∈ first :: others, Lists str line) : Lists str first := by
    obtain ⟨_, ⟨⟩, found⟩ := listed some_
    exact found
  obtain ⟨capture', whole, _⟩ := run_lookup relaying str ours written stream untagged ended fits
    enough answered relayed
  have left : (((((t.asked tag).hearLine first).passed relaying others)).hearLine last).stream =
      more := by
    refine Talk.hearLine_stream ?_
    simp [Talk.passed, (asked_stream tag stream).2]
  refine ⟨(Exchange.returns_iff sends talks).mpr ⟨_, _, whole, fun some_ => ?_, fun none_ => ?_,
    left⟩, ?_⟩
  · rw [if_pos ((lists_iff answered.1).mpr (listed some_))]
  · rw [if_neg fun found => none_ ⟨first, by simp, (lists_iff answered.1).mp found⟩]
  · rintro relaying rfl some_ auth
    exact loginWithheld talks ours written stream untagged ended fits enough answered
      (relayed relaying) (listed some_) auth

end Finding

end Perdition
