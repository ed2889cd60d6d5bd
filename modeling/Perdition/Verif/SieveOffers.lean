import Perdition.Verif.Answers
import Perdition.Verif.Listing
import Perdition.Verif.SieveCommands

/-!
# What a ManageSieve server offers

The capabilities that `managesieve_out_capability` reads from any bytes, as lists of strings, and what it
makes of them: whether SASL has a value. The credentials are sent on that ground.
-/
namespace Perdition

open Lib Program

namespace Sieve

/-! ## The strings of any stream -/

/-- A string, a byte of a line or of the stream is taken. -/
def unread (q : Option Queue) (stream : List Byte) : Nat := q.elim 0 List.length + stream.length

/-- The next string, with what follows it in its line and behind it. -/
def scanNext (platform : Platform) (q : Option Queue) (stream : List Byte) :
    Option (AcapTokenWrapperStatus × List Byte) :=
  match q with
  | some [] => none
  | some (t :: q) => scanString platform t q stream
  | none => (scanLine tokenImap4 0 stream).bind fun line => match line.1 with
    | [] => none
    | t :: q => scanString platform t q line.2

/-- A string in front of the strings that follow it: in its line, or before them. -/
def prepend (ends : Bool) (str : CString) : List (List CString) → List (List CString)
  | [] => [[str]]
  | line :: lines => if ends then [str] :: line :: lines else (str :: line) :: lines

/-- The lines of strings before an atom, and the atom, in at most so many strings. -/
def scanStrings (platform : Platform) :
    Nat → Option Queue → List Byte → Option (List (List CString) × CString)
  | 0, _, _ => none
  | rounds + 1, q, stream => (scanNext platform q stream).bind fun next =>
    if next.1.status ≠ 0 then none
    else next.1.str.bind fun str =>
      if next.1.type = .atom then some ([], str)
      else (scanStrings platform rounds next.1.q next.2).map fun read =>
        (prepend next.1.q.isNone str read.1, read.2)

/-- The capabilities that a stream begins with, and the word after them, where they are read completely. -/
def scanCapabilities (platform : Platform) (stream : List Byte) :
    Option (List (List CString) × CString) :=
  scanStrings platform (stream.length + 1) none stream

/-- SASL is a capability with a value. -/
def Valued (lines : List (List CString)) : Prop :=
  ∃ line ∈ lines, line.head? = some (lit "SASL") ∧ line.tail ≠ []

/-- SASL is a capability, and PLAIN is in one of its values. -/
def Lists (lines : List (List CString)) : Prop :=
  ∃ line ∈ lines, line.head? = some (lit "SASL") ∧ ∃ value ∈ line.tail, listsPlain value.content

/-! ## Every string takes something -/

/-- A line has no more tokens than bytes. -/
theorem scanLine_count {flag : Flag} {m : Nat} {stream rest : List Byte} {q : Queue}
    (scanned : scanLine flag m stream = some (q, rest)) :
    q.length + rest.length ≤ stream.length := by
  induction long : stream.length using Nat.strong_induction_on generalizing stream q with
  | _ n ih =>
    rw [scanLine] at scanned
    split at scanned
    · simp at scanned
    · rename_i t literal rest' first
      have shorter := scanToken_start first
      split at scanned
      · simp only [Option.some.injEq, Prod.mk.injEq] at scanned
        rw [← scanned.1, ← scanned.2, List.length_singleton]
        omega
      · cases more : scanLine flag m rest' with
        | none => simp [more] at scanned
        | some read =>
          simp only [more, Option.map_some, Option.some.injEq, Prod.mk.injEq] at scanned
          have inner := ih rest'.length (by omega)
            (show scanLine flag m rest' = some (read.1, rest) by rw [more, ← scanned.2]) rfl
          rw [← scanned.1, List.length_cons]
          omega

theorem unread_queueOrNull (q : Queue) (stream : List Byte) :
    unread (queueOrNull q) stream = q.length + stream.length := by
  unfold queueOrNull unread
  cases q with
  | nil => rfl
  | cons t q => rfl

/-- A string leaves no more than the rest of its line and of the stream. -/
theorem scanString_count {platform : Platform} {t : Token} {q : Queue} {stream rest : List Byte}
    {w : AcapTokenWrapperStatus} (scanned : scanString platform t q stream = some (w, rest)) :
    unread w.q rest ≤ q.length + stream.length := by
  have literal {len : Nat} {type : AcapType}
      (scanned : scanLiteral len type stream = some (w, rest)) :
      unread w.q rest ≤ q.length + stream.length := by
    unfold scanLiteral at scanned
    split at scanned
    · simp only [Option.some.injEq, Prod.mk.injEq] at scanned
      rw [← scanned.1, ← scanned.2]
      simp [unread]
    · have ⟨body, word, scanned⟩ := Option.bind_eq_some_iff.mp scanned
      have ⟨line, after, scanned⟩ := Option.bind_eq_some_iff.mp scanned
      have shorter : body.2.length ≤ stream.length := scanToken_length word
      have less : line.1.length + line.2.length ≤ body.2.length := scanLine_count after
      split at scanned
      · simp at scanned
      · rename_i first
        rw [first, List.length_cons] at less
        split at scanned
        · simp only [Option.some.injEq, Prod.mk.injEq] at scanned
          rw [← scanned.1, ← scanned.2]
          simp only [unread, Option.elim_none]
          omega
        · simp only [Option.some.injEq, Prod.mk.injEq] at scanned
          rw [← scanned.1, ← scanned.2, unread_queueOrNull]
          omega
  unfold scanString at scanned
  split at scanned
  · simp only [Option.some.injEq, Prod.mk.injEq] at scanned
    rw [← scanned.1, ← scanned.2]
    simp [unread]
  · simp only [Option.some.injEq, Prod.mk.injEq] at scanned
    rw [← scanned.1, ← scanned.2, unread_queueOrNull]
  · simp only [Option.some.injEq, Prod.mk.injEq] at scanned
    rw [← scanned.1, ← scanned.2, unread_queueOrNull]
  · exact literal scanned

theorem scanNext_count {platform : Platform} {q : Option Queue} {stream rest : List Byte}
    {w : AcapTokenWrapperStatus} (scanned : scanNext platform q stream = some (w, rest)) :
    unread w.q rest < unread q stream := by
  unfold scanNext at scanned
  split at scanned
  · simp at scanned
  · rename_i t q
    have less := scanString_count scanned
    simp only [unread, Option.elim_some, List.length_cons] at less ⊢
    omega
  · have ⟨line, read, scanned⟩ := Option.bind_eq_some_iff.mp scanned
    have count : line.1.length + line.2.length ≤ stream.length := scanLine_count read
    split at scanned
    · simp at scanned
    · rename_i first
      have less := scanString_count scanned
      rw [first, List.length_cons] at count
      simp only [unread, Option.elim_none] at less ⊢
      omega

theorem scanNext_stream {platform : Platform} {q : Option Queue} {stream rest : List Byte}
    {w : AcapTokenWrapperStatus} (scanned : scanNext platform q stream = some (w, rest)) :
    rest.length ≤ stream.length := by
  unfold scanNext at scanned
  split at scanned
  · simp at scanned
  · exact scanString_length platform scanned
  · have ⟨line, read, scanned⟩ := Option.bind_eq_some_iff.mp scanned
    have shorter : line.2.length < stream.length := scanLine_shorter read
    split at scanned
    · simp at scanned
    · have less := scanString_length platform scanned
      omega

/-- With enough rounds their count does not matter. -/
theorem scanStrings_rounds {platform : Platform} :
    ∀ (rounds rounds' : Nat) {q : Option Queue} {stream : List Byte},
      unread q stream < rounds → unread q stream < rounds' →
        scanStrings platform rounds q stream = scanStrings platform rounds' q stream := by
  intro rounds
  induction rounds with
  | zero => intro rounds' q stream none_; omega
  | succ rounds ih =>
    intro rounds' q stream enough enough'
    cases rounds' with
    | zero => omega
    | succ rounds' =>
      rw [scanStrings, scanStrings]
      apply Option.bind_congr
      intro next scanned
      have less : unread next.1.q next.2 < unread q stream := scanNext_count scanned
      rw [ih rounds' (by omega) (by omega)]

/-! ## The status of a response -/

/-- A line is SASL with a value. -/
def saslLine (line : List CString) : Bool :=
  decide (line.head? = some (lit "SASL")) && !line.tail.isEmpty

/-- SASL has a value in lines of which the first one was begun, or not. -/
def valuedFrom (begins sasl : Bool) : List (List CString) → Bool
  | [] => false
  | line :: lines => (if begins then saslLine line else sasl && !line.isEmpty) || lines.any saslLine

theorem valuedFrom_start (lines : List (List CString)) :
    valuedFrom true false lines = true ↔ Valued lines := by
  have each (line : List CString) :
      saslLine line = true ↔ line.head? = some (lit "SASL") ∧ line.tail ≠ [] := by
    simp [saslLine]
  cases lines with
  | nil => simp [valuedFrom, Valued]
  | cons line lines =>
    simp only [valuedFrom, if_true, Bool.or_eq_true, each, List.any_eq_true, Valued, List.mem_cons,
      exists_eq_or_imp]

/-- A string adds a value of SASL where one is begun. -/
theorem valuedFrom_prepend (begins sasl ends : Bool) (name : begins = true → sasl = false)
    (str : CString) (lines : List (List CString)) :
    valuedFrom begins sasl (prepend ends str lines) =
      ((!begins && sasl) ||
        valuedFrom ends (!ends && (sasl || (begins && decide (str = lit "SASL")))) lines) := by
  cases begins with
  | true =>
    rw [name rfl]
    cases lines with
    | nil => simp [prepend, valuedFrom, saslLine]
    | cons line lines => cases ends <;> simp [prepend, valuedFrom, saslLine]
  | false =>
    cases lines with
    | nil => simp [prepend, valuedFrom]
    | cons line lines => cases ends <;> cases sasl <;> simp [prepend, valuedFrom, saslLine]

/-- The locals of `managesieve_out_capability` between two strings. -/
structure Between (state : CapabilityState) : Prop where
  /-- A line begins where none is left. -/
  begins : state.isCapability = state.q.isNone
  /-- SASL is not named at the start of a line. -/
  name : state.isCapability = true → state.isSasl = false
  /-- The status is not 0. -/
  positive : 1 ≤ state.status
  /-- It has four bits. -/
  small : state.status < 16

/-- What a bit does to a status. -/
theorem status_bits : ∀ status < 16,
    (1 ≤ status → 1 ≤ status ||| protocolSStarttls ∧ 1 ≤ status ||| protocolSSaslPlain) ∧
      status ||| protocolSStarttls < 16 ∧ status ||| protocolSSaslPlain < 16 ∧
      statusHas (status ||| protocolSStarttls : Nat) protocolSSaslPlain =
        statusHas status protocolSSaslPlain ∧
      statusHas (status ||| protocolSSaslPlain : Nat) protocolSSaslPlain = true := by
  decide

/-- The locals after a string. -/
theorem read_between {state : CapabilityState} (between : Between state) (str : CString)
    (q : Option Queue) :
    Between (state.read str q) ∧ (state.read str q).q = q ∧
      (state.read str q).isSasl =
        (!q.isNone && (state.isSasl || (state.isCapability && decide (str = lit "SASL")))) ∧
      statusHas (state.read str q).status protocolSSaslPlain =
        (statusHas state.status protocolSSaslPlain || (!state.isCapability && state.isSasl)) := by
  have ⟨_, name, positive, small⟩ := between
  have ⟨more, starttls, plain, same, has⟩ := status_bits state.status small
  have ⟨one, two⟩ := more positive
  have other : lit "SASL" ≠ lit "STARTTLS" := by decide
  have ends : (state.read str q).q = q ∧ (state.read str q).isCapability = q.isNone := by
    cases q <;> exact ⟨rfl, rfl⟩
  have sasl : (state.read str q).isSasl =
      (!q.isNone && (state.isSasl || (state.isCapability && decide (str = lit "SASL")))) := by
    rw [CapabilityState.read, strcaseword_plain]
    cases begins : state.isCapability with
    | true =>
      have none_ := name begins
      by_cases first : str = lit "STARTTLS"
      · cases q <;> simp [first, none_, other.symm]
      · by_cases second : str = lit "SASL"
        · cases q <;> simp [second, other]
        · cases q <;> simp [first, second]
    | false => cases q <;> cases known : state.isSasl <;> simp [known]
  have status : (state.read str q).status =
      if state.isCapability then
        if str = lit "STARTTLS" then state.status ||| protocolSStarttls else state.status
      else if state.isSasl then state.status ||| protocolSSaslPlain else state.status := by
    rw [CapabilityState.read, strcaseword_plain]
    cases begins : state.isCapability with
    | true =>
      by_cases first : str = lit "STARTTLS"
      · cases q <;> simp [first]
      · by_cases second : str = lit "SASL"
        · cases q <;> simp [second, other]
        · cases q <;> simp [first, second]
    | false => cases q <;> cases known : state.isSasl <;> simp
  have quiet : (state.read str q).isCapability = true → (state.read str q).isSasl = false := by
    rw [sasl, ends.2]
    cases q <;> simp
  refine ⟨⟨by rw [ends.1, ends.2], quiet, ?_, ?_⟩, ends.1, sasl, ?_⟩
  · rw [status]
    split_ifs <;> assumption
  · rw [status]
    split_ifs <;> assumption
  · rw [status]
    cases begins : state.isCapability with
    | true => by_cases first : str = lit "STARTTLS" <;> simp [first, same]
    | false => cases known : state.isSasl <;> simp [has]

/-! ## Reading capabilities from any stream -/

section Any

variable {platform : Platform} {fuel : Nat}

/-- What a string does to the loop. -/
def after (state : CapabilityState) (w : AcapTokenWrapperStatus) : Option (CapabilityState ⊕ Int) :=
  if w.status ≠ 0 then some (.inr (-1))
  else w.str.map fun str =>
    if w.type = .atom then .inr (if str = lit "OK" then (state.status : Int) else 0)
    else .inl (state.read str w.q)

/-- A string of a line. -/
theorem run_item (state : CapabilityState) (token : Token) (q : Queue) {t : Talk}
    (enough : t.stream.length < fuel) :
    match scanString platform token q t.stream with
    | none => ∃ t', (managesieveOutString platform state (token :: q)).run Talk.step fuel t =
        .done (.inr (-1)) t'
    | some (w, rest) => ∃ result t', after state w = some result ∧ t'.stream = rest ∧
        (managesieveOutString platform state (token :: q)).run Talk.step fuel t =
          .done result t' := by
  have read := run_scanString platform token q enough
  cases scanned : scanString platform token q t.stream with
  | none =>
    rw [scanned] at read
    obtain ⟨w, t', run, down, _⟩ := read
    refine ⟨t', ?_⟩
    rw [managesieveOutString, run_bind, Talk.run_server, run, Outcome.next_done, run_ite,
      if_pos (by rw [down]; decide)]
    rfl
  | some found =>
    obtain ⟨w, rest⟩ := found
    rw [scanned] at read
    obtain ⟨t', run, moves⟩ := read
    by_cases bad : w.status ≠ 0
    · refine ⟨_, t', by rw [after, if_pos bad], moves.stream, ?_⟩
      rw [managesieveOutString, run_bind, Talk.run_server, run, Outcome.next_done, run_ite, if_pos bad]
      rfl
    · obtain ⟨str, held⟩ := scanString_str scanned (not_not.mp bad)
      refine ⟨_, t', by rw [after, if_neg bad, held]; rfl, moves.stream, ?_⟩
      rw [managesieveOutString, run_bind, Talk.run_server, run, Outcome.next_done, run_ite, if_neg bad,
        held]
      by_cases atom : w.type = .atom
      · simp only [if_pos atom]
        rfl
      · simp only [if_neg atom]
        rfl

/-- The next string, in any line. -/
theorem run_round (state : CapabilityState) {t : Talk} (enough : t.stream.length < fuel) :
    match scanNext platform state.q t.stream with
    | none => ∃ t', (round platform state).run Talk.step fuel t = .done (.inr (-1)) t'
    | some (w, rest) => ∃ result t', after state w = some result ∧ t'.stream = rest ∧
        (round platform state).run Talk.step fuel t = .done result t' := by
  unfold round scanNext
  cases given : state.q with
  | some list =>
    cases list with
    | nil => exact ⟨t, rfl⟩
    | cons token q => exact run_item state token q enough
  | none =>
    have line := @Talk.run_readLine tokenImap4 lineFlag_imap4 0 fuel t enough
    cases scanned : scanLine tokenImap4 0 t.stream with
    | none =>
      rw [scanned] at line
      refine ⟨t.starved, ?_⟩
      rw [run_bind, line]
      rfl
    | some read =>
      obtain ⟨q, rest⟩ := read
      rw [scanned] at line
      have shorter := scanLine_shorter scanned
      cases q with
      | nil => exact absurd rfl (scanLine_ne_nil scanned)
      | cons token q =>
        have item := @run_item platform fuel state token q _
          (show (t.advance rest).stream.length < fuel by change rest.length < fuel; omega)
        rw [run_bind, line]
        exact item

/-- The loop reads the strings up to an atom. -/
theorem reads_any : ∀ (rounds : Nat) {state : CapabilityState} {t : Talk}, Between state →
    t.stream.length < fuel → unread state.q t.stream < rounds →
    match scanStrings platform rounds state.q t.stream with
    | none => ∃ t', reads platform fuel rounds state t = .done (-1) t'
    | some (lines, word) => ∃ (status : Nat) (t' : Talk),
        reads platform fuel rounds state t =
          .done (if word = lit "OK" then (status : Int) else 0) t' ∧
        1 ≤ status ∧ status < 16 ∧
        statusHas status protocolSSaslPlain = (statusHas state.status protocolSSaslPlain ||
          valuedFrom state.isCapability state.isSasl lines) := by
  intro rounds
  induction rounds with
  | zero => intro state t _ _ none_; omega
  | succ rounds ih =>
    intro state t between enough count
    have item := @run_round platform fuel state _ enough
    rw [scanStrings]
    cases scanned : scanNext platform state.q t.stream with
    | none =>
      rw [scanned] at item
      have ⟨t', run⟩ := item
      exact ⟨t', reads_last rounds run⟩
    | some found =>
      have ⟨w, rest⟩ := found
      rw [scanned] at item
      have ⟨result, t', made, left, run⟩ := item
      subst left
      have less := scanNext_count scanned
      simp only [Option.bind_some]
      unfold after at made
      by_cases bad : w.status ≠ 0
      · rw [if_pos bad, Option.some.injEq] at made
        subst made
        rw [if_pos bad]
        exact ⟨t', reads_last rounds run⟩
      · rw [if_neg bad] at made
        rw [if_neg bad]
        cases held : w.str with
        | none => simp [held] at made
        | some str =>
          rw [held, Option.map_some, Option.some.injEq] at made
          simp only [Option.bind_some]
          by_cases atom : w.type = .atom
          · rw [if_pos atom] at made
            subst made
            rw [if_pos atom]
            exact ⟨state.status, t', reads_last rounds run, between.positive, between.small,
              by simp [valuedFrom]⟩
          · rw [if_neg atom] at made
            subst made
            rw [if_neg atom]
            have ⟨next, same, sasl, bit⟩ := read_between between str w.q
            have bytes_ : t'.stream.length < fuel := by
              have whole := scanNext_stream scanned
              omega
            have rest := @ih (state.read str w.q) t' next bytes_ (by rw [same]; omega)
            rw [same] at rest
            rw [reads_again rounds run]
            cases more : scanStrings platform rounds w.q t'.stream with
            | none =>
              rw [more] at rest
              exact rest
            | some read =>
              have ⟨lines, word⟩ := read
              rw [more] at rest
              have ⟨status, last, ended, one, small, has⟩ := rest
              refine ⟨status, last, ended, one, small, ?_⟩
              rw [has, bit, sasl, next.begins, same,
                valuedFrom_prepend _ _ _ between.name str lines, Bool.or_assoc]

/-- What `managesieve_out_capability` makes of any stream. -/
theorem run_capabilities {t : Talk} (enough : t.stream.length < fuel) :
    match scanCapabilities platform t.stream with
    | none => ∃ t', (managesieveOutCapability platform).run Talk.step fuel t = .done (-1) t'
    | some (lines, word) => ∃ (status : Nat) (t' : Talk),
        (managesieveOutCapability platform).run Talk.step fuel t =
          .done (if word = lit "OK" then (status : Int) else 0) t' ∧
        1 ≤ status ∧ status < 16 ∧
        (statusHas status protocolSSaslPlain = true ↔ Valued lines) := by
  have start : Between ⟨none, protocolSOk, true, false⟩ := ⟨rfl, fun _ => rfl, by decide, by decide⟩
  have count : unread none t.stream < fuel := by simpa [unread] using enough
  have read := @reads_any platform fuel fuel _ t start enough count
  have same : scanCapabilities platform t.stream = scanStrings platform fuel none t.stream :=
    scanStrings_rounds _ _ (by simp [unread]) count
  rw [run_capability, same]
  dsimp only at read
  cases scanned : scanStrings platform fuel none t.stream with
  | none =>
    rw [scanned] at read
    exact read
  | some found =>
    have ⟨lines, word⟩ := found
    rw [scanned] at read
    have ⟨status, t', run, one, small, has⟩ := read
    refine ⟨status, t', run, one, small, ?_⟩
    rw [has, ← valuedFrom_start]
    simp [statusHas, protocolSOk, protocolSSaslPlain]

end Any

/-! ## Authentication -/

/-- A response is read completely, ends with OK and has PLAIN among the mechanisms of SASL. -/
def Offers (platform : Platform) (stream : List Byte) : Prop :=
  ∃ lines, scanCapabilities platform stream = some (lines, lit "OK") ∧ Lists lines

/-- The bytes with the response that applies to an authentication: what is read again over TLS, or what
`managesieve_out_setup` read, of whose result the mechanisms are kept. -/
def Applies (opt : Options) (platform : Platform) (tlsState : Flag) (saslMech : Int) (w : World)
    (fuel : Nat) (t : Talk) (stream : List Byte) : Prop :=
  w.Talks w.trace.length t ∧ t.stream.length < fuel ∧
    if tlsState.has sslModeTlsOutgoing then t.stream = stream
    else ∃ fuel' w' t', w'.Talks w'.trace.length t' ∧ t'.stream = stream ∧
      t'.stream.length < fuel' ∧ (managesieveOutSetup opt platform).Returns fuel' w' fun status _ =>
        0 < status ∧ saslMech = (status.toNat &&& protocolSSaslPlain : Nat)

/-- Where PLAIN is not offered, the authentication ends with -1, 0 or 3 and nothing is written. -/
def Guarded (platform : Platform) (tlsState : Flag) (auth : Auth) (saslMech : Int) (tag : Token)
    (capture : Option Capture) (fuel : Nat) (w : World) (stream : List Byte) : Prop :=
  ¬ Offers platform stream →
    (managesieveOutAuthenticate platform tlsState auth saslMech tag capture).Returns fuel w
      fun result t => result.status ∈ [-1, 0, 3] ∧ t.log.past = []

/-- A response that is read over TLS is read completely, and where mechanisms are listed with an OK, PLAIN
is one of them. -/
structure Careful (platform : Platform) (tlsState : Flag) (stream : List Byte) : Prop where
  /-- No read fails and no string is invalid. -/
  complete : tlsState.has sslModeTlsOutgoing = true → scanCapabilities platform stream ≠ none
  /-- PLAIN is listed. -/
  plain : ∀ lines, scanCapabilities platform stream = some (lines, lit "OK") → Valued lines →
    Lists lines

section Authentication

variable {platform : Platform} {fuel : Nat}

/-- A message that is written was said. -/
theorem write_speaks (flag : Flag) (command message : CString) (t : Talk) :
    ((managesieveWrite flag command none (some message)).run Talk.serverStep fuel t).Meets
      (fun _ t' => t'.log.past ≠ []) fun _ => True := by
  have strings : ([some command, ((some message).map fun message => acapFromStr message flag).map
      (·.a)] : List (Option CString)).filterMap id =
        command :: [(acapFromStr message flag).a] := rfl
  have said {content : List Byte} : (t.spoken (.message content)).Meets
      (fun _ t' => t'.log.past ≠ []) fun _ => True :=
    List.cons_ne_nil _ _
  have rest {program : Int → Dialogue Int} (status : Int) (t' : Talk) (past : t'.log.past ≠ []) :
      ((program status).run Talk.serverStep fuel t').Meets (fun _ t' => t'.log.past ≠ [])
        fun _ => True := by
    rw [← Talk.run_server]
    exact Talk.run_past _ past
  unfold managesieveWrite
  rw [run_bind]
  change (((managesieveWriteList _).run Talk.serverStep fuel t).next _).Meets _ _
  rw [Talk.run_list strings, rawSends_eq]
  split
  · exact said.next rest
  · split
    · exact said.next rest
    · trivial

/-- Where the credentials are to be written, something was said. -/
theorem saslPlain_speaks (auth : Auth) (tag : Token) (capture : Option Capture) (t : Talk) :
    ((saslPlain platform auth tag capture).run Talk.step fuel t).Meets
      (fun _ t' => t'.log.past ≠ []) fun _ => True := by
  unfold saslPlain
  cases saslPlainChallengeEncode platform auth with
  | none => trivial
  | some challenge =>
    dsimp only
    rw [run_bind]
    have written := @write_speaks fuel perditionClient (lit "AUTHENTICATE \"PLAIN\"") challenge t
    rw [← Talk.run_server] at written
    exact written.next fun status t' said => Talk.run_past _ said

/-- `managesieve_out_authenticate` once the mechanisms are known. -/
theorem login_cases (auth : Auth) (saslMech : Int) (tag : Token) (capture : Option Capture) (t : Talk) :
    (statusHas saslMech protocolSSaslPlain = true →
      ((managesieveOutLogin platform auth saslMech tag capture).run Talk.step fuel t).Meets
        (fun _ t' => t'.log.past ≠ []) fun _ => True) ∧
      (statusHas saslMech protocolSSaslPlain = false →
        (managesieveOutLogin platform auth saslMech tag capture).run Talk.step fuel t =
          .done ⟨3, tag, capture⟩ t) := by
  unfold managesieveOutLogin
  constructor
  · intro has
    rw [if_neg (by simp [has])]
    exact saslPlain_speaks auth tag capture t
  · intro none_
    rw [if_pos (by simp [none_])]
    rfl

/-- What `managesieve_out_authenticate` does with mechanisms that it reads again. -/
theorem run_again {tlsState : Flag} (tls : tlsState.has sslModeTlsOutgoing = true) (auth : Auth)
    (saslMech : Int) (tag : Token) (capture : Option Capture) {t t' : Talk} {status : Int}
    (run : (managesieveOutCapability platform).run Talk.step fuel t = .done status t') :
    (managesieveOutAuthenticate platform tlsState auth saslMech tag capture).run Talk.step fuel t =
      if flagOfStatus status < 1 then .done ⟨flagOfStatus status, tag, capture⟩ t'
      else (managesieveOutLogin platform auth (flagOfStatus status &&& protocolSSaslPlain : Nat) tag
        capture).run Talk.step fuel t' := by
  unfold managesieveOutAuthenticate
  rw [if_pos tls, run_bind, run, Outcome.next_done]
  dsimp only
  rw [run_ite]
  rfl

/-- Nothing is said by reading the capabilities. -/
theorem capability_quiet {t t' : Talk} {status : Int} (said : t.log.past = [])
    (run : (managesieveOutCapability platform).run Talk.step fuel t = .done status t') :
    t'.log.past = [] := by
  have unsaid := Talk.run_unsaid (managesieveOutCapability_sending platform) fuel t
  rw [run] at unsaid
  exact unsaid.past.trans said

/-- The bits of a status are kept. -/
theorem flag_bits : ∀ status < 16,
    flagOfStatus (status : Nat) = status ∧
      statusHas (status &&& protocolSSaslPlain : Nat) protocolSSaslPlain =
        statusHas status protocolSSaslPlain ∧
      statusHas ((status ^^^ protocolSStarttls) &&& protocolSSaslPlain : Nat) protocolSSaslPlain =
        statusHas status protocolSSaslPlain := by
  decide

/-- What `managesieve_out_setup` returns with success has the bit for PLAIN of the response. -/
theorem setup_bit (opt : Options) {t t' : Talk} {status : Int} (enough : t.stream.length < fuel)
    (run : (managesieveOutSetup opt platform).run Talk.step fuel t = .done status t')
    (positive : 0 < status) :
    ∃ lines, scanCapabilities platform t.stream = some (lines, lit "OK") ∧
      (statusHas (status.toNat &&& protocolSSaslPlain : Nat) protocolSSaslPlain = true ↔
        Valued lines) := by
  have read := @run_capabilities platform fuel _ enough
  unfold managesieveOutSetup at run
  rw [run_bind] at run
  have refused {result : Int} {last last' : Talk} (low : result < 1)
      (same : (.done result last : Outcome Talk Stop Int) = .done status last') : False := by
    rw [Outcome.done.injEq] at same
    omega
  cases scanned : scanCapabilities platform t.stream with
  | none =>
    rw [scanned] at read
    have ⟨t₁, failed⟩ := read
    rw [failed] at run
    exact (refused (by decide) run).elim
  | some found =>
    have ⟨lines, word⟩ := found
    rw [scanned] at read
    have ⟨bits, t₁, ended, one, small, listed⟩ := read
    have ⟨_, kept, toggled⟩ := flag_bits bits small
    by_cases ok : word = lit "OK"
    · subst ok
      rw [if_pos rfl] at ended
      refine ⟨lines, rfl, ?_⟩
      rw [← listed]
      suffices same : status = (bits : Nat) ∨ status = (bits ^^^ protocolSStarttls : Nat) by
        cases same with
        | inl same => rw [same, Int.toNat_natCast, kept]
        | inr same => rw [same, Int.toNat_natCast, toggled]
      rw [ended, Outcome.next_done, run_ite, if_neg (by omega), run_ite] at run
      by_cases wanted : (!opt.sslMode.has sslModeTlsOutgoing) = true
      · rw [if_pos wanted] at run
        have ⟨same, _⟩ := Outcome.done.inj run
        exact .inr same.symm
      rw [if_neg wanted, run_ite] at run
      by_cases lacks : (!statusHas bits protocolSStarttls) = true
      · rw [if_pos lacks, run_ite] at run
        by_cases force : opt.sslMode.has sslModeTlsOutgoingForce = true
        · rw [if_pos force] at run
          exact (refused (by decide) run).elim
        · rw [if_neg force] at run
          have ⟨same, _⟩ := Outcome.done.inj run
          exact .inl same.symm
      rw [if_neg lacks, run_bind] at run
      have ⟨written, t₂, _, run⟩ := Outcome.next_eq_done.mp run
      rw [run_ite] at run
      by_cases lost : written < 0
      · rw [if_pos lost] at run
        exact (refused (by decide) run).elim
      rw [if_neg lost, run_bind] at run
      have ⟨response, t₃, _, run⟩ := Outcome.next_eq_done.mp run
      rw [run_ite] at run
      by_cases low : response.status < 1
      · rw [if_pos low] at run
        exact (refused low run).elim
      · rw [if_neg low] at run
        have ⟨same, _⟩ := Outcome.done.inj run
        exact .inl same.symm
    · rw [if_neg ok] at ended
      rw [ended] at run
      exact (refused (by decide) run).elim

/-- `managesieve_out_authenticate` after the applying response was read. -/
theorem authenticate_cases {opt : Options} {tlsState : Flag} {saslMech : Int} {w : World} {t : Talk}
    {stream : List Byte} (applies : Applies opt platform tlsState saslMech w fuel t stream)
    (auth : Auth) (tag : Token) (capture : Option Capture) :
    (Careful platform tlsState stream → ¬ Offers platform stream → ∃ result t',
      (managesieveOutAuthenticate platform tlsState auth saslMech tag capture).run Talk.step fuel t =
        .done result t' ∧ result.status ∈ [-1, 0, 3] ∧ t'.log.past = []) ∧
      (¬ Careful platform tlsState stream → ¬ Offers platform stream ∧
        ((managesieveOutAuthenticate platform tlsState auth saslMech tag capture).run
          Talk.step fuel t).Meets (fun _ t' => t'.log.past ≠ []) fun _ => True) := by
  obtain ⟨talks, enough, applied⟩ := applies
  have start : t.log.past = [] := by
    obtain ⟨conn, _, _, same⟩ := talks.server
    rw [← same]
    simp [World.talk, Log.start]
  by_cases tls : tlsState.has sslModeTlsOutgoing = true
  · rw [if_pos tls] at applied
    subst applied
    have read := @run_capabilities platform fuel _ enough
    cases scanned : scanCapabilities platform t.stream with
    | none =>
      rw [scanned] at read
      obtain ⟨t', failed⟩ := read
      constructor
      · intro careful
        exact absurd scanned (careful.complete tls)
      · intro _
        refine ⟨?_, ?_⟩
        · rintro ⟨lines, same, _⟩
          simp [scanned] at same
        -- the -1 of the failed read has every bit
        have every : flagOfStatus (-1) = 4294967295 := by decide
        rw [run_again tls auth saslMech tag capture failed, every, if_neg (by decide)]
        exact (login_cases auth _ tag capture t').1 (by decide)
    | some found =>
      obtain ⟨lines, word⟩ := found
      rw [scanned] at read
      obtain ⟨bits, t', run, one, small, listed⟩ := read
      obtain ⟨same, kept, _⟩ := flag_bits bits small
      have quiet := capability_quiet start run
      by_cases ok : word = lit "OK"
      · subst ok
        rw [if_pos rfl] at run
        rw [run_again tls auth saslMech tag capture run, same, if_neg (by omega)]
        obtain ⟨writes, stops⟩ := @login_cases platform fuel auth
          (bits &&& protocolSSaslPlain : Nat) tag capture t'
        rw [kept] at writes stops
        constructor
        · intro careful none_
          have plain : statusHas bits protocolSSaslPlain = false := by
            rw [← Bool.not_eq_true, listed]
            intro valued
            exact none_ ⟨lines, scanned, careful.plain lines scanned valued⟩
          exact ⟨_, t', stops plain, by simp, quiet⟩
        · intro careless
          obtain ⟨valued, unlisted⟩ : Valued lines ∧ ¬ Lists lines := by
            by_contra fine
            apply careless
            refine ⟨fun _ => by simp [scanned], fun lines' same valued => ?_⟩
            rw [scanned, Option.some.injEq, Prod.mk.injEq] at same
            rw [← same.1] at valued ⊢
            by_contra unlisted
            exact fine ⟨valued, unlisted⟩
          refine ⟨?_, writes (listed.mpr valued)⟩
          rintro ⟨lines', same, lists⟩
          rw [scanned, Option.some.injEq, Prod.mk.injEq] at same
          rw [← same.1] at lists
          exact unlisted lists
      · rw [if_neg ok] at run
        constructor
        · intro _ _
          rw [run_again tls auth saslMech tag capture run]
          have zero : ((flagOfStatus 0 : Nat) : Int) ∈ [-1, 0, 3] := by decide
          exact ⟨_, t', rfl, zero, quiet⟩
        · intro careless
          refine absurd ⟨fun _ => by simp [scanned], fun lines' same => ?_⟩ careless
          rw [scanned, Option.some.injEq, Prod.mk.injEq] at same
          exact absurd same.2 ok
  · rw [if_neg tls] at applied
    obtain ⟨fuel', w', t', talks', here, enough', returns⟩ := applied
    subst here
    have sends := managesieveOutSetup_sending opt platform
    obtain ⟨status, last, run, positive, kept⟩ := (Exchange.returns_iff sends talks').mp returns
    obtain ⟨lines, scanned, bit⟩ := setup_bit opt enough' run positive
    rw [← kept] at bit
    obtain ⟨writes, stops⟩ := @login_cases platform fuel auth saslMech tag
      capture t
    have whole : (managesieveOutAuthenticate platform tlsState auth saslMech tag capture) =
        managesieveOutLogin platform auth saslMech tag capture := by
      unfold managesieveOutAuthenticate
      rw [if_neg tls]
    rw [whole]
    constructor
    · intro careful none_
      have plain : statusHas saslMech protocolSSaslPlain = false := by
        rw [← Bool.not_eq_true, bit]
        intro valued
        exact none_ ⟨lines, scanned, careful.plain lines scanned valued⟩
      exact ⟨_, t, stops plain, by simp, start⟩
    · intro careless
      obtain ⟨valued, unlisted⟩ : Valued lines ∧ ¬ Lists lines := by
        by_contra fine
        apply careless
        refine ⟨fun yes => absurd yes tls, fun lines' same valued => ?_⟩
        rw [scanned, Option.some.injEq, Prod.mk.injEq] at same
        rw [← same.1] at valued ⊢
        by_contra unlisted
        exact fine ⟨valued, unlisted⟩
      refine ⟨?_, writes (bit.mpr valued)⟩
      rintro ⟨lines', same, lists⟩
      rw [scanned, Option.some.injEq, Prod.mk.injEq] at same
      rw [← same.1] at lists
      exact unlisted lists

/-- `managesieve_out_authenticate` is guarded exactly where the response that applies is read completely, if
it is read over TLS, and lists PLAIN, if it lists mechanisms. -/
theorem managesieveOutAuthenticate_guarded_iff (opt : Options) (platform : Platform) (tlsState : Flag)
    (auth : Auth) (saslMech : Int) (tag : Token) (capture : Option Capture) (fuel : Nat) (w : World)
    (t : Talk) (stream : List Byte)
    (applies : Applies opt platform tlsState saslMech w fuel t stream) :
    Guarded platform tlsState auth saslMech tag capture fuel w stream ↔
      Careful platform tlsState stream := by
  have sends := managesieveOutAuthenticate_sending platform tlsState auth saslMech tag capture
  have ⟨holds, fails⟩ := authenticate_cases applies auth tag capture
  have talks := applies.1
  constructor
  · intro guarded
    by_contra careless
    have ⟨none_, spoke⟩ := fails careless
    have ⟨result, t', run, _, quiet⟩ := (Exchange.returns_iff sends talks).mp (guarded none_)
    rw [run] at spoke
    exact spoke quiet
  · intro careful none_
    exact (Exchange.returns_iff sends talks).mpr (holds careful none_)

end Authentication

/-- The credentials `u` and `p`. -/
def plainAuth : Auth := Auth.setSaslPlain none (lit "u") (lit "p")

/-- A server that lists PLAIN and then refuses. -/
theorem managesieveOutAuthenticate_refused :
    Guarded Platform.sample sslModeTlsOutgoing plainAuth 0 imap4TagCreate none 64
      (World.connected [bytes "\"SASL\" \"PLAIN\"\r\nNO\r\n"])
      (bytes "\"SASL\" \"PLAIN\"\r\nNO\r\n") := by
  have scanned : scanCapabilities Platform.sample (bytes "\"SASL\" \"PLAIN\"\r\nNO\r\n") =
      some ([[lit "SASL", lit "PLAIN"]], lit "NO") := by decide +kernel
  have other : lit "NO" ≠ lit "OK" := by decide
  exact (managesieveOutAuthenticate_guarded_iff Options.sample Platform.sample sslModeTlsOutgoing
    plainAuth 0 imap4TagCreate none 64 _ _ (bytes "\"SASL\" \"PLAIN\"\r\nNO\r\n")
    ⟨World.connected_talks [bytes "\"SASL\" \"PLAIN\"\r\nNO\r\n"], by decide,
      (if_pos (by decide)).mpr rfl⟩).mpr
    ⟨fun _ => by simp [scanned], fun lines same => by
      rw [scanned, Option.some.injEq, Prod.mk.injEq] at same
      exact absurd same.2 other⟩

/-- The credentials are written to a server that closes the connection within its capabilities. -/
theorem managesieveOutAuthenticate_closed :
    Applies Options.sample Platform.sample sslModeTlsOutgoing 0
        (World.connected [bytes "\"SASL\" \"PL"]) 64 (Talk.reading [bytes "\"SASL\" \"PL"])
        (bytes "\"SASL\" \"PL") ∧
      ¬ Guarded Platform.sample sslModeTlsOutgoing plainAuth 0 imap4TagCreate none 64
        (World.connected [bytes "\"SASL\" \"PL"]) (bytes "\"SASL\" \"PL") := by
  have applies : Applies Options.sample Platform.sample sslModeTlsOutgoing 0
      (World.connected [bytes "\"SASL\" \"PL"]) 64 (Talk.reading [bytes "\"SASL\" \"PL"])
      (bytes "\"SASL\" \"PL") :=
    ⟨World.connected_talks _, by decide, (if_pos (by decide)).mpr rfl⟩
  have broken : scanCapabilities Platform.sample (bytes "\"SASL\" \"PL") = none := by
    decide +kernel
  have ⟨none_, spoke⟩ := (authenticate_cases applies plainAuth imap4TagCreate none).2
    fun careful => careful.complete (by decide) broken
  refine ⟨applies, fun guarded => ?_⟩
  have sends := managesieveOutAuthenticate_sending Platform.sample sslModeTlsOutgoing plainAuth 0
    imap4TagCreate none
  have ⟨result, t', run, _, quiet⟩ := (Exchange.returns_iff sends applies.1).mp (guarded none_)
  rw [run] at spoke
  exact spoke quiet

end Sieve

end Perdition
