import Mathlib.Data.List.Chain
import Perdition.Verif.Relays

/-!
# Responses with a buffer

`imap4_out_response` passes the size of its buffer to `read_line`, which stores the length of the line
there, and the next line has only so much room. Reading with a buffer therefore agrees with reading
without one exactly where no line is longer than the line before it.
-/
namespace Perdition

open Lib Program

/-! ## Rounds and line feeds -/

/-- Reading a line takes no more than one line feed. -/
theorem scanInto_count {flag : Flag} (lines : LineFlag flag) (m : Nat) (capture : Option Capture)
    (stream : List Byte) :
    match scanInto flag m capture stream with
    | some (_, rest) => stream.count lf ≤ rest.count lf + 1
    | none => stream.count lf = 0 := by
  by_cases member : lf ∈ stream
  · obtain ⟨line, rest, rfl, whole⟩ := List.eq_append_cons_of_mem member
    have none_ : line.count lf = 0 := List.count_eq_zero.mpr whole
    by_cases fits : Fits capture line
    · rw [scanInto_line lines m rest whole fits]
      simp [none_]
    · obtain ⟨n, q, capture', _, _, scanned⟩ := scanInto_cut lines m rest whole fits
      rw [scanned]
      simp only [List.count_append, none_, List.count_cons_self]
      omega
  · rw [List.count_eq_zero.mpr member]
    split
    · exact Nat.zero_le _
    · rfl

namespace Talk

/-- A line that is relayed adds one message. -/
theorem passOn_told {t t' : Talk} {first : Token} {q : Queue} {capture : Option Capture}
    {r : Option Capture ⊕ Response} (passed : t.passOn true first q capture = .done r t') :
    (r.isLeft → t'.log.told.length = t.log.told.length + 1) ∧
      t.log.told.length ≤ t'.log.told.length := by
  unfold passOn at passed
  rw [if_pos rfl] at passed
  cases relay_ : relay t.stale first q with
  | fault why => simp [relay_, relayed] at passed
  | refused =>
    simp only [relay_, relayed, Outcome.next_done, Outcome.done.injEq] at passed
    rw [← passed.1, ← passed.2]
    exact ⟨fun left => by simp at left, le_rfl⟩
  | message content =>
    simp only [relay_, relayed, Outcome.next_done, Outcome.done.injEq] at passed
    have more : (t.tell content).2.log.told.length = t.log.told.length + 1 := by
      simp [tell, Log.tell]
    rw [← passed.2]
    exact ⟨fun _ => more, (Nat.le_succ _).trans_eq more.symm⟩

/-- A line that does not end the response adds one message. -/
theorem answer_told {tag desired : Token} {t t' : Talk} {q : Queue} {capture : Option Capture}
    {r : Option Capture ⊕ Response}
    (answered : t.answer true (some tag) desired q capture = .done r t') :
    t'.stream = t.stream ∧ (r.isLeft → t'.log.told.length = t.log.told.length + 1) ∧
      t.log.told.length ≤ t'.log.told.length := by
  have ended {response : Response}
      (same : (.done (.inr response) t : Outcome Talk Stop (Option Capture ⊕ Response)) =
        .done r t') :
      t'.stream = t.stream ∧ (r.isLeft → t'.log.told.length = t.log.told.length + 1) ∧
        t.log.told.length ≤ t'.log.told.length := by
    simp only [Outcome.done.injEq] at same
    rw [← same.1, ← same.2]
    exact ⟨rfl, fun left => by simp at left, le_rfl⟩
  cases q with
  | nil => exact ended answered
  | cons first q =>
    simp only [answer] at answered
    split at answered
    · exact ⟨(passOn_done answered).1, passOn_told answered⟩
    · split at answered
      · exact ended answered
      · exact ended answered

/-- A round takes no more than one line feed for each message it adds, and one more where it ends the
response. -/
theorem round_count {tag desired : Token} {t t' : Talk} {capture : Option Capture}
    {r : Option Capture ⊕ Response}
    (ran : t.round true (some tag) desired capture = .done r t') :
    t.stream.count lf + t.log.told.length ≤
      t'.stream.count lf + t'.log.told.length + if r.isLeft then 0 else 1 := by
  have count := scanInto_count lineFlag_imap4 0 capture t.stream
  unfold round at ran
  cases scanned : scanInto tokenImap4 0 capture t.stream with
  | none =>
    rw [scanned] at ran count
    simp only [Outcome.done.injEq] at ran
    rw [← ran.2]
    simp only [starved, Log.starve, Log.hear] at count ⊢
    omega
  | some read =>
    obtain ⟨⟨q, capture'⟩, rest⟩ := read
    rw [scanned] at ran count
    obtain ⟨stream, told, grown⟩ := answer_told ran
    simp only [advance, Log.hear] at stream told grown count
    rw [stream]
    cases left : r.isLeft with
    | true =>
      have told := told left
      rw [if_pos rfl]
      omega
    | false =>
      rw [if_neg (by simp)]
      omega

/-- So does the rest of a response. -/
theorem rounds_count {tag desired : Token} {r : Response} (rounds : Nat) :
    ∀ {capture : Option Capture} {t t' : Talk},
      iterate (fun capture t => t.round true (some tag) desired capture) rounds capture t =
        .done r t' →
      t.stream.count lf + t.log.told.length ≤ t'.stream.count lf + t'.log.told.length + 1 := by
  induction rounds with
  | zero => intro capture t t' ran; cases ran
  | succ rounds ih =>
    intro capture t t' ran
    rw [iterate] at ran
    cases first : t.round true (some tag) desired capture with
    | done r₁ t₁ =>
      have step := round_count first
      rw [first, Outcome.next_done] at ran
      cases r₁ with
      | inl again =>
        rw [Sum.isLeft_inl, if_pos rfl] at step
        exact step.trans (ih ran)
      | inr value =>
        simp only [Outcome.done.injEq] at ran
        rw [← ran.2]
        simpa using step
    | halted why t₁ => rw [first] at ran; cases ran
    | looping t₁ => rw [first] at ran; cases ran

/-- A round after which the loop goes on leaves no longer a stream. -/
theorem round_length {relaying : Bool} {tag : Option Token} {desired : Token} {t t' : Talk}
    {capture capture' : Option Capture}
    (again : t.round relaying tag desired capture = .done (.inl capture') t') :
    t'.stream.length ≤ t.stream.length := by
  unfold round at again
  cases scanned : scanInto tokenImap4 0 capture t.stream with
  | none => simp [scanned] at again
  | some read =>
    obtain ⟨⟨q, capture₁⟩, rest⟩ := read
    rw [scanned] at again
    rw [answer_again again]
    exact scanInto_length lineFlag_imap4 scanned

/-- The rounds of a response in a talk. -/
theorem run_rounds (relaying : Bool) (tag : Option Token) (desired : Token) (fuel rounds : Nat) :
    ∀ (capture : Option Capture) (t : Talk), t.stream.length < fuel →
      iterate (fun capture t => (imap4OutResponseRound relaying tag desired capture).run step fuel
        t) rounds capture t =
      iterate (fun capture t => t.round relaying tag desired capture) rounds capture t := by
  induction rounds with
  | zero => exact fun _ _ _ => rfl
  | succ rounds ih =>
    intro capture t enough
    rw [iterate, iterate, run_round _ _ _ _ enough]
    cases ran : t.round relaying tag desired capture with
    | done r t' =>
      cases r with
      | inl again => exact ih again t' ((round_length ran).trans_lt enough)
      | inr value => rfl
    | halted why t' => rfl
    | looping t' => rfl

end Talk

/-! ## Lines that fit -/

/-- Lines without a buffer always fit. -/
theorem fitAll_none (lines : List (List Byte)) : FitAll none lines := by
  induction lines with
  | nil => trivial
  | cons line lines ih => exact ⟨fun c none_ => (by cases none_), ih⟩

@[simp] theorem keepAll_none (lines : List (List Byte)) : Talk.keepAll none lines = none := by
  induction lines with
  | nil => rfl
  | cons line lines ih => exact ih

/-- Lines fit a buffer exactly where the first does and none is longer than the one before it. -/
theorem fitAll_chain (lines : List (List Byte)) :
    ∀ {c : Capture} (line : List Byte), 0 < c.n →
      (FitAll (some c) (line :: lines) ↔ line.length + 1 ≤ c.n ∧
        (line :: lines).IsChain fun before after => after.length ≤ before.length) := by
  have first {c : Capture} (line : List Byte) (positive : 0 < c.n) :
      Fits (some c) line ↔ line.length + 1 ≤ c.n := by
    simp [Fits, Nat.ne_of_gt positive]
  induction lines with
  | nil =>
    intro c line positive
    simp [FitAll, first line positive]
  | cons next lines ih =>
    intro c line positive
    have kept : Capture.keep (some c) line = some (c.store (line ++ [lf])) := by
      simp [Capture.keep, Nat.ne_of_gt positive]
    have room : (c.store (line ++ [lf])).n = line.length + 1 := by simp [Capture.store]
    rw [FitAll, first line positive, kept, ih next (by rw [room]; omega), room,
      List.isChain_cons_cons, Nat.add_le_add_iff_right]

/-- Where not all lines fit, there is a first one that does not. -/
theorem not_fitAll {lines : List (List Byte)} :
    ∀ {capture : Option Capture}, ¬ FitAll capture lines →
      ∃ front line back, lines = front ++ line :: back ∧ FitAll capture front ∧
        ¬ Fits (Talk.keepAll capture front) line := by
  induction lines with
  | nil => exact fun cut => absurd trivial cut
  | cons line lines ih =>
    intro capture cut
    by_cases fits : Fits capture line
    · obtain ⟨front, line', back, rfl, others, cut'⟩ := ih fun rest => cut ⟨fits, rest⟩
      exact ⟨line :: front, line', back, rfl, ⟨fits, others⟩, cut'⟩
    · exact ⟨[], line, lines, rfl, trivial, fits⟩

theorem allRelayed_append {stale : List Byte} {front back : List (List Byte)} :
    ∀ {writes : List Bool}, AllRelayed stale (front ++ back) writes ↔
      AllRelayed stale front writes ∧ AllRelayed stale back (writes.drop front.length) := by
  induction front with
  | nil => simp [AllRelayed]
  | cons line front ih =>
    intro writes
    simp [AllRelayed, ih, and_assoc]

theorem wire_append (front back : List (List Byte)) : wire (front ++ back) = wire front ++ wire back := by
  simp [wire]

theorem wire_count {lines : List (List Byte)} (whole : ∀ line ∈ lines, lf ∉ line) :
    (wire lines).count lf = lines.length := by
  induction lines with
  | nil => rfl
  | cons line lines ih =>
    have none_ : line.count lf = 0 := List.count_eq_zero.mpr (whole line (by simp))
    have others := ih fun line member => whole line (List.mem_cons_of_mem _ member)
    simp only [wire_cons, List.count_append, none_, others, List.length_cons,
      List.count_singleton_self]
    omega

/-! ## Runs of a response -/

section Response

variable {relaying : Bool} {tag desired : Token} {capture : Option Capture} {fuel : Nat} {t : Talk}
  {lines : List (List Byte)} {last more : List Byte}

/-- A response whose untagged lines are all passed on ends with the tagged line. -/
theorem run_response_relayed (stream : t.stream = wire lines ++ (last ++ lf :: more))
    (untagged : UntaggedLines lines) (whole : lf ∉ last) (tagged : ¬ UntaggedLine last)
    (fits : FitAll capture (lines ++ [last])) (enough : t.stream.length < fuel)
    (relayed : relaying → AllRelayed t.stale lines t.clientWrites) :
    (imap4OutResponse relaying (some tag) desired capture).run Talk.step fuel t =
      .done (Talk.lastAnswer tag desired last (Talk.keepAll capture lines))
        ((t.passed relaying lines).hearLine last) := by
  have passed : t.passLines relaying lines capture =
      .done (.inl (Talk.keepAll capture lines)) (t.passed relaying lines) :=
    (Talk.passLines_iff relaying).mpr ⟨relayed, rfl, rfl⟩
  rw [Talk.run_response relaying tag desired stream untagged whole tagged fits enough, passed]
  rfl

/-- A response that ends before the tagged line leaves it in the stream. -/
theorem run_response_stopped (stream : t.stream = wire lines ++ (last ++ lf :: more))
    (untagged : UntaggedLines lines) (whole : lf ∉ last) (tagged : ¬ UntaggedLine last)
    (fits : FitAll capture (lines ++ [last])) (enough : t.stream.length < fuel)
    (stopped : ¬ (relaying → AllRelayed t.stale lines t.clientWrites)) {r : Response} {t' : Talk}
    (run : (imap4OutResponse relaying (some tag) desired capture).run Talk.step fuel t =
      .done r t') :
    more.length < t'.stream.length := by
  rw [Talk.run_response relaying tag desired stream untagged whole tagged fits enough] at run
  cases passed : t.passLines relaying lines capture with
  | done r₁ t₁ =>
    rw [passed, Outcome.next_done] at run
    rcases Talk.passLines_done stream passed with ⟨rfl, _⟩ | ⟨c, line, rest, rfl, _, left, shorter⟩
    · exact absurd ((Talk.passLines_iff relaying).mp passed).1 stopped
    · simp only [Outcome.done.injEq] at run
      rw [← run.2, left]
      have length := shorter.length_le
      simp only [List.length_append, List.length_cons] at length
      omega
  | halted why t₁ => rw [passed] at run; cases run
  | looping t₁ => rw [passed] at run; cases run

/-- Where a line is cut and the response still ends with the tagged line, more messages were relayed than
there are lines. -/
theorem run_response_cut (stream : t.stream = wire lines ++ (last ++ lf :: more))
    (untagged : UntaggedLines lines) (whole : lf ∉ last) (silent : t.log.told = [])
    (relayed : AllRelayed t.stale lines t.clientWrites)
    (cut : ¬ FitAll capture (lines ++ [last])) (enough : t.stream.length < fuel) {r : Response}
    {t' : Talk}
    (run : (imap4OutResponse true (some tag) desired capture).run Talk.step fuel t = .done r t')
    (rest : t'.stream = more) : lines.length < t'.log.told.length := by
  obtain ⟨front, line, back, split, fits, cutLine⟩ := not_fitAll cut
  have count := congrArg List.length split
  simp only [List.length_append, List.length_cons, List.length_nil] at count
  have before : front <+: lines :=
    List.prefix_of_prefix_length_le (split ▸ List.prefix_append front (line :: back))
      (List.prefix_append lines [last]) (by omega)
  obtain ⟨others, rfl⟩ := before
  have wholeAll : ∀ l ∈ front ++ others ++ [last], lf ∉ l := by
    intro l member
    rcases List.mem_append.mp member with inside | final
    · exact (untagged l inside).1
    · rw [List.mem_singleton.mp final]; exact whole
  have wholeLine : lf ∉ line := wholeAll line (by rw [split]; simp)
  have wholeBack : ∀ l ∈ back, lf ∉ l := fun l member => wholeAll l (by rw [split]; simp [member])
  have stream' : t.stream = wire front ++ (line ++ lf :: (wire back ++ more)) := by
    have all : t.stream = wire (front ++ others ++ [last]) ++ more := by
      rw [stream, wire_append, wire_append, wire_append]
      simp
    rw [all, split, wire_append, wire_cons]
    simp
  have passed : t.passLines true front capture =
      .done (.inl (Talk.keepAll capture front)) (t.passed true front) :=
    (Talk.passLines_iff true).mpr ⟨fun _ => (allRelayed_append.mp relayed).1, rfl, rfl⟩
  have untagged' : UntaggedLines front := fun l member =>
    untagged l (List.mem_append_left _ member)
  have turns : front.length < fuel := by
    have lengths : front.length ≤ (wire front).length := by
      have counted := wire_count fun l member => (untagged' l member).1
      exact counted ▸ List.count_le_length
    rw [stream', List.length_append] at enough
    omega
  obtain ⟨rounds, rfl⟩ : ∃ rounds, fuel = front.length + (rounds + 1) :=
    ⟨fuel - front.length - 1, by omega⟩
  have left : (t.passed true front).stream = line ++ lf :: (wire back ++ more) := by
    simp [Talk.passed, stream']
  have told : (t.passed true front).log.told.length = front.length := by
    simp [Talk.passed, silent]
  have shorter : (t.passed true front).stream.length < front.length + (rounds + 1) := by
    rw [left]
    rw [stream', List.length_append] at enough
    omega
  obtain ⟨n, q, capture', small, some_, scanned⟩ :=
    scanInto_cut lineFlag_imap4 0 (wire back ++ more) wholeLine cutLine
  rw [imap4OutResponse, run_loop, Talk.run_response_lines true tag desired untagged' _ _ capture t
    stream' enough fits, passed, Outcome.next_done] at run
  dsimp only at run
  rw [Talk.run_rounds _ _ _ _ _ _ _ shorter, iterate, Talk.round, left, scanned] at run
  dsimp only at run
  cases answered : ((t.passed true front).advance (line.drop n ++ lf :: (wire back ++ more))).answer
      true (some tag) desired q capture' with
  | done r₁ t₁ =>
    rw [answered, Outcome.next_done] at run
    obtain ⟨stream₁, told₁, _⟩ := Talk.answer_told answered
    cases r₁ with
    | inl again =>
      have total := Talk.rounds_count rounds run
      have one := told₁ rfl
      have none_ : (line.drop n).count lf = 0 :=
        List.count_eq_zero.mpr fun member => wholeLine (List.mem_of_mem_drop member)
      have ends : t₁.stream.count lf = back.length + 1 + more.count lf := by
        rw [stream₁]
        simp only [Talk.advance, List.count_append, none_, List.count_cons_self,
          wire_count wholeBack]
        omega
      rw [rest, ends, one] at total
      simp only [Talk.advance, Log.hear] at total told
      simp only [List.length_append] at count ⊢
      omega
    | inr value =>
      exfalso
      simp only [Outcome.done.injEq] at run
      have length := congrArg List.length (rest.symm.trans (run.2 ▸ stream₁))
      simp only [Talk.advance, List.length_append, List.length_cons] at length
      omega
  | halted why t₁ => rw [answered] at run; cases run
  | looping t₁ => rw [answered] at run; cases run

end Response

/-! ## The buffer after a response -/

/-- The buffer holds a line and its line feed, and a NUL after them. -/
structure Capture.Holds (c : Capture) (line : List Byte) : Prop where
  /-- The size is that of the line. -/
  size : c.n = line.length + 1
  /-- What is in the buffer. -/
  content : ∃ rest, c.buf = line ++ lf :: 0 :: rest

/-- A line that is shorter than the buffer, or not longer than the line before it, is held with its
NUL. -/
theorem Capture.store_holds {c : Capture} {line : List Byte}
    (room : line.length + 1 < c.n ∨ ∃ before, c.Holds before ∧ line.length ≤ before.length) :
    (c.store (line ++ [lf])).Holds line := by
  refine ⟨by simp [store], ?_⟩
  have padding : ∃ rest, List.replicate (c.n - (line.length + 1)) (0 : Byte) ++ c.buf.drop c.n =
      0 :: rest := by
    rcases room with room | ⟨before, held, shorter⟩
    · obtain ⟨k, some_⟩ : ∃ k, c.n - (line.length + 1) = k + 1 := ⟨c.n - line.length - 2, by omega⟩
      exact ⟨List.replicate k 0 ++ c.buf.drop c.n, by rw [some_, List.replicate_succ]; rfl⟩
    · obtain ⟨rest, whole⟩ := held.content
      have shape : before ++ lf :: 0 :: rest = (before ++ [lf]) ++ 0 :: rest := by simp
      have left : c.buf.drop c.n = 0 :: rest := by
        rw [whole, held.size, shape, List.drop_left' (by simp)]
      cases c.n - (line.length + 1) with
      | zero => exact ⟨rest, by rw [left]; rfl⟩
      | succ k => exact ⟨List.replicate k 0 ++ c.buf.drop c.n, by rw [List.replicate_succ]; rfl⟩
  obtain ⟨rest, same⟩ := padding
  refine ⟨rest, ?_⟩
  simp only [store, List.length_append, List.length_singleton, List.append_assoc, same,
    List.cons_append, List.nil_append]

/-- After lines that fit, the buffer holds the last one. -/
theorem keepAll_holds {last : List Byte} (lines : List (List Byte)) :
    ∀ {c : Capture}, FitAll (some c) (lines ++ [last]) →
      (∀ line ∈ lines ++ [last],
        line.length + 1 < c.n ∨ ∃ before, c.Holds before ∧ line.length ≤ before.length) →
      ∃ c', Talk.keepAll (some c) (lines ++ [last]) = some c' ∧ c'.Holds last := by
  have kept {c : Capture} (line : List Byte) (room : line.length + 1 < c.n ∨
      ∃ before, c.Holds before ∧ line.length ≤ before.length) :
      Capture.keep (some c) line = some (c.store (line ++ [lf])) := by
    have positive : c.n ≠ 0 := by
      rcases room with room | ⟨before, held, _⟩
      · omega
      · rw [held.size]; omega
    simp [Capture.keep, positive]
  induction lines with
  | nil =>
    intro c _ room
    have room := room last (by simp)
    exact ⟨_, kept last room, Capture.store_holds room⟩
  | cons line lines ih =>
    intro c fits room
    have first := room line (by simp)
    have held := Capture.store_holds first
    rw [List.cons_append, FitAll, kept line first] at fits
    rw [List.cons_append, Talk.keepAll, List.foldl_cons, kept line first]
    refine ih fits.2 fun next member => .inr ⟨line, held, ?_⟩
    -- the size of the buffer is that of this line now, and the lines after it fit
    have chain : (line :: (lines ++ [last])).IsChain fun before after => after.length ≤ before.length := by
      cases list : lines ++ [last] with
      | nil => simp
      | cons next others =>
        rw [list] at fits
        have positive : 0 < (c.store (line ++ [lf])).n := by rw [held.size]; omega
        obtain ⟨small, rest⟩ := (fitAll_chain others next positive).mp fits.2
        rw [held.size] at small
        exact List.isChain_cons_cons.mpr ⟨by omega, rest⟩
    let shorter : List Byte → List Byte → Prop := fun before after => after.length ≤ before.length
    have : Trans shorter shorter shorter := ⟨fun first second => Nat.le_trans second first⟩
    exact List.rel_of_pairwise_cons (List.IsChain.pairwise (R := shorter) chain) member

/-! ## The response line for the client -/

/-- The text of a tagged line after its tag, with the line feed. -/
def lastText (last : List Byte) : List Byte := (last.dropWhile (· ≠ space)).tail ++ [lf]

/-- With this buffer, `main` sends the client its own tag and this text. -/
def Delivered (clientTag : Token) (text : List Byte) (capture : Option Capture) : Prop :=
  ∀ (config : Config) (st : LoopState) (fuel : Nat) (w : World) (t : Talk),
    config.protocol = .imap4 → st.clientTag = some clientTag → w.Talks w.trace.length t →
    t.clientWrites.headD true = true →
    ∃ st' w' t', (do
        writeServerResp config st (← Session.exchange (Capture.dropTag capture))).run fuel w =
          .done st' w' ∧
      w'.Talks w.trace.length t' ∧ t'.log.told = [(clientTag.buf ++ space :: text, true)]

/-- A line that is held loses its tag, and is a string then. -/
theorem Capture.Holds.dropTag {c : Capture} {last : List Byte} (held : c.Holds last)
    (spaced : space ∈ last) (clean : 0 ∉ last.takeWhile (· ≠ space)) :
    ∃ buf, Perdition.dropTag c.buf = some buf ∧ cstr (buf.set c.n 0) = cstr (lastText last) := by
  obtain ⟨rest, whole⟩ := held.content
  obtain ⟨tag, text, rfl, noSpace⟩ := List.eq_append_cons_of_mem spaced
  have front : (tag ++ space :: text).takeWhile (· ≠ space) = tag := by
    rw [List.takeWhile_append_of_pos fun b member => by
      simpa using fun same : b = space => noSpace (same ▸ member)]
    simp
  have back : lastText (tag ++ space :: text) = text ++ [lf] := by
    rw [lastText, List.dropWhile_append_of_pos fun b member => by
      simpa using fun same : b = space => noSpace (same ▸ member)]
    simp
  rw [front] at clean
  let cut := (cstr (text ++ [lf])).content
  have short : cut.length ≤ text.length + 1 := by
    simpa [CString.length] using cstr_length_le (text ++ [lf])
  have shown : (cstr c.buf).content = tag ++ space :: cut := by
    have shape : tag ++ space :: text ++ lf :: 0 :: rest =
        (tag ++ [space]) ++ ((text ++ [lf]) ++ 0 :: rest) := by simp
    rw [whole, shape, cstr_append (by simp [clean, show (0 : Byte) ≠ space by decide]), cstr_nul]
    simp [cut]
  have place : (tag ++ space :: cut).idxOf? space = some tag.length := by
    have none_ := List.idxOf?_eq_none_iff.mpr noSpace
    rw [List.idxOf?] at none_ ⊢
    rw [List.findIdx?_append, none_, List.findIdx?_cons]
    simp
  have room : (tag ++ space :: cut).length ≠ c.buf.length := by
    rw [whole]
    simp only [List.length_append, List.length_cons]
    omega
  have dropped : (tag ++ space :: cut).drop (tag.length + 1) = cut := by
    have shape : tag ++ space :: cut = (tag ++ [space]) ++ cut := by simp
    rw [shape, List.drop_left' (by simp)]
  refine ⟨cut ++ [0] ++ c.buf.drop (cut.length + 1), ?_, ?_⟩
  · simp only [Perdition.dropTag, shown, place, room, if_false, dropped]
    simp
  · have beyond : (cut ++ [0]).length ≤ c.n := by
      rw [held.size]
      simp only [List.length_append, List.length_cons, List.length_nil]
      omega
    rw [List.set_append_right _ _ beyond, List.append_assoc, back]
    exact (cstr_nul _ _).trans (cstr_self _)

/-- The response line comes to the tag of the client, a space and the text. -/
theorem imap4WriteStr_response {clientTag : Token} (text : CString)
    (verified : imap4InVerifyTagStr clientTag) (fuel : Nat) (t : Talk) :
    ((imap4WriteStr writeStrNoCllf (some clientTag) none (some text)).with .client).run Talk.step
        fuel t =
      if clientTag.len + 3 < maxLineLength then
        t.relayed (relayText t.stale (clientTag.buf ++ space :: text.content))
      else .halted (.fault .imap4WriteFmt) t := by
  have clean (b : Byte) (refused : imap4TagRefuses b = true) : b ∉ clientTag.buf := by
    intro member
    simp only [imap4InVerifyTagStr, Bool.and_eq_true, List.all_eq_true] at verified
    simpa [refused] using verified.2 b member
  have noNul : 0 ∉ clientTag.buf := clean 0 (by decide)
  have plain : Plain (clientTag.buf ++ [space]) :=
    Plain.append (clean percent (by decide)) (by decide)
  have content : (lit "%s").content = bytes "%s" := content_lit (by decide)
  have given : (lit "%s").isEmpty = false := by decide
  have same : writeStrNoCllf ||| writeStrNoCllf = nullFlag ||| writeStrNoCllf := by decide
  have line : imap4FmtLine writeStrNoCllf (some clientTag) none (some (lit "%s")) =
      (clientTag.buf ++ [space]) ++ bytes "%s" := by
    simp [imap4FmtLine, given, content, show writeStrNoCllf.has writeStrNoCllf = true by decide]
  have length : ((clientTag.buf ++ [space]) ++ bytes "%s").length = clientTag.len + 3 := by
    simp [Token.len, show (bytes "%s").length = 2 by decide]
  have whole : 0 ∉ (clientTag.buf ++ [space]) ++ bytes "%s" := by
    simp [noNul, show (0 : Byte) ≠ space by decide, show 0 ∉ bytes "%s" by decide]
  have expand : vformat (bytes "%s") [.str text] = some text.content := by
    change vformat [37, 115] [.str text] = _
    simp [vformat]
  have expanded (stale : List Byte) :
      relayExpanded stale (cstr ((clientTag.buf ++ [space]) ++ bytes "%s")) text =
        relayText stale (clientTag.buf ++ space :: text.content) := by
    rw [relayExpanded, cstr_content whole, fmtArgs_plain_append plain, vformat_plain_append plain,
      expand, if_neg (by decide), Option.map_some]
    simp
  rw [Talk.run_client, imap4WriteStr, imap4Write, imap4WriteFmt]
  simp only [Option.isNone_some, Bool.false_and, Bool.false_eq_true, if_false, line, length]
  by_cases room : clientTag.len + 3 < maxLineLength
  · simp only [if_pos room]
    rw [same, Talk.run_strWrite, expanded]
  · simp only [if_neg room]
    rfl

/-- Messages of `imap4_write_str` take nothing from the client. -/
theorem writeServerResp_talk {config : Config} {st : LoopState} {clientTag : Token}
    {capture : Capture} {buf : List Byte} (imap4 : config.protocol = .imap4)
    (tagged : st.clientTag = some clientTag) (verified : imap4InVerifyTagStr clientTag)
    (dropped : dropTag capture.buf = some buf) {w : World} {t : Talk}
    (talks : w.Talks w.trace.length t) (written : t.clientWrites.headD true = true) (fuel : Nat)
    (content : List Byte) :
    (∃ st' w' t', (do
        writeServerResp config st (← Session.exchange (Capture.dropTag (some capture)))).run fuel
          w = .done st' w' ∧
      w'.Talks w.trace.length t' ∧ t'.log.told = [(content, true)]) ↔
      relayText t.stale (clientTag.buf ++ space :: (cstr (buf.set capture.n 0)).content) =
          .message content ∧ clientTag.len + 3 < maxLineLength := by
  let now : Capture := { capture with buf := buf }
  let text := cstr (buf.set capture.n 0)
  let dialogue := imap4WriteStr writeStrNoCllf (some clientTag) none (some text)
  have exchanged : Program.run World.step fuel (Session.exchange (Capture.dropTag (some capture))) w =
      .done (some now) w := by
    rw [Session.run_exchange, Capture.dropTag, dropped]
    rfl
  have run : (do writeServerResp config st (← Session.exchange (Capture.dropTag (some capture))) :
      Session LoopState).run fuel w =
      (Program.run exchangeStep fuel (dialogue.with .client) w).next fun status w =>
        (if status < 0 then Session.exit (-1)
          else return { st with serverRespBuf := buf.set capture.n 0 } : Session LoopState).run
            fuel w := by
    rw [Session.run, run_bind, exchanged, Outcome.next_done, writeServerResp, imap4, tagged,
      run_bind]
    exact congrArg (Outcome.next · _) (run_sessionClient dialogue fuel w)
  have writes : (dialogue.with .client).Obeys (sending fun _ => True) fun _ => True :=
    with_client (imap4WriteStr_writing writeStrNoCllf (some clientTag) none (some text))
  have related := run_talk writes w.trace.length fuel talks
  have silent : t.log.told = [] := by rw [talks.log_start]; rfl
  rw [imap4WriteStr_response text verified] at related
  rw [run]
  generalize Program.run exchangeStep fuel (dialogue.with .client) w = outcome at related ⊢
  by_cases room : clientTag.len + 3 < maxLineLength
  · rw [if_pos room] at related
    simp only [room, and_true]
    cases relay_ : relayText t.stale (clientTag.buf ++ space :: text.content) with
    | fault why =>
      rw [relay_] at related
      cases related with
      | escape gone => exact gone.elim
      | halted _ => simp
    | refused => exact absurd relay_ (by unfold relayText; split <;> simp)
    | message sent =>
      rw [relay_] at related
      cases related with
      | escape gone => exact gone.elim
      | done seen =>
        have log : (t.tell sent).2.log.told = [(sent, true)] := by
          simp only [Talk.tell, Log.tell, silent, written, List.nil_append]
        have ok : (t.tell sent).1 = true := written
        rw [ok, if_pos rfl]
        constructor
        · rintro ⟨st', w', t', ran, seen', told⟩
          have same : _ = w' := (Outcome.done.inj ran).2
          subst same
          rw [← seen.unique seen', log] at told
          simpa using told
        · intro same
          rw [Relay.message.injEq] at same
          exact ⟨_, _, _, rfl, seen, by rw [log, same]⟩
  · rw [if_neg room] at related
    cases related with
    | escape gone => exact gone.elim
    | halted _ => simp [room]

/-- The first word of a line is its tag. -/
theorem lineTag_buf (line : List Byte) : (lineTag line).buf ∈ (replyWords line).head? := by
  have tokens := congrArg (List.map Token.buf) (lineTokens_reply line)
  rw [lineTokens_buf] at tokens
  rw [tokens]
  simp

/-- A line with a tag of the program has no NUL in its first word. -/
theorem OurTag.tagged_noNul {tag : Token} {line : List Byte} (ours : OurTag tag)
    (same : tokenCmp tag (lineTag line) = true) : 0 ∉ line.takeWhile (· ≠ space) := by
  intro member
  have letters := ours.same_alnum same
  have whole := wordsFrom_head (by rw [ours.same_length same]; decide)
    (fun quote => absurd (letters _ quote) (by decide)) line [] (lineTag_buf line)
  refine absurd (letters 0 ?_) (by decide)
  rw [whole]
  simp only [List.nil_append, List.mem_filter]
  exact ⟨member, by decide⟩

/-- It has a second word. -/
theorem OurTag.tagged_space {tag : Token} {line : List Byte} (ours : OurTag tag)
    (same : tokenCmp tag (lineTag line) = true) : space ∈ line := by
  by_contra noSpace
  have single : replyWords line = [(lineTag line).buf] :=
    wordsFrom_single (by rw [ours.same_length same]; decide) noSpace [] false (lineTag_buf line)
  have ended : (lineTag line).flag = tokenEol := by
    rw [lineTag, single]
    rfl
  simp [tokenCmp, ended, ours.flag, show tokenNone ≠ tokenEol by decide,
    show tokenNone ≠ 3 by decide, show tokenEol ≠ 3 by decide] at same

/-- It is not untagged. -/
theorem OurTag.tagged {tag : Token} {line : List Byte} (ours : OurTag tag)
    (same : tokenCmp tag (lineTag line) = true) : ¬ UntaggedLine line := by
  intro untagged
  have star : (lineTag line).buf = imap4Untagged := by
    have first := lineTag_buf line
    rw [UntaggedLine] at untagged
    rw [untagged] at first
    exact (Option.some.inj first).symm
  exact absurd (ours.same_alnum same 42 (by rw [star]; decide)) (by decide)

/-- The text of a response that was held is delivered exactly where it has no NUL and fits the write
buffer. -/
theorem delivered_iff {clientTag : Token} {c : Capture} {last : List Byte} (held : c.Holds last)
    (spaced : space ∈ last) (clean : 0 ∉ last.takeWhile (· ≠ space))
    (verified : imap4InVerifyTagStr clientTag) :
    Delivered clientTag (lastText last) (some c) ↔
      0 ∉ lastText last ∧ clientTag.len + 1 + (lastText last).length ≤ maxText := by
  obtain ⟨buf, dropped, text⟩ := held.dropTag spaced clean
  have noNulTag : 0 ∉ clientTag.buf := by
    intro member
    simp only [imap4InVerifyTagStr, Bool.and_eq_true, List.all_eq_true] at verified
    simpa [show imap4TagRefuses 0 = true by decide] using verified.2 0 member
  have whole (noNul : 0 ∉ lastText last) : 0 ∉ clientTag.buf ++ space :: lastText last := by
    simp [noNulTag, noNul, show (0 : Byte) ≠ space by decide]
  have size : (clientTag.buf ++ space :: lastText last).length =
      clientTag.len + 1 + (lastText last).length := by
    simp only [List.length_append, List.length_cons, Token.len]
    omega
  constructor
  · intro delivered
    let config := Config.sample .imap4
    have sent := (writeServerResp_talk rfl rfl verified dropped (World.connected_talks []) rfl 0
      (clientTag.buf ++ space :: lastText last)).mp
        (delivered config { LoopState.start config with clientTag := some clientTag } 0 _ _ rfl rfl
          (World.connected_talks []) rfl)
    rw [text] at sent
    by_cases noNul : 0 ∈ lastText last
    · -- the string ends at the NUL
      have shorter := relayText_length sent.1
      obtain ⟨front, back, shape, _⟩ := List.eq_append_cons_of_mem noNul
      have cut := cstr_length_le front
      rw [← cstr_nul front back, ← shape] at cut
      have counted := congrArg List.length shape
      simp only [List.length_append, List.length_cons, CString.length] at shorter counted cut
      omega
    · rw [cstr_content noNul] at sent
      exact ⟨noNul, size ▸ (relayText_exact (whole noNul)).mp sent.1⟩
  · rintro ⟨noNul, fits⟩ config st fuel w t imap4 tagged talks written
    refine (writeServerResp_talk imap4 tagged verified dropped talks written fuel _).mpr ?_
    rw [text, cstr_content noNul]
    refine ⟨(relayText_exact (whole noNul)).mpr (size ▸ fits), ?_⟩
    have limit : maxText + 3 = maxLineLength := by decide
    have some_ : 0 < (lastText last).length := by simp [lastText]
    omega

/-! ## Agreement

Where no client receives the untagged lines, a line that is cut may leave bytes that are an untagged line
again, and nothing is lost. The buffer is only used where there is a client. -/

/-- Without a buffer and with this one, `imap4_out_response` reads through this tagged line, returns the
same status and relays the same messages. The buffer holds the line, and where that answers a command
`main` sends the client its own tag and the text of the line. -/
def CaptureAgrees (relaying : Bool) (tag desired clientTag : Token) (c : Capture) (fuel : Nat)
    (w : World) (last more : List Byte) : Prop :=
  ∃ status q told,
    ((imap4OutResponse relaying (some tag) desired none).Returns fuel w fun r t =>
      r.status = status ∧ r.q = q ∧ t.stream = more ∧ t.log.told = told) ∧
    (imap4OutResponse relaying (some tag) desired (some c)).Returns fuel w fun r t =>
      r.status = status ∧ r.q = q ∧ t.stream = more ∧ t.log.told = told ∧
        ∃ c', r.capture = some c' ∧ c'.buf.take c'.n = last ++ [lf] ∧
          (OurTag tag → Delivered clientTag (lastText last) (some c'))

/-- What agreement takes. -/
structure CaptureFits (relaying : Bool) (tag clientTag : Token) (t : Talk)
    (lines : List (List Byte)) (last : List Byte) : Prop where
  /-- No line is longer than the line before it. -/
  chain : (lines ++ [last]).IsChain fun before after => after.length ≤ before.length
  /-- The untagged lines are relayed. -/
  relayed : relaying → AllRelayed t.stale lines t.clientWrites
  /-- The text has no NUL. -/
  noNul : OurTag tag → 0 ∉ lastText last
  /-- It fits the write buffer after the tag. -/
  short : OurTag tag → clientTag.len + 1 + (lastText last).length ≤ maxText

section Agreement

variable {relaying : Bool} {tag desired clientTag : Token} {c : Capture} {fuel : Nat} {w : World}
  {t : Talk} {lines : List (List Byte)} {last more : List Byte}

/-- A line that is shorter than the buffer fits it. -/
theorem fitAll_small (lines : List (List Byte)) (last : List Byte)
    (small : ∀ line ∈ lines ++ [last], line.length + 1 < c.n) :
    FitAll (some c) (lines ++ [last]) ↔
      (lines ++ [last]).IsChain fun before after => after.length ≤ before.length := by
  cases list : lines ++ [last] with
  | nil => simp at list
  | cons line others =>
    have room := small line (by rw [list]; simp)
    rw [fitAll_chain others line (by omega), and_iff_right (by omega)]

/-- The last line is answered alike with a buffer and without. -/
theorem lastAnswer_eq (capture : Option Capture) :
    Talk.lastAnswer tag desired last capture =
      { Talk.lastAnswer tag desired last none with capture := Capture.keep capture last } := by
  unfold Talk.lastAnswer imap4OutCheck
  split
  · split
    · rfl
    · split <;> rfl
  · rfl

/-- Where lines fit, the two modes agree. -/
theorem captureAgrees_of_fits (talks : w.Talks w.trace.length t)
    (stream : t.stream = wire lines ++ (last ++ lf :: more)) (untagged : UntaggedLines lines)
    (whole : lf ∉ last) (tagged : ¬ UntaggedLine last)
    (awaited : tokenCmp tag (lineTag last) = true)
    (verified : imap4InVerifyTagStr clientTag)
    (small : ∀ line ∈ lines ++ [last], line.length + 1 < c.n) (enough : t.stream.length < fuel)
    (fits : CaptureFits relaying tag clientTag t lines last) :
    CaptureAgrees relaying tag desired clientTag c fuel w last more := by
  have room := (fitAll_small lines last small).mpr fits.chain
  obtain ⟨c', kept, held⟩ := keepAll_holds lines room fun line member => .inl (small line member)
  have run (capture : Option Capture) (room : FitAll capture (lines ++ [last])) :
      (imap4OutResponse relaying (some tag) desired capture).run Talk.step fuel t =
        .done (Talk.lastAnswer tag desired last (Talk.keepAll capture lines))
          ((t.passed relaying lines).hearLine last) :=
    run_response_relayed stream untagged whole tagged room enough fits.relayed
  have left : ((t.passed relaying lines).hearLine last).stream = more := by
    refine Talk.hearLine_stream ?_
    simp [Talk.passed, stream]
  have sends (capture : Option Capture) :
      (imap4OutResponse relaying (some tag) desired capture).Obeys (sending fun _ => True)
        fun _ => True := imap4OutResponse_sending _ _ _ _
  let answer := Talk.lastAnswer tag desired last none
  refine ⟨answer.status, answer.q, ((t.passed relaying lines).hearLine last).log.told, ?_, ?_⟩
  · refine (Exchange.returns_iff (sends none) talks).mpr ⟨_, _, run none (fitAll_none _), ?_, ?_,
      left, rfl⟩
    · rw [lastAnswer_eq]
    · rw [lastAnswer_eq]
  · refine (Exchange.returns_iff (sends (some c)) talks).mpr ⟨_, _, run (some c) room, ?_, ?_, left,
      rfl, c', ?_, ?_, ?_⟩
    · rw [lastAnswer_eq]
    · rw [lastAnswer_eq]
    · rw [lastAnswer_eq, ← kept, Talk.keepAll, Talk.keepAll, List.foldl_append]
      rfl
    · obtain ⟨rest, content⟩ := held.content
      have shape : last ++ lf :: 0 :: rest = (last ++ [lf]) ++ 0 :: rest := by simp
      rw [content, held.size, shape, List.take_left' (by simp)]
    · exact fun ours => (delivered_iff held (ours.tagged_space awaited) (ours.tagged_noNul awaited)
        verified).mpr ⟨fits.noNul ours, fits.short ours⟩

/-- Where untagged lines are relayed to a client, the two modes agree only there. -/
theorem captureFits_of_agrees (talks : w.Talks w.trace.length t)
    (stream : t.stream = wire lines ++ (last ++ lf :: more)) (untagged : UntaggedLines lines)
    (whole : lf ∉ last) (tagged : ¬ UntaggedLine last)
    (awaited : tokenCmp tag (lineTag last) = true)
    (verified : imap4InVerifyTagStr clientTag)
    (small : ∀ line ∈ lines ++ [last], line.length + 1 < c.n) (enough : t.stream.length < fuel)
    (agrees : CaptureAgrees true tag desired clientTag c fuel w last more) :
    CaptureFits true tag clientTag t lines last := by
  obtain ⟨status, q, told, plain, captured⟩ := agrees
  have silent : t.log.told = [] := by rw [talks.log_start]; rfl
  have sends (capture : Option Capture) :
      (imap4OutResponse true (some tag) desired capture).Obeys (sending fun _ => True)
        fun _ => True := imap4OutResponse_sending _ _ _ _
  obtain ⟨r₁, t₁, run₁, -, -, left₁, told₁⟩ := (Exchange.returns_iff (sends none) talks).mp plain
  obtain ⟨r₂, t₂, run₂, -, -, left₂, told₂, c', buffer, -, delivered⟩ :=
    (Exchange.returns_iff (sends (some c)) talks).mp captured
  have relayed : AllRelayed t.stale lines t.clientWrites := by
    by_contra stopped
    have shorter := run_response_stopped stream untagged whole tagged (fitAll_none _) enough
      (fun all => stopped (all rfl)) run₁
    rw [left₁] at shorter
    exact Nat.lt_irrefl _ shorter
  have count : told.length = lines.length := by
    rw [run_response_relayed stream untagged whole tagged (fitAll_none _) enough
      fun _ => relayed] at run₁
    rw [← told₁, ← (Outcome.done.inj run₁).2]
    simp [Talk.passed, Talk.hearLine, Log.hear, silent]
  have room : FitAll (some c) (lines ++ [last]) := by
    by_contra cut
    have more_ := run_response_cut stream untagged whole silent relayed cut enough run₂ left₂
    rw [told₂, count] at more_
    exact Nat.lt_irrefl _ more_
  obtain ⟨kept, same, held⟩ := keepAll_holds lines room fun line member => .inl (small line member)
  rw [run_response_relayed stream untagged whole tagged room enough fun _ => relayed] at run₂
  have last_ : some kept = some c' := by
    rw [← buffer, ← (Outcome.done.inj run₂).1, lastAnswer_eq, ← same, Talk.keepAll, Talk.keepAll,
      List.foldl_append]
    rfl
  rw [← Option.some.inj last_] at delivered
  have text (ours : OurTag tag) :=
    (delivered_iff held (ours.tagged_space awaited) (ours.tagged_noNul awaited) verified).mp
      (delivered ours)
  exact ⟨(fitAll_small lines last small).mp room, fun _ => relayed, fun ours => (text ours).1,
    fun ours => (text ours).2⟩

/-- A response with a buffer agrees with one without where no line is longer than the one before it, and
the text can be sent on. Where untagged lines are relayed to a client, it agrees only there. -/
theorem captureAgrees_iff (talks : w.Talks w.trace.length t)
    (stream : t.stream = wire lines ++ (last ++ lf :: more)) (untagged : UntaggedLines lines)
    (whole : lf ∉ last) (tagged : ¬ UntaggedLine last)
    (awaited : tokenCmp tag (lineTag last) = true)
    (verified : imap4InVerifyTagStr clientTag)
    (small : ∀ line ∈ lines ++ [last], line.length + 1 < c.n) (enough : t.stream.length < fuel) :
    (CaptureFits relaying tag clientTag t lines last →
        CaptureAgrees relaying tag desired clientTag c fuel w last more) ∧
      (relaying → (CaptureAgrees relaying tag desired clientTag c fuel w last more ↔
        CaptureFits relaying tag clientTag t lines last)) := by
  have fits : CaptureFits relaying tag clientTag t lines last →
      CaptureAgrees relaying tag desired clientTag c fuel w last more :=
    captureAgrees_of_fits talks stream untagged whole tagged awaited verified small enough
  refine ⟨fits, ?_⟩
  rintro rfl
  exact ⟨captureFits_of_agrees talks stream untagged whole tagged awaited verified small enough, fits⟩

end Agreement

/-- With the answer `flim07 OK` after a longer line, the client receives `a1 OK`. -/
theorem captureAgrees_shorter :
    CaptureAgrees true imap4TagCreate imap4OkToken ⟨bytes "a1", tokenNone⟩ ⟨List.replicate 64 0, 64⟩
      64 (World.connected [bytes "* 1 EXISTS\r\nflim07 OK\r\n"]) (bytes "flim07 OK\r") [] := by
  have fits : CaptureFits true imap4TagCreate ⟨bytes "a1", tokenNone⟩
      (Talk.reading [bytes "* 1 EXISTS\r\nflim07 OK\r\n"]) [bytes "* 1 EXISTS\r"]
      (bytes "flim07 OK\r") :=
    ⟨by decide, fun _ => ⟨by decide, rfl, trivial⟩, fun _ => by decide, fun _ => by decide⟩
  exact (captureAgrees_iff (World.connected_talks _) (by decide) (by decide) (by decide) (by decide)
    (by decide) (by decide) (by decide) (by decide)).1 fits

/-- Before a longer answer, the untagged line leaves too small a buffer, and the answer is cut. -/
theorem captureAgrees_longer :
    ¬ CaptureAgrees true imap4TagCreate imap4OkToken ⟨bytes "a1", tokenNone⟩
      ⟨List.replicate 64 0, 64⟩ 64
      (World.connected [bytes "* 1 EXISTS\r\nflim07 OK LOGIN done\r\n"])
      (bytes "flim07 OK LOGIN done\r") [] := by
  intro agrees
  have fits : CaptureFits true imap4TagCreate ⟨bytes "a1", tokenNone⟩
      (Talk.reading [bytes "* 1 EXISTS\r\nflim07 OK LOGIN done\r\n"]) [bytes "* 1 EXISTS\r"]
      (bytes "flim07 OK LOGIN done\r") :=
    captureFits_of_agrees (World.connected_talks _) (by decide) (by decide) (by decide) (by decide)
      (by decide) (by decide) (by decide) (by decide) agrees
  exact absurd fits.chain (by decide)

end Perdition
