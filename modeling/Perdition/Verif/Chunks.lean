import Perdition.ReadBuffer
import Perdition.Lib.Relation
import Perdition.Verif.Contracts
import Perdition.Verif.Streams

/-!
# Streams in chunks

However a stream is cut, the buffer of the tokeniser delivers its bytes one after another. Two
readers with the same bytes left therefore go through every program together, and every sequence of
calls that read returns the same from both.
-/
namespace Perdition

open Lib Program

/-! ## The next byte -/

namespace Reader

/-- Filling the buffer loses nothing. -/
theorem fill_unread (reader : Reader) : reader.fill.2.unread = reader.unread := by
  unfold fill
  split
  · rfl
  · rename_i empty_
    have left : reader.statics.left = [] := by
      rw [TokenBuffer.left, List.drop_eq_nil_iff, List.length_take]
      omega
    have whole : reader.unread = chunkBytes reader.chunks := by
      rw [unread, left, List.nil_append]
    rw [whole]
    cases chunks : reader.chunks with
    | nil => simp [refill, chunks, unread, TokenBuffer.left]
    | cons chunk rest =>
      simp [refill, chunks, unread, TokenBuffer.left, chunkBytes]

/-- Where the buffer stays empty nothing is left. -/
theorem fill_empty {reader : Reader} (none_ : ¬ 0 < reader.fill.1) : reader.fill.2.unread = [] := by
  unfold fill at none_ ⊢
  split
  · rename_i more
    rw [if_pos more] at none_
    omega
  · rename_i empty_
    rw [if_neg empty_] at none_
    cases chunks : reader.chunks with
    | nil => simp [refill, chunks, unread, TokenBuffer.left, chunkBytes]
    | cons chunk rest =>
      have long := List.length_pos_iff.mpr chunk.filled
      simp only [refill, chunks] at none_
      omega

/-- The byte that is taken is the first of those that were left. -/
theorem take_unread {reader : Reader} (more : reader.statics.offset < reader.statics.count) :
    reader.unread = (reader.take more).1 :: (reader.take more).2.unread := by
  have limit : maxChunk ≤ maxLineLength := by decide
  have filled := reader.statics.filled
  have size := reader.statics.size
  have first : reader.statics.left = (reader.take more).1 :: (reader.take more).2.statics.left := by
    rw [TokenBuffer.left, List.drop_eq_getElem_cons (by rw [List.length_take]; omega),
      List.getElem_take]
    rfl
  rw [unread, first]
  rfl

/-- The next byte is the first of those that are left, if there is one. -/
theorem nextByte_unread (reader : Reader) :
    reader.nextByte.1 = reader.unread.head? ∧ reader.nextByte.2.unread = reader.unread.tail := by
  unfold nextByte
  split
  · rename_i more
    rw [← fill_unread reader, take_unread (fill_positive more)]
    exact ⟨rfl, rfl⟩
  · rename_i none_
    have left := fill_empty none_
    rw [← fill_unread reader, left]
    exact ⟨rfl, rfl⟩

/-- A reader delivers the bytes that are left. -/
theorem streamed : Streamed Reader.step (fun rest reader => reader.unread = rest)
    fun reader => reader.unread = [] where
  cons b rest reader here := by
    have ⟨first, later⟩ := nextByte_unread reader
    rw [here] at first later
    refine ⟨reader.nextByte.2, ?_, later⟩
    change Outcome.done reader.nextByte.1 reader.nextByte.2 = _
    rw [first]
    rfl
  nil reader here := by
    have ⟨first, later⟩ := nextByte_unread reader
    rw [here] at first later
    refine ⟨reader.nextByte.2, ?_, later⟩
    change Outcome.done reader.nextByte.1 reader.nextByte.2 = _
    rw [first]
    rfl

end Reader

/-! ## Two readers -/

/-- Readers with the same bytes left go through a program together. -/
theorem readers_alike {α : Type} (program : Dialogue α) :
    Relates Reader.step Reader.step (fun left right => left.unread = right.unread) program
      (fun _ left right => left.unread = right.unread)
      (fun left right => left.unread = right.unread) fun _ => False := by
  have ops := @relates_of_ops _ _ _ _ _ Reader.step Reader.step
    (fun left right => left.unread = right.unread) (fun _ => False) (fun _ _ gone => gone)
    Contract.any (fun left right => left.unread = right.unread) program _ (obeys_any program)
    (fun op _ left right same => by
      cases op with
      | nextByte =>
        have ⟨first, later⟩ := left.nextByte_unread
        have ⟨first', later'⟩ := right.nextByte_unread
        have value : left.nextByte.1 = right.nextByte.1 := by rw [first, first', same]
        change Outcome.Related _ _ _ (Outcome.done left.nextByte.1 left.nextByte.2)
          (Outcome.done right.nextByte.1 right.nextByte.2)
        rw [value]
        exact .done ⟨trivial, by rw [later, later', same]⟩
      | write content => exact .done ⟨trivial, same⟩
      | getType => exact .done ⟨trivial, same⟩
      | stale count => exact .done ⟨trivial, same⟩
      | fault why => exact .halted same)
    fun _ _ same => same
  exact relates_mono ops (fun _ _ same => same) (fun _ _ _ both => both.2) fun _ _ same => same

/-! ## Returning -/

/-- The program returns, given more fuel than there are bytes left, and leaves no more bytes. -/
def Finishes {α : Type} (program : Dialogue α) : Prop :=
  ∀ fuel reader, reader.unread.length < fuel → ∃ a reader',
    program.run Reader.step fuel reader = .done a reader' ∧
      reader'.unread.length ≤ reader.unread.length

theorem finishes_pure {α : Type} (a : α) : Finishes (pure a) :=
  fun _ reader _ => ⟨a, reader, rfl, Nat.le_refl _⟩

theorem finishes_bind {α β : Type} {first : Dialogue α} {rest : α → Dialogue β}
    (begun : Finishes first) (later : ∀ a, Finishes (rest a)) : Finishes (first >>= rest) := by
  intro fuel reader enough
  have ⟨a, reader', run, shorter⟩ := begun fuel reader enough
  have ⟨b, reader'', run', shorter'⟩ := later a fuel reader' (by omega)
  refine ⟨b, reader'', ?_, by omega⟩
  rw [run_bind, run]
  exact run'

/-- `token_read` returns, and a token leaves fewer bytes. -/
theorem tokenRead_finishes (capture : Option Nat) (flag : Flag) (m : Nat) {fuel : Nat}
    {reader : Reader} (enough : reader.unread.length < fuel) :
    ∃ read reader', (tokenRead capture flag m).run Reader.step fuel reader = .done read reader' ∧
      reader'.unread.length ≤ reader.unread.length ∧
      (¬ ReadState.start.full capture → read ≠ none →
        reader'.unread.length < reader.unread.length) := by
  have ⟨reader', run, left⟩ := tokenRead_streamed Reader.streamed capture flag m
    (s := reader) rfl enough
  cases scanned : scanToken capture flag m .start reader.unread with
  | none =>
    rw [scanned] at run left
    refine ⟨_, reader', run, ?_, fun _ some_ => absurd rfl some_⟩
    rw [show reader'.unread = [] from left]
    exact Nat.zero_le _
  | some read =>
    rw [scanned] at run left
    have rest : reader'.unread = read.2 := left
    refine ⟨_, reader', run, ?_, fun room _ => ?_⟩
    · rw [rest]
      exact scanToken_length scanned
    · rw [rest]
      exact scanToken_progress room scanned

/-- There is room in the buffer of `read_line` for another byte, where there is a buffer. -/
def HasRoom (capture : Option Nat) (captured : List Byte) : Prop :=
  ∀ n, capture = some n → captured.length < n

theorem HasRoom.token {capture : Option Nat} {captured : List Byte}
    (room : HasRoom capture captured) :
    ¬ ReadState.start.full (capture.map fun n => n - captured.length) := by
  cases capture with
  | none => exact show ¬ ReadState.start.full none by decide
  | some n =>
    have more := room n rfl
    simp [ReadState.full, ReadState.start, maxLineLength]
    omega

/-- A round of `read_line` returns, and goes on with fewer bytes left and with room. -/
theorem readLineRound_finishes {capture : Option Nat} (flag : Flag) (m : Nat) (q : Queue)
    {captured : List Byte} (room : HasRoom capture captured) {fuel : Nat} {reader : Reader}
    (enough : reader.unread.length < fuel) :
    ∃ result reader',
      (readLineRound capture flag m (q, captured)).run Reader.step fuel reader =
        .done result reader' ∧
      reader'.unread.length ≤ reader.unread.length ∧
      ∀ again, result = .inl again →
        HasRoom capture again.2 ∧ reader'.unread.length < reader.unread.length := by
  obtain ⟨read, reader', run, shorter, progress⟩ := tokenRead_finishes
    (capture.map fun n => n - captured.length) flag m enough
  rw [readLineRound, run_bind, run]
  cases read with
  | none => exact ⟨.inr none, reader', rfl, shorter, fun again same => absurd same Sum.inr_ne_inl⟩
  | some read =>
    have taken := progress room.token (by simp)
    simp only [Outcome.next, run_ite]
    cases capture with
    | none =>
      dsimp only
      split
      · refine ⟨.inl (q ++ [read.1], captured ++ read.2), reader', rfl, shorter, fun again _ => ?_⟩
        exact ⟨fun n given => absurd given.symm (Option.some_ne_none n), taken⟩
      · exact ⟨.inr (some (q ++ [read.1], captured ++ read.2)), reader', rfl, shorter,
          fun again same => absurd same Sum.inr_ne_inl⟩
    | some size =>
      dsimp only
      split
      · rename_i goes
        simp only [Bool.and_eq_true, Bool.not_eq_true', decide_eq_false_iff_not] at goes
        refine ⟨.inl (q ++ [read.1], captured ++ read.2), reader', rfl, shorter,
          fun again same => ⟨fun n given => ?_, taken⟩⟩
        rw [← Sum.inl.inj same, ← Option.some.inj given]
        dsimp only
        omega
      · exact ⟨.inr (some (q ++ [read.1], captured ++ read.2)), reader', rfl, shorter,
          fun again same => absurd same Sum.inr_ne_inl⟩

/-- `read_line` returns: every token takes a byte. -/
theorem readLine_finishes {capture : Option Nat} (flag : Flag) (m : Nat)
    (room : HasRoom capture []) : Finishes (readLine capture flag m) := by
  intro fuel reader enough
  have loop : ∀ (rounds : Nat) (read : Queue × List Byte) (reader : Reader),
      HasRoom capture read.2 → reader.unread.length < rounds → reader.unread.length < fuel →
      ∃ result reader', iterate (fun at_ s => (readLineRound capture flag m at_).run Reader.step
          fuel s) rounds read reader = .done result reader' ∧
        reader'.unread.length ≤ reader.unread.length := by
    intro rounds
    induction rounds with
    | zero => exact fun _ _ _ turns _ => absurd turns (Nat.not_lt_zero _)
    | succ rounds ih =>
      intro read reader room turns enough
      obtain ⟨result, reader', run, shorter, goes⟩ :=
        readLineRound_finishes flag m read.1 room enough
      rw [iterate, run]
      cases result with
      | inr value => exact ⟨value, reader', rfl, shorter⟩
      | inl again =>
        obtain ⟨room', taken⟩ := goes again rfl
        obtain ⟨result, reader'', run', shorter'⟩ :=
          ih again reader' room' (by omega) (by omega)
        exact ⟨result, reader'', run', by omega⟩
  exact loop fuel ([], []) reader room enough enough

theorem readLineInto_finishes (capture : Option Capture) (flag : Flag) (m : Nat) :
    Finishes (readLineInto capture flag m) := by
  cases capture with
  | none =>
    refine finishes_bind (readLine_finishes flag m fun n same => nomatch same) fun read => ?_
    cases read <;> exact finishes_pure _
  | some c =>
    have room : HasRoom (if c.n = 0 then none else some c.n) [] := by
      intro n same
      split at same
      · cases same
      · rw [← Option.some.inj same]
        exact Nat.pos_of_ne_zero ‹_›
    refine finishes_bind (readLine_finishes flag m room) fun read => ?_
    cases read with
    | none => exact finishes_pure _
    | some read =>
      dsimp only
      split <;> exact finishes_pure _

/-- Every call returns. -/
theorem ReadCall.make_finishes (call : ReadCall) : Finishes call.make := by
  cases call with
  | token literal flag m =>
    refine finishes_bind (fun fuel reader enough => ?_) fun read => finishes_pure _
    have ⟨read, reader', run, shorter, _⟩ :=
      tokenRead_finishes (literal.filter fun n => 0 < n) flag m enough
    exact ⟨read, reader', run, shorter⟩
  | line capture flag m =>
    exact finishes_bind (readLineInto_finishes capture flag m) fun read => finishes_pure _

theorem makeCalls_finishes (calls : List ReadCall) : Finishes (makeCalls calls) := by
  induction calls with
  | nil => exact finishes_pure _
  | cons call rest ih =>
    exact finishes_bind call.make_finishes fun result =>
      finishes_bind ih fun results => finishes_pure _

/-! ## Sequences of calls -/

/-- A stream that is cut in two ways is read alike: every call returns the same from both, with what
is placed in its buffer, and leaves the same bytes, so a call that fails has taken the same. -/
theorem makeCalls_chunks (calls : List ReadCall) (statics : TokenBuffer)
    (left right : List Chunk) (same : chunkBytes left = chunkBytes right) (fuel : Nat)
    (enough : (Reader.mk left statics).unread.length < fuel) :
    ∃ results left' right',
      (makeCalls calls).run Reader.step fuel ⟨left, statics⟩ = .done results left' ∧
      (makeCalls calls).run Reader.step fuel ⟨right, statics⟩ = .done results right' ∧
      left'.unread = right'.unread := by
  have alike : (Reader.mk left statics).unread = (Reader.mk right statics).unread := by
    rw [Reader.unread, Reader.unread, same]
  have ⟨results, left', run, _⟩ := makeCalls_finishes calls fuel ⟨left, statics⟩ enough
  have related := readers_alike (makeCalls calls) fuel _ _ alike
  rw [run] at related
  generalize second : (makeCalls calls).run Reader.step fuel ⟨right, statics⟩ = outcome at related
  cases related with
  | escape gone => cases gone
  | @done _ _ right' holds => exact ⟨results, left', right', run, rfl, holds⟩

/-- A line cut before its end and a literal cut in its middle. -/
theorem makeCalls_cut : ∃ results left right,
    (makeCalls [.line (some ⟨[], 8⟩) tokenImap4 0, .token none tokenImap4Literal 2]).run
      Reader.step 16 ⟨[⟨bytes "a b\r", by decide, by decide⟩, ⟨bytes "\nc", by decide, by decide⟩,
        ⟨bytes "d", by decide, by decide⟩], .zero⟩ = .done results left ∧
    (makeCalls [.line (some ⟨[], 8⟩) tokenImap4 0, .token none tokenImap4Literal 2]).run
      Reader.step 16 ⟨[⟨bytes "a b\r\ncd", by decide, by decide⟩], .zero⟩ = .done results right ∧
    left.unread = right.unread :=
  makeCalls_chunks _ .zero _ _ (by decide) 16 (by decide +kernel)

/-! ## Readers and channels -/

/-- Bytes are taken, and nothing else is done. -/
def taking : Contract IoSig where
  allowed op := op = .nextByte
  returns _ _ := True

theorem readLineInto_taking (capture : Option Capture) (flag : Flag) (m : Nat) :
    (readLineInto capture flag m).Obeys taking fun _ => True := by
  unfold readLineInto
  split
  · refine obeys_then (readLine_obeys rfl _ _ _) fun read => ?_
    split <;> trivial
  · refine obeys_then (readLine_obeys rfl _ _ _) fun read => ?_
    split
    · trivial
    · exact obeys_ite (fun _ => trivial) fun _ => trivial

theorem makeCalls_taking (calls : List ReadCall) :
    (makeCalls calls).Obeys taking fun _ => True := by
  induction calls with
  | nil => trivial
  | cons call rest ih =>
    have first : call.make.Obeys taking fun _ => True := by
      cases call with
      | token literal flag m =>
        exact obeys_then (tokenRead_obeys rfl _ flag m) fun _ => trivial
      | line capture flag m =>
        exact obeys_then (readLineInto_taking capture flag m) fun _ => trivial
    exact obeys_then first fun _ => obeys_then ih fun _ => trivial

/-- The reader has the bytes left that the channel delivers, and no read of the channel fails before
its end. -/
structure Delivers (reader : Reader) (ch : Channel) : Prop where
  /-- The bytes that are left. -/
  left : reader.unread = ch.stream
  /-- No read returns no bytes before the last. -/
  gapless : ∀ chunk ∈ ch.conn.reads, chunk ≠ []

/-- Where a channel ends, it has nothing left to read. -/
theorem Channel.gapless_next {ch : Channel} (gapless : ∀ chunk ∈ ch.conn.reads, chunk ≠ []) :
    ch.nextByte.1 = ch.stream.head? ∧ ch.nextByte.2.stream = ch.stream.tail ∧
      ∀ chunk ∈ ch.nextByte.2.conn.reads, chunk ≠ [] := by
  obtain ⟨⟨id, type, reads, writes, handshakes⟩, unread, source, stale⟩ := ch
  cases unread with
  | cons b unread => exact ⟨rfl, rfl, gapless⟩
  | nil =>
    cases reads with
    | nil => exact ⟨rfl, rfl, gapless⟩
    | cons chunk reads =>
      cases chunk with
      | nil => exact absurd rfl (gapless [] List.mem_cons_self)
      | cons b chunk =>
        have delivers := @Channel.nextByte_cons
          ⟨⟨id, type, (b :: chunk) :: reads, writes, handshakes⟩, [], source, stale⟩ b
          (chunk ++ (reads.takeWhile (!·.isEmpty)).flatten) rfl
        refine ⟨delivers.1, delivers.2.stream, ?_⟩
        have later := fun c member => gapless c (List.mem_cons_of_mem _ member)
        by_cases small : (b :: chunk).length ≤ maxChunk
        · simpa only [Channel.nextByte, Connection.read, if_pos small] using later
        · have cut : (b :: chunk).take maxChunk = b :: chunk.take (maxChunk - 1) := rfl
          have some_ : (b :: chunk).drop maxChunk ≠ [] := by
            simp only [ne_eq, List.drop_eq_nil_iff]
            omega
          simp only [Channel.nextByte, Connection.read, if_neg small, cut]
          intro c member
          rcases List.mem_cons.mp member with same | other
          · rw [same]
            exact some_
          · exact later c other

/-- A channel is read like the buffer of the tokeniser: every call returns the same. -/
theorem makeCalls_channel (calls : List ReadCall) {reader : Reader} {ch : Channel}
    (delivers : Delivers reader ch) {fuel : Nat} (enough : reader.unread.length < fuel) :
    ∃ results reader' ch', (makeCalls calls).run Reader.step fuel reader = .done results reader' ∧
      (makeCalls calls).run Channel.step fuel ch = .done results ch' ∧ Delivers reader' ch' := by
  have ⟨results, reader', run, _⟩ := makeCalls_finishes calls fuel reader enough
  have ops := @relates_of_ops _ _ _ _ _ Reader.step Channel.step Delivers (fun _ => False)
    (fun _ _ gone => gone) taking Delivers _ _ (makeCalls_taking calls)
    (fun op given reader ch delivers => by
      rw [show op = .nextByte from given]
      have ⟨first, later⟩ := reader.nextByte_unread
      have ⟨first', later', gapless⟩ := Channel.gapless_next delivers.gapless
      have value : reader.nextByte.1 = ch.nextByte.1 := by rw [first, first', delivers.left]
      change Outcome.Related _ _ _ (Outcome.done reader.nextByte.1 reader.nextByte.2)
        (Outcome.done ch.nextByte.1 ch.nextByte.2)
      rw [value]
      exact .done ⟨trivial, ⟨by rw [later, later', delivers.left], gapless⟩⟩)
    fun _ _ same => same
  have related := ops fuel reader ch delivers
  rw [run] at related
  generalize second : (makeCalls calls).run Channel.step fuel ch = outcome at related
  cases related with
  | escape gone => cases gone
  | @done _ _ ch' holds => exact ⟨results, reader', ch', run, rfl, holds.2⟩

end Perdition
