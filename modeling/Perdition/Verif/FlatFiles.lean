import Mathlib.Data.List.Forall2
import Perdition.Makebdb
import Perdition.Verif.Rightmost

/-!
# Which lines makebdb takes as they are

Where a line fits in the buffer with its newline, the loop over the buffer is left at that newline, and
what it finds is the line's own. Where `fgets` leaves no newline in the buffer, the loop goes on behind
the line.
-/
namespace Perdition.Makebdb

/-! ## Lines -/

/-- Lines shorter than the buffer. -/
structure Lines where
  /-- The lines that end with a newline, without it. -/
  ended : List (List Byte)
  /-- What stands behind the last newline. -/
  last : List Byte
  /-- They are lines. -/
  endedShort : ∀ line ∈ ended, lf ∉ line ∧ line.length < maxLineLength
  /-- It is part of a line. -/
  lastShort : lf ∉ last ∧ last.length < maxLineLength

/-- The input that has the lines. -/
def Lines.text (input : Lines) : List Byte := input.ended.flatMap (· ++ [lf]) ++ input.last

/-- The lines. The last may have no newline. -/
def Lines.all (input : Lines) : List (List Byte) :=
  input.ended ++ if input.last = [] then [] else [input.last]

/-- There is nothing in the line but spaces and tabs. -/
def isBlank (line : List Byte) : Bool := line.all fun b => b == space || b == tab

/-- What is to be done for a line: the record is what stands before and behind the first delimiter. -/
def lineActs (db : Db) (before : List Act) (number : Nat) (line : List Byte) : List Act :=
  if isBlank line then []
  else match line.idxOf? fieldDelimiter with
    | none => [.print (invalidInput number)]
    | some place =>
      let key := line.take place
      let content := line.drop (place + 1)
      let ret := db.put before key content
      .put key content ret :: if ret = 0 then [] else [.print (putError (db.strerror ret) (cstr key))]

/-- What is to be done for lines, one after another. -/
def linesActs (db : Db) (before : List Act) (number : Nat) : List (List Byte) → List Act
  | [] => before
  | line :: rest => linesActs db (before ++ lineActs db before number line) (number + 1) rest

/-! ## The loop over a line -/

/-- A byte that is not a newline keeps a line blank where it is one of a blank line. -/
theorem scan_blank (s : Scan) {b : Byte} (plain : b ≠ lf) :
    (if s.blank && fills b then { s with blank := false } else s) =
      { s with blank := s.blank && (b == space || b == tab) } := by
  have same : fills b = !(b == space || b == tab) := by
    rw [fills, Bool.not_or, bne, bne, bne_iff_ne.mpr plain, Bool.and_true]
  rw [same]
  cases blank : s.blank with
  | false => rw [Bool.false_and, if_neg Bool.false_ne_true, Bool.false_and, ← blank]
  | true =>
    cases b == space || b == tab with
    | false => rfl
    | true => rw [if_neg (by decide), Bool.true_and, ← blank]

/-- The loop passes what has no newline, and no delimiter where it has none yet. -/
theorem scanLine_plain {text : List Byte} (line : lf ∉ text) (rest : List Byte) (s : Scan)
    (key : fieldDelimiter ∉ text ∨ s.keySize ≠ maxLineLength) :
    scanLine (text ++ rest) s =
      scanLine rest { s with i := s.i + text.length, blank := s.blank && isBlank text } := by
  induction text generalizing s with
  | nil => rw [isBlank, List.all_nil, Bool.and_true]; rfl
  | cons b text ih =>
    have ⟨plain, line⟩ := List.ne_and_not_mem_of_not_mem_cons line
    have other : ¬ (s.keySize = maxLineLength ∧ b = fieldDelimiter) := by
      rintro ⟨unset, same⟩
      rcases key with absent | set_
      · exact absent (same ▸ List.mem_cons_self)
      · exact set_ unset
    rw [List.cons_append, scanLine, scan_blank s (Ne.symm plain)]
    dsimp only
    rw [if_neg other, if_neg fun both => plain both.2.symm,
      ih line { s with i := s.i + 1, blank := s.blank && (b == space || b == tab) }
        (key.imp_left fun absent member => absent (List.mem_cons_of_mem _ member))]
    have length : s.i + 1 + text.length = s.i + (b :: text).length := by
      rw [List.length_cons]
      omega
    have blank : (s.blank && (b == space || b == tab) && isBlank text) =
        (s.blank && isBlank (b :: text)) := by
      rw [isBlank, isBlank, List.all_cons, Bool.and_assoc]
    dsimp only
    rw [length, blank]

/-- The loop is left at the first newline. -/
theorem scanLine_newline (rest : List Byte) {s : Scan} (unset : s.contentSize = maxLineLength) :
    scanLine (lf :: rest) s =
      { s with contentSize := (s.i + 2 ^ 32 - s.keySize - 1) % 2 ^ 32, lineno := s.lineno + 1 } := by
  have blank : (if s.blank && fills lf then { s with blank := false } else s) = s := by
    rw [show fills lf = false by decide, Bool.and_false]
    rfl
  rw [scanLine, blank, if_neg fun both => absurd both.2 (by decide), if_pos ⟨unset, rfl⟩]

/-- The first delimiter ends the key. -/
theorem scanLine_delimiter (rest : List Byte) {s : Scan} (unset : s.keySize = maxLineLength) :
    scanLine (fieldDelimiter :: rest) s =
      scanLine rest
        { s with blank := false, keySize := s.i, contentData := some (s.i + 1), i := s.i + 1 } := by
  have blank := scan_blank s (b := fieldDelimiter) (by decide)
  rw [show (fieldDelimiter == space || fieldDelimiter == tab) = false by decide, Bool.and_false]
    at blank
  rw [scanLine, blank]
  dsimp only
  rw [if_pos ⟨unset, rfl⟩]

/-- The variables at the start of a line. -/
def Scan.fresh (contentData : Option Nat) (lineno : Nat) : Scan :=
  ⟨0, true, maxLineLength, contentData, maxLineLength, lineno⟩

/-- A line without a delimiter. -/
theorem scanLine_other {text : List Byte} (line : lf ∉ text) (none_ : fieldDelimiter ∉ text)
    (rest : List Byte) (contentData : Option Nat) (lineno : Nat) :
    scanLine (text ++ lf :: rest) (.fresh contentData lineno) =
      ⟨text.length, isBlank text, maxLineLength, contentData,
        (text.length + 2 ^ 32 - maxLineLength - 1) % 2 ^ 32, lineno + 1⟩ := by
  rw [scanLine_plain line _ _ (.inl none_), scanLine_newline rest rfl]
  dsimp only [Scan.fresh]
  rw [Nat.zero_add, Bool.true_and]

/-- A line with a delimiter. -/
theorem scanLine_record {key content : List Byte} (keyLine : lf ∉ key) (contentLine : lf ∉ content)
    (none_ : fieldDelimiter ∉ key) (short : key.length + 1 + content.length < maxLineLength)
    (rest : List Byte) (contentData : Option Nat) (lineno : Nat) :
    scanLine (key ++ fieldDelimiter :: (content ++ lf :: rest)) (.fresh contentData lineno) =
      ⟨key.length + 1 + content.length, false, key.length, some (key.length + 1), content.length,
        lineno + 1⟩ := by
  have limit : maxLineLength = 4096 := rfl
  rw [scanLine_plain keyLine _ _ (.inl none_), scanLine_delimiter _ rfl,
    scanLine_plain contentLine _ _ (.inr (by
      change 0 + key.length ≠ maxLineLength
      omega)), scanLine_newline rest rfl]
  dsimp only [Scan.fresh]
  rw [Nat.zero_add, Bool.false_and]
  have size : (key.length + 1 + content.length + 2 ^ 32 - key.length - 1) % 2 ^ 32 =
      content.length := by
    omega
  rw [size]

/-- One byte is passed, or it is the newline at which the loop is left. -/
theorem scanLine_step (b : Byte) (rest : List Byte) (s : Scan) :
    (∃ next : Scan, next.i = s.i + 1 ∧ scanLine (b :: rest) s = scanLine rest next) ∨
      b = lf ∧ (scanLine (b :: rest) s).i = s.i := by
  have place : (if s.blank && fills b then { s with blank := false } else s).i = s.i := by
    split <;> rfl
  rw [scanLine]
  generalize (if s.blank && fills b then { s with blank := false } else s) = filled at place ⊢
  split
  · exact .inl ⟨_, congrArg (· + 1) place, rfl⟩
  · split
    · rename_i newline
      exact .inr ⟨newline.2, place⟩
    · exact .inl ⟨_, congrArg (· + 1) place, rfl⟩

theorem scanLine_grows (text : List Byte) (s : Scan) : s.i ≤ (scanLine text s).i := by
  induction text generalizing s with
  | nil => exact Nat.le_refl _
  | cons b text ih =>
    rcases scanLine_step b text s with ⟨next, place, same⟩ | ⟨_, left⟩
    · have later := ih next
      rw [same]
      omega
    · exact Nat.le_of_eq left.symm

/-- The loop goes on behind what has no newline. -/
theorem scanLine_passes {text : List Byte} (line : lf ∉ text) (rest : List Byte) (s : Scan) :
    s.i + text.length ≤ (scanLine (text ++ rest) s).i := by
  induction text generalizing s with
  | nil => exact scanLine_grows rest s
  | cons b text ih =>
    have ⟨plain, line⟩ := List.ne_and_not_mem_of_not_mem_cons line
    rcases scanLine_step b (text ++ rest) s with ⟨next, place, same⟩ | ⟨newline, _⟩
    · have later := ih line next
      rw [List.cons_append, same, List.length_cons]
      omega
    · exact absurd newline.symm plain

/-! ## One turn -/

/-- What a turn leaves for a line that stands in the buffer with its newline. -/
structure Taken (db : Db) (text : List Byte) (before after : State) : Prop where
  /-- The loop over the buffer is left at the newline. -/
  place : after.i = text.length
  /-- The next line is not dropped. -/
  status : after.status = false
  /-- The line is counted. -/
  lineno : after.lineno = before.lineno + 1
  /-- What is done is what is to be done for the line. -/
  acts : after.acts = before.acts ++ lineActs db before.acts (before.lineno + 1) text

/-- What is to be done for a record. -/
theorem lineActs_record (db : Db) (before : List Act) (number : Nat) {key content : List Byte}
    (first : fieldDelimiter ∉ key) :
    lineActs db before number (key ++ fieldDelimiter :: content) =
      .put key content (db.put before key content) ::
        if db.put before key content = 0 then []
        else [.print (putError (db.strerror (db.put before key content)) (cstr key))] := by
  have filled : ¬ isBlank (key ++ fieldDelimiter :: content) = true := by
    intro blank
    rw [isBlank, List.all_append, List.all_cons] at blank
    rw [show (fieldDelimiter == space || fieldDelimiter == tab) = false by decide, Bool.false_and,
      Bool.and_false] at blank
    exact Bool.false_ne_true blank
  have behind : (key ++ fieldDelimiter :: content).drop (key.length + 1) = content := by
    rw [← List.drop_drop, List.drop_left]
    rfl
  rw [lineActs, if_neg filled, idxOf?_first first]
  dsimp only
  rw [List.take_left, behind]

/-- A record is put. -/
theorem turn_record (db : Db) {key content tail : List Byte} (keyLine : lf ∉ key)
    (contentLine : lf ∉ content) (first : fieldDelimiter ∉ key) {s : State}
    (holds : s.line.val = key ++ fieldDelimiter :: (content ++ lf :: tail))
    (ready : s.status = false) :
    ∃ after, turn db s = some after ∧ Taken db (key ++ fieldDelimiter :: content) s after := by
  have limit : maxLineLength = 4096 := rfl
  have short : key.length + 1 + content.length < maxLineLength := by
    have whole := s.line.property
    rw [holds, List.length_append, List.length_cons, List.length_append, List.length_cons] at whole
    omega
  have scanned := scanLine_record keyLine contentLine first short tail s.contentData s.lineno
  rw [← holds, Scan.fresh] at scanned
  have sizes : (key.length == maxLineLength || content.length == maxLineLength) = false := by
    rw [Bool.or_eq_false_iff, beq_eq_false_iff_ne, beq_eq_false_iff_ne]
    omega
  have front : s.line.val.take key.length = key := by rw [holds, List.take_left]
  have behind : (s.line.val.drop (key.length + 1)).take content.length = content := by
    rw [holds, ← List.drop_drop, List.drop_left]
    exact List.take_left
  have whole : (key ++ fieldDelimiter :: content).length = key.length + 1 + content.length := by
    rw [List.length_append, List.length_cons]
    omega
  have stored : cstr (s.line.store key.length 0).val = cstr key := by
    change cstr (s.line.val.set key.length 0) = cstr key
    rw [holds, List.set_append_right _ _ (Nat.le_refl _), Nat.sub_self, List.set_cons_zero]
    exact cstr_nul key _
  have acts := @lineActs_record db s.acts (s.lineno + 1) _ content first
  rw [turn, scanned, useLine]
  dsimp only [bind, Option.bind]
  rw [ready, sizes, front, behind]
  by_cases done : db.put s.acts key content = 0
  · rw [if_pos done] at acts
    exact ⟨_, if_pos done, whole.symm, rfl, rfl, by rw [acts]⟩
  · rw [if_neg done] at acts
    refine ⟨_, if_neg done, whole.symm, rfl, rfl, ?_⟩
    rw [acts, stored, List.append_assoc]
    rfl

/-- A turn takes the line that stands in the buffer with its newline. -/
theorem turn_taken (db : Db) {text tail : List Byte} (line : lf ∉ text) {s : State}
    (holds : s.line.val = text ++ lf :: tail) (ready : s.status = false) :
    ∃ after, turn db s = some after ∧ Taken db text s after := by
  by_cases delimited : fieldDelimiter ∈ text
  · have ⟨key, content, split_, first⟩ := List.eq_append_cons_of_mem delimited
    rw [split_, List.mem_append, not_or] at line
    have contentLine := List.not_mem_of_not_mem_cons line.2
    rw [split_, List.append_assoc, List.cons_append] at holds
    exact split_ ▸ turn_record db line.1 contentLine first holds ready
  have scanned := scanLine_other line delimited tail s.contentData s.lineno
  rw [← holds, Scan.fresh] at scanned
  have newline : s.line.val[text.length]? = some lf := by
    rw [holds, List.getElem?_append_right (Nat.le_refl _), Nat.sub_self]
    rfl
  rw [turn, scanned, useLine]
  dsimp only [bind, Option.bind]
  rw [ready, newline, beq_self_eq_true, Bool.true_or, Bool.and_true, Bool.false_or]
  cases blank : isBlank text with
  | true =>
    refine ⟨_, rfl, rfl, rfl, rfl, ?_⟩
    rw [lineActs, if_pos blank, List.append_nil]
  | false =>
    refine ⟨_, rfl, rfl, rfl, rfl, ?_⟩
    rw [lineActs, if_neg (by rw [blank]; decide), List.idxOf?_eq_none_iff.mpr delimited]

theorem useLine_place {db : Db} {s after : State} {scan : Scan}
    (used : useLine db s scan = some after) : after.i = scan.i := by
  rw [useLine] at used
  dsimp only [bind, Option.bind] at used
  split at used
  · split at used
    · cases used
    · dsimp only at used
      split at used
      · cases used
        rfl
      · cases used
        rfl
  split at used
  · cases used
    rfl
  split at used
  · cases used
  dsimp only at used
  split at used
  · cases used
    rfl
  · cases used
    rfl

/-- A turn passes what stands in the buffer without a newline. -/
theorem turn_passes (db : Db) {text tail : List Byte} (line : lf ∉ text) {s after : State}
    (holds : s.line.val = text ++ 0 :: tail) (taken : turn db s = some after) :
    text.length < after.i := by
  have clean : lf ∉ text ++ [0] := by
    rw [List.mem_append, not_or]
    exact ⟨line, by decide⟩
  have passed := scanLine_passes clean tail
    ⟨0, true, maxLineLength, s.contentData, maxLineLength, s.lineno⟩
  rw [List.append_assoc, List.singleton_append, ← holds, ← useLine_place taken,
    List.length_append, List.length_singleton] at passed
  change 0 + (text.length + 1) ≤ after.i at passed
  omega

/-! ## Reading -/

theorem fgets_reads {input read : List Byte} (some_ : input ≠ []) (same : fgetsBytes input = read)
    (buffer : LineBuffer) : ∃ line tail,
      fgets buffer input = some (line, input.drop read.length) ∧ line.val = read ++ 0 :: tail := by
  subst same
  exact ⟨_, _, if_neg (mt List.isEmpty_iff.mp some_), rfl⟩

/-- A line that fits in the buffer is read with its newline. -/
theorem fgets_line {text : List Byte} (plain : lf ∉ text) (short : text.length + 1 < maxLineLength)
    (buffer : LineBuffer) (more : List Byte) :
    ∃ line tail, fgets buffer (text ++ lf :: more) = some (line, more) ∧
      line.val = text ++ lf :: tail := by
  have newline : text ++ lf :: more = text ++ [lf] ++ more := by
    rw [List.append_assoc, List.singleton_append]
  have read : fgetsBytes (text ++ lf :: more) = text ++ [lf] := by
    rw [fgetsBytes, idxOf?_first plain]
    dsimp only
    rw [Nat.min_eq_left (by omega), newline]
    exact List.take_left' (by rw [List.length_append, List.length_singleton])
  obtain ⟨line, tail, same, whole⟩ := fgets_reads (by simp) read buffer
  rw [newline, List.drop_left] at same
  exact ⟨line, 0 :: tail, newline ▸ same, by rw [whole, List.append_assoc, List.singleton_append]⟩

/-- What has no newline in as much as fits is read without one. -/
theorem fgets_cut {text more : List Byte} (plain : lf ∉ text) (some_ : text ++ more ≠ [])
    (cut : more = [] ∧ text.length < maxLineLength ∨ text.length + 1 = maxLineLength)
    (buffer : LineBuffer) :
    ∃ line tail, fgets buffer (text ++ more) = some (line, more) ∧ line.val = text ++ 0 :: tail := by
  have read : fgetsBytes (text ++ more) = text := by
    by_cases newline : lf ∈ more
    · obtain ⟨front, back, split_, first⟩ := List.eq_append_cons_of_mem newline
      have clean : lf ∉ text ++ front := by
        rw [List.mem_append, not_or]
        exact ⟨plain, first⟩
      have long : text.length + 1 = maxLineLength := by
        rcases cut with ⟨none_, _⟩ | long
        · rw [none_] at newline
          cases newline
        · exact long
      have size : min ((text ++ front).length + 1) (maxLineLength - 1) = text.length := by
        rw [List.length_append]
        omega
      rw [fgetsBytes, split_, ← List.append_assoc, idxOf?_first clean]
      dsimp only
      rw [size, List.append_assoc, List.take_left]
    · have clean : lf ∉ text ++ more := by
        rw [List.mem_append, not_or]
        exact ⟨plain, newline⟩
      rw [fgetsBytes, List.idxOf?_eq_none_iff.mpr clean]
      dsimp only
      rcases cut with ⟨none_, short⟩ | long
      · rw [none_, List.append_nil]
        exact List.take_of_length_le (by omega)
      · rw [← long, Nat.add_sub_cancel, List.take_left]
  obtain ⟨line, tail, same, whole⟩ := fgets_reads some_ read buffer
  rw [List.drop_left] at same
  exact ⟨line, tail, same, whole⟩

/-! ## The loop over the lines -/

/-- The lines that are taken as they are: they fit in the buffer with their newline. -/
structure Lines.Fit (input : Lines) : Prop where
  /-- They all have a newline. -/
  last : input.last = []
  /-- There is room for it. -/
  short : ∀ line ∈ input.ended, line.length + 1 < maxLineLength

/-- The loop over lines that fit. -/
theorem turns_taken (db : Db) {lines : List (List Byte)}
    (plain : ∀ line ∈ lines, lf ∉ line ∧ line.length + 1 < maxLineLength) {s : State}
    (ready : s.status = false) {rounds : Nat} (enough : lines.length < rounds) :
    ∃ states, turns db rounds s (lines.flatMap (· ++ [lf])) = some states ∧
      List.Forall₂ (fun text after => after.i ≤ text.length) lines states ∧
      (states.getLastD s).acts = linesActs db s.acts (s.lineno + 1) lines := by
  induction lines generalizing s rounds with
  | nil =>
    cases rounds with
    | zero => cases enough
    | succ rounds => exact ⟨[], rfl, .nil, rfl⟩
  | cons text lines ih =>
    cases rounds with
    | zero => cases enough
    | succ rounds =>
      have ⟨⟨clean, short⟩, others⟩ := List.forall_mem_cons.mp plain
      have input : (text :: lines).flatMap (· ++ [lf]) = text ++ lf :: lines.flatMap (· ++ [lf]) := by
        rw [List.flatMap_cons, List.append_assoc, List.singleton_append]
      have ⟨line, tail, read, holds⟩ := fgets_line clean short s.line (lines.flatMap (· ++ [lf]))
      have ⟨after, turned, taken⟩ := turn_taken db (s := { s with line }) clean holds ready
      have ⟨states, rest, inside, acts⟩ := ih others taken.status (Nat.lt_of_succ_lt_succ enough)
      refine ⟨after :: states, ?_, .cons (Nat.le_of_eq taken.place) inside, ?_⟩
      · rw [turns, input, read]
        dsimp only [bind, Option.bind]
        rw [turned]
        dsimp only
        rw [rest]
        rfl
      · rw [List.getLastD_cons, acts, taken.acts, taken.lineno]
        rfl

theorem turns_succ {db : Db} {rounds : Nat} {s : State} {input rest : List Byte} {line : LineBuffer}
    {states : List State} (run : turns db (rounds + 1) s input = some states)
    (read : fgets s.line input = some (line, rest)) :
    ∃ after later, turn db { s with line } = some after ∧ turns db rounds after rest = some later ∧
      states = after :: later := by
  rw [turns, read] at run
  dsimp only [bind] at run
  have ⟨after, turned, run⟩ := Option.bind_eq_some_iff.mp run
  have ⟨later, rest, run⟩ := Option.bind_eq_some_iff.mp run
  exact ⟨after, later, turned, rest, (Option.some.inj run).symm⟩

/-- What is read without a newline is not left at its end. -/
theorem turns_cut {db : Db} {rounds : Nat} {s : State} {text more : List Byte}
    {others : List (List Byte)} {states : List State} (plain : lf ∉ text) (some_ : text ++ more ≠ [])
    (cut : more = [] ∧ text.length < maxLineLength ∨ text.length + 1 = maxLineLength)
    (run : turns db rounds s (text ++ more) = some states) :
    ¬ List.Forall₂ (fun text after => after.i ≤ text.length) (text :: others) states := by
  intro inside
  cases rounds with
  | zero => cases run
  | succ rounds =>
    have ⟨line, tail, read, holds⟩ := fgets_cut plain some_ cut s.line
    have ⟨after, later, turned, _, same⟩ := turns_succ run read
    rw [same, List.forall₂_cons] at inside
    have passed := turn_passes db plain (s := { s with line }) holds turned
    omega

/-- Where each line is left at its end, all fit. -/
theorem turns_fit {db : Db} {lines : List (List Byte)} {last : List Byte}
    (plain : ∀ line ∈ lines, lf ∉ line ∧ line.length < maxLineLength)
    (lastPlain : lf ∉ last ∧ last.length < maxLineLength) {s : State} {rounds : Nat}
    {states : List State} (run : turns db rounds s (lines.flatMap (· ++ [lf]) ++ last) = some states)
    (inside : List.Forall₂ (fun text after => after.i ≤ text.length)
      (lines ++ if last = [] then [] else [last]) states) :
    last = [] ∧ ∀ line ∈ lines, line.length + 1 < maxLineLength := by
  induction lines generalizing s rounds states with
  | nil =>
    by_cases none_ : last = []
    · exact ⟨none_, fun line member => by cases member⟩
    · rw [if_neg none_] at inside
      rw [List.flatMap_nil, List.nil_append, ← List.append_nil last] at run
      exact absurd inside
        (turns_cut lastPlain.1 (by simpa using none_) (.inl ⟨rfl, lastPlain.2⟩) run)
  | cons text lines ih =>
    have ⟨⟨clean, short⟩, others⟩ := List.forall_mem_cons.mp plain
    have input : (text :: lines).flatMap (· ++ [lf]) ++ last =
        text ++ lf :: (lines.flatMap (· ++ [lf]) ++ last) := by
      rw [List.flatMap_cons, List.append_assoc, List.append_assoc, List.singleton_append]
    rw [input] at run
    by_cases fits : text.length + 1 < maxLineLength
    · cases rounds with
      | zero => cases run
      | succ rounds =>
        have ⟨line, tail, read, _⟩ :=
          fgets_line clean fits s.line (lines.flatMap (· ++ [lf]) ++ last)
        have ⟨after, later, _, rest, same⟩ := turns_succ run read
        rw [same, List.cons_append, List.forall₂_cons] at inside
        have ⟨none_, all⟩ := ih others rest inside.2
        exact ⟨none_, List.forall_mem_cons.mpr ⟨fits, all⟩⟩
    · exact absurd inside (turns_cut clean (by simp) (.inr (by omega)) run)

/-! ## The lines of an input -/

/-- The records are those of the lines, each other line is reported, and the loop over the buffer is left
at the end of the line. -/
structure Parsed (db : Db) (line : LineBuffer) (input : Lines) : Prop where
  /-- What is done. -/
  acts : makebdbNew db line input.text = some (linesActs db [] 1 input.all ++ [.close])
  /-- There is one turn for each line, and nothing behind the line is looked at in it. -/
  inside : ∃ states,
    turns db (input.text.length + 1) (State.start line) input.text = some states ∧
      List.Forall₂ (fun text after => after.i ≤ text.length) input.all states

/-- `makebdb_new` takes the lines as they are exactly where each has a newline, for which there is room in
the buffer. -/
theorem makebdbNew_parsed_iff (db : Db) (created : db.create = 0) (opened : db.opened = 0)
    (line : LineBuffer) (input : Lines) : Parsed db line input ↔ input.Fit := by
  constructor
  · intro ⟨_, states, run, inside⟩
    have ⟨none_, short⟩ := turns_fit input.endedShort input.lastShort run inside
    exact ⟨none_, short⟩
  · intro ⟨none_, short⟩
    have text : input.text = input.ended.flatMap (· ++ [lf]) := by
      rw [Lines.text, none_, List.append_nil]
    have all : input.all = input.ended := by
      rw [Lines.all, if_pos none_, List.append_nil]
    have enough : input.ended.length < (input.ended.flatMap (· ++ [lf])).length + 1 := by
      have room (lines : List (List Byte)) :
          lines.length ≤ (lines.flatMap (· ++ [lf])).length := by
        induction lines with
        | nil => exact Nat.le_refl _
        | cons line lines ih =>
          rw [List.flatMap_cons, List.length_append, List.length_append, List.length_cons,
            List.length_singleton]
          omega
      exact Nat.lt_succ_of_le (room input.ended)
    have ⟨states, run, inside, acts⟩ := turns_taken db
      (fun line member => ⟨(input.endedShort line member).1, short line member⟩)
      (s := State.start line) rfl enough
    refine ⟨?_, states, ?_, ?_⟩
    · rw [makebdbNew, if_neg (not_not_intro created), if_neg (not_not_intro opened), text]
      dsimp only [bind, Option.bind]
      rw [run]
      dsimp only
      rw [acts, all]
      rfl
    · rw [text, run]
    · rw [all]
      exact inside

/-- A database whose calls succeed. -/
def ready : Db := ⟨0, 0, fun _ _ _ => 0, fun _ => []⟩

/-- A buffer of zeros. -/
def zeros : LineBuffer := ⟨List.replicate maxLineLength 0, List.length_replicate⟩

/-- A record and its newline are taken as they are. -/
theorem makebdbNew_parsed_line :
    Parsed ready zeros ⟨[bytes "bob:mail1"], [], by decide, by decide⟩ :=
  (makebdbNew_parsed_iff ready rfl rfl zeros _).mpr ⟨rfl, by decide⟩

/-- Without the last newline the record gets what the line before has left in the buffer. -/
theorem makebdbNew_leftover :
    makebdbNew ready zeros (bytes "alice:mail1.example.org\nbob:mail2") =
        some [.put (bytes "alice") (bytes "mail1.example.org") 0,
          .put (bytes "bob") (bytes "mail2" ++ 0 :: bytes "1.example.org") 0, .close] ∧
      ¬ Parsed ready zeros
        ⟨[bytes "alice:mail1.example.org"], bytes "bob:mail2", by decide, by decide⟩ := by
  constructor
  · decide +kernel
  · intro parsed
    exact absurd parsed.acts (by decide +kernel)

end Perdition.Makebdb
