import Perdition.Gdbm
import Perdition.Verif.BerkeleyDbMaps

/-!
# Flat files and GDBM maps

The map that `makegdbm_new` makes of a flat file says what the file does, of keys and servers that are
not empty. What `makegdbm_undo` prints of a map has a NUL behind each delimiter and each newline: of it
`makegdbm_new` makes a map in which no server is found any more.
-/
namespace Perdition.Makegdbm

open Lib
open Makebdb (LineBuffer fgets fills fieldDelimiter isBlank lineRecord fgets_line
  fgets_cut recordLine IsLine)

/-! ## The loop over a line -/

/-- The loops of the two programs are in the same place: no key is as long as the buffer. -/
structure Scan.Like (s : Scan) (t : Makebdb.Scan) : Prop where
  /-- `i`. -/
  i : s.i = t.i
  /-- `blank`. -/
  blank : s.blank = t.blank
  /-- The key. -/
  key : s.keyDsize = -1 ∧ t.keySize = Makebdb.maxLineLength ∨
    s.keyDsize = t.keySize ∧ t.keySize < Makebdb.maxLineLength
  /-- The place of the content. -/
  content : s.contentDptr = t.contentData
  /-- `lineno`. -/
  lineno : s.lineno = t.lineno

/-- There is no key in the one where there is none in the other. -/
theorem Scan.Like.unset {s : Scan} {t : Makebdb.Scan} (like : s.Like t) :
    s.keyDsize = -1 ↔ t.keySize = Makebdb.maxLineLength := by
  rcases like.key with ⟨none_, none'⟩ | ⟨some_, short⟩
  · exact iff_of_true none_ none'
  · exact iff_of_false (by omega) (by omega)

/-- `makegdbm` reads a line as `makebdb` does, except for the length that a content has. -/
theorem scanLine_like (line : List Byte) {s : Scan} {t : Makebdb.Scan} (like : s.Like t)
    (open_ : s.contentDsize = -1) (open' : t.contentSize = Makebdb.maxLineLength)
    (room : s.i + line.length ≤ Makebdb.maxLineLength) :
    (scanLine line s).Like (Makebdb.scanLine line t) ∧
      (lf ∈ line → (scanLine line s).contentDsize =
        (scanLine line s).i - (scanLine line s).keyDsize - 1) := by
  induction line generalizing s t with
  | nil => exact ⟨like, fun member => by cases member⟩
  | cons b line ih =>
    rw [List.length_cons] at room
    -- the test for a blank line
    generalize filled : (if s.blank && fills b then { s with blank := false } else s) = s₁
    generalize filled' : (if t.blank && fills b then { t with blank := false } else t) = t₁
    have like₁ : s₁.Like t₁ ∧ s₁.contentDsize = -1 ∧ t₁.contentSize = Makebdb.maxLineLength ∧ s₁.i = s.i := by
      subst filled filled'
      rw [← like.blank]
      split
      · exact ⟨⟨like.i, rfl, like.key, like.content, like.lineno⟩, open_, open', rfl⟩
      · exact ⟨like, open_, open', rfl⟩
    obtain ⟨like₁, open₁, open₁', same⟩ := like₁
    rw [scanLine, Makebdb.scanLine, filled, filled']
    by_cases delimiter : s₁.keyDsize = -1 ∧ b = fieldDelimiter
    · rw [if_pos delimiter, if_pos ⟨like₁.unset.mp delimiter.1, delimiter.2⟩]
      obtain ⟨after, rest⟩ := ih (s := { s₁ with
          keyDsize := s₁.i
          contentDptr := some (s₁.i + 1)
          i := s₁.i + 1 })
        (t := { t₁ with keySize := t₁.i, contentData := some (t₁.i + 1), i := t₁.i + 1 })
        ⟨congrArg (· + 1) like₁.i, like₁.blank, .inr ⟨congrArg Nat.cast like₁.i, by
            have := like₁.i
            dsimp only
            omega⟩, by rw [like₁.i], like₁.lineno⟩ open₁ open₁' (by dsimp only; omega)
      refine ⟨after, fun member => rest ?_⟩
      rcases List.mem_cons.mp member with newline | more
      · exact absurd (newline.trans delimiter.2) (by decide)
      · exact more
    · have delimiter' : ¬ (t₁.keySize = Makebdb.maxLineLength ∧ b = fieldDelimiter) :=
        fun both => delimiter ⟨like₁.unset.mpr both.1, both.2⟩
      rw [if_neg delimiter, if_neg delimiter']
      by_cases newline : b = lf
      · rw [if_pos ⟨open₁, newline⟩, if_pos ⟨open₁', newline⟩]
        exact ⟨⟨like₁.i, like₁.blank, like₁.key, like₁.content, congrArg (· + 1) like₁.lineno⟩,
          fun _ => rfl⟩
      · have open₂ : ¬ (s₁.contentDsize = -1 ∧ b = lf) := fun both => newline both.2
        have open₂' : ¬ (t₁.contentSize = Makebdb.maxLineLength ∧ b = lf) := fun both => newline both.2
        rw [if_neg open₂, if_neg open₂']
        obtain ⟨after, rest⟩ := ih (s := { s₁ with i := s₁.i + 1 }) (t := { t₁ with i := t₁.i + 1 })
          ⟨congrArg (· + 1) like₁.i, like₁.blank, like₁.key, like₁.content, like₁.lineno⟩ open₁
          open₁' (by dsimp only; omega)
        exact ⟨after, fun member => rest ((List.mem_cons.mp member).resolve_left (Ne.symm newline))⟩

/-- The loop over a line that stands in the buffer with its newline. -/
theorem scanLine_line {text tail : List Byte} {line : LineBuffer}
    (holds : line.val = text ++ lf :: tail) (contentDptr : Option Nat) (lineno : Nat) :
    (scanLine line.val ⟨0, true, -1, contentDptr, -1, lineno⟩).Like
        (Makebdb.scanLine (text ++ lf :: tail) (.fresh contentDptr lineno)) ∧
      (scanLine line.val ⟨0, true, -1, contentDptr, -1, lineno⟩).contentDsize =
        (scanLine line.val ⟨0, true, -1, contentDptr, -1, lineno⟩).i -
          (scanLine line.val ⟨0, true, -1, contentDptr, -1, lineno⟩).keyDsize - 1 := by
  obtain ⟨like, content⟩ := scanLine_like line.val (s := ⟨0, true, -1, contentDptr, -1, lineno⟩)
    (t := .fresh contentDptr lineno) ⟨rfl, rfl, .inl ⟨rfl, rfl⟩, rfl, rfl⟩ rfl rfl
    (by rw [line.property]; exact Nat.le_of_eq (Nat.zero_add _))
  refine ⟨holds ▸ like, content ?_⟩
  rw [holds]
  simp

/-! ## One turn -/

/-- The record of a line that `makegdbm` takes: its key and its content are not empty. -/
def fullRecord (line : List Byte) : Option Record :=
  (lineRecord line).filter fun record => record.1 ≠ [] && record.2 ≠ []

/-- What a turn leaves for a line that stands in the buffer with its newline. -/
structure Taken (text tail : List Byte) (before after : State) : Prop where
  /-- The next line is not dropped. -/
  status : after.status = false
  /-- The record is stored unless there is one with its key. -/
  stored : stored after.acts = (fullRecord text).toList.foldl keepFirst (stored before.acts)
  /-- There is as long a line in the buffer. -/
  line : ∃ text', after.line.val = text' ++ lf :: tail ∧ lf ∉ text' ∧ text'.length = text.length

/-- What is stored after one more act. -/
theorem stored_append (acts more : List Act) :
    stored (acts ++ more) = (more.filterMap Act.stores).foldl
      (fun file record => file.insert record.1 record.2) (stored acts) := by
  rw [stored, List.filterMap_append, List.foldl_append]
  rfl

/-- A line with a delimiter. -/
theorem turn_record {key content tail : List Byte} (keyLine : lf ∉ key) (contentLine : lf ∉ content)
    (first : fieldDelimiter ∉ key) {s : State}
    (holds : s.line.val = key ++ fieldDelimiter :: (content ++ lf :: tail))
    (ready : s.status = false) :
    ∃ after, turn gdbm s = some after ∧
      Taken (key ++ fieldDelimiter :: content) tail s after := by
  have limit : Makebdb.maxLineLength = 4096 := rfl
  have short : key.length + 1 + content.length < Makebdb.maxLineLength := by
    have whole := s.line.property
    rw [holds, List.length_append, List.length_cons, List.length_append, List.length_cons] at whole
    omega
  have plain {b : Byte} (other : lf ≠ b) : lf ∉ key ++ b :: content := by
    rw [List.mem_append, List.mem_cons, not_or, not_or]
    exact ⟨keyLine, other, contentLine⟩
  have same : key ++ fieldDelimiter :: (content ++ lf :: tail) =
      key ++ fieldDelimiter :: content ++ lf :: tail := by simp
  have scanned := Makebdb.scanLine_record keyLine contentLine first short tail s.contentDptr s.lineno
  obtain ⟨like, size⟩ := scanLine_line (holds.trans same) s.contentDptr s.lineno
  rw [← same, scanned] at like
  rw [turn]
  generalize scanLine s.line.val ⟨0, true, -1, s.contentDptr, -1, s.lineno⟩ = scan at like size ⊢
  have keySize : scan.keyDsize = key.length := by
    rcases like.key with ⟨_, none_⟩ | ⟨some_, _⟩
    · dsimp only at none_
      omega
    · exact some_
  have place : scan.i = key.length + 1 + content.length := like.i
  have contentSize : scan.contentDsize = content.length := by omega
  have blank : scan.blank = false := like.blank
  have dptr : scan.contentDptr = some (key.length + 1) := like.content
  have front : s.line.val.take key.length = key := by rw [holds, List.take_left]
  have behind : (s.line.val.drop (key.length + 1)).take content.length = content := by
    rw [holds, ← List.drop_drop, List.drop_left]
    exact List.take_left
  have whole : (key ++ fieldDelimiter :: content).length = key.length + 1 + content.length := by
    rw [List.length_append, List.length_cons]
    omega
  have newline : s.line.val[scan.i]? = some lf := by
    rw [holds.trans same, place, ← whole, List.getElem?_append_right (Nat.le_refl _), Nat.sub_self]
    rfl
  have isLine : IsLine ⟨key, content⟩ := ⟨first, keyLine, contentLine⟩
  have record := Makebdb.lineRecord_recordLine isLine
  have taken : fullRecord (key ++ fieldDelimiter :: content) =
      if key ≠ [] ∧ content ≠ [] then some ⟨key, content⟩ else none := by
    rw [fullRecord]
    change (lineRecord (recordLine ⟨key, content⟩)).filter _ = _
    rw [record, Option.filter_some]
    simp
  have sizes : (decide ((key.length : Int) < 1) || decide ((content.length : Int) < 1)) =
      !decide (key ≠ [] ∧ content ≠ []) := by
    cases key <;> cases content <;> simp
  rw [useLine, ready, blank, keySize, contentSize, newline, dptr]
  dsimp only [bind, Option.bind]
  rw [Int.toNat_natCast, Int.toNat_natCast, front, behind, sizes, Bool.not_false, Bool.true_and,
    Bool.false_or]
  by_cases full : key ≠ [] ∧ content ≠ []
  · rw [decide_eq_true full, Bool.not_true, if_neg Bool.false_ne_true, if_neg Bool.false_ne_true]
    rw [if_pos full] at taken
    by_cases is : (⟨key, content⟩ : Makebdb.Record).1 ∈ stored s.acts
    · have ret : gdbm.store s.acts key content = 1 := if_pos is
      rw [ret, if_neg (by decide)]
      refine ⟨_, rfl, rfl, ?_, ?_⟩
      · rw [stored_append, stored_append, taken]
        exact (keepFirst_mem is).symm
      · refine ⟨key ++ 0 :: content, ?_, plain (by decide), by simp⟩
        change s.line.val.set key.length 0 = _
        rw [holds, List.set_append_right _ _ (Nat.le_refl _), Nat.sub_self, List.set_cons_zero]
        simp
    · have ret : gdbm.store s.acts key content = 0 := if_neg is
      rw [ret, if_pos (Int.le_refl 0)]
      refine ⟨_, rfl, rfl, ?_, _, holds.trans same, plain (by decide), rfl⟩
      rw [stored_append, taken]
      exact (keepFirst_notMem is).symm
  · rw [decide_eq_false full, Bool.not_false, if_pos rfl, if_pos rfl]
    rw [if_neg full] at taken
    refine ⟨_, rfl, rfl, ?_, _, holds.trans same, plain (by decide), rfl⟩
    rw [stored_append, taken]
    rfl

/-- A turn takes the line that stands in the buffer with its newline. -/
theorem turn_taken {text tail : List Byte} (plain : lf ∉ text) {s : State}
    (holds : s.line.val = text ++ lf :: tail) (ready : s.status = false) :
    ∃ after, turn gdbm s = some after ∧ Taken text tail s after := by
  by_cases delimited : fieldDelimiter ∈ text
  · obtain ⟨key, content, split_, first⟩ := List.eq_append_cons_of_mem delimited
    rw [split_, List.mem_append, not_or] at plain
    have contentLine := List.not_mem_of_not_mem_cons plain.2
    rw [split_, List.append_assoc, List.cons_append] at holds
    exact split_ ▸ turn_record plain.1 contentLine first holds ready
  have scanned := Makebdb.scanLine_other plain delimited tail s.contentDptr s.lineno
  obtain ⟨like, _⟩ := scanLine_line holds s.contentDptr s.lineno
  rw [scanned] at like
  rw [turn]
  generalize scanLine s.line.val ⟨0, true, -1, s.contentDptr, -1, s.lineno⟩ = scan at like ⊢
  have none_ : fullRecord text = none := by
    rw [fullRecord, lineRecord, List.idxOf?_eq_none_iff.mpr delimited]
    split <;> rfl
  have newline : s.line.val[scan.i]? = some lf := by
    rw [holds, show scan.i = text.length from like.i,
      List.getElem?_append_right (Nat.le_refl _), Nat.sub_self]
    rfl
  have blank : scan.blank = isBlank text := like.blank
  rw [useLine, ready, blank, like.unset.mpr rfl, newline]
  dsimp only [bind, Option.bind]
  rw [decide_eq_true (show (-1 : Int) < 1 by decide), Bool.true_or, Bool.and_true, Bool.false_or]
  cases isBlank text with
  | true => exact ⟨_, rfl, rfl, by rw [none_]; rfl, text, holds, plain, rfl⟩
  | false =>
    refine ⟨_, rfl, rfl, ?_, text, holds, plain, rfl⟩
    rw [stored_append, none_]
    rfl

/-! ## The loop over the lines -/

/-- A line that fits takes one turn. -/
theorem turns_line {text : List Byte} (plain : lf ∉ text)
    (short : text.length + 1 < Makebdb.maxLineLength) {s : State} (ready : s.status = false)
    (rounds : Nat) (more : List Byte) :
    ∃ after tail, turns gdbm (rounds + 1) s (text ++ lf :: more) = turns gdbm rounds after more ∧
      Taken text tail s after := by
  obtain ⟨line, tail, read, holds⟩ := fgets_line plain short s.line more
  obtain ⟨after, turned, taken⟩ := turn_taken plain (s := { s with line }) holds ready
  refine ⟨after, tail, ?_, taken.status, taken.stored, taken.line⟩
  rw [turns, read]
  dsimp only [bind, Option.bind]
  rw [turned]

/-- Lines that fit take one turn each. -/
theorem turns_lines {lines : List (List Byte)}
    (fit : ∀ line ∈ lines, lf ∉ line ∧ line.length + 1 < Makebdb.maxLineLength) {s : State}
    (ready : s.status = false) (rounds : Nat) (more : List Byte) :
    ∃ after, turns gdbm (lines.length + rounds) s (lines.flatMap (· ++ [lf]) ++ more) =
        turns gdbm rounds after more ∧
      after.status = false ∧
      stored after.acts = (lines.filterMap fullRecord).foldl keepFirst (stored s.acts) := by
  induction lines generalizing s with
  | nil =>
    refine ⟨s, ?_, ready, rfl⟩
    rw [List.length_nil, Nat.zero_add]
    rfl
  | cons text lines ih =>
    obtain ⟨⟨plain, short⟩, others⟩ := List.forall_mem_cons.mp fit
    have input : (text :: lines).flatMap (· ++ [lf]) ++ more =
        text ++ lf :: (lines.flatMap (· ++ [lf]) ++ more) := by
      rw [List.flatMap_cons, List.append_assoc, List.append_assoc, List.singleton_append]
    obtain ⟨next, tail, first, taken⟩ := turns_line plain short ready (lines.length + rounds)
      (lines.flatMap (· ++ [lf]) ++ more)
    obtain ⟨after, run, status, records⟩ := ih others taken.status
    refine ⟨after, ?_, status, ?_⟩
    · rw [input, List.length_cons, Nat.add_right_comm, first, run]
    · rw [records, taken.stored]
      cases shape : fullRecord text with
      | none => rw [List.filterMap_cons_none shape]; rfl
      | some record => rw [List.filterMap_cons_some shape]; rfl

/-- What lines say, as far as keys and servers are not empty. -/
def fullFile (lines : List (List Byte)) : File := (lines.filterMap fullRecord).toFinmap

/-- Of lines that fit, `makegdbm_new` makes the file they say. -/
theorem makegdbmNew_fullFile (line : LineBuffer) {lines : List (List Byte)}
    (fit : ∀ line ∈ lines, lf ∉ line ∧ line.length + 1 < Makebdb.maxLineLength) :
    ∃ acts, makegdbmNew gdbm line (lines.flatMap (· ++ [lf])) = some acts ∧
      stored acts = fullFile lines := by
  have enough := Makebdb.length_le_text lines
  obtain ⟨rounds, more⟩ := Nat.exists_eq_add_of_le enough
  obtain ⟨after, run, _, records⟩ := turns_lines fit (s := ⟨line, none, false, 0, []⟩) rfl (rounds + 1) []
  rw [List.append_nil, ← Nat.add_assoc, ← more] at run
  refine ⟨after.acts ++ [.close], ?_, ?_⟩
  · rw [makegdbmNew, if_neg (by decide), run]
    rfl
  · rw [stored_append, records]
    exact foldl_keepFirst_empty _

/-! ## Printing a file and making it again -/

/-- The lines that `makegdbm_undo` prints: each but the first begins with the NUL behind the newline
before it, and a NUL stands behind each delimiter. -/
def undoLines : List Record → List (List Byte)
  | [] => []
  | record :: records => recordLine ⟨record.1, 0 :: record.2⟩ ::
      records.map fun record => recordLine ⟨0 :: record.1, 0 :: record.2⟩

/-- What is printed for a record. -/
def undoRecord (record : Record) : List Byte :=
  record.1 ++ [fieldDelimiter, 0] ++ record.2 ++ [lf, 0]

/-- The NUL behind a newline begins the next line. -/
theorem flatMap_undoRecord (records : List Record) :
    0 :: records.flatMap undoRecord =
      (records.map fun record => recordLine ⟨0 :: record.1, 0 :: record.2⟩).flatMap (· ++ [lf]) ++
        [0] := by
  induction records with
  | nil => rfl
  | cons record records ih =>
    rw [List.map_cons, List.flatMap_cons, List.flatMap_cons, List.append_assoc, ← ih]
    simp [undoRecord, recordLine]

/-- What is printed of a file that has records. -/
theorem makegdbmUndo_records (records : AList fun _ : List Byte => List Byte)
    (some_ : records.entries ≠ []) :
    (makegdbmUndo (gdbmReader records)).1 =
      (undoLines records.entries).flatMap (· ++ [lf]) ++ [0] := by
  have keys : (gdbmReader records).keys = records.entries.map Sigma.fst := rfl
  have printed : (makegdbmUndo (gdbmReader records)).1 = records.entries.flatMap undoRecord := by
    rw [makegdbmUndo, if_neg (by simp [gdbmReader]), if_neg (by simpa [keys] using some_)]
    dsimp only
    rw [keys, List.flatMap_map]
    refine List.flatMap_congr fun record member => ?_
    have found : (gdbmReader records).fetch record.1 = some record.2 := Makebdb.lookup_entry member
    rw [undoKey, found]
    rfl
  rw [printed]
  cases shape : records.entries with
  | nil => exact absurd shape some_
  | cons record others =>
    rw [undoLines, List.flatMap_cons, List.flatMap_cons, List.append_assoc, ← flatMap_undoRecord]
    simp [undoRecord, recordLine]

/-- Of a NUL at the end a line is made with what the last line has left in the buffer. Its key is no
string. -/
theorem turns_nul {s : State} {text tail : List Byte} (holds : s.line.val = text ++ lf :: tail)
    (plain : lf ∉ text) (long : 2 ≤ text.length) (ready : s.status = false) (rounds : Nat) :
    ∃ after stale, turns gdbm (rounds + 1 + 1) s [0] = some after ∧
      stored after.acts = stale.toList.foldl keepFirst (stored s.acts) ∧
      ∀ record : Record, stale = some record → 0 ∈ record.1 := by
  obtain ⟨whole, read⟩ : ∃ whole, fgets s.line [0] = some (⟨0 :: 0 :: s.line.val.drop 2, whole⟩, []) :=
    ⟨_, rfl⟩
  have left : 0 :: 0 :: s.line.val.drop 2 = 0 :: 0 :: text.drop 2 ++ lf :: tail := by
    rw [holds, List.drop_append_of_le_length long]
    rfl
  have clean : lf ∉ 0 :: 0 :: text.drop 2 := by
    rw [List.mem_cons, List.mem_cons, not_or, not_or]
    exact ⟨by decide, by decide, fun member => plain (List.mem_of_mem_drop member)⟩
  obtain ⟨after, turned, taken⟩ := turn_taken clean
    (s := { s with line := ⟨0 :: 0 :: s.line.val.drop 2, whole⟩ }) left ready
  refine ⟨after, _, ?_, taken.stored, fun record is => ?_⟩
  · rw [turns, read]
    dsimp only [bind, Option.bind]
    rw [turned]
    rfl
  · obtain ⟨some_, full⟩ := Option.filter_eq_some_iff.mp is
    obtain ⟨_, same⟩ := Makebdb.isLine_of_lineRecord clean some_
    have filled : record.1 ≠ [] := by
      have both : (decide (record.1 ≠ []) && decide (record.2 ≠ [])) = true := full
      exact of_decide_eq_true (Bool.and_eq_true_iff.mp both).1
    obtain ⟨b, key, shape⟩ := List.exists_cons_of_ne_nil filled
    rw [recordLine, shape, List.cons_append] at same
    rw [shape, (List.cons.inj same).1]
    exact List.mem_cons_self

/-- A record that `makegdbm_undo` prints so that its lines fit. -/
def Fits (record : Record) : Prop :=
  IsLine record ∧ record.1 ≠ [] ∧
    record.1.length + record.2.length + 4 < Makebdb.maxLineLength

/-- What is read of a line with a NUL behind the delimiter. -/
theorem fullRecord_nul {key content : List Byte} (line : IsLine ⟨key, content⟩) (filled : key ≠ []) :
    fullRecord (recordLine ⟨key, 0 :: content⟩) = some ⟨key, 0 :: content⟩ := by
  have is : IsLine ⟨key, 0 :: content⟩ :=
    ⟨line.1, line.2.1, List.not_mem_cons_of_ne_of_not_mem (by decide) line.2.2⟩
  rw [fullRecord, Makebdb.lineRecord_recordLine is, Option.filter_some]
  simp [filled]

/-- A string is no key of records whose keys have a NUL. -/
theorem dlookup_nul {records : List Record} (nul : ∀ record ∈ records, 0 ∈ record.1)
    (keyStr : CString) : records.dlookup keyStr.content = none := by
  rw [List.dlookup_eq_none]
  intro member
  obtain ⟨content, among⟩ := List.exists_of_mem_keys member
  exact keyStr.noNul (nul _ among)

/-- The lines that are printed for records. -/
theorem undoLines_fit {records : List Record} (fits : ∀ record ∈ records, Fits record) :
    ∀ line ∈ undoLines records,
      lf ∉ line ∧ line.length + 1 < Makebdb.maxLineLength ∧ 2 ≤ line.length := by
  have plain (front : List Byte) (none_ : lf ∉ front) (few : front.length ≤ 1) {record : Record}
      (fit : Fits record) :
      lf ∉ recordLine ⟨front ++ record.1, 0 :: record.2⟩ ∧
        (recordLine ⟨front ++ record.1, 0 :: record.2⟩).length + 1 < Makebdb.maxLineLength ∧
        2 ≤ (recordLine ⟨front ++ record.1, 0 :: record.2⟩).length := by
    obtain ⟨⟨_, key, content⟩, _, short⟩ := fit
    simp only [recordLine, List.mem_append, List.mem_cons, not_or, List.length_append,
      List.length_cons]
    exact ⟨⟨⟨none_, key⟩, by decide, by decide, content⟩, by omega, by omega⟩
  cases records with
  | nil => exact fun line member => by cases member
  | cons record records =>
    obtain ⟨fit, others⟩ := List.forall_mem_cons.mp fits
    refine List.forall_mem_cons.mpr ⟨plain [] List.not_mem_nil (Nat.zero_le 1) fit, ?_⟩
    intro line member
    obtain ⟨other, among, rfl⟩ := List.mem_map.mp member
    exact plain [0] (by decide) (Nat.le_refl 1) (others other among)

/-- What is looked up of printed lines. -/
theorem dlookup_undoLines {records : List Record} (fits : ∀ record ∈ records, Fits record)
    (keyStr : CString) :
    ((undoLines records).filterMap fullRecord).dlookup keyStr.content =
      records.head?.bind fun record =>
        if keyStr.content = record.1 then some (0 :: record.2) else none := by
  cases records with
  | nil => rfl
  | cons record records =>
    obtain ⟨⟨line, filled, _⟩, others⟩ := List.forall_mem_cons.mp fits
    have rest : ((records.map fun record => recordLine ⟨0 :: record.1, 0 :: record.2⟩).filterMap
        fullRecord).dlookup keyStr.content = none := by
      refine dlookup_nul (fun found member => ?_) keyStr
      obtain ⟨text, among, is⟩ := List.mem_filterMap.mp member
      obtain ⟨other, among', rfl⟩ := List.mem_map.mp among
      obtain ⟨⟨delimiter, key, content⟩, _⟩ := others other among'
      have line' : IsLine ⟨0 :: other.1, other.2⟩ :=
        ⟨List.not_mem_cons_of_ne_of_not_mem (by decide) delimiter,
          List.not_mem_cons_of_ne_of_not_mem (by decide) key, content⟩
      cases (fullRecord_nul line' (List.cons_ne_nil _ _)).symm.trans is
      exact List.mem_cons_self
    rw [undoLines, List.filterMap_cons_some (fullRecord_nul line filled), List.head?_cons,
      Option.bind_some]
    by_cases same : keyStr.content = record.1
    · rw [same, if_pos rfl, List.dlookup_cons_eq]
    · rw [if_neg same]
      exact (List.dlookup_cons_ne _ (⟨record.1, 0 :: record.2⟩ : Record) same).trans rest

/-- What is stored of what is printed of a file: the records of its lines, and perhaps one whose key is no
string. -/
theorem makegdbmNew_undoLines (records : AList fun _ : List Byte => List Byte)
    (fits : ∀ record ∈ records.entries, Fits record) (line : LineBuffer) :
    ∃ (acts : List Act) (stale : Option Record),
      makegdbmNew gdbm line (makegdbmUndo (gdbmReader records)).1 = some acts ∧
      stored acts = stale.toList.foldl keepFirst (fullFile (undoLines records.entries)) ∧
      ∀ record, stale = some record → 0 ∈ record.1 := by
  by_cases none_ : records.entries = []
  · refine ⟨[.close], none, ?_, ?_, fun record is => by cases is⟩
    · have printed : (makegdbmUndo (gdbmReader records)).1 = [] := by
        have keys : (gdbmReader records).keys = records.entries.map Sigma.fst := rfl
        rw [makegdbmUndo, if_neg (by simp [gdbmReader]), if_pos (by rw [keys, none_]; rfl)]
      rw [printed]
      rfl
    · rw [none_]
      rfl
  · have lines := undoLines_fit fits
    have filled : undoLines records.entries ≠ [] := by
      cases shape : records.entries with
      | nil => exact absurd shape none_
      | cons record others => exact List.cons_ne_nil _ _
    rw [makegdbmUndo_records records none_]
    generalize undoLines records.entries = printed at lines filled
    obtain ⟨front, last, rfl⟩ := (List.eq_nil_or_concat' printed).resolve_left filled
    obtain ⟨lastPlain, lastShort, long⟩ := lines last (List.mem_append_right _ List.mem_cons_self)
    obtain ⟨rounds, more⟩ := Nat.exists_eq_add_of_le (Makebdb.length_le_text front)
    have input : (front ++ [last]).flatMap (· ++ [lf]) ++ [0] =
        front.flatMap (· ++ [lf]) ++ (last ++ lf :: [0]) := by simp
    have size : (front.flatMap (· ++ [lf]) ++ (last ++ lf :: [0])).length + 1 =
        front.length + (rounds + last.length + 1 + 1 + 1) := by
      rw [List.length_append, List.length_append, List.length_cons, List.length_singleton, more]
      omega
    obtain ⟨s, run, ready, records₁⟩ := turns_lines
      (fun line member => ⟨(lines line (List.mem_append_left _ member)).1,
        (lines line (List.mem_append_left _ member)).2.1⟩)
      (s := ⟨line, none, false, 0, []⟩) rfl (rounds + last.length + 1 + 1 + 1) (last ++ lf :: [0])
    obtain ⟨s', tail, run', taken⟩ := turns_line lastPlain lastShort ready (rounds + last.length + 1 + 1)
      [0]
    obtain ⟨text, holds, plain, length⟩ := taken.line
    obtain ⟨after, stale, run'', records₂, nul⟩ := turns_nul holds plain (length ▸ long) taken.status
      (rounds + last.length)
    refine ⟨after.acts ++ [.close], stale, ?_, ?_, nul⟩
    · rw [makegdbmNew, if_neg (by decide), input, size, run, run', run'']
      rfl
    · have file : fullFile (front ++ [last]) = stored s'.acts := by
        rw [taken.stored, records₁, fullFile, ← foldl_keepFirst_empty, List.filterMap_append,
          List.foldl_append]
        cases shape : fullRecord last with
        | none => rw [List.filterMap_cons_none shape]; rfl
        | some record => rw [List.filterMap_cons_some shape]; rfl
      rw [stored_append, records₂, file]
      rfl

/-- Of what is printed of a file a map is made in which only the first key is found, with an empty
server. -/
theorem makegdbmNew_undo (records : AList fun _ : List Byte => List Byte)
    (fits : ∀ record ∈ records.entries, Fits record) (line : LineBuffer) :
    ∃ acts, makegdbmNew gdbm line (makegdbmUndo (gdbmReader records)).1 = some acts ∧
      ∀ keyStr, dbserverGet true (stored acts) keyStr =
        if records.keys.head? = some keyStr.content then .entry 0 .empty else .failed (-2) := by
  obtain ⟨acts, stale, made, holds, nul⟩ := makegdbmNew_undoLines records fits line
  refine ⟨acts, made, fun keyStr => ?_⟩
  have found : (stored acts).lookup keyStr.content = records.entries.head?.bind fun record =>
      if keyStr.content = record.1 then some (0 :: record.2) else none := by
    rw [holds, lookup_foldl_keepFirst, dlookup_nul (fun record member =>
      nul record (Option.mem_toList.mp member)), Option.or_none, fullFile,
      Finmap.dlookup_list_toFinmap, dlookup_undoLines fits]
  rw [dbserverGet, if_neg (by decide), found]
  have keys : records.keys.head? = records.entries.head?.map Sigma.fst := List.head?_map
  rw [keys]
  cases records.entries.head? with
  | none => rfl
  | some record =>
    rw [Option.bind_some, Option.map_some]
    by_cases same : keyStr.content = record.1
    · rw [if_pos same, if_pos (congrArg some same.symm)]
      rfl
    · rw [if_neg same, if_neg fun other => same (Option.some.inj other).symm]

/-- What is looked up in the map of a flat file is what its first full line with the key says. -/
theorem dbserverGet_fullFile (lines : List (List Byte)) (keyStr : CString) :
    dbserverGet true (fullFile lines) keyStr =
      ((((lines.filterMap fullRecord).find? fun record => keyStr.content = record.1).map
        fun record => .entry 0 (cstr record.2)).getD (.failed (-2))) := by
  rw [← List.map_dlookup_eq_find, dbserverGet, fullFile, Finmap.dlookup_list_toFinmap,
    if_neg (by decide)]
  cases (lines.filterMap fullRecord).dlookup keyStr.content <;> rfl

end Perdition.Makegdbm
