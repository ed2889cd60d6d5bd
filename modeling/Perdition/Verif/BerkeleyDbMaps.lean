import Perdition.BerkeleyDb
import Perdition.Lib.Records
import Perdition.Verif.FlatFiles

/-!
# Flat files and Berkeley DB maps

A flat file says a server for each key: the first line with the key counts. The file that `makebdb_new`
makes of it says the same, and so does one that is made of what `makebdb_undo` prints of that.
-/
namespace Perdition.Makebdb

open Lib

/-! ## What a flat file says -/

/-- The record of a line: what stands before and behind its first delimiter. -/
def lineRecord (line : List Byte) : Option Record :=
  if isBlank line then none
  else (line.idxOf? fieldDelimiter).map fun place => ⟨line.take place, line.drop (place + 1)⟩

/-- What lines say. -/
def flatFile (lines : List (List Byte)) : File := (lines.filterMap lineRecord).toFinmap

/-- A record that is one line: its key has no delimiter, and there is no newline. -/
def IsLine (record : Record) : Prop :=
  fieldDelimiter ∉ record.1 ∧ lf ∉ record.1 ∧ lf ∉ record.2

/-- The line of a record. -/
def recordLine (record : Record) : List Byte := record.1 ++ fieldDelimiter :: record.2

theorem undoRecord_eq (record : Record) : undoRecord record = recordLine record ++ [lf] := by
  simp [undoRecord, recordLine]

/-- The line of a record has its record. -/
theorem lineRecord_recordLine {record : Record} (line : IsLine record) :
    lineRecord (recordLine record) = some record := by
  have filled : isBlank (recordLine record) = false := by
    rw [isBlank, List.all_eq_false]
    exact ⟨fieldDelimiter, by simp [recordLine], by decide⟩
  rw [lineRecord, filled, recordLine, idxOf?_first line.1]
  simp

/-- The record of a line is one line. -/
theorem isLine_of_lineRecord {line : List Byte} {record : Record} (plain : lf ∉ line)
    (is : lineRecord line = some record) :
    IsLine record ∧ recordLine record = line := by
  unfold lineRecord at is
  split at is
  · cases is
  · obtain ⟨place, first, rfl⟩ := Option.map_eq_some_iff.mp is
    by_cases delimited : fieldDelimiter ∈ line
    · obtain ⟨key, content, rfl, before⟩ := List.eq_append_cons_of_mem delimited
      obtain rfl := Option.some.inj ((idxOf?_first before content).symm.trans first)
      rw [List.mem_append, List.mem_cons, not_or, not_or] at plain
      have behind : (key ++ fieldDelimiter :: content).drop (key.length + 1) = content := by simp
      rw [List.take_left, behind]
      exact ⟨⟨before, plain.1, plain.2.2⟩, rfl⟩
    · cases (List.idxOf?_eq_none_iff.mpr delimited).symm.trans first

/-! ## Making a file -/

/-- What is stored after one more act. -/
theorem stored_append (acts more : List Act) :
    stored (acts ++ more) = (more.filterMap Act.stores).foldl
      (fun file record => file.insert record.1 record.2) (stored acts) := by
  rw [stored, List.filterMap_append, List.foldl_append]
  rfl

/-- A line stores its record unless there is one with its key. -/
theorem stored_lineActs (strerror : Int → List Byte) (before : List Act) (number : Nat)
    (line : List Byte) :
    stored (before ++ lineActs (berkeleyDb strerror) before number line) =
      (lineRecord line).toList.foldl keepFirst (stored before) := by
  rw [stored_append, lineActs, lineRecord]
  by_cases blank : isBlank line = true
  · rw [if_pos blank, if_pos blank]
    rfl
  · rw [if_neg blank, if_neg blank]
    cases line.idxOf? fieldDelimiter with
    | none => rfl
    | some place =>
      dsimp only [berkeleyDb, Option.map_some, Option.toList_some, List.foldl_cons, List.foldl_nil]
      by_cases is : line.take place ∈ stored before
      · rw [if_pos is, keepFirst_mem is]
        rfl
      · rw [if_neg is, keepFirst_notMem is]
        rfl

/-- Lines store their records. -/
theorem stored_linesActs (strerror : Int → List Byte) (lines : List (List Byte))
    (before : List Act) (number : Nat) :
    stored (linesActs (berkeleyDb strerror) before number lines) =
      (lines.filterMap lineRecord).foldl keepFirst (stored before) := by
  induction lines generalizing before number with
  | nil => rfl
  | cons line lines ih =>
    rw [linesActs, ih, stored_lineActs]
    cases shape : lineRecord line with
    | none => rw [List.filterMap_cons_none shape]; rfl
    | some record => rw [List.filterMap_cons_some shape]; rfl

/-- There is a byte for each line. -/
theorem length_le_text (lines : List (List Byte)) :
    lines.length ≤ (lines.flatMap (· ++ [lf])).length := by
  induction lines with
  | nil => exact Nat.le_refl _
  | cons line lines ih =>
    rw [List.flatMap_cons, List.length_append, List.length_append, List.length_cons,
      List.length_singleton]
    omega

/-- Of lines that fit, `makebdb_new` makes the file they say. -/
theorem makebdbNew_flatFile (strerror : Int → List Byte) (line : LineBuffer)
    {lines : List (List Byte)}
    (fit : ∀ line ∈ lines, lf ∉ line ∧ line.length + 1 < maxLineLength) :
    ∃ acts, makebdbNew (berkeleyDb strerror) line (lines.flatMap (· ++ [lf])) = some acts ∧
      stored acts = flatFile lines := by
  obtain ⟨states, run, _, acts⟩ := turns_taken (berkeleyDb strerror) fit (s := State.start line) rfl
    (Nat.lt_succ_of_le (length_le_text lines))
  refine ⟨(states.getLastD (State.start line)).acts ++ [.close], ?_, ?_⟩
  · rw [makebdbNew, if_neg (show ¬ (berkeleyDb strerror).create ≠ 0 from not_not_intro rfl),
      if_neg (show ¬ (berkeleyDb strerror).opened ≠ 0 from not_not_intro rfl)]
    dsimp only [bind, Option.bind]
    rw [run]
    rfl
  · rw [stored_append, acts, stored_linesActs]
    exact foldl_keepFirst_empty _

/-! ## Looking a key up -/

/-- What is looked up in the map of a flat file is what its first line with the key says. -/
theorem dbserverGet_flatFile (lines : List (List Byte)) (keyStr : CString) :
    dbserverGet 0 0 (flatFile lines) keyStr =
      ((((lines.filterMap lineRecord).find? fun record => keyStr.content = record.1).map
        fun record => .entry 0 (cstr record.2)).getD (.failed (-2))) := by
  rw [← List.map_dlookup_eq_find, dbserverGet, flatFile, Finmap.dlookup_list_toFinmap]
  cases (lines.filterMap lineRecord).dlookup keyStr.content <;> rfl

/-! ## Printing a file and making it again -/

/-- The file that is made of what is printed of lines' records has the same records. -/
theorem flatFile_recordLines {records : List Record} (lines : ∀ record ∈ records, IsLine record) :
    flatFile (records.map recordLine) = records.toFinmap := by
  rw [flatFile, List.filterMap_map]
  congr 1
  induction records with
  | nil => rfl
  | cons record records ih =>
    obtain ⟨first, others⟩ := List.forall_mem_cons.mp lines
    have shape : (lineRecord ∘ recordLine) record = some record := lineRecord_recordLine first
    rw [List.filterMap_cons_some shape, ih others]

/-- What is printed of records are their lines. -/
theorem makebdbUndo_records (records : AList fun _ : List Byte => List Byte)
    (strerror : Int → List Byte) :
    (makebdbUndo (berkeleyCursor records strerror)).1 =
      (records.entries.map recordLine).flatMap (· ++ [lf]) := by
  rw [List.flatMap_map]
  exact List.flatMap_congr fun record _ => undoRecord_eq record

/-- A text has one way to be lines. -/
theorem lines_unique {left right : List (List Byte)} (plain : ∀ line ∈ left, lf ∉ line)
    (plain' : ∀ line ∈ right, lf ∉ line)
    (same : left.flatMap (· ++ [lf]) = right.flatMap (· ++ [lf])) : left = right := by
  induction left generalizing right with
  | nil =>
    cases right with
    | nil => rfl
    | cons line right => simp at same
  | cons line left ih =>
    cases right with
    | nil => simp at same
    | cons line' right =>
      obtain ⟨clean, others⟩ := List.forall_mem_cons.mp plain
      obtain ⟨clean', others'⟩ := List.forall_mem_cons.mp plain'
      simp only [List.flatMap_cons, List.append_assoc, List.singleton_append] at same
      obtain ⟨front, back⟩ := first_unique clean clean' same
      rw [front, ih others others' back]

/-- What a record of lines is. -/
theorem isLine_of_flatFile {lines : List (List Byte)} (plain : ∀ line ∈ lines, lf ∉ line)
    {key content : List Byte} (found : (flatFile lines).lookup key = some content) :
    IsLine ⟨key, content⟩ ∧ recordLine ⟨key, content⟩ ∈ lines := by
  obtain ⟨line, member, is⟩ := List.mem_filterMap.mp (mem_of_lookup_toFinmap found)
  obtain ⟨isLine, same⟩ := isLine_of_lineRecord (plain line member) is
  exact ⟨isLine, same ▸ member⟩

/-- A record of a file is found in it. -/
theorem lookup_entry {records : AList fun _ : List Byte => List Byte} {record : Record}
    (member : record ∈ records.entries) :
    records.toFinmap.lookup record.1 = some record.2 := by
  rw [← toFinmap_entries, Finmap.dlookup_list_toFinmap]
  exact Option.mem_def.mp (List.mem_dlookup records.nodupKeys member)

end Perdition.Makebdb
