import Mathlib.Algebra.BigOperators.Group.List.Basic
import Perdition.AcapMemory

/-!
# The blocks of ManageSieve strings

The strings of a ManageSieve message fill the blocks that are allocated for them: the text and its NUL
take every byte.
-/
namespace Perdition

open Lib.Block

/-! ## Counting digits -/

/-- `n_len` counts the digits of a number. -/
theorem nLen_digits (n : Nat) : nLen n = (decimal n).length := by
  induction n using Nat.strong_induction_on with
  | _ n ih =>
    rw [nLen, log_10, decimal, List.length_map]
    split
    · rename_i small
      have below : n < 10 := by omega
      rw [Nat.toDigits_of_lt_base below]
      rfl
    · rename_i large
      have above : 10 ≤ n := by omega
      have before := ih (n / 10) (by omega)
      rw [nLen, decimal, List.length_map] at before
      rw [Nat.toDigits_of_base_le (by decide) above, List.length_append, ← before]
      rfl

theorem noNul_decimal (n : Nat) : 0 ∉ decimal n :=
  fun nul => (digit_plain (isDigit_decimal nul)).1 rfl

/-! ## Stores that fill a block -/

/-- The block of a string with nothing behind its NUL. -/
def filled (text : CString) : List Byte := text.content ++ [0]

theorem filled_length (text : CString) : (filled text).length = text.length + 1 := by
  simp [filled, CString.length]

theorem strlenIn_filled (text : CString) : strlenIn (filled text) = some text.length :=
  findIdx?_string text.noNul []

theorem cstr_filled (text : CString) : cstr (filled text) = text := by
  rw [filled, cstr_nul, cstr_self]

/-- The block begins with a string, and this much room is left behind its NUL. -/
structure Building (block : List Byte) (text : CString) (left : Nat) : Prop where
  /-- What the block begins with. -/
  begins : ∃ rest, block = text.content ++ 0 :: rest ∧ rest.length = left

theorem Building.filled {block : List Byte} {text : CString} (building : Building block text 0) :
    block = filled text := by
  have ⟨rest, same, none_⟩ := building.begins
  rw [same, List.length_eq_zero_iff.mp none_]
  rfl

/-- A string is copied to the start of a block with room for it. -/
theorem strcpy_building {block : List Byte} {str : CString} {left : Nat}
    (size : block.length = str.length + 1 + left) :
    ∃ after, strcpy block str.content = some after ∧ Building after str left := by
  have split_ : block = block.take (str.length + 1) ++ block.drop (str.length + 1) :=
    (List.take_append_drop ..).symm
  have stored : strcpy block str.content =
      some (str.content ++ [0] ++ block.drop (str.length + 1)) := by
    rw [strcpy, split_, storeAll_start _ _ _ (by
      rw [List.length_take, List.length_append, List.length_singleton]
      change min (str.length + 1) _ = str.length + 1
      omega), ← split_]
  refine ⟨_, stored, ⟨block.drop (str.length + 1), by rw [List.append_assoc]; rfl, ?_⟩⟩
  rw [List.length_drop]
  omega

/-- A string is added behind the one in a block with room for it. -/
theorem Building.strcat {block : List Byte} {text str : CString} {left : Nat}
    (building : Building block text (str.length + left)) :
    ∃ after, strcat block str.content = some after ∧ Building after (text ++ str) left := by
  have ⟨rest, same, size⟩ := building.begins
  have room : str.content.length ≤ rest.length := by
    rw [size]
    exact Nat.le_add_right ..
  refine ⟨_, same ▸ strcat_string text.noNul room, ⟨_, rfl, ?_⟩⟩
  rw [List.length_drop, size]
  exact Nat.add_sub_cancel_left ..

/-- A string and its NUL that take all of a block are stored. -/
theorem strcpy_filled (garbage : Nat → Byte) (text : CString) :
    strcpy (malloc garbage (text.length + 1)) text.content = some (filled text) := by
  have ⟨after, stored, building⟩ :=
    @strcpy_building (malloc garbage (text.length + 1)) text 0 (malloc_length ..)
  rw [stored, building.filled]

/-- A block that is made larger has room behind its string. -/
theorem resize_building (garbage : Nat → Byte) (text : CString) (left : Nat) :
    Building (resize garbage (filled text) (text.length + 1 + left)) text left := by
  have room : (filled text).length ≤ text.length + 1 + left := by
    rw [filled_length]
    omega
  have ⟨rest, kept⟩ := resize_keeps garbage [] room
  rw [List.append_nil] at kept
  have length := congrArg List.length kept
  rw [resize_length, List.length_append, filled_length] at length
  exact ⟨rest, by rw [kept, Perdition.filled, List.append_assoc]; rfl, by omega⟩

/-! ## Strings and headers -/

/-- A quoted string fills its block. -/
theorem acapQuotedFromStr_filled (garbage : Nat → Byte) (str : CString) :
    acapQuotedFromStr garbage str = some (filled (lit "\"" ++ str ++ lit "\"")) := by
  have quote : bytes "\"" = (lit "\"").content := by decide
  have one : (lit "\"").length = 1 := by decide
  have ⟨a, opened, building⟩ :=
    @strcpy_building (malloc garbage (1 + str.length + 2)) (lit "\"") (str.length + 1) (by
      rw [malloc_length, one]
      omega)
  have ⟨a, added, building⟩ := building.strcat
  have ⟨a, closed, building⟩ := @Building.strcat a _ (lit "\"") 0 (one ▸ building)
  rw [acapQuotedFromStr, quote, opened, Option.bind_eq_bind, Option.bind_some, added,
    Option.bind_some, closed, building.filled]

/-- The header of a literal fills its block. -/
theorem acapAnyLiteralFromStr_filled (garbage : Nat → Byte) (str extra : CString) :
    acapAnyLiteralFromStr garbage str extra =
      some (filled (cstr (bytes "\x7b" ++ decimal str.length ++ extra.content ++ bytes "\x7d"))) := by
  have noNul : 0 ∉ bytes "\x7b" ++ decimal str.length ++ extra.content ++ bytes "\x7d" := by
    simp only [List.mem_append, not_or]
    exact ⟨⟨⟨by decide, noNul_decimal _⟩, extra.noNul⟩, by decide⟩
  have content := cstr_content noNul
  have size : 1 + nLen str.length + extra.length + 2 =
      (cstr (bytes "\x7b" ++ decimal str.length ++ extra.content ++ bytes "\x7d")).length + 1 := by
    have length := congrArg List.length content
    simp only [List.length_append, ← nLen_digits] at length
    change CString.length _ = 1 + _ + extra.length + 1 at length
    omega
  have stored := strcpy_filled garbage
    (cstr (bytes "\x7b" ++ decimal str.length ++ extra.content ++ bytes "\x7d"))
  rwa [← size, content] at stored

/-- `acap_from_str` fills its block. -/
theorem acapFromStrBlock_filled (garbage : Nat → Byte) (str : CString) (flag : Flag) :
    acapFromStrBlock garbage str flag =
      some (filled (acapFromStr str flag).a, (acapFromStr str flag).b) := by
  unfold acapFromStrBlock acapFromStr
  split
  · rw [acapQuotedFromStr_filled]
    rfl
  · split
    · rw [acapAnyLiteralFromStr_filled]
      rfl
    · rw [acapAnyLiteralFromStr_filled]
      rfl

/-! ## Response codes -/

/-- A fragment is extended by a space and a string, which fill what it is made larger by. -/
theorem extend_filled (garbage : Nat → Byte) (text more : CString) :
    ∃ spaced, strcat (resize garbage (filled text) (text.length + 1 + more.length + 1)) [space] =
        some spaced ∧
      strcat spaced more.content = some (filled (text ++ lit " " ++ more)) := by
  have blank : [space] = (lit " ").content := by decide
  have one : (lit " ").length = 1 := by decide
  have sizes : text.length + 1 + more.length + 1 = text.length + 1 + (1 + more.length) := by omega
  have enlarged : Building (resize garbage (filled text) (text.length + 1 + more.length + 1)) text
      ((lit " ").length + more.length) := by
    rw [one, sizes]
    exact resize_building garbage text (1 + more.length)
  have ⟨spaced, first, building⟩ := enlarged.strcat
  have ⟨after, second, building⟩ := @Building.strcat spaced _ _ 0 building
  exact ⟨spaced, blank ▸ first, building.filled ▸ second⟩

/-- A fragment is closed by a parenthesis, which fills what it is made larger by. -/
theorem close_filled (garbage : Nat → Byte) (text : CString) :
    strcat (resize garbage (filled text) (text.length + 2)) (bytes ")") =
      some (filled (text ++ lit ")")) := by
  have close : bytes ")" = (lit ")").content := by decide
  have one : (lit ")").length = 1 := by decide
  have enlarged : Building (resize garbage (filled text) (text.length + 2)) text
      ((lit ")").length + 0) := by
    rw [one]
    exact resize_building garbage text 1
  have ⟨after, closed, building⟩ := enlarged.strcat
  rw [close, closed, building.filled]

/-- The slots hold the finished fragments and the one being built, and so many are null. -/
structure Slots (fragments : Fragments) (done : List CString) (current : CString) (left : Nat) :
    Prop where
  /-- What the slots point to. -/
  out : fragments.out = done.map (some ∘ filled) ++ some (filled current) :: List.replicate left none
  /-- The place of the last one. -/
  outP : fragments.outP = done.length

section Slots

variable {fragments : Fragments} {done : List CString} {current : CString} {left : Nat}
include fragments done current left

/-- The fragment being built. -/
theorem Slots.get (slots : Slots fragments done current left) :
    fragments.get = some (filled current) := by
  rw [Fragments.get, slots.out, slots.outP, List.getElem?_append_right (by simp)]
  simp

/-- A fragment is stored in its slot. -/
theorem Slots.set (slots : Slots fragments done current left) (text : CString) :
    ∃ after, fragments.set (filled text) = some after ∧ Slots after done text left := by
  have place : (fragments.outP : Int) = ((done.map (some ∘ filled)).length : Int) := by
    rw [slots.outP, List.length_map]
  refine ⟨⟨_, fragments.outP⟩, ?_, ⟨rfl, slots.outP⟩⟩
  rw [Fragments.set, slots.out, place, store_inside]
  rfl

/-- A fragment is finished, and the next one is stored in the slot behind it. -/
theorem Slots.next (slots : Slots fragments done current (left + 1)) (text : CString) :
    ∃ after, { fragments with outP := fragments.outP + 1 }.set (filled text) = some after ∧
      Slots after (done ++ [current]) text left := by
  have place : ((fragments.outP + 1 : Nat) : Int) =
      (((done ++ [current]).map (some ∘ filled)).length : Int) := by
    rw [slots.outP, List.length_map, List.length_append]
    rfl
  have out : fragments.out = (done ++ [current]).map (some ∘ filled) ++
      none :: List.replicate left none := by
    rw [slots.out, List.map_append, List.append_assoc]
    rfl
  refine ⟨⟨_, fragments.outP + 1⟩, ?_, ⟨rfl, by rw [slots.outP, List.length_append]; rfl⟩⟩
  rw [Fragments.set]
  dsimp only
  rw [out, place, store_inside]
  rfl

end Slots

/-- The loop over the arguments fills the blocks of the fragments and leaves a null slot. -/
theorem responseArgs_filled (garbage : Nat → Byte) (flag : Flag) (args : List CString) :
    ∀ {fragments : Fragments} {done : List CString} {current : CString} {left : Nat},
      Slots fragments done current left → args.length < left →
      ∃ after left', responseArgs garbage flag args fragments = some after ∧
        Slots after (done ++ (managesieveResponseArgs flag args current).1)
          (managesieveResponseArgs flag args current).2 left' ∧
        0 < left' ∧ (managesieveResponseArgs flag args current).1.length + left' = left := by
  induction args with
  | nil =>
    intro fragments done current left slots room
    exact ⟨fragments, left, rfl, by rw [managesieveResponseArgs, List.append_nil]; exact slots, room,
      by simp [managesieveResponseArgs]⟩
  | cons arg rest ih =>
    intro fragments done current left slots room
    rw [List.length_cons] at room
    have ⟨spaced, first, second⟩ := extend_filled garbage current (acapFromStr arg flag).a
    have ⟨next, set, slots'⟩ := slots.set (current ++ lit " " ++ (acapFromStr arg flag).a)
    rw [responseArgs, acapFromStrBlock_filled, Option.bind_eq_bind, Option.bind_some]
    simp only [slots.get, strlenIn_filled, cstr_filled, Option.bind_eq_bind, Option.bind_some, first,
      second, set]
    rw [managesieveResponseArgs]
    cases literal : (acapFromStr arg flag).b with
    | none => exact ih slots' (by omega)
    | some body =>
      obtain ⟨left, rfl⟩ : ∃ fewer, left = fewer + 1 := ⟨left - 1, by omega⟩
      have ⟨after, stored, slots''⟩ := slots'.next body
      have ⟨last, left', run, all, some_, count⟩ := ih slots'' (by omega)
      refine ⟨last, left', ?_, ?_, some_, by rw [List.length_cons]; omega⟩
      · dsimp only
        rw [strdup, strcpy_filled, Option.bind_some, stored, Option.bind_some, run]
      · rw [List.append_assoc] at all
        exact all

/-- `managesieve_response_str` fills the blocks of its fragments, and the slot behind them is null. -/
theorem managesieveResponseBlocks_filled (garbage : Nat → Byte) (rc : ManagesieveResponseCode)
    (flag : Flag) :
    ∃ left, managesieveResponseBlocks garbage rc flag =
        some ((managesieveResponseStr rc flag).map (some ∘ filled) ++ List.replicate left none) ∧
      0 < left ∧ (managesieveResponseStr rc flag).length + left = rc.arg.length + 2 := by
  have one : (lit "(").length = 1 := by decide
  have open_ : bytes "(" = (lit "(").content := by decide
  have ⟨a, opened, building⟩ :=
    @strcpy_building (malloc garbage (1 + rc.atom.length + 1)) (lit "(") (rc.atom.length + 0) (by
      rw [malloc_length, one]
      omega)
  have ⟨a', added, building⟩ := building.strcat
  have first : ∃ after, Fragments.set ⟨List.replicate (rc.arg.length + 2) none, 0⟩
      (filled (lit "(" ++ rc.atom)) = some after ∧
      Slots after [] (lit "(" ++ rc.atom) (rc.arg.length + 1) :=
    ⟨⟨_, 0⟩, by rw [Fragments.set, List.replicate_succ]; exact congrArg _ (store_first ..),
      ⟨rfl, rfl⟩⟩
  have ⟨start, set, slots⟩ := first
  have ⟨after, left, run, slots, some_, count⟩ :=
    responseArgs_filled garbage flag rc.arg slots (Nat.lt_succ_self _)
  have ⟨last, set', slots'⟩ := slots.set
    ((managesieveResponseArgs flag rc.arg (lit "(" ++ rc.atom)).2 ++ lit ")")
  refine ⟨left, ?_, some_, ?_⟩
  · rw [managesieveResponseBlocks]
    simp only [Option.bind_eq_bind, Option.bind_some, open_, opened, added, building.filled, set, run,
      slots.get, strlenIn_filled, close_filled, set', slots'.out, managesieveResponseStr]
    simp
  · rw [managesieveResponseStr, List.length_append, List.length_singleton]
    omega

/-! ## Lines -/

/-- The bytes that `managesieve_write_list` counts for its strings. -/
def listSize (strings : List (Option CString)) : Nat :=
  ((strings.filterMap id).map fun str => str.length + 1).sum

theorem listSize_some (str : CString) (rest : List (Option CString)) :
    listSize (some str :: rest) = str.length + 1 + listSize rest := by
  simp [listSize]

theorem writeListLen_size (strings : List (Option CString)) (len : Nat) :
    writeListLen strings len = len + listSize strings := by
  induction strings generalizing len with
  | nil => rfl
  | cons str rest ih =>
    cases str with
    | none => exact ih len
    | some str => rw [writeListLen, ih, listSize_some, Nat.add_assoc]

/-- The strings of a line, with a space between two of them. -/
def joinLine (first : CString) (rest : List CString) : CString :=
  rest.foldl (fun out str => out ++ lit " " ++ str) first

/-- The loop adds the strings that follow the first one. -/
theorem writeListLoop_more (strings : List (Option CString)) :
    ∀ {x : Nat} {text : CString} {out : List Byte}, x ≠ 0 →
      Building out text (listSize strings) →
      writeListLoop strings x out = some (filled (joinLine text (strings.filterMap id))) := by
  induction strings with
  | nil =>
    intro x text out _ building
    rw [writeListLoop, building.filled]
    rfl
  | cons str rest ih =>
    intro x text out some_ building
    cases str with
    | none => exact ih some_ building
    | some str =>
      have blank : [space] = (lit " ").content := by decide
      have one : (lit " ").length = 1 := by decide
      have room : Building out text ((lit " ").length + (str.length + listSize rest)) := by
        rw [listSize_some] at building
        rw [one, ← Nat.add_assoc, Nat.add_comm 1]
        exact building
      have ⟨spaced, first, building⟩ := room.strcat
      have ⟨after, second, building⟩ := building.strcat
      rw [writeListLoop, if_pos some_, blank, first, Option.bind_eq_bind, Option.bind_some]
      dsimp only
      rw [second]
      exact ih (Nat.succ_ne_zero x) building

/-- The loop stores the strings that are not null. -/
theorem writeListLoop_filled (strings : List (Option CString)) :
    ∀ {out : List Byte} {left : Nat}, Building out .empty left → listSize strings = left + 1 →
      writeListLoop strings 0 out = match strings.filterMap id with
        | [] => none
        | first :: rest => some (filled (joinLine first rest)) := by
  induction strings with
  | nil =>
    intro out left _ size
    cases size
  | cons str rest ih =>
    intro out left building size
    cases str with
    | none => exact ih building size
    | some str =>
      rw [listSize_some] at size
      have room : Building out .empty (str.length + listSize rest) := by
        have same : str.length + listSize rest = left := by omega
        rw [same]
        exact building
      have ⟨after, stored, building⟩ := room.strcat
      have whole : CString.empty ++ str = str := CString.ext (List.nil_append _)
      rw [whole] at building
      rw [writeListLoop, if_neg (not_not.mpr rfl), Option.bind_eq_bind, Option.bind_some]
      dsimp only
      rw [stored]
      exact writeListLoop_more rest (Nat.succ_ne_zero 0) building

/-- `managesieve_write_list` fills its block with the line. -/
theorem managesieveWriteListBlock_filled (garbage : Nat → Byte) (strings : List (Option CString)) :
    managesieveWriteListBlock garbage strings = some (match strings.filterMap id with
      | [] => none
      | first :: rest => some (filled (joinLine first rest))) := by
  rw [managesieveWriteListBlock, writeListLen_size, Nat.zero_add]
  cases parts : strings.filterMap id with
  | nil =>
    have none_ : listSize strings = 0 := by rw [listSize, parts]; rfl
    rw [if_pos none_]
    rfl
  | cons first rest =>
    have ⟨left, size⟩ : ∃ left, listSize strings = left + 1 := by
      refine ⟨first.length + (rest.map fun str => str.length + 1).sum, ?_⟩
      rw [listSize, parts, List.map_cons, List.sum_cons, Nat.add_right_comm]
    have ⟨old, more, begins⟩ : ∃ old more, malloc garbage (listSize strings) = old :: more :=
      List.exists_cons_of_length_eq_add_one ((malloc_length ..).trans size)
    have building : Building (0 :: more) .empty left := by
      refine ⟨more, rfl, ?_⟩
      have length := malloc_length garbage (listSize strings)
      rw [begins, List.length_cons, size] at length
      exact Nat.succ.inj length
    have line := writeListLoop_filled strings building size
    rw [parts] at line
    rw [if_neg (by omega), begins, store_first, Option.bind_eq_bind, Option.bind_some, line]
    rfl

/-- The digits of a length are counted rightly, and the strings of a message fill the blocks that are
allocated for them, each with its NUL: a quoted string, the header of a literal, the fragments of a
response code, for which there are slots and one that stays null, and a line. -/
theorem managesieveBlocks_filled (garbage : Nat → Byte) (flag : Flag) :
    (∀ n, nLen n = (decimal n).length) ∧
    (∀ str, acapFromStrBlock garbage str flag =
      some (filled (acapFromStr str flag).a, (acapFromStr str flag).b)) ∧
    (∀ rc, ∃ left, managesieveResponseBlocks garbage rc flag =
        some ((managesieveResponseStr rc flag).map (some ∘ filled) ++ List.replicate left none) ∧
      0 < left ∧ (managesieveResponseStr rc flag).length + left = rc.arg.length + 2) ∧
    ∀ strings, managesieveWriteListBlock garbage strings = some (match strings.filterMap id with
      | [] => none
      | first :: rest => some (filled (joinLine first rest))) := by
  refine ⟨nLen_digits, fun str => ?_, fun rc => ?_, fun strings => ?_⟩
  · exact acapFromStrBlock_filled garbage str flag
  · exact managesieveResponseBlocks_filled garbage rc flag
  · exact managesieveWriteListBlock_filled garbage strings

end Perdition
