import Perdition.Memory
import Perdition.Lib.Pieces
import Perdition.Verif.Words
import Perdition.World

/-!
# Strings built by hand stay in their blocks

What each loop leaves in the block it fills: the text so far at the start, and room for the rest
behind it. The string of a queue fits unless the queue is empty; a list of capabilities fits while
its delimiters can be counted by an `int`.
-/
namespace Perdition

open Lib Lib.Block

/-! ## The string of a queue -/

/-- The text that the second loop of `queue_to_string` writes. -/
def queueText (q : Queue) : List Byte := q.flatMap fun t => strncpyBytes t.buf ++ [space]

@[simp] theorem strncpyBytes_length (content : List Byte) :
    (strncpyBytes content).length = content.length := by
  have short := (List.takeWhile_prefix (p := (· != (0 : Byte))) (l := content)).length_le
  simp only [strncpyBytes, List.length_append, List.length_replicate]
  omega

theorem queueText_cons (t : Token) (q : Queue) :
    queueText (t :: q) = strncpyBytes t.buf ++ [space] ++ queueText q := rfl

/-- The first loop counts the text of the second. -/
theorem queueLength_text (q : Queue) : queueLength q = (queueText q).length := by
  have counted : ∀ (q : Queue) (length : Nat),
      q.foldl (fun length t => length + (1 + t.len)) length = length + (queueText q).length := by
    intro q
    induction q with
    | nil => exact fun length => rfl
    | cons t q ih =>
      intro length
      have size : t.len = t.buf.length := rfl
      rw [List.foldl_cons, ih, queueText_cons]
      simp only [List.length_append, strncpyBytes_length, List.length_singleton]
      omega
  exact (counted q 0).trans (Nat.zero_add _)

/-- A token is written behind the text so far, where there is room for it. -/
theorem putToken_fits (front old back : List Byte) (t : Token)
    (room : old.length = t.len + 1) :
    putToken (front ++ old ++ back, front.length) t =
      some (front ++ (strncpyBytes t.buf ++ [space]) ++ back,
        ((front ++ (strncpyBytes t.buf ++ [space])).length : Int)) := by
  have size : t.len = t.buf.length := rfl
  have ⟨body, last, same⟩ : ∃ body last, old = body ++ [last] ∧ body.length = t.len := by
    have some_ : old ≠ [] := by
      rintro rfl
      cases room
    exact ⟨old.dropLast, old.getLast some_, (List.dropLast_append_getLast some_).symm, by
      rw [List.length_dropLast, room, Nat.add_sub_cancel]⟩
  rw [same.1]
  have copied : storeAll (front ++ (body ++ [last]) ++ back) front.length (strncpyBytes t.buf) =
      some (front ++ strncpyBytes t.buf ++ last :: back) := by
    have stored := storeAll_inside front body (last :: back) (strncpyBytes t.buf)
      (by rw [strncpyBytes_length, same.2, size])
    simpa using stored
  have ended : store (front ++ strncpyBytes t.buf ++ last :: back)
      ((front ++ strncpyBytes t.buf).length : Int) space =
      some (front ++ strncpyBytes t.buf ++ space :: back) :=
    store_inside _ _ _ _
  have place : ((front ++ strncpyBytes t.buf).length : Int) = front.length + t.len := by
    rw [List.length_append, strncpyBytes_length, size]
    omega
  rw [putToken]
  by_cases bytes_ : t.len > 0
  · rw [if_pos bytes_, copied]
    simp only [Option.map_some, Option.bind_eq_bind, Option.bind_some]
    rw [← place, ended]
    simp [Int.add_assoc]
  · have none_ : t.buf = [] := List.length_eq_zero_iff.mp (by omega)
    have empty_ : body = [] := List.length_eq_zero_iff.mp (by omega)
    have stored := store_inside front back last space
    rw [if_neg bytes_, empty_]
    simp only [Option.bind_eq_bind, Option.bind_some, List.nil_append, List.append_assoc,
      List.cons_append]
    rw [stored]
    simp [none_, strncpyBytes]

/-- The tokens are written behind the text so far, where there is room for them. -/
theorem putTokens_fits (q : Queue) (front old : List Byte)
    (room : old.length = (queueText q).length) :
    q.foldlM putToken (front ++ old, (front.length : Int)) =
      some (front ++ queueText q, ((front ++ queueText q).length : Int)) := by
  induction q generalizing front old with
  | nil =>
    have empty_ : old = [] := List.length_eq_zero_iff.mp room
    rw [empty_, show queueText [] = [] from rfl, List.append_nil]
    rfl
  | cons t q ih =>
    have size : t.len = t.buf.length := rfl
    rw [queueText_cons, List.length_append, List.length_append, strncpyBytes_length,
      List.length_singleton] at room
    have first := putToken_fits front (old.take (t.len + 1)) (old.drop (t.len + 1)) t
      (by rw [List.length_take]; omega)
    rw [List.append_assoc, List.take_append_drop] at first
    rw [List.foldlM_cons, first, Option.bind_eq_bind, Option.bind_some,
      ih _ _ (by rw [List.length_drop]; omega), queueText_cons, List.append_assoc]

/-- The text of a queue that is not empty ends with a space. -/
theorem queueText_last {q : Queue} (filled : q ≠ []) :
    queueText q = (queueText q).dropLast ++ [space] := by
  have some_ : queueText q ≠ [] := by
    cases q with
    | nil => exact absurd rfl filled
    | cons t q => simp [queueText_cons]
  have ends : (queueText q).getLast some_ = space := by
    have last : (queueText q).getLast? = some space := by
      rw [← List.dropLast_append_getLast filled, queueText, List.flatMap_append]
      simp
    rw [List.getLast?_eq_some_getLast some_] at last
    exact Option.some.inj last
  have split := (List.dropLast_append_getLast some_).symm
  rwa [ends] at split

/-- The block of a queue: the text with its last space replaced by the NUL. -/
theorem queueToStringBlock_eq (garbage : Nat → Byte) (q : Queue) :
    queueToStringBlock garbage q =
      if q = [] then none else some ((queueText q).dropLast ++ [0]) := by
  have filled := putTokens_fits q [] (malloc garbage (queueLength q))
    (by rw [malloc_length, queueLength_text])
  have run : queueToStringBlock garbage q = store (queueText q) ((queueText q).length - 1) 0 := by
    rw [queueToStringBlock]
    exact (congrArg (Option.bind · _) filled).trans rfl
  rw [run]
  split
  · rename_i empty_
    rw [empty_]
    rfl
  · rename_i tokens
    have last := queueText_last tokens
    have place : ((queueText q).length : Int) - 1 = (queueText q).dropLast.length := by
      have size := congrArg List.length last
      rw [List.length_append, List.length_singleton] at size
      omega
    rw [place]
    calc store (queueText q) ((queueText q).dropLast.length : Int) 0
        = store ((queueText q).dropLast ++ space :: []) ((queueText q).dropLast.length : Int) 0 :=
          congrArg (store · _ 0) last
      _ = some ((queueText q).dropLast ++ [0]) := store_inside _ _ _ _

/-- The string in the block is the string of the queue. -/
theorem queueToStringBlock_string (garbage : Nat → Byte) (q : Queue) :
    (queueToStringBlock garbage q).map cstr = queueToString q := by
  rw [queueToStringBlock_eq]
  cases q with
  | nil => rfl
  | cons t q =>
    rw [if_neg (List.cons_ne_nil t q), Option.map_some, cstr_nul, queueToString]
    · rfl
    · exact List.cons_ne_nil t q

/-- The string of a queue is stored in its block and ended there exactly if the queue has a token. -/
theorem queueToStringBlock_iff (garbage : Nat → Byte) (q : Queue) :
    (∃ block, queueToStringBlock garbage q = some block ∧ block.length = queueLength q ∧
      0 ∈ block) ↔ q ≠ [] := by
  rw [queueToStringBlock_eq]
  constructor
  · rintro ⟨block, stored, _⟩ empty_
    rw [if_pos empty_] at stored
    cases stored
  · intro tokens
    rw [if_neg tokens]
    have size := congrArg List.length (queueText_last tokens)
    refine ⟨_, rfl, ?_, by simp⟩
    rw [queueLength_text, size, List.length_append, List.length_append]
    rfl

/-- A real server that greets with `+OK` alone. -/
def bareGreeting (reads : List (List Byte)) : Channel :=
  ⟨⟨⟨.server, 0, 0⟩, .fd, reads, [], []⟩, [], ⟨.server, 0, 0⟩, []⟩

/-- The rest of its greeting is a queue of no tokens, for which there is no room. -/
theorem queueToStringBlock_bare : ∃ q ch,
    Program.run Channel.step 16 (readLine none tokenPop3 0)
      (bareGreeting [bytes "+OK\r\n"]) = .done (some (q, [])) ch ∧
    ¬ ∃ block, queueToStringBlock (fun _ => 0) q.tail = some block ∧
      block.length = queueLength q.tail ∧ 0 ∈ block := by
  have read : Program.run Channel.step 16 (readLine none tokenPop3 0)
      (bareGreeting [bytes "+OK\r\n"]) =
      .done (some ([⟨bytes "+OK", tokenEol⟩], [])) (bareGreeting []) := by decide +kernel
  have outside : queueToStringBlock (fun _ => 0) [] = none := queueToStringBlock_eq _ _
  refine ⟨_, _, read, ?_⟩
  rintro ⟨block, stored, _⟩
  exact absurd (outside.symm.trans stored) (by simp)


/-! ## Lists of capabilities -/

/-- Bytes are added behind the string in a block of zeros, where there is room for them and a NUL. -/
theorem strncat_fits {written src : List Byte} (noNul : 0 ∉ written) {n left : Nat} :
    strncat (written ++ List.replicate ((src.take n).length + left + 1) 0) src n =
      some (written ++ src.take n ++ List.replicate (left + 1) 0) := by
  rw [List.replicate_succ, strncat_string noNul (by rw [List.length_replicate]; omega),
    List.drop_replicate, Nat.add_sub_cancel_left, ← List.replicate_succ]

theorem strcat_fits {written src : List Byte} (noNul : 0 ∉ written) {left : Nat} :
    strcat (written ++ List.replicate (src.length + left + 1) 0) src =
      some (written ++ src ++ List.replicate (left + 1) 0) := by
  have added := @strncat_fits written src noNul src.length left
  rwa [List.take_length] at added

/-- The first loop counts the delimiters, while an `int` can. -/
theorem countDelimiters_cut {delimiter text : List Byte} {pieces : List (List Byte)}
    (filled : delimiter ≠ []) (cut : Cut delimiter text pieces) :
    ∀ {rounds count : Nat}, text.length < rounds → count ≤ intMax →
      countDelimiters delimiter rounds text count =
        if count + pieces.length ≤ intMax + 1 then some (count + pieces.length - 1) else none := by
  have long := List.length_pos_iff.mpr filled
  induction cut with
  | last absent =>
    intro rounds count enough small
    cases rounds with
    | zero => cases enough
    | succ rounds =>
      rw [countDelimiters, strstr_absent.mpr absent, if_pos]
      · rfl
      · simpa using small
  | @next first rest pieces leftmost later ih =>
    intro rounds count enough small
    have some_ := List.length_pos_iff.mpr later.ne_nil
    rw [List.length_append, List.length_append] at enough
    cases rounds with
    | zero => cases enough
    | succ rounds =>
      have passed : (first ++ delimiter ++ rest).drop (first.length + delimiter.length) = rest := by
        rw [← List.length_append, List.drop_left]
      simp only [countDelimiters, strstr_leftmost leftmost, passed, List.length_cons]
      by_cases more : count < intMax
      · rw [if_pos more, ih (by omega) (by omega)]
        congr 1 <;> simp only [eq_iff_iff, Option.some.injEq] <;> omega
      · rw [if_neg more, if_neg (by omega)]

/-- The length of a text whose pieces are joined by another separator. -/
theorem length_join {sep : List Byte} {pieces : List (List Byte)} (some_ : pieces ≠ []) :
    (List.intercalate sep pieces).length + sep.length =
      (pieces.map List.length).sum + pieces.length * sep.length := by
  induction pieces with
  | nil => exact absurd rfl some_
  | cons first rest ih =>
    cases rest with
    | nil => simp
    | cons second rest =>
      have later := ih (List.cons_ne_nil _ _)
      rw [List.intercalate_cons_of_ne_nil (List.cons_ne_nil _ _), List.map_cons, List.sum_cons,
        List.length_append, List.length_append, List.length_cons (a := first), Nat.add_mul]
      omega

/-- The pieces become lines. -/
theorem mangleCapability_cut {delimiter text : List Byte} {pieces : List (List Byte)}
    (filled : delimiter ≠ []) (cut : Cut delimiter text pieces) :
    ∀ {rounds : Nat}, text.length < rounds →
      mangleCapability delimiter rounds text = List.intercalate crlf pieces := by
  have long := List.length_pos_iff.mpr filled
  induction cut with
  | last absent =>
    intro rounds enough
    cases rounds with
    | zero => cases enough
    | succ rounds => rw [mangleCapability, strstr_absent.mpr absent, List.intercalate_singleton]
  | @next first rest pieces leftmost later ih =>
    intro rounds enough
    rw [List.length_append, List.length_append] at enough
    cases rounds with
    | zero => cases enough
    | succ rounds =>
      have front : (first ++ delimiter ++ rest).take first.length = first := by
        rw [List.append_assoc, List.take_left]
      have passed : (first ++ delimiter ++ rest).drop (first.length + delimiter.length) = rest := by
        rw [← List.length_append, List.drop_left]
      have lines := @List.intercalate_cons_of_ne_nil _ crlf first pieces later.ne_nil
      simp only [mangleCapability, strstr_leftmost leftmost, front, passed]
      rw [ih (by omega), lines]

section Lists

variable {capability : TextAt} {delimiter : CString} {pieces : List (List Byte)}

/-- The length that is allocated is the length of the lines and the tail, while the delimiters can
be counted. -/
theorem mangleLength_cut (filled : delimiter.content ≠ [])
    (cut : Cut delimiter.content capability.text.content pieces) (tail : CString) :
    mangleLength capability.text delimiter tail =
      if pieces.length ≤ intMax + 1 then
        some (UInt64.ofNat ((List.intercalate crlf pieces).length + tail.length))
      else none := by
  have counted := countDelimiters_cut filled cut (Nat.lt_succ_self _) (Nat.zero_le intMax)
  rw [Nat.zero_add] at counted
  have some_ := cut.ne_nil
  have old := @length_join delimiter.content pieces some_
  have new := @length_join crlf pieces some_
  rw [cut.join] at old
  have ⟨count, more⟩ : ∃ count, pieces.length = count + 1 :=
    ⟨pieces.length - 1, by have := List.length_pos_iff.mpr some_; omega⟩
  rw [more, Nat.add_mul, Nat.one_mul] at old new
  have text : capability.text.length =
      (pieces.map List.length).sum + count * delimiter.length := by
    change capability.text.content.length = _ + count * delimiter.content.length
    omega
  have lines : (List.intercalate crlf pieces).length =
      (pieces.map List.length).sum + count * crlf.length := by omega
  have run : mangleLength capability.text delimiter tail =
      (countDelimiters delimiter.content (capability.text.length + 1) capability.text.content
        0).map fun count => UInt64.ofNat capability.text.length -
          UInt64.ofNat count * UInt64.ofNat delimiter.length +
          UInt64.ofNat count * UInt64.ofNat crlf.length + UInt64.ofNat tail.length := by
    rw [mangleLength, Option.map_eq_bind]
    rfl
  rw [run]
  refine (congrArg _ counted).trans ?_
  split
  · rw [Option.map_some, more, Nat.add_sub_cancel, text, lines]
    simp only [UInt64.ofNat_add, UInt64.ofNat_mul, UInt64.add_sub_cancel]
  · rfl

/-- The second loop writes the pieces as lines behind the text so far. -/
theorem manglePieces_cut {text : List Byte} (filled : delimiter.content ≠ [])
    (cut : Cut delimiter.content text pieces) :
    ∀ {rounds start : Nat} {written : List Byte} {left : Nat},
      capability.text.content.drop start = text → start ≤ capability.text.length →
      text.length < rounds → 0 ∉ written →
      manglePieces delimiter.content capability rounds start
          (written ++ List.replicate ((List.intercalate crlf pieces).length + left + 1) 0) =
        some (written ++ List.intercalate crlf pieces ++ List.replicate (left + 1) 0) := by
  have long := List.length_pos_iff.mpr filled
  induction cut with
  | @last text absent =>
    intro rounds start written left here inside enough noNul
    have whole : text.take (2 ^ 64 - (capability.address + start)) = text := by
      have fits := capability.fits
      have size := congrArg List.length here
      rw [List.length_drop] at size
      change capability.text.length - start = text.length at size
      exact List.take_of_length_le (by omega)
    cases rounds with
    | zero => cases enough
    | succ rounds =>
      have added := @strncat_fits written text noNul
        (2 ^ 64 - (capability.address + start)) left
      rw [whole] at added
      simp only [manglePieces, here, strstr_absent.mpr absent, List.intercalate_singleton]
      exact added
  | @next first rest pieces leftmost later ih =>
    intro rounds start written left here inside enough noNul
    have size := congrArg List.length here
    rw [List.length_drop, List.length_append, List.length_append] at size
    change capability.text.length - start = _ at size
    rw [List.length_append, List.length_append] at enough
    have clean : 0 ∉ first := fun nul => capability.text.noNul
      (List.mem_of_mem_drop (here ▸ List.mem_append_left _ (List.mem_append_left _ nul)))
    cases rounds with
    | zero => cases enough
    | succ rounds =>
      have front : (first ++ delimiter.content ++ rest).take first.length = first := by
        rw [List.append_assoc, List.take_left]
      have there : capability.text.content.drop
          (start + first.length + delimiter.content.length) = rest := by
        rw [Nat.add_assoc, ← List.drop_drop, here, ← List.length_append, List.drop_left]
      have lines := @List.intercalate_cons_of_ne_nil _ crlf first pieces later.ne_nil
      have sizes : (List.intercalate crlf (first :: pieces)).length + left + 1 =
          first.length + (crlf.length + (List.intercalate crlf pieces).length + left) + 1 := by
        rw [lines, List.length_append, List.length_append]
        omega
      have piece := @strncat_fits written (first ++ delimiter.content ++ rest) noNul first.length
        (crlf.length + (List.intercalate crlf pieces).length + left)
      rw [front] at piece
      have line := @strcat_fits (written ++ first) crlf (by simp [noNul, clean])
        ((List.intercalate crlf pieces).length + left)
      have next := @ih rounds (start + first.length + delimiter.content.length)
        (written ++ first ++ crlf) left there (by omega) (by omega) (by
          have plain : (0 : Byte) ∉ crlf := by decide
          simp [noNul, clean, plain])
      rw [← Nat.add_assoc] at line
      simp only [manglePieces, here, strstr_leftmost leftmost, sizes, piece, line,
        Option.bind_eq_bind, Option.bind_some]
      rw [next, lines]
      simp

/-- The lines are not much longer than the list, while the delimiters can be counted. -/
theorem lines_short (cut : Cut delimiter.content capability.text.content pieces)
    (few : pieces.length ≤ intMax + 1) :
    (List.intercalate crlf pieces).length < 2 ^ 63 + 2 ^ 32 := by
  have some_ := cut.ne_nil
  have old := @length_join delimiter.content pieces some_
  have new := @length_join crlf pieces some_
  have one := Nat.le_mul_of_pos_left delimiter.content.length (List.length_pos_iff.mpr some_)
  have two : crlf.length = 2 := rfl
  have small := capability.small
  change capability.text.content.length < _ at small
  rw [cut.join] at old
  rw [two] at new
  rw [intMax] at few
  omega

/-- The block after the second loop holds the lines and room for the tail. -/
theorem mangleBlock_cut (filled : delimiter.content ≠ [])
    (cut : Cut delimiter.content capability.text.content pieces) {tail : CString}
    (short : tail.length < 2 ^ 32) :
    mangleBlock capability delimiter tail =
      if pieces.length ≤ intMax + 1 then
        some (List.intercalate crlf pieces ++ List.replicate (tail.length + 1) 0)
      else none := by
  rw [mangleBlock, mangleLength_cut filled cut]
  split
  · rename_i few
    have brief := lines_short cut few
    have lines : (List.intercalate crlf pieces).length + tail.length + 1 < 2 ^ 64 := by omega
    have fits : (UInt64.ofNat ((List.intercalate crlf pieces).length + tail.length) + 1).toNat =
        (List.intercalate crlf pieces).length + tail.length + 1 := by
      rw [UInt64.toNat_add, UInt64.toNat_ofNat', UInt64.toNat_one,
        Nat.mod_eq_of_lt (Nat.lt_of_succ_lt lines), Nat.mod_eq_of_lt lines]
    have written := @manglePieces_cut capability delimiter pieces _ filled cut
      (capability.text.length + 1) 0 [] tail.length List.drop_zero (Nat.zero_le _)
      (Nat.lt_succ_self _) List.not_mem_nil
    rw [Option.bind_eq_bind, Option.bind_some, fits]
    exact written
  · rfl

end Lists

/-- A block holds this text and nothing more than its NUL, and the text is as long as was counted. -/
structure Holds (block : List Byte) (counted : UInt64) (text : List Byte) : Prop where
  /-- The block has room for what was counted and a NUL. -/
  size : block.length = counted.toNat + 1
  /-- The string in the block is the text. -/
  string : (cstr block).content = text
  /-- Its length is what was counted. -/
  length : text.length = counted.toNat

/-- `pop3_in_mangle_capability` returns these pieces as lines, with the line that ends the list. -/
def Pop3Mangled (capability : TextAt) (delimiter : CString) (pieces : List (List Byte)) : Prop :=
  ∃ block counted, mangleLength capability.text delimiter (lit "\r\n.\r\n") = some counted ∧
    pop3InMangleBlock capability delimiter = some block ∧
    Holds block counted (List.intercalate crlf pieces ++ crlf ++ bytes "." ++ crlf)

/-- `managesieve_mangle_capability` returns these pieces as lines. -/
def ManagesieveMangled (capability : TextAt) (pieces : List (List Byte)) : Prop :=
  ∃ block counted, mangleLength capability.text managesieveCapaDelimiter .empty = some counted ∧
    managesieveMangleBlock capability = some block ∧
    Holds block counted (List.intercalate crlf pieces)

section Mangled

variable {capability : TextAt} {delimiter : CString} {pieces : List (List Byte)}

/-- The lines of a list have no NUL. -/
theorem noNul_lines (cut : Cut delimiter.content capability.text.content pieces) :
    0 ∉ List.intercalate crlf pieces := by
  have plain : (0 : Byte) ∉ crlf := by decide
  have clean : ∀ {text : List Byte} {pieces : List (List Byte)}, Cut delimiter.content text pieces →
      0 ∉ text → 0 ∉ List.intercalate crlf pieces := by
    intro text pieces cut
    induction cut with
    | last absent => simp
    | next leftmost later ih =>
      intro noNul
      simp only [List.mem_append, not_or] at noNul
      rw [List.intercalate_cons_of_ne_nil later.ne_nil]
      simp [noNul, ih noNul.2, plain]
  exact clean cut capability.text.noNul

/-- A block of this text and a NUL holds it. -/
theorem Holds.of_text {text : List Byte} (noNul : 0 ∉ text) (fits : text.length < 2 ^ 64) :
    Holds (text ++ [0]) (UInt64.ofNat text.length) text := by
  have counted : (UInt64.ofNat text.length).toNat = text.length := by
    rw [UInt64.toNat_ofNat', Nat.mod_eq_of_lt fits]
  exact ⟨by rw [counted]; simp, by rw [cstr_nul, cstr_content noNul], counted.symm⟩

/-- The list becomes lines and the line that ends it exactly while an `int` can count the delimiters. -/
theorem pop3Mangled_iff (filled : delimiter.content ≠ [])
    (cut : Cut delimiter.content capability.text.content pieces) :
    Pop3Mangled capability delimiter pieces ↔ pieces.length ≤ 2 ^ 31 := by
  have limit : intMax + 1 = 2 ^ 31 := rfl
  have tail : (lit "\r\n.\r\n").content = crlf ++ bytes "." ++ crlf := by decide
  have short : (lit "\r\n.\r\n").length < 2 ^ 32 := by decide
  have counted := mangleLength_cut filled cut (lit "\r\n.\r\n")
  have written := mangleBlock_cut filled cut short
  rw [limit] at counted written
  constructor
  · rintro ⟨block, count, some_, _⟩
    by_contra many
    rw [counted, if_neg many] at some_
    cases some_
  · intro few
    have brief := lines_short cut few
    have clean := noNul_lines cut
    rw [if_pos few] at counted written
    have ended := @strcat_fits _ (lit "\r\n.\r\n").content clean 0
    have room : (lit "\r\n.\r\n").content.length + 0 + 1 = (lit "\r\n.\r\n").length + 1 := rfl
    rw [room] at ended
    have whole := @Holds.of_text (List.intercalate crlf pieces ++ (lit "\r\n.\r\n").content)
      (by
        simp only [List.mem_append, not_or]
        exact ⟨clean, (lit "\r\n.\r\n").noNul⟩)
      (by
        rw [List.length_append]
        change _ + (lit "\r\n.\r\n").length < _
        omega)
    have stored : pop3InMangleBlock capability delimiter = some
        (List.intercalate crlf pieces ++ (lit "\r\n.\r\n").content ++ [0]) := by
      rw [pop3InMangleBlock, written]
      exact ended
    have text : List.intercalate crlf pieces ++ crlf ++ bytes "." ++ crlf =
        List.intercalate crlf pieces ++ (lit "\r\n.\r\n").content := by
      rw [tail]
      simp only [List.append_assoc]
    rw [List.length_append] at whole
    exact ⟨_, _, counted, stored, text ▸ whole⟩

/-- The list becomes lines exactly while an `int` can count the delimiters. -/
theorem managesieveMangled_iff
    (cut : Cut managesieveCapaDelimiter.content capability.text.content pieces) :
    ManagesieveMangled capability pieces ↔ pieces.length ≤ 2 ^ 31 := by
  have limit : intMax + 1 = 2 ^ 31 := rfl
  have filled : managesieveCapaDelimiter.content ≠ [] := by decide
  have counted := mangleLength_cut filled cut .empty
  have written := mangleBlock_cut filled cut (show CString.empty.length < 2 ^ 32 by decide)
  rw [limit] at counted written
  constructor
  · rintro ⟨block, count, some_, _⟩
    by_contra many
    rw [counted, if_neg many] at some_
    cases some_
  · intro few
    have brief := lines_short cut few
    rw [if_pos few] at counted written
    exact ⟨_, _, counted, written, Holds.of_text (noNul_lines cut) (by omega)⟩

/-- The strings in the blocks are those of the functions on strings. -/
theorem pop3InMangleBlock_string (filled : delimiter.content ≠ [])
    (cut : Cut delimiter.content capability.text.content pieces) (few : pieces.length ≤ 2 ^ 31) :
    (pop3InMangleBlock capability delimiter).map cstr =
      some (pop3InMangleCapability capability.text delimiter) := by
  have ⟨block, counted, _, stored, holds⟩ := (pop3Mangled_iff filled cut).mpr few
  have lines := mangleCapability_cut filled cut (Nat.lt_succ_self _)
  have clean : 0 ∉ List.intercalate crlf pieces ++ crlf ++ bytes "." ++ crlf := by
    have plain : (0 : Byte) ∉ crlf ++ bytes "." ++ crlf := by decide
    have whole := noNul_lines cut
    simp only [List.mem_append, not_or] at plain ⊢
    exact ⟨⟨⟨whole, plain.1.1⟩, plain.1.2⟩, plain.2⟩
  rw [stored, Option.map_some]
  congr 1
  apply CString.ext
  rw [holds.string, pop3InMangleCapability]
  change _ = (cstr (mangleCapability delimiter.content (capability.text.content.length + 1) _ ++
    _ ++ _ ++ _)).content
  rw [lines, cstr_content clean]

theorem managesieveMangleBlock_string
    (cut : Cut managesieveCapaDelimiter.content capability.text.content pieces)
    (few : pieces.length ≤ 2 ^ 31) :
    (managesieveMangleBlock capability).map cstr =
      some (managesieveMangleCapability capability.text) := by
  have ⟨block, counted, _, stored, holds⟩ := (managesieveMangled_iff cut).mpr few
  have lines := mangleCapability_cut (by decide) cut (Nat.lt_succ_self _)
  rw [stored, Option.map_some]
  congr 1
  apply CString.ext
  rw [holds.string, managesieveMangleCapability]
  change _ = (cstr (mangleCapability managesieveCapaDelimiter.content
    (capability.text.content.length + 1) _)).content
  rw [lines, cstr_content (noNul_lines cut)]

end Mangled

/-- The lists of both protocols become lines exactly while an `int` can count the delimiters. -/
theorem mangled_iff (capability : TextAt) :
    (∀ delimiter pieces, delimiter.content ≠ [] →
      Cut delimiter.content capability.text.content pieces →
        (Pop3Mangled capability delimiter pieces ↔ pieces.length ≤ 2 ^ 31)) ∧
    ∀ pieces, Cut managesieveCapaDelimiter.content capability.text.content pieces →
      (ManagesieveMangled capability pieces ↔ pieces.length ≤ 2 ^ 31) :=
  ⟨fun _ _ filled cut => pop3Mangled_iff filled cut, fun _ cut => managesieveMangled_iff cut⟩

/-- A list of three capabilities. -/
def threeCapabilities : TextAt where
  text := lit "TOP.UIDL.USER"
  address := 4096
  small := by decide
  fits := by decide

theorem mangled_three :
    Pop3Mangled threeCapabilities (lit ".") [bytes "TOP", bytes "UIDL", bytes "USER"] := by
  have text : threeCapabilities.text.content = bytes "TOP.UIDL.USER" := by decide
  have dot : (lit ".").content = bytes "." := by decide
  have first : strstr (bytes "TOP.UIDL.USER") (bytes ".") = some 3 := by decide +kernel
  have second : strstr (bytes "UIDL.USER") (bytes ".") = some 4 := by decide +kernel
  have drops : (bytes "TOP.UIDL.USER").drop (3 + (bytes ".").length) = bytes "UIDL.USER" ∧
      (bytes "UIDL.USER").drop (4 + (bytes ".").length) = bytes "USER" := by decide
  have takes : (bytes "TOP.UIDL.USER").take 3 = bytes "TOP" ∧
      (bytes "UIDL.USER").take 4 = bytes "UIDL" := by decide
  have last : Cut (bytes ".") (bytes "USER") [bytes "USER"] := .last (by decide)
  rw [← drops.2] at last
  have middle := cut_found second last
  rw [drops.2, takes.2, ← drops.1] at middle
  have cut := cut_found first middle
  rw [takes.1, ← dot, ← text] at cut
  have few : [bytes "TOP", bytes "UIDL", bytes "USER"].length ≤ 2 ^ 31 := by
    simp only [List.length_cons, List.length_nil]
    omega
  exact ((mangled_iff threeCapabilities).1 (lit ".") _ (by decide) cut).mpr few

/-- A list of delimiters. -/
def dots (count : Nat) (few : count < 2 ^ 32) : TextAt where
  text := ⟨List.replicate count 46, fun nul => absurd (List.eq_of_mem_replicate nul) (by decide)⟩
  address := 4096
  small := by
    rw [CString.length, List.length_replicate]
    omega
  fits := by
    rw [CString.length, List.length_replicate]
    omega

theorem cut_dots (count : Nat) :
    Cut (bytes ".") (List.replicate count 46) (List.replicate (count + 1) []) := by
  induction count with
  | zero => exact .last (by decide)
  | succ count ih => exact @Cut.next _ _ [] _ _ (fun _ _ _ => Nat.zero_le _) ih

/-- More delimiters than an `int` can count. -/
theorem dots_not_mangled {count : Nat} (few : count < 2 ^ 32) (many : 2 ^ 31 ≤ count) :
    ¬ ∃ pieces, Cut (lit ".").content (dots count few).text.content pieces ∧
      Pop3Mangled (dots count few) (lit ".") pieces := by
  rintro ⟨pieces, cut, mangled⟩
  have dot : (lit ".").content = bytes "." := by decide
  have counted := (pop3Mangled_iff (by decide) cut).mp mangled
  have same := cut.unique (dot ▸ cut_dots count)
  have size := (congrArg List.length same).trans List.length_replicate
  omega

theorem pop3Mangled_dots :
    ¬ ∃ pieces, Cut (lit ".").content (dots (2 ^ 31) (by decide)).text.content pieces ∧
      Pop3Mangled (dots (2 ^ 31) (by decide)) (lit ".") pieces :=
  dots_not_mangled _ (Nat.le_refl _)

end Perdition
