import Perdition.KeyString
import Perdition.Verif.Rightmost
import Perdition.Verif.Memory

/-!
# Query keys

The string `getserver_key_str` builds never leaves its block. It holds the expansions of the format,
but for a domain behind a delimiter of more than one byte, of which all but the first are left in
front of it.
-/
namespace Perdition

open Lib.Block

/-! ## The growing string -/

/-- The block has the size counted, and the text stands in it up to the cursor. -/
structure KeyBuffer.Holds (buffer : KeyBuffer) (text : List Byte) : Prop where
  /-- The size is that of the block. -/
  size : buffer.block.length = buffer.size
  /-- The space is what is left behind the cursor. -/
  space : buffer.cursor + buffer.space = buffer.size
  /-- The cursor is behind the text. -/
  cursor : buffer.cursor = text.length
  /-- The block starts with the text. -/
  text : text <+: buffer.block

/-- Before the loop the string is empty. -/
theorem holds_start : KeyState.start.buffer.Holds [] :=
  ⟨rfl, rfl, rfl, List.nil_prefix⟩

/-- A block that grows keeps its bytes. -/
theorem realloc_grows (garbage : Nat → Byte) {block : List Byte} {size : Nat}
    (grows : block.length ≤ size) :
    block <+: realloc garbage block size ∧ (realloc garbage block size).length = size := by
  rw [realloc, List.take_of_length_le grows]
  refine ⟨List.prefix_append .., ?_⟩
  rw [List.length_append, malloc_length]
  omega

/-- What is added stands behind the text, and no store leaves the block. -/
theorem strAdd_holds (garbage : Nat → Byte) {buffer : KeyBuffer} {text : List Byte}
    (holds : buffer.Holds text) (str : List Byte) :
    ∃ after, buffer.strAdd garbage str str.length = some after ∧
      after.Holds (text ++ strncpyBytes str) := by
  -- the string with room for what is added
  have roomy : ∀ {grown : KeyBuffer}, grown.Holds text → str.length ≤ grown.space →
      ∃ block, storeAll grown.block grown.cursor (strncpyBytes str) = some block ∧
        KeyBuffer.Holds ⟨block, grown.size, grown.space - str.length, grown.cursor + str.length⟩
          (text ++ strncpyBytes str) := by
    intro grown inside room
    have ⟨rest, whole⟩ := inside.text
    have behind : rest.length = grown.space := by
      have length := congrArg List.length whole
      rw [List.length_append, inside.size, ← inside.space, inside.cursor] at length
      omega
    have stored := storeAll_inside text (rest.take str.length) (rest.drop str.length)
      (strncpyBytes str) (by rw [strncpyBytes_length, List.length_take]; omega)
    rw [List.append_assoc, List.take_append_drop, whole, ← inside.cursor] at stored
    refine ⟨_, stored, ?_, ?_, ?_, List.prefix_append ..⟩
    · have length := storeAll_length stored
      rw [length]
      exact inside.size
    · have space := inside.space
      dsimp only
      omega
    · rw [List.length_append, strncpyBytes_length, ← inside.cursor]
  have whole : str.take str.length = str := List.take_length
  simp only [KeyBuffer.strAdd, whole]
  by_cases short : buffer.space < str.length
  · have grows := @realloc_grows garbage buffer.block
      (buffer.size + (str.length + gksChunkSize)) (by rw [holds.size]; omega)
    have space := holds.space
    have cursor := holds.cursor
    have ⟨block, stored, after⟩ := @roomy
      ⟨realloc garbage buffer.block (buffer.size + (str.length + gksChunkSize)),
        buffer.size + (str.length + gksChunkSize), buffer.space + (str.length + gksChunkSize),
        buffer.size + (str.length + gksChunkSize) - (buffer.space + (str.length + gksChunkSize))⟩
      ⟨grows.2, by dsimp only; omega, by dsimp only; omega, holds.text.trans grows.1⟩
      (by dsimp only; omega)
    rw [if_pos short]
    dsimp only at stored ⊢
    rw [stored]
    exact ⟨_, rfl, after⟩
  · have ⟨block, stored, after⟩ := roomy holds (by omega)
    rw [if_neg short, stored]
    exact ⟨_, rfl, after⟩

/-! ## The loop -/

/-- The user is not split yet, or at its last delimiter. -/
def KeyState.Split (opt : Options) (user : CString) (state : KeyState) : Prop :=
  state.domainStr = none ∨ ∃ place,
    strrstr user.content opt.domainDelimiter.content = some place ∧
      state.domainStr = some (place + 1) ∧ state.userStrSize = place

/-- Splitting the user twice is splitting it once. -/
theorem KeyState.splitUser_eq {opt : Options} {user : CString} {state : KeyState}
    (split_ : state.Split opt user) :
    (state.splitUser opt user).domainStr =
        (strrstr user.content opt.domainDelimiter.content).map (· + 1) ∧
      (state.splitUser opt user).userStrSize =
        (strrstr user.content opt.domainDelimiter.content).getD user.length ∧
      (state.splitUser opt user).Split opt user ∧
      (state.splitUser opt user).buffer = state.buffer := by
  unfold splitUser Split
  rcases split_ with whole | ⟨place, found, domain, size⟩
  · rw [if_neg (by simp [whole])]
    cases found : strrstr user.content opt.domainDelimiter.content with
    | none => exact ⟨whole, rfl, .inl whole, rfl⟩
    | some place => exact ⟨rfl, rfl, .inr ⟨place, rfl, rfl, rfl⟩, rfl⟩
  · rw [if_pos (by simp [domain]), found]
    exact ⟨domain, size, .inr ⟨place, rfl, domain, size⟩, rfl⟩

/-- The content of a part of a string. -/
theorem cstr_part {text : CString} {part : List Byte} (inside : part ⊆ text.content) :
    (cstr part).content = part :=
  cstr_content fun nul => text.noNul (inside nul)

/-- The bytes behind a backslash that stand for something. -/
def escapes : List Byte := [85, 117, 68, 100, 105, 73, 112, 80, 92]

theorem keyEscape_unknown {opt : Options} {user : CString} {addresses : Addresses} {c : Byte}
    (unknown : c ∉ escapes) : keyEscape opt user addresses c = none := by
  unfold keyEscape
  split <;> first | rfl | exact absurd (by decide) unknown

theorem KeyState.escape_unknown {opt : Options} {user : CString} {addresses : Addresses}
    {state : KeyState} {c : Byte} (unknown : c ∉ escapes) :
    state.escape opt user addresses c = none := by
  unfold escape
  split <;> first | rfl | exact absurd (by decide) unknown

/-- An escape adds what it stands for, or is unknown. -/
theorem KeyState.escape_eq {opt : Options} {user : CString} {addresses : Addresses}
    {state : KeyState} (split_ : state.Split opt user) (c : Byte) :
    match keyEscape opt user addresses c with
    | none => state.escape opt user addresses c = none
    | some str => ∃ after, state.escape opt user addresses c = some (after, str) ∧
        after.Split opt user ∧ after.buffer = state.buffer := by
  by_cases known : c ∈ escapes
  · obtain ⟨domain, size, split', same⟩ := splitUser_eq split_
    simp only [escapes, List.mem_cons, List.not_mem_nil, or_false] at known
    rcases known with rfl | rfl | rfl | rfl | rfl | rfl | rfl | rfl | rfl
    · exact ⟨state, rfl, split_, rfl⟩
    · -- the part in front of the delimiter
      refine ⟨state.splitUser opt user, ?_, split', same⟩
      change some (_, user.content.take (state.splitUser opt user).userStrSize) = some (_, _)
      rw [size, Perdition.splitUser]
      cases strrstr user.content opt.domainDelimiter.content with
      | none => simp [CString.length]
      | some place =>
        rw [Option.getD_some, cstr_part fun _ => List.mem_of_mem_take]
    · exact ⟨state, rfl, split_, rfl⟩
    · -- what is behind its first byte
      refine ⟨state.splitUser opt user, ?_, split', same⟩
      rw [escape, domain, Perdition.splitUser]
      cases strrstr user.content opt.domainDelimiter.content with
      | none => rfl
      | some place =>
        simp only [Option.map_some]
        rw [cstr_part fun _ => List.mem_of_mem_drop]
    · exact ⟨state, rfl, split_, rfl⟩
    · exact ⟨state, rfl, split_, rfl⟩
    · exact ⟨state, rfl, split_, rfl⟩
    · exact ⟨state, rfl, split_, rfl⟩
    · exact ⟨state, rfl, split_, rfl⟩
  · rw [keyEscape_unknown known]
    exact escape_unknown known

/-- What is added to the string of the loop. -/
theorem KeyState.add_holds (garbage : Nat → Byte) {state : KeyState} {text : List Byte}
    (holds : state.buffer.Holds text) {str : List Byte} (noNul : 0 ∉ str) :
    ∃ after, state.add garbage str = some after ∧ after.buffer.Holds (text ++ str) ∧
      after.domainStr = state.domainStr ∧ after.userStrSize = state.userStrSize ∧
      after.haveEscape = state.haveEscape := by
  have ⟨buffer, added, after⟩ := strAdd_holds garbage holds str
  rw [strncpyBytes_noNul noNul] at after
  exact ⟨{ state with buffer := buffer }, by rw [KeyState.add, added]; rfl, after, rfl, rfl, rfl⟩

/-- What an escape stands for has no NUL. -/
theorem keyEscape_noNul {opt : Options} {user : CString} {addresses : Addresses} {c : Byte}
    {str : List Byte} (known : keyEscape opt user addresses c = some str) : 0 ∉ str := by
  unfold keyEscape at known
  split at known
  · exact Option.some.inj known ▸ user.noNul
  · exact Option.some.inj known ▸ (splitUser opt user).1.noNul
  · exact Option.some.inj known ▸ opt.domainDelimiter.noNul
  · rw [← Option.some.inj known]
    split
    · simp
    · exact CString.noNul _
  · exact Option.some.inj known ▸ addresses.fromStr.noNul
  · exact Option.some.inj known ▸ addresses.toStr.noNul
  · exact Option.some.inj known ▸ addresses.fromPort.noNul
  · exact Option.some.inj known ▸ addresses.toPort.noNul
  · exact Option.some.inj known ▸ by decide
  · cases known

/-- The loop adds the expansion of the rest of the format, or finds an unknown escape. -/
theorem keyLoop_eq (garbage : Nat → Byte) (opt : Options) (user : CString) (addresses : Addresses)
    (format : List Byte) : 0 ∉ format → ∀ (state : KeyState) (text : List Byte),
      state.buffer.Holds text → state.Split opt user → state.haveEscape = false →
      match getserverKeyStr opt user addresses format with
      | none => keyLoop garbage opt user addresses state format = some none
      | some str => ∃ after, keyLoop garbage opt user addresses state format = some (some after) ∧
          after.buffer.Holds (text ++ str) := by
  fun_induction getserverKeyStr opt user addresses format with
  | case1 =>
    intro _ state text holds _ _
    exact ⟨state, rfl, by rw [List.append_nil]; exact holds⟩
  | case2 =>
    intro _ state text holds _ plain
    refine ⟨{ state with haveEscape := true }, ?_, by rw [List.append_nil]; exact holds⟩
    rw [keyLoop, if_pos ⟨rfl, plain⟩, keyLoop]
  | case3 c rest ih =>
    intro noNul state text holds split_ plain
    have clean : 0 ∉ rest := fun nul =>
      noNul (List.mem_cons_of_mem _ (List.mem_cons_of_mem _ nul))
    rw [keyLoop, if_pos ⟨rfl, plain⟩, keyLoop, if_neg (by simp), if_neg (by simp)]
    have escaped := @KeyState.escape_eq opt user addresses { state with haveEscape := true }
      split_ c
    cases known : keyEscape opt user addresses c with
    | none =>
      rw [known] at escaped
      simp only [Option.bind_eq_bind, Option.bind_none]
      rw [escaped]
    | some str =>
      rw [known] at escaped
      have ⟨next, same, splits, kept⟩ := escaped
      rw [same]
      have ready : next.buffer.Holds text := kept ▸ holds
      have ⟨after, added, holds', domain, size, _⟩ := next.add_holds garbage ready
        (keyEscape_noNul known)
      simp only [Option.bind_eq_bind, Option.bind_some, added]
      have splits' : { after with haveEscape := false : KeyState }.Split opt user := by
        unfold KeyState.Split at splits ⊢
        rw [domain, size]
        exact splits
      have later := ih clean { after with haveEscape := false } (text ++ str) holds' splits' rfl
      cases more : getserverKeyStr opt user addresses rest with
      | none =>
        rw [more] at later
        exact later
      | some str' =>
        rw [more] at later
        simp only [Option.bind_some, Option.pure_def]
        rw [← List.append_assoc]
        exact later
  | case4 c rest lone other ih =>
    intro noNul state text holds split_ plain
    have clean : 0 ∉ rest := fun nul => noNul (List.mem_cons_of_mem _ nul)
    have literal : c ≠ backslash := by
      rintro rfl
      cases rest with
      | nil => exact lone rfl rfl
      | cons d rest => exact other d rest rfl rfl
    have first : 0 ∉ [c] := by
      rw [List.mem_singleton]
      exact fun nul => noNul (nul ▸ List.mem_cons_self ..)
    have ⟨after, added, holds', domain, size, same⟩ := state.add_holds garbage holds first
    rw [keyLoop, if_neg (fun both => literal both.1), if_pos plain]
    simp only [Option.bind_eq_bind, Option.bind_some, added]
    have splits' : after.Split opt user := by
      unfold KeyState.Split at split_ ⊢
      rw [domain, size]
      exact split_
    have later := ih clean after (text ++ [c]) holds' splits' (same.trans plain)
    cases more : getserverKeyStr opt user addresses rest with
    | none =>
      rw [more] at later
      exact later
    | some str' =>
      rw [more] at later
      simp only [Option.bind_some, Option.pure_def]
      have whole : text ++ c :: str' = text ++ [c] ++ str' := by simp
      rw [whole]
      exact later

/-- `getserver_key_str` returns the expansion of its format at the start of a block, or a null pointer
for an unknown escape, and stores nothing outside of the block. -/
theorem getserverKeyBlock_eq (garbage : Nat → Byte) (opt : Options) (user : CString)
    (addresses : Addresses) {format : List Byte} (noNul : 0 ∉ format) :
    match getserverKeyStr opt user addresses format with
    | none => getserverKeyBlock garbage opt user addresses format = some none
    | some str => ∃ block, getserverKeyBlock garbage opt user addresses format =
        some (some block) ∧ str ++ [0] <+: block := by
  have looped := keyLoop_eq garbage opt user addresses format noNul .start [] holds_start
    (.inl rfl) rfl
  cases expanded : getserverKeyStr opt user addresses format with
  | none =>
    rw [expanded] at looped
    dsimp only
    rw [getserverKeyBlock, looped]
    rfl
  | some str =>
    rw [expanded] at looped
    have ⟨state, loop, holds⟩ := looped
    have ⟨after, added, ended⟩ := strAdd_holds garbage holds [0]
    refine ⟨after.block, ?_, ended.text⟩
    rw [getserverKeyBlock, loop]
    simp only [Option.bind_eq_bind, Option.bind_some, KeyState.add, added]
    rfl

/-! ## Formats -/

/-- A literal or an escape of a format. -/
inductive KeyPiece where
  /-- A byte that stands for itself. -/
  | literal (c : Byte) (plain : c ≠ 0 ∧ c ≠ backslash)
  /-- `\U`. -/
  | longUser
  /-- `\u`. -/
  | shortUser
  /-- `\D`. -/
  | delimiter
  /-- `\d`. -/
  | domain
  /-- `\i`. -/
  | fromStr
  /-- `\I`. -/
  | toStr
  /-- `\p`. -/
  | fromPort
  /-- `\P`. -/
  | toPort
  /-- Two backslashes. -/
  | backslash

namespace KeyPiece

/-- How a piece is written. -/
def format : KeyPiece → List Byte
  | literal c _ => [c]
  | longUser => [92, 85]
  | shortUser => [92, 117]
  | delimiter => [92, 68]
  | domain => [92, 100]
  | fromStr => [92, 105]
  | toStr => [92, 73]
  | fromPort => [92, 112]
  | toPort => [92, 80]
  | backslash => [92, 92]

/-- What a piece should expand to, for a user with these parts before and behind its last
delimiter. -/
def expansion (opt : Options) (user : CString) (addresses : Addresses)
    (before after : List Byte) : KeyPiece → List Byte
  | literal c _ => [c]
  | longUser => user.content
  | shortUser => before
  | delimiter => opt.domainDelimiter.content
  | domain => after
  | fromStr => addresses.fromStr.content
  | toStr => addresses.toStr.content
  | fromPort => addresses.fromPort.content
  | toPort => addresses.toPort.content
  | backslash => [Perdition.backslash]

/-- What a piece expands to: the domain has the rest of the delimiter in front. -/
def added (opt : Options) (user : CString) (addresses : Addresses) (before after rest : List Byte)
    (piece : KeyPiece) : List Byte :=
  match piece with
  | domain => rest ++ after
  | piece => piece.expansion opt user addresses before after

end KeyPiece

/-- A format of literals and escapes. -/
def formatOf (pieces : List KeyPiece) : List Byte := pieces.flatMap KeyPiece.format

/-- The parts of a user before and behind its last delimiter; a user without one is its own first
part. -/
inductive UserSplit (delimiter user : List Byte) : List Byte → List Byte → Prop where
  /-- There is a delimiter. -/
  | found {before after : List Byte} (same : user = before ++ delimiter ++ after)
    (last : Rightmost delimiter after) : UserSplit delimiter user before after
  /-- There is none. -/
  | whole (none_ : ¬ delimiter <:+: user) : UserSplit delimiter user user []

theorem formatOf_noNul (pieces : List KeyPiece) : 0 ∉ formatOf pieces := by
  rw [formatOf, List.mem_flatMap]
  rintro ⟨piece, _, nul⟩
  cases piece with
  | literal c plain => exact plain.1 (List.mem_singleton.mp nul).symm
  | _ => exact absurd nul (by decide)

/-- What is left of the delimiter in front of a domain. -/
def domainRest (opt : Options) (user : CString) : List Byte :=
  match strrstr user.content opt.domainDelimiter.content with
  | none => []
  | some _ => opt.domainDelimiter.content.drop 1

section Pieces

variable {opt : Options} {user : CString} {addresses : Addresses} {before after : List Byte}

/-- The user of a lookup is split into its parts, but for the rest of the delimiter. -/
theorem splitUser_split (some_ : opt.domainDelimiter.content ≠ [])
    (parts : UserSplit opt.domainDelimiter.content user.content before after) :
    (splitUser opt user).1.content = before ∧
      (match (splitUser opt user).2 with
        | none => []
        | some domain => domain.content) = domainRest opt user ++ after := by
  unfold splitUser domainRest
  cases parts with
  | found same last =>
    have found := (strrstr_rightmost some_ before after).mpr last
    rw [← same] at found
    simp only [found]
    constructor
    · rw [cstr_part fun _ => List.mem_of_mem_take, same, List.append_assoc, List.take_left]
    · rw [cstr_part fun _ => List.mem_of_mem_drop, same, List.append_assoc, ← List.drop_drop,
        List.drop_left, List.drop_append_of_le_length (List.length_pos_iff.mpr some_)]
  | whole none_ =>
    simp [strrstr_none some_ |>.mpr none_]

/-- The first piece of a format is expanded. -/
theorem getserverKeyStr_piece (some_ : opt.domainDelimiter.content ≠ [])
    (parts : UserSplit opt.domainDelimiter.content user.content before after) (piece : KeyPiece)
    (rest : List Byte) :
    getserverKeyStr opt user addresses (piece.format ++ rest) =
      (getserverKeyStr opt user addresses rest).map
        (piece.added opt user addresses before after (domainRest opt user) ++ ·) := by
  have ⟨short, domain⟩ := splitUser_split some_ parts
  have escaped : ∀ (c : Byte) (str : List Byte), keyEscape opt user addresses c = some str →
      getserverKeyStr opt user addresses (92 :: c :: rest) =
        (getserverKeyStr opt user addresses rest).map (str ++ ·) := by
    intro c str known
    rw [getserverKeyStr, known]
    cases getserverKeyStr opt user addresses rest <;> rfl
  cases piece with
  | literal c plain =>
    change getserverKeyStr opt user addresses (c :: rest) = _
    rw [getserverKeyStr.eq_def]
    split
    · rename_i nothing
      cases nothing
    · rename_i lone
      exact absurd (List.cons.inj lone).1 plain.2
    · rename_i escape
      exact absurd (List.cons.inj escape).1 plain.2
    · rename_i same
      obtain ⟨rfl, rfl⟩ := List.cons.inj same
      cases getserverKeyStr opt user addresses rest <;> rfl
  | shortUser => exact escaped 117 _ (by rw [← short]; rfl)
  | domain => exact escaped 100 _ (by rw [KeyPiece.added, ← domain]; rfl)
  | longUser => exact escaped 85 _ rfl
  | delimiter => exact escaped 68 _ rfl
  | fromStr => exact escaped 105 _ rfl
  | toStr => exact escaped 73 _ rfl
  | fromPort => exact escaped 112 _ rfl
  | toPort => exact escaped 80 _ rfl
  | backslash => exact escaped 92 _ rfl

/-- The pieces of a format are expanded one after another. -/
theorem getserverKeyStr_pieces (some_ : opt.domainDelimiter.content ≠ [])
    (parts : UserSplit opt.domainDelimiter.content user.content before after)
    (pieces : List KeyPiece) (rest : List Byte) :
    getserverKeyStr opt user addresses (formatOf pieces ++ rest) =
      (getserverKeyStr opt user addresses rest).map
        (pieces.flatMap (KeyPiece.added opt user addresses before after (domainRest opt user)) ++ ·)
    := by
  induction pieces with
  | nil => simp [formatOf]
  | cons piece pieces ih =>
    have split_ : formatOf (piece :: pieces) ++ rest = piece.format ++ (formatOf pieces ++ rest) := by
      simp [formatOf]
    rw [split_, getserverKeyStr_piece some_ parts, ih, Option.map_map]
    congr 1
    funext str
    simp

/-- Expansions are not longer than what is added, and shorter where a domain has a rest of the
delimiter in front. -/
theorem added_length (rest : List Byte) (pieces : List KeyPiece) :
    (pieces.flatMap (KeyPiece.expansion opt user addresses before after)).length ≤
        (pieces.flatMap (KeyPiece.added opt user addresses before after rest)).length ∧
      (KeyPiece.domain ∈ pieces → rest ≠ [] →
        (pieces.flatMap (KeyPiece.expansion opt user addresses before after)).length <
          (pieces.flatMap (KeyPiece.added opt user addresses before after rest)).length) := by
  induction pieces with
  | nil => simp
  | cons piece pieces ih =>
    have ⟨least, longer⟩ := ih
    have each : (piece.expansion opt user addresses before after).length ≤
        (piece.added opt user addresses before after rest).length := by
      cases piece with
      | domain => simp [KeyPiece.added, KeyPiece.expansion]
      | _ => exact le_rfl
    simp only [List.flatMap_cons, List.length_append]
    refine ⟨by omega, fun inside some_ => ?_⟩
    rcases List.mem_cons.mp inside with first | later
    · have positive := List.length_pos_iff.mpr some_
      rw [← first]
      simp only [KeyPiece.added, KeyPiece.expansion, List.length_append]
      omega
    · have more := longer later some_
      omega

/-- Where no rest is left in front of a domain the pieces have their expansions. -/
theorem added_expansion {rest : List Byte} {pieces : List KeyPiece}
    (clean : KeyPiece.domain ∈ pieces → rest = []) :
    pieces.flatMap (KeyPiece.added opt user addresses before after rest) =
      pieces.flatMap (KeyPiece.expansion opt user addresses before after) := by
  apply List.flatMap_congr
  intro piece inside
  cases piece with
  | domain => rw [KeyPiece.added, clean inside]; rfl
  | _ => rfl

/-- The parts of a user are made of its bytes. -/
theorem UserSplit.inside {delimiter user before after : List Byte}
    (parts : UserSplit delimiter user before after) : before ⊆ user ∧ after ⊆ user := by
  cases parts with
  | found same _ =>
    rw [same]
    exact ⟨by simp, by simp⟩
  | whole _ => exact ⟨fun _ => id, List.nil_subset _⟩

/-- The rest of the delimiter is empty exactly where the delimiter is one byte, or does not occur. -/
theorem domainRest_nil (some_ : opt.domainDelimiter.content ≠ []) :
    domainRest opt user = [] ↔ opt.domainDelimiter.length = 1 ∨
      ¬ opt.domainDelimiter.content <:+: user.content := by
  have positive := List.length_pos_iff.mpr some_
  rw [domainRest, ← strrstr_none some_, CString.length]
  cases strrstr user.content opt.domainDelimiter.content with
  | none => simp
  | some place =>
    simp only [List.drop_eq_nil_iff, reduceCtorEq, or_false]
    omega

theorem added_noNul (parts : UserSplit opt.domainDelimiter.content user.content before after)
    (pieces : List KeyPiece) : 0 ∉
      pieces.flatMap (KeyPiece.added opt user addresses before after (domainRest opt user)) := by
  rw [List.mem_flatMap]
  rintro ⟨piece, _, nul⟩
  have ⟨front, back⟩ := parts.inside
  cases piece with
  | literal c plain => exact plain.1 (List.mem_singleton.mp nul).symm
  | longUser => exact user.noNul nul
  | shortUser => exact user.noNul (front nul)
  | delimiter => exact opt.domainDelimiter.noNul nul
  | domain =>
    rcases List.mem_append.mp nul with rest | domain
    · unfold domainRest at rest
      split at rest
      · cases rest
      · exact opt.domainDelimiter.noNul (List.mem_of_mem_drop rest)
    · exact user.noNul (back domain)
  | fromStr => exact addresses.fromStr.noNul nul
  | toStr => exact addresses.toStr.noNul nul
  | fromPort => exact addresses.fromPort.noNul nul
  | toPort => exact addresses.toPort.noNul nul
  | backslash => exact absurd (List.mem_singleton.mp nul) (by decide)

end Pieces

/-- The string returned is the expansion of the format. -/
def KeyExpands (garbage : Nat → Byte) (opt : Options) (user : CString) (addresses : Addresses)
    (before after : List Byte) (pieces : List KeyPiece) : Prop :=
  ∃ block, getserverKeyBlock garbage opt user addresses (formatOf pieces) = some (some block) ∧
    pieces.flatMap (KeyPiece.expansion opt user addresses before after) ++ [0] <+: block

/-- A string in a block is no start of another one there. -/
theorem string_in_block {one other block : List Byte} (clean : 0 ∉ other)
    (first : one ++ [0] <+: block) (second : other ++ [0] <+: block) :
    ¬ one.length < other.length := by
  intro shorter
  have starts : one ++ [0] <+: other := by
    apply List.prefix_of_prefix_length_le first ((List.prefix_append other [0]).trans second)
    rw [List.length_append, List.length_singleton]
    omega
  exact clean (starts.subset (by simp))

/-- A format is expanded exactly where the delimiter is one byte, no domain is asked for or the user
has no delimiter. No format makes a store outside of the string, and an unknown escape gives a null
pointer. -/
theorem getserverKeyBlock_expands_iff (garbage : Nat → Byte) {opt : Options} {user : CString}
    (addresses : Addresses) {before after : List Byte}
    (some_ : opt.domainDelimiter.content ≠ [])
    (parts : UserSplit opt.domainDelimiter.content user.content before after) :
    (∀ pieces, KeyExpands garbage opt user addresses before after pieces ↔
      opt.domainDelimiter.length = 1 ∨ KeyPiece.domain ∉ pieces ∨
        ¬ opt.domainDelimiter.content <:+: user.content) ∧
    (∀ format, 0 ∉ format →
      ∃ result, getserverKeyBlock garbage opt user addresses format = some result) ∧
    ∀ pieces c rest, c ∉ escapes → 0 ∉ c :: rest →
      getserverKeyBlock garbage opt user addresses (formatOf pieces ++ 92 :: c :: rest) =
        some none := by
  refine ⟨fun pieces => ?_, fun format noNul => ?_, fun pieces c rest unknown noNul => ?_⟩
  · have returned := getserverKeyBlock_eq garbage opt user addresses (formatOf_noNul pieces)
    have expanded := @getserverKeyStr_pieces opt user addresses before after some_ parts pieces []
    rw [List.append_nil, getserverKeyStr, Option.map_some, List.append_nil] at expanded
    rw [expanded] at returned
    have ⟨block, same, text⟩ := returned
    have rest := @domainRest_nil opt user some_
    constructor
    · rintro ⟨block', same', text'⟩
      rw [same, Option.some.injEq, Option.some.injEq] at same'
      subst same'
      by_contra other
      rw [not_or, not_or, not_not, not_not] at other
      have longer := (@added_length opt user addresses before after
        (domainRest opt user) pieces).2 other.2.1 fun nothing => (rest.mp nothing).elim other.1 fun absent => absent other.2.2
      exact string_in_block (added_noNul parts pieces) text' text longer
    · intro clean
      refine ⟨block, same, ?_⟩
      have same := @added_expansion opt user addresses before after (domainRest opt user) pieces
        fun inside => rest.mpr (clean.imp_right fun none_ => none_.resolve_left (absurd inside))
      rw [← same]
      exact text
  · have returned := getserverKeyBlock_eq garbage opt user addresses noNul
    split at returned
    · exact ⟨none, returned⟩
    · have ⟨block, same, _⟩ := returned
      exact ⟨some block, same⟩
  · have clean : 0 ∉ formatOf pieces ++ 92 :: c :: rest := by
      rw [List.mem_append, List.mem_cons, not_or, not_or]
      exact ⟨formatOf_noNul pieces, by decide, noNul⟩
    have returned := getserverKeyBlock_eq garbage opt user addresses clean
    rw [getserverKeyStr_pieces some_ parts, getserverKeyStr, keyEscape_unknown unknown] at returned
    exact returned

/-- The user, the delimiter and the domain are the whole user. -/
theorem expansion_whole {opt : Options} {user : CString} {addresses : Addresses}
    {before after : List Byte}
    (parts : UserSplit opt.domainDelimiter.content user.content before after)
    (found : opt.domainDelimiter.content <:+: user.content) :
    [KeyPiece.shortUser, .delimiter, .domain].flatMap
        (KeyPiece.expansion opt user addresses before after) = user.content := by
  cases parts with
  | found same _ => simp [KeyPiece.expansion, same]
  | whole none_ => exact absurd found none_

/-- A client and a server. -/
def localAddresses : Addresses := ⟨lit "192.0.2.1", lit "192.0.2.2", lit "40000", lit "110"⟩

/-- The parts of a user with a delimiter of one byte are expanded. -/
theorem getserverKeyBlock_at : KeyExpands (fun _ => 0) Options.sample (lit "u@d") localAddresses
    (bytes "u") (bytes "d") [.shortUser, .delimiter, .domain] :=
  ((getserverKeyBlock_expands_iff (fun _ => 0) localAddresses (by decide)
    (.found (by decide) (rightmost_byte (by decide)))).1 _).mpr (.inl (by decide))

/-- A delimiter of two bytes. -/
def wideDelimiter : Options := { Options.sample with domainDelimiter := lit "@@" }

/-- The second byte of a delimiter is left in front of the domain. -/
theorem getserverKeyBlock_wide :
    UserSplit wideDelimiter.domainDelimiter.content (bytes "u@@d") (bytes "u") (bytes "d") ∧
      ¬ KeyExpands (fun _ => 0) wideDelimiter (lit "u@@d") localAddresses (bytes "u") (bytes "d")
        [.domain] := by
  have last : Rightmost wideDelimiter.domainDelimiter.content (bytes "d") :=
    (strrstr_rightmost (by decide) (bytes "u") (bytes "d")).mp (by decide)
  refine ⟨.found (by decide) last, ?_⟩
  rintro ⟨block, same, text⟩
  have returned : getserverKeyBlock (fun _ => 0) wideDelimiter (lit "u@@d") localAddresses
      (formatOf [.domain]) = some (some (bytes "@d" ++ List.replicate 32 0)) := by
    decide +kernel
  rw [returned, Option.some.injEq, Option.some.injEq] at same
  rw [← same] at text
  exact absurd text (by decide)

end Perdition
