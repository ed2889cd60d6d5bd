import Perdition.Imap4In
import Perdition.StrMemory
import Perdition.Verif.Words

/-!
# Replacing in place

A string whose substitutions are not longer than what they replace is edited within its block, and
as by replacing the occurrences from left to right. A longer substitution is stored past the block
that `realloc` returns, wherever it occurs.
-/
namespace Perdition

open Lib Lib.Block

/-! ## One occurrence -/

section Accesses

variable {front slack : List Byte}

/-- A string in a block. -/
theorem stringIn_text (front : List Byte) (text : CString) (slack : List Byte) :
    stringIn (front ++ text.content ++ 0 :: slack) front.length = some text := by
  have rest : (front ++ text.content ++ 0 :: slack).drop (Int.toNat front.length) =
      text.content ++ 0 :: slack := by
    rw [Int.toNat_natCast, List.append_assoc, List.drop_left]
  rw [stringIn, rest, if_pos ⟨Int.natCast_nonneg _, by simp⟩, cstr_nul, cstr_self]

/-- The tail of a string is moved over what stands before it. -/
theorem shiftTail_moves (front gone : List Byte) (tail : CString) (slack : List Byte)
    {matchLen substLen : Nat} (apart : substLen + gone.length = matchLen) :
    ∃ behind, shiftTail (front ++ gone ++ tail.content ++ 0 :: slack) front.length matchLen
      substLen = some (front ++ tail.content ++ 0 :: behind) := by
  have source : (front.length : Int) + matchLen - substLen = ((front ++ gone).length : Int) := by
    rw [List.length_append]
    omega
  have count : (tail.content ++ [0]).length = tail.length + 1 := List.length_append
  have loaded := load_inside (front ++ gone) (tail.content ++ [0]) slack
  have moved := storeAll_behind front (gone ++ tail.content ++ 0 :: slack) (tail.content ++ [0])
  rw [if_pos (by simp only [List.length_append, List.length_cons, List.length_nil]; omega)]
    at moved
  have first : front ++ (gone ++ tail.content ++ 0 :: slack) =
      front ++ gone ++ tail.content ++ 0 :: slack := by simp
  have second : front ++ gone ++ (tail.content ++ [0]) ++ slack =
      front ++ gone ++ tail.content ++ 0 :: slack := by simp
  rw [count, second] at loaded
  rw [first] at moved
  refine ⟨(gone ++ tail.content ++ 0 :: slack).drop (tail.content ++ [0]).length, ?_⟩
  rw [shiftTail]
  simp only [source]
  rw [stringIn_text, Option.bind_eq_bind, Option.bind_some, move, loaded, Option.bind_eq_bind,
    Option.bind_some, moved]
  simp

/-- A substitution that is not longer is put in the place of the match, with what follows it. -/
theorem shorter_stored {match_ subst : CString} (fits : subst.length ≤ match_.length)
    (rest : CString) :
    ∃ slack',
      ((if subst.length < match_.length then
          shiftTail (front ++ match_.content ++ rest.content ++ 0 :: slack) front.length
            match_.length subst.length
        else some (front ++ match_.content ++ rest.content ++ 0 :: slack)).bind fun str =>
          storeAll str front.length subst.content) =
        some (front ++ subst.content ++ rest.content ++ 0 :: slack') := by
  have fits : subst.content.length ≤ match_.content.length := fits
  -- the last bytes of the match, as many as the substitution has
  have ⟨gone, kept, halves, size⟩ : ∃ gone kept, gone ++ kept = match_.content ∧
      kept.length = subst.content.length := by
    refine ⟨_, _, List.take_append_drop (match_.content.length - subst.content.length) _, ?_⟩
    rw [List.length_drop]
    omega
  have stored (behind : List Byte) := storeAll_inside front kept (rest.content ++ 0 :: behind)
    subst.content size
  have lengths := congrArg List.length halves
  rw [List.length_append] at lengths
  split
  · have noNul : 0 ∉ kept ++ rest.content := by
      intro nul
      rcases List.mem_append.mp nul with early | late
      · exact match_.noNul (halves ▸ List.mem_append_right gone early)
      · exact rest.noNul late
    have apart : subst.length + gone.length = match_.length := by
      change subst.content.length + gone.length = match_.content.length
      omega
    have ⟨behind, moved⟩ := shiftTail_moves front gone ⟨kept ++ rest.content, noNul⟩ slack apart
    have whole : front ++ gone ++ (kept ++ rest.content) ++ 0 :: slack =
        front ++ match_.content ++ rest.content ++ 0 :: slack := by
      rw [← halves]
      simp only [List.append_assoc]
    rw [whole] at moved
    refine ⟨behind, ?_⟩
    rw [moved, Option.bind_some]
    simpa using stored behind
  · rename_i equal
    have none_ : gone = [] := by
      change ¬ subst.content.length < match_.content.length at equal
      exact List.length_eq_zero_iff.mp (by omega)
    rw [none_, List.nil_append] at halves
    refine ⟨slack, ?_⟩
    rw [Option.bind_some, ← halves]
    simpa using stored slack

/-- A longer substitution is stored past the block that `realloc` returns, or read from before it. -/
theorem longer_refused (garbage : Nat → Byte) {matchLen substLen : Nat}
    (longer : matchLen < substLen) (text : CString) {p : Nat} (inside : p ≤ text.length) :
    shiftTail (resize garbage (text.content ++ 0 :: slack)
      (text.length + (substLen - matchLen))) p matchLen substLen = none := by
  have room : (text.content ++ [0]).length ≤ text.length + (substLen - matchLen) := by
    rw [List.length_append]
    change text.length + 1 ≤ _
    omega
  have begins : text.content ++ 0 :: slack = (text.content ++ [0]) ++ slack := by simp
  have ⟨back, kept⟩ := resize_keeps garbage slack room
  have size := resize_length garbage (text.content ++ 0 :: slack)
    (text.length + (substLen - matchLen))
  rw [begins] at size ⊢
  rw [kept] at size ⊢
  rw [shiftTail, stringIn]
  by_cases before : (p : Int) + matchLen - substLen < 0
  · rw [if_neg fun both => absurd both.1 (by omega)]
    rfl
  have ⟨n, here⟩ := Int.eq_ofNat_of_zero_le (Int.not_lt.mp before)
  have short : n < text.length := by omega
  have rest : (text.content ++ [0] ++ back).drop n = text.content.drop n ++ 0 :: back := by
    rw [List.append_assoc, List.drop_append_of_le_length (Nat.le_of_lt short)]
    rfl
  have noNul : 0 ∉ text.content.drop n := fun nul => text.noNul (List.mem_of_mem_drop nul)
  rw [here, Int.toNat_natCast, rest, if_pos ⟨Int.natCast_nonneg _, by simp⟩, Option.bind_eq_bind,
    Option.bind_some, move]
  cases loaded : load (text.content ++ [0] ++ back) n
      ((cstr (text.content.drop n ++ 0 :: back)).length + 1) with
  | none => rfl
  | some xs =>
    rw [Option.bind_eq_bind, Option.bind_some]
    have count : xs.length = text.length - n + 1 := by
      unfold load at loaded
      split at loaded
      · rename_i within
        rw [← Option.some.inj loaded, List.length_take]
        have string := congrArg CString.length (cstr_nul (text.content.drop n) back)
        rw [CString.length, CString.length, cstr_content noNul, List.length_drop] at string
        have tail : (cstr (text.content.drop n ++ 0 :: back)).length = text.length - n := string
        rw [tail] at within ⊢
        rw [List.length_drop]
        omega
      · cases loaded
    cases stored : storeAll (text.content ++ [0] ++ back) p xs with
    | none => rfl
    | some after =>
      have filled : xs ≠ [] := by
        rintro rfl
        cases count
      have ⟨_, within⟩ := storeAll_within filled stored
      omega

end Accesses

/-! ## All occurrences -/

/-- The loop over the occurrences of one match, from a place in the string on. -/
theorem strReplaceLoop_fits (garbage : Nat → Byte) {match_ subst : CString}
    (filled : match_.content ≠ []) : ∀ (rounds : Nat) (front : List Byte) (text : CString)
      (slack : List Byte), text.length < rounds →
      (match_.length < subst.length → ¬ match_.content <:+: text.content) →
      ∃ (result : CString) (slack' : List Byte),
        strReplaceLoop garbage match_ subst rounds (front ++ text.content ++ 0 :: slack)
            front.length = some (front ++ result.content ++ 0 :: slack') ∧
          Replaced match_.content subst.content text.content result.content := by
  have long := List.length_pos_iff.mpr filled
  intro rounds
  induction rounds with
  | zero => exact fun front text slack enough => absurd enough (Nat.not_lt_zero _)
  | succ rounds ih =>
    intro front text slack enough never
    rw [strReplaceLoop, stringIn_text, Option.bind_eq_bind, Option.bind_some]
    cases found : strstr text.content match_.content with
    | none => exact ⟨text, slack, rfl, .absent (strstr_absent.mp found)⟩
    | some place =>
      have ⟨back, same⟩ := strstr_occurs found
      have whole : text.content = text.content.take place ++ match_.content ++ back := by
        rw [List.append_assoc, same, List.take_append_drop]
      have occurs : match_.content <:+: text.content := ⟨_, _, whole.symm⟩
      have fits : ¬ match_.length < subst.length := fun longer => never longer occurs
      have noNul : 0 ∉ back := fun nul => text.noNul (whole ▸ List.mem_append_right _ nul)
      have size : (text.content.take place).length = place := by
        have room : place < text.content.length := by
          by_contra beyond
          rw [List.drop_eq_nil_of_le (Nat.le_of_not_lt beyond)] at same
          exact filled (List.append_eq_nil_iff.mp same).1
        rw [List.length_take]
        omega
      have here : front.length + place = (front ++ text.content.take place).length := by
        rw [List.length_append, size]
      have ⟨slack', stored⟩ := @shorter_stored (front ++ text.content.take place) slack match_
        subst (Nat.le_of_not_lt fits) ⟨back, noNul⟩
      have block : front ++ text.content ++ 0 :: slack =
          front ++ text.content.take place ++ match_.content ++ back ++ 0 :: slack := by
        conv_lhs => rw [whole]
        simp only [List.append_assoc]
      have shorter : (CString.mk back noNul).length < rounds := by
        have sizes := congrArg List.length whole
        rw [List.length_append, List.length_append] at sizes
        change back.length < rounds
        change text.content.length < rounds + 1 at enough
        omega
      have ⟨result, slack'', ran, replaced⟩ := ih
        (front ++ text.content.take place ++ subst.content) ⟨back, noNul⟩ slack' shorter
        fun longer => absurd longer fits
      refine ⟨cstr (text.content.take place) ++ subst ++ result, slack'', ?_, ?_⟩
      · dsimp only
        rw [if_neg fits, here, block]
        have joined (c : Prop) [Decidable c] (one other : Option (List Byte))
            (rest : List Byte → Option (List Byte)) :
            (if c then one.bind rest else other.bind rest) = (if c then one else other).bind rest := by
          split <;> rfl
        refine (joined _ _ _ _).trans ?_
        simp only [Option.bind_eq_bind]
        rw [← Option.bind_assoc, stored, Option.bind_some]
        have next : (front ++ text.content.take place).length + subst.length =
            (front ++ text.content.take place ++ subst.content).length :=
          List.length_append.symm
        rw [next, ran, CString.content_append, CString.content_append,
          cstr_content fun nul => text.noNul (List.mem_of_mem_take nul)]
        simp only [List.append_assoc]
      · rw [CString.content_append, CString.content_append,
          cstr_content fun nul => text.noNul (List.mem_of_mem_take nul)]
        conv => arg 3; rw [whole]
        apply Replaced.next
        · intro front' back' occurs
          rw [size]
          exact strstr_first found (occurs.trans whole.symm)
        · exact replaced

/-- A match that occurs and has a longer substitution stops the loop. -/
theorem strReplaceLoop_grows (garbage : Nat → Byte) {match_ subst : CString}
    (longer : match_.length < subst.length) {text : CString}
    (occurs : match_.content <:+: text.content) (slack : List Byte) (rounds : Nat) :
    strReplaceLoop garbage match_ subst rounds (text.content ++ 0 :: slack) 0 = none := by
  cases rounds with
  | zero => rfl
  | succ rounds =>
    have start : stringIn (text.content ++ 0 :: slack) 0 = some text := by
      simpa using stringIn_text [] text slack
    rw [strReplaceLoop, Int.natCast_zero, start, Option.bind_eq_bind, Option.bind_some]
    cases found : strstr text.content match_.content with
    | none => exact absurd occurs (strstr_absent.mp found)
    | some place =>
      have inside : 0 + place ≤ text.length := by
        have ⟨front, back, whole⟩ := occurs
        have early := strstr_first found whole
        have sizes := congrArg List.length whole
        rw [List.length_append, List.length_append] at sizes
        change 0 + place ≤ text.content.length
        omega
      dsimp only
      rw [if_pos longer, Option.bind_eq_bind, Option.bind_some,
        longer_refused garbage longer text inside]
      rfl

/-! ## All pairs -/

/-- The bytes of the pairs. -/
def pairBytes (pairs : List (CString × CString)) : List (List Byte × List Byte) :=
  pairs.map fun pair => (pair.1.content, pair.2.content)

/-- `str_replace` returns a string within its block, and it is the one that the replacements leave
when they are performed one after another. -/
def ReplacesIn (garbage : Nat → Byte) (text : CString) (slack : List Byte)
    (pairs : List (CString × CString)) : Prop :=
  ∃ block result, strReplaceIn garbage (text.content ++ 0 :: slack) pairs = some (some block) ∧
    stringIn block 0 = some result ∧ Performed (pairBytes pairs) text.content result.content

section Pairs

variable (garbage : Nat → Byte)

/-- One pair after another, where no substitution that is longer is made. -/
theorem replaceAll_fits : ∀ (pairs : List (CString × CString)) (text : CString)
    (slack : List Byte), (∀ pair ∈ pairs, pair.1.content ≠ []) →
    NeverGrows (pairBytes pairs) text.content →
    ∃ (result : CString) (slack' : List Byte),
      pairs.foldlM (fun str pair =>
          strReplaceLoop garbage pair.1 pair.2 (str.length + 1) str 0)
        (text.content ++ 0 :: slack) = some (result.content ++ 0 :: slack') ∧
        Performed (pairBytes pairs) text.content result.content := by
  intro pairs
  induction pairs with
  | nil => exact fun text slack _ _ => ⟨text, slack, rfl, rfl⟩
  | cons pair pairs ih =>
    intro text slack filled never
    have enough : text.length < (text.content ++ 0 :: slack).length + 1 := by
      rw [List.length_append]
      change text.content.length < _
      omega
    have ⟨middle, slack', ran, replaced⟩ := strReplaceLoop_fits garbage
      (filled pair List.mem_cons_self) _ [] text slack enough never.1
    have ⟨result, slack'', rest, performed⟩ := ih middle slack'
      (fun other later => filled other (List.mem_cons_of_mem _ later)) (never.2 _ replaced)
    refine ⟨result, slack'', ?_, middle.content, replaced, performed⟩
    rw [List.foldlM_cons]
    change strReplaceLoop garbage pair.1 pair.2 _ (text.content ++ 0 :: slack) 0 = _ at ran
    rw [ran, Option.bind_eq_bind, Option.bind_some]
    exact rest

/-- Pairs that leave a string make no substitution that is longer. -/
theorem replaceAll_grows : ∀ (pairs : List (CString × CString)) (text : CString)
    (slack block : List Byte), (∀ pair ∈ pairs, pair.1.content ≠ []) →
    pairs.foldlM (fun str pair => strReplaceLoop garbage pair.1 pair.2 (str.length + 1) str 0)
      (text.content ++ 0 :: slack) = some block →
    NeverGrows (pairBytes pairs) text.content := by
  intro pairs
  induction pairs with
  | nil => exact fun _ _ _ _ _ => trivial
  | cons pair pairs ih =>
    intro text slack block filled run
    rw [List.foldlM_cons] at run
    have never : pair.1.length < pair.2.length → ¬ pair.1.content <:+: text.content := by
      intro longer occurs
      rw [strReplaceLoop_grows garbage longer occurs] at run
      cases run
    have enough : text.length < (text.content ++ 0 :: slack).length + 1 := by
      rw [List.length_append]
      change text.content.length < _
      omega
    have ⟨middle, slack', ran, replaced⟩ := strReplaceLoop_fits garbage
      (filled pair List.mem_cons_self) _ [] text slack enough never
    change strReplaceLoop garbage pair.1 pair.2 _ (text.content ++ 0 :: slack) 0 = _ at ran
    rw [ran, Option.bind_eq_bind, Option.bind_some] at run
    refine ⟨never, fun other replaced' => ?_⟩
    rw [← replaced.unique replaced']
    exact ih middle slack' block (fun other later => filled other (List.mem_cons_of_mem _ later))
      run

end Pairs

/-- `str_replace` stays within its block and replaces as it says exactly where there are pairs and
no substitution that is longer than its match is made. -/
theorem strReplaceIn_iff (garbage : Nat → Byte) (text : CString) (slack : List Byte)
    (pairs : List (CString × CString)) (filled : ∀ pair ∈ pairs, pair.1.content ≠ []) :
    ReplacesIn garbage text slack pairs ↔
      pairs ≠ [] ∧ NeverGrows (pairBytes pairs) text.content := by
  constructor
  · intro ⟨block, result, run, _⟩
    rw [strReplaceIn] at run
    split at run
    · cases run
    · rename_i some_
      have ⟨block', fold, _⟩ := Option.map_eq_some_iff.mp run
      exact ⟨fun none_ => some_ (by rw [none_]; rfl),
        replaceAll_grows garbage pairs text slack block' filled fold⟩
  · intro ⟨some_, never⟩
    have ⟨result, slack', fold, performed⟩ :=
      replaceAll_fits garbage pairs text slack filled never
    refine ⟨result.content ++ 0 :: slack', result, ?_, ?_, performed⟩
    · rw [strReplaceIn, if_neg fun none_ => some_ (List.isEmpty_iff.mp none_), fold]
      rfl
    · simpa using stringIn_text [] result slack'

/-- The escapes of IMAP are replaced by shorter strings. -/
theorem strReplaceIn_unescape : ReplacesIn (fun _ => 0) (lit "a\\\"b") [] imap4Unescape := by
  apply (strReplaceIn_iff (fun _ => 0) (lit "a\\\"b") [] imap4Unescape (by decide +kernel)).mpr
  exact ⟨by decide +kernel, .of_shorter (by decide +kernel) _⟩

/-- A longer substitution is stored outside the block. -/
theorem strReplaceIn_longer : ¬ ReplacesIn (fun _ => 0) (lit "a") [] [(lit "a", lit "bb")] := by
  have stopped : strReplaceIn (fun _ => 0) ((lit "a").content ++ 0 :: [])
      [(lit "a", lit "bb")] = none := by
    decide +kernel
  rintro ⟨block, result, run, _⟩
  rw [stopped] at run
  cases run

/-! ## As a function on strings -/

/-- The loop on the bytes of the string replaces from left to right. -/
theorem strReplaceFrom_replaced {needle : List Byte} (filled : needle ≠ []) (subst : List Byte) :
    ∀ (rounds : Nat) {text : List Byte}, text.length ≤ rounds →
      Replaced needle subst text (strReplaceFrom needle subst rounds text) := by
  have long := List.length_pos_iff.mpr filled
  intro rounds
  induction rounds with
  | zero =>
    intro text short
    have none_ : text = [] := List.length_eq_zero_iff.mp (by omega)
    subst none_
    apply Replaced.absent
    intro occurs
    have size := occurs.length_le
    rw [List.length_nil] at size
    omega
  | succ rounds ih =>
    intro text short
    rw [strReplaceFrom]
    cases found : strstr text needle with
    | none => exact .absent (strstr_absent.mp found)
    | some place =>
      have rest : (text.drop (place + needle.length)).length ≤ rounds := by
        rw [List.length_drop]
        have ⟨_, room⟩ := @strstr_within _ text 0 _ filled found
        omega
      have ⟨pieces, cut, same⟩ := ih rest
      refine ⟨_, cut_found found cut, ?_⟩
      rw [List.intercalate_cons_of_ne_nil cut.ne_nil, same]

/-- What the function on strings returns is what is in the block. -/
theorem strReplaceIn_string (garbage : Nat → Byte) {pairs : List (CString × CString)}
    (some_ : pairs ≠ []) (filled : ∀ pair ∈ pairs, pair.1.content ≠ []) (text : CString)
    (slack : List Byte) :
    ((strReplaceIn garbage (text.content ++ 0 :: slack) pairs).bind fun str =>
      str.bind fun block => stringIn block 0) = strReplace text pairs := by
  have folded : strReplaceIn garbage (text.content ++ 0 :: slack) pairs =
      (pairs.foldlM (fun str pair =>
        strReplaceLoop garbage pair.1 pair.2 (str.length + 1) str 0)
        (text.content ++ 0 :: slack)).map some := by
    rw [strReplaceIn, if_neg fun none_ => some_ (List.isEmpty_iff.mp none_)]
  rw [folded]
  clear folded some_
  induction pairs generalizing text slack with
  | nil =>
    rw [strReplace]
    simpa using stringIn_text [] text slack
  | cons pair pairs ih =>
    have first := filled pair List.mem_cons_self
    rw [List.foldlM_cons, strReplace, strReplacePair]
    by_cases grows : pair.1.length < pair.2.length ∧
        (strstr text.content pair.1.content).isSome
    · have occurs : pair.1.content <:+: text.content := by
        by_contra absent
        rw [strstr_absent.mpr absent] at grows
        exact absurd grows.2 (by decide)
      rw [if_pos grows, strReplaceLoop_grows garbage grows.1 occurs]
      rfl
    · have never : pair.1.length < pair.2.length → ¬ pair.1.content <:+: text.content := by
        intro longer occurs
        cases found : strstr text.content pair.1.content with
        | none => exact strstr_absent.mp found occurs
        | some place => exact grows ⟨longer, by rw [found]; rfl⟩
      have enough : text.length < (text.content ++ 0 :: slack).length + 1 := by
        rw [List.length_append]
        change text.content.length < _
        omega
      have ⟨middle, slack', ran, replaced⟩ := strReplaceLoop_fits garbage first _ [] text slack
        enough never
      change strReplaceLoop garbage pair.1 pair.2 _ (text.content ++ 0 :: slack) 0 = _ at ran
      have same := (strReplaceFrom_replaced first pair.2.content text.length
        (Nat.le_refl text.content.length)).unique replaced
      rw [if_neg grows, ran, same, cstr_self, Option.bind_eq_bind, Option.bind_some,
        Option.bind_eq_bind, Option.bind_some]
      exact ih (fun other later => filled other (List.mem_cons_of_mem _ later)) middle slack'

end Perdition
