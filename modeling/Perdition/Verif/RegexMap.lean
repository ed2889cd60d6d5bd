import Perdition.PosixRegex
import Perdition.Verif.Replacing

/-!
# Substitutions of the map of regular expressions

The two passes over a substitution agree, and what they store fits the buffer. A match that is empty
is treated as one of several: at the end of the key it is no match, and elsewhere the byte of the key
behind it is added.
-/
namespace Perdition

open Lib Lib.Block

/-! ## What a substitution stands for -/

section Passes

variable {size : Nat} (subs : Subs size) (key : List Byte)

/-- The substitution with the groups in place of the references to them. -/
def expansion : List Byte → List Byte
  | [] => []
  | [c] => [c]
  | c :: d :: walk => match reference subs c d with
    | some group => groupText key group ++ expansion walk
    | none => c :: expansion (d :: walk)

variable {subs key}

theorem groupText_length (long : key.length = size) (group : Regmatch size) :
    (groupText key group).length = group.length := by
  have ordered := group.ordered
  have inside := group.inside
  rw [groupText, List.length_take, List.length_drop, Regmatch.length]
  omega

/-- The first pass counts what the second one stores. -/
theorem replacementLength_expansion (long : key.length = size) (walk : List Byte) :
    replacementLength subs walk = (expansion subs key walk).length := by
  induction walk using expansion.induct subs with
  | case1 => rfl
  | case2 c => rfl
  | case3 c d walk group found ih =>
    rw [replacementLength, expansion, found]
    dsimp only
    rw [List.length_append, groupText_length long, ih]
  | case4 c d walk none_ ih =>
    rw [replacementLength, expansion, none_]
    dsimp only
    rw [List.length_cons, ih, Nat.add_comm]

/-- The second pass stores the expansion where there is room for it. -/
theorem storeReplacement_expansion (long : key.length = size) (walk : List Byte) :
    ∀ front rest : List Byte, (expansion subs key walk).length ≤ rest.length →
      storeReplacement subs key walk (front ++ rest) front.length =
        some (front ++ expansion subs key walk ++ rest.drop (expansion subs key walk).length,
          (front ++ expansion subs key walk).length) := by
  induction walk using expansion.induct subs with
  | case1 =>
    intro front rest room
    simp [storeReplacement, expansion]
  | case2 c =>
    intro front rest room
    cases rest with
    | nil => exact absurd room (by simp [expansion])
    | cons old rest =>
      rw [storeReplacement, store_inside]
      simp [expansion]
  | case3 c d walk group found ih =>
    intro front rest room
    rw [expansion, found] at room
    simp only [List.length_append] at room
    have fits : (groupText key group).length ≤ rest.length := by omega
    have stored := storeAll_behind front rest (groupText key group)
    rw [if_pos fits] at stored
    have place : front.length + group.length = (front ++ groupText key group).length := by
      rw [List.length_append, groupText_length long]
    have done := ih (front ++ groupText key group) (rest.drop (groupText key group).length) (by
      rw [List.length_drop]
      omega)
    rw [storeReplacement, expansion, found]
    dsimp only
    rw [stored, Option.bind_eq_bind, Option.bind_some, place, done, List.drop_drop]
    simp [List.append_assoc]
  | case4 c d walk none_ ih =>
    intro front rest room
    rw [expansion, none_] at room
    cases rest with
    | nil => exact absurd room (by simp)
    | cons old rest =>
      simp only [List.length_cons] at room
      have place : front.length + 1 = (front ++ [c]).length := by simp
      have done := ih (front ++ [c]) rest (by omega)
      have start : front ++ c :: rest = front ++ [c] ++ rest := by simp
      rw [storeReplacement, expansion, none_]
      dsimp only
      rw [store_inside, Option.bind_eq_bind, Option.bind_some, start, place, done]
      simp [List.append_assoc]

/-- What a substitution stands for has no NUL in it. -/
theorem expansion_noNul (clean : 0 ∉ key) {walk : List Byte} (noNul : 0 ∉ walk) :
    0 ∉ expansion subs key walk := by
  induction walk using expansion.induct subs with
  | case1 => exact noNul
  | case2 c => exact noNul
  | case3 c d walk group found ih =>
    rw [expansion, found]
    intro nul
    rcases List.mem_append.mp nul with text | rest
    · exact clean (List.mem_of_mem_drop (List.mem_of_mem_take text))
    · exact ih (fun more => noNul (by simp [more])) rest
  | case4 c d walk none_ ih =>
    rw [expansion, none_]
    intro nul
    rcases List.mem_cons.mp nul with here | rest
    · exact noNul (here ▸ List.mem_cons_self)
    · exact ih (fun more => noNul (List.mem_cons_of_mem c more)) rest

end Passes

/-! ## The buffer -/

/-- A buffer of this size is grown to hold so many bytes and a NUL without overflow. -/
def BufFits (bufLen newL : Nat) : Prop :=
  newL + 1 ≤ intMax ∧ (bufLen < newL + 1 → 1 + bufLen + 2 * newL ≤ intMax)

section Buffer

variable (garbage : Nat → Byte) (text : CString) (rest : List Byte)

/-- The buffer keeps its string and has room for what is added. -/
theorem growBuf_fits {newL : Nat}
    (fits : BufFits (text.content ++ 0 :: rest).length newL) :
    ∃ more, growBuf garbage (text.content ++ 0 :: rest) (text.content ++ 0 :: rest).length newL =
        some (text.content ++ 0 :: more, (text.content ++ 0 :: more).length) ∧
      newL ≤ text.length + more.length := by
  have start : stringIn (text.content ++ 0 :: rest) 0 = some text := by
    simpa using stringIn_text [] text rest
  have size : (text.content ++ 0 :: rest).length = text.length + rest.length + 1 := by
    rw [List.length_append]
    rfl
  rw [growBuf, intValue, if_pos fits.1, Option.bind_eq_bind, Option.bind_some]
  by_cases grows : newL + 1 > (text.content ++ 0 :: rest).length
  · rw [if_pos grows, intValue, if_pos (fits.2 grows), Option.bind_eq_bind, Option.bind_some, start,
      Option.bind_eq_bind, Option.bind_some]
    have long := malloc_length garbage (1 + (text.content ++ 0 :: rest).length + 2 * newL)
    generalize malloc garbage (1 + (text.content ++ 0 :: rest).length + 2 * newL) = fresh at long ⊢
    have count : (text.content ++ [0]).length = text.length + 1 := List.length_append
    have stored := storeAll_behind [] fresh (text.content ++ [0])
    rw [if_pos (by omega), List.nil_append, List.nil_append, List.length_nil, Int.natCast_zero,
      List.append_assoc] at stored
    rw [stored, Option.bind_some]
    have left : (fresh.drop (text.content ++ [0]).length).length =
        rest.length + 1 + 2 * newL := by
      rw [List.length_drop]
      omega
    have sizes : (text.content ++ 0 :: fresh.drop (text.content ++ [0]).length).length =
        1 + (text.content ++ 0 :: rest).length + 2 * newL := by
      rw [List.length_append, List.length_cons, left, size]
      change text.length + _ = _
      omega
    refine ⟨fresh.drop (text.content ++ [0]).length, ?_, ?_⟩
    · rw [sizes]
      rfl
    · omega
  · rw [if_neg grows]
    refine ⟨rest, rfl, ?_⟩
    omega

/-- A length that does not fit an `int` leaves no buffer. -/
theorem growBuf_refused {newL : Nat}
    (other : ¬ BufFits (text.content ++ 0 :: rest).length newL) :
    growBuf garbage (text.content ++ 0 :: rest) (text.content ++ 0 :: rest).length newL = none := by
  rw [growBuf, intValue]
  by_cases first : newL + 1 ≤ intMax
  · rw [if_pos first, Option.bind_eq_bind, Option.bind_some]
    have grows : newL + 1 > (text.content ++ 0 :: rest).length := by
      by_contra small
      exact other ⟨first, fun large => absurd large small⟩
    have large : ¬ 1 + (text.content ++ 0 :: rest).length + 2 * newL ≤ intMax := fun fits =>
      other ⟨first, fun _ => fits⟩
    rw [if_pos grows, intValue, if_neg large]
    rfl
  · rw [if_neg first]
    rfl

end Buffer

/-! ## A match -/

section Substitutions

variable (garbage : Nat → Byte) (key : CString) (subs : Subs key.length) (replace : CString)

/-- The part of the key before the match, and the replacement. -/
def replaced : CString where
  content := key.content.take subs.whole.so ++ expansion subs key.content replace.content
  noNul := by
    intro nul
    rcases List.mem_append.mp nul with front | back
    · exact key.noNul (List.mem_of_mem_take front)
    · exact expansion_noNul key.noNul replace.noNul back

variable {garbage key subs replace}

theorem replaced_length : (replaced key subs replace).length =
    subs.whole.so + replacementLength subs replace.content := by
  have ordered := subs.whole.ordered
  have inside := subs.whole.inside
  change (key.content.take subs.whole.so ++ expansion subs key.content replace.content).length = _
  change subs.whole.eo ≤ key.content.length at inside
  rw [List.length_append, List.length_take,
    @replacementLength_expansion _ subs key.content rfl replace.content]
  omega

/-- A buffer with no string in it yet. -/
theorem buildReplacement_fits {rest : List Byte}
    (fits : BufFits (0 :: rest).length (replaced key subs replace).length) :
    ∃ more, buildReplacement garbage key subs replace (0 :: rest) (0 :: rest).length =
      some ((replaced key subs replace).content ++ 0 :: more,
        ((replaced key subs replace).content ++ 0 :: more).length,
        (replaced key subs replace).length) := by
  have ordered := subs.whole.ordered
  have inside := subs.whole.inside
  change subs.whole.eo ≤ key.content.length at inside
  have empty_ (rest : List Byte) : stringIn (0 :: rest) 0 = some .empty :=
    stringIn_text [] .empty rest
  have zero : CString.empty.length = 0 := rfl
  have long := @replaced_length key subs replace
  have value : intValue (CString.empty.length + subs.whole.so +
      replacementLength subs replace.content) = some (replaced key subs replace).length := by
    have small := fits.1
    rw [zero, Nat.zero_add, ← long, intValue, if_pos (by omega)]
  have ⟨back, grown, room⟩ := growBuf_fits garbage .empty rest fits
  change growBuf garbage (0 :: rest) (0 :: rest).length _ =
    some (0 :: back, (0 :: back).length) at grown
  rw [zero, Nat.zero_add] at room
  have front : (key.content.take subs.whole.so).length = subs.whole.so := by
    rw [List.length_take]
    omega
  have counted := @replacementLength_expansion _ subs key.content rfl replace.content
  have copied := @strncat_string [] key.content back (by simp) subs.whole.so (by omega)
  rw [List.nil_append, List.nil_append, front] at copied
  have behind : (0 :: back.drop subs.whole.so).length = back.length - subs.whole.so + 1 := by
    rw [List.length_cons, List.length_drop]
  have stored := @storeReplacement_expansion _ subs key.content rfl replace.content
    (key.content.take subs.whole.so) (0 :: back.drop subs.whole.so) (by omega)
  rw [front] at stored
  have left : 0 < ((0 :: back.drop subs.whole.so).drop
      (expansion subs key.content replace.content).length).length := by
    rw [List.length_drop]
    omega
  have ⟨old, more, last⟩ := List.length_pos_iff_exists_cons.mp left
  rw [last] at stored
  have whole : (replaced key subs replace).content =
      key.content.take subs.whole.so ++ expansion subs key.content replace.content := rfl
  have sizes : (0 :: back).length =
      ((replaced key subs replace).content ++ 0 :: more).length := by
    have rest := congrArg List.length last
    rw [List.length_drop, behind, List.length_cons] at rest
    rw [List.length_append, List.length_cons, List.length_cons]
    change back.length + 1 = (replaced key subs replace).length + (more.length + 1)
    omega
  refine ⟨more, ?_⟩
  rw [buildReplacement, empty_, Option.bind_eq_bind, Option.bind_some, value,
    Option.bind_eq_bind, Option.bind_some, grown, Option.bind_eq_bind, Option.bind_some]
  dsimp only
  rw [empty_, Option.bind_some, copied, Option.bind_eq_bind, Option.bind_some, zero,
    Nat.zero_add, stored, Option.bind_some]
  dsimp only
  rw [store_inside, whole, sizes, whole]
  rfl

/-- Lengths that do not fit an `int`. -/
theorem buildReplacement_refused {rest : List Byte}
    (other : ¬ BufFits (0 :: rest).length (replaced key subs replace).length) :
    buildReplacement garbage key subs replace (0 :: rest) (0 :: rest).length = none := by
  have empty_ : stringIn (0 :: rest) 0 = some .empty := stringIn_text [] .empty rest
  have zero : CString.empty.length = 0 := rfl
  rw [buildReplacement, empty_, Option.bind_eq_bind, Option.bind_some, zero, Nat.zero_add,
    ← replaced_length, intValue]
  by_cases small : (replaced key subs replace).length ≤ intMax
  · have refused := growBuf_refused garbage .empty rest other
    change growBuf garbage (0 :: rest) (0 :: rest).length _ = none at refused
    rw [if_pos small, Option.bind_eq_bind, Option.bind_some, refused]
    rfl
  · rw [if_neg small]
    rfl

theorem regexAnswer_text (text : CString) (slack : List Byte) :
    regexAnswer (text.content ++ 0 :: slack) =
      some ⟨0, text.content ++ 0 :: slack, text.length⟩ := by
  have string := stringIn_text [] text slack
  rw [List.nil_append, List.length_nil, Int.natCast_zero] at string
  rw [regexAnswer, string]
  rfl

/-- The buffer of a match that is not empty holds the replacement. -/
theorem substitute_filled {rest : List Byte} (filled : subs.whole.so < subs.whole.eo)
    (fits : BufFits (0 :: rest).length (replaced key subs replace).length) :
    ∃ slack, substitute garbage key subs replace (0 :: rest) (0 :: rest).length =
      some (some ⟨0, (replaced key subs replace).content ++ 0 :: slack,
        (replaced key subs replace).length⟩) := by
  have ⟨more, built⟩ := @buildReplacement_fits garbage key subs replace rest fits
  have ended : store ((replaced key subs replace).content ++ 0 :: more)
      (replaced key subs replace).length 0 =
        some ((replaced key subs replace).content ++ 0 :: more) := store_inside _ more 0 0
  refine ⟨more, ?_⟩
  rw [substitute, built, Option.bind_eq_bind, Option.bind_some]
  dsimp only
  rw [if_neg (Nat.ne_of_lt filled), ended, Option.bind_eq_bind, Option.bind_some,
    regexAnswer_text]
  rfl

/-- With an empty match the loop is left, or the string is one byte longer. -/
theorem substitute_empty {rest : List Byte} (empty_ : subs.whole.so = subs.whole.eo)
    {found : Option RegexAnswer}
    (ran : substitute garbage key subs replace (0 :: rest) (0 :: rest).length = some found) :
    ∀ answer ∈ found, answer.len = (replaced key subs replace).length + 1 := by
  intro answer here
  by_cases fits : BufFits (0 :: rest).length (replaced key subs replace).length
  · have ⟨more, built⟩ := @buildReplacement_fits garbage key subs replace rest fits
    have string := stringIn_text [] (replaced key subs replace) more
    rw [List.nil_append, List.length_nil, Int.natCast_zero] at string
    rw [substitute, built, Option.bind_eq_bind, Option.bind_some] at ran
    dsimp only at ran
    rw [if_pos empty_] at ran
    by_cases last : subs.whole.so ≥ key.length
    · rw [if_pos last, Option.some.injEq] at ran
      rw [← ran] at here
      cases here
    · have inside : subs.whole.eo < key.content.length := by
        change ¬ subs.whole.so ≥ key.content.length at last
        omega
      have byte : key.content[subs.whole.eo + 1 - 1]? = some key.content[subs.whole.eo] :=
        List.getElem?_eq_getElem inside
      rw [if_neg last, string, Option.bind_eq_bind, Option.bind_some] at ran
      by_cases again : BufFits ((replaced key subs replace).content ++ 0 :: more).length
          ((replaced key subs replace).length + 1)
      · have ⟨slack, grown, room⟩ :=
          growBuf_fits garbage (replaced key subs replace) more again
        have ⟨old, slack, size⟩ : ∃ old rest, slack = old :: rest := by
          apply List.length_pos_iff_exists_cons.mp
          omega
        rw [size] at grown
        have added : store ((replaced key subs replace).content ++ 0 :: old :: slack)
            (((replaced key subs replace).length + 1 - 1 : Nat) : Int)
            key.content[subs.whole.eo] =
          some ((replaced key subs replace).content ++
            key.content[subs.whole.eo] :: old :: slack) := store_inside _ _ 0 _
        let longer : CString := ⟨(replaced key subs replace).content ++
          [key.content[subs.whole.eo]], by
            intro nul
            rcases List.mem_append.mp nul with front | byte
            · exact (replaced key subs replace).noNul front
            · exact key.noNul (List.mem_singleton.mp byte ▸ List.getElem_mem inside)⟩
        have count : longer.length = (replaced key subs replace).length + 1 := List.length_append
        have split_ (back : List Byte) : (replaced key subs replace).content ++
            key.content[subs.whole.eo] :: back = longer.content ++ back := by
          rw [List.append_assoc]
          rfl
        have ended (old : Byte) : store (longer.content ++ old :: slack)
            ((replaced key subs replace).length + 1 : Nat) 0 = some (longer.content ++ 0 :: slack) :=
          count ▸ store_inside longer.content slack old 0
        rw [grown, Option.bind_eq_bind, Option.bind_some, byte, Option.bind_eq_bind,
          Option.bind_some] at ran
        dsimp only at ran
        rw [added, Option.bind_eq_bind, Option.bind_some, split_, ended, Option.bind_eq_bind,
          Option.bind_some, ended, Option.bind_some, regexAnswer_text, Option.bind_some,
          Option.some.injEq] at ran
        rw [← ran, Option.mem_def, Option.some.injEq] at here
        rw [← here, ← count]
      · rw [growBuf_refused garbage (replaced key subs replace) more again] at ran
        cases ran
  · rw [substitute, buildReplacement_refused fits] at ran
    cases ran

end Substitutions

/-! ## The map -/

/-- The first rule that matches a key. -/
def matchedRule (key : CString) (rules : List RegexRule) : Option (Subs key.length × CString) :=
  rules.findSome? fun rule => (rule.regexec key).map (·, rule.replace)

/-- The lookup finds the replacement of the first rule that matches, and nothing where none does. -/
def RegexFound (garbage : Nat → Byte) (key : CString) (rules : List RegexRule) : Prop :=
  match matchedRule key rules with
  | none => regexDbserverGet garbage key rules = some ⟨-2, [], 0⟩
  | some (subs, replace) => ∃ block,
    regexDbserverGet garbage key rules = some ⟨0, block, (replaced key subs replace).length⟩ ∧
      stringIn block 0 = some (replaced key subs replace)

section Rules

variable (garbage : Nat → Byte) (key : CString) {rule : RegexRule} {rules : List RegexRule}

/-- Each rule starts with a buffer for twice the key. -/
theorem regexDbserverGet_large (large : ¬ 2 * key.length + 1 ≤ intMax) (filled : rules ≠ []) :
    regexDbserverGet garbage key rules = none := by
  cases rules with
  | nil => exact absurd rfl filled
  | cons rule rules =>
    rw [regexDbserverGet, intValue, if_neg large]
    rfl

variable {garbage key} (small : 2 * key.length + 1 ≤ intMax)
include small

theorem regexDbserverGet_cons : ∃ rest, (0 :: rest : List Byte).length = 2 * key.length + 1 ∧
    regexDbserverGet garbage key (rule :: rules) = match rule.regexec key with
      | none => regexDbserverGet garbage key rules
      | some subs =>
        (substitute garbage key subs rule.replace (0 :: rest) (0 :: rest).length).map fun found =>
          found.getD ⟨-2, [], 0⟩ := by
  have size := malloc_length garbage (2 * key.length + 1)
  have ⟨first, rest, fresh⟩ : ∃ first rest, malloc garbage (2 * key.length + 1) = first :: rest := by
    apply List.length_pos_iff_exists_cons.mp
    omega
  have stored : store (first :: rest) 0 0 = some (0 :: rest) := store_inside [] rest first 0
  rw [fresh, List.length_cons] at size
  refine ⟨rest, size, ?_⟩
  rw [regexDbserverGet, intValue, if_pos small, Option.bind_eq_bind, Option.bind_some, fresh,
    stored, Option.bind_eq_bind, Option.bind_some, List.length_cons, size]
  cases rule.regexec key with
  | none => rfl
  | some subs =>
    dsimp only
    cases substitute garbage key subs rule.replace (0 :: rest) (2 * key.length + 1) with
    | none => rfl
    | some found => cases found <;> rfl

/-- Rules that do not match are passed over. -/
theorem regexDbserverGet_none (none_ : matchedRule key rules = none) :
    regexDbserverGet garbage key rules = some ⟨-2, [], 0⟩ := by
  induction rules with
  | nil => rfl
  | cons rule rules ih =>
    rw [matchedRule, List.findSome?_cons] at none_
    have ⟨rest, size, ran⟩ := @regexDbserverGet_cons garbage key rule rules small
    cases unmatched : rule.regexec key with
    | some subs =>
      rw [unmatched] at none_
      cases none_
    | none =>
      rw [unmatched] at none_ ran
      exact ran.trans (ih none_)

/-- The first rule that matches decides. -/
theorem regexDbserverGet_some {subs : Subs key.length} {replace : CString}
    (matched : matchedRule key rules = some (subs, replace)) :
    ∃ rest, (0 :: rest : List Byte).length = 2 * key.length + 1 ∧
      regexDbserverGet garbage key rules =
        (substitute garbage key subs replace (0 :: rest) (0 :: rest).length).map fun found =>
          found.getD ⟨-2, [], 0⟩ := by
  induction rules with
  | nil => cases matched
  | cons rule rules ih =>
    rw [matchedRule, List.findSome?_cons] at matched
    have ⟨rest, size, ran⟩ := @regexDbserverGet_cons garbage key rule rules small
    cases here : rule.regexec key with
    | none =>
      rw [here] at matched ran
      rw [ran]
      exact ih matched
    | some first =>
      rw [here] at matched ran
      cases matched
      exact ⟨rest, size, ran⟩

end Rules

/-- What the lookup needs: sizes that fit an `int`, and a match that is not empty. -/
theorem regexDbserverGet_iff (garbage : Nat → Byte) (key : CString) (rules : List RegexRule) :
    RegexFound garbage key rules ↔
      (rules = [] ∨ 2 * key.length + 1 ≤ intMax) ∧
        ∀ subs replace, matchedRule key rules = some (subs, replace) →
          subs.whole.so < subs.whole.eo ∧
            BufFits (2 * key.length + 1) (replaced key subs replace).length := by
  by_cases empty_ : rules = []
  · subst empty_
    refine iff_of_true rfl ⟨.inl rfl, ?_⟩
    intro subs replace matched
    cases matched
  by_cases small : 2 * key.length + 1 ≤ intMax
  · rw [RegexFound]
    cases matched : matchedRule key rules with
    | none =>
      refine iff_of_true (regexDbserverGet_none small matched) ⟨.inr small, ?_⟩
      intro subs replace found
      cases found
    | some found =>
      obtain ⟨subs, replace⟩ := found
      have ⟨rest, size, ran⟩ := @regexDbserverGet_some garbage key _ small _ _ matched
      constructor
      · rintro ⟨block, found, string⟩
        refine ⟨.inr small, ?_⟩
        intro subs' replace' same
        cases same
        rw [ran] at found
        by_cases fits : BufFits (0 :: rest).length (replaced key subs replace).length
        · refine ⟨?_, size ▸ fits⟩
          by_contra empty_
          have ordered := subs.whole.ordered
          have same : subs.whole.so = subs.whole.eo := by omega
          cases kept : substitute garbage key subs replace (0 :: rest) (0 :: rest).length with
          | none =>
            rw [kept] at found
            cases found
          | some answer =>
            have longer := substitute_empty same kept
            rw [kept, Option.map_some, Option.some.injEq] at found
            cases answer with
            | none => cases found
            | some answer =>
              have more := longer answer rfl
              change answer = _ at found
              rw [found] at more
              dsimp only at more
              omega
        · rw [substitute, buildReplacement_refused fits] at found
          cases found
      · rintro ⟨-, needs⟩
        have ⟨filled, fits⟩ := needs subs replace rfl
        rw [← size] at fits
        have ⟨slack, stored⟩ := @substitute_filled garbage _ _ _ _ filled fits
        refine ⟨(replaced key subs replace).content ++ 0 :: slack, ?_, ?_⟩
        · rw [ran, stored]
          rfl
        · have string := stringIn_text [] (replaced key subs replace) slack
          rwa [List.nil_append, List.length_nil, Int.natCast_zero] at string
  · have refused := regexDbserverGet_large garbage key small empty_
    refine iff_of_false ?_ ?_
    · rw [RegexFound, refused]
      cases matchedRule key rules with
      | none => exact nofun
      | some found => exact nofun
    · rintro ⟨none_ | fits, -⟩
      · exact empty_ none_
      · exact small fits

/-- The rule with the pattern `^`, which matches the empty string at the start of every key. -/
def startRule (replace : CString) : RegexRule where
  regexec key := some ⟨⟨0, 0, Nat.le_refl 0, Nat.zero_le key.length⟩, fun _ => none⟩
  replace := replace

/-- The first byte of the key is added behind the server. -/
theorem regexDbserverGet_start :
    ¬ RegexFound (fun _ => 0) (lit "user") [startRule (lit "host")] := by
  have found : (regexDbserverGet (fun _ => 0) (lit "user") [startRule (lit "host")]).map (·.len) =
      some 5 := by decide +kernel
  rintro ⟨block, other, -⟩
  rw [other] at found
  have long : (replaced (lit "user")
      ⟨⟨0, 0, Nat.le_refl 0, Nat.zero_le (lit "user").length⟩, fun _ => none⟩
      (lit "host")).length = 4 := by decide +kernel
  rw [Option.map_some, Option.some.injEq] at found
  have same := long.symm.trans found
  cases same

end Perdition
