import Perdition.Capability
import Perdition.Lib.Pieces

/-!
# Words in lists of capabilities

What `strstr` finds, and what adding a word to a list or deleting it from one does to the length of the
list. A word is deleted out of bounds only where it is the first one.
-/
namespace Perdition

open Lib

/-! ## Searching -/

/-- What is found occurs there. -/
theorem strstr_occurs {haystack needle : List Byte} {place : Nat}
    (found : strstr haystack needle = some place) : needle <+: haystack.drop place := by
  induction haystack generalizing place with
  | nil =>
    rw [strstr] at found
    split at found
    · rename_i starts
      rw [Option.some.inj found.symm]
      exact List.isPrefixOf_iff_prefix.mp starts
    · cases found
  | cons b rest ih =>
    rw [strstr] at found
    split at found
    · rename_i starts
      rw [Option.some.inj found.symm]
      exact List.isPrefixOf_iff_prefix.mp starts
    · have ⟨before, earlier, same⟩ := Option.map_eq_some_iff.mp found
      rw [← same]
      exact ih earlier

/-- What a string starts with is found at its start. -/
theorem strstr_start {haystack needle : List Byte} (starts : needle <+: haystack) :
    strstr haystack needle = some 0 := by
  have found : needle.isPrefixOf haystack = true := List.isPrefixOf_iff_prefix.mpr starts
  cases haystack <;> rw [strstr, if_pos found]

/-- Where the needle occurs, it is found there or earlier. -/
theorem strstr_early (needle front back : List Byte) :
    ∃ place, strstr (front ++ needle ++ back) needle = some place ∧ place ≤ front.length := by
  induction front with
  | nil => exact ⟨0, strstr_start (List.prefix_append needle back), Nat.le_refl 0⟩
  | cons b front ih =>
    have ⟨place, found, early⟩ := ih
    rw [List.cons_append, List.cons_append, strstr]
    split
    · exact ⟨0, rfl, Nat.zero_le _⟩
    · exact ⟨place + 1, congrArg _ found, Nat.succ_le_succ early⟩

/-- Where the needle does not occur nothing is found. -/
theorem strstr_absent {haystack needle : List Byte} :
    strstr haystack needle = none ↔ ¬ needle <:+: haystack := by
  constructor
  · rintro none_ ⟨front, back, same⟩
    have ⟨place, found, _⟩ := strstr_early needle front back
    rw [same, none_] at found
    cases found
  · intro absent
    cases found : strstr haystack needle with
    | none => rfl
    | some place =>
      have ⟨after, same⟩ := strstr_occurs found
      refine absurd ⟨haystack.take place, after, ?_⟩ absent
      rw [List.append_assoc, same, List.take_append_drop]

/-- What is found is the leftmost occurrence. -/
theorem strstr_first {haystack needle : List Byte} {place : Nat}
    (found : strstr haystack needle = some place) {front back : List Byte}
    (occurs : front ++ needle ++ back = haystack) : place ≤ front.length := by
  have ⟨place', found', early⟩ := strstr_early needle front back
  rw [occurs, found, Option.some.injEq] at found'
  rwa [found']

/-- The leftmost occurrence is found. -/
theorem strstr_leftmost {needle first rest : List Byte}
    (leftmost : ∀ front back, front ++ needle ++ back = first ++ needle ++ rest →
      first.length ≤ front.length) :
    strstr (first ++ needle ++ rest) needle = some first.length := by
  have ⟨place, found, early⟩ := strstr_early needle first rest
  have ⟨after, same⟩ := strstr_occurs found
  have late := leftmost ((first ++ needle ++ rest).take place) after (by
    rw [List.append_assoc, same, List.take_append_drop])
  rw [List.length_take] at late
  rw [found]
  congr 1
  omega

/-- A list is cut where its separator is found. -/
theorem cut_found {sep text : List Byte} {place : Nat} {pieces : List (List Byte)}
    (found : strstr text sep = some place)
    (later : Cut sep (text.drop (place + sep.length)) pieces) :
    Cut sep text (text.take place :: pieces) := by
  have ⟨after, same⟩ := strstr_occurs found
  have rest : text.drop (place + sep.length) = after := by
    rw [← List.drop_drop, ← same, List.drop_left]
  have whole : text.take place ++ sep ++ after = text := by
    rw [List.append_assoc, same, List.take_append_drop]
  have front : (text.take place).length ≤ place := List.length_take_le _ _
  rw [rest] at later
  have cut := @Cut.next _ sep (text.take place) after pieces
    (fun _ _ occurs => front.trans (strstr_first found (occurs.trans whole))) later
  rwa [whole] at cut

section Lists

variable {needle delimiter : List Byte}

/-- What is found has room in the list. -/
theorem strstr_within {haystack : List Byte} {start place : Nat} (filled : needle ≠ [])
    (found : strstr (haystack.drop start) needle = some place) :
    needle <+: haystack.drop (start + place) ∧
      start + place + needle.length ≤ haystack.length := by
  have occurs := strstr_occurs found
  rw [List.drop_drop] at occurs
  have short := occurs.length_le
  have long : 0 < needle.length := List.length_pos_iff.mpr filled
  rw [List.length_drop] at short
  exact ⟨occurs, by omega⟩

/-- A word and what follows it cannot begin alike. -/
structure Apart (needle delimiter : List Byte) : Prop where
  /-- There is a word. -/
  word : needle ≠ []
  /-- There is a delimiter. -/
  filled : delimiter ≠ []
  /-- The first byte of one is not that of the other. -/
  head : needle.head? ≠ delimiter.head?

/-- What follows a word does not begin with the word. -/
theorem Apart.not_prefix (apart : Apart needle delimiter) {after : List Byte}
    (follows : (!after.isEmpty && !startsWith after delimiter) = false) : ¬ needle <+: after := by
  intro starts
  cases after with
  | nil => exact apart.word (List.prefix_nil.mp starts)
  | cons b rest =>
    have next : delimiter <+: b :: rest := by
      simpa [startsWith, List.isPrefixOf_iff_prefix] using follows
    have first {front : List Byte} (filled : front ≠ []) (begins : front <+: b :: rest) :
        front.head? = some b := by
      cases front with
      | nil => exact absurd rfl filled
      | cons c front => rw [(List.cons_prefix_cons.mp begins).1]; rfl
    exact apart.head ((first apart.word starts).trans (first apart.filled next).symm)

/-- Words are deleted within bounds unless the first one is. -/
theorem deleteSubstring_shorter (apart : Apart needle delimiter) : ∀ (rounds : Nat)
    {haystack : List Byte} {start : Nat}, (start = 0 → ¬ needle <+: haystack) →
      ∃ left, deleteSubstring needle delimiter rounds haystack start = some left ∧
        left.length ≤ haystack.length := by
  have long : 0 < needle.length := List.length_pos_iff.mpr apart.word
  intro rounds
  induction rounds with
  | zero => exact fun {haystack} _ _ => ⟨haystack, rfl, Nat.le_refl _⟩
  | succ rounds ih =>
    intro haystack start inside
    rw [deleteSubstring]
    cases found : strstr (haystack.drop start) needle with
    | none => exact ⟨haystack, rfl, Nat.le_refl _⟩
    | some place =>
      have ⟨occurs, room⟩ := strstr_within apart.word found
      have later : start + place ≠ 0 := by
        intro zero
        rw [zero, List.drop_zero] at occurs
        exact inside (by omega) occurs
      dsimp only
      split
      · exact ih fun zero => absurd zero (by omega)
      rename_i word
      split
      · exact ih fun zero => absurd zero (by omega)
      rename_i follows
      have bounds : delimiter.length ≤ start + place := by
        by_contra low
        exact word ⟨later, .inl (by omega)⟩
      rw [if_neg (by omega)]
      have apartAfter := apart.not_prefix (Bool.eq_false_iff.mpr follows)
      have ⟨left, deleted, shorter⟩ := @ih (haystack.take (start + place - delimiter.length) ++
        haystack.drop (start + place + needle.length)) (start + place - delimiter.length)
        fun zero => by
          rw [zero, List.take_zero, List.nil_append]
          exact apartAfter
      refine ⟨left, deleted, shorter.trans ?_⟩
      rw [List.length_append, List.length_take, List.length_drop]
      omega

/-- A word that is in the list is deleted from it, with its delimiter. -/
theorem deleteSubstring_found (apart : Apart needle delimiter) {haystack : List Byte} :
    ∀ (rounds : Nat) {cursor : Nat},
      findSubstring haystack needle delimiter rounds cursor = some true →
        ∃ left, deleteSubstring needle delimiter rounds haystack cursor = some left ∧
          left.length + delimiter.length + needle.length ≤ haystack.length := by
  have long : 0 < delimiter.length := List.length_pos_iff.mpr apart.filled
  intro rounds
  induction rounds with
  | zero =>
    intro cursor listed
    cases listed
  | succ rounds ih =>
    intro cursor listed
    rw [findSubstring] at listed
    rw [deleteSubstring]
    cases found : strstr (haystack.drop cursor) needle with
    | none => simp [found] at listed
    | some place =>
      have ⟨_, room⟩ := strstr_within apart.word found
      simp only [found] at listed
      dsimp only
      by_cases low : cursor + place < delimiter.length
      · rw [if_pos low] at listed
        cases listed
      rw [if_neg low] at listed
      have later : cursor + place ≠ 0 := by omega
      simp only [ne_eq, later, not_false_eq_true, low, false_or, true_and]
      split at listed
      · rename_i other
        rw [if_pos other]
        exact ih listed
      rename_i word
      rw [if_neg word]
      split at listed
      · rename_i more
        rw [if_pos more]
        exact ih listed
      rename_i follows
      rw [if_neg follows, if_neg (by simp)]
      have apartAfter := apart.not_prefix (Bool.eq_false_iff.mpr follows)
      have ⟨left, deleted, shorter⟩ := @deleteSubstring_shorter needle delimiter apart rounds
        (haystack.take (cursor + place - delimiter.length) ++
          haystack.drop (cursor + place + needle.length)) (cursor + place - delimiter.length)
        fun zero => by
          rw [zero, List.take_zero, List.nil_append]
          exact apartAfter
      refine ⟨left, deleted, ?_⟩
      rw [List.length_append, List.length_take, List.length_drop] at shorter
      omega

/-- A list that is searched within bounds does not begin with the word. -/
theorem findSubstring_inside {haystack : List Byte} {rounds : Nat} {listed : Bool}
    (filled : delimiter ≠ [])
    (found : findSubstring haystack needle delimiter (rounds + 1) 0 = some listed) :
    ¬ needle <+: haystack := by
  intro starts
  have long : 0 < delimiter.length := List.length_pos_iff.mpr filled
  rw [findSubstring, List.drop_zero, strstr_start starts] at found
  simp [long] at found

end Lists

/-- Where a capability can be added it can be deleted, and the list without it is shorter. -/
theorem protocolCapability_both {existing capability delimiter added : CString}
    (apart : Apart capability.content delimiter.content)
    (adds : protocolCapability true existing capability delimiter = some added) :
    ∃ deleted, protocolCapability false existing capability delimiter = some deleted ∧
      deleted.length + delimiter.length + capability.length ≤ added.length := by
  rw [protocolCapability, if_pos rfl, strAppendSubstringIfMissing] at adds
  have ⟨listed, found, same⟩ := Option.bind_eq_some_iff.mp adds
  have inside := findSubstring_inside apart.filled found
  rw [protocolCapability, if_neg (by decide), strDeleteSubstring]
  cases listed with
  | true =>
    rw [if_pos rfl, Option.some.injEq] at same
    subst same
    have ⟨left, deleted, shorter⟩ := deleteSubstring_found apart _ found
    rw [deleted]
    have cut := cstr_length_le left
    refine ⟨cstr left, rfl, ?_⟩
    change _ + delimiter.content.length + capability.content.length ≤ existing.content.length
    omega
  | false =>
    rw [if_neg (by decide), Option.some.injEq] at same
    subst same
    have ⟨left, deleted, shorter⟩ := @deleteSubstring_shorter _ _ apart (existing.length + 1)
      existing.content 0 fun _ => inside
    rw [deleted]
    refine ⟨cstr left, rfl, ?_⟩
    have cut := cstr_length_le left
    change _ + delimiter.content.length + capability.content.length ≤
      (existing.content ++ delimiter.content ++ capability.content).length
    rw [List.length_append, List.length_append]
    omega

/-! ## Lines -/

/-- A list whose delimiter is as long as a line end keeps its length when it is broken into lines. -/
theorem mangleCapability_length {delimiter : List Byte} (two : delimiter.length = 2) :
    ∀ (rounds : Nat) (rest : List Byte), (mangleCapability delimiter rounds rest).length = rest.length := by
  have filled : delimiter ≠ [] := fun none_ => by simp [none_] at two
  intro rounds
  induction rounds with
  | zero => exact fun rest => rfl
  | succ rounds ih =>
    intro rest
    rw [mangleCapability]
    cases found : strstr rest delimiter with
    | none => rfl
    | some place =>
      have ⟨_, room⟩ := @strstr_within _ rest 0 _ filled found
      have line : crlf.length = 2 := rfl
      simp only [List.length_append, List.length_take, ih, List.length_drop, line]
      omega

theorem mangleCapability_mem {delimiter : List Byte} {b : Byte} :
    ∀ (rounds : Nat) {rest : List Byte}, b ∈ mangleCapability delimiter rounds rest →
      b ∈ rest ∨ b ∈ crlf := by
  intro rounds
  induction rounds with
  | zero => exact fun member => .inl member
  | succ rounds ih =>
    intro rest member
    rw [mangleCapability] at member
    split at member
    · exact .inl member
    · rcases List.mem_append.mp member with early | late
      · rcases List.mem_append.mp early with front | line
        · exact .inl (List.mem_of_mem_take front)
        · exact .inr line
      · exact (ih late).imp_left List.mem_of_mem_drop

theorem managesieveMangleCapability_length (capability : CString) :
    (managesieveMangleCapability capability).length = capability.length := by
  have two : managesieveCapaDelimiter.content.length = 2 := by decide
  have noNul : 0 ∉ mangleCapability managesieveCapaDelimiter.content (capability.length + 1)
      capability.content := by
    intro nul
    rcases mangleCapability_mem _ nul with inside | line
    · exact capability.noNul inside
    · exact absurd line (by decide)
  change (cstr _).content.length = capability.content.length
  rw [cstr_content noNul, mangleCapability_length two]

/-- The capabilities of ManageSieve without STARTTLS can be made where those with it can, and are shorter. -/
theorem managesieveCapability_both {opt : Options} {tlsFlags tlsState tlsState' : Flag}
    {added : CString} (offered : tlsOffered tlsFlags tlsState = true)
    (not_ : tlsOffered tlsFlags tlsState' = false)
    (adds : managesieveCapability opt tlsFlags tlsState = some added) :
    ∃ deleted, managesieveCapability opt tlsFlags tlsState' = some deleted ∧
      deleted.length + 12 ≤ added.length := by
  have apart : Apart (lit "\"STARTTLS\"").content managesieveCapaDelimiter.content :=
    ⟨by decide, by decide, by decide⟩
  have sizes : managesieveCapaDelimiter.length = 2 ∧ (lit "\"STARTTLS\"").length = 10 := by decide
  unfold managesieveCapability at adds ⊢
  have ⟨whole, made, same⟩ := Option.bind_eq_some_iff.mp adds
  rw [offered] at made
  have ⟨left, deleted, shorter⟩ := protocolCapability_both apart made
  rw [not_, deleted]
  refine ⟨_, rfl, ?_⟩
  have same : managesieveMangleCapability whole = added := Option.some.inj same
  rw [managesieveMangleCapability_length, ← same, managesieveMangleCapability_length]
  omega

end Perdition
