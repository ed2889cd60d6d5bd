import Perdition.Ldap
import Perdition.Verif.Replacing

/-!
# The loop over a filter

The loop of `pldap_get_filter_str` on its block, as one on the text that the block holds: what is
kept, and what is put in the place of a directive while the block still holds the text behind it.
-/
namespace Perdition

open Lib Lib.Block

/-! ## The loop on the text -/

/-- What the loop remembers of the bytes just before. -/
inductive FilterFlags where
  /-- Nothing. -/
  | idle
  /-- A percent sign. -/
  | sign
  /-- A percent sign and these bytes, which begin with a digit; behind an odd number of percent signs
  or not. -/
  | digits (held : List Byte) (odd : Bool)

namespace FilterFlags

/-- The bytes. -/
def text : FilterFlags → List Byte
  | .idle => []
  | .sign => [percent]
  | .digits held _ => percent :: held

/-- `format_percent`. -/
def formatPercent : FilterFlags → Bool
  | .idle => false
  | .sign => true
  | .digits _ odd => odd

/-- `format_int` is set. -/
def saved : FilterFlags → Bool
  | .digits _ _ => true
  | _ => false

/-- The flags and the bytes that they no longer are about, after a byte that is kept. -/
def next (c : Byte) : FilterFlags → FilterFlags × List Byte
  | .idle => if c = percent then (.sign, []) else (.idle, [c])
  | .sign =>
    if c = percent then (.idle, [percent, c])
    else if isDigit c then (.digits [c] true, [])
    else (.idle, [percent, c])
  | .digits held odd =>
    if c = percent then (.digits (held ++ [c]) (!odd), [])
    else if odd && isDigit c then (.digits (held ++ [c]) true, [])
    else (.idle, percent :: held ++ [c])

/-- `format_width`, before `rest`. -/
def asks (rest : List Byte) : FilterFlags → Int
  | .digits held _ => atoi (cstr (held ++ 115 :: rest))
  | _ => 0

/-- `format_width` where the key may be longer. -/
def widens (keyLen : Nat) (rest : List Byte) (flags : FilterFlags) : Nat :=
  if flags.asks rest < keyLen then keyLen else (flags.asks rest).toNat

/-- The variables of the loop. -/
def vars (flags : FilterFlags) (front rest : List Byte) : FilterVars where
  returnFilter := front ++ flags.text ++ rest ++ [0]
  filterLen := (front ++ flags.text ++ rest).length
  i := (front ++ flags.text).length
  formatPercent := flags.formatPercent
  formatInt := if flags.saved then front.length + 1 else 0

end FilterFlags

/-- The loop, with the text alone. -/
def filterRun (key : List Byte) : FilterFlags → List Byte → List Byte → Option (List Byte)
  | flags, front, [] => some (front ++ flags.text)
  | flags, front, c :: rest =>
    if flags.formatPercent && c = 115 then
      let width := flags.widens key.length rest
      if (front ++ flags.text ++ c :: rest).length + width ≤ intMax ∧
          (flags.text.length + 1 ≤ width + 1 ∨ rest = []) then
        filterRun key .idle (front ++ (List.replicate (width - key.length) space ++ key)) rest
      else none
    else filterRun key (flags.next c).1 (front ++ (flags.next c).2) rest

/-! ## The block -/

section Memory

variable (garbage : Nat → Byte) (front region rest : List Byte) (key : CString) {width : Nat}

/-- The block of the new size, with what is behind the directive moved. -/
theorem moved_behind (fits : region.length ≤ width + 1 ∨ rest = []) :
    ∃ gone last, gone.length = width ∧
      memmove (resize garbage (front ++ region ++ rest ++ [0])
        ((front ++ region ++ rest).length + width - region.length + 1))
        (front.length + width) (front.length + region.length) rest.length =
      some (front ++ gone ++ rest ++ [last]) := by
  have size : (front ++ region ++ rest).length + width - region.length + 1 =
      front.length + (width + (rest.length + 1)) := by
    simp only [List.length_append]
    omega
  rw [size]
  have long := resize_length garbage (front ++ region ++ rest ++ [0])
    (front.length + (width + (rest.length + 1)))
  by_cases none_ : rest = []
  · have begins : front ++ region ++ rest ++ [0] = front ++ (region ++ rest ++ [0]) := by simp
    have ⟨back, kept⟩ := resize_keeps garbage (region ++ rest ++ [0])
      (Nat.le_add_right front.length (width + (rest.length + 1)))
    rw [← begins] at kept
    rw [kept] at long ⊢
    rw [List.length_append, none_, List.length_nil] at long
    have ⟨last, only⟩ : ∃ last, back.drop width = [last] := by
      apply List.length_eq_one_iff.mp
      rw [List.length_drop]
      omega
    refine ⟨back.take width, last, ?_, ?_⟩
    · rw [List.length_take]
      omega
    · rw [memmove, none_, List.length_nil, if_pos rfl, List.append_nil, ← only, List.append_assoc,
        List.take_append_drop]
  · have narrow : region.length ≤ width + 1 := fits.resolve_right none_
    have room : (front ++ region ++ rest).length ≤ front.length + (width + (rest.length + 1)) := by
      simp only [List.length_append]
      omega
    have ⟨back, kept⟩ := resize_keeps garbage [0] room
    rw [kept] at long ⊢
    have loaded := load_inside (front ++ region) rest back
    have some_ : rest.length ≠ 0 := fun zero => none_ (List.length_eq_zero_iff.mp zero)
    simp only [List.length_append] at long
    have whole : front ++ region ++ rest ++ back =
        front ++ (region ++ rest ++ back).take width ++ (region ++ rest ++ back).drop width := by
      rw [List.append_assoc front (List.take _ _), List.take_append_drop]
      simp
    have place : (front ++ (region ++ rest ++ back).take width).length = front.length + width := by
      simp only [List.length_append, List.length_take]
      omega
    have left : ((region ++ rest ++ back).drop width).length = rest.length + 1 := by
      simp only [List.length_append, List.length_drop]
      omega
    have stored := storeAll_behind (front ++ (region ++ rest ++ back).take width)
      ((region ++ rest ++ back).drop width) rest
    rw [if_pos (by omega), ← whole, place] at stored
    have ⟨last, only⟩ : ∃ last, ((region ++ rest ++ back).drop width).drop rest.length = [last] := by
      apply List.length_eq_one_iff.mp
      rw [List.length_drop]
      omega
    refine ⟨(region ++ rest ++ back).take width, last, ?_, ?_⟩
    · rw [List.length_take]
      simp only [List.length_append]
      omega
    · rw [List.length_append] at loaded
      rw [memmove, if_neg some_, move, loaded, Option.bind_eq_bind, Option.bind_some, stored, only]

/-- A block that is resized below the end of the text no longer holds all that is to be moved. -/
theorem moved_past (wide : width + 1 < region.length) (some_ : rest ≠ []) :
    memmove (resize garbage (front ++ region ++ rest ++ [0])
      ((front ++ region ++ rest).length + width - region.length + 1))
      (front.length + width) (front.length + region.length) rest.length = none := by
  have filled : rest.length ≠ 0 := fun zero => some_ (List.length_eq_zero_iff.mp zero)
  have past : ¬ ((0 : Int) ≤ ((front.length + region.length : Nat) : Int) ∧
      ((front.length + region.length : Nat) : Int) + rest.length ≤
        (resize garbage (front ++ region ++ rest ++ [0])
          ((front ++ region ++ rest).length + width - region.length + 1)).length) := by
    rw [resize_length]
    simp only [List.length_append]
    omega
  rw [memmove, if_neg filled, move, load, if_neg past]
  rfl

/-- The key is stored behind its spaces, and then the NUL. -/
theorem key_stored {gone : List Byte} {last : Byte} (enough : key.length ≤ width)
    (size : gone.length = width) :
    ((storeAll (front ++ gone ++ rest ++ [last]) front.length (List.replicate width space)).bind
      fun str => (storeAll str (front.length + width - key.length : Nat) key.content).bind
        fun str => store str (front.length + width + rest.length : Nat) 0) =
      some (front ++ (List.replicate (width - key.length) space ++ key.content) ++ rest ++ [0]) := by
  have spaces := storeAll_inside front gone (rest ++ [last]) (List.replicate width space)
    (by rw [size, List.length_replicate])
  rw [← List.append_assoc] at spaces
  have halves : List.replicate width space =
      List.replicate (width - key.length) space ++ List.replicate key.length space := by
    rw [List.replicate_append_replicate, Nat.sub_add_cancel enough]
  have place : (front ++ List.replicate (width - key.length) space).length =
      front.length + width - key.length := by
    rw [List.length_append, List.length_replicate]
    omega
  have key_ := storeAll_inside (front ++ List.replicate (width - key.length) space)
    (List.replicate key.length space) (rest ++ [last]) key.content (List.length_replicate ..)
  rw [place] at key_
  have end_ : (front ++ (List.replicate (width - key.length) space ++ key.content) ++ rest).length =
      front.length + width + rest.length := by
    simp only [List.length_append, List.length_replicate]
    change front.length + (width - key.length + key.length) + rest.length = _
    omega
  have nul := store_inside
    (front ++ (List.replicate (width - key.length) space ++ key.content) ++ rest) [] last 0
  rw [end_] at nul
  rw [spaces, Option.bind_some, halves]
  have first : front ++ (List.replicate (width - key.length) space ++
      List.replicate key.length space) ++ (rest ++ [last]) =
      front ++ List.replicate (width - key.length) space ++ List.replicate key.length space ++
        (rest ++ [last]) := by simp
  have second : front ++ List.replicate (width - key.length) space ++ key.content ++
      (rest ++ [last]) =
      front ++ (List.replicate (width - key.length) space ++ key.content) ++ rest ++ [last] := by
    simp
  rw [first, key_, Option.bind_some, second, nul]

end Memory

/-! ## The loop -/

section Rounds

variable (garbage : Nat → Byte) (key : CString) (flags : FilterFlags) (front rest : List Byte)

namespace FilterFlags

theorem byte_read (c : Byte) : (flags.vars front (c :: rest)).returnFilter[(flags.vars front
    (c :: rest)).i]? = some c := by
  change (front ++ flags.text ++ c :: rest ++ [0])[(front ++ flags.text).length]? = some c
  rw [List.append_assoc, List.getElem?_append_right (le_refl _), Nat.sub_self]
  rfl

/-- The bytes stay in their order. -/
theorem next_text (c : Byte) : (flags.next c).2 ++ (flags.next c).1.text = flags.text ++ [c] := by
  cases flags with
  | idle =>
    rw [next]
    split
    · rename_i same
      rw [same]
      rfl
    · rfl
  | sign =>
    rw [next]
    split
    · rfl
    · split <;> rfl
  | digits held odd =>
    rw [next]
    split
    · rfl
    · split
      · rfl
      · rw [text, text, List.append_nil]

theorem widens_key (keyLen : Nat) : keyLen ≤ flags.widens keyLen rest := by
  rw [widens]
  split <;> omega

end FilterFlags

/-- A byte that does not end a directive is kept. -/
theorem filterRound_keeps {c : Byte} (other : ¬ (flags.formatPercent && c = 115) = true) :
    filterRound garbage key (flags.vars front (c :: rest)) =
      some ((flags.next c).1.vars (front ++ (flags.next c).2) rest) := by
  have text := flags.next_text c
  have same : front ++ (flags.next c).2 ++ (flags.next c).1.text = front ++ flags.text ++ [c] := by
    rw [List.append_assoc, text, List.append_assoc]
  have vars : (flags.next c).1.vars (front ++ (flags.next c).2) rest =
      { flags.vars front (c :: rest) with
        i := (flags.vars front (c :: rest)).i + 1
        formatPercent := (flags.next c).1.formatPercent
        formatInt :=
          if (flags.next c).1.saved then (front ++ (flags.next c).2).length + 1 else 0 } := by
    simp only [FilterFlags.vars, same, List.append_assoc, List.singleton_append]
    simp [Nat.add_assoc]
  rw [filterRound, FilterFlags.byte_read, Option.bind_eq_bind, Option.bind_some, vars]
  have here : (flags.vars front (c :: rest)).formatPercent = flags.formatPercent := rfl
  have int : (flags.vars front (c :: rest)).formatInt =
      if flags.saved then front.length + 1 else 0 := rfl
  have place : (flags.vars front (c :: rest)).i = (front ++ flags.text).length := rfl
  rw [here, if_neg other]
  cases flags with
  | idle =>
    by_cases sign : c = percent
    · subst sign
      simp [FilterFlags.next, FilterFlags.formatPercent, FilterFlags.saved, int]
    · simp [FilterFlags.next, FilterFlags.formatPercent, FilterFlags.saved, sign]
  | sign =>
    by_cases sign : c = percent
    · subst sign
      simp [FilterFlags.next, FilterFlags.formatPercent, FilterFlags.saved, int]
    · by_cases digit : isDigit c = true
      · simp [FilterFlags.next, FilterFlags.formatPercent, FilterFlags.saved, sign, digit, int,
          place, FilterFlags.text]
      · simp [FilterFlags.next, FilterFlags.formatPercent, FilterFlags.saved, sign, digit]
  | digits held odd =>
    by_cases sign : c = percent
    · subst sign
      simp [FilterFlags.next, FilterFlags.formatPercent, FilterFlags.saved, int]
    · by_cases digit : (odd && isDigit c) = true
      · obtain ⟨rfl, digit⟩ := Bool.and_eq_true_iff.mp digit
        simp [FilterFlags.next, FilterFlags.formatPercent, FilterFlags.saved, sign, digit, int]
      · simp [FilterFlags.next, FilterFlags.formatPercent, FilterFlags.saved, sign, digit]

/-- What the loop reads about the directive that ends here. -/
theorem formatWidth_flags (signed : flags.formatPercent = true)
    (noNul : 0 ∉ flags.text ++ 115 :: rest) :
    formatWidth (flags.vars front (115 :: rest)) =
      some (flags.asks rest, flags.text.length + 1, front.length) := by
  cases flags with
  | idle => cases signed
  | sign =>
    have place : (FilterFlags.sign.vars front (115 :: rest)).i = front.length + 1 :=
      List.length_append
    have none_ : (FilterFlags.sign.vars front (115 :: rest)).formatInt = 0 := rfl
    rw [formatWidth, none_, place]
    rfl
  | digits held odd =>
    have place : ((FilterFlags.digits held odd).vars front (115 :: rest)).i =
        front.length + (held.length + 1) := List.length_append
    have int : ((FilterFlags.digits held odd).vars front (115 :: rest)).formatInt =
        front.length + 1 := rfl
    have clean : 0 ∉ held ++ 115 :: rest := fun nul => noNul (List.mem_cons_of_mem percent nul)
    have block : ((FilterFlags.digits held odd).vars front (115 :: rest)).returnFilter =
        front ++ [percent] ++ (held ++ 115 :: rest) ++ 0 :: [] := by
      change front ++ percent :: held ++ 115 :: rest ++ [0] = _
      simp
    have string := stringIn_text (front ++ [percent]) ⟨held ++ 115 :: rest, clean⟩ []
    rw [List.length_append, List.length_singleton] at string
    rw [formatWidth, int, if_pos (Nat.succ_ne_zero _), block, string, Option.bind_eq_bind,
      Option.bind_some, place]
    have count : front.length + (held.length + 1) - (front.length + 1) + 2 =
        (percent :: held).length + 1 := by
      rw [List.length_cons]
      omega
    rw [count, FilterFlags.asks, ← cstr_self ⟨held ++ 115 :: rest, clean⟩]
    rfl

/-- The key is put in the place of the directive that ends here, where the block still holds what is
behind it. -/
theorem filterRound_replaces (signed : flags.formatPercent = true)
    (noNul : 0 ∉ flags.text ++ 115 :: rest) :
    filterRound garbage key (flags.vars front (115 :: rest)) =
      let width := flags.widens key.length rest
      if (front ++ flags.text ++ 115 :: rest).length + width ≤ intMax ∧
          (flags.text.length + 1 ≤ width + 1 ∨ rest = []) then
        some (FilterFlags.idle.vars
          (front ++ (List.replicate (width - key.length) space ++ key.content)) rest)
      else none := by
  have enough := flags.widens_key rest key.length
  have total : (flags.vars front (115 :: rest)).filterLen =
      (front ++ flags.text ++ 115 :: rest).length := rfl
  have percentSign : (flags.vars front (115 :: rest)).formatPercent = true := signed
  have wide : (if flags.asks rest < key.length then key.length else (flags.asks rest).toNat) =
      flags.widens key.length rest := rfl
  have region : front ++ flags.text ++ 115 :: rest = front ++ (flags.text ++ [115]) ++ rest := by
    simp
  have dead : flags.text.length + 1 = (flags.text ++ [115]).length := by
    rw [List.length_append, List.length_singleton]
  have block : (flags.vars front (115 :: rest)).returnFilter =
      front ++ (flags.text ++ [115]) ++ rest ++ [0] := congrArg (· ++ [0]) region
  have tail : (front ++ (flags.text ++ [115]) ++ rest).length - front.length -
      (flags.text ++ [115]).length = rest.length := by
    simp only [List.length_append]
    omega
  rw [filterRound, FilterFlags.byte_read, Option.bind_eq_bind, Option.bind_some,
    if_neg (by decide), percentSign, if_neg (by decide), if_pos (by decide), substituteKey,
    formatWidth_flags flags front rest signed noNul, Option.bind_eq_bind, Option.bind_some]
  dsimp only
  rw [wide, total, region, block, dead, intValue]
  generalize flags.widens key.length rest = width at enough
  generalize flags.text ++ [115] = region at tail
  by_cases small : (front ++ region ++ rest).length + width ≤ intMax
  · rw [if_pos small, Option.bind_eq_bind, Option.bind_some, tail]
    by_cases fits : region.length ≤ width + 1 ∨ rest = []
    · have ⟨gone, last, size, moved⟩ := moved_behind garbage front region rest fits
      have stored := @key_stored front rest key _ _ last enough size
      have filterLen : (front ++ region ++ rest).length + width - region.length =
          front.length + width + rest.length := by
        simp only [List.length_append]
        omega
      have idle : FilterFlags.idle.vars
          (front ++ (List.replicate (width - key.length) space ++ key.content)) rest =
          ⟨front ++ (List.replicate (width - key.length) space ++ key.content) ++ rest ++ [0],
            front.length + width + rest.length, front.length + width, false, 0⟩ := by
        have padded : (List.replicate (width - key.length) space ++ key.content).length = width := by
          rw [List.length_append, List.length_replicate]
          change width - key.length + key.length = width
          omega
        rw [FilterFlags.vars, FilterFlags.text, List.append_nil, List.length_append,
          List.length_append, padded]
        rfl
      have ⟨spaced, first, later⟩ := Option.bind_eq_some_iff.mp stored
      have ⟨keyed, second, third⟩ := Option.bind_eq_some_iff.mp later
      rw [moved, Option.bind_eq_bind, Option.bind_some, first, Option.bind_some, second,
        Option.bind_some, filterLen, third, Option.bind_some, if_pos ⟨small, fits⟩, idle]
      rfl
    · have both := not_or.mp fits
      rw [moved_past garbage front region rest (by omega) both.2,
        if_neg fun all => fits all.2]
      rfl
  · rw [if_neg small, if_neg fun all => small all.1]
    rfl

/-- The loop passes over the text to its end. -/
theorem filterRounds_run (rest : List Byte) :
    ∀ (flags : FilterFlags) (front : List Byte) (rounds : Nat), rest.length < rounds →
      0 ∉ flags.text ++ rest →
      filterRounds garbage key rounds (flags.vars front rest) =
        (filterRun key.content flags front rest).map (· ++ [0]) := by
  induction rest with
  | nil =>
    intro flags front rounds enough noNul
    cases rounds with
    | zero => exact absurd enough (Nat.not_lt_zero _)
    | succ rounds =>
      have done : ¬ (flags.vars front []).i < (flags.vars front []).filterLen := by
        change ¬ (front ++ flags.text).length < (front ++ flags.text ++ []).length
        rw [List.append_nil]
        exact Nat.lt_irrefl _
      rw [filterRounds, if_neg done, filterRun, Option.map_some, FilterFlags.vars, List.append_nil]
  | cons c rest ih =>
    intro flags front rounds enough noNul
    cases rounds with
    | zero => exact absurd enough (Nat.not_lt_zero _)
    | succ rounds =>
      have goes : (flags.vars front (c :: rest)).i < (flags.vars front (c :: rest)).filterLen := by
        change (front ++ flags.text).length < (front ++ flags.text ++ c :: rest).length
        simp only [List.length_append, List.length_cons]
        omega
      have left : rest.length < rounds := Nat.lt_of_succ_lt_succ enough
      rw [filterRounds, if_pos goes, filterRun]
      by_cases ends_ : (flags.formatPercent && c = 115) = true
      · have ⟨signed, same⟩ := Bool.and_eq_true_iff.mp ends_
        have last : c = 115 := of_decide_eq_true same
        subst last
        rw [filterRound_replaces garbage key flags front rest signed noNul]
        have clean : 0 ∉ FilterFlags.idle.text ++ rest := fun nul =>
          noNul (List.mem_append_right _ (List.mem_cons_of_mem _ nul))
        dsimp only
        rw [if_pos ends_]
        change (if _ then _ else _ : Option FilterVars).bind _ =
          (if (front ++ flags.text ++ 115 :: rest).length + flags.widens key.length rest ≤ intMax ∧
            (flags.text.length + 1 ≤ flags.widens key.length rest + 1 ∨ rest = []) then _
          else none : Option (List Byte)).map _
        split
        · rw [Option.bind_some, ih _ _ _ left clean]
          rfl
        · rfl
      · have text := flags.next_text c
        have clean : 0 ∉ (flags.next c).1.text ++ rest := by
          intro nul
          have more : 0 ∈ (flags.next c).2 ++ ((flags.next c).1.text ++ rest) :=
            List.mem_append_right _ nul
          rw [← List.append_assoc, text, List.append_assoc] at more
          exact noNul more
        rw [if_neg ends_, filterRound_keeps garbage key flags front rest ends_,
          Option.bind_eq_bind, Option.bind_some, ih _ _ _ left clean]

end Rounds

end Perdition
