import Perdition.Spec.Mangling
import Perdition.UsernameMemory
import Perdition.Verif.Words

/-!
# Mangled user names

`username_mangle` computes the mangled name, gives back what it allocated on the way and leaves the
string it was given as it is.
-/
namespace Perdition

open Lib Lib.Block

/-! ## Labels -/

/-- One label less is left out behind the first dot. -/
theorem withoutLabels_succ {depth : Nat} {label back rest : List Byte} (noDot : 46 ∉ label) :
    WithoutLabels (depth + 1) (label ++ 46 :: back) rest ↔ WithoutLabels depth back rest := by
  constructor
  · rintro ⟨labels, length, clean, same⟩
    cases labels with
    | nil => cases length
    | cons first labels =>
      rw [List.flatMap_cons, List.append_assoc, List.append_assoc, List.singleton_append] at same
      have ⟨_, behind⟩ := first_unique noDot (clean first (List.mem_cons_self ..)) same
      exact ⟨labels, Nat.succ.inj length,
        fun other inside => clean other (List.mem_cons_of_mem _ inside), behind⟩
  · rintro ⟨labels, length, clean, rfl⟩
    refine ⟨label :: labels, by rw [List.length_cons, length], fun other inside => ?_, by simp⟩
    rcases List.mem_cons.mp inside with rfl | later
    · exact noDot
    · exact clean other later

/-- A label is only left out before a dot. -/
theorem withoutLabels_dot {depth : Nat} {host rest : List Byte}
    (left : WithoutLabels (depth + 1) host rest) : 46 ∈ host := by
  obtain ⟨labels, length, _, rfl⟩ := left
  cases labels with
  | nil => cases length
  | cons first labels => simp

/-- `strstr` finds a byte where it first occurs. -/
theorem strstr_byte {text : List Byte} {b : Byte} {place : Nat}
    (found : strstr text [b] = some place) :
    ∃ front back, text = front ++ b :: back ∧ front.length = place ∧ b ∉ front := by
  have ⟨back, same⟩ := strstr_occurs found
  have whole : text.take place ++ b :: back = text := by
    rw [← List.singleton_append, same, List.take_append_drop]
  have length : (text.take place).length = place := by
    rw [List.length_take]
    have long := congrArg List.length same
    rw [List.length_append, List.length_singleton, List.length_drop] at long
    omega
  refine ⟨text.take place, back, whole.symm, length, fun inside => ?_⟩
  obtain ⟨front, between, split_⟩ := List.append_of_mem inside
  have occurs : front ++ [b] ++ (between ++ b :: back) = text := by
    rw [← whole, split_]
    simp
  have early := strstr_first found occurs
  rw [← length, split_, List.length_append, List.length_cons] at early
  omega

/-- The levels that are left are what is left without so many labels, if anything is. -/
theorem stripLevels_iff {depth : Nat} {host rest : List Byte} (some_ : rest ≠ []) :
    stripLevels depth host = some rest ↔ WithoutLabels depth host rest := by
  induction depth generalizing host with
  | zero =>
    rw [stripLevels, Option.some.injEq]
    constructor
    · rintro rfl
      exact ⟨[], rfl, by simp, rfl⟩
    · rintro ⟨labels, length, _, same⟩
      rw [List.length_eq_zero_iff.mp length] at same
      exact same
  | succ depth ih =>
    cases host with
    | nil =>
      rw [stripLevels, Option.some.injEq]
      refine ⟨fun same => absurd same.symm some_, fun left => ?_⟩
      exact absurd (withoutLabels_dot left) List.not_mem_nil
    | cons c host =>
      have dot : bytes "." = [46] := by decide
      rw [stripLevels, dot]
      · cases found : strstr (c :: host) [46] with
        | none =>
          refine ⟨nofun, fun left => ?_⟩
          have ⟨front, back, same⟩ := List.append_of_mem (withoutLabels_dot left)
          exact absurd ⟨front, back, by rw [same]; simp⟩ (strstr_absent.mp found)
        | some place =>
          obtain ⟨label, back, same, rfl, noDot⟩ := strstr_byte found
          have behind : (label ++ 46 :: back).drop (label.length + 1) = back := by
            rw [← List.drop_drop, List.drop_left, List.drop_succ_cons, List.drop_zero]
          rw [same, withoutLabels_succ noDot]
          dsimp only
          rw [behind]
          exact ih
      · exact nofun

/-! ## The stages -/

/-- Names are cut at what `strrstr` finds. -/
theorem cut_iff {delimiter name stripped : List Byte} :
    CutLast delimiter name stripped ↔
      stripped = (strrstr name delimiter).elim name fun place => name.take place := by
  by_cases nothing : delimiter = []
  · have found : (strrstr name delimiter).elim name (fun place => name.take place) = [] := by
      rw [strrstr, nothing]
      cases name <;> simp
    rw [found]
    constructor
    · intro cut
      cases cut with
      | absent none_ => exact absurd (nothing ▸ List.nil_infix) none_
      | last some_ _ => exact absurd nothing some_
      | empty _ => rfl
    · rintro rfl
      exact .empty nothing
  · cases found : strrstr name delimiter with
    | none =>
      have absent := (strrstr_none nothing).mp found
      constructor
      · intro cut
        cases cut with
        | absent _ => rfl
        | last _ _ => exact absurd ⟨_, _, rfl⟩ absent
        | empty none_ => exact absurd none_ nothing
      · rintro rfl
        exact .absent absent
    | some place =>
      constructor
      · intro cut
        cases cut with
        | absent none_ =>
          rw [(strrstr_none nothing).mpr none_] at found
          cases found
        | @last _ after _ last =>
          rw [(strrstr_rightmost nothing stripped after).mpr last, Option.some.injEq] at found
          rw [← found, Option.elim_some, List.append_assoc, List.take_left]
        | empty none_ => exact absurd none_ nothing
      · rintro rfl
        obtain ⟨before, after, rfl, rfl, last⟩ := strrstr_some nothing found
        rw [Option.elim_some, List.append_assoc, List.take_left, ← List.append_assoc]
        exact .last nothing last

variable {opt : Options} {platform : Platform} {state : Flag}

/-- `username_strip` cuts the name where the state cuts names. -/
theorem usernameStrip_iff (name : CString) {stripped : List Byte} :
    StrippedTo opt state name.content stripped ↔
      stripped = (usernameStrip opt name state).name.content := by
  rw [StrippedTo, usernameStrip]
  by_cases strips : Strips opt state
  · have on : ¬ ((!opt.stripDomain.has state) = true) := by simp [strips.1]
    have cuts : (Strips opt state → CutLast opt.domainDelimiter.content name.content stripped) ∧
        (¬ Strips opt state → stripped = name.content) ↔
          CutLast opt.domainDelimiter.content name.content stripped :=
      ⟨fun both => both.1 strips, fun cut => ⟨fun _ => cut, absurd strips⟩⟩
    rw [cuts, cut_iff, if_neg on, if_neg strips.2]
    cases strrstr name.content opt.domainDelimiter.content with
    | none => rfl
    | some place =>
      have noNul : 0 ∉ name.content.take place := fun nul =>
        name.noNul (List.mem_of_mem_take nul)
      rw [Option.elim_some, cstr_content noNul]
  · have kept : (usernameStrip opt name state).name = name := by
      rw [usernameStrip]
      by_cases on : opt.stripDomain.has state = true
      · rw [if_neg (by simp [on]), if_pos (not_not.mp fun other => strips ⟨on, other⟩)]
      · rw [if_pos (by simpa using on)]
    rw [usernameStrip] at kept
    rw [kept]
    exact ⟨fun both => both.2 strips, fun same => ⟨fun on => absurd on strips, fun _ => same⟩⟩

/-- The domain that is added, if there is one. -/
def domainOf (opt : Options) (platform : Platform) : Option (List Byte) :=
  match opt.explicitDomain, platform.sockname with
  | some domain, _ => some domain.content
  | none, some (some host) =>
    (stripLevels opt.addDomainStripDepth host.content).filter fun rest => rest ≠ []
  | none, _ => none

theorem domain_iff {domain : List Byte} :
    Domain opt platform domain ↔ domainOf opt platform = some domain := by
  rw [domainOf]
  constructor
  · intro some_
    cases some_ with
    | explicit set => rw [set]
    | host unset named left filled =>
      rw [unset, named]
      dsimp only
      rw [(stripLevels_iff filled).mpr left]
      simp [Option.filter, filled]
  · intro same
    split at same
    · rename_i set
      obtain rfl := Option.some.inj same
      exact .explicit set
    · rename_i unset named
      obtain ⟨left, filled⟩ := Option.filter_eq_some_iff.mp same
      have filled : domain ≠ [] := by simpa using filled
      exact .host unset named ((stripLevels_iff filled).mp left) filled
    · cases same

/-- The one name with the domain. -/
theorem withDomain_iff {name text : List Byte} :
    WithDomain opt platform state name text ↔
      text = if opt.addDomain.has state = true ∧ ¬ opt.domainDelimiter.content <:+: name then
        (domainOf opt platform).elim name (name ++ opt.domainDelimiter.content ++ ·) else name := by
  have none_ : (∀ domain, ¬ Domain opt platform domain) ↔ domainOf opt platform = none := by
    simp only [domain_iff, Option.eq_none_iff_forall_ne_some, ne_eq]
  constructor
  · intro added
    cases added with
    | off off => rw [if_neg (by simp [off])]
    | delimited found => rw [if_neg (by simp [found])]
    | nowhere nowhere =>
      rw [none_.mp nowhere]
      simp
    | added on clean some_ => rw [if_pos ⟨on, clean⟩, domain_iff.mp some_, Option.elim_some]
  · rintro rfl
    split
    · rename_i adds
      cases domain : domainOf opt platform with
      | none => exact .nowhere (none_.mpr domain)
      | some domain_ => exact .added adds.1 adds.2 (domain_iff.mpr domain)
    · rename_i keeps
      rw [not_and_or, not_not] at keeps
      rcases keeps with off | found
      · exact .off (by simpa using off)
      · exact .delimited found

/-- The host name is looked up in vain for this name. -/
def LookupFails (opt : Options) (platform : Platform) (state : Flag) (name : List Byte) : Prop :=
  opt.addDomain.has state = true ∧ opt.explicitDomain = none ∧ platform.sockname = some none ∧
    ¬ opt.domainDelimiter.content <:+: name

/-- `username_add_domain` adds the domain, unless the host name is looked up in vain. -/
theorem usernameAddDomain_iff (name : CString) :
    (usernameAddDomain opt platform name state opt.addDomainStripDepth = none ↔
      LookupFails opt platform state name.content) ∧
    ∀ added, usernameAddDomain opt platform name state opt.addDomainStripDepth = some added →
      ∀ text, WithDomain opt platform state name.content text ↔ text = added.name.content := by
  simp only [LookupFails, withDomain_iff]
  rw [usernameAddDomain]
  dsimp only
  by_cases on : opt.addDomain.has state = true
  · rw [if_neg (by simp [on])]
    by_cases found : opt.domainDelimiter.content <:+: name.content
    · have there : (strstr name.content opt.domainDelimiter.content).isSome = true := by
        rw [Option.isSome_iff_ne_none]
        exact fun absent => strstr_absent.mp absent found
      rw [if_pos there]
      refine ⟨by simp [found], fun added same => ?_⟩
      cases same
      simp [found]
    · have absent : ¬ (strstr name.content opt.domainDelimiter.content).isSome = true := by
        rw [strstr_absent.mpr found]
        simp
      rw [if_neg absent, if_pos ⟨on, found⟩, domainOf]
      cases opt.explicitDomain with
      | some domain =>
        refine ⟨by simp, fun added same => ?_⟩
        cases same
        simp
      | none =>
        cases platform.sockname with
        | none =>
          refine ⟨by simp, fun added same => ?_⟩
          cases same
          simp
        | some named =>
          cases named with
          | none => exact ⟨by simp [on, found], nofun⟩
          | some host =>
            have suffix : ∀ {depth : Nat} {front rest : List Byte}, 0 ∉ front →
                stripLevels depth front = some rest → 0 ∉ rest := by
              intro depth front rest clean left nul
              have some_ : rest ≠ [] := List.ne_nil_of_mem nul
              obtain ⟨labels, _, _, same⟩ := (stripLevels_iff some_).mp left
              exact clean (same ▸ List.mem_append_right _ nul)
            dsimp only
            cases left : stripLevels opt.addDomainStripDepth host.content with
            | none =>
              refine ⟨by simp, fun added same => ?_⟩
              cases same
              simp
            | some rest =>
              cases rest with
              | nil =>
                refine ⟨by simp, fun added same => ?_⟩
                cases same
                simp [Option.filter]
              | cons c rest =>
                refine ⟨by simp, fun added same => ?_⟩
                cases same
                simp [Option.filter, cstr_content (suffix host.noNul left)]
  · rw [if_pos (by simpa using on), if_neg (fun both => on both.1)]
    refine ⟨by simp [on], fun added same => ?_⟩
    cases same
    exact fun _ => Iff.rfl

/-- `username_lower_case` writes the name in the case of the state. -/
theorem usernameLowerCase_inCase (name : CString) :
    (usernameLowerCase opt name state).name.content = inCase opt state name.content := by
  rw [usernameLowerCase, inCase]
  by_cases on : opt.lowerCase.has state = true
  · rw [if_neg (by simp [on]), if_pos on, cstr_content (noNul_lower name.noNul)]
  · rw [if_pos (by simpa using on), if_neg on]

/-- `username_mangle` fails where the host name is needed and not known, and returns the mangled
name elsewhere. -/
theorem usernameMangle_iff (name : CString) :
    (usernameMangle opt platform name state = none ↔
      HostUnknown opt platform state name.content) ∧
    ∀ mangled, usernameMangle opt platform name state = some mangled →
      ∀ text, MangledTo opt platform state name.content text ↔ text = mangled.name.content := by
  have ⟨fails, adds⟩ := @usernameAddDomain_iff opt platform state (usernameStrip opt name state).name
  constructor
  · simp only [HostUnknown, usernameStrip_iff, forall_eq]
    rw [← LookupFails, ← fails, usernameMangle]
    cases usernameAddDomain opt platform (usernameStrip opt name state).name state
      opt.addDomainStripDepth <;> simp
  · intro mangled same text
    rw [usernameMangle] at same
    have ⟨added, result, whole⟩ := Option.bind_eq_some_iff.mp same
    obtain rfl := Option.some.inj whole
    simp only [MangledTo, usernameStrip_iff]
    constructor
    · rintro ⟨stripped, with_, rfl, domain, rfl⟩
      rw [(adds added result with_).mp domain]
      exact (usernameLowerCase_inCase added.name).symm
    · rintro rfl
      exact ⟨_, _, rfl, (adds added result _).mpr rfl, usernameLowerCase_inCase added.name⟩

end Perdition
