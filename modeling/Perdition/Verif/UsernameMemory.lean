import Perdition.Verif.Mangling

/-!
# User names in memory

Each stage of `username_mangle` returns the pointer it was given or a new string. What a later stage
replaces is given back, so that only the result is left, and the string of the caller stays as it is.
-/
namespace Perdition

open Lib Lib.Block

/-! ## Strings in blocks -/

/-- A block that starts with a string holds it. -/
theorem stringAt_block {heap : Heap Byte} {p : Nat} {text rest : List Byte}
    (there : heap.block p = some (text ++ 0 :: rest)) (noNul : 0 ∉ text) :
    ∃ s, stringAt heap p = some s ∧ s.content = text := by
  refine ⟨cstr text, ?_, cstr_content noNul⟩
  rw [stringAt, there, Option.bind_eq_bind, Option.bind_some, if_pos (by simp), cstr_nul]

/-- A string is in a block that is in use. -/
theorem stringAt_live {heap : Heap Byte} {p : Nat} {s : CString} (here : stringAt heap p = some s) :
    ∃ block, heap.block p = some block :=
  have ⟨block, there, _⟩ := Option.bind_eq_some_iff.mp here
  ⟨block, there⟩

/-- The string depends on the block only. -/
theorem stringAt_congr {heap after : Heap Byte} {p : Nat} (same : after.block p = heap.block p) :
    stringAt after p = stringAt heap p := by
  rw [stringAt, stringAt, same]

/-- `strn_tolower` writes its bytes in lower case. -/
theorem strnTolower_lower (front text back : List Byte) :
    strnTolower front.length text.length (front ++ text ++ back) =
      some (front ++ text.map toLower ++ back) := by
  induction text generalizing front with
  | nil => simp [strnTolower]
  | cons b text ih =>
    have start : front ++ b :: text ++ back = front ++ b :: (text ++ back) := by simp
    have here : (front ++ b :: (text ++ back))[front.length]? = some b := by simp
    have next : front.length + 1 = (front ++ [toLower b]).length := by simp
    have stored := store_inside front (text ++ back) b (toLower b)
    rw [List.length_cons, strnTolower, start, here, Option.bind_eq_bind, Option.bind_some, stored,
      Option.bind_eq_bind, Option.bind_some, next]
    have done := ih (front ++ [toLower b])
    simpa using done

/-! ## The stages -/

/-- What a stage returns: the pointer it was given with nothing changed, or a new string. -/
structure MangleStage (heap : Heap Byte) (given : Nat) (out : Mangled) (result : Nat)
    (after : Heap Byte) : Prop where
  /-- The string is there. -/
  text : stringAt after result = some out.name
  /-- The pointer that was given is returned. -/
  kept : out.same = true → result = given ∧ after = heap
  /-- A block was allocated. -/
  grown : out.same = false → ∃ block, heap.Grows after result block

variable {heap : Heap Byte} {p : Nat} {name : CString}

theorem MangleStage.keeps (here : stringAt heap p = some name) :
    MangleStage heap p ⟨name, true⟩ p heap :=
  ⟨here, fun _ => ⟨rfl, rfl⟩, nofun⟩

/-- A new block that starts with the name. -/
theorem MangleStage.grows {after : Heap Byte} {q : Nat} {rest : List Byte}
    (grown : heap.Grows after q (name.content ++ 0 :: rest)) :
    MangleStage heap p ⟨name, false⟩ q after := by
  have ⟨s, here, same⟩ := stringAt_block grown.there name.noNul
  exact ⟨CString.ext same ▸ here, nofun, fun _ => ⟨_, grown⟩⟩

/-- A stage replaces the pointer it was given by nothing but a new one. -/
theorem MangleStage.owned {out : Mangled} {q : Nat} {after : Heap Byte}
    (stage : MangleStage heap p out q after) (here : stringAt heap p = some name) : heap.Owned p after q := by
  cases same : out.same with
  | true =>
    obtain ⟨rfl, rfl⟩ := stage.kept same
    exact .refl ..
  | false =>
    have ⟨block, grown⟩ := stage.grown same
    have ⟨old, there⟩ := stringAt_live here
    exact grown.owned there

/-- The pointer is the one that was given exactly where the stage says so. -/
theorem MangleStage.same_iff {out : Mangled} {q : Nat} {after : Heap Byte}
    (stage : MangleStage heap p out q after) (here : stringAt heap p = some name) :
    q = p ↔ out.same = true := by
  cases same : out.same with
  | true => simp [(stage.kept same).1]
  | false =>
    obtain ⟨block, grown⟩ := stage.grown same
    obtain ⟨old, there⟩ := stringAt_live here
    refine ⟨fun given => ?_, fun no => absurd no Bool.false_ne_true⟩
    have new := grown.new
    rw [given, there] at new
    cases new

variable (opt : Options) (garbage : Nat → Byte) (state : Flag)

/-- What `strrstr` finds is in the string. -/
theorem strrstr_le {text sep : List Byte} {place : Nat} (found : strrstr text sep = some place) :
    place ≤ text.length := by
  by_cases nothing : sep = []
  · rw [nothing, strrstr] at found
    split at found
    · cases found
    · obtain rfl := Option.some.inj found
      exact Nat.zero_le _
  · obtain ⟨front, back, rfl, rfl, _⟩ := strrstr_some nothing found
    rw [List.append_assoc, List.length_append]
    exact Nat.le_add_right ..

/-- The new string of `username_strip` fits its block. -/
theorem stripInto_fits (name : CString) {len : Nat} (inside : len ≤ name.content.length) :
    stripInto name len (malloc garbage (len + 1)) = some (name.content.take len ++ [0]) := by
  have noNul : 0 ∉ name.content.take len := fun nul => name.noNul (List.mem_of_mem_take nul)
  have length : (name.content.take len).length = len := by
    rw [List.length_take]
    omega
  have some_ : malloc garbage (len + 1) ≠ [] :=
    List.ne_nil_of_length_eq_add_one (malloc_length garbage (len + 1))
  have whole := List.dropLast_append_getLast some_
  have size : (malloc garbage (len + 1)).dropLast.length = len := by
    rw [List.length_dropLast, malloc_length, Nat.add_sub_cancel]
  have copied := storeAll_start _ [(malloc garbage (len + 1)).getLast some_]
    (name.content.take len) (size.trans length.symm)
  have ended := store_inside (name.content.take len) [] ((malloc garbage (len + 1)).getLast some_) 0
  rw [length] at ended
  rw [← whole, stripInto, strncpyBytes_noNul noNul, copied, Option.bind_eq_bind, Option.bind_some,
    ended]

/-- The new string of `username_add_domain` fits its block. -/
theorem addInto_fits (name delimiter domainpart : CString) :
    addInto name delimiter domainpart
        (malloc garbage (name.length + delimiter.length + domainpart.length + 1)) =
      some ((name ++ delimiter ++ domainpart).content ++ [0]) := by
  have whole := malloc_length garbage (name.length + delimiter.length + domainpart.length + 1)
  generalize malloc garbage (name.length + delimiter.length + domainpart.length + 1) = block at *
  have front : (block.take (name.length + 1)).length = (name.content ++ [0]).length := by
    rw [List.length_take, List.length_append, List.length_singleton, CString.length]
    rw [CString.length] at whole
    omega
  have room : (block.drop (name.length + 1)).length = delimiter.length + domainpart.length := by
    rw [List.length_drop, whole]
    omega
  have copied := storeAll_start _ (block.drop (name.length + 1)) _ front
  rw [List.take_append_drop, List.append_assoc, List.singleton_append] at copied
  have delimited := @strcat_string _ delimiter.content (block.drop (name.length + 1)) name.noNul (by
    rw [room, CString.length]
    omega)
  have added := @strcat_string _ domainpart.content
    ((block.drop (name.length + 1)).drop delimiter.content.length) (name ++ delimiter).noNul (by
      rw [List.length_drop, room, CString.length, CString.length]
      omega)
  have full : ((block.drop (name.length + 1)).drop delimiter.content.length).drop
      domainpart.content.length = [] := by
    rw [List.drop_eq_nil_iff, List.length_drop, room, CString.length, CString.length]
    omega
  rw [full] at added
  rw [addInto, copied, Option.bind_eq_bind, Option.bind_some, delimited, Option.bind_some]
  exact added

/-- A new string is allocated and filled. -/
theorem grown_stage {given : Nat} {block : List Byte}
    {change : List Byte → Option (List Byte)} (filled : change block = some (name.content ++ [0])) :
    ∃ after, (heap.alloc block).2.write (heap.alloc block).1 change = some after ∧
      MangleStage heap given ⟨name, false⟩ (heap.alloc block).1 after :=
  have ⟨after, written, grown⟩ := (heap.alloc_grows block).write filled
  ⟨after, written, .grows grown⟩

theorem usernameStripAt_stage (here : stringAt heap p = some name) :
    ∃ q after, usernameStripAt opt garbage heap p state = some (q, after) ∧
      MangleStage heap p (usernameStrip opt name state) q after := by
  rw [usernameStripAt, usernameStrip]
  by_cases off : (!opt.stripDomain.has state) = true
  · rw [if_pos off, if_pos off]
    exact ⟨p, heap, rfl, .keeps here⟩
  rw [if_neg off, if_neg off]
  by_cases specified : state = stateGetServer ∧ opt.clientServerSpecification = true
  · rw [if_pos specified, if_pos specified]
    exact ⟨p, heap, rfl, .keeps here⟩
  rw [if_neg specified, if_neg specified, here, Option.bind_eq_bind, Option.bind_some]
  cases found : strrstr name.content opt.domainDelimiter.content with
  | none => exact ⟨p, heap, rfl, .keeps here⟩
  | some len =>
    have noNul : 0 ∉ name.content.take len := fun nul => name.noNul (List.mem_of_mem_take nul)
    have filled := stripInto_fits garbage name (strrstr_le found)
    rw [← cstr_content noNul] at filled
    obtain ⟨after, written, stage⟩ := @grown_stage heap _ p _ _ filled
    refine ⟨_, after, ?_, stage⟩
    dsimp only
    rw [written]
    rfl

theorem addedAt_stage (name domainpart : CString) :
    ∃ q after, addedAt opt garbage heap name domainpart = some (q, after) ∧
      MangleStage heap p ⟨name ++ opt.domainDelimiter ++ domainpart, false⟩ q after := by
  have ⟨after, written, stage⟩ :=
    @grown_stage heap _ p _ _ (addInto_fits garbage name opt.domainDelimiter domainpart)
  refine ⟨_, after, ?_, stage⟩
  rw [addedAt, written]
  rfl

/-- NULL is returned where the domain cannot be looked up, and nothing is changed then. -/
theorem usernameAddDomainAt_stage (platform : Platform) (stripDepth : Nat)
    (here : stringAt heap p = some name) :
    (usernameAddDomain opt platform name state stripDepth = none →
      usernameAddDomainAt opt garbage heap p state platform stripDepth = some (none, heap)) ∧
    ∀ out, usernameAddDomain opt platform name state stripDepth = some out →
      ∃ q after, usernameAddDomainAt opt garbage heap p state platform stripDepth =
        some (some q, after) ∧ MangleStage heap p out q after := by
  have keeps : ∀ out, some (⟨name, true⟩ : Mangled) = some out → ∃ q after,
      (some (some p, heap) : Option (Option Nat × Heap Byte)) = some (some q, after) ∧
        MangleStage heap p out q after := by
    rintro out ⟨⟩
    exact ⟨p, heap, rfl, .keeps here⟩
  have adds : ∀ domain out, some (⟨name ++ opt.domainDelimiter ++ domain, false⟩ : Mangled) =
      some out → ∃ q after, (addedAt opt garbage heap name domain >>= fun added =>
        pure (some added.1, added.2)) = some (some q, after) ∧ MangleStage heap p out q after := by
    rintro domain out ⟨⟩
    obtain ⟨q, after, added, stage⟩ := @addedAt_stage heap p opt garbage name domain
    refine ⟨q, after, ?_, stage⟩
    rw [added]
    rfl
  rw [usernameAddDomainAt, usernameAddDomain]
  dsimp only
  by_cases off : (!opt.addDomain.has state) = true
  · rw [if_pos off, if_pos off]
    exact ⟨by simp, keeps⟩
  rw [if_neg off, if_neg off, here, Option.bind_eq_bind, Option.bind_some]
  by_cases found : (strstr name.content opt.domainDelimiter.content).isSome = true
  · rw [if_pos found, if_pos found]
    exact ⟨by simp, keeps⟩
  rw [if_neg found, if_neg found]
  cases opt.explicitDomain with
  | some domain => exact ⟨by simp, adds domain⟩
  | none =>
    cases platform.sockname with
    | none => exact ⟨by simp, keeps⟩
    | some named =>
      cases named with
      | none => exact ⟨fun _ => rfl, by simp⟩
      | some host =>
        dsimp only
        cases stripLevels stripDepth host.content with
        | none => exact ⟨by simp, keeps⟩
        | some rest =>
          cases rest with
          | nil => exact ⟨by simp, keeps⟩
          | cons c rest => exact ⟨by simp, adds (cstr (c :: rest))⟩

theorem usernameLowerCaseAt_stage (here : stringAt heap p = some name) :
    ∃ q after, usernameLowerCaseAt opt heap p state = some (q, after) ∧
      MangleStage heap p (usernameLowerCase opt name state) q after := by
  rw [usernameLowerCaseAt, usernameLowerCase]
  by_cases off : (!opt.lowerCase.has state) = true
  · rw [if_pos off, if_pos off]
    exact ⟨p, heap, rfl, .keeps here⟩
  rw [if_neg off, if_neg off, here, Option.bind_eq_bind, Option.bind_some]
  have lowered := strnTolower_lower [] name.content [0]
  rw [List.nil_append, List.nil_append, List.length_nil,
    ← cstr_content (noNul_lower name.noNul)] at lowered
  obtain ⟨after, written, stage⟩ := @grown_stage heap _ p _ _ lowered
  refine ⟨_, after, ?_, stage⟩
  dsimp only [CString.length]
  rw [written]
  rfl

/-! ## `username_mangle` -/

/-- After a stage and the release of what it replaced, the result is the only new block again. -/
theorem MangleStage.release {first : Heap Byte} {given q r : Nat} {after : Heap Byte} {out : Mangled}
    {block : List Byte} (there : heap.block given = some block)
    (owned : heap.Owned given first q) (here : stringAt first q = some name)
    (stage : MangleStage first q out r after) :
    ∃ left, after.release q r given = some left ∧ heap.Owned given left r ∧
      stringAt left r = some out.name := by
  have ⟨old, live⟩ := stringAt_live here
  have ⟨left, released, still, same⟩ := owned.release (stage.owned here) there (by rw [live]; rfl)
  exact ⟨left, released, still, (stringAt_congr same).trans stage.text⟩

/-- A stage that replaces its pointer does not return one that was in use. -/
theorem MangleStage.elsewhere {given : Nat} {out : Mangled} {q : Nat} {after : Heap Byte}
    {block : List Byte} (stage : MangleStage heap p out q after) (here : stringAt heap p = some name)
    (there : heap.block given = some block) : q = given ↔ p = given ∧ out.same = true := by
  rw [← stage.same_iff here]
  constructor
  · rintro rfl
    by_cases same : q = p
    · exact ⟨same.symm, same⟩
    · have new := (stage.owned here).new same
      rw [there] at new
      cases new
  · rintro ⟨rfl, same⟩
    exact same

/-- `username_mangle` in memory returns the name that the functions without memory compute, in the
only new block or at the pointer it was given; NULL where they have no result. -/
theorem usernameMangleAt_refines (platform : Platform) (here : stringAt heap p = some name) :
    (usernameMangle opt platform name state = none →
      ∃ after, usernameMangleAt opt garbage heap p state platform = some (none, after) ∧
        ∀ a block, heap.block a = some block → after.block a = some block) ∧
    ∀ out, usernameMangle opt platform name state = some out →
      ∃ q after, usernameMangleAt opt garbage heap p state platform = some (some q, after) ∧
        heap.Owned p after q ∧ stringAt after q = some out.name ∧ (q = p ↔ out.same = true) := by
  obtain ⟨block, there⟩ := stringAt_live here
  obtain ⟨q, after, stripped, stage⟩ := @usernameStripAt_stage heap p name opt garbage state here
  have owned := stage.owned here
  obtain ⟨fails, adds⟩ := @usernameAddDomainAt_stage after q (usernameStrip opt name state).name opt
    garbage state platform opt.addDomainStripDepth stage.text
  simp only [usernameMangleAt, stripped, usernameMangle, Option.bind_eq_bind, Option.bind_some]
  cases added : usernameAddDomain opt platform (usernameStrip opt name state).name state
      opt.addDomainStripDepth with
  | none =>
    rw [fails added]
    exact ⟨fun _ => ⟨after, rfl, fun a block used => owned.live used⟩, by simp⟩
  | some domain =>
    refine ⟨by simp, ?_⟩
    rintro out ⟨⟩
    obtain ⟨r, grown, result, stage'⟩ := adds domain added
    obtain ⟨heap', released, owned', text'⟩ := stage'.release there owned stage.text
    obtain ⟨s, last, lowered, stage''⟩ := @usernameLowerCaseAt_stage heap' r domain.name opt state text'
    obtain ⟨left, released', owned'', text''⟩ := stage''.release there owned' text'
    refine ⟨s, left, ?_, owned'', text'', ?_⟩
    · simp only [result, released, lowered, released', Option.bind_some]
      rfl
    · rw [stage''.elsewhere text' (owned'.live there),
        stage'.elsewhere stage.text (owned.live there), stage.same_iff here]
      simp only [Bool.and_eq_true, and_assoc]

/-- `username_mangle` of the string at `p` returns its mangled name, unless the host name that it
needs is not known. It touches no block that was in use, and what it returns is the only block that
it leaves. -/
def ManglesAt (opt : Options) (garbage : Nat → Byte) (heap : Heap Byte) (p : Nat) (state : Flag)
    (platform : Platform) (name : CString) : Prop :=
  ∃ result after, usernameMangleAt opt garbage heap p state platform = some (result, after) ∧
    (result = none ↔ HostUnknown opt platform state name.content) ∧
    (∀ q, result = some q →
      (∀ text, MangledTo opt platform state name.content text ↔
        ∃ s, stringAt after q = some s ∧ s.content = text) ∧
      ∀ a, a ≠ q → after.block a = heap.block a) ∧
    ∀ a block, heap.block a = some block → after.block a = some block

/-- `username_mangle` mangles every name in every state. -/
theorem usernameMangleAt_mangles (platform : Platform) (here : stringAt heap p = some name) :
    ManglesAt opt garbage heap p state platform name := by
  have ⟨unknown, mangled⟩ := @usernameMangle_iff opt platform state name
  have ⟨fails, returns⟩ := usernameMangleAt_refines opt garbage state platform here
  cases result : usernameMangle opt platform name state with
  | none =>
    have ⟨after, run_, live⟩ := fails result
    exact ⟨none, after, run_, ⟨fun _ => unknown.mp result, fun _ => rfl⟩, nofun, live⟩
  | some out =>
    have ⟨q, after, run_, owned, text, _⟩ := returns out result
    refine ⟨some q, after, run_, ⟨nofun, fun none_ => ?_⟩, ?_, fun a block => owned.live⟩
    · rw [unknown.mpr none_] at result
      cases result
    · rintro _ ⟨⟩
      refine ⟨fun other => ?_, owned.others⟩
      rw [mangled out result, text]
      simp [eq_comm]

/-- Options under which a name goes through all stages. -/
def manglingOptions : Options :=
  { Options.sample with
    stripDomain := stateRemoteLogin
    addDomain := stateRemoteLogin
    lowerCase := stateRemoteLogin
    explicitDomain := some (lit "Example.ORG") }

/-- A name that is cut, gets another domain and is written in lower case. -/
theorem usernameMangleAt_stages : ManglesAt manglingOptions (fun _ => 0)
    (.one (bytes "User@old" ++ [0])) 0 stateRemoteLogin Platform.sample (lit "User@old") :=
  usernameMangleAt_mangles _ _ _ _ (by decide +kernel)

example : (usernameMangle manglingOptions Platform.sample (lit "User@old") stateRemoteLogin).map
    (·.name) = some (lit "user@example.org") := by decide +kernel

end Perdition
