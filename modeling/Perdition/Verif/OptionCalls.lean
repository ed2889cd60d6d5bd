import Perdition.Verif.OptionMasks

/-!
# The two calls of `options`

A case of the switch that goes on performs what the option sets, and only a bad number of the file
ends the loop early. The checks after the loop settle the maximum versions. So the first call
leaves what the command line sets, and the second what the file sets where nothing is masked.
-/
namespace Perdition.Settings

open Perdition.Lib (Write)

/-! ## The switch -/

@[simp] theorem andThen_next (opt : OptionsT) (rest : OptionsT → Ended) :
    (Ended.next opt).andThen rest = rest opt := rfl

@[simp] theorem andThen_failed (opt : OptionsT) (rest : OptionsT → Ended) :
    (Ended.failed opt).andThen rest = .failed opt := rfl

@[simp] theorem andThen_exits (rest : OptionsT → Ended) : Ended.exits.andThen rest = .exits := rfl

/-- A part of `options` that goes on has performed the writes, unless it was a bad number. -/
def Ended.Performs (ended : Ended) (f : Flag) (opt : OptionsT) (writes : List Assignment) : Prop :=
  ∀ opt', ended = .next opt' → opt' = performAll f opt writes

theorem eachPiece_performs {piece : OptionsT → CString → Ended} {f : Flag}
    {writes : CString → List Assignment}
    (one : ∀ opt text, (piece opt text).Performs f opt (writes text)) (texts : List CString)
    (opt : OptionsT) : (eachPiece piece opt texts).Performs f opt (texts.flatMap writes) := by
  intro opt' ended
  induction texts generalizing opt with
  | nil => exact (Ended.next.inj ended).symm
  | cons text rest ih =>
    rw [eachPiece] at ended
    cases first : piece opt text with
    | next opt₁ =>
      rw [first] at ended
      rw [List.flatMap_cons, performAll_append, ← one opt text opt₁ first]
      exact ih opt₁ ended
    | failed opt₁ => rw [first] at ended; exact absurd ended (by simp [Ended.andThen])
    | exits => rw [first] at ended; exact absurd ended (by simp [Ended.andThen])

theorem next_performs (f : Flag) (opt : OptionsT) (a : Assignment) :
    (Ended.next (a.perform f opt)).Performs f opt [a] :=
  fun _ ended => (Ended.next.inj ended).symm

theorem none_performs (f : Flag) (opt : OptionsT) : (Ended.next opt).Performs f opt [] :=
  fun _ ended => (Ended.next.inj ended).symm

theorem exits_performs (f : Flag) (opt : OptionsT) (writes : List Assignment) :
    Ended.exits.Performs f opt writes :=
  fun _ ended => nomatch ended

theorem error_performs (f : Flag) (opt : OptionsT) (writes : List Assignment) :
    (Ended.error f opt).Performs f opt writes := by
  unfold Ended.error
  split
  · exact exits_performs f opt writes
  · exact fun _ ended => nomatch ended

theorem optModifyUsername_performs (name : BitsOption) (f : Flag) (opt : OptionsT)
    (piece : CString) : (optModifyUsername name f opt piece).Performs f opt
      ((modifyUsername piece).map (optIOr name)).toList := by
  unfold optModifyUsername
  cases modifyUsername piece with
  | some states => exact next_performs f opt _
  | none =>
    dsimp only
    split
    · exact exits_performs f opt _
    · exact none_performs f opt

theorem optAddDomain_performs (build : Build) (f : Flag) (opt : OptionsT) (piece : CString) :
    (optAddDomain build f opt piece).Performs f opt
      (if build.strIsDigit piece then [optStripDepth (atoi piece)]
        else ((modifyUsername piece).map (optIOr .addDomain)).toList) := by
  unfold optAddDomain
  split
  · exact next_performs f opt _
  · exact optModifyUsername_performs .addDomain f opt piece

theorem optSslMode_performs (f : Flag) (opt : OptionsT) (piece : CString) :
    (optSslMode f opt piece).Performs f opt [optIOr .sslMode ((sslModeOf piece).getD 0)] := by
  unfold optSslMode
  dsimp only
  split
  · exact exits_performs f opt _
  · exact next_performs f opt _

/-- In either call `options_set_mask` agrees with itself when it is asked twice. -/
theorem optCapability_eq {f : Flag} (call : f = optFirstCall ∨ f = optFileCall)
    (name : TextOption) (optarg : CString) (opt : OptionsT) :
    optCapability name optarg f opt = (optP name optarg).perform f opt := by
  have one : ¬(Among optUseMask f ∧ Among optSetMask f) := by
    rcases call with rfl | rfl <;> decide
  unfold optCapability Assignment.perform
  simp only [optP, Field.guard, optionsSetMask]
  by_cases looks : Among optUseMask f
  · have adds : ¬Among optSetMask f := fun adds => one ⟨looks, adds⟩
    by_cases held : opt.masks name.entry.1 &&& name.entry.2 = 0 <;> simp [looks, adds, held]
  · by_cases adds : Among optSetMask f <;> simp [looks, adds, UInt32.or_assoc]

/-- A case of the switch that goes on has performed what the option sets. -/
theorem optionCase_performs (build : Build) {f : Flag}
    (call : f = optFirstCall ∨ f = optFileCall) (opt : OptionsT) (given : Given) :
    (optionCase build f opt given).Performs f opt (given.assignments build f) := by
  cases given with
  | flag name => exact next_performs f opt _
  | text name optarg =>
    cases name with
    | pidFile =>
      simp only [optionCase, Given.assignments]
      split
      · exact exits_performs f opt _
      · exact next_performs f opt _
    | configFile =>
      simp only [optionCase, Given.assignments]
      split
      · exact none_performs f opt
      · exact next_performs f opt _
    | _ => exact next_performs f opt _
  | number name optarg =>
    simp only [optionCase, Given.assignments]
    split
    · exact next_performs f opt _
    · exact error_performs f opt _
  | array name optarg => exact next_performs f opt _
  | bits name optarg =>
    cases name with
    | addDomain => exact eachPiece_performs (optAddDomain_performs build f) _ opt
    | sslMode =>
      simp only [optionCase, Given.assignments]
      rw [List.map_eq_flatMap]
      exact eachPiece_performs (optSslMode_performs f) _ opt
    | stripDomain => exact eachPiece_performs (optModifyUsername_performs .stripDomain f) _ opt
    | lowerCase => exact eachPiece_performs (optModifyUsername_performs .lowerCase f) _ opt
  | help =>
    simp only [optionCase, Given.assignments]
    split
    · exact exits_performs f opt _
    · exact none_performs f opt
  | capability optarg =>
    simp only [optionCase, optCapability_eq call]
    exact fun _ ended => (Ended.next.inj ended).symm
  | protocol optarg =>
    simp only [optionCase, Given.assignments]
    split
    · exact exits_performs f opt _
    · exact next_performs f opt _
  | logPasswd optarg =>
    simp only [optionCase, Given.assignments]
    split
    · exact exits_performs f opt _
    · exact next_performs f opt _
  | sslCertVerifyDepth optarg => exact next_performs f opt _

theorem eachPiece_goes {piece : OptionsT → CString → Ended}
    (one : ∀ opt text opt', piece opt text ≠ .failed opt') (texts : List CString)
    (opt opt' : OptionsT) : eachPiece piece opt texts ≠ .failed opt' := by
  induction texts generalizing opt with
  | nil => exact nofun
  | cons text rest ih =>
    rw [eachPiece]
    cases first : piece opt text with
    | next opt₁ => exact ih opt₁
    | failed opt₁ => exact absurd first (one opt text opt₁)
    | exits => exact nofun

theorem optModifyUsername_goes (name : BitsOption) (f : Flag) (opt : OptionsT) (piece : CString)
    (opt' : OptionsT) : optModifyUsername name f opt piece ≠ .failed opt' := by
  unfold optModifyUsername
  cases modifyUsername piece with
  | some states => exact nofun
  | none => dsimp only; split <;> exact nofun

/-- `options` returns from within the switch at a bad number of the file, and there only. -/
theorem optionCase_failed {build : Build} {f : Flag} {opt opt' : OptionsT} {given : Given}
    (failed : optionCase build f opt given = .failed opt') :
    opt' = opt ∧ given.wellFormed build = false ∧ ¬Among optErr f := by
  cases given with
  | number name optarg =>
    simp only [optionCase] at failed
    split at failed
    · exact nomatch failed
    · rename_i bad
      unfold Ended.error at failed
      split at failed
      · exact nomatch failed
      · rename_i quiet
        exact ⟨(Ended.failed.inj failed).symm, by simpa [Given.wellFormed] using bad, quiet⟩
  | bits name optarg =>
    cases name with
    | addDomain =>
      refine absurd failed (eachPiece_goes (fun opt piece opt' => ?_) _ opt opt')
      unfold optAddDomain
      split
      · exact nofun
      · exact optModifyUsername_goes .addDomain f opt piece opt'
    | sslMode =>
      refine absurd failed (eachPiece_goes (fun opt piece opt' => ?_) _ opt opt')
      unfold optSslMode
      dsimp only
      split <;> exact nofun
    | stripDomain =>
      exact absurd failed (eachPiece_goes (optModifyUsername_goes .stripDomain f) _ opt opt')
    | lowerCase =>
      exact absurd failed (eachPiece_goes (optModifyUsername_goes .lowerCase f) _ opt opt')
  | text name optarg =>
    cases name with
    | pidFile => simp only [optionCase] at failed; split at failed <;> exact nomatch failed
    | configFile => simp only [optionCase] at failed; split at failed <;> exact nomatch failed
    | _ => exact nomatch failed
  | protocol optarg => simp only [optionCase] at failed; split at failed <;> exact nomatch failed
  | logPasswd optarg => simp only [optionCase] at failed; split at failed <;> exact nomatch failed
  | help => simp only [optionCase] at failed; split at failed <;> exact nomatch failed
  | flag name => exact nomatch failed
  | array name optarg => exact nomatch failed
  | capability optarg => exact nomatch failed
  | sslCertVerifyDepth optarg => exact nomatch failed

theorem optionCase_wellFormed (build : Build) {f : Flag} {opt opt' : OptionsT} {given : Given}
    (next : optionCase build f opt given = .next opt') : given.wellFormed build = true := by
  cases given with
  | number name optarg =>
    simp only [optionCase] at next
    split at next
    · assumption
    · unfold Ended.error at next
      split at next <;> exact nomatch next
  | _ => rfl

/-! ## The loop -/

/-- The loop performs what the options set, up to a bad number in the file. -/
theorem optionLoop_performs (build : Build) {f : Flag}
    (call : f = optFirstCall ∨ f = optFileCall) (given : List Given) (opt : OptionsT) :
    (∀ opt', optionLoop build f opt given = .next opt' →
      given.all (Given.wellFormed build) = true ∧
        opt' = performAll f opt (assignments build f given)) ∧
    ∀ opt', optionLoop build f opt given = .failed opt' →
      given.all (Given.wellFormed build) = false ∧ ¬Among optErr f ∧
        opt' = performAll f opt
          (assignments build f (given.takeWhile (Given.wellFormed build))) := by
  induction given generalizing opt with
  | nil => exact ⟨fun _ ended => ⟨rfl, (Ended.next.inj ended).symm⟩, fun _ ended => nomatch ended⟩
  | cons first rest ih =>
    rw [optionLoop]
    cases one : optionCase build f opt first with
    | next opt₁ =>
      have formed := optionCase_wellFormed build one
      have performed := optionCase_performs build call opt first opt₁ one
      have ⟨goes, stops⟩ := ih opt₁
      simp only [Ended.andThen, List.all_cons, formed, Bool.true_and, assignments,
        List.takeWhile_cons_of_pos formed, List.flatMap_cons, performAll_append, ← performed]
      exact ⟨goes, stops⟩
    | failed opt₁ =>
      have ⟨same, bad, quiet⟩ := optionCase_failed one
      refine ⟨fun _ ended => (nomatch ended), fun opt' ended => ?_⟩
      have ended' : opt₁ = opt' := Ended.failed.inj ended
      have stops : ¬first.wellFormed build = true := by simp [bad]
      simp only [List.all_cons, bad, Bool.false_and, assignments,
        List.takeWhile_cons_of_neg stops, List.flatMap_nil]
      exact ⟨trivial, quiet, ended' ▸ same⟩
    | exits => exact ⟨fun _ ended => (nomatch ended), fun _ ended => nomatch ended⟩

/-! ## The checks after the loop -/

/-- The options once an empty maximum is none. -/
def OptionsT.settle (opt : OptionsT) (maximum : TextOption) : OptionsT :=
  let value : Option CString := nonempty (opt.values (.text maximum))
  { opt with values := Function.update opt.values (.text maximum) value }

theorem error_failed {f : Flag} {opt opt' : OptionsT} (failed : Ended.error f opt = .failed opt') :
    ¬Among optErr f ∧ opt' = opt := by
  unfold Ended.error at failed
  split at failed
  · exact nomatch failed
  · rename_i quiet
    exact ⟨quiet, (Ended.failed.inj failed).symm⟩

theorem error_next {f : Flag} {opt opt' : OptionsT} : Ended.error f opt ≠ .next opt' := by
  unfold Ended.error
  split <;> exact nofun

/-- A check of versions that goes on has settled the maximum it looks at. -/
theorem checkVersions_next {maximum : TextOption} {f : Flag} {opt opt' : OptionsT}
    (next : checkVersions maximum f opt = .next opt') :
    listenVersionsValid (opt.values (.text .sslListenMinProtoVersion))
        (nonempty (opt.values (.text maximum))) ∧ opt' = opt.settle maximum := by
  unfold checkVersions at next
  dsimp only at next
  split at next
  · exact absurd next error_next
  · rename_i known
    split at next
    · exact absurd next error_next
    · rename_i valid
      simp only [Bool.or_eq_true, not_or, Bool.not_eq_true] at known valid
      exact ⟨⟨known, valid⟩, (Ended.next.inj next).symm⟩

/-- One that refuses the versions settles the maximum only where the minimum is a version. -/
theorem checkVersions_failed {maximum : TextOption} {f : Flag} {opt opt' : OptionsT}
    (failed : checkVersions maximum f opt = .failed opt') :
    let minVer : Option CString := opt.values (.text .sslListenMinProtoVersion)
    ¬listenVersionsValid minVer (nonempty (opt.values (.text maximum))) ∧ ¬Among optErr f ∧
      opt' = if unknownVersion minVer then opt else opt.settle maximum := by
  intro minVer
  unfold checkVersions at failed
  dsimp only at failed
  split at failed
  · rename_i unknown
    have ⟨quiet, same⟩ := error_failed failed
    exact ⟨fun valid => by simp [minVer, valid.1] at unknown, quiet, by rw [if_pos unknown, same]⟩
  · rename_i known
    split at failed
    · rename_i refused
      have ⟨quiet, same⟩ := error_failed failed
      refine ⟨fun valid => ?_, quiet, by rw [if_neg known, same]; rfl⟩
      simp [minVer, valid.2] at refused
    · exact nomatch failed

/-- What the checks leave of the values. -/
def Checked (before after : (x : Field) → x.Value) : Prop :=
  let minVer : Option CString := before (.text .sslListenMinProtoVersion)
  let maxVer : Option CString := before (.text .sslListenMaxProtoVersion)
  let outgoing : Option CString := before (.text .sslOutgoingMaxProtoVersion)
  (∀ x, x ≠ .text .sslListenMaxProtoVersion → x ≠ .text .sslOutgoingMaxProtoVersion →
    after x = before x) ∧
  (unknownVersion minVer = true →
    after (.text .sslListenMaxProtoVersion) = maxVer) ∧
  (unknownVersion minVer = false →
    after (.text .sslListenMaxProtoVersion) = nonempty maxVer) ∧
  (¬listenVersionsValid minVer (nonempty maxVer) →
    after (.text .sslOutgoingMaxProtoVersion) = outgoing) ∧
  (listenVersionsValid minVer (nonempty maxVer) →
    after (.text .sslOutgoingMaxProtoVersion) = nonempty outgoing)

/-- What is after the checks of the versions leaves the values alone. -/
theorem finish_end {arguments : Arguments} {f : Flag} {opt opt' : OptionsT} {ended : Ended}
    (last : (if arguments.badOption then .error f opt
      else if arguments.trailing then .exits
      else
        let delimiter : Option CString := opt.values (.text .domainDelimiter)
        .next { opt with domainDelimiterLength := delimiter.elim 0 CString.length }) = ended)
    (ends : ended = .next opt' ∨ ended = .failed opt') :
    opt'.values = opt.values ∧ opt'.masks = opt.masks := by
  subst last
  split at ends
  · rcases ends with next | failed
    · exact absurd next error_next
    · rw [(error_failed failed).2]
      exact ⟨rfl, rfl⟩
  · split at ends
    · exact ends.elim nofun nofun
    · rcases ends with next | failed
      · rw [← Ended.next.inj next]
        exact ⟨rfl, rfl⟩
      · exact nomatch failed

theorem settle_other {opt : OptionsT} {maximum : TextOption} {x : Field}
    (other : x ≠ .text maximum) : (opt.settle maximum).values x = opt.values x :=
  Function.update_of_ne other _ _

theorem settle_self (opt : OptionsT) (maximum : TextOption) :
    (opt.settle maximum).values (.text maximum) = nonempty (opt.values (.text maximum)) :=
  Function.update_self _ _ _

/-- Where the versions for listening are refused, the outgoing ones are not looked at. -/
theorem checked_refused {opt : OptionsT}
    (refused : ¬listenVersionsValid (opt.values (.text .sslListenMinProtoVersion))
      (nonempty (opt.values (.text .sslListenMaxProtoVersion)))) :
    Checked opt.values
      (if unknownVersion (opt.values (.text .sslListenMinProtoVersion)) then opt
        else opt.settle .sslListenMaxProtoVersion).values := by
  cases known : unknownVersion (opt.values (.text .sslListenMinProtoVersion)) with
  | true =>
    refine ⟨fun _ _ _ => rfl, fun _ => rfl, fun unknown => ?_, fun _ => rfl, fun valid => ?_⟩
    · exact absurd (known.symm.trans unknown) (by decide)
    · exact absurd valid refused
  | false =>
    refine ⟨fun x listen _ => settle_other listen, fun unknown => ?_, fun _ => settle_self _ _,
      fun _ => settle_other (by decide), fun valid => absurd valid refused⟩
    exact absurd (known.symm.trans unknown) (by decide)

/-- Where they are valid, both maximums are settled. -/
theorem checked_valid {opt : OptionsT}
    (valid : listenVersionsValid (opt.values (.text .sslListenMinProtoVersion))
      (nonempty (opt.values (.text .sslListenMaxProtoVersion)))) :
    Checked opt.values
      ((opt.settle .sslListenMaxProtoVersion).settle .sslOutgoingMaxProtoVersion).values := by
  refine ⟨fun x listen outgoing => ?_, fun unknown => ?_, fun _ => ?_,
    fun refused => absurd valid refused, fun _ => ?_⟩
  · rw [settle_other outgoing, settle_other listen]
  · exact absurd (valid.1.symm.trans unknown) (by decide)
  · rw [settle_other (by decide), settle_self]
  · rw [settle_self, settle_other (by decide)]

theorem finish_checked {arguments : Arguments} {f : Flag} {opt opt' : OptionsT}
    (apart : checkPassphrase f opt = .next opt)
    (ends : finish arguments f opt = .next opt' ∨ finish arguments f opt = .failed opt') :
    Checked opt.values opt'.values ∧ opt'.masks = opt.masks ∧
      (Among optErr f →
        listenVersionsValid (opt.values (.text .sslListenMinProtoVersion))
          (nonempty (opt.values (.text .sslListenMaxProtoVersion)))) := by
  unfold finish at ends
  simp only [apart, andThen_next] at ends
  cases first : checkVersions .sslListenMaxProtoVersion f opt with
  | next opt₁ =>
    simp only [first, andThen_next] at ends
    have ⟨valid, settles⟩ := checkVersions_next first
    have minimum : opt₁.values (.text .sslListenMinProtoVersion) =
        opt.values (.text .sslListenMinProtoVersion) := by
      rw [settles]
      exact settle_other (by decide)
    cases second : checkVersions .sslOutgoingMaxProtoVersion f opt₁ with
    | next opt₂ =>
      simp only [second, andThen_next] at ends
      have ⟨values, masks⟩ := finish_end rfl ends
      rw [values, masks, (checkVersions_next second).2, settles]
      exact ⟨checked_valid valid, rfl, fun _ => valid⟩
    | failed opt₂ =>
      rw [second, andThen_failed] at ends
      have ⟨_, quiet, same⟩ := checkVersions_failed second
      rw [minimum, valid.1] at same
      have same' : opt' = opt₂ := ends.elim nofun fun failed => (Ended.failed.inj failed).symm
      rw [same', same, settles]
      exact ⟨checked_valid valid, rfl, fun strict => absurd strict quiet⟩
    | exits => rw [second] at ends; exact ends.elim nofun nofun
  | failed opt₁ =>
    rw [first, andThen_failed] at ends
    have ⟨refused, quiet, same⟩ := checkVersions_failed first
    have same' : opt' = opt₁ := ends.elim nofun fun failed => (Ended.failed.inj failed).symm
    rw [same', same]
    refine ⟨checked_refused refused, ?_, fun strict => absurd strict quiet⟩
    split <;> rfl
  | exits => rw [first] at ends; exact ends.elim nofun nofun

/-! ## The two calls -/

theorem nonempty_nonempty (version : Option CString) :
    nonempty (nonempty version) = nonempty version := by
  cases version with
  | none => rfl
  | some text => cases empty : text.isEmpty <;> simp [nonempty, Option.filter, empty]

theorem nonempty_of_ne {version : Option CString} (filled : version ≠ some .empty) :
    nonempty version = version := by
  cases version with
  | none => rfl
  | some text =>
    have some' : text.isEmpty = false := by
      refine Bool.eq_false_iff.mpr fun empty => filled (congrArg some (CString.ext ?_))
      exact List.isEmpty_iff.mp empty
    simp [nonempty, Option.filter, some']

theorem nonempty_empty : nonempty (some .empty) = none := rfl

/-- Only the maximums have values that stand for others. -/
theorem settle_plain {x : Field} (listen : x ≠ .text .sslListenMaxProtoVersion)
    (outgoing : x ≠ .text .sslOutgoingMaxProtoVersion) (value : x.Value) :
    x.settle value = value := by
  cases x with
  | text name => cases name <;> first | rfl | exact absurd rfl listen | exact absurd rfl outgoing
  | _ => rfl

theorem settle_settle (x : Field) (value : x.Value) :
    x.settle (x.settle value) = x.settle value := by
  by_cases listen : x = .text .sslListenMaxProtoVersion
  · subst listen
    exact nonempty_nonempty value
  by_cases outgoing : x = .text .sslOutgoingMaxProtoVersion
  · subst outgoing
    exact nonempty_nonempty value
  rw [settle_plain listen outgoing, settle_plain listen outgoing]

theorem settle_default (build : Build) (basename : CString) (x : Field) :
    x.settle (defaults build basename x) = defaults build basename x := by
  cases x with
  | text name => cases name <;> rfl
  | _ => rfl

/-- Valid versions leave every value settled. -/
theorem Checked.settled {before after : (x : Field) → x.Value} (checked : Checked before after)
    (valid : listenVersionsValid (before (.text .sslListenMinProtoVersion))
      (nonempty (before (.text .sslListenMaxProtoVersion)))) (x : Field) :
    after x = x.settle (before x) := by
  have ⟨plain, _, listen', _, outgoing'⟩ := checked
  by_cases listen : x = .text .sslListenMaxProtoVersion
  · subst listen
    exact listen' valid.1
  by_cases outgoing : x = .text .sslOutgoingMaxProtoVersion
  · subst outgoing
    exact outgoing' valid
  rw [plain x listen outgoing, settle_plain listen outgoing]

/-- The mask does not say that both sources of the passphrase are given. -/
def OnePassphrase (sslMask : Flag) : Prop :=
  ¬(sslMask &&& NumberOption.sslPassphraseFd.entry.2 ≠ 0 ∧
    sslMask &&& TextOption.sslPassphraseFile.entry.2 ≠ 0)

theorem checkPassphrase_next {opt : OptionsT} (one : OnePassphrase (opt.masks .sslMask))
    (f : Flag) : checkPassphrase f opt = .next opt :=
  if_neg one

/-- The first call goes on after the loop with one passphrase only. -/
theorem finish_passphrase {arguments : Arguments} {opt opt' : OptionsT}
    (ends : finish arguments optFirstCall opt = .next opt' ∨
      finish arguments optFirstCall opt = .failed opt') : OnePassphrase (opt.masks .sslMask) := by
  intro both
  have exits : checkPassphrase optFirstCall opt = .exits := if_pos both
  unfold finish at ends
  rw [exits] at ends
  exact ends.elim nofun nofun

/-- The first call leaves what the command line sets, and masks what it holds. -/
theorem options_first {build : Build} {arguments : Arguments} {opt : OptionsT}
    (ends : options build arguments optFirstCall .initial = .next opt ∨
      options build arguments optFirstCall .initial = .failed opt) :
    let writes := assignments build optFirstCall arguments.given
    (∀ x, opt.values x = x.settle (Write.run writes (defaults build arguments.basename) x)) ∧
      (∀ x : Field, x.Masked opt.masks ↔ Held writes x) ∧
      OnePassphrase (opt.masks .sslMask) := by
  intro writes
  have call : optFirstCall = optFirstCall ∨ optFirstCall = optFileCall := .inl rfl
  have ⟨goes, stops⟩ := optionLoop_performs build call arguments.given
    (start build arguments optFirstCall .initial)
  have strict : Among optErr optFirstCall := by decide
  unfold options at ends
  cases loop : optionLoop build optFirstCall (start build arguments optFirstCall .initial)
      arguments.given with
  | failed opt₁ => exact absurd strict (stops opt₁ loop).2.1
  | exits => rw [loop] at ends; exact ends.elim nofun nofun
  | next opt₁ =>
    rw [loop, andThen_next] at ends
    have one := finish_passphrase ends
    have ⟨checked, masks, valid⟩ := finish_checked (checkPassphrase_next one optFirstCall) ends
    have ⟨values', masked⟩ := performAll_first (start build arguments optFirstCall .initial) writes
    have same : opt₁ = performAll optFirstCall _ writes := (goes opt₁ loop).2
    rw [masks]
    refine ⟨fun x => ?_, fun x => ?_, one⟩
    · rw [checked.settled (valid strict) x, same, values']
      rfl
    · have unmarked : (start build arguments optFirstCall .initial).masks = fun _ => 0 :=
        funext fun word => ite_self 0
      rw [same, masked, unmarked]
      exact or_iff_right (masked_zero x)

theorem start_file (build : Build) (arguments : Arguments) (opt : OptionsT) :
    start build arguments optFileCall opt = opt := by
  have keeps : ¬Among optSetDefault optFileCall := by decide
  have marked : ¬Among optClearMask optFileCall := by decide
  simp [start, keeps, marked]

/-- The second call performs what the file sets up to a bad number, but for what is masked. -/
theorem options_file {build : Build} {arguments : Arguments} {opt opt' : OptionsT}
    (one : OnePassphrase (opt.masks .sslMask))
    (ends : options build arguments optFileCall opt = .next opt' ∨
      options build arguments optFileCall opt = .failed opt') :
    let before := assignments build optFileCall
      (arguments.given.takeWhile (Given.wellFormed build))
    let values := Write.runUnless (fun x => x.Masked opt.masks) before opt.values
    (arguments.given.all (Given.wellFormed build) = true → Checked values opt'.values) ∧
      (¬arguments.given.all (Given.wellFormed build) = true → opt'.values = values) := by
  intro before values
  have call : optFileCall = optFirstCall ∨ optFileCall = optFileCall := .inr rfl
  have ⟨goes, stops⟩ := optionLoop_performs build call arguments.given opt
  unfold options at ends
  rw [start_file] at ends
  cases loop : optionLoop build optFileCall opt arguments.given with
  | exits => rw [loop] at ends; exact ends.elim nofun nofun
  | failed opt₁ =>
    rw [loop, andThen_failed] at ends
    have ⟨bad, _, same⟩ := stops opt₁ loop
    have same' : opt' = opt₁ := ends.elim nofun fun failed => (Ended.failed.inj failed).symm
    refine ⟨fun good => absurd (bad.symm.trans good) (by decide), fun _ => ?_⟩
    rw [same', same]
    exact (performAll_file opt before).1
  | next opt₁ =>
    rw [loop, andThen_next] at ends
    have ⟨good, same⟩ := goes opt₁ loop
    refine ⟨fun _ => ?_, fun bad => absurd good bad⟩
    have whole : before = assignments build optFileCall arguments.given := by
      have all := List.takeWhile_eq_self_iff.mpr (List.all_eq_true.mp good)
      simp only [before, all]
    have ⟨values', masks'⟩ := performAll_file opt before
    rw [whole] at values' masks'
    have one' : OnePassphrase (opt₁.masks .sslMask) := by rw [same, masks']; exact one
    have ⟨checked, _⟩ := finish_checked (checkPassphrase_next one' optFileCall) ends
    rw [same, values', ← whole] at checked
    exact checked

end Perdition.Settings
