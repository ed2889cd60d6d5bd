import Perdition.Spec.Precedence

/-!
# The masks of the options

The first call of `options` performs every write and marks its mask entry, the second performs
those whose entries the first has not marked. Which marks a write for one member leaves on the
entry of another is a finite table, and it is not the identity.
-/
namespace Perdition.Settings

open Perdition.Lib (Write)

/-! ## Masks -/

/-- What the first call adds to the masks with a write of the member. -/
def Field.marks (x : Field) (word : MaskWord) : Flag :=
  match x.guard optFirstCall with
  | some guard => if guard.word = word ∧ Among optSetMask guard.flag then guard.entry else 0
  | none => 0

/-- The second call does not perform a write of the member. -/
def Field.Masked (masks : MaskWord → Flag) (x : Field) : Prop :=
  match x.guard optFileCall with
  | some guard => Among optUseMask guard.flag ∧ masks guard.word &&& guard.entry ≠ 0
  | none => False

instance (masks : MaskWord → Flag) (x : Field) : Decidable (x.Masked masks) := by
  unfold Field.Masked
  split <;> infer_instance

/-- Every member. -/
def Field.all : List Field :=
  ([.authenticateIn, .noBindBanner, .connectionLogging, .clientServerSpecification, .debug,
    .inetdMode, .noLookup, .serverRespLine, .usernameFromDatabase, .quiet, .noDaemon,
    .tcpKeepalive, .loginDisabled, .sslCaAcceptSelfSigned, .sslCertAcceptExpired,
    .sslCertAcceptNotYetValid, .sslCertAcceptSelfSigned, .sslNoCertVerify,
    .sslNoClientCertVerify, .sslNoCnVerify, .sslListenCompression, .sslOutgoingCompression,
    .sslNoCipherServerPreference].map Field.flag) ++
  ([.domainDelimiter, .explicitDomain, .configFile, .logFacility, .group, .imapCapability,
    .managesieveCapability, .popCapability, .listenPort, .mapLibrary, .mapLibraryOpt, .okLine,
    .outgoingPort, .username, .pidFile, .sslCaFile, .sslCaPath, .sslCaChainFile, .sslCertFile,
    .sslDhParamsFile, .sslKeyFile, .sslListenCiphers, .sslOutgoingCiphers, .sslPassphraseFile,
    .sslListenMinProtoVersion, .sslOutgoingMinProtoVersion, .sslListenMaxProtoVersion,
    .sslOutgoingMaxProtoVersion].map Field.text) ++
  ([.authenticateTimeout, .connectRelog, .connectionLimit, .timeout, .sslPassphraseFd].map
    Field.number) ++
  ([.bindAddress, .outgoingServer, .queryKey].map Field.array) ++
  ([.addDomain, .stripDomain, .lowerCase, .sslMode].map Field.bits) ++
  [.addDomainStripDepth, .protocol, .logPasswd, .sslCertVerifyDepth]

theorem Field.mem_all (x : Field) : x ∈ Field.all := by
  cases x with
  | flag name => cases name <;> decide
  | text name => cases name <;> decide
  | number name => cases name <;> decide
  | array name => cases name <;> decide
  | bits name => cases name <;> decide
  | addDomainStripDepth => decide
  | protocol => decide
  | logPasswd => decide
  | sslCertVerifyDepth => decide

/-- The table of the masks: whose marks keep the second call from writing a member. -/
theorem marks_masked (x y : Field) : x.Masked y.marks ↔ y ∈ x.holders := by
  -- two tables, for few of the pairs have to be looked up
  have masked : ∀ x ∈ Field.all, ∀ y ∈ Field.all, x.Masked y.marks → y ∈ x.holders := by
    decide +kernel
  have holders : ∀ x ∈ Field.all, ∀ y ∈ x.holders, x.Masked y.marks := by decide +kernel
  exact ⟨masked x x.mem_all y y.mem_all, holders x x.mem_all y⟩

/-- The first call looks at no mask. -/
theorem guard_first {x : Field} {guard : Guard} (guarded : x.guard optFirstCall = some guard) :
    ¬Among optUseMask guard.flag := by
  have table : ∀ x ∈ Field.all, ∀ guard ∈ x.guard optFirstCall, ¬Among optUseMask guard.flag := by
    decide +kernel
  exact table x x.mem_all guard guarded

/-- What the second call adds to a mask, it adds to the first one. -/
theorem guard_adds {x : Field} {guard : Guard} (guarded : x.guard optFileCall = some guard)
    (adds : Among optSetMask guard.flag) : guard.word = .mask ∧ guard.entry = optFileCall := by
  have table : ∀ x ∈ Field.all, ∀ guard ∈ x.guard optFileCall, Among optSetMask guard.flag →
      guard.word = .mask ∧ guard.entry = optFileCall := by
    decide +kernel
  exact table x x.mem_all guard guarded adds

/-- And it is no part of an entry that the second call looks at. -/
theorem guard_looks {x : Field} {guard : Guard} (guarded : x.guard optFileCall = some guard)
    (looks : Among optUseMask guard.flag) (first : guard.word = .mask) :
    optFileCall &&& guard.entry = 0 := by
  have table : ∀ x ∈ Field.all, ∀ guard ∈ x.guard optFileCall, Among optUseMask guard.flag →
      guard.word = .mask → optFileCall &&& guard.entry = 0 := by
    decide +kernel
  exact table x x.mem_all guard guarded looks first

theorem or_and (a b c : Flag) : (a ||| b) &&& c = a &&& c ||| b &&& c := by
  apply UInt32.toBitVec_inj.mp
  simp only [UInt32.toBitVec_and, UInt32.toBitVec_or]
  ext i
  simp [Bool.and_or_distrib_right]

/-- Marks that are added mask what one or the other of them masks. -/
theorem masked_or (x : Field) (left right : MaskWord → Flag) :
    x.Masked (fun word => left word ||| right word) ↔ x.Masked left ∨ x.Masked right := by
  unfold Field.Masked
  cases x.guard optFileCall with
  | none => simp
  | some guard =>
    simp only [or_and, ne_eq, UInt32.or_eq_zero_iff]
    grind

theorem masked_zero (x : Field) : ¬x.Masked fun _ => 0 := by
  unfold Field.Masked
  cases x.guard optFileCall with
  | none => exact id
  | some guard => simp

/-! ## Writes in the first call -/

/-- The first call performs a write and marks it. -/
theorem perform_first (opt : OptionsT) (a : Assignment) :
    (a.perform optFirstCall opt).values = Write.apply opt.values a ∧
      (a.perform optFirstCall opt).masks = fun word => opt.masks word ||| a.member.marks word := by
  unfold Assignment.perform Field.marks
  cases guarded : a.member.guard optFirstCall with
  | none => exact ⟨rfl, funext fun _ => by simp⟩
  | some guard =>
    have allowed := guard_first guarded
    simp only [optionsSetMask, allowed, false_and, if_false]
    refine ⟨by simp, funext fun word => ?_⟩
    by_cases here : guard.word = word
    · subst here
      by_cases adds : Among optSetMask guard.flag <;> simp [adds]
    · simp [Function.update_of_ne (Ne.symm here), here]

/-- All of the writes, in one of the calls. -/
def performAll (f : Flag) (opt : OptionsT) (writes : List Assignment) : OptionsT :=
  writes.foldl (Assignment.perform f) opt

theorem performAll_append (f : Flag) (opt : OptionsT) (front back : List Assignment) :
    performAll f opt (front ++ back) = performAll f (performAll f opt front) back :=
  List.foldl_append

theorem performAll_first (opt : OptionsT) (writes : List Assignment) :
    (performAll optFirstCall opt writes).values = Write.run writes opt.values ∧
      ∀ x : Field, x.Masked (performAll optFirstCall opt writes).masks ↔
        x.Masked opt.masks ∨ ∃ y ∈ x.holders, Sets writes y := by
  induction writes generalizing opt with
  | nil => exact ⟨rfl, fun x => by simp [performAll, Sets]⟩
  | cons a rest ih =>
    have ⟨values, masks⟩ := perform_first opt a
    have ⟨values', masked⟩ := ih (a.perform optFirstCall opt)
    refine ⟨by rw [performAll, List.foldl_cons, ← performAll, values', values]; rfl, fun x => ?_⟩
    rw [performAll, List.foldl_cons, ← performAll, masked, masks, masked_or, marks_masked]
    simp only [Sets, List.map_cons, List.mem_cons]
    grind

/-! ## Writes in the second call -/

/-- What the second call adds to the masks masks nothing. -/
theorem masked_added {x : Field} {guard : Guard} (guarded : x.guard optFileCall = some guard)
    (adds : Among optSetMask guard.flag) (masks : MaskWord → Flag) (y : Field) :
    y.Masked (Function.update masks guard.word (masks guard.word ||| guard.entry)) ↔
      y.Masked masks := by
  have ⟨first, entry⟩ := guard_adds guarded adds
  rw [first, entry]
  unfold Field.Masked
  cases looked : y.guard optFileCall with
  | none => rfl
  | some other =>
    refine and_congr_right fun looks => ?_
    by_cases here : other.word = .mask
    · have apart := guard_looks looked looks here
      simp only [here, Function.update_self, or_and, apart, UInt32.or_zero]
    · rw [Function.update_of_ne here]

/-- The second call performs a write that is not masked, and what is masked stays so. -/
theorem perform_file (opt : OptionsT) (a : Assignment) :
    (a.perform optFileCall opt).values =
        (if a.member.Masked opt.masks then opt.values else Write.apply opt.values a) ∧
      (∀ x : Field, x.Masked (a.perform optFileCall opt).masks ↔ x.Masked opt.masks) ∧
      (a.perform optFileCall opt).masks .sslMask = opt.masks .sslMask := by
  unfold Assignment.perform
  cases guarded : a.member.guard optFileCall with
  | none =>
    have free : ¬a.member.Masked opt.masks := by simp [Field.Masked, guarded]
    simp [free]
  | some guard =>
    have masked : a.member.Masked opt.masks ↔
        Among optUseMask guard.flag ∧ opt.masks guard.word &&& guard.entry ≠ 0 := by
      simp [Field.Masked, guarded]
    by_cases held : a.member.Masked opt.masks
    · have refused := masked.mp held
      simp [optionsSetMask, refused, held]
    · simp only [optionsSetMask, mt masked.mpr held, held, if_false]
      by_cases adds : Among optSetMask guard.flag
      · have first := (guard_adds guarded adds).1
        simp only [adds, if_true]
        refine ⟨trivial, masked_added guarded adds opt.masks, ?_⟩
        rw [Function.update_of_ne (by rw [first]; decide)]
      · simp [adds]

theorem performAll_file (opt : OptionsT) (writes : List Assignment) :
    (performAll optFileCall opt writes).values =
        Write.runUnless (fun x => x.Masked opt.masks) writes opt.values ∧
      (performAll optFileCall opt writes).masks .sslMask = opt.masks .sslMask := by
  induction writes generalizing opt with
  | nil => exact ⟨rfl, rfl⟩
  | cons a rest ih =>
    have ⟨values, masked, kept⟩ := perform_file opt a
    have ⟨values', kept'⟩ := ih (a.perform optFileCall opt)
    rw [performAll, List.foldl_cons, ← performAll]
    refine ⟨?_, kept'.trans kept⟩
    rw [values', values]
    simp only [Write.runUnless, masked]
    by_cases held : a.member.Masked opt.masks <;> simp [held]

end Perdition.Settings
