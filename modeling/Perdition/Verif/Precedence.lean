import Perdition.Verif.OptionCalls

/-!
# The precedence of the options

The values the program ends with, member by member, against those it should end with.
-/
namespace Perdition.Settings

open Perdition.Lib (Write)

/-! ## Which value a member ends with -/

section Values

variable {build : Build} {f : Flag}

/-- The write does not look at the value it replaces. -/
def Blind (a : Assignment) : Prop := ∀ old new, a.update old = a.update new

theorem blind_singleton {a b : Assignment} (blind : Blind b) (member : a ∈ [b]) : Blind a :=
  List.mem_singleton.mp member ▸ blind

/-- What an option sets are bits, or it sets it whatever the value was. -/
theorem given_blind {one : Given} {a : Assignment} (member : a ∈ one.assignments build f) :
    (∃ name value, a = optIOr name value) ∨ Blind a := by
  have states : ∀ {name : BitsOption} {piece : CString},
      a ∈ ((modifyUsername piece).map (optIOr name)).toList →
        (∃ name value, a = optIOr name value) ∨ Blind a := fun listed => by
    obtain ⟨bits, _, same⟩ := Option.map_eq_some_iff.mp (Option.mem_toList.mp listed)
    exact .inl ⟨_, bits, same.symm⟩
  cases one with
  | text name optarg =>
    cases name with
    | configFile =>
      simp only [Given.assignments] at member
      split at member
      · exact absurd member List.not_mem_nil
      · exact .inr (blind_singleton (fun _ _ => rfl) member)
    | _ => exact .inr (blind_singleton (fun _ _ => rfl) member)
  | number name optarg =>
    simp only [Given.assignments] at member
    split at member
    · exact .inr (blind_singleton (fun _ _ => rfl) member)
    · exact absurd member List.not_mem_nil
  | bits name optarg =>
    cases name with
    | addDomain =>
      obtain ⟨piece, _, member'⟩ := List.mem_flatMap.mp member
      split at member'
      · exact .inr (blind_singleton (fun _ _ => rfl) member')
      · exact states member'
    | sslMode =>
      obtain ⟨piece, _, same⟩ := List.mem_map.mp member
      exact .inl ⟨_, _, same.symm⟩
    | stripDomain =>
      obtain ⟨piece, _, member'⟩ := List.mem_flatMap.mp member
      exact states member'
    | lowerCase =>
      obtain ⟨piece, _, member'⟩ := List.mem_flatMap.mp member
      exact states member'
  | capability optarg =>
    simp only [Given.assignments, List.mem_cons, List.not_mem_nil, or_false] at member
    rcases member with rfl | rfl | rfl <;> exact .inr fun _ _ => rfl
  | help => exact absurd member List.not_mem_nil
  | flag name => exact .inr (blind_singleton (fun _ _ => rfl) member)
  | array name optarg => exact .inr (blind_singleton (fun _ _ => rfl) member)
  | protocol optarg => exact .inr (blind_singleton (fun _ _ => rfl) member)
  | logPasswd optarg => exact .inr (blind_singleton (fun _ _ => rfl) member)
  | sslCertVerifyDepth optarg => exact .inr (blind_singleton (fun _ _ => rfl) member)

/-- A list and the modes of SSL are written by their own options only. -/
theorem given_member {one : Given} {a : Assignment} (member : a ∈ one.assignments build f) :
    (∃ name optarg, one = .array name optarg ∧
      a = ⟨.array name, fun _ => (some (name.parse build optarg) : Option (List CString))⟩) ∨
    (∃ optarg, one = .bits .sslMode optarg ∧
      ∃ piece ∈ pieces optarg, a = optIOr .sslMode ((sslModeOf piece).getD 0)) ∨
    (∀ name, a.member ≠ .array name) ∧ a.member ≠ .bits .sslMode := by
  have states : ∀ {name : BitsOption} {piece : CString}, name ≠ .sslMode →
      a ∈ ((modifyUsername piece).map (optIOr name)).toList →
        (∀ name, a.member ≠ .array name) ∧ a.member ≠ .bits .sslMode := fun other listed => by
    obtain ⟨bits, _, same⟩ := Option.map_eq_some_iff.mp (Option.mem_toList.mp listed)
    rw [← same]
    exact ⟨fun _ same => (by cases same), fun same => other (Field.bits.inj same)⟩
  cases one with
  | text name optarg =>
    have one : a ∈ [optP name optarg] := by
      cases name with
      | configFile =>
        simp only [Given.assignments] at member
        split at member
        · exact absurd member List.not_mem_nil
        · exact member
      | _ => exact member
    rw [List.mem_singleton.mp one]
    exact .inr (.inr ⟨fun _ same => (by cases same), fun same => (by cases same)⟩)
  | number name optarg =>
    simp only [Given.assignments] at member
    split at member
    · rw [List.mem_singleton.mp member]
      exact .inr (.inr ⟨fun _ same => (by cases same), fun same => (by cases same)⟩)
    · exact absurd member List.not_mem_nil
  | bits name optarg =>
    cases name with
    | addDomain =>
      obtain ⟨piece, _, member'⟩ := List.mem_flatMap.mp member
      split at member'
      · rw [List.mem_singleton.mp member']
        exact .inr (.inr ⟨fun _ same => (by cases same), fun same => (by cases same)⟩)
      · exact .inr (.inr (states (by decide) member'))
    | sslMode =>
      obtain ⟨piece, inside, same⟩ := List.mem_map.mp member
      exact .inr (.inl ⟨optarg, rfl, piece, inside, same.symm⟩)
    | stripDomain =>
      obtain ⟨piece, _, member'⟩ := List.mem_flatMap.mp member
      exact .inr (.inr (states (by decide) member'))
    | lowerCase =>
      obtain ⟨piece, _, member'⟩ := List.mem_flatMap.mp member
      exact .inr (.inr (states (by decide) member'))
  | capability optarg =>
    simp only [Given.assignments, List.mem_cons, List.not_mem_nil, or_false] at member
    rcases member with rfl | rfl | rfl <;> exact .inr (.inr ⟨fun _ same => (by cases same), fun same => (by cases same)⟩)
  | help => exact absurd member List.not_mem_nil
  | array name optarg =>
    rw [List.mem_singleton.mp member]
    exact .inl ⟨name, optarg, rfl, rfl⟩
  | _ =>
    rw [List.mem_singleton.mp member]
    exact .inr (.inr ⟨fun _ same => (by cases same), fun same => (by cases same)⟩)

/-- A member that is no set of bits has the value of its last write. -/
theorem run_blind {given : List Given} {x : Field} (plain : ∀ name, x ≠ .bits name)
    (named : Sets (assignments build f given) x) (left right : (x : Field) → x.Value) :
    Write.run (assignments build f given) left x =
      Write.run (assignments build f given) right x := by
  refine Write.run_constant named (fun a member here => ?_) left right
  have ⟨one, _, member'⟩ := List.mem_flatMap.mp member
  rcases given_blind member' with ⟨name, value, rfl⟩ | blind
  · exact absurd here.symm (plain name)
  · exact blind

/-- A member is held by its own option, but for the lists and the strip depth. -/
theorem self_holder (x : Field) :
    x ∈ x.holders ∨ (∃ name, x = .array name) ∨ x = .addDomainStripDepth := by
  cases x with
  | flag name => cases name <;> exact .inl (by decide)
  | text name => cases name <;> exact .inl (by decide)
  | number name => cases name <;> exact .inl (by decide)
  | bits name => cases name <;> exact .inl (by decide)
  | array name => exact .inr (.inl ⟨name, rfl⟩)
  | addDomainStripDepth => exact .inr (.inr rfl)
  | protocol => exact .inl (by decide)
  | logPasswd => exact .inl (by decide)
  | sslCertVerifyDepth => exact .inl (by decide)

/-- What is set is given. -/
theorem Sets.gives {writes : List Assignment} {x : Field} (sets : Sets writes x) :
    Gives writes x := by
  have ⟨a, member, here⟩ := List.mem_map.mp sets
  exact List.mem_map.mpr ⟨a, member, here ▸ rfl⟩

/-- Outside of `add_domain`, what is given is set. -/
theorem Gives.sets {writes : List Assignment} {x : Field} (gives : Gives writes x)
    (states : x ≠ .bits .addDomain) (depth : x ≠ .addDomainStripDepth) : Sets writes x := by
  have own : x.option = x := by
    cases x with
    | addDomainStripDepth => exact absurd rfl depth
    | _ => rfl
  have ⟨a, member, here⟩ := List.mem_map.mp gives
  refine List.mem_map.mpr ⟨a, member, ?_⟩
  rw [own] at here
  revert here
  cases a.member with
  | addDomainStripDepth => exact fun here => absurd here.symm states
  | _ => exact id

/-- An option that is given but not held is a list or part of `add_domain`. -/
theorem gives_free {writes : List Assignment} {x : Field} (gives : Gives writes x)
    (free : ¬Held writes x) :
    (∃ name, x = .array name) ∨ x = .addDomainStripDepth ∨ x = .bits .addDomain := by
  by_cases states : x = .bits .addDomain
  · exact .inr (.inr states)
  by_cases depth : x = .addDomainStripDepth
  · exact .inr (.inl depth)
  rcases self_holder x with self | list | depth'
  · exact absurd ⟨x, self, gives.sets states depth⟩ free
  · exact .inl list
  · exact absurd depth' depth

/-- The maximums are held by nothing but themselves. -/
theorem held_max {writes : List Assignment} {x : Field}
    (maximum : x = .text .sslListenMaxProtoVersion ∨ x = .text .sslOutgoingMaxProtoVersion) :
    Held writes x ↔ Gives writes x := by
  have own : x.holders = [x] := by rcases maximum with rfl | rfl <;> rfl
  have apart : x ≠ .bits .addDomain ∧ x ≠ .addDomainStripDepth := by
    rcases maximum with rfl | rfl <;> decide
  constructor
  · rintro ⟨y, member, sets⟩
    rw [own] at member
    exact (List.mem_singleton.mp member ▸ sets).gives
  · exact fun gives => ⟨x, own ▸ List.mem_singleton.mpr rfl, gives.sets apart.1 apart.2⟩

variable {commandLine file : List Given} {basename : CString}

/-- Where the command line holds nothing against it, what the file sets is as if it were alone. -/
theorem free_value {values : (x : Field) → x.Value} {x : Field}
    (first : ∀ x, values x = x.settle (Write.run (assignments build optFirstCall commandLine)
      (defaults build basename) x))
    (free : ¬Held (assignments build optFirstCall commandLine) x)
    (sets : Sets (assignments build optFileCall file) x) :
    Write.run (assignments build optFileCall file) values x =
      Write.run (assignments build optFileCall file) (defaults build basename) x := by
  by_cases bits : ∃ name, x = .bits name
  · have ⟨name, here⟩ := bits
    refine Write.run_congr _ ?_
    have untouched : ¬Sets (assignments build optFirstCall commandLine) x := fun sets' => by
      rcases self_holder x with self | ⟨_, list⟩ | depth
      · exact free ⟨x, self, sets'⟩
      · exact nomatch here.symm.trans list
      · exact nomatch here.symm.trans depth
    rw [first, Write.run_untouched untouched, settle_default]
  · exact run_blind (fun name here => bits ⟨name, here⟩) sets _ _

/-- The values after the writes of the file, before the checks. -/
structure Loaded (s : Sources) (before : List Assignment) (values : (x : Field) → x.Value) :
    Prop where
  /-- A held member is as the command line left it. -/
  held : ∀ x, Held s.commandLine x →
    values x = x.settle (Write.run s.commandLine s.default x)
  /-- So is one that the file does not set. -/
  unset : ∀ x, ¬Sets before x → values x = x.settle (Write.run s.commandLine s.default x)
  /-- Any other is as the file set it. -/
  set : ∀ x, ¬Held s.commandLine x → Sets before x → values x = Write.run before s.default x
  /-- The defaults stand for themselves. -/
  default : ∀ x : Field, x.settle (s.default x) = s.default x

namespace Loaded

variable {s : Sources} {before : List Assignment} {values : (x : Field) → x.Value} {x : Field}

theorem ungiven (loaded : Loaded s before values) (free : ¬Held s.commandLine x)
    (ungiven : ¬Gives s.commandLine x) : values x = Write.run before s.default x := by
  by_cases sets : Sets before x
  · exact loaded.set x free sets
  · have untouched : ¬Sets s.commandLine x := fun sets => ungiven sets.gives
    rw [loaded.unset x sets, Write.run_untouched untouched, Write.run_untouched sets,
      loaded.default]

theorem given_held (loaded : Loaded s before values) (gives : Gives s.commandLine x)
    (held : Held s.commandLine x) : values x = s.value x := by
  rw [loaded.held x held, Sources.value, if_pos gives]

theorem given_free (loaded : Loaded s before values) (gives : Gives s.commandLine x)
    (free : ¬Held s.commandLine x) : values x = s.value x ↔
      (Sets before x → Write.run before s.default x = Write.run s.commandLine s.default x) := by
  have plain : ∀ value : x.Value, x.settle value = value := by
    rcases gives_free gives free with ⟨name, rfl⟩ | rfl | rfl <;> exact fun _ => rfl
  rw [Sources.value, if_pos gives, plain]
  by_cases sets : Sets before x
  · rw [loaded.set x free sets]
    exact ⟨fun same _ => same, fun same => same sets⟩
  · rw [loaded.unset x sets, plain]
    exact ⟨fun _ named => absurd named sets, fun _ => rfl⟩

theorem ungiven_held (loaded : Loaded s before values) (ungiven : ¬Gives s.commandLine x)
    (held : Held s.commandLine x) :
    values x = s.value x ↔ Write.run s.file s.default x = s.default x := by
  have untouched : ¬Sets s.commandLine x := fun sets => ungiven sets.gives
  have plain : ∀ value : x.Value, x.settle value = value := by
    refine settle_plain (fun here => ?_) fun here => ?_
    · exact ungiven ((held_max (.inl here)).mp held)
    · exact ungiven ((held_max (.inr here)).mp held)
  rw [loaded.held x held, Sources.value, if_neg ungiven, Write.run_untouched untouched, plain,
    plain]
  exact eq_comm

theorem ungiven_free (loaded : Loaded s before values) (ungiven : ¬Gives s.commandLine x)
    (free : ¬Held s.commandLine x) : values x = s.value x ↔
      Write.run before s.default x = x.settle (Write.run s.file s.default x) := by
  rw [loaded.ungiven free ungiven, Sources.value, if_neg ungiven]

/-- Where the whole file is read, only the maximums may still have to be settled. -/
theorem whole (loaded : Loaded s s.file values) (ungiven : ¬Gives s.commandLine x)
    (free : ¬Held s.commandLine x) (listen : x ≠ .text .sslListenMaxProtoVersion)
    (outgoing : x ≠ .text .sslOutgoingMaxProtoVersion) : values x = s.value x := by
  rw [loaded.ungiven_free ungiven free, settle_plain listen outgoing]

/-- A maximum that the checks settle has the value it should have. -/
theorem maximum (loaded : Loaded s s.file values)
    (maximum : x = .text .sslListenMaxProtoVersion ∨ x = .text .sslOutgoingMaxProtoVersion) :
    x.settle (values x) = s.value x ∧ (Gives s.commandLine x → values x = s.value x) := by
  have held := @held_max s.commandLine x maximum
  by_cases gives : Gives s.commandLine x
  · have same := loaded.given_held gives (held.mpr gives)
    refine ⟨?_, fun _ => same⟩
    rw [same, Sources.value, if_pos gives, settle_settle]
  · refine ⟨?_, fun gives' => absurd gives' gives⟩
    rw [loaded.ungiven (mt held.mp gives) gives, Sources.value, if_neg gives]

end Loaded

theorem undisturbed_stopped {s : Sources} {file : List Given}
    {values : (x : Field) → x.Value}
    (loaded : Loaded s (assignments build optFileCall (file.takeWhile (Given.wellFormed build)))
      values)
    (bad : ¬file.all (Given.wellFormed build) = true) :
    (∀ x, values x = s.value x) ↔ Undisturbed s build file := by
  constructor
  · intro holds
    exact
      { overridden := fun x gives free => (loaded.given_free gives free).mp (holds x)
        shadowed := fun x ungiven held => (loaded.ungiven_held ungiven held).mp (holds x)
        stopped := fun _ x ungiven free => (loaded.ungiven_free ungiven free).mp (holds x)
        listen := fun good => absurd good bad
        outgoing := fun good => absurd good bad }
  · intro undisturbed x
    by_cases gives : Gives s.commandLine x <;> by_cases held : Held s.commandLine x
    · exact loaded.given_held gives held
    · exact (loaded.given_free gives held).mpr (undisturbed.overridden x gives held)
    · exact (loaded.ungiven_held gives held).mpr (undisturbed.shadowed x gives held)
    · exact (loaded.ungiven_free gives held).mpr (undisturbed.stopped bad x gives held)

/-- A maximum has the value it should have, unless it is empty, of the file, and not settled. -/
theorem maximum_iff {s : Sources} {values after : (x : Field) → x.Value} {name : TextOption}
    {reached : Prop} (loaded : Loaded s s.file values)
    (maximum : Field.text name = .text .sslListenMaxProtoVersion ∨
      Field.text name = .text .sslOutgoingMaxProtoVersion)
    (settles : ∀ value : Option CString, Field.settle (.text name) value = nonempty value)
    (kept : ¬reached → after (.text name) = values (.text name))
    (settled : reached → after (.text name) = nonempty (values (.text name))) :
    after (.text name) = s.value (.text name) ↔
      (Write.run s.file s.default (.text name) = some CString.empty →
        ¬Gives s.commandLine (.text name) → reached) := by
  have ⟨settles', given⟩ := loaded.maximum maximum
  have same : nonempty (values (.text name)) = s.value (.text name) :=
    (settles _).symm.trans settles'
  have held := @held_max s.commandLine _ maximum
  by_cases reaches : reached
  · exact ⟨fun _ _ _ => reaches, fun _ => (settled reaches).trans same⟩
  by_cases gives : Gives s.commandLine (.text name)
  · exact ⟨fun _ _ ungiven => absurd gives ungiven, fun _ => (kept reaches).trans (given gives)⟩
  · rw [kept reaches, ← same, loaded.ungiven (mt held.mp gives) gives]
    constructor
    · intro filled empty _
      rw [empty, nonempty_empty] at filled
      exact nomatch filled
    · intro filled
      exact (nonempty_of_ne fun empty => reaches (filled empty gives)).symm

theorem undisturbed_whole {s : Sources} {file : List Given}
    {values after : (x : Field) → x.Value} (loaded : Loaded s s.file values)
    (source : s.file = assignments build optFileCall file) (checked : Checked values after)
    (good : file.all (Given.wellFormed build) = true) :
    (∀ x, after x = s.value x) ↔ Undisturbed s build file := by
  have before : assignments build optFileCall (file.takeWhile (Given.wellFormed build)) =
      s.file := by
    rw [source, List.takeWhile_eq_self_iff.mpr (List.all_eq_true.mp good)]
  have ⟨plain, listenKept, listenSettled, outgoingKept, outgoingSettled⟩ := checked
  have minimum : values (.text .sslListenMinProtoVersion) =
      s.value (.text .sslListenMinProtoVersion) := by
    by_cases gives : Gives s.commandLine (.text .sslListenMinProtoVersion) <;>
      by_cases held : Held s.commandLine (.text .sslListenMinProtoVersion)
    · exact loaded.given_held gives held
    · exact absurd (gives_free gives held) (by simp)
    · have ⟨y, member, sets⟩ := held
      exact absurd (List.mem_singleton.mp member ▸ sets).gives gives
    · exact loaded.whole gives held (by decide) (by decide)
  have listenMax : nonempty (values (.text .sslListenMaxProtoVersion)) =
      s.value (.text .sslListenMaxProtoVersion) :=
    (loaded.maximum (.inl rfl)).1
  rw [minimum] at listenKept listenSettled
  rw [minimum, listenMax] at outgoingKept outgoingSettled
  have listen := maximum_iff loaded (.inl rfl) (fun _ => rfl)
    (fun refused => listenKept (Bool.not_eq_false _ ▸ refused)) listenSettled
  have outgoing := maximum_iff loaded (.inr rfl) (fun _ => rfl) outgoingKept outgoingSettled
  constructor
  · intro holds
    have holds' : ∀ x, x ≠ .text .sslListenMaxProtoVersion →
        x ≠ .text .sslOutgoingMaxProtoVersion → values x = s.value x :=
      fun x other other' => (plain x other other').symm.trans (holds x)
    refine
      { overridden := fun x gives free => ?_
        shadowed := fun x ungiven held => ?_
        stopped := fun bad => absurd good bad
        listen := fun _ => listen.mp (holds _)
        outgoing := fun _ => outgoing.mp (holds _) }
    · have apart : x ≠ .text .sslListenMaxProtoVersion ∧ x ≠ .text .sslOutgoingMaxProtoVersion := by
        rcases gives_free gives free with ⟨_, rfl⟩ | rfl | rfl <;> exact ⟨nofun, nofun⟩
      rw [before]
      exact (loaded.given_free gives free).mp (holds' x apart.1 apart.2)
    · exact (loaded.ungiven_held ungiven held).mp (holds' x
        (fun here => ungiven ((held_max (.inl here)).mp held))
        fun here => ungiven ((held_max (.inr here)).mp held))
  · intro undisturbed x
    by_cases here : x = .text .sslListenMaxProtoVersion
    · subst here
      exact listen.mpr (undisturbed.listen good)
    by_cases here' : x = .text .sslOutgoingMaxProtoVersion
    · subst here'
      exact outgoing.mpr (undisturbed.outgoing good)
    rw [plain x here here']
    by_cases gives : Gives s.commandLine x <;> by_cases held : Held s.commandLine x
    · exact loaded.given_held gives held
    · have same := undisturbed.overridden x gives held
      rw [before] at same
      exact (loaded.given_free gives held).mpr same
    · exact (loaded.ungiven_held gives held).mpr (undisturbed.shadowed x gives held)
    · exact loaded.whole gives held here here'

end Values

/-- The values that the second call starts its checks with. -/
theorem loaded_file {build : Build} {read : CString → Option Arguments} {arguments : Arguments}
    {opt : OptionsT} {before : List Given}
    (first : ∀ x, opt.values x = x.settle
      (Write.run (assignments build optFirstCall arguments.given)
        (defaults build arguments.basename) x))
    (masked : ∀ x : Field, x.Masked opt.masks ↔
      Held (assignments build optFirstCall arguments.given) x) :
    Loaded (sources build read arguments) (assignments build optFileCall before)
      (Write.runUnless (fun x => x.Masked opt.masks) (assignments build optFileCall before)
        opt.values) where
  held x held := (Write.runUnless_held ((masked x).mpr held) _ _).trans (first x)
  unset x unset := by
    refine Eq.trans ?_ (first x)
    by_cases held : x.Masked opt.masks
    · exact Write.runUnless_held held _ _
    · exact (Write.runUnless_free held _ _).trans (Write.run_untouched unset _)
  set x free sets :=
    (Write.runUnless_free (mt (masked x).mp free) _ _).trans (free_value first free sets)
  default := settle_default build arguments.basename

/-- Settled values pass through the checks as they are. -/
theorem checked_settled {values : (x : Field) → x.Value}
    (settled : ∀ x : Field, x.settle (values x) = values x) : Checked values values :=
  ⟨fun _ _ _ => rfl, fun _ => rfl,
    fun _ => (settled (.text .sslListenMaxProtoVersion)).symm, fun _ => rfl,
    fun _ => (settled (.text .sslOutgoingMaxProtoVersion)).symm⟩

theorem left_eq_some {ended : Ended} {opt : OptionsT} (left : ended.left = some opt) :
    ended = .next opt ∨ ended = .failed opt := by
  cases ended with
  | next opt' => exact .inl (congrArg Ended.next (Option.some.inj left))
  | failed opt' => exact .inr (congrArg Ended.failed (Option.some.inj left))
  | exits => exact nomatch left

/-- The second call reads the file that the command line or the default names, if there is one. -/
theorem configFileToOpt_reads {build : Build} {read : CString → Option Arguments}
    {arguments : Arguments} {opt : OptionsT}
    (named : opt.values (.text .configFile) =
      Write.run (assignments build optFirstCall arguments.given)
        (defaults build arguments.basename) (.text .configFile)) :
    (configuration build read arguments = [] ∧
      configFileToOpt build read (opt.values (.text .configFile)) opt = .next opt) ∨
    ∃ file : Arguments, configuration build read arguments = file.given ∧
      configFileToOpt build read (opt.values (.text .configFile)) opt =
        options build file optFileCall opt := by
  unfold configFileToOpt configuration
  rw [named]
  dsimp only
  cases Option.filter (fun name => !name.isEmpty)
      (Write.run (assignments build optFirstCall arguments.given)
        (defaults build arguments.basename) (.text .configFile) : Option CString) with
  | none => exact .inl ⟨rfl, rfl⟩
  | some name =>
    rw [Option.bind_some]
    dsimp only
    cases read name with
    | none => exact .inl ⟨rfl, rfl⟩
    | some file => exact .inr ⟨file, rfl, rfl⟩

/-- A run that reads the options to its end has loaded the file up to the first bad number. The checks
that follow are made where there is none. -/
theorem mainOptions_checked {build : Build} {read : CString → Option Arguments}
    {arguments : Arguments} {opt : OptionsT} (ends : mainOptions build read arguments = some opt) :
    ∃ values, Loaded (sources build read arguments) (assignments build optFileCall
        ((configuration build read arguments).takeWhile (Given.wellFormed build))) values ∧
      ((configuration build read arguments).all (Given.wellFormed build) = true →
        Checked values opt.values) ∧
      (¬ (configuration build read arguments).all (Given.wellFormed build) = true →
        opt.values = values) := by
  have ⟨opt₁, ends₁, ends₂⟩ := Option.bind_eq_some_iff.mp ends
  have ⟨first, masked, one⟩ := options_first (left_eq_some ends₁)
  rcases @configFileToOpt_reads build read arguments _ (first (.text .configFile)) with
    ⟨nothing, goes⟩ | ⟨file, given, calls⟩
  · rw [goes] at ends₂
    have same : opt₁ = opt := Option.some.inj ends₂
    have settled : ∀ x : Field, x.settle (opt.values x) = opt.values x := fun x => by
      rw [← same, first, settle_settle]
    have loaded := @loaded_file build read arguments opt₁ [] first masked
    rw [nothing]
    refine ⟨opt.values, same ▸ loaded, fun _ => checked_settled settled, fun _ => rfl⟩
  · rw [calls] at ends₂
    have ⟨whole, stopped⟩ := options_file one (left_eq_some ends₂)
    have loaded := @loaded_file build read arguments opt₁
      (file.given.takeWhile (Given.wellFormed build)) first masked
    rw [given]
    refine ⟨_, loaded, fun good => ?_, fun bad => ?_⟩
    · exact whole good
    · rw [stopped bad]

/-- The checks change nothing but the maximum versions. -/
theorem mainOptions_loaded {build : Build} {read : CString → Option Arguments}
    {arguments : Arguments} {opt : OptionsT} (ends : mainOptions build read arguments = some opt) :
    ∃ values, Loaded (sources build read arguments) (assignments build optFileCall
        ((configuration build read arguments).takeWhile (Given.wellFormed build))) values ∧
      ∀ x, x ≠ .text .sslListenMaxProtoVersion → x ≠ .text .sslOutgoingMaxProtoVersion →
        opt.values x = values x := by
  have ⟨values, loaded, whole, stopped⟩ := mainOptions_checked ends
  by_cases good : (configuration build read arguments).all (Given.wellFormed build) = true
  · exact ⟨values, loaded, (whole good).1⟩
  · refine ⟨values, loaded, fun x _ _ => ?_⟩
    rw [stopped good]

/-- A run that reads the options to its end leaves every option with the value of the command
line, else of the file, else the default, if and only if the masks and the early ends of `options`
make no difference. -/
theorem mainOptions_precedence_iff (build : Build) (read : CString → Option Arguments)
    (arguments : Arguments) {opt : OptionsT}
    (ends : mainOptions build read arguments = some opt) :
    Precedence (sources build read arguments) opt ↔
      Undisturbed (sources build read arguments) build (configuration build read arguments) := by
  have ⟨values, loaded, whole, stopped⟩ := mainOptions_checked ends
  by_cases good : (configuration build read arguments).all (Given.wellFormed build) = true
  · rw [List.takeWhile_eq_self_iff.mpr (List.all_eq_true.mp good)] at loaded
    exact undisturbed_whole loaded rfl (whole good) good
  · unfold Precedence
    rw [stopped good]
    exact undisturbed_stopped loaded good

/-- A command line that names addresses to bind to, and a configuration file. -/
def boundArguments : Arguments where
  basename := lit "perdition"
  given := [.array .bindAddress (lit "192.0.2.1"), .text .configFile (lit "perdition.conf")]
  badOption := false
  trailing := false

/-- A configuration file that limits the connections. -/
def limitingFile : Arguments where
  basename := lit "perdition"
  given := [.number .connectionLimit (lit "5")]
  badOption := false
  trailing := false

theorem mainOptions_bound :
    (mainOptions .sample (fun _ => some limitingFile) boundArguments).map
      (fun opt => (opt.values (.number .connectionLimit) : Int)) = some 0 := by
  decide +kernel

theorem mainOptions_precedence_iff_bound :
    ∃ opt, mainOptions .sample (fun _ => some limitingFile) boundArguments = some opt ∧
      (Precedence (sources .sample (fun _ => some limitingFile) boundArguments) opt ↔
        Undisturbed (sources .sample (fun _ => some limitingFile) boundArguments) .sample
          limitingFile.given) := by
  have ⟨opt, ends, _⟩ := Option.map_eq_some_iff.mp mainOptions_bound
  exact ⟨opt, ends, mainOptions_precedence_iff .sample _ boundArguments ends⟩

/-- `bind_address` on the command line keeps the file from limiting the connections. -/
theorem bindAddress_shadows :
    ∃ opt, mainOptions .sample (fun _ => some limitingFile) boundArguments = some opt ∧
      ¬Precedence (sources .sample (fun _ => some limitingFile) boundArguments) opt := by
  have ⟨opt, ends, zero⟩ := Option.map_eq_some_iff.mp mainOptions_bound
  refine ⟨opt, ends, fun precedence => ?_⟩
  have given : ¬(sources .sample (fun _ => some limitingFile) boundArguments).value
      (.number .connectionLimit) = defaults .sample (lit "perdition") (.number .connectionLimit) := by
    decide +kernel
  exact given ((precedence (.number .connectionLimit)).symm.trans zero)

end Perdition.Settings
