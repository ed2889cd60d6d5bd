import Perdition.SslModeText
import Perdition.Verif.Precedence

/-!
# SSL modes

Modes add up over any number of arguments. On the command line a combination may be refused; in the
configuration file it is not. The text of the modes is written to an array of fixed size.
-/
namespace Perdition.Settings

open Lib Lib.Block

/-! ## The text -/

/-- The array holds these bytes before the place where the next name is written. -/
structure Written (text : ModeText) (written : List Byte) : Prop where
  /-- They start the array. -/
  front : ∃ rest, text.block = written ++ rest
  /-- The next name follows them. -/
  place : text.place = some written.length
  /-- The array has its size. -/
  size : text.block.length = sslModeSize
  /-- There is room for a NUL. -/
  room : written.length < sslModeSize

/-- Names with commas between them. -/
def withName (written : List Byte) (name : CString) : List Byte :=
  if written = [] then name.content else written ++ 44 :: name.content

/-- The name under a condition. -/
def withNameIf (condition : Bool) (written : List Byte) (name : CString) : List Byte :=
  if condition then withName written name else written

/-- The bytes are written if there is room for them and a NUL; else there is no result. -/
def Writes (result : Option ModeText) (written : List Byte) : Prop :=
  if written.length < sslModeSize then ∃ text, result = some text ∧ Written text written
  else result = none

theorem Written.writes {text : ModeText} {written : List Byte} (holds : Written text written) :
    Writes (some text) written := by
  rw [Writes, if_pos holds.room]
  exact ⟨text, rfl, holds⟩

/-- What is written grows. -/
theorem Writes.bind {result : Option ModeText} {next : ModeText → Option ModeText}
    {written longer : List Byte} (first : Writes result written)
    (grows : written.length ≤ longer.length)
    (then_ : ∀ text, Written text written → Writes (next text) longer) :
    Writes (result.bind next) longer := by
  rw [Writes] at first
  split at first
  · obtain ⟨text, rfl, holds⟩ := first
    exact then_ text holds
  · rename_i long
    rw [first, Writes, if_neg (by omega)]
    rfl

theorem withName_length (written : List Byte) (name : CString) :
    written.length ≤ (withName written name).length := by
  rw [withName]
  split
  · simp_all
  · rw [List.length_append]
    exact Nat.le_add_right ..

theorem withNameIf_length (condition : Bool) (written : List Byte) (name : CString) :
    written.length ≤ (withNameIf condition written name).length := by
  rw [withNameIf]
  split
  · exact withName_length written name
  · exact le_rfl

variable {text : ModeText} {written : List Byte}

/-- The name is copied behind what is written. -/
theorem copied {block rest : List Byte} {front : List Byte} (name : CString)
    (same : block = front ++ rest) (size : block.length = sslModeSize) :
    Writes ((storeAll block front.length (name.content ++ [0])).bind fun block =>
      some ⟨block, some (front.length + name.length)⟩) (front ++ name.content) := by
  subst same
  rw [List.length_append] at size
  rw [storeAll_behind, Writes, List.length_append, List.length_append, List.length_singleton]
  by_cases fits : name.content.length + 1 ≤ rest.length
  · rw [if_pos fits, if_pos (by omega), Option.bind_some]
    refine ⟨_, rfl, ⟨[0] ++ rest.drop (name.content.length + 1), by simp⟩, ?_, ?_, ?_⟩
    · rw [List.length_append, CString.length]
    · simp only [List.length_append, List.length_singleton, List.length_drop]
      omega
    · rw [List.length_append]
      omega
  · rw [if_neg fits, if_neg (by omega)]
    rfl

theorem addStr_writes (holds : Written text written) (name : CString) :
    Writes (text.addStr name) (withName written name) := by
  obtain ⟨rest, same⟩ := holds.front
  rw [ModeText.addStr, holds.place, Option.bind_eq_bind, Option.bind_some, withName]
  by_cases first : written = []
  · subst first
    rw [if_pos rfl, List.length_nil, if_neg (not_not.mpr rfl)]
    exact @copied text.block rest [] name same holds.size
  · rw [if_neg first, if_pos (by simpa using first), same]
    cases rest with
    | nil =>
      have long := holds.size
      have short := holds.room
      rw [same, List.append_nil] at long
      omega
    | cons old rest =>
      have size := holds.size
      rw [same] at size
      have whole := @copied (written ++ 44 :: rest) rest (written ++ [44]) name (by simp) (by
        rw [← size]
        simp)
      have place : ((written ++ [44]).length : Nat) = written.length + 1 := by simp
      rw [place, List.append_assoc, List.singleton_append] at whole
      rw [store_inside, Option.map_some, Option.bind_eq_bind, Option.bind_some]
      exact whole

theorem addIf_writes (holds : Written text written) (condition : Bool) (name : CString) :
    Writes (text.addIf condition name) (withNameIf condition written name) := by
  cases condition with
  | true => exact addStr_writes holds name
  | false => exact holds.writes

/-- The names for listening and outgoing SSL, and those for TLS. -/
def plainText (ssl ssl' tls tls' : Bool) : List Byte :=
  if ssl && ssl' then (lit "ssl_all").content
  else if tls && tls' then (lit "tls_all").content
  else
    withNameIf tls' (withNameIf tls (withNameIf ssl' (withNameIf ssl []
      (lit "ssl_listen")) (lit "ssl_outgoing")) (lit "tls_listen")) (lit "tls_outgoing")

/-- The names for forced TLS behind the others. -/
def withForced (written : List Byte) (force force' : Bool) : List Byte :=
  if force' && force then withName written (lit "tls_all_force")
  else withNameIf force (withNameIf force' written (lit "tls_outgoing_force"))
    (lit "tls_listen_force")

/-- The text of the bits of a mode. -/
def textOf (mode : Flag) : List Byte :=
  withForced (plainText (mode.has sslModeSslListen) (mode.has sslModeSslOutgoing)
      (mode.has sslModeTlsListen) (mode.has sslModeTlsOutgoing))
    (mode.has sslModeTlsListenForce) (mode.has sslModeTlsOutgoingForce)

theorem withForced_length (written : List Byte) (force force' : Bool) :
    written.length ≤ (withForced written force force').length := by
  rw [withForced]
  split
  · exact withName_length _ _
  · exact (withNameIf_length _ _ _).trans (withNameIf_length _ _ _)

/-- What follows the `switch` writes the forced modes. -/
theorem forced_writes (holds : Written text written) (mode : Flag) :
    Writes (text.forced mode) (withForced written (mode.has sslModeTlsListenForce)
      (mode.has sslModeTlsOutgoingForce)) := by
  rw [ModeText.forced, withForced]
  split
  · exact addStr_writes holds _
  · exact (addIf_writes holds _ _).bind (withNameIf_length _ _ _) fun _ next =>
      addIf_writes next _ _

/-- The `default` of the `switch` writes the other modes. -/
theorem modes_writes (holds : Written text []) (mode : Flag) :
    Writes (text.modes mode) (plainText (mode.has sslModeSslListen) (mode.has sslModeSslOutgoing)
      (mode.has sslModeTlsListen) (mode.has sslModeTlsOutgoing)) := by
  rw [ModeText.modes, plainText]
  split
  · exact addStr_writes holds _
  split
  · exact addStr_writes holds _
  have grows := withNameIf_length
  refine (addIf_writes holds _ _).bind
    (((grows _ _ _).trans (grows _ _ _)).trans (grows _ _ _)) fun _ first => ?_
  refine (addIf_writes first _ _).bind ((grows _ _ _).trans (grows _ _ _)) fun _ second => ?_
  refine (addIf_writes second _ _).bind (grows _ _ _) fun _ third => ?_
  refine (addIf_writes third _ _).bind le_rfl fun text last => ?_
  split
  · -- nothing is written, and the first byte of the array becomes a NUL
    rename_i start
    obtain ⟨rest, same⟩ := last.front
    have size := last.size
    rw [last.place, Option.some.injEq, List.length_eq_zero_iff] at start
    rw [start, List.nil_append] at same
    cases rest with
    | nil =>
      rw [same] at size
      cases size
    | cons old rest =>
      rw [start, same, store_first, Writes, if_pos (by decide)]
      refine ⟨_, rfl, ⟨0 :: rest, rfl⟩, ?_, ?_, by decide⟩
      · rw [last.place, start]
      · rw [same] at size
        exact size
  · exact last.writes

/-- The text of a mode is written exactly where it is shorter than the array. -/
theorem logOptionsSslMode_iff (garbage : Nat → Byte) (mode : Flag) :
    (∃ block, logOptionsSslMode garbage mode = some block) ↔
      (textOf mode).length < sslModeSize := by
  have size := malloc_length garbage sslModeSize
  rw [logOptionsSslMode]
  dsimp only
  by_cases empty_ : mode = sslModeEmpty
  · subst empty_
    have short : (textOf sslModeEmpty).length < sslModeSize := by decide
    refine ⟨fun _ => short, fun _ => ?_⟩
    cases array : malloc garbage sslModeSize with
    | nil =>
      rw [array] at size
      cases size
    | cons old rest =>
      rw [if_pos rfl, store_first]
      exact ⟨_, rfl⟩
  by_cases none_ : mode = sslModeNone
  · subst none_
    have short : (textOf sslModeNone).length < sslModeSize := by decide
    refine ⟨fun _ => short, fun _ => ?_⟩
    have stored : storeAll (malloc garbage sslModeSize) 0 ((lit "none").content ++ [0]) = _ :=
      storeAll_behind [] (malloc garbage sslModeSize) ((lit "none").content ++ [0])
    rw [if_neg empty_, if_pos rfl, stored, if_pos (by rw [size]; decide)]
    exact ⟨_, rfl⟩
  rw [if_neg empty_, if_neg none_]
  have fresh : Written ⟨malloc garbage sslModeSize, some 0⟩ [] := ⟨⟨_, rfl⟩, rfl, size, by decide⟩
  have whole := (modes_writes fresh mode).bind (withForced_length _ _ _) fun _ next =>
    forced_writes next mode
  rw [← textOf, Writes] at whole
  constructor
  · rintro ⟨block, same⟩
    by_contra long
    rw [if_neg long, Option.bind_eq_none_iff] at whole
    have ⟨text, modes, rest⟩ := Option.bind_eq_some_iff.mp same
    have ⟨text', forced, _⟩ := Option.bind_eq_some_iff.mp rest
    rw [whole text modes] at forced
    cases forced
  · intro short
    rw [if_pos short] at whole
    have ⟨text, same, _⟩ := whole
    have ⟨text', modes, forced⟩ := Option.bind_eq_some_iff.mp same
    rw [modes, Option.bind_eq_bind, Option.bind_some, forced]
    exact ⟨_, rfl⟩

/-! ## Bits -/

/-- The bits of two words together. -/
theorem has_or (left right bit : Flag) :
    (left ||| right).has bit = (left.has bit || right.has bit) := by
  have split_ : (left ||| right) &&& bit = (left &&& bit) ||| (right &&& bit) :=
    UInt32.toBitVec_inj.mp BitVec.and_or_distrib_right
  rw [Bool.eq_iff_iff, Bool.or_eq_true]
  simp only [Flag.has, split_, bne_iff_ne, ne_eq, UInt32.or_eq_zero_iff, not_and_or]

/-- The lengths of the texts, from the bits. -/
theorem plainText_short : ∀ ssl ssl' tls tls' force force' : Bool,
    ¬ (ssl && tls) → ¬ (ssl' && tls') → (force → tls) → (force' → tls') →
      ((withForced (plainText ssl ssl' tls tls') force force').length < sslModeSize ↔
        ¬ (ssl && force') ∧ ¬ (ssl' && force)) := by
  decide +kernel

/-- A mode that keeps SSL and TLS apart and offers the TLS that it forces has a text that fits
exactly where it has no SSL in one direction with forced TLS in the other one. -/
theorem textOf_short (mode : Flag) :
    ¬ (mode.has sslModeSslListen = true ∧ mode.has sslModeTlsListen = true) →
    ¬ (mode.has sslModeSslOutgoing = true ∧ mode.has sslModeTlsOutgoing = true) →
    (mode.has sslModeTlsListenForce = true → mode.has sslModeTlsListen = true) →
    (mode.has sslModeTlsOutgoingForce = true → mode.has sslModeTlsOutgoing = true) →
      ((textOf mode).length < sslModeSize ↔
        ¬ (mode.has sslModeSslListen = true ∧ mode.has sslModeTlsOutgoingForce = true) ∧
          ¬ (mode.has sslModeSslOutgoing = true ∧ mode.has sslModeTlsListenForce = true)) := by
  have short := plainText_short (mode.has sslModeSslListen) (mode.has sslModeSslOutgoing)
    (mode.has sslModeTlsListen) (mode.has sslModeTlsOutgoing) (mode.has sslModeTlsListenForce)
    (mode.has sslModeTlsOutgoingForce)
  simp only [Bool.and_eq_true] at short
  exact short

/-! ## The modes that are given -/

/-- The names given with `ssl_mode`. -/
def sslPieces (given : List Given) : List CString :=
  given.flatMap fun
    | .bits .sslMode optarg => pieces optarg
    | _ => []

/-- The modes that they stand for. -/
def modesGiven (given : List Given) : List Flag := (sslPieces given).filterMap sslModeOf

/-- The modes of the command line, or those of the configuration file up to a bad number where the
command line gives none. -/
def modesInForce (build : Build) (read : CString → Option Arguments) (arguments : Arguments) :
    List Flag :=
  if sslPieces arguments.given = [] then
    modesGiven ((configuration build read arguments).takeWhile (Given.wellFormed build))
  else modesGiven arguments.given

/-- A mode among these has a bit. -/
def Asked (modes : List Flag) (bit : Flag) : Prop := ∃ mode ∈ modes, mode.has bit = true

instance (modes : List Flag) (bit : Flag) : Decidable (Asked modes bit) :=
  inferInstanceAs (Decidable (∃ mode ∈ modes, mode.has bit = true))

theorem asked_append (front back : List Flag) (bit : Flag) :
    Asked (front ++ back) bit ↔ Asked front bit ∨ Asked back bit := by
  simp only [Asked, List.mem_append, or_and_right, exists_or]

/-- One name adds its bits. -/
theorem piece_has (old : Flag) (piece : CString) (bit : Flag) :
    (old ||| (sslModeOf piece).getD 0).has bit = true ↔
      old.has bit = true ∨ Asked (sslModeOf piece).toList bit := by
  rw [has_or, Bool.or_eq_true]
  cases sslModeOf piece with
  | none => simp [Asked, Flag.has]
  | some mode => simp [Asked]

/-- The names of one argument add their bits. -/
theorem pieces_has (texts : List CString) (record : (x : Field) → x.Value) (bit : Flag) :
    Flag.has (Write.run (texts.map fun piece => optIOr .sslMode ((sslModeOf piece).getD 0)) record
        (.bits .sslMode)) bit = true ↔
      Flag.has (record (.bits .sslMode)) bit = true ∨ Asked (texts.filterMap sslModeOf) bit := by
  induction texts generalizing record with
  | nil => simp [Asked]
  | cons piece texts ih =>
    have here : Flag.has (Write.apply record (optIOr .sslMode ((sslModeOf piece).getD 0))
        (.bits .sslMode)) bit = true ↔ Flag.has (record (.bits .sslMode)) bit = true ∨
          Asked (sslModeOf piece).toList bit := by
      have applied := Write.apply_self record (optIOr .sslMode ((sslModeOf piece).getD 0))
      change Flag.has (Write.apply record (optIOr .sslMode ((sslModeOf piece).getD 0))
        (optIOr .sslMode ((sslModeOf piece).getD 0)).member) bit = true ↔ _
      rw [applied]
      exact piece_has (record (.bits .sslMode)) piece bit
    have cut : (piece :: texts).filterMap sslModeOf =
        (sslModeOf piece).toList ++ texts.filterMap sslModeOf := by
      cases found : sslModeOf piece <;> simp [found]
    rw [List.map_cons, Write.run_cons, ih, here, cut, asked_append, or_assoc]

/-- The other options leave the modes alone. -/
theorem others_untouched (build : Build) (f : Flag) {one : Given}
    (other : ∀ optarg, one ≠ .bits .sslMode optarg) :
    Field.bits .sslMode ∉ (one.assignments build f).map Write.member := by
  intro named
  have ⟨a, member, here⟩ := List.mem_map.mp named
  rcases given_member member with ⟨_, _, _, rfl⟩ | ⟨optarg, same, _⟩ | apart
  · cases here
  · exact other optarg same
  · exact apart.2 here

/-- The bits that a list of options leaves are those of its modes. -/
theorem given_has (build : Build) (f : Flag) (given : List Given)
    (record : (x : Field) → x.Value) (bit : Flag) :
    Flag.has (Write.run (assignments build f given) record (.bits .sslMode)) bit = true ↔
      Flag.has (record (.bits .sslMode)) bit = true ∨ Asked (modesGiven given) bit := by
  induction given generalizing record with
  | nil => simp [assignments, modesGiven, sslPieces, Asked]
  | cons one given ih =>
    have split_ : Write.run (assignments build f (one :: given)) record =
        Write.run (assignments build f given) (Write.run (one.assignments build f) record) := by
      rw [assignments, List.flatMap_cons, Write.run, List.foldl_append]
      rfl
    have modes : modesGiven (one :: given) =
        (sslPieces [one]).filterMap sslModeOf ++ modesGiven given := by
      rw [modesGiven, modesGiven, sslPieces, sslPieces, sslPieces, ← List.filterMap_append,
        ← List.flatMap_append]
      rfl
    rw [split_, ih, modes, asked_append, ← or_assoc]
    refine or_congr_left ?_
    by_cases mode : ∃ optarg, one = .bits .sslMode optarg
    · obtain ⟨optarg, rfl⟩ := mode
      have only : sslPieces [.bits .sslMode optarg] = pieces optarg := by simp [sslPieces]
      rw [only]
      exact pieces_has (pieces optarg) record bit
    · have none_ : sslPieces [one] = [] := by
        rw [sslPieces, List.flatMap_singleton]
        split
        · exact absurd ⟨_, rfl⟩ mode
        · rfl
      have untouched := others_untouched build f fun optarg same => mode ⟨optarg, same⟩
      rw [none_, Write.run_untouched untouched]
      simp [Asked]

/-- The command line sets the modes exactly where it gives any. -/
theorem sets_sslMode (build : Build) (f : Flag) (given : List Given) :
    Sets (assignments build f given) (.bits .sslMode) ↔ sslPieces given ≠ [] := by
  have some_ : ∀ optarg : CString, pieces optarg ≠ [] := fun optarg => by
    rw [pieces, ne_eq, List.map_eq_nil_iff]
    exact List.splitOn_ne_nil _ _
  constructor
  · intro named nothing
    have ⟨a, member, here⟩ := List.mem_map.mp named
    have ⟨one, inside, member'⟩ := List.mem_flatMap.mp member
    rcases given_member member' with ⟨_, _, _, rfl⟩ | ⟨optarg, rfl, _⟩ | other
    · cases here
    · exact some_ optarg (List.flatMap_eq_nil_iff.mp nothing _ inside)
    · exact other.2 here
  · intro filled
    obtain ⟨piece, inside⟩ := List.exists_mem_of_ne_nil _ filled
    have ⟨one, given_, inside'⟩ := List.mem_flatMap.mp inside
    split at inside'
    · exact List.mem_map.mpr ⟨_, List.mem_flatMap.mpr ⟨_, given_, List.mem_map.mpr
        ⟨piece, inside', rfl⟩⟩, rfl⟩
    · exact absurd inside' List.not_mem_nil

/-- The bits that start-up leaves are those of the modes in force. -/
theorem mainOptions_has {build : Build} {read : CString → Option Arguments}
    {arguments : Arguments} {opt : OptionsT} (ends : mainOptions build read arguments = some opt)
    (bit : Flag) :
    Flag.has (opt.values (.bits .sslMode)) bit = true ↔
      Asked (modesInForce build read arguments) bit := by
  obtain ⟨values, loaded, same⟩ := mainOptions_loaded ends
  have none_ : Flag.has (defaults build arguments.basename (.bits .sslMode)) bit = false := by
    change (0 : Flag).has bit = false
    simp [Flag.has]
  have sets := sets_sslMode build optFirstCall arguments.given
  rw [same (.bits .sslMode) (by simp) (by simp), modesInForce]
  by_cases given : sslPieces arguments.given = []
  · have free : ¬ Sets (sources build read arguments).commandLine (.bits .sslMode) :=
      fun named => sets.mp named given
    have unheld : ¬ Held (sources build read arguments).commandLine (.bits .sslMode) := by
      rintro ⟨y, inside, named⟩
      obtain rfl := List.mem_singleton.mp inside
      exact free named
    rw [if_pos given, loaded.ungiven unheld fun gives => free (gives.sets (by simp) (by simp))]
    have bits := given_has build optFileCall
      ((configuration build read arguments).takeWhile (Given.wellFormed build))
      (defaults build arguments.basename) bit
    rw [none_] at bits
    exact bits.trans (or_iff_right Bool.false_ne_true)
  · have held : Held (sources build read arguments).commandLine (.bits .sslMode) :=
      ⟨_, List.mem_singleton_self _, sets.mpr given⟩
    rw [if_neg given, loaded.held _ held]
    have bits := given_has build optFirstCall arguments.given
      (defaults build arguments.basename) bit
    rw [none_] at bits
    exact bits.trans (or_iff_right Bool.false_ne_true)

/-! ## What the command line is accepted for -/

/-- SSL and TLS are not asked for in one direction. -/
def Apart (mode : Flag) : Prop :=
  ¬ (mode.has sslModeSslListen = true ∧ mode.has sslModeTlsListen = true) ∧
    ¬ (mode.has sslModeSslOutgoing = true ∧ mode.has sslModeTlsOutgoing = true)

/-- A word with a bit has all of it. -/
theorem and_bit {mode bit : Flag} {place : Nat} (one : bit.toBitVec = BitVec.twoPow 32 place)
    (has : mode.has bit = true) : mode &&& bit = bit := by
  rw [Flag.has, bne_iff_ne, ne_eq, ← UInt32.toBitVec_inj, UInt32.toBitVec_and, one,
    BitVec.and_twoPow] at has
  rw [← UInt32.toBitVec_inj, UInt32.toBitVec_and, one, BitVec.and_twoPow]
  split
  · rfl
  · rename_i unset
    exact absurd (if_neg unset) has

/-- A word with two bits has both of them. -/
theorem and_bits {mode left right : Flag} (has : mode &&& left = left)
    (has' : mode &&& right = right) : mode &&& (left ||| right) = left ||| right := by
  have split_ : mode &&& (left ||| right) = (mode &&& left) ||| (mode &&& right) :=
    UInt32.toBitVec_inj.mp BitVec.and_or_distrib_left
  rw [split_, has, has']

/-- What is not called invalid keeps SSL and TLS apart. -/
theorem apart_of_valid {new old : Flag} (valid : sslModeInvalid new old = false) :
    Apart (old ||| new) := by
  have swap : old ||| new = new ||| old := UInt32.or_comm ..
  rw [sslModeInvalid, Bool.and_eq_false_iff] at valid
  rcases valid with clean | none_
  · rw [Bool.or_eq_false_iff, beq_eq_false_iff_ne, beq_eq_false_iff_ne] at clean
    rw [swap]
    constructor
    · rintro ⟨ssl, tls⟩
      exact clean.1 (and_bits (@and_bit _ _ 0 (by decide) ssl) (@and_bit _ _ 2 (by decide) tls))
    · rintro ⟨ssl, tls⟩
      exact clean.2 (and_bits (@and_bit _ _ 1 (by decide) ssl) (@and_bit _ _ 3 (by decide) tls))
  · simp only [Bool.or_eq_false_iff, bne_eq_false_iff_eq, Bool.and_eq_false_iff] at none_
    obtain ⟨rfl, rfl | rfl⟩ := none_ <;> exact ⟨by decide, by decide⟩

/-- The names of an argument that is accepted keep SSL and TLS apart. -/
theorem eachPiece_apart {texts : List CString} {opt opt' : OptionsT}
    (next : eachPiece (optSslMode optFirstCall) opt texts = .next opt')
    (start : Apart (opt.values (.bits .sslMode))) : Apart (opt'.values (.bits .sslMode)) := by
  have strict : Among optErr optFirstCall := by decide
  induction texts generalizing opt with
  | nil =>
    rw [eachPiece] at next
    rwa [← Ended.next.inj next]
  | cons piece texts ih =>
    rw [eachPiece, optSslMode] at next
    by_cases refused : (sslModeOf piece).isNone = true ∨
        sslModeInvalid ((sslModeOf piece).getD 0) (opt.values (.bits .sslMode)) = true
    · rw [if_pos ⟨strict, refused⟩] at next
      cases next
    · rw [if_neg fun both => refused both.2] at next
      refine ih next ?_
      have applied := Write.apply_self opt.values (optIOr .sslMode ((sslModeOf piece).getD 0))
      rw [(perform_first opt _).1]
      change Apart (Write.apply opt.values (optIOr .sslMode ((sslModeOf piece).getD 0))
        (optIOr .sslMode ((sslModeOf piece).getD 0)).member)
      rw [applied]
      rw [not_or] at refused
      exact apart_of_valid (Bool.eq_false_iff.mpr refused.2)

/-- So do the options of a command line that is accepted. -/
theorem optionLoop_apart {build : Build} {given : List Given} {opt opt' : OptionsT}
    (next : optionLoop build optFirstCall opt given = .next opt')
    (start : Apart (opt.values (.bits .sslMode))) : Apart (opt'.values (.bits .sslMode)) := by
  induction given generalizing opt with
  | nil =>
    rw [optionLoop] at next
    rwa [← Ended.next.inj next]
  | cons one given ih =>
    rw [optionLoop] at next
    cases first : optionCase build optFirstCall opt one with
    | next middle =>
      rw [first] at next
      refine ih next ?_
      by_cases mode : ∃ optarg, one = .bits .sslMode optarg
      · obtain ⟨optarg, rfl⟩ := mode
        exact eachPiece_apart first start
      · have untouched := others_untouched build optFirstCall fun optarg same =>
          mode ⟨optarg, same⟩
        rw [optionCase_performs build (.inl rfl) opt one middle first, (performAll_first opt _).1,
          Write.run_untouched untouched]
        exact start
    | failed middle =>
      rw [first] at next
      cases next
    | exits =>
      rw [first] at next
      cases next

/-- The modes of a command line that is accepted keep SSL and TLS apart. -/
theorem mainOptions_apart {build : Build} {read : CString → Option Arguments}
    {arguments : Arguments} {opt : OptionsT} (ends : mainOptions build read arguments = some opt) :
    ¬ (Asked (modesGiven arguments.given) sslModeSslListen ∧
        Asked (modesGiven arguments.given) sslModeTlsListen) ∧
      ¬ (Asked (modesGiven arguments.given) sslModeSslOutgoing ∧
        Asked (modesGiven arguments.given) sslModeTlsOutgoing) := by
  have ⟨opt₁, ends₁, _⟩ := Option.bind_eq_some_iff.mp ends
  have strict : Among optErr optFirstCall := by decide
  have ⟨goes, stops⟩ := optionLoop_performs build (.inl rfl) arguments.given
    (Settings.start build arguments optFirstCall .initial)
  unfold options at ends₁
  cases loop : optionLoop build optFirstCall (Settings.start build arguments optFirstCall .initial)
      arguments.given with
  | failed opt₂ => exact absurd strict (stops opt₂ loop).2.1
  | exits =>
    rw [loop] at ends₁
    cases ends₁
  | next opt₂ =>
    have zero : Apart (0 : Flag) := ⟨by decide, by decide⟩
    have apart := optionLoop_apart loop zero
    have bits : ∀ bit, Flag.has (opt₂.values (.bits .sslMode)) bit = true ↔
        Asked (modesGiven arguments.given) bit := fun bit => by
      rw [(goes opt₂ loop).2, (performAll_first _ _).1]
      refine (given_has build optFirstCall arguments.given _ bit).trans (or_iff_right fun set => ?_)
      have none_ : (0 : Flag).has bit = false := by simp [Flag.has]
      exact absurd set (Bool.eq_false_iff.mp none_)
    simp only [Apart, bits] at apart
    exact apart

/-! ## Consistent modes -/

/-- All bits but that of `SSL_MODE_NONE`. -/
def sslModeAny : Flag := 0x3f

/-- The modes do not contradict each other, and their text fits. -/
structure SslModeSound (garbage : Nat → Byte) (mode : Flag) : Prop where
  /-- The connection of the client has SSL or TLS. -/
  listen : ¬ (mode.has sslModeSslListen = true ∧ mode.has sslModeTlsListen = true)
  /-- So has the one to the real server. -/
  outgoing : ¬ (mode.has sslModeSslOutgoing = true ∧ mode.has sslModeTlsOutgoing = true)
  /-- TLS that clients are forced to use is offered. -/
  listenForce : mode.has sslModeTlsListenForce = true → mode.has sslModeTlsListen = true
  /-- So is TLS to the real server. -/
  outgoingForce : mode.has sslModeTlsOutgoingForce = true → mode.has sslModeTlsOutgoing = true
  /-- No mode comes with none. -/
  none_ : ¬ (mode.has sslModeNone = true ∧ mode.has sslModeAny = true)
  /-- The text fits its array. -/
  text : ∃ block, logOptionsSslMode garbage mode = some block

/-- The modes that are given can be used together: `none` alone, no SSL in one direction with forced
TLS in the other one, and, in the configuration file, no SSL and TLS in one direction. -/
structure ModesFit (build : Build) (read : CString → Option Arguments) (arguments : Arguments) :
    Prop where
  /-- `none` is not given with another mode. -/
  none_ : ¬ (Asked (modesInForce build read arguments) sslModeNone ∧
    Asked (modesInForce build read arguments) sslModeAny)
  /-- SSL for clients is not given with forced TLS to the real server. -/
  listen : ¬ (Asked (modesInForce build read arguments) sslModeSslListen ∧
    Asked (modesInForce build read arguments) sslModeTlsOutgoingForce)
  /-- SSL to the real server is not given with forced TLS for clients. -/
  outgoing : ¬ (Asked (modesInForce build read arguments) sslModeSslOutgoing ∧
    Asked (modesInForce build read arguments) sslModeTlsListenForce)
  /-- The configuration file, where the command line gives no mode, keeps SSL and TLS apart. -/
  file : sslPieces arguments.given = [] →
    ¬ (Asked (modesInForce build read arguments) sslModeSslListen ∧
      Asked (modesInForce build read arguments) sslModeTlsListen) ∧
    ¬ (Asked (modesInForce build read arguments) sslModeSslOutgoing ∧
      Asked (modesInForce build read arguments) sslModeTlsOutgoing)

/-- Every mode that forces TLS offers it. -/
theorem sslModeOf_forced {piece : CString} {mode : Flag} (known : sslModeOf piece = some mode) :
    (mode.has sslModeTlsListenForce = true → mode.has sslModeTlsListen = true) ∧
      (mode.has sslModeTlsOutgoingForce = true → mode.has sslModeTlsOutgoing = true) := by
  have table : ∀ row ∈ sslModes,
      (row.2.has sslModeTlsListenForce = true → row.2.has sslModeTlsListen = true) ∧
      (row.2.has sslModeTlsOutgoingForce = true → row.2.has sslModeTlsOutgoing = true) := by
    decide +kernel
  have ⟨row, found, same⟩ := Option.map_eq_some_iff.mp known
  rw [← same]
  exact table row (List.mem_of_find?_eq_some found)

theorem modesInForce_forced {build : Build} {read : CString → Option Arguments}
    {arguments : Arguments} :
    (Asked (modesInForce build read arguments) sslModeTlsListenForce →
      Asked (modesInForce build read arguments) sslModeTlsListen) ∧
    (Asked (modesInForce build read arguments) sslModeTlsOutgoingForce →
      Asked (modesInForce build read arguments) sslModeTlsOutgoing) := by
  have known : ∀ mode ∈ modesInForce build read arguments, ∃ piece, sslModeOf piece = some mode := by
    intro mode inside
    rw [modesInForce] at inside
    split at inside <;> exact (List.mem_filterMap.mp inside).imp fun _ both => both.2
  constructor
  · rintro ⟨mode, inside, set⟩
    have ⟨piece, same⟩ := known mode inside
    exact ⟨mode, inside, (sslModeOf_forced same).1 set⟩
  · rintro ⟨mode, inside, set⟩
    have ⟨piece, same⟩ := known mode inside
    exact ⟨mode, inside, (sslModeOf_forced same).2 set⟩

/-- Start-up leaves consistent modes with a text that fits exactly where the modes that are given
can be used together. -/
theorem mainOptions_sslMode_iff {build : Build} {read : CString → Option Arguments}
    {arguments : Arguments} {opt : OptionsT} (ends : mainOptions build read arguments = some opt)
    (garbage : Nat → Byte) :
    SslModeSound garbage (opt.values (.bits .sslMode)) ↔ ModesFit build read arguments := by
  have bits := mainOptions_has ends
  have ⟨listenForce, outgoingForce⟩ := @modesInForce_forced build read arguments
  have short := textOf_short (opt.values (.bits .sslMode))
  simp only [bits] at short
  constructor
  · intro sound
    have apart : _ ∧ _ := ⟨sound.listen, sound.outgoing⟩
    have text := (logOptionsSslMode_iff _ _).mp sound.text
    have none_ := sound.none_
    simp only [bits] at apart none_
    have ⟨listen, outgoing⟩ := (short apart.1 apart.2 listenForce outgoingForce).mp text
    exact ⟨none_, listen, outgoing, fun _ => apart⟩
  · intro fit
    have apart : ¬ (Asked (modesInForce build read arguments) sslModeSslListen ∧
        Asked (modesInForce build read arguments) sslModeTlsListen) ∧
      ¬ (Asked (modesInForce build read arguments) sslModeSslOutgoing ∧
        Asked (modesInForce build read arguments) sslModeTlsOutgoing) := by
      by_cases given : sslPieces arguments.given = []
      · exact fit.file given
      · rw [modesInForce, if_neg given]
        exact mainOptions_apart ends
    have text := (short apart.1 apart.2 listenForce outgoingForce).mpr ⟨fit.listen, fit.outgoing⟩
    refine ⟨?_, ?_, ?_, ?_, ?_, (logOptionsSslMode_iff _ _).mpr text⟩ <;> simp only [bits]
    · exact apart.1
    · exact apart.2
    · exact listenForce
    · exact outgoingForce
    · exact fit.none_

/-- A command line that gives these modes. -/
def modeArguments (optarg : String) : Arguments where
  basename := lit "perdition"
  given := [.bits .sslMode (lit optarg)]
  badOption := false
  trailing := false

/-- SSL for clients and TLS to the real server. -/
theorem mainOptions_sslMode_iff_mixed :
    ∃ opt, mainOptions .sample (fun _ => none) (modeArguments "ssl_listen,tls_outgoing") =
        some opt ∧
      SslModeSound (fun _ => 0) (opt.values (.bits .sslMode)) := by
  have accepted : (mainOptions .sample (fun _ => none)
      (modeArguments "ssl_listen,tls_outgoing")).isSome = true := by
    decide +kernel
  have ⟨opt, ends⟩ := Option.isSome_iff_exists.mp accepted
  have fit : ModesFit .sample (fun _ => none) (modeArguments "ssl_listen,tls_outgoing") :=
    ⟨by decide +kernel, by decide +kernel, by decide +kernel, fun _ => by decide +kernel⟩
  exact ⟨opt, ends, (mainOptions_sslMode_iff ends _).mpr fit⟩

/-- With forced TLS to the real server, the same modes are accepted and their text does not fit. So
is `none` with another mode, and SSL with TLS for clients in the configuration file. -/
theorem sslMode_overruns :
    (∃ opt, mainOptions .sample (fun _ => none)
        (modeArguments "ssl_listen,tls_outgoing_force") = some opt ∧
      logOptionsSslMode (fun _ => 0) (opt.values (.bits .sslMode)) = none) ∧
    (∃ opt, mainOptions .sample (fun _ => none) (modeArguments "none,ssl_listen") = some opt ∧
      Flag.has (opt.values (.bits .sslMode)) sslModeNone = true ∧
      Flag.has (opt.values (.bits .sslMode)) sslModeSslListen = true) ∧
    ∃ opt, mainOptions .sample (fun _ => some (modeArguments "ssl_listen,tls_listen"))
        { modeArguments "" with given := [.text .configFile (lit "perdition.conf")] } = some opt ∧
      Flag.has (opt.values (.bits .sslMode)) sslModeSslListen = true ∧
      Flag.has (opt.values (.bits .sslMode)) sslModeTlsListen = true := by
  have forced : (mainOptions .sample (fun _ => none)
      (modeArguments "ssl_listen,tls_outgoing_force")).map
        (fun opt => (opt.values (.bits .sslMode) : Flag)) = some 0x29 := by
    decide +kernel
  have none_ : (mainOptions .sample (fun _ => none) (modeArguments "none,ssl_listen")).map
      (fun opt => (opt.values (.bits .sslMode) : Flag)) = some 0x41 := by
    decide +kernel
  have file : (mainOptions .sample (fun _ => some (modeArguments "ssl_listen,tls_listen"))
      { modeArguments "" with given := [.text .configFile (lit "perdition.conf")] }).map
        (fun opt => (opt.values (.bits .sslMode) : Flag)) = some 0x5 := by
    decide +kernel
  refine ⟨?_, ?_, ?_⟩
  · have ⟨opt, ends, same⟩ := Option.map_eq_some_iff.mp forced
    refine ⟨opt, ends, ?_⟩
    rw [same, Option.eq_none_iff_forall_ne_some]
    intro block written
    have short := (logOptionsSslMode_iff (fun _ => 0) 0x29).mp ⟨block, written⟩
    revert short
    decide +kernel
  · have ⟨opt, ends, same⟩ := Option.map_eq_some_iff.mp none_
    refine ⟨opt, ends, ?_⟩
    rw [same]
    decide
  · have ⟨opt, ends, same⟩ := Option.map_eq_some_iff.mp file
    refine ⟨opt, ends, ?_⟩
    rw [same]
    decide

end Perdition.Settings
