import Perdition.Ldap
import Perdition.Verif.Memory
import Perdition.Verif.Replacing

/-!
# URIs of the LDAP map

The loop that counts the hosts counts at least as many as the one that adds them, so the block has
room for them while the count is an `int` and the size a `size_t`.
-/
namespace Perdition

open Lib Lib.Block

/-! ## Hosts -/

/-- The hosts in a string, which spaces are around. -/
def hosts (text : List Byte) : List (List Byte) := (text.splitOn space).filter (· ≠ [])

/-- What the first loop counts: the hosts, and the empty string behind spaces at the end. -/
def hostCount (text : List Byte) : Nat :=
  (hosts text).length + if text.getLast?.all (· == space) then 1 else 0

section Hosts

variable {host : List Byte}

theorem hosts_space (text : List Byte) : hosts (space :: text) = hosts text := by
  have split_ := List.splitOn_append_cons_self_of_not_mem (List.not_mem_nil (a := space)) text
  rw [hosts, hosts, ← List.nil_append (space :: text), split_, List.filter_cons_of_neg (by simp)]

theorem hosts_next (filled : host ≠ []) (solid : space ∉ host) (rest : List Byte) :
    hosts (host ++ space :: rest) = host :: hosts rest := by
  rw [hosts, hosts, List.splitOn_append_cons_self_of_not_mem solid,
    List.filter_cons_of_pos (by simpa using filled)]

theorem hosts_last (filled : host ≠ []) (solid : space ∉ host) : hosts host = [host] := by
  rw [hosts, List.splitOn_eq_singleton solid, List.filter_cons_of_pos (by simpa using filled)]
  rfl

theorem hosts_skipSpaces (text : List Byte) : hosts (skipSpaces text) = hosts text := by
  induction text with
  | nil => rfl
  | cons b text ih =>
    rw [skipSpaces]
    by_cases blank : b = space
    · rw [blank, hosts_space, List.dropWhile_cons_of_pos (by decide)]
      exact ih
    · rw [List.dropWhile_cons_of_neg (by simpa using blank)]

theorem hostCount_space (text : List Byte) : hostCount (space :: text) = hostCount text := by
  rw [hostCount, hostCount, hosts_space]
  cases text with
  | nil => rfl
  | cons b text => rw [List.getLast?_cons_cons]

theorem hostCount_skipSpaces (text : List Byte) : hostCount (skipSpaces text) = hostCount text := by
  induction text with
  | nil => rfl
  | cons b text ih =>
    rw [skipSpaces]
    by_cases blank : b = space
    · rw [blank, List.dropWhile_cons_of_pos (by decide)]
      exact ih.trans (hostCount_space text).symm
    · rw [List.dropWhile_cons_of_neg (by simpa using blank)]

theorem hostCount_last (filled : host ≠ []) (solid : space ∉ host) : hostCount host = 1 := by
  have last := List.getLast?_eq_some_getLast filled
  have other : host.getLast filled ≠ space := fun same =>
    solid (same ▸ List.getLast_mem filled)
  rw [hostCount, hosts_last filled solid, last]
  simpa using other

theorem hostCount_next (filled : host ≠ []) (solid : space ∉ host) (rest : List Byte) :
    hostCount (host ++ space :: rest) = hostCount rest + 1 := by
  have last : (host ++ space :: rest).getLast?.all (· == space) =
      rest.getLast?.all (· == space) := by
    rw [List.getLast?_append]
    cases rest with
    | nil => rfl
    | cons b rest =>
      rw [List.getLast?_cons_cons, List.getLast?_eq_some_getLast (List.cons_ne_nil b rest)]
      rfl
  rw [hostCount, hostCount, hosts_next filled solid, last, List.length_cons]
  omega

/-- The string from the next host on: nothing is left, or a host that ends the string or stands before
a space. -/
theorem strchr_cases (text : List Byte) :
    skipSpaces text = [] ∨
      ((skipSpaces text).takeWhile (· != space) ≠ [] ∧
        space ∉ (skipSpaces text).takeWhile (· != space)) ∧
      ((strchr (skipSpaces text) space = none ∧
          (skipSpaces text).takeWhile (· != space) = skipSpaces text) ∨
        ∃ rest, strchr (skipSpaces text) space = some (space :: rest) ∧
          skipSpaces text = (skipSpaces text).takeWhile (· != space) ++ space :: rest) := by
  have halves := List.takeWhile_append_dropWhile (p := (· != space)) (l := skipSpaces text)
  cases start : skipSpaces text with
  | nil => exact .inl rfl
  | cons b tail =>
    rw [start] at halves
    have solid : (b == space) = false := by
      have first := List.head?_dropWhile_not (· == space) text
      rw [← skipSpaces, start] at first
      simpa using first
    have filled : (b :: tail).takeWhile (· != space) ≠ [] := by
      rw [List.takeWhile_cons_of_pos (by simpa using solid)]
      exact List.cons_ne_nil _ _
    have clean : space ∉ (b :: tail).takeWhile (· != space) := fun member => by
      simpa using List.mem_takeWhile_imp member
    refine .inr ⟨⟨filled, clean⟩, ?_⟩
    cases left : (b :: tail).dropWhile (· != space) with
    | nil =>
      rw [left, List.append_nil] at halves
      refine .inl ⟨?_, halves⟩
      rw [strchr, left]
    | cons c rest =>
      have blank : c = space := by
        have first := List.head?_dropWhile_not (· != space) (b :: tail)
        rw [left] at first
        simpa using first
      rw [left, blank] at halves
      refine .inr ⟨rest, ?_, halves.symm⟩
      rw [strchr, left, blank]

theorem hostCount_pos (text : List Byte) : 0 < hostCount text := by
  rw [← hostCount_skipSpaces text]
  rcases strchr_cases text with none_ | ⟨⟨filled, solid⟩, ⟨_, whole⟩ | ⟨rest, _, whole⟩⟩
  · rw [none_]
    decide
  · rw [← whole, hostCount_last filled solid]
    decide
  · rw [whole, hostCount_next filled solid]
    omega

end Hosts

/-! ## Counting -/

/-- The first loop counts hosts while an `int` can. -/
theorem countHosts_eq (rounds : Nat) : ∀ {text : List Byte} {nhost : Nat},
    (skipSpaces text).length < rounds → 0 < nhost → nhost ≤ intMax →
      countHosts rounds (skipSpaces text) nhost =
        intValue (nhost - 1 + hostCount text) := by
  induction rounds with
  | zero =>
    intro text nhost enough
    exact absurd enough (Nat.not_lt_zero _)
  | succ rounds ih =>
    intro text nhost enough some_ small
    have value : intValue nhost = some nhost := if_pos small
    have same : nhost - 1 + 1 = nhost := by omega
    rw [← hostCount_skipSpaces text]
    rcases strchr_cases text with none_ | ⟨⟨filled, solid⟩, ⟨last, whole⟩ | ⟨rest, found, whole⟩⟩
    · have one : hostCount ([] : List Byte) = 1 := rfl
      rw [none_, one, same, value]
      rfl
    · have one := hostCount_last filled solid
      rw [whole] at one
      rw [countHosts, last, one, same, value]
    · have more := hostCount_next filled solid rest
      rw [← whole] at more
      have shorter : (skipSpaces (space :: rest)).length < rounds := by
        have lengths := congrArg List.length whole
        rw [List.length_append, List.length_cons] at lengths
        have cut := (List.dropWhile_suffix (l := space :: rest) (· == space)).length_le
        change (skipSpaces (space :: rest)).length ≤ rest.length + 1 at cut
        have long := List.length_pos_iff.mpr filled
        omega
      rw [countHosts, found, more]
      dsimp only
      rw [intValue]
      by_cases next : nhost + 1 ≤ intMax
      · have sum : nhost + 1 - 1 + hostCount rest = nhost - 1 + (hostCount rest + 1) := by omega
        rw [if_pos next, Option.bind_eq_bind, Option.bind_some,
          ih shorter (Nat.succ_pos nhost) next, hostCount_space, sum]
      · have large : ¬ nhost - 1 + (hostCount rest + 1) ≤ intMax := by
          have counted := hostCount_pos rest
          omega
        rw [if_neg next, intValue, if_neg large]
        rfl

/-! ## Adding -/

section Uris

variable (ldapPort : Nat) (lud : LdapUrlDesc)

/-- The URI of a host. -/
def hostUri (host : List Byte) : List Byte :=
  lud.ludScheme.content ++ bytes "://" ++ host ++
    if lud.ludPort = ldapPort then [] else bytes ":" ++ decimal lud.ludPort

/-- The URIs of the hosts behind those that are there. -/
def uriTail : Bool → List (List Byte) → List Byte
  | _, [] => []
  | started, host :: hosts =>
    (if started then [space] else []) ++ hostUri ldapPort lud host ++ uriTail true hosts

/-- The URIs of all hosts, with a space between. -/
def uriText : List Byte :=
  List.intercalate [space] ((hosts lud.ludHost.content).map (hostUri ldapPort lud))

theorem uriTail_text (hosts : List (List Byte)) :
    uriTail ldapPort lud false hosts =
      List.intercalate [space] (hosts.map (hostUri ldapPort lud)) := by
  cases hosts with
  | nil => rfl
  | cons host hosts =>
    rw [uriTail, if_neg Bool.false_ne_true, List.nil_append]
    induction hosts generalizing host with
    | nil => rw [uriTail, List.append_nil, List.map_singleton, List.intercalate_singleton]
    | cons next hosts ih =>
      rw [uriTail, List.map_cons, List.intercalate_cons_of_ne_nil (by simp), ← ih, if_pos rfl]
      simp only [List.append_assoc]

variable {ldapPort lud}

theorem noNul_uri {host : List Byte} (clean : 0 ∉ host) : 0 ∉ hostUri ldapPort lud host := by
  intro nul
  rcases List.mem_append.mp nul with front | port
  · rcases List.mem_append.mp front with front | inside
    · rcases List.mem_append.mp front with scheme | mark
      · exact lud.ludScheme.noNul scheme
      · exact absurd mark (by decide +kernel)
    · exact clean inside
  · split at port
    · cases port
    · rcases List.mem_append.mp port with colon | digit
      · exact absurd colon (by decide +kernel)
      · exact (digit_plain (isDigit_decimal digit)).1 rfl

theorem noNul_gap (started : Bool) : 0 ∉ if started then [space] else [] := by
  cases started <;> decide

theorem noNul_uriTail {hosts : List (List Byte)} (clean : ∀ host ∈ hosts, 0 ∉ host) :
    ∀ started, 0 ∉ uriTail ldapPort lud started hosts := by
  induction hosts with
  | nil => exact fun _ => List.not_mem_nil
  | cons host hosts ih =>
    intro started nul
    rw [uriTail] at nul
    rcases List.mem_append.mp nul with front | late
    · rcases List.mem_append.mp front with gap | uri
      · exact noNul_gap started gap
      · exact noNul_uri (clean host List.mem_cons_self) uri
    · exact ih (fun other later => clean other (List.mem_cons_of_mem host later)) true late

end Uris

/-! ## The block -/

/-- A block of zeros that this text has been stored in. -/
def stringBlock (size : Nat) (text : List Byte) : List Byte :=
  text ++ List.replicate (size - text.length) 0

section Blocks

variable {size : Nat} {text : List Byte}

theorem strncat_block (noNul : 0 ∉ text) {src : List Byte} {n : Nat}
    (fits : (text ++ src.take n).length < size) :
    strncat (stringBlock size text) src n = some (stringBlock size (text ++ src.take n)) := by
  rw [List.length_append] at fits
  have ⟨left, room⟩ : ∃ left, size - text.length = (src.take n).length + left + 1 :=
    ⟨size - text.length - (src.take n).length - 1, by omega⟩
  have rest : size - (text ++ src.take n).length = left + 1 := by
    rw [List.length_append]
    omega
  rw [stringBlock, stringBlock, room, rest, strncat_fits noNul]

theorem strcat_block (noNul : 0 ∉ text) {src : List Byte} (fits : (text ++ src).length < size) :
    strcat (stringBlock size text) src = some (stringBlock size (text ++ src)) := by
  have added := @strncat_block _ _ noNul src src.length (by rwa [List.take_length])
  rwa [List.take_length] at added

theorem stringBlock_first (fits : text.length < size) :
    (stringBlock size text)[0]? = some (text.head?.getD 0) := by
  have ⟨left, room⟩ : ∃ left, size - text.length = left + 1 :=
    ⟨size - text.length - 1, by omega⟩
  rw [stringBlock, room]
  cases text with
  | nil => rfl
  | cons b text => rfl

end Blocks

section Rounds

variable {ldapPort : Nat} {lud : LdapUrlDesc} {size : Nat}

theorem addSeparator_block {written : List Byte} (noNul : 0 ∉ written)
    (fits : (written ++ if !written.isEmpty then [space] else []).length < size) :
    addSeparator (stringBlock size written) =
      some (stringBlock size (written ++ if !written.isEmpty then [space] else [])) := by
  have within : written.length < size := by
    rw [List.length_append] at fits
    omega
  rw [addSeparator, stringBlock_first within, Option.bind_eq_bind, Option.bind_some]
  cases written with
  | nil => rfl
  | cons b written =>
    have first : b ≠ 0 := fun same => noNul (same ▸ List.mem_cons_self)
    exact (if_pos first).trans (strcat_block noNul fits)

theorem addPort_block {written : List Byte} (noNul : 0 ∉ written)
    (fits : (written ++ if lud.ludPort = ldapPort then [] else
      bytes ":" ++ decimal lud.ludPort).length < size) :
    addPort ldapPort lud (stringBlock size written) =
      some (stringBlock size (written ++ if lud.ludPort = ldapPort then [] else
        bytes ":" ++ decimal lud.ludPort)) := by
  rw [addPort]
  by_cases default : lud.ludPort = ldapPort
  · rw [if_neg (not_not.mpr default), if_pos default, List.append_nil]
  · rw [if_neg default, ← List.append_assoc] at fits ⊢
    have colon : 0 ∉ written ++ bytes ":" := fun nul =>
      (List.mem_append.mp nul).elim noNul (by decide +kernel)
    have front := fits
    rw [List.length_append] at front
    rw [if_pos default, strcat_block noNul (by omega), Option.bind_eq_bind, Option.bind_some,
      strcat_block colon fits]

/-- The parts of a URI are stored one after another. -/
theorem addUri_block {written start host : List Byte} (noNul : 0 ∉ written) (clean : 0 ∉ host)
    (cut : start.take host.length = host)
    (fits : (written ++ uriTail ldapPort lud (!written.isEmpty) [host]).length < size) :
    addUri ldapPort lud start host.length (stringBlock size written) =
      some (stringBlock size (written ++ uriTail ldapPort lud (!written.isEmpty) [host])) := by
  have parts : written ++ uriTail ldapPort lud (!written.isEmpty) [host] =
      (written ++ if !written.isEmpty then [space] else []) ++ lud.ludScheme.content ++
        bytes "://" ++ host ++
        if lud.ludPort = ldapPort then [] else bytes ":" ++ decimal lud.ludPort := by
    simp only [uriTail, hostUri, List.append_nil, List.append_assoc]
  rw [parts] at fits ⊢
  have first : 0 ∉ written ++ if !written.isEmpty then [space] else [] := fun nul =>
    (List.mem_append.mp nul).elim noNul (noNul_gap _)
  have second : 0 ∉ (written ++ if !written.isEmpty then [space] else []) ++
      lud.ludScheme.content := fun nul =>
    (List.mem_append.mp nul).elim first lud.ludScheme.noNul
  have third : 0 ∉ (written ++ if !written.isEmpty then [space] else []) ++
      lud.ludScheme.content ++ bytes "://" := fun nul =>
    (List.mem_append.mp nul).elim second (by decide +kernel)
  have fourth : 0 ∉ (written ++ if !written.isEmpty then [space] else []) ++
      lud.ludScheme.content ++ bytes "://" ++ host := fun nul =>
    (List.mem_append.mp nul).elim third clean
  have size₄ := fits
  rw [List.length_append] at size₄
  have size₃ : ((written ++ if !written.isEmpty then [space] else []) ++ lud.ludScheme.content ++
      bytes "://" ++ host).length < size := by omega
  have size₂ := size₃
  rw [List.length_append] at size₂
  have size₁ : ((written ++ if !written.isEmpty then [space] else []) ++ lud.ludScheme.content ++
      bytes "://").length < size := by omega
  have size₀ := size₁
  rw [List.length_append, List.length_append] at size₀
  rw [addUri, addSeparator_block noNul (by omega), Option.bind_eq_bind, Option.bind_some,
    strcat_block first (by rw [List.length_append]; omega), Option.bind_some,
    strcat_block second size₁, Option.bind_some, strncat_block third (by rwa [cut]), cut,
    Option.bind_some, addPort_block fourth fits]

/-- What the loop stores fits while the URIs do. -/
theorem uriRounds_hosts (rounds : Nat) : ∀ {text written : List Byte}, text.length < rounds →
    0 ∉ text → 0 ∉ written →
    (written ++ uriTail ldapPort lud (!written.isEmpty) (hosts text)).length < size →
      uriRounds ldapPort lud rounds text (stringBlock size written) =
        some (stringBlock size
          (written ++ uriTail ldapPort lud (!written.isEmpty) (hosts text))) := by
  induction rounds with
  | zero =>
    intro text written enough
    exact absurd enough (Nat.not_lt_zero _)
  | succ rounds ih =>
    intro text written enough clean noNul fits
    have shorter := (List.dropWhile_suffix (l := text) (· == space)).length_le
    have start : 0 ∉ skipSpaces text := fun nul =>
      clean ((List.dropWhile_suffix (l := text) (· == space)).subset nul)
    change (skipSpaces text).length ≤ text.length at shorter
    rw [← hosts_skipSpaces text] at fits ⊢
    rw [uriRounds]
    rcases strchr_cases text with none_ | ⟨⟨filled, solid⟩, rest_⟩
    · have blank : hosts [] = [] := rfl
      rw [none_, List.takeWhile_nil, if_pos rfl, blank, uriTail, List.append_nil]
    · generalize (skipSpaces text).takeWhile (· != space) = host at filled solid rest_ ⊢
      have started (others : List (List Byte)) :
          written ++ uriTail ldapPort lud (!written.isEmpty) (host :: others) =
            written ++ uriTail ldapPort lud (!written.isEmpty) [host] ++
              uriTail ldapPort lud true others := by
        simp only [uriTail, List.append_nil, List.append_assoc]
      rw [if_neg filled]
      rcases rest_ with ⟨last, whole⟩ | ⟨rest, found, whole⟩
      · rw [← whole, hosts_last filled solid] at fits ⊢
        rw [← whole] at last start
        rw [addUri_block noNul start List.take_length fits, Option.bind_eq_bind, Option.bind_some,
          last]
      · have inside : 0 ∉ host := fun nul => start (whole ▸ List.mem_append_left _ nul)
        have behind : 0 ∉ space :: rest := fun nul =>
          start (whole ▸ List.mem_append_right host nul)
        have cut : (skipSpaces text).take host.length = host := by rw [whole, List.take_left]
        have long := List.length_pos_iff.mpr filled
        have lengths := congrArg List.length whole
        rw [List.length_append] at lengths
        have later : hosts (skipSpaces text) = host :: hosts (space :: rest) := by
          rw [whole, hosts_next filled solid, hosts_space]
        rw [later, started] at fits ⊢
        have front := fits
        rw [List.length_append] at front
        have some_ : (!(written ++
            uriTail ldapPort lud (!written.isEmpty) [host]).isEmpty) = true := by
          have mark : bytes "://" ≠ [] := by decide +kernel
          simp [uriTail, hostUri, mark]
        have clean' : 0 ∉ written ++ uriTail ldapPort lud (!written.isEmpty) [host] := by
          intro nul
          rcases List.mem_append.mp nul with early | late
          · exact noNul early
          · exact noNul_uriTail (fun one only => List.mem_singleton.mp only ▸ inside) _ late
        rw [addUri_block noNul inside cut (by omega), Option.bind_eq_bind, Option.bind_some, found]
        dsimp only
        rw [← some_] at fits ⊢
        exact ih (by omega) behind clean' fits

end Rounds

/-! ## Sizes -/

section Sizes

variable {ldapPort : Nat} {lud : LdapUrlDesc}

theorem strncat_length {block after src : List Byte} {n : Nat}
    (stored : strncat block src n = some after) : after.length = block.length := by
  have ⟨end_, _, later⟩ := Option.bind_eq_some_iff.mp stored
  exact storeAll_length later

theorem addSeparator_length {uri after : List Byte} (stored : addSeparator uri = some after) :
    after.length = uri.length := by
  have ⟨first, _, later⟩ := Option.bind_eq_some_iff.mp stored
  split at later
  · exact strncat_length later
  · cases later
    rfl

theorem addPort_length {uri after : List Byte} (stored : addPort ldapPort lud uri = some after) :
    after.length = uri.length := by
  rw [addPort] at stored
  split at stored
  · have ⟨colon, first, later⟩ := Option.bind_eq_some_iff.mp stored
    exact (strncat_length later).trans (strncat_length first)
  · cases stored
    rfl

theorem addUri_length {start uri after : List Byte} {length : Nat}
    (stored : addUri ldapPort lud start length uri = some after) : after.length = uri.length := by
  have ⟨separated, first, then₁⟩ := Option.bind_eq_some_iff.mp stored
  have ⟨scheme, second, then₂⟩ := Option.bind_eq_some_iff.mp then₁
  have ⟨mark, third, then₃⟩ := Option.bind_eq_some_iff.mp then₂
  have ⟨host, fourth, fifth⟩ := Option.bind_eq_some_iff.mp then₃
  calc
    after.length = host.length := addPort_length fifth
    _ = mark.length := strncat_length fourth
    _ = scheme.length := strncat_length third
    _ = separated.length := strncat_length second
    _ = uri.length := addSeparator_length first

/-- The block keeps its size. -/
theorem uriRounds_length (rounds : Nat) : ∀ {start uri after : List Byte},
    uriRounds ldapPort lud rounds start uri = some after → after.length = uri.length := by
  induction rounds with
  | zero =>
    intro start uri after stored
    cases stored
  | succ rounds ih =>
    intro start uri after stored
    rw [uriRounds] at stored
    split at stored
    · cases stored
      rfl
    · have ⟨added, first, later⟩ := Option.bind_eq_some_iff.mp stored
      have size := addUri_length first
      split at later
      · cases later
        exact size
      · exact (ih later).trans size

theorem decimal_short {n : Nat} (small : n ≤ 65535) : (decimal n).length ≤ 5 := by
  rw [decimal, List.length_map]
  apply (Nat.length_toDigits_le_iff (by decide) (by decide)).mpr
  omega

theorem hostUri_length (port : lud.ludPort ≤ 65535) (host : List Byte) :
    (hostUri ldapPort lud host).length ≤ lud.ludScheme.length + 9 + host.length := by
  have digits := decimal_short port
  have mark : (bytes "://").length = 3 := by decide +kernel
  have colon : (bytes ":").length = 1 := by decide +kernel
  have scheme : lud.ludScheme.content.length = lud.ludScheme.length := rfl
  rw [hostUri, List.length_append, List.length_append, List.length_append, mark, scheme]
  split
  · rw [List.length_nil]
    omega
  · rw [List.length_append, colon]
    omega

theorem uriTail_length (port : lud.ludPort ≤ 65535) (hosts : List (List Byte)) :
    (uriTail ldapPort lud true hosts).length ≤
      (lud.ludScheme.length + 9) * hosts.length + ((hosts.map List.length).sum + hosts.length) := by
  induction hosts with
  | nil => exact Nat.zero_le _
  | cons host hosts ih =>
    have one := @hostUri_length ldapPort _ port host
    rw [uriTail, if_pos rfl, List.length_append, List.length_append, List.length_singleton,
      List.map_cons, List.sum_cons, List.length_cons, Nat.mul_succ]
    omega

/-- The hosts and a space behind each take no more room than the string and one space. -/
theorem hosts_length (text : List Byte) :
    ((hosts text).map List.length).sum + (hosts text).length ≤ text.length + 1 := by
  have kept (pieces : List (List Byte)) :
      ((pieces.filter (· ≠ [])).map List.length).sum + (pieces.filter (· ≠ [])).length ≤
        (pieces.map List.length).sum + pieces.length := by
    induction pieces with
    | nil => exact Nat.le_refl _
    | cons piece pieces ih =>
      by_cases empty_ : piece = []
      · rw [List.filter_cons_of_neg (by simpa using empty_), List.map_cons, List.sum_cons,
          List.length_cons]
        omega
      · rw [List.filter_cons_of_pos (by simpa using empty_), List.map_cons, List.map_cons,
          List.sum_cons, List.sum_cons, List.length_cons, List.length_cons]
        omega
  have joined := @length_join [space] _ (List.splitOn_ne_nil space text)
  rw [List.intercalate_splitOn, List.length_singleton, Nat.mul_one] at joined
  rw [joined]
  exact kept (text.splitOn space)

/-- The block has room for the URIs, and the NUL. -/
theorem uriText_small (port : lud.ludPort ≤ 65535) :
    (uriText ldapPort lud).length < uriSize lud (hostCount lud.ludHost.content) := by
  have room := hosts_length lud.ludHost.content
  have counted : (hosts lud.ludHost.content).length ≤ hostCount lud.ludHost.content :=
    Nat.le_add_right _ _
  have costs := Nat.mul_le_mul_left (lud.ludScheme.length + 9) counted
  have text : lud.ludHost.content.length = lud.ludHost.length := rfl
  rw [uriText, ← uriTail_text, uriSize]
  cases all : hosts lud.ludHost.content with
  | nil =>
    rw [uriTail, List.length_nil]
    omega
  | cons host others =>
    have one := @hostUri_length ldapPort _ port host
    have rest := @uriTail_length ldapPort _ port others
    rw [all, List.map_cons, List.sum_cons, List.length_cons] at room
    rw [all, List.length_cons, Nat.mul_succ] at costs
    rw [uriTail, if_neg Bool.false_ne_true, List.nil_append, List.length_append]
    omega

end Sizes

/-! ## The list of URIs -/

section Lists

variable (ldapPort : Nat) (lud : LdapUrlDesc)

theorem mem_intercalate {sep piece : List Byte} {b : Byte} {pieces : List (List Byte)}
    (member : piece ∈ pieces) (inside : b ∈ piece) : b ∈ List.intercalate sep pieces := by
  induction pieces with
  | nil => cases member
  | cons first rest ih =>
    cases rest with
    | nil =>
      rw [List.intercalate_singleton]
      exact List.mem_singleton.mp member ▸ inside
    | cons second rest =>
      rw [List.intercalate_cons_of_ne_nil (List.cons_ne_nil _ _)]
      rcases List.mem_cons.mp member with same | later
      · exact List.mem_append_left _ (List.mem_append_left _ (same ▸ inside))
      · exact List.mem_append_right _ (ih later)

theorem noNul_uriText : 0 ∉ uriText ldapPort lud := by
  have each : ∀ host ∈ hosts lud.ludHost.content, 0 ∉ host := by
    intro host member nul
    have inside := @mem_intercalate [space] _ _ _ (List.mem_filter.mp member).1 nul
    rw [List.intercalate_splitOn] at inside
    exact lud.ludHost.noNul inside
  rw [uriText, ← uriTail_text]
  exact noNul_uriTail each false

/-- The block that is returned holds the URIs of the hosts. -/
def UrisBuilt : Prop :=
  ∃ block, perditionLdapUri ldapPort lud = some block ∧
    (stringIn block 0).map CString.content = some (uriText ldapPort lud)

/-- What the list needs for ports up to 65535: the loop counts no more hosts than an `int` can, and
the size that `calloc` is asked for does not wrap around, or is still enough. -/
theorem perditionLdapUri_iff (port : lud.ludPort ≤ 65535) :
    UrisBuilt ldapPort lud ↔
      hostCount lud.ludHost.content ≤ intMax ∧
        (uriSize lud (hostCount lud.ludHost.content) < 2 ^ 64 ∨
          (uriText ldapPort lud).length < uriSize lud (hostCount lud.ludHost.content) % 2 ^ 64) := by
  have small := @uriText_small ldapPort _ port
  have shorter := (List.dropWhile_suffix (l := lud.ludHost.content) (· == space)).length_le
  have counted := @countHosts_eq (lud.ludHost.length + 1) lud.ludHost.content 1
    (Nat.lt_succ_of_le shorter) (by decide) (by decide)
  rw [Nat.sub_self, Nat.zero_add, intValue] at counted
  by_cases fits : hostCount lud.ludHost.content ≤ intMax
  · rw [if_pos fits] at counted
    have run : perditionLdapUri ldapPort lud =
        uriRounds ldapPort lud (lud.ludHost.length + 1) lud.ludHost.content
          (List.replicate (uriSize lud (hostCount lud.ludHost.content) % 2 ^ 64) 0) := by
      rw [perditionLdapUri, counted]
      rfl
    generalize uriSize lud (hostCount lud.ludHost.content) = asked at small run
    constructor
    · rintro ⟨block, built, text⟩
      refine ⟨fits, .inr ?_⟩
      rw [run] at built
      have size := uriRounds_length _ built
      rw [List.length_replicate] at size
      -- the string and its NUL lie inside the block
      obtain ⟨string, found, same⟩ := Option.map_eq_some_iff.mp text
      rw [stringIn] at found
      split at found
      · rename_i inside
        obtain ⟨front, back, whole⟩ := List.append_of_mem inside.2
        rw [Int.toNat_zero, List.drop_zero] at whole
        rw [Int.toNat_zero, List.drop_zero, whole, cstr_nul, Option.some.injEq] at found
        have short := cstr_length_le front
        rw [found] at short
        have lengths := congrArg List.length whole
        rw [List.length_append, List.length_cons] at lengths
        rw [← same]
        change string.length < _
        omega
      · cases found
    · rintro ⟨-, room⟩
      have within : (uriText ldapPort lud).length < asked % 2 ^ 64 := by
        rcases room with narrow | enough
        · rwa [Nat.mod_eq_of_lt narrow]
        · exact enough
      have stored := @uriRounds_hosts ldapPort lud (asked % 2 ^ 64)
        (lud.ludHost.length + 1) lud.ludHost.content [] (Nat.lt_succ_self _)
        lud.ludHost.noNul List.not_mem_nil (by
          rw [List.nil_append]
          exact (congrArg List.length (uriTail_text ldapPort lud _)).trans_lt within)
      have clean := noNul_uriText ldapPort lud
      have tail : uriTail ldapPort lud (!([] : List Byte).isEmpty) (hosts lud.ludHost.content) =
          uriText ldapPort lud := uriTail_text ldapPort lud _
      have more : asked % 2 ^ 64 - (uriText ldapPort lud).length =
          asked % 2 ^ 64 - (uriText ldapPort lud).length - 1 + 1 := by omega
      rw [List.nil_append, tail, stringBlock, stringBlock, more, List.replicate_succ,
        List.length_nil, Nat.sub_zero, List.nil_append] at stored
      have string := stringIn_text [] ⟨uriText ldapPort lud, clean⟩
        (List.replicate (asked % 2 ^ 64 - (uriText ldapPort lud).length - 1) 0)
      exact ⟨_, run.trans stored, congrArg (Option.map CString.content) string⟩
  · rw [if_neg fits] at counted
    refine iff_of_false ?_ fun needs => fits needs.1
    rintro ⟨block, built, -⟩
    rw [perditionLdapUri, counted] at built
    cases built

end Lists

/-- Two hosts, with spaces around them, and a port to be shown. -/
theorem perditionLdapUri_two :
    let lud : LdapUrlDesc := ⟨lit "ldap", lit " a  b ", 1389⟩
    lud.ludPort ≤ 65535 ∧ UrisBuilt 389 lud :=
  ⟨by decide, (perditionLdapUri_iff 389 ⟨lit "ldap", lit " a  b ", 1389⟩ (by decide)).mpr
    ⟨by decide +kernel, .inl (by decide +kernel)⟩⟩

/-- So many hosts, a space behind each. -/
def manyHosts : Nat → CString
  | 0 => .empty
  | n + 1 => lit "a " ++ manyHosts n

theorem hostCount_manyHosts (n : Nat) : hostCount (manyHosts n).content = n + 1 := by
  induction n with
  | zero => rfl
  | succ n ih =>
    have first : (lit "a ").content = [97] ++ [space] := by decide +kernel
    have next : (manyHosts (n + 1)).content = [97] ++ space :: (manyHosts n).content := by
      change (lit "a ").content ++ _ = _
      rw [first]
      rfl
    rw [next, hostCount_next (by decide) (by decide), ih]

theorem manyHosts_overflow {n : Nat} (large : intMax ≤ n) :
    ¬ UrisBuilt 389 ⟨lit "ldap", manyHosts n, 389⟩ := by
  rintro ⟨block, built, -⟩
  have shorter := (List.dropWhile_suffix (l := (manyHosts n).content) (· == space)).length_le
  have counted := @countHosts_eq ((manyHosts n).length + 1) (manyHosts n).content 1
    (Nat.lt_succ_of_le shorter) (by decide) (by decide)
  rw [hostCount_manyHosts, intValue, if_neg (by omega)] at counted
  rw [perditionLdapUri, counted] at built
  cases built

/-- More hosts than an `int` can count. -/
theorem perditionLdapUri_overflow : ¬ UrisBuilt 389 ⟨lit "ldap", manyHosts intMax, 389⟩ :=
  manyHosts_overflow (Nat.le_refl intMax)

end Perdition
