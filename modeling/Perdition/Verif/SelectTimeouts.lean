import Perdition.Verif.Selections

/-!
# Time that `io_select` waits

The timeout is taken apart at the times of the log and put together again: what is left of it and
what has been waited are always the whole. Without a timeout there is nothing to take apart, and
without a log `select` is given what was never assigned.
-/
namespace Perdition

/-! ## `select` -/

/-- A time that `select` accepts. -/
structure Timeval.Valid (t : Timeval) : Prop where
  /-- The seconds are not negative. -/
  sec : 0 ≤ t.tvSec
  /-- The microseconds are not negative. -/
  usec : 0 ≤ t.tvUsec
  /-- They are less than a second. -/
  part : t.tvUsec < 1000000

/-- `select` as on Linux. -/
structure LinuxSelect (select : FdSets → Timeout → SelectAnswer) : Prop where
  /-- It returns the number of bits it leaves, or fails. -/
  counted : ∀ sets timeout, CountsBits sets (select sets timeout)
  /-- It leaves the time that is left, which is not negative. -/
  left : ∀ sets {t : Timeval}, t.Valid → 0 ≤ (select sets (.after t)).left.total
  /-- That is at most what it was given. -/
  within : ∀ sets {t : Timeval}, t.Valid → (select sets (.after t)).left.total ≤ t.total
  /-- It finds no descriptor only when none is left. -/
  expired : ∀ sets {t : Timeval}, t.Valid → (select sets (.after t)).status = 0 →
    (select sets (.after t)).left.total = 0
  /-- It refuses other times. -/
  refused : ∀ sets {t : Timeval}, ¬ t.Valid → (select sets (.after t)).status < 0

theorem Timeval.Valid.total {t : Timeval} (valid : t.Valid) : 0 ≤ t.total := by
  have sec := valid.sec
  have usec := valid.usec
  rw [Timeval.total]
  omega

theorem Timeval.valid_zero : Timeval.Valid ⟨0, 0⟩ := ⟨by decide, by decide, by decide⟩

section Rounds

variable (call : SelectCall) (relog : Bool)

/-- The timeout that `select` is given in a round. -/
def roundTimeout (round : SelectRound) (v : SelectVars) : Timeout :=
  let v := prepareRound call relog round.now v
  givenTimeout call v.sets v.internalTimeout

/-- What `select` answers in a round. -/
def roundAnswer (round : SelectRound) (v : SelectVars) : SelectAnswer :=
  round.select (prepareRound call relog round.now v).sets (roundTimeout call relog round v)

/-- The time that `select` waits in a round: what it is given and does not leave. -/
def roundWait (round : SelectRound) (v : SelectVars) : Int :=
  match roundTimeout call relog round v with
  | .after t => t.total - (roundAnswer call relog round v).left.total
  | _ => 0

/-- The time that is waited in rounds. -/
def totalWait : List SelectRound → SelectVars → Int
  | [], _ => 0
  | round :: rounds, v =>
    roundWait call relog round v + totalWait rounds (afterRound call relog round v)

variable {call relog} {round : SelectRound} {v : SelectVars} {T : Timeval}

/-- The two ways the timeout is taken apart: up to the next time of the log, or as a whole. -/
theorem prepareRound_timeout (timeout : v.timeout = some T) :
    ∃ t internal,
      (prepareRound call relog round.now v).timeout = some t ∧
      (prepareRound call relog round.now v).internalTimeout = .after internal ∧
      t.total + internal.total = T.total ∧
      (T.Valid → (t = ⟨0, 0⟩ ∧ internal.Valid) ∨
        (internal.Valid → t.Valid ∧ t ≠ ⟨0, 0⟩)) := by
  rw [prepareRound, timeout]
  dsimp only
  generalize (if relog && round.now ≥ v.logTime then round.now + call.connectRelog
    else v.logTime) - round.now = slice
  split
  · rename_i cut
    have longer : T.tvSec > slice := by
      have both := (Bool.and_eq_true_iff.mp cut).2
      simpa [Timeout.tvSec] using both
    refine ⟨⟨T.tvSec - slice, T.tvUsec⟩, ⟨slice, 0⟩, rfl, rfl, ?_, ?_⟩
    · simp only [Timeval.total]
      omega
    · intro valid
      refine .inr fun _ => ⟨⟨?_, valid.usec, valid.part⟩, ?_⟩
      · change 0 ≤ T.tvSec - slice
        omega
      · intro zero
        have sec := congrArg Timeval.tvSec zero
        change T.tvSec - slice = 0 at sec
        omega
  · refine ⟨⟨0, 0⟩, T, rfl, rfl, ?_, fun valid => .inl ⟨rfl, valid⟩⟩
    simp only [Timeval.total]
    omega

/-- What is left and what was waited are the whole. -/
theorem round_balance (timeout : v.timeout = some T) (valid : T.Valid)
    (linux : LinuxSelect round.select) (well : 0 ≤ (selectRound call relog round v).status) :
    ∃ t internal,
      (afterRound call relog round v).timeout = some t ∧
      (afterRound call relog round v).internalTimeout = .after internal ∧
      t.total + internal.total = T.total - roundWait call relog round v ∧
      0 ≤ T.total - roundWait call relog round v ∧
      ((selectRound call relog round v).status = 0 →
        internal.total = 0 ∧ (t ≠ ⟨0, 0⟩ → t.Valid)) := by
  have whole := valid.total
  obtain ⟨t, internal, left, given, sum, parts⟩ :=
    @prepareRound_timeout call relog round v T timeout
  have counted := linux.counted (prepareRound call relog round.now v).sets
    (roundTimeout call relog round v)
  have once := @ioSelectOnce_eq call round.select (prepareRound call relog round.now v).sets
    (prepareRound call relog round.now v).internalTimeout (roundAnswer call relog round v) rfl
  change selectRound call relog round v = _ at once
  have chosen : roundTimeout call relog round v = _ := givenTimeout_eq _ _
  by_cases pending : (watchedPending call (prepareRound call relog round.now v).sets).Nonempty
  · rw [if_pos pending] at chosen
    have none_ : roundWait call relog round v = 0 := by
      have least := linux.left (prepareRound call relog round.now v).sets Timeval.valid_zero
      have most := linux.within (prepareRound call relog round.now v).sets Timeval.valid_zero
      have zero : Timeval.total ⟨0, 0⟩ = 0 := rfl
      rw [roundWait, roundAnswer, chosen]
      dsimp only
      omega
    have same : (selectRound call relog round v).timeout = .after internal := by
      rw [once]
      split
      · exact given
      · exact given
    refine ⟨t, internal, left, same, by omega, by omega, fun zero => ?_⟩
    -- with data pending at least one descriptor is counted
    have merged := ioSelectOnce_merges call round.select
      (prepareRound call relog round.now v).sets
      (prepareRound call relog round.now v).internalTimeout counted
    by_cases failed : (roundAnswer call relog round v).status < 0
    · have status := merged.2.1 failed
      change (selectRound call relog round v).status = (roundAnswer call relog round v).status
        at status
      omega
    · obtain ⟨readfds, _, _, bits⟩ := merged.2.2 (Int.not_lt.mp failed)
      change (selectRound call relog round v).status =
        ((selectRound call relog round v).sets.bits : Int) at bits
      change (selectRound call relog round v).sets.readfds = _ at readfds
      obtain ⟨fd, member⟩ := pending
      obtain ⟨watched, some_⟩ : ∃ watched,
          (prepareRound call relog round.now v).sets.readfds = some watched := by
        apply Option.ne_none_iff_exists'.mp
        intro null
        rw [watchedPending_null null] at member
        cases member
      have found : 0 < ((selectRound call relog round v).sets.readfds.getD ∅).card := by
        rw [readfds, FdSets.answered, some_]
        exact Finset.card_pos.mpr ⟨fd, Finset.mem_union_right _ member⟩
      rw [FdSets.bits] at bits
      omega
  · rw [if_neg pending, given] at chosen
    have empty_ := Finset.not_nonempty_iff_eq_empty.mp pending
    rw [if_pos (.inr empty_), if_neg pending, given] at once
    have answered : (selectRound call relog round v).status =
        (roundAnswer call relog round v).status := by rw [once]
    have after : (afterRound call relog round v).internalTimeout =
        .after (roundAnswer call relog round v).left := by
      change (selectRound call relog round v).timeout = _
      rw [once]
      rfl
    have accepted : internal.Valid := by
      by_contra other
      have refused := linux.refused (prepareRound call relog round.now v).sets other
      rw [← chosen] at refused
      change (roundAnswer call relog round v).status < 0 at refused
      omega
    have least := linux.left (prepareRound call relog round.now v).sets accepted
    have expired := linux.expired (prepareRound call relog round.now v).sets accepted
    rw [← chosen] at least expired
    change 0 ≤ (roundAnswer call relog round v).left.total at least
    change (roundAnswer call relog round v).status = 0 →
      (roundAnswer call relog round v).left.total = 0 at expired
    have waited : roundWait call relog round v =
        internal.total - (roundAnswer call relog round v).left.total := by
      rw [roundWait, chosen]
    have rest : 0 ≤ t.total ∧ (t ≠ ⟨0, 0⟩ → t.Valid) := by
      rcases parts valid with ⟨zero, _⟩ | sliced
      · rw [zero]
        exact ⟨by decide, fun other => absurd rfl other⟩
      · obtain ⟨ok, _⟩ := sliced accepted
        exact ⟨ok.total, fun _ => ok⟩
    refine ⟨t, (roundAnswer call relog round v).left, left, after, by omega, by omega, ?_⟩
    intro zero
    exact ⟨expired (answered ▸ zero), rest.2⟩

/-- Rounds that go on wait for what the timeout is less by. -/
theorem goOn_balance (rounds : List SelectRound) : ∀ {v last : SelectVars} {T : Timeval},
    v.timeout = some T → T.Valid → (∀ round ∈ rounds, LinuxSelect round.select) →
    goOn call relog rounds v = some last →
      ∃ left, last.timeout = some left ∧ left.Valid ∧
        left.total = T.total - totalWait call relog rounds v := by
  induction rounds with
  | nil =>
    intro v last T timeout valid _ run
    rw [goOn, Option.some.injEq] at run
    refine ⟨T, run ▸ timeout, valid, ?_⟩
    rw [totalWait, Int.sub_zero]
  | cons round rounds ih =>
    intro v last T timeout valid linux run
    rw [goOn] at run
    split at run
    · cases run
    · rename_i stays
      have ⟨status, more⟩ : (selectRound call relog round v).status = 0 ∧
          (afterRound call relog round v).timeout ≠ some ⟨0, 0⟩ := by
        simpa [leavesLoop] using stays
      have ⟨t, internal, left, _, sum, _, zero⟩ :=
        round_balance timeout valid (linux round List.mem_cons_self) status.ge
      have ⟨none_, valid'⟩ := zero status
      have ⟨rest, found, ok, total⟩ := ih left
        (valid' fun same => more (left.trans (congrArg some same)))
        (fun other member => linux other (List.mem_cons_of_mem round member)) run
      refine ⟨rest, found, ok, ?_⟩
      rw [totalWait]
      omega

theorem totalWait_last (rounds : List SelectRound) (round : SelectRound) :
    ∀ {v last : SelectVars}, goOn call relog rounds v = some last →
      totalWait call relog (rounds ++ [round]) v =
        totalWait call relog rounds v + roundWait call relog round last := by
  induction rounds with
  | nil =>
    intro v last run
    rw [goOn, Option.some.injEq] at run
    rw [run, List.nil_append, totalWait, totalWait, totalWait]
    omega
  | cons first rounds ih =>
    intro v last run
    rw [goOn] at run
    split at run
    · cases run
    · rw [List.cons_append, totalWait, ih run, totalWait]
      omega

end Rounds

/-- `select` where these descriptors are found with this time left. -/
def selectFinding (found : Finset Nat) (left : Timeval) (sets : FdSets) :
    Timeout → SelectAnswer
  | .after t =>
    if t.tvSec < 0 ∨ t.tvUsec < 0 ∨ 1000000 ≤ t.tvUsec then ⟨-1, ∅, ∅, ∅, t⟩
    else if sets.readfds.isNone ∨ found = ∅ then ⟨0, ∅, ∅, ∅, ⟨0, 0⟩⟩
    else ⟨found.card, found, ∅, ∅, if 0 ≤ left.total ∧ left.total ≤ t.total then left else t⟩
  | _ => if sets.readfds.isNone then ⟨0, ∅, ∅, ∅, left⟩ else ⟨found.card, found, ∅, ∅, left⟩

theorem FdSets.answered_nothing (sets : FdSets) (left : Timeval) :
    (sets.answered ⟨0, ∅, ∅, ∅, left⟩).bits = 0 := by
  cases read : sets.readfds <;> cases write : sets.writefds <;> cases except : sets.exceptfds <;>
    simp [answered, bits, read, write, except]

theorem FdSets.answered_reads {sets : FdSets} (watched : sets.readfds.isNone = false)
    (fds : Finset Nat) (left : Timeval) :
    (sets.answered ⟨fds.card, fds, ∅, ∅, left⟩).bits = fds.card := by
  cases read : sets.readfds with
  | none =>
    rw [read] at watched
    cases watched
  | some readfds =>
    cases write : sets.writefds <;> cases except : sets.exceptfds <;>
      simp [answered, bits, read, write, except]

theorem selectFinding_unlimited {found : Finset Nat} {left : Timeval} (sets : FdSets)
    {timeout : Timeout} (unlimited : ∀ t, timeout ≠ .after t) :
    (selectFinding found left sets timeout).status =
      (sets.answered (selectFinding found left sets timeout)).bits := by
  rw [selectFinding]
  · split
    · exact (congrArg Nat.cast (FdSets.answered_nothing sets left)).symm
    · rename_i some_
      have watched := Bool.eq_false_iff.mpr some_
      exact (congrArg Nat.cast (FdSets.answered_reads watched found left)).symm
  · exact unlimited

theorem selectFinding_linux (found : Finset Nat) (left : Timeval) :
    LinuxSelect (selectFinding found left) := by
  have ok {t : Timeval} (valid : t.Valid) :
      ¬ (t.tvSec < 0 ∨ t.tvUsec < 0 ∨ 1000000 ≤ t.tvUsec) := by
    have sec := valid.sec
    have usec := valid.usec
    have part := valid.part
    omega
  constructor
  · intro sets timeout
    cases timeout with
    | after t =>
      rw [selectFinding]
      split
      · exact .inl (Int.negSucc_lt_zero 0)
      · split
        · exact .inr (congrArg Nat.cast (FdSets.answered_nothing sets _)).symm
        · rename_i some_
          have watched := Bool.eq_false_iff.mpr (not_or.mp some_).1
          exact .inr (congrArg Nat.cast (FdSets.answered_reads watched found _)).symm
    | unbounded => exact .inr (selectFinding_unlimited sets (by nofun))
    | uninitialised => exact .inr (selectFinding_unlimited sets (by nofun))
  · intro sets t valid
    have whole := valid.total
    rw [selectFinding, if_neg (ok valid)]
    split
    · decide
    · dsimp only
      split
      · rename_i within
        exact within.1
      · exact whole
  · intro sets t valid
    have whole := valid.total
    rw [selectFinding, if_neg (ok valid)]
    split
    · exact whole
    · dsimp only
      split
      · rename_i within
        exact within.2
      · exact Int.le_refl _
  · intro sets t valid none_
    rw [selectFinding, if_neg (ok valid)] at none_ ⊢
    split at none_
    · rename_i nothing
      rw [if_pos nothing]
      rfl
    · rename_i some_
      have zero : found.card = 0 := Int.ofNat_eq_zero.mp none_
      exact absurd (.inr (Finset.card_eq_zero.mp zero)) some_
  · intro sets t other
    have bad : t.tvSec < 0 ∨ t.tvUsec < 0 ∨ 1000000 ≤ t.tvUsec := by
      by_contra apart
      apply other
      constructor <;> omega
    rw [selectFinding, if_pos bad]
    exact Int.negSucc_lt_zero 0

/-- What a round does without a timeout, where all is well. -/
structure WaitsWell (call : SelectCall) (relog : Bool) (round : SelectRound) (v : SelectVars) :
    Prop where
  /-- It restores the sets. -/
  sets : (prepareRound call relog round.now v).sets = call.sets
  /-- It waits without a limit or up to the next time of the log, and only with data pending not at
  all. -/
  timeout : roundTimeout call relog round v = .unbounded ∨
    (∃ t, roundTimeout call relog round v = .after t ∧ t.total ≠ 0 ∧ relog = true ∧
      t.total = ((prepareRound call relog round.now v).logTime - round.now) * 1000000) ∨
    (roundTimeout call relog round v = .after ⟨0, 0⟩ ∧ (watchedPending call call.sets).Nonempty)
  /-- It is the last only when a descriptor is ready or `select` fails. -/
  returns : leavesLoop call relog round v = true → (selectRound call relog round v).status ≠ 0

section Unlimited

variable {call : SelectCall} {relog : Bool} {round : SelectRound} {v : SelectVars}

theorem afterRound_unlimited (unlimited : v.timeout = none) :
    (afterRound call relog round v).timeout = none := by
  change (prepareRound call relog round.now v).timeout = none
  rw [prepareRound, unlimited]
  cases relog
  all_goals rfl

theorem goOn_unlimited (rounds : List SelectRound) : ∀ {v last : SelectVars},
    v.timeout = none → goOn call relog rounds v = some last → last.timeout = none := by
  induction rounds with
  | nil =>
    intro v last unlimited run
    rw [goOn, Option.some.injEq] at run
    exact run ▸ unlimited
  | cons round rounds ih =>
    intro v last unlimited run
    rw [goOn] at run
    split at run
    · cases run
    · exact ih (afterRound_unlimited unlimited) run

/-- A log bounds the wait, and it is never its time already. -/
theorem prepareRound_relogs (unlimited : v.timeout = none) (interval : call.connectRelog ≠ 0) :
    ∃ slice, slice ≠ 0 ∧
      (prepareRound call true round.now v).internalTimeout = .after ⟨slice, 0⟩ ∧
      (prepareRound call true round.now v).logTime - round.now = slice := by
  refine ⟨_, ?_, ?_, rfl⟩
  · rw [prepareRound, unlimited]
    dsimp only
    split
    · omega
    · rename_i before
      have early : ¬ round.now ≥ v.logTime := by simpa using before
      omega
  · rw [prepareRound, unlimited]
    rfl

theorem waitsWell_relogs (unlimited : v.timeout = none) (interval : call.connectRelog ≠ 0) :
    WaitsWell call true round v := by
  have ⟨slice, some_, given, rest⟩ := @prepareRound_relogs call round v unlimited interval
  have chosen : roundTimeout call true round v = _ := givenTimeout_eq _ _
  rw [given] at chosen
  refine ⟨rfl, .inr ?_, fun leaves => ?_⟩
  · by_cases pending : (watchedPending call (prepareRound call true round.now v).sets).Nonempty
    · rw [if_pos pending] at chosen
      exact .inr ⟨chosen, pending⟩
    · rw [if_neg pending] at chosen
      have total : Timeval.total ⟨slice, 0⟩ = slice * 1000000 := Int.add_zero _
      refine .inl ⟨_, chosen, ?_, rfl, ?_⟩
      · omega
      · rw [total, rest]
  · simpa [leavesLoop, afterRound_unlimited unlimited] using leaves

theorem waitsWell_pending (unlimited : v.timeout = none)
    (pending : (watchedPending call call.sets).Nonempty) : WaitsWell call relog round v := by
  have chosen : roundTimeout call relog round v = _ := givenTimeout_eq _ _
  rw [if_pos (show (watchedPending call (prepareRound call relog round.now v).sets).Nonempty
    from pending)] at chosen
  refine ⟨rfl, .inr (.inr ⟨chosen, pending⟩), fun leaves => ?_⟩
  simpa [leavesLoop, afterRound_unlimited unlimited] using leaves

/-- With neither, `select` is given what was never assigned. -/
theorem not_waitsWell_idle (idle : ¬ (watchedPending call call.sets).Nonempty) (logTime : Int)
    (round : SelectRound) :
    ¬ WaitsWell call false round (ioSelectStart call none logTime) := by
  intro well
  have chosen : roundTimeout call false round (ioSelectStart call none logTime) = .uninitialised :=
    (givenTimeout_eq _ _).trans (if_neg idle)
  have first := well.timeout
  rw [chosen] at first
  rcases first with unbounded | ⟨t, bounded, _⟩ | ⟨zero, _⟩
  · cases unbounded
  · cases bounded
  · cases zero

end Unlimited

/-- Without a timeout the waits are as they should be just when there is a log to write or SSL has
data. -/
theorem ioSelect_unlimited_iff (call : SelectCall) (logTime : Int) :
    (∀ rounds v, goOn call (relogs call logTime) rounds (ioSelectStart call none logTime) = some v →
      ∀ round, WaitsWell call (relogs call logTime) round v) ↔
    relogs call logTime = true ∨ (watchedPending call call.sets).Nonempty := by
  constructor
  · intro well
    by_contra neither
    have ⟨quiet, idle⟩ := not_or.mp neither
    have silent : relogs call logTime = false := Bool.eq_false_iff.mpr quiet
    have first := well [] _ rfl ⟨0, fun _ _ => ⟨1, ∅, ∅, ∅, ⟨0, 0⟩⟩⟩
    rw [silent] at first
    exact not_waitsWell_idle idle logTime _ first
  · intro either rounds v run round
    have unlimited := goOn_unlimited rounds rfl run
    rcases either with log | pending
    · have interval : call.connectRelog ≠ 0 := by
        have parts : (call.log = true ∧ call.connectRelog ≠ 0) ∧ logTime ≠ 0 := by
          simpa [relogs] using log
        exact parts.1.2
      rw [log]
      exact waitsWell_relogs unlimited interval
    · exact waitsWell_pending unlimited pending

/-- `io_read` of a connection without a timeout, which has no log. -/
theorem ioSelect_unlimited_read :
    let call : SelectCall := {
      n := 1024
      sets := ⟨some {5}, none, some {5}⟩
      get := fun fd => if fd = 5 then some ⟨.fd, none⟩ else none
      log := false
      connectRelog := 300 }
    ¬ ∀ rounds v, goOn call (relogs call 0) rounds (ioSelectStart call none 0) = some v →
      ∀ round, WaitsWell call (relogs call 0) round v := by
  intro call well
  have idle : ¬ (watchedPending call call.sets).Nonempty := by
    rintro ⟨fd, pending⟩
    have ⟨_, watched, found⟩ := Finset.mem_filter.mp pending
    rw [Finset.mem_singleton.mp watched] at found
    cases found
  exact not_waitsWell_idle idle 0 _ (well [] _ rfl ⟨0, fun _ _ => ⟨1, {5}, ∅, ∅, ⟨0, 0⟩⟩⟩)

end Perdition
