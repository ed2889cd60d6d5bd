import Perdition.IoSelect

/-!
# What a wait leaves

`__io_select` adds the descriptors with data that SSL has buffered to those that `select` finds, and
counts each of them once.
-/
namespace Perdition

section Passes

variable (call : SelectCall)

/-- SSL has data of this descriptor. -/
def sslPending (fd : Nat) : Bool :=
  match ioSelectGetSsl call fd with
  | none => false
  | some bytes => bytes ≠ 0

/-- The descriptors below `n` that are watched and that SSL has data of. -/
def watchedPending (sets : FdSets) : Finset Nat :=
  (Finset.range call.n).filter fun i => i ∈ sets.readfds.getD ∅ ∧ sslPending call i = true

variable {call}

/-- The first pass finds and counts them. -/
theorem wantReadfds_eq (readfds : Finset Nat) :
    wantReadfds call readfds =
      ((Finset.range call.n).filter fun i => i ∈ readfds ∧ sslPending call i = true,
        ((Finset.range call.n).filter fun i => i ∈ readfds ∧ sslPending call i = true).card) := by
  rw [wantReadfds]
  induction call.n with
  | zero => rfl
  | succ n ih =>
    rw [List.range_succ, List.foldl_append, ih, List.foldl_cons, List.foldl_nil,
      Finset.range_add_one, Finset.filter_insert]
    have new : n ∉ (Finset.range n).filter fun i => i ∈ readfds ∧ sslPending call i = true := by
      simp
    dsimp only
    by_cases watched : n ∈ readfds
    · rw [if_neg (not_not.mpr watched)]
      cases ssl : ioSelectGetSsl call n with
      | none =>
        have idle : ¬ (n ∈ readfds ∧ sslPending call n = true) := by
          simp [sslPending, ssl]
        rw [if_neg idle]
      | some bytes =>
        by_cases some_ : bytes = 0
        · have idle : ¬ (n ∈ readfds ∧ sslPending call n = true) := by
            simp [sslPending, ssl, some_]
          dsimp only
          rw [if_neg idle, if_neg (not_not.mpr some_)]
        · have pending : n ∈ readfds ∧ sslPending call n = true := by
            simp [sslPending, ssl, some_, watched]
          dsimp only
          rw [if_pos pending, Finset.card_insert_of_notMem new, if_pos some_]
    · rw [if_pos watched, if_neg fun both => watched both.1]

theorem firstPass_eq (sets : FdSets) :
    firstPass call sets = (watchedPending call sets, (watchedPending call sets).card) := by
  rw [firstPass, watchedPending]
  cases sets.readfds with
  | none => simp
  | some readfds => exact wantReadfds_eq readfds

theorem givenTimeout_eq (sets : FdSets) (timeout : Timeout) :
    givenTimeout call sets timeout =
      if (watchedPending call sets).Nonempty then .after ⟨0, 0⟩ else timeout := by
  rw [givenTimeout, firstPass_eq]
  dsimp only
  by_cases some_ : (watchedPending call sets).Nonempty
  · rw [if_pos some_, if_pos (Finset.card_ne_zero.mpr some_)]
  · rw [if_neg some_, if_neg (not_not.mpr (Finset.card_eq_zero.mpr
      (Finset.not_nonempty_iff_eq_empty.mp some_)))]

/-- The second pass adds what is wanted and not there, and counts it. -/
theorem addWanted_eq {want : Finset Nat} (below : want ⊆ Finset.range call.n) (readfds : Finset Nat)
    (selected : Int) :
    addWanted call want readfds selected =
      (readfds ∪ want, selected + ((want \ readfds).card : Int)) := by
  have upTo (n : Nat) : (List.range n).foldl (fun (found : Finset Nat × Int) i =>
      if i ∈ want ∧ i ∉ found.1 then (insert i found.1, found.2 + 1) else (found.1, found.2))
      (readfds, selected) =
      (readfds ∪ (want ∩ Finset.range n),
        selected + (((want ∩ Finset.range n) \ readfds).card : Int)) := by
    induction n with
    | zero => simp
    | succ n ih =>
      rw [List.range_succ, List.foldl_append, ih, List.foldl_cons, List.foldl_nil,
        Finset.range_add_one]
      by_cases wanted : n ∈ want
      · rw [Finset.inter_insert_of_mem wanted]
        by_cases there : n ∈ readfds
        · have same : readfds ∪ insert n (want ∩ Finset.range n) =
              readfds ∪ (want ∩ Finset.range n) := by
            rw [Finset.union_insert, Finset.insert_eq_of_mem (Finset.mem_union_left _ there)]
          rw [if_neg fun new => new.2 (Finset.mem_union_left _ there), same,
            Finset.insert_sdiff_of_mem _ there]
        · have new : n ∉ readfds ∪ (want ∩ Finset.range n) := by
            simp [there]
          have other : n ∉ (want ∩ Finset.range n) \ readfds := by
            simp
          rw [if_pos ⟨wanted, new⟩, Finset.union_insert, Finset.insert_sdiff_of_notMem _ there,
            Finset.card_insert_of_notMem other]
          push_cast
          rw [Int.add_assoc]
      · rw [Finset.inter_insert_of_notMem wanted, if_neg fun new => wanted new.1]
  have whole : want ∩ Finset.range call.n = want := Finset.inter_eq_left.mpr below
  have done := upTo call.n
  rw [whole] at done
  exact done

theorem watchedPending_below (sets : FdSets) :
    watchedPending call sets ⊆ Finset.range call.n := Finset.filter_subset _ _

/-- Nothing is pending where nothing is watched. -/
theorem watchedPending_null {sets : FdSets} (null : sets.readfds = none) :
    watchedPending call sets = ∅ := by
  simp [watchedPending, null]

variable (call)

/-- `__io_select` in closed form. -/
theorem ioSelectOnce_eq (select : FdSets → Timeout → SelectAnswer) (sets : FdSets)
    (timeout : Timeout) {answer : SelectAnswer}
    (answers : select sets (givenTimeout call sets timeout) = answer) :
    ioSelectOnce call select sets timeout =
      if answer.status < 0 ∨ watchedPending call sets = ∅ then
        ⟨answer.status, sets.answered answer,
          if (watchedPending call sets).Nonempty then timeout else timeout.answered answer⟩
      else
        ⟨answer.status + ((watchedPending call sets \ answer.readfds).card : Int),
          { sets.answered answer with
            readfds := sets.readfds.map fun _ => answer.readfds ∪ watchedPending call sets },
          timeout⟩ := by
  have none_ : (watchedPending call sets).card = 0 ↔ watchedPending call sets = ∅ :=
    Finset.card_eq_zero
  have some_ : (watchedPending call sets).card ≠ 0 ↔ (watchedPending call sets).Nonempty :=
    Finset.card_ne_zero
  rw [ioSelectOnce, firstPass_eq, answers]
  dsimp only
  simp only [none_, some_, addWanted_eq (watchedPending_below sets)]
  split
  · rfl
  · rename_i apart
    have filled := Finset.nonempty_iff_ne_empty.mpr (not_or.mp apart).2
    rw [if_pos filled]

end Passes

/-! ## The sets that are returned -/

/-- `select` failed, or returned the number of bits it left. -/
def CountsBits (sets : FdSets) (answer : SelectAnswer) : Prop :=
  answer.status < 0 ∨ answer.status = (sets.answered answer).bits

/-- `__io_select` has what `select` left and the descriptors that have data, counted once, and does
not wait while there are any. -/
theorem ioSelectOnce_merges (call : SelectCall) (select : FdSets → Timeout → SelectAnswer)
    (sets : FdSets) (timeout : Timeout)
    (counted : CountsBits sets (select sets (givenTimeout call sets timeout))) :
    let answer := select sets (givenTimeout call sets timeout)
    let result := ioSelectOnce call select sets timeout
    ((watchedPending call sets).Nonempty → givenTimeout call sets timeout = .after ⟨0, 0⟩) ∧
      (answer.status < 0 → result.status = answer.status) ∧
      (0 ≤ answer.status →
        result.sets.readfds =
          (sets.answered answer).readfds.map (· ∪ watchedPending call sets) ∧
        result.sets.writefds = (sets.answered answer).writefds ∧
        result.sets.exceptfds = (sets.answered answer).exceptfds ∧
        result.status = result.sets.bits) := by
  intro answer result
  have once : result = _ := @ioSelectOnce_eq call select sets timeout answer rfl
  refine ⟨fun some_ => ?_, fun failed => ?_, fun found => ?_⟩
  · rw [givenTimeout_eq, if_pos some_]
  · rw [once, if_pos (.inl failed)]
  · have bits : answer.status = (sets.answered answer).bits :=
      counted.resolve_left (Int.not_lt.mpr found)
    by_cases none_ : watchedPending call sets = ∅
    · rw [once, if_pos (.inr none_), none_]
      refine ⟨?_, rfl, rfl, bits⟩
      simp
    · have watched : sets.readfds ≠ none := fun null => none_ (watchedPending_null null)
      have ⟨readfds, given⟩ := Option.ne_none_iff_exists'.mp watched
      have apart : ¬ (answer.status < 0 ∨ watchedPending call sets = ∅) := by
        rintro (failed | empty_)
        · omega
        · exact none_ empty_
      have card := Finset.card_union_add_card_inter answer.readfds (watchedPending call sets)
      have cut := Finset.card_sdiff_add_card_inter (watchedPending call sets) answer.readfds
      rw [Finset.inter_comm] at cut
      rw [once, if_neg apart]
      refine ⟨?_, rfl, rfl, ?_⟩
      · simp only [FdSets.answered, given, Option.map_some]
      · rw [bits]
        simp only [FdSets.bits, FdSets.answered, given, Option.map_some, Option.getD_some]
        push_cast
        omega

/-- A connection with data that SSL has buffered, which `select` does not find. -/
theorem ioSelectOnce_pending :
    let call : SelectCall := {
      n := 6
      sets := ⟨some {3, 5}, none, some {5}⟩
      get := fun fd => if fd = 5 then some ⟨.ssl, some 7⟩ else none
      log := false
      connectRelog := 0 }
    let select : FdSets → Timeout → SelectAnswer := fun _ _ => ⟨1, {3}, ∅, ∅, ⟨0, 0⟩⟩
    (ioSelectOnce call select call.sets (.after ⟨60, 0⟩)).status = 2 ∧
      (ioSelectOnce call select call.sets (.after ⟨60, 0⟩)).sets.readfds = some {3, 5} := by
  intro call select
  have merged := ioSelectOnce_merges call select call.sets (.after ⟨60, 0⟩)
    (.inr (by decide +kernel))
  have ⟨readfds, _⟩ := merged.2.2 (by decide +kernel)
  have pending : watchedPending call call.sets = {5} := by decide +kernel
  rw [pending] at readfds
  exact ⟨by decide +kernel, readfds.trans (by decide +kernel)⟩

end Perdition
