import Mathlib.Data.Nat.Count
import Perdition.UnixSocket

/-!
# Transmissions of a request

How often `perdition_un_send_recv` transmits is a matter of two counts that do not depend on each
other: of the transmissions that `sendto` makes before it fails for good, and of the waits that are in
vain before there is a reply. What it transmits is what the datagrams of others have left of the
request.
-/
namespace Perdition

/-! ## Kinds of results -/

/-- Everything was sent. -/
def Sendto.ok (sendLen : Nat) (sent : Sendto) : Bool := ¬ (sent.bytes < 0 ∨ sent.bytes ≠ sendLen)

/-- The call was interrupted. -/
def Sendto.interrupted (sendLen : Nat) (sent : Sendto) : Bool :=
  !sent.ok sendLen && sent.errno = .eintr

/-- The server is not there. -/
def Sendto.refused (sendLen : Nat) (sent : Sendto) : Bool :=
  !sent.ok sendLen && (sent.errno = .enoent || sent.errno = .econnrefused)

/-- The call failed otherwise. -/
def Sendto.failed (sendLen : Nat) (sent : Sendto) : Bool := !sent.ok sendLen && sent.errno = .other

/-- Every result is of one of these kinds. -/
theorem Sendto.kinds (sendLen : Nat) (sent : Sendto) :
    sent.ok sendLen = true ∨ sent.interrupted sendLen = true ∨ sent.refused sendLen = true ∨
      sent.failed sendLen = true := by
  rw [interrupted, refused, failed]
  cases sent.ok sendLen
  · cases sent.errno <;> decide
  · exact .inl rfl

/-- A call was interrupted, or the datagram is not from the server. -/
def UnWait.idle (peerName : CString) : UnWait → Bool
  | .failed errno => errno = .eintr
  | .timeout => false
  | .ready (.failed errno) => errno = .eintr
  | .ready (.datagram sunPath _) => sunPath ≠ peerName

/-- Nothing was received in time. -/
def UnWait.timedOut : UnWait → Bool
  | .timeout => true
  | _ => false

/-- The wait is the last one. -/
def UnWait.ends (peerName : CString) (wait : UnWait) : Bool := !wait.idle peerName && !wait.timedOut

/-- The bytes at `msg` after a wait. -/
def UnWait.received (recvLen : Nat) (msg : List Byte) : UnWait → List Byte
  | .ready (.datagram _ bytes) => recvInto recvLen bytes msg
  | _ => msg

/-! ## Counts -/

section Counts

variable {p q r : Nat → Prop} [DecidablePred p] [DecidablePred q] [DecidablePred r]

/-- What stops happening happens a bounded number of times. -/
theorem count_le_of_stops {N : Nat} (stops : ∀ k, N ≤ k → ¬ p k) (n : Nat) : Nat.count p n ≤ N := by
  induction n with
  | zero => exact Nat.count_zero p ▸ Nat.zero_le N
  | succ n ih =>
    rw [Nat.count_succ]
    by_cases late : N ≤ n
    · rw [if_neg (stops n late)]
      exact ih
    · have most := Nat.count_le (p := p) (n := n)
      split <;> omega

theorem le_count_three {n : Nat} (kinds : ∀ k < n, p k ∨ q k ∨ r k) :
    n ≤ Nat.count p n + Nat.count q n + Nat.count r n := by
  induction n with
  | zero => exact Nat.zero_le _
  | succ n ih =>
    have before := ih fun k below => kinds k (Nat.lt_succ_of_lt below)
    have last := kinds n (Nat.lt_succ_self n)
    simp only [Nat.count_succ]
    rcases last with one | one | one
    all_goals
      rw [if_pos one]
      omega

end Counts

section Request

variable (request : UnRequest) (sends : Nat → Sendto) (waits : Nat → UnWait)

/-- The transmissions among the first calls of `sendto`. -/
def transmissions (calls : Nat) : Nat :=
  Nat.count (fun k => (sends k).ok request.sendLen = true) calls

/-- The calls among the first of `sendto` that were refused. -/
def refusals (calls : Nat) : Nat :=
  Nat.count (fun k => (sends k).refused request.sendLen = true) calls

/-- The waits in vain among the first ones. -/
def timeouts (calls : Nat) : Nat := Nat.count (fun k => (waits k).timedOut = true) calls

/-- `sendto` has not failed for good in the first calls. -/
def SendsOn (calls : Nat) : Prop :=
  (∀ k < calls, (sends k).failed request.sendLen = false) ∧
    refusals request sends calls < request.retry.toNat

/-- None of the first waits is the last one. -/
def WaitsOn (calls : Nat) : Prop := ∀ k < calls, (waits k).ends request.peerName = false

/-- The bytes at `msg` after the first waits: every datagram was put over its beginning. -/
def overlaid : Nat → List Byte
  | 0 => request.msg
  | calls + 1 => (waits calls).received request.recvLen (overlaid calls)

variable {request sends waits}

theorem SendsOn.before {calls fewer : Nat} (on : SendsOn request sends calls)
    (less : fewer ≤ calls) : SendsOn request sends fewer :=
  ⟨fun k below => on.1 k (Nat.lt_of_lt_of_le below less),
    Nat.lt_of_le_of_lt (Nat.count_monotone _ less) on.2⟩

theorem WaitsOn.before {calls fewer : Nat} (on : WaitsOn request waits calls)
    (less : fewer ≤ calls) : WaitsOn request waits fewer :=
  fun k below => on k (Nat.lt_of_lt_of_le below less)

theorem WaitsOn.succ {calls : Nat} (on : WaitsOn request waits calls)
    (goes : (waits calls).ends request.peerName = false) : WaitsOn request waits (calls + 1) := by
  intro k below
  rcases Nat.lt_succ_iff_lt_or_eq.mp below with less | same
  · exact on k less
  · rw [same]
    exact goes

theorem timeouts_succ {k : Nat} (late : (waits k).timedOut = true) :
    timeouts waits (k + 1) = timeouts waits k + 1 := Nat.count_succ_eq_succ_count_iff.mpr late

theorem timeouts_same {k : Nat} (soon : (waits k).timedOut = false) :
    timeouts waits (k + 1) = timeouts waits k :=
  Nat.count_succ_eq_count_iff.mpr (Bool.eq_false_iff.mp soon)

theorem timeouts_mono {fewer calls : Nat} (less : fewer ≤ calls) :
    timeouts waits fewer ≤ timeouts waits calls := Nat.count_monotone _ less

theorem timedOut_goes {wait : UnWait} (late : wait.timedOut = true) (peerName : CString) :
    wait.ends peerName = false := by
  rw [UnWait.ends, late, Bool.not_true, Bool.and_false]

/-! ## Passes -/

/-- The four ways of a pass of the first loop. -/
theorem sendPass_cases (sent : Sendto) (v : UnVars) :
    (sent.ok request.sendLen = true ∧ sendPass request sent v =
      { v with
        sendCalls := v.sendCalls + 1
        transmitted := v.transmitted ++ [v.msg.take request.sendLen]
        phase := .receiving
        pause := request.timeout }) ∨
    (sent.interrupted request.sendLen = true ∧ sendPass request sent v =
      { v with sendCalls := v.sendCalls + 1 }) ∨
    (sent.refused request.sendLen = true ∧ ∃ pause, sendPass request sent v =
      { v with sendCalls := v.sendCalls + 1, attempt := v.attempt + 1, pause := pause }) ∨
    (sent.failed request.sendLen = true ∧ sendPass request sent v =
      { v with sendCalls := v.sendCalls + 1, phase := .returned (-1) }) := by
  rw [Sendto.interrupted, Sendto.refused, Sendto.failed, sendPass]
  by_cases short : sent.bytes < 0 ∨ sent.bytes ≠ request.sendLen
  · have unsent : sent.ok request.sendLen = false := decide_eq_false (not_not.mpr short)
    rw [if_pos short, unsent]
    cases errno : sent.errno
    · refine .inr (.inl ⟨rfl, ?_⟩)
      rw [if_pos rfl, Int.sub_add_cancel]
    · exact .inr (.inr (.inl ⟨rfl, _, rfl⟩))
    · exact .inr (.inr (.inl ⟨rfl, _, rfl⟩))
    · exact .inr (.inr (.inr ⟨rfl, rfl⟩))
  · rw [if_neg short]
    exact .inl ⟨decide_eq_true short, rfl⟩

/-- The three ways of a pass of the second loop. -/
theorem waitPass_cases (wait : UnWait) (v : UnVars) :
    (wait.idle request.peerName = true ∧ wait.timedOut = false ∧ waitPass request wait v =
      { v with
        waitCalls := v.waitCalls + 1
        msg := wait.received request.recvLen v.msg }) ∨
    (wait.timedOut = true ∧ waitPass request wait v =
      { v with
        waitCalls := v.waitCalls + 1
        msg := wait.received request.recvLen v.msg
        phase := .sending
        pause := request.timeout }) ∨
    (wait.ends request.peerName = true ∧ wait.timedOut = false ∧ ∃ bytes,
      waitPass request wait v =
        { v with
          waitCalls := v.waitCalls + 1
          msg := wait.received request.recvLen v.msg
          phase := .returned bytes } ∧
      (bytes = -1 ∨ ∃ datagram, wait = .ready (.datagram request.peerName datagram) ∧
        bytes = (datagram.take request.recvLen).length)) := by
  cases wait with
  | failed errno =>
    by_cases again : errno = .eintr
    · rw [again]
      exact .inl ⟨rfl, rfl, rfl⟩
    · refine .inr (.inr ⟨?_, rfl, -1, ?_, .inl rfl⟩)
      · simpa [UnWait.ends, UnWait.idle, UnWait.timedOut] using again
      · exact if_neg again
  | timeout => exact .inr (.inl ⟨rfl, rfl⟩)
  | ready received =>
    cases received with
    | failed errno =>
      by_cases again : errno = .eintr
      · rw [again]
        exact .inl ⟨rfl, rfl, rfl⟩
      · refine .inr (.inr ⟨?_, rfl, -1, ?_, .inl rfl⟩)
        · simpa [UnWait.ends, UnWait.idle, UnWait.timedOut] using again
        · exact if_neg again
    | datagram sunPath bytes =>
      by_cases own : sunPath = request.peerName
      · refine .inr (.inr ⟨?_, rfl, _, ?_, .inr ⟨bytes, ?_, rfl⟩⟩)
        · simpa [UnWait.ends, UnWait.idle, UnWait.timedOut] using own
        · exact if_neg (not_not.mpr own)
        · rw [own]
      · refine .inl ⟨?_, rfl, ?_⟩
        · simpa [UnWait.idle] using own
        · exact if_pos own

/-! ## What holds after every pass -/

variable (request sends waits)

/-- What was transmitted, and why. -/
structure UnTexts (v : UnVars) : Prop where
  /-- The datagrams so far are what is at `msg`. -/
  msg : v.msg = overlaid request waits v.waitCalls
  /-- The transmissions are the calls of `sendto` that were good. -/
  count : v.transmitted.length = transmissions request sends v.sendCalls
  /-- Those were made before `sendto` failed for good. -/
  sendsOn : v.transmitted = [] ∨
    ∃ calls, SendsOn request sends calls ∧ transmissions request sends calls = v.transmitted.length
  /-- Before each but the first a wait was in vain. -/
  waitsOn : ∃ calls, WaitsOn request waits calls ∧ v.transmitted.length ≤ timeouts waits calls + 1
  /-- The first one was the request, and the others what was at `msg` then. -/
  texts : ∀ text ∈ v.transmitted, text = request.msg.take request.sendLen ∨
    ∃ k, WaitsOn request waits k ∧ (waits k).timedOut = true ∧
      timeouts waits (k + 1) < v.transmitted.length ∧
      text = (overlaid request waits k).take request.sendLen
  /-- There is one for each wait that was in vain, as far as `sendto` was good. -/
  kept : ∀ k < v.waitCalls, (waits k).timedOut = true →
    timeouts waits (k + 1) < v.transmitted.length →
      (overlaid request waits k).take request.sendLen ∈ v.transmitted

/-- What holds until the function returns. -/
structure UnLive (n : Nat) (v : UnVars) : Prop where
  /-- Every pass makes one of the calls. -/
  passes : v.sendCalls + v.waitCalls = n
  /-- The attempts are the calls that were refused. -/
  attempt : v.attempt = refusals request sends v.sendCalls
  /-- They are not too many. -/
  few : refusals request sends v.sendCalls ≤ request.retry.toNat
  /-- No call failed. -/
  good : ∀ k < v.sendCalls, (sends k).failed request.sendLen = false
  /-- No wait was the last one. -/
  goesOn : WaitsOn request waits v.waitCalls

/-- Where the function is after so many passes. -/
def UnStands (n : Nat) (v : UnVars) : Prop :=
  match v.phase with
  | .sending => UnLive request sends waits n v ∧
    v.transmitted.length = timeouts waits v.waitCalls ∧
    (v.waitCalls = 0 ∨ ∃ k, v.waitCalls = k + 1 ∧ (waits k).timedOut = true)
  | .receiving => UnLive request sends waits n v ∧ SendsOn request sends v.sendCalls ∧
    v.transmitted.length = timeouts waits v.waitCalls + 1
  | .returned bytes =>
    (¬ SendsOn request sends v.sendCalls ∧ v.transmitted.length = timeouts waits v.waitCalls ∧
      bytes = -1) ∨
    (¬ WaitsOn request waits v.waitCalls ∧
      v.transmitted.length = timeouts waits v.waitCalls + 1 ∧
      (bytes = -1 ∨ ∃ k datagram, waits k = .ready (.datagram request.peerName datagram) ∧
        bytes = (datagram.take request.recvLen).length))

variable {request sends waits}

/-- Nothing is transmitted. -/
theorem UnTexts.unsent {v after : UnVars} (texts : UnTexts request sends waits v)
    (msg : after.msg = v.msg) (same : after.transmitted = v.transmitted)
    (waited : after.waitCalls = v.waitCalls)
    (count : transmissions request sends after.sendCalls =
      transmissions request sends v.sendCalls) : UnTexts request sends waits after where
  msg := by rw [msg, waited, texts.msg]
  count := by rw [same, count, texts.count]
  sendsOn := same ▸ texts.sendsOn
  waitsOn := same ▸ texts.waitsOn
  texts := same ▸ texts.texts
  kept := by
    rw [same, waited]
    exact texts.kept

/-- A wait transmits nothing. -/
theorem UnTexts.waited {v after : UnVars} (texts : UnTexts request sends waits v)
    (msg : after.msg = (waits v.waitCalls).received request.recvLen v.msg)
    (same : after.transmitted = v.transmitted) (waited : after.waitCalls = v.waitCalls + 1)
    (sent : after.sendCalls = v.sendCalls)
    (due : v.transmitted.length ≤ timeouts waits v.waitCalls + 1) :
    UnTexts request sends waits after where
  msg := by rw [msg, waited, overlaid, texts.msg]
  count := by rw [same, sent, texts.count]
  sendsOn := same ▸ texts.sendsOn
  waitsOn := same ▸ texts.waitsOn
  texts := same ▸ texts.texts
  kept := by
    rw [same, waited]
    intro k below late more
    rcases Nat.lt_succ_iff_lt_or_eq.mp below with before | last
    · exact texts.kept k before late more
    · have counted := timeouts_succ late
      rw [last] at counted more
      omega

/-- A transmission. -/
theorem UnTexts.sent {v after : UnVars} (texts : UnTexts request sends waits v)
    (ok : (sends v.sendCalls).ok request.sendLen = true)
    (on : SendsOn request sends (v.sendCalls + 1))
    (waitsOn : WaitsOn request waits v.waitCalls)
    (due : v.transmitted.length = timeouts waits v.waitCalls)
    (begins : v.waitCalls = 0 ∨ ∃ k, v.waitCalls = k + 1 ∧ (waits k).timedOut = true)
    (msg : after.msg = v.msg)
    (same : after.transmitted = v.transmitted ++ [v.msg.take request.sendLen])
    (waited : after.waitCalls = v.waitCalls) (calls : after.sendCalls = v.sendCalls + 1) :
    UnTexts request sends waits after := by
  have length : after.transmitted.length = v.transmitted.length + 1 := by
    rw [same, List.length_append, List.length_singleton]
  have counted : transmissions request sends (v.sendCalls + 1) =
      transmissions request sends v.sendCalls + 1 :=
    Nat.count_succ_eq_succ_count_iff.mpr ok
  -- what is at `msg` was there before the wait that was in vain
  have kind : v.waitCalls = 0 ∨ ∃ k, v.waitCalls = k + 1 ∧ (waits k).timedOut = true ∧
      v.msg = overlaid request waits k := by
    rcases begins with first | ⟨k, last, late⟩
    · exact .inl first
    · refine .inr ⟨k, last, late, ?_⟩
      rw [texts.msg, last, overlaid]
      cases wait : waits k with
      | timeout => rfl
      | failed errno =>
        rw [wait] at late
        cases late
      | ready received =>
        rw [wait] at late
        cases late
  refine ⟨?_, ?_, .inr ⟨v.sendCalls + 1, on, ?_⟩, ⟨v.waitCalls, waitsOn, ?_⟩, ?_, ?_⟩
  · rw [msg, waited, texts.msg]
  · rw [length, calls, counted, texts.count]
  · rw [length, counted, texts.count]
  · rw [length, due]
  · intro text member
    rw [same] at member
    rcases List.mem_append.mp member with old | new
    · rcases texts.texts text old with first | ⟨k, onK, late, less, content⟩
      · exact .inl first
      · exact .inr ⟨k, onK, late, by omega, content⟩
    · rw [List.mem_singleton.mp new]
      rcases kind with first | ⟨k, last, late, content⟩
      · rw [texts.msg, first]
        exact .inl rfl
      · rw [last] at waitsOn due
        rw [content]
        exact .inr ⟨k, waitsOn.before (Nat.le_succ k), late, by omega, rfl⟩
  · intro k below late more
    rw [waited] at below
    rw [same]
    by_cases before : timeouts waits (k + 1) < v.transmitted.length
    · exact List.mem_append_left _ (texts.kept k below late before)
    · apply List.mem_append_right
      rcases kind with first | ⟨last, place, lateLast, content⟩
      · omega
      · -- the counts agree only at the last one
        have whole := timeouts_succ lateLast
        have part := timeouts_succ late
        have counts : timeouts waits k = timeouts waits last := by
          rw [place] at due
          omega
        rw [Nat.count_injective late lateLast counts, content]
        exact List.mem_singleton_self _

theorem UnStands.sending {n : Nat} {v : UnVars} (phase : v.phase = .sending)
    (live : UnLive request sends waits n v)
    (due : v.transmitted.length = timeouts waits v.waitCalls)
    (begins : v.waitCalls = 0 ∨ ∃ k, v.waitCalls = k + 1 ∧ (waits k).timedOut = true) :
    UnStands request sends waits n v := by
  rw [UnStands, phase]
  exact ⟨live, due, begins⟩

theorem UnStands.receiving {n : Nat} {v : UnVars} (phase : v.phase = .receiving)
    (live : UnLive request sends waits n v) (on : SendsOn request sends v.sendCalls)
    (due : v.transmitted.length = timeouts waits v.waitCalls + 1) :
    UnStands request sends waits n v := by
  rw [UnStands, phase]
  exact ⟨live, on, due⟩

/-- What holds of the calls that a pass of the first loop leaves behind. -/
theorem UnLive.called {n : Nat} {v after : UnVars} (live : UnLive request sends waits n v)
    (more : v.attempt < request.retry) (calls : after.sendCalls = v.sendCalls + 1)
    (waited : after.waitCalls = v.waitCalls)
    (passed : (sends v.sendCalls).failed request.sendLen = false)
    (attempt : after.attempt =
      v.attempt + if (sends v.sendCalls).refused request.sendLen = true then 1 else 0) :
    UnLive request sends waits (n + 1) after := by
  have refused : refusals request sends after.sendCalls = refusals request sends v.sendCalls +
      if (sends v.sendCalls).refused request.sendLen = true then 1 else 0 := by
    rw [calls, refusals, Nat.count_succ, refusals]
  have before := live.attempt
  constructor
  · rw [calls, waited, Nat.add_right_comm, live.passes]
  · rw [attempt, refused, before]
    split
    · rfl
    · rfl
  · rw [refused]
    split <;> omega
  · intro k below
    rw [calls] at below
    rcases Nat.lt_succ_iff_lt_or_eq.mp below with less | same
    · exact live.good k less
    · rw [same]
      exact passed
  · rw [waited]
    exact live.goesOn

/-- The other kinds of results are not those that are counted. -/
theorem Sendto.ok_refused {sendLen : Nat} {sent : Sendto} (ok : sent.ok sendLen = true) :
    sent.refused sendLen = false ∧ sent.failed sendLen = false := by
  rw [refused, failed, ok]
  exact ⟨rfl, rfl⟩

theorem Sendto.interrupted_refused {sendLen : Nat} {sent : Sendto}
    (again : sent.interrupted sendLen = true) :
    sent.ok sendLen = false ∧ sent.refused sendLen = false ∧ sent.failed sendLen = false := by
  rw [interrupted] at again
  rw [refused, failed]
  cases ok : sent.ok sendLen
  · rw [ok] at again
    have errno : sent.errno = .eintr := by simpa using again
    rw [errno]
    exact ⟨rfl, rfl, rfl⟩
  · rw [ok] at again
    cases again

theorem Sendto.refused_failed {sendLen : Nat} {sent : Sendto}
    (refuses : sent.refused sendLen = true) :
    sent.ok sendLen = false ∧ sent.failed sendLen = false := by
  rw [refused] at refuses
  rw [failed]
  cases ok : sent.ok sendLen
  · rw [ok] at refuses
    cases errno : sent.errno <;> rw [errno] at refuses <;> simp at refuses ⊢
  · rw [ok] at refuses
    cases refuses

theorem Sendto.failed_ok {sendLen : Nat} {sent : Sendto} (fails : sent.failed sendLen = true) :
    sent.ok sendLen = false := by
  rw [failed] at fails
  cases ok : sent.ok sendLen
  · rfl
  · rw [ok] at fails
    cases fails

theorem transmissions_unsent {calls : Nat} (unsent : (sends calls).ok request.sendLen = false) :
    transmissions request sends (calls + 1) = transmissions request sends calls :=
  Nat.count_succ_eq_count_iff.mpr (Bool.eq_false_iff.mp unsent)

/-- A pass of the first loop. -/
theorem sendPass_stands {n : Nat} {v : UnVars} (texts : UnTexts request sends waits v)
    (live : UnLive request sends waits n v)
    (due : v.transmitted.length = timeouts waits v.waitCalls)
    (begins : v.waitCalls = 0 ∨ ∃ k, v.waitCalls = k + 1 ∧ (waits k).timedOut = true)
    (phase : v.phase = .sending) (more : v.attempt < request.retry) :
    UnTexts request sends waits (sendPass request (sends v.sendCalls) v) ∧
      UnStands request sends waits (n + 1) (sendPass request (sends v.sendCalls) v) := by
  rcases @sendPass_cases request (sends v.sendCalls) v with
    ⟨ok, pass⟩ | ⟨again, pass⟩ | ⟨refused, pause, pass⟩ | ⟨failed, pass⟩
  · have ⟨unrefused, passed⟩ := Sendto.ok_refused ok
    have live' : UnLive request sends waits (n + 1) (sendPass request (sends v.sendCalls) v) :=
      live.called more (by rw [pass]) (by rw [pass]) passed
        (by rw [pass, unrefused]; exact (Int.add_zero _).symm)
    have before := live.attempt
    have after := live'.attempt
    rw [pass] at live' after ⊢
    have on : SendsOn request sends (v.sendCalls + 1) := ⟨live'.good, by
      change v.attempt = refusals request sends (v.sendCalls + 1) at after
      omega⟩
    refine ⟨texts.sent ok on live.goesOn due begins rfl rfl rfl rfl, live', on, ?_⟩
    rw [List.length_append, due]
    rfl
  · have ⟨unsent, unrefused, passed⟩ := Sendto.interrupted_refused again
    have live' : UnLive request sends waits (n + 1) (sendPass request (sends v.sendCalls) v) :=
      live.called more (by rw [pass]) (by rw [pass]) passed
        (by rw [pass, unrefused]; exact (Int.add_zero _).symm)
    rw [pass] at live' ⊢
    exact ⟨texts.unsent rfl rfl rfl (transmissions_unsent unsent),
      .sending phase live' due begins⟩
  · have ⟨unsent, passed⟩ := Sendto.refused_failed refused
    have live' : UnLive request sends waits (n + 1) (sendPass request (sends v.sendCalls) v) :=
      live.called more (by rw [pass]) (by rw [pass]) passed
        (by rw [pass, refused]; rfl)
    rw [pass] at live' ⊢
    exact ⟨texts.unsent rfl rfl rfl (transmissions_unsent unsent),
      .sending phase live' due begins⟩
  · rw [pass]
    refine ⟨texts.unsent rfl rfl rfl (transmissions_unsent (Sendto.failed_ok failed)), .inl ?_⟩
    refine ⟨fun on => ?_, due, rfl⟩
    have passed := on.1 v.sendCalls (Nat.lt_succ_self _)
    rw [failed] at passed
    cases passed

/-- A pass of the second loop. -/
theorem waitPass_stands {n : Nat} {v : UnVars} (texts : UnTexts request sends waits v)
    (live : UnLive request sends waits n v) (on : SendsOn request sends v.sendCalls)
    (due : v.transmitted.length = timeouts waits v.waitCalls + 1) (phase : v.phase = .receiving) :
    UnTexts request sends waits (waitPass request (waits v.waitCalls) v) ∧
      UnStands request sends waits (n + 1) (waitPass request (waits v.waitCalls) v) := by
  have live' {after : UnVars} (calls : after.sendCalls = v.sendCalls)
      (waited : after.waitCalls = v.waitCalls + 1) (attempt : after.attempt = v.attempt)
      (goes : (waits v.waitCalls).ends request.peerName = false) :
      UnLive request sends waits (n + 1) after := by
    constructor
    · rw [calls, waited, ← Nat.add_assoc, live.passes]
    · rw [attempt, calls, live.attempt]
    · rw [calls]
      exact live.few
    · rw [calls]
      exact live.good
    · rw [waited]
      exact live.goesOn.succ goes
  rcases @waitPass_cases request (waits v.waitCalls) v with
    ⟨idle, soon, pass⟩ | ⟨late, pass⟩ | ⟨ends, soon, bytes, pass, value⟩
  · rw [pass]
    refine ⟨texts.waited rfl rfl rfl rfl due.le, ?_⟩
    have goes : (waits v.waitCalls).ends request.peerName = false := by
      rw [UnWait.ends, idle, Bool.not_true, Bool.false_and]
    exact .receiving phase (live' rfl rfl rfl goes) on
      (due.trans (congrArg (· + 1) (timeouts_same soon).symm))
  · rw [pass]
    refine ⟨texts.waited rfl rfl rfl rfl due.le, ?_⟩
    exact ⟨live' rfl rfl rfl (timedOut_goes late _), due.trans (timeouts_succ late).symm,
      .inr ⟨_, rfl, late⟩⟩
  · rw [pass]
    refine ⟨texts.waited rfl rfl rfl rfl due.le, .inr ⟨fun waitsOn => ?_, ?_, ?_⟩⟩
    · have goes := waitsOn v.waitCalls (Nat.lt_succ_self _)
      rw [ends] at goes
      cases goes
    · exact due.trans (congrArg (· + 1) (timeouts_same soon).symm)
    · rcases value with failed | ⟨datagram, reply, length⟩
      · exact .inl failed
      · exact .inr ⟨_, datagram, reply, length⟩

theorem unPass_stands {n : Nat} {v : UnVars} (texts : UnTexts request sends waits v)
    (stands : UnStands request sends waits n v) :
    UnTexts request sends waits (unPass request sends waits v) ∧
      UnStands request sends waits (n + 1) (unPass request sends waits v) := by
  rw [UnStands] at stands
  rw [unPass]
  cases phase : v.phase with
  | sending =>
    rw [phase] at stands
    have ⟨live, due, begins⟩ := stands
    dsimp only
    split
    · rename_i more
      exact sendPass_stands texts live due begins phase more
    · rename_i done
      have attempt := live.attempt
      refine ⟨texts.unsent rfl rfl rfl rfl, .inl ⟨fun on => ?_, due, rfl⟩⟩
      have fewer := on.2
      dsimp only at fewer
      omega
  | receiving =>
    rw [phase] at stands
    have ⟨live, on, due⟩ := stands
    exact waitPass_stands texts live on due phase
  | returned bytes =>
    rw [phase] at stands
    have still : UnStands request sends waits (n + 1) v := by
      rw [UnStands, phase]
      exact stands
    exact ⟨texts, still⟩

/-- What holds after any number of passes. -/
theorem perditionUnSendRecv_stands (n : Nat) :
    UnTexts request sends waits (perditionUnSendRecv request sends waits n) ∧
      UnStands request sends waits n (perditionUnSendRecv request sends waits n) := by
  induction n with
  | zero =>
    have nothing : timeouts waits 0 = 0 := Nat.count_zero _
    have none_ : refusals request sends 0 = 0 := Nat.count_zero _
    constructor
    · refine ⟨rfl, (Nat.count_zero _).symm, .inl rfl, ⟨0, nofun, Nat.zero_le _⟩, nofun, nofun⟩
    · refine ⟨⟨rfl, ?_, ?_, nofun, nofun⟩, nothing.symm, .inl rfl⟩
      · exact congrArg Nat.cast none_.symm
      · exact none_.trans_le (Nat.zero_le _)
  | succ n ih => exact unPass_stands ih.1 ih.2

/-! ## How often it is transmitted -/

variable (request sends waits)

/-- The function returns -1 or the length of a reply. -/
def UnReturns : Prop :=
  ∃ n bytes, (perditionUnSendRecv request sends waits n).phase = .returned bytes ∧
    (bytes = -1 ∨ ∃ k datagram, waits k = .ready (.datagram request.peerName datagram) ∧
      bytes = (datagram.take request.recvLen).length)

variable {request sends waits}

/-- The calls of `sendto` bound the transmissions. -/
theorem transmitted_le_sends {most : Nat}
    (few : ∀ calls, SendsOn request sends calls → transmissions request sends calls ≤ most)
    (n : Nat) : (perditionUnSendRecv request sends waits n).transmitted.length ≤ most := by
  have ⟨texts, _⟩ := @perditionUnSendRecv_stands request sends waits n
  rcases texts.sendsOn with nothing | ⟨calls, on, count⟩
  · rw [nothing]
    exact Nat.zero_le _
  · rw [← count]
    exact few calls on

/-- So do the waits. -/
theorem transmitted_le_waits {most : Nat}
    (few : ∀ calls, WaitsOn request waits calls → timeouts waits calls < most) (n : Nat) :
    (perditionUnSendRecv request sends waits n).transmitted.length ≤ most := by
  have ⟨texts, _⟩ := @perditionUnSendRecv_stands request sends waits n
  have ⟨calls, on, count⟩ := texts.waitsOn
  have := few calls on
  omega

/-- While it goes on, every pass is one of a bounded number. -/
theorem UnLive.passes_le {n most N : Nat} {v : UnVars} (live : UnLive request sends waits n v)
    (texts : UnTexts request sends waits v) (few : v.transmitted.length ≤ most)
    (due : timeouts waits v.waitCalls ≤ v.transmitted.length)
    (quiet : ∀ k, N ≤ k → (sends k).interrupted request.sendLen = false ∧
      (waits k).idle request.peerName = false) :
    n ≤ 2 * most + request.retry.toNat + 2 * N := by
  have sent : v.sendCalls ≤ transmissions request sends v.sendCalls +
      Nat.count (fun k => (sends k).interrupted request.sendLen = true) v.sendCalls +
      refusals request sends v.sendCalls := by
    apply le_count_three
    intro k below
    rcases (sends k).kinds request.sendLen with ok | again | refused | failed
    · exact .inl ok
    · exact .inr (.inl again)
    · exact .inr (.inr refused)
    · rw [live.good k below] at failed
      cases failed
  have waited : v.waitCalls ≤ timeouts waits v.waitCalls +
      Nat.count (fun k => (waits k).idle request.peerName = true) v.waitCalls +
      Nat.count (fun _ => False) v.waitCalls := by
    apply le_count_three
    intro k below
    have goes := live.goesOn k below
    rw [UnWait.ends] at goes
    cases late : (waits k).timedOut
    · cases idle : (waits k).idle request.peerName
      · rw [late, idle] at goes
        cases goes
      · exact .inr (.inl rfl)
    · exact .inl rfl
  have again := count_le_of_stops
    (fun k late => Bool.eq_false_iff.mp (quiet k late).1) v.sendCalls
  have idle := count_le_of_stops
    (fun k late => Bool.eq_false_iff.mp (quiet k late).2) v.waitCalls
  have few' := live.few
  have passes := live.passes
  have count := texts.count
  rw [Nat.count_false] at waited
  omega

/-- With a bound on the transmissions it returns. -/
theorem unReturns_of_few {most : Nat}
    (few : ∀ n, (perditionUnSendRecv request sends waits n).transmitted.length ≤ most) {N : Nat}
    (quiet : ∀ k, N ≤ k → (sends k).interrupted request.sendLen = false ∧
      (waits k).idle request.peerName = false) : UnReturns request sends waits := by
  let n := 2 * most + request.retry.toNat + 2 * N + 1
  have ⟨texts, stands⟩ := @perditionUnSendRecv_stands request sends waits n
  rw [UnStands] at stands
  refine ⟨n, ?_⟩
  cases phase : (perditionUnSendRecv request sends waits n).phase with
  | sending =>
    rw [phase] at stands
    have ⟨live, due, _⟩ := stands
    have bound := live.passes_le texts (few n) due.ge quiet
    omega
  | receiving =>
    rw [phase] at stands
    have ⟨live, _, due⟩ := stands
    have bound := live.passes_le texts (few n) (by omega) quiet
    omega
  | returned bytes =>
    rw [phase] at stands
    refine ⟨bytes, rfl, ?_⟩
    rcases stands with ⟨_, _, failed⟩ | ⟨_, _, value⟩
    · exact .inl failed
    · exact value

/-- It transmits at most `retry` times and returns just when `sendto` fails for good, or a wait is
the last one, early enough. -/
theorem perditionUnSendRecv_retries_iff (request : UnRequest) (sends : Nat → Sendto)
    (waits : Nat → UnWait)
    (quiet : ∃ N, ∀ k, N ≤ k → (sends k).interrupted request.sendLen = false ∧
      (waits k).idle request.peerName = false) :
    (UnReturns request sends waits ∧ ∀ n,
      (perditionUnSendRecv request sends waits n).transmitted.length ≤ request.retry.toNat) ↔
    (∀ calls, SendsOn request sends calls →
      transmissions request sends calls ≤ request.retry.toNat) ∨
    (∀ calls, WaitsOn request waits calls → timeouts waits calls < request.retry.toNat) := by
  have ⟨N, quiet⟩ := quiet
  constructor
  · rintro ⟨⟨n, bytes, phase, _⟩, few⟩
    have ⟨texts, stands⟩ := @perditionUnSendRecv_stands request sends waits n
    rw [UnStands, phase] at stands
    have bound := few n
    rcases stands with ⟨off, _, _⟩ | ⟨off, due, _⟩
    · -- every prefix of the calls that goes on is shorter than what was called
      refine .inl fun calls on => ?_
      have shorter : calls ≤ (perditionUnSendRecv request sends waits n).sendCalls := by
        by_contra longer
        exact off (on.before (Nat.le_of_not_le longer))
      have fewer : transmissions request sends calls ≤ transmissions request sends
          (perditionUnSendRecv request sends waits n).sendCalls := Nat.count_monotone _ shorter
      rw [← texts.count] at fewer
      exact fewer.trans bound
    · refine .inr fun calls on => ?_
      have shorter : calls ≤ (perditionUnSendRecv request sends waits n).waitCalls := by
        by_contra longer
        exact off (on.before (Nat.le_of_not_le longer))
      have fewer := @timeouts_mono waits _ _ shorter
      omega
  · intro early
    have few (n : Nat) : (perditionUnSendRecv request sends waits n).transmitted.length ≤
        request.retry.toNat := by
      rcases early with sent | waited
      · exact transmitted_le_sends sent n
      · exact transmitted_le_waits waited n
    exact ⟨unReturns_of_few few quiet, few⟩

/-- A server that answers at once. -/
theorem perditionUnSendRecv_answered :
    let server := cstr (bytes "/var/run/perdition.db")
    let request : UnRequest := ⟨server, bytes "GET ", 3, 4, 1, 2⟩
    let sends : Nat → Sendto := fun _ => ⟨3, .other⟩
    let waits : Nat → UnWait := fun _ => .ready (.datagram server (bytes "OK"))
    UnReturns request sends waits ∧
      ∀ n, (perditionUnSendRecv request sends waits n).transmitted.length ≤ 2 := by
  intro server request sends waits
  have own : UnWait.idle server (.ready (.datagram server (bytes "OK"))) = false := by
    rw [UnWait.idle]
    exact decide_eq_false fun other => other rfl
  have quiet : ∃ N, ∀ k, N ≤ k → (sends k).interrupted request.sendLen = false ∧
      (waits k).idle request.peerName = false := ⟨0, fun _ _ => ⟨rfl, own⟩⟩
  apply (perditionUnSendRecv_retries_iff request sends waits quiet).mpr
  refine .inr fun calls _ => ?_
  have none_ : timeouts waits calls = 0 := Nat.count_false calls
  rw [none_]
  decide

/-- A server that never answers is sent the request again and again. -/
theorem perditionUnSendRecv_unanswered :
    let request : UnRequest := ⟨cstr (bytes "/var/run/perdition.db"), bytes "GET", 3, 3, 1, 2⟩
    let sends : Nat → Sendto := fun _ => ⟨3, .other⟩
    let waits : Nat → UnWait := fun _ => .timeout
    (∃ N, ∀ k, N ≤ k → (sends k).interrupted request.sendLen = false ∧
      (waits k).idle request.peerName = false) ∧
    ¬ (UnReturns request sends waits ∧ ∀ n,
      (perditionUnSendRecv request sends waits n).transmitted.length ≤ request.retry.toNat) := by
  intro request sends waits
  refine ⟨⟨0, fun _ _ => ⟨rfl, rfl⟩⟩, fun bounded => ?_⟩
  have few := bounded.2 5
  revert few
  decide +kernel

/-! ## What is transmitted -/

/-- As many waits as were in vain before some transmission have been made before it. -/
theorem waited_of_transmitted {n k : Nat} (late : (waits k).timedOut = true)
    (more : timeouts waits (k + 1) <
      (perditionUnSendRecv request sends waits n).transmitted.length) :
    k < (perditionUnSendRecv request sends waits n).waitCalls := by
  have ⟨_, stands⟩ := @perditionUnSendRecv_stands request sends waits n
  have due : (perditionUnSendRecv request sends waits n).transmitted.length ≤
      timeouts waits (perditionUnSendRecv request sends waits n).waitCalls + 1 := by
    rw [UnStands] at stands
    cases phase : (perditionUnSendRecv request sends waits n).phase with
    | sending =>
      rw [phase] at stands
      have ⟨_, due, _⟩ := stands
      omega
    | receiving =>
      rw [phase] at stands
      exact stands.2.2.le
    | returned bytes =>
      rw [phase] at stands
      rcases stands with ⟨_, due, _⟩ | ⟨_, due, _⟩ <;> omega
  by_contra fewer
  have fewer' := @timeouts_mono waits _ _ (Nat.not_lt.mp fewer)
  have counted := timeouts_succ late
  omega

/-- After a wait in vain there is another transmission, if `sendto` is good for it. -/
theorem transmits_after {k calls : Nat} (waitsOn : WaitsOn request waits k)
    (late : (waits k).timedOut = true) (on : SendsOn request sends calls)
    (more : timeouts waits (k + 1) < transmissions request sends calls) :
    timeouts waits (k + 1) <
      (perditionUnSendRecv request sends waits (calls + (k + 1))).transmitted.length := by
  have ⟨texts, stands⟩ := @perditionUnSendRecv_stands request sends waits (calls + (k + 1))
  have waitsOn' := waitsOn.succ (timedOut_goes late _)
  generalize perditionUnSendRecv request sends waits (calls + (k + 1)) = v at texts stands ⊢
  have bySends (longer : calls ≤ v.sendCalls) :
      timeouts waits (k + 1) < v.transmitted.length := by
    have fewer : transmissions request sends calls ≤ transmissions request sends v.sendCalls :=
      Nat.count_monotone _ longer
    rw [texts.count]
    omega
  rw [UnStands] at stands
  cases phase : v.phase with
  | sending =>
    rw [phase] at stands
    have ⟨live, due, begins⟩ := stands
    have passes := live.passes
    by_cases longer : calls ≤ v.sendCalls
    · exact bySends longer
    · rcases begins with none_ | ⟨last, place, lateLast⟩
      · omega
      · -- the last wait in vain is a later one
        have after := @timeouts_mono waits (k + 1) last (by omega)
        have counted := timeouts_succ lateLast
        rw [due, place]
        omega
  | receiving =>
    rw [phase] at stands
    have ⟨live, _, due⟩ := stands
    have passes := live.passes
    by_cases longer : calls ≤ v.sendCalls
    · exact bySends longer
    · have fewer := @timeouts_mono waits (k + 1) v.waitCalls (by omega)
      omega
  | returned bytes =>
    rw [phase] at stands
    rcases stands with ⟨off, _, _⟩ | ⟨off, due, _⟩
    · apply bySends
      by_contra shorter
      exact off (on.before (Nat.le_of_not_le shorter))
    · have longer : k + 1 ≤ v.waitCalls := by
        by_contra shorter
        exact off (waitsOn'.before (Nat.le_of_not_le shorter))
      have fewer := @timeouts_mono waits _ _ longer
      omega

/-- Every transmission is the request just when the datagrams before each wait in vain that another
transmission follows have left the request as it was. -/
theorem perditionUnSendRecv_texts_iff (request : UnRequest) (sends : Nat → Sendto)
    (waits : Nat → UnWait) :
    (∀ n, ∀ text ∈ (perditionUnSendRecv request sends waits n).transmitted,
      text = request.msg.take request.sendLen) ↔
    ∀ k, WaitsOn request waits k → (waits k).timedOut = true →
      (∃ calls, SendsOn request sends calls ∧
        timeouts waits (k + 1) < transmissions request sends calls) →
      (overlaid request waits k).take request.sendLen = request.msg.take request.sendLen := by
  constructor
  · rintro same k waitsOn late ⟨calls, on, more⟩
    have ⟨texts, _⟩ := @perditionUnSendRecv_stands request sends waits (calls + (k + 1))
    have transmits := transmits_after waitsOn late on more
    exact same _ _ (texts.kept k (waited_of_transmitted late transmits) late transmits)
  · intro same n text member
    have ⟨texts, _⟩ := @perditionUnSendRecv_stands request sends waits n
    rcases texts.texts text member with first | ⟨k, waitsOn, late, more, content⟩
    · exact first
    · rw [content]
      apply same k waitsOn late
      rcases texts.sendsOn with nothing | ⟨calls, on, count⟩
      · rw [nothing] at member
        cases member
      · exact ⟨calls, on, count ▸ more⟩

/-- A datagram of another sender goes to the server. -/
theorem perditionUnSendRecv_stray :
    let request : UnRequest := ⟨cstr (bytes "/var/run/perdition.db"), bytes "GET", 3, 3, 1, 2⟩
    let sends : Nat → Sendto := fun _ => ⟨3, .other⟩
    let waits : Nat → UnWait := fun k =>
      if k = 0 then .ready (.datagram (cstr (bytes "/tmp/other")) (bytes "BAD")) else .timeout
    ¬ ∀ n, ∀ text ∈ (perditionUnSendRecv request sends waits n).transmitted,
      text = request.msg.take request.sendLen := by
  intro request sends waits same
  have sent : (perditionUnSendRecv request sends waits 4).transmitted =
      [bytes "GET", bytes "BAD"] := by decide +kernel
  have second := same 4 (bytes "BAD") (by rw [sent]; exact .tail _ (.head _))
  revert second
  decide +kernel

/-! ## How long it waits -/

/-- Every wait is as long as the first: doubling `pause` before `resend` has no effect. -/
theorem perditionUnSendRecv_pause (n : Nat)
    (phase : (perditionUnSendRecv request sends waits n).phase = .receiving) :
    (perditionUnSendRecv request sends waits n).pause = request.timeout := by
  induction n with
  | zero => rfl
  | succ n ih =>
    rw [perditionUnSendRecv, unPass] at phase ⊢
    cases before : (perditionUnSendRecv request sends waits n).phase with
    | sending =>
      rw [before] at phase
      dsimp only at phase ⊢
      split at phase
      · rename_i more
        rw [if_pos more]
        rcases @sendPass_cases request _ _ with
          ⟨_, pass⟩ | ⟨_, pass⟩ | ⟨_, _, pass⟩ | ⟨_, pass⟩
        · rw [pass]
        · rw [pass, before] at phase
          cases phase
        · rw [pass, before] at phase
          cases phase
        · rw [pass] at phase
          cases phase
      · cases phase
    | receiving =>
      rw [before] at phase
      dsimp only at phase ⊢
      rcases @waitPass_cases request _ _ with
        ⟨_, _, pass⟩ | ⟨_, pass⟩ | ⟨_, _, _, pass, _⟩
      · rw [pass]
        exact ih before
      · rw [pass]
      · rw [pass] at phase
        cases phase
    | returned bytes =>
      rw [before] at phase
      dsimp only at phase
      rw [before] at phase
      cases phase

end Request

end Perdition
