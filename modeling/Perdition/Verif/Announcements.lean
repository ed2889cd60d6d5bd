import Perdition.Spec.Safety
import Perdition.Verif.Attempts
import Perdition.Verif.SieveWriting
import Perdition.Verif.Visits
import Perdition.Verif.Words

/-!
# Capabilities after TLS

In a session with ManageSieve the client is told the capabilities unasked exactly once after it has
started TLS: when `in_get_auth` is called next and before a command is read. A monitor follows the events
of a run; what it accepts is then stated without it.
-/
namespace Perdition

open Lib Program

/-! ## What is said unasked -/

/-- What is written before anything else happens. -/
def unsolicited : List Event → List (List Byte)
  | .wrote _ content _ :: rest => content :: unsolicited rest
  | _ => []

/-- The last event is the upgrade of the client's connection after STARTTLS. -/
def justUpgraded (front : List Event) : Bool :=
  match front.getLast? with
  | some (.noted .starttls _) => true
  | _ => false

/-- The capabilities that the client is told after TLS. -/
def announcement (opt : Options) : Option CString :=
  managesieveCapabilityMsg opt opt.sslMode sslModeTlsListen (lit "TLS negotiation completed, mate")

/-- In this run the capabilities are told unasked once after each STARTTLS, in the call of `in_get_auth`
that comes next and before it reads, and never in another call. -/
structure Announced (opt : Options) {α : Type} (outcome : Outcome World Stop α) : Prop where
  /-- After STARTTLS `in_get_auth` is called at once, unless the run is not followed any further. -/
  called : ∀ front unread back, outcome.state.trace = front ++ .noted .starttls unread :: back →
    (back = [] ∧ ∃ w, outcome = .looping w) ∨
      ∃ tlsState unread' rest, back = .noted (.inGetAuth tlsState) unread' :: rest
  /-- What `in_get_auth` writes before it reads. -/
  once : ∀ front tlsState unread back,
    outcome.state.trace = front ++ .noted (.inGetAuth tlsState) unread :: back →
      if justUpgraded front then ∃ message, announcement opt = some message ∧
        unsolicited back = [message.content ++ crlf]
      else unsolicited back = []

/-! ## The monitor -/

/-- Where a run stands. -/
inductive Watch where
  /-- Nothing is owed to the client. -/
  | settled
  /-- The client has just started TLS. -/
  | owed
  /-- `in_get_auth` has just been called, after STARTTLS or not. -/
  | called (upgraded : Bool)
  /-- The capabilities have just been told. -/
  | announced
  deriving DecidableEq

namespace Watch

/-- What an event does: STARTTLS needs a response, a call after STARTTLS must write it, and before anything
else is written a command must be read. -/
def next (response : Option (List Byte)) : Watch → Event → Option Watch
  | .settled, .noted .starttls _ => if response.isSome then some .owed else none
  | .settled, .noted (.inGetAuth _) _ => some (.called false)
  | .settled, _ => some .settled
  | .owed, .noted (.inGetAuth _) _ => some (.called true)
  | .called true, .wrote _ content _ => if response = some content then some .announced else none
  | .called false, .took _ _ _ => some .settled
  | .called false, .starved _ => some .settled
  | .called false, .flushed => some .settled
  | .announced, .took _ _ _ => some .settled
  | .announced, .starved _ => some .settled
  | .announced, .flushed => some .settled
  | _, _ => none

/-- Events lead from one place to another. -/
def Leads (response : Option (List Byte)) (start : Watch) (events : List Event) (final : Watch) : Prop :=
  events.foldlM (next response) start = some final

section Leads

variable {response : Option (List Byte)} {start middle final : Watch} {front back : List Event} {e : Event}

theorem leads_nil : Leads response start [] final ↔ start = final := by
  simp [Leads]

theorem leads_cons : Leads response start (e :: back) final ↔
    ∃ middle, next response start e = some middle ∧ Leads response middle back final := by
  simp [Leads, List.foldlM_cons, Option.bind_eq_some_iff]

theorem leads_append : Leads response start (front ++ back) final ↔
    ∃ middle, Leads response start front middle ∧ Leads response middle back final := by
  simp [Leads, List.foldlM_append, Option.bind_eq_some_iff]

theorem Leads.more (leads : Leads response start front middle)
    (rest : Leads response middle back final) : Leads response start (front ++ back) final :=
  leads_append.mpr ⟨middle, leads, rest⟩

theorem leads_one (step : next response start e = some final) : Leads response start [e] final :=
  leads_cons.mpr ⟨final, step, leads_nil.mpr rfl⟩

/-- Only STARTTLS makes something owed. -/
theorem next_owed : next response start e = some .owed ↔
    response.isSome = true ∧ start = .settled ∧ ∃ unread, e = .noted .starttls unread := by
  cases start with
  | called upgraded =>
    cases upgraded <;> cases e <;> simp [next]
  | settled | owed | announced =>
    cases e with
    | noted what unread => cases what <;> simp [next, Option.isSome_iff_ne_none]
    | _ => simp [next]

/-- Something is owed where the client has just started TLS. -/
theorem owed_iff (leads : Leads response .settled front final) :
    justUpgraded front = true ↔ final = .owed := by
  rcases List.eq_nil_or_concat front with rfl | ⟨front, e, rfl⟩
  · rw [← leads_nil.mp leads]
    decide
  · rw [List.concat_eq_append] at leads ⊢
    have ⟨middle, _, last⟩ := leads_append.mp leads
    have ⟨final', step, same⟩ := leads_cons.mp last
    have same := leads_nil.mp same
    subst same
    have upgraded : justUpgraded (front ++ [e]) = true ↔ ∃ unread, e = .noted .starttls unread := by
      unfold justUpgraded
      rw [List.getLast?_concat]
      cases e with
      | noted what unread => cases what <;> simp
      | _ => simp
    rw [upgraded]
    constructor
    · intro ⟨unread, same⟩
      subst same
      cases middle with
      | settled =>
        simp only [next, Option.ite_none_right_eq_some, Option.some.injEq] at step
        exact step.2.symm
      | called upgraded => cases upgraded <;> simp [next] at step
      | owed | announced => simp [next] at step
    · intro same
      rw [same] at step
      exact (next_owed.mp step).2.2

/-- A call that is not after STARTTLS writes nothing before it reads. -/
theorem unsolicited_plain (leads : Leads response (.called false) back final) : unsolicited back = [] := by
  cases back with
  | nil => rfl
  | cons e rest =>
    have ⟨middle, step, _⟩ := leads_cons.mp leads
    cases e <;> simp_all [next, unsolicited]

/-- Once the response is written nothing else is before something is read. -/
theorem unsolicited_announced (leads : Leads response .announced back final) : unsolicited back = [] := by
  cases back with
  | nil => rfl
  | cons e rest =>
    have ⟨middle, step, _⟩ := leads_cons.mp leads
    cases e <;> simp_all [next, unsolicited]

/-- A call after STARTTLS writes the response, if it gets to its end. -/
theorem unsolicited_upgraded (leads : Leads response (.called true) back final)
    (told : final ≠ .called true) : ∃ content, response = some content ∧
      unsolicited back = [content] := by
  cases back with
  | nil => exact absurd (leads_nil.mp leads).symm told
  | cons e rest =>
    have ⟨middle, step, more⟩ := leads_cons.mp leads
    cases e with
    | wrote io content ok =>
      simp only [next, Option.ite_none_right_eq_some, Option.some.injEq] at step
      have ⟨same, last⟩ := step
      subst last
      exact ⟨content, same, by rw [unsolicited, unsolicited_announced more]⟩
    | _ => simp [next] at step

end Leads

end Watch

/-- The monitor accepts a run, which does not end with something owed unless it is not followed any
further. -/
def Watched (response : Option (List Byte)) {α : Type} (outcome : Outcome World Stop α) : Prop :=
  ∃ watch, Watch.Leads response .settled outcome.state.trace watch ∧ watch ≠ .called true ∧
    (watch = .owed → ∃ w, outcome = .looping w)

/-- What the client may be told after TLS, where that is offered. -/
def response (opt : Options) : Option (List Byte) :=
  if opt.sslMode.has sslModeTlsListen then (announcement opt).map fun message => message.content ++ crlf
  else none

/-- It is the message of the capabilities. -/
theorem response_some {opt : Options} {content : List Byte} (some_ : response opt = some content) :
    ∃ message, announcement opt = some message ∧ content = message.content ++ crlf := by
  unfold response at some_
  split at some_
  · have ⟨message, made, same⟩ := Option.map_eq_some_iff.mp some_
    exact ⟨message, made, same.symm⟩
  · cases some_

/-- What the monitor accepts is announced. -/
theorem Watched.announced {opt : Options} {α : Type} {outcome : Outcome World Stop α}
    (watched : Watched (response opt) outcome) : Announced opt outcome := by
  have ⟨watch, leads, told, owed⟩ := watched
  constructor
  · intro front unread back trace
    rw [trace] at leads
    have ⟨before, _, rest⟩ := Watch.leads_append.mp leads
    have ⟨after, step, rest⟩ := Watch.leads_cons.mp rest
    have upgraded : after = .owed := by
      cases before with
      | called upgraded => cases upgraded <;> simp [Watch.next] at step
      | _ => simp_all [Watch.next]
    subst upgraded
    cases back with
    | nil =>
      have last := Watch.leads_nil.mp rest
      exact .inl ⟨rfl, owed last.symm⟩
    | cons e rest' =>
      have ⟨_, called, _⟩ := Watch.leads_cons.mp rest
      cases e with
      | noted what unread' =>
        cases what with
        | inGetAuth tlsState => exact .inr ⟨tlsState, unread', rest', rfl⟩
        | _ => simp [Watch.next] at called
      | _ => simp [Watch.next] at called
  · intro front tlsState unread back trace
    rw [trace] at leads
    have ⟨before, reached, rest⟩ := Watch.leads_append.mp leads
    have ⟨after, step, rest⟩ := Watch.leads_cons.mp rest
    cases before with
    | settled =>
      have other : ¬ justUpgraded front = true := by
        rw [Watch.owed_iff reached]
        decide
      rw [if_neg other]
      have same : Watch.called false = after := by simpa [Watch.next] using step
      subst same
      exact Watch.unsolicited_plain rest
    | owed =>
      rw [if_pos ((Watch.owed_iff reached).mpr rfl)]
      have same : Watch.called true = after := by simpa [Watch.next] using step
      subst same
      have ⟨content, some_, said⟩ := Watch.unsolicited_upgraded rest told
      have ⟨message, made, same⟩ := response_some some_
      exact ⟨message, made, by rw [said, same]⟩
    | called upgraded => cases upgraded <;> simp [Watch.next] at step
    | announced => simp [Watch.next] at step

/-! ## Operations -/

/-- What has happened leads the monitor here. -/
def World.Stands (response : Option (List Byte)) (watch : Watch) (w : World) : Prop :=
  Watch.Leads response .settled w.trace watch

/-- `in_get_auth` is not called, and STARTTLS is not noted. -/
def unmarked : Contract SessionSig where
  allowed
    | .note .starttls => False
    | .note (.inGetAuth _) => False
    | _ => True
  returns _ _ := True

/-- Neither a call of `in_get_auth` nor STARTTLS. -/
def Event.plain : Event → Bool
  | .noted .starttls _ => false
  | .noted (.inGetAuth _) _ => false
  | _ => true

section Operations

variable {response : Option (List Byte)}

theorem World.Stands.record {w : World} {watch watch' : Watch} {events : List Event}
    (stands : w.Stands response watch) (leads : Watch.Leads response watch events watch') :
    (w.record events).Stands response watch' :=
  Watch.Leads.more stands leads

/-- Where nothing is owed nothing is after such events. -/
theorem settled_plain {events : List Event} (plain : ∀ e ∈ events, e.plain = true) :
    Watch.Leads response .settled events .settled := by
  induction events with
  | nil => exact Watch.leads_nil.mpr rfl
  | cons e rest ih =>
    refine Watch.leads_cons.mpr ⟨.settled, ?_, ih fun e member => plain e (List.mem_cons_of_mem _ member)⟩
    have first := plain e (List.mem_cons_self ..)
    cases e with
    | noted what unread => cases what <;> first | rfl | cases first
    | _ => rfl

/-- The events of an operation on a connection. -/
theorem io_trace (party : Party) (op : IoOp) (w : World) :
    ∃ events, (w.io party op).state.trace = w.trace ++ events ∧ ∀ e ∈ events, e.plain = true := by
  unfold World.io
  cases w.channel party with
  | none => exact ⟨[], by simp [Outcome.state], by simp⟩
  | some ch =>
    cases op with
    | nextByte =>
      refine ⟨ioEvents ch.conn.id ch.nextByte.2.source .nextByte ch.nextByte.1, ?_, ?_⟩
      · cases party <;> rfl
      · cases ch.nextByte.1 <;> simp [ioEvents, Event.plain]
    | write content =>
      refine ⟨[.wrote ch.conn.id content ch.conn.write.1], ?_, by simp [Event.plain]⟩
      cases party <;> rfl
    | getType => exact ⟨[], by cases party <;> rfl, by simp⟩
    | stale count => exact ⟨[], by cases party <;> rfl, by simp⟩
    | fault why => exact ⟨[], by simp [Channel.step, Outcome.state], by simp⟩

/-- The events of an operation of the session. -/
theorem step_trace {op : SessionOp} (allowed : unmarked.allowed op) (w : World) :
    ∃ events, (World.step op w).state.trace = w.trace ++ events ∧ ∀ e ∈ events, e.plain = true := by
  have kept {w' : World} (same : w'.trace = w.trace) :
      ∃ events, w'.trace = w.trace ++ events ∧ ∀ e ∈ events, e.plain = true :=
    ⟨[], by rw [same, List.append_nil], by simp⟩
  have one {w' : World} (e : Event) (same : w'.trace = w.trace ++ [e]) (plain : e.plain = true) :
      ∃ events, w'.trace = w.trace ++ events ∧ ∀ e ∈ events, e.plain = true :=
    ⟨[e], same, by simpa using plain⟩
  have pam : w.nextPam.2.trace = w.trace := by
    unfold World.nextPam
    split <;> rfl
  cases op with
  | io party op => exact io_trace party op w
  | tokenFlush => exact one .flushed rfl rfl
  | sslServerConnection =>
    change ∃ events, w.sslServerConnection.2.trace = _ ∧ _
    unfold World.sslServerConnection
    split
    · exact one _ rfl rfl
    · exact one _ rfl rfl
  | sslClientConnection =>
    change ∃ events, w.sslClientConnection.state.trace = _ ∧ _
    unfold World.sslClientConnection
    split
    · exact kept rfl
    · split
      · exact one _ rfl rfl
      · exact one _ rfl rfl
  | clientOpen server port =>
    change ∃ events, w.clientOpen.2.trace = _ ∧ _
    unfold World.clientOpen
    split
    · exact one _ rfl rfl
    · exact one _ rfl rfl
    · exact one _ rfl rfl
  | closeServer =>
    change ∃ events, w.closeServer.trace = _ ∧ _
    unfold World.closeServer
    split
    · exact kept rfl
    · exact one _ rfl rfl
  | map => exact kept rfl
  | pamStart user => exact one (.pamStarted user w.nextPam.1) (congrArg (· ++ _) pam) rfl
  | pamAuthenticate user passwd =>
    exact one (.pamAuthenticated user passwd w.nextPam.1) (congrArg (· ++ _) pam) rfl
  | exit status => exact kept rfl
  | note what =>
    cases what with
    | starttls => exact allowed.elim
    | inGetAuth tlsState => exact allowed.elim
    | _ => exact one _ rfl rfl

/-- What neither calls `in_get_auth` nor notes STARTTLS leaves nothing owed. -/
theorem unmarked_settled {α : Type} {program : Session α} {result : α → Prop}
    (obeys : program.Obeys unmarked result) :
    Triple World.step (World.Stands response .settled) program
      (fun a w => result a ∧ w.Stands response .settled) (World.Stands response .settled) := by
  refine triple_of_obeys obeys (fun op allowed w stands => ?_) fun _ => id
  have ⟨events, trace, plain⟩ := step_trace allowed w
  have kept : (World.step op w).state.Stands response .settled := by
    unfold World.Stands
    rw [trace]
    exact Watch.Leads.more stands (settled_plain plain)
  exact (Outcome.meets_iff_state.mpr kept).mono (fun _ _ stands => ⟨trivial, stands⟩) fun _ => id

end Operations

/-! ## A call of in_get_auth -/

section Call

variable {response : Option (List Byte)}

/-- A command may be read. -/
def World.Awaits (response : Option (List Byte)) (w : World) : Prop :=
  ∃ watch, w.Stands response watch ∧ (watch = .settled ∨ watch = .called false ∨ watch = .announced)

theorem World.Stands.awaits {w : World} (stands : w.Stands response .settled) : w.Awaits response :=
  ⟨.settled, stands, .inl rfl⟩

/-- A byte of a command is read. -/
theorem nextByte_settles : Triple visitStep (World.Awaits response) nextByte
    (fun _ => World.Stands response .settled) (World.Awaits response) := by
  intro fuel w ⟨watch, stands, place⟩
  let ch : Channel := ⟨w.client, w.unread, w.source, w.stale⟩
  have settles : ((w.putChannel .client ch.nextByte.2).record
      (ioEvents w.client.id ch.nextByte.2.source .nextByte ch.nextByte.1)).Stands response .settled := by
    have leads : Watch.Leads response watch
        (ioEvents w.client.id ch.nextByte.2.source .nextByte ch.nextByte.1) .settled := by
      cases ch.nextByte.1 with
      | none => rcases place with rfl | rfl | rfl <;> exact Watch.leads_one rfl
      | some b => rcases place with rfl | rfl | rfl <;> exact Watch.leads_one rfl
    exact Watch.Leads.more stands leads
  exact settles

/-- Where a round of `token_read` may be the first one, or something has been read. -/
def World.Reads (response : Option (List Byte)) (state : ReadState) (w : World) : Prop :=
  (state = .start ∧ w.Awaits response) ∨ w.Stands response .settled

theorem World.Reads.awaits {state : ReadState} {w : World} (reads : w.Reads response state) :
    w.Awaits response :=
  reads.elim And.right World.Stands.awaits

/-- A token takes a byte at least. -/
theorem tokenRead_settles (flag : Flag) (m : Nat) :
    Triple visitStep (World.Awaits response) (tokenRead none flag m)
      (fun _ => World.Stands response .settled) (World.Awaits response) := by
  have loop : Triple visitStep (World.Reads response .start) (tokenRead none flag m)
      (fun _ => World.Stands response .settled) (World.Awaits response) := by
    refine triple_loop (World.Reads response) (fun state => triple_ite (fun full => ?_) fun _ => ?_)
      fun _ _ => World.Reads.awaits
    · -- the buffer is not full before the first byte
      intro fuel w reads
      rcases reads with ⟨first, _⟩ | stands
      · subst first
        exact absurd full (by decide)
      · exact stands
    · refine triple_bind (triple_mono nextByte_settles (fun _ => World.Reads.awaits) (fun _ _ => id)
        fun _ => id) fun c => ?_
      cases c with
      | none => exact triple_pure fun _ => id
      | some c =>
        dsimp only
        cases tokenStep (none : Option Nat).isSome flag m state c with
        | more state => exact triple_pure fun _ => .inr
        | stop state flag => exact triple_pure fun _ => id
  exact triple_mono loop (fun w awaits => .inl ⟨rfl, awaits⟩) (fun _ _ => id) fun _ => id

/-- A line is read. -/
theorem readLine_settles (flag : Flag) (m : Nat) :
    Triple visitStep (World.Awaits response) (readLine none flag m)
      (fun _ => World.Stands response .settled) (World.Awaits response) := by
  refine triple_loop (fun _ => World.Awaits response) (fun read => ?_) fun _ _ => id
  refine triple_bind (tokenRead_settles flag m) fun t => ?_
  cases t with
  | none => exact triple_pure fun _ => id
  | some t =>
    refine triple_ite (fun _ => ?_) fun _ => triple_pure fun _ => id
    exact triple_pure fun _ => World.Stands.awaits

/-- Any dialogue with the client leaves nothing owed where nothing is. -/
theorem dialogue_settled {α : Type} (dialogue : Dialogue α) :
    Triple visitStep (World.Stands response .settled) dialogue
      (fun _ => World.Stands response .settled) (World.Awaits response) := by
  have kept (op : IoOp) (w : World) (stands : w.Stands response .settled) :
      (visitStep op w).state.Stands response .settled := by
    have ⟨events, trace, plain⟩ := io_trace .client op w
    change Watch.Leads _ _ (w.io .client op).state.trace _
    rw [trace]
    exact Watch.Leads.more stands (settled_plain plain)
  intro fuel w stands
  have ended := run_invariant dialogue kept fuel w stands
  exact (Outcome.meets_iff_state.mpr ended).mono (fun _ _ => id) fun _ => World.Stands.awaits

/-- A command is answered after it is read. -/
theorem getAuthLoop_settles (opt : Options) (platform : Platform) (tlsFlags tlsState : Flag) :
    Triple visitStep (World.Awaits response) (managesieveInGetAuthLoop opt platform tlsFlags tlsState)
      (fun _ => World.Stands response .settled) (World.Awaits response) :=
  triple_bind (readLine_settles _ _) fun _ => dialogue_settled _

/-- The response depends on TLS alone. -/
theorem announcement_listen {opt : Options} {tlsState : Flag}
    (listen : tlsState.has sslModeTlsListen = true) :
    managesieveCapabilityMsg opt opt.sslMode tlsState (lit "TLS negotiation completed, mate") =
      announcement opt := by
  have offered : tlsOffered opt.sslMode tlsState = tlsOffered opt.sslMode sslModeTlsListen := by
    simp only [tlsOffered, listen, show sslModeTlsListen.has sslModeTlsListen = true by decide]
  unfold announcement managesieveCapabilityMsg managesieveCapability
  rw [offered]

/-- There is a message of the capabilities after TLS, and it has room. -/
def Owes (opt : Options) (response : Option (List Byte)) : Prop :=
  ∃ message, announcement opt = some message ∧ message.length ≤ maxText ∧
    response = some (message.content ++ crlf)

/-- The response is written where the client has started TLS, and nothing else. -/
theorem starttlsPost_announces {opt : Options} {tlsState : Flag}
    (able : tlsState.has sslModeTlsListen = true → Owes opt response) :
    Triple visitStep (World.Stands response (.called (tlsState.has sslModeTlsListen)))
      (managesieveStarttlsPost opt opt.sslMode tlsState)
      (fun _ => World.Awaits response) (World.Awaits response) := by
  unfold managesieveStarttlsPost
  by_cases listen : tlsState.has sslModeTlsListen = true
  · have ⟨message, some_, fits, same⟩ := able listen
    rw [if_neg (by simp [listen]), announcement_listen listen, some_, listen]
    dsimp only
    rw [managesieveWriteRaw_fits fits]
    have written : Triple visitStep (World.Stands response (.called true))
        (ioWrite (message.content ++ crlf)) (fun _ => World.Awaits response)
        (World.Awaits response) := by
      intro fuel w stands
      refine ⟨.announced, ?_, .inr (.inr rfl)⟩
      exact Watch.Leads.more stands (Watch.leads_one (if_pos same))
    have sent : Triple visitStep (World.Stands response (.called true))
        (send (message.content ++ crlf)) (fun _ => World.Awaits response)
        (World.Awaits response) :=
      triple_bind written fun ok => triple_ite (fun _ => triple_pure fun _ => id)
        fun _ => triple_pure fun _ => id
    have raw : Triple visitStep (World.Stands response (.called true))
        (do if (← send (message.content ++ crlf)) < 0 then return -1 else return 0 : Dialogue Int)
        (fun _ => World.Awaits response) (World.Awaits response) :=
      triple_bind sent fun status => triple_ite (fun _ => triple_pure fun _ => id)
        fun _ => triple_pure fun _ => id
    exact triple_bind raw fun status => triple_ite (fun _ => triple_pure fun _ => id)
      fun _ => triple_pure fun _ => id
  · rw [if_pos (by simp [listen]), Bool.eq_false_iff.mpr listen]
    exact triple_pure fun w stands => ⟨.called false, stands, .inr (.inl rfl)⟩

/-- A call tells the response where it is owed, and nothing else before it reads. -/
theorem getAuth_announces {opt : Options} {tlsState : Flag}
    (able : tlsState.has sslModeTlsListen = true → Owes opt response) (platform : Platform) :
    Triple visitStep (World.Stands response (.called (tlsState.has sslModeTlsListen)))
      (managesieveInGetAuth opt platform opt.sslMode tlsState)
      (fun _ => World.Awaits response) (World.Awaits response) := by
  refine triple_bind (starttlsPost_announces able) fun status => ?_
  refine triple_ite (fun _ => triple_pure fun _ => id) fun _ => ?_
  refine triple_loop (fun _ => World.Awaits response) (fun _ => ?_) fun _ _ => id
  refine triple_bind (getAuthLoop_settles opt platform opt.sslMode tlsState) fun as => ?_
  refine triple_ite (fun _ => triple_pure fun _ => World.Stands.awaits) fun _ => ?_
  exact triple_pure fun _ => World.Stands.awaits

end Call

/-! ## Parts of a session -/

/-- What follows a call of `in_get_auth` is unmarked, but for STARTTLS. -/
theorem unmarked_locating : Locating unmarked where
  io _ _ := trivial
  closeServer := trivial
  pamStart _ := trivial
  pamAuthenticate _ _ := trivial
  exit _ := trivial
  cleanUp := trivial
  loggedIn := trivial
  map := trivial
  flush := trivial
  dial _ _ := trivial
  secure := trivial
  located _ := trivial
  inAuthenticated _ _ := trivial
  outSetup := trivial
  outAuthenticate _ := trivial

/-- So are its ends. -/
theorem unmarked_ending : Ending unmarked := unmarked_locating.toEnding

/-! ## The greeting -/

/-- A message that is written had room, but for a byte. -/
theorem writeRaw_room {message : CString} {fuel : Nat} {w w' : World} {status : Int}
    (client : w.client.id.party = .client)
    (run : (managesieveWriteRaw message).run visitStep fuel w = .done status w') :
    message.length ≤ maxText + 1 := by
  have related := (World.visits_self client).run (managesieveWriteRaw message) fuel
  rw [run, Talk.run_raw, rawSends_eq] at related
  by_contra long
  rw [if_neg (by omega), if_neg (by omega)] at related
  nomatch related

/-- Where the client was greeted with STARTTLS among the capabilities, they can be told without it. -/
theorem greeting_announceable {opt : Options} {platform : Platform} {fuel : Nat} {w w' : World}
    {status : Int} (listen : opt.sslMode.has sslModeTlsListen = true)
    (client : w.client.id.party = .client)
    (run : (Protocol.managesieve.greeting opt platform).run visitStep fuel w = .done status w')
    (greeted : ¬ status < 0) :
    ∃ message, announcement opt = some message ∧ message.length ≤ maxText := by
  have offered : tlsOffered opt.sslMode sslModeEmpty = true := by
    rw [tlsOffered, listen]
    decide
  have not_ : tlsOffered opt.sslMode sslModeTlsListen = false := by
    rw [tlsOffered, listen]
    decide
  rw [Protocol.greeting] at run
  cases host : greetingStr platform (lit "perdition ready on") with
  | none =>
    rw [host] at run
    obtain ⟨same, _⟩ := Outcome.done.inj run
    omega
  | some tail =>
    rw [host] at run
    dsimp only at run
    cases made : managesieveCapabilityMsg opt opt.sslMode sslModeEmpty tail with
    | none =>
      rw [made] at run
      cases run
    | some greeting =>
      rw [made] at run
      have room := writeRaw_room client run
      obtain ⟨name, _, tail_⟩ := Option.bind_eq_some_iff.mp host
      obtain ⟨added, adds, whole⟩ := Option.bind_eq_some_iff.mp made
      obtain ⟨deleted, deletes, shorter⟩ := managesieveCapability_both offered not_ adds
      have deletedSome : announcement opt = some (deleted ++ lit "\r\nOK \"" ++
          lit "TLS negotiation completed, mate" ++ lit "\"") := by
        unfold announcement managesieveCapabilityMsg
        rw [deletes]
        rfl
      refine ⟨_, deletedSome, ?_⟩
      have sizes : (lit "perdition ready on").content.length = 18 ∧ (lit " ").content.length = 1 ∧
          (lit "\r\nOK \"").content.length = 6 ∧ (lit "\"").content.length = 1 ∧
          (lit "TLS negotiation completed, mate").content.length = 31 := by decide
      obtain ⟨base, blank, between, quote, negotiated⟩ := sizes
      change deleted.content.length + 12 ≤ added.content.length at shorter
      change greeting.content.length ≤ maxText + 1 at room
      change (deleted ++ _ ++ _ ++ _).content.length ≤ maxText
      rw [← Option.some.inj whole, ← Option.some.inj tail_] at room
      simp only [CString.content_append, List.length_append, base, blank, between, quote,
        negotiated] at room ⊢
      omega

/-! ## Attempts -/

section Attempts

variable {config : Config}

/-- What is owed to the client is in the state of TLS. -/
structure World.Ready (opt : Options) (st : LoopState) (w : World) : Prop where
  /-- TLS is started where it is offered. -/
  offered : st.tlsState.has sslModeTlsListen = true → opt.sslMode.has sslModeTlsListen = true
  /-- The state is up to date. -/
  stands : w.Stands (response opt) (if st.tlsState.has sslModeTlsListen then .owed else .settled)

/-- What an attempt leaves. -/
def Readied (opt : Options) (r : LoopState ⊕ LoopState) (w : World) : Prop :=
  match r with
  | .inl again => w.Ready opt again
  | .inr _ => w.Stands (response opt) .settled

theorem cleanedUp_readied {program : Attempt} (obeys : program.Obeys unmarked CleanedUp) :
    Triple World.step (World.Stands (response config.opt) .settled) program (Readied config.opt)
      (World.Awaits (response config.opt)) := by
  refine triple_mono (unmarked_settled obeys) (fun _ => id) (fun r w ⟨cleanedUp, stands⟩ => ?_)
    fun _ => World.Stands.awaits
  cases r with
  | inl again =>
    have ⟨st, same⟩ := cleanedUp again rfl
    have off : again.tlsState.has sslModeTlsListen = false := by
      rw [same]
      exact show (0 : Flag).has sslModeTlsListen = false by decide
    constructor
    · intro on
      rw [off] at on
      cases on
    · rw [if_neg (by simp [off])]
      exact stands
  | inr final => exact stands

/-- What is noted leads the monitor on. -/
theorem note_stands {response : Option (List Byte)} {watch watch' : Watch} {what : Note}
    (step : ∀ unread, Watch.next response watch (.noted what unread) = some watch') :
    Triple World.step (World.Stands response watch) (Session.note what)
      (fun _ => World.Stands response watch') (World.Awaits response) :=
  fun _ w stands => Watch.Leads.more stands (Watch.leads_one (step w.unread))

/-- Where TLS is offered, the client can be told the capabilities after it. -/
def Able (opt : Options) : Prop :=
  opt.sslMode.has sslModeTlsListen = true → Owes opt (response opt)

theorem dispatch_readied (able : Able config.opt) {st : LoopState} (status : Int) :
    Triple World.step (World.Stands (response config.opt) .settled) (dispatch config st status)
      (Readied config.opt) (World.Awaits (response config.opt)) := by
  refine triple_ite (fun _ => cleanedUp_readied (exit_obeys unmarked_ending _)) fun _ => ?_
  refine triple_ite (fun _ => cleanedUp_readied (exit_obeys unmarked_ending _)) fun _ => ?_
  refine triple_ite (fun starttls => ?starttls) fun _ => ?login
  case starttls =>
    have upgraded : (Session.perform .sslServerConnection).Obeys unmarked fun _ => True :=
      ⟨trivial, fun _ _ => trivial⟩
    have ⟨message, _, _, some_⟩ := able starttls.2
    have owed (unread : List Byte) : Watch.next (response config.opt) .settled
        (.noted .starttls unread) = some .owed := by
      rw [some_]
      rfl
    refine triple_bind (triple_mono (unmarked_settled upgraded) (fun _ => id) (fun _ _ => And.right)
      fun _ => World.Stands.awaits) fun secured => ?_
    refine triple_ite (fun _ => cleanedUp_readied (exit_obeys unmarked_ending _)) fun _ => ?_
    refine triple_bind (note_stands owed) fun _ => triple_pure fun w stands => ?_
    refine ⟨fun _ => starttls.2, ?_⟩
    rw [if_pos (has_or_self _)]
    exact stands
  case login =>
    refine cleanedUp_readied (obeys_step trivial fun _ _ => obeys_ite (fun _ => ?_) fun _ => ?_)
    · exact obeys_step trivial fun _ _ => failAttempt_obeys unmarked_ending _ _ _
    · exact locateServer_obeys unmarked_locating _ _

theorem attempt_readied (sieve : config.protocol = .managesieve) (able : Able config.opt)
    (st : LoopState) :
    Triple World.step (World.Ready config.opt st) (attempt config st) (Readied config.opt)
      (World.Awaits (response config.opt)) := by
  have begun : Triple World.step (World.Stands (response config.opt)
      (if st.tlsState.has sslModeTlsListen then .owed else .settled))
      (Session.note (.inGetAuth st.tlsState))
      (fun _ => World.Stands (response config.opt) (.called (st.tlsState.has sslModeTlsListen)))
      (World.Awaits (response config.opt)) := by
    cases st.tlsState.has sslModeTlsListen with
    | true => exact note_stands fun _ => rfl
    | false => exact note_stands fun _ => rfl
  have called (offered : st.tlsState.has sslModeTlsListen = true →
      config.opt.sslMode.has sslModeTlsListen = true) : Triple World.step
      (World.Stands (response config.opt) (.called (st.tlsState.has sslModeTlsListen)))
      (Session.client (config.protocol.inGetAuth config.opt config.platform config.opt.sslMode
        st.tlsState))
      (fun _ => World.Awaits (response config.opt)) (World.Awaits (response config.opt)) := by
    intro fuel w stands
    rw [Session.run_client, sieve]
    exact getAuth_announces (fun listen => able (offered listen)) config.platform fuel w stands
  have flushed : Triple World.step (World.Awaits (response config.opt))
      (Session.perform .tokenFlush) (fun _ => World.Stands (response config.opt) .settled)
      (World.Awaits (response config.opt)) := by
    intro fuel w ⟨watch, stands, place⟩
    have step : Watch.next (response config.opt) watch .flushed = some .settled := by
      rcases place with rfl | rfl | rfl <;> rfl
    exact Watch.Leads.more stands (Watch.leads_one step)
  have got (status : Int) (auth : Auth) : Triple World.step (World.Stands (response config.opt) .settled)
      (Session.note (.gotAuth status auth)) (fun _ => World.Stands (response config.opt) .settled)
      (World.Awaits (response config.opt)) := note_stands fun _ => rfl
  have whole (offered : st.tlsState.has sslModeTlsListen = true →
      config.opt.sslMode.has sslModeTlsListen = true) : Triple World.step
      (World.Stands (response config.opt)
        (if st.tlsState.has sslModeTlsListen then .owed else .settled))
      (attempt config st) (Readied config.opt) (World.Awaits (response config.opt)) :=
    triple_bind begun fun _ => triple_bind (called offered) fun result => triple_bind flushed
      fun _ => triple_bind (got _ _) fun _ => dispatch_readied able result.status
  intro fuel w ready
  exact whole ready.offered fuel w ready.stands

end Attempts

/-! ## Sessions -/

section Sessions

variable {opt : Options}

theorem watched_awaits {response : Option (List Byte)} {α : Type} {outcome : Outcome World Stop α}
    (awaits : outcome.state.Awaits response) : Watched response outcome := by
  have ⟨watch, stands, place⟩ := awaits
  refine ⟨watch, stands, ?_, ?_⟩
  · rcases place with rfl | rfl | rfl <;> decide
  · intro owed
    rcases place with rfl | rfl | rfl <;> cases owed

/-- A run of attempts is watched, however long it is followed. -/
theorem iterate_watched {step : LoopState → World → Outcome World Stop (LoopState ⊕ LoopState)}
    (kept : ∀ st w, w.Ready opt st →
      (step st w).Meets (Readied opt) (World.Awaits (response opt))) :
    ∀ fuel st w, w.Ready opt st → Watched (response opt) (iterate step fuel st w) := by
  intro fuel
  induction fuel with
  | zero =>
    intro st w ready
    refine ⟨_, ready.stands, ?_, fun _ => ⟨w, rfl⟩⟩
    split <;> decide
  | succ fuel ih =>
    intro st w ready
    have met := kept st w ready
    rw [iterate]
    cases ended : step st w with
    | done r w' =>
      rw [ended] at met
      cases r with
      | inl again => exact ih again w' met
      | inr final => exact watched_awaits (World.Stands.awaits met)
    | halted why w' =>
      rw [ended] at met
      exact watched_awaits met
    | looping w' =>
      rw [ended] at met
      exact watched_awaits met

theorem authenticationLoop_watched {config : Config} (sieve : config.protocol = .managesieve)
    (able : Able config.opt) (fuel : Nat) {w : World}
    (stands : w.Stands (response config.opt) .settled) :
    Watched (response config.opt) (Session.run (authenticationLoop config) fuel w) := by
  have off : ¬ (LoopState.start config).tlsState.has sslModeTlsListen = true :=
    show ¬ sslModeEmpty.has sslModeTlsListen = true by decide
  have ready : w.Ready config.opt (LoopState.start config) := by
    refine ⟨fun on => absurd on off, ?_⟩
    rw [if_neg off]
    exact stands
  exact iterate_watched (fun st w ready => attempt_readied sieve able st fuel w ready) fuel _ w
    ready

/-- The upgrade of the connection leaves it to the client. -/
theorem sslServerConnection_party (w : World) :
    w.sslServerConnection.2.client.id.party = w.client.id.party := by
  unfold World.sslServerConnection Connection.upgrade
  rcases w.client.handshakes with _ | ⟨_ | reads, rest⟩ <;> rfl

/-- What a session with a client begins with. -/
def begin (config : Config) : Session LoopState := do
  if (← Session.client (config.protocol.greeting config.opt config.platform)) < 0 then
    Session.exit (-1)
  else authenticationLoop config

theorem begin_watched {config : Config} (sieve : config.protocol = .managesieve) (fuel : Nat)
    {w : World} (client : w.client.id.party = .client)
    (stands : w.Stands (response config.opt) .settled) :
    Watched (response config.opt) (Session.run (begin config) fuel w) := by
  have told := @unmarked_settled (response config.opt) _ _ _
    (client_obeys unmarked_ending (config.protocol.greeting config.opt config.platform)) fuel w stands
  unfold Session.run begin
  rw [run_bind]
  cases ended : Program.run World.step fuel
      (Session.client (config.protocol.greeting config.opt config.platform)) w with
  | done status w' =>
    rw [ended] at told
    have stands' : w'.Stands (response config.opt) .settled := told.2
    rw [Outcome.next_done, run_ite]
    split
    · exact watched_awaits stands'.awaits
    · rename_i greeted
      rw [Session.run_client, sieve] at ended
      refine authenticationLoop_watched sieve (fun listen => ?_) fuel stands'
      have ⟨message, made, fits⟩ := greeting_announceable listen client ended greeted
      refine ⟨message, made, fits, ?_⟩
      rw [response, if_pos listen, made]
      rfl
  | halted why w' =>
    rw [ended] at told
    exact watched_awaits (World.Stands.awaits told)
  | looping w' =>
    rw [ended] at told
    exact watched_awaits (World.Stands.awaits told)

/-- In every run of `main` with ManageSieve the client is told the capabilities unasked exactly once after
each STARTTLS, and at no other time. -/
theorem main_announced (config : Config) (sieve : config.protocol = .managesieve) (fuel : Nat)
    (w : World) (fresh : w.Fresh) : Announced config.opt (Session.run (main config) fuel w) := by
  have client : w.client.id.party = .client := by rw [fresh.client]
  have start : w.Stands (response config.opt) .settled := by
    unfold World.Stands
    rw [fresh.trace]
    exact Watch.leads_nil.mpr rfl
  apply Watched.announced
  have plain (ok : Bool) {w : World} (client : w.client.id.party = .client)
      (stands : w.Stands (response config.opt) .settled) :
      Watched (response config.opt) (Session.run (if !ok then Session.exit (-1) else begin config)
        fuel w) := by
    cases ok with
    | true => exact begin_watched sieve fuel client stands
    | false => exact watched_awaits stands.awaits
  unfold main
  dsimp only
  split
  · have listened : (Session.perform .sslServerConnection).Obeys unmarked fun _ => True :=
      ⟨trivial, fun _ _ => trivial⟩
    exact plain w.sslServerConnection.1 ((sslServerConnection_party w).trans client)
      (unmarked_settled listened fuel w start).2
  · exact plain true client start

end Sessions

/-- ManageSieve with STARTTLS. -/
def Config.starttls : Config :=
  { Config.sample .managesieve with
    opt := { Options.sample with sslMode := sslModeTlsListen } }

/-- A client that starts TLS and then fails to log in twice. -/
def retries : World :=
  World.accepted [bytes "STARTTLS\r\n"]
    [some [bytes "AUTHENTICATE \"PLAIN\" \"\x7bA\x7d\"\r\nAUTHENTICATE \"PLAIN\" \"B\"\r\n"]] []

/-- The client of two failed logins is told the capabilities once. -/
theorem main_announced_retries :
    Announced Config.starttls.opt (Session.run (main Config.starttls) 100 retries) :=
  main_announced Config.starttls rfl 100 retries (World.accepted_fresh ..)

end Perdition
