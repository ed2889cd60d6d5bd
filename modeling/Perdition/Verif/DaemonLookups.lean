import Perdition.DaemonMap
import Perdition.Lib.Datagrams
import Perdition.Verif.Retries
import Perdition.Verif.RoundTrip

/-!
# Lookups of a daemon map

Any number of processes look up keys, and one daemon answers. Datagrams are lost and overtake each
other, calls are interrupted, and a request may be sent again and answered more than once. A lookup
that returns an entry still returns the one of its own key, as what is on the way to a process is an
answer to its own request.
-/
namespace Perdition

open Lib

/-! ## Packets -/

/-- The strings of a packet that was built and cut to its length are read by the check of its kind
alone. -/
theorem PacketTravels.read {init : Option (List Byte) → Int × Option (List Byte)} {csType : UInt16}
    {strs : List (Option PacketText)} {own : List Byte → Except PacketError (List PacketStr)}
    {others : List (List Byte → Except PacketError (List PacketStr))}
    (travels : PacketTravels init csType strs own others) {packet : Option (List Byte)}
    {made : List Byte} (status : ¬ (init packet).1 < 0) (is : (init packet).2 = some made) :
    (∃ got, own (made.take (packetLength made)) = .ok got ∧
        List.Forall₂ (PacketStr.Holds (made.take (packetLength made))) got (strs.map packetText)) ∧
      ∀ other ∈ others, other (made.take (packetLength made)) = .error .invalid := by
  obtain ⟨_, found, length, is', read, _, taken, refused⟩ := travels.built packet status
  obtain rfl : made = found := Option.some_inj.mp (is.symm.trans is')
  have same : packetLength made = length := by
    rw [packetLength, read]
    rfl
  rw [same]
  exact ⟨taken, refused⟩

/-- A packet that passes the check of its kind is not longer than a packet may be. -/
theorem perditionPacketVerifyV1_short {flags count : Nat} {packet : List Byte}
    {strs : List PacketStr} (taken : perditionPacketVerifyV1 flags count packet = .ok strs) :
    packet.length ≤ perditionPacketMaxPacketLen := by
  by_contra long
  have head : perditionPacketVerifyV1Head packet ≠ .ok () := by
    intro passed
    unfold perditionPacketVerifyV1Head at passed
    split at passed
    · cases passed
    · cases magic : PacketHead.magic packet with
      | error why =>
        rw [magic] at passed
        cases passed
      | ok value =>
        rw [magic] at passed
        simp only [bind, Except.bind, not_le.mp long, if_true] at passed
        split at passed <;> cases passed
  unfold perditionPacketVerifyV1 at taken
  cases passed : perditionPacketVerifyV1Head packet with
  | error why =>
    rw [passed] at taken
    cases taken
  | ok value => exact head passed

/-- The bytes of a string are the ones it was built from. -/
theorem PacketStr.Holds.data {packet : List Byte} {str : PacketStr} {content : List Byte}
    (holds : str.Holds packet content) : packetStrData packet str = content := by
  obtain ⟨_, place⟩ := holds
  cases data : str.data with
  | none =>
    rw [data] at place
    rw [packetStrData, data, place]
  | some place' =>
    rw [data] at place
    rw [packetStrData, data]
    exact place.2

/-- The string of a packet that was received is the one that was sent. -/
theorem PacketStr.Holds.text {packet : List Byte} {str : PacketStr} {text : PacketText}
    (holds : str.Holds packet text.data) : packetStrText packet str = text := by
  have same : (packetStrText packet str).data = text.data := by
    change (packetStrData packet str).take (str.length % 2 ^ 16) = text.data
    rw [holds.data, holds.1, Nat.mod_eq_of_lt text.fits, List.take_length]
  cases text
  cases shape : packetStrText packet str
  rw [shape] at same
  cases same
  rfl

/-! ## The daemon -/

/-- The datagram of a packet. -/
def packetDatagram (packet : List Byte) : List Byte := packet.take (packetLength packet)

/-- The first string of a packet that was sent is found in it. -/
theorem first_text {packet : List Byte} {got : List PacketStr} {text : PacketText}
    {strs : List (Option PacketText)}
    (holds : List.Forall₂ (PacketStr.Holds packet) got ((some text :: strs).map packetText)) :
    got.head?.map (packetStrText packet) = some text := by
  obtain ⟨first, rest, here, _, rfl⟩ := List.forall₂_cons_right_iff.mp holds
  exact congrArg some (PacketStr.Holds.text here)

/-- The daemon finds the key in the packet of a lookup, of whichever kind it is. -/
theorem serverKey_dbserverGet2Packet {domainDelimiter keyStr : CString}
    {peername sockname : Option SockaddrStorage} {packet : List Byte}
    (made : dbserverGet2Packet domainDelimiter peername sockname keyStr = some packet) :
    (packetDatagram packet).length ≤ perditionPacketMaxPacketLen ∧
      serverKey (packetDatagram packet) = .ok (some (perditionPacketStrPack keyStr)) := by
  unfold dbserverGet2Packet at made
  split at made
  · obtain ⟨⟨saddr, sport⟩, _, made⟩ := Option.bind_eq_some_iff.mp made
    obtain ⟨⟨daddr, dport⟩, _, made⟩ := Option.bind_eq_some_iff.mp made
    have travels := packetTravels_of perditionPacketStrReq 0 0 0 0
      [some (perditionPacketStrPack keyStr), some (perditionPacketStrPack domainDelimiter),
        some (perditionPacketStrPack saddr), some (perditionPacketStrPack sport),
        some (perditionPacketStrPack daddr), some (perditionPacketStrPack dport)] 0
      [(perditionPacketReq, 2)] (by decide) (by decide)
    obtain ⟨status, is⟩ := Option.ite_none_left_eq_some.mp made
    obtain ⟨⟨got, taken, holds⟩, refused⟩ := travels.read status is
    have other : perditionPacketVerifyV1Req (packetDatagram packet) = .error .invalid :=
      refused _ (List.mem_singleton_self _)
    have own : perditionPacketVerifyV1StrReq (packetDatagram packet) = .ok got := taken
    refine ⟨perditionPacketVerifyV1_short taken, ?_⟩
    rw [serverKey, other, own]
    exact congrArg Except.ok (first_text holds)
  · have travels := packetTravels_of perditionPacketReq ((peername.map (·.sAddr)).getD 0)
      ((peername.map (·.sinPort)).getD 0) ((sockname.map (·.sAddr)).getD 0)
      ((sockname.map (·.sinPort)).getD 0)
      [some (perditionPacketStrPack keyStr), some (perditionPacketStrPack domainDelimiter)] 0 []
      (by decide) (by decide)
    obtain ⟨status, is⟩ := Option.ite_none_left_eq_some.mp made
    obtain ⟨⟨got, taken, holds⟩, _⟩ := travels.read status is
    have own : perditionPacketVerifyV1Req (packetDatagram packet) = .ok got := taken
    refine ⟨perditionPacketVerifyV1_short taken, ?_⟩
    rw [serverKey, own]
    exact congrArg Except.ok (first_text holds)

/-- Without an address of the newer kind the packet of a lookup is made where its strings have room. -/
theorem dbserverGet2Packet_made {domainDelimiter keyStr : CString}
    {peername sockname : Option SockaddrStorage}
    (older : (peername.any (·.inet6) || sockname.any (·.inet6)) = false)
    (fits : packetBodyLen [some (perditionPacketStrPack keyStr),
      some (perditionPacketStrPack domainDelimiter)] ≤ perditionPacketMaxBodyLen) :
    ∃ packet, dbserverGet2Packet domainDelimiter peername sockname keyStr = some packet := by
  have travels := packetTravels_of perditionPacketReq ((peername.map (·.sAddr)).getD 0)
    ((peername.map (·.sinPort)).getD 0) ((sockname.map (·.sAddr)).getD 0)
    ((sockname.map (·.sinPort)).getD 0)
    [some (perditionPacketStrPack keyStr), some (perditionPacketStrPack domainDelimiter)] 0 []
    (by decide) (by decide)
  have status := (travels.fails (some perditionPacketCreate)).not.mpr
    (not_or.mpr ⟨Nat.not_lt.mpr fits, by decide⟩)
  obtain ⟨_, packet, _, is, _⟩ := travels.built _ status
  refine ⟨packet, ?_⟩
  unfold dbserverGet2Packet
  rw [older]
  exact (if_neg status).trans is

/-- Whether a response for a key has room in a packet. -/
def ResponseFits (key response : CString) : Prop :=
  packetBodyLen [some (perditionPacketStrPack key), some (perditionPacketStrPack response), none] ≤
    perditionPacketMaxBodyLen

/-- What a lookup is answered: the key as the user, the server, and no port. -/
def daemonEntry (key response : CString) : MapResult :=
  .parts 0 (some (cstr (perditionPacketStrPack key).data))
    (some (cstr (perditionPacketStrPack response).data)) (some .empty)

/-- What is read of a packet with the strings of a response. -/
theorem dbserverGet2Return_response {key response : CString} {reply rest : List Byte}
    {got : List PacketStr} (taken : perditionPacketVerifyV1Rsp reply = .ok got)
    (holds : List.Forall₂ (PacketStr.Holds reply) got ([some (perditionPacketStrPack key),
      some (perditionPacketStrPack response), none].map packetText)) :
    dbserverGet2Return (reply ++ rest) reply.length = .ok (daemonEntry key response) := by
  obtain ⟨user, _, first, others, rfl⟩ := List.forall₂_cons_right_iff.mp holds
  obtain ⟨server, _, second, last, rfl⟩ := List.forall₂_cons_right_iff.mp others
  obtain ⟨port, _, third, none, rfl⟩ := List.forall₂_cons_right_iff.mp last
  obtain rfl := List.forall₂_nil_right_iff.mp none
  unfold dbserverGet2Return
  rw [if_neg (Int.not_lt.mpr (Int.natCast_nonneg _)), Int.toNat_natCast, List.take_left]
  dsimp only
  rw [taken]
  change Except.ok (MapResult.parts 0 (some (cstr (packetStrData reply user)))
    (some (cstr (packetStrData reply server))) (some (cstr (packetStrData reply port)))) = _
  rw [first.data, second.data, third.data]
  rfl

/-- The datagram that the daemon makes for a key, if it can. -/
def rspAnswer (key : PacketText) (response : CString) : Option (List Byte) :=
  let rsp := perditionPacketInitV1Rsp (some perditionPacketCreate) 0 (some key)
    (some (perditionPacketStrPack response)) none
  if rsp.1 < 0 then none else rsp.2.map packetDatagram

/-- The daemon answers where it finds a key. -/
theorem serverAnswer_found {response : CString} {datagram : List Byte} {key : PacketText}
    (found : serverKey (datagram.take perditionPacketMaxPacketLen) = .ok (some key)) :
    serverAnswer response datagram = .ok (rspAnswer key response) := by
  unfold serverAnswer rspAnswer
  rw [found]
  dsimp only [bind, Except.bind]
  generalize perditionPacketInitV1Rsp (some perditionPacketCreate) 0 (some key)
    (some (perditionPacketStrPack response)) none = rsp
  change (if rsp.1 < 0 then pure none else pure (rsp.2.map packetDatagram)) =
    Except.ok (if rsp.1 < 0 then none else rsp.2.map packetDatagram)
  split <;> rfl

/-- The daemon answers the packet of a lookup exactly where the response has room, and the answer is
read as the entry. -/
theorem serverAnswer_dbserverGet2Packet (response : CString) {domainDelimiter keyStr : CString}
    {peername sockname : Option SockaddrStorage} {packet : List Byte}
    (made : dbserverGet2Packet domainDelimiter peername sockname keyStr = some packet) :
    ∃ answer, serverAnswer response (packetDatagram packet) = .ok answer ∧
      (answer.isSome ↔ ResponseFits keyStr response) ∧
      ∀ reply, answer = some reply → reply.length ≤ perditionPacketMaxPacketLen ∧
        ∀ rest, dbserverGet2Return (reply ++ rest) reply.length =
          .ok (daemonEntry keyStr response) := by
  obtain ⟨short, key⟩ := serverKey_dbserverGet2Packet made
  have travels : PacketTravels
      (fun packet => perditionPacketInitV1Rsp packet 0 (some (perditionPacketStrPack keyStr))
        (some (perditionPacketStrPack response)) none) 0
      [some (perditionPacketStrPack keyStr), some (perditionPacketStrPack response), none]
      perditionPacketVerifyV1Rsp [] :=
    packetTravels_of perditionPacketRsp 0 0 0 0 _ 0 [] (by decide) (by decide)
  rw [← List.take_of_length_le short] at key
  refine ⟨_, serverAnswer_found key, ?_, ?_⟩
  · have fails := travels.fails (some perditionPacketCreate)
    rw [or_iff_left (show ¬ (0 : UInt16).toNat ≠ perditionPacketCsNone by decide)] at fails
    rw [ResponseFits, ← not_lt, ← fails]
    constructor
    · intro isSome failed
      rw [rspAnswer, if_pos failed] at isSome
      cases isSome
    · intro status
      obtain ⟨_, rsp, _, is, _⟩ := travels.built _ status
      rw [rspAnswer, if_neg status]
      exact Option.isSome_map.trans (Option.isSome_of_eq_some is)
  · intro reply found
    obtain ⟨status, mapped⟩ := Option.ite_none_left_eq_some.mp found
    obtain ⟨rsp, is, rfl⟩ := Option.map_eq_some_iff.mp mapped
    obtain ⟨⟨got, taken, holds⟩, _⟩ := travels.read status is
    exact ⟨perditionPacketVerifyV1_short taken, fun rest => dbserverGet2Return_response taken holds⟩

/-! ## A call among others -/

/-- A datagram that `recvfrom` gives is from the server. -/
def UnWait.FromServer (peerName : CString) (wait : UnWait) : Prop :=
  ∀ sunPath bytes, wait = .ready (.datagram sunPath bytes) → sunPath = peerName

theorem UnWait.fromServer_timeout (peerName : CString) :
    UnWait.timeout.FromServer peerName := by
  rintro sunPath bytes same
  cases same

/-- What others see of a pass. -/
def unSeen (request : UnRequest) (sent : Sendto) (wait : UnWait) (v : UnVars) : Act (List Byte) :=
  match v.phase with
  | .sending =>
    if v.attempt < request.retry ∧ sent.ok request.sendLen = true
    then .sends (v.msg.take request.sendLen) else .silent
  | .receiving => match wait with
    | .ready (.datagram _ bytes) => .hears bytes
    | _ => .silent
  | .returned _ => .silent

/-- The passes of a call whose socket only the server writes to. -/
def UnMoves (request : UnRequest) (v : UnVars) (act : Act (List Byte)) (v' : UnVars) : Prop :=
  ∃ sent wait, wait.FromServer request.peerName ∧ unSeen request sent wait v = act ∧
    unPass request (fun _ => sent) (fun _ => wait) v = v'

/-- A call is one of `perdition_un_send_recv`. -/
def UnCalled (request : UnRequest) (v : UnVars) : Prop :=
  ∃ sends waits passes, perditionUnSendRecv request sends waits passes = v

/-- A pass of the first loop calls `sendto` once. -/
theorem sendPass_calls (request : UnRequest) (sent : Sendto) (v : UnVars) :
    (sendPass request sent v).sendCalls = v.sendCalls + 1 ∧
      (sendPass request sent v).waitCalls = v.waitCalls := by
  rcases @sendPass_cases request sent v with
    ⟨_, pass⟩ | ⟨_, pass⟩ | ⟨_, pause, pass⟩ | ⟨_, pass⟩
  all_goals
    rw [pass]
    exact ⟨rfl, rfl⟩

/-- A pass of the second loop waits once. -/
theorem waitPass_calls (request : UnRequest) (wait : UnWait) (v : UnVars) :
    (waitPass request wait v).sendCalls = v.sendCalls ∧
      (waitPass request wait v).waitCalls = v.waitCalls + 1 := by
  rcases @waitPass_cases request wait v with
    ⟨_, _, pass⟩ | ⟨_, pass⟩ | ⟨_, _, bytes, pass, _⟩
  all_goals
    rw [pass]
    exact ⟨rfl, rfl⟩

/-- The passes so far depend only on what was returned so far. -/
theorem perditionUnSendRecv_congr {request : UnRequest} {sends sends' : Nat → Sendto}
    {waits waits' : Nat → UnWait} (passes : Nat)
    (sent : ∀ k < (perditionUnSendRecv request sends waits passes).sendCalls, sends' k = sends k)
    (waited : ∀ k < (perditionUnSendRecv request sends waits passes).waitCalls,
      waits' k = waits k) :
    perditionUnSendRecv request sends' waits' passes =
      perditionUnSendRecv request sends waits passes := by
  induction passes with
  | zero => rfl
  | succ passes ih =>
    simp only [perditionUnSendRecv] at sent waited ⊢
    generalize perditionUnSendRecv request sends waits passes = v at *
    unfold unPass at sent waited ⊢
    cases phase : v.phase with
    | sending =>
      rw [phase] at sent waited
      by_cases more : v.attempt < request.retry
      · simp only [if_pos more, sendPass_calls] at sent waited
        rw [ih (fun k below => sent k (Nat.lt_succ_of_lt below)) waited, phase]
        simp only [sent v.sendCalls (Nat.lt_succ_self _)]
      · simp only [if_neg more] at sent waited
        rw [ih sent waited, phase]
        simp only [if_neg more]
    | receiving =>
      rw [phase] at sent waited
      simp only [waitPass_calls] at sent waited
      rw [ih sent fun k below => waited k (Nat.lt_succ_of_lt below), phase]
      simp only [waited v.waitCalls (Nat.lt_succ_self _)]
    | returned bytes =>
      rw [phase] at sent waited
      rw [ih sent waited, phase]

/-- A pass is one more. -/
theorem UnCalled.pass {request : UnRequest} {v : UnVars} (called : UnCalled request v)
    (sent : Sendto) (wait : UnWait) :
    UnCalled request (unPass request (fun _ => sent) (fun _ => wait) v) := by
  obtain ⟨sends, waits, passes, rfl⟩ := called
  generalize here : perditionUnSendRecv request sends waits passes = v
  let sends' := Function.update sends v.sendCalls sent
  let waits' := Function.update waits v.waitCalls wait
  have before : perditionUnSendRecv request sends' waits' passes = v := by
    rw [← here]
    refine perditionUnSendRecv_congr passes (fun k below => ?_) (fun k below => ?_)
    · rw [here] at below
      exact Function.update_of_ne (Nat.ne_of_lt below) _ _
    · rw [here] at below
      exact Function.update_of_ne (Nat.ne_of_lt below) _ _
  refine ⟨sends', waits', passes + 1, ?_⟩
  rw [perditionUnSendRecv, before]
  unfold unPass
  simp only [sends', waits', Function.update_self]

/-- What holds of a call whose request is answered so, and which hears no other answers. -/
structure UnFine (request : UnRequest) (answered : List Byte → Prop) (v : UnVars) : Prop where
  /-- It is a call. -/
  called : UnCalled request v
  /-- It sends only its request. -/
  texts : ∀ text ∈ v.transmitted, text = request.msg.take request.sendLen
  /-- It waits for a reply only while it may send the request again. -/
  more : v.phase = .receiving → v.attempt < request.retry
  /-- What it has returned is for a reply. -/
  reply : ∀ bytes, v.phase = .returned bytes → bytes = -1 ∨ ∃ reply, answered reply ∧
    v.msg = recvInto request.recvLen reply request.msg ∧
    bytes = (reply.take request.recvLen).length
  /-- The request is kept until then. -/
  msg : (∀ bytes, v.phase ≠ .returned bytes) → v.msg = request.msg

theorem unFine_begins (request : UnRequest) (answered : List Byte → Prop) (sends : Nat → Sendto)
    (waits : Nat → UnWait) :
    UnFine request answered (perditionUnSendRecv request sends waits 0) where
  called := ⟨sends, waits, 0, rfl⟩
  texts _ sent := absurd sent List.not_mem_nil
  more phase := by cases phase
  reply _ phase := by cases phase
  msg _ := rfl

section Passes

variable {request : UnRequest} {answered : List Byte → Prop} {v : UnVars}

/-- While a call goes on the request is kept. -/
theorem UnFine.kept (fine : UnFine request answered v) {phase : UnPhase} (is : v.phase = phase)
    (goes : ∀ bytes, phase ≠ .returned bytes) : v.msg = request.msg :=
  fine.msg fun bytes => is ▸ goes bytes

/-- A pass of the first loop sends the request or nothing. -/
theorem UnFine.sendPass (fine : UnFine request answered v) (phase : v.phase = .sending)
    (more : v.attempt < request.retry) (sent : Sendto)
    (called : UnCalled request (Perdition.sendPass request sent v)) :
    UnFine request answered (Perdition.sendPass request sent v) := by
  have kept := fine.kept phase fun _ => UnPhase.noConfusion
  rcases @sendPass_cases request sent v with
    ⟨_, pass⟩ | ⟨_, pass⟩ | ⟨_, pause, pass⟩ | ⟨_, pass⟩
  all_goals rw [pass] at called ⊢
  · refine ⟨called, fun text member => ?_, fun _ => more, fun _ other => ?_, fun _ => kept⟩
    · rcases List.mem_append.mp member with old | new
      · exact fine.texts text old
      · rw [List.mem_singleton.mp new, kept]
    · cases other
  · exact ⟨called, fine.texts, fine.more, fine.reply, fine.msg⟩
  · refine ⟨called, fine.texts, fun other => ?_, fine.reply, fine.msg⟩
    cases phase.symm.trans other
  · refine ⟨called, fine.texts, fun other => ?_, fun bytes other => ?_, fun goes => ?_⟩
    · cases other
    · cases other
      exact .inl rfl
    · exact absurd rfl (goes (-1))

/-- A pass of the second loop takes a reply of the server or nothing. -/
theorem UnFine.waitPass (fine : UnFine request answered v) (phase : v.phase = .receiving)
    {wait : UnWait} (own : wait.FromServer request.peerName)
    (heard : ∀ sunPath reply, wait = .ready (.datagram sunPath reply) → answered reply)
    (called : UnCalled request (Perdition.waitPass request wait v)) :
    UnFine request answered (Perdition.waitPass request wait v) := by
  have kept := fine.kept phase fun _ => UnPhase.noConfusion
  have same : (∀ sunPath reply, wait ≠ .ready (.datagram sunPath reply)) →
      wait.received request.recvLen v.msg = v.msg := by
    intro nothing
    unfold UnWait.received
    split
    · exact absurd rfl (nothing _ _)
    · rfl
  rcases @waitPass_cases request wait v with
    ⟨idle, _, pass⟩ | ⟨late, pass⟩ | ⟨_, _, bytes, pass, result⟩
  all_goals rw [pass] at called ⊢
  · have nothing : ∀ sunPath reply, wait ≠ .ready (.datagram sunPath reply) := by
      rintro sunPath reply rfl
      exact (of_decide_eq_true idle) (own _ _ rfl)
    refine ⟨called, fine.texts, fine.more, fun bytes other => ?_, fun _ =>
      (same nothing).trans kept⟩
    cases phase.symm.trans other
  · have nothing : ∀ sunPath reply, wait ≠ .ready (.datagram sunPath reply) := by
      rintro sunPath reply rfl
      cases late
    refine ⟨called, fine.texts, fun other => ?_, fun bytes other => ?_,
      fun _ => (same nothing).trans kept⟩
    · cases other
    · cases other
  · refine ⟨called, fine.texts, fun other => ?_, fun bytes' other => ?_, fun goes =>
      absurd rfl (goes bytes)⟩
    · cases other
    · cases other
      rcases result with failed | ⟨reply, rfl, count⟩
      · exact .inl failed
      · refine .inr ⟨reply, heard _ _ rfl, ?_, count⟩
        rw [← kept]
        rfl

/-- A pass keeps what holds, and others see only the request. -/
theorem UnFine.pass {v' : UnVars} {act : Act (List Byte)} (fine : UnFine request answered v)
    (move : UnMoves request v act v') (heard : ∀ reply, act = .hears reply → answered reply) :
    UnFine request answered v' ∧
      ∀ text, act = .sends text → text = request.msg.take request.sendLen := by
  obtain ⟨sent, wait, own, rfl, rfl⟩ := move
  have called := fine.called.pass sent wait
  unfold unSeen at heard ⊢
  unfold unPass at called ⊢
  cases phase : v.phase with
  | sending =>
    rw [phase] at called
    have kept := fine.kept phase fun _ => UnPhase.noConfusion
    by_cases more : v.attempt < request.retry
    · simp only [if_pos more] at called ⊢
      refine ⟨fine.sendPass phase more sent called, fun text sends => ?_⟩
      split at sends
      · cases sends
        rw [kept]
      · cases sends
    · simp only [if_neg more] at called ⊢
      refine ⟨⟨called, fine.texts, fun other => ?_, fun bytes other => ?_, fun goes => ?_⟩,
        fun text sends => ?_⟩
      · cases other
      · cases other
        exact .inl rfl
      · exact absurd rfl (goes (-1))
      · rw [if_neg fun both => more both.1] at sends
        cases sends
  | receiving =>
    rw [phase] at called heard
    refine ⟨fine.waitPass phase own ?_ called, fun text sends => ?_⟩
    · rintro sunPath reply rfl
      exact heard reply rfl
    · dsimp only at sends
      split at sends <;> cases sends
  | returned bytes => exact ⟨fine, fun text sends => by cases sends⟩

end Passes

/-! ## Lookups -/

/-- A call of `dbserver_get2`. -/
structure Lookup where
  /-- The variables of the map. -/
  map : DaemonMap
  /-- `opt.domain_delimiter`. -/
  domainDelimiter : CString
  /-- `peername`. -/
  peername : Option SockaddrStorage
  /-- `sockname`. -/
  sockname : Option SockaddrStorage
  /-- `key_str`. -/
  keyStr : CString

namespace Lookup

variable (lookup : Lookup)

/-- Its packet. -/
def packet : Option (List Byte) :=
  dbserverGet2Packet lookup.domainDelimiter lookup.peername lookup.sockname lookup.keyStr

/-- Where it calls `perdition_un_send_recv`. -/
def begins : UnVars :=
  perditionUnSendRecv (lookup.map.request (lookup.packet.getD [])) (fun _ => ⟨0, .other⟩)
    (fun _ => .timeout) 0

/-- Its steps from there on. It takes none without a packet. -/
def Moves (v : UnVars) (act : Act (List Byte)) (v' : UnVars) : Prop :=
  ∃ packet, lookup.packet = some packet ∧ UnMoves (lookup.map.request packet) v act v'

/-- What it returns, once it does. -/
def returns (v : UnVars) : Option (Except PacketError MapResult) :=
  match lookup.packet, v.phase with
  | none, _ => some (.ok (.failed (-1)))
  | some _, .returned bytes => some (dbserverGet2Return v.msg bytes)
  | some _, _ => none

end Lookup

/-- What the daemon sends for a datagram: nothing is known of it where more is read than was
received. -/
def DaemonAnswers (response : CString) (request reply : List Byte) : Prop :=
  ∀ answer, serverAnswer response request = .ok answer → answer = some reply

/-- Lookups and a daemon, joined by datagrams. -/
abbrev Lookups {ι : Type} [DecidableEq ι] (response : CString) (lookups : ι → Lookup) :
    Net ι UnVars (List Byte) → Net ι UnVars (List Byte) → Prop :=
  Net.Reaches (fun i => (lookups i).Moves) (DaemonAnswers response)

section Lookups

variable {ι : Type} {response : CString} {lookups : ι → Lookup}

/-- What holds of a lookup. -/
def LookupFine (response : CString) (lookup : Lookup) (v : UnVars) : Prop :=
  ∀ packet, lookup.packet = some packet →
    UnFine (lookup.map.request packet) (DaemonAnswers response (packetDatagram packet)) v

/-- What a lookup asks. -/
def LookupAsks (lookup : Lookup) (request : List Byte) : Prop :=
  ∃ packet, lookup.packet = some packet ∧ request = packetDatagram packet

/-- Steps of lookups keep what holds of them. -/
theorem lookups_keep (response : CString) (lookups : ι → Lookup) :
    Net.Keeps (fun i => (lookups i).Moves) (DaemonAnswers response)
      (fun i => LookupFine response (lookups i)) (fun i => LookupAsks (lookups i)) where
  silent := by
    rintro i v v' fine ⟨packet, made, move⟩ packet' made'
    cases made.symm.trans made'
    exact ((fine packet made).pass move fun reply hears => by cases hears).1
  sends := by
    rintro i v v' text fine ⟨packet, made, move⟩
    have step := (fine packet made).pass move fun reply hears => by cases hears
    refine ⟨⟨packet, made, step.2 text rfl⟩, fun packet' made' => ?_⟩
    cases made.symm.trans made'
    exact step.1
  hears := by
    rintro i v v' request reply fine ⟨packet, made, rfl⟩ answers ⟨packet', made', move⟩ packet''
      made''
    cases made.symm.trans made'
    cases made.symm.trans made''
    refine ((fine packet made).pass move ?_).1
    rintro reply' hears
    cases hears
    exact answers

/-- What holds of lookups holds in every run. -/
theorem lookups_hold [DecidableEq ι] {n : Net ι UnVars (List Byte)}
    (run : Lookups response lookups (Net.start fun i => (lookups i).begins) n) :
    n.Holds (DaemonAnswers response) (fun i => LookupFine response (lookups i))
      (fun i => LookupAsks (lookups i)) := by
  refine (Net.holds_start fun i packet made => ?_).reaches (lookups_keep response lookups) run
  unfold Lookup.begins
  rw [made]
  exact unFine_begins _ _ _ _

/-- What a lookup returns is a failure or the entry of its key. -/
theorem LookupFine.returns {lookup : Lookup} {v : UnVars} (fine : LookupFine response lookup v)
    {outcome : Except PacketError MapResult} (returned : lookup.returns v = some outcome) :
    outcome = .ok (.failed (-1)) ∨
      ResponseFits lookup.keyStr response ∧ outcome = .ok (daemonEntry lookup.keyStr response) := by
  unfold Lookup.returns at returned
  split at returned
  · cases returned
    exact .inl rfl
  · rename_i packet bytes made phase
    cases returned
    obtain ⟨answer, answered, fits, read⟩ := serverAnswer_dbserverGet2Packet response made
    rcases (fine packet made).reply bytes phase with rfl | ⟨reply, answers, msg, rfl⟩
    · exact .inl rfl
    · obtain rfl := answers answer answered
      obtain ⟨short, entry⟩ := read reply rfl
      refine .inr ⟨fits.mp rfl, ?_⟩
      rw [msg, recvInto, show (lookup.map.request packet).recvLen = perditionPacketMaxPacketLen
        from rfl, List.take_of_length_le short]
      exact entry _
  · cases returned

variable [DecidableEq ι]

/-- A lookup that may send its request can be answered. -/
theorem lookup_answered_sending {n : Net ι UnVars (List Byte)} {i : ι} {packet : List Byte}
    (made : (lookups i).packet = some packet)
    (fine : UnFine ((lookups i).map.request packet) (DaemonAnswers response (packetDatagram packet))
      (n.clients i))
    (phase : (n.clients i).phase = .sending)
    (more : (n.clients i).attempt < (lookups i).map.maxRetry)
    (fits : ResponseFits (lookups i).keyStr response) :
    ∃ n', Lookups response lookups n n' ∧
      (lookups i).returns (n'.clients i) = some (.ok (daemonEntry (lookups i).keyStr response)) := by
  generalize here : n.clients i = v at fine phase more
  let request := (lookups i).map.request packet
  have kept : v.msg = packet := fine.kept phase fun _ => UnPhase.noConfusion
  obtain ⟨answer, answered, room, read⟩ :=
    serverAnswer_dbserverGet2Packet response made
  obtain ⟨reply, rfl⟩ := Option.isSome_iff_exists.mp (room.mpr fits)
  obtain ⟨short, entry⟩ := read reply rfl
  -- everything is sent
  let sent : Sendto := ⟨request.sendLen, .other⟩
  have whole : ¬ (sent.bytes < 0 ∨ sent.bytes ≠ request.sendLen) := by simp [sent]
  let asked : UnVars := { v with
    sendCalls := v.sendCalls + 1
    transmitted := v.transmitted ++ [v.msg.take request.sendLen]
    phase := .receiving
    pause := request.timeout }
  have first : (lookups i).Moves (n.clients i) (.sends (packetDatagram packet)) asked := by
    refine ⟨packet, made, sent, .timeout, UnWait.fromServer_timeout _, ?_, ?_⟩
    · unfold unSeen
      rw [here, phase]
      dsimp only
      rw [if_pos ⟨more, decide_eq_true whole⟩, kept]
      rfl
    · rw [here, unPass, phase]
      exact (if_pos more).trans (if_neg whole)
  -- the reply is taken
  let taken : UnVars := { asked with
    waitCalls := asked.waitCalls + 1
    msg := recvInto request.recvLen reply asked.msg
    phase := .returned (reply.take request.recvLen).length }
  have second : (lookups i).Moves asked (.hears reply) taken := by
    refine ⟨packet, made, sent, .ready (.datagram request.peerName reply), ?_, rfl, ?_⟩
    · rintro sunPath bytes same
      cases same
      rfl
    · exact if_neg (not_not.mpr rfl)
  let n₁ : Net ι UnVars (List Byte) := { n with
    clients := Function.update n.clients i asked
    requests := (i, packetDatagram packet) :: n.requests }
  let n₂ : Net ι UnVars (List Byte) := { n₁ with replies := (i, reply) :: n₁.replies }
  let n₃ : Net ι UnVars (List Byte) := { n₂ with clients := Function.update n₂.clients i taken }
  have sends : Net.Step (fun i => (lookups i).Moves) (DaemonAnswers response) n n₁ := .sends first
  have serves : Net.Step (fun i => (lookups i).Moves) (DaemonAnswers response) n₁ n₂ :=
    .serves List.mem_cons_self fun other same => Except.ok.inj (same.symm.trans answered)
  have hears : Net.Step (fun i => (lookups i).Moves) (DaemonAnswers response) n₂ n₃ := by
    refine .hears ?_ List.mem_cons_self
    rw [show n₂.clients i = asked from Function.update_self i asked n.clients]
    exact second
  refine ⟨n₃, ((Relation.ReflTransGen.single sends).tail serves).tail hears, ?_⟩
  rw [show n₃.clients i = taken from Function.update_self i taken n₂.clients, Lookup.returns, made]
  change some (dbserverGet2Return (recvInto perditionPacketMaxPacketLen reply v.msg)
    (reply.take perditionPacketMaxPacketLen).length) = _
  rw [recvInto, List.take_of_length_le short, entry]

/-- A lookup that is not given up can be answered. -/
theorem lookup_answered {n : Net ι UnVars (List Byte)} {i : ι} {packet : List Byte}
    (made : (lookups i).packet = some packet)
    (fine : UnFine ((lookups i).map.request packet) (DaemonAnswers response (packetDatagram packet))
      (n.clients i))
    (goes : ∀ bytes, (n.clients i).phase ≠ .returned bytes)
    (more : (n.clients i).phase = .sending → (n.clients i).attempt < (lookups i).map.maxRetry)
    (fits : ResponseFits (lookups i).keyStr response) :
    ∃ n', Lookups response lookups n n' ∧
      (lookups i).returns (n'.clients i) = some (.ok (daemonEntry (lookups i).keyStr response)) := by
  cases phase : (n.clients i).phase with
  | sending => exact lookup_answered_sending made fine phase (more phase) fits
  | receiving =>
    -- it gives up waiting and asks again
    let request := (lookups i).map.request packet
    let again := waitPass request .timeout (n.clients i)
    have late : UnMoves request (n.clients i) .silent again := by
      refine ⟨⟨0, .other⟩, .timeout, UnWait.fromServer_timeout _, ?_, ?_⟩
      · unfold unSeen
        rw [phase]
      · rw [unPass, phase]
    let n₁ : Net ι UnVars (List Byte) := { n with clients := Function.update n.clients i again }
    have silent : Net.Step (fun i => (lookups i).Moves) (DaemonAnswers response) n n₁ :=
      .silent ⟨packet, made, late⟩
    have now : n₁.clients i = again := Function.update_self i again n.clients
    have fine' := (fine.pass late fun reply hears => by cases hears).1
    rw [← now] at fine'
    obtain ⟨n', run, entry⟩ := lookup_answered_sending made fine' (by rw [now]; rfl)
      (by rw [now]; exact fine.more phase) fits
    exact ⟨n', .head silent run, entry⟩
  | returned bytes => exact absurd phase (goes bytes)

end Lookups

/-- Two lookups of different keys. -/
def twoLookups (second : Bool) : Lookup where
  map := .unset
  domainDelimiter := lit "@"
  peername := none
  sockname := none
  keyStr := if second then lit "ben" else lit "ann"

end Perdition
