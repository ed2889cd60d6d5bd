import Perdition.Packet

/-!
# Packets that are verified safely

A packet is verified safely when only bytes that were received are read, and when one that is
accepted is exactly as long as its header says and is filled by its strings. The checks do so unless
the strings lead beyond the received bytes before the length of the header is looked at, or the
length of the header is not the received one.
-/
namespace Perdition

/-- The place after so many strings that start at a place, where their lengths were received. -/
def stringsEnd (packet : List Byte) : Nat → Nat → Option Nat
  | 0, place => some place
  | count + 1, place => match ntohs packet place with
    | .error _ => none
    | .ok length => stringsEnd packet count (place + 2 + length)

/-- The bytes that a list of strings takes, each after its length. -/
def stringsLength (strs : List PacketStr) : Nat := (strs.map fun str => 2 + str.length).sum

/-- A packet was verified safely. -/
structure PacketSafe (packet : List Byte) (outcome : Except PacketError (List PacketStr)) :
    Prop where
  /-- Only received bytes were read. -/
  received : outcome ≠ .error .beyond
  /-- An accepted packet is as long as its header says. -/
  whole : ∀ strs, outcome = .ok strs → PacketHead.length packet = .ok packet.length
  /-- Its strings fill the body. -/
  filled : ∀ strs, outcome = .ok strs →
    perditionPacketHeadLen + stringsLength strs = packet.length
  /-- Each of them lies in the packet. -/
  within : ∀ strs, outcome = .ok strs → ∀ str ∈ strs, ∀ place, str.data = some place →
    perditionPacketHeadLen ≤ place ∧ place + str.length ≤ packet.length

/-- A packet that the checks of its header let pass has all its strings in the received bytes, and
is refused for the length in its header or has the length it was received with. -/
def PacketFits (flags count : Nat) (packet : List Byte) : Prop :=
  perditionPacketVerifyV1Head packet = .ok () → PacketHead.flags packet = .ok flags →
    ∃ stop, stringsEnd packet count perditionPacketHeadLen = some stop ∧
      (PacketHead.length packet = .ok stop →
        stop - perditionPacketHeadLen ≤ perditionPacketMaxBodyLen → stop = packet.length)

/-- A field of two received bytes is read. -/
theorem ntohs_received {packet : List Byte} {place : Nat} (received : place + 2 ≤ packet.length) :
    ∃ value, ntohs packet place = .ok value := by
  unfold ntohs
  match shape : packet.drop place with
  | high :: low :: _ => exact ⟨_, rfl⟩
  | [] =>
    have short := congrArg List.length shape
    simp only [List.length_drop, List.length_nil] at short
    omega
  | [_] =>
    have short := congrArg List.length shape
    simp only [List.length_drop, List.length_singleton] at short
    omega

/-- A field that is not read was not received. -/
theorem ntohs_error {packet : List Byte} {place : Nat} {why : PacketError}
    (read : ntohs packet place = .error why) : why = .beyond := by
  unfold ntohs at read
  split at read <;> simp_all

/-! ## The parts of the check -/

/-- The checks of the header read the header only, where it was received. -/
theorem perditionPacketVerifyV1Head_received (packet : List Byte) :
    perditionPacketVerifyV1Head packet ≠ .error .beyond := by
  unfold perditionPacketVerifyV1Head
  split
  · simp
  · rename_i long
    simp only [perditionPacketHeadLen, not_lt] at long
    obtain ⟨high, readHigh⟩ := ntohs_received (show 0 + 2 ≤ packet.length by omega)
    obtain ⟨low, readLow⟩ := ntohs_received (show 2 + 2 ≤ packet.length by omega)
    obtain ⟨length, readLength⟩ := ntohs_received (show 8 + 2 ≤ packet.length by omega)
    obtain ⟨csType, readCs⟩ := ntohs_received (show 10 + 2 ≤ packet.length by omega)
    have magic : PacketHead.magic packet = .ok (high * 65536 + low) := by
      simp only [PacketHead.magic, ntohl, readHigh, Nat.zero_add, readLow]
      rfl
    simp only [magic, PacketHead.length, readLength, PacketHead.csType, readCs]
    change (if _ then _ else if _ then _ else if _ then _ else _) ≠ _
    split_ifs <;> simp

/-- A packet whose header is let pass holds the header. -/
theorem perditionPacketVerifyV1Head_length {packet : List Byte}
    (passed : perditionPacketVerifyV1Head packet = .ok ()) :
    perditionPacketHeadLen ≤ packet.length := by
  unfold perditionPacketVerifyV1Head at passed
  split at passed
  · simp at passed
  · omega

/-- The strings are read one after another, up to the place where they end. -/
theorem packetStrsGet_some {packet : List Byte} (count : Nat) :
    ∀ {place stop : Nat}, stringsEnd packet count place = some stop →
      ∃ strs, packetStrsGet packet count place = .ok (strs, stop) ∧
        place + stringsLength strs = stop ∧
        ∀ str ∈ strs, ∀ at_, str.data = some at_ → place ≤ at_ ∧ at_ + str.length ≤ stop := by
  induction count with
  | zero =>
    intro place stop ends
    simp only [stringsEnd, Option.some.injEq] at ends
    subst ends
    exact ⟨[], rfl, rfl, fun str member => by simp at member⟩
  | succ count ih =>
    intro place stop ends
    cases read : ntohs packet place with
    | error why => simp [stringsEnd, read] at ends
    | ok length =>
      simp only [stringsEnd, read] at ends
      obtain ⟨strs, rest, sum, within⟩ := ih ends
      refine ⟨⟨length, if length = 0 then none else some (place + 2)⟩ :: strs, ?_, ?_, ?_⟩
      · simp only [packetStrsGet, packetStrGet, read, Bind.bind, Except.bind, Pure.pure, Except.pure,
          rest]
      · simp only [stringsLength, List.map_cons, List.sum_cons] at sum ⊢
        omega
      · intro str member at_ data
        have fits : place + 2 + length ≤ stop := by omega
        rcases List.mem_cons.mp member with rfl | member
        · simp only [Option.ite_none_left_eq_some, Option.some.injEq] at data
          obtain ⟨-, rfl⟩ := data
          exact ⟨by omega, fits⟩
        · have inner := within str member at_ data
          omega

/-- A length that was not received is read beyond the packet. -/
theorem packetStrsGet_none {packet : List Byte} (count : Nat) :
    ∀ {place : Nat}, stringsEnd packet count place = none →
      packetStrsGet packet count place = .error .beyond := by
  induction count with
  | zero => exact fun ends => by simp [stringsEnd] at ends
  | succ count ih =>
    intro place ends
    cases read : ntohs packet place with
    | error why =>
      obtain rfl := ntohs_error read
      simp only [packetStrsGet, packetStrGet, read]
      rfl
    | ok length =>
      simp only [stringsEnd, read] at ends
      simp only [packetStrsGet, packetStrGet, read, Bind.bind, Except.bind, Pure.pure, Except.pure,
        ih ends]

/-- The last check accepts a body that ends where the length in the header says. -/
theorem perditionPacketVerifyV1Tail_cases {packet : List Byte} {stop length : Nat}
    (read : PacketHead.length packet = .ok length) (after : perditionPacketHeadLen ≤ stop) :
    perditionPacketVerifyV1Tail packet (stop - perditionPacketHeadLen) =
      if stop - perditionPacketHeadLen ≤ perditionPacketMaxBodyLen ∧ stop = length then .ok ()
      else .error .invalid := by
  have whole : stop - perditionPacketHeadLen + perditionPacketHeadLen = stop := by omega
  unfold perditionPacketVerifyV1Tail
  rw [read, whole]
  change (if _ then _ else if stop ≠ length then _ else _) = _
  by_cases fits : stop - perditionPacketHeadLen ≤ perditionPacketMaxBodyLen
  · rw [if_neg (by omega)]
    by_cases same : stop = length
    · rw [if_neg (by simpa using same), if_pos ⟨fits, same⟩]
    · rw [if_pos same, if_neg fun both => same both.2]
  · rw [if_pos (by omega), if_neg fun both => fits both.1]

/-! ## The whole check -/

/-- A packet that is refused without reading beyond it is verified safely. -/
theorem packetSafe_invalid (packet : List Byte) : PacketSafe packet (.error .invalid) :=
  ⟨by simp, fun _ same => by simp at same, fun _ same => by simp at same,
    fun _ same => by simp at same⟩

/-- A packet whose header is let pass is checked string by string. -/
theorem perditionPacketVerifyV1_eq {flags count : Nat} {packet : List Byte}
    (passed : perditionPacketVerifyV1Head packet = .ok ())
    (kind : PacketHead.flags packet = .ok flags) :
    perditionPacketVerifyV1 flags count packet =
      (packetStrsGet packet count perditionPacketHeadLen).bind fun got =>
        (perditionPacketVerifyV1Tail packet (got.2 - perditionPacketHeadLen)).bind fun _ =>
          .ok got.1 := by
  unfold perditionPacketVerifyV1
  rw [passed, kind]
  change (if flags ≠ flags then _ else _) = _
  rw [if_neg (by simp)]
  rfl

/-- A packet is verified safely exactly where its strings were received and its length is the one in
its header. -/
theorem perditionPacketVerifyV1_safe (flags count : Nat) (packet : List Byte) :
    PacketSafe packet (perditionPacketVerifyV1 flags count packet) ↔
      PacketFits flags count packet := by
  cases passed : perditionPacketVerifyV1Head packet with
  | error why =>
    obtain rfl : why = .invalid := by
      have received := perditionPacketVerifyV1Head_received packet
      cases why <;> simp_all
    have refused : perditionPacketVerifyV1 flags count packet = .error .invalid := by
      unfold perditionPacketVerifyV1
      rw [passed]
      rfl
    rw [refused]
    exact iff_of_true (packetSafe_invalid packet) fun let_ => by simp [passed] at let_
  | ok _ =>
    have long := perditionPacketVerifyV1Head_length passed
    simp only [perditionPacketHeadLen] at long
    obtain ⟨kind, readKind⟩ := ntohs_received (show 6 + 2 ≤ packet.length by omega)
    obtain ⟨length, read⟩ := ntohs_received (show 8 + 2 ≤ packet.length by omega)
    by_cases same : kind = flags
    · subst same
      rw [perditionPacketVerifyV1_eq passed readKind]
      cases ends : stringsEnd packet count perditionPacketHeadLen with
      | none =>
        rw [packetStrsGet_none count ends]
        refine iff_of_false (fun safe => safe.received rfl) fun fits => ?_
        obtain ⟨stop, here, -⟩ := fits passed readKind
        simp [ends] at here
      | some stop =>
        obtain ⟨strs, got, sum, within⟩ := packetStrsGet_some count ends
        have after : perditionPacketHeadLen ≤ stop := by omega
        rw [got]
        simp only [Except.bind]
        rw [perditionPacketVerifyV1Tail_cases read after]
        by_cases accepted : stop - perditionPacketHeadLen ≤ perditionPacketMaxBodyLen ∧
            stop = length
        · rw [if_pos accepted]
          obtain ⟨room, rfl⟩ := accepted
          constructor
          · intro safe _ _
            have whole := safe.whole strs rfl
            refine ⟨stop, ends, fun _ _ => ?_⟩
            rw [show PacketHead.length packet = .ok stop from read, Except.ok.injEq] at whole
            exact whole
          · intro fits
            obtain ⟨stop', here, equal⟩ := fits passed readKind
            rw [ends, Option.some.injEq] at here
            subst here
            have whole := equal read room
            refine ⟨by simp, fun _ _ => by rw [← whole]; exact read, ?_, ?_⟩
            · rintro _ ⟨⟩
              omega
            · rintro _ ⟨⟩ str member place data
              rw [← whole]
              exact within str member place data
        · rw [if_neg accepted]
          refine iff_of_true (packetSafe_invalid packet) fun _ _ => ⟨stop, ends, fun here room => ?_⟩
          rw [show PacketHead.length packet = .ok length from read, Except.ok.injEq] at here
          exact absurd ⟨room, here.symm⟩ accepted
    · have refused : perditionPacketVerifyV1 flags count packet = .error .invalid := by
        unfold perditionPacketVerifyV1
        rw [passed, show PacketHead.flags packet = .ok kind from readKind]
        change (if kind ≠ flags then _ else _) = _
        rw [if_pos same]
      rw [refused]
      refine iff_of_true (packetSafe_invalid packet) fun _ here => ?_
      rw [show PacketHead.flags packet = .ok kind from readKind, Except.ok.injEq] at here
      exact absurd here same

/-- Each kind of packet is verified safely exactly where its strings were received and its length is
the one in its header. -/
theorem packets_safe_iff (packet : List Byte) :
    (PacketSafe packet (perditionPacketVerifyV1Req packet) ↔
      PacketFits perditionPacketReq 2 packet) ∧
    (PacketSafe packet (perditionPacketVerifyV1StrReq packet) ↔
      PacketFits perditionPacketStrReq 6 packet) ∧
    (PacketSafe packet (perditionPacketVerifyV1Rsp packet) ↔
      PacketFits perditionPacketRsp 3 packet) :=
  ⟨perditionPacketVerifyV1_safe _ _ packet, perditionPacketVerifyV1_safe _ _ packet,
    perditionPacketVerifyV1_safe _ _ packet⟩

/-- Of a request of 25 bytes whose header announces 28 the length of the key is read beyond it, and a
request of 30 bytes whose header announces 28 is accepted. -/
theorem request_length_ignored :
    ¬ PacketSafe ([7, 7, 7, 7, 0, 1, 0, 1, 0, 28] ++ List.replicate 15 0)
      (perditionPacketVerifyV1Req ([7, 7, 7, 7, 0, 1, 0, 1, 0, 28] ++ List.replicate 15 0)) ∧
    ¬ PacketSafe ([7, 7, 7, 7, 0, 1, 0, 1, 0, 28] ++ List.replicate 20 0)
      (perditionPacketVerifyV1Req ([7, 7, 7, 7, 0, 1, 0, 1, 0, 28] ++ List.replicate 20 0)) :=
  ⟨fun safe => safe.received (by decide),
    fun safe => absurd (safe.whole [⟨0, none⟩, ⟨0, none⟩] (by decide +kernel)) (by decide +kernel)⟩

end Perdition
