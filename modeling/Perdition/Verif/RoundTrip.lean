import Mathlib.Data.List.Forall2
import Perdition.Verif.Packets

/-!
# Packets that are built and checked

A packet that was built out of strings is a header, the strings in their order and zeros. Cut to the
length in its header it is accepted by the check of its kind, which returns the strings, and refused
by the other two.
-/
namespace Perdition

/-- A string that is returned is this one, and `NULL` where this one is empty. -/
def PacketStr.Holds (packet : List Byte) (str : PacketStr) (content : List Byte) : Prop :=
  str.length = content.length ∧
    match str.data with
    | none => content = []
    | some place => content ≠ [] ∧ (packet.drop place).take str.length = content

/-- Building a packet and checking it agree. -/
structure PacketTravels (init : Option (List Byte) → Int × Option (List Byte)) (csType : UInt16)
    (strs : List (Option PacketText)) (own : List Byte → Except PacketError (List PacketStr))
    (others : List (List Byte → Except PacketError (List PacketStr))) : Prop where
  /-- It fails exactly where the body has no room for the strings or there is to be a checksum. -/
  fails : ∀ packet, (init packet).1 < 0 ↔
    perditionPacketMaxBodyLen < packetBodyLen strs ∨ csType.toNat ≠ perditionPacketCsNone
  /-- The packet of the caller is then left as it was. -/
  unchanged : ∀ packet, (init packet).1 < 0 → (init packet).2 = packet
  /-- Otherwise the strings are returned by the check of its kind, and the others refuse it. -/
  built : ∀ packet, ¬ (init packet).1 < 0 → (init packet).1 = 0 ∧
    ∃ made length, (init packet).2 = some made ∧ PacketHead.length made = .ok length ∧
      length ≤ made.length ∧
      (∃ got, own (made.take length) = .ok got ∧
        List.Forall₂ (PacketStr.Holds (made.take length)) got (strs.map packetText)) ∧
      ∀ other ∈ others, other (made.take length) = .error .invalid

/-! ## The bytes of a packet -/

/-- The bytes of a string in a body. -/
def packetStrBytes (str : Option PacketText) : List Byte :=
  htons (UInt16.ofNat (packetText str).length) ++ packetText str

/-- The bytes of strings in a body. -/
def packetBody (strs : List (Option PacketText)) : List Byte := strs.flatMap packetStrBytes

/-- The bytes of a header. -/
def packetHead (flags : Nat) (saddr : UInt32) (sport : UInt16) (daddr : UInt32) (dport : UInt16)
    (bodyLen : Nat) : List Byte :=
  htonl (UInt32.ofNat perditionPacketMagic) ++ (htons (UInt16.ofNat perditionPacketVersion) ++
    (htons (UInt16.ofNat flags) ++ (htons (UInt16.ofNat (perditionPacketHeadLen + bodyLen)) ++
      (htons 0 ++ (htonl saddr ++ (htonl daddr ++ (htons sport ++ htons dport)))))))

@[simp] theorem length_htons (value : UInt16) : (htons value).length = 2 := rfl

@[simp] theorem length_htonl (value : UInt32) : (htonl value).length = 4 := rfl

@[simp] theorem length_packetHead (flags : Nat) (saddr : UInt32) (sport : UInt16) (daddr : UInt32)
    (dport : UInt16) (bodyLen : Nat) :
    (packetHead flags saddr sport daddr dport bodyLen).length = perditionPacketHeadLen := rfl

@[simp] theorem length_packetStrBytes (str : Option PacketText) :
    (packetStrBytes str).length = 2 + (packetText str).length := by
  simp [packetStrBytes]

/-- The body is as long as `body_len` says. -/
theorem length_packetBody (strs : List (Option PacketText)) :
    (packetBody strs).length = packetBodyLen strs := by
  simp [packetBody, packetBodyLen, List.length_flatMap]

/-- A string has room in the field of its length. -/
theorem packetText_lt (str : Option PacketText) : (packetText str).length < 2 ^ 16 := by
  cases str with
  | none => simp [packetText]
  | some str => exact str.fits

/-- Copying over bytes between others replaces them. -/
theorem memcpy_between (before old after content : List Byte)
    (same : content.length = old.length) :
    memcpy (before ++ (old ++ after)) before.length content = before ++ (content ++ after) := by
  unfold memcpy
  rw [List.take_left, ← List.drop_drop, List.drop_left, same, List.drop_left, List.append_assoc]

/-- Copying replaces the first of the bytes after others. -/
theorem memcpy_over (before rest content : List Byte) (room : content.length ≤ rest.length) :
    memcpy (before ++ rest) before.length content =
      before ++ (content ++ rest.drop content.length) := by
  have whole := List.take_append_drop content.length rest
  have := memcpy_between before (rest.take content.length) (rest.drop content.length) content
    (by rw [List.length_take]; omega)
  rwa [whole] at this

/-- A string is put over the bytes after others. -/
theorem packetStrSet_over (before rest : List Byte) (str : Option PacketText)
    (room : (packetStrBytes str).length ≤ rest.length) :
    packetStrSet (before ++ rest) before.length str =
      (before ++ packetStrBytes str ++ rest.drop (packetStrBytes str).length,
        (before ++ packetStrBytes str).length) := by
  rw [length_packetStrBytes] at room
  have first : (htons (UInt16.ofNat (packetText str).length)).length ≤ rest.length := by
    rw [length_htons]
    omega
  simp only [packetStrSet, memcpy_over before rest _ first]
  by_cases empty : (packetText str).length = 0
  · have none : packetText str = [] := List.length_eq_zero_iff.mp empty
    simp [packetStrBytes, none]
  · rw [if_neg empty, ← List.append_assoc]
    have place : before.length + 2 =
        (before ++ htons (UInt16.ofNat (packetText str).length)).length := by simp
    have left : (packetText str).length ≤ (rest.drop 2).length := by
      rw [List.length_drop]
      omega
    rw [place, length_htons, memcpy_over _ _ _ left]
    simp only [packetStrBytes, List.length_append, length_htons, List.append_assoc, List.drop_drop,
      Nat.add_assoc]

/-- Strings are put one after another over the bytes after others. -/
theorem packetStrsSet_over (strs : List (Option PacketText)) :
    ∀ before rest : List Byte, (packetBody strs).length ≤ rest.length →
      (packetStrsSet (before ++ rest) before.length strs).1 =
        before ++ packetBody strs ++ rest.drop (packetBody strs).length := by
  induction strs with
  | nil =>
    intro before rest room
    simp [packetStrsSet, packetBody]
  | cons str strs ih =>
    intro before rest room
    have shape : packetBody (str :: strs) = packetStrBytes str ++ packetBody strs := rfl
    rw [shape, List.length_append] at room
    have here : (packetStrBytes str).length ≤ rest.length := by omega
    have later : (packetBody strs).length ≤ (rest.drop (packetStrBytes str).length).length := by
      rw [List.length_drop]
      omega
    unfold packetStrsSet
    rw [packetStrSet_over before rest str here]
    have step := ih (before ++ packetStrBytes str) (rest.drop (packetStrBytes str).length) later
    change (packetStrsSet _ _ strs).1 = _
    rw [step, shape, List.drop_drop, List.length_append]
    simp only [List.append_assoc]

/-- Where a packet is built, its header is filled in and the rest is zeros. -/
theorem perditionPacketInitV1Head_eq (packet : Option (List Byte)) (csType : UInt16) (flags : Nat)
    (saddr : UInt32) (sport : UInt16) (daddr : UInt32) (dport : UInt16) (bodyLen : Nat) :
    perditionPacketInitV1Head packet csType flags saddr sport daddr dport bodyLen =
      if perditionPacketMaxBodyLen < bodyLen ∨ csType.toNat ≠ perditionPacketCsNone then (-1, packet)
      else (0, some (packetHead flags saddr sport daddr dport bodyLen ++
        List.replicate (perditionPacketMaxBodyLen + perditionPacketTailLen) 0)) := by
  unfold perditionPacketInitV1Head
  by_cases checksum : csType.toNat ≠ perditionPacketCsNone
  · rw [if_pos checksum, if_pos (Or.inr checksum)]
  · by_cases large : perditionPacketMaxBodyLen < bodyLen
    · rw [if_neg checksum, if_pos large, if_pos (Or.inl large)]
    · have none : csType = 0 := by
        rw [not_not] at checksum
        exact UInt16.toNat_inj.mp checksum
      subst none
      rw [if_neg checksum, if_neg large, if_neg (not_or.mpr ⟨large, checksum⟩)]
      generalize perditionPacketMaxBodyLen + perditionPacketTailLen = rest
      rw [← List.replicate_append_replicate]
      generalize List.replicate rest (0 : Byte) = zeros
      simp only [perditionPacketHeadLen, List.replicate, memcpy, packetHead, htonl, htons,
        List.take_succ_cons, List.take_zero, List.drop_succ_cons, List.drop_zero,
        List.cons_append, List.nil_append, List.length_cons, List.length_nil, Nat.reduceAdd]

/-! ## Reading what was put -/

/-- A field is read back where it was put. -/
theorem ntohs_htons (before after : List Byte) (value : UInt16) :
    ntohs (before ++ (htons value ++ after)) before.length = .ok value.toNat := by
  unfold ntohs
  rw [List.drop_left]
  change Except.ok ((UInt8.ofNat (value.toNat / 256)).toNat * 256 +
    (UInt8.ofNat value.toNat).toNat) = _
  have bound : value.toNat < 65536 := value.toNat_lt
  simp only [UInt8.toNat_ofNat', Except.ok.injEq]
  omega

/-- A string is read back where it was put. -/
theorem packetStrGet_put (before after : List Byte) (str : Option PacketText) :
    ∃ got, packetStrGet (before ++ (packetStrBytes str ++ after)) before.length =
        .ok (got, (before ++ packetStrBytes str).length) ∧
      got.Holds (before ++ (packetStrBytes str ++ after)) (packetText str) := by
  have bound := packetText_lt str
  have length : (UInt16.ofNat (packetText str).length).toNat = (packetText str).length := by
    rw [UInt16.toNat_ofNat']
    omega
  have read := ntohs_htons before (packetText str ++ after)
    (UInt16.ofNat (packetText str).length)
  rw [length] at read
  refine ⟨⟨(packetText str).length,
    if (packetText str).length = 0 then none else some (before.length + 2)⟩, ?_, ?_⟩
  · unfold packetStrGet
    rw [packetStrBytes, List.append_assoc, read]
    change Except.ok (_, _) = _
    rw [List.length_append, List.length_append, length_htons, Nat.add_assoc]
  · refine ⟨rfl, ?_⟩
    by_cases empty : (packetText str).length = 0
    · rw [if_pos empty]
      exact List.length_eq_zero_iff.mp empty
    · rw [if_neg empty]
      refine ⟨fun none => empty (by rw [none]; rfl), ?_⟩
      have shape : before ++ (packetStrBytes str ++ after) =
          (before ++ htons (UInt16.ofNat (packetText str).length)) ++
            (packetText str ++ after) := by
        simp only [packetStrBytes, List.append_assoc]
      have place : before.length + 2 =
          (before ++ htons (UInt16.ofNat (packetText str).length)).length := by simp
      rw [shape, place, List.drop_left, List.take_left]

/-- Strings are read back one after another where they were put. -/
theorem packetStrsGet_put (strs : List (Option PacketText)) :
    ∀ before after : List Byte,
      ∃ got, packetStrsGet (before ++ (packetBody strs ++ after)) strs.length before.length =
          .ok (got, (before ++ packetBody strs).length) ∧
        List.Forall₂ (PacketStr.Holds (before ++ (packetBody strs ++ after))) got
          (strs.map packetText) := by
  induction strs with
  | nil =>
    intro before after
    exact ⟨[], by simp [packetStrsGet, packetBody], .nil⟩
  | cons str strs ih =>
    intro before after
    have shape : before ++ (packetBody (str :: strs) ++ after) =
        before ++ (packetStrBytes str ++ (packetBody strs ++ after)) := by
      simp [packetBody]
    obtain ⟨head, readHead, holdsHead⟩ := packetStrGet_put before (packetBody strs ++ after) str
    obtain ⟨rest, readRest, holdsRest⟩ := ih (before ++ packetStrBytes str) after
    rw [List.append_assoc, ← shape] at readRest holdsRest
    rw [← shape] at readHead holdsHead
    refine ⟨head :: rest, ?_, .cons holdsHead holdsRest⟩
    rw [List.length_cons, packetStrsGet, readHead]
    simp only [Bind.bind, Except.bind, readRest]
    change Except.ok (_, _) = _
    simp [packetBody]

/-! ## A packet that was built is checked -/

section Built

variable (flags : Nat) (saddr : UInt32) (sport : UInt16) (daddr : UInt32) (dport : UInt16)
  (strs : List (Option PacketText)) (after : List Byte)

/-- The length in the header is that of the header and the body. -/
theorem packetHead_length (fits : packetBodyLen strs ≤ perditionPacketMaxBodyLen) :
    PacketHead.length (packetHead flags saddr sport daddr dport (packetBodyLen strs) ++ after) =
      .ok (perditionPacketHeadLen + packetBodyLen strs) := by
  simp only [perditionPacketMaxBodyLen, perditionPacketMaxPacketLen] at fits
  have read := ntohs_htons (htonl (UInt32.ofNat perditionPacketMagic) ++
    (htons (UInt16.ofNat perditionPacketVersion) ++ htons (UInt16.ofNat flags)))
    (htons 0 ++ (htonl saddr ++ (htonl daddr ++ (htons sport ++ (htons dport ++ after)))))
    (UInt16.ofNat (perditionPacketHeadLen + packetBodyLen strs))
  rw [UInt16.toNat_ofNat', Nat.mod_eq_of_lt (by simp only [perditionPacketHeadLen]; omega)] at read
  exact read

/-- The flags in the header are those of its kind. -/
theorem packetHead_flags (small : flags < 2 ^ 16) (bodyLen : Nat) :
    PacketHead.flags (packetHead flags saddr sport daddr dport bodyLen ++ after) = .ok flags := by
  have read := ntohs_htons (htonl (UInt32.ofNat perditionPacketMagic) ++
    htons (UInt16.ofNat perditionPacketVersion))
    (htons (UInt16.ofNat (perditionPacketHeadLen + bodyLen)) ++ (htons 0 ++ (htonl saddr ++
      (htonl daddr ++ (htons sport ++ (htons dport ++ after)))))) (UInt16.ofNat flags)
  rw [UInt16.toNat_ofNat', Nat.mod_eq_of_lt small] at read
  exact read

/-- The header of a packet that was built is let pass. -/
theorem packetHead_verified (fits : packetBodyLen strs ≤ perditionPacketMaxBodyLen) :
    perditionPacketVerifyV1Head (packetHead flags saddr sport daddr dport (packetBodyLen strs) ++
      packetBody strs) = .ok () := by
  have size : (packetHead flags saddr sport daddr dport (packetBodyLen strs) ++
      packetBody strs).length = 24 + packetBodyLen strs := by
    rw [List.length_append, length_packetHead, length_packetBody, perditionPacketHeadLen]
  have length := packetHead_length flags saddr sport daddr dport strs (packetBody strs) fits
  simp only [perditionPacketMaxBodyLen, perditionPacketMaxPacketLen] at fits
  have magic : PacketHead.magic (packetHead flags saddr sport daddr dport (packetBodyLen strs) ++
      packetBody strs) = .ok perditionPacketMagic := rfl
  have checksum : PacketHead.csType (packetHead flags saddr sport daddr dport (packetBodyLen strs) ++
      packetBody strs) = .ok perditionPacketCsNone := rfl
  unfold perditionPacketVerifyV1Head
  rw [size, if_neg (by simp only [perditionPacketHeadLen]; omega), magic, length, checksum]
  change (if perditionPacketMagic ≠ perditionPacketMagic then Except.error PacketError.invalid
    else if perditionPacketMaxPacketLen < 24 + packetBodyLen strs then .error .invalid
    else if perditionPacketCsNone ≠ perditionPacketCsNone then .error .invalid else .ok ()) = _
  rw [if_neg (by simp), if_neg (by simp only [perditionPacketMaxPacketLen]; omega),
    if_neg (by simp)]

/-- The check of its kind returns the strings of a packet that was built. -/
theorem packet_accepted (small : flags < 2 ^ 16)
    (fits : packetBodyLen strs ≤ perditionPacketMaxBodyLen) :
    ∃ got, perditionPacketVerifyV1 flags strs.length
        (packetHead flags saddr sport daddr dport (packetBodyLen strs) ++ packetBody strs) =
          .ok got ∧
      List.Forall₂ (PacketStr.Holds
        (packetHead flags saddr sport daddr dport (packetBodyLen strs) ++ packetBody strs)) got
          (strs.map packetText) := by
  have passed := packetHead_verified flags saddr sport daddr dport strs fits
  have kind := packetHead_flags flags saddr sport daddr dport (packetBody strs) small
    (packetBodyLen strs)
  have length := packetHead_length flags saddr sport daddr dport strs (packetBody strs) fits
  have ⟨got, read, holds⟩ := packetStrsGet_put strs
    (packetHead flags saddr sport daddr dport (packetBodyLen strs)) []
  rw [List.append_nil, length_packetHead, List.length_append, length_packetHead,
    length_packetBody] at read
  rw [List.append_nil] at holds
  refine ⟨got, ?_, holds⟩
  rw [perditionPacketVerifyV1_eq passed kind, read]
  have tail := perditionPacketVerifyV1Tail_cases length
    (Nat.le_add_right perditionPacketHeadLen (packetBodyLen strs))
  rw [Nat.add_sub_cancel_left, if_pos ⟨fits, rfl⟩] at tail
  simp only [Except.bind, Nat.add_sub_cancel_left, tail]

/-- The check of another kind refuses a packet that was built. -/
theorem packet_refused (other count : Nat) (small : flags < 2 ^ 16) (differ : other ≠ flags)
    (fits : packetBodyLen strs ≤ perditionPacketMaxBodyLen) :
    perditionPacketVerifyV1 other count
      (packetHead flags saddr sport daddr dport (packetBodyLen strs) ++ packetBody strs) =
        .error .invalid := by
  have passed := packetHead_verified flags saddr sport daddr dport strs fits
  have kind := packetHead_flags flags saddr sport daddr dport (packetBody strs) small
    (packetBodyLen strs)
  unfold perditionPacketVerifyV1
  rw [passed, kind]
  change (if flags ≠ other then _ else _) = _
  rw [if_pos fun same => differ same.symm]

/-- A packet of one kind is returned by its own check and refused by the others. -/
theorem packetTravels_of (csType : UInt16) (others : List (Nat × Nat)) (small : flags < 2 ^ 16)
    (differ : ∀ other ∈ others, other.1 ≠ flags) :
    PacketTravels
      (fun packet => perditionPacketInitV1 flags packet csType saddr sport daddr dport strs) csType
      strs (perditionPacketVerifyV1 flags strs.length)
      (others.map fun other => perditionPacketVerifyV1 other.1 other.2) := by
  have outcome (packet : Option (List Byte)) :
      perditionPacketInitV1 flags packet csType saddr sport daddr dport strs =
        if perditionPacketMaxBodyLen < packetBodyLen strs ∨ csType.toNat ≠ perditionPacketCsNone
        then (-1, packet)
        else (0, some (packetHead flags saddr sport daddr dport (packetBodyLen strs) ++
          packetBody strs ++ (List.replicate (perditionPacketMaxBodyLen + perditionPacketTailLen)
            (0 : Byte)).drop (packetBody strs).length)) := by
    unfold perditionPacketInitV1
    rw [perditionPacketInitV1Head_eq]
    by_cases failed : perditionPacketMaxBodyLen < packetBodyLen strs ∨
        csType.toNat ≠ perditionPacketCsNone
    · rw [if_pos failed, if_pos failed]
      rfl
    · rw [if_neg failed, if_neg failed]
      have room : (packetBody strs).length ≤ (List.replicate
          (perditionPacketMaxBodyLen + perditionPacketTailLen) (0 : Byte)).length := by
        rw [length_packetBody, List.length_replicate]
        omega
      have put := packetStrsSet_over strs
        (packetHead flags saddr sport daddr dport (packetBodyLen strs)) _ room
      rw [length_packetHead] at put
      change (0, some (packetStrsSet _ perditionPacketHeadLen strs).1) = _
      rw [put]
  constructor
  · intro packet
    rw [outcome]
    split
    · rename_i failed
      exact iff_of_true (show (-1 : Int) < 0 by decide) failed
    · rename_i built
      exact iff_of_false (show ¬ (0 : Int) < 0 by decide) built
  · intro packet failed
    simp only [outcome] at failed ⊢
    split
    · rfl
    · rename_i built
      rw [if_neg built] at failed
      exact absurd failed (show ¬ (0 : Int) < 0 by decide)
  · intro packet succeeded
    simp only [outcome] at succeeded ⊢
    split
    · rename_i failed
      rw [if_pos failed] at succeeded
      exact absurd (show (-1 : Int) < 0 by decide) succeeded
    · rename_i built
      have fits : packetBodyLen strs ≤ perditionPacketMaxBodyLen := by omega
      have size : (packetHead flags saddr sport daddr dport (packetBodyLen strs) ++
          packetBody strs).length = perditionPacketHeadLen + packetBodyLen strs := by
        rw [List.length_append, length_packetHead, length_packetBody]
      refine ⟨rfl, _, perditionPacketHeadLen + packetBodyLen strs, rfl, ?_, ?_, ?_⟩
      · rw [List.append_assoc]
        exact packetHead_length flags saddr sport daddr dport strs _ fits
      · rw [List.length_append, size]
        exact Nat.le_add_right _ _
      · rw [← size, List.take_left]
        refine ⟨packet_accepted flags saddr sport daddr dport strs small fits, ?_⟩
        intro other member
        have ⟨kind, among, here⟩ := List.mem_map.mp member
        rw [← here]
        exact packet_refused flags saddr sport daddr dport strs kind.1 kind.2 small
          (differ kind among) fits

end Built

/-- Packets of each kind are returned by the check of their kind and refused by the others, and are
built exactly where their strings fit and there is to be no checksum. -/
theorem packets_travel (csType : UInt16) (saddr : UInt32) (sport : UInt16) (daddr : UInt32)
    (dport : UInt16) (key domainDelimiter source sourcePort destination destinationPort user server
      port : Option PacketText) :
    PacketTravels
      (fun packet => perditionPacketInitV1Req packet csType saddr sport daddr dport key
        domainDelimiter)
      csType [key, domainDelimiter] perditionPacketVerifyV1Req
      [perditionPacketVerifyV1StrReq, perditionPacketVerifyV1Rsp] ∧
    PacketTravels
      (fun packet => perditionPacketInitV1StrReq packet csType source sourcePort destination
        destinationPort key domainDelimiter)
      csType [key, domainDelimiter, source, sourcePort, destination, destinationPort]
      perditionPacketVerifyV1StrReq [perditionPacketVerifyV1Req, perditionPacketVerifyV1Rsp] ∧
    PacketTravels
      (fun packet => perditionPacketInitV1Rsp packet csType user server port)
      csType [user, server, port] perditionPacketVerifyV1Rsp
      [perditionPacketVerifyV1Req, perditionPacketVerifyV1StrReq] :=
  ⟨packetTravels_of perditionPacketReq saddr sport daddr dport _ csType
      [(perditionPacketStrReq, 6), (perditionPacketRsp, 3)] (by decide) (by decide),
    packetTravels_of perditionPacketStrReq 0 0 0 0 _ csType
      [(perditionPacketReq, 2), (perditionPacketRsp, 3)] (by decide) (by decide),
    packetTravels_of perditionPacketRsp 0 0 0 0 _ csType
      [(perditionPacketReq, 2), (perditionPacketStrReq, 6)] (by decide) (by decide)⟩

end Perdition
