import ZilkerSdk.Ipc.Transport

/-!
# Frames that arrive in part

`transport_recvmsg` takes every positive result of `recv` for the whole field.  When the peer closes
in the middle of a frame, or `recv` gives a field in two pieces, it returns success with zeros for
what is missing.  This module says exactly for which frames, cut where and given in which pieces,
a success means that the whole frame arrived and was read as it was sent.
-/

namespace ZilkerSdk.Ipc

open Lib List

/-! ## The frame of a message -/

def codeBytes (m : IPCMessage) : List UInt8 := toBytes 4 m.msgCode.toNat

def lengthBytes (m : IPCMessage) : List UInt8 := toBytes 4 m.payloadLen

/-- The code, the length and the payload, as they are sent. -/
def frame (m : IPCMessage) : List UInt8 := codeBytes m ++ (lengthBytes m ++ m.payload)

@[simp] theorem length_codeBytes (m : IPCMessage) : (codeBytes m).length = 4 := length_toBytes _ _

@[simp] theorem length_lengthBytes (m : IPCMessage) : (lengthBytes m).length = 4 :=
  length_toBytes _ _

theorem length_frame (m : IPCMessage) : (frame m).length = 8 + m.payloadLen := by
  simp only [frame, length_append, length_codeBytes, length_lengthBytes, IPCMessage.payloadLen]
  omega

/-- What is written for a message is a prefix of its frame. -/
theorem transportSendmsg_written (calls : SendCalls) (m : IPCMessage) :
    (transportSendmsg calls m).2 <+: frame m := by
  unfold transportSendmsg
  simp only []
  split_ifs
  · exact nil_prefix
  · exact nil_prefix
  · exact nil_prefix
  · exact prefix_append _ _
  · exact prefix_append _ _
  · exact prefix_refl _

section

variable {m : IPCMessage} {k : Nat}

theorem drop_frame (hk : k ≤ 4) :
    (frame m).drop k = (codeBytes m).drop k ++ (lengthBytes m ++ m.payload) := by
  rw [frame, drop_append_of_le_length (by simpa using hk)]

theorem take_frame (hk : k ≤ 4) : (frame m).take k = (codeBytes m).take k := by
  rw [frame, take_append_of_le_length (by simpa using hk)]

theorem drop_frame_four (k : Nat) :
    (frame m).drop (4 + k) = (lengthBytes m ++ m.payload).drop k := by
  rw [← length_codeBytes m]
  exact drop_length_add_append k

theorem drop_frame_length (hk : k ≤ 4) :
    (frame m).drop (4 + k) = (lengthBytes m).drop k ++ m.payload := by
  rw [drop_frame_four, drop_append_of_le_length (by simpa using hk)]

theorem drop_frame_payload (k : Nat) : (frame m).drop (8 + k) = m.payload.drop k := by
  rw [show 8 + k = 4 + (4 + k) by omega, drop_frame_four]
  rw [← length_lengthBytes m]
  exact drop_length_add_append k

variable {bs : List UInt8}

theorem ofNat_codeBytes (hlength : bs.length = 4) :
    UInt32.ofNat (ofBytes bs) = m.msgCode ↔ bs = codeBytes m := by
  have hcode : m.msgCode.toNat < 256 ^ 4 := m.msgCode.toNat_lt
  have hlt : ofBytes bs < 256 ^ 4 := hlength ▸ ofBytes_lt bs
  have hmod : ofBytes bs % 2 ^ 32 = ofBytes bs := Nat.mod_eq_of_lt hlt
  rw [← UInt32.toNat_inj, UInt32.toNat_ofNat', hmod, ← ofBytes_inj (by simp [hlength]), codeBytes,
    ofBytes_toBytes hcode]

theorem ofBytes_lengthBytes (hlength : bs.length = 4) :
    ofBytes bs = m.payload.length ↔ bs = lengthBytes m := by
  have hlen : m.payloadLen < 256 ^ 4 := m.payload_lt
  rw [← ofBytes_inj (by simp [hlength]), lengthBytes, ofBytes_toBytes hlen, IPCMessage.payloadLen]

theorem payload_eq_nil (h : ∀ b ∈ lengthBytes m, b = 0) : m.payload = [] := by
  have := ofBytes_eq_zero_iff.mpr h
  rw [(ofBytes_lengthBytes (length_lengthBytes m)).mpr rfl] at this
  exact eq_nil_of_length_eq_zero this

end

/-! ## What the calls of `recv` do -/

/-- How many bytes the first two calls give. -/
def codeChunk (calls : RecvCalls) : Nat := chunk 4 calls.recvCode

def lengthChunk (calls : RecvCalls) : Nat := chunk 4 calls.recvLength

/-- The bytes that are taken for the length. -/
def lengthRead (calls : RecvCalls) (stream : List UInt8) : List UInt8 :=
  (stream.drop (codeChunk calls)).take (lengthChunk calls)

def codeOf (calls : RecvCalls) (stream : List UInt8) : UInt32 :=
  UInt32.ofNat (ofBytes (pad 4 (stream.take (codeChunk calls))))

def lengthOf (calls : RecvCalls) (stream : List UInt8) : Nat :=
  ofBytes (pad 4 (lengthRead calls stream))

/-- The bytes that are taken for the payload. -/
def payloadRead (calls : RecvCalls) (stream : List UInt8) : List UInt8 :=
  (stream.drop (codeChunk calls + lengthChunk calls)).take
    (chunk (lengthOf calls stream) calls.recvPayload)

/-- A call fails, or comes to the end of what has arrived, while a further field is to be read. -/
def StopsEarly (calls : RecvCalls) (stream : List UInt8) : Prop :=
  calls.recvCode = none ∨ stream.length ≤ codeChunk calls ∨ calls.recvLength = none ∨
    (∃ b ∈ lengthRead calls stream, b ≠ 0) ∧
      (calls.recvPayload = none ∨ stream.length ≤ codeChunk calls + lengthChunk calls)

section

variable {calls : RecvCalls} {stream : List UInt8}

theorem length_lengthRead : (lengthRead calls stream).length ≤ 4 :=
  Nat.le_trans (length_take_le _ _) (chunk_le _ _)

theorem length_payloadRead (calls : RecvCalls) (stream : List UInt8) :
    (payloadRead calls stream).length ≤ lengthOf calls stream :=
  Nat.le_trans (length_take_le _ _) (chunk_le _ _)

theorem lengthOf_lt (calls : RecvCalls) (stream : List UInt8) : lengthOf calls stream < 2 ^ 32 :=
  ofBytes_pad_lt length_lengthRead

/-- The message that is made of what was read. -/
def messageOf (calls : RecvCalls) (stream : List UInt8) : IPCMessage :=
  ⟨codeOf calls stream, pad (lengthOf calls stream) (payloadRead calls stream), by
    rw [length_pad (length_payloadRead calls stream)]
    exact lengthOf_lt calls stream⟩

theorem lengthOf_pos_iff : 0 < lengthOf calls stream ↔ ∃ b ∈ lengthRead calls stream, b ≠ 0 := by
  rw [Nat.pos_iff_ne_zero, ne_eq, lengthOf, ofBytes_pad_eq_zero_iff]
  simp

variable {call : Option Nat}

theorem recv_of_ready (asked : Nat) (hcall : call ≠ none) (hstream : stream ≠ []) :
    recv stream asked call = .received (stream.take (chunk asked call))
      (stream.drop (chunk asked call))
      (Nat.le_trans (List.length_take_le _ _) (chunk_le asked call)) := by
  rw [recv, if_neg hcall, if_neg hstream]

theorem recv_of_not_ready (asked : Nat) (h : call = none ∨ stream = []) :
    recv stream asked call = .failed ∨ recv stream asked call = .closed := by
  unfold recv
  split_ifs with hcall hstream
  · exact .inl rfl
  · exact .inr rfl
  · exact absurd h (by simp [hcall, hstream])

theorem readFields_eq (hcode : calls.recvCode ≠ none) (hlength : calls.recvLength ≠ none)
    (hmore : codeChunk calls < stream.length) :
    readFields calls stream =
      if 0 < lengthOf calls stream then
        if calls.recvPayload = none ∨ stream.length ≤ codeChunk calls + lengthChunk calls then
          some (.error .readError)
        else if (lengthOf calls stream + 1) % 2 ^ 32 < (payloadRead calls stream).length then none
        else some (.ok (messageOf calls stream))
      else some (.ok (messageOf calls stream)) := by
  have hne : stream ≠ [] := by
    rintro rfl
    simp at hmore
  have hrest : stream.drop (chunk 4 calls.recvCode) ≠ [] := by
    rw [ne_eq, drop_eq_nil_iff]
    exact Nat.not_le.mpr hmore
  -- code and length are read, in however many bytes the calls give
  simp only [readFields, recv_of_ready 4 hcode hne, recv_of_ready 4 hlength hrest, drop_drop]
  show (if 0 < lengthOf calls stream then _ else _) = _
  split
  · -- the payload is asked for
    by_cases hpayload : calls.recvPayload = none ∨
        stream.length ≤ codeChunk calls + lengthChunk calls
    · have hend : calls.recvPayload = none ∨
          stream.drop (codeChunk calls + lengthChunk calls) = [] := by
        rwa [drop_eq_nil_iff]
      rw [if_pos hpayload]
      rcases recv_of_not_ready (lengthOf calls stream) hend with hr | hr
      all_goals
        unfold lengthOf lengthRead codeChunk lengthChunk at hr
        simp only [hr]
    · obtain ⟨hcall, hmore⟩ := not_or.mp hpayload
      have hend : stream.drop (codeChunk calls + lengthChunk calls) ≠ [] := by
        rwa [ne_eq, drop_eq_nil_iff]
      rw [if_neg hpayload]
      unfold messageOf codeOf payloadRead lengthOf lengthRead codeChunk lengthChunk at *
      simp only [recv_of_ready _ hcall hend]
  · have hlength : lengthOf calls stream = 0 := by omega
    have hnone : payloadRead calls stream = [] := by
      apply eq_nil_of_length_eq_zero
      have := length_payloadRead calls stream
      omega
    simp [messageOf, hlength, hnone, pad, codeOf, codeChunk]

theorem readFields_of_stopsEarly (h : StopsEarly calls stream) :
    readFields calls stream = some (.error .readError) := by
  by_cases hcode : calls.recvCode = none ∨ stream = []
  · rcases recv_of_not_ready 4 hcode with hr | hr <;> simp only [readFields, hr]
  obtain ⟨hcall, hne⟩ := not_or.mp hcode
  by_cases hlength : calls.recvLength = none ∨ stream.drop (chunk 4 calls.recvCode) = []
  · rcases recv_of_not_ready 4 hlength with hr | hr <;>
      simp only [readFields, recv_of_ready 4 hcall hne, hr]
  obtain ⟨hcall', hrest⟩ := not_or.mp hlength
  rw [drop_eq_nil_iff, Nat.not_le] at hrest
  -- only the payload can be missing
  rcases h with habsurd | habsurd | habsurd | ⟨hpos, hpayload⟩
  · exact absurd habsurd hcall
  · exact absurd hrest (Nat.not_lt.mpr habsurd)
  · exact absurd habsurd hcall'
  · rw [readFields_eq hcall hcall' hrest, if_pos (lengthOf_pos_iff.mpr hpos), if_pos hpayload]

theorem readFields_of_not_stopsEarly (h : ¬ StopsEarly calls stream) :
    readFields calls stream =
      if (lengthOf calls stream + 1) % 2 ^ 32 < (payloadRead calls stream).length then none
      else some (.ok (messageOf calls stream)) := by
  simp only [StopsEarly, not_or, not_and, Nat.not_le] at h
  obtain ⟨hcode, hmore, hlength, hpayload⟩ := h
  rw [readFields_eq hcode hlength hmore]
  split
  · rename_i hpos
    have hready := hpayload (lengthOf_pos_iff.mp hpos)
    rw [if_neg (by simpa [not_or] using hready)]
  · have := length_payloadRead calls stream
    rw [if_neg]
    omega

end

/-! ## Frames that are read as they were sent -/

/-- Success means that the whole frame arrived and was read as it was sent. -/
def Intact (m : IPCMessage) (stream : List UInt8) (result : Option (Except IPCCode IPCMessage)) :
    Prop :=
  ∃ out, result = some out ∧ ∀ received, out = .ok received → stream = frame m ∧ received = m

/-- How many bytes of the frame stand in the variable they belong to. -/
def inPlace (calls : RecvCalls) (m : IPCMessage) : Nat :=
  if codeChunk calls < 4 then codeChunk calls
  else if lengthChunk calls < 4 then 4 + lengthChunk calls
  else 8 + chunk m.payloadLen calls.recvPayload

/-- As many bytes as the frame has have arrived, the block for the payload is large enough, and from
the first byte on that is not in its place there are only zeros. -/
def ReadWhole (m : IPCMessage) (calls : RecvCalls) (stream : List UInt8) : Prop :=
  stream.length = 8 + m.payloadLen ∧ m.payloadLen + 1 < 2 ^ 32 ∧
    ∀ b ∈ (frame m).drop (inPlace calls m), b = 0

section

variable {calls : RecvCalls} {m : IPCMessage}

theorem codeChunk_le (calls : RecvCalls) : codeChunk calls ≤ 4 := chunk_le _ _

theorem lengthChunk_le (calls : RecvCalls) : lengthChunk calls ≤ 4 := chunk_le _ _

/-- The code is read as it was sent if the bytes left out are zero. -/
theorem codeOf_eq_iff :
    codeOf calls (frame m) = m.msgCode ↔ ∀ b ∈ (codeBytes m).drop (codeChunk calls), b = 0 := by
  have hle := codeChunk_le calls
  have htaken : ((codeBytes m).take (codeChunk calls)).length ≤ 4 :=
    Nat.le_trans (length_take_le _ _) hle
  rw [codeOf, take_frame hle, ofNat_codeBytes (length_pad htaken)]
  have h := pad_take_eq_iff (codeBytes m) (codeChunk calls)
  rwa [length_codeBytes] at h

theorem lengthOf_eq_iff :
    lengthOf calls (frame m) = m.payload.length ↔
      pad 4 (lengthRead calls (frame m)) = lengthBytes m :=
  ofBytes_lengthBytes (length_pad length_lengthRead)

variable {stream : List UInt8}

theorem messageOf_eq_iff :
    messageOf calls stream = m ↔ codeOf calls stream = m.msgCode ∧
      lengthOf calls stream = m.payload.length ∧
      pad m.payload.length (payloadRead calls stream) = m.payload := by
  constructor
  · rintro rfl
    have hlength : (messageOf calls stream).payload.length = lengthOf calls stream :=
      length_pad (length_payloadRead calls stream)
    refine ⟨rfl, hlength.symm, ?_⟩
    rw [hlength]
    rfl
  · rintro ⟨hcode, hlength, hpayload⟩
    obtain ⟨code, payload, hlt⟩ := m
    simp only [messageOf, IPCMessage.mk.injEq]
    exact ⟨hcode, hlength ▸ hpayload⟩

theorem payloadRead_eq_nil (hlength : lengthOf calls stream = m.payload.length)
    (hnil : m.payload = []) : pad m.payload.length (payloadRead calls stream) = m.payload := by
  have hle := length_payloadRead calls stream
  rw [hlength, hnil] at hle
  have hread : payloadRead calls stream = [] := eq_nil_of_length_eq_zero (by simpa using hle)
  rw [hread, hnil]
  rfl

/-- The code has been read in part: then everything after it must be zero. -/
theorem messageOf_frame_of_code (hcode : codeChunk calls < 4) :
    messageOf calls (frame m) = m ↔ ∀ b ∈ (frame m).drop (codeChunk calls), b = 0 := by
  have hdrop := drop_frame (m := m) (Nat.le_of_lt hcode)
  rw [messageOf_eq_iff, codeOf_eq_iff, hdrop]
  constructor
  · rintro ⟨hzeros, hlength, -⟩
    -- the length is read from the zeros that are left of the code
    have hshift : 0 < ((codeBytes m).drop (codeChunk calls)).length := by
      rw [length_drop, length_codeBytes]
      omega
    rw [lengthOf_eq_iff, lengthRead, hdrop, eq_replicate_of_zeros hzeros, ← append_assoc] at hlength
    have hzero : ∀ b ∈ lengthBytes m, b = 0 := by
      apply eq_zero_of_shifted hshift
      exact hlength
    intro b hb
    rw [payload_eq_nil hzero, append_nil] at hb
    rcases mem_append.mp hb with hb | hb
    · exact hzeros b hb
    · exact hzero b hb
  · intro hzeros
    have hzero : ∀ b ∈ lengthBytes m, b = 0 := fun b hb => hzeros b (by simp [hb])
    have hlength : lengthOf calls (frame m) = m.payload.length := by
      rw [payload_eq_nil hzero, length_nil, lengthOf, ofBytes_pad_eq_zero_iff, lengthRead, hdrop]
      exact fun b hb => hzeros b (mem_of_mem_take hb)
    exact ⟨fun b hb => hzeros b (mem_append_left _ hb), hlength,
      payloadRead_eq_nil hlength (payload_eq_nil hzero)⟩

section

variable (hcode : codeChunk calls = 4)

include hcode

theorem codeOf_eq : codeOf calls (frame m) = m.msgCode := by
  rw [codeOf_eq_iff, hcode, drop_eq_nil_of_le (by simp)]
  simp

theorem lengthRead_eq :
    lengthRead calls (frame m) = (lengthBytes m).take (lengthChunk calls) := by
  have hdrop := drop_frame_four (m := m) 0
  rw [lengthRead, hcode, ← Nat.add_zero 4, hdrop, drop_zero,
    take_append_of_le_length (by simpa using lengthChunk_le calls)]

theorem lengthOf_eq_iff_zeros :
    lengthOf calls (frame m) = m.payload.length ↔
      ∀ b ∈ (lengthBytes m).drop (lengthChunk calls), b = 0 := by
  have h := pad_take_eq_iff (lengthBytes m) (lengthChunk calls)
  rwa [length_lengthBytes, ← lengthRead_eq hcode, ← lengthOf_eq_iff] at h

/-- The length has been read in part: then everything after it must be zero. -/
theorem messageOf_frame_of_length (hlength : lengthChunk calls < 4) :
    messageOf calls (frame m) = m ↔ ∀ b ∈ (frame m).drop (4 + lengthChunk calls), b = 0 := by
  have hdrop := drop_frame_length (m := m) (Nat.le_of_lt hlength)
  have hread : payloadRead calls (frame m) =
      ((lengthBytes m).drop (lengthChunk calls) ++ m.payload).take
        (chunk (lengthOf calls (frame m)) calls.recvPayload) := by
    rw [payloadRead, hcode, hdrop]
  rw [messageOf_eq_iff, lengthOf_eq_iff_zeros hcode, hdrop]
  constructor
  · rintro ⟨-, hzeros, hpayload⟩
    -- the payload is read from the zeros that are left of the length
    have hshift : 0 < ((lengthBytes m).drop (lengthChunk calls)).length := by
      rw [length_drop, length_lengthBytes]
      omega
    rw [hread, eq_replicate_of_zeros hzeros, ← append_nil (replicate _ _ ++ _)] at hpayload
    have hzero := eq_zero_of_shifted hshift hpayload
    intro b hb
    rcases mem_append.mp hb with hb | hb
    · exact hzeros b hb
    · exact hzero b hb
  · intro hzeros
    have htail : ∀ b ∈ (lengthBytes m).drop (lengthChunk calls), b = 0 :=
      fun b hb => hzeros b (mem_append_left _ hb)
    have hpayload : ∀ b ∈ m.payload, b = 0 := fun b hb => hzeros b (mem_append_right _ hb)
    have hsame := (lengthOf_eq_iff_zeros (m := m) hcode).mpr htail
    refine ⟨codeOf_eq hcode, htail, ?_⟩
    calc pad m.payload.length (payloadRead calls (frame m))
        = replicate m.payload.length 0 := by
          apply pad_of_zeros
          · rw [← hsame]
            exact length_payloadRead calls (frame m)
          · rw [hread]
            exact fun b hb => hzeros b (mem_of_mem_take hb)
      _ = m.payload := (eq_replicate_of_zeros hpayload).symm

/-- Code and length have been read: then what is left out of the payload must be zero. -/
theorem messageOf_frame_of_payload (hlength : lengthChunk calls = 4) :
    messageOf calls (frame m) = m ↔
      ∀ b ∈ (frame m).drop (8 + chunk m.payloadLen calls.recvPayload), b = 0 := by
  have hsame : lengthOf calls (frame m) = m.payload.length := by
    rw [lengthOf_eq_iff_zeros hcode, hlength, drop_eq_nil_of_le (by simp)]
    simp
  have hread : payloadRead calls (frame m) =
      m.payload.take (chunk m.payloadLen calls.recvPayload) := by
    have hdrop := drop_frame_payload (m := m) 0
    rw [payloadRead, hcode, hlength, hsame, ← Nat.add_zero (4 + 4), hdrop, drop_zero]
    rfl
  rw [messageOf_eq_iff, drop_frame_payload, hread, pad_take_eq_iff]
  exact ⟨fun h => h.2.2, fun h => ⟨codeOf_eq hcode, hsame, h⟩⟩

end

/-- The frame is read as it was sent exactly when there are only zeros from the first byte on that
is not in its place. -/
theorem messageOf_frame_eq_iff :
    messageOf calls (frame m) = m ↔ ∀ b ∈ (frame m).drop (inPlace calls m), b = 0 := by
  unfold inPlace
  split_ifs with hcode hlength
  · exact messageOf_frame_of_code hcode
  · have hfour : codeChunk calls = 4 := Nat.le_antisymm (codeChunk_le calls) (Nat.not_lt.mp hcode)
    exact messageOf_frame_of_length hfour hlength
  · have hfour : codeChunk calls = 4 := Nat.le_antisymm (codeChunk_le calls) (Nat.not_lt.mp hcode)
    have hfour' : lengthChunk calls = 4 :=
      Nat.le_antisymm (lengthChunk_le calls) (Nat.not_lt.mp hlength)
    exact messageOf_frame_of_payload hfour hfour'

end

/-! ## When a success can be trusted -/

section

variable {m : IPCMessage} {calls : RecvCalls} {stream : List UInt8}

theorem intact_error (code : IPCCode) : Intact m stream (some (.error code)) := by
  refine ⟨_, rfl, ?_⟩
  intro received h
  cases h

theorem payloadRead_pos (hearly : ¬ StopsEarly calls stream) (hpos : 0 < lengthOf calls stream) :
    0 < (payloadRead calls stream).length := by
  simp only [StopsEarly, not_or, not_and, Nat.not_le] at hearly
  obtain ⟨-, -, -, hpayload⟩ := hearly
  obtain ⟨hcall, hmore⟩ := hpayload (lengthOf_pos_iff.mp hpos)
  obtain ⟨k, hk⟩ := Option.ne_none_iff_exists'.mp hcall
  have hchunk : 0 < chunk (lengthOf calls stream) calls.recvPayload := by
    rw [hk, chunk]
    omega
  rw [payloadRead, length_take, length_drop]
  omega

/-- The block is large enough for what is read unless its size wraps around. -/
theorem block_holds_iff (hearly : ¬ StopsEarly calls stream) :
    ¬ (lengthOf calls stream + 1) % 2 ^ 32 < (payloadRead calls stream).length ↔
      lengthOf calls stream + 1 < 2 ^ 32 := by
  have hle := length_payloadRead calls stream
  have hlt := lengthOf_lt calls stream
  constructor
  · intro hholds
    have hpos : 0 < lengthOf calls stream → 0 < (payloadRead calls stream).length :=
      payloadRead_pos hearly
    omega
  · intro hfits
    omega

/-- Of what is read with success, the message is intact exactly when it was read whole. -/
theorem intact_readFields_iff (hsent : stream <+: frame m) (hearly : ¬ StopsEarly calls stream) :
    Intact m stream (readFields calls stream) ↔ ReadWhole m calls stream := by
  rw [readFields_of_not_stopsEarly hearly]
  constructor
  · rintro ⟨out, hout, hok⟩
    split_ifs at hout with hblock
    cases hout
    obtain ⟨rfl, hmessage⟩ := hok _ rfl
    have hlength := (messageOf_eq_iff.mp hmessage).2.1
    refine ⟨length_frame m, ?_, messageOf_frame_eq_iff.mp hmessage⟩
    have hfits := (block_holds_iff hearly).mp hblock
    rwa [hlength] at hfits
  · rintro ⟨harrived, hfits, hzeros⟩
    obtain rfl : stream = frame m := hsent.eq_of_length (harrived.trans (length_frame m).symm)
    have hmessage := messageOf_frame_eq_iff.mpr hzeros
    have hlength := (messageOf_eq_iff.mp hmessage).2.1
    have hblock : lengthOf calls (frame m) + 1 < 2 ^ 32 := by
      rw [hlength]
      exact hfits
    rw [if_neg ((block_holds_iff hearly).mpr hblock)]
    refine ⟨_, rfl, ?_⟩
    rintro received h
    cases h
    exact ⟨rfl, hmessage⟩

end

/-- A success means that the whole frame arrived and was read as it was sent exactly for these
calls and cuts: nothing is read at all, a call comes to the end of what has arrived at the beginning
of a field, or the frame is whole and what `recv` left out of its place is zero anyway. -/
theorem frame_intact_iff (m : IPCMessage) (sendCalls : SendCalls) (calls : RecvCalls)
    (stream : List UInt8) (hwritten : stream <+: (transportSendmsg sendCalls m).2) :
    Intact m stream (transportRecvmsg calls stream) ↔
      (beforeReading calls).isSome ∨ StopsEarly calls stream ∨ ReadWhole m calls stream := by
  have hsent := hwritten.trans (transportSendmsg_written sendCalls m)
  unfold transportRecvmsg
  cases hbefore : beforeReading calls with
  | some code => simp [intact_error code]
  | none =>
    by_cases hearly : StopsEarly calls stream
    · simp [readFields_of_stopsEarly hearly, intact_error, hearly]
    · simp [intact_readFields_iff hsent hearly, hearly]

/-- Everything works, and every `recv` gives all that it is asked for. -/
def allSent : SendCalls := ⟨true, 0, true, true, true, true⟩

def allReceived (n : Nat) : RecvCalls :=
  ⟨true, false, .ready, .accepted, 0, .ready, some 4, some 4, some n⟩

def twoBytes : IPCMessage := ⟨7, [65, 66], by decide⟩

theorem frame_intact_iff_twoBytes :
    Intact twoBytes (frame twoBytes) (transportRecvmsg (allReceived 2) (frame twoBytes)) := by
  have hsent : frame twoBytes <+: (transportSendmsg allSent twoBytes).2 := by decide +kernel
  have hwhole : ReadWhole twoBytes (allReceived 2) (frame twoBytes) := by
    refine ⟨?_, ?_, ?_⟩ <;> decide +kernel
  exact (frame_intact_iff twoBytes allSent (allReceived 2) _ hsent).mpr (.inr (.inr hwhole))

/-- The peer closes after the first byte of the payload: the message is received with success, and
with a zero for the second. -/
theorem frame_not_intact :
    ∃ received : IPCMessage,
      (frame twoBytes).take 9 <+: (transportSendmsg allSent twoBytes).2 ∧
      (frame twoBytes).take 9 ≠ frame twoBytes ∧
      transportRecvmsg (allReceived 2) ((frame twoBytes).take 9) = some (.ok received) ∧
      received.payload = [65, 0] ∧
      ¬ Intact twoBytes ((frame twoBytes).take 9)
        (transportRecvmsg (allReceived 2) ((frame twoBytes).take 9)) := by
  have hresult : transportRecvmsg (allReceived 2) ((frame twoBytes).take 9) =
      some (.ok ⟨7, [65, 0], by decide⟩) := by
    decide +kernel
  have hcut : (frame twoBytes).take 9 ≠ frame twoBytes := by decide +kernel
  refine ⟨⟨7, [65, 0], by decide⟩, by decide +kernel, hcut, hresult, rfl, ?_⟩
  rintro ⟨out, hout, hok⟩
  cases hout
  exact hcut (hok _ rfl).1

end ZilkerSdk.Ipc
