import ZilkerSdk.Lib.Octets

/-!
# Messages over a socket

Model of `transport_sendmsg` and `transport_recvmsg` in
`libs/ipc/c/src/transport/transport_unix_socket.c`.  A message is sent as its code, the length of
its payload and the payload, and read back with one call of `recv` for each.

* What the system answers is an input: whether the socket is known and ready, and what each `send`
  and each `recv` does.  A `send` fails or takes all its bytes.  A `recv` fails, or gives at least
  one and at most as many bytes as were asked for, or nothing when the peer has closed and
  everything has been read.
* The variables that `recv` fills are set to zero before, so that a `recv` that gives fewer bytes
  leaves zeros behind them.
* `calloc` is given `msgLen + 1` in 32 bits.  Writing past the end of its block is undefined.
* The map of transports and the control block are not modelled: what the two functions do with
  them has no effect on the message.
-/

namespace ZilkerSdk.Ipc

open Lib

/-- The codes that the two functions and the handlers of requests return; success comes with a
message or with what was written. -/
inductive IPCCode where
  | success
  | generalError
  | sendError
  | readError
  | invalidError
  | serviceDisabled
  | timeout
deriving DecidableEq

/-- `IPCMessage`: the bits of the code, and a payload whose length fits `payloadLen`. -/
structure IPCMessage where
  msgCode : UInt32
  payload : List UInt8
  payload_lt : payload.length < 2 ^ 32
deriving DecidableEq

def IPCMessage.payloadLen (m : IPCMessage) : Nat := m.payload.length

/-! ## Sending -/

/-- What the system answers while a message is sent. -/
structure SendCalls where
  socketKnown : Bool
  timeoutSecs : Int
  canWrite : Bool
  sendCode : Bool
  sendLength : Bool
  sendPayload : Bool

/-- The code that is returned and the bytes that were written. -/
def transportSendmsg (calls : SendCalls) (m : IPCMessage) : IPCCode × List UInt8 :=
  let code := toBytes 4 m.msgCode.toNat
  let length := toBytes 4 m.payloadLen
  if !calls.socketKnown then (.invalidError, [])
  else if calls.timeoutSecs > 0 ∧ !calls.canWrite then (.timeout, [])
  else if !calls.sendCode then (.sendError, [])
  else if !calls.sendLength then (.sendError, code)
  else if m.payloadLen > 0 ∧ !calls.sendPayload then (.sendError, code ++ length)
  else (.success, code ++ length ++ m.payload)

/-! ## Receiving -/

/-- What `canReadFromServiceSocket` returns. -/
inductive SocketWait where
  | ready
  /-- `EAGAIN` or `ETIMEDOUT` -/
  | timedOut
  /-- `EINTR` -/
  | shutDown
  | failed
deriving DecidableEq

inductive AcceptResult where
  | accepted
  /-- `EBADF` -/
  | closed
  /-- `EINVAL`, `ENOMEM`, `ENOBUFS`, `EMFILE` or `ENFILE` -/
  | failed
  | other
deriving DecidableEq

/-- What the system answers while a message is read.  A call of `recv` fails or is ready to give
this many bytes. -/
structure RecvCalls where
  socketKnown : Bool
  control : Bool
  clientWait : SocketWait
  accept : AcceptResult
  timeoutSecs : Int
  readWait : SocketWait
  recvCode : Option Nat
  recvLength : Option Nat
  recvPayload : Option Nat

/-- How many bytes a `recv` gives that is asked for some and ready to give some. -/
def chunk (asked : Nat) : Option Nat → Nat
  | none => 0
  | some k => min (max 1 k) asked

theorem chunk_le (asked : Nat) (call : Option Nat) : chunk asked call ≤ asked := by
  cases call with
  | none => exact Nat.zero_le asked
  | some k => exact Nat.min_le_right _ _

inductive RecvResult (asked : Nat) where
  | failed
  /-- the peer has closed -/
  | closed
  | received (bytes rest : List UInt8) (h : bytes.length ≤ asked)

/-- `recv` with `MSG_WAITALL` on what has arrived and is not read. -/
def recv (stream : List UInt8) (asked : Nat) (call : Option Nat) : RecvResult asked :=
  if call = none then .failed
  else if stream = [] then .closed
  else .received (stream.take (chunk asked call)) (stream.drop (chunk asked call))
    (Nat.le_trans (List.length_take_le _ _) (chunk_le asked call))

/-- The code that is returned before anything is read. -/
def beforeReading (calls : RecvCalls) : Option IPCCode :=
  if !calls.socketKnown then some .invalidError
  else
    let client : Option IPCCode :=
      if calls.control then
        match calls.clientWait with
        | .timedOut => some .timeout
        | .shutDown => some .serviceDisabled
        | .failed => some .readError
        | .ready =>
          match calls.accept with
          | .accepted => none
          | .closed => some .serviceDisabled
          | .failed => some .readError
          | .other => some .timeout
      else none
    match client with
    | some code => some code
    | none =>
      if calls.timeoutSecs > 0 then
        match calls.readWait with
        | .ready => none
        | .timedOut => some .timeout
        | .shutDown => some .serviceDisabled
        | .failed => some .readError
      else none

theorem ofBytes_pad_lt {bs : List UInt8} (h : bs.length ≤ 4) : ofBytes (pad 4 bs) < 2 ^ 32 := by
  have := ofBytes_lt (pad 4 bs)
  rwa [length_pad h] at this

/-- The part of `transport_recvmsg` that reads the three fields. -/
def readFields (calls : RecvCalls) (stream : List UInt8) : Option (Except IPCCode IPCMessage) :=
  match recv stream 4 calls.recvCode with
  | .failed | .closed => some (.error .readError)
  | .received codeBytes afterCode _ =>
    let msgCode := UInt32.ofNat (ofBytes (pad 4 codeBytes))
    match recv afterCode 4 calls.recvLength with
    | .failed | .closed => some (.error .readError)
    | .received lengthBytes afterLength hlength =>
      let msgLen := ofBytes (pad 4 lengthBytes)
      if msgLen > 0 then
        let allocated := (msgLen + 1) % 2 ^ 32
        match recv afterLength msgLen calls.recvPayload with
        | .failed | .closed => some (.error .readError)
        | .received bytes _ hbytes =>
          -- more than the block can hold is written past its end
          if allocated < bytes.length then none
          else some (.ok ⟨msgCode, pad msgLen bytes, by
            rw [length_pad hbytes]
            exact ofBytes_pad_lt hlength⟩)
      else some (.ok ⟨msgCode, [], by decide⟩)

/-- `transport_recvmsg` on the bytes that arrive before the peer closes: the code of an error, or
the message that comes with success. -/
def transportRecvmsg (calls : RecvCalls) (stream : List UInt8) :
    Option (Except IPCCode IPCMessage) :=
  match beforeReading calls with
  | some code => some (.error code)
  | none => readFields calls stream

end ZilkerSdk.Ipc
