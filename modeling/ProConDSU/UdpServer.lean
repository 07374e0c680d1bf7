import ProConDSU.Utils

/-!
# The UDP server

`udp_server.cpp`'s loop, over what it finds each time round: whether a stop was requested, and what
`select` reports, a datagram being one it goes on to receive. The message handler has a state of its
own.
-/

namespace ProConDSU

/-- `sockaddr_in`'s address and port. -/
structure Connection where
  addr : UInt32
  port : UInt16
  deriving DecidableEq

structure Datagram where
  payload : ByteBuffer
  sender : Connection
  length_le : payload.length ≤ 65507

inductive SelectResult
  | error
  | timeout
  /-- The socket is readable, but `recvfrom` finds an error there and no datagram, such as the reset
  that an earlier reply to a closed port comes back as. -/
  | recvError
  | ready (d : Datagram)

structure Round where
  stopRequested : Bool
  select : SelectResult

/-- What is relied on of Winsock's `recvfrom`. Given the datagram's payload and the buffer, it is
the number of bytes received and the buffer after, or none for `SOCKET_ERROR`. -/
structure Winsock where
  recvfrom : ByteBuffer → ByteBuffer → Option (ℕ × ByteBuffer)
  recv_fits : ∀ d buf : ByteBuffer, d.length ≤ buf.length →
    recvfrom d buf = some (d.length, d ++ buf.drop d.length)
  /-- `WSAEMSGSIZE` -/
  recv_msgsize : ∀ d buf : ByteBuffer, buf.length < d.length → recvfrom d buf = none

/-- `std::function<ByteBuffer(const ByteBuffer &, Connection)>`, over a state `σ`. -/
abbrev MsgHandler (σ : Type) := ByteBuffer → Connection → σ → Exec (ByteBuffer × σ)

def defaultMessageHandler {σ : Type} : MsgHandler σ := fun buf _ s => .ok (buf, s)

/-- Where `listen` stands: whether it is in its loop, the handler's state, what was handed to the
handler and what was sent. -/
structure Listening (σ : Type) where
  running : Bool
  handler : σ
  handled : List (ByteBuffer × Connection)
  sent : List (ByteBuffer × Connection)

namespace Listening

variable {σ : Type}

def start (s : σ) : Listening σ := ⟨true, s, [], []⟩

def send (l : Listening σ) (buf : ByteBuffer) (conn : Connection) : Listening σ :=
  if 0 < buf.length then { l with sent := l.sent ++ [(buf, conn)] } else l

def iterate (ws : Winsock) (msgHandler : MsgHandler σ) (l : Listening σ) :
    SelectResult → Exec (Listening σ)
  | .error => .ok { l with running := false }
  | .timeout => .ok l
  -- whatever the error, the loop is left
  | .recvError => .ok { l with running := false }
  | .ready d =>
    match ws.recvfrom d.payload (List.replicate 512 0) with
    | none => .ok { l with running := false }
    | some (recvLen, recvBuf) => do
      let buf := recvBuf.take recvLen
      let (retBuffer, s) ← msgHandler buf d.sender l.handler
      let l := { l with handler := s, handled := l.handled ++ [(buf, d.sender)] }
      return l.send retBuffer d.sender

end Listening

def listen {σ : Type} (ws : Winsock) (msgHandler : MsgHandler σ) (l : Listening σ) :
    List Round → Exec (Listening σ)
  | [] => .ok l
  | r :: rs =>
    if l.running && !r.stopRequested then do
      let l ← l.iterate ws msgHandler r.select
      listen ws msgHandler l rs
    else .ok { l with running := false }

end ProConDSU
