import ProConDSU.DsuServer
import ProConDSU.Lib.Latch

/-!
# The process

`main.cpp`, with the threads that `udp_server.cpp` and `dsu_server.cpp` start: main, the listener,
the updater, and a thread of its own for each call of `ConsoleCtrlHandler`. Any of them takes the
next step. `mtx`, `cv` and `shutdown_requested` are a latch. Nothing catches what the message
handler throws, so `std::terminate` ends the process there: a step is then an error.

`Process` takes the listener's call of the handler at once, and `SplitProcess` in pieces.
-/

namespace ProConDSU

/-- The threads that lock `mtx`. -/
inductive Thread
  | main
  | console (n : ℕ)
  deriving DecidableEq

def ctrlCEvent : UInt32 := 0
def ctrlBreakEvent : UInt32 := 1

/-- What `ConsoleCtrlHandler` returns; where it is true, `shutdown_requested` is set on the way. -/
def consoleCtrlHandler (dwCtrlType : UInt32) : Bool :=
  dwCtrlType == ctrlCEvent || dwCtrlType == ctrlBreakEvent

inductive MainAt
  | starting
  /-- In `waitForCtrlC`. -/
  | waiting
  /-- In `server.wait()`. -/
  | joining
  | joined
  /-- In `~DsuServer`, joining the updater. -/
  | destroying
  | returned
  deriving DecidableEq

inductive ListenerAt
  | unstarted
  | checking
  | selecting
  | ended
  deriving DecidableEq

inductive UpdaterAt
  | checking
  | sleeping
  | ended
  deriving DecidableEq

structure Process where
  shutdown : Latch Thread
  main : MainAt
  /-- Whether `listenThread`'s stop has been requested. -/
  listenStop : Bool
  listener : ListenerAt
  listening : Listening DsuServer
  updateStop : Bool
  updater : UpdaterAt

inductive ProcessEvent
  /-- The system calls `ConsoleCtrlHandler` on thread `n`. -/
  | console (n : ℕ) (dwCtrlType : UInt32)
  /-- The thread's next step in `waitForCtrlC` or in `ConsoleCtrlHandler`. -/
  | shutdown (t : Thread)
  /-- `cv.wait` wakes the thread of itself. -/
  | wakes (t : Thread)
  | start
  | stop
  | join
  | destroy
  | exit
  | listenerChecks
  | serves (stack : Stack) (select : SelectResult)
  | updates
  | inputStatus (handle : ℕ) (status : InputStatus)

namespace Process

/-- `main` once it has constructed `server`: the updater runs, the listener does not. -/
def boot (srv : DsuServer) : Process where
  shutdown := .boot
  main := .starting
  listenStop := false
  listener := .unstarted
  listening := .start srv
  updateStop := false
  updater := .checking

def server (p : Process) : DsuServer := p.listening.handler

def setServer (p : Process) (srv : DsuServer) : Process :=
  { p with listening := { p.listening with handler := srv } }

/-- `server.start(); waitForCtrlC();` up to the lock. -/
def start (p : Process) : Option Process :=
  if p.main = .starting then
    (p.shutdown.step (.waits .main)).map fun shutdown =>
      { p with shutdown := shutdown, main := .waiting, listener := .checking }
  else none

def listenerChecks (p : Process) : Option Process :=
  if p.listener = .checking then
    some (if p.listenStop then
      { p with listener := .ended, listening := { p.listening with running := false } }
    else { p with listener := .selecting })
  else none

/-- The updater's loop: `update` does nothing. -/
def updates (p : Process) : Option Process :=
  match p.updater with
  | .checking => some { p with updater := if p.updateStop then .ended else .sleeping }
  | .sleeping => some { p with updater := .checking }
  | .ended => none

/-- `main`'s destructors end the controllers. -/
def inputStatus (p : Process) (handle : ℕ) (status : InputStatus) : Option Process :=
  if p.main = .returned then none
  else
    (p.server.controllerManager.controllers.find? (·.handle = handle)).map fun c =>
      p.setServer { p.server with
        controllerManager := c.deliver status p.server.controllerManager }

/-- Where the handler returns false the system's default handler is next, which may end the process:
the step is then that of an event which the process survives. -/
def console (p : Process) (n : ℕ) (dwCtrlType : UInt32) : Option Process :=
  if p.main = .returned then none
  else if consoleCtrlHandler dwCtrlType then
    (p.shutdown.step (.raises (.console n))).map fun shutdown => { p with shutdown := shutdown }
  else some p

/-- `std::bind_front(&DsuServer::handleMessage, this)` -/
def msgHandler (stack : Stack) : MsgHandler DsuServer :=
  fun buf conn srv => srv.handleMessage stack buf conn

/-- The rest of the loop's body, once `select` has returned. -/
def serves (ws : Winsock) (p : Process) (stack : Stack) (select : SelectResult) :
    Exec (Option Process) :=
  if p.listener = .selecting then
    match p.listening.iterate ws (msgHandler stack) select with
    | .error f => .error f
    | .ok listening => .ok (some { p with
        listening := listening
        listener := if listening.running then .checking else .ended })
  else .ok none

/-- A step, where it can be taken. -/
def step (ws : Winsock) (p : Process) : ProcessEvent → Exec (Option Process)
  | .console n dwCtrlType => .ok (p.console n dwCtrlType)
  | .shutdown t =>
    .ok ((p.shutdown.step (.acts t)).map fun shutdown => { p with shutdown := shutdown })
  | .wakes t =>
    .ok ((p.shutdown.step (.wakes t)).map fun shutdown => { p with shutdown := shutdown })
  | .start => .ok p.start
  | .stop =>
    .ok (if p.main = .waiting ∧ p.shutdown.place .main = .through then
      some { p with main := .joining, listenStop := true } else none)
  | .join =>
    .ok (if p.main = .joining ∧ p.listener = .ended then some { p with main := .joined } else none)
  | .destroy =>
    .ok (if p.main = .joined then some { p with main := .destroying, updateStop := true } else none)
  | .exit =>
    .ok (if p.main = .destroying ∧ p.updater = .ended then some { p with main := .returned }
      else none)
  | .listenerChecks => .ok p.listenerChecks
  | .serves stack select => p.serves ws stack select
  | .updates => .ok p.updates
  | .inputStatus handle status => .ok (p.inputStatus handle status)

end Process

abbrev ProcessRun (ws : Winsock) (p : Process) (es : List ProcessEvent) (p' : Process) : Prop :=
  Run (fun p e p' => Process.step ws p e = .ok (some p')) p es p'

/-! ## With the handler in pieces -/

/-- The process, its listener's call of `handleMessage` being taken a piece at a time. As in
`HandlerState.step`, the copy of the cached status is one piece. -/
structure SplitProcess where
  process : Process
  handling : Handling
  /-- Whom the datagram in hand is from. -/
  sender : Connection

inductive SplitEvent
  /-- A step of the process in which no datagram is received. -/
  | whole (e : ProcessEvent)
  /-- `recvfrom`, and `handleMessage` up to its call of `buildControllerDataResponse`. -/
  | receives (stack : Stack) (d : Datagram)
  | checks
  | copies
  | sends

namespace SplitProcess

def boot (srv : DsuServer) : SplitProcess := ⟨.boot srv, .idle, ⟨0, 0⟩⟩

def handler (q : SplitProcess) : HandlerState := ⟨q.process.server, q.handling⟩

def setHandler (q : SplitProcess) (s : HandlerState) : SplitProcess :=
  { q with process := q.process.setServer s.server, handling := s.handling }

/-- Whether the listener does not take the step whole: it has received a datagram, or is still
busy with one. -/
def withholds (q : SplitProcess) : ProcessEvent → Bool
  | .serves _ (.ready _) => true
  | .serves _ .error | .serves _ .timeout | .serves _ .recvError =>
    match q.handling with
    | .idle => false
    | _ => true
  | _ => false

def handles (q : SplitProcess) (e : HandlerEvent) : Exec (Option SplitProcess) :=
  (q.handler.step e).map (Option.map q.setHandler)

def receives (ws : Winsock) (q : SplitProcess) (stack : Stack) (d : Datagram) :
    Exec (Option SplitProcess) :=
  if q.process.listener = .selecting then
    match ws.recvfrom d.payload (List.replicate 512 0), q.handling with
    | none, .idle => .ok (some { q with process := { q.process with
        listener := .ended
        listening := { q.process.listening with running := false } } })
    | some (recvLen, recvBuf), .idle =>
      let buf := recvBuf.take recvLen
      let listening := { q.process.listening with
        handled := q.process.listening.handled ++ [(buf, d.sender)] }
      handles { q with process := { q.process with listening := listening }, sender := d.sender }
        (.receives stack buf d.sender)
    | _, _ => .ok none
  else .ok none

/-- `send(retBuffer, conn)`, and back to the loop's condition. -/
def sends (q : SplitProcess) : Option SplitProcess :=
  match q.handling with
  | .returning retBuffer => some { q with
      process := { q.process with
        listener := .checking
        listening := q.process.listening.send retBuffer q.sender }
      handling := .idle }
  | _ => none

def step (ws : Winsock) (q : SplitProcess) : SplitEvent → Exec (Option SplitProcess)
  | .whole e =>
    if q.withholds e then .ok none
    else (q.process.step ws e).map (Option.map fun p => { q with process := p })
  | .receives stack d => q.receives ws stack d
  | .checks => q.handles .checks
  | .copies => q.handles .copies
  | .sends => .ok q.sends

end SplitProcess

abbrev SplitRun (ws : Winsock) (q : SplitProcess) (es : List SplitEvent) (q' : SplitProcess) :
    Prop :=
  Run (fun q e q' => SplitProcess.step ws q e = .ok (some q')) q es q'

end ProConDSU
