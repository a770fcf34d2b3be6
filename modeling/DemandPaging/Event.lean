/-
  What the log tells.

  An event is a fact that the machine reports while it works; `Event.level` says
  how urgent it is and `Event.text` how the log words it.
-/
import DemandPaging.Page
import DemandPaging.Location
import DemandPaging.Block.Kind

namespace DemandPaging

/-- How urgent a log line is, the most urgent first. -/
inductive LogLevel where
  | error
  | warn
  | info
  | debug
  | trace
  deriving DecidableEq, Repr

/-- How the log names a level. -/
def LogLevel.text : LogLevel → String
  | error => "ERROR"
  | warn => "WARN"
  | info => "INFO"
  | debug => "DEBUG"
  | trace => "TRACE"

/-- A fact that the machine reports. -/
inductive Event where
  /-- A block device was registered. -/
  | deviceRegistered (name : String) (kind : DeviceKind) (sectors : Nat)
  /-- A device became the swap space. -/
  | swapSelected (name : String) (slots : Nat)
  /-- No slot was free. -/
  | swapFull (slots : Nat)
  /-- The manager was set up. -/
  | started (frames slots stackLimit : Nat)
  /-- A frame was given to a page. -/
  | frameAssigned (frame : Frame) (page : Page) (pid : Nat)
  /-- A page lost its frame. -/
  | evicted (page : Page) (pid : Nat) (frame : Frame) (eviction : Eviction)
  /-- A process touched a kernel address. -/
  | kernelFault (pid address : Nat)
  /-- A process wrote to a read-only page. -/
  | readOnlyWrite (pid : Nat) (page : Page)
  /-- A process's stack took a page. -/
  | stackGrown (pid : Nat) (page : Page)
  /-- A process touched an address that is none of its own. -/
  | invalidAccess (pid address stackPointer : Nat)
  /-- A file ended before the page was full. -/
  | shortRead (pid : Nat) (page : Page) (offset : Nat)
  /-- A process's memory was given back. -/
  | tornDown (pid frames slots : Nat)
  deriving DecidableEq, Repr

namespace Event

/-- How urgent an event is. -/
def level : Event → LogLevel
  | deviceRegistered .. | swapSelected .. | started .. | tornDown .. => .info
  | swapFull .. | shortRead .. => .warn
  | evicted .. | kernelFault .. | readOnlyWrite .. | stackGrown .. | invalidAccess .. => .debug
  | frameAssigned .. => .trace

/-- How the log words an event. -/
def text : Event → String
  | deviceRegistered name kind sectors =>
    s!"block: registered \"{name}\" (" ++ kind.text ++ s!") with {sectors} sectors"
  | swapSelected name slots => s!"swap: using \"{name}\" for {slots} page slots"
  | swapFull slots => s!"swap: all {slots} slots in use"
  | started frames slots stackLimit =>
    s!"vm: {frames} user frames, {slots} swap slots, stack limit " ++ Hex.text stackLimit
  | frameAssigned frame page pid =>
    frame.text ++ " now holds " ++ page.text ++ s!" of process {pid}"
  | evicted page pid frame eviction =>
    "evicted " ++ page.text ++ s!" of process {pid} from " ++ frame.text ++ " (" ++
      eviction.debugText ++ ")"
  | kernelFault pid address => s!"process {pid}: fault on kernel address " ++ Hex.text address
  | readOnlyWrite pid page => s!"process {pid}: write to read-only " ++ page.text
  | stackGrown pid page => s!"process {pid}: stack grows to " ++ page.text
  | invalidAccess pid address stackPointer =>
    s!"process {pid}: invalid access to " ++ Hex.text address ++ " (esp " ++
      Hex.text stackPointer ++ ")"
  | shortRead pid page offset =>
    s!"process {pid}: short read loading " ++ page.text ++ " from offset " ++ Hex.text offset
  | tornDown pid frames slots =>
    s!"vm: process {pid} released {frames} frames and {slots} swap slots"

/-- The line that the log shows for an event. -/
def line (event : Event) : String :=
  event.level.text ++ " " ++ event.text

end Event

end DemandPaging
