import ChordPad.Report
import ChordPad.Request
import ChordPad.Usb.ReportWriter

/-! The station carries requests out: it keeps the lamp and the report, and writes reports to an
endpoint. The work is a list of tasks, so that it can stop at a packet that has to wait and go on
from there. Failures of the lamp and of the endpoint are passed over. -/
namespace ChordPad

/-- The smallest things to be done for a request. -/
inductive Task
  | lamp (level : Level)
  | chord (codes : List KeyCode)
  | press (code : KeyCode)
  /-- Sends the report with the codes pressed so far. -/
  | report
  /-- Sends what is left of a report. -/
  | packets (left : List Packet)
  | release
  deriving DecidableEq, Repr

/-- A chord is pressed at once and then let go. -/
def Request.tasks : Request → List Task
  | .lamp level => [.lamp level]
  | .send chord => .chord chord :: chord.map .press ++ [.report, .release, .report]

structure Station (ε : Type) where
  report : Report := {}
  endpoint : ε
  lampWorks : Bool := true
  /-- The level that the lamp was last given. -/
  lamp : Level := .low

namespace Station
variable {ε : Type} [Endpoint ε]

inductive Progress
  | finished
  | waiting (left : List Task)
  /-- The endpoint takes packets of no size. -/
  | noPacketSize
  deriving DecidableEq, Repr

/-- Takes over the endpoint after a write, with the events and the outcome. A failed report is
dropped. -/
def written (st : Station ε) : ε × List ReportWriter.Attempt × ReportWriter.Outcome →
    Station ε × List Event × Progress
  | (endpoint, attempts, outcome) =>
    ({ st with endpoint }, attempts.map fun a => .packet a.packet a.taken, match outcome with
      | .done | .failed _ => .finished
      | .waiting left => .waiting [.packets left]
      | .noPacketSize => .noPacketSize)

def attempt (st : Station ε) : Task → Station ε × List Event × Progress
  | .lamp level =>
    ({ st with lamp := if st.lampWorks then level else st.lamp }, [.lamp level st.lampWorks], .finished)
  | .chord codes => (st, [.chord codes], .finished)
  | .press code => ({ st with report := st.report.press code }, [], .finished)
  | .report => st.written (ReportWriter.write Report.size st.endpoint st.report.bytes)
  | .packets left => st.written (ReportWriter.writePackets st.endpoint left)
  | .release => ({ st with report := {} }, [], .finished)

def perform (st : Station ε) : List Task → Station ε × List Event × Progress
  | [] => (st, [], .finished)
  | task :: rest =>
    match st.attempt task with
    | (st, events, .finished) =>
      let (st, later, progress) := perform st rest
      (st, events ++ later, progress)
    | (st, events, .waiting left) => (st, events, .waiting (left ++ rest))
    | (st, events, .noPacketSize) => (st, events, .noPacketSize)

/-- Presses every code of a chord at once, then lets them all go. -/
def send (st : Station ε) (chord : List KeyCode) : Station ε × List Event × Progress :=
  st.perform (Request.send chord).tasks

def dispatch (map : ChordMap) (st : Station ε) (keys : List KeyCode) :
    Station ε × List Event × Progress :=
  st.perform ((map.requests keys).flatMap Request.tasks)

end Station
end ChordPad
