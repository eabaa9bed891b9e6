import ChordPad.LayoutText
import ChordPad.KeyLayout
import ChordPad.ChordMap
import ChordPad.ScanConfig
import ChordPad.Board.Recorded
import ChordPad.Board.Rig
import ChordPad.Board.Bench
import ChordPad.Board.Clock
import ChordPad.Round
import ChordPad.Usb.Device
import ChordPad.Embed
import ChordPad.Proofs.HostView
import ChordPad.Proofs.Scanner.Debouncing
import ChordPad.Proofs.Scanner.Overflow
import ChordPad.Proofs.DeclaredFields
import ChordPad.Proofs.Rendering
import ChordPad.Proofs.Interruption
import ChordPad.Proofs.Scanner.Wiring
import ChordPad.Proofs.Scanner.Priority
import ChordPad.Proofs.Scanner.Strictness
import ChordPad.Proofs.Scanner.Draining
import ChordPad.Proofs.Board.Selections
import ChordPad.Proofs.Board.Upkeep
import ChordPad.Proofs.Dispatching
import ChordPad.Proofs.Refusal
import ChordPad.Proofs.Spelling
import ChordPad.Proofs.NameRules
import ChordPad.Proofs.Formatting
import ChordPad.Proofs.Embedding
import ChordPad.Proofs.LayoutCells
import ChordPad.Proofs.ChordOrder
import ChordPad.Proofs.ControlRequests
