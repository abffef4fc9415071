import DockConsole.Canvas.Sheets
import DockConsole.Main
import DockConsole.Table.Session
import DockConsole.Proofs.Rows.Highlight
import DockConsole.Proofs.Rows.Keys
import DockConsole.Proofs.Rows.Narrowing
import DockConsole.Proofs.Window.Convergence
import DockConsole.Proofs.Table.Selection
import DockConsole.Proofs.Table.History
import DockConsole.Proofs.Table.Lines
import DockConsole.Proofs.Table.Refresh
import DockConsole.Proofs.Table.Conservation
import DockConsole.Proofs.App.Trace
import DockConsole.Proofs.App.Navigation
import DockConsole.Proofs.Canvas.Runs
import DockConsole.Proofs.Daemon.Retries
import DockConsole.Proofs.Daemon.Reports
import DockConsole.Proofs.Screen.Painting
import DockConsole.Proofs.App.Layout
import DockConsole.Proofs.App.Failures
import DockConsole.Proofs.Table.Place
import DockConsole.Proofs.App.Mounted
import DockConsole.Proofs.App.Message
import DockConsole.Proofs.Log.Path
import DockConsole.Proofs.Log.Sinks
import DockConsole.Proofs.Table.Marks
import DockConsole.Proofs.Log.Ownership
import DockConsole.Proofs.Text.Trim
import DockConsole.Proofs.Prompt.Caret
import DockConsole.Proofs.Header.Columns
import DockConsole.Proofs.Canvas.Decoding
import DockConsole.Proofs.App.Landing
import DockConsole.Proofs.Daemon.Address
import DockConsole.Proofs.Table.Dispatch
import DockConsole.Proofs.Window.Sight
import DockConsole.Proofs.Canvas.Replay
import DockConsole.Proofs.Canvas.Reading
import DockConsole.Proofs.Header.TitleLine
import DockConsole.Proofs.Screen.Clipping
import DockConsole.Proofs.Window.Monotone
import DockConsole.Proofs.Container.Ports
import DockConsole.Proofs.Log.Levels
import DockConsole.Proofs.Header.Widening
import DockConsole.Proofs.NameMap.History
