import ScrFetch.Window.Model
import ScrFetch.Window.Moves
import ScrFetch.Window.GoFlags
import ScrFetch.Window.Width
import ScrFetch.Window.Liveness
import ScrFetch.Window.Messages
import ScrFetch.Window.Flow
import ScrFetch.Io.Basic
import ScrFetch.Io.Filemap
import ScrFetch.Io.Posix
import ScrFetch.Container.Reader
import ScrFetch.Container.Copy
import ScrFetch.Container.Correct
import ScrFetch.Container.Frame
import ScrFetch.Container.Progress
import ScrFetch.Files.List
import ScrFetch.Files.Summary
import ScrFetch.Files.Recorded
import ScrFetch.Files.Fetch
import ScrFetch.Sync.Candidate
import ScrFetch.Sync.Progress
import ScrFetch.Sync.Index
import ScrFetch.Sync.Collective
import ScrFetch.Sync.Job
