import CdDaReader.Rust.Loop
import CdDaReader.Rust.Exec
import CdDaReader.Rust.Relational
import CdDaReader.Rust.Words
import CdDaReader.Rust.Blocks
import CdDaReader.Rust.Riff
import CdDaReader.Rust.Sorted
import CdDaReader.Order.Spans
import CdDaReader.Data
import CdDaReader.Drive
import CdDaReader.Cdb
import CdDaReader.Platform
import CdDaReader.ReadLoop
import CdDaReader.ReadLoop.Rounds
import CdDaReader.ReadLoop.Exact
import CdDaReader.ReadLoop.Range
import CdDaReader.ReadLoop.Retries
import CdDaReader.ReadLoop.Backoff
import CdDaReader.ReadLoop.Wire
import CdDaReader.ReadLoop.Policies
import CdDaReader.ReadLoop.Cost
import CdDaReader.TrackBounds
import CdDaReader.TrackBounds.Partition
import CdDaReader.Reader
import CdDaReader.Stream
import CdDaReader.Reader.Requests
import CdDaReader.Stream.Cursor
import CdDaReader.Stream.Refinement
import CdDaReader.Stream.Draining
import CdDaReader.Stream.Confinement
import CdDaReader.Stream.Totality
import CdDaReader.TrackInformation
import CdDaReader.TrackInformation.Declared
import CdDaReader.Detect
import CdDaReader.Detect.Sound
import CdDaReader.ParseToc
import CdDaReader.ParseToc.Declared
import CdDaReader.ParseToc.Overflow
import CdDaReader.ParseToc.Msf
import CdDaReader.ParseToc.Responses
import CdDaReader.ParseToc.Truncation
import CdDaReader.TocReader
import CdDaReader.TocReader.Table
import CdDaReader.TocReader.Output
import CdDaReader.TocReader.Platforms
import CdDaReader.TocReader.Normaliser
import CdDaReader.Wav
import CdDaReader.Mmc.ReadCd
import CdDaReader.Platform.MacOs
import CdDaReader.Platform.Medium
import CdDaReader.Platform.Agreement
import CdDaReader.Platform.Errors
import CdDaReader.Reader.ReadToc
import CdDaReader.Stream.Sharing
import CdDaReader.Program
import CdDaReader.Program.Streams
import CdDaReader.Ripping
import CdDaReader.Detect.RawSector
import CdDaReader.Detect.Medium
import CdDaReader.DataTracks
import CdDaReader.Discovery
import CdDaReader.Floating.Rounding
import CdDaReader.Floating.Value
import CdDaReader.Floating.Remainder
import CdDaReader.Stream.Seconds
import CdDaReader.Durations
import CdDaReader.Saving
import CdDaReader.Progress
import CdDaReader.Preview
